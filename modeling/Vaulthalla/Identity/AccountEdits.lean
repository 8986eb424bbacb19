import Mathlib.Data.Fintype.Basic
import Vaulthalla.Foundation.ByteString
import Vaulthalla.Foundation.Pool
import Vaulthalla.Foundation.Transition

namespace Vaulthalla
namespace Identity
namespace AccountEdits

open Foundation Transition

/-!
# Edits of one account or group

`updateUser` and `updateGroup` read the published state, apply the caller's edit
to a copy, write the copy in one transaction and publish what is stored then.
The assignment and the removal of a vault role are transactions of their own.
Nothing keeps another transaction from committing between the read and the
write.

The columns that an update overwrites are one value of type `Profile`: those of
the account or group row and, for an account, its admin role and global vault
policies.  Vault roles are upserted, so an update removes none.  The statement
that would upsert their overrides is not prepared under the name it is called
by: an update of an account that has an override throws and is rolled back.
-/

/-- A permission and a path pattern, whether the override is enabled, and whether it allows. -/
abbrev Override := (Nat × Str) × Bool × Bool

/-- An assignment of a role in a vault, with the overrides that it was given. -/
structure VaultRole where
  roleId : Nat
  overrides : List Override
deriving DecidableEq

structure Account (Profile Vault : Type) where
  profile : Profile
  /-- The role in each vault. -/
  vaultRoles : Vault -> Option VaultRole

variable {Profile Vault : Type}

/-! ## Transactions -/

/-- One row for each permission and pattern. -/
def upsertOverride (stored : List Override) (override : Override) : List Override :=
  stored.filter (fun other => other.1 ≠ override.1) ++ [override]

/-- The row of an assignment, which keeps the overrides that it has. -/
def upsertVaultRole (stored : Option VaultRole) (role : VaultRole) : VaultRole where
  roleId := role.roleId
  overrides := role.overrides.foldl upsertOverride ((stored.map VaultRole.overrides).getD [])

section Write

variable [Fintype Vault]

/-- The account has a vault role with an override. -/
def Account.overrides (account : Account Profile Vault) : Bool :=
  decide (Exists fun vault : Vault => (account.vaultRoles vault).any (fun role => !role.overrides.isEmpty) = true)

/-- The transaction of `User::updateUser` and `Group::updateGroup`, unless it throws. -/
def Account.write (stored next : Account Profile Vault) : Option (Account Profile Vault) :=
  -- `upsertVaultRoles` executes `vault_permission_override_upsert`, which no connection has prepared
  if next.overrides then none
  else
    some
      { profile := next.profile
        vaultRoles := fun vault =>
          match next.vaultRoles vault with
          | none => stored.vaultRoles vault
          | some role => some (upsertVaultRole (stored.vaultRoles vault) role) }

end Write

section Roles

variable [DecidableEq Vault] (stored : Account Profile Vault) (vault : Vault)

/-- `Assignments::assign`, with the overrides of the role if it is given any. -/
def Account.assignVaultRole (role : VaultRole) : Account Profile Vault :=
  { stored with
    vaultRoles := Function.update stored.vaultRoles vault (some (upsertVaultRole (stored.vaultRoles vault) role)) }

/-- The overrides of an assignment go with it. -/
def Account.unassignVaultRole : Account Profile Vault :=
  { stored with vaultRoles := Function.update stored.vaultRoles vault none }

end Roles

/-! ## Calls -/

/-- What a caller asks for. -/
inductive Request (Profile Vault : Type)
  | update (edit : Account Profile Vault -> Account Profile Vault)
  | assign (vault : Vault) (role : VaultRole)
  | unassign (vault : Vault)

/-- The account as the caller means it to be. -/
def Request.apply [DecidableEq Vault] : Request Profile Vault -> Account Profile Vault -> Account Profile Vault
  | .update edit, account => edit account
  | .assign vault role, account => account.assignVaultRole vault role
  | .unassign vault, account => account.unassignVaultRole vault

/-- Where a call is. -/
inductive Call (Profile Vault : Type)
  | started (request : Request Profile Vault)
  /-- An update holds the copy it read and will edit. -/
  | read (edit : Account Profile Vault -> Account Profile Vault) (copy : Account Profile Vault)
  /-- Its change is committed; it returns once this is published. -/
  | committed | returned
  /-- Its transaction was rolled back, and the caller has the exception. -/
  | thrown (request : Request Profile Vault)

/-- The stored account, the one published to readers, and the calls; the history is there
to compare the account with a sequential run. -/
structure State (Profile Vault : Type) where
  (stored published : Account Profile Vault)
  /-- What the one load in progress has read. -/
  loading : Option (Account Profile Vault)
  calls : List (Call Profile Vault)
  /-- The requests in the order in which they were committed. -/
  history : List (Request Profile Vault)

/-- A load reads what is stored and publishes it later, in a step of its own. -/
inductive Label (Profile Vault : Type)
  | start (request : Request Profile Vault)
  | advance (call : Nat)
  | load | publish

section System

variable [DecidableEq Vault] [Fintype Vault] (state : State Profile Vault)

/-- The transaction of a call commits. -/
def commit (index : Nat) (request : Request Profile Vault) (account : Account Profile Vault) : State Profile Vault :=
  { state with stored := account, calls := state.calls.set index .committed, history := state.history ++ [request] }

/-- An update reads the published account and not the stored one, and is committed in a
second step.  The two other requests are transactions from the start. -/
def advance (index : Nat) : Call Profile Vault -> Option (State Profile Vault)
  | .started (.update edit) =>
    some { state with calls := state.calls.set index (.read edit state.published) }
  | .started (.assign vault role) =>
    some (commit state index (.assign vault role) (state.stored.assignVaultRole vault role))
  | .started (.unassign vault) => some (commit state index (.unassign vault) (state.stored.unassignVaultRole vault))
  | .read edit copy =>
    match state.stored.write (edit copy) with
    | none => some { state with calls := state.calls.set index (.thrown (.update edit)) }
    | some account => some (commit state index (.update edit) account)
  | .committed => some { state with calls := state.calls.set index .returned }
  | .returned | .thrown _ => none

def step : Label Profile Vault -> Option (State Profile Vault)
  | .start request => some { state with calls := state.calls ++ [.started request] }
  | .advance index => state.calls[index]?.bind (advance state index)
  | .load => if state.loading.isNone then some { state with loading := some state.stored } else none
  | .publish => state.loading.map fun loaded => { state with published := loaded, loading := none }

end System

def initial (account : Account Profile Vault) : State Profile Vault := ⟨account, account, none, [], []⟩

/-! ## Updates that do not overlap -/

/-- Every vault role of the account is kept, with its overrides. -/
def Keeps (account edited : Account Profile Vault) : Prop :=
  forall vault role, account.vaultRoles vault = some role ->
    Exists fun kept => edited.vaultRoles vault = some kept ∧ role.overrides ⊆ kept.overrides

/-- An update writes over the account that it read, and its edit removes no vault role and no override. -/
def Undisturbed (state : State Profile Vault) : Label Profile Vault -> Prop
  | .advance index => forall edit copy, state.calls[index]? = some (.read edit copy) ->
      copy = state.stored ∧ Keeps copy (edit copy)
  | _ => True

def Label.requests : Label Profile Vault -> List (Request Profile Vault)
  | .start request => [request]
  | _ => []

/-- The request of a call that is not committed. -/
def Call.pending : Call Profile Vault -> List (Request Profile Vault)
  | .started request | .thrown request => [request]
  | .read edit _ => [.update edit]
  | .committed | .returned => []

/-- An update that keeps the vault roles and does not throw stores what the caller means. -/
theorem write_eq [Fintype Vault] {stored edited account : Account Profile Vault} (keeps : Keeps stored edited)
    (written : stored.write edited = some account) : account = edited := by
  unfold Account.write at written
  split at written
  case isTrue => cases written
  case isFalse isPlain =>
    cases written
    simp only [Account.overrides, Bool.not_eq_true, decide_eq_false_iff_not, not_exists] at isPlain
    suffices same : forall vault, (match edited.vaultRoles vault with
        | none => stored.vaultRoles vault
        | some role => some (upsertVaultRole (stored.vaultRoles vault) role)) = edited.vaultRoles vault by
      rw [funext same]
    intro vault
    cases isEdited : edited.vaultRoles vault with
    | none =>
      cases isStored : stored.vaultRoles vault with
      | none => rfl
      | some role =>
        rcases keeps vault role isStored with ⟨kept, isKept, _⟩
        cases isEdited.symm.trans isKept
    | some role =>
      have noOverride : role.overrides = [] := by simpa [isEdited] using isPlain vault
      have noneStored : ((stored.vaultRoles vault).map VaultRole.overrides).getD [] = [] := by
        cases isStored : stored.vaultRoles vault with
        | none => rfl
        | some old =>
          rcases keeps vault old isStored with ⟨kept, isKept, within⟩
          cases isEdited.symm.trans isKept
          exact List.subset_nil.mp (noOverride ▸ within)
      have same : upsertVaultRole (stored.vaultRoles vault) role = ⟨role.roleId, role.overrides⟩ := by
        rw [upsertVaultRole, noOverride, noneStored, List.foldl_nil]
      exact congrArg some same

section Runs

variable [DecidableEq Vault]

/-- The stored account is what the committed requests make of the first one. -/
def Sequential (account : Account Profile Vault) (state : State Profile Vault) : Prop :=
  state.stored = state.history.foldl (fun account request => request.apply account) account

variable [Fintype Vault] {label : Label Profile Vault} {next state : State Profile Vault}

/-- A commit adds its request to the history and, since it was undisturbed, applies it to
the account that the earlier ones have made. -/
theorem sequential_step {account : Account Profile Vault} (undisturbed : Undisturbed state label)
    (taken : step state label = some next) (sequential : Sequential account state) : Sequential account next := by
  have commits : forall index request,
      Sequential account (commit state index request (request.apply state.stored)) := by
    intro index request
    simp only [Sequential, commit, List.foldl_append, List.foldl_cons, List.foldl_nil]
    exact congrArg request.apply sequential
  cases label with
  | start request =>
    cases taken
    exact sequential
  | load =>
    rcases guarded taken with ⟨_, rfl⟩
    exact sequential
  | publish =>
    rcases Option.map_eq_some_iff.mp taken with ⟨_, _, rfl⟩
    exact sequential
  | advance index =>
    rcases Option.bind_eq_some_iff.mp taken with ⟨call, found, moved⟩
    cases call with
    | started request =>
      cases request with
      | update =>
        cases moved
        exact sequential
      | assign vault role =>
        cases moved
        exact commits index (.assign vault role)
      | unassign vault =>
        cases moved
        exact commits index (.unassign vault)
    | read edit copy =>
      rcases undisturbed edit copy found with ⟨rfl, keeps⟩
      simp only [advance] at moved
      split at moved
      · cases moved
        exact sequential
      · rename_i written
        cases moved
        rw [write_eq keeps written]
        exact commits index (.update edit)
    | committed =>
      cases moved
      exact sequential
    | returned | thrown => cases moved

theorem pending_step (taken : step state label = some next) :
    (next.history ++ next.calls.flatMap Call.pending).Perm
      (state.history ++ state.calls.flatMap Call.pending ++ label.requests) := by
  cases label with
  | start request =>
    cases taken
    simp [Label.requests, Call.pending]
  | load =>
    rcases guarded taken with ⟨_, rfl⟩
    simp [Label.requests]
  | publish =>
    rcases Option.map_eq_some_iff.mp taken with ⟨_, _, rfl⟩
    simp [Label.requests]
  | advance index =>
    rcases Option.bind_eq_some_iff.mp taken with ⟨call, found, moved⟩
    have commits : forall request, call.pending = [request] ->
        (state.history ++ [request] ++ (state.calls.set index .committed).flatMap Call.pending).Perm
          (state.history ++ state.calls.flatMap Call.pending) := by
      intro request isPending
      have moves := Pool.flatMap_set_perm Call.pending found .committed
      rw [isPending, Call.pending, List.append_nil] at moves
      rw [List.append_assoc]
      exact (List.perm_append_comm.trans moves).append_left _
    have keeps : forall later, later.pending = call.pending ->
        ((state.calls.set index later).flatMap Call.pending).Perm (state.calls.flatMap Call.pending) := by
      intro later isSame
      have moves := Pool.flatMap_set_perm Call.pending found later
      rw [isSame] at moves
      exact (List.perm_append_right_iff _).mp moves
    simp only [Label.requests, List.append_nil]
    cases call with
    | started request =>
      cases request <;> cases moved
      · exact (keeps (.read _ state.published) rfl).append_left _
      · exact commits _ rfl
      · exact commits _ rfl
    | read edit copy =>
      simp only [advance] at moved
      split at moved <;> cases moved
      · exact (keeps (.thrown (.update edit)) rfl).append_left _
      · exact commits _ rfl
    | committed =>
      cases moved
      exact (keeps .returned rfl).append_left _
    | returned | thrown => cases moved

/-- When every update writes over the account that it read, the stored account is what the edits and role changes make
of the first one, in the order of their commits: all of them, but for those whose caller has an exception. -/
theorem edits_are_sequential {account : Account Profile Vault} {labels : List (Label Profile Vault)}
    {final : State Profile Vault} (reached : run step (initial account) labels = some final)
    (undisturbed : Along step Undisturbed (initial account) labels)
    (done : forall call, call ∈ final.calls -> call = .returned ∨ Exists fun request => call = .thrown request) :
    (final.history ++ final.calls.flatMap fun call => match call with | .thrown request => [request] | _ => []).Perm
        (labels.flatMap Label.requests) ∧
      final.stored = final.history.foldl (fun account request => request.apply account) account := by
  constructor
  · have complete : (final.history ++ final.calls.flatMap Call.pending).Perm (labels.flatMap Label.requests) := by
      refine run_extend (fun labels state => (state.history ++ state.calls.flatMap Call.pending).Perm
        (labels.flatMap Label.requests)) (by simp [initial]) ?_ reached
      intro labels state label next _ taken soFar
      rw [List.flatMap_append, List.flatMap_singleton]
      exact (pending_step taken).trans (soFar.append_right _)
    have left : final.calls.flatMap Call.pending =
        final.calls.flatMap fun call => match call with | .thrown request => [request] | _ => [] := by
      refine List.flatMap_congr fun call inside => ?_
      rcases done call inside with rfl | ⟨request, rfl⟩ <;> rfl
    rwa [left] at complete
  · have sequential : Sequential account final := by
      refine run_induction ?_ reached undisturbed rfl
      intro state label next allowed taken sequential
      exact sequential_step allowed taken sequential
    exact sequential

end Runs

/-! ## A deactivation, a role and a change of the address -/

/-- Whether the account is active, and its address. -/
abbrev SampleProfile := Bool × Nat

def sampleAccount : Account SampleProfile Unit := ⟨(true, 1), fun _ => none⟩

def deactivate : Account SampleProfile Unit -> Account SampleProfile Unit :=
  fun account => { account with profile := (false, account.profile.2) }

def readdress : Account SampleProfile Unit -> Account SampleProfile Unit :=
  fun account => { account with profile := (account.profile.1, 2) }

/-- Three calls are open at once, and each commits before the next one reads. -/
def interleaved : List (Label SampleProfile Unit) :=
  [.start (.update deactivate), .start (.assign () ⟨4, []⟩), .start (.update readdress), .advance 0, .advance 0,
    .advance 1, .load, .publish, .advance 2, .advance 0, .advance 2, .load, .publish, .advance 1, .advance 2]

/-- The change of the address reads before the deactivation and writes after it has returned. -/
def overlapping : List (Label SampleProfile Unit) :=
  [.start (.update readdress), .advance 0, .start (.update deactivate), .advance 1, .advance 1, .load, .publish,
    .advance 1, .advance 0, .load, .publish, .advance 0]

theorem interleaved_edits_are_sequential :
    Exists fun final => run step (initial sampleAccount) interleaved = some final ∧
      final.stored.profile = (false, 2) ∧ final.stored.vaultRoles () = some ⟨4, []⟩ ∧
      final.stored = final.history.foldl (fun account request => request.apply account) sampleAccount := by
  refine ⟨_, rfl, rfl, rfl, (edits_are_sequential (?_ : run step _ interleaved = _) ?_ ?_).2⟩
  · rfl
  · refine And.intro trivial (And.intro trivial (And.intro trivial (And.intro ?_ (And.intro ?_ (And.intro ?_
      (And.intro trivial (And.intro trivial (And.intro ?_ (And.intro ?_ (And.intro ?_ (And.intro trivial
      (And.intro trivial (And.intro ?_ (And.intro ?_ trivial))))))))))))))
    all_goals
      rintro _ _ ⟨⟩
      try exact ⟨rfl, fun _ role isRole => ⟨role, isRole, List.Subset.refl _⟩⟩
  · rintro call (_ | ⟨_, _ | ⟨_, _ | ⟨_, ⟨⟩⟩⟩⟩) <;> exact Or.inl rfl

/-- Both calls have returned and the account is active again, which is so in neither order of the two. -/
theorem returned_deactivation_is_undone :
    Exists fun final => run step (initial sampleAccount) overlapping = some final ∧
      final.calls = [.returned, .returned] ∧ final.stored.profile = (true, 2) ∧
      (readdress (deactivate sampleAccount)).profile = (false, 2) ∧
      (deactivate (readdress sampleAccount)).profile = (false, 2) :=
  ⟨_, rfl, rfl, rfl, rfl, rfl⟩

end AccountEdits
end Identity
end Vaulthalla
