import Vaulthalla.Foundation.ByteString
import Vaulthalla.Foundation.Pool
import Vaulthalla.Foundation.Transition

namespace Vaulthalla
namespace Upstream
namespace Guard

open Foundation Transition

/-!
# The protected buckets in memory

`protect` and `unprotect` commit the row of a bucket and reload the guard.  A
reload reads the protected rows in one transaction and replaces the set in
memory later, and reloads are not ordered: one that has read the rows before a
bucket was protected may replace the set after `protect` has returned.
-/

structure BucketIdentity where
  (provider account bucket : Str)
deriving DecidableEq

/-- The key under which the set in memory holds a bucket: accounts are compared only after
the name has matched, and not at all when the caller does not know the account. -/
def nameKey (provider bucket : Str) : Str := provider ++ str "\n" ++ bucket

/-- Who has called `reload`.  `protect` and `unprotect` return after their reload, and
only a `protect` that returns promises something. -/
inductive Purpose
  | protect (id : BucketIdentity)
  | unprotect (id : BucketIdentity)
  /-- At the start of a pass, every 30 seconds, or because the guard is not loaded. -/
  | other
deriving DecidableEq

/-- A call of `reload`, with the rows once it has read them. -/
structure Reload where
  purpose : Purpose
  read : Option (List BucketIdentity)

/-- The protected rows and the guard in memory.  What callers were promised is kept beside
them, so that a run can be judged by it. -/
structure State where
  /-- The protected rows. -/
  rows : List BucketIdentity
  locked : List (Str × Str)
  loaded : Bool
  reloads : List Reload
  /-- The buckets of which a `protect` has returned and no `unprotect` has begun since. -/
  assured : List BucketIdentity

variable (state : State)

/-- The lookup of `isProtected` once the guard is loaded. -/
def State.isProtected (provider : Str) (account : Option Str) (bucket : Str) : Bool :=
  bucket ≠ [] && state.locked.any fun entry =>
    entry.1 = nameKey provider bucket && account.all fun wanted => entry.2 = wanted

/-- A reload takes two steps, and any other step may fall between them: `read` is its
transaction, `replace` its assignment to the set under the lock. -/
inductive Label
  | protect (id : BucketIdentity)
  | unprotect (id : BucketIdentity)
  | reload | ensureLoaded
  | read (index : Nat)
  | replace (index : Nat)

/-- A reload is called, and has read nothing yet. -/
def State.begin (purpose : Purpose) : State :=
  { state with reloads := state.reloads ++ [⟨purpose, none⟩] }

def State.returned : Purpose -> List BucketIdentity
  | .protect id => id :: state.assured
  | _ => state.assured

/-- `protect` does not look whether the bucket is protected already, as its statement is
an upsert; `unprotect` returns at once when the bucket is not protected. -/
def State.step : Label -> Option State
  | .protect id =>
    if id.bucket ≠ [] then some ({ state with rows := id :: state.rows }.begin (.protect id)) else none
  | .unprotect id =>
    if id ∈ state.rows then
      some ({ state with
        rows := state.rows.filter (· ≠ id)
        assured := state.assured.filter (· ≠ id) }.begin (.unprotect id))
    else none
  | .reload => some (state.begin .other)
  | .ensureLoaded => if state.loaded then none else some (state.begin .other)
  | .read index => state.reloads[index]?.bind fun call =>
    if call.read = none then
      some { state with reloads := state.reloads.set index { call with read := some state.rows } }
    else none
  | .replace index => state.reloads[index]?.bind fun call => call.read.map fun rows =>
    { state with
      locked := rows.map fun id => (nameKey id.provider id.bucket, id.account)
      loaded := true
      reloads := state.reloads.eraseIdx index
      assured := state.returned call.purpose }

/-- The rows that replace the set are not out of date: no bucket was protected since they were read.  And no
`unprotect` of a bucket begins while a `protect` of it is under way. -/
def State.orderly : Label -> Bool
  | .replace index =>
    state.reloads[index]?.all fun call => call.read.all fun rows => state.rows.all fun id => id ∈ rows
  | .unprotect id => state.reloads.all fun call => call.purpose ≠ .protect id
  | _ => true

/-- A bucket whose `protect` is under way or has returned has its row, and in the second
case it is in the set.  The set may hold more than the rows: a released bucket stays in it
until the next reload. -/
structure Sound : Prop where
  reloads : forall call, call ∈ state.reloads -> forall id, call.purpose = .protect id ->
    id ∈ state.rows ∧ id.bucket ≠ []
  assured : forall id, id ∈ state.assured ->
    id ∈ state.rows ∧ id.bucket ≠ [] ∧ (nameKey id.provider id.bucket, id.account) ∈ state.locked

/-- Only `replace` can take a bucket out of the set, and then the rows it installs are up to date. -/
theorem sound_step {state next : State} {label : Label} (orderly : state.orderly label)
    (taken : state.step label = some next) (sound : Sound state) : Sound next := by
  have begins purpose (isOther : forall id, purpose ≠ .protect id) : Sound (state.begin purpose) :=
    ⟨Pool.forall_append sound.reloads fun id isProtect => absurd isProtect (isOther id), sound.assured⟩
  cases label with
  | protect id =>
    rcases guarded taken with ⟨named, rfl⟩
    refine ⟨Pool.forall_append (fun call isCall other isProtect => ?_) ?_, fun other isAssured => ?_⟩
    · exact (sound.reloads call isCall other isProtect).imp_left (List.mem_cons_of_mem id)
    · rintro other ⟨⟩
      exact ⟨List.mem_cons_self, named⟩
    · exact (sound.assured other isAssured).imp_left (List.mem_cons_of_mem id)
  | unprotect id =>
    rcases guarded taken with ⟨_, rfl⟩
    refine ⟨Pool.forall_append (fun call isCall other isProtect => ?_) nofun, fun other isAssured => ?_⟩
    · have isOther : other ≠ id := by
        rintro rfl
        simpa [isProtect] using List.all_eq_true.mp orderly call isCall
      rcases sound.reloads call isCall other isProtect with ⟨isRow, named⟩
      exact ⟨List.mem_filter.mpr ⟨isRow, by simpa using isOther⟩, named⟩
    · rcases List.mem_filter.mp isAssured with ⟨wasAssured, isOther⟩
      exact ⟨List.mem_filter.mpr ⟨(sound.assured other wasAssured).1, isOther⟩, (sound.assured other wasAssured).2⟩
  | reload =>
    cases taken
    exact begins .other nofun
  | ensureLoaded =>
    rcases unguarded taken with ⟨_, rfl⟩
    exact begins .other nofun
  | read index =>
    rcases Option.bind_eq_some_iff.mp taken with ⟨call, isCall, taken⟩
    rcases guarded taken with ⟨_, rfl⟩
    exact ⟨Pool.forall_set sound.reloads (sound.reloads call (List.mem_of_getElem? isCall)), sound.assured⟩
  | replace index =>
    rcases Option.bind_eq_some_iff.mp taken with ⟨call, isCall, taken⟩
    rcases Option.map_eq_some_iff.mp taken with ⟨rows, isRead, rfl⟩
    have upToDate : forall id, id ∈ state.rows -> id ∈ rows := by simpa [State.orderly, isCall, isRead] using orderly
    refine ⟨fun other isOther => sound.reloads other (List.mem_of_mem_eraseIdx isOther), fun id isAssured => ?_⟩
    have stands : id ∈ state.rows ∧ id.bucket ≠ [] := by
      have wasAssured (isAssured : id ∈ state.assured) := (sound.assured id isAssured).imp_right And.left
      cases purpose : call.purpose with
      | protect protected_ =>
        rw [purpose] at isAssured
        rcases List.mem_cons.mp isAssured with rfl | isAssured
        · exact sound.reloads call (List.mem_of_getElem? isCall) id purpose
        · exact wasAssured isAssured
      | unprotect | other =>
        rw [purpose] at isAssured
        exact wasAssured isAssured
    exact ⟨stands.1, stands.2, List.mem_map_of_mem (upToDate id stands.1)⟩

/-- A bucket whose `protect` has returned is protected, also when its account is not known. -/
theorem protection_is_effective (initial final : State) (labels : List Label) (isQuiet : initial.reloads = [])
    (isFresh : initial.assured = []) (reached : run State.step initial labels = some final)
    (orderly : Along State.step (fun state label => state.orderly label = true) initial labels)
    (id : BucketIdentity) (isAssured : id ∈ final.assured) :
    final.isProtected id.provider (some id.account) id.bucket = true ∧
      final.isProtected id.provider none id.bucket = true := by
  have sound : Sound final :=
    run_induction (fun _ _ _ orderly taken sound => sound_step orderly taken sound) reached orderly
      ⟨by simp [isQuiet], by simp [isFresh]⟩
  rcases sound.assured id isAssured with ⟨_, named, isLocked⟩
  simp only [State.isProtected, Bool.and_eq_true, List.any_eq_true]
  exact ⟨⟨by simpa using named, _, isLocked, by simp⟩, by simpa using named, _, isLocked, by simp⟩

def noneProtected : State := ⟨[], [], false, [], []⟩

def archive : BucketIdentity := ⟨str "aws-s3", str "1", str "archive"⟩

def media : BucketIdentity := ⟨str "aws-s3", str "1", str "media"⟩

/-- Two buckets are protected while the guard is reloaded, and one of them is released again before the `protect` of
the other returns. -/
def overlappingCalls : List Label :=
  [.protect archive, .reload, .protect media, .read 2, .read 1, .read 0, .replace 1, .replace 1, .unprotect media,
    .replace 0, .read 0, .replace 0]

theorem protection_effective_overlapping :
    Exists fun final => run State.step noneProtected overlappingCalls = some final ∧
      final.isProtected archive.provider (some archive.account) archive.bucket = true ∧
      final.isProtected media.provider none media.bucket = false := by
  refine ⟨_, rfl, ?_, rfl⟩
  exact (protection_is_effective noneProtected _ overlappingCalls rfl rfl rfl (by decide) archive
    List.mem_cons_self).1

/-- A reload that has read the rows before `protect` replaces the set after it has returned. -/
theorem protection_is_lost :
    Exists fun final =>
      run State.step noneProtected [.reload, .read 0, .protect archive, .read 1, .replace 1, .replace 0] = some final ∧
        archive ∈ final.assured ∧ final.isProtected archive.provider (some archive.account) archive.bucket = false :=
  ⟨_, rfl, List.mem_cons_self, rfl⟩

end Guard
end Upstream
end Vaulthalla
