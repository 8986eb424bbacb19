import Vaulthalla.Access.Target

namespace Vaulthalla
namespace Access
namespace Evaluator

open Foundation

/-!
# Decisions for an account

An account holds vault roles of its own and through its groups, and a policy
for all vaults of a scope.  The first role on the vault decides, whatever it
says; without one the policy of the vault's scope decides.  Only a vault role
opens a directory for lookup towards an override beyond it.
-/

/-- The policies for the vaults of the account itself, of admins and of other users. -/
structure VaultGlobals where
  (self admin user : Filesystem)

/-- The roles on vaults.  A role may be missing although the vault has an entry for it. -/
abbrev RoleAssignments := AList (fun _ : UInt32 => Option Filesystem)

/-- An account with its groups, as one view of them. -/
structure User where
  id : UInt32
  (authorizing superAdmin : Bool)
  vaultRoles : RoleAssignments
  groups : List RoleAssignments
  globals : Option VaultGlobals

/-- The owner of a vault. -/
structure Owner where
  id : UInt32
  isAdmin : Bool

/-- `identities::manager().user`. -/
abbrev Identities := UInt32 -> Option Owner

inductive VaultScope
  | self | admin | user

variable (identities : Identities)

def vaultScope (actorId ownerId : UInt32) : Option VaultScope :=
  if ownerId = actorId then some .self
  else
    match identities ownerId with
    | none => none
    | some owner => if owner.id = actorId then some .self else if owner.isAdmin then some .admin else some .user

def VaultGlobals.inScope (globals : VaultGlobals) : VaultScope -> Filesystem
  | .self => globals.self
  | .admin => globals.admin
  | .user => globals.user

/-- The role that a table of assignments has for a vault. -/
def assignedRole (roles : RoleAssignments) (vaultId : UInt32) : Option Filesystem :=
  (roles.lookup vaultId).join

section

variable (target : Target) (action : FilesystemAction)

/-- The request of a role for a resolved target. -/
def Target.request : ResolvedRequest :=
  { action := action, vaultPath := target.context.vaultPath, «exists» := target.context.exists,
    isDirectory := target.context.isDir }

/-- The decision of a vault role, if its stage has one. -/
def roleDecision (role : Filesystem) : Option Decision :=
  let stage := resolveStage role target.context action
  if stage.matched && stage.allowed.isSome then some (decideStage role (target.request action) stage) else none

/-- The decision of a policy for all vaults of a scope. -/
def globalDecision (global : Filesystem) : Decision :=
  let stage := resolveStage global target.context action
  match stage.matched, stage.allowed with
  | true, some allowed =>
    if !allowed && (action == .list && allowsDirectoryListTraversalThrough global.overrides target.context.vaultPath) then
      { allowed := true, reason := .lowRiskOpRequiredForOverrideTraversal,
        evaluatedPath := some target.context.vaultPath }
    else
      { allowed := allowed, reason := stage.reason, evaluatedPath := some target.context.vaultPath,
        matchedOverride := stage.matchedOverride, overrideEffect := stage.overrideEffect }
  | _, _ =>
    { allowed := false, reason := .deniedByBasePermissions, evaluatedPath := some target.context.vaultPath }

end

/-- The roles that are asked in turn: the account's own, then those of its groups. -/
def rolesOnVault (user : User) (vaultId : UInt32) : List Filesystem :=
  (assignedRole user.vaultRoles vaultId).toList ++ user.groups.filterMap fun group => assignedRole group vaultId

/-- The policy for the scope that a vault falls under. -/
def globalPolicy (user : User) (vault : Vault) : Option Filesystem :=
  match user.globals, vaultScope identities user.id vault.ownerId with
  | some globals, some scope => some (globals.inScope scope)
  | _, _ => none

/-- `Evaluator::evaluate` on a request of an account. -/
def evaluateAccount (system : System) (identities : Identities) (user : Option User) (req : TargetRequest) : Decision :=
  match user with
  | none => { allowed := false, reason := .missingUser }
  | some account =>
    if !account.authorizing then { allowed := false, reason := .missingUser }
    else
      match resolveTarget system req with
      | .error invalid => invalid
      | .ok target =>
        match (rolesOnVault account target.engine.vault.id).findSome? (roleDecision target req.action) with
        | some decision => decision
        | none =>
          match globalPolicy identities account target.engine.vault with
          | none =>
            { allowed := false, reason := .deniedByBasePermissions,
              evaluatedPath := some target.context.vaultPath }
          | some global => globalDecision target req.action global

/-! ## The role that decides -/

/-- A role and whether it is a role on the vault. -/
structure DecidingRole where
  role : Filesystem
  onVault : Bool

def decidingRole (user : User) (vault : Vault) : Option DecidingRole :=
  match rolesOnVault user vault.id with
  | role :: _ => some { role := role, onVault := true }
  | [] => (globalPolicy identities user vault).map fun global => { role := global, onVault := false }

/-- Whether an allowing override beyond the target opens it under the role. -/
def DecidingRole.opens (deciding : DecidingRole) (req : ResolvedRequest) : Bool :=
  (deciding.onVault && req.action == .lookup && requiresTraversalThrough deciding.role.overrides req.vaultPath) ||
    (req.action == .list && allowsDirectoryListTraversalThrough deciding.role.overrides req.vaultPath)

/-- A stage always decides. -/
theorem roleDecision_eq (target : Target) (action : FilesystemAction) (role : Filesystem) :
    roleDecision target action role =
      some (decideStage role (target.request action) (resolveStage role target.context action)) := by
  rcases resolveStage_spec role target.context action with ⟨matched, allowed⟩
  simp [roleDecision, matched, allowed]

theorem globalDecision_allowed_iff (target : Target) (action : FilesystemAction) (global : Filesystem) :
    (globalDecision target action global).allowed ↔
      (action = .list ∧ allowsDirectoryListTraversalThrough global.overrides target.context.vaultPath) ∨
        Exists fun answer => answer ∈ consulted (target.request action) ∧ decides global target.context answer := by
  have answers : (Exists fun answer => answer ∈ consulted (target.request action) ∧
      decides global target.context answer) ↔ _ := consulted_decides_iff global (target.request action)
  have stage : (resolveStage global target.context action).allowed = some
      (decides global (target.request action).target (target.request action).action ||
        (fallsBackToRead (target.request action).target (target.request action).action &&
          decides global (target.request action).target .read)) :=
    (resolveStage_spec global target.context action).2
  rw [answers]
  simp only [globalDecision, (resolveStage_spec global target.context action).1, stage]
  generalize (decides global (target.request action).target (target.request action).action ||
    (fallsBackToRead (target.request action).target (target.request action).action &&
      decides global (target.request action).target .read)) = answer
  cases answer <;> by_cases isList : action = .list <;>
    cases corridor : allowsDirectoryListTraversalThrough global.overrides target.context.vaultPath <;> simp [isList]

variable {system : System}

/-- A resolved request of an account is allowed exactly when the deciding role opens its target or allows it. -/
theorem evaluateAccount_allowed_iff {identities : Identities} {user : User} {req : TargetRequest} {target : Target}
    (authorizing : user.authorizing) (resolved : resolveTarget system req = .ok target) :
    (evaluateAccount system identities (some user) req).allowed ↔
      Exists fun deciding => decidingRole identities user target.engine.vault = some deciding ∧
        (deciding.opens (target.request req.action) ∨
          Exists fun answer => answer ∈ consulted (target.request req.action) ∧
            decides deciding.role target.context answer) := by
  simp only [evaluateAccount, authorizing, Bool.not_true, Bool.false_eq_true, if_false, resolved, decidingRole]
  cases roles : rolesOnVault user target.engine.vault.id with
  | cons role others =>
    have stage := decideStage_allowed_iff role (target.request req.action)
    simp only [List.findSome?_cons, roleDecision_eq, Option.some.injEq, exists_eq_left']
    refine stage.trans (or_congr ?_ Iff.rfl)
    simp [opened, DecidingRole.opens]
  | nil =>
    cases policy : globalPolicy identities user target.engine.vault with
    | none => simp
    | some global =>
      simp only [List.findSome?_nil, Option.map_some, Option.some.injEq, exists_eq_left',
        globalDecision_allowed_iff]
      refine or_congr ?_ Iff.rfl
      simp [DecidingRole.opens, Target.request]

/-! ## Permissions of an account -/

/-- `resolver::Vault::resolveEngine`, without an entry. -/
def resolveEngine (storage : StorageManager) (vaultId : UInt32) (path : Str) : Option Engine :=
  match (if vaultId ≠ 0 then storage.getEngine vaultId else none) with
  | some engine => some engine
  | none => if path = [] then none else storage.resolveStorageEngine path

/-- `resolver::Vault::has` for an action on a path below the FUSE root. -/
def hasFilesystemAction (system : System) (identities : Identities) (user : User) (action : FilesystemAction)
    (vaultId : UInt32) (path : Str) : Bool :=
  if !user.authorizing then false
  else if user.superAdmin then true
  else
    match resolveEngine system.storage vaultId path with
    | none => false
    | some engine =>
      if user.id ≠ engine.vault.ownerId ∧ (identities engine.vault.ownerId).isNone then false
      else (evaluateAccount system identities (some user) (pathRequest action engine.vault.id path)).allowed

/-! ## Requests for an entry -/

/-- The request for an action on an entry of a vault. -/
def entryActionRequest (action : FilesystemAction) (vaultId : UInt32) (entry : Entry) : TargetRequest :=
  { action := action, vaultId := some vaultId, path := none, entry := some entry }

/-- The target of an entry: it is judged under its own path. -/
def entryTarget (engine : Engine) (entry : Entry) : Target :=
  { engine := engine, fusePath := engine.vaultPathToFusePath entry.path, entry := some entry,
    context := { vaultPath := entry.path, «exists» := true, isDir := entry.isDirectory } }

theorem resolveTarget_entry {engine : Engine} {vaultId : UInt32} {entry : Entry}
    (found : system.storage.getEngine vaultId = some engine) (named : entry.path ≠ [])
    (converted : engine.vaultPathToFusePath entry.path ≠ []) (sameVault : ofAnotherVault (some entry) engine = false)
    (action : FilesystemAction) :
    resolveTarget system (entryActionRequest action vaultId entry) = checkKind action (entryTarget engine entry) := by
  have isEngine : engineFor system (entryActionRequest action vaultId entry) = some engine := by
    simp [engineFor, entryActionRequest, found]
  unfold resolveTarget
  rw [isEngine]
  simp [entryActionRequest, named, converted, sameVault, entryTarget]

end Evaluator
end Access
end Vaulthalla
