import Vaulthalla.Access.Account
import Vaulthalla.Share.Scope

namespace Vaulthalla
namespace Share
namespace LinkAuthorizer

open Foundation
open Access (FilesystemAction)
open Access.Evaluator (System Identities User Entry hasFilesystemAction)
open Scope (normalizeVaultPath)

/-!
# Who may create a link

`DefaultShareAuthorizer` lets a user create a link when the user may share the
root of the link, may perform every operation of the link on the root, and the
root entry is the one that the link names.  Nothing below the root is looked
at.
-/

/-- A link, as far as its creation and its grant look at it. -/
structure Link where
  (vaultId rootEntryId : UInt32)
  rootPath : Str
  targetType : TargetType
  accessMode : AccessMode
  allowedOps : UInt32
  duplicatePolicy : DuplicatePolicy

def Link.grant (link : Link) : Grant :=
  { vaultId := link.vaultId, rootEntryId := link.rootEntryId, rootPath := link.rootPath, targetType := link.targetType,
    allowedOps := link.allowedOps, duplicatePolicy := link.duplicatePolicy }

/-- `rbac::Actor`. -/
inductive Actor
  | human (user : Option User)
  | share (principal : Principal)

def humanUser : Actor -> Option User
  | .human user => user
  | .share _ => none

/-- The running server: the system that the evaluator asks, the accounts, and the table of entries. -/
structure Deployment where
  system : System
  identities : Identities
  getFSEntryById : UInt32 -> Option Entry

structure AuthorizationDecision where
  allowed : Bool
  reason : Str
deriving DecidableEq

def allow : AuthorizationDecision :=
  { allowed := true, reason := str "allowed" }

def deny (reason : Str) : AuthorizationDecision :=
  { allowed := false, reason := reason }

def fusePathFor (deployment : Deployment) (vaultId : UInt32) (vaultPath : Str) : Except Failure (Option Str) :=
  match deployment.system.storage.getEngine vaultId with
  | none => return none
  | some engine => do
      let path ← normalizeVaultPath vaultPath
      return some (engine.vaultPathToFusePath path)

section

variable (deployment : Deployment) (user : User) (vaultId : UInt32) (path : Str)

def hasFsPermission (action : FilesystemAction) : Except Failure Bool := do
  let fusePath ← fusePathFor deployment vaultId path
  return fusePath.any (hasFilesystemAction deployment.system deployment.identities user action vaultId)

def hasMetadataPermission :
    Except Failure Bool := do
  let fusePath ← fusePathFor deployment vaultId path
  return fusePath.any fun fuse =>
    hasFilesystemAction deployment.system deployment.identities user .lookup vaultId fuse ||
      hasFilesystemAction deployment.system deployment.identities user .preview vaultId fuse

end

def allOperations : List Operation :=
  [.metadata, .list, .preview, .download, .upload, .mkdir, .overwrite]

/-- The loop of `forEachOperation`. -/
def forEachOperation (ops : UInt32) (check : Operation -> Except Failure Bool) : List Operation -> Except Failure Bool
  | [] => return true
  | operation :: rest => do
      if (ops &&& operation.bit) != 0 then
        let granted ← check operation
        if granted then forEachOperation ops check rest else return false
      else forEachOperation ops check rest

section

variable (deployment : Deployment)

def hasShareMode (actor : Actor) (link : Link) : Except Failure AuthorizationDecision :=
  match humanUser actor with
  | none => return deny (str "share_management_requires_human_user")
  | some user => do
      let required : FilesystemAction :=
        if link.accessMode = .emailValidated then .sharePublicValidated else .sharePublic
      let shared ← hasFsPermission deployment user link.vaultId link.rootPath required
      if shared then return allow
      else
        return deny (if link.accessMode = .emailValidated then str "missing_share_public_validated_permission"
          else str "missing_share_public_permission")

/-- The check of one operation on the root of the link. -/
def holdsOperation (user : User) (link : Link) : Operation -> Except Failure Bool
  | .metadata => hasMetadataPermission deployment user link.vaultId link.rootPath
  | .list => hasFsPermission deployment user link.vaultId link.rootPath .list
  | .preview => hasFsPermission deployment user link.vaultId link.rootPath .preview
  | .download => hasFsPermission deployment user link.vaultId link.rootPath .read
  | .upload => hasFsPermission deployment user link.vaultId link.rootPath .write
  | .mkdir => hasFsPermission deployment user link.vaultId link.rootPath .touch
  | .overwrite => hasFsPermission deployment user link.vaultId link.rootPath .overwrite

def canGrant (actor : Actor) (link : Link) : Except Failure AuthorizationDecision := do
  let mode ← hasShareMode deployment actor link
  if !mode.allowed then return mode
  else
    match humanUser actor with
    | none => return deny (str "share_management_requires_human_user")
    | some user =>
      let granted ← forEachOperation link.allowedOps (holdsOperation deployment user link) allOperations
      if granted then return allow else return deny (str "delegated_operation_not_grantable")

def shareRootEntryMatchesLink (link : Link) : Except Failure AuthorizationDecision :=
  match deployment.getFSEntryById link.rootEntryId with
  | none => return deny (str "root_entry_not_in_vault")
  | some entry =>
    if !(entry.vaultId.any fun id => id.toUInt32 == link.vaultId) then return deny (str "root_entry_not_in_vault")
    else do
      let entryPath ← normalizeVaultPath entry.path
      let rootPath ← normalizeVaultPath link.rootPath
      if entryPath ≠ rootPath then return deny (str "root_entry_path_mismatch")
      else if (if entry.isDirectory then TargetType.directory else TargetType.file) ≠ link.targetType then
        return deny (str "root_entry_type_mismatch")
      else return allow

def canCreateLink (actor : Actor) (link : Link) : Except Failure AuthorizationDecision := do
  let granted ← canGrant deployment actor link
  if !granted.allowed then return granted else shareRootEntryMatchesLink deployment link

end

/-! ## What an accepted link shows -/

open Outcome (bind_eq_ok)

variable {deployment : Deployment} {user : User} {link : Link}

theorem hasFsPermission_true {vaultId : UInt32} {path : Str} {action : FilesystemAction}
    (held : hasFsPermission deployment user vaultId path action = .ok true) :
    user.authorizing = true ∧ Exists fun engine =>
      deployment.system.storage.getEngine vaultId = some engine := by
  rcases bind_eq_ok.mp held with ⟨fusePath, found, has⟩
  cases engine : deployment.system.storage.getEngine vaultId with
  | none =>
    simp only [fusePathFor, engine, Outcome.pure_eq_ok] at found
    simp [← found] at has
  | some own =>
    refine ⟨?_, own, rfl⟩
    cases active : user.authorizing with
    | true => rfl
    | false => cases fusePath <;> simp [hasFilesystemAction, active] at has

theorem hasShareMode_allowed {mode : AuthorizationDecision}
    (answered : hasShareMode deployment (.human (some user)) link = .ok mode) (shares : mode.allowed) :
    user.authorizing = true ∧ Exists fun engine =>
      deployment.system.storage.getEngine link.vaultId = some engine := by
  rcases bind_eq_ok.mp answered with ⟨shared, held, rest⟩
  cases shared with
  | false =>
    have same : deny _ = mode := Outcome.pure_eq_ok.mp rest
    rw [← same] at shares
    simp [deny] at shares
  | true => exact hasFsPermission_true held

theorem canGrant_allowed {granted : AuthorizationDecision}
    (answered : canGrant deployment (.human (some user)) link = .ok granted) (grants : granted.allowed) :
    user.authorizing = true ∧ Exists fun engine =>
      deployment.system.storage.getEngine link.vaultId = some engine := by
  rcases bind_eq_ok.mp answered with ⟨mode, hasMode, rest⟩
  cases shares : mode.allowed with
  | true => exact hasShareMode_allowed hasMode shares
  | false =>
    simp only [shares, Bool.not_false, if_true, Outcome.pure_eq_ok] at rest
    rw [← rest, shares] at grants
    simp at grants

/-- The creator of an accepted link is an active account, and the vault of the link has an engine. -/
theorem canCreateLink_allowed {decision : AuthorizationDecision}
    (answered : canCreateLink deployment (.human (some user)) link = .ok decision) (accepted : decision.allowed) :
    user.authorizing = true ∧ Exists fun engine =>
      deployment.system.storage.getEngine link.vaultId = some engine := by
  rcases bind_eq_ok.mp answered with ⟨granted, hasGrant, rest⟩
  cases grants : granted.allowed with
  | true => exact canGrant_allowed hasGrant grants
  | false =>
    simp only [grants, Bool.not_false, if_true, Outcome.pure_eq_ok] at rest
    rw [← rest, grants] at accepted
    simp at accepted

end LinkAuthorizer
end Share
end Vaulthalla
