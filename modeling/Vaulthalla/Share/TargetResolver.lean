import Vaulthalla.Share.ScopedRole

namespace Vaulthalla
namespace Share
namespace TargetResolver

open Foundation
open Outcome (require)
open Scope (normalizeVaultPath nul)

/-!
# Resolving the targets of a share

A request names a path below the root of the share or a path of the vault.
`resolve` turns it into a path of the vault, checks that path against the scope
of the share, loads the entry that the provider has for it and checks the entry
again.  `resolveListedChild` makes the same checks on an entry that a listing
has returned.  The provider may answer anything, or throw.
-/

inductive TargetPathMode
  | vaultRelative | shareRelative

/-- An entry, as far as a resolution looks at it. -/
structure Entry where
  id : UInt32
  (vaultId parentId : Option Int32)
  path : Str
  isDirectory : Bool

structure TargetResolveRequest where
  path : Str
  operation : Operation
  pathMode : TargetPathMode
  expectedTargetType : Option TargetType
  vaultId : Option UInt32

structure ResolvedTarget where
  (vaultId rootEntryId : UInt32)
  (rootPath requestedPath vaultPath sharePath : Str)
  operation : Operation
  targetType : TargetType
  (rootEntry entry : Option Entry)

/-- The operator's switches for share links. -/
structure Sharing where
  (enabled enableAnonymous enableEmailValidated : Bool)

/-- A resolver with its provider and the switches in force. -/
structure Resolver where
  getEntryById : UInt32 -> Except Failure (Option Entry)
  getEntryByVaultPath : UInt32 -> Str -> Except Failure (Option Entry)
  sharing : Sharing

/-! ## Paths -/

def splitStrict (path : Str) : Except Failure (List Str) := do
  require (!path.isEmpty) (.invalidArgument (str "Share filesystem path is required"))
  require (!path.contains nul) (.invalidArgument (str "Share filesystem path contains invalid byte"))
  require (!(components path).contains dotDot) (.denied (str "Share filesystem path escapes share root"))
  return (components path).filter fun component => component ≠ [] ∧ component ≠ dot

def normalizeRequestedPath (path : Str) : Except Failure Str := do
  let names ← splitStrict path
  return rooted names

def joinRootAndSharePath (rootPath sharePath : Str) : Except Failure Str := do
  let root ← normalizeVaultPath rootPath
  let share ← normalizeRequestedPath sharePath
  if share = str "/" then return root
  else if root = str "/" then return share
  else return root ++ share

variable (principal : Principal)

def requireValidPrincipal : Except Failure Unit := do
  require (!(principal.shareId.isEmpty || principal.shareSessionId.isEmpty))
    (.runtimeError (str "Share principal is not resolved"))
  require (principal.vaultId != 0) (.runtimeError (str "Share principal has no vault"))
  require (principal.rootEntryId != 0) (.runtimeError (str "Share principal has no root entry"))

def toVaultPath (requestedPath : Str) (mode : TargetPathMode) : Except Failure Str := do
  requireValidPrincipal principal
  match mode with
  | .shareRelative => joinRootAndSharePath principal.rootPath requestedPath
  | .vaultRelative => normalizeRequestedPath requestedPath

def shareRelativePath (vaultPath : Str) : Except Failure Str := do
  let root ← normalizeVaultPath principal.rootPath
  let candidate ← normalizeRequestedPath vaultPath
  let inside ← Scope.contains root candidate
  require inside (.denied (str "Share filesystem target escapes share root"))
  if candidate = root then return str "/"
  else if root = str "/" then return candidate
  else return candidate.drop root.length

/-! ## Checks -/

/-- `policy::requireEnabled`. -/
def requireEnabled (sharing : Sharing) (mode : AccessMode) : Except Failure Unit := do
  require sharing.enabled (.denied (str "Sharing is disabled on this server"))
  match mode with
  | .public_ => require sharing.enableAnonymous (.denied (str "Anonymous share links are disabled on this server"))
  | .emailValidated =>
    require sharing.enableEmailValidated (.denied (str "Email-verified share links are disabled on this server"))

variable (entry : Entry)

def targetTypeOf : TargetType :=
  if entry.isDirectory then .directory else .file

variable (vaultId : UInt32)

def entryHasVault : Bool :=
  entry.vaultId == some vaultId.toInt32

def entryPath : Except Failure Str :=
  normalizeVaultPath entry.path

def requireEntryType (expected : TargetType) (reason : Str) : Except Failure Unit :=
  require (targetTypeOf entry == expected) (.invalid reason)

/-- A pointer that must not be null. -/
def requireEntry (entry : Option Entry) (failure : Failure) : Except Failure Entry :=
  match entry with
  | none => .error failure
  | some found => .ok found

def authorizeScope (vaultPath : Str) (operation : Operation)
    (expected : Option TargetType) : Except Failure Scope.ScopeDecision := do
  let decision ← Scope.authorize principal
    { vaultId := vaultId, path := vaultPath, operation := operation, targetType := expected }
  require decision.allowed (.denied (str "Share filesystem scope denied: " ++ decision.reason.text))
  let root ← normalizeVaultPath principal.rootPath
  require (!(principal.grant.targetType == .file && decision.normalizedPath != root))
    (.denied (str "Share file target does not allow descendants"))
  return decision

def reasonToString : Access.Evaluator.Reason -> Str
  | .allowed => str "Allowed"
  | .missingPath => str "MissingPath"
  | .missingEntry => str "MissingEntry"
  | .missingPathAndEntry => str "MissingPathAndEntry"
  | .missingUser => str "MissingUser"
  | .invalidActionForEntryType => str "InvalidActionForEntryType"
  | .deniedByOverride => str "DeniedByOverride"
  | .allowedByOverride => str "AllowedByOverride"
  | .deniedByBasePermissions => str "DeniedByBasePermissions"
  | .allowedByBasePermissions => str "AllowedByBasePermissions"
  | .storageEngineNotFound => str "StorageEngineNotFound"
  | .unableToResolvePaths => str "UnableToResolvePaths"
  | .lowRiskOpRequiredForOverrideTraversal => str "LowRiskOpRequiredForOverrideTraversal"
  | .entryVaultMismatch => str "EntryVaultMismatch"

/-- The request of the role for a resolved target. -/
def ResolvedTarget.shareRequest (target : ResolvedTarget) : ScopedRole.ShareRequest :=
  { vaultId := target.vaultId, vaultPath := target.vaultPath, operation := target.operation,
    targetType := target.targetType, targetExists := target.entry.isSome }

def finishResolve (requestedPath normalizedPath : Str)
    (operation : Operation) (expected : Option TargetType) (rootEntry entry : Option Entry) :
    Except Failure ResolvedTarget := do
  let found ← requireEntry entry (.notFound (str "Share filesystem target not found"))
  require (entryHasVault found vaultId) (.denied (str "Share filesystem target vault mismatch"))
  let path ← entryPath found
  require (path == normalizedPath) (.denied (str "Share filesystem target path mismatch"))
  let inside ← Scope.contains principal.rootPath path
  require inside (.denied (str "Share filesystem target escapes share root"))
  let targetType := targetTypeOf found
  require (expected.all fun type => targetType == type) (.invalid (str "Share filesystem target type mismatch"))
  require (!(operation == .list && targetType != .directory))
    (.invalid (str "Share filesystem list target is not a directory"))
  let root ← normalizeVaultPath principal.rootPath
  let sharePath ← shareRelativePath principal normalizedPath
  let resolved : ResolvedTarget :=
    { vaultId := vaultId, rootEntryId := principal.rootEntryId, rootPath := root, requestedPath := requestedPath,
      vaultPath := normalizedPath, sharePath := sharePath, operation := operation, targetType := targetType,
      rootEntry := rootEntry, entry := some found }
  let decision ← ScopedRole.evaluate principal resolved.shareRequest
  require decision.allowed (.denied (str "Share filesystem RBAC denied: " ++ reasonToString decision.reason))
  return resolved

/-! ## Resolution -/

def resolve (resolver : Resolver) (principal : Principal) (request : TargetResolveRequest) :
    Except Failure ResolvedTarget := do
  requireEnabled resolver.sharing principal.accessMode
  requireValidPrincipal principal
  let vaultId := request.vaultId.getD principal.vaultId
  let vaultPath ← toVaultPath principal request.path request.pathMode
  let scope ← authorizeScope principal vaultId vaultPath request.operation request.expectedTargetType
  let loadedRoot ← resolver.getEntryById principal.rootEntryId
  let rootEntry ← requireEntry loadedRoot (.notFound (str "Share root entry not found"))
  require (entryHasVault rootEntry principal.vaultId) (.conflict (str "Share root entry vault mismatch"))
  let rootEntryPath ← entryPath rootEntry
  let root ← normalizeVaultPath principal.rootPath
  require (rootEntryPath == root) (.conflict (str "Share root entry has moved"))
  requireEntryType rootEntry principal.grant.targetType (str "Share root entry type mismatch")
  let entry ← resolver.getEntryByVaultPath vaultId scope.normalizedPath
  let requestedPath ← normalizeRequestedPath request.path
  finishResolve principal vaultId requestedPath scope.normalizedPath request.operation request.expectedTargetType
    (some rootEntry) entry

def resolveListedChild (resolver : Resolver) (principal : Principal) (parent : ResolvedTarget) (child : Option Entry)
    (operation : Operation) : Except Failure ResolvedTarget := do
  requireEnabled resolver.sharing principal.accessMode
  requireValidPrincipal principal
  let notDirectory : Failure := .invalid (str "Share filesystem list target is not a directory")
  let directory ← requireEntry parent.entry notDirectory
  require (parent.rootEntry.isSome && parent.targetType == .directory) notDirectory
  let found ← requireEntry child (.runtimeError (str "Share filesystem list contains missing entry"))
  require (found.parentId == some directory.id.toInt32)
    (.runtimeError (str "Share filesystem entry is not a child of the listed directory"))
  let vaultPath ← entryPath found
  let expected := targetTypeOf found
  let scope ← authorizeScope principal parent.vaultId vaultPath operation (some expected)
  let sharePath ← shareRelativePath principal vaultPath
  let requestedPath ← normalizeRequestedPath sharePath
  finishResolve principal parent.vaultId requestedPath scope.normalizedPath operation (some expected) parent.rootEntry
    (some found)

end TargetResolver
end Share
end Vaulthalla
