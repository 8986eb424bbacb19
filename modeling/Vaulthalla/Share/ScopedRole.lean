import Vaulthalla.Access.OverrideSelection
import Vaulthalla.Share.Scope

namespace Vaulthalla
namespace Share
namespace ScopedRole

open Foundation
open Glob Outcome
open Outcome (collect bind_eq_ok mem_of_collect collect_returns_iff)
open Access (Filesystem FilesystemAction FilePermissions DirectoryPermissions Override)
open Access.Evaluator (Decision filePermissionForAction directoryPermissionForAction applicable)
open Scope (normalizeVaultPath)

/-!
# The role of a share

A share is judged like an account, by a vault role of its own.  The role has
no permission in its masks; for each operation of the grant it has overrides
that allow the file and the directory permission of the operation's action on
the root of the share and, for a directory, on all that lies below it.  The
patterns of these overrides are the text of the root, wildcard bytes included.

The name and the description of the role take no part in a decision.
-/

def fileSlug : FilePermissions -> Str
  | .preview => str "preview"
  | .upload => str "upload"
  | .download => str "download"
  | .overwrite => str "overwrite"
  | .rename => str "rename"
  | .delete => str "delete"
  | .move => str "move"
  | .copy => str "copy"

def directorySlug : DirectoryPermissions -> Str
  | .list => str "list"
  | .upload => str "upload"
  | .download => str "download"
  | .touch => str "touch"
  | .delete => str "delete"
  | .rename => str "rename"
  | .move => str "move"
  | .copy => str "copy"

/-- The canonical permission of a file permission. -/
def fileQualifiedName (permission : FilePermissions) : Str :=
  str "vault.fs.files." ++ fileSlug permission

def directoryQualifiedName (permission : DirectoryPermissions) : Str :=
  str "vault.fs.directories." ++ directorySlug permission

/-- The pattern of all that lies below a root. -/
def belowPattern (root : Str) : Str :=
  if root = str "/" then str "/**" else root ++ str "/**"

def patternsFor (grant : Grant) : Except Failure (List Str) := do
  let root ← normalizeVaultPath grant.rootPath
  match grant.targetType with
  | .file => return [root]
  | .directory => return [root, belowPattern root]

/-- `Pattern::make`. -/
def makePattern (source : Str) : Except Failure Pattern :=
  (Tokenizer.parse source).mapError .runtimeError

def allowOverride (qualifiedName : Str) (pattern : Pattern) : Override :=
  { qualifiedName := qualifiedName, effect := .allow, enabled := true, pattern := pattern }

def addOverrides (patterns : List Str) (qualifiedName : Str) : Except Failure (List Override) :=
  collect (fun source => do
    let pattern ← makePattern source
    return [allowOverride qualifiedName pattern]) patterns

/-- The permissions that `addOverridesForAction` allows, in its order. -/
def permissionsForAction (action : FilesystemAction) (targetType : TargetType) : List Str :=
  (filePermissionForAction action).toList.map fileQualifiedName ++
    match targetType with
    | .file => []
    | .directory => (directoryPermissionForAction action).toList.map directoryQualifiedName

def supportsOperation (operation : Operation) : Bool :=
  operation != .overwrite

def actionForOperation : Operation -> Option FilesystemAction
  | .metadata => some .lookup
  | .list => some .list
  | .preview => some .preview
  | .download => some .read
  | .upload => some .write
  | .mkdir => some .touch
  | .overwrite => none

def shareOperations : List Operation :=
  [.metadata, .list, .preview, .download, .upload, .mkdir, .overwrite]

/-- `emptyScopedVaultRole`, with the overrides that are added to it. -/
def scopedVaultRole (overrides : List Override) : Filesystem :=
  Access.Evaluator.noPermissions overrides

/-- The permissions that an operation of the grant gives. -/
def grantedPermissions (grant : Grant) (operation : Operation) : List Str :=
  if !grant.allows operation || !supportsOperation operation then []
  else
    match actionForOperation operation with
    | none => []
    | some action => permissionsForAction action grant.targetType

/-- `addOverridesForAction`, for an operation of the grant. -/
def overridesForOperation (grant : Grant) (patterns : List Str) (operation : Operation) :
    Except Failure (List Override) :=
  collect (addOverrides patterns) (grantedPermissions grant operation)

def scopedVaultRoleForGrant (grant : Grant) : Except Failure Filesystem := do
  let patterns ← patternsFor grant
  let overrides ← collect (overridesForOperation grant patterns) shareOperations
  return scopedVaultRole overrides

variable (principal : Principal)

/-- The role for one operation, for a principal without a role. -/
def effectiveVaultRole (operation : Operation) : Except Failure Filesystem := do
  if !principal.allows operation || !supportsOperation operation then return scopedVaultRole []
  else
    let patterns ← patternsFor principal.grant
    let overrides ← overridesForOperation principal.grant patterns operation
    return scopedVaultRole overrides

structure ShareRequest where
  vaultId : UInt32
  vaultPath : Str
  operation : Operation
  targetType : TargetType
  targetExists : Bool

def isValidSharePrincipal : Bool :=
  !principal.shareId.isEmpty && !principal.shareSessionId.isEmpty && principal.vaultId != 0 &&
    principal.rootEntryId != 0

/-- The role that judges a request. -/
def roleFor (operation : Operation) : Except Failure Filesystem :=
  match principal.scopedVaultRole with
  | some role => return role
  | none => effectiveVaultRole principal operation

def evaluate (request : ShareRequest) : Except Failure Decision := do
  if !isValidSharePrincipal principal then return { allowed := false, reason := .missingUser }
  else if !principal.hasVault request.vaultId then
    return { allowed := false, reason := .deniedByBasePermissions, evaluatedPath := some request.vaultPath }
  else
    let path ← normalizeVaultPath request.vaultPath
    let inside ← Scope.contains principal.rootPath path
    if !inside then return { allowed := false, reason := .deniedByBasePermissions, evaluatedPath := some path }
    else
      match actionForOperation request.operation with
      | none => return { allowed := false, reason := .deniedByBasePermissions, evaluatedPath := some path }
      | some action =>
        if !principal.allows request.operation then
          return { allowed := false, reason := .deniedByBasePermissions, evaluatedPath := some path }
        else
          let role ← roleFor principal request.operation
          return Access.Evaluator.evaluate role
            { action := action, vaultPath := path, «exists» := request.targetExists,
              isDirectory := request.targetType == .directory }

/-! ## The overrides of the role -/

/-- An override that an operation of the grant adds. -/
def Adds (grant : Grant) (patterns : List Str) (operation : Operation) (override : Override) : Prop :=
  Exists fun qualifiedName : Str => qualifiedName ∈ grantedPermissions grant operation ∧
    Exists fun source : Str => source ∈ patterns ∧
      Exists fun pattern : Pattern => makePattern source = .ok pattern ∧ override = allowOverride qualifiedName pattern

variable {override : Override} {overrides : List Override} {patterns : List Str} {grant : Grant}
  {operation : Operation} {role : Filesystem} {principal : Principal}

theorem mem_addOverrides {qualifiedName : Str} (added : addOverrides patterns qualifiedName = .ok overrides) :
    override ∈ overrides ↔ Exists fun source => source ∈ patterns ∧
      Exists fun pattern => makePattern source = .ok pattern ∧
        override = allowOverride qualifiedName pattern := by
  rw [mem_of_collect added]
  apply exists_congr
  intro source
  apply and_congr_right
  intro _
  simp only [bind_eq_ok, pure_eq_ok]
  constructor
  · rintro ⟨_, ⟨pattern, made, rfl⟩, inside⟩
    exact ⟨pattern, made, List.mem_singleton.mp inside⟩
  · rintro ⟨pattern, made, rfl⟩
    exact ⟨_, ⟨pattern, made, rfl⟩, List.mem_singleton_self _⟩

theorem mem_overridesForOperation (added : overridesForOperation grant patterns operation = .ok overrides) :
    override ∈ overrides ↔ Adds grant patterns operation override := by
  rw [mem_of_collect added]
  apply exists_congr
  intro name
  apply and_congr_right
  intro granted
  rcases collect_returns_iff.mp ⟨overrides, added⟩ name granted with ⟨yielded, addedName⟩
  constructor
  · rintro ⟨other, otherAdded, inside⟩
    exact (mem_addOverrides otherAdded).mp inside
  · intro found
    exact ⟨yielded, addedName, (mem_addOverrides addedName).mpr found⟩

theorem overridesForOperation_returns_iff :
    (Exists fun overrides => overridesForOperation grant patterns operation = .ok overrides) ↔
      forall name, name ∈ grantedPermissions grant operation -> forall source, source ∈ patterns ->
        Exists fun pattern => makePattern source = .ok pattern := by
  rw [overridesForOperation, collect_returns_iff]
  apply forall_congr'
  intro name
  apply imp_congr_right
  intro _
  rw [addOverrides, collect_returns_iff]
  simp only [bind_eq_ok, pure_eq_ok]
  apply forall_congr'
  intro source
  apply imp_congr_right
  intro _
  constructor
  · rintro ⟨_, pattern, made, _⟩
    exact ⟨pattern, made⟩
  · rintro ⟨pattern, made⟩
    exact ⟨_, pattern, made, rfl⟩

theorem mem_shareOperations (operation : Operation) : operation ∈ shareOperations := by
  cases operation <;> decide

/-- The role can be built exactly when every pattern that an operation needs is accepted. -/
theorem scopedVaultRoleForGrant_returns_iff (found : patternsFor grant = .ok patterns) :
    (Exists fun role => scopedVaultRoleForGrant grant = .ok role) ↔
      forall operation name, name ∈ grantedPermissions grant operation -> forall source, source ∈ patterns ->
        Exists fun pattern => makePattern source = .ok pattern := by
  have loop : (Exists fun overrides =>
      collect (overridesForOperation grant patterns) shareOperations = .ok overrides) ↔
      forall operation name, name ∈ grantedPermissions grant operation -> forall source, source ∈ patterns ->
        Exists fun pattern => makePattern source = .ok pattern := by
    simp only [collect_returns_iff, overridesForOperation_returns_iff, mem_shareOperations, true_implies]
  rw [← loop]
  simp only [scopedVaultRoleForGrant, bind_eq_ok, pure_eq_ok, found]
  constructor
  · rintro ⟨_, others, same, overrides, collected, _⟩
    cases same
    exact ⟨overrides, collected⟩
  · rintro ⟨overrides, collected⟩
    exact ⟨_, patterns, rfl, overrides, collected, rfl⟩

/-- A role with the overrides of one operation, and others that the grant adds. -/
structure RoleOf (grant : Grant) (patterns : List Str) (operation : Operation) (role : Filesystem) : Prop where
  masks : role = scopedVaultRole role.overrides
  sound : forall override, override ∈ role.overrides ->
    Exists fun other : Operation => Adds grant patterns other override
  complete : forall override, Adds grant patterns operation override -> override ∈ role.overrides

theorem roleOf_scoped (found : patternsFor grant = .ok patterns) (built : scopedVaultRoleForGrant grant = .ok role)
    (operation : Operation) : RoleOf grant patterns operation role := by
  rcases bind_eq_ok.mp built with ⟨others, foundAgain, rest⟩
  have same : others = patterns := Except.ok.inj (foundAgain.symm.trans found)
  subst same
  rcases bind_eq_ok.mp rest with ⟨overrides, collected, made⟩
  have isRole : scopedVaultRole overrides = role := pure_eq_ok.mp made
  subst isRole
  refine ⟨rfl, ?_, ?_⟩
  · intro override inside
    rcases (mem_of_collect collected).mp inside with ⟨other, _, yielded, added, member⟩
    exact ⟨other, (mem_overridesForOperation added).mp member⟩
  · intro override adds
    rcases collect_returns_iff.mp ⟨overrides, collected⟩ operation (mem_shareOperations operation) with
      ⟨yielded, added⟩
    exact (mem_of_collect collected).mpr
      ⟨operation, mem_shareOperations operation, yielded, added, (mem_overridesForOperation added).mpr adds⟩

theorem roleOf_effective (found : patternsFor principal.grant = .ok patterns)
    (built : effectiveVaultRole principal operation = .ok role) : RoleOf principal.grant patterns operation role := by
  unfold effectiveVaultRole at built
  split at built
  · rename_i skipped
    have isRole : scopedVaultRole [] = role := pure_eq_ok.mp built
    subst isRole
    have none : grantedPermissions principal.grant operation = [] := if_pos skipped
    refine ⟨rfl, by simp [scopedVaultRole, Access.Evaluator.noPermissions], ?_⟩
    rintro override ⟨name, granted, _⟩
    simp [none] at granted
  · rcases bind_eq_ok.mp built with ⟨others, foundAgain, rest⟩
    have same : others = patterns := Except.ok.inj (foundAgain.symm.trans found)
    subst same
    rcases bind_eq_ok.mp rest with ⟨overrides, added, made⟩
    have isRole : scopedVaultRole overrides = role := pure_eq_ok.mp made
    subst isRole
    exact ⟨rfl, fun override inside => ⟨operation, (mem_overridesForOperation added).mp inside⟩,
      fun override adds => (mem_overridesForOperation added).mpr adds⟩

/-! ## Decisions under the role -/

open Access.Evaluator (candidates decides allowedByBase permissionMismatch TargetContext)

/-- A role that only allows answers an action exactly when one of its overrides applies. -/
theorem decides_scopedVaultRole (allows : forall override, override ∈ overrides ->
      override.effect = .allow) (target : TargetContext) (action : FilesystemAction) :
    decides (scopedVaultRole overrides) target action ↔
      Exists fun override => override ∈ overrides ∧ applicable target.vaultPath action override := by
  cases best : Selection.firstMaximum Access.Evaluator.overrideScore
      (candidates (scopedVaultRole overrides).overrides target.vaultPath action) with
  | none =>
    rw [Selection.firstMaximum_eq_none_iff] at best
    rw [Access.Evaluator.decides_of_no_candidates best, scopedVaultRole, Access.Evaluator.allowedByBase_noPermissions]
    constructor
    · intro impossible
      simp at impossible
    · rintro ⟨override, inside, applies⟩
      have member : override ∈ candidates (scopedVaultRole overrides).overrides target.vaultPath action :=
        List.mem_filter.mpr ⟨inside, applies⟩
      rw [best] at member
      simp at member
  | some chosen =>
    rcases List.mem_filter.mp (Selection.firstMaximum_isTop best).1 with ⟨inside, applies⟩
    rw [Access.Evaluator.decides_of_some best, allows chosen inside]
    exact ⟨fun _ => ⟨chosen, inside, applies⟩, fun _ => rfl⟩

/-- The permissions of an action do not exclude it. -/
theorem permission_applies {action : FilesystemAction} {targetType : TargetType} {name : Str}
    (named : name ∈ permissionsForAction action targetType) (pattern : Pattern) (path : Str) :
    applicable path action (allowOverride name pattern) = Matcher.matches pattern path := by
  have fits : permissionMismatch (Access.Files.resolveFromQualifiedName name) (filePermissionForAction action) = false ∧
      permissionMismatch (Access.Directories.resolveFromQualifiedName name)
        (directoryPermissionForAction action) = false := by
    cases action <;> cases targetType <;>
      simp only [permissionsForAction, filePermissionForAction, directoryPermissionForAction, Option.toList_some,
        Option.toList_none, List.map_cons, List.map_nil, List.append_nil, List.nil_append, List.cons_append,
        List.mem_cons, List.not_mem_nil, or_false] at named <;>
      first
        | (subst named; decide +kernel)
        | (rcases named with rfl | rfl <;> decide +kernel)
  simp [applicable, allowOverride, fits.1, fits.2]

/-! ## Decisions on an entry -/

/-- The request that the evaluator gets for an entry. -/
def entryRequest (action : FilesystemAction) (entry : VaultPath) (request : ShareRequest) :
    Access.Evaluator.ResolvedRequest :=
  { action := action, vaultPath := entry.text, «exists» := request.targetExists,
    isDirectory := request.targetType == .directory }

/-- A share is allowed an operation on an entry in its scope when its role is. -/
theorem evaluate_allowed_iff {request : ShareRequest} {root entry : VaultPath}
    (isRoot : normalizeVaultPath principal.rootPath = .ok root.text) (path : request.vaultPath = entry.text) :
    (Exists fun decision => evaluate principal request = .ok decision ∧ decision.allowed) ↔
      isValidSharePrincipal principal ∧ principal.hasVault request.vaultId ∧
        root.names <+: entry.names ∧ principal.allows request.operation ∧
          Exists fun action => actionForOperation request.operation = some action ∧
            Exists fun role => roleFor principal request.operation = .ok role ∧
              (Access.Evaluator.evaluate role (entryRequest action entry request)).allowed := by
  constructor
  · rintro ⟨decision, answered, allowed⟩
    unfold evaluate at answered
    split at answered
    · cases answered
      simp at allowed
    · rename_i valid
      split at answered
      · cases answered
        simp at allowed
      · rename_i sameVault
        rcases bind_eq_ok.mp answered with ⟨normal, normalized, rest⟩
        rw [path, entry.normalize_text] at normalized
        cases normalized
        rcases bind_eq_ok.mp rest with ⟨inside, tested, later⟩
        split at later
        · cases later
          simp at allowed
        · rename_i isInside
          have within : inside := by simpa using isInside
          rw [within, VaultPath.contains_normalized_iff isRoot] at tested
          split at later
          · cases later
            simp at allowed
          · rename_i action found
            split at later
            · cases later
              simp at allowed
            · rename_i granted
              rcases bind_eq_ok.mp later with ⟨role, hasRole, decided⟩
              have same := pure_eq_ok.mp decided
              refine ⟨by simpa using valid, by simpa using sameVault, tested, by simpa using granted, action, found,
                role, hasRole, ?_⟩
              rw [← same] at allowed
              exact allowed
  · rintro ⟨valid, sameVault, below, granted, action, found, role, hasRole, allowed⟩
    have inside : Scope.contains principal.rootPath entry.text = .ok true :=
      (VaultPath.contains_normalized_iff isRoot entry).mpr below
    refine ⟨_, ?_, allowed⟩
    simp [evaluate, valid, sameVault, path, entry.normalize_text, inside, found, granted, hasRole, entryRequest, bind,
      Except.bind]

end ScopedRole
end Share
end Vaulthalla
