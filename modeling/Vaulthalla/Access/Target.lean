import Mathlib.Data.List.AList
import Vaulthalla.Foundation.Outcome
import Vaulthalla.Access.Evaluator
import Vaulthalla.Access.MountPath

namespace Vaulthalla
namespace Access
namespace Evaluator

open Foundation
open Outcome (bind_eq_ok)

/-!
# The target of a request

A request names an entry, or a path below the FUSE root and a vault.
`resolveTarget` finds the engine, converts between the path of the mount and
the path of the vault, looks the entry up and rejects a request whose action
does not fit the entry.  The policies are evaluated on the path of the vault
that it finds.
-/

/-- An entry of the filesystem cache, as far as a decision looks at it. -/
structure Entry where
  vaultId : Option Int32
  path : Str
  isDirectory : Bool
deriving DecidableEq

/-- The engines, by the FUSE path of their root and by vault.  An engine is filed under the id of its own vault. -/
structure StorageManager where
  engines : AList (fun _ : Str => Engine)
  vaultToEngine : AList (fun _ : UInt32 => Engine)
  filed : forall vaultId engine, vaultToEngine.lookup vaultId = some engine -> engine.vault.id = vaultId

namespace StorageManager

/-- The manager that `initStorageEngines` starts from. -/
def empty : StorageManager where
  engines := ∅
  vaultToEngine := ∅
  filed := by
    intro vaultId engine found
    simp at found

/-- Filing an engine, as `initStorageEngines` does for each vault. -/
def file (storage : StorageManager) (key : Str) (engine : Engine) : StorageManager where
  engines := storage.engines.insert key engine
  vaultToEngine := storage.vaultToEngine.insert engine.vault.id engine
  filed := by
    intro vaultId other found
    by_cases same : vaultId = engine.vault.id
    · subst same
      rw [AList.lookup_insert] at found
      exact congrArg (fun filed : Engine => filed.vault.id) (Option.some.inj found).symm
    · rw [AList.lookup_insert_ne same] at found
      exact storage.filed vaultId other found

def getEngine (storage : StorageManager) (vaultId : UInt32) : Option Engine :=
  storage.vaultToEngine.lookup vaultId

/-- The key of a directory: its path without a trailing separator. -/
def engineKey (current : Str) : Str :=
  if current.getLast? = some slash then current.dropLast else current

/-- The loop of `resolveStorageEngine`, from the directory reached so far. -/
def resolveFrom (storage : StorageManager) : Str -> List Str -> Option Engine
  | _, [] => none
  | current, part :: rest =>
    let next := appendPath current part
    match storage.engines.lookup (engineKey next) with
    | some engine => some engine
    | none => storage.resolveFrom next rest

def resolveStorageEngine (storage : StorageManager) (fusePath : Str) : Option Engine :=
  let normal := lexicallyNormal fusePath
  storage.resolveFrom [] ((if isAbsolute normal then [[slash]] else []) ++ elements normal)

end StorageManager

/-- What the evaluator asks the running system: its engines and the filesystem cache. -/
structure System where
  storage : StorageManager
  getEntry : Str -> Option Entry

/-- What a request says about its target. -/
structure TargetRequest where
  action : FilesystemAction
  vaultId : Option UInt32
  path : Option Str
  entry : Option Entry

/-- `Evaluator::TargetContext`, once it is resolved. -/
structure Target where
  engine : Engine
  fusePath : Str
  entry : Option Entry
  context : TargetContext

def inferIsDirectoryForMissingEntry : FilesystemAction -> Bool
  | .touch | .link => true
  | _ => false

variable (system : System)

/-- The engine of a request: by its vault, by the vault of its entry, or by its path. -/
def engineFor (req : TargetRequest) : Option Engine :=
  match req.vaultId.bind system.storage.getEngine with
  | some engine => some engine
  | none =>
    match (req.entry.bind fun entry => entry.vaultId).bind fun id => system.storage.getEngine id.toUInt32 with
    | some engine => some engine
    | none =>
      match req.path with
      | some path => if path = [] then none else system.storage.resolveStorageEngine path
      | none => none

def ofAnotherVault (entry : Option Entry) (engine : Engine) : Bool :=
  entry.any fun found => found.vaultId.any fun id => id.toUInt32 != engine.vault.id

/-- The last checks: the entry that the action needs, and its kind. -/
def checkKind (action : FilesystemAction) (target : Target) : Except Decision Target :=
  if !target.context.exists && requiresExistingEntry action then
    .error { allowed := false, reason := .missingEntry, evaluatedPath := some target.context.vaultPath }
  else if target.context.isDir && !isValidForDirectory action then
    .error { allowed := false, reason := .invalidActionForEntryType, evaluatedPath := some target.context.vaultPath }
  else if !target.context.isDir && !isValidForFile action then
    .error { allowed := false, reason := .invalidActionForEntryType, evaluatedPath := some target.context.vaultPath }
  else .ok target

def resolveTarget (req : TargetRequest) : Except Decision Target :=
  if !req.entry.isSome && !req.path.isSome then .error { allowed := false, reason := .missingPathAndEntry }
  else
    let givenPath := req.path.getD []
    let entryPath := (req.entry.map fun entry => entry.path).getD []
    match engineFor system req with
    | none => .error { allowed := false, reason := .storageEngineNotFound, evaluatedPath := some givenPath }
    | some engine =>
      let fusePath := if givenPath = [] then engine.vaultPathToFusePath entryPath else givenPath
      let vaultPath := if entryPath = [] then engine.fusePathToVaultPath fusePath else entryPath
      if fusePath = [] ∨ vaultPath = [] then
        .error { allowed := false, reason := .unableToResolvePaths, evaluatedPath := some fusePath }
      else
        let entry := if req.entry.isSome then req.entry else system.getEntry fusePath
        if ofAnotherVault entry engine then
          .error { allowed := false, reason := .entryVaultMismatch, evaluatedPath := some fusePath }
        else
          let isDir := match entry with
            | some found => found.isDirectory
            | none => inferIsDirectoryForMissingEntry req.action
          checkKind req.action
            { engine := engine, fusePath := fusePath, entry := entry,
              context := { vaultPath := vaultPath, «exists» := entry.isSome, isDir := isDir } }

/-! ## Requests for a path of a vault -/

/-- The request for an action on a path below the FUSE root. -/
def pathRequest (action : FilesystemAction) (vaultId : UInt32) (fusePath : Str) : TargetRequest :=
  { action := action, vaultId := some vaultId, path := some fusePath, entry := none }

theorem checkKind_eq_ok {action : FilesystemAction} {target result : Target} :
    checkKind action target = .ok result ↔
      (requiresExistingEntry action -> target.context.exists) ∧
        (if target.context.isDir then isValidForDirectory action else isValidForFile action) ∧
          target = result := by
  unfold checkKind
  cases present : target.context.exists <;> cases required : requiresExistingEntry action <;>
    cases isDir : target.context.isDir <;> cases forDirectory : isValidForDirectory action <;>
    cases forFile : isValidForFile action <;> simp

/-- The target of a path: the entry that the cache has for it, and the path of the vault it converts to. -/
def pathTarget (engine : Engine) (action : FilesystemAction) (fusePath : Str) : Target :=
  { engine := engine, fusePath := fusePath, entry := system.getEntry fusePath,
    context :=
      { vaultPath := engine.fusePathToVaultPath fusePath, «exists» := (system.getEntry fusePath).isSome,
        isDir := match system.getEntry fusePath with
          | some found => found.isDirectory
          | none => inferIsDirectoryForMissingEntry action } }

theorem resolveTarget_path {system : System} {engine : Engine} {vaultId : UInt32} {fusePath : Str}
    (found : system.storage.getEngine vaultId = some engine) (named : fusePath ≠ [])
    (converted : engine.fusePathToVaultPath fusePath ≠ []) (action : FilesystemAction) (target : Target) :
    resolveTarget system (pathRequest action vaultId fusePath) = .ok target ↔
      ofAnotherVault (system.getEntry fusePath) engine = false ∧
        checkKind action (pathTarget system engine action fusePath) = .ok target := by
  have isEngine : engineFor system (pathRequest action vaultId fusePath) = some engine := by
    simp [engineFor, pathRequest, found]
  unfold resolveTarget
  rw [isEngine]
  simp only [pathRequest, Option.isSome_none, Option.isSome_some, Option.getD_some, Option.map_none, Option.getD_none,
    named, converted, if_false, if_true, or_self, Bool.not_true, Bool.and_false, Bool.false_eq_true]
  cases another : ofAnotherVault (system.getEntry fusePath) engine with
  | false => simp [pathTarget]
  | true => simp

end Evaluator
end Access
end Vaulthalla
