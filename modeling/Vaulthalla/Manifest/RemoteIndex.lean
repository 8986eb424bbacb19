import Vaulthalla.Sync.Planner

namespace Vaulthalla
namespace Manifest

open Foundation Sync

/-!
# The remote index of a node

Each node keeps the rows of the bucket's objects in a table of its database.
The table is replaced by the rows of the shared manifest, takes the uploads
and deletions of the node's own plans, and is published as the next manifest.
Rows under `.vaulthalla/` take no part: they are neither stored nor published.

A manifest is its rows.  The JSON text between the two tables is not modelled.
-/

/-- The rows of one vault, by object key. -/
abbrev RemoteIndex := AList (fun _ : Str => RemoteObject)

def indexV1Key : Str := str ".vaulthalla/index-v1.json"

def isVaulthallaManifestKey (path : Str) : Bool :=
  let key := normalizeObjectKey path
  key == indexV1Key || (str ".vaulthalla/").isPrefixOf key

def publishable (key : Str) : Bool :=
  !key.isEmpty && !isVaulthallaManifestKey key

variable (index : RemoteIndex)

/-- The rows that `buildIndexV1` writes and `parseIndexV1` reads. -/
def publishableRows : RemoteIndex :=
  ⟨index.entries.filter fun entry => publishable entry.1,
    index.nodupKeys.sublist List.filter_sublist⟩

def upsertFile (file : File) : RemoteIndex :=
  if isVaulthallaManifestKey file.path then index
  else
    let key := normalizeObjectKey file.path
    index.insert key (RemoteObject.upsert (index.lookup key) (RemoteObject.ofFile file))

def deleteKey (path : Str) : RemoteIndex :=
  index.erase (normalizeObjectKey path)

/-- What a vault's settings say about its uploads. -/
structure VaultSettings where
  encryptUpstream : Bool
  configuredStorageClass : Option Str

/-- One turn of `replayMutation`, with the answer whether it mutated the index. -/
def replayAction (vault : VaultSettings) (index : RemoteIndex) (action : Action) : RemoteIndex × Bool :=
  match action.type, action.localFile, action.remote with
  | .upload, some localFile, _ =>
    (upsertFile index (indexedCopy vault.encryptUpstream vault.configuredStorageClass localFile), true)
  | .deleteRemote, _, some remote => (deleteKey index remote.path, true)
  | _, _, _ => (index, false)

/-- The key that a plan's action uploads or deletes. -/
def replayedKey (action : Action) : Option Str :=
  match action.type, action.localFile, action.remote with
  | .upload, some localFile, _ => some (normalizeObjectKey localFile.path)
  | .deleteRemote, _, some remote => some (normalizeObjectKey remote.path)
  | _, _, _ => none

theorem mem_lookup_publishableRows (key : Str) (row : RemoteObject) :
    (publishableRows index).lookup key = some row ↔ index.lookup key = some row ∧ publishable key := by
  have filtered : row ∈ (publishableRows index).lookup key ↔
      row ∈ index.lookup key ∧ publishable key := by
    rw [AList.mem_lookup_iff, AList.mem_lookup_iff]
    exact List.mem_filter
  simpa [Option.mem_def] using filtered

theorem upsertFile_lookup_of_ne {file : File} {key : Str}
    (other : key ≠ normalizeObjectKey file.path) : (upsertFile index file).lookup key = index.lookup key := by
  unfold upsertFile
  split
  · rfl
  · exact AList.lookup_insert_ne other

/-- A replayed action leaves the rows of other keys as they are. -/
theorem replayAction_lookup_of_ne (vault : VaultSettings) (index : RemoteIndex) {action : Action} {key : Str}
    (other : replayedKey action ≠ some key) : (replayAction vault index action).1.lookup key = index.lookup key := by
  unfold replayedKey at other
  unfold replayAction
  split
  · rename_i localFile _ isUpload isLocal
    simp only [isUpload, isLocal] at other
    apply upsertFile_lookup_of_ne
    intro same
    apply other
    cases encrypted : vault.encryptUpstream <;> simp [same, indexedCopy, encrypted]
  · rename_i remote isDelete isRemote
    simp only [isDelete, isRemote] at other
    apply AList.lookup_erase_ne
    intro same
    exact other (by rw [same])
  · rfl

end Manifest
end Vaulthalla
