import Vaulthalla.Content.Writers
import Vaulthalla.Foundation.Pool
import Vaulthalla.Vault.KeyRows

namespace Vaulthalla
namespace Vault
namespace KeyRotation

open Foundation Content

/-!
# Rotation passes among writers

A content writer takes the current key with its version, seals its bytes and
commits a row with that version.  A rotation pass recovers what an interrupted
pass left, lists the rows on an older version, rotates them on the sync pool,
and asks for such rows again; when nothing failed and none is left it calls
`finish_key_rotation`, which drops the outgoing key.

Writers, `prepare_key_rotation` calls and passes start at any time, any number
of them at once: a pass of a cloud vault holds a lease, one of a local vault
holds nothing.  A file is its row with the key of the bytes that the row
describes; what happens to a sidecar before its row is committed is left to
`Content.Sidecar`, so that a recovery only reports whether it resolved every
sidecar.  No content lock is modelled: also the interleavings that it excludes
are runs.
-/

/-! ## Files -/

/-- A files row and the key its bytes are sealed with, which has no meaning for a row without a vector. -/
structure FileRow (Id Key : Type) where
  id : Id
  state : EncryptionState
  key : Key
deriving DecidableEq

/-- The row of a content that is not sealed. -/
def unsealedState : EncryptionState :=
  { iv := [], keyVersion := 0 }

section Table

variable {Id Key : Type} [DecidableEq Id]

section

variable (files : List (FileRow Id Key))

/-- `updateFile` or `upsertFile` -/
def upsertFile (row : FileRow Id Key) : List (FileRow Id Key) :=
  files.filter (fun other => other.id ≠ row.id) ++ [row]

def compareAndSetEncryptionIVAndVersion (id : Id) (expected state : EncryptionState) (key : Key) :
    List (FileRow Id Key) :=
  files.map fun row => if row.id = id ∧ row.state = expected then { row with state := state, key := key } else row

def getFilesOlderThanKeyVersion (salvaged : List Nat) (version : Nat) : List (FileRow Id Key) :=
  files.filter fun row =>
    row.state.keyVersion < version && row.state.encrypted && !salvaged.contains row.state.keyVersion

end

end Table

/-! ## Writers -/

inductive Writer (Id Key : Type)
  /-- The key and version are taken. -/
  | holding (id : Id) (key : Key) (version : Nat)
  /-- The bytes are sealed. -/
  | staged (row : FileRow Id Key)

/-! ## The rotation of one file -/

/-- The bytes that `rotateFile` finds. -/
inductive Source (Key : Type)
  /-- The local copy. -/
  | backing
  /-- An object with its metadata, where there is no local copy. -/
  | object (state : EncryptionState) (key : Key) (encryptUpstream : Bool)
  /-- No ciphertext at all, in a vault that stores plaintext upstream. -/
  | plaintext

inductive Task (Id Key : Type)
  | listed (id : Id) (expected : EncryptionState)
  /-- `rotateFile` has read the current version. -/
  | begun (id : Id) (expected : EncryptionState) (current : Nat)
  /-- The row is still as it was listed; the key is that of its bytes. -/
  | checked (id : Id) (expected : EncryptionState) (current : Nat) (key : Key)
  | resealed (id : Id) (expected state : EncryptionState) (key : Key)

inductive TaskEvent (Key : Type)
  | begin | check
  /-- The bytes are sealed again under a new vector. -/
  | reseal (source : Source Key) (iv : Str)
  | commit
  /-- A writer has the file open. -/
  | defer
  /-- An exception, or a range that was cut short. -/
  | fail

section Rotate

variable {Id Key : Type} [DecidableEq Id] [DecidableEq Key] (manager : Manager Key)

/-- `rotateDecryptEncrypt`, unless it throws. -/
def Manager.rotateDecryptEncrypt (state : EncryptionState) (key : Key) (iv : Str) : Option (EncryptionState × Key) :=
  if state.keyVersion = manager.version then some (state, key)
  else if !manager.rotating then none
  -- the bytes open under the key they were sealed with only
  else if manager.outgoing = some key then some ({ iv := iv, keyVersion := manager.version }, manager.key)
  else none

/-- What `rotateLocalCopy` or `rotateRemoteObject` will make the row describe, unless it throws. -/
def Manager.reseal (expected : EncryptionState) (current : Nat) (key : Key)
    (source : Source Key) (iv : Str) : Option (EncryptionState × Key) :=
  match source with
  | .backing =>
    -- a state that did not change is refused
    (manager.rotateDecryptEncrypt expected key iv).filter fun next => next.1 != expected
  | .object state objectKey encryptUpstream =>
    if state.keyVersion = current then
      -- already on the current key: its metadata is adopted if it authenticates
      if manager.keySnapshot state.keyVersion = some objectKey then some (state, objectKey) else none
    else if encryptUpstream then manager.rotateDecryptEncrypt state objectKey iv
    else if manager.keySnapshot state.keyVersion = some objectKey then some (unsealedState, objectKey)
    else none
  | .plaintext => some (unsealedState, key)

/-- A step of `rotateFile`: the files, where the rotation then stands unless it
returns, and whether it went without a failure. -/
def taskStep (files : List (FileRow Id Key)) (task : Task Id Key) (event : TaskEvent Key) :
    Option (List (FileRow Id Key) × Option (Task Id Key) × Bool) :=
  match task, event with
  | .listed id expected, .begin =>
    if expected.encrypted && expected.keyVersion < manager.version then
      some (files, some (.begun id expected manager.version), true)
    else some (files, none, true)
  | .begun id expected current, .check =>
    match files.find? fun row => row.id = id ∧ row.state = expected with
    | some row => some (files, some (.checked id expected current row.key), true)
    | none => some (files, none, true)
  | .checked id expected current key, .reseal source iv =>
    match manager.reseal expected current key source iv with
    | some (state, next) => some (files, some (.resealed id expected state next), true)
    | none => some (files, none, false)
  | .resealed id expected state key, .commit =>
    some (compareAndSetEncryptionIVAndVersion files id expected state key, none, true)
  | .begun _ _ _, .defer | .resealed _ _ _ _, .defer => some (files, none, true)
  | _, .fail => some (files, none, false)
  | _, _ => none

end Rotate

/-! ## The pass -/

/-- Where `runPass` stands.  A pass is clean while it has left nothing
unresolved and nothing has failed. -/
inductive Pass (Id Key : Type)
  /-- A rotation is in progress. -/
  | entered
  | started (version : Nat)
  | recovered (version : Nat) (clean : Bool)
  /-- The listed files are rotated. -/
  | rotating (version : Nat) (clean : Bool) (tasks : List (Task Id Key))
  | rotated (version : Nat) (clean : Bool)
  | reconciled (version : Nat) (clean : Bool)
  /-- The second query found nothing. -/
  | completed
  | finishing (call : Finish)

inductive PassEvent (Key : Type)
  | start
  | recover (resolved : Bool)
  | list
  | rotate (index : Nat) (event : TaskEvent Key)
  | join
  | reconcile (succeeded : Bool)
  | listAgain | finish

/-- A vault with its writers, its `prepare_key_rotation` calls and its passes. -/
structure State (Id Key : Type) where
  rows : KeyRows Key
  manager : Manager Key
  /-- The versions that a key salvage names. -/
  salvaged : List Nat
  files : List (FileRow Id Key)
  writers : List (Writer Id Key)
  prepares : List (Prepare Key Key)
  passes : List (Pass Id Key)
  /-- `finish_key_rotation` has returned, and `prepare_key_rotation` was not called since. -/
  finished : Bool

inductive Label (Id Key : Type)
  /-- A writer begins and takes the current key. -/
  | take (id : Id)
  | encrypt (writer : Nat) (iv : Str)
  | commit (writer : Nat)
  | abandon (writer : Nat)
  /-- A writer of an empty content, which takes no key, commits its row. -/
  | commitEmpty (id : Id)
  | prepare (next : Key)
  | advance (call : Nat)
  /-- A pass begins. -/
  | enter
  | pass (pass : Nat) (event : PassEvent Key)

section System

variable {Id Key : Type} [DecidableEq Id] [DecidableEq Key]

def Writer.encrypt : Writer Id Key -> Str -> Option (Writer Id Key)
  | .holding id key version, iv =>
    some (.staged { id := id, state := { iv := iv, keyVersion := version }, key := key })
  | .staged _, _ => none

section

variable (state : State Id Key)

def State.older (version : Nat) : List (FileRow Id Key) :=
  getFilesOlderThanKeyVersion state.files state.salvaged version

/-- A step of `finish_key_rotation` in a pass. -/
def State.finish (call : Finish) : State Id Key × Option (Pass Id Key) :=
  match call.advance state.rows state.manager with
  | (rows, manager, some call) => ({ state with rows := rows, manager := manager }, some (.finishing call))
  | (rows, manager, none) => ({ state with rows := rows, manager := manager, finished := true }, none)

/-- A step of a pass, and where it then stands unless it has returned. -/
def passStep (pass : Pass Id Key) (event : PassEvent Key) : Option (State Id Key × Option (Pass Id Key)) :=
  match pass, event with
  | .entered, .start => some (state, some (.started state.manager.version))
  | .started version, .recover resolved => some (state, some (.recovered version resolved))
  | .recovered version clean, .list =>
    some (state, some (.rotating version clean ((state.older version).map fun row => .listed row.id row.state)))
  | .rotating version clean tasks, .rotate index event =>
    match tasks[index]? with
    | none => none
    | some task =>
      (taskStep state.manager state.files task event).map fun result =>
        ({ state with files := result.1 },
          some (.rotating version (clean && result.2.2) (Pool.move tasks index result.2.1)))
  | .rotating version clean [], .join => some (state, some (.rotated version clean))
  | .rotated version clean, .reconcile succeeded => some (state, some (.reconciled version (clean && succeeded)))
  | .reconciled version clean, .listAgain =>
    some (state, if clean && (state.older version).isEmpty then some .completed else none)
  | .completed, .finish =>
    match Finish.begin state.rows with
    | some call => some (state, some (.finishing call))
    | none => some ({ state with finished := true }, none)
  | .finishing call, .finish => some (state.finish call)
  | _, _ => none

def State.step (label : Label Id Key) : Option (State Id Key) :=
  match label with
  | .take id =>
    some { state with writers := state.writers ++ [.holding id state.manager.key state.manager.version] }
  | .encrypt index iv =>
    match state.writers[index]? with
    | none => none
    | some writer =>
      (writer.encrypt iv).map fun next => { state with writers := Pool.move state.writers index (some next) }
  | .commit index =>
    match state.writers[index]? with
    | some (.staged row) =>
      some { state with
        files := upsertFile state.files row
        writers := Pool.move state.writers index none }
    | _ => none
  | .abandon index =>
    if index < state.writers.length then some { state with writers := Pool.move state.writers index none } else none
  | .commitEmpty id =>
    some { state with
      files := upsertFile state.files { id := id, state := unsealedState, key := state.manager.key } }
  | .prepare next =>
    some { state with
      prepares := state.prepares ++ (Prepare.begin state.rows next next).toList
      finished := false }
  | .advance index =>
    match state.prepares[index]? with
    | none => none
    | some call =>
      match call.advance state.rows state.manager with
      | (rows, manager, next) =>
        some { state with rows := rows, manager := manager, prepares := Pool.move state.prepares index next }
  | .enter => if state.manager.rotating then some { state with passes := state.passes ++ [.entered] } else none
  | .pass index event =>
    match state.passes[index]? with
    | none => none
    | some pass =>
      (passStep state pass event).map fun result =>
        { result.1 with passes := Pool.move state.passes index result.2 }

end

end System

/-- A vault that is not being rotated, with nothing under way.  The key rows
hold the current key of the manager. -/
def State.initial {Id Key : Type} (key : Key) (version : Nat) (retired : List (RetiredRow Key)) (salvaged : List Nat)
    (files : List (FileRow Id Key)) : State Id Key :=
  { rows := { current := some { version := version, sealed := key }, retired := retired.map RetiredRow.complete }
    manager := { key := key, version := version, outgoing := none, rotating := false }
    salvaged := salvaged
    files := files
    writers := []
    prepares := []
    passes := []
    finished := false }

end KeyRotation
end Vault
end Vaulthalla
