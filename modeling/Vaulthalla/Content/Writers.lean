import Vaulthalla.Foundation.ByteString
import Vaulthalla.Foundation.Transition

namespace Vaulthalla
namespace Content

open Foundation Function

/-!
# Writers and uploads of one file

The content of a file lives in three places: the row that says under which
initialisation vector and key version it is sealed, the backing file with the
sealed bytes, and, for a cloud vault, the object with the bytes and the same
two facts as metadata.  A sidecar next to the backing file holds new bytes
until the row describes them.

Every writer replaces the content in one order under the file's content lock:
new bytes to the sidecar, then the row, then the sidecar renamed over the
backing file.  `createFile` and `WorkingCopies::seal` are one program in this
respect.  `rotateFile` seals the same content again and publishes it before
the row is changed; without a local copy it works on the object alone.

An upload is given a row that was read some time before, opens the backing
file and sends its bytes with the metadata of that row.  It does not take the
content lock.  The bytes are fixed when the file is opened, since a rename
leaves the opened file as it is, so a single request and a multipart upload
leave the same object at their end.
-/

/-! ## Sealed content -/

/-- What a files row, or the metadata of an object, says about the bytes it describes. -/
structure EncryptionState where
  iv : Str
  keyVersion : Nat
deriving DecidableEq

def EncryptionState.encrypted (state : EncryptionState) : Bool :=
  !state.iv.isEmpty

/-- Sealed bytes.  They authenticate under the state they were sealed with and under no other. -/
structure Ciphertext where
  state : EncryptionState
  content : Str
deriving DecidableEq

def Ciphertext.authenticates (bytes : Ciphertext) (state : EncryptionState) : Bool :=
  bytes.state == state

@[simp] theorem Ciphertext.authenticates_iff (bytes : Ciphertext) (state : EncryptionState) :
    bytes.authenticates state ↔ bytes.state = state := by
  simp [Ciphertext.authenticates]

structure StoredObject where
  bytes : Ciphertext
  metadata : EncryptionState
deriving DecidableEq

/-- The places in which the content of one file is kept. -/
structure SharedFile where
  row : EncryptionState
  (backing sidecar : Option Ciphertext)
  object : Option StoredObject

/-! ## Writers -/

/-- Where a writer stands.  In every position but `idle` it holds the content lock. -/
inductive WriterControl
  | idle
  /-- `createFile` or `WorkingCopies::seal`, before the sidecar is written. -/
  | holding
  | staged (next : Ciphertext)
  /-- `rotateFile`, before it has read the row again. -/
  | rotating (expected : EncryptionState) (current : Nat)
  | checked (expected : EncryptionState) (current : Nat)
  | resealed (expected : EncryptionState) (next : Ciphertext)
  | published (expected : EncryptionState) (next : Ciphertext)
  /-- The row describes the sidecar, which is not in place yet. -/
  | committed
  /-- `rotateRemoteObject`, with the body of the object. -/
  | downloaded (expected : EncryptionState) (current : Nat) (payload : Ciphertext)
  | described (expected : EncryptionState) (current : Nat) (payload : Ciphertext) (object : EncryptionState)
  | adopted (expected state : EncryptionState)
deriving DecidableEq

inductive WriterEvent
  | write
  | rotate (expected : EncryptionState) (current : Nat)
  | check
  | stage (next : Ciphertext)
  | publish | commit
  /-- The row update throws, and may have taken effect all the same. -/
  | commitUnknown (applied : Bool)
  | rename | renameFails | download | describe | adopt
  | republish (next : Ciphertext)
  /-- A return or exception before the writer has touched anything. -/
  | giveUp
  /-- An exception after it has: the writer removes its sidecar. -/
  | fail
deriving DecidableEq

variable (file : SharedFile)

/-- `resolveSidecar` for a sidecar left by an interrupted writer: promoted if
the row describes it, discarded if the row describes the backing file. -/
def resolveSidecar (state : EncryptionState) : Option SharedFile :=
  match file.sidecar with
  | none => some file
  | some sidecar =>
    if sidecar.authenticates state then some { file with backing := some sidecar, sidecar := none }
    else if file.backing.any (fun bytes => bytes.authenticates state) then some { file with sidecar := none }
    else none

/-- New bytes for old content, under the current key and a new vector. -/
def reseals (next bytes : Ciphertext) (state : EncryptionState) (current : Nat) : Bool :=
  bytes.authenticates state && next.content == bytes.content && next.state.keyVersion == current &&
    next.state != state

/-- One step of a writer that holds, or may take, the content lock. -/
def writerStep (control : WriterControl) (event : WriterEvent) : Option (SharedFile × WriterControl) :=
  match control, event with
  | .idle, .write => some (file, .holding)
  | .holding, .giveUp => some (file, .idle)
  | .holding, .stage next => some ({ file with sidecar := some next }, .staged next)
  | .holding, .fail => some ({ file with sidecar := none }, .idle)
  | .staged next, .commit => some ({ file with row := next.state }, .committed)
  | .staged next, .commitUnknown applied =>
    some ({ file with row := if applied then next.state else file.row, sidecar := none }, .idle)
  | .staged _, .fail => some ({ file with sidecar := none }, .idle)
  | .idle, .rotate expected current =>
    if expected.encrypted && expected.keyVersion < current then some (file, .rotating expected current) else none
  | .rotating _ _, .giveUp => some (file, .idle)
  | .rotating expected current, .check =>
    if file.row ≠ expected then some (file, .idle)
    else
      match resolveSidecar file expected with
      | none => some (file, .idle)
      | some resolved => some (resolved, .checked expected current)
  | .checked _ _, .giveUp => some (file, .idle)
  | .checked expected current, .stage next =>
    if file.backing.any (fun bytes => reseals next bytes expected current) then
      some ({ file with sidecar := some next }, .resealed expected next)
    else none
  | .resealed expected next, .publish =>
    some ({ file with object := some { bytes := next, metadata := next.state } }, .published expected next)
  | .resealed _ _, .fail => some ({ file with sidecar := none }, .idle)
  | .published expected next, .commit =>
    if file.row = expected then some ({ file with row := next.state }, .committed)
    else some ({ file with sidecar := none }, .idle)
  | .published expected next, .commitUnknown applied =>
    some ({ file with row := if applied ∧ file.row = expected then next.state else file.row }, .idle)
  | .published _ _, .fail => some ({ file with sidecar := none }, .idle)
  | .committed, .rename =>
    match file.sidecar with
    | none => none
    | some sidecar => some ({ file with backing := some sidecar, sidecar := none }, .idle)
  | .committed, .renameFails => some (file, .idle)
  | .checked expected current, .download =>
    match file.backing, file.object with
    | none, some object => some (file, .downloaded expected current object.bytes)
    | _, _ => none
  | .downloaded expected current payload, .describe =>
    file.object.map fun object => (file, .described expected current payload object.metadata)
  | .downloaded _ _ _, .giveUp => some (file, .idle)
  | .described expected current payload object, .adopt =>
    if object.keyVersion = current ∧ payload.authenticates object = true then
      some (file, .adopted expected object)
    else none
  | .described expected current payload object, .republish next =>
    if object.keyVersion ≠ current ∧ reseals next payload object current = true then
      some ({ file with object := some { bytes := next, metadata := next.state } }, .adopted expected next.state)
    else none
  | .described _ _ _ _, .giveUp => some (file, .idle)
  | .adopted expected state, .commit =>
    some ({ file with row := if file.row = expected then state else file.row }, .idle)
  | .adopted _ _, .giveUp => some (file, .idle)
  | _, _ => none

/-! ## Uploads -/

inductive UploadControl
  | idle
  /-- The upload has its row and has not opened the backing file. -/
  | given (file : EncryptionState)
  | opened (file : EncryptionState) (bytes : Ciphertext)
deriving DecidableEq

def UploadControl.awaitsOpen : UploadControl -> Bool
  | .given _ => true
  | _ => false

inductive UploadEvent
  | readRow | openBacking | complete | fail
deriving DecidableEq

/-- One step of `CloudEngine::upload` in a vault that encrypts upstream.  The
metadata must be complete, and a failed request leaves no object. -/
def uploadStep (control : UploadControl) (event : UploadEvent) : Option (SharedFile × UploadControl) :=
  match control, event with
  | .idle, .readRow => some (file, .given file.row)
  | .given metadata, .openBacking =>
    match file.backing with
    | none => none
    | some bytes =>
      if metadata.iv.isEmpty || metadata.keyVersion == 0 then none else some (file, .opened metadata bytes)
  | .opened metadata bytes, .complete =>
    some ({ file with object := some { bytes := bytes, metadata := metadata } }, .idle)
  | _, .fail => some (file, .idle)
  | _, _ => none

/-! ## The system -/

inductive Label (Writer Upload : Type)
  | writer (writer : Writer) (event : WriterEvent)
  | upload (upload : Upload) (event : UploadEvent)

structure System (Writer Upload : Type) where
  file : SharedFile
  /-- `contentWriteMutex` of the file, and who holds it. -/
  lock : Option Writer
  writers : Writer -> WriterControl
  uploads : Upload -> UploadControl

section System

variable {Writer Upload : Type} [DecidableEq Writer] [DecidableEq Upload]

/-- A writer moves when the lock is free or its own, and frees the lock when it returns. -/
def step (system : System Writer Upload) (label : Label Writer Upload) : Option (System Writer Upload) :=
  match label with
  | .writer writer event =>
    if system.lock.all (fun holder => holder = writer) then
      (writerStep system.file (system.writers writer) event).map fun result =>
        { system with
          file := result.1
          lock := if result.2 = .idle then none else some writer
          writers := update system.writers writer result.2 }
    else none
  | .upload upload event =>
    (uploadStep system.file (system.uploads upload) event).map fun result =>
      { system with file := result.1, uploads := update system.uploads upload result.2 }

variable {next system : System Writer Upload}

theorem step_writer {writer : Writer} {event : WriterEvent} (taken : step system (.writer writer event) = some next) :
    (system.lock = none ∨ system.lock = some writer) ∧
      Exists fun file => Exists fun control =>
        writerStep system.file (system.writers writer) event = some (file, control) ∧
          next = { system with
                   file := file
                   lock := if control = .idle then none else some writer
                   writers := update system.writers writer control } := by
  rcases Option.ite_none_right_eq_some.mp taken with ⟨free, taken⟩
  rcases Option.map_eq_some_iff.mp taken with ⟨⟨file, control⟩, moved, rfl⟩
  refine ⟨?_, file, control, moved, rfl⟩
  cases held : system.lock with
  | none => exact .inl rfl
  | some holder =>
    simp only [held, Option.all_some, decide_eq_true_eq] at free
    exact .inr (by rw [free])

end System

end Content
end Vaulthalla
