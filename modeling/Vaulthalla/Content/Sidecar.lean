import Vaulthalla.Content.Writers
import Vaulthalla.Foundation.CrashProgram

namespace Vaulthalla
namespace Content
namespace Sidecar

open Foundation CrashProgram

/-!
# The sidecar of a file

New content of a file is written to the sidecar next to its backing file, the
row is made to describe it, and the sidecar is renamed over the backing file.
`createFile` and `WorkingCopies::seal` remove whatever sidecar they find first;
`rotateFile` resolves it against the row.  Each of the three is written here as
a program of durable steps that may throw or be killed.

An empty content is stored as an empty file under a row without a vector, so
that the sidecar of an empty replacement is not sealed.  A row without a vector
and with a size is a legacy plaintext.

The content lock of the file is held throughout, so one replacement follows
another, and a recovery comes between them.
-/

/-! ## What is on disk -/

/-- Sealed bytes have a vector. -/
structure Sealed extends Ciphertext where
  isEncrypted : state.encrypted = true
deriving DecidableEq

inductive Bytes
  | plain (content : Str)
  /-- A file that is not completely written. -/
  | torn
  | sealed (bytes : Sealed)
deriving DecidableEq

/-- The columns of a files row that describe its bytes. -/
structure Row where
  state : EncryptionState
  size : Nat
deriving DecidableEq

/-- A file, with the content of the last replacement whose row update took effect. -/
structure File where
  row : Row
  (backing sidecar : Option Bytes)
  content : Str
deriving DecidableEq

/-- `fileAuthenticates`.  What is not sealed authenticates under nothing. -/
def Bytes.authenticates (bytes : Bytes) (state : EncryptionState) : Bool :=
  match bytes with
  | .sealed bytes => bytes.toCiphertext.authenticates state
  | .plain _ | .torn => false

def authenticates (bytes : Option Bytes) (state : EncryptionState) : Bool :=
  bytes.any fun bytes => bytes.authenticates state

/-! ## Recovery -/

inductive Resolution
  | none | promoted | discarded | unresolved
deriving DecidableEq

variable (file : File)

/-- `resolveSidecar` with the state of the row. -/
def resolution (state : EncryptionState) : Resolution :=
  match file.sidecar with
  | none => .none
  | some sidecar =>
    -- sidecars are taken to hold ciphertext only
    if !state.encrypted then .discarded
    else if sidecar.authenticates state then .promoted
    else if authenticates file.backing state then .discarded
    else .unresolved

def File.removeSidecar : File :=
  { file with sidecar := none }

/-- The rename of the sidecar over the backing file. -/
def File.promote : File :=
  match file.sidecar with
  | none => file
  | some sidecar => { file with backing := some sidecar, sidecar := none }

def resolveSidecar (state : EncryptionState) (file : File) : File :=
  match resolution file state with
  | .promoted => file.promote
  | .discarded => file.removeSidecar
  | .none | .unresolved => file

/-- `recoverSidecars` for this file. -/
def recoverSidecars : File :=
  resolveSidecar file.row.state file

/-! ## Writers -/

inductive Replacement
  | empty
  | sealed (next : Sealed)
deriving DecidableEq

def Replacement.bytes : Replacement -> Bytes
  | .empty => .plain []
  | .sealed next => .sealed next

def Replacement.content : Replacement -> Str
  | .empty => []
  | .sealed next => next.content

/-- The row of the staged file. -/
def Replacement.row : Replacement -> Row
  | .empty => { state := { iv := [], keyVersion := 0 }, size := 0 }
  | .sealed next => { state := next.state, size := next.content.length }

def File.setSidecar (bytes : Bytes) (file : File) : File :=
  { file with sidecar := some bytes }

def File.setRow (next : Replacement) (file : File) : File :=
  { file with row := next.row, content := next.content }

/-- The steps at which a writer can be stopped. -/
inductive Point
  /-- Before anything is touched. -/
  | prepare | remove
  /-- The sidecar is there and not complete. -/
  | create | fill
  /-- Between the complete sidecar and the row update: hashing, and the capture of the old version. -/
  | retain | update
  /-- The end of the capture, after the row update. -/
  | bookkeeping | rename
  /-- After the rename. -/
  | finish
  /-- The removal of the sidecar where an exception is caught. -/
  | cleanup | resolve | publish
deriving DecidableEq

section

variable (next : Replacement) (events : Point -> Event)

def replaceContent : Program File :=
  andThen (perform (events .prepare) id) <|
  andThen (perform (events .remove).quietly File.removeSidecar) <|
  andThen
    (onThrow
      (andThen (perform (events .create) (File.setSidecar .torn)) <|
       andThen (perform (events .fill) (File.setSidecar next.bytes)) <|
       andThen (perform (events .retain) id) <|
       andThen (perform (events .update) (File.setRow next)) <|
       -- `Pending::committed` is noexcept
       perform (events .bookkeeping).terminating id)
      (perform (events .cleanup).quietly File.removeSidecar)) <|
  andThen (perform (events .rename) File.promote) <|
  perform (events .finish) id

/-- The overwriting branch of `Filesystem::createFile`. -/
def createFile : Program File :=
  replaceContent next events

/-- `WorkingCopies::seal` of a dirty copy. -/
def sealCopy : Program File :=
  replaceContent next events

end

/-- What a call of `rotateFile` is given and finds out. -/
structure Rotation where
  expected : EncryptionState
  current : Nat
  /-- The file is open through the mount, before and after the sidecar is written. -/
  (busy busyLater : Bool)
  /-- The bytes that `reseal` returns. -/
  next : Sealed

variable (rotation : Rotation)

/-- The new bytes have the content of the backing file, the current key and a new vector. -/
def Rotation.reseals (backing : Option Bytes) : Bool :=
  match backing with
  | some (.sealed bytes) => Content.reseals rotation.next.toCiphertext bytes.toCiphertext rotation.expected rotation.current
  | _ => false

def rotateLocalCopy (events : Point -> Event) : Program File :=
  branch (fun file => !rotation.reseals file.backing) raise <|
  -- `writeFileExclusive` removes a file that it could not complete
  andThen
    (onThrow
      (andThen (perform (events .create) (File.setSidecar .torn)) <|
       andThen (perform (events .fill) (File.setSidecar (.sealed rotation.next))) <|
       perform (events .publish) id)
      (perform (events .cleanup).quietly File.removeSidecar)) <|
  branch (fun _ => rotation.busyLater) (perform (events .remove).quietly File.removeSidecar) <|
  -- the sidecar is kept if the commit throws
  andThen (perform (events .update) (File.setRow (.sealed rotation.next))) <|
  andThen (perform (events .rename) File.promote) <|
  perform (events .finish).quietly id

/-- `rotateFile` for a file with a local copy. -/
def rotateFile (events : Point -> Event) : Program File :=
  branch (fun _ => !rotation.expected.encrypted || rotation.current ≤ rotation.expected.keyVersion) skip <|
  branch (fun file => file.row.state != rotation.expected) skip <|
  branch (fun _ => rotation.busy) skip <|
  branch (fun file => resolution file rotation.expected == .unresolved) raise <|
  andThen (perform (events .resolve) (resolveSidecar rotation.expected)) <|
  rotateLocalCopy rotation events

inductive Writer
  | createFile (next : Replacement)
  | sealCopy (next : Replacement)
  | rotateFile (rotation : Rotation)

def Writer.program : Writer -> (Point -> Event) -> Program File
  | .createFile next => Sidecar.createFile next
  | .sealCopy next => Sidecar.sealCopy next
  | .rotateFile rotation => Sidecar.rotateFile rotation

end Sidecar
end Content
end Vaulthalla
