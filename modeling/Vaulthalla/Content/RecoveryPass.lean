import Vaulthalla.Content.CrashConsistency

namespace Vaulthalla
namespace Content
namespace Sidecar

open Function

/-!
# A recovery while files are written

One `recoverSidecars` run walks the backing directory for sidecars, loads the
rows of the vault when it looks up the first of them, and then asks for each
sidecar whether it, or else the backing file, authenticates under that row.  It
takes no content lock.

Meanwhile any files of the vault are overwritten and sealed, one writer at a
time for each file, which is what the content lock admits.  Every content is
sealed, and the only failures are the missing sidecars that a writer or the
recovery may come upon.
-/

/-! ## Writers -/

/-- Where the writer of a file stands. -/
inductive Control
  | idle
  | started (next : Sealed)
  /-- The old sidecar is removed. -/
  | cleared (next : Sealed)
  | created (next : Sealed)
  | staged (next : Sealed)
  | hashed (next : Sealed)
  /-- The row describes the sidecar. -/
  | committed (next : Sealed)
deriving DecidableEq

inductive WriteEvent
  | start (next : Sealed)
  | remove | create | fill | hash | update | rename

/-- A step of `createFile` or `seal`, and whether it throws. -/
def writeStep (file : File) (control : Control) (event : WriteEvent) : Option (File × Control × Bool) :=
  match control, event with
  | .idle, .start next => some (file, .started next, false)
  | .started next, .remove => some (file.removeSidecar, .cleared next, false)
  | .cleared next, .create =>
    -- the sidecar is opened exclusively
    if file.sidecar = none then some (file.setSidecar .torn, .created next, false) else some (file, .idle, true)
  | .created next, .fill =>
    -- a file that was unlinked meanwhile is written, and has no name
    if file.sidecar = some .torn then some (file.setSidecar (.sealed next), .staged next, false)
    else some (file, .staged next, false)
  | .staged next, .hash =>
    if file.sidecar = none then some (file, .idle, true) else some (file, .hashed next, false)
  | .hashed next, .update => some (file.setRow (.sealed next), .committed next, false)
  | .committed _, .rename => if file.sidecar = none then some (file, .idle, true) else some (file.promote, .idle, false)
  | _, _ => none

/-! ## The recovery -/

/-- Where the recovery stands with one sidecar. -/
inductive Phase
  | looked | present
  /-- The sidecar authenticates. -/
  | promoting
  /-- The sidecar does not authenticate. -/
  | unread
  /-- The backing file does. -/
  | discarding

inductive Recovery (Id : Type)
  | idle
  | walking (todo found : List Id)
  /-- The sidecars that are left, and the rows once they are loaded. -/
  | resolving (found : List Id) (rows : Option (Id -> Row))
  | handling (id : Id) (phase : Phase) (rest : List Id) (rows : Id -> Row)
  | finished

inductive RecoverEvent
  | begin | visit | lookUp | probe | readSidecar | promote | readBacking | discard | finish

/-- The files of a vault, with their writers and the recovery. -/
structure Vault (Id : Type) where
  files : Id -> File
  writers : Id -> Control
  recovery : Recovery Id
  /-- A writer of the file has thrown. -/
  failed : Id -> Bool

section System

variable {Id : Type} [DecidableEq Id]

def Vault.setFile (vault : Vault Id) (id : Id) (file : File) : Vault Id :=
  { vault with files := update vault.files id file }

/-- A step of the recovery of a vault with the given files. -/
def recoverStep (ids : List Id) (vault : Vault Id) (event : RecoverEvent) : Option (Vault Id) :=
  match vault.recovery, event with
  | .idle, .begin => some { vault with recovery := .walking ids [] }
  | .walking (id :: todo) found, .visit =>
    let found := if (vault.files id).sidecar = none then found else found ++ [id]
    some { vault with recovery := .walking todo found }
  | .walking [] found, .visit => some { vault with recovery := .resolving found none }
  | .resolving (id :: rest) rows, .lookUp =>
    some { vault with recovery := .handling id .looked rest (rows.getD fun id => (vault.files id).row) }
  | .handling id .looked rest rows, .probe =>
    if (vault.files id).sidecar = none then some { vault with recovery := .resolving rest (some rows) }
    else some { vault with recovery := .handling id .present rest rows }
  | .handling id .present rest rows, .readSidecar =>
    if authenticates (vault.files id).sidecar (rows id).state then
      some { vault with recovery := .handling id .promoting rest rows }
    else some { vault with recovery := .handling id .unread rest rows }
  | .handling id .promoting rest rows, .promote =>
    -- a sidecar that is gone makes the rename throw, and the sidecar counts as unresolved
    some { vault.setFile id (vault.files id).promote with recovery := .resolving rest (some rows) }
  | .handling id .unread rest rows, .readBacking =>
    if authenticates (vault.files id).backing (rows id).state then
      some { vault with recovery := .handling id .discarding rest rows }
    else some { vault with recovery := .resolving rest (some rows) }
  | .handling id .discarding rest rows, .discard =>
    some { vault.setFile id (vault.files id).removeSidecar with recovery := .resolving rest (some rows) }
  | .resolving [] _, .finish => some { vault with recovery := .finished }
  | _, _ => none

inductive Label (Id : Type)
  | write (id : Id) (event : WriteEvent)
  | recover (event : RecoverEvent)

def Vault.step (ids : List Id) (vault : Vault Id) (label : Label Id) : Option (Vault Id) :=
  match label with
  | .write id event =>
    (writeStep (vault.files id) (vault.writers id) event).map fun result =>
      { vault.setFile id result.1 with
        writers := update vault.writers id result.2.1
        failed := update vault.failed id (vault.failed id || result.2.2) }
  | .recover event => recoverStep ids vault event

end System

/-- The writers are idle, and the recovery has not begun. -/
def Vault.initial {Id : Type} (files : Id -> File) : Vault Id :=
  { files := files, writers := fun _ => .idle, recovery := .idle, failed := fun _ => false }

end Sidecar
end Content
end Vaulthalla
