import Mathlib.Algebra.Group.Nat.Defs
import Vaulthalla.Foundation.ByteString
import Vaulthalla.Foundation.Pool
import Vaulthalla.Foundation.Transition

namespace Vaulthalla
namespace Share
namespace UploadQuota

open Foundation
open Pool (total)

/-!
# Uploads through a share link

`startUpload` compares the uploads that are complete with the limits of the
link and then inserts a pending upload.  Chunks add to the bytes received, and
`finishUpload` completes the upload when all of the expected bytes have come.
Each statement on the upload table is atomic and has its condition on the
status of the row; between two statements of one call, calls of any session
may act.

An upload is known by its place in the table of the link.  The checks of a
request that read no upload (the grant, the size of one file, its name and its
type) can only refuse, and a refusal is one event.
-/

inductive UploadStatus
  | pending | receiving | complete | failed | cancelled
deriving DecidableEq

/-- A row of the upload table, with the condition that the table checks. -/
structure Upload where
  shareSessionId : Str
  (expectedSizeBytes receivedSizeBytes : Nat)
  status : UploadStatus
  received_le : receivedSizeBytes ≤ expectedSizeBytes

namespace Upload

section

variable (upload : Upload)

def isTerminal : Bool :=
  upload.status == .complete || upload.status == .failed || upload.status == .cancelled

def exceedsExpectedSize (nextBytes : Nat) : Bool :=
  decide (upload.expectedSizeBytes - min upload.receivedSizeBytes upload.expectedSizeBytes < nextBytes)

/-- The statuses in which the update statements find the row. -/
def isActive : Bool :=
  upload.status == .pending || upload.status == .receiving

/-- `share_upload_add_received_bytes`. -/
def addReceivedBytes (bytes : Nat) : Option Upload :=
  if fits : upload.isActive = true ∧ upload.receivedSizeBytes + bytes ≤ upload.expectedSizeBytes then
    some { upload with
      receivedSizeBytes := upload.receivedSizeBytes + bytes
      status := .receiving
      received_le := fits.2 }
  else none

/-- The statements that complete, fail or cancel an upload. -/
def close (status : UploadStatus) : Option Upload :=
  if upload.isActive then some { upload with status := status } else none

def isComplete : Bool :=
  upload.status == .complete

def completedCount : Nat :=
  upload.isComplete.toNat

def completedBytes : Nat :=
  if upload.isComplete then upload.receivedSizeBytes else 0

end

end Upload

/-- The limits of the link. -/
structure Link where
  (maxUploadFiles maxUploadTotalBytes : Option Nat)

variable (uploads : List Upload)

/-- `share_upload_count_completed_files`. -/
def countCompletedFiles : Nat :=
  total Upload.completedCount uploads

/-- `share_upload_sum_completed_bytes`. -/
def sumCompletedBytes : Nat :=
  total Upload.completedBytes uploads

/-! ## Calls -/

/-- Where a call is, between two statements. -/
inductive Control
  /-- `startUpload` counts the completed files next. -/
  | counting (session : Str) (expectedSize : Nat)
  /-- It sums the completed bytes next. -/
  | summing (session : Str) (expectedSize : Nat)
  /-- It has passed both limits, and inserts the upload next. -/
  | admitted (session : Str) (expectedSize : Nat)
  /-- `recordUploadChunk` adds the bytes next. -/
  | chunk (upload : Nat) (bytes : Nat)
  /-- `finishUpload` completes the upload next. -/
  | finishing (upload : Nat)
  | ended

inductive Event
  /-- A check that reads no upload fails, or a statement throws. -/
  | refuse | countFiles | sumBytes | insert | addBytes | complete

variable (link : Link) (uploads : List Upload)

/-- The first half of `requireUploadQuota`. -/
def filesAllowed : Bool :=
  match link.maxUploadFiles with
  | none => true
  | some limit => decide (countCompletedFiles uploads < limit)

/-- The second half of `requireUploadQuota`. -/
def bytesAllowed (expectedSize : Nat) : Bool :=
  match link.maxUploadTotalBytes with
  | none => true
  | some limit => !(decide (limit < expectedSize) || decide (limit - expectedSize < sumCompletedBytes uploads))

/-- The upload that `startUpload` inserts. -/
def newUpload (session : Str) (expectedSize : Nat) : Upload :=
  { shareSessionId := session, expectedSizeBytes := expectedSize, receivedSizeBytes := 0, status := .pending,
    received_le := Nat.zero_le expectedSize }

/-- A statement on one row: it leaves the table as it is when it finds no row in its condition. -/
def updateUpload (index : Nat) (statement : Upload -> Option Upload) : List Upload :=
  match uploads[index]? with
  | none => uploads
  | some upload => uploads.set index ((statement upload).getD upload)

def callStep (control : Control) (event : Event) : Option (List Upload × Control) :=
  match control, event with
  | .ended, _ => none
  | _, .refuse => some (uploads, .ended)
  | .counting session expectedSize, .countFiles =>
    some (uploads, if filesAllowed link uploads then .summing session expectedSize else .ended)
  | .summing session expectedSize, .sumBytes =>
    some (uploads, if bytesAllowed link uploads expectedSize then .admitted session expectedSize else .ended)
  | .admitted session expectedSize, .insert =>
    -- The column is a signed 64-bit integer.
    if expectedSize < 2 ^ 63 then some (uploads ++ [newUpload session expectedSize], .ended)
    else some (uploads, .ended)
  | .chunk upload bytes, .addBytes =>
    some (updateUpload uploads upload fun row => row.addReceivedBytes bytes, .ended)
  | .finishing upload, .complete => some (updateUpload uploads upload fun row => row.close .complete, .ended)
  | _, _ => none

inductive Label
  | startUpload (session : Str) (expectedSize : Nat)
  | recordUploadChunk (session : Str) (upload : Nat) (bytes : Nat)
  | finishUpload (session : Str) (upload : Nat)
  | cancelUpload (session : Str) (upload : Nat)
  | failUpload (session : Str) (upload : Nat)
  /-- `sweepStaleUploads` fails one of the uploads it has listed. -/
  | sweepStaleUpload (upload : Nat)
  | call (index : Nat) (event : Event)

structure System where
  uploads : List Upload
  calls : List Control

/-- `requireUploadForPrincipal`. -/
def requireUploadForPrincipal (session : Str) (index : Nat) : Option Upload :=
  uploads[index]?.filter fun upload => upload.shareSessionId == session

def step (system : System) (label : Label) : Option System :=
  match label with
  | .startUpload session expectedSize =>
    some { system with calls := system.calls ++ [.counting session expectedSize] }
  | .recordUploadChunk session index bytes =>
    (requireUploadForPrincipal system.uploads session index).bind fun upload =>
      if bytes = 0 ∨ upload.isTerminal = true ∨ upload.exceedsExpectedSize bytes = true then none
      else some { system with calls := system.calls ++ [.chunk index bytes] }
  | .finishUpload session index =>
    (requireUploadForPrincipal system.uploads session index).bind fun upload =>
      if upload.isTerminal = true ∨ upload.receivedSizeBytes ≠ upload.expectedSizeBytes then none
      else some { system with calls := system.calls ++ [.finishing index] }
  | .cancelUpload session index =>
    (requireUploadForPrincipal system.uploads session index).map fun _ =>
      { system with uploads := updateUpload system.uploads index fun row => row.close .cancelled }
  | .failUpload session index =>
    (requireUploadForPrincipal system.uploads session index).map fun _ =>
      { system with uploads := updateUpload system.uploads index fun row => row.close .failed }
  | .sweepStaleUpload index =>
    some { system with uploads := updateUpload system.uploads index fun row => row.close .failed }
  | .call index event =>
    match system.calls[index]? with
    | none => none
    | some control =>
      (callStep link system.uploads control event).map fun moved =>
        { uploads := moved.1, calls := system.calls.set index moved.2 }

/-- A new link. -/
def fresh : System :=
  { uploads := [], calls := [] }

end UploadQuota
end Share
end Vaulthalla
