import Mathlib.Data.List.AList
import Vaulthalla.Foundation.ByteString
import Vaulthalla.Foundation.Pool
import Vaulthalla.Foundation.Transition

namespace Vaulthalla
namespace Share
namespace DownloadLimit

open Foundation
open Pool (total)

/-!
# Downloads through a share link

A link counts its downloads.  The HTTP handlers admit a body through
`recordShareAccess`: the first request of a session for a generation of an
entry opens a slot, counts the download in one statement that also checks the
limit, and settles the slot.  Requests of the same event type that come within
the audit window follow the decision of the slot.  The websocket handler sends
a file in chunks and counts the download after the last of them.

A slot is known by its place in the list of all slots ever opened, a transfer
by its place in the list of all transfers; the table `shareAccess` holds the
slot that a key finds.  The part of a request or of a chunk that comes before
these steps reads nothing of what is counted here and can only refuse.
-/

/-! ## Requests -/

inductive Capability
  | preview | download
deriving DecidableEq

def derivedKindCapability (kind : Str) : Option Capability :=
  if kind = str "poster-jpg" ∨ kind = str "thumbnail" ∨ kind = str "render" then some .preview
  else if kind = str "model-glb" ∨ kind = str "probe-json" ∨
      (str "transcode-").isPrefixOf kind = true ∨ (str "hls-").isPrefixOf kind = true then some .download
  else none

def kKinds : List Str :=
  [str "model-glb", str "poster-jpg", str "probe-json", str "transcode-h264-480", str "transcode-h264-720",
    str "transcode-h264-1080"]

def kindKnown (kind : Str) : Bool :=
  kKinds.contains kind

inductive EventType
  /-- `share.download.http` -/
  | download
  /-- `share.content.http` -/
  | content
  /-- `share.derived.http` -/
  | derived
  /-- `share.preview.http` -/
  | preview
deriving DecidableEq

/-- The handlers that admit a body. -/
inductive Handler
  | content (inlineDisposition : Bool)
  | archive
  | derived (kind : Str)
  | preview

namespace Handler

/-- A derived artifact has to be of a known kind. -/
def accepts : Handler -> Bool
  | .derived kind => (derivedKindCapability kind).isSome && kindKnown kind
  | _ => true

def eventType : Handler -> EventType
  | .content inlineDisposition => if inlineDisposition then .content else .download
  | .archive => .download
  | .derived _ => .derived
  | .preview => .preview

def countsAsDownload : Handler -> Bool
  | .content _ => true
  | .archive => true
  | .derived kind => derivedKindCapability kind == some .download
  | .preview => false

end Handler

/-- The key of a slot.  The generation of a directory is the text `dir`. -/
structure AccessKey where
  eventType : EventType
  shareSessionId : Str
  entryId : Nat
  generation : Str
deriving DecidableEq

def accessKey (handler : Handler) (session : Str) (entryId : Nat) (generation : Str) : AccessKey :=
  { eventType := handler.eventType, shareSessionId := session, entryId := entryId, generation := generation }

/-! ## Slots -/

/-- Where the request that opened a slot is. -/
inductive Decision
  | deciding | allowed
  /-- The refusal is known to the followers, and the slot is erased next. -/
  | refused | forgotten
deriving DecidableEq

structure Slot where
  key : AccessKey
  /-- When it was opened, in nanoseconds. -/
  opened : Nat
  /-- Whether the request that opened it counts as a download. -/
  countsAsDownload : Bool
  decision : Decision
  /-- A request that counts as a download has sent bytes on its decision. -/
  released : Bool

/-- Thirty minutes. -/
def kAuditWindow : Nat := 30 * 60 * 1000000000

/-! ## Websocket transfers -/

inductive Stage
  /-- In the table of transfers. -/
  | sending
  /-- The last chunk is taken, and counted next. -/
  | completing (bytes : Nat)
  /-- The last chunk is counted, and returned next. -/
  | counted (bytes : Nat)
  | ended
deriving DecidableEq

structure Transfer where
  (size bytesSent : Nat)
  stage : Stage
  /-- A chunk has been taken. -/
  begun : Bool
  /-- `incrementDownloadCount` has run for it. -/
  counted : Bool
  /-- Bytes have been returned to the client. -/
  released : Bool

def newTransfer (size : Nat) : Transfer :=
  { size := size, bytesSent := 0, stage := .sending, begun := false, counted := false, released := false }

def kMaxChunkSize : Nat := 256 * 1024

variable (transfer : Transfer)

/-- The conditions under which `takeChunk` returns. -/
def Transfer.offers (offset length : Nat) : Bool :=
  transfer.stage == .sending && decide (0 < length) && decide (length ≤ kMaxChunkSize) &&
    offset == transfer.bytesSent && decide (offset ≤ transfer.size)

/-- `takeChunk`.  A chunk that is not the last is returned to the client at once. -/
def Transfer.takeChunk (offset length : Nat) : Transfer :=
  let actualLength := min length (transfer.size - offset)
  let bytesSent := transfer.bytesSent + actualLength
  if bytesSent = transfer.size then
    { transfer with bytesSent := bytesSent, stage := .completing actualLength, begun := true }
  else { transfer with bytesSent := bytesSent, begun := true, released := true }

/-- `eraseTransfer`, or an exception after the transfer was erased. -/
def Transfer.drop : Transfer :=
  { transfer with stage := .ended }

/-! ## The system -/

/-- Where a request is, after its slot is known. -/
inductive Control
  /-- It waits for the decision of the slot. -/
  | waiting (handler : Handler) (slot : Nat)
  | admitted (handler : Handler) (slot : Nat)
  | ended

structure System where
  (now downloadCount : Nat)
  slots : List Slot
  shareAccess : AList (fun _ : AccessKey => Nat)
  requests : List Control
  transfers : List Transfer

inductive Label
  | elapse (nanoseconds : Nat)
  /-- A request finds or opens its slot. -/
  | request (handler : Handler) (session : Str) (entryId : Nat) (generation : Str)
  /-- The request that opened a slot decides it. -/
  | decide (slot : Nat)
  /-- The accounting of that request throws. -/
  | accountingFails (slot : Nat)
  /-- The slot of a refused download is erased. -/
  | forget (slot : Nat)
  /-- A request has the decision of its slot. -/
  | receive (request : Nat)
  /-- A request gives up waiting, or its connection is lost. -/
  | giveUp (request : Nat)
  /-- An admitted request sends a body of this length. -/
  | send (request : Nat) (length : Nat)
  | start (size : Nat)
  | chunk (transfer : Nat) (offset length : Nat)
  | increment (transfer : Nat)
  /-- The last chunk of a transfer is returned. -/
  | reply (transfer : Nat)
  /-- A transfer is cancelled, or one of its chunks fails. -/
  | drop (transfer : Nat)

/-- The slot that a key finds within the audit window. -/
def liveSlot (system : System) (key : AccessKey) : Option (Nat × Slot) :=
  (system.shareAccess.lookup key).bind fun index =>
    match system.slots[index]? with
    | none => none
    | some slot => if system.now - slot.opened < kAuditWindow then some (index, slot) else none

variable (maxDownloads : Option Nat)

/-- The condition of `share_link_consume_download`. -/
def mayConsume (downloadCount : Nat) : Bool :=
  maxDownloads.all fun limit => downloadCount < limit

/-- The slot that a request opens. -/
def newSlot (now : Nat) (handler : Handler) (key : AccessKey) : Slot :=
  { key := key, opened := now, countsAsDownload := handler.countsAsDownload, decision := .deciding, released := false }

/-- The first part of `recordShareAccess`, under the lock of the table. -/
def beginRequest (system : System) (handler : Handler) (key : AccessKey) : System :=
  match liveSlot system key with
  | some (index, _) => { system with requests := system.requests ++ [.waiting handler index] }
  | none =>
    { system with
      slots := system.slots ++ [newSlot system.now handler key]
      shareAccess := system.shareAccess.insert key system.slots.length
      requests := system.requests ++ [.waiting handler system.slots.length] }

/-- `consumeDownload`, if the request counts as a download, and the decision that follows. -/
def decideSlot (system : System) (index : Nat) (slot : Slot) : System :=
  if slot.countsAsDownload then
    if mayConsume maxDownloads system.downloadCount then
      { system with
        downloadCount := system.downloadCount + 1
        slots := system.slots.set index { slot with decision := .allowed } }
    else { system with slots := system.slots.set index { slot with decision := .refused } }
  else { system with slots := system.slots.set index { slot with decision := .allowed } }

/-- The follower of a settled slot. -/
def received (handler : Handler) (index : Nat) : Decision -> Option Control
  | .deciding => none
  | .allowed => some (.admitted handler index)
  | .refused => some .ended
  | .forgotten => some .ended

/-- The body of an admitted request. -/
def Slot.serve (slot : Slot) (handler : Handler) (length : Nat) : Slot :=
  { slot with released := slot.released || (handler.countsAsDownload && decide (0 < length)) }

def step (system : System) (label : Label) : Option System :=
  match label with
  | .elapse nanoseconds => some { system with now := system.now + nanoseconds }
  | .request handler session entryId generation =>
    if handler.accepts then
      some (beginRequest system handler (accessKey handler session entryId generation))
    else none
  | .decide index =>
    match system.slots[index]? with
    | none => none
    | some slot => if slot.decision = .deciding then some (decideSlot maxDownloads system index slot) else none
  | .accountingFails index =>
    match system.slots[index]? with
    | none => none
    | some slot =>
      if slot.decision = .deciding ∧ slot.countsAsDownload = true then
        some { system with slots := system.slots.set index { slot with decision := .refused } }
      else none
  | .forget index =>
    match system.slots[index]? with
    | none => none
    | some slot =>
      if slot.decision = .refused then
        -- The table may hold a later slot of the key by now; it is erased all the same.
        some { system with
          slots := system.slots.set index { slot with decision := .forgotten }
          shareAccess := system.shareAccess.erase slot.key }
      else none
  | .receive request =>
    match system.requests[request]? with
    | some (.waiting handler index) =>
      match system.slots[index]? with
      | none => none
      | some slot => (received handler index slot.decision).map fun control =>
        { system with requests := system.requests.set request control }
    | _ => none
  | .giveUp request =>
    if request < system.requests.length then some { system with requests := system.requests.set request .ended }
    else none
  | .send request length =>
    match system.requests[request]? with
    | some (.admitted handler index) =>
      match system.slots[index]? with
      | none => none
      | some slot => some { system with
          slots := system.slots.set index (slot.serve handler length)
          requests := system.requests.set request .ended }
    | _ => none
  | .start size => some { system with transfers := system.transfers ++ [newTransfer size] }
  | .chunk index offset length =>
    match system.transfers[index]? with
    | none => none
    | some transfer =>
      if transfer.offers offset length then
        some { system with transfers := system.transfers.set index (transfer.takeChunk offset length) }
      else none
  | .increment index =>
    match system.transfers[index]? with
    | none => none
    | some transfer =>
      match transfer.stage with
      | .completing bytes => some { system with
          downloadCount := system.downloadCount + 1
          transfers := system.transfers.set index { transfer with stage := .counted bytes, counted := true } }
      | _ => none
  | .reply index =>
    match system.transfers[index]? with
    | none => none
    | some transfer =>
      match transfer.stage with
      | .counted bytes => some { system with
          transfers := system.transfers.set index
            { transfer with stage := .ended, released := transfer.released || decide (0 < bytes) } }
      | _ => none
  | .drop index =>
    match system.transfers[index]? with
    | none => none
    | some transfer => some { system with transfers := system.transfers.set index transfer.drop }

/-- A new link. -/
def fresh : System :=
  { now := 0, downloadCount := 0, slots := [], shareAccess := ∅, requests := [], transfers := [] }

/-! ## Logical downloads -/

def Slot.releasedCount (slot : Slot) : Nat :=
  slot.released.toNat

def Transfer.releasedCount : Nat :=
  transfer.released.toNat

/-- The logical downloads for which bytes have been released: websocket
transfers, and slots with the requests that follow their decision. -/
def releasedDownloads (system : System) : Nat :=
  total Slot.releasedCount system.slots + total Transfer.releasedCount system.transfers

end DownloadLimit
end Share
end Vaulthalla
