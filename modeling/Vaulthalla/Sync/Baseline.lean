import Vaulthalla.Sync.File

namespace Vaulthalla
namespace Sync

open Foundation

/-!
# What both sides last agreed on

A baseline records a file as both sides had it after its last sync.  Each side
is compared with its own record: by content hash when both have one, the
remote side then by ETag, and otherwise by size.
-/

structure Baseline where
  fileId : Nat
  contentHash : Option Str
  sizeBytes : Nat
  (remoteContentHash remoteEtag : Option Str)
  remoteSizeBytes : Option Nat

/-- `kReplayMarker`, the local hash of a baseline whose publication is in progress. -/
def replayMarker : Str := str "vh-replay"

namespace Baseline

def agreed (localFile remote : File) : Baseline :=
  { fileId := localFile.id
    contentHash := localFile.contentHash
    sizeBytes := localFile.sizeBytes
    remoteContentHash := remote.contentHash
    remoteEtag := remote.remoteEtag
    remoteSizeBytes := some remote.sizeBytes }

def afterUpload (localFile : File) : Baseline :=
  { fileId := localFile.id
    contentHash := localFile.contentHash
    sizeBytes := localFile.sizeBytes
    remoteContentHash := localFile.contentHash
    remoteEtag := none
    remoteSizeBytes := some localFile.sizeBytes }

def publishing (baseline : Baseline) : Bool :=
  baseline.contentHash == some replayMarker

/-- `sameAs` compares every field. -/
def sameAs (first second : Baseline) : Bool :=
  first.fileId == second.fileId && first.contentHash == second.contentHash &&
    first.sizeBytes == second.sizeBytes && first.remoteContentHash == second.remoteContentHash &&
    first.remoteEtag == second.remoteEtag && first.remoteSizeBytes == second.remoteSizeBytes

end Baseline

def quoteByte : UInt8 := 34

/-- `baselineUnquoted`: an ETag without the quotes of an HTTP header. -/
def baselineUnquoted (etag : Str) : Str :=
  if etag.length ≥ 2 ∧ etag.head? = some quoteByte ∧ etag.getLast? = some quoteByte then
    etag.tail.dropLast
  else etag

def localChangedSince (localFile : File) (base : Baseline) : Bool :=
  match localFile.contentHash, base.contentHash with
  | some now, some before => now != before
  | _, _ => localFile.sizeBytes != base.sizeBytes

/-- The size a remote row is compared with when neither hash nor ETag decides. -/
def remoteSizeChanged (remote : File) (base : Baseline) : Bool :=
  match base.remoteSizeBytes with
  | some size => remote.sizeBytes != size
  | none => remote.sizeBytes != base.sizeBytes

def remoteChangedSince (remote : File) (base : Baseline) : Bool :=
  match remote.contentHash, base.remoteContentHash with
  | some now, some before => now != before
  | _, _ =>
    match remote.remoteEtag, base.remoteEtag with
    | some now, some before => baselineUnquoted now != baselineUnquoted before
    | _, _ => remoteSizeChanged remote base

inductive Divergence
  | inSync | localOnly | remoteOnly | both | unknown
deriving DecidableEq

def classify (localFile remote : File) (base : Option Baseline) : Divergence :=
  match base with
  | none => .unknown
  | some base =>
    let localMoved := localChangedSince localFile base
    let remoteMoved := remoteChangedSince remote base
    if localMoved && remoteMoved then .both
    else if localMoved then .localOnly
    else if remoteMoved then .remoteOnly
    else .inSync

variable {base : Baseline} {localFile remote : File}

/-- Right after an upload neither side reads as changed. -/
theorem afterUpload_unchanged {existing : Option RemoteObject} {encryptUpstream : Bool}
    {configuredStorageClass : Option Str} {file : File}
    (writes : RemoteObject.Writes existing (uploadedRow encryptUpstream configuredStorageClass file)) (now : Int) :
    localChangedSince file (Baseline.afterUpload file) = false ∧
      remoteChangedSince (readBack existing encryptUpstream configuredStorageClass now file)
        (Baseline.afterUpload file) = false := by
  cases hash : file.contentHash with
  | some value =>
    simp [localChangedSince, remoteChangedSince, Baseline.afterUpload, hash,
      readBack_contentHash writes now hash]
  | none =>
    simp [localChangedSince, remoteChangedSince, remoteSizeChanged, Baseline.afterUpload, hash,
      readBack_sizeBytes writes now]

end Sync
end Vaulthalla
