import Vaulthalla.Foundation.LexicalPath

namespace Vaulthalla
namespace Sync

open Foundation

/-!
# Files and remote index rows

The planner compares two rows for the same path: the local row of the
database and the row of the remote index, both as values of `File`.  A remote
row is written from a local one after an upload and is read back by a later
pass.  The two conversions do not keep the same fields; in particular the
index has no column for the mime type, so a file that went through the index
comes back without it.  A row that was there before is merged into the new one
by the statement that writes it.
-/

/-- `fs::model::File` with the fields that planning and the remote index use.
Sizes and ids are unsigned, times are seconds of `time_t`, and zero is the
unset time. -/
structure File where
  id : Nat
  path : Str
  sizeBytes : Nat
  updatedAt : Int
  encryptionIv : Str
  (mimeType contentHash remoteStorageClass remoteEtag remoteRestoreStatus : Option Str)
  (remoteVersionId remoteSequencer : Option Str)
  remoteEncrypted : Option Bool
  encryptedWithKeyVersion : Nat
deriving DecidableEq

namespace File

/-- `File::operator==`.  The id and the remote fields take no part. -/
def equal (first second : File) : Bool :=
  (first.sizeBytes == second.sizeBytes && samePath first.path second.path) &&
    first.encryptionIv == second.encryptionIv &&
    first.mimeType == second.mimeType &&
    first.contentHash == second.contentHash &&
    first.encryptedWithKeyVersion == second.encryptedWithKeyVersion

/-- `std::toupper` on a byte, in the C locale. -/
def upperByte (byte : UInt8) : UInt8 :=
  if 97 ≤ byte ∧ byte ≤ 122 then byte - 32 else byte

def requiresArchiveRestoreForBodyGet (file : File) : Bool :=
  match file.remoteStorageClass with
  | none => false
  | some storageClass =>
    let upper := storageClass.map upperByte
    if upper == str "GLACIER" || upper == str "DEEP_ARCHIVE" then true
    else if upper == str "INTELLIGENT_TIERING" then
      match file.remoteRestoreStatus with
      | none => false
      | some status => !status.isEmpty
    else false

end File

/-! ## Rows of the remote index -/

/-- `makeAbsolute` of the path helpers. -/
def makeAbsolute (path : Str) : Str :=
  if path.isEmpty then str "/"
  else if isAbsolute path then lexicallyNormal path
  else str "/" ++ lexicallyNormal path

/-- `normalize_object_key`: the normal form without leading separators. -/
def normalizeObjectKey (key : Str) : Str :=
  (lexicallyNormal key).dropWhile (fun byte => byte == slash)

structure RemoteObject where
  objectKey : Str
  sizeBytes : Nat
  lastModified : Int
  (etag storageClass restoreStatus versionId eventSequencer contentHash : Option Str)
  encrypted : Option Bool
  encryptionIv : Str
  encryptedWithKeyVersion : Nat
deriving DecidableEq

namespace RemoteObject

/-- The constructor from a file.  The cipher fields are kept only for an
object that is encrypted upstream, and the mime type not at all. -/
def ofFile (file : File) : RemoteObject :=
  { objectKey := normalizeObjectKey file.path
    sizeBytes := file.sizeBytes
    lastModified := file.updatedAt
    etag := file.remoteEtag
    storageClass := file.remoteStorageClass
    restoreStatus := file.remoteRestoreStatus
    versionId := file.remoteVersionId
    eventSequencer := file.remoteSequencer
    contentHash := file.contentHash
    encrypted := file.remoteEncrypted
    encryptionIv := if file.remoteEncrypted.getD false then file.encryptionIv else []
    encryptedWithKeyVersion :=
      if file.remoteEncrypted.getD false then file.encryptedWithKeyVersion else 0 }

/-- `RemoteObject::toFile`.  A row without a modification time takes the
current one, as the constructor of an entry from a key does. -/
def toFile (now : Int) (object : RemoteObject) : File :=
  { id := 0
    path := makeAbsolute object.objectKey
    sizeBytes := object.sizeBytes
    updatedAt := if object.lastModified = 0 then now else object.lastModified
    encryptionIv := object.encryptionIv
    mimeType := none
    contentHash := object.contentHash
    remoteStorageClass := object.storageClass
    remoteEtag := object.etag
    remoteRestoreStatus := object.restoreStatus
    remoteVersionId := object.versionId
    remoteSequencer := object.eventSequencer
    remoteEncrypted := object.encrypted
    encryptedWithKeyVersion := object.encryptedWithKeyVersion }

end RemoteObject

/-! ## Writing a row -/

namespace RemoteObject

/-- `LTRIM(sequencer, '0')`. -/
def trimZeros (sequencer : Str) : Str :=
  sequencer.dropWhile (fun byte => byte == 48)

def lowerByte (byte : UInt8) : UInt8 :=
  if 65 ≤ byte ∧ byte ≤ 90 then byte + 32 else byte

/-- The condition of the upsert: a row with an older event sequencer does not replace a newer one. -/
def supersedes (row existing : RemoteObject) : Bool :=
  match row.eventSequencer, existing.eventSequencer with
  | some candidate, some current =>
    let candidate := trimZeros candidate
    let current := trimZeros current
    candidate.length > current.length ||
      (candidate.length == current.length && decide (current.map lowerByte ≤ candidate.map lowerByte))
  | _, _ => true

def sameVersion (row existing : RemoteObject) : Bool :=
  row.etag == existing.etag && row.versionId == existing.versionId &&
    row.sizeBytes == existing.sizeBytes && row.lastModified == existing.lastModified

/-- The columns of a replaced row: what the new row leaves out is kept as long
as it describes the same version of the object. -/
def mergeOver (existing row : RemoteObject) : RemoteObject :=
  let same := row.sameVersion existing
  { row with
    eventSequencer := row.eventSequencer <|> existing.eventSequencer
    contentHash := row.contentHash <|> (if same then existing.contentHash else none)
    encrypted := row.encrypted <|> (if same then existing.encrypted else none)
    encryptionIv :=
      if row.encryptionIv ≠ [] then row.encryptionIv else if same then existing.encryptionIv else []
    encryptedWithKeyVersion :=
      if row.encryptedWithKeyVersion ≠ 0 then row.encryptedWithKeyVersion
      else if same then existing.encryptedWithKeyVersion else 0 }

/-- The row the index holds after an upsert. -/
def upsert (existing : Option RemoteObject) (row : RemoteObject) : RemoteObject :=
  match existing with
  | none => row
  | some existing => if row.supersedes existing then mergeOver existing row else existing

/-- The upsert writes, rather than keep a row with a newer sequencer. -/
def Writes (existing : Option RemoteObject) (row : RemoteObject) : Prop :=
  forall old, old ∈ existing -> row.supersedes old = true

variable {existing : Option RemoteObject} {row : RemoteObject}

theorem upsert_sizeBytes (writes : Writes existing row) : (upsert existing row).sizeBytes = row.sizeBytes := by
  cases existing with
  | none => rfl
  | some old => simp [upsert, writes old rfl, mergeOver]

theorem upsert_contentHash (writes : Writes existing row) {hash : Str} (hashed : row.contentHash = some hash) :
    (upsert existing row).contentHash = some hash := by
  cases existing with
  | none => exact hashed
  | some old => simp [upsert, writes old rfl, mergeOver, hashed]

end RemoteObject

section

variable (encryptUpstream : Bool) (configuredStorageClass : Option Str) (file : File)

/-- The copy of an uploaded file that `applyRemoteIndexMutation` indexes. -/
def indexedCopy : File :=
  if encryptUpstream then
    { file with remoteEncrypted := some true, remoteStorageClass := configuredStorageClass }
  else
    { file with remoteEncrypted := some false, encryptionIv := [], encryptedWithKeyVersion := 0,
                remoteStorageClass := configuredStorageClass }

def uploadedRow : RemoteObject :=
  RemoteObject.ofFile (indexedCopy encryptUpstream configuredStorageClass file)

end

/-- The remote side a later pass sees after an upload of the file, over the row that was there before. -/
def readBack (existing : Option RemoteObject) (encryptUpstream : Bool) (configuredStorageClass : Option Str)
    (now : Int) (file : File) : File :=
  (RemoteObject.upsert existing (uploadedRow encryptUpstream configuredStorageClass file)).toFile now

section ReadBack

variable {existing : Option RemoteObject} {encryptUpstream : Bool} {configuredStorageClass : Option Str}
variable {file : File}
variable (writes : RemoteObject.Writes existing (uploadedRow encryptUpstream configuredStorageClass file))
include writes

theorem readBack_sizeBytes (now : Int) :
    (readBack existing encryptUpstream configuredStorageClass now file).sizeBytes = file.sizeBytes := by
  have sameSize : (uploadedRow encryptUpstream configuredStorageClass file).sizeBytes = file.sizeBytes := by
    cases encryptUpstream <;> rfl
  exact (RemoteObject.upsert_sizeBytes writes).trans sameSize

theorem readBack_contentHash (now : Int) {hash : Str} (hashed : file.contentHash = some hash) :
    (readBack existing encryptUpstream configuredStorageClass now file).contentHash = some hash := by
  have sameHash : (uploadedRow encryptUpstream configuredStorageClass file).contentHash = some hash := by
    cases encryptUpstream <;> exact hashed
  exact RemoteObject.upsert_contentHash writes sameHash

end ReadBack

end Sync
end Vaulthalla
