import Mathlib.Data.List.Sort
import Vaulthalla.Foundation.Outcome
import Vaulthalla.Vault.KeyAttestation

namespace Vaulthalla
namespace Vault
namespace ExportDocument

open Foundation Outcome KeyAttestation

/-!
# Export documents

An import reads the keys of one vault from a JSON document: one entry, or an
array of the entries of all vaults.  An entry has its current key and may have
historical ones, each with an optional key check and an optional attestation.
A malformed attestation is kept as a problem of its candidate, anything else
that is malformed refuses the document.

The versions of the candidates are positive, fit the 32 bits of the source and
occur once each, and an attestation names a signing key within its range.
-/

inductive Json
  | null
  | bool (value : Bool)
  | unsigned (value : Nat)
  /-- A negative or fractional number -/
  | number
  | string (text : Str)
  | array (items : List Json)
  | object (fields : List (Str × Json))

namespace Json

def isObject : Json -> Bool
  | .object _ => true
  | _ => false

/-- `contains` and `at` -/
def field (name : String) : Json -> Option Json
  | .object fields => fields.lookup (str name)
  | _ => none

def unsigned? : Json -> Option Nat
  | .unsigned value => some value
  | _ => none

def string? : Json -> Option Str
  | .string text => some text
  | _ => none

end Json

/-- The refusals of an import, with their texts. -/
inductive Failure
  | invalid (text : String)
  | conflict (text : String)
  | notFound (text : String)
  | needsConfirmation (text : String)

structure Candidate where
  version : Nat
  key : Str
  backupCheck : Option Str
  attestation : Option Attestation
  /-- The attestation is present but malformed. -/
  attestationProblem : Option String
deriving DecidableEq

def kKeySize : Nat := 32
def kUInt32Max : Nat := 4294967295

section Reading

variable (decode : Str -> Option Str)

def decodeKey (value : Json) : Option Str :=
  value.string?.bind decode

def versionOf (value : Json) (what : String) : Except Failure Nat :=
  match value with
  | .unsigned version =>
    if version = 0 ∨ kUInt32Max < version then .error (.invalid (what ++ " must be a positive integer"))
    else .ok (version % 2 ^ 32)
  | _ => .error (.invalid (what ++ " must be a positive integer"))

/-- The attestation of a candidate, or what is wrong with it. -/
def parseAttestation (field : Option Json) : Option Attestation × Option String :=
  match field with
  | none | some .null => (none, none)
  | some value =>
    match value.isObject, (value.field "key_id").bind Json.unsigned?, value.field "signature" with
    | true, some keyId, some signature =>
      -- the range is checked before the id is narrowed
      if keyId < kMinKeyId ∨ kMaxKeyId < keyId then
        (none, some ("the backup's attestation is malformed (key_id " ++ toString keyId ++
          " is not a signing key id)"))
      else
        match decodeKey decode signature with
        | none => (none, some "the backup's attestation signature is not 64 bytes of base64")
        | some bytes =>
          if bytes.length = kSignatureSize then
            (some { keyId := keyId % 2 ^ 32, signature := bytes }, none)
          else (none, some "the backup's attestation signature is not 64 bytes of base64")
    | _, _, _ => (none, some "the backup's attestation is malformed")

def fieldIn (entry : Json) (name : String) : Option Json :=
  match entry.field name with
  | some value => some value
  | none => (entry.field "key_info").bind fun info => if info.isObject then info.field name else none

/-- The step of `candidatesFrom` for one key of the entry. -/
def addCandidate (candidates : List Candidate) (keyField : Json) (version : Nat) (check attestation : Option Json) :
    Except Failure (List Candidate) :=
  match decodeKey decode keyField with
  | none => .error (.invalid ("key version " ++ toString version ++ " is not a base64 32-byte key"))
  | some key =>
    if key.length ≠ kKeySize then
      .error (.invalid ("key version " ++ toString version ++ " is not a base64 32-byte key"))
    else
      match candidates.find? fun candidate => candidate.version == version with
      | some candidate =>
        if candidate.key ≠ key then
          .error (.invalid ("the export holds two different keys for version " ++ toString version))
        else .ok candidates
      | none =>
        let parsed := parseAttestation decode attestation
        .ok (candidates ++
          [{ version := version
             key := key
             backupCheck := check.bind Json.string?
             attestation := parsed.1
             attestationProblem := parsed.2 }])

def isEntryOf (vaultId : Nat) (entry : Json) : Bool :=
  entry.isObject && (entry.field "vault_id").bind Json.unsigned? == some vaultId

def noEntry (vaultId : Nat) : Failure :=
  .invalid ("the export has no entry for vault " ++ toString vaultId ++
    " (keys are imported into the vault they were exported from)")

def entryOf (keys : Json) (vaultId : Nat) : Except Failure Json :=
  match keys with
  | .array entries =>
    match entries.filter (isEntryOf vaultId) with
    | [] => .error (noEntry vaultId)
    | [entry] => .ok entry
    | _ => .error (.invalid ("the export lists vault " ++ toString vaultId ++ " twice"))
  | other => if isEntryOf vaultId other then .ok other else .error (noEntry vaultId)

def addHistorical (candidates : List Candidate) (entry : Json) : Except Failure (List Candidate) :=
  match entry.field "key", entry.field "key_version" with
  | some key, some version => do
      let number ← versionOf version "historical_keys[].key_version"
      addCandidate decode candidates key number (entry.field "key_check") (entry.field "attestation")
  | _, _ => .error (.invalid "every historical_keys entry needs key and key_version")

def addAllHistorical (candidates : List Candidate) : List Json -> Except Failure (List Candidate)
  | [] => .ok candidates
  | entry :: rest => do
      let added ← addHistorical decode candidates entry
      addAllHistorical added rest

/-- The current key of an entry and its version. -/
def currentOf (entry : Json) : Except Failure (Json × Json) :=
  match entry.field "key", (entry.field "key_info").bind fun info => info.field "key_version" with
  | some key, some version => .ok (key, version)
  | _, _ => .error (.invalid "the export entry needs key and key_info.key_version")

def historicalOf (entry : Json) : Except Failure (List Json) :=
  match entry.field "historical_keys" with
  | none => .ok []
  | some (.array entries) => .ok entries
  | some _ => .error (.invalid "historical_keys must be an array")

def candidatesFrom (keys : Json) (vaultId : Nat) : Except Failure (List Candidate) := do
  let entry ← entryOf keys vaultId
  let current ← currentOf entry
  let version ← versionOf current.2 "key_info.key_version"
  let first ← addCandidate decode [] current.1 version (fieldIn entry "key_check") (fieldIn entry "attestation")
  let historical ← historicalOf entry
  let all ← addAllHistorical decode first historical
  return all.insertionSort fun before after => before.version ≤ after.version

end Reading

/-! ## What a document yields -/

structure Candidate.WellFormed (candidate : Candidate) : Prop where
  positive : 0 < candidate.version
  bounded : candidate.version ≤ kUInt32Max
  key : candidate.key.length = kKeySize
  attestation : forall attestation, candidate.attestation = some attestation ->
    kMinKeyId ≤ attestation.keyId ∧ attestation.keyId ≤ kMaxKeyId ∧ attestation.signature.length = kSignatureSize

/-- What the candidates of a document have in common. -/
structure WellFormed (candidates : List Candidate) : Prop where
  each : forall candidate, candidate ∈ candidates -> candidate.WellFormed
  versions : (candidates.map Candidate.version).Nodup

section Results

variable {decode : Str -> Option Str} {candidates result : List Candidate} {version : Nat}

theorem versionOf_ok {value : Json} {what : String} (isVersion : versionOf value what = .ok version) :
    0 < version ∧ version ≤ kUInt32Max := by
  unfold versionOf at isVersion
  split at isVersion
  case h_1 number =>
    split at isVersion
    · cases isVersion
    case isFalse isBounded =>
      cases isVersion
      simp only [kUInt32Max, not_or, Nat.not_lt] at isBounded ⊢
      omega
  case h_2 => cases isVersion

theorem parseAttestation_some {field : Option Json} {attestation : Attestation}
    (parsed : (parseAttestation decode field).1 = some attestation) :
    kMinKeyId ≤ attestation.keyId ∧ attestation.keyId ≤ kMaxKeyId ∧ attestation.signature.length = kSignatureSize := by
  unfold parseAttestation at parsed
  split at parsed
  · cases parsed
  · cases parsed
  split at parsed
  case h_1 keyId signature _ _ _ =>
    split at parsed
    · cases parsed
    case isFalse isBounded =>
      split at parsed
      · cases parsed
      case h_2 bytes _ =>
        split at parsed
        case isTrue isLong =>
          cases parsed
          simp only [kMinKeyId, kMaxKeyId, not_or, Nat.not_lt] at isBounded ⊢
          have isNarrow : keyId % 2 ^ 32 = keyId := Nat.mod_eq_of_lt (by omega)
          rw [isNarrow]
          exact ⟨isBounded.1, isBounded.2, isLong⟩
        case isFalse => cases parsed
  case h_2 => cases parsed

theorem WellFormed.addCandidate (wellFormed : WellFormed candidates) {keyField : Json}
    {check attestation : Option Json} (isBounded : 0 < version ∧ version ≤ kUInt32Max)
    (added : ExportDocument.addCandidate decode candidates keyField version check attestation = .ok result) :
    WellFormed result := by
  unfold ExportDocument.addCandidate at added
  split at added
  · cases added
  split at added
  · cases added
  case isFalse isLong =>
    split at added
    · split at added
      · cases added
      cases added
      exact wellFormed
    case h_2 isNew =>
      cases added
      refine ⟨?_, ?_⟩
      · intro candidate inside
        rcases List.mem_append.mp inside with old | new
        · exact wellFormed.each candidate old
        · rw [List.mem_singleton.mp new]
          exact ⟨isBounded.1, isBounded.2, not_not.mp isLong, fun attestation isParsed => parseAttestation_some isParsed⟩
      · rw [List.map_append, List.map_cons, List.map_nil, List.nodup_append]
        refine ⟨wellFormed.versions, List.nodup_singleton _, ?_⟩
        intro other isOther last isLast same
        rw [List.mem_singleton.mp isLast] at same
        rcases List.mem_map.mp isOther with ⟨candidate, isCandidate, rfl⟩
        have isFree := List.find?_eq_none.mp isNew candidate isCandidate
        exact isFree (by simpa using same)

theorem WellFormed.addHistorical (wellFormed : WellFormed candidates) {entry : Json}
    (added : ExportDocument.addHistorical decode candidates entry = .ok result) : WellFormed result := by
  unfold ExportDocument.addHistorical at added
  split at added
  · rcases bind_eq_ok.mp added with ⟨version, isVersion, isAdded⟩
    exact wellFormed.addCandidate (versionOf_ok isVersion) isAdded
  · cases added

theorem WellFormed.addAllHistorical {entries : List Json} (wellFormed : WellFormed candidates)
    (added : ExportDocument.addAllHistorical decode candidates entries = .ok result) : WellFormed result := by
  induction entries generalizing candidates with
  | nil =>
    cases added
    exact wellFormed
  | cons entry rest ih =>
    rcases bind_eq_ok.mp added with ⟨next, first, later⟩
    exact ih (wellFormed.addHistorical first) later

theorem wellFormed_candidatesFrom {keys : Json} {vaultId : Nat}
    (isRead : candidatesFrom decode keys vaultId = .ok candidates) : WellFormed candidates := by
  rcases bind_eq_ok.mp isRead with ⟨entry, _, isRead⟩
  rcases bind_eq_ok.mp isRead with ⟨current, _, isRead⟩
  rcases bind_eq_ok.mp isRead with ⟨version, isVersion, isRead⟩
  rcases bind_eq_ok.mp isRead with ⟨first, isFirst, isRead⟩
  rcases bind_eq_ok.mp isRead with ⟨historical, _, isRead⟩
  rcases bind_eq_ok.mp isRead with ⟨all, isAll, isSorted⟩
  have none : WellFormed [] := ⟨nofun, List.nodup_nil⟩
  have wellFormed : WellFormed all := (none.addCandidate (versionOf_ok isVersion) isFirst).addAllHistorical isAll
  cases isSorted
  have isPerm := List.perm_insertionSort (fun before after : Candidate => before.version ≤ after.version) all
  exact ⟨fun candidate inside => wellFormed.each candidate (isPerm.mem_iff.mp inside),
    (isPerm.map Candidate.version).nodup_iff.mpr wellFormed.versions⟩

end Results

end ExportDocument
end Vault
end Vaulthalla
