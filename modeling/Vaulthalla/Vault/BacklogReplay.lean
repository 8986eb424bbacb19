import Mathlib.Data.List.Sort
import Vaulthalla.Foundation.ByteString

namespace Vaulthalla
namespace Vault
namespace Backlog

open Foundation List

/-!
# Replaying the pending versions of a key

Before the current content of a key is uploaded, the versions of it that were
captured while the provider could not be reached are sent, oldest first.  A
version is settled when it is marked sent or skipped, which only happens to a
row that is still pending; where the local copy is a cache, the body of a sent
version is released.

A version that the provider does not take is to stay pending, and with it all
later ones.  But an upload in parts that fails and is aborted returns as if it
had succeeded, without a version id: the row is marked skipped, and the later
versions are sent.

What happens is kept as a log, latest first.  A row is pending until the log
settles it.
-/

structure GenerationRow where
  id : Nat
  encryptionIv : Option Str
  keyVersion : Option Nat
  contentHash : Option Str
  /-- It has a blob and the name under which that is stored. -/
  stored : Bool
deriving DecidableEq

structure ObjectVersionRow where
  versionId : Str
  isDeleteMarker : Bool
  encryptionIv : Option Str
  keyVersion : Option Nat
  contentHash : Option Str
deriving DecidableEq

def heldBy (row : GenerationRow) (version : ObjectVersionRow) : Bool :=
  !version.isDeleteMarker &&
    ((row.encryptionIv.any (fun iv => iv ≠ []) && row.encryptionIv = version.encryptionIv &&
        row.keyVersion.isSome && row.keyVersion = version.keyVersion) ||
      (row.contentHash.isSome && row.contentHash = version.contentHash))

/-- How `uploadGeneration` ends. -/
inductive Upload
  | accepted (versionId : Option Str)
  /-- `ContentUnavailable` or `IntegrityError`: the body cannot be read. -/
  | unreadable
  /-- Any other exception: the provider did not take it. -/
  | failed
  /-- `uploadLargeObject` has aborted the upload after a part that failed, and returned. -/
  | aborted
deriving DecidableEq

inductive Event
  | put (id : Nat) (outcome : Upload)
  | sent (id : Nat) (versionId : Str)
  | skipped (id : Nat)
  | released (id : Nat)
deriving DecidableEq

def Event.putId : Event -> Option Nat
  | .put id _ => some id
  | _ => none

def Event.settledId : Event -> Option Nat
  | .sent id _ | .skipped id => some id
  | _ => none

/-- The identifiers that are put, latest first. -/
def putIds (log : List Event) : List Nat :=
  log.filterMap Event.putId

def settledIds (log : List Event) : List Nat :=
  log.filterMap Event.settledId

structure Provider where
  (keepsHistory smartCache : Bool)
  known : List ObjectVersionRow
  /-- The content on which both sides last agreed. -/
  agreedHash : Option Str
  upload : Nat -> Upload
  /-- The statement that records what has become of the row throws. -/
  throws : Nat -> Bool

section Replay

variable (provider : Provider)

section

variable (log : List Event) (id : Nat)

def pending : Bool :=
  id ∉ settledIds log

/-- `markSent` or `markSkipped` on a row, with what follows when it was pending.  The flag says that an exception ends
the replay. -/
def settle (events : List Event) : List Event × Bool :=
  if provider.throws id then (log, true)
  else if pending log id then (events ++ log, false)
  else (log, false)

def markSent (versionId : Str) : List Event × Bool :=
  settle provider log id (if provider.smartCache then [.released id, .sent id versionId] else [.sent id versionId])

def markSkipped : List Event × Bool :=
  settle provider log id [.skipped id]

end

def replayOne (log : List Event) (row : GenerationRow) : List Event × Bool :=
  match provider.known.find? (heldBy row) with
  | some version => markSent provider log row.id version.versionId
  | none =>
    if row.contentHash.isSome && row.contentHash = provider.agreedHash then markSkipped provider log row.id
    else if !row.stored then markSkipped provider log row.id
    else
      let log := .put row.id (provider.upload row.id) :: log
      match provider.upload row.id with
      | .unreadable => markSkipped provider log row.id
      | .failed => (log, true)
      -- the version id is that of the last PUT, which an aborted upload leaves empty
      | .accepted none | .aborted => markSkipped provider log row.id
      | .accepted (some versionId) =>
        if versionId = [] ∨ versionId = str "null" then markSkipped provider log row.id
        else markSent provider log row.id versionId

def replayRows (log : List Event) : List GenerationRow -> List Event × Bool
  | [] => (log, false)
  | row :: rest =>
    match replayOne provider log row with
    | (log, true) => (log, true)
    | (log, false) => replayRows log rest

def captureOrder (rows : List GenerationRow) : List GenerationRow :=
  rows.mergeSort fun first second => first.id ≤ second.id

/-- The log of a replay, and whether the next write of the key is held back. -/
def replay (rows : List GenerationRow) : List Event × Bool :=
  if provider.keepsHistory then replayRows provider [] (captureOrder rows)
  else if (captureOrder rows).head?.any fun row => provider.throws row.id then ([], true)
  else ((captureOrder rows).map fun row => .skipped row.id, false)

end Replay

/-! ## What is asked of a replay -/

section Log

section

variable (provider : Provider) (row : GenerationRow)

/-- The version is neither known to the provider nor agreed on, and has a body. -/
def sends : Bool :=
  (provider.known.find? (heldBy row)).isNone && !(row.contentHash.isSome && row.contentHash = provider.agreedHash) &&
    row.stored

/-- The replay ends with the row, which stays pending. -/
def stops : Bool :=
  provider.throws row.id || (sends provider row && provider.upload row.id = .failed)

/-- The upload is aborted, and the row is marked. -/
def slips : Bool :=
  !provider.throws row.id && sends provider row && provider.upload row.id = .aborted

/-- There is nothing to send, or the provider took the version and kept none. -/
def excused : Bool :=
  !provider.keepsHistory || !sends provider row || provider.upload row.id = .unreadable ||
    [none, some [], some (str "null")].any fun versionId => provider.upload row.id = .accepted versionId

end

variable (provider : Provider) (rows : List GenerationRow)

/-- What is marked sent was accepted or is known to be held, what is marked skipped is excused, and what is released was
marked sent before. -/
def Acknowledged : List Event -> Prop
  | [] => True
  | .sent id versionId :: past =>
    (.put id (.accepted (some versionId)) ∈ past ∨
      Exists fun row => row ∈ rows ∧ row.id = id ∧ Exists fun version => version ∈ provider.known ∧
        heldBy row version = true ∧ version.versionId = versionId) ∧ Acknowledged past
  | .skipped id :: past => (Exists fun row => row ∈ rows ∧ row.id = id ∧ excused provider row = true) ∧ Acknowledged past
  | .released id :: past => (Exists fun versionId => .sent id versionId ∈ past) ∧ Acknowledged past
  | .put _ _ :: past => Acknowledged past

/-- The rows before the one that stops the replay are settled and the others are left, of which only the first may be
put. -/
structure Stops (log : List Event) (ended : List Event × Bool) (done left : List GenerationRow) : Prop where
  blocked : ended.2 = true ↔ left ≠ []
  settled : forall id, id ∈ settledIds ended.1 ↔ id ∈ done.map GenerationRow.id ∨ id ∈ settledIds log
  stopped : forall row, row ∈ left.head? -> stops provider row = true
  unsent : forall row, row ∈ left.tail -> row.id ∉ putIds ended.1

structure Preserved (ended : List Event × Bool) : Prop where
  ordered : (putIds ended.1).Pairwise fun later earlier => earlier < later
  once : (settledIds ended.1).Nodup
  acknowledged : Acknowledged provider rows ended.1
  stops : Exists fun done => Exists fun left => captureOrder rows = done ++ left ∧ Stops provider [] ended done left

/-- Of the rows whose upload is aborted or that stop the replay, the first one stops it. -/
def Orderly (ahead : List GenerationRow) : Bool :=
  (ahead.find? fun row => stops provider row || slips provider row).all (stops provider)

theorem slips_of_stops {provider : Provider} {row : GenerationRow} (isStop : stops provider row = true) :
    slips provider row = false := by
  rcases (Bool.or_eq_true _ _).mp isStop with isThrown | isFailed
  · simp [slips, isThrown]
  · have failed : provider.upload row.id = .failed := by simpa using (Bool.and_eq_true_iff.mp isFailed).2
    simp [slips, failed]

theorem orderly_cons {provider : Provider} {row : GenerationRow} {rest : List GenerationRow}
    (goesOn : stops provider row = false) :
    Orderly provider (row :: rest) = true ↔ slips provider row = false ∧ Orderly provider rest = true := by
  unfold Orderly
  cases isSlip : slips provider row <;> simp [goesOn, isSlip]

/-! ## What one row does -/

/-- The row is settled or the replay ends, and it is put at most once, after the rows before it. -/
structure Replayed (log : List Event) (row : GenerationRow) (ended : List Event × Bool) : Prop where
  blocks : ended.2 = stops provider row
  settled : settledIds ended.1 = if ended.2 then settledIds log else row.id :: settledIds log
  puts : putIds ended.1 = putIds log ∨ putIds ended.1 = row.id :: putIds log
  acknowledged : Acknowledged provider rows ended.1 ↔ Acknowledged provider rows log ∧ slips provider row = false

variable {provider rows} {log past events : List Event} {row : GenerationRow}

section Settling

variable (isPending : row.id ∉ settledIds log)
  (isPast : past = log ∨ past = .put row.id (provider.upload row.id) :: log)

include isPending isPast

/-- The row is settled, with or without a put before. -/
theorem Replayed.settle (accepted : (sends provider row && provider.upload row.id = .failed) = false)
    (isSettled : settledIds events = [row.id]) (noPut : putIds events = [])
    (held : Acknowledged provider rows (events ++ past) ↔
      Acknowledged provider rows past ∧ (sends provider row && provider.upload row.id = .aborted) = false) :
    Replayed provider rows log row (settle provider past row.id events) := by
  have same : settledIds past = settledIds log := by rcases isPast with rfl | rfl <;> rfl
  have isFree : pending past row.id := decide_eq_true (same ▸ isPending)
  have pastPuts : putIds past = putIds log ∨ putIds past = row.id :: putIds log := by
    rcases isPast with rfl | rfl
    · exact .inl rfl
    · exact .inr rfl
  have pastAcknowledged : Acknowledged provider rows past ↔ Acknowledged provider rows log := by
    rcases isPast with rfl | rfl <;> rfl
  unfold Backlog.settle
  split
  case isTrue isThrown => exact ⟨by simp [stops, isThrown], same, pastPuts, by simp [slips, isThrown, pastAcknowledged]⟩
  case isFalse isRecorded =>
    have isRecorded : provider.throws row.id = false := by simpa using isRecorded
    refine ⟨by simp [stops, isRecorded, accepted], ?_, ?_, ?_⟩
    · change settledIds (events ++ past) = row.id :: settledIds log
      rw [← same, settledIds, filterMap_append]
      exact congrArg (· ++ settledIds past) isSettled
    · have samePut : putIds (events ++ past) = putIds past := by
        rw [putIds, filterMap_append]
        exact congrArg (· ++ putIds past) noPut
      exact samePut ▸ pastPuts
    · rw [held, pastAcknowledged, slips, isRecorded]
      simp

theorem Replayed.markSkipped (accepted : (sends provider row && provider.upload row.id = .failed) = false)
    (unique : forall other, other ∈ rows -> other.id = row.id -> other = row) (inside : row ∈ rows)
    (isExcused : excused provider row = !(sends provider row && provider.upload row.id = .aborted)) :
    Replayed provider rows log row (markSkipped provider past row.id) := by
  refine Replayed.settle isPending isPast accepted rfl rfl ?_
  change (Exists fun other => other ∈ rows ∧ other.id = row.id ∧ excused provider other = true) ∧ _ ↔ _
  have same : (Exists fun other => other ∈ rows ∧ other.id = row.id ∧ excused provider other = true) ↔
      excused provider row = true := by
    constructor
    · rintro ⟨other, isRow, sameId, excuse⟩
      exact unique other isRow sameId ▸ excuse
    · exact fun excuse => ⟨row, inside, rfl, excuse⟩
  rw [same, isExcused, Bool.not_eq_true', and_comm]
  rfl

theorem Replayed.markSent {versionId : Str} (accepted : (sends provider row && provider.upload row.id = .failed) = false)
    (whole : (sends provider row && provider.upload row.id = .aborted) = false)
    (held : .put row.id (.accepted (some versionId)) ∈ past ∨ Exists fun other => other ∈ rows ∧ other.id = row.id ∧
      Exists fun version => version ∈ provider.known ∧ heldBy other version = true ∧ version.versionId = versionId) :
    Replayed provider rows log row (markSent provider past row.id versionId) := by
  unfold Backlog.markSent
  split
  · refine .settle isPending isPast accepted rfl rfl ?_
    rw [whole, and_iff_left rfl]
    exact ⟨fun all => all.2.2, fun earlier => ⟨⟨versionId, mem_cons_self⟩, held, earlier⟩⟩
  · refine .settle isPending isPast accepted rfl rfl ?_
    rw [whole, and_iff_left rfl]
    exact ⟨fun all => all.2, fun earlier => ⟨held, earlier⟩⟩

end Settling

theorem replayed_replayOne (keeps : provider.keepsHistory = true) (inside : row ∈ rows)
    (unique : forall other, other ∈ rows -> other.id = row.id -> other = row) (isPending : row.id ∉ settledIds log) :
    Replayed provider rows log row (replayOne provider log row) := by
  unfold replayOne
  split
  case h_1 version found =>
    refine .markSent isPending (.inl rfl) (by simp [sends, found]) (by simp [sends, found])
      (.inr ⟨row, inside, rfl, version, ?_, ?_, rfl⟩)
    · exact mem_of_find?_eq_some found
    · exact find?_some found
  case h_2 unknown =>
    split
    case isTrue agreed =>
      have held : sends provider row = false := by simp only [sends, agreed]; simp
      exact .markSkipped isPending (.inl rfl) (by simp [held]) unique inside (by simp [excused, held])
    case isFalse disagreed =>
      split
      case isTrue noBody =>
        have held : sends provider row = false := by simpa [sends] using fun _ _ => noBody
        exact .markSkipped isPending (.inl rfl) (by simp [held]) unique inside (by simp [excused, held])
      case isFalse hasBody =>
        have isSent : sends provider row = true := by
          simp only [sends, unknown, Option.isNone_none, Bool.true_and, Bool.and_eq_true]
          exact ⟨by rw [Bool.eq_false_of_not_eq_true disagreed]; rfl, by simpa using hasBody⟩
        have skipped (taken : provider.upload row.id ≠ .failed)
            (isExcused : excused provider row = !decide (provider.upload row.id = .aborted)) :
            Replayed provider rows log row
              (markSkipped provider (.put row.id (provider.upload row.id) :: log) row.id) :=
          .markSkipped isPending (.inr rfl) (by simp [taken]) unique inside (by simpa [isSent] using isExcused)
        dsimp only
        split
        case h_1 isOutcome | h_3 isOutcome => exact skipped (by simp [isOutcome]) (by simp [excused, isOutcome])
        case h_2 isOutcome =>
          exact ⟨by simp [stops, isSent, isOutcome], rfl, .inr rfl, by simp [slips, isOutcome]; rfl⟩
        case h_4 isOutcome => exact skipped (by simp [isOutcome]) (by simp [excused, isOutcome, keeps, isSent])
        case h_5 versionId isOutcome =>
          split
          case isTrue unversioned =>
            exact skipped (by simp [isOutcome]) (by rcases unversioned with rfl | rfl <;> simp [excused, isOutcome])
          case isFalse =>
            refine .markSent isPending (.inr rfl) (by simp [isOutcome]) (by simp [isOutcome]) (.inl ?_)
            rw [isOutcome]
            exact mem_cons_self

/-! ## The replay -/

/-- Beyond the order of the puts, the rows that are settled and the one that stops the replay: the log stays
acknowledged as long as the rows ahead are orderly. -/
structure Ran (provider : Provider) (rows : List GenerationRow) (log : List Event) (ahead : List GenerationRow)
    (ended : List Event × Bool) : Prop where
  ordered : (putIds ended.1).Pairwise fun later earlier => earlier < later
  once : (settledIds ended.1).Nodup
  acknowledged : Acknowledged provider rows ended.1 ↔ Acknowledged provider rows log ∧ Orderly provider ahead = true
  stops : Exists fun done => Exists fun left => ahead = done ++ left ∧ Stops provider log ended done left

theorem ran_replayRows (keeps : provider.keepsHistory = true) (distinct : (rows.map GenerationRow.id).Nodup)
    (ahead : List GenerationRow) (inside : forall row, row ∈ ahead -> row ∈ rows)
    (ascending : ahead.Pairwise fun first second => first.id < second.id)
    (unsettled : forall row, row ∈ ahead -> row.id ∉ settledIds log)
    (later : forall row, row ∈ ahead -> forall other, other ∈ putIds log -> other < row.id)
    (ordered : (putIds log).Pairwise fun later earlier => earlier < later) (once : (settledIds log).Nodup) :
    Ran provider rows log ahead (replayRows provider log ahead) := by
  induction ahead generalizing log with
  | nil => exact ⟨ordered, once, by simp [replayRows, Orderly], [], [], rfl, by simp [replayRows], by simp [replayRows],
      nofun, nofun⟩
  | cons row rest ih =>
    rcases pairwise_cons.mp ascending with ⟨isFirst, restAscending⟩
    have isRow := inside row mem_cons_self
    rcases replayed_replayOne keeps isRow
      (fun other isOther sameId => inj_on_of_nodup_map distinct isOther isRow sameId) (unsettled row mem_cons_self) with
      ⟨blocks, settled, puts, acknowledged⟩
    have oneOrdered : (putIds (replayOne provider log row).1).Pairwise fun later earlier => earlier < later := by
      rcases puts with same | more
      · exact same ▸ ordered
      · exact more ▸ pairwise_cons.mpr ⟨later row mem_cons_self, ordered⟩
    have restLater second (isRest : second ∈ rest) other
        (isPut : other ∈ putIds (replayOne provider log row).1) : other < second.id := by
      have isOld := later second (mem_cons_of_mem row isRest) other
      rcases puts with same | more
      · exact isOld (same ▸ isPut)
      · rcases mem_cons.mp (more ▸ isPut) with rfl | isOlder
        · exact isFirst second isRest
        · exact isOld isOlder
    unfold replayRows
    split
    case h_1 after isOne =>
      rw [isOne] at blocks settled oneOrdered restLater acknowledged
      refine ⟨oneOrdered, settled ▸ once, ?_, [], row :: rest, rfl, by simp, by simp [settled], ?_,
        fun second isRest isPut => ?_⟩
      · rw [acknowledged]
        simp [Orderly, ← blocks, slips_of_stops blocks.symm]
      · rintro _ ⟨⟩
        exact blocks.symm
      · exact Nat.lt_irrefl second.id (restLater second isRest second.id isPut)
    case h_2 after isOne =>
      rw [isOne] at blocks settled oneOrdered restLater acknowledged
      have settled : settledIds after = row.id :: settledIds log := settled
      have restUnsettled second (isRest : second ∈ rest) : second.id ∉ settledIds after := by
        rw [settled]
        simp [Nat.ne_of_gt (isFirst second isRest), unsettled second (mem_cons_of_mem row isRest)]
      rcases ih (fun second isRest => inside second (mem_cons_of_mem row isRest)) restAscending restUnsettled restLater
        oneOrdered (settled ▸ nodup_cons.mpr ⟨unsettled row mem_cons_self, once⟩) with
        ⟨restOrdered, restOnce, restAcknowledged, done, left, rfl, stops⟩
      refine ⟨restOrdered, restOnce, ?_, row :: done, left, rfl, stops.blocked, fun id => ?_, stops.stopped, stops.unsent⟩
      · rw [restAcknowledged, acknowledged, and_assoc, orderly_cons blocks.symm]
      · rw [stops.settled id, settled]
        simp [or_left_comm, or_assoc]

theorem captureOrder_ascending (distinct : (rows.map GenerationRow.id).Nodup) :
    (captureOrder rows).Pairwise fun first second => first.id < second.id := by
  have sorted : (captureOrder rows).Pairwise fun first second => decide (first.id ≤ second.id) :=
    pairwise_mergeSort (by simp only [decide_eq_true_eq]; omega)
      (by simp only [Bool.or_eq_true, decide_eq_true_eq]; omega) rows
  have apart : ((captureOrder rows).map GenerationRow.id).Nodup :=
    ((mergeSort_perm rows _).map GenerationRow.id).nodup_iff.mpr distinct
  refine (sorted.and (pairwise_map.mp apart)).imp fun both => ?_
  exact Nat.lt_of_le_of_ne (of_decide_eq_true both.1) both.2

theorem settledIds_skipped (skipped : List GenerationRow) :
    settledIds (skipped.map fun row => .skipped row.id) = skipped.map GenerationRow.id := by
  simp [settledIds, filterMap_map, Function.comp_def, Event.settledId]

theorem acknowledged_skipped (forgets : provider.keepsHistory = false) (skipped : List GenerationRow)
    (inside : forall row, row ∈ skipped -> row ∈ rows) :
    Acknowledged provider rows (skipped.map fun row => .skipped row.id) := by
  induction skipped with
  | nil => trivial
  | cons row rest ih =>
    exact ⟨⟨row, inside row mem_cons_self, rfl, by simp [excused, forgets]⟩,
      ih fun second isRest => inside second (mem_cons_of_mem row isRest)⟩

end Log

/-- The first version is accepted, the second one meets `second`, and the third is aborted. -/
def outage (second : Upload) : Provider :=
  { keepsHistory := true, smartCache := true, known := [], agreedHash := none
    upload := fun id => if id = 1 then .accepted (some (str "v1")) else if id = 2 then second else .aborted
    throws := fun _ => false }

def captured (ids : List Nat) : List GenerationRow :=
  ids.map fun id => ⟨id, none, none, none, true⟩

theorem captureOrder_captured {ids : List Nat} (ascending : ids.Pairwise (· ≤ ·)) :
    captureOrder (captured ids) = captured ids := by
  refine mergeSort_of_pairwise (pairwise_map.mpr (ascending.imp fun before => ?_))
  exact decide_eq_true before

end Backlog
end Vault
end Vaulthalla
