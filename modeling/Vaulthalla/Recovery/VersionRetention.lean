import Mathlib.Data.List.Dedup
import Mathlib.Data.List.Sort
import Vaulthalla.Foundation.ByteString
import Vaulthalla.Foundation.Pool
import Vaulthalla.Foundation.Transition

namespace Vaulthalla
namespace Recovery
namespace Versions

open Foundation Transition List

/-!
# Retention and numbers of versions

Retention selects the versions that a rule no longer keeps and, for a quota,
further ones until the blobs of the rest fit.  A new generation of a file gets
the number after the highest of the rows that are left, which may have been
given before.
-/

inductive UpstreamState
  | none | pending | sent | skipped
deriving DecidableEq

/-- The live file, or the path of one that is gone. -/
inductive FileKey
  | file (id : Nat)
  | path (path : Str)
deriving DecidableEq

inductive Origin
  | snapshot | version
deriving DecidableEq

/-- A row of `file_versions`. -/
structure GenerationRow where
  id : Nat
  key : FileKey
  versionNumber : Nat
  (snapshotId blobId : Option Nat)
  createdAt : Int
  origin : Origin
  upstreamState : UpstreamState
deriving DecidableEq

/-- A rule of a vault; a limit that is absent does not apply. -/
structure RetentionRule where
  (keepLast maxAgeDays quotaBytes : Option Nat)

/-- A version with its place among those of its file, newest first. -/
structure Candidate where
  row : GenerationRow
  rank : Nat
deriving DecidableEq

def Candidate.isPending (candidate : Candidate) : Bool :=
  candidate.row.upstreamState = .pending && candidate.row.snapshotId.isNone

/-- A version of a snapshot is never pruned, and one that awaits its upload only when the
quota leaves no other choice. -/
def Candidate.prunable (candidate : Candidate) : Bool :=
  candidate.row.upstreamState ≠ .pending && candidate.row.snapshotId.isNone

/-- The version is past `keep_last` or older than `max_age_days`. -/
def RetentionRule.exceeded (rule : RetentionRule) (now : Int) (candidate : Candidate) : Bool :=
  rule.keepLast.any (fun kept => kept < candidate.rank) ||
    rule.maxAgeDays.any fun days => candidate.row.createdAt < now - days * 86400

/-! ## The selection -/

/-- The candidates, oldest first, and the bytes of the blobs. -/
structure Candidates where
  rows : List Candidate
  cipherBytes : Nat -> Nat

/-- The candidates selected so far, how many of them refer to each blob, and the bytes of the blobs to which no other
candidate refers. -/
structure Selection where
  selected : List Candidate
  selectedRefs : Nat -> Nat
  freed : Nat

/-- Versions share blobs, and a blob is freed only with the last candidate that refers to it. -/
def refsTo (candidates : List Candidate) (blob : Nat) : Nat :=
  candidates.countP (·.row.blobId = some blob)

/-- One turn of a loop that breaks as soon as its condition fails. -/
def stepWhile {S A : Type} (goes : S -> Bool) (step : S -> A -> S) (state : S) (item : A) : S :=
  if goes state then step state item else state

namespace Candidates

variable (query : Candidates)

/-- The bytes of the distinct blobs of some candidates. -/
def bytesOf (candidates : List Candidate) : Nat :=
  Pool.total query.cipherBytes (candidates.filterMap (·.row.blobId)).dedup

def select (selection : Selection) (candidate : Candidate) : Selection :=
  match candidate.row.blobId with
  | none => { selection with selected := candidate :: selection.selected }
  | some blob =>
    let refs := selection.selectedRefs blob + 1
    { selected := candidate :: selection.selected
      selectedRefs := Function.update selection.selectedRefs blob refs
      freed := selection.freed + if refs = refsTo query.rows blob then query.cipherBytes blob else 0 }

/-- The blobs that are left are still larger than the quota. -/
def isOver (quota : Nat) (selection : Selection) : Bool :=
  quota < query.bytesOf query.rows - selection.freed

/-- A loop over the candidates.  Each is seen once, so it is free when it is seen if it was before the loop. -/
def selectWhileOver (quota : Nat) (eligible : Candidate -> Bool) (selection : Selection) : Selection :=
  (query.rows.filter fun candidate => eligible candidate && candidate ∉ selection.selected).foldl
    (stepWhile (query.isOver quota) query.select) selection

/-- The versions that the rule no longer keeps, whatever the quota. -/
def exceeding (rule : RetentionRule) (now : Int) : List Candidate :=
  query.rows.filter fun candidate => candidate.prunable && rule.exceeded now candidate

/-- For a quota, versions that exceed the rule come first, then the oldest prunable ones,
and pending ones last. -/
def listPrunable (rule : RetentionRule) (now : Int) : List Candidate :=
  match rule.quotaBytes with
  | none => query.exceeding rule now
  | some quota =>
    let selection := (query.exceeding rule now).foldl query.select ⟨[], fun _ => 0, 0⟩
    let selection := query.selectWhileOver quota Candidate.prunable selection
    let selection := query.selectWhileOver quota Candidate.isPending selection
    query.rows.filter (· ∈ selection.selected)

end Candidates

/-! ## The rows of a vault -/

/-- `ORDER BY created_at, id` -/
abbrev GenerationRow.isBefore (first second : GenerationRow) : Prop :=
  first.createdAt < second.createdAt ∨ first.createdAt = second.createdAt ∧ first.id ≤ second.id

/-- The place of a version among those of its file, newest first. -/
def rankIn (versions : List GenerationRow) (row : GenerationRow) : Nat :=
  versions.countP fun other => other.key = row.key ∧ (row.versionNumber < other.versionNumber ∨
    row.versionNumber = other.versionNumber ∧ row.id ≤ other.id)

/-- Only versions are candidates.  A snapshot's generations are neither ranked nor counted. -/
def retentionCandidates (rows : List GenerationRow) : List Candidate :=
  let versions := rows.filter (·.origin = .version)
  (versions.insertionSort GenerationRow.isBefore).map fun row => ⟨row, rankIn versions row⟩

/-- The rows, and the numbers given so far with their files, last first. -/
structure State where
  rows : List GenerationRow
  given : List (FileKey × Nat)

inductive Label
  /-- A generation is captured.  Its number is the next one. -/
  | insert (row : GenerationRow)
  | applyRetention (rule : RetentionRule) (now : Int)
  | remove (ids : List Nat)

/-- `SELECT COALESCE(max(version_number), 0) + 1` -/
def nextNumber (rows : List GenerationRow) (key : FileKey) : Nat :=
  ((rows.filter (·.key = key)).map (·.versionNumber)).max?.getD 0 + 1

variable (cipherBytes : Nat -> Nat)

/-- The rows that a step deletes. -/
def Label.deletes (rows : List GenerationRow) : Label -> List Nat
  | .insert _ => []
  | .applyRetention rule now =>
    (Candidates.listPrunable ⟨retentionCandidates rows, cipherBytes⟩ rule now).map (·.row.id)
  | .remove ids => ids

/-- A new generation is numbered in the transaction that inserts it, after the rows that are there then. -/
def step (state : State) (label : Label) : Option State :=
  match label with
  | .insert row =>
    if row.id ∈ state.rows.map (·.id) then none
    else
      let number := nextNumber state.rows row.key
      some ⟨state.rows ++ [{ row with versionNumber := number }], (row.key, number) :: state.given⟩
  | .applyRetention _ _ | .remove _ =>
    some { state with rows := state.rows.filter (·.id ∉ label.deletes cipherBytes state.rows) }

/-! ## Numbers -/

/-- For each row that is deleted, one of its file with a higher number is left. -/
def KeepsNewest (state : State) (label : Label) : Prop :=
  forall row, row ∈ state.rows -> row.id ∈ label.deletes cipherBytes state.rows ->
    Exists fun later => later ∈ state.rows ∧ later.id ∉ label.deletes cipherBytes state.rows ∧
      later.key = row.key ∧ row.versionNumber < later.versionNumber

instance (cipherBytes : Nat -> Nat) (state : State) (label : Label) : Decidable (KeepsNewest cipherBytes state label) :=
  inferInstanceAs (Decidable (forall row, row ∈ _ -> _ -> Exists fun later => later ∈ _ ∧ _))

/-- The numbers of a file were given in increasing order, and each is at most that of some
row that is left.  By the second part the next number is above all of them. -/
structure Numbered (state : State) : Prop where
  increases : state.given.Pairwise fun later earlier => later.1 = earlier.1 -> earlier.2 < later.2
  reached : forall given, given ∈ state.given ->
    Exists fun row => row ∈ state.rows ∧ row.key = given.1 ∧ given.2 ≤ row.versionNumber

variable {cipherBytes : Nat -> Nat} {state next final : State} {label : Label}

/-- The next number is above those of the rows that are left. -/
theorem lt_nextNumber {rows : List GenerationRow} {row : GenerationRow} (inside : row ∈ rows) :
    row.versionNumber < nextNumber rows row.key := by
  have isListed : row.versionNumber ∈ (rows.filter (·.key = row.key)).map (·.versionNumber) :=
    mem_map_of_mem (mem_filter.mpr ⟨inside, by simp⟩)
  exact Nat.lt_succ_of_le (le_max?_getD_of_mem isListed)

/-- A deletion that keeps the newest row of a file keeps a witness for each number given. -/
theorem Numbered.delete (numbered : Numbered state) (kept : KeepsNewest cipherBytes state label) :
    Numbered { state with rows := state.rows.filter (·.id ∉ label.deletes cipherBytes state.rows) } := by
  refine ⟨numbered.increases, fun given isGiven => ?_⟩
  rcases numbered.reached given isGiven with ⟨row, isRow, isKey, isBelow⟩
  by_cases isDeleted : row.id ∈ label.deletes cipherBytes state.rows
  · rcases kept row isRow isDeleted with ⟨later, isLater, isLeft, sameKey, isHigher⟩
    exact ⟨later, mem_filter.mpr ⟨isLater, decide_eq_true isLeft⟩, sameKey.trans isKey,
      Nat.le_trans isBelow (Nat.le_of_lt isHigher)⟩
  · exact ⟨row, mem_filter.mpr ⟨isRow, decide_eq_true isDeleted⟩, isKey, isBelow⟩

theorem Numbered.step (kept : KeepsNewest cipherBytes state label) (taken : step cipherBytes state label = some next)
    (numbered : Numbered state) : Numbered next := by
  cases label with
  | insert new =>
    rcases unguarded taken with ⟨_, rfl⟩
    refine ⟨pairwise_cons.mpr ⟨fun given isGiven same => ?_, numbered.increases⟩, fun given isGiven => ?_⟩
    · rcases numbered.reached given isGiven with ⟨row, isRow, isKey, isBelow⟩
      have isLess := lt_nextNumber isRow
      rw [isKey, ← same] at isLess
      exact Nat.lt_of_le_of_lt isBelow isLess
    · rcases mem_cons.mp isGiven with rfl | isOld
      · exact ⟨_, mem_append_right _ mem_cons_self, rfl, Nat.le_refl _⟩
      · rcases numbered.reached given isOld with ⟨row, isRow, isNumber⟩
        exact ⟨row, mem_append_left _ isRow, isNumber⟩
  | applyRetention | remove =>
    cases taken
    exact numbered.delete kept

/-! ## Rules that keep the newest version -/

section KeepLast

variable {rows : List GenerationRow} (uniqueId : (rows.map (·.id)).Nodup)
  (uniqueNumber : forall row other, row ∈ rows -> other ∈ rows -> row.key = other.key ->
    row.versionNumber = other.versionNumber -> row = other)

/-- Each file with a row has one whose number no other exceeds. -/
theorem exists_newest {row : GenerationRow} (inside : row ∈ rows) :
    Exists fun newest => newest ∈ rows ∧ newest.key = row.key ∧
      forall other, other ∈ rows -> other.key = row.key -> other.versionNumber ≤ newest.versionNumber := by
  have isListed : row.versionNumber ∈ (rows.filter (·.key = row.key)).map (·.versionNumber) :=
    mem_map_of_mem (mem_filter.mpr ⟨inside, by simp⟩)
  cases isMax : ((rows.filter (·.key = row.key)).map (·.versionNumber)).max? with
  | none =>
    rw [max?_eq_none_iff.mp isMax] at isListed
    cases isListed
  | some number =>
    rcases max?_eq_some_iff.mp isMax with ⟨isNumber, isHighest⟩
    rcases mem_map.mp isNumber with ⟨newest, isNewest, rfl⟩
    rcases mem_filter.mp isNewest with ⟨isRow, sameKey⟩
    refine ⟨newest, isRow, of_decide_eq_true sameKey, fun other isOther isKey => ?_⟩
    exact isHighest _ (mem_map_of_mem (mem_filter.mpr ⟨isOther, decide_eq_true isKey⟩))

include uniqueId uniqueNumber

/-- The newest version of a file has rank one. -/
theorem rankIn_newest {newest : GenerationRow} (isNewest : newest ∈ rows)
    (isHighest : forall other, other ∈ rows -> other.key = newest.key ->
      other.versionNumber ≤ newest.versionNumber) : rankIn rows newest ≤ 1 := by
  have isNodup : rows.Nodup := Nodup.of_map _ uniqueId
  calc
    rankIn rows newest ≤ rows.countP (· == newest) := by
        refine countP_mono_left fun other isOther counted => ?_
        simp only [decide_eq_true_eq] at counted
        have isBelow := isHighest other isOther counted.1
        simpa using uniqueNumber other newest isOther isNewest counted.1 (by omega)
    _ ≤ 1 := nodup_iff_count_le_one.mp isNodup newest

end KeepLast

/-- A rule that keeps some last versions and has neither an age limit nor a quota keeps the newest of each file. -/
theorem keepsNewest_keepLast {kept : Nat} {now : Int} (positive : 0 < kept)
    (uniqueId : (state.rows.map (·.id)).Nodup)
    (uniqueNumber : forall row other, row ∈ state.rows -> other ∈ state.rows -> row.key = other.key ->
      row.versionNumber = other.versionNumber -> row = other) :
    KeepsNewest cipherBytes state (.applyRetention ⟨some kept, none, none⟩ now) := by
  have beyond : forall row, row ∈ state.rows ->
      row.id ∈ (Label.applyRetention ⟨some kept, none, none⟩ now).deletes cipherBytes state.rows ->
      row ∈ state.rows.filter (·.origin = .version) ∧
        kept < rankIn (state.rows.filter (·.origin = .version)) row := by
    intro row isRow isDeleted
    rcases mem_map.mp isDeleted with ⟨candidate, isExceeding, sameId⟩
    rcases mem_filter.mp isExceeding with ⟨isCandidate, exceeds⟩
    rcases mem_map.mp isCandidate with ⟨version, isVersion, rfl⟩
    have isVersion := mem_insertionSort _ |>.mp isVersion
    cases inj_on_of_nodup_map uniqueId (mem_of_mem_filter isVersion) isRow sameId
    refine ⟨isVersion, ?_⟩
    simpa [RetentionRule.exceeded] using (Bool.and_eq_true_iff.mp exceeds).2
  intro row isRow isDeleted
  rcases exists_newest (beyond row isRow isDeleted).1 with ⟨newest, isNewest, sameKey, isHighest⟩
  have isKept : newest.id ∉ (Label.applyRetention ⟨some kept, none, none⟩ now).deletes cipherBytes state.rows := by
    intro isDeleted
    have isFirst : rankIn (state.rows.filter (·.origin = .version)) newest ≤ 1 := by
      refine rankIn_newest (uniqueId.sublist (filter_sublist.map _)) (fun row other isRow isOther => ?_) isNewest
        (sameKey ▸ isHighest)
      exact uniqueNumber row other (mem_of_mem_filter isRow) (mem_of_mem_filter isOther)
    have isBeyond := (beyond newest (mem_of_mem_filter isNewest) isDeleted).2
    omega
  refine ⟨newest, mem_of_mem_filter isNewest, isKept, sameKey, ?_⟩
  refine Nat.lt_of_le_of_ne (isHighest row (beyond row isRow isDeleted).1 rfl) fun sameNumber => ?_
  cases uniqueNumber row newest isRow (mem_of_mem_filter isNewest) sameKey.symm sameNumber
  exact isKept isDeleted

/-- While deletions leave the newest row of a file, the numbers of a file increase in the order of the captures. -/
theorem version_numbers_increase {labels : List Label} (unnumbered : state.given = [])
    (reached : run (step cipherBytes) state labels = some final)
    (kept : Along (step cipherBytes) (KeepsNewest cipherBytes) state labels) :
    final.given.Pairwise fun later earlier => later.1 = earlier.1 -> earlier.2 < later.2 := by
  have numbered : Numbered final :=
    run_induction (fun _ _ _ => .step) reached kept ⟨by simp [unnumbered], by simp [unnumbered]⟩
  exact numbered.increases

def capture (id : Nat) (createdAt : Int) : Label :=
  .insert ⟨id, .file 7, 0, none, some id, createdAt, .version, .none⟩

def prune (keepLast maxAgeDays : Option Nat) : Label :=
  .applyRetention ⟨keepLast, maxAgeDays, none⟩ (3 * 86400)

def keptLast : List Label :=
  [capture 1 0, capture 2 1, prune (some 1) none, capture 3 2]

theorem version_numbers_increase_kept :
    Exists fun final : State => run (step fun _ => 1) ⟨[], []⟩ keptLast = some final ∧
      final.given = [(.file 7, 3), (.file 7, 2), (.file 7, 1)] ∧
      final.given.Pairwise fun later earlier => later.1 = earlier.1 -> earlier.2 < later.2 := by
  have kept : Along (step fun _ => 1) (KeepsNewest fun _ => 1) ⟨[], []⟩ keptLast := by decide +kernel
  exact ⟨_, rfl, by decide, version_numbers_increase (by rfl) (by rfl) kept⟩

/-- A version that grew too old is pruned, and its number is given again. -/
theorem version_number_given_twice :
    Exists fun final : State => run (step fun _ => 1) ⟨[], []⟩
        [capture 1 0, prune none (some 1), capture 2 (3 * 86400)] = some final ∧
      final.given = [(.file 7, 1), (.file 7, 1)] :=
  ⟨_, rfl, by decide⟩

end Versions
end Recovery
end Vaulthalla
