import Vaulthalla.Foundation.Transition
import Vaulthalla.Vault.KeyImport

namespace Vaulthalla
namespace Vault
namespace KeyImport

open Foundation KeyRotation KeyAttestation ExportDocument Transition Table SealedWrite List
open KeyTables (recordProvenance)

/-!
# Imports replace and forge no key

An import writes a row only when it had none, or when it still holds the sealed
bytes that the import has found not to unseal.  The key it writes is one that
this host holds for the version, or one that this node has attested and that no
recorded key check of the version contradicts.  So a row that unseals keeps its
key through every interleaving of imports, rotations and first keys.

What an import has read is part of the past of the run: the invariant relates
the rows and versions of its target to states that the run has passed through,
and rows that unseal to the present one.
-/

variable {Sealed : Type}

/-! ## What a table keeps -/

def KeyTables.sealedKey (tables : KeyTables Sealed) (table : SealedTable) (version : Nat) : Option Sealed :=
  (tables.row table version).map fun row => row.sealed

/-- The live row of a version, current or retired, holds the sealed key. -/
def KeyTables.LiveHolds (tables : KeyTables Sealed) (version : Nat) (sealed : Sealed) : Prop :=
  tables.sealedKey .current version = some sealed ∨ tables.sealedKey .retired version = some sealed

/-- The rows that unseal keep their keys, and so do the copies. -/
structure Keeps (host : Host Sealed) (before after : KeyTables Sealed) : Prop where
  live : forall version sealed, (host.unsealKey sealed).isSome = true ->
    before.LiveHolds version sealed -> after.LiveHolds version sealed
  copies : forall version sealed, (host.unsealKey sealed).isSome = true ->
    before.sealedKey .deletionCopy version = some sealed -> after.sealedKey .deletionCopy version = some sealed

/-- This host holds the key of the version: a row of it unseals to it. -/
def KeyTables.Held (host : Host Sealed) (tables : KeyTables Sealed) (version : Nat) (key : Str) : Prop :=
  Exists fun table => Exists fun sealed => tables.sealedKey table version = some sealed ∧
    host.unsealKey sealed = some key

variable {host : Host Sealed} {vaultId : Nat}

section Keeping

variable {first second third : KeyTables Sealed}

theorem Keeps.trans (earlier : Keeps host first second) (later : Keeps host second third) : Keeps host first third where
  live version sealed unseals holds := later.live version sealed unseals (earlier.live version sealed unseals holds)
  copies version sealed unseals holds := later.copies version sealed unseals (earlier.copies version sealed unseals holds)

theorem keeps_of_sealedKey (same : forall table version, second.sealedKey table version = first.sealedKey table version) :
    Keeps host first second where
  live version sealed _ holds := by
    rwa [KeyTables.LiveHolds, same, same]
  copies version sealed _ holds := by
    rwa [same]

theorem Keeps.refl (tables : KeyTables Sealed) : Keeps host tables tables :=
  keeps_of_sealedKey fun _ _ => rfl

theorem Keeps.held (keeps : Keeps host first second) {version : Nat} {key : Str}
    (held : first.Held host version key) : second.Held host version key := by
  rcases held with ⟨table, sealed, isRow, unseals⟩
  have isSome : (host.unsealKey sealed).isSome := by simp [unseals]
  have ofLive (holds : second.LiveHolds version sealed) : second.Held host version key := by
    rcases holds with isCurrent | isRetired
    · exact ⟨.current, sealed, isCurrent, unseals⟩
    · exact ⟨.retired, sealed, isRetired, unseals⟩
  cases table with
  | current => exact ofLive (keeps.live version sealed isSome (.inl isRow))
  | retired => exact ofLive (keeps.live version sealed isSome (.inr isRow))
  | deletionCopy => exact ⟨.deletionCopy, sealed, keeps.copies version sealed isSome isRow, unseals⟩

end Keeping

/-! ## Statements that write no key -/

section Statements

variable {tables after : KeyTables Sealed} {version : Nat} {provenance : Option Provenance} {sealed : Sealed}

theorem version_of_row {table : SealedTable} {row : StoredKey Sealed} (isRow : tables.row table version = some row) :
    row.version = version := by
  cases table with
  | current =>
    have := (Option.filter_eq_some_iff.mp isRow).2
    simpa using this
  | retired =>
    rcases Option.map_eq_some_iff.mp isRow with ⟨retired, found, rfl⟩
    have isKey := key_of_find found
    exact isKey
  | deletionCopy =>
    have isKey := key_of_find isRow
    exact isKey

/-- An update of all retired rows that keeps their sealed keys. -/
theorem sealedKey_updateRetired {change : RetiredKey Sealed -> RetiredKey Sealed}
    (keeps : forall row, (change row).version = row.version) (same : forall row, (change row).sealed = row.sealed)
    (table : SealedTable) (version : Nat) :
    ({ tables with retired := tables.retired.update change keeps } : KeyTables Sealed).sealedKey table version =
      tables.sealedKey table version := by
  cases table with
  | current | deletionCopy => rfl
  | retired => simp [KeyTables.sealedKey, KeyTables.row, find_update, Function.comp_def, same]

theorem sealedKey_markKeyRotationFinished (tables : KeyTables Sealed) (table : SealedTable) (version : Nat) :
    tables.markKeyRotationFinished.sealedKey table version = tables.sealedKey table version := by
  apply sealedKey_updateRetired
  intro row
  rfl

theorem sealedKey_closeIf (tables : KeyTables Sealed) (close : Bool) (table : SealedTable) (version : Nat) :
    (tables.closeIf close).sealedKey table version = tables.sealedKey table version := by
  cases close with
  | false => rfl
  | true => exact sealedKey_markKeyRotationFinished tables table version

/-- A vault without a current row gets one. -/
theorem keeps_first {row : StoredKey Sealed} (isNone : tables.current = none) :
    Keeps host tables { tables with current := some row } := by
  refine ⟨fun version sealed _ holds => .inr ?_, fun version sealed _ => id⟩
  rcases holds with isCurrent | isRetired
  · simp [KeyTables.sealedKey, KeyTables.row, isNone] at isCurrent
  · exact isRetired

theorem keeps_addVaultKey (added : tables.addVaultKey sealed provenance = some after) : Keeps host tables after := by
  unfold KeyTables.addVaultKey at added
  split at added
  · cases added
  case h_2 isNone =>
    cases added
    exact keeps_first isNone

/-- The current row is retired with the key it has. -/
theorem keeps_retire {row new : StoredKey Sealed} {retired : Table (RetiredKey Sealed) (·.version)}
    (isRow : tables.current = some row) (inserted : tables.retired.insert { row with pending := true } = some retired) :
    Keeps host tables { tables with current := some new, retired := retired } := by
  rcases find_insert inserted with ⟨_, found⟩
  refine ⟨fun version sealed _ holds => .inr ?_, fun version sealed _ => id⟩
  simp only [KeyTables.LiveHolds, KeyTables.sealedKey, KeyTables.row, found] at holds ⊢
  split
  case isTrue isVersion =>
    rcases holds with isCurrent | isRetired
    · simpa [isRow, isVersion] using isCurrent
    · have isFree := (find_insert inserted).1
      simp only [isVersion] at isRetired
      simp [isFree] at isRetired
  case isFalse isOther =>
    rcases holds with isCurrent | isRetired
    · simp [isRow, Ne.symm isOther] at isCurrent
    · exact isRetired

theorem keeps_rotateVaultKey {expected : Nat} {outgoing : Option (Nat × Provenance)} {closePrior closeOutgoing : Bool}
    (rotated : tables.rotateVaultKey sealed expected provenance outgoing closePrior closeOutgoing = some after) :
    Keeps host tables after := by
  rcases Option.map_eq_some_iff.mp rotated with ⟨core, isCore, rfl⟩
  have prior : Keeps host tables (tables.closeIf closePrior) := keeps_of_sealedKey (sealedKey_closeIf tables closePrior)
  have filled : Keeps host core
      ((outgoing.elim core fun named => core.fillOutgoing named.1 named.2).closeIf closeOutgoing) := by
    refine keeps_of_sealedKey fun table version => ?_
    rw [sealedKey_closeIf]
    cases outgoing with
    | none => rfl
    | some named => exact sealedKey_updateRetired _ (fun row => by split <;> rfl) table version
  refine prior.trans (.trans ?_ filled)
  split at isCore
  case h_1 isNone =>
    rcases unguarded isCore with ⟨_, rfl⟩
    exact keeps_first isNone
  case h_2 row isRow =>
    rcases Option.map_eq_some_iff.mp isCore with ⟨retired, inserted, rfl⟩
    exact keeps_retire isRow inserted

end Statements

/-! ## Recorded provenance -/

/-- Only the recorded provenance of rows changes, and only of rows that unseal, to that of their keys. -/
def RecordsOnly (host : Host Sealed) (vaultId : Nat) (before after : KeyTables Sealed) : Prop :=
  forall table version, after.row table version = before.row table version ∨
    Exists fun row => Exists fun key => Exists fun attestation =>
      before.row table version = some row ∧ host.unsealKey row.sealed = some key ∧
        after.row table version =
          some (row.record { keyCheck := host.keyCheck key vaultId version, attestation := attestation })

section Recording

variable {tables after : KeyTables Sealed}

theorem RecordsOnly.keeps (records : RecordsOnly host vaultId tables after) : Keeps host tables after := by
  refine keeps_of_sealedKey fun table version => ?_
  rcases records table version with same | ⟨row, key, attestation, isRow, _, isAfter⟩
  · rw [KeyTables.sealedKey, KeyTables.sealedKey, same]
  · rw [KeyTables.sealedKey, KeyTables.sealedKey, isRow, isAfter]
    rfl

theorem recordsOnly_refl (tables : KeyTables Sealed) : RecordsOnly host vaultId tables tables :=
  fun _ _ => .inl rfl

variable [DecidableEq Sealed]

theorem row_recordProvenance (tables : KeyTables Sealed) (read : KeyRow Sealed) (provenance : Provenance)
    (table : SealedTable) (version : Nat) :
    (tables.recordProvenance read provenance).row table version =
      (tables.row table version).map fun row => row.refresh read provenance := by
  cases table with
  | current =>
    have sameVersion (row : StoredKey Sealed) : (row.refresh read provenance).version = row.version :=
      congrArg KeyRow.version (StoredKey.toKeyRow_refresh read provenance row)
    cases isRow : tables.current with
    | none => simp [KeyTables.row, recordProvenance, isRow]
    | some row =>
      by_cases same : row.version = version
      · simp [KeyTables.row, recordProvenance, isRow, same, sameVersion, Option.filter]
      · simp [KeyTables.row, recordProvenance, isRow, same, sameVersion, Option.filter]
  | retired =>
    simp only [KeyTables.row, recordProvenance, find_update, Option.map_map]
    rfl
  | deletionCopy => simp only [KeyTables.row, recordProvenance, find_update]

theorem recordsOnly_backfill {read : StoredKey Sealed} {key : Str} (unseals : host.unsealKey read.sealed = some key)
    (signed : Option Attestation) : RecordsOnly host vaultId tables (backfill host vaultId tables read key signed) := by
  simp only [backfill]
  split
  · exact recordsOnly_refl tables
  · intro table version
    rw [row_recordProvenance]
    cases isRow : tables.row table version with
    | none => exact .inl rfl
    | some row =>
      rw [Option.map_some]
      unfold StoredKey.refresh
      split
      case isTrue isRead =>
        have isVersion : read.version = version := isRead.1.symm.trans (version_of_row isRow)
        refine .inr ⟨row, key, signed, rfl, ?_, ?_⟩
        · rw [isRead.2.1]
          exact unseals
        · rw [← isVersion]
      case isFalse => exact .inl rfl

end Recording

/-! ## Writes -/

def SealedWrite.slot (write : SealedWrite Sealed) : SealedTable × Nat :=
  (write.table, write.version)

section Writes

variable {tables after : KeyTables Sealed} {write : SealedWrite Sealed}

@[simp] theorem version_stored (write : SealedWrite Sealed) : write.stored.version = write.version :=
  rfl

/-- What one statement of an import does to the rows of all versions. -/
def Writes (tables : KeyTables Sealed) (write : SealedWrite Sealed) (after : KeyTables Sealed) : Prop :=
  after.row write.table write.version = some write.stored ∧
    forall table version, (table, version) ≠ write.slot -> after.row table version = tables.row table version

theorem writes_current (isTable : write.table = .current)
    (isFree : forall version, version ≠ write.version -> tables.row .current version = none) :
    Writes tables write { tables with current := some write.stored } := by
  refine ⟨?_, fun table version isOther => ?_⟩
  · rw [isTable]
    simp [KeyTables.row, Option.filter]
  · cases table with
    | current =>
      have different : version ≠ write.version := fun same => isOther (by rw [slot, isTable, same])
      rw [isFree version different]
      simp [KeyTables.row, Option.filter, Ne.symm different]
    | retired | deletionCopy => rfl

theorem writes_retired (isTable : write.table = .retired) {retired : Table (RetiredKey Sealed) (·.version)}
    (isWritten : (retired.find write.version).map RetiredKey.toStoredKey = some write.stored)
    (untouched : forall version, version ≠ write.version -> retired.find version = tables.retired.find version) :
    Writes tables write { tables with retired := retired } := by
  refine ⟨?_, fun table version isOther => ?_⟩
  · rw [isTable]
    exact isWritten
  · cases table with
    | current | deletionCopy => rfl
    | retired =>
      have different : version ≠ write.version := fun same => isOther (by rw [slot, isTable, same])
      simp only [KeyTables.row, untouched version different]

theorem writes_copies (isTable : write.table = .deletionCopy) {copies : Table (StoredKey Sealed) (·.version)}
    (isWritten : copies.find write.version = some write.stored)
    (untouched : forall version, version ≠ write.version -> copies.find version = tables.copies.find version) :
    Writes tables write { tables with copies := copies } := by
  refine ⟨?_, fun table version isOther => ?_⟩
  · rw [isTable]
    exact isWritten
  · cases table with
    | current | retired => rfl
    | deletionCopy =>
      have different : version ≠ write.version := fun same => isOther (by rw [slot, isTable, same])
      simp only [KeyTables.row, untouched version different]

variable [DecidableEq Sealed]

theorem reseal_of_version {row : StoredKey Sealed} (same : row.version = write.version) :
    row.reseal write = write.stored :=
  if_pos same

theorem reseal_of_ne {row : StoredKey Sealed} (different : row.version ≠ write.version) : row.reseal write = row :=
  if_neg different

theorem writeSealed_over {old : Sealed} (isExpected : write.expected = some old)
    (written : writeSealed tables write = some after) :
    tables.sealedKey write.table write.version = some old ∧ Writes tables write after := by
  unfold writeSealed at written
  simp only [isExpected] at written
  rcases Option.ite_none_right_eq_some.mp written with ⟨isHeld, written⟩
  refine ⟨isHeld, ?_⟩
  rcases Option.map_eq_some_iff.mp isHeld with ⟨row, isRow, _⟩
  have isVersion := version_of_row isRow
  split at written
  case h_1 isTable =>
    cases written
    rw [isTable] at isRow
    refine writes_current isTable fun version different => ?_
    rcases Option.filter_eq_some_iff.mp isRow with ⟨isCurrent, _⟩
    simp [KeyTables.row, isCurrent, Option.filter, isVersion, Ne.symm different]
  case h_2 isTable =>
    cases written
    rw [isTable] at isRow
    rcases Option.map_eq_some_iff.mp isRow with ⟨retired, found, rfl⟩
    refine writes_retired isTable ?_ fun version different => ?_
    · simp [find_update, found, reseal_of_version isVersion]
    · exact find_update_of_ne _ (fun row isOther => by rw [reseal_of_ne isOther]) different
  case h_3 isTable =>
    cases written
    rw [isTable] at isRow
    have found : tables.copies.find write.version = some row := isRow
    refine writes_copies isTable ?_ fun version different => ?_
    · simp [find_update, found, reseal_of_version isVersion]
    · exact find_update_of_ne _ (fun row => reseal_of_ne) different

theorem writeSealed_new (isExpected : write.expected = none) (written : writeSealed tables write = some after) :
    tables.sealedKey write.table write.version = none ∧ Writes tables write after := by
  unfold writeSealed at written
  simp only [isExpected] at written
  split at written
  case h_1 isTable =>
    rcases unguarded written with ⟨isNone, rfl⟩
    have isNone : tables.current = none := by simpa using isNone
    refine ⟨by simp [isTable, KeyTables.sealedKey, KeyTables.row, isNone], ?_⟩
    exact writes_current isTable fun version _ => by simp [KeyTables.row, isNone]
  case h_2 isTable =>
    rcases Option.map_eq_some_iff.mp written with ⟨retired, inserted, rfl⟩
    rcases find_insert inserted with ⟨isFree, found⟩
    have isFree : tables.retired.find write.version = none := isFree
    refine ⟨by simp [isTable, KeyTables.sealedKey, KeyTables.row, isFree], ?_⟩
    refine writes_retired isTable ?_ fun version different => ?_
    · simp [found]
    · rw [found]
      exact if_neg different
  case h_3 isTable =>
    rcases Option.map_eq_some_iff.mp written with ⟨copies, inserted, rfl⟩
    rcases find_insert inserted with ⟨isFree, found⟩
    have isFree : tables.copies.find write.version = none := isFree
    refine ⟨by simp [isTable, KeyTables.sealedKey, KeyTables.row, isFree], ?_⟩
    refine writes_copies isTable ?_ fun version different => ?_
    · simp [found]
    · rw [found]
      exact if_neg different

theorem writes_writeSealed (written : writeSealed tables write = some after) :
    tables.sealedKey write.table write.version = write.expected ∧ Writes tables write after := by
  cases isExpected : write.expected with
  | some old => exact writeSealed_over isExpected written
  | none => exact writeSealed_new isExpected written

/-- Each row is left alone, or written once over what its write expects. -/
theorem row_writeImported {writes : List (SealedWrite Sealed)} (distinct : (writes.map slot).Nodup)
    (written : writeImported tables writes = some after) (table : SealedTable) (version : Nat) :
    after.row table version = tables.row table version ∨
      Exists fun write => write ∈ writes ∧ write.slot = (table, version) ∧
        tables.sealedKey table version = write.expected ∧ after.row table version = some write.stored := by
  induction writes generalizing tables with
  | nil =>
    cases written
    exact .inl rfl
  | cons first rest ih =>
    rcases Option.bind_eq_some_iff.mp written with ⟨middle, isFirst, later⟩
    rw [map_cons, nodup_cons] at distinct
    rcases writes_writeSealed isFirst with ⟨isExpected, isStored, untouched⟩
    rcases ih distinct.2 later with same | ⟨write, inside, isSlot, isHeld, isWritten⟩
    · by_cases isSlot : (table, version) = first.slot
      · have isTable : table = first.table := congrArg Prod.fst isSlot
        have isVersion : version = first.version := congrArg Prod.snd isSlot
        subst isTable isVersion
        exact .inr ⟨first, mem_cons_self, rfl, isExpected, same.trans isStored⟩
      · exact .inl (same.trans (untouched table version isSlot))
    · have isOther : (table, version) ≠ first.slot := by
        intro isFirst
        exact distinct.1 (isFirst ▸ isSlot ▸ mem_map_of_mem inside)
      refine .inr ⟨write, mem_cons_of_mem first inside, isSlot, ?_, isWritten⟩
      rw [← isHeld, KeyTables.sealedKey, KeyTables.sealedKey, untouched table version isOther]

end Writes

/-! ## What an import has read -/

section Reads

variable (Past : State Sealed -> Prop)

/-- The rows and versions of a target were in the tables when they were read. -/
structure ImportTarget.Read (target : ImportTarget Sealed) : Prop where
  referenced : forall version, version ∈ target.referenced ->
    Exists fun past => Past past ∧ version ∈ past.referencedKeyVersions
  currentRow : forall row, target.currentRow = some row ->
    (Exists fun past => Past past ∧ past.tables.row .current row.version = some row) ∧
      target.current = some row.version
  retired : forall row, row ∈ target.retired ->
    Exists fun past => Past past ∧ past.tables.row .retired row.version = some row
  copies : forall row, row ∈ target.copies ->
    Exists fun past => Past past ∧ past.tables.row .deletionCopy row.version = some row

variable {Past} {target : ImportTarget Sealed} {version : Nat}

theorem ImportTarget.Read.row (read : target.Read Past) {table : SealedTable} {row : StoredKey Sealed}
    (isRow : target.row table version = some row) :
    Exists fun past => Past past ∧ past.tables.row table version = some row := by
  cases table with
  | current =>
    rcases Option.filter_eq_some_iff.mp isRow with ⟨isCurrent, isVersion⟩
    have isVersion : row.version = version := by simpa using isVersion
    exact isVersion ▸ (read.currentRow row isCurrent).1
  | retired =>
    have isVersion : row.version = version := by simpa using find?_some isRow
    exact isVersion ▸ read.retired row (mem_of_find?_eq_some isRow)
  | deletionCopy =>
    have isVersion : row.version = version := by simpa using find?_some isRow
    exact isVersion ▸ read.copies row (mem_of_find?_eq_some isRow)

/-- A slot has the row that was read in its table. -/
theorem ImportTarget.Read.slot (read : target.Read Past) {slot : Slot Sealed} (inside : slot ∈ target.slots version) :
    slot.row = target.row slot.table version := by
  rcases mem_append.mp inside with isLive | isCopy
  · split at isLive
    · split at isLive
      case isTrue isCurrent =>
        rw [mem_singleton.mp isLive]
        cases isRow : target.currentRow with
        | none => simp [ImportTarget.row, isRow]
        | some row =>
          have isVersion : row.version = version :=
            Option.some.inj ((read.currentRow row isRow).2.symm.trans isCurrent.symm)
          simp [ImportTarget.row, isRow, isVersion, Option.filter]
      case isFalse =>
        rw [mem_singleton.mp isLive]
    · cases isLive
  · split at isCopy
    · rw [mem_singleton.mp isCopy]
    · cases isCopy

theorem nodup_slots (target : ImportTarget Sealed) (version : Nat) : ((target.slots version).map Slot.table).Nodup := by
  unfold ImportTarget.slots
  split <;> split <;> (try split) <;> simp

/-- What held at a past state stays in the past. -/
theorem past_mono {Later property : State Sealed -> Prop} (stays : forall past, Past past -> Later past)
    (held : Exists fun past => Past past ∧ property past) : Exists fun past => Later past ∧ property past := by
  rcases held with ⟨past, isPast, holds⟩
  exact ⟨past, stays past isPast, holds⟩

theorem ImportTarget.Read.mono {Later : State Sealed -> Prop} (read : target.Read Past)
    (stays : forall past, Past past -> Later past) : target.Read Later where
  referenced version inside := past_mono stays (read.referenced version inside)
  currentRow row isRow := ⟨past_mono stays (read.currentRow row isRow).1, (read.currentRow row isRow).2⟩
  retired row inside := past_mono stays (read.retired row inside)
  copies row inside := past_mono stays (read.copies row inside)

end Reads

/-! ## Proofs of keys -/

section Proofs

variable (host : Host Sealed) (vaultId : Nat) (attested : UInt64 -> UInt32 -> Str -> Prop) (Past : State Sealed -> Prop)

variable (target : ImportTarget Sealed)

/-- No key check that is recorded in a row which the import has looked at contradicts the given one. -/
def ImportTarget.Consistent (version : Nat) (check : Str) : Prop :=
  forall slot, slot ∈ target.slots version -> forall row recorded, slot.row = some row ->
    row.keyCheck = some recorded -> recorded = check

/-- The host held the key of the version, or the node has attested it. -/
def Proven (version : Nat) (key : Str) : Prop :=
  (Exists fun past => Past past ∧ past.tables.Held host version key) ∨
    (attested (UInt64.ofNat vaultId) (UInt32.ofNat version) (host.keyCheck key vaultId version) ∧
      target.Consistent version (host.keyCheck key vaultId version))

structure SealedWrite.Sound (write : SealedWrite Sealed) : Prop where
  expected : write.expected = (target.row write.table write.version).map fun row => row.sealed
  lost : forall old, write.expected = some old -> host.unsealKey old = none
  referenced : write.version ∈ target.referenced
  key : Exists fun key => host.unsealKey write.sealed = some key ∧
    Proven host vaultId attested Past target write.version key

/-- Rows of a version that are missing or do not unseal. -/
structure Writable (version : Nat) (toWrite : List (Slot Sealed)) : Prop where
  slots : forall slot, slot ∈ toWrite -> slot ∈ target.slots version
  lost : forall slot, slot ∈ toWrite -> forall row, slot.row = some row -> host.unsealKey row.sealed = none
  tables : (toWrite.map Slot.table).Nodup

/-- The rows of a candidate's version, up to the slots that are left. -/
structure Probed (candidate : Candidate) (slots : List (Slot Sealed))
    (probe : Probe Sealed) : Prop where
  done : Exists fun done => target.slots candidate.version = done ++ slots ∧ probe.toWrite.Sublist done ∧
    forall slot, slot ∈ done -> forall row recorded, slot.row = some row -> row.keyCheck = some recorded ->
      recorded ∈ probe.recordedChecks
  lost : forall slot, slot ∈ probe.toWrite -> forall row, slot.row = some row -> host.unsealKey row.sealed = none
  identical : probe.identical = true ->
    Exists fun past => Past past ∧ past.tables.Held host candidate.version candidate.key

/-- The writes so far concern different rows, and none of a version that is still to be decided. -/
structure Pending (writes : List (SealedWrite Sealed)) (versions : List Nat) : Prop where
  distinct : (writes.map slot).Nodup
  undecided : versions.Nodup
  apart : forall write, write ∈ writes -> write.version ∉ versions

/-- The current row is read later. -/
def Reading.isEarly : Reading -> Bool
  | .retiredVersions | .retiredRows _ => false
  | _ => true

variable (call : Import Sealed)

/-- A candidate that is being decided. -/
structure Deciding (candidate : Candidate) (rest : List Candidate) : Prop where
  pending : Pending call.writes (candidate.version :: rest.map Candidate.version)
  referenced : candidate.version ∈ call.target.referenced

def Import.PointSound : Prop :=
  match call.point with
  | .reading query candidates =>
    (candidates.map Candidate.version).Nodup ∧ call.writes = [] ∧
      (query.isEarly = true -> call.target.currentRow = none)
  | .planning candidates => Pending call.writes (candidates.map Candidate.version)
  | .probing candidate slots probe rest =>
    Deciding call candidate rest ∧ Probed host Past call.target candidate slots probe
  | .proving candidate toWrite rest =>
    Deciding call candidate rest ∧ Writable host call.target candidate.version toWrite ∧
      call.target.Consistent candidate.version (host.keyCheck candidate.key vaultId candidate.version)
  | .filing candidate _ toWrite rest | .asking candidate _ toWrite rest | .sealing candidate _ toWrite _ rest =>
    Deciding call candidate rest ∧ Writable host call.target candidate.version toWrite ∧
      Proven host vaultId attested Past call.target candidate.version candidate.key
  | .writing => (call.writes.map slot).Nodup

structure Import.Sound : Prop where
  read : call.target.Read Past
  writes : forall write, write ∈ call.writes -> write.Sound host vaultId attested Past call.target
  point : call.PointSound host vaultId attested Past

end Proofs

section Monotone

variable {attested : UInt64 -> UInt32 -> Str -> Prop} {Past Later : State Sealed -> Prop} {target : ImportTarget Sealed}

theorem Proven.mono {version : Nat} {key : Str} (proven : Proven host vaultId attested Past target version key)
    (stays : forall past, Past past -> Later past) : Proven host vaultId attested Later target version key := by
  rcases proven with held | isAttested
  · exact .inl (past_mono stays held)
  · exact .inr isAttested

theorem SealedWrite.Sound.mono {write : SealedWrite Sealed} (sound : write.Sound host vaultId attested Past target)
    (stays : forall past, Past past -> Later past) : write.Sound host vaultId attested Later target := by
  rcases sound.key with ⟨key, unseals, proven⟩
  exact { sound with key := ⟨key, unseals, proven.mono stays⟩ }

theorem Probed.mono {candidate : Candidate} {slots : List (Slot Sealed)} {probe : Probe Sealed}
    (probed : Probed host Past target candidate slots probe) (stays : forall past, Past past -> Later past) :
    Probed host Later target candidate slots probe where
  done := probed.done
  lost := probed.lost
  identical isIdentical := past_mono stays (probed.identical isIdentical)

/-- What an import has read stays in the past. -/
theorem Import.Sound.mono {call : Import Sealed} (sound : call.Sound host vaultId attested Past)
    (stays : forall past, Past past -> Later past) : call.Sound host vaultId attested Later where
  read := sound.read.mono stays
  writes write inside := (sound.writes write inside).mono stays
  point := by
    have point := sound.point
    unfold Import.PointSound at point ⊢
    cases isPoint : call.point with
    | reading | planning | proving | writing => simpa only [isPoint] using point
    | probing candidate slots probe rest =>
      simp only [isPoint] at point ⊢
      exact ⟨point.1, point.2.mono stays⟩
    | filing | asking | sealing =>
      simp only [isPoint] at point ⊢
      exact ⟨point.1, point.2.1, point.2.2.mono stays⟩

end Monotone

/-! ## Steps of an import -/

section Advance

variable {attested : UInt64 -> UInt32 -> Str -> Prop} {Past : State Sealed -> Prop} {state : State Sealed}
  {call next : Import Sealed}

theorem Import.Sound.moveTo (sound : call.Sound host vaultId attested Past) {point : Point Sealed}
    (isSound : (call.moveTo point).PointSound host vaultId attested Past) :
    (call.moveTo point).Sound host vaultId attested Past where
  read := sound.read
  writes := sound.writes
  point := isSound

variable {candidate : Candidate} {tables : KeyTables Sealed} {toWrite slots : List (Slot Sealed)}
  {probe : Probe Sealed} {target : ImportTarget Sealed}

theorem Deciding.rest {rest : List Candidate} (deciding : Deciding call candidate rest) :
    Pending call.writes (rest.map Candidate.version) where
  distinct := deciding.pending.distinct
  undecided := (nodup_cons.mp deciding.pending.undecided).2
  apart write inside isLater := deciding.pending.apart write inside (mem_cons_of_mem _ isLater)

theorem Import.Sound.decide (sound : call.Sound host vaultId attested Past) {rest : List Candidate}
    (pending : Pending call.writes (rest.map Candidate.version)) (outcome : ImportOutcome) :
    (call.decide candidate outcome rest).Sound host vaultId attested Past where
  read := sound.read
  writes := sound.writes
  point := pending

section

variable (sound : call.Sound host vaultId attested Past)

include sound

theorem Import.Sound.readNext (isPresent : Past state) {query : Reading} {candidates : List Candidate}
    (isPoint : call.point = .reading query candidates) (taken : call.read state candidates query = some next) :
    next.Sound host vaultId attested Past := by
  have point := sound.point
  unfold Import.PointSound at point
  simp only [isPoint] at point
  rcases point with ⟨isDistinct, isEmpty, isEarly⟩
  have pending : Pending call.writes (candidates.map Candidate.version) := by
    rw [isEmpty]
    exact ⟨nodup_nil, isDistinct, nofun⟩
  have noWrites target write (inside : write ∈ call.writes) :
      write.Sound host vaultId attested Past target := by
    rw [isEmpty] at inside
    cases inside
  cases query with
  | vault =>
    simp only [Import.read] at taken
    split at taken
    · cases taken
      exact ⟨{ sound.read with }, noWrites _, isDistinct, isEmpty, fun _ => isEarly rfl⟩
    · cases taken
      exact sound.moveTo ⟨isDistinct, isEmpty, fun _ => isEarly rfl⟩
  | deletion =>
    simp only [Import.read] at taken
    split at taken
    · rcases guarded taken with ⟨_, rfl⟩
      refine ⟨{ sound.read with currentRow := fun row isRow => ?_ }, noWrites _, isDistinct, isEmpty,
        fun _ => isEarly rfl⟩
      rw [isEarly rfl] at isRow
      cases isRow
    · cases taken
  | liveRows =>
    cases taken
    exact ⟨{ sound.read with }, noWrites _, isDistinct, isEmpty, fun _ => isEarly rfl⟩
  | copies =>
    cases taken
    refine ⟨{ sound.read with copies := fun row inside => ?_ }, noWrites _, isDistinct, isEmpty, fun _ => isEarly rfl⟩
    exact ⟨state, isPresent, find_of_mem inside⟩
  | referenced =>
    have isRead : ({ call.target with referenced := state.referencedKeyVersions } : ImportTarget Sealed).Read Past :=
      { sound.read with referenced := fun version inside => ⟨state, isPresent, inside⟩ }
    simp only [Import.read] at taken
    split at taken
    · cases taken
      exact ⟨isRead, noWrites _, isDistinct, isEmpty, fun _ => isEarly rfl⟩
    · rcases guarded taken with ⟨_, rfl⟩
      exact ⟨isRead, noWrites _, pending⟩
  | currentRow =>
    simp only [Import.read] at taken
    split at taken
    case h_1 row isRow =>
      cases taken
      refine ⟨{ sound.read with currentRow := fun read isRead => ?_ }, noWrites _, isDistinct, isEmpty,
        nofun⟩
      cases isRead
      exact ⟨⟨state, isPresent, by simp [KeyTables.row, isRow, Option.filter]⟩, rfl⟩
    case h_2 =>
      cases taken
      refine ⟨{ sound.read with currentRow := fun row isRow => ?_ }, noWrites _, isDistinct, isEmpty,
        nofun⟩
      rw [isEarly rfl] at isRow
      cases isRow
  | retiredVersions =>
    cases taken
    exact sound.moveTo ⟨isDistinct, isEmpty, nofun⟩
  | retiredRows versions =>
    cases versions with
    | nil =>
      rcases guarded taken with ⟨_, rfl⟩
      exact sound.moveTo pending
    | cons version versions =>
      cases taken
      refine ⟨{ sound.read with retired := fun row inside => ?_ }, noWrites _, isDistinct, isEmpty,
        nofun⟩
      rcases mem_append.mp inside with old | new
      · exact sound.read.retired row old
      · have isRow := Option.mem_toList.mp new
        exact ⟨state, isPresent, version_of_row isRow ▸ isRow⟩

theorem Import.Sound.consider {rest : List Candidate} (isPoint : call.point = .planning (candidate :: rest))
    (taken : call.consider host vaultId candidate rest = some next) : next.Sound host vaultId attested Past := by
  have point := sound.point
  unfold Import.PointSound at point
  simp only [isPoint] at point
  rcases Option.ite_none_left_eq_some.mp taken with ⟨_, taken⟩
  split at taken
  · cases taken
    refine sound.decide ?_ .refused
    exact ⟨point.distinct, (nodup_cons.mp point.undecided).2,
      fun write inside isLater => point.apart write inside (mem_cons_of_mem _ isLater)⟩
  case isFalse isKnown =>
    cases taken
    have isReferenced : candidate.version ∈ call.target.referenced := by
      simp only [Bool.or_eq_true, Bool.not_eq_true', not_or, Bool.not_eq_false] at isKnown
      simpa using isKnown.2
    refine sound.moveTo ⟨⟨point, isReferenced⟩, ?_⟩
    exact
      { done := ⟨[], rfl, List.Sublist.refl [], nofun⟩
        lost := nofun
        identical := nofun }

theorem Import.Sound.proven {rest : List Candidate} (deciding : Deciding call candidate rest)
    (writable : Writable host call.target candidate.version toWrite)
    (isProven : Proven host vaultId attested Past call.target candidate.version candidate.key)
    (provenance : Provenance) : (call.proven candidate provenance toWrite rest).Sound host vaultId attested Past := by
  unfold Import.proven
  split <;> exact sound.moveTo ⟨{ deciding with }, writable, isProven⟩

theorem Import.Sound.judge {rest : List Candidate} (isPoint : call.point = .probing candidate [] probe rest)
    (signed : Option Attestation) :
    (call.judge host vaultId candidate probe rest signed).Sound host vaultId attested Past := by
  have point := sound.point
  unfold Import.PointSound at point
  simp only [isPoint] at point
  rcases point with ⟨deciding, probed⟩
  rcases probed.done with ⟨done, isDone, isSublist, recorded⟩
  rw [append_nil] at isDone
  subst isDone
  have writable : Writable host call.target candidate.version probe.toWrite :=
    { slots := fun slot inside => isSublist.subset inside
      lost := probed.lost
      tables := (isSublist.map Slot.table).nodup (nodup_slots call.target candidate.version) }
  simp only [Import.judge]
  split
  · exact sound.decide deciding.rest .unchanged
  · split
    case isTrue isIdentical =>
      exact sound.proven deciding writable (.inl (probed.identical isIdentical)) _
    case isFalse =>
      split
      · exact sound.decide deciding.rest .needsSalvage
      case isFalse isConsistent =>
        split
        · exact sound.decide deciding.rest .needsSalvage
        · refine sound.moveTo ⟨{ deciding with }, writable, ?_⟩
          intro slot inside row check isRow isCheck
          have isListed := recorded slot inside row check isRow isCheck
          refine eq_of_keyCheckEquals ?_
          have noneDiffers := isConsistent
          simp only [any_eq_true, not_exists, not_and, Bool.not_eq_true', Bool.not_eq_false] at noneDiffers
          exact noneDiffers check isListed

theorem Import.Sound.prove (genuine : host.Genuine attested)
    (isOwn : forall entry, entry ∈ state.publicKeys -> host.ownsKey entry.2) {rest : List Candidate}
    (isPoint : call.point = .proving candidate toWrite rest) :
    (call.prove host vaultId state candidate toWrite rest).Sound host vaultId attested Past := by
  have point := sound.point
  unfold Import.PointSound at point
  simp only [isPoint] at point
  rcases point with ⟨deciding, writable, isConsistent⟩
  simp only [Import.prove]
  split
  case isTrue isValid =>
    exact sound.proven deciding writable (.inr ⟨attested_of_check genuine isOwn isValid, isConsistent⟩) _
  case isFalse => exact sound.decide deciding.rest .needsSalvage

end

section

variable {slot : Slot Sealed} (probed : Probed host Past target candidate (slot :: slots) probe) (checks : List Str)
  (isRecorded : forall row recorded, slot.row = some row -> row.keyCheck = some recorded -> recorded ∈ probe.recordedChecks ++ checks)

include probed checks isRecorded

theorem Probed.skip (isHeld : Exists fun past => Past past ∧ past.tables.Held host candidate.version candidate.key) :
    Probed host Past target candidate slots
      { probe with identical := true, recordedChecks := probe.recordedChecks ++ checks } := by
  rcases probed.done with ⟨done, isDone, isSublist, recorded⟩
  refine ⟨⟨done ++ [slot], by simp [isDone], isSublist.trans (sublist_append_left done [slot]), ?_⟩, probed.lost,
    fun _ => isHeld⟩
  intro other inside row check isRow isCheck
  rcases mem_append.mp inside with old | new
  · exact mem_append_left checks (recorded other old row check isRow isCheck)
  · rw [mem_singleton.mp new] at isRow
    exact isRecorded row check isRow isCheck

theorem Probed.collect (isLost : forall row, slot.row = some row -> host.unsealKey row.sealed = none) :
    Probed host Past target candidate slots
      { probe with toWrite := probe.toWrite ++ [slot], recordedChecks := probe.recordedChecks ++ checks } := by
  rcases probed.done with ⟨done, isDone, isSublist, recorded⟩
  refine ⟨⟨done ++ [slot], by simp [isDone], isSublist.append_right [slot], ?_⟩, ?_, probed.identical⟩
  · intro other inside row check isRow isCheck
    rcases mem_append.mp inside with old | new
    · exact mem_append_left checks (recorded other old row check isRow isCheck)
    · rw [mem_singleton.mp new] at isRow
      exact isRecorded row check isRow isCheck
  · exact Pool.forall_append probed.lost isLost

end

/-! ## Sealing -/

section Sealing

variable {candidate : Candidate} {provenance : Provenance} {pendingRotation : Bool} {toWrite : List (Slot Sealed)}
  {seals : List Sealed}

theorem map_slot_zipWith (sameLength : seals.length = toWrite.length) :
    (zipWith (fun slot sealed => slot.write candidate provenance pendingRotation sealed) toWrite seals).map
      slot = toWrite.map fun slot => (slot.table, candidate.version) := by
  induction toWrite generalizing seals with
  | nil => rfl
  | cons slot rest ih =>
    cases seals with
    | nil => cases sameLength
    | cons sealed others =>
      rw [zipWith_cons_cons, map_cons, map_cons, ih (Nat.succ.inj sameLength)]
      rfl

theorem mem_zipWith_write {write : SealedWrite Sealed}
    (inside : write ∈ zipWith (fun slot sealed => slot.write candidate provenance pendingRotation sealed) toWrite
      seals) :
    Exists fun slot => Exists fun sealed => slot ∈ toWrite ∧ sealed ∈ seals ∧
      write = slot.write candidate provenance pendingRotation sealed := by
  induction toWrite generalizing seals with
  | nil => cases inside
  | cons slot rest ih =>
    cases seals with
    | nil => cases inside
    | cons sealed others =>
      rcases mem_cons.mp inside with rfl | later
      · exact ⟨slot, sealed, mem_cons_self, mem_cons_self, rfl⟩
      · rcases ih later with ⟨other, bytes, isSlot, isSealed, rfl⟩
        exact ⟨other, bytes, mem_cons_of_mem slot isSlot, mem_cons_of_mem sealed isSealed, rfl⟩

theorem Import.Sound.restore (sound : call.Sound host vaultId attested Past) {rest : List Candidate}
    (deciding : Deciding call candidate rest) (writable : Writable host call.target candidate.version toWrite)
    (isProven : Proven host vaultId attested Past call.target candidate.version candidate.key)
    (sameLength : seals.length = toWrite.length)
    (unseals : forall sealed, sealed ∈ seals -> host.unsealKey sealed = some candidate.key) :
    Import.Sound host vaultId attested Past
      { call.decide candidate .restored rest with
        writes := call.writes ++ zipWith
          (fun slot sealed => slot.write candidate provenance pendingRotation sealed) toWrite seals } := by
  refine ⟨sound.read, fun write inside => ?_, ?_⟩
  · rcases mem_append.mp inside with old | new
    · exact sound.writes write old
    · rcases mem_zipWith_write new with ⟨slot, sealed, isSlot, isSealed, rfl⟩
      have isRead := sound.read.slot (writable.slots slot isSlot)
      exact
        { expected := congrArg (Option.map fun row : StoredKey Sealed => row.sealed) isRead
          lost := fun old isOld => by
            rcases Option.map_eq_some_iff.mp isOld with ⟨row, isRow, rfl⟩
            exact writable.lost slot isSlot row isRow
          referenced := deciding.referenced
          key := ⟨candidate.key, unseals sealed isSealed, isProven⟩ }
  · have isFresh := (nodup_cons.mp deciding.pending.undecided).1
    refine ⟨?_, (nodup_cons.mp deciding.pending.undecided).2, ?_⟩
    · rw [map_append, map_slot_zipWith sameLength, nodup_append]
      refine ⟨deciding.pending.distinct, ?_, ?_⟩
      · have isPaired : toWrite.map (fun slot => (slot.table, candidate.version)) =
            (toWrite.map Slot.table).map fun table => (table, candidate.version) := by
          rw [map_map]
          rfl
        rw [isPaired]
        exact writable.tables.map fun first second same => congrArg Prod.fst same
      · intro first isFirst second isSecond same
        rcases mem_map.mp isFirst with ⟨write, isWrite, rfl⟩
        rcases mem_map.mp isSecond with ⟨slot, _, rfl⟩
        have sameVersion : write.version = candidate.version := congrArg Prod.snd same
        exact deciding.pending.apart write isWrite (sameVersion ▸ mem_cons_self)
    · intro write inside isLater
      rcases mem_append.mp inside with old | new
      · exact deciding.pending.apart write old (mem_cons_of_mem _ isLater)
      · rcases mem_zipWith_write new with ⟨slot, sealed, _, _, rfl⟩
        exact isFresh isLater

end Sealing

/-! ## One step -/

variable [DecidableEq Sealed]

/-- What an import reads and plans in its next step is sound too. -/
theorem Import.Sound.advance (sound : call.Sound host vaultId attested Past) (genuine : host.Genuine attested)
    (isOwn : forall entry, entry ∈ state.publicKeys -> host.ownsKey entry.2) (isPresent : Past state)
    {signed : Option Attestation} {seals : List Sealed}
    (taken : call.advance host vaultId state signed seals = some (tables, some next)) :
    next.Sound host vaultId attested Past := by
  have point := sound.point
  unfold Import.PointSound at point
  unfold Import.advance at taken
  cases isPoint : call.point with
  | reading query candidates =>
    simp only [isPoint, Option.some.injEq, Prod.mk.injEq] at taken
    exact sound.readNext isPresent isPoint taken.2
  | planning candidates =>
    cases candidates with
    | nil =>
      simp only [isPoint] at taken point
      split at taken
      · cases taken
      split at taken
      · cases taken
        exact sound.moveTo point.distinct
      · cases taken
    | cons candidate rest =>
      simp only [isPoint, Option.some.injEq, Prod.mk.injEq] at taken
      exact sound.consider isPoint taken.2
  | probing candidate slots probe rest =>
    cases slots with
    | nil =>
      simp only [isPoint] at taken
      cases taken
      exact sound.judge isPoint signed
    | cons slot slots =>
      simp only [isPoint] at taken point
      rcases point with ⟨deciding, probed⟩
      split at taken
      case h_1 isNone =>
        cases taken
        have noRow row : slot.row ≠ some row := by simp [isNone]
        have probedNext := probed.collect [] (fun row recorded isRow => absurd isRow (noRow row))
          fun row isRow => absurd isRow (noRow row)
        rw [append_nil] at probedNext
        exact sound.moveTo ⟨{ deciding with }, probedNext⟩
      case h_2 row isRow =>
        have isRecorded other recorded (isOther : slot.row = some other)
            (isCheck : other.keyCheck = some recorded) :
            recorded ∈ probe.recordedChecks ++ row.keyCheck.toList := by
          cases isRow.symm.trans isOther
          simp [isCheck]
        split at taken
        case h_1 isLost =>
          cases taken
          refine sound.moveTo ⟨{ deciding with }, probed.collect _ isRecorded ?_⟩
          intro other isOther
          cases isRow.symm.trans isOther
          exact isLost
        case h_2 held unseals =>
          split at taken
          case isTrue isSame =>
            cases taken
            refine sound.moveTo ⟨{ deciding with }, probed.skip _ isRecorded ?_⟩
            rcases probed.done with ⟨done, isDone, _⟩
            have inside : slot ∈ call.target.slots candidate.version := by simp [isDone]
            have isRead := (sound.read.slot inside).symm.trans isRow
            rcases sound.read.row isRead with ⟨past, isPast, isStored⟩
            refine ⟨past, isPast, slot.table, row.sealed, ?_, isSame ▸ unseals⟩
            rw [KeyTables.sealedKey, isStored]
            rfl
          case isFalse => cases taken
  | proving candidate toWrite rest =>
    simp only [isPoint] at taken
    cases taken
    exact sound.prove genuine isOwn isPoint
  | filing candidate provenance toWrite rest =>
    simp only [isPoint] at taken point
    rcases point with ⟨deciding, writable, isProven⟩
    split at taken <;> cases taken <;>
      exact sound.moveTo ⟨{ deciding with }, writable, isProven⟩
  | asking candidate provenance toWrite rest =>
    simp only [isPoint] at taken point
    rcases point with ⟨deciding, writable, isProven⟩
    cases taken
    exact sound.moveTo ⟨{ deciding with }, writable, isProven⟩
  | sealing candidate provenance toWrite pendingRotation rest =>
    simp only [isPoint] at taken point
    rcases point with ⟨deciding, writable, isProven⟩
    rcases guarded taken with ⟨isSealed, ⟨⟩⟩
    refine sound.restore deciding writable isProven isSealed.1 fun sealed inside => ?_
    simpa using all_eq_true.mp isSealed.2 sealed inside
  | writing =>
    simp only [isPoint] at taken
    split at taken <;> cases taken

end Advance

/-! ## What a step changes -/

/-- A row that an import writes: its version is one that the records referenced, it was missing or held sealed bytes
that the import has found not to unseal, and its key is held for this version or attested. -/
structure Restores (host : Host Sealed) (vaultId : Nat) (attested : UInt64 -> UInt32 -> Str -> Prop)
    (Past : State Sealed -> Prop) (target : ImportTarget Sealed) (before : KeyTables Sealed) (table : SealedTable)
    (version : Nat) (row : StoredKey Sealed) : Prop where
  referenced : Exists fun past => Past past ∧ version ∈ past.referencedKeyVersions
  replaced : before.row table version = none ∨
    Exists fun old => Exists fun read => before.row table version = some old ∧ target.row table version = some read ∧
      read.sealed = old.sealed ∧ host.unsealKey old.sealed = none
  key : Exists fun key => host.unsealKey row.sealed = some key ∧
    (before.Held host version key ∨
      (attested (UInt64.ofNat vaultId) (UInt32.ofNat version) (host.keyCheck key vaultId version) ∧
        target.Consistent version (host.keyCheck key vaultId version)))

section Effects

variable {attested : UInt64 -> UInt32 -> Str -> Prop} {Past : State Sealed -> Prop}

/-- A row that unseals is not written. -/
theorem keeps_of_restores {before after : KeyTables Sealed} {target : ImportTarget Sealed}
    (restores : forall table version, after.row table version = before.row table version ∨
      Exists fun row => after.row table version = some row ∧
        Restores host vaultId attested Past target before table version row) : Keeps host before after := by
  have stays table version sealed (unseals : (host.unsealKey sealed).isSome)
      (isHeld : before.sealedKey table version = some sealed) : after.sealedKey table version = some sealed := by
    rcases restores table version with same | ⟨row, _, restored⟩
    · rwa [KeyTables.sealedKey, same]
    · rcases Option.map_eq_some_iff.mp isHeld with ⟨old, isOld, rfl⟩
      rcases restored.replaced with isNone | ⟨other, read, isOther, _, _, isLost⟩
      · cases isOld.symm.trans isNone
      · cases isOld.symm.trans isOther
        simp [isLost] at unseals
  refine ⟨fun version sealed unseals holds => ?_, fun version sealed => stays .deletionCopy version sealed⟩
  rcases holds with isCurrent | isRetired
  · exact .inl (stays .current version sealed unseals isCurrent)
  · exact .inr (stays .retired version sealed unseals isRetired)

variable [DecidableEq Sealed] {state : State Sealed} {call : Import Sealed}
  {result : KeyTables Sealed × Option (Import Sealed)} {signed : Option Attestation} {seals : List Sealed}

/-- An import writes at its end or not at all; before that it may record the provenance of rows it unseals. -/
theorem advance_tables (taken : call.advance host vaultId state signed seals = some result) :
    RecordsOnly host vaultId state.tables result.1 ∨
      (call.point = .writing ∧ result.2 = none ∧ writeImported state.tables call.writes = some result.1) := by
  have same : RecordsOnly host vaultId state.tables state.tables := recordsOnly_refl state.tables
  unfold Import.advance at taken
  cases isPoint : call.point <;> simp only [isPoint] at taken
  case reading | proving | asking =>
    cases taken
    exact .inl same
  case planning candidates =>
    cases candidates with
    | nil =>
      simp only at taken
      split at taken
      · cases taken
        exact .inl same
      · split at taken <;> cases taken <;> exact .inl same
    | cons candidate rest =>
      simp only at taken
      cases taken
      exact .inl same
  case probing candidate slots probe rest =>
    cases slots with
    | nil =>
      simp only at taken
      cases taken
      exact .inl same
    | cons slot slots =>
      simp only at taken
      split at taken
      · cases taken
        exact .inl same
      · split at taken
        · cases taken
          exact .inl same
        case h_2 held unseals =>
          split at taken <;> cases taken <;> exact .inl (recordsOnly_backfill unseals signed)
  case filing =>
    split at taken <;> cases taken <;> exact .inl same
  case sealing =>
    rcases guarded taken with ⟨_, rfl⟩
    exact .inl same
  case writing =>
    split at taken
    · cases taken
      exact .inl same
    case h_2 tables isWritten =>
      cases taken
      exact .inr ⟨rfl, rfl, isWritten⟩

theorem Import.Sound.restores (sound : call.Sound host vaultId attested Past)
    (keeps : forall past, Past past -> Keeps host past.tables state.tables) {after : KeyTables Sealed}
    (isPoint : call.point = .writing) (written : writeImported state.tables call.writes = some after)
    (table : SealedTable) (version : Nat) :
    after.row table version = state.tables.row table version ∨
      Exists fun row => after.row table version = some row ∧
        Restores host vaultId attested Past call.target state.tables table version row := by
  have distinct := sound.point
  unfold Import.PointSound at distinct
  simp only [isPoint] at distinct
  rcases row_writeImported distinct written table version with same | ⟨write, inside, isSlot, isHeld, isWritten⟩
  · exact .inl same
  · refine .inr ⟨write.stored, isWritten, ?_⟩
    cases isSlot
    have isSound := sound.writes write inside
    refine ⟨sound.read.referenced write.version isSound.referenced, ?_, ?_⟩
    · cases isRow : state.tables.row write.table write.version with
      | none => exact .inl rfl
      | some old =>
        have isOld : write.expected = some old.sealed := by
          rw [← isHeld, KeyTables.sealedKey, isRow]
          rfl
        rcases Option.map_eq_some_iff.mp (isSound.expected.symm.trans isOld) with ⟨read, isRead, sameBytes⟩
        exact .inr ⟨old, read, rfl, isRead, sameBytes, isSound.lost old.sealed isOld⟩
    · rcases isSound.key with ⟨key, unseals, ⟨past, isPast, held⟩ | isAttested⟩
      · exact ⟨key, unseals, .inl ((keeps past isPast).held held)⟩
      · exact ⟨key, unseals, .inr isAttested⟩

theorem Import.Sound.keeps (sound : call.Sound host vaultId attested Past)
    (keeps : forall past, Past past -> Keeps host past.tables state.tables)
    (taken : call.advance host vaultId state signed seals = some result) : Keeps host state.tables result.1 := by
  rcases advance_tables taken with records | ⟨isPoint, _, written⟩
  · exact records.keeps
  · exact keeps_of_restores (sound.restores keeps isPoint written)

end Effects

/-! ## Runs -/

section Runs

variable {attested : UInt64 -> UInt32 -> Str -> Prop} {initial state next : State Sealed}
  {labels : List (Label Sealed)} {label : Label Sealed}

structure Sound (host : Host Sealed) (vaultId : Nat) (attested : UInt64 -> UInt32 -> Str -> Prop)
    (Past : State Sealed -> Prop) (state : State Sealed) : Prop where
  keeps : forall past, Past past -> Keeps host past.tables state.tables
  publicKeys : forall entry, entry ∈ state.publicKeys -> host.ownsKey entry.2 = true
  calls : forall call, call ∈ state.calls -> call.Sound host vaultId attested Past

variable {Past : State Sealed -> Prop}

theorem sound_begin {document : Json} {confirmName : Option Str} {call : Import Sealed}
    (begun : Import.begin host vaultId document confirmName = some call) : call.Sound host vaultId attested Past := by
  unfold Import.begin at begun
  split at begun
  · cases begun
  case h_2 candidates isRead =>
    rcases unguarded begun with ⟨_, rfl⟩
    exact ⟨⟨nofun, nofun, nofun, nofun⟩, nofun, (wellFormed_candidatesFrom isRead).versions, rfl, fun _ => rfl⟩

variable [DecidableEq Sealed]

/-- A step keeps the keys of rows that unseal, and leaves the signing keys and the imports sound. -/
theorem Sound.step (sound : Sound host vaultId attested Past state)
    (genuine : host.Genuine attested) (isPresent : Past state) (taken : state.step host vaultId label = some next) :
    Keeps host state.tables next.tables ∧ (forall entry, entry ∈ next.publicKeys -> host.ownsKey entry.2) ∧
      forall call, call ∈ next.calls -> call.Sound host vaultId attested Past := by
  unfold State.step at taken
  cases label with
  | importKeys document confirmName =>
    cases taken
    refine ⟨.refl state.tables, sound.publicKeys, fun call inside => ?_⟩
    rcases mem_append.mp inside with old | new
    · exact sound.calls call old
    · exact sound_begin (Option.mem_toList.mp new)
  | environment =>
    cases taken
    exact ⟨.refl state.tables, sound.publicKeys, sound.calls⟩
  | advance index signed seals =>
    dsimp only at taken
    split at taken
    · cases taken
    case h_2 call isCall =>
      rcases Option.map_eq_some_iff.mp taken with ⟨⟨tables, moved⟩, isResult, rfl⟩
      have isSound := sound.calls call (mem_of_getElem? isCall)
      refine ⟨isSound.keeps sound.keeps isResult, sound.publicKeys, ?_⟩
      refine Pool.forall_move sound.calls fun moved isMoved => ?_
      cases isMoved
      exact isSound.advance genuine sound.publicKeys isPresent isResult
  | rotateVaultKey sealed expected provenance outgoing closePrior closeOutgoing =>
    cases taken
    refine ⟨?_, sound.publicKeys, sound.calls⟩
    cases isRotated : state.tables.rotateVaultKey sealed expected provenance outgoing closePrior closeOutgoing with
    | none => exact .refl state.tables
    | some after => exact keeps_rotateVaultKey isRotated
  | markKeyRotationFinished =>
    cases taken
    exact ⟨keeps_of_sealedKey (sealedKey_markKeyRotationFinished state.tables), sound.publicKeys, sound.calls⟩
  | addVaultKey sealed provenance =>
    cases taken
    refine ⟨?_, sound.publicKeys, sound.calls⟩
    cases isAdded : state.tables.addVaultKey sealed provenance with
    | none => exact .refl state.tables
    | some after => exact keeps_addVaultKey isAdded
  | unsealRow table version signed =>
    dsimp only at taken
    split at taken
    · cases taken
    case h_2 row isRow =>
      rcases Option.map_eq_some_iff.mp taken with ⟨key, unseals, rfl⟩
      have records : RecordsOnly host vaultId state.tables (backfill host vaultId state.tables row key signed) :=
        recordsOnly_backfill unseals signed
      exact ⟨records.keeps, sound.publicKeys, sound.calls⟩
  | addSigningKey keyId publicKey =>
    rcases guarded taken with ⟨isOwn, rfl⟩
    exact ⟨.refl state.tables, Pool.forall_append sound.publicKeys isOwn.1, sound.calls⟩

theorem sound_of_run (genuine : host.Genuine attested)
    (isOwn : forall entry, entry ∈ initial.publicKeys -> host.ownsKey entry.2) (isQuiet : initial.calls = [])
    (reached : run (State.step host vaultId) initial labels = some state) :
    Sound host vaultId attested (Visits (State.step host vaultId) initial labels) state := by
  refine run_extend
    (fun labels state => Sound host vaultId attested (Visits (State.step host vaultId) initial labels) state) ?_ ?_
    reached
  · refine ⟨fun past isPast => ?_, isOwn, fun call inside => ?_⟩
    · rcases isPast with ⟨earlier, isPrefix, isReached⟩
      rw [prefix_nil.mp isPrefix] at isReached
      cases isReached
      exact .refl initial.tables
    · rw [isQuiet] at inside
      cases inside
  · intro labels state label next reached taken sound
    rcases sound.step genuine (visits_end reached) taken with ⟨keepsNext, publicKeys, calls⟩
    refine ⟨fun past isPast => ?_, publicKeys, fun call inside => ?_⟩
    · rcases visits_append_singleton reached taken isPast with before | rfl
      · exact (sound.keeps past before).trans keepsNext
      · exact .refl past.tables
    · exact (calls call inside).mono fun past visits => visits.append [label]

/-- An import replaces and forges no key.  At any moment of any run a row that has ever unsealed still has its key, and
the next step of an import either changes nothing but the recorded provenance of rows it unseals, or is its last one
and writes rows of referenced versions, over nothing or over what it has found not to unseal, with keys that this host
holds or this node has attested. -/
theorem import_never_replaces_key (genuine : host.Genuine attested)
    (isOwn : forall entry, entry ∈ initial.publicKeys -> host.ownsKey entry.2 = true) (isQuiet : initial.calls = [])
    (reached : run (State.step host vaultId) initial labels = some state) :
    (forall past, Visits (State.step host vaultId) initial labels past -> Keeps host past.tables state.tables) ∧
      forall (index : Nat) (call : Import Sealed) (signed : Option Attestation) (seals : List Sealed)
        (result : KeyTables Sealed × Option (Import Sealed)), state.calls[index]? = some call ->
        call.advance host vaultId state signed seals = some result ->
          RecordsOnly host vaultId state.tables result.1 ∨
            (result.2 = none ∧ forall table version,
              result.1.row table version = state.tables.row table version ∨
                Exists fun row => result.1.row table version = some row ∧
                  Restores host vaultId attested (Visits (State.step host vaultId) initial labels) call.target
                    state.tables table version row) := by
  have sound := sound_of_run genuine isOwn isQuiet reached
  refine ⟨sound.keeps, fun index call signed seals result isCall taken => ?_⟩
  rcases advance_tables taken with records | ⟨isPoint, isLast, written⟩
  · exact .inl records
  · have isSound := sound.calls call (mem_of_getElem? isCall)
    exact .inr ⟨isLast, isSound.restores sound.keeps isPoint written⟩

end Runs

/-! ## Imports of one key -/

/-- Every sealed key but the zero one unseals, and the node has attested one key of vault 7. -/
def sampleHost : Host Nat where
  nodeId := str "node"
  unsealKey sealed := if sealed = 0 then none else some (replicate 32 (UInt8.ofNat sealed))
  keyCheck key _ _ := replicate 32 (48 + key.headD 0)
  verify _ text _ := message (str "node") 7 1 (replicate 32 53) == some text
  ownsKey _ := true
  decode := some

def sampleAttested (vaultId : UInt64) (version : UInt32) (check : Str) : Prop :=
  vaultId = 7 ∧ version = 1 ∧ check = replicate 32 53

theorem sampleHost_genuine : sampleHost.Genuine sampleAttested := by
  intro publicKey text signature _ verifies
  simp only [Host.verifySignature, Bool.and_eq_true] at verifies
  exact ⟨7, 1, replicate 32 53, ⟨rfl, rfl, rfl⟩, eq_of_beq verifies.2⟩

/-- An export of the key of version 1, with its attestation. -/
def sampleDocument : Json :=
  .object
    [(str "vault_id", .unsigned 7), (str "key", .string (replicate 32 5)),
      (str "key_info", .object [(str "key_version", .unsigned 1)]),
      (str "attestation", .object [(str "key_id", .unsigned 1), (str "signature", .string (replicate 64 0))])]

/-- A vault with one key row, and nothing recorded about it. -/
def oneRow (sealed : Nat) : State Nat where
  tables :=
    { current := some { version := 1, sealed := sealed, keyCheck := none, attestation := none }
      retired := empty
      copies := empty }
  vault := .live (str "docs")
  files := [1]
  retained := []
  publicKeys := [(1, replicate 32 0)]
  calls := []

/-- The import until it has planned to write the row that does not unseal. -/
def untilWritten : List (Label Nat) :=
  [.importKeys sampleDocument (some (str "docs"))] ++ replicate 9 (.advance 0 none []) ++
    [.advance 0 none [5], .advance 0 none []]

theorem import_never_replaces_key_lost :
    Exists fun state : State Nat => Exists fun call => Exists fun result =>
      run (State.step sampleHost 7) (oneRow 0) untilWritten = some state ∧ state.calls[0]? = some call ∧
        call.advance sampleHost 7 state none [] = some result ∧ result.1.sealedKey .current 1 = some 5 ∧
        (RecordsOnly sampleHost 7 state.tables result.1 ∨
          (result.2 = none ∧ forall table version,
            result.1.row table version = state.tables.row table version ∨
              Exists fun row => result.1.row table version = some row ∧
                Restores sampleHost 7 sampleAttested (Visits (State.step sampleHost 7) (oneRow 0) untilWritten)
                  call.target state.tables table version row)) := by
  have evaluated : ((run (State.step sampleHost 7) (oneRow 0) untilWritten).bind fun state =>
      state.calls[0]?.bind fun call => (call.advance sampleHost 7 state none []).map fun result =>
        result.1.sealedKey .current 1) = some (some 5) := by decide +kernel
  rcases Option.bind_eq_some_iff.mp evaluated with ⟨state, reached, evaluated⟩
  rcases Option.bind_eq_some_iff.mp evaluated with ⟨call, isCall, evaluated⟩
  rcases Option.map_eq_some_iff.mp evaluated with ⟨result, taken, isRestored⟩
  have holds := import_never_replaces_key sampleHost_genuine (fun _ _ => rfl) rfl reached
  exact ⟨state, call, result, reached, isCall, taken, isRestored, holds.2 0 call none [] result isCall taken⟩

/-- An import of a key that the host holds records the key check of its row, which unseals: the key row is changed,
though not its key. -/
theorem import_records_provenance :
    Exists fun final : State Nat =>
      run (State.step sampleHost 7) (oneRow 5)
        ([.importKeys sampleDocument none] ++ replicate 9 (.advance 0 none [])) = some final ∧
        final.calls = [] ∧ ((oneRow 5).tables.sealedKey .current 1).bind sampleHost.unsealKey ≠ none ∧
        final.tables.row .current 1 ≠ (oneRow 5).tables.row .current 1 := by
  have evaluated : (run (State.step sampleHost 7) (oneRow 5)
      ([.importKeys sampleDocument none] ++ replicate 9 (.advance 0 none []))).map
        (fun final => (final.calls, (final.tables.row .current 1).bind (·.keyCheck))) =
      some ([], some (replicate 32 53)) := by decide +kernel
  rcases Option.map_eq_some_iff.mp evaluated with ⟨final, reached, isFinal⟩
  simp only [Prod.mk.injEq] at isFinal
  refine ⟨final, reached, isFinal.1, by decide, fun same => ?_⟩
  have isUnrecorded : ((oneRow 5).tables.row .current 1).bind (·.keyCheck) = none := by decide
  rw [same, isUnrecorded] at isFinal
  cases isFinal.2

end KeyImport
end Vault
end Vaulthalla
