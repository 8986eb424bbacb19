import Vaulthalla.Foundation.Transition
import Vaulthalla.Vault.KeyCalls

namespace Vaulthalla
namespace Vault
namespace KeyCalls

open Foundation KeyRotation Transition Pool Manager Option

/-!
# Agreement of the key rows and the memory

Between the calls on its keys a vault should have at most one pending rotation,
from the version before the current one, and its manager should hold the keys
of the rows.  No call keeps others out between the transaction in which it
reads the rows and the one in which it changes them, nor between that and its
change of the memory: two `prepare_key_rotation` calls that both find no pending
rotation leave two of them.

When a call changes the rows while no other is under way, and none begins
until it has returned, the agreement holds whenever all calls have returned.  A
running manager must then also find every version of its files when it loads
its keys after an import or a salvage.
-/

variable {Key Sealed : Type}

/-! ## What agrees -/

/-- The memory of a manager is what the rows say. -/
structure Agrees (unsealKey : Sealed -> Option Key) (rows : KeyRows Sealed) (manager : Manager Key) : Prop where
  current : Exists fun row => rows.current = some row ∧ manager.version = row.version ∧
    unsealKey row.sealed = some manager.key
  rotating : manager.rotating = rows.keyRotationInProgress
  outgoing : manager.outgoing = rows.pending.head?.bind fun row => unsealKey row.sealed
  held : forall row, row ∈ rows.pending -> (unsealKey row.sealed).isSome = true

structure State.Agreed (unsealKey : Sealed -> Option Key) (state : State Key Sealed) : Prop where
  single : state.rows.pending.length ≤ 1
  before : forall row, row ∈ state.rows.pending -> row.version + 1 = state.currentVersion
  memory : forall manager, state.memory = some manager -> Agrees unsealKey state.rows manager

/-- The manager resolves the current and the pending version to the keys of their rows. -/
def State.Readable (unsealKey : Sealed -> Option Key) (state : State Key Sealed) : Prop :=
  forall manager, state.memory = some manager -> forall row : KeyRow Sealed,
    state.rows.current = some row ∨ (Exists fun retired => retired ∈ state.rows.pending ∧ retired.toKeyRow = row) ->
      Exists fun key => unsealKey row.sealed = some key ∧ manager.keySnapshot row.version = some key

variable {unsealKey : Sealed -> Option Key}

theorem State.Agreed.readable {state : State Key Sealed} (agreed : state.Agreed unsealKey) :
    state.Readable unsealKey := by
  intro manager isManager row isRow
  have agrees := agreed.memory manager isManager
  rcases agrees.current with ⟨current, isCurrent, isVersion, isKey⟩
  have isRotating := agrees.rotating
  rw [keyRotationInProgress_eq] at isRotating
  have isOutgoing := agrees.outgoing
  rcases isRow with isSame | ⟨retired, isPending, rfl⟩
  · cases isCurrent.symm.trans isSame
    refine ⟨manager.key, isKey, ?_⟩
    cases isList : state.rows.pending with
    | nil => simp [keySnapshot, isRotating, isList, isVersion]
    | cons first rest =>
      have isHeld := agrees.held first (by simp [isList])
      rcases isSome_iff_exists.mp isHeld with ⟨outgoing, unseals⟩
      simp [keySnapshot, isRotating, isList, isVersion, isOutgoing, unseals]
  · rcases List.mem_iff_getElem?.mp isPending with ⟨place, isThere⟩
    have isAlone := (eq_singleton agreed.single isThere).1
    rcases isSome_iff_exists.mp (agrees.held retired isPending) with ⟨outgoing, unseals⟩
    refine ⟨outgoing, unseals, ?_⟩
    have isBefore : retired.version + 1 = manager.version := by
      rw [agreed.before retired isPending, State.currentVersion, isCurrent, isVersion]
    simp [keySnapshot, isRotating, isAlone, isOutgoing, unseals, ← isBefore]

/-! ## The condition -/

/-- The call has changed the rows and has not returned. -/
def Call.changed : Call Key Sealed -> Bool
  | .prepare (.rotated _ _) => true
  | .finish .marked => true
  | .load changed _ _ => changed
  | _ => false

/-- The next step of the call may change the rows. -/
def Call.writes : Call Key Sealed -> Bool
  | .prepare (.ready _ _ _) => true
  | .finish .asked => true
  | .importKeys (.planned _) => true
  | _ => false

/-- The import finds the rows changed, and writes nothing. -/
def Call.refused [DecidableEq Sealed] (rows : KeyRows Sealed) : Call Key Sealed -> Bool
  | .importKeys (.planned writes) => (writeImported rows writes).isNone
  | _ => false

variable (state : State Key Sealed)

/-- A running manager that loads the keys of changed rows finds the next version. -/
def Call.finds : Call Key Sealed -> Bool
  | .load true _ (.checking manager salvaged (version :: _)) =>
    state.memory.isNone || state.holdsVersion manager salvaged version
  | _ => true

/-- A call changes the rows alone, and none begins until it has returned but those that return at once. -/
def State.undisturbed [DecidableEq Sealed] (label : Label Key Sealed) : Bool :=
  match label with
  | .prepare _ _ => state.rows.keyRotationInProgress || state.calls.all fun call => !call.changed
  | .finish => !state.rows.keyRotationInProgress || state.calls.all fun call => !call.changed
  | .load | .importKeys _ | .salvage => state.calls.all fun call => !call.changed
  | .advance index =>
    match state.calls[index]? with
    | none => true
    | some call => (!call.writes || call.refused state.rows || state.calls.length == 1) && call.finds state
  | .mint _ _ _ => state.calls.length == 1
  | .environment _ _ _ => true

/-! ## The rows -/

/-- The rows of a vault with the given current version and file versions. -/
structure RowsSound (rows : KeyRows Sealed) (current : Nat) (files : List Nat) : Prop where
  single : rows.pending.length ≤ 1
  before : forall row, row ∈ rows.pending -> row.version + 1 = current
  /-- A pending rotation of a vault without a key row has files to rotate, so that no first key is made. -/
  sealed : rows.current = none -> rows.pending ≠ [] -> files ≠ []

variable {current : Nat} {files : List Nat} {rows : KeyRows Sealed}

theorem rowsSound_of_pending_nil (isEmpty : rows.pending = []) : RowsSound rows current files where
  single := by simp [isEmpty]
  before := by simp [isEmpty]
  sealed := by simp [isEmpty]

theorem rowsSound_of_pending_single {row : KeyRow Sealed} {retired : RetiredRow Sealed}
    (isCurrent : rows.current = some row) (isPending : rows.pending = [retired])
    (isBefore : retired.version + 1 = current) : RowsSound rows current files where
  single := by simp [isPending]
  before := by simp [isPending, isBefore]
  sealed := by simp [isCurrent]

/-- What a running manager loads unseals. -/
structure Loadable (unsealKey : Sealed -> Option Key) (rows : KeyRows Sealed) : Prop where
  current : Exists fun row => rows.current = some row ∧ (unsealKey row.sealed).isSome = true
  pending : forall row, row ∈ rows.pending -> (unsealKey row.sealed).isSome = true

theorem Agrees.loadable {manager : Manager Key} (agrees : Agrees unsealKey rows manager) : Loadable unsealKey rows := by
  rcases agrees.current with ⟨row, isRow, _, unseals⟩
  exact ⟨⟨row, isRow, by simp [unseals]⟩, agrees.held⟩

/-! ## Imported rows -/

/-- A write that an import plans for a vault with the given current version. -/
structure SealedWrite.Sound (unsealKey : Sealed -> Option Key) (current : Nat) (backed : Prop)
    (write : SealedWrite Sealed) : Prop where
  inCurrent : write.table = .current -> write.version = current
  inRetired : write.table = .retired -> write.version < current
  pending : write.rotationPending = true -> write.version + 1 = current ∧ backed
  unseals : (unsealKey write.sealed).isSome = true

theorem highest_append (first second : List Nat) : highest (first ++ second) = max (highest first) (highest second) := by
  induction first with
  | nil => simp [highest]
  | cons version rest ih =>
    have unfolded : highest (version :: (rest ++ second)) = max version (highest (rest ++ second)) := rfl
    rw [List.cons_append, unfolded, ih, ← Nat.max_assoc]
    rfl

theorem highest_singleton (version : Nat) : highest [version] = version :=
  Nat.max_zero version

def State.withRows (rows : KeyRows Sealed) : State Key Sealed :=
  { state with rows := rows }

/-- What the transaction of an import keeps. -/
structure Imported (unsealKey : Sealed -> Option Key) (state : State Key Sealed) (current : Nat)
    (rows : KeyRows Sealed) : Prop where
  sound : RowsSound rows current state.files
  version : (state.withRows rows).currentVersion = current
  loadable : state.memory.isSome = true -> Loadable unsealKey rows

section Writes

variable {state : State Key Sealed} {current : Nat} {rows after : KeyRows Sealed} {write : SealedWrite Sealed}

/-- A new current row, in place of one of the same version or of none. -/
theorem Imported.setCurrent (imported : Imported unsealKey state current rows) {row : KeyRow Sealed}
    (isVersion : row.version = current) (unseals : (unsealKey row.sealed).isSome) :
    Imported unsealKey state current { rows with current := some row } where
  sound := { imported.sound with sealed := nofun }
  version := isVersion
  loadable := fun isRunning => ⟨⟨row, rfl, unseals⟩, (imported.loadable isRunning).pending⟩

theorem currentVersion_of_current {row : KeyRow Sealed} (isRow : state.rows.current = some row) :
    state.currentVersion = row.version := by
  simp [State.currentVersion, isRow]

theorem currentVersion_of_none (isNone : state.rows.current = none) :
    state.currentVersion = highest state.referencedKeyVersions := by
  simp [State.currentVersion, isNone]

/-- Another seal of a retired key. -/
theorem Imported.reseal (imported : Imported unsealKey state current rows)
    {reseal : RetiredRow Sealed -> RetiredRow Sealed} (isVersion : forall row, (reseal row).version = row.version)
    (isPending : forall row, (reseal row).pending = row.pending)
    (unseals : forall row, (unsealKey row.sealed).isSome -> (unsealKey (reseal row).sealed).isSome) :
    Imported unsealKey state current { rows with retired := rows.retired.map reseal } := by
  have isFiltered : ({ rows with retired := rows.retired.map reseal } : KeyRows Sealed).pending =
      rows.pending.map reseal := by
    have sameFlag : RetiredRow.pending ∘ reseal = RetiredRow.pending := funext isPending
    simp only [KeyRows.pending, List.filter_map, sameFlag]
  refine ⟨⟨?_, ?_, ?_⟩, ?_, fun isRunning => ⟨(imported.loadable isRunning).current, ?_⟩⟩
  · rw [isFiltered, List.length_map]
    exact imported.sound.single
  · rw [isFiltered]
    intro row inside
    rcases List.mem_map.mp inside with ⟨old, isOld, rfl⟩
    rw [isVersion]
    exact imported.sound.before old isOld
  · rw [isFiltered]
    intro isNone isSome
    exact imported.sound.sealed isNone fun isEmpty => isSome (by rw [isEmpty, List.map_nil])
  · rw [← imported.version]
    simp [State.currentVersion, State.referencedKeyVersions, State.withRows, Function.comp_def, isVersion]
  · rw [isFiltered]
    intro row inside
    rcases List.mem_map.mp inside with ⟨old, isOld, rfl⟩
    exact unseals old ((imported.loadable isRunning).pending old isOld)

variable {row : RetiredRow Sealed}

section

variable (imported : Imported unsealKey state current rows) (isBelow : row.version < current)

include imported isBelow

/-- A further retired version below the current one leaves the highest version as it is. -/
theorem Imported.version_retire :
    (state.withRows { rows with retired := rows.retired ++ [row] }).currentVersion = current := by
  have isVersion := imported.version
  cases isCurrent : rows.current with
  | some held =>
    rw [currentVersion_of_current isCurrent] at isVersion
    rw [currentVersion_of_current rfl, isVersion]
  | none =>
    rw [currentVersion_of_none isCurrent] at isVersion
    rw [currentVersion_of_none rfl]
    simp only [State.referencedKeyVersions, State.withRows, isCurrent, List.map_append, highest_append,
      List.map_cons, List.map_nil, highest_singleton] at isVersion ⊢
    omega

theorem Imported.retire (isNew : rows.hasRetiredKeyVersion row.version = false)
    (isNext : row.pending -> row.version + 1 = current ∧ (rows.current = none -> state.files ≠ []))
    (unseals : (unsealKey row.sealed).isSome) :
    Imported unsealKey state current { rows with retired := rows.retired ++ [row] } := by
  have isPending : ({ rows with retired := rows.retired ++ [row] } : KeyRows Sealed).pending =
      rows.pending ++ [row].filter RetiredRow.pending := by simp [KeyRows.pending]
  have isVersion := imported.version_retire isBelow
  cases isMarked : row.pending with
  | false =>
    simp only [List.filter_cons, isMarked, Bool.false_eq_true, if_false, List.filter_nil, List.append_nil] at isPending
    refine ⟨⟨?_, ?_, ?_⟩, isVersion, fun isRunning => ⟨(imported.loadable isRunning).current, ?_⟩⟩
    all_goals rw [isPending]
    · exact imported.sound.single
    · exact imported.sound.before
    · exact imported.sound.sealed
    · exact (imported.loadable isRunning).pending
  | true =>
    rcases isNext isMarked with ⟨isBefore, isBacked⟩
    -- a pending row would be the retired row of this version
    have isEmpty : rows.pending = [] := by
      refine List.eq_nil_iff_forall_not_mem.mpr fun other isOther => ?_
      have isSame : other.version = row.version := Nat.succ.inj ((imported.sound.before other isOther).trans isBefore.symm)
      have isFound : rows.hasRetiredKeyVersion row.version :=
        List.any_eq_true.mpr ⟨other, List.mem_of_mem_filter isOther, by simp [isSame]⟩
      rw [isNew] at isFound
      cases isFound
    simp only [List.filter_cons, isMarked, if_true, List.filter_nil, isEmpty, List.nil_append] at isPending
    refine ⟨⟨?_, ?_, ?_⟩, isVersion, fun isRunning => ⟨(imported.loadable isRunning).current, ?_⟩⟩
    all_goals rw [isPending]
    · exact Nat.le_refl 1
    · intro other isOther
      rw [List.mem_singleton.mp isOther]
      exact isBefore
    · exact fun isNone _ => isBacked isNone
    · intro other isOther
      rw [List.mem_singleton.mp isOther]
      exact unseals

end

variable [DecidableEq Sealed]

theorem Imported.writeSealed (imported : Imported unsealKey state current rows)
    (sound : write.Sound unsealKey current (state.rows.current = none -> state.files ≠ []))
    (isCurrent : rows.current = none -> state.rows.current = none) (taken : KeyCalls.writeSealed rows write = some after) :
    Imported unsealKey state current after ∧ (after.current = none -> state.rows.current = none) := by
  unfold KeyCalls.writeSealed at taken
  split at taken
  case h_1 old isTable isExpected =>
    rcases guarded taken with ⟨_, rfl⟩
    exact ⟨imported.setCurrent (sound.inCurrent isTable) sound.unseals, nofun⟩
  case h_2 isTable isExpected =>
    rcases guarded taken with ⟨_, rfl⟩
    exact ⟨imported.setCurrent (sound.inCurrent isTable) sound.unseals, nofun⟩
  case h_3 old isTable isExpected =>
    rcases guarded taken with ⟨_, rfl⟩
    refine ⟨imported.reseal (fun row => ?_) (fun row => ?_) (fun row unseals => ?_), isCurrent⟩
    · split <;> rfl
    · split <;> rfl
    · split
      · exact sound.unseals
      · exact unseals
  case h_4 isTable isExpected =>
    rcases unguarded taken with ⟨isNew, rfl⟩
    refine ⟨imported.retire (sound.inRetired isTable) (by simpa using isNew) (fun isPending => ?_) sound.unseals,
      isCurrent⟩
    exact ⟨(sound.pending isPending).1, fun isNone => (sound.pending isPending).2 (isCurrent isNone)⟩

theorem Imported.writeImported {writes : List (SealedWrite Sealed)} (imported : Imported unsealKey state current rows)
    (sound : forall write, write ∈ writes ->
      write.Sound unsealKey current (state.rows.current = none -> state.files ≠ []))
    (isCurrent : rows.current = none -> state.rows.current = none)
    (taken : KeyCalls.writeImported rows writes = some after) : Imported unsealKey state current after := by
  induction writes generalizing rows with
  | nil =>
    cases taken
    exact imported
  | cons write rest ih =>
    rcases bind_eq_some_iff.mp taken with ⟨next, first, later⟩
    rcases imported.writeSealed (sound write List.mem_cons_self) isCurrent first with ⟨importedNext, isCurrentNext⟩
    exact ih importedNext (fun other isOther => sound other (List.mem_cons_of_mem write isOther))
      isCurrentNext later

end Writes

/-! ## Positions -/

/-- What a `load_key` call has read is still so. -/
def LoadPoint.Sound (unsealKey : Sealed -> Option Key) (rows : KeyRows Sealed) : LoadPoint Key -> Prop
  | .called => True
  | .asked rotating | .stored rotating => rotating = rows.keyRotationInProgress
  | .missing => rows.current = none
  | .minting => rows.current = none ∧ rows.pending = []
  | .found rotating version key =>
    rotating = rows.keyRotationInProgress ∧
      Exists fun row => rows.current = some row ∧ version = row.version ∧ unsealKey row.sealed = some key
  | .unsealed manager | .exempted manager _ | .checking manager _ _ => Agrees unsealKey rows manager

/-- A candidate in its place, below the current version or at it. -/
structure Candidate.Fits (current : Nat) (candidate : Candidate Key Sealed) (table : SealedTable) : Prop where
  inCurrent : table = .current -> candidate.version = current
  inRetired : table = .retired -> candidate.version < current

def Unseals (unsealKey : Sealed -> Option Key) (candidates : List (Candidate Key Sealed)) : Prop :=
  forall candidate, candidate ∈ candidates -> (unsealKey candidate.sealed).isSome = true

section

variable (unsealKey : Sealed -> Option Key) (rows : KeyRows Sealed)

/-- What an import has read is still so.  Its plan marks a version as pending only
when the vault is backed: it has a key row, or files. -/
def ImportPoint.Sound (current : Nat) (backed : Prop) :
    ImportPoint Key Sealed -> Prop
  | .called candidates => Unseals unsealKey candidates
  | .listed candidates referenced =>
    Unseals unsealKey candidates ∧ (rows.current = none -> highest referenced = current)
  | .located candidates _ version _ => Unseals unsealKey candidates ∧ version = current
  | .planning target candidates writes =>
    Unseals unsealKey candidates ∧ target.current = current ∧
      forall write, write ∈ writes -> write.Sound unsealKey current backed
  | .asking target candidate table _ candidates writes =>
    Unseals unsealKey (candidate :: candidates) ∧ target.current = current ∧
      (forall write, write ∈ writes -> write.Sound unsealKey current backed) ∧ candidate.Fits current table ∧
        candidate.version + 1 = current ∧ backed
  | .planned writes => forall write, write ∈ writes -> write.Sound unsealKey current backed

def Call.Sound (current : Nat) (backed : Prop) :
    Call Key Sealed -> Prop
  | .prepare (.asked next sealed) | .prepare (.ready next sealed _) =>
    unsealKey sealed = some next ∧ rows.pending = []
  | .load _ _ point => point.Sound unsealKey rows
  | .importKeys point => point.Sound unsealKey rows current backed
  | .salvage (.minting _ outgoingHeld) => outgoingHeld = (rows.current.bind fun row => unsealKey row.sealed).isSome
  | .prepare (.rotated _ _) | .finish _ | .salvage .called | .salvage (.listed _) => True

/-- After its change of the rows a call will make the memory agree with them. -/
def Call.WillAgree (memory : Option (Manager Key)) :
    Call Key Sealed -> Prop
  | .prepare (.rotated next version) =>
    Exists fun manager => memory = some manager ∧ Agrees unsealKey rows (manager.prepared next version)
  | .finish .marked => Exists fun manager => memory = some manager ∧ Agrees unsealKey rows manager.finished
  | .load _ _ (.stored rotating) =>
    Exists fun manager => memory = some manager ∧ Agrees unsealKey rows { manager with rotating := rotating }
  | .load _ _ _ => memory.isSome = true -> Loadable unsealKey rows
  | _ => True

end

section Positions

variable {rows : KeyRows Sealed} {current : Nat} {backed : Prop} {candidate : Candidate Key Sealed}
  {table : SealedTable} {row : Option (KeyRow Sealed)}

theorem verdict_write [DecidableEq Key] {target : ImportTarget Sealed}
    (isWrite : target.verdict unsealKey candidate = .write table row) : candidate.Fits target.current table := by
  have isSlot : (target.slot candidate.version).1 = table ∧ candidate.version ≤ target.current := by
    simp only [ImportTarget.verdict] at isWrite
    split at isWrite
    · cases isWrite
    split at isWrite
    · cases isWrite
    case isFalse isBounded =>
      simp only [Bool.or_eq_true, decide_eq_true_eq, not_or, Nat.not_lt] at isBounded
      split at isWrite
      · split at isWrite <;> cases isWrite
      · split at isWrite
        · cases isWrite
          exact ⟨rfl, isBounded.1⟩
        · cases isWrite
  rcases isSlot with ⟨rfl, isBounded⟩
  unfold ImportTarget.slot
  split
  case isTrue isCurrent => exact ⟨fun _ => isCurrent, nofun⟩
  case isFalse isOther => exact ⟨nofun, fun _ => Nat.lt_of_le_of_ne isBounded isOther⟩

theorem Candidate.Fits.write (fits : candidate.Fits current table)
    (unseals : (unsealKey candidate.sealed).isSome) {pendingRotation : Bool}
    (isPending : pendingRotation -> candidate.version + 1 = current ∧ backed) :
    (candidate.write table row pendingRotation).Sound unsealKey current backed where
  inCurrent := fits.inCurrent
  inRetired := fits.inRetired
  pending := fun isMarked => isPending (Bool.and_eq_true_iff.mp isMarked).2
  unseals := unseals

end Positions

/-- The vault has a key row, or files. -/
def State.Backed : Prop :=
  state.rows.current = none -> state.files ≠ []

section Import

variable [DecidableEq Key] {state : State Key Sealed}

theorem ImportPoint.Sound.advance {point next : ImportPoint Key Sealed}
    (sound : point.Sound unsealKey state.rows state.currentVersion state.Backed)
    (taken : point.advance unsealKey state = some next) :
    next.Sound unsealKey state.rows state.currentVersion state.Backed := by
  cases point with
  | called candidates =>
    cases taken
    exact ⟨sound, fun isNone => (currentVersion_of_none isNone).symm⟩
  | listed candidates referenced =>
    rcases unguarded taken with ⟨_, rfl⟩
    refine ⟨sound.1, ?_⟩
    cases isRow : state.rows.current with
    | none => exact sound.2 isRow
    | some row => exact (currentVersion_of_current isRow).symm
  | located candidates referenced version row =>
    cases taken
    exact ⟨sound.1, sound.2, nofun⟩
  | planning target candidates writes =>
    rcases sound with ⟨unseals, isCurrent, planned⟩
    cases candidates with
    | nil =>
      rcases unguarded taken with ⟨_, rfl⟩
      exact planned
    | cons candidate rest =>
      have unsealsRest : Unseals unsealKey rest := fun other isOther =>
        unseals other (List.mem_cons_of_mem candidate isOther)
      simp only [ImportPoint.advance] at taken
      split at taken
      · cases taken
      · cases taken
        exact ⟨unsealsRest, isCurrent, planned⟩
      case h_3 table row isWrite =>
        have fits : candidate.Fits state.currentVersion table := isCurrent ▸ verdict_write isWrite
        split at taken
        case isTrue isPending =>
          cases taken
          exact ⟨unseals, isCurrent, planned, fits, isCurrent ▸ isPending.1,
            fun _ => List.ne_nil_of_mem isPending.2⟩
        case isFalse =>
          cases taken
          exact ⟨unsealsRest, isCurrent, forall_append planned
            (fits.write (unseals candidate List.mem_cons_self) nofun)⟩
  | asking target candidate table row rest writes =>
    rcases sound with ⟨unseals, isCurrent, planned, fits, isBefore, isBacked⟩
    cases taken
    exact ⟨fun other isOther => unseals other (List.mem_cons_of_mem candidate isOther), isCurrent,
      forall_append planned
        (fits.write (unseals candidate List.mem_cons_self) fun _ => ⟨isBefore, isBacked⟩)⟩
  | planned writes => cases taken

end Import

/-! ## The invariant -/

structure Sound (unsealKey : Sealed -> Option Key) (state : State Key Sealed) : Prop where
  rows : RowsSound state.rows state.currentVersion state.files
  calls : forall call, call ∈ state.calls -> call.Sound unsealKey state.rows state.currentVersion state.Backed
  changing : forall call, call ∈ state.calls -> call.changed = true ->
    call.WillAgree unsealKey state.rows state.memory ∧ state.calls.length ≤ 1
  memory : (forall call, call ∈ state.calls -> call.changed = false) ->
    forall manager, state.memory = some manager -> Agrees unsealKey state.rows manager

section Moves

variable {state : State Key Sealed} {index : Nat} {call : Call Key Sealed}

theorem Sound.of_unchanged (isRows : RowsSound state.rows state.currentVersion state.files)
    (isCalls : forall call, call ∈ state.calls ->
      call.Sound unsealKey state.rows state.currentVersion state.Backed ∧ call.changed = false)
    (isMemory : forall manager, state.memory = some manager -> Agrees unsealKey state.rows manager) :
    Sound unsealKey state where
  rows := isRows
  calls := fun call inside => (isCalls call inside).1
  changing := fun call inside isChanged => nomatch (isCalls call inside).2.symm.trans isChanged
  memory := fun _ => isMemory

section

variable (sound : Sound unsealKey state) (isCall : state.calls[index]? = some call) (isUnchanged : call.changed = false)

include sound isCall isUnchanged

/-- A call that has changed the rows is the only one. -/
theorem Sound.unchanged : forall other, other ∈ state.calls -> other.changed = false := by
  intro other inside
  cases isChanged : other.changed with
  | false => rfl
  | true =>
    have isAlone := (eq_singleton (sound.changing other inside isChanged).2 isCall).1
    rw [isAlone, List.mem_singleton] at inside
    rw [inside, isUnchanged] at isChanged
    cases isChanged

theorem Sound.agrees : forall manager, state.memory = some manager -> Agrees unsealKey state.rows manager :=
  sound.memory (sound.unchanged isCall isUnchanged)

end

theorem Sound.begin (sound : Sound unsealKey state) (call : Option (Call Key Sealed))
    (isQuiet : (state.calls.all fun call => !call.changed) = true) (isSound : forall new, call = some new ->
      new.Sound unsealKey state.rows state.currentVersion state.Backed ∧ new.changed = false) :
    Sound unsealKey { state with calls := state.calls ++ call.toList } := by
  have unchanged : forall other, other ∈ state.calls -> other.changed = false := by simpa using isQuiet
  refine .of_unchanged sound.rows (fun other inside => ?_) (sound.memory unchanged)
  rcases List.mem_append.mp inside with old | new
  · exact ⟨sound.calls other old, unchanged other old⟩
  · exact isSound other (mem_toList.mp new)

variable {memory : Option (Manager Key)} {next : Option (Call Key Sealed)}

/-- A step of a call that has not changed the rows and does not change them. -/
theorem Sound.moveCall (sound : Sound unsealKey state) (isCall : state.calls[index]? = some call)
    (isUnchanged : call.changed = false)
    (isMemory : forall manager, memory = some manager -> Agrees unsealKey state.rows manager)
    (isNext : forall moved, next = some moved ->
      moved.Sound unsealKey state.rows state.currentVersion state.Backed ∧ moved.changed = false) :
    Sound unsealKey { state with memory := memory, calls := move state.calls index next } := by
  refine .of_unchanged sound.rows (forall_move (fun other inside => ?_) isNext) isMemory
  exact ⟨sound.calls other inside, sound.unchanged isCall isUnchanged other inside⟩

/-- A step of the only call, which changes the rows or has changed them. -/
theorem Sound.moveAlone (isAlone : state.calls.length ≤ 1) (isCall : state.calls[index]? = some call)
    (isRows : RowsSound rows (state.withRows rows).currentVersion state.files)
    (isNext : forall moved, next = some moved ->
      moved.Sound unsealKey rows (state.withRows rows).currentVersion (state.withRows rows).Backed ∧
        moved.changed ∧ moved.WillAgree unsealKey rows memory)
    (isDone : next = none -> forall manager, memory = some manager -> Agrees unsealKey rows manager) :
    Sound unsealKey
      { state with rows := rows, memory := memory, calls := move state.calls index next } := by
  rw [move_of_single isAlone isCall]
  exact
    { rows := isRows
      calls := fun other inside => (isNext other (mem_toList.mp inside)).1
      changing := fun other inside _ =>
        ⟨(isNext other (mem_toList.mp inside)).2.2, by cases next <;> simp⟩
      memory := fun unchanged => by
        cases next with
        | none => exact isDone rfl
        | some moved =>
          have isUnchanged := unchanged moved (mem_toList.mpr rfl)
          rw [(isNext moved rfl).2.1] at isUnchanged
          cases isUnchanged }

end Moves

/-! ## Preparing and finishing -/

section Rotations

variable {state : State Key Sealed} {index : Nat} {manager : Manager Key}

theorem Sound.prepare (sound : Sound unsealKey state) {call : Prepare Key Sealed}
    (isCall : state.calls[index]? = some (.prepare call)) (isManager : state.memory = some manager)
    (isAlone : (Call.prepare call : Call Key Sealed).writes -> state.calls.length ≤ 1) :
    Sound unsealKey
      { state with
        rows := (call.advance state.rows manager).1
        memory := some (call.advance state.rows manager).2.1
        calls := move state.calls index ((call.advance state.rows manager).2.2.map .prepare) } := by
  have isSound := sound.calls _ (List.mem_of_getElem? isCall)
  cases call with
  | asked next sealed =>
    refine sound.moveCall isCall rfl (isManager ▸ sound.agrees isCall rfl) fun moved isMoved => ?_
    cases isMoved
    exact ⟨isSound, rfl⟩
  | ready next sealed expected =>
    have agrees := sound.agrees isCall rfl manager isManager
    simp only [Prepare.advance]
    split
    case h_1 =>
      exact sound.moveCall isCall rfl (isManager ▸ sound.agrees isCall rfl) nofun
    case h_2 rotated version isRotated =>
      rcases agrees.current with ⟨row, isRow, _, unseals⟩
      rcases isSound with ⟨unsealsNext, isEmpty⟩
      rcases rotateVaultKey_some isRow isRotated with ⟨isVersion, isCurrent, isPending⟩
      simp only [Bool.false_eq_true, if_false, pending_closeIf, isEmpty, List.nil_append] at isPending
      refine .moveAlone (isAlone rfl) isCall ?_ (fun moved isMoved => ?_) nofun
      · refine rowsSound_of_pending_single isCurrent isPending ?_
        rw [currentVersion_of_current isCurrent, isVersion]
      · cases isMoved
        refine ⟨trivial, rfl, manager, rfl, ?_⟩
        exact
          { current := ⟨_, isCurrent, rfl, unsealsNext⟩
            rotating := by simp [keyRotationInProgress_eq, isPending, prepared]
            outgoing := by simp [isPending, unseals, prepared]
            held := by simp [isPending, unseals] }
  | rotated next version =>
    rcases sound.changing _ (List.mem_of_getElem? isCall) rfl with ⟨⟨running, isRunning, agrees⟩, isSingle⟩
    cases isManager.symm.trans isRunning
    refine .moveAlone isSingle isCall sound.rows nofun fun _ other isOther => ?_
    cases isOther
    exact agrees

theorem Sound.finish (sound : Sound unsealKey state) {call : Finish}
    (isCall : state.calls[index]? = some (.finish call)) (isManager : state.memory = some manager)
    (isAlone : (Call.finish call : Call Key Sealed).writes -> state.calls.length ≤ 1) :
    Sound unsealKey
      { state with
        rows := (call.advance state.rows manager).1
        memory := some (call.advance state.rows manager).2.1
        calls := move state.calls index ((call.advance state.rows manager).2.2.map .finish) } := by
  cases call with
  | asked =>
    have agrees := sound.agrees isCall rfl manager isManager
    refine .moveAlone (isAlone rfl) isCall (rowsSound_of_pending_nil (pending_markKeyRotationFinished _))
      (fun moved isMoved => ?_) nofun
    cases isMoved
    refine ⟨trivial, rfl, manager, rfl, ?_⟩
    exact
      { current := agrees.current
        rotating := by simp [Finish.advance, keyRotationInProgress_eq, finished]
        outgoing := by simp [Finish.advance, finished]
        held := by simp [Finish.advance] }
  | marked =>
    rcases sound.changing _ (List.mem_of_getElem? isCall) rfl with ⟨⟨running, isRunning, agrees⟩, isSingle⟩
    cases isManager.symm.trans isRunning
    refine .moveAlone isSingle isCall sound.rows nofun fun _ other isOther => ?_
    cases isOther
    exact agrees

end Rotations

/-! ## Loading -/

section Load

variable {state : State Key Sealed} {point next : LoadPoint Key} {memory : Option (Manager Key)} {fresh : Bool}
  {rows : KeyRows Sealed} {changed : Bool} {index : Nat}

/-- The keys that `load_key` unseals are those of the rows. -/
theorem agrees_of_unsealed {row : KeyRow Sealed} {key : Key} {outgoing : Option Key} (isRow : rows.current = some row)
    (unseals : unsealKey row.sealed = some key) (isSingle : rows.pending.length ≤ 1)
    (isOutgoing : outgoing = rows.pending.head?.bind fun row => unsealKey row.sealed)
    (isHeld : rows.keyRotationInProgress -> outgoing.isSome) :
    Agrees unsealKey rows
      { key := key, version := row.version, outgoing := outgoing, rotating := rows.keyRotationInProgress } where
  current := ⟨row, isRow, rfl, unseals⟩
  rotating := rfl
  outgoing := isOutgoing
  held := by
    intro pending isPending
    rcases List.mem_iff_getElem?.mp isPending with ⟨place, isThere⟩
    have isAlone := (eq_singleton isSingle isThere).1
    have isSome := isHeld (by simp [keyRotationInProgress_eq, isAlone])
    simpa [isOutgoing, isAlone] using isSome

theorem Agrees.setRotating {manager : Manager Key} (agrees : Agrees unsealKey rows manager) {rotating : Bool}
    (isRotating : rotating = rows.keyRotationInProgress) :
    Agrees unsealKey rows { manager with rotating := rotating } :=
  { agrees with rotating := isRotating }

/-- What a step of `load_key` leaves.  What the call has read is so, and a manager that agreed with the rows still
does.  A call that has changed the rows loads them without an exception into a running manager. -/
structure Loaded (unsealKey : Sealed -> Option Key) (state : State Key Sealed) (fresh : Bool) (point : LoadPoint Key)
    (memory : Option (Manager Key)) (next : Option (LoadPoint Key)) : Prop where
  sound : forall moved, next = some moved -> moved.Sound unsealKey state.rows
  agrees : (forall manager, state.memory = some manager -> Agrees unsealKey state.rows manager) ->
    forall manager, memory = some manager -> Agrees unsealKey state.rows manager
  will : (Call.load true fresh point).WillAgree unsealKey state.rows state.memory ->
    forall moved, next = some moved -> (Call.load true fresh moved).WillAgree unsealKey state.rows memory
  ends : (Call.load true fresh point).WillAgree unsealKey state.rows state.memory ->
    (Call.load true fresh point).finds state = true -> next = none ->
      forall manager, memory = some manager -> Agrees unsealKey state.rows manager

theorem Loaded.goesOn (isSound : next.Sound unsealKey state.rows)
    (will : (Call.load true fresh point).WillAgree unsealKey state.rows state.memory ->
      (Call.load true fresh next).WillAgree unsealKey state.rows state.memory) :
    Loaded unsealKey state fresh point state.memory (some next) where
  sound moved isMoved := by
    cases isMoved
    exact isSound
  agrees agrees := agrees
  will isWilling moved isMoved := by
    cases isMoved
    exact will isWilling
  ends _ _ isNone := nomatch isNone

/-- The call throws, which it does not once it has changed the rows of a running manager. -/
theorem Loaded.throws (fails : (Call.load true fresh point).WillAgree unsealKey state.rows state.memory ->
      (Call.load true fresh point).finds state -> state.memory = none) :
    Loaded unsealKey state fresh point state.memory none where
  sound _ isMoved := nomatch isMoved
  agrees agrees := agrees
  will _ _ isMoved := nomatch isMoved
  ends isWilling finds _ _ isManager := nomatch (fails isWilling finds).symm.trans isManager

/-- Without the keys it loads no manager runs. -/
theorem stopped_of_locked (will : state.memory.isSome -> Loadable unsealKey state.rows)
    (isLocked : ¬ Loadable unsealKey state.rows) : state.memory = none :=
  not_isSome_iff_eq_none.mp fun isRunning => isLocked (will isRunning)

/-- The current key is unsealed, and the outgoing one is next if a rotation was pending at the start. -/
theorem LoadPoint.Sound.advance_found {rotating : Bool} {version : Nat} {key : Key} {next : Option (LoadPoint Key)}
    (isRows : RowsSound state.rows state.currentVersion state.files)
    (sound : (LoadPoint.found rotating version key).Sound unsealKey state.rows)
    (taken : (LoadPoint.found rotating version key).advance unsealKey state fresh = some (memory, next)) :
    Loaded unsealKey state fresh (.found rotating version key) memory next := by
  rcases sound with ⟨isRotating, row, isRow, rfl, unseals⟩
  subst isRotating
  simp only [advance] at taken
  split at taken
  case isTrue isPending =>
    cases taken
    cases isOutgoing : state.rows.pending.head?.bind fun row => unsealKey row.sealed with
    | none =>
      refine Loaded.throws fun will _ => stopped_of_locked will fun loadable => ?_
      cases isList : state.rows.pending with
      | nil => simp [keyRotationInProgress_eq, isList] at isPending
      | cons first rest =>
        have isHeld := loadable.pending first (by simp [isList])
        rw [isList] at isOutgoing
        have isLocked : unsealKey first.sealed = none := isOutgoing
        simp [isLocked] at isHeld
    | some outgoing =>
      have agrees := agrees_of_unsealed isRow unseals isRows.single isOutgoing.symm fun _ => rfl
      rw [isPending] at agrees
      exact Loaded.goesOn agrees id
  case isFalse isSettled =>
    cases taken
    have isEmpty : state.rows.pending = [] := by simpa [keyRotationInProgress_eq] using isSettled
    have isOutgoing : none = state.rows.pending.head?.bind fun row => unsealKey row.sealed := by simp [isEmpty]
    have agrees := agrees_of_unsealed isRow unseals isRows.single isOutgoing fun isPending =>
      absurd isPending isSettled
    rw [Bool.eq_false_iff.mpr isSettled] at agrees
    exact Loaded.goesOn agrees id

/-- A version of a live file that has no row makes the call throw; after the last one the keys are published. -/
theorem LoadPoint.Sound.advance_checking {manager : Manager Key} {salvaged versions : List Nat}
    {next : Option (LoadPoint Key)} (sound : (LoadPoint.checking manager salvaged versions).Sound unsealKey state.rows)
    (taken : (LoadPoint.checking manager salvaged versions).advance unsealKey state fresh = some (memory, next)) :
    Loaded unsealKey state fresh (.checking manager salvaged versions) memory next := by
  cases versions with
  | nil =>
    simp only [advance] at taken
    split at taken
    · cases taken
      have published loaded (isLoaded : some manager = some loaded) :
          Agrees unsealKey state.rows loaded := by
        cases isLoaded
        exact sound
      exact ⟨nofun, fun _ => published, nofun,
        fun _ _ _ => published⟩
    · rcases map_eq_some_iff.mp taken with ⟨running, isRunning, isResult⟩
      cases isResult
      refine ⟨fun moved isMoved => ?_, fun agrees updated isUpdated => ?_, fun _ moved isMoved => ?_,
        nofun⟩
      · cases isMoved
        exact Agrees.rotating sound
      · cases isUpdated
        exact Agrees.setRotating sound (agrees running isRunning).rotating
      · cases isMoved
        exact ⟨_, rfl, sound⟩
  | cons version rest =>
    simp only [advance] at taken
    split at taken
    · cases taken
      exact Loaded.goesOn sound id
    case isFalse isLost =>
      cases taken
      refine Loaded.throws fun _ finds => ?_
      rcases Bool.or_eq_true_iff.mp finds with isNone | isFound
      · exact isNone_iff_eq_none.mp isNone
      · exact absurd isFound isLost

theorem LoadPoint.Sound.advance {next : Option (LoadPoint Key)}
    (isRows : RowsSound state.rows state.currentVersion state.files) (sound : point.Sound unsealKey state.rows)
    (taken : point.advance unsealKey state fresh = some (memory, next)) :
    Loaded unsealKey state fresh point memory next := by
  cases point with
  | called =>
    cases taken
    exact Loaded.goesOn rfl id
  | asked rotating =>
    simp only [advance] at taken
    split at taken
    case h_1 isNone =>
      cases taken
      exact Loaded.goesOn isNone id
    case h_2 row isRow =>
      cases taken
      cases unseals : unsealKey row.sealed with
      | none =>
        refine Loaded.throws fun will _ => stopped_of_locked will fun loadable => ?_
        rcases loadable.current with ⟨current, isCurrent, isHeld⟩
        cases isRow.symm.trans isCurrent
        simp [unseals] at isHeld
      | some key => exact Loaded.goesOn ⟨sound, row, isRow, rfl, unseals⟩ id
  | missing =>
    simp only [advance] at taken
    split at taken
    case isTrue isEmpty =>
      cases taken
      have noFiles : state.files = [] := List.isEmpty_iff.mp (Bool.and_eq_true_iff.mp isEmpty).1
      exact Loaded.goesOn
        ⟨sound, Classical.byContradiction fun isPending => isRows.sealed sound isPending noFiles⟩ id
    case isFalse =>
      cases taken
      refine Loaded.throws fun will _ => stopped_of_locked will fun loadable => ?_
      rcases loadable.current with ⟨row, isRow, _⟩
      cases isRow.symm.trans sound
  | minting => cases taken
  | found rotating version key =>
    exact sound.advance_found isRows taken
  | unsealed | exempted =>
    cases taken
    exact Loaded.goesOn sound id
  | checking manager salvaged versions =>
    exact sound.advance_checking taken
  | stored rotating =>
    rcases map_eq_some_iff.mp taken with ⟨running, isRunning, isResult⟩
    cases isResult
    refine ⟨nofun, fun agrees updated isUpdated => ?_, nofun,
      fun will _ _ updated isUpdated => ?_⟩
    · cases isUpdated
      exact (agrees running isRunning).setRotating sound
    · rcases will with ⟨manager, isManager, agrees⟩
      cases isRunning.symm.trans isManager
      cases isUpdated
      exact agrees

theorem Sound.load (sound : Sound unsealKey state) {next : Option (LoadPoint Key)}
    (isCall : state.calls[index]? = some (.load changed fresh point))
    (finds : (Call.load changed fresh point : Call Key Sealed).finds state)
    (taken : point.advance unsealKey state fresh = some (memory, next)) :
    Sound unsealKey
      { state with memory := memory, calls := move state.calls index (next.map (.load changed fresh)) } := by
  have isSound : point.Sound unsealKey state.rows := sound.calls _ (List.mem_of_getElem? isCall)
  have loaded := isSound.advance sound.rows taken
  cases changed with
  | false =>
    refine sound.moveCall isCall rfl (loaded.agrees (sound.agrees isCall rfl)) fun call isCalled => ?_
    rcases map_eq_some_iff.mp isCalled with ⟨moved, isNext, rfl⟩
    exact ⟨loaded.sound moved isNext, rfl⟩
  | true =>
    rcases sound.changing _ (List.mem_of_getElem? isCall) rfl with ⟨will, isSingle⟩
    refine .moveAlone isSingle isCall sound.rows (fun call isCalled => ?_) fun isNone =>
      loaded.ends will finds (map_eq_none_iff.mp isNone)
    rcases map_eq_some_iff.mp isCalled with ⟨moved, isNext, rfl⟩
    exact ⟨loaded.sound moved isNext, rfl, loaded.will will moved isNext⟩

/-- The first key of a vault. -/
theorem Sound.mintFirst (sound : Sound unsealKey state) {next : Key} {sealed : Sealed}
    (isCall : state.calls[index]? = some (.load changed fresh .minting)) (isAlone : state.calls.length ≤ 1)
    (unseals : unsealKey sealed = some next) :
    Sound unsealKey
      { state with
        rows := { state.rows with current := some { version := 1, sealed := sealed } }
        calls := move state.calls index (some (.load true fresh
          (.checking { key := next, version := 1, outgoing := none, rotating := false } [] []))) } := by
  rcases sound.calls _ (List.mem_of_getElem? isCall) with ⟨_, isEmpty⟩
  have isPending : ({ state.rows with current := some { version := 1, sealed := sealed } } : KeyRows Sealed).pending =
      [] := isEmpty
  refine .moveAlone isAlone isCall (rowsSound_of_pending_nil isPending) (fun moved isMoved => ?_)
    nofun
  cases isMoved
  refine ⟨?_, rfl, fun _ => ⟨⟨_, rfl, by simp [unseals]⟩, by simp [isPending]⟩⟩
  exact
    { current := ⟨_, rfl, rfl, unseals⟩
      rotating := by simp [keyRotationInProgress_eq, isPending]
      outgoing := by simp [isPending]
      held := by simp [isPending] }

end Load

/-! ## Imports and salvages -/

section Changes

variable {state : State Key Sealed} {index : Nat} {call : Call Key Sealed} {fresh : Bool} {rows : KeyRows Sealed}
  {sealed : Sealed}

/-- The rows are changed and their keys are loaded next. -/
theorem Sound.reload (isAlone : state.calls.length ≤ 1) (isCall : state.calls[index]? = some call)
    (isRows : RowsSound rows (state.withRows rows).currentVersion state.files)
    (loadable : state.memory.isSome -> Loadable unsealKey rows) :
    Sound unsealKey
      { state with rows := rows, calls := move state.calls index (some (.load true fresh .called)) } := by
  refine .moveAlone isAlone isCall isRows (fun moved isMoved => ?_) nofun
  cases isMoved
  exact ⟨trivial, rfl, loadable⟩

theorem Sound.mintSalvageKey (sound : Sound unsealKey state) {expected version : Nat} {held : Bool} {next : Key}
    {rotated : KeyRows Sealed} (isCall : state.calls[index]? = some (.salvage (.minting expected held)))
    (isAlone : state.calls.length ≤ 1) (unseals : unsealKey sealed = some next)
    (isRotated : state.rows.rotateVaultKey sealed expected true (!held) = some (rotated, version)) :
    Sound unsealKey
      { state with rows := rotated, calls := move state.calls index (some (.load true fresh .called)) } := by
  have isHeld : held = (state.rows.current.bind fun row => unsealKey row.sealed).isSome :=
    sound.calls _ (List.mem_of_getElem? isCall)
  have settled (isEmpty : rotated.pending = []) {row : KeyRow Sealed} (isCurrent : rotated.current = some row)
      (isSealed : row.sealed = sealed) : Sound unsealKey
        { state with rows := rotated, calls := move state.calls index (some (.load true fresh .called)) } :=
    .reload isAlone isCall (rowsSound_of_pending_nil isEmpty) fun _ =>
      ⟨⟨row, isCurrent, by simp [isSealed, unseals]⟩, by simp [isEmpty]⟩
  cases isRow : state.rows.current with
  | none =>
    rcases rotateVaultKey_of_none isRow isRotated with ⟨isCurrent, isPending⟩
    exact settled (by simpa using isPending) isCurrent rfl
  | some row =>
    rcases rotateVaultKey_some isRow isRotated with ⟨isVersion, isCurrent, isPending⟩
    cases held with
    | false => exact settled (by simpa using isPending) isCurrent rfl
    | true =>
      have isSingle : rotated.pending = [{ row with pending := true }] := by simpa using isPending
      have unsealsRow : (unsealKey row.sealed).isSome := by simpa [isRow] using isHeld.symm
      refine .reload isAlone isCall (rowsSound_of_pending_single isCurrent isSingle ?_) fun _ =>
        ⟨⟨_, isCurrent, by simp [unseals]⟩, by simp [isSingle, unsealsRow]⟩
      rw [currentVersion_of_current isCurrent, isVersion]

theorem SalvagePoint.advance_sound {point next : SalvagePoint} (taken : point.advance unsealKey state = some next)
    {backed : Prop} : (Call.salvage next : Call Key Sealed).Sound unsealKey state.rows current backed := by
  cases point with
  | called =>
    cases taken
    trivial
  | listed referenced =>
    rcases unguarded taken with ⟨_, rfl⟩
    exact rfl
  | minting expected held => cases taken

theorem Sound.planSalvage (sound : Sound unsealKey state) {point : SalvagePoint}
    (isCall : state.calls[index]? = some (.salvage point)) :
    Sound unsealKey
      { state with calls := move state.calls index ((point.advance unsealKey state).map .salvage) } := by
  refine sound.moveCall isCall rfl (sound.agrees isCall rfl) fun moved isMoved => ?_
  rcases map_eq_some_iff.mp isMoved with ⟨next, isNext, rfl⟩
  exact ⟨SalvagePoint.advance_sound isNext, rfl⟩

theorem Sound.planImport [DecidableEq Key] (sound : Sound unsealKey state) {point : ImportPoint Key Sealed}
    (isCall : state.calls[index]? = some (.importKeys point)) :
    Sound unsealKey
      { state with calls := move state.calls index ((point.advance unsealKey state).map .importKeys) } := by
  have isSound : point.Sound unsealKey state.rows state.currentVersion state.Backed :=
    sound.calls _ (List.mem_of_getElem? isCall)
  refine sound.moveCall isCall rfl (sound.agrees isCall rfl) fun moved isMoved => ?_
  rcases map_eq_some_iff.mp isMoved with ⟨next, isNext, rfl⟩
  exact ⟨isSound.advance isNext, rfl⟩

theorem Sound.writeImported [DecidableEq Sealed] (sound : Sound unsealKey state) {writes : List (SealedWrite Sealed)}
    (isCall : state.calls[index]? = some (.importKeys (.planned writes))) (isAlone : state.calls.length ≤ 1)
    (isWritten : KeyCalls.writeImported state.rows writes = some rows) :
    Sound unsealKey
      { state with rows := rows, calls := move state.calls index (some (.load true fresh .called)) } := by
  have isPlanned : forall write, write ∈ writes -> write.Sound unsealKey state.currentVersion state.Backed :=
    sound.calls _ (List.mem_of_getElem? isCall)
  have before : Imported unsealKey state state.currentVersion state.rows :=
    { sound := sound.rows
      version := rfl
      loadable := fun isRunning => by
        rcases isSome_iff_exists.mp isRunning with ⟨manager, isManager⟩
        exact (sound.agrees isCall rfl manager isManager).loadable }
  have imported := before.writeImported isPlanned id isWritten
  refine .reload isAlone isCall ?_ imported.loadable
  rw [imported.version]
  exact imported.sound

/-- Every step of a call that makes no key. -/
theorem Sound.advance [DecidableEq Key] [DecidableEq Sealed] (sound : Sound unsealKey state)
    {result : KeyRows Sealed × Option (Manager Key) × Option (Call Key Sealed)}
    (isCall : state.calls[index]? = some call)
    (isAlone : call.writes -> call.refused state.rows = false -> state.calls.length ≤ 1)
    (finds : call.finds state) (taken : call.advance unsealKey state = some result) :
    Sound unsealKey
      { state with
        rows := result.1
        memory := result.2.1
        calls := move state.calls index result.2.2 } := by
  cases call with
  | prepare call =>
    rcases map_eq_some_iff.mp taken with ⟨manager, isManager, rfl⟩
    exact sound.prepare isCall isManager fun writes => isAlone writes rfl
  | finish call =>
    rcases map_eq_some_iff.mp taken with ⟨manager, isManager, rfl⟩
    exact sound.finish isCall isManager fun writes => isAlone writes rfl
  | load changed fresh point =>
    rcases map_eq_some_iff.mp taken with ⟨loaded, isLoaded, rfl⟩
    exact sound.load isCall finds isLoaded
  | importKeys point =>
    cases point with
    | planned writes =>
      simp only [Call.advance] at taken
      split at taken
      · cases taken
        exact sound.moveCall isCall rfl (sound.agrees isCall rfl) nofun
      case h_2 rows isWritten =>
        cases taken
        exact sound.writeImported isCall (isAlone rfl (by simp [Call.refused, isWritten])) isWritten
    | _ =>
      cases taken
      exact sound.planImport isCall
  | salvage point =>
    cases point with
    | minting expected held => cases taken
    | called | listed =>
      cases taken
      exact sound.planSalvage isCall

/-- Every step in which a call stores a key it has made. -/
theorem Sound.mint (sound : Sound unsealKey state) {next : Key} {result : KeyRows Sealed × Option (Call Key Sealed)}
    (isCall : state.calls[index]? = some call) (isAlone : state.calls.length ≤ 1)
    (unseals : unsealKey sealed = some next) (taken : call.mint state next sealed = some result) :
    Sound unsealKey { state with rows := result.1, calls := move state.calls index result.2 } := by
  unfold Call.mint at taken
  split at taken
  case h_1 changed fresh =>
    have isMissing := (sound.calls _ (List.mem_of_getElem? isCall)).1
    simp only [isMissing, isSome_none, Bool.false_eq_true, if_false] at taken
    cases taken
    exact sound.mintFirst isCall isAlone unseals
  case h_2 expected held =>
    split at taken
    · cases taken
      exact sound.moveCall isCall rfl (sound.agrees isCall rfl) nofun
    case h_2 rotated version isRotated =>
      cases taken
      exact sound.mintSalvageKey isCall isAlone unseals isRotated
  case h_3 => cases taken

end Changes

/-! ## Runs -/

section Runs

variable {state : State Key Sealed} {backed later : Prop} {current : Nat} {rows : KeyRows Sealed}

theorem SealedWrite.Sound.mono {write : SealedWrite Sealed} (sound : write.Sound unsealKey current backed)
    (stays : backed -> later) : write.Sound unsealKey current later :=
  { sound with pending := fun isPending => ⟨(sound.pending isPending).1, stays (sound.pending isPending).2⟩ }

theorem ImportPoint.Sound.mono {point : ImportPoint Key Sealed} (sound : point.Sound unsealKey rows current backed)
    (stays : backed -> later) : point.Sound unsealKey rows current later := by
  cases point with
  | called | listed | located => exact sound
  | planning target candidates writes =>
    rcases sound with ⟨unseals, isCurrent, planned⟩
    exact ⟨unseals, isCurrent, fun write inside => (planned write inside).mono stays⟩
  | asking target candidate table row candidates writes =>
    rcases sound with ⟨unseals, isCurrent, planned, fits, isBefore, isBacked⟩
    exact ⟨unseals, isCurrent, fun write inside => (planned write inside).mono stays, fits, isBefore, stays isBacked⟩
  | planned writes => exact fun write inside => (sound write inside).mono stays

theorem Call.Sound.mono {call : Call Key Sealed} (sound : call.Sound unsealKey rows current backed)
    (stays : backed -> later) : call.Sound unsealKey rows current later := by
  cases call with
  | importKeys point => exact ImportPoint.Sound.mono sound stays
  | prepare call => cases call <;> exact sound
  | salvage point => cases point <;> exact sound
  | finish | load => exact sound

/-- Files come and go only while there is a current row, which names the current version. -/
theorem Sound.environment (sound : Sound unsealKey state) {retained salvaged : List Nat}
    (isKeyed : state.rows.current.isSome) :
    Sound unsealKey { state with files := files, retained := retained, salvaged := salvaged } := by
  rcases isSome_iff_exists.mp isKeyed with ⟨row, isRow⟩
  have isVersion : ({ state with files := files, retained := retained, salvaged := salvaged } :
      State Key Sealed).currentVersion = state.currentVersion := by
    have before : state.currentVersion = row.version := currentVersion_of_current isRow
    rw [before]
    exact currentVersion_of_current isRow
  have isBacked : ({ state with files := files, retained := retained, salvaged := salvaged } :
      State Key Sealed).Backed := fun isNone => nomatch isRow.symm.trans isNone
  refine ⟨?_, fun call inside => ?_, sound.changing, sound.memory⟩
  · rw [isVersion]
    exact { sound.rows with sealed := fun isNone => nomatch isRow.symm.trans isNone }
  · rw [isVersion]
    exact (sound.calls call inside).mono fun _ => isBacked

theorem Sound.initial (isQuiet : state.calls = []) (agreed : state.Agreed unsealKey)
    (isBacked : state.rows.current = none -> state.rows.pending ≠ [] -> state.files ≠ []) : Sound unsealKey state :=
  .of_unchanged ⟨agreed.single, agreed.before, isBacked⟩ (by simp [isQuiet]) agreed.memory

variable [DecidableEq Key] [DecidableEq Sealed]

theorem Sound.step {label : Label Key Sealed} {after : State Key Sealed} (undisturbed : state.undisturbed label)
    (taken : state.step unsealKey label = some after) (sound : Sound unsealKey state) : Sound unsealKey after := by
  unfold State.step at taken
  cases label with
  | prepare next sealed =>
    rcases guarded taken with ⟨isCalled, rfl⟩
    rcases Bool.or_eq_true_iff.mp undisturbed with isPending | isQuiet
    · simpa [Prepare.begin, isPending] using sound
    · refine sound.begin _ isQuiet fun call isCall => ?_
      rcases map_eq_some_iff.mp isCall with ⟨begun, isBegun, rfl⟩
      rcases unguarded isBegun with ⟨isSettled, rfl⟩
      exact ⟨⟨isCalled.2, by simpa [keyRotationInProgress_eq] using isSettled⟩, rfl⟩
  | finish =>
    rcases guarded taken with ⟨_, rfl⟩
    rcases Bool.or_eq_true_iff.mp undisturbed with isSettled | isQuiet
    · have isSettled : state.rows.keyRotationInProgress = false := by simpa using isSettled
      simpa [Finish.begin, isSettled] using sound
    · refine sound.begin _ isQuiet fun call isCall => ?_
      rcases map_eq_some_iff.mp isCall with ⟨begun, isBegun, rfl⟩
      rcases guarded isBegun with ⟨_, rfl⟩
      exact ⟨trivial, rfl⟩
  | load | salvage =>
    cases taken
    refine sound.begin (some _) undisturbed fun call isCall => ?_
    cases isCall
    exact ⟨trivial, rfl⟩
  | importKeys candidates =>
    rcases guarded taken with ⟨unseals, rfl⟩
    refine sound.begin (some _) undisturbed fun call isCall => ?_
    cases isCall
    refine ⟨fun candidate inside => ?_, rfl⟩
    have isKey : unsealKey candidate.sealed = some candidate.key := by
      simpa using List.all_eq_true.mp unseals candidate inside
    simp [isKey]
  | advance index =>
    dsimp only at taken
    split at taken
    case h_1 => cases taken
    case h_2 call isCall =>
      rcases map_eq_some_iff.mp taken with ⟨result, isResult, rfl⟩
      have isAllowed : ((!call.writes || call.refused state.rows || state.calls.length == 1) &&
          call.finds state) = true := by
        simpa only [State.undisturbed, isCall] using undisturbed
      rcases Bool.and_eq_true_iff.mp isAllowed with ⟨isAlone, finds⟩
      refine sound.advance isCall (fun isWrite isDone => ?_) finds isResult
      have isSingle : state.calls.length = 1 := by simpa [isWrite, isDone] using isAlone
      exact Nat.le_of_eq isSingle
  | mint index next sealed =>
    dsimp only at taken
    split at taken
    case h_1 => cases taken
    case h_2 call isCall =>
      rcases ite_none_right_eq_some.mp taken with ⟨unseals, taken⟩
      rcases map_eq_some_iff.mp taken with ⟨result, isResult, rfl⟩
      have isSingle : state.calls.length = 1 := by simpa [State.undisturbed] using undisturbed
      exact sound.mint isCall (Nat.le_of_eq isSingle) unseals isResult
  | environment files retained salvaged =>
    rcases guarded taken with ⟨isKeyed, rfl⟩
    exact sound.environment isKeyed

/-- Rotations do not overlap when a call changes the rows while no other is
under way: whenever all calls have returned, one rotation at most is pending, it
is from the version before the current one, and the memory is what the rows say. -/
theorem rotations_never_overlap {initial final : State Key Sealed} {labels : List (Label Key Sealed)}
    (isQuiet : initial.calls = []) (agreed : initial.Agreed unsealKey)
    (isBacked : initial.rows.current = none -> initial.rows.pending ≠ [] -> initial.files ≠ [])
    (reached : run (State.step unsealKey) initial labels = some final)
    (undisturbed : Along (State.step unsealKey) (fun state label => state.undisturbed label = true) initial labels)
    (isReturned : final.calls = []) : final.Agreed unsealKey ∧ final.Readable unsealKey := by
  have sound : Sound unsealKey final :=
    run_induction (fun _ _ _ allowed taken sound => sound.step allowed taken) reached undisturbed
      (.initial isQuiet agreed isBacked)
  have agreedFinal : final.Agreed unsealKey := ⟨sound.rows.single, sound.rows.before, sound.memory (by simp [isReturned])⟩
  exact ⟨agreedFinal, agreedFinal.readable⟩

end Runs

/-! ## Runs of one vault -/

/-- Every sealed key but the zero one unseals. -/
def unsealNonzero (sealed : Nat) : Option Nat :=
  if sealed = 0 then none else some sealed

/-- Version 2 is current, and the key of version 1 does not unseal. -/
def lostVersion : State Nat Nat where
  rows := { current := some { version := 2, sealed := 20 }, retired := [{ version := 1, sealed := 0, pending := false }] }
  memory := some { key := 20, version := 2, outgoing := none, rotating := false }
  files := [1, 2]
  retained := []
  salvaged := []
  calls := []

/-- An import writes the key of version 1 and the manager loads its keys; then a rotation is prepared and finished,
and a second request finds it pending before the first has returned. -/
def importedAndRotated : List (Label Nat Nat) :=
  [.importKeys [{ version := 1, key := 10, sealed := 10, intact := true, proven := true }]] ++
    List.replicate 16 (.advance 0) ++ [.prepare 30 30] ++ List.replicate 2 (.advance 0) ++
    [.prepare 40 40, .advance 0, .finish, .advance 0, .advance 0]

theorem rotations_never_overlap_in_turn :
    Exists fun final : State Nat Nat =>
      run (State.step unsealNonzero) lostVersion importedAndRotated = some final ∧
        final.rows.retired.map (fun row => (row.version, row.sealed)) = [(1, 10), (2, 20)] ∧
        final.Agreed unsealNonzero ∧ final.Readable unsealNonzero := by
  have evaluated : (run (State.step unsealNonzero) lostVersion importedAndRotated).map
      (fun final => (final.calls, final.rows.retired.map fun row => (row.version, row.sealed))) =
      some ([], [(1, 10), (2, 20)]) := by decide +kernel
  have undisturbed : Along (State.step unsealNonzero) (fun state label => state.undisturbed label = true) lostVersion
      importedAndRotated := by decide +kernel
  have agreed : lostVersion.Agreed unsealNonzero :=
    { single := by decide
      before := by decide
      memory := by
        intro manager isManager
        cases isManager
        exact ⟨⟨_, rfl, rfl, rfl⟩, rfl, rfl, by decide⟩ }
  rcases map_eq_some_iff.mp evaluated with ⟨final, reached, isFinal⟩
  simp only [Prod.mk.injEq] at isFinal
  refine ⟨final, reached, isFinal.2, ?_⟩
  exact rotations_never_overlap rfl agreed nofun reached undisturbed isFinal.1

/-- Two requests find no pending rotation, and each rotates the keys. -/
theorem rotations_overlap :
    Exists fun final : State Nat Nat =>
      run (State.step unsealNonzero) lostVersion ([.prepare 30 30, .prepare 40 40] ++ List.replicate 6 (.advance 0)) =
        some final ∧ final.calls = [] ∧ final.rows.pending.map (fun row => row.version) = [2, 3] ∧
        ¬ final.Agreed unsealNonzero := by
  have evaluated : (run (State.step unsealNonzero) lostVersion
      ([.prepare 30 30, .prepare 40 40] ++ List.replicate 6 (.advance 0))).map
        (fun final => (final.calls, final.rows.pending.map (·.version))) = some ([], [2, 3]) := by
    decide +kernel
  rcases map_eq_some_iff.mp evaluated with ⟨final, reached, isFinal⟩
  simp only [Prod.mk.injEq] at isFinal
  refine ⟨final, reached, isFinal.1, isFinal.2, fun agreed => ?_⟩
  have isLong : final.rows.pending.length = 2 := by
    simpa using congrArg List.length isFinal.2
  have isSingle := agreed.single
  omega

end KeyCalls
end Vault
end Vaulthalla
