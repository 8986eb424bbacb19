import Vaulthalla.Vault.RotationPass

namespace Vaulthalla
namespace Vault
namespace KeyRotation

open Foundation Content Transition Pool Option
open State (initial)

/-!
# Files after a finished rotation

The second query of a pass sees the rows that are committed.  A writer that
took the outgoing key and has not committed its row is not among them: when it
commits after the query, the key of its row is dropped with the rotation.  Two
`prepare_key_rotation` calls at once, or one between the two updates of a
`finish_key_rotation`, lose a key as well, and so do two passes at once: one
that has seen its own rotation done finishes the next one.

When neither happens every sealed row carries the version of its key at all
times, and outside a rotation that is the current version.
-/

variable {Id Key : Type}

/-- The second query of the pass has found nothing. -/
def Pass.isClosing : Pass Id Key -> Bool
  | .completed | .finishing _ => true
  | _ => false

variable (state : State Id Key)

/-- The second query of a pass has found nothing. -/
def State.closing : Bool :=
  state.passes.any Pass.isClosing

/-- A rotation is prepared alone, and a pass begins when no other is under way.
A writer whose key is no longer current commits during a rotation, before the
second query. -/
def State.undisturbed (label : Label Id Key) : Bool :=
  match label with
  | .prepare _ => state.prepares.isEmpty && !state.closing
  | .enter => state.passes.isEmpty
  | .commit index =>
    match state.writers[index]? with
    | some (.staged row) =>
      row.state.keyVersion == state.manager.version || (state.manager.rotating && !state.closing)
    | _ => true
  | _ => true

/-- Each row with a vector has a version that resolves to the key of its bytes. -/
def State.Readable : Prop :=
  forall row, row ∈ state.files -> row.state.encrypted = true ->
    state.manager.keySnapshot row.state.keyVersion = some row.key

/-! ## Keys and their versions -/

/-- A key that was taken with its version at some time. -/
structure Known (manager : Manager Key) (salvaged : List Nat) (version : Nat) (key : Key) : Prop where
  notNewer : version ≤ manager.version
  same : version = manager.version -> key = manager.key
  unsalvaged : forall named, named ∈ salvaged -> named < version

def FileRow.IsKnown (row : FileRow Id Key) (manager : Manager Key) (salvaged : List Nat) : Prop :=
  row.state.encrypted = true -> Known manager salvaged row.state.keyVersion row.key

def FileRow.IsCurrent (row : FileRow Id Key) (manager : Manager Key) : Prop :=
  row.state.encrypted = true -> row.state.keyVersion = manager.version

def Writer.IsKnown (writer : Writer Id Key) (manager : Manager Key) (salvaged : List Nat) : Prop :=
  match writer with
  | .holding _ key version => Known manager salvaged version key
  | .staged row => Known manager salvaged row.state.keyVersion row.key

variable {manager : Manager Key} {salvaged : List Nat} {version : Nat} {key : Key} {later index : Nat}
  {writer : Writer Id Key} {files : List (FileRow Id Key)} {row : FileRow Id Key} {call : Prepare Key Key}
  {next : Option (Prepare Key Key)} {rows : KeyRows Key}

theorem Known.prepared (known : Known manager salvaged version key) {next : Key} (isLater : manager.version < later) :
    Known (manager.prepared next later) salvaged version key where
  notNewer := Nat.le_trans known.notNewer (Nat.le_of_lt isLater)
  same := fun isSame => absurd (Nat.lt_of_le_of_lt known.notNewer isLater) (Nat.not_lt.mpr (Nat.le_of_eq isSame.symm))
  unsalvaged := known.unsalvaged

theorem Known.finished (known : Known manager salvaged version key) : Known manager.finished salvaged version key :=
  { known with }

theorem Writer.IsKnown.prepared (known : writer.IsKnown manager salvaged) {next : Key}
    (isLater : manager.version < later) : writer.IsKnown (manager.prepared next later) salvaged := by
  cases writer with
  | holding | staged => exact .prepared known isLater

theorem Writer.IsKnown.finished (known : writer.IsKnown manager salvaged) :
    writer.IsKnown manager.finished salvaged := by
  cases writer with
  | holding | staged => exact .finished known

/-! ## Rotated files -/

/-- A rotation of a file works with the version that the pass rotates to. -/
def Task.Sound (task : Task Id Key) (manager : Manager Key) : Prop :=
  match task with
  | .listed _ _ => True
  | .begun _ expected current | .checked _ expected current _ =>
    current = manager.version ∧ expected.keyVersion < current
  | .resealed _ _ state key => state.encrypted = true -> state.keyVersion = manager.version ∧ key = manager.key

theorem keySnapshot_version (snapshot : manager.keySnapshot manager.version = some key) : key = manager.key := by
  unfold Manager.keySnapshot at snapshot
  split at snapshot
  · rcases bind_eq_some_iff.mp snapshot with ⟨outgoing, _, found⟩
    simpa using found.symm
  · simpa using snapshot.symm

section Reseal

variable [DecidableEq Key] {state expected : EncryptionState} {next : EncryptionState × Key} {iv : Str}

theorem rotateDecryptEncrypt_some (isOther : state.keyVersion ≠ manager.version)
    (rotated : manager.rotateDecryptEncrypt state key iv = some next) :
    next.1.keyVersion = manager.version ∧ next.2 = manager.key := by
  unfold Manager.rotateDecryptEncrypt at rotated
  rw [if_neg isOther] at rotated
  split at rotated
  · cases rotated
  rcases guarded rotated with ⟨_, rfl⟩
  exact ⟨rfl, rfl⟩

theorem reseal_some {current : Nat} {source : Source Key} (isCurrent : current = manager.version)
    (isOlder : expected.keyVersion < current) (resealed : manager.reseal expected current key source iv = some next)
    (isSealed : next.1.encrypted) : next.1.keyVersion = manager.version ∧ next.2 = manager.key := by
  cases source with
  | backing =>
    have isOther : expected.keyVersion ≠ manager.version := Nat.ne_of_lt (isCurrent ▸ isOlder)
    exact rotateDecryptEncrypt_some isOther (filter_eq_some_iff.mp resealed).1
  | object state objectKey encryptUpstream =>
    simp only [Manager.reseal] at resealed
    split at resealed
    case isTrue adopted =>
      rcases guarded resealed with ⟨snapshot, rfl⟩
      have isVersion : state.keyVersion = manager.version := adopted.trans isCurrent
      rw [isVersion] at snapshot
      exact ⟨isVersion, keySnapshot_version snapshot⟩
    case isFalse isOther =>
      split at resealed
      · exact rotateDecryptEncrypt_some (fun same => isOther (same.trans isCurrent.symm)) resealed
      · rcases guarded resealed with ⟨_, rfl⟩
        cases isSealed
  | plaintext =>
    cases resealed
    cases isSealed

end Reseal

section Files

variable [DecidableEq Id] {files : List (FileRow Id Key)} {row : FileRow Id Key}

theorem mem_upsertFile {added : FileRow Id Key} (inside : row ∈ upsertFile files added) :
    row ∈ files ∨ row = added := by
  rcases List.mem_append.mp inside with old | new
  · exact .inl (List.mem_of_mem_filter old)
  · exact .inr (List.mem_singleton.mp new)

/-- What a rotation leaves in the table was there before or is on the current key. -/
theorem taskStep_sound [DecidableEq Key] {task : Task Id Key} {event : TaskEvent Key}
    {result : List (FileRow Id Key) × Option (Task Id Key) × Bool} (sound : task.Sound manager)
    (taken : taskStep manager files task event = some result) :
    (forall next, result.2.1 = some next -> next.Sound manager) ∧
      forall row, row ∈ result.1 -> row ∈ files ∨
        (row.state.encrypted -> row.state.keyVersion = manager.version ∧ row.key = manager.key) := by
  have returned : forall next : Task Id Key, none = some next -> next.Sound manager := nofun
  have kept : forall row, row ∈ files -> row ∈ files ∨
      (row.state.encrypted -> row.state.keyVersion = manager.version ∧ row.key = manager.key) :=
    fun _ inside => .inl inside
  unfold taskStep at taken
  split at taken
  case h_1 id expected =>
    split at taken
    case isTrue isOlder =>
      cases taken
      refine ⟨fun next isNext => ?_, kept⟩
      cases isNext
      exact ⟨rfl, of_decide_eq_true (Bool.and_eq_true_iff.mp isOlder).2⟩
    case isFalse =>
      cases taken
      exact ⟨returned, kept⟩
  case h_2 id expected current =>
    split at taken
    · cases taken
      refine ⟨fun next isNext => ?_, kept⟩
      cases isNext
      exact sound
    · cases taken
      exact ⟨returned, kept⟩
  case h_3 id expected current bytesKey source iv =>
    split at taken
    case h_1 state next resealed =>
      cases taken
      refine ⟨fun task isTask => ?_, kept⟩
      cases isTask
      exact reseal_some sound.1 sound.2 resealed
    case h_2 =>
      cases taken
      exact ⟨returned, kept⟩
  case h_4 id expected state resealedKey =>
    cases taken
    refine ⟨returned, fun row inside => ?_⟩
    rcases List.mem_map.mp inside with ⟨old, isOld, rfl⟩
    split
    · exact .inr sound
    · exact .inl isOld
  case h_8 => cases taken
  all_goals
    cases taken
    exact ⟨returned, kept⟩

end Files

/-! ## The invariant -/

def Prepare.Sound (call : Prepare Key Key) (rows : KeyRows Key) (manager : Manager Key) : Prop :=
  match call with
  | .asked _ _ => True
  | .ready _ _ expected => manager.version < expected
  | .rotated _ version =>
    manager.version < version ∧ rows.keyRotationInProgress = true ∧
      Exists fun row => rows.current = some row ∧ row.version = version

/-- A pass works with the current version. -/
def Pass.Sound (pass : Pass Id Key) (manager : Manager Key) : Prop :=
  match pass with
  | .started version | .recovered version _ | .rotated version _ | .reconciled version _ => version = manager.version
  | .rotating version _ tasks => version = manager.version ∧ forall task, task ∈ tasks -> task.Sound manager
  | .entered | .completed | .finishing _ => True

structure Sound : Prop where
  files : forall row, row ∈ state.files -> row.IsKnown state.manager state.salvaged
  writers : forall writer, writer ∈ state.writers -> writer.IsKnown state.manager state.salvaged
  salvages : forall named, named ∈ state.salvaged -> named < state.manager.version
  rows : Exists fun row => state.rows.current = some row ∧ state.manager.version ≤ row.version
  passes : forall pass, pass ∈ state.passes -> pass.Sound state.manager
  onePass : state.passes.length ≤ 1
  /-- Only a rotation has a pass. -/
  idle : state.manager.rotating = false -> state.passes = []
  alone : state.manager.rotating = true -> state.prepares = [] ∧ state.finished = false
  inProgress : state.manager.rotating = true -> .finishing .marked ∉ state.passes ->
    state.rows.keyRotationInProgress = true
  single : state.prepares.length ≤ 1
  prepares : forall call, call ∈ state.prepares -> call.Sound state.rows state.manager ∧ state.finished = false
  /-- Outside a rotation, and when the pass has seen that it is done, every row is on the current key. -/
  current : state.manager.rotating = false ∨ state.closing = true ->
    forall row, row ∈ state.files -> row.IsCurrent state.manager

variable {state after : State Id Key}

theorem Sound.known_current (sound : Sound state) (isVersion : version = state.manager.version)
    (isKey : key = state.manager.key) : Known state.manager state.salvaged version key where
  notNewer := Nat.le_of_eq isVersion
  same := fun _ => isKey
  unsalvaged := fun named isNamed => isVersion ▸ sound.salvages named isNamed

variable {pass : Pass Id Key} {moved : Option (Pass Id Key)}

theorem Sound.active (sound : Sound state) (isPass : state.passes = [pass]) : state.manager.rotating := by
  cases isRotating : state.manager.rotating with
  | true => rfl
  | false => cases isPass.symm.trans (sound.idle isRotating)

theorem Sound.readable (sound : Sound state) (isFinished : state.finished) : state.Readable := by
  have isSettled : state.manager.rotating = false := by
    cases isRotating : state.manager.rotating with
    | false => rfl
    | true => exact absurd isFinished (by simp [(sound.alone isRotating).2])
  intro row isRow isSealed
  have isCurrent : row.state.keyVersion = state.manager.version := sound.current (.inl isSettled) row isRow isSealed
  have isKey : row.key = state.manager.key := (sound.files row isRow isSealed).same isCurrent
  simp [Manager.keySnapshot, isSettled, isCurrent, isKey]

/-! ## Steps of writers and calls -/

theorem Sound.setWriters (sound : Sound state) {writers : List (Writer Id Key)}
    (known : forall writer, writer ∈ writers -> writer.IsKnown state.manager state.salvaged) :
    Sound { state with writers := writers } :=
  { sound with writers := known }

theorem Sound.setFiles (sound : Sound state)
    (known : forall row, row ∈ files -> row.IsKnown state.manager state.salvaged)
    (isCurrent : state.manager.rotating = false ∨ state.closing ->
      forall row, row ∈ files -> row.IsCurrent state.manager) : Sound { state with files := files } :=
  { sound with files := known, current := isCurrent }

theorem Sound.upsertFile [DecidableEq Id] (sound : Sound state) (isKnown : row.IsKnown state.manager state.salvaged)
    (isCurrent : state.manager.rotating = false ∨ state.closing -> row.IsCurrent state.manager) :
    Sound { state with files := upsertFile state.files row } := by
  refine sound.setFiles (fun stored inside => ?_) (fun isSettled stored inside => ?_)
  · rcases mem_upsertFile inside with old | rfl
    · exact sound.files stored old
    · exact isKnown
  · rcases mem_upsertFile inside with old | rfl
    · exact sound.current isSettled stored old
    · exact isCurrent isSettled

theorem Sound.commit [DecidableEq Id] (sound : Sound state) (isWriter : state.writers[index]? = some (.staged row))
    (undisturbed : state.undisturbed (.commit index)) :
    Sound { state with
      files := KeyRotation.upsertFile state.files row
      writers := move state.writers index none } := by
  have isKnown : Known state.manager state.salvaged row.state.keyVersion row.key :=
    sound.writers _ (List.mem_of_getElem? isWriter)
  have written : Sound { state with files := KeyRotation.upsertFile state.files row } := by
    refine sound.upsertFile (fun _ => isKnown) (fun isSettled _ => ?_)
    simp only [State.undisturbed, isWriter, Bool.or_eq_true, beq_iff_eq, Bool.and_eq_true,
      Bool.not_eq_true'] at undisturbed
    rcases undisturbed with isVersion | ⟨isRotating, isOpen⟩
    · exact isVersion
    · rcases isSettled with isStill | isClosing
      · exact absurd isRotating (by simp [isStill])
      · exact absurd isClosing (by simp [isOpen])
  exact written.setWriters (forall_move written.writers fun new isNew => by cases isNew)

section

variable (sound : Sound state)

include sound

theorem Sound.prepare {next : Key} (undisturbed : state.undisturbed (.prepare next)) :
    Sound { state with
      prepares := state.prepares ++ (Prepare.begin state.rows next next).toList
      finished := false } := by
  simp only [State.undisturbed, Bool.and_eq_true, List.isEmpty_iff, Bool.not_eq_true'] at undisturbed
  rcases undisturbed with ⟨isEmpty, isOpen⟩
  have isUnmarked : .finishing .marked ∉ state.passes := fun isMarked => List.any_eq_false.mp isOpen _ isMarked rfl
  rw [isEmpty, List.nil_append]
  unfold Prepare.begin
  split
  case isTrue inProgress =>
    exact
      { sound with
        alone := fun _ => ⟨rfl, rfl⟩
        single := Nat.zero_le 1
        prepares := fun call inside => by cases inside }
  case isFalse notInProgress =>
    have isStill : state.manager.rotating -> False := fun isRotating =>
      notInProgress (sound.inProgress isRotating isUnmarked)
    refine
      { sound with
        alone := fun isRotating => (isStill isRotating).elim
        single := Nat.le_refl 1
        prepares := fun call inside => ?_ }
    cases List.mem_singleton.mp inside
    exact ⟨trivial, rfl⟩

/-- A step of a call before its last leaves the memory as it is. -/
theorem Sound.moveCall (isCall : state.prepares[index]? = some call)
    (isBound : Exists fun row => rows.current = some row ∧ state.manager.version ≤ row.version)
    (isNext : forall moved, next = some moved -> moved.Sound rows state.manager) :
    Sound { state with rows := rows, prepares := move state.prepares index next } := by
  have inside : call ∈ state.prepares := List.mem_of_getElem? isCall
  have isStill : state.manager.rotating -> False := fun isRotating => by
    simp [(sound.alone isRotating).1] at inside
  exact
    { sound with
      rows := isBound
      alone := fun isRotating => (isStill isRotating).elim
      inProgress := fun isRotating => (isStill isRotating).elim
      single := Nat.le_trans (length_move_le next) sound.single
      prepares := fun moved isMoved => by
        rw [move_of_single sound.single isCall, mem_toList] at isMoved
        exact ⟨isNext moved isMoved, (sound.prepares call inside).2⟩ }

theorem Sound.install {next : Key} (isCall : state.prepares[index]? = some (.rotated next later)) :
    Sound { state with
      manager := state.manager.prepared next later
      prepares := move state.prepares index none } := by
  have inside : Prepare.rotated next later ∈ state.prepares := List.mem_of_getElem? isCall
  rcases sound.prepares _ inside with ⟨⟨isLater, inProgress, row, isRow, isVersion⟩, isOpen⟩
  have isGone : move state.prepares index none = [] := move_of_single sound.single isCall
  have isStill : state.manager.rotating = false := by
    cases isRotating : state.manager.rotating with
    | false => rfl
    | true => simp [(sound.alone isRotating).1] at inside
  have isIdle : state.passes = [] := sound.idle isStill
  exact
    { files := fun row isFile isSealed => (sound.files row isFile isSealed).prepared isLater
      writers := fun writer isWriter => (sound.writers writer isWriter).prepared isLater
      salvages := fun named isNamed => Nat.lt_trans (sound.salvages named isNamed) isLater
      rows := ⟨row, isRow, Nat.le_of_eq isVersion.symm⟩
      passes := by simp [isIdle]
      onePass := sound.onePass
      idle := nofun
      alone := fun _ => ⟨isGone, isOpen⟩
      inProgress := fun _ _ => inProgress
      single := by
        rw [isGone]
        exact Nat.zero_le 1
      prepares := fun call isMoved => by
        rw [isGone] at isMoved
        cases isMoved
      current := fun isSettled => by
        rcases isSettled with isFalse | isClosing
        · cases isFalse
        simp [State.closing, isIdle] at isClosing }

theorem Sound.advance (isCall : state.prepares[index]? = some call)
    (taken : call.advance state.rows state.manager = (rows, manager, next)) :
    Sound { state with rows := rows, manager := manager, prepares := move state.prepares index next } := by
  cases call with
  | asked new sealed =>
    cases taken
    refine sound.moveCall isCall sound.rows fun moved isMoved => ?_
    cases isMoved
    exact Nat.lt_succ_self _
  | ready new sealed expected =>
    simp only [Prepare.advance] at taken
    split at taken
    case h_1 =>
      cases taken
      exact sound.moveCall isCall sound.rows nofun
    case h_2 rotated later isRotated =>
      cases taken
      rcases sound.rows with ⟨row, isRow, isBound⟩
      rcases rotateVaultKey_some isRow isRotated with ⟨isVersion, isCurrent, isPending⟩
      have isLater : state.manager.version < later := isVersion ▸ Nat.lt_succ_of_le isBound
      refine sound.moveCall isCall ⟨_, isCurrent, Nat.le_of_lt isLater⟩ fun moved isMoved => ?_
      cases isMoved
      refine ⟨isLater, ?_, _, isCurrent, rfl⟩
      simp [keyRotationInProgress_eq, isPending]
  | rotated new later =>
    cases taken
    exact sound.install isCall

end

/-! ## Steps of the pass -/

theorem Sound.movePass (sound : Sound state) (isPass : state.passes = [pass])
    (isUnmarked : pass ≠ .finishing .marked)
    (isSound : pass.Sound state.manager -> forall next, moved = some next -> next.Sound state.manager)
    (isCurrent : moved.any Pass.isClosing -> forall row, row ∈ state.files -> row.IsCurrent state.manager) :
    Sound { state with passes := moved.toList } := by
  have isRotating : state.manager.rotating := sound.active isPass
  have isThere : pass ∈ state.passes := isPass ▸ List.mem_singleton_self pass
  exact
    { sound with
      passes := fun next isNext => isSound (sound.passes pass isThere) next (mem_toList.mp isNext)
      onePass := by cases moved <;> simp
      idle := fun isStill => absurd isRotating (by simp [show state.manager.rotating = false from isStill])
      inProgress := fun _ _ => sound.inProgress isRotating (by simpa [isPass] using isUnmarked.symm)
      current := fun isSettled => isSettled.elim
        (fun isStill => absurd isRotating (by simp [show state.manager.rotating = false from isStill]))
        fun isClosing => isCurrent (by simpa [State.closing, any_eq_true] using isClosing) }

/-- The second query sees every row that is not on the current key. -/
theorem Sound.current_of_older_nil (sound : Sound state) (isNone : state.older state.manager.version = []) :
    forall row, row ∈ state.files -> row.IsCurrent state.manager := by
  intro row isRow isSealed
  have isKnown := sound.files row isRow isSealed
  refine Nat.le_antisymm isKnown.notNewer (Nat.not_lt.mp fun isOlder => ?_)
  have unsalvaged : row.state.keyVersion ∉ state.salvaged := fun isNamed =>
    Nat.lt_irrefl _ (isKnown.unsalvaged _ isNamed)
  have isListed : row ∈ state.older state.manager.version := by
    refine List.mem_filter.mpr ⟨isRow, ?_⟩
    simp [isOlder, isSealed, unsalvaged]
  rw [isNone] at isListed
  cases isListed

theorem Sound.finish (sound : Sound state) {call : Finish} (isPass : state.passes = [.finishing call]) :
    Sound { (state.finish call).1 with passes := (state.finish call).2.toList } := by
  have isRotating : state.manager.rotating := sound.active isPass
  have isCurrent := sound.current (.inr (by simp [State.closing, isPass, Pass.isClosing]))
  rcases sound.alone isRotating with ⟨isEmpty, isOpen⟩
  cases call with
  | asked =>
    exact
      { sound with
        passes := fun pass isNext => by
          rw [List.mem_singleton.mp isNext]
          trivial
        onePass := Nat.le_refl 1
        idle := fun isStill => absurd isRotating (by simp [show state.manager.rotating = false from isStill])
        inProgress := fun _ isUnmarked => absurd List.mem_cons_self isUnmarked
        prepares := fun call isCall => by
          have isCall : call ∈ state.prepares := isCall
          simp [isEmpty] at isCall
        current := fun _ => isCurrent }
  | marked =>
    exact
      { files := fun row isRow isSealed => (sound.files row isRow isSealed).finished
        writers := fun writer isWriter => (sound.writers writer isWriter).finished
        salvages := sound.salvages
        rows := sound.rows
        passes := nofun
        onePass := Nat.zero_le 1
        idle := fun _ => rfl
        alone := nofun
        inProgress := nofun
        single := sound.single
        prepares := fun call isCall => by
          have isCall : call ∈ state.prepares := isCall
          simp [isEmpty] at isCall
        current := fun _ => isCurrent }

theorem Sound.enter (sound : Sound state) (isAlone : state.passes = []) (isRotating : state.manager.rotating) :
    Sound { state with passes := state.passes ++ [.entered] } := by
  rw [isAlone, List.nil_append]
  exact
    { sound with
      passes := fun pass isEntered => by
        rw [List.mem_singleton.mp isEntered]
        trivial
      onePass := Nat.le_refl 1
      idle := fun isStill => absurd isRotating (by simp [show state.manager.rotating = false from isStill])
      inProgress := fun _ _ => sound.inProgress isRotating (by simp [isAlone])
      current := fun isSettled => isSettled.elim (fun isStill => sound.current (.inl isStill)) nofun }

section Pass

variable [DecidableEq Id] [DecidableEq Key]

theorem Sound.rotate (sound : Sound state) {clean : Bool} {tasks : List (Task Id Key)} {index : Nat}
    {task : Task Id Key} {event : TaskEvent Key} {result : List (FileRow Id Key) × Option (Task Id Key) × Bool}
    (isPass : state.passes = [.rotating version clean tasks]) (isTask : tasks[index]? = some task)
    (taken : taskStep state.manager state.files task event = some result) :
    Sound { state with
      files := result.1
      passes := [.rotating version (clean && result.2.2) (move tasks index result.2.1)] } := by
  have isSound : version = state.manager.version ∧ forall task, task ∈ tasks -> task.Sound state.manager :=
    sound.passes (.rotating version clean tasks) (by simp [isPass])
  have stepped := taskStep_sound (isSound.2 task (List.mem_of_getElem? isTask)) taken
  have isRotating : state.manager.rotating := sound.active isPass
  have moved : Sound { state with
      passes := (some (.rotating version (clean && result.2.2) (move tasks index result.2.1))).toList } := by
    refine sound.movePass isPass nofun (fun _ next isNext => ?_) nofun
    cases isNext
    exact ⟨isSound.1, forall_move isSound.2 stepped.1⟩
  refine moved.setFiles (fun row isFile => ?_) (fun isSettled => ?_)
  · rcases stepped.2 row isFile with old | isCurrent
    · exact sound.files row old
    · exact fun isSealed => sound.known_current (isCurrent isSealed).1 (isCurrent isSealed).2
  · rcases isSettled with isStill | isClosing
    · exact absurd isRotating (by simp [show state.manager.rotating = false from isStill])
    · cases isClosing

theorem Sound.passStep (sound : Sound state) {event : PassEvent Key} {result : State Id Key × Option (Pass Id Key)}
    (isPass : state.passes = [pass]) (taken : passStep state pass event = some result) :
    Sound { result.1 with passes := result.2.toList } := by
  have isSound := sound.passes pass (isPass ▸ List.mem_singleton_self pass)
  unfold KeyRotation.passStep at taken
  split at taken
  case h_1 =>
    cases taken
    exact sound.movePass isPass nofun (fun _ _ isNext => by cases isNext; rfl) nofun
  case h_2 | h_6 =>
    cases taken
    exact sound.movePass isPass nofun (fun isSound _ isNext => by cases isNext; exact isSound) nofun
  case h_3 version clean =>
    cases taken
    refine sound.movePass isPass nofun (fun isSound _ isNext => ?_) nofun
    cases isNext
    refine ⟨isSound, fun task isListed => ?_⟩
    rcases List.mem_map.mp isListed with ⟨row, _, rfl⟩
    trivial
  case h_4 version clean tasks index event =>
    split at taken
    case h_1 => cases taken
    case h_2 task isTask =>
      rcases map_eq_some_iff.mp taken with ⟨result, stepped, rfl⟩
      exact sound.rotate isPass isTask stepped
  case h_5 version clean =>
    cases taken
    exact sound.movePass isPass nofun (fun isSound _ isNext => by cases isNext; exact isSound.1) nofun
  case h_7 version clean =>
    have isVersion : version = state.manager.version := isSound
    cases taken
    dsimp only
    split
    case isTrue isDone =>
      have isNone : state.older state.manager.version = [] :=
        isVersion ▸ List.isEmpty_iff.mp (Bool.and_eq_true_iff.mp isDone).2
      exact sound.movePass isPass nofun (fun _ _ isNext => by cases isNext; trivial) fun _ =>
        sound.current_of_older_nil isNone
    case isFalse => exact sound.movePass isPass nofun nofun nofun
  case h_8 =>
    have isCurrent := sound.current (.inr (by simp [State.closing, isPass, Pass.isClosing]))
    have inProgress : state.rows.keyRotationInProgress := sound.inProgress (sound.active isPass) (by simp [isPass])
    simp only [Finish.begin, inProgress, if_true] at taken
    cases taken
    exact sound.movePass isPass nofun (fun _ _ isNext => by cases isNext; trivial) fun _ => isCurrent
  case h_9 call =>
    cases taken
    exact sound.finish isPass
  case h_10 => cases taken

theorem Sound.step (sound : Sound state) {label : Label Id Key} (undisturbed : state.undisturbed label)
    (taken : state.step label = some after) : Sound after := by
  cases label <;> simp only [State.step] at taken
  case take id =>
    cases taken
    exact sound.setWriters (forall_append sound.writers (sound.known_current rfl rfl))
  case encrypt index iv =>
    split at taken
    case h_1 => cases taken
    case h_2 writer isWriter =>
      rcases map_eq_some_iff.mp taken with ⟨next, isNext, rfl⟩
      have isKnown := sound.writers writer (List.mem_of_getElem? isWriter)
      refine sound.setWriters (forall_move sound.writers fun moved isMoved => ?_)
      cases isMoved
      cases writer with
      | holding id key version =>
        cases isNext
        exact isKnown
      | staged row => cases isNext
  case commit index =>
    split at taken
    case h_1 row isWriter =>
      cases taken
      exact sound.commit isWriter undisturbed
    case h_2 => cases taken
  case abandon index =>
    rcases guarded taken with ⟨_, rfl⟩
    exact sound.setWriters (forall_move sound.writers nofun)
  case commitEmpty id =>
    cases taken
    exact sound.upsertFile nofun nofun
  case prepare next =>
    cases taken
    exact sound.prepare undisturbed
  case advance index =>
    split at taken
    case h_1 => cases taken
    case h_2 call isCall =>
      cases taken
      exact sound.advance isCall rfl
  case enter =>
    rcases guarded taken with ⟨isRotating, rfl⟩
    exact sound.enter (List.isEmpty_iff.mp undisturbed) isRotating
  case pass index event =>
    split at taken
    case h_1 => cases taken
    case h_2 pass isPass =>
      rcases map_eq_some_iff.mp taken with ⟨result, stepped, rfl⟩
      rw [move_of_single sound.onePass isPass]
      exact sound.passStep (eq_singleton sound.onePass isPass).1 stepped

end Pass

/-! ## Runs -/

theorem sound_initial {retired : List (RetiredRow Key)} (isCurrent : forall row, row ∈ files -> row.state.encrypted ->
      row.state.keyVersion = version ∧ row.key = key) (isPast : forall named, named ∈ salvaged -> named < version) :
    Sound (initial key version retired salvaged files) where
  files := fun row isRow isSealed =>
    ⟨Nat.le_of_eq (isCurrent row isRow isSealed).1, fun _ => (isCurrent row isRow isSealed).2,
      fun named isNamed => (isCurrent row isRow isSealed).1 ▸ isPast named isNamed⟩
  writers := nofun
  salvages := isPast
  rows := ⟨_, rfl, Nat.le_refl version⟩
  passes := nofun
  onePass := Nat.zero_le 1
  idle := fun _ => rfl
  alone := nofun
  inProgress := nofun
  single := Nat.zero_le 1
  prepares := nofun
  current := fun _ row isRow isSealed => (isCurrent row isRow isSealed).1

section Runs

variable [DecidableEq Id] [DecidableEq Key]

end Runs

/-! ## Runs of one writer and one pass -/

def firstFile : FileRow Nat Nat :=
  { id := 0, state := { iv := [1], keyVersion := 1 }, key := 10 }

/-- The key 10 of version 1 is rotated to the key 20. -/
def prepareRotation : List (Label Nat Nat) :=
  [.prepare 20, .advance 0, .advance 0, .advance 0]

def rotateNext (iv : Str) : List (Label Nat Nat) :=
  [.pass 0 (.rotate 0 .begin), .pass 0 (.rotate 0 .check), .pass 0 (.rotate 0 (.reseal .backing iv)),
    .pass 0 (.rotate 0 .commit)]

def passUntilListed : List (Label Nat Nat) :=
  [.enter, .pass 0 .start, .pass 0 (.recover true), .pass 0 .list]

def passToEnd : List (Label Nat Nat) :=
  [.pass 0 .join, .pass 0 (.reconcile true), .pass 0 .listAgain, .pass 0 .finish, .pass 0 .finish, .pass 0 .finish]

/-- A writer takes the key before the rotation and commits during it; the pass rotates its row too. -/
def committedInTime : List (Label Nat Nat) :=
  [.take 1] ++ prepareRotation ++ [.encrypt 0 [2], .commit 0] ++ passUntilListed ++ rotateNext [3] ++ rotateNext [4] ++
    passToEnd

end KeyRotation
end Vault
end Vaulthalla
