import Vaulthalla.Content.RecoveryPass

namespace Vaulthalla
namespace Content
namespace Sidecar

open Foundation Transition Function Recovery

/-!
# When a recovery harms writers

The recovery decides by the rows that it loaded at its first lookup, and acts
later.  It discards the sidecar of a writer whose row update it has not seen,
and promotes the sidecar of one whose row update it has; in both cases the
rename of the writer finds no sidecar, and after a discard the row describes
bytes that are nowhere.

Where neither a promotion nor a discard comes between the creation of a
sidecar by a writer and its rename, what the recovery decides about is a
sidecar left by an earlier process.  No writer has touched that file since, so
its row is still the one that was loaded.
-/

/-! ## What the recovery may still do to a file -/

/-- The writer counts on the sidecar that it has created. -/
def Control.ownsSidecar : Control -> Bool
  | .created _ | .staged _ | .hashed _ | .committed _ => true
  | .idle | .started _ | .cleared _ => false

/-- What is left to be done for one file, with the row that was loaded for it. -/
inductive Watch
  | ended
  | waiting (row : Option Row)
  | handled (phase : Phase) (row : Row)

/-- What holds of a file whose sidecar is not the one of a writer. -/
def Undecided (file : File) : Watch -> Prop
  | .ended => Settled file
  | .waiting row => Recoverable file ∧ (file.sidecar ≠ none -> row.all (fun row => row = file.row) = true)
  | .handled .looked row | .handled .present row => Recoverable file ∧ (file.sidecar ≠ none -> row = file.row)
  | .handled .promoting row => Settled file ∧ file.sidecar = none ∨ Promotable file ∧ row = file.row
  | .handled .unread row | .handled .discarding row => Settled file ∧ (file.sidecar ≠ none -> row = file.row)

/-- What holds of a file, by where its writer stands. -/
def Good (file : File) (watch : Watch) : Control -> Prop
  | .idle | .started _ => Undecided file watch
  | .cleared _ => file.sidecar = none
  | .created _ => file.sidecar = some .torn
  | .staged next | .hashed next => file.sidecar = some (.sealed next)
  | .committed next => Updated (.sealed next) file.backing file

variable {file : File}

theorem undecided_of_clean (settled : Settled file) (isNone : file.sidecar = none) (watch : Watch) :
    Undecided file watch := by
  have vacuous : forall {goal : Prop}, file.sidecar ≠ none -> goal := fun isSome => absurd isNone isSome
  cases watch with
  | ended => exact settled
  | waiting row => exact ⟨settled.recoverable, vacuous⟩
  | handled phase row =>
    cases phase with
    | looked | present => exact ⟨settled.recoverable, vacuous⟩
    | promoting => exact .inl ⟨settled, isNone⟩
    | unread | discarding => exact ⟨settled, vacuous⟩

theorem Recoverable.settled_of_none (recoverable : Recoverable file) (isNone : file.sidecar = none) : Settled file :=
  recoverable.settled_of_unread (by rw [isNone]; rfl)

theorem promote_of_none (isNone : file.sidecar = none) : file.promote = file := by
  simp [File.promote, isNone]

/-! ## Steps of a writer -/

variable {control : Control} {event : WriteEvent} {row : Row}

theorem Good.writeStep {watch : Watch} {moved : Control} {after : File} {threw : Bool}
    (good : Good file watch control) (taken : writeStep file control event = some (after, moved, threw)) :
    Good after watch moved ∧ threw = false := by
  unfold Sidecar.writeStep at taken
  split at taken
  case h_1 next =>
    cases taken
    exact ⟨good, rfl⟩
  case h_2 next =>
    cases taken
    exact ⟨rfl, rfl⟩
  case h_3 next =>
    have isNone : file.sidecar = none := good
    rw [if_pos isNone] at taken
    cases taken
    exact ⟨rfl, rfl⟩
  case h_4 next =>
    have isTorn : file.sidecar = some .torn := good
    rw [if_pos isTorn] at taken
    cases taken
    exact ⟨rfl, rfl⟩
  case h_5 next =>
    have isStaged : file.sidecar = some (.sealed next) := good
    rw [if_neg (by simp [isStaged])] at taken
    cases taken
    exact ⟨good, rfl⟩
  case h_6 next =>
    cases taken
    exact ⟨⟨rfl, rfl, good, rfl⟩, rfl⟩
  case h_7 next =>
    have updated : Updated (.sealed next) file.backing file := good
    rw [if_neg (by simp [updated.sidecar])] at taken
    cases taken
    refine ⟨undecided_of_clean updated.promote ?_ watch, rfl⟩
    simp [File.promote, updated.sidecar]
  case h_8 => cases taken

/-! ## Steps of the recovery -/

/-- The recovery is done with the file, or comes to it once more. -/
theorem Undecided.again (settled : Settled file) (sameRow : file.sidecar ≠ none -> row = file.row) :
    Undecided file .ended ∧ Undecided file (.waiting (some row)) :=
  ⟨settled, settled.recoverable, fun isSome => by simp [sameRow isSome]⟩

theorem Undecided.readSidecar (undecided : Undecided file (.handled .present row)) :
    if authenticates file.sidecar row.state then Undecided file (.handled .promoting row)
    else Undecided file (.handled .unread row) := by
  rcases undecided with ⟨recoverable, sameRow⟩
  cases isSidecar : file.sidecar with
  | none =>
    exact ⟨recoverable.settled_of_none isSidecar, fun isSome => absurd isSidecar isSome⟩
  | some sidecar =>
    have isRow : row = file.row := sameRow (by simp [isSidecar])
    rw [← isSidecar, isRow]
    cases read : authenticates file.sidecar file.row.state with
    | false =>
      exact ⟨recoverable.settled_of_unread read, fun _ => rfl⟩
    | true =>
      rcases recoverable with settled | promotable
      · rw [settled.sidecar] at read
        cases read
      · exact .inr ⟨promotable, rfl⟩

theorem Undecided.promote (undecided : Undecided file (.handled .promoting row)) (watch : Watch) :
    Undecided file.promote watch := by
  rcases undecided with ⟨settled, isNone⟩ | ⟨promotable, _⟩
  · rw [promote_of_none isNone]
    exact undecided_of_clean settled isNone watch
  · have promoted := promotable.promote
    exact undecided_of_clean (settled_of_stored promoted.1 promoted.2) promoted.2 watch

theorem Undecided.discard (undecided : Undecided file (.handled .discarding row)) (watch : Watch) :
    Undecided file.removeSidecar watch := by
  have settled : Settled file.removeSidecar := ⟨undecided.1.stored, rfl⟩
  exact undecided_of_clean settled rfl watch

/-- A file that is looked at again or not at all, whatever its writer does. -/
theorem Good.change {watch other : Watch} (good : Good file watch control)
    (change : Undecided file watch -> Undecided file other) : Good file other control := by
  cases control with
  | idle | started => exact change good
  | _ => exact good

/-- A change of the file while no writer counts on its sidecar. -/
theorem Good.changeFile {watch other : Watch} {after : File} (good : Good file watch control)
    (isFree : control.ownsSidecar = false) (change : Undecided file watch -> Undecided after other)
    (removes : file.sidecar = none -> after.sidecar = none) : Good after other control := by
  cases control with
  | idle | started => exact change good
  | cleared => exact removes good
  | created | staged | hashed | committed => cases isFree

variable {Id : Type} [DecidableEq Id]

/-- What is left to be done for a file. -/
def Recovery.watch (recovery : Recovery Id) (id : Id) : Watch :=
  match recovery with
  | .idle => .waiting none
  | .walking todo found => if id ∈ todo ∨ id ∈ found then .waiting none else .ended
  | .resolving found rows => if id ∈ found then .waiting (rows.map fun rows => rows id) else .ended
  | .handling current phase rest rows =>
    if id = current then .handled phase (rows id)
    else if id ∈ rest then .waiting (some (rows id))
    else .ended
  | .finished => .ended

structure Sound (ids : List Id) (vault : Vault Id) : Prop where
  good : forall id, id ∈ ids -> Good (vault.files id) (vault.recovery.watch id) (vault.writers id)
  unfailed : forall id, id ∈ ids -> vault.failed id = false

/-- The recovery promotes or discards no sidecar that a writer counts on. -/
def Vault.undisturbed (vault : Vault Id) : Label Id -> Bool
  | .recover .promote | .recover .discard =>
    match vault.recovery with
    | .handling id _ _ _ => !(vault.writers id).ownsSidecar
    | _ => true
  | _ => true

variable {ids : List Id} {vault after : Vault Id}

theorem Sound.write (sound : Sound ids vault) {id : Id} (taken : vault.step ids (.write id event) = some after) :
    Sound ids after := by
  rcases Option.map_eq_some_iff.mp taken with ⟨⟨file, control, threw⟩, moved, rfl⟩
  constructor
  · intro other isFile
    by_cases same : other = id
    · subst same
      simp only [Vault.setFile, update_self]
      exact ((sound.good other isFile).writeStep moved).1
    · simp only [Vault.setFile, update_of_ne same]
      exact sound.good other isFile
  · intro other isFile
    by_cases same : other = id
    · subst same
      simp only [update_self, sound.unfailed other isFile, Bool.false_or]
      exact ((sound.good other isFile).writeStep moved).2
    · simp only [update_of_ne same]
      exact sound.unfailed other isFile

/-- The recovery moves on, and leaves the files as they are. -/
theorem Sound.moveOn (sound : Sound ids vault) {recovery : Recovery Id}
    (change : forall id, Undecided (vault.files id) (vault.recovery.watch id) ->
      id ∈ ids -> Undecided (vault.files id) (recovery.watch id)) : Sound ids { vault with recovery := recovery } :=
  ⟨fun id isFile => (sound.good id isFile).change fun undecided => change id undecided isFile, sound.unfailed⟩

section Handling

variable {current : Id} {phase : Phase} {rest : List Id} {rows : Id -> Row}

theorem watch_handling_other {id : Id} (isOther : id ≠ current) :
    (handling current phase rest rows).watch id = (resolving rest (some rows)).watch id := by
  simp [watch, isOther]

theorem watch_handling_self : (handling current phase rest rows).watch current = .handled phase (rows current) := by
  simp [watch]

section

variable (sound : Sound ids vault) (isHandled : vault.recovery = .handling current phase rest rows)

include sound isHandled

/-- A change of the file at hand, while no writer counts on its sidecar. -/
theorem Sound.changeFile (isFree : (vault.writers current).ownsSidecar = false)
    (change : forall watch, Undecided (vault.files current) (.handled phase (rows current)) -> Undecided file watch)
    (removes : (vault.files current).sidecar = none -> file.sidecar = none) :
    Sound ids { vault.setFile current file with recovery := .resolving rest (some rows) } := by
  refine ⟨?_, sound.unfailed⟩
  intro id isFile
  have good := sound.good id isFile
  rw [isHandled] at good
  by_cases isCurrent : id = current
  · subst isCurrent
    rw [watch_handling_self] at good
    simp only [Vault.setFile, update_self]
    exact good.changeFile isFree (change _) removes
  · rw [watch_handling_other isCurrent] at good
    simp only [Vault.setFile, update_of_ne isCurrent]
    exact good

/-- The recovery goes on with the file at hand. -/
theorem Sound.nextPhase {other : Phase} (change : Undecided (vault.files current) (.handled phase (rows current)) ->
      Undecided (vault.files current) (.handled other (rows current))) :
    Sound ids { vault with recovery := .handling current other rest rows } := by
  refine sound.moveOn ?_
  intro id undecided _
  rw [isHandled] at undecided
  by_cases isCurrent : id = current
  · subst isCurrent
    rw [watch_handling_self] at undecided ⊢
    exact change undecided
  · rw [watch_handling_other isCurrent] at undecided ⊢
    exact undecided

/-- The recovery is done with the file at hand and leaves it as it is. -/
theorem Sound.leave (change : Undecided (vault.files current) (.handled phase (rows current)) ->
      Settled (vault.files current) ∧ ((vault.files current).sidecar ≠ none -> rows current = (vault.files current).row)) :
    Sound ids { vault with recovery := .resolving rest (some rows) } := by
  refine sound.moveOn ?_
  intro id undecided _
  rw [isHandled] at undecided
  by_cases isCurrent : id = current
  · subst isCurrent
    rw [watch_handling_self] at undecided
    have again := Undecided.again (change undecided).1 (change undecided).2
    simp only [watch]
    split
    · exact again.2
    · exact again.1
  · rw [watch_handling_other isCurrent] at undecided
    exact undecided

end

end Handling

section

variable (sound : Sound ids vault)

include sound

/-- The walk has come to a file. -/
theorem Sound.visit {id : Id} {todo found : List Id} (isWalking : vault.recovery = .walking (id :: todo) found) :
    Sound ids { vault with
      recovery := .walking todo (if (vault.files id).sidecar = none then found else found ++ [id]) } := by
  refine sound.moveOn ?_
  intro other undecided _
  rw [isWalking] at undecided
  have isKept : other ∈ (if (vault.files id).sidecar = none then found else found ++ [id]) ↔
      other ∈ found ∨ other = id ∧ (vault.files id).sidecar ≠ none := by
    split
    · rename_i isNone
      simp [isNone]
    · rename_i isSome
      simp [isSome]
  simp only [watch, List.mem_cons] at undecided
  simp only [watch, isKept]
  by_cases isHere : other = id
  · subst isHere
    rw [if_pos (by simp)] at undecided
    split
    · exact undecided
    · rename_i isGone
      have isNone : (vault.files other).sidecar = none := by
        by_contra isSome
        exact isGone (.inr (.inr ⟨rfl, isSome⟩))
      exact undecided.1.settled_of_none isNone
  · simpa [isHere] using undecided

/-- The first lookup loads the rows. -/
theorem Sound.lookUp {id : Id} {rest : List Id} {rows : Option (Id -> Row)}
    (isResolving : vault.recovery = .resolving (id :: rest) rows) :
    Sound ids { vault with recovery := .handling id .looked rest (rows.getD fun id => (vault.files id).row) } := by
  refine sound.moveOn ?_
  intro other undecided _
  rw [isResolving] at undecided
  have loaded : forall row, row = (rows.getD fun id => (vault.files id).row) other ->
      Undecided (vault.files other) (.waiting (rows.map fun rows => rows other)) ->
      Recoverable (vault.files other) ∧ ((vault.files other).sidecar ≠ none -> row = (vault.files other).row) := by
    rintro row rfl ⟨recoverable, sameRow⟩
    refine ⟨recoverable, ?_⟩
    intro isSome
    cases rows with
    | none => rfl
    | some rows => simpa using sameRow isSome
  simp only [watch, List.mem_cons] at undecided
  simp only [watch]
  by_cases isHere : other = id
  · rw [if_pos (.inl isHere)] at undecided
    rw [if_pos isHere]
    exact loaded _ rfl undecided
  · rw [if_neg isHere]
    by_cases isLeft : other ∈ rest
    · rw [if_pos (.inr isLeft)] at undecided
      rw [if_pos isLeft]
      have waits := loaded _ rfl undecided
      exact ⟨waits.1, fun isSome => by simp [waits.2 isSome]⟩
    · rw [if_neg (by simp [isHere, isLeft])] at undecided
      rw [if_neg isLeft]
      exact undecided

theorem Sound.recover {event : RecoverEvent} (undisturbed : vault.undisturbed (.recover event))
    (taken : recoverStep ids vault event = some after) : Sound ids after := by
  unfold recoverStep at taken
  split at taken
  case h_1 isRecovery =>
    cases taken
    refine sound.moveOn ?_
    intro id undecided isFile
    simpa [watch, isRecovery, isFile] using undecided
  case h_2 id todo found isRecovery =>
    cases taken
    exact sound.visit isRecovery
  case h_3 found isRecovery =>
    cases taken
    refine sound.moveOn ?_
    intro id undecided _
    simpa [watch, isRecovery] using undecided
  case h_4 id rest rows isRecovery =>
    cases taken
    exact sound.lookUp isRecovery
  case h_5 id rest rows isRecovery =>
    split at taken
    · rename_i isNone
      cases taken
      refine sound.leave isRecovery fun undecided => ⟨undecided.1.settled_of_none isNone, ?_⟩
      exact fun isSome => absurd isNone isSome
    · cases taken
      exact sound.nextPhase isRecovery fun undecided => undecided
  case h_6 id rest rows isRecovery =>
    split at taken
    · rename_i read
      cases taken
      refine sound.nextPhase isRecovery fun undecided => ?_
      have decided := Undecided.readSidecar undecided
      rwa [if_pos read] at decided
    · rename_i unread
      cases taken
      refine sound.nextPhase isRecovery fun undecided => ?_
      have decided := Undecided.readSidecar undecided
      rwa [if_neg unread] at decided
  case h_7 id rest rows isRecovery =>
    cases taken
    have isFree : (vault.writers id).ownsSidecar = false := by
      simpa [Vault.undisturbed, isRecovery] using undisturbed
    refine sound.changeFile isRecovery isFree (fun watch undecided => .promote undecided watch) ?_
    intro isNone
    rw [promote_of_none isNone]
    exact isNone
  case h_8 id rest rows isRecovery =>
    split at taken
    · cases taken
      exact sound.nextPhase isRecovery fun undecided => undecided
    · cases taken
      exact sound.leave isRecovery fun undecided => undecided
  case h_9 id rest rows isRecovery =>
    cases taken
    have isFree : (vault.writers id).ownsSidecar = false := by
      simpa [Vault.undisturbed, isRecovery] using undisturbed
    exact sound.changeFile isRecovery isFree (fun watch undecided => .discard undecided watch) fun _ => rfl
  case h_10 rows isRecovery =>
    cases taken
    refine sound.moveOn ?_
    intro id undecided _
    simpa [watch, isRecovery] using undecided
  case h_11 => cases taken

theorem Sound.step {label : Label Id} (undisturbed : vault.undisturbed label)
    (taken : vault.step ids label = some after) : Sound ids after := by
  cases label with
  | write id event => exact sound.write taken
  | recover event => exact sound.recover undisturbed taken

end

theorem sound_initial {files : Id -> File} (recoverable : forall id, id ∈ ids -> Recoverable (files id)) :
    Sound ids (Vault.initial files) :=
  ⟨fun id isFile => ⟨recoverable id isFile, fun _ => rfl⟩, fun _ _ => rfl⟩

def Recovery.isFinished : Recovery Id -> Bool
  | .finished => true
  | _ => false

/-- The recovery and the writer of the file have returned. -/
def Vault.returned (vault : Vault Id) (id : Id) : Bool :=
  vault.recovery.isFinished && vault.writers id == .idle

theorem Sound.stored (sound : Sound ids vault) {id : Id} (isFile : id ∈ ids) (returned : vault.returned id) :
    (vault.files id).Stored := by
  have good := sound.good id isFile
  simp only [Vault.returned, Bool.and_eq_true, beq_iff_eq] at returned
  rw [returned.2] at good
  cases isRecovery : vault.recovery with
  | finished =>
    rw [isRecovery] at good
    have settled : Settled (vault.files id) := good
    exact settled.stored
  | idle | walking | resolving | handling => simp [isRecovery, isFinished] at returned

/-- In every run of one recovery and any writers, from files that a recovery settles, in which the recovery promotes
and discards no sidecar between its creation by a writer and the rename: no writer fails, and once the recovery and the
writers have returned every backing file is the stored form of the last content whose row update took effect. -/
theorem recovery_spares_writers (ids : List Id) (files : Id -> File) (labels : List (Label Id)) (final : Vault Id)
    (recoverable : forall id, id ∈ ids -> Recoverable (files id))
    (reached : run (Vault.step ids) (Vault.initial files) labels = some final)
    (undisturbed : Along (Vault.step ids) (fun vault label => vault.undisturbed label = true) (Vault.initial files)
      labels) :
    forall id, id ∈ ids -> final.failed id = false ∧ (final.returned id = true -> (final.files id).Stored) := by
  have sound : Sound ids final :=
    run_induction (fun _ _ _ isUndisturbed taken sound => .step sound isUndisturbed taken) reached undisturbed
      (sound_initial recoverable)
  exact fun id isFile => ⟨sound.unfailed id isFile, sound.stored isFile⟩

/-! ## Runs of one writer and the recovery -/

def writeUntilStaged : List (Label Unit) :=
  [.write () (.start (sealedBytes 1 [8])), .write () .remove, .write () .create, .write () .fill]

def writeToEnd : List (Label Unit) :=
  [.write () .hash, .write () .update, .write () .rename]

def recoverUntilDecided : List (Label Unit) :=
  [.recover .begin, .recover .visit, .recover .visit, .recover .lookUp, .recover .probe, .recover .readSidecar,
    .recover .readBacking]

/-- The writer has renamed its sidecar before the recovery discards it. -/
theorem recovery_spares_writers_late :
    Exists fun final : Vault Unit =>
      run (Vault.step [()]) (Vault.initial fun _ => oneByte)
        (writeUntilStaged ++ recoverUntilDecided ++ writeToEnd ++ [.recover .discard, .recover .finish]) = some final ∧
        final.failed () = false ∧ (final.files ()).Stored ∧ (final.files ()).content = [8] := by
  have evaluated : (run (Vault.step [()]) (Vault.initial fun _ => oneByte)
      (writeUntilStaged ++ recoverUntilDecided ++ writeToEnd ++ [.recover .discard, .recover .finish])).map
        (fun final => (final.returned (), (final.files ()).content)) = some (true, [8]) := by decide +kernel
  have undisturbed : Along (Vault.step [()]) (fun vault label => vault.undisturbed label = true)
      (Vault.initial fun _ => oneByte)
      (writeUntilStaged ++ recoverUntilDecided ++ writeToEnd ++ [.recover .discard, .recover .finish]) := by
    decide +kernel
  rcases Option.map_eq_some_iff.mp evaluated with ⟨final, reached, isFinal⟩
  simp only [Prod.mk.injEq] at isFinal
  have spared := recovery_spares_writers [()] (fun _ => oneByte) _ final
    (fun _ _ => (settled_of_stored stored_oneByte rfl).recoverable) reached undisturbed () (List.mem_singleton_self ())
  exact ⟨final, reached, spared.1, spared.2 isFinal.1, isFinal.2⟩

/-- The recovery discards the sidecar after the row update: the rename fails, and the row describes bytes that are
nowhere. -/
theorem recovery_harms_writer :
    Exists fun final : Vault Unit =>
      run (Vault.step [()]) (Vault.initial fun _ => oneByte)
        (writeUntilStaged ++ recoverUntilDecided ++
          [.write () .hash, .write () .update, .recover .discard, .write () .rename, .recover .finish]) = some final ∧
        final.returned () = true ∧ final.failed () = true ∧ (final.files ()).sidecar = none ∧
        ¬ (final.files ()).Stored := by
  have evaluated : (run (Vault.step [()]) (Vault.initial fun _ => oneByte)
      (writeUntilStaged ++ recoverUntilDecided ++
        [.write () .hash, .write () .update, .recover .discard, .write () .rename, .recover .finish])).map
        (fun final => (final.returned (), final.failed (), final.files ())) =
      some (true, true, oneByte.setRow (.sealed (sealedBytes 1 [8]))) := by decide +kernel
  rcases Option.map_eq_some_iff.mp evaluated with ⟨final, reached, isFinal⟩
  simp only [Prod.mk.injEq] at isFinal
  rcases isFinal with ⟨returned, failed, isFile⟩
  refine ⟨final, reached, returned, failed, by rw [isFile]; rfl, ?_⟩
  rw [isFile]
  intro stored
  have read := stored.authenticates rfl
  revert read
  decide +kernel

end Sidecar
end Content
end Vaulthalla
