import Vaulthalla.Content.Writers

namespace Vaulthalla
namespace Content

open Foundation Transition

/-!
# Content replacement

Behind the writers stands one protocol.  New bytes are staged in the sidecar,
the row is moved to them, and the sidecar takes the place of the backing file;
before the row has moved the writer may back out, and it may publish what it
staged.  A rotation without a local copy replaces the object and the row only.

A writer's position has a phase of this protocol, and every step of a writer
is one of its moves, unless the writer is stopped between the row and the
rename.  What holds of the file is said and proved about the phases.
-/

inductive Phase
  | resting
  | staged (next : Ciphertext)
  | committed | remote

def WriterControl.phase : WriterControl -> Phase
  | .staged next => .staged next
  | .resealed _ next => .staged next
  | .published _ next => .staged next
  | .committed => .committed
  | .downloaded _ _ _ => .remote
  | .described _ _ _ _ => .remote
  | .adopted _ _ => .remote
  | _ => .resting

/-- The moves of a content replacement. -/
inductive Replacement (file : SharedFile) : Phase -> SharedFile -> Phase -> Prop
  | wait (phase : Phase) : Replacement file phase file phase
  | resolve (resolved : SharedFile) (found : resolveSidecar file file.row = some resolved) :
      Replacement file .resting resolved .resting
  | clear : Replacement file .resting { file with sidecar := none } .resting
  | stage (next : Ciphertext) : Replacement file .resting { file with sidecar := some next } (.staged next)
  | publish (next : Ciphertext) :
      Replacement file (.staged next) { file with object := some { bytes := next, metadata := next.state } }
        (.staged next)
  | abandon (next : Ciphertext) : Replacement file (.staged next) { file with sidecar := none } .resting
  /-- The row update failed, and the sidecar is left for recovery. -/
  | suspend (next : Ciphertext) : Replacement file (.staged next) file .resting
  | commit (next : Ciphertext) : Replacement file (.staged next) { file with row := next.state } .committed
  | rename (sidecar : Ciphertext) (present : file.sidecar = some sidecar) :
      Replacement file .committed { file with backing := some sidecar, sidecar := none } .resting
  | enterRemote (noCopy : file.backing = none) : Replacement file .resting file .remote
  | republish (next : Ciphertext) :
      Replacement file .remote { file with object := some { bytes := next, metadata := next.state } } .remote
  | leaveRemote (row : EncryptionState) : Replacement file .remote { file with row := row } .resting

/-- The writer is stopped between its row update and its rename. -/
def WriterEvent.stopsHalfway : WriterEvent -> Bool
  | .renameFails => true
  | .commitUnknown applied => applied
  | _ => false

variable {file : SharedFile}

/-- Every step of a writer is a move of the replacement protocol. -/
theorem replacement_of_writerStep {after : SharedFile} {control moved : WriterControl} {event : WriterEvent}
    (taken : writerStep file control event = some (after, moved)) (wholly : event.stopsHalfway = false) :
    Replacement file control.phase after moved.phase := by
  unfold writerStep at taken
  split at taken
  · cases taken
    exact .wait _
  · cases taken
    exact .wait _
  · cases taken
    exact .stage _
  · cases taken
    exact .clear
  · cases taken
    exact .commit _
  · subst wholly
    cases taken
    exact .abandon _
  · cases taken
    exact .abandon _
  · rcases guarded taken with ⟨_, ⟨⟩⟩
    exact .wait _
  · cases taken
    exact .wait _
  · -- `rotateFile` reads the row again and settles a sidecar that was left behind.
    split at taken
    · cases taken
      exact .wait _
    · rename_i sameRow
      rw [← not_not.mp sameRow] at taken
      cases resolution : resolveSidecar file file.row with
      | none =>
        simp only [resolution] at taken
        cases taken
        exact .wait _
      | some resolved =>
        simp only [resolution] at taken
        cases taken
        exact .resolve _ resolution
  · cases taken
    exact .wait _
  · rcases guarded taken with ⟨_, ⟨⟩⟩
    exact .stage _
  · cases taken
    exact .publish _
  · cases taken
    exact .abandon _
  · split at taken
    · cases taken
      exact .commit _
    · cases taken
      exact .abandon _
  · subst wholly
    cases taken
    exact .suspend _
  · cases taken
    exact .abandon _
  · split at taken
    · simp at taken
    rename_i sidecar present
    cases taken
    exact .rename sidecar present
  · simp [WriterEvent.stopsHalfway] at wholly
  · split at taken
    · rename_i noCopy _
      cases taken
      exact .enterRemote noCopy
    · simp at taken
  · rcases Option.map_eq_some_iff.mp taken with ⟨object, _, same⟩
    cases same
    exact .wait _
  · cases taken
    exact .leaveRemote file.row
  · rcases guarded taken with ⟨_, ⟨⟩⟩
    exact .wait _
  · rcases guarded taken with ⟨_, ⟨⟩⟩
    exact .republish _
  · cases taken
    exact .leaveRemote file.row
  · cases taken
    exact .leaveRemote _
  · cases taken
    exact .leaveRemote file.row
  · simp at taken

/-! ## Row, backing file and object -/

/-- The row describes the backing file, if there is one. -/
def Settled (file : SharedFile) : Prop :=
  forall bytes, file.backing = some bytes -> bytes.state = file.row

/-- What holds of the file in each phase. -/
def Progress (file : SharedFile) : Phase -> Prop
  | .resting => Settled file
  | .staged next => file.sidecar = some next ∧ Settled file
  | .committed => forall sidecar, file.sidecar = some sidecar -> sidecar.state = file.row
  | .remote => file.backing = none

/-- The object decrypts under its own metadata. -/
def ObjectAgrees (file : SharedFile) : Prop :=
  forall object, file.object = some object -> object.bytes.authenticates object.metadata = true

theorem Settled.of_none (noCopy : file.backing = none) : Settled file := by
  intro bytes present
  simp [noCopy] at present

theorem ObjectAgrees.of_sealed {next : Ciphertext}
    (stored : file.object = some { bytes := next, metadata := next.state }) : ObjectAgrees file := by
  intro object present
  rw [stored] at present
  cases present
  simp

/-- A sidecar is promoted only if the row describes it. -/
theorem resolveSidecar_spec {resolved : SharedFile} (found : resolveSidecar file file.row = some resolved)
    (settled : Settled file) : Settled resolved ∧ resolved.object = file.object := by
  unfold resolveSidecar at found
  split at found
  · cases found
    exact ⟨settled, rfl⟩
  · split at found
    · rename_i described
      cases found
      refine ⟨?_, rfl⟩
      intro bytes present
      cases present
      simpa using described
    · rcases guarded found with ⟨_, rfl⟩
      exact ⟨settled, rfl⟩

section

variable {file after : SharedFile} {phase moved : Phase} (move : Replacement file phase after moved)
  (progress : Progress file phase)

include move progress

/-- Each move leads to what holds in its phase.  In particular the row
describes the backing file again when the writer returns. -/
theorem progress_of_replacement : Progress after moved := by
  cases move with
  | wait | clear | publish | republish => exact progress
  | resolve resolved found => exact (resolveSidecar_spec found progress).1
  | stage next => exact ⟨rfl, progress⟩
  | abandon | suspend => exact progress.2
  | commit next =>
    intro sidecar present
    have staged : some next = some sidecar := progress.1.symm.trans present
    rw [Option.some.inj staged]
  | rename sidecar present =>
    intro bytes inPlace
    cases inPlace
    exact progress sidecar present
  | enterRemote noCopy => exact noCopy
  | leaveRemote row => exact .of_none progress

/-- A writer only stores objects with the metadata they were sealed under. -/
theorem objectAgrees_of_replacement (agrees : ObjectAgrees file) : ObjectAgrees after := by
  cases move with
  | resolve resolved found =>
    intro object present
    rw [(resolveSidecar_spec found progress).2] at present
    exact agrees object present
  | publish | republish => exact .of_sealed rfl
  | _ => exact agrees

end

end Content
end Vaulthalla
