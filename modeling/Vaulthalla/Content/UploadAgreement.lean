import Mathlib.Data.Fintype.Basic
import Vaulthalla.Content.Replacement

namespace Vaulthalla
namespace Content

open Foundation Transition

/-!
# Uploads and the metadata they carry

An object decrypts under its own metadata when the row an upload was given and
the backing file it opened belong to the same write.  The writers keep row and
backing file together under the content lock, apart from the time between the
row update and the rename.  An upload that reads its row and opens the file
outside the lock can see the two from different writes.

The theorem assumes what the lock would give: no writer is at work on the file
between the two reads of an upload.  It also assumes that no writer is stopped
between its row update and its rename, since the row is then ahead of the
backing file for good.
-/

section Uploads

variable {Writer Upload : Type} [DecidableEq Writer] [DecidableEq Upload]

/-! ## Undisturbed uploads -/

variable (system : System Writer Upload)

/-- An upload reads its row while the content lock is free, and a writer takes
the lock while no upload is about to open the file.  No writer is stopped
halfway. -/
def Undisturbed (label : Label Writer Upload) : Prop :=
  match label with
  | .upload _ event => event = .readRow -> system.lock = none
  | .writer _ event =>
    event.stopsHalfway = false ∧
      (system.lock = none -> forall upload, (system.uploads upload).awaitsOpen = false)

instance [Fintype Upload] (system : System Writer Upload) :
    (label : Label Writer Upload) -> Decidable (Undisturbed system label)
  | .upload _ _ => inferInstanceAs (Decidable (_ -> _))
  | .writer _ _ => inferInstanceAs (Decidable (_ ∧ _))

/-- Nobody is at work on the file, and row, backing file and object agree. -/
structure Initial : Prop where
  lock : system.lock = none
  writers : forall writer, system.writers writer = .idle
  uploads : forall upload, system.uploads upload = .idle
  settled : Settled system.file
  object : ObjectAgrees system.file

/-- What an upload has read so far fits together. -/
def UploadAgrees (lock : Option Writer) (row : EncryptionState) : UploadControl -> Prop
  | .idle => True
  | .given metadata => lock = none ∧ row = metadata
  | .opened metadata bytes => bytes.authenticates metadata = true

/-- The invariant of undisturbed runs. -/
structure Agreement : Prop where
  object : ObjectAgrees system.file
  free : system.lock = none -> Settled system.file
  held : forall writer, system.lock = some writer -> Progress system.file (system.writers writer).phase
  others : forall writer, system.lock ≠ some writer -> system.writers writer = .idle
  uploads : forall upload, UploadAgrees system.lock system.file.row (system.uploads upload)

omit [DecidableEq Writer] [DecidableEq Upload] in
theorem agreement_of_initial {system : System Writer Upload} (initial : Initial system) : Agreement system := by
  refine ⟨initial.object, fun _ => initial.settled, ?_, fun writer _ => initial.writers writer, ?_⟩
  · intro writer held
    simp [initial.lock] at held
  · intro upload
    rw [initial.uploads upload]
    trivial

omit [DecidableEq Writer] [DecidableEq Upload] in
/-- The phase of a writer that may move holds of the file, whether or not it has the lock yet. -/
theorem Agreement.progress {system : System Writer Upload} (agreement : Agreement system) {writer : Writer}
    (mayMove : system.lock = none ∨ system.lock = some writer) :
    Progress system.file (system.writers writer).phase := by
  rcases mayMove with free | held
  · rw [agreement.others writer (by simp [free])]
    exact agreement.free free
  · exact agreement.held writer held

/-! ## Steps -/

theorem agreement_writer {system next : System Writer Upload} {writer : Writer} {event : WriterEvent}
    (undisturbed : Undisturbed system (.writer writer event))
    (taken : step system (.writer writer event) = some next) (agreement : Agreement system) : Agreement next := by
  rcases step_writer taken with ⟨mayMove, file, control, moved, rfl⟩
  rcases undisturbed with ⟨wholly, nobodyReads⟩
  have progress := agreement.progress mayMove
  have move := replacement_of_writerStep moved wholly
  have progressAfter := progress_of_replacement move progress
  refine ⟨objectAgrees_of_replacement move progress agreement.object, ?_, ?_, ?_, ?_⟩
  · intro released
    by_cases returns : control = .idle
    · subst returns
      exact progressAfter
    · simp [returns] at released
  · intro holder holds
    by_cases returns : control = .idle
    · simp [returns] at holds
    have same : writer = holder := by simpa [returns] using holds
    subst same
    simpa using progressAfter
  · intro other notHolder
    by_cases same : other = writer
    · subst same
      by_cases returns : control = .idle
      · simp [returns]
      · simp [returns] at notHolder
    · have notBefore : system.lock ≠ some other := by
        rcases mayMove with free | held
        · simp [free]
        · simpa [held] using fun equal => same equal.symm
      simpa [same] using agreement.others other notBefore
  · -- An upload that has its row only would still be reading.
    intro upload
    have agreed := agreement.uploads upload
    cases position : system.uploads upload with
    | idle => trivial
    | given metadata =>
      rw [position] at agreed
      have notReading := nobodyReads agreed.1 upload
      simp [position, UploadControl.awaitsOpen] at notReading
    | opened metadata bytes =>
      simpa [UploadAgrees, position] using agreed

/-- The moves of an upload. -/
inductive UploadMove (file : SharedFile) : UploadControl -> UploadEvent -> SharedFile -> UploadControl -> Prop
  | read : UploadMove file .idle .readRow file (.given file.row)
  | opens (metadata : EncryptionState) (bytes : Ciphertext) (present : file.backing = some bytes) :
      UploadMove file (.given metadata) .openBacking file (.opened metadata bytes)
  | complete (metadata : EncryptionState) (bytes : Ciphertext) :
      UploadMove file (.opened metadata bytes) .complete
        { file with object := some { bytes := bytes, metadata := metadata } } .idle
  | fail (control : UploadControl) : UploadMove file control .fail file .idle

theorem uploadMove_of_uploadStep {file after : SharedFile} {control moved : UploadControl} {event : UploadEvent}
    (taken : uploadStep file control event = some (after, moved)) : UploadMove file control event after moved := by
  unfold uploadStep at taken
  split at taken
  · cases taken
    exact .read
  · rename_i metadata
    cases present : file.backing with
    | none => simp [present] at taken
    | some bytes =>
      simp only [present] at taken
      rcases unguarded taken with ⟨_, ⟨⟩⟩
      exact .opens metadata bytes present
  · cases taken
    exact .complete _ _
  · cases taken
    exact .fail _
  · simp at taken

theorem progress_with_object {file : SharedFile} {phase : Phase} (progress : Progress file phase)
    (object : Option StoredObject) : Progress { file with object := object } phase := by
  cases phase <;> exact progress

theorem agreement_upload {system next : System Writer Upload} {upload : Upload} {event : UploadEvent}
    (undisturbed : Undisturbed system (.upload upload event))
    (taken : step system (.upload upload event) = some next) (agreement : Agreement system) : Agreement next := by
  rcases Option.map_eq_some_iff.mp taken with ⟨⟨file, control⟩, moved, rfl⟩
  have agreed := agreement.uploads upload
  have updated : forall position, UploadAgrees system.lock system.file.row position ->
      forall other, UploadAgrees system.lock system.file.row
        (Function.update system.uploads upload position other) :=
    fun position agrees => forall_update agrees fun other _ => agreement.uploads other
  have move := uploadMove_of_uploadStep moved
  generalize system.uploads upload = position at agreed move
  cases move with
  | read =>
    exact ⟨agreement.object, agreement.free, agreement.held, agreement.others,
      updated _ ⟨undisturbed rfl, rfl⟩⟩
  | opens metadata bytes present =>
    -- The lock has been free since the row was read, so the row still describes the file.
    rcases agreed with ⟨free, sameRow⟩
    have described : bytes.state = metadata := (agreement.free free bytes present).trans sameRow
    exact ⟨agreement.object, agreement.free, agreement.held, agreement.others,
      updated _ ((Ciphertext.authenticates_iff bytes metadata).mpr described)⟩
  | complete metadata bytes =>
    refine ⟨?_, agreement.free, ?_, agreement.others, updated _ trivial⟩
    · intro object present
      cases present
      exact agreed
    · intro writer held
      exact progress_with_object (agreement.held writer held) _
  | fail =>
    exact ⟨agreement.object, agreement.free, agreement.held, agreement.others, updated _ trivial⟩

/-! ## Runs -/

/-- Along undisturbed runs every object under the file's key decrypts under
the vector and key version in its own metadata. -/
theorem uploaded_object_authenticates {start final : System Writer Upload} {labels : List (Label Writer Upload)}
    (initial : Initial start) (reached : run step start labels = some final)
    (undisturbed : Along step Undisturbed start labels) :
    forall object, final.file.object = some object -> object.bytes.authenticates object.metadata = true := by
  have agreement : Agreement final := by
    apply run_induction _ reached undisturbed (agreement_of_initial initial)
    intro system label next allowed taken holds
    cases label with
    | writer writer event => exact agreement_writer allowed taken holds
    | upload upload event => exact agreement_upload allowed taken holds
  exact agreement.object

end Uploads

/-! ## One writer and one upload -/

/-- The content of a file at its first and at its second write. -/
def firstBytes : Ciphertext :=
  { state := { iv := str "iv1", keyVersion := 1 }, content := str "first" }

def secondBytes : Ciphertext :=
  { state := { iv := str "iv2", keyVersion := 1 }, content := str "second" }

/-- A file at rest that was never uploaded. -/
def restingSystem : System Unit Unit :=
  { file := { row := firstBytes.state, backing := some firstBytes, sidecar := none, object := none }
    lock := none
    writers := fun _ => .idle
    uploads := fun _ => .idle }

theorem restingSystem_initial : Initial restingSystem := by
  refine ⟨rfl, fun _ => rfl, fun _ => rfl, ?_, ?_⟩
  · intro bytes present
    cases present
    rfl
  · intro object present
    cases present

/-- An overwrite of the file. -/
def overwrite : List (Label Unit Unit) :=
  [.writer () .write, .writer () (.stage secondBytes), .writer () .commit, .writer () .rename]

/-- An upload after the overwrite sends the new bytes with their own metadata. -/
theorem uploaded_object_authenticates_after_overwrite :
    let labels := overwrite ++ [.upload () .readRow, .upload () .openBacking, .upload () .complete]
    Exists fun final => run step restingSystem labels = some final ∧
      Exists fun object => final.file.object = some object ∧ object.bytes = secondBytes ∧
        object.bytes.authenticates object.metadata = true := by
  intro labels
  have objectLeft : ((run step restingSystem labels).map (·.file.object)) =
      some (some { bytes := secondBytes, metadata := secondBytes.state }) := by
    decide +kernel
  rcases Option.map_eq_some_iff.mp objectLeft with ⟨final, reached, present⟩
  exact ⟨final, reached, _, present, rfl,
    uploaded_object_authenticates restingSystem_initial reached (by decide +kernel) _ present⟩

/-- An upload whose row was read before the overwrite, and which opens the
file after it, leaves the new bytes under the old vector. -/
theorem overwrite_between_row_and_bytes :
    Initial restingSystem ∧
      ((run step restingSystem
          (.upload () .readRow :: overwrite ++ [.upload () .openBacking, .upload () .complete])).map
        fun system => system.file.object) =
        some (some { bytes := secondBytes, metadata := firstBytes.state }) ∧
      secondBytes.authenticates firstBytes.state = false :=
  ⟨restingSystem_initial, by decide +kernel, by decide⟩

end Content
end Vaulthalla
