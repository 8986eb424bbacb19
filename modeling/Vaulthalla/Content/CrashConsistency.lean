import Vaulthalla.Content.Sidecar

namespace Vaulthalla
namespace Content
namespace Sidecar

open Foundation CrashProgram Transition

/-!
# Recovery after a kill

Up to the row update the backing file is what the row describes, and the
sidecar is not; between the row update and the rename it is the other way
round.  Recovery tells the two apart by asking which of them authenticates
under the row, and this fails in two cases.  An empty replacement has a sidecar
that never authenticates, and recovery discards it under a row without a
vector.  And `createFile` and `seal` remove a sidecar without asking whether
the row describes it, so that a second kill finds neither copy.
-/

/-! ## States that a recovery settles -/

/-- The bytes are the stored form of the content under this row. -/
def Describes (row : Row) (content : Str) (bytes : Option Bytes) : Prop :=
  row.size = content.length ∧
    if row.state.encrypted then
      Exists fun stored : Sealed => bytes = some (.sealed stored) ∧ stored.state = row.state ∧ stored.content = content
    else bytes = some (.plain content)

/-- The backing file is the stored form of the last content whose row update took effect. -/
def File.Stored (file : File) : Prop :=
  Describes file.row file.content file.backing

structure Settled (file : File) : Prop where
  stored : file.Stored
  sidecar : authenticates file.sidecar file.row.state = false

structure Promotable (file : File) : Prop where
  size : file.row.size = file.content.length
  sidecar : Exists fun next : Sealed =>
    file.sidecar = some (.sealed next) ∧ next.state = file.row.state ∧ next.content = file.content

def Recoverable (file : File) : Prop :=
  Settled file ∨ Promotable file

variable {file : File}

theorem Describes.authenticates {row : Row} {content : Str} {bytes : Option Bytes}
    (describes : Describes row content bytes) (encrypted : row.state.encrypted) :
    authenticates bytes row.state = true := by
  rcases describes with ⟨_, form⟩
  rw [if_pos encrypted] at form
  rcases form with ⟨stored, rfl, same, _⟩
  simp [Sidecar.authenticates, Bytes.authenticates, same]

theorem Promotable.encrypted (promotable : Promotable file) : file.row.state.encrypted := by
  rcases promotable.sidecar with ⟨next, _, sameState, _⟩
  rw [← sameState]
  exact next.isEncrypted

theorem Promotable.read (promotable : Promotable file) : authenticates file.sidecar file.row.state := by
  rcases promotable.sidecar with ⟨next, isSidecar, same, _⟩
  simp [authenticates, isSidecar, Bytes.authenticates, same]

theorem Promotable.promote (promotable : Promotable file) : file.promote.Stored ∧ file.promote.sidecar = none := by
  rcases promotable.sidecar with ⟨next, isSidecar, sameState, sameContent⟩
  simp only [File.promote, isSidecar, File.Stored, Describes, promotable.encrypted, if_true, and_true]
  exact ⟨promotable.size, next, rfl, sameState, sameContent⟩

theorem Recoverable.settled_of_unread (recoverable : Recoverable file)
    (unread : authenticates file.sidecar file.row.state = false) : Settled file := by
  rcases recoverable with settled | promotable
  · exact settled
  · rw [promotable.read] at unread
    cases unread

theorem row_resolveSidecar (state : EncryptionState) (file : File) :
    (resolveSidecar state file).row = file.row ∧ (resolveSidecar state file).content = file.content := by
  unfold resolveSidecar File.promote File.removeSidecar
  split
  · split <;> exact ⟨rfl, rfl⟩
  · exact ⟨rfl, rfl⟩
  · exact ⟨rfl, rfl⟩
  · exact ⟨rfl, rfl⟩

/-- A recovery finds what the row describes and leaves no sidecar. -/
theorem Recoverable.recovers (recoverable : Recoverable file) :
    (recoverSidecars file).Stored ∧ (recoverSidecars file).sidecar = none := by
  rcases recoverable with settled | promotable
  · have stored := settled.stored
    unfold recoverSidecars resolveSidecar resolution
    cases isSidecar : file.sidecar with
    | none => exact ⟨stored, isSidecar⟩
    | some sidecar =>
      have unread := settled.sidecar
      simp only [isSidecar, authenticates, Option.any_some] at unread
      cases encrypted : file.row.state.encrypted with
      | false => exact ⟨stored, rfl⟩
      | true =>
        simp only [Bool.not_true, Bool.false_eq_true, if_false, unread, stored.authenticates encrypted, if_true]
        exact ⟨stored, rfl⟩
  · have promoted : resolution file file.row.state = .promoted := by
      rcases promotable.sidecar with ⟨next, isSidecar, sameState, _⟩
      simp [resolution, isSidecar, promotable.encrypted, Bytes.authenticates, sameState]
    rw [recoverSidecars, resolveSidecar, promoted]
    exact promotable.promote

theorem settled_of_stored (stored : file.Stored) (isNone : file.sidecar = none) : Settled file :=
  ⟨stored, by rw [isNone]; rfl⟩

/-! ## One replacement -/

/-- The vector of the new bytes is not the one of the row. -/
def Replacement.fresh (next : Replacement) (row : Row) : Bool :=
  !next.bytes.authenticates row.state

/-- The event at each step of a replacement that is killed before or after one of them, or not at all. -/
def killedAt (kill : Option (Point × Bool)) (point : Point) : Event :=
  match kill with
  | none => .done
  | some (place, applied) => if place = point then .killed applied else .done

theorem isThrown_killedAt (kill : Option (Point × Bool)) (point : Point) : (killedAt kill point).isThrown = false := by
  unfold killedAt
  split
  · rfl
  · split <;> rfl

variable {kill : Option (Point × Bool)}

theorem killedAt_eq_killed {point : Point} {applied : Bool} (isKilled : killedAt kill point = .killed applied) :
    kill = some (point, applied) := by
  unfold killedAt at isKilled
  split at isKilled
  · cases isKilled
  split at isKilled
  · rename_i same
    cases isKilled
    rw [same]
  · cases isKilled

/-- The kill does not come between the row update and the rename. -/
def uninterrupted : Option (Point × Bool) -> Bool
  | some (.update, applied) => !applied
  | some (.bookkeeping, _) => false
  | some (.rename, applied) => applied
  | _ => true

/-- Before the row update. -/
structure Staging (next : Replacement) (backing : Option Bytes) (file : File) : Prop where
  settled : Settled file
  fresh : next.fresh file.row = true
  backing : file.backing = backing

/-- The sidecar is complete. -/
structure Staged (next : Replacement) (backing : Option Bytes) (file : File) : Prop extends
  Staging next backing file where
  sidecar : file.sidecar = some next.bytes

/-- Between the row update and the rename. -/
structure Updated (next : Replacement) (backing : Option Bytes) (file : File) : Prop where
  row : file.row = next.row
  content : file.content = next.content
  sidecar : file.sidecar = some next.bytes
  backing : file.backing = backing

variable {next : Replacement} {backing : Option Bytes}

section

variable (staging : Staging next backing file)

include staging

theorem Staging.recoverable : Recoverable file :=
  .inl staging.settled

theorem Staging.removeSidecar : Staging next backing file.removeSidecar :=
  ⟨⟨staging.settled.stored, rfl⟩, staging.fresh, staging.backing⟩

theorem Staging.setTorn : Staging next backing (file.setSidecar .torn) :=
  ⟨⟨staging.settled.stored, rfl⟩, staging.fresh, staging.backing⟩

theorem Staging.fill : Staged next backing (file.setSidecar next.bytes) := by
  refine ⟨⟨⟨staging.settled.stored, ?_⟩, staging.fresh, staging.backing⟩, rfl⟩
  simpa [Replacement.fresh, File.setSidecar, authenticates] using staging.fresh

end

theorem Staged.setRow (staged : Staged next backing file) : Updated next backing (file.setRow next) :=
  ⟨rfl, rfl, staged.sidecar, staged.backing⟩

theorem describes_replacement (next : Replacement) : Describes next.row next.content (some next.bytes) := by
  cases next with
  | empty => exact ⟨rfl, rfl⟩
  | sealed next =>
    have encrypted : (Replacement.sealed next).row.state.encrypted := next.isEncrypted
    refine ⟨rfl, ?_⟩
    rw [if_pos encrypted]
    exact ⟨next, rfl, rfl, rfl⟩

theorem Updated.promote (updated : Updated next backing file) : Settled file.promote := by
  have promoted : file.promote = { file with backing := some next.bytes, sidecar := none } := by
    simp [File.promote, updated.sidecar]
  rw [promoted]
  refine ⟨?_, rfl⟩
  simp only [File.Stored, updated.row, updated.content]
  exact describes_replacement next

/-- A sealed sidecar is found by the recovery; an empty one is discarded, and the backing file has to be empty. -/
theorem Updated.recoverable (updated : Updated next backing file)
    (found : next ≠ .empty ∨ backing = some (.plain [])) : Recoverable file := by
  cases next with
  | sealed bytes =>
    right
    refine ⟨?_, bytes, updated.sidecar, ?_, ?_⟩
    · rw [updated.row, updated.content]
      rfl
    · rw [updated.row]
      rfl
    · rw [updated.content]
      rfl
  | empty =>
    rcases found with isSealed | isEmpty
    · exact absurd rfl isSealed
    left
    refine ⟨?_, ?_⟩
    · rw [File.Stored, updated.row, updated.content, updated.backing, isEmpty]
      exact describes_replacement .empty
    · rw [updated.sidecar]
      rfl

theorem Settled.recoverable (settled : Settled file) : Recoverable file :=
  .inl settled

/-! ## The steps of a replacement that is killed at one of them -/

section Steps

variable {kill : Option (Point × Bool)} {thrown : File -> Prop}

theorem triple_remove (point : Point) :
    Triple (Staging next backing) (perform (killedAt kill point).quietly File.removeSidecar) (Staging next backing)
      thrown Recoverable :=
  .step (Event.isThrown_quietly _) (fun _ holds => holds.removeSidecar) (fun _ => Staging.recoverable)
    (fun _ => Staging.recoverable)

theorem triple_create :
    Triple (Staging next backing) (perform (killedAt kill .create) (File.setSidecar .torn)) (Staging next backing)
      thrown Recoverable :=
  .step (isThrown_killedAt _ _) (fun _ holds => holds.setTorn) (fun _ => Staging.recoverable)
    (fun _ => Staging.recoverable)

theorem triple_fill :
    Triple (Staging next backing) (perform (killedAt kill .fill) (File.setSidecar next.bytes)) (Staged next backing)
      thrown Recoverable :=
  .step (isThrown_killedAt _ _) (fun _ holds => holds.fill) (fun _ => Staging.recoverable)
    (fun _ holds => holds.toStaging.recoverable)

section

variable (found : uninterrupted kill = false -> next ≠ .empty ∨ backing = some (.plain []))

include found

theorem triple_update :
    Triple (Staged next backing) (perform (killedAt kill .update) (File.setRow next)) (Updated next backing)
      thrown Recoverable := by
  refine .perform (isThrown_killedAt _ _) (fun _ holds => holds.setRow)
    (fun _ _ holds => holds.toStaging.recoverable) ?_
  intro isKilled file updated
  refine updated.recoverable (found ?_)
  rw [killedAt_eq_killed isKilled]
  rfl

theorem triple_bookkeeping :
    Triple (Updated next backing) (perform (killedAt kill .bookkeeping).terminating id) (Updated next backing)
      thrown Recoverable := by
  have killed : forall applied, (killedAt kill .bookkeeping).terminating = .killed applied ->
      uninterrupted kill = false := by
    intro applied isKilled
    cases isEvent : killedAt kill .bookkeeping with
    | done => simp [isEvent, Event.terminating] at isKilled
    | thrown applied =>
      have isThrown := isThrown_killedAt kill .bookkeeping
      rw [isEvent] at isThrown
      cases isThrown
    | killed applied =>
      rw [killedAt_eq_killed isEvent]
      rfl
  refine .perform (Event.isThrown_terminating _) (fun _ => id) ?_ ?_
  · exact fun isKilled file updated => updated.recoverable (found (killed false isKilled))
  · exact fun isKilled file updated => updated.recoverable (found (killed true isKilled))

theorem triple_rename :
    Triple (Updated next backing) (perform (killedAt kill .rename) File.promote) Settled thrown Recoverable := by
  refine .perform (isThrown_killedAt _ _) (fun _ holds => holds.promote) ?_ (fun _ _ => Settled.recoverable)
  intro isKilled file updated
  refine updated.recoverable (found ?_)
  rw [killedAt_eq_killed isKilled]
  rfl

end

/-- A step that changes nothing here. -/
theorem triple_id {pre : File -> Prop} (point : Point) (recoverable : forall file, pre file -> Recoverable file) :
    Triple pre (perform (killedAt kill point) id) pre thrown Recoverable :=
  .step (isThrown_killedAt _ _) (fun _ => id) recoverable recoverable

theorem triple_replaceContent (found : uninterrupted kill = false -> next ≠ .empty ∨ backing = some (.plain [])) :
    Triple (Staging next backing) (replaceContent next (killedAt kill)) Settled thrown Recoverable := by
  have sidecar : Triple (Staging next backing)
      (andThen (perform (killedAt kill .create) (File.setSidecar .torn)) <|
       andThen (perform (killedAt kill .fill) (File.setSidecar next.bytes)) <|
       andThen (perform (killedAt kill .retain) id) <|
       andThen (perform (killedAt kill .update) (File.setRow next)) <|
       perform (killedAt kill .bookkeeping).terminating id) (Updated next backing) (fun _ => False) Recoverable :=
    .andThen triple_create <| .andThen triple_fill <|
      .andThen (triple_id .retain fun _ holds => holds.toStaging.recoverable) <|
      .andThen (triple_update found) (triple_bookkeeping found)
  exact .andThen (triple_id .prepare fun _ => Staging.recoverable) <| .andThen (triple_remove .remove) <|
    .andThen (.onThrow sidecar) <| .andThen (triple_rename found) (triple_id .finish fun _ => Settled.recoverable)

theorem Rotation.fresh_of_reseals {rotation : Rotation} {row : Row} (same : row.state = rotation.expected)
    (reseals : rotation.reseals backing) : (Replacement.sealed rotation.next).fresh row := by
  unfold Rotation.reseals at reseals
  split at reseals
  · simp only [Content.reseals, Bool.and_eq_true, bne_iff_ne, ne_eq] at reseals
    simp [Replacement.fresh, Replacement.bytes, Bytes.authenticates, Ciphertext.authenticates, same, reseals.2]
  · cases reseals

theorem triple_rotateLocalCopy (rotation : Rotation) :
    Triple (fun file => Settled file ∧ file.row.state = rotation.expected)
      (rotateLocalCopy rotation (killedAt kill)) Settled Settled Recoverable := by
  refine .branch (.raise fun _ holds => holds.1.1) ?_
  intro file holds
  have staging : Staging (.sealed rotation.next) file.backing file :=
    ⟨holds.1.1, Rotation.fresh_of_reseals holds.1.2 (by simpa using holds.2), rfl⟩
  have found : uninterrupted kill = false ->
      Replacement.sealed rotation.next ≠ .empty ∨ file.backing = some (.plain []) :=
    fun _ => .inl (by simp)
  have sidecar : Triple (Staging (.sealed rotation.next) file.backing)
      (andThen (perform (killedAt kill .create) (File.setSidecar .torn)) <|
       andThen (perform (killedAt kill .fill) (File.setSidecar (.sealed rotation.next))) <|
       perform (killedAt kill .publish) id) (Staged (.sealed rotation.next) file.backing) (fun _ => False)
      Recoverable :=
    .andThen triple_create <| .andThen triple_fill <| triple_id .publish fun _ holds => holds.toStaging.recoverable
  have deferred : Triple (Staging (.sealed rotation.next) file.backing)
      (perform (killedAt kill .remove).quietly File.removeSidecar) Settled Settled Recoverable :=
    (triple_remove .remove).mono (fun _ => id) (fun _ staging => staging.settled) fun _ settled => settled
  have commit : Triple (Staged (.sealed rotation.next) file.backing)
      (andThen (perform (killedAt kill .update) (File.setRow (.sealed rotation.next))) <|
       andThen (perform (killedAt kill .rename) File.promote) <|
       perform (killedAt kill .finish).quietly id) Settled Settled Recoverable :=
    .andThen (triple_update found) <| .andThen (triple_rename found) <|
      .step (Event.isThrown_quietly _) (fun _ => id) (fun _ => Settled.recoverable)
        (fun _ => Settled.recoverable)
  refine Triple.andThen (.onThrow sidecar) (.branch ?_ ?_) file staging
  · exact deferred.mono (fun _ staged => staged.1.toStaging) (fun _ => id) fun _ settled => settled
  · exact commit.mono (fun _ staged => staged.1) (fun _ => id) fun _ settled => settled

theorem triple_rotateFile (rotation : Rotation) :
    Triple Recoverable (rotateFile rotation (killedAt kill)) Recoverable Recoverable Recoverable := by
  have resolve : Triple (fun file => Recoverable file ∧ file.row.state = rotation.expected)
      (perform (killedAt kill .resolve) (resolveSidecar rotation.expected))
      (fun file => Settled file ∧ file.row.state = rotation.expected) Recoverable Recoverable := by
    refine .step (isThrown_killedAt _ _) ?_ (fun _ holds => holds.1) (fun _ holds => holds.1.recoverable)
    rintro file ⟨recoverable, same⟩
    rw [← same]
    have recovered := recoverable.recovers
    exact ⟨settled_of_stored recovered.1 recovered.2, by rw [(row_resolveSidecar _ file).1]⟩
  have rotate : Triple (fun file => Recoverable file ∧ file.row.state = rotation.expected)
      (andThen (perform (killedAt kill .resolve) (resolveSidecar rotation.expected))
        (rotateLocalCopy rotation (killedAt kill))) Recoverable Recoverable Recoverable :=
    .andThen resolve ((triple_rotateLocalCopy rotation).mono (fun _ => id) (fun _ => Settled.recoverable)
      fun _ => Settled.recoverable)
  refine .branch (.skip fun _ holds => holds.1) <| .branch (.skip fun _ holds => holds.1.1) <|
    .branch (.skip fun _ holds => holds.1.1.1) <| .branch (.raise fun _ holds => holds.1.1.1.1) ?_
  refine rotate.mono ?_ (fun _ => id) (fun _ => id)
  rintro file ⟨⟨⟨⟨recoverable, _⟩, same⟩, _⟩, _⟩
  exact ⟨recoverable, by simpa using same⟩

end Steps

/-! ## Sequences of replacements -/

/-- A replacement that may be killed, or a recovery. -/
inductive Action
  | replace (writer : Writer) (kill : Option (Point × Bool))
  | recover

/-- The new bytes of a replacement have a new vector. -/
def Writer.fresh (file : File) : Writer -> Bool
  | .createFile next | .sealCopy next => next.fresh file.row
  | .rotateFile _ => true

def step (file : File) : Action -> Option File
  | .replace writer kill =>
    if writer.fresh file then some (writer.program (killedAt kill) file).1 else none
  | .recover => some (recoverSidecars file)

/-- No sidecar that the row describes is left, and a kill does not come between the row update and the rename of an
empty content, unless the backing file is empty already. -/
def Writer.orderly (file : File) (kill : Option (Point × Bool)) : Writer -> Bool
  | .createFile next | .sealCopy next =>
    !authenticates file.sidecar file.row.state &&
      (next != .empty || file.backing == some (.plain []) || uninterrupted kill)
  | .rotateFile _ => true

def Action.orderly (file : File) : Action -> Bool
  | .replace writer kill => writer.orderly file kill
  | .recover => true

theorem Recoverable.replaceContent (recoverable : Recoverable file) (fresh : next.fresh file.row)
    (orderly : (!authenticates file.sidecar file.row.state &&
      (next != .empty || file.backing == some (.plain []) || uninterrupted kill)) = true) :
    Recoverable (Sidecar.replaceContent next (killedAt kill) file).1 := by
  simp only [Bool.and_eq_true, Bool.not_eq_true', Bool.or_eq_true, bne_iff_ne, beq_iff_eq] at orderly
  rcases orderly with ⟨unread, found⟩
  have settled := recoverable.settled_of_unread unread
  have foundAfter : uninterrupted kill = false -> next ≠ .empty ∨ file.backing = some (.plain []) := by
    intro interrupted
    rcases found with known | isUninterrupted
    · exact known
    · rw [interrupted] at isUninterrupted
      cases isUninterrupted
  have replaced : Triple (Staging next file.backing) (Sidecar.replaceContent next (killedAt kill)) Recoverable Recoverable
      Recoverable :=
    (triple_replaceContent foundAfter).mono (fun _ => id) (fun _ => Settled.recoverable)
      fun _ holds => holds
  exact replaced.ending ⟨settled, fresh, rfl⟩

theorem Recoverable.step (recoverable : Recoverable file) {action : Action} {after : File}
    (orderly : action.orderly file) (taken : step file action = some after) : Recoverable after := by
  cases action with
  | recover =>
    cases taken
    have recovered := recoverable.recovers
    exact (settled_of_stored recovered.1 recovered.2).recoverable
  | replace writer kill =>
    rcases guarded taken with ⟨fresh, rfl⟩
    cases writer with
    | createFile | sealCopy => exact recoverable.replaceContent fresh orderly
    | rotateFile rotation => exact (triple_rotateFile rotation).ending recoverable

/-- In every sequence of replacements and recoveries whose steps are orderly, each replacement killed at one step or
not at all, a recovery leaves the stored form of the last content whose row update took effect. -/
theorem recovery_restores_content (file : File) (actions : List Action) (final : File) (stored : file.Stored)
    (clean : file.sidecar = none) (reached : run step file actions = some final)
    (orderly : Along step (fun file action => action.orderly file = true) file actions) :
    (recoverSidecars final).Stored := by
  have recoverable : Recoverable final :=
    run_induction (fun _ _ _ isOrderly taken holds => .step holds isOrderly taken) reached orderly
      (settled_of_stored stored clean).recoverable
  exact recoverable.recovers.1

/-! ## Runs -/

def sealedBytes (vector : UInt8) (content : Str) : Sealed :=
  { state := { iv := [vector], keyVersion := 1 }, content := content, isEncrypted := rfl }

/-- A file with one byte of content. -/
def oneByte : File :=
  { row := (Replacement.sealed (sealedBytes 0 [7])).row, backing := some (.sealed (sealedBytes 0 [7]))
    sidecar := none, content := [7] }

theorem stored_oneByte : oneByte.Stored :=
  describes_replacement (.sealed (sealedBytes 0 [7]))

/-- A replacement is killed before its rename, a recovery runs, and the next replacement is killed before its row
update. -/
theorem recovery_restores_content_twice :
    Exists fun final : File =>
      run step oneByte [.replace (.createFile (.sealed (sealedBytes 1 [8]))) (some (.rename, false)), .recover,
        .replace (.sealCopy (.sealed (sealedBytes 2 [9]))) (some (.update, false))] = some final ∧
        final.sidecar = some (.sealed (sealedBytes 2 [9])) ∧ final.content = [8] ∧
        (recoverSidecars final).Stored := by
  have evaluated : (run step oneByte
      [.replace (.createFile (.sealed (sealedBytes 1 [8]))) (some (.rename, false)), .recover,
        .replace (.sealCopy (.sealed (sealedBytes 2 [9]))) (some (.update, false))]).map
        (fun final => (final.sidecar, final.content)) = some (some (.sealed (sealedBytes 2 [9])), [8]) := by
    decide +kernel
  have orderly : Along step (fun file action => action.orderly file = true) oneByte
      [.replace (.createFile (.sealed (sealedBytes 1 [8]))) (some (.rename, false)), .recover,
        .replace (.sealCopy (.sealed (sealedBytes 2 [9]))) (some (.update, false))] := by decide +kernel
  rcases Option.map_eq_some_iff.mp evaluated with ⟨final, reached, isFinal⟩
  simp only [Prod.mk.injEq] at isFinal
  exact ⟨final, reached, isFinal.1, isFinal.2,
    recovery_restores_content oneByte _ final stored_oneByte rfl reached orderly⟩

/-- An empty replacement that is killed before its rename leaves the old bytes under the new row.  A replacement that
removes the sidecar of an earlier one and is killed before its own row update leaves bytes that nothing describes. -/
theorem recovery_loses_content :
    (Exists fun final : File =>
      run step oneByte [.replace (.createFile .empty) (some (.rename, false))] = some final ∧
        (recoverSidecars final).row = Replacement.empty.row ∧
        (recoverSidecars final).backing = some (.sealed (sealedBytes 0 [7])) ∧ ¬ (recoverSidecars final).Stored) ∧
    Exists fun final : File =>
      run step oneByte [.replace (.createFile (.sealed (sealedBytes 1 [8]))) (some (.rename, false)),
        .replace (.createFile (.sealed (sealedBytes 2 [9]))) (some (.create, true))] = some final ∧
        (recoverSidecars final).row = (Replacement.sealed (sealedBytes 1 [8])).row ∧
        (recoverSidecars final).backing = some (.sealed (sealedBytes 0 [7])) ∧ ¬ (recoverSidecars final).Stored := by
  have emptied : (run step oneByte [.replace (.createFile .empty) (some (.rename, false))]).map
      (fun final => ((recoverSidecars final).row, (recoverSidecars final).backing)) =
        some (Replacement.empty.row, some (.sealed (sealedBytes 0 [7]))) := by decide +kernel
  have removed : (run step oneByte [.replace (.createFile (.sealed (sealedBytes 1 [8]))) (some (.rename, false)),
      .replace (.createFile (.sealed (sealedBytes 2 [9]))) (some (.create, true))]).map
      (fun final => ((recoverSidecars final).row, (recoverSidecars final).backing)) =
        some ((Replacement.sealed (sealedBytes 1 [8])).row, some (.sealed (sealedBytes 0 [7]))) := by decide +kernel
  constructor
  · rcases Option.map_eq_some_iff.mp emptied with ⟨final, reached, isFinal⟩
    simp only [Prod.mk.injEq] at isFinal
    refine ⟨final, reached, isFinal.1, isFinal.2, ?_⟩
    rintro ⟨_, form⟩
    rw [isFinal.1, isFinal.2] at form
    cases form
  · rcases Option.map_eq_some_iff.mp removed with ⟨final, reached, isFinal⟩
    simp only [Prod.mk.injEq] at isFinal
    refine ⟨final, reached, isFinal.1, isFinal.2, ?_⟩
    intro stored
    have read := stored.authenticates (by rw [isFinal.1]; rfl)
    rw [isFinal.1, isFinal.2] at read
    cases read

end Sidecar
end Content
end Vaulthalla
