import Vaulthalla.Share.UploadQuota

namespace Vaulthalla
namespace Share
namespace UploadQuota

open Foundation Option
open Transition (run Along run_induction guarded unguarded)
open Pool (total total_set total_le_total)

/-!
# The limits on a link's uploads

An upload that is still open will count against the limits when it completes,
and so will the upload of a start that has passed a limit and not inserted its
row.  The limits hold in every run in which a start passes them only while
these leave room for it too.
-/

/-! ## Claims on the limits -/

/-- What an upload counts, or will count at most, against the number of files. -/
def Upload.claimedFiles (upload : Upload) : Nat :=
  (upload.isActive || upload.isComplete).toNat

/-- What it counts, or will count at most, against the number of bytes. -/
def Upload.claimedBytes (upload : Upload) : Nat :=
  if upload.isComplete then upload.receivedSizeBytes else if upload.isActive then upload.expectedSizeBytes else 0

/-- A start that has passed the limit on files. -/
def Control.claimedFiles : Control -> Nat
  | .summing _ _ => 1
  | .admitted _ _ => 1
  | _ => 0

/-- A start that has passed the limit on bytes. -/
def Control.claimedBytes : Control -> Nat
  | .admitted _ expectedSize => expectedSize
  | _ => 0

def claimedFiles (system : System) : Nat :=
  total Upload.claimedFiles system.uploads + total Control.claimedFiles system.calls

def claimedBytes (system : System) : Nat :=
  total Upload.claimedBytes system.uploads + total Control.claimedBytes system.calls

/-- A start that passes a limit leaves room for the uploads and starts under way. -/
def LeavesRoom (link : Link) (system : System) : Label -> Prop
  | .call index event =>
    match system.calls[index]?, event with
    | some (.counting _ _), .countFiles =>
      filesAllowed link system.uploads = true ->
        link.maxUploadFiles.all (fun limit => decide (claimedFiles system < limit)) = true
    | some (.summing _ expectedSize), .sumBytes =>
      bytesAllowed link system.uploads expectedSize = true ->
        link.maxUploadTotalBytes.all (fun limit => decide (claimedBytes system + expectedSize ≤ limit)) = true
    | _, _ => True
  | _ => True

instance (link : Link) (system : System) (label : Label) : Decidable (LeavesRoom link system label) := by
  unfold LeavesRoom
  split
  · split <;> infer_instance
  · infer_instance

/-! ## Statements on one row -/

variable {statement : Upload -> Option Upload} {upload changed : Upload} {calls : List Control} {control : Control}
  {index : Nat} {link : Link}

theorem total_updateUpload_le {weight : Upload -> Nat} (uploads : List Upload) (index : Nat)
    (less : forall upload changed, statement upload = some changed -> weight changed ≤ weight upload) :
    total weight (updateUpload uploads index statement) ≤ total weight uploads := by
  unfold updateUpload
  split
  · exact Nat.le_refl _
  · rename_i upload found
    cases changes : statement upload with
    | none =>
      have same := total_set weight found upload
      simp only [getD_none]
      omega
    | some changed =>
      have change := total_set weight found changed
      have fewer := less upload changed changes
      simp only [getD_some]
      omega

theorem claims_le (upload : Upload) : upload.claimedFiles ≤ 1 ∧ upload.claimedBytes ≤ upload.expectedSizeBytes := by
  refine ⟨Bool.toNat_le _, ?_⟩
  unfold Upload.claimedBytes
  split
  · exact upload.received_le
  · split
    · exact Nat.le_refl _
    · exact Nat.zero_le _

theorem claims_of_active (active : upload.isActive) :
    upload.claimedFiles = 1 ∧ upload.claimedBytes = upload.expectedSizeBytes := by
  have notComplete : upload.isComplete = false := by
    simp only [Upload.isActive, Bool.or_eq_true, beq_iff_eq] at active
    rcases active with pending | receiving
    · simp [Upload.isComplete, pending]
    · simp [Upload.isComplete, receiving]
  simp [Upload.claimedFiles, Upload.claimedBytes, active, notComplete]

/-- What a statement makes of a row it finds claims no more than the row did. -/
theorem claims_of_statement (active : upload.isActive)
    (sameSize : changed.expectedSizeBytes = upload.expectedSizeBytes) :
    changed.claimedFiles ≤ upload.claimedFiles ∧ changed.claimedBytes ≤ upload.claimedBytes := by
  rcases claims_of_active active with ⟨files, bytes⟩
  rw [files, bytes, ← sameSize]
  exact claims_le changed

theorem addReceivedBytes_claims {bytes : Nat} (added : upload.addReceivedBytes bytes = some changed) :
    changed.claimedFiles ≤ upload.claimedFiles ∧ changed.claimedBytes ≤ upload.claimedBytes := by
  unfold Upload.addReceivedBytes at added
  split at added
  · rename_i fits
    cases added
    exact claims_of_statement fits.1 rfl
  · simp at added

theorem close_claims {status : UploadStatus} (closed : upload.close status = some changed) :
    changed.claimedFiles ≤ upload.claimedFiles ∧ changed.claimedBytes ≤ upload.claimedBytes := by
  rcases guarded closed with ⟨active, rfl⟩
  exact claims_of_statement active rfl

/-! ## Steps -/

/-- What a step can do to the claims on the limits. -/
inductive Move (link : Link) (system : System) (label : Label) : System -> Prop
  /-- A call begins, and claims nothing. -/
  | begun (control : Control) (nothing : control.claimedFiles = 0 ∧ control.claimedBytes = 0) :
      Move link system label { system with calls := system.calls ++ [control] }
  /-- Statements find a row, and a call may end with it. -/
  | changed (uploads : List Upload) (calls : List Control)
      (rows : total Upload.claimedFiles uploads ≤ total Upload.claimedFiles system.uploads ∧
        total Upload.claimedBytes uploads ≤ total Upload.claimedBytes system.uploads)
      (others : total Control.claimedFiles calls ≤ total Control.claimedFiles system.calls ∧
        total Control.claimedBytes calls ≤ total Control.claimedBytes system.calls) :
      Move link system label { uploads := uploads, calls := calls }
  | passedFiles (index : Nat) (session : Str) (expectedSize : Nat) (isCall : label = .call index .countFiles)
      (found : system.calls[index]? = some (.counting session expectedSize))
      (allowed : filesAllowed link system.uploads = true) :
      Move link system label { system with calls := system.calls.set index (.summing session expectedSize) }
  | passedBytes (index : Nat) (session : Str) (expectedSize : Nat) (isCall : label = .call index .sumBytes)
      (found : system.calls[index]? = some (.summing session expectedSize))
      (allowed : bytesAllowed link system.uploads expectedSize = true) :
      Move link system label { system with calls := system.calls.set index (.admitted session expectedSize) }
  | inserted (index : Nat) (session : Str) (expectedSize : Nat)
      (found : system.calls[index]? = some (.admitted session expectedSize)) :
      Move link system label
        { uploads := system.uploads ++ [newUpload session expectedSize], calls := system.calls.set index .ended }

/-- The claims of the calls after one of them moves. -/
theorem call_claims (found : calls[index]? = some control) (moved : Control) :
    total Control.claimedFiles (calls.set index moved) + control.claimedFiles =
        total Control.claimedFiles calls + moved.claimedFiles ∧
      total Control.claimedBytes (calls.set index moved) + control.claimedBytes =
        total Control.claimedBytes calls + moved.claimedBytes :=
  ⟨total_set _ found moved, total_set _ found moved⟩

theorem ended_claims (found : calls[index]? = some control) :
    total Control.claimedFiles (calls.set index .ended) ≤ total Control.claimedFiles calls ∧
      total Control.claimedBytes (calls.set index .ended) ≤ total Control.claimedBytes calls := by
  rcases call_claims found .ended with ⟨files, bytes⟩
  simp only [Control.claimedFiles] at files
  simp only [Control.claimedBytes] at bytes
  omega

theorem update_claims (uploads : List Upload) (index : Nat)
    (less : forall upload changed, statement upload = some changed ->
      changed.claimedFiles ≤ upload.claimedFiles ∧ changed.claimedBytes ≤ upload.claimedBytes) :
    total Upload.claimedFiles (updateUpload uploads index statement) ≤ total Upload.claimedFiles uploads ∧
      total Upload.claimedBytes (updateUpload uploads index statement) ≤ total Upload.claimedBytes uploads :=
  ⟨total_updateUpload_le uploads index fun upload changed changes => (less upload changed changes).1,
    total_updateUpload_le uploads index fun upload changed changes => (less upload changed changes).2⟩

theorem unchanged_claims (system : System) :
    total Upload.claimedFiles system.uploads ≤ total Upload.claimedFiles system.uploads ∧
      total Upload.claimedBytes system.uploads ≤ total Upload.claimedBytes system.uploads :=
  ⟨Nat.le_refl _, Nat.le_refl _⟩

theorem move_of_callStep {system : System} {moved : Control} {event : Event} {uploads : List Upload}
    (found : system.calls[index]? = some control)
    (taken : callStep link system.uploads control event = some (uploads, moved)) :
    Move link system (.call index event) { uploads := uploads, calls := system.calls.set index moved } := by
  unfold callStep at taken
  split at taken
  · simp at taken
  · cases taken
    exact .changed _ _ (unchanged_claims system) (ended_claims found)
  · split at taken
    · rename_i allowed
      cases taken
      exact .passedFiles index _ _ rfl found allowed
    · cases taken
      exact .changed _ _ (unchanged_claims system) (ended_claims found)
  · split at taken
    · rename_i allowed
      cases taken
      exact .passedBytes index _ _ rfl found allowed
    · cases taken
      exact .changed _ _ (unchanged_claims system) (ended_claims found)
  · split at taken
    · cases taken
      exact .inserted index _ _ found
    · cases taken
      exact .changed _ _ (unchanged_claims system) (ended_claims found)
  · cases taken
    exact .changed _ _ (update_claims _ _ fun _ _ => addReceivedBytes_claims) (ended_claims found)
  · cases taken
    exact .changed _ _ (update_claims _ _ fun _ _ => close_claims) (ended_claims found)
  · simp at taken

theorem move_of_step {system next : System} {label : Label} (taken : step link system label = some next) :
    Move link system label next := by
  have closes : forall index status, Move link system label
      { system with uploads := updateUpload system.uploads index fun row => row.close status } := fun index status =>
    .changed _ _ (update_claims _ _ fun _ _ => close_claims) ⟨Nat.le_refl _, Nat.le_refl _⟩
  unfold step at taken
  split at taken
  · cases taken
    exact .begun _ ⟨rfl, rfl⟩
  · rcases bind_eq_some_iff.mp taken with ⟨upload, _, begins⟩
    rcases unguarded begins with ⟨_, rfl⟩
    exact .begun _ ⟨rfl, rfl⟩
  · rcases bind_eq_some_iff.mp taken with ⟨upload, _, begins⟩
    rcases unguarded begins with ⟨_, rfl⟩
    exact .begun _ ⟨rfl, rfl⟩
  · rcases map_eq_some_iff.mp taken with ⟨upload, _, rfl⟩
    exact closes _ _
  · rcases map_eq_some_iff.mp taken with ⟨upload, _, rfl⟩
    exact closes _ _
  · cases taken
    exact closes _ _
  · split at taken
    · simp at taken
    rename_i control found
    rcases map_eq_some_iff.mp taken with ⟨⟨uploads, moved⟩, callTaken, rfl⟩
    exact move_of_callStep found callTaken

/-! ## Runs -/

/-- The claims are within the limits. -/
def Within (link : Link) (system : System) : Prop :=
  (forall limit, link.maxUploadFiles = some limit -> claimedFiles system ≤ limit) ∧
    (forall limit, link.maxUploadTotalBytes = some limit -> claimedBytes system ≤ limit)

theorem within_step (system : System) (label : Label) (next : System) (room : LeavesRoom link system label)
    (taken : step link system label = some next) (within : Within link system) : Within link next := by
  rcases within with ⟨files, bytes⟩
  simp only [claimedFiles, claimedBytes] at files bytes
  cases move_of_step taken with
  | begun control nothing =>
    constructor <;> intro limit limited <;>
      simp only [claimedFiles, claimedBytes, Pool.total_append, nothing.1, nothing.2]
    · exact files limit limited
    · exact bytes limit limited
  | changed uploads calls rows others =>
    constructor <;> intro limit limited <;> simp only [claimedFiles, claimedBytes]
    · have := files limit limited
      omega
    · have := bytes limit limited
      omega
  | passedFiles index session expectedSize isCall found allowed =>
    subst isCall
    rcases call_claims found (.summing session expectedSize) with ⟨filesAfter, bytesAfter⟩
    simp only [Control.claimedFiles, Control.claimedBytes] at filesAfter bytesAfter
    constructor <;> intro limit limited <;> simp only [claimedFiles, claimedBytes]
    · have left : claimedFiles system < limit := by
        simpa [LeavesRoom, found, allowed, limited] using room
      unfold claimedFiles at left
      omega
    · have := bytes limit limited
      omega
  | passedBytes index session expectedSize isCall found allowed =>
    subst isCall
    rcases call_claims found (.admitted session expectedSize) with ⟨filesAfter, bytesAfter⟩
    simp only [Control.claimedFiles, Control.claimedBytes] at filesAfter bytesAfter
    constructor <;> intro limit limited <;> simp only [claimedFiles, claimedBytes]
    · have := files limit limited
      omega
    · have left : claimedBytes system + expectedSize ≤ limit := by
        simpa [LeavesRoom, found, allowed, limited] using room
      unfold claimedBytes at left
      omega
  | inserted index session expectedSize found =>
    -- The claim of the start becomes the claim of its upload.
    rcases call_claims found .ended with ⟨filesAfter, bytesAfter⟩
    simp only [Control.claimedFiles, Control.claimedBytes] at filesAfter bytesAfter
    rcases claims_of_active (by rfl : (newUpload session expectedSize).isActive) with ⟨one, size⟩
    have sameSize : (newUpload session expectedSize).claimedBytes = expectedSize := size
    constructor <;> intro limit limited <;>
      simp only [claimedFiles, claimedBytes, Pool.total_append, one, sameSize]
    · have := files limit limited
      omega
    · have := bytes limit limited
      omega

/-- The limits on the completed uploads of a link. -/
theorem completed_uploads_within_limits {link : Link} {final : System} {labels : List Label}
    (reached : run (step link) fresh labels = some final) (room : Along (step link) (LeavesRoom link) fresh labels) :
    (forall limit, link.maxUploadFiles = some limit -> countCompletedFiles final.uploads ≤ limit) ∧
      (forall limit, link.maxUploadTotalBytes = some limit -> sumCompletedBytes final.uploads ≤ limit) := by
  have within : Within link final := by
    apply run_induction within_step reached room
    constructor <;> intro limit _ <;> exact Nat.zero_le limit
  constructor
  · intro limit limited
    calc
      countCompletedFiles final.uploads ≤ total Upload.claimedFiles final.uploads := by
          apply total_le_total
          intro upload _
          unfold Upload.completedCount Upload.claimedFiles
          cases upload.isComplete <;> simp
      _ ≤ claimedFiles final := Nat.le_add_right _ _
      _ ≤ limit := within.1 limit limited
  · intro limit limited
    calc
      sumCompletedBytes final.uploads ≤ total Upload.claimedBytes final.uploads := by
          apply total_le_total
          intro upload _
          unfold Upload.completedBytes Upload.claimedBytes
          split
          · exact Nat.le_refl _
          · exact Nat.zero_le _
      _ ≤ claimedBytes final := Nat.le_add_right _ _
      _ ≤ limit := within.2 limit limited

/-! ## Links for one file and for two -/

def oneFileLink : Link := { maxUploadFiles := some 1, maxUploadTotalBytes := some 20 }

def guest : Str := str "guest"

/-- A start that passes both limits and inserts its upload. -/
def startedBy (call : Nat) : List Label :=
  [.startUpload guest 10, .call call .countFiles, .call call .sumBytes, .call call .insert]

/-- All bytes of an upload arrive, and it is finished. -/
def finishedBy (call upload : Nat) : List Label :=
  [.recordUploadChunk guest upload 10, .call call .addBytes, .finishUpload guest upload, .call (call + 1) .complete]

def twoFileLink : Link := { maxUploadFiles := some 2, maxUploadTotalBytes := some 20 }

def visitor : Str := str "visitor"

/-- Two sessions upload side by side. -/
def sideBySide : List Label :=
  [.startUpload guest 10, .startUpload visitor 10, .call 0 .countFiles, .call 1 .countFiles, .call 1 .sumBytes,
    .call 0 .sumBytes, .call 1 .insert, .call 0 .insert, .recordUploadChunk visitor 0 10, .recordUploadChunk guest 1 10,
    .call 3 .addBytes, .call 2 .addBytes, .finishUpload guest 1, .finishUpload visitor 0, .call 5 .complete,
    .call 4 .complete]

theorem completed_uploads_within_limits_side_by_side :
    Exists fun final : System => run (step twoFileLink) fresh sideBySide = some final ∧
      countCompletedFiles final.uploads ≤ 2 ∧ sumCompletedBytes final.uploads = 20 := by
  have enabled : ((run (step twoFileLink) fresh sideBySide).map fun final => sumCompletedBytes final.uploads) =
      some 20 := by decide +kernel
  rcases map_eq_some_iff.mp enabled with ⟨final, reached, sum⟩
  have room : Along (step twoFileLink) (LeavesRoom twoFileLink) fresh sideBySide := by decide +kernel
  exact ⟨final, reached, (completed_uploads_within_limits reached room).1 2 rfl, sum⟩

/-- Three uploads are started before the first is finished: all complete, and both limits are exceeded. -/
theorem three_uploads_at_once :
    ((run (step oneFileLink) fresh (startedBy 0 ++ startedBy 1 ++ startedBy 2 ++
        finishedBy 3 0 ++ finishedBy 5 1 ++ finishedBy 7 2)).map fun final =>
      (countCompletedFiles final.uploads, sumCompletedBytes final.uploads)) = some (3, 30) := by
  decide +kernel

end UploadQuota
end Share
end Vaulthalla
