import Mathlib.Data.Fintype.Basic
import Vaulthalla.Upload.Staging

namespace Vaulthalla
namespace Upload

open Foundation Transition Function World Share.UploadQuota.Upload Commit Option

/-!
# Finishing an upload more than once

`finishSession` tests `finished` under the session mutex when it begins and
sets it when all files are committed.  A call that makes its test after that
is refused.  One that makes it earlier commits the same files again: it may
answer complete without having written anything, or it fails and its error
path takes the staging files, or the share uploads, from the call that is
still at work.

If no call makes its test while another one is committing, the first call to
make it commits every file once and is the only one that answers complete.
-/

variable {Call Stream Session FileId Path : Type}

/-! ## What concerns one file -/

/-- Two files have different ids and different targets. -/
def Apart (first second : FileId × UploadFile Path) : Prop :=
  first.1 ≠ second.1 ∧ first.2.path ≠ second.2.path

theorem Apart.symm {first second : FileId × UploadFile Path} (apart : Apart first second) : Apart second first :=
  ⟨apart.1.symm, apart.2.symm⟩

/-- The part of the world that the commit of one file reads and changes. -/
structure View (Path : Type) where
  staged : Option Staged
  target : Target
  stores : List (Path × Option Entry)
  record : Option Share.UploadQuota.Upload

namespace View

variable (view : View Path) (mode : UploadMode) (file : UploadFile Path)

/-- The body is staged, the target is free, and nothing has been stored. -/
structure Fresh : Prop where
  staged : view.staged.map Staged.bytes = some file.received
  row : view.target.row = none
  cached : view.target.cached = none
  stores : view.stores = []
  record : mode = .share -> finishable view.record = true

/-- The body has been stored once, and the share upload can be finished. -/
structure Stored : Prop where
  stores : view.stores = [(file.path, some (.file file.received))]
  record : mode = .share -> finishable view.record = true

/-- The body has been stored once, and the share upload is complete. -/
structure Done : Prop where
  stores : view.stores = [(file.path, some (.file file.received))]
  record : mode = .share -> Exists fun record : Share.UploadQuota.Upload =>
    view.record = some record ∧ record.status = .complete

end View

section Views

variable [DecidableEq Session] [DecidableEq FileId]

section

variable (world : World Call Session FileId Path) (session : Session)

/-- What the row updates for one file of the session have left. -/
def World.storesOf (id : FileId) : List (Path × Option Entry) :=
  (world.stores.filter fun store => store.session = session && store.fileId = id).map fun store =>
    (store.path, store.after)

def World.view (entry : FileId × UploadFile Path) : View Path :=
  { staged := world.staged session entry.1
    target := world.targets entry.2.path
    stores := world.storesOf session entry.1
    record := world.records session entry.1 }

end

variable {world : World Call Session FileId Path} {session : Session} {entry other : FileId × UploadFile Path}

theorem view_unstage_of_apart (apart : Apart other entry) :
    (world.unstage session entry.1).view session other = world.view session other := by
  unfold unstage
  split
  · rfl
  · simp [view, setStaged, apart.1, storesOf]

theorem view_unstage (world : World Call Session FileId Path) (session : Session) (entry : FileId × UploadFile Path) :
    ((world.unstage session entry.1).view session entry).stores = (world.view session entry).stores ∧
      ((world.unstage session entry.1).view session entry).record = (world.view session entry).record := by
  unfold unstage
  split
  · exact ⟨rfl, rfl⟩
  · exact ⟨rfl, rfl⟩

theorem view_setRecord_of_apart (apart : Apart other entry) (record : Option Share.UploadQuota.Upload) :
    (world.setRecord session entry.1 record).view session other = world.view session other := by
  simp [view, setRecord, apart.1, storesOf]

theorem view_setRecord (record : Option Share.UploadQuota.Upload) :
    (world.setRecord session entry.1 record).view session entry =
      { world.view session entry with record := record } := by
  simp [view, setRecord, storesOf]

variable [DecidableEq Path]

theorem view_store_of_apart (apart : Apart other entry) (call : Call) (body : Str) :
    (world.store call session entry.1 entry.2.path body).view session other = world.view session other := by
  simp [view, store, storesOf, apart.2, apart.1.symm]

theorem view_cacheEntry_of_apart (apart : Apart other entry) :
    (world.cacheEntry entry.2.path).view session other = world.view session other := by
  simp [view, cacheEntry, storesOf, apart.2]

end Views

theorem finishable_iff (record : Option Share.UploadQuota.Upload) :
    finishable record ↔ Exists fun upload =>
      record = some upload ∧ upload.isTerminal = false ∧
        upload.receivedSizeBytes = upload.expectedSizeBytes := by
  simp [finishable, any_eq_true]

theorem close_of_not_isTerminal {record : Share.UploadQuota.Upload} (unfinished : record.isTerminal = false)
    (status : Share.UploadQuota.UploadStatus) :
    Exists fun closed => record.close status = some closed ∧ closed.status = status := by
  have active : record.isActive := by
    simp only [isTerminal] at unfinished
    simp only [isActive]
    cases isStatus : record.status <;> simp_all
  exact ⟨{ record with status := status }, by simp [close, active], rfl⟩

/-! ## The call at work -/

def Phase.Stands (view : View Path) (mode : UploadMode) (file : UploadFile Path) : Phase -> Prop
  | .waiting => mode = .share ∧ view.Fresh mode file
  | .resolved | .verified | .absent => view.Fresh mode file
  | .sealed body => view.Fresh mode file ∧ body = file.received
  | .stored | .created => view.Stored mode file
  | .unstaged | .confirmed => mode = .share ∧ view.Stored mode file

section Work

variable [DecidableEq Session] [DecidableEq FileId]

/-- How the world stands while one call commits the files of the session. -/
structure Working (session : Session) (upload : UploadSession FileId Path) (world : World Call Session FileId Path)
    (commit : Commit Session FileId Path) (phase : Phase) : Prop where
  isSession : commit.session = session
  isMode : commit.mode = upload.mode
  isFiles : commit.files = upload.snapshot
  isUpload : world.sessions session = some upload
  done : forall entry, entry ∈ commit.done -> (world.view session entry).Done upload.mode entry.2
  next : forall entry rest, commit.rest = entry :: rest -> phase.Stands (world.view session entry) upload.mode entry.2
  later : forall entry rest other, commit.rest = entry :: rest -> other ∈ rest ->
    (world.view session other).Fresh upload.mode other.2

variable {session : Session} {upload : UploadSession FileId Path} {world next : World Call Session FileId Path}
  {commit : Commit Session FileId Path} {phase later : Phase} {entry : FileId × UploadFile Path}
  {rest : List (FileId × UploadFile Path)} {call : Call}

theorem stands_first {view : View Path} {mode : UploadMode} {file : UploadFile Path} (fresh : view.Fresh mode file) :
    (Phase.first mode).Stands view mode file := by
  cases mode with
  | authenticated => exact fresh
  | share => exact ⟨rfl, fresh⟩

section

variable (working : Working session upload world commit phase) (following : commit.rest = entry :: rest)
  (apart : upload.snapshot.Pairwise Apart)

include working following apart

theorem Working.away {other : FileId × UploadFile Path} (isOther : other ∈ commit.done ∨ other ∈ rest) :
    Apart other entry := by
  rw [← working.isFiles, files, following] at apart
  rcases List.pairwise_append.mp apart with ⟨_, ahead, across⟩
  rcases isOther with before | after
  · exact across other before entry (by simp)
  · exact ((List.pairwise_cons.mp ahead).1 other after).symm

variable (sessions : next.sessions = world.sessions)
  (others : forall other, Apart other entry -> next.view session other = world.view session other)

include sessions others

/-- A step on the file at the head that leaves the other files alone. -/
theorem Working.within (stands : later.Stands (next.view session entry) upload.mode entry.2) :
    Working session upload next commit later where
  isSession := working.isSession
  isMode := working.isMode
  isFiles := working.isFiles
  isUpload := by
    rw [sessions]
    exact working.isUpload
  done other isDone := by
    rw [others other (working.away following apart (.inl isDone))]
    exact working.done other isDone
  next other rest otherFollowing := by
    rw [following] at otherFollowing
    cases otherFollowing
    exact stands
  later other rest third otherFollowing isLater := by
    rw [following] at otherFollowing
    cases otherFollowing
    rw [others third (working.away following apart (.inr isLater))]
    exact working.later _ _ third following isLater

/-- The file at the head is done, and the next one begins. -/
theorem Working.advanced (isDone : (next.view session entry).Done upload.mode entry.2) :
    Working session upload next { commit with done := commit.done ++ [entry], rest := rest }
      (.first commit.mode) where
  isSession := working.isSession
  isMode := working.isMode
  isFiles := by
    rw [← working.isFiles]
    simp [files, following]
  isUpload := by
    rw [sessions]
    exact working.isUpload
  done other isOther := by
    rcases List.mem_append.mp isOther with before | isEntry
    · rw [others other (working.away following apart (.inl before))]
      exact working.done other before
    · rw [List.mem_singleton.mp isEntry]
      exact isDone
  next other others' otherFollowing := by
    have isLater : other ∈ rest := by
      rw [show rest = other :: others' from otherFollowing]
      exact List.mem_cons_self
    rw [working.isMode, others other (working.away following apart (.inr isLater))]
    exact stands_first (working.later _ _ other following isLater)
  later other others' third otherFollowing isThird := by
    have isLater : third ∈ rest := by
      rw [show rest = other :: others' from otherFollowing]
      exact List.mem_cons_of_mem _ isThird
    rw [others third (working.away following apart (.inr isLater))]
    exact working.later _ _ third following isLater

end

section

variable [DecidableEq Path] {event : CallEvent Session} {moved : Control Session FileId Path}
  (working : Working session upload world commit phase) (following : commit.rest = entry :: rest)
  (complete : upload.allComplete = true) (sound : event ≠ .throw)
  (taken : commitStep world call commit entry rest phase event = some (next, moved))

include working following complete sound taken

/-- Nothing that the call does while it is alone throws. -/
theorem Working.proceeds : moved ≠ .failing commit.session commit.mode commit.files := by
  have isEntry : entry ∈ upload.snapshot := by
    rw [← working.isFiles]
    simp [files, following]
  have size : entry.2.received.length = entry.2.expectedSize :=
    ((UploadFile.isComplete_iff entry.2).mp (List.all_eq_true.mp complete entry isEntry)).2
  have stands := working.next entry rest following
  rintro rfl
  rcases working with ⟨rfl, isMode, _, _, _, _, _⟩
  unfold commitStep at taken
  split at taken
  case h_1 =>
    have free : (world.targets entry.2.path).row = none := stands.2.row
    simp [free] at taken
  case h_2 =>
    rcases map_eq_some_iff.mp stands.staged with ⟨staged, isStaged, isBody⟩
    have present : world.staged commit.session entry.1 = some staged := isStaged
    simp [present, isBody, size] at taken
  case h_3 =>
    have free : (world.targets entry.2.path).cached = none := stands.cached
    simp [free] at taken
  case h_4 =>
    rcases map_eq_some_iff.mp stands.staged with ⟨staged, isStaged, _⟩
    have present : world.staged commit.session entry.1 = some staged := isStaged
    simp only [present] at taken
    split at taken <;> cases taken
  case h_5 => cases taken
  case h_6 => cases taken
  case h_7 => split at taken <;> cases taken
  case h_8 =>
    have ready : finishable (world.records commit.session entry.1) := stands.2.record stands.1
    simp [ready] at taken
  case h_9 =>
    rcases (finishable_iff _).mp (stands.2.record stands.1) with ⟨record, isRecord, unfinished, _⟩
    rcases close_of_not_isTerminal unfinished .complete with ⟨closed, isClosed, _⟩
    have present : world.records commit.session entry.1 = some record := isRecord
    simp [present, isClosed, advance] at taken
  case h_10 => exact sound rfl
  case h_11 => simp at taken

/-- One step of the call at work on the file at the head. -/
theorem Working.step (apart : upload.snapshot.Pairwise Apart) :
    Exists fun commit => Exists fun phase =>
      moved = .committing commit phase ∧ Working session upload next commit phase := by
  have proceeds := working.proceeds following complete sound taken
  have same : forall other, Apart other entry -> world.view session other = world.view session other := fun _ _ => rfl
  have stands := working.next entry rest following
  have isSession := working.isSession
  subst isSession
  rcases commit with ⟨session, mode, done, _⟩
  cases following
  cases move_of_commitStep rfl taken with
  | resolved => exact ⟨_, _, rfl, working.within rfl apart rfl same stands.2⟩
  | verified | absent | confirmed => exact ⟨_, _, rfl, working.within rfl apart rfl same stands⟩
  | kept otherFollowing found =>
    cases otherFollowing
    have free : (world.targets entry.2.path).cached = none := stands.cached
    rw [free] at found
    cases found
  | empty otherFollowing size =>
    cases otherFollowing
    have isEntry : entry ∈ upload.snapshot := by
      rw [← working.isFiles]
      simp [files]
    have length := ((UploadFile.isComplete_iff entry.2).mp (List.all_eq_true.mp complete entry isEntry)).2
    refine ⟨_, _, rfl, working.within rfl apart rfl same ⟨stands, ?_⟩⟩
    exact (List.eq_nil_of_length_eq_zero (length.trans size)).symm
  | «sealed» otherFollowing isStaged =>
    cases otherFollowing
    rcases map_eq_some_iff.mp stands.staged with ⟨staged, present, isBody⟩
    have unique := isStaged.symm.trans present
    cases unique
    exact ⟨_, _, rfl, working.within rfl apart rfl same ⟨stands, isBody⟩⟩
  | stored otherFollowing =>
    cases otherFollowing
    rcases stands with ⟨fresh, rfl⟩
    refine ⟨_, _, rfl, working.within rfl apart rfl (fun other away => view_store_of_apart away call _) ?_⟩
    refine ⟨?_, fresh.record⟩
    have free : (world.targets entry.2.path).row = none := fresh.row
    simpa [view, store, storesOf, free] using fresh.stores
  | cached otherFollowing =>
    cases otherFollowing
    exact ⟨_, _, rfl, working.within rfl apart rfl (fun other away => view_cacheEntry_of_apart away)
      { stands with }⟩
  | ended otherFollowing mode =>
    cases otherFollowing
    have kept := view_unstage world session entry
    have sessions := sessions_unstage world session entry.1
    refine ⟨_, _, rfl, working.advanced rfl apart sessions (fun other away => view_unstage_of_apart away) ?_⟩
    refine ⟨by rw [kept.1]; exact stands.stores, fun shared => ?_⟩
    rw [← working.isMode, mode] at shared
    cases shared
  | unstaged otherFollowing mode =>
    cases otherFollowing
    have kept := view_unstage world session entry
    have sessions := sessions_unstage world session entry.1
    refine ⟨_, _, rfl, working.within rfl apart sessions (fun other away => view_unstage_of_apart away) ?_⟩
    exact ⟨working.isMode.symm.trans mode, by rw [kept.1]; exact stands.stores,
      fun shared => by rw [kept.2]; exact stands.record shared⟩
  | completed otherFollowing isRecord isClosed =>
    cases otherFollowing
    refine ⟨_, _, rfl, working.advanced rfl apart rfl (fun other away => view_setRecord_of_apart away _) ?_⟩
    rw [view_setRecord]
    refine ⟨stands.2.stores, fun _ => ⟨_, rfl, ?_⟩⟩
    rcases (finishable_iff _).mp (stands.2.record stands.1) with ⟨record, present, unfinished, _⟩
    have unique := isRecord.symm.trans present
    cases unique
    rcases close_of_not_isTerminal unfinished .complete with ⟨closed, closes, isComplete⟩
    rw [isClosed] at closes
    cases closes
    exact isComplete
  | thrown => exact absurd rfl proceeds
  | marked all =>
    cases all

end

end Work

/-! ## Calls on one session -/

namespace Control

variable (session : Session)

/-- The call has made no test of `finished` yet. -/
def Waits : Control Session FileId Path -> Prop
  | .idle => True
  | .found other => other = session
  | _ => False

/-- The call has made no test of `finished` yet, or none that it has passed. -/
def Lingers : Control Session FileId Path -> Prop
  | .idle | .failed => True
  | .found other => other = session
  | _ => False

/-- The call has committed the files, and answers or has answered complete. -/
def Ends (files : List (FileId × UploadFile Path)) : Control Session FileId Path -> Prop
  | .marked other entries | .erased other entries | .complete other entries => other = session ∧ entries = files
  | _ => False

def isCommitting : Control Session FileId Path -> Bool
  | .committing _ _ => true
  | _ => false

def hasReturned : Control Session FileId Path -> Bool
  | .idle | .complete _ _ | .failed => true
  | _ => false

variable {session} {control : Control Session FileId Path}

theorem Waits.lingers (waits : control.Waits session) : control.Lingers session := by
  cases control with
  | idle => trivial
  | found other => exact waits
  | _ => exact waits.elim

end Control

theorem lingers_update [DecidableEq Call] {calls : Call -> Control Session FileId Path} {call : Call} {session : Session}
    (others : forall other, other ≠ call -> (calls other).Lingers session) (moved : Control Session FileId Path) :
    forall other, other ≠ call -> (update calls call moved other).Lingers session := by
  intro other different
  rw [update_of_ne different]
  exact others other different

/-- A run of calls on the session in which nothing fails by itself. -/
def OnlyFinishes (session : Session) : Label Call Stream Session FileId Path -> Prop
  | .call _ (.find other) => other = session
  | .call _ .throw => False
  | .call _ _ => True
  | _ => False

/-- No call tests `finished` while another one is between its test and setting it. -/
def Alone (state : State Call Stream Session FileId Path) : Label Call Stream Session FileId Path -> Prop
  | .call _ .check => forall other, (state.calls other).isCommitting = false
  | _ => True

section Progress

variable [DecidableEq Session] [DecidableEq FileId]

/-- A session of which all files have been completely received, and whose targets are different and untouched. -/
structure Ready (state : State Call Stream Session FileId Path) (session : Session)
    (upload : UploadSession FileId Path) : Prop where
  isUpload : state.world.sessions session = some upload
  registered : upload.stage = .registered
  unfinished : upload.finished = false
  complete : upload.allComplete = true
  apart : upload.snapshot.Pairwise Apart
  fresh : forall entry, entry ∈ upload.snapshot -> (state.world.view session entry).Fresh upload.mode entry.2
  idle : forall call, state.calls call = .idle

/-- How far the calls on the session have come. -/
inductive Progress (session : Session) (upload : UploadSession FileId Path) (world : World Call Session FileId Path)
    (calls : Call -> Control Session FileId Path) : Prop
  | before (isUpload : world.sessions session = some upload)
      (fresh : forall entry, entry ∈ upload.snapshot -> (world.view session entry).Fresh upload.mode entry.2)
      (waits : forall call, (calls call).Waits session)
  | during (call : Call) (commit : Commit Session FileId Path) (phase : Phase)
      (isCommitting : calls call = .committing commit phase)
      (working : Working session upload world commit phase)
      (others : forall other, other ≠ call -> (calls other).Lingers session)
  | after (call : Call) (ends : (calls call).Ends session upload.snapshot)
      (isFinished : Exists fun finished : UploadSession FileId Path =>
        world.sessions session = some finished ∧ finished.finished = true)
      (done : forall entry, entry ∈ upload.snapshot -> (world.view session entry).Done upload.mode entry.2)
      (others : forall other, other ≠ call -> (calls other).Lingers session)

/-- The first call to make its test. -/
theorem Working.begun {world : World Call Session FileId Path} {session : Session} {upload : UploadSession FileId Path}
    (isUpload : world.sessions session = some upload)
    (fresh : forall entry, entry ∈ upload.snapshot -> (world.view session entry).Fresh upload.mode entry.2) :
    Working session upload world { session := session, mode := upload.mode, done := [], rest := upload.snapshot }
      (.first upload.mode) where
  isSession := rfl
  isMode := rfl
  isFiles := rfl
  isUpload := isUpload
  done := by simp
  next entry rest following := by
    refine stands_first (fresh entry ?_)
    rw [show upload.snapshot = entry :: rest from following]
    exact List.mem_cons_self
  later entry rest other following isLater := by
    refine fresh other ?_
    rw [show upload.snapshot = entry :: rest from following]
    exact List.mem_cons_of_mem entry isLater

variable [DecidableEq Path] {session : Session} {upload : UploadSession FileId Path}
  {world next : World Call Session FileId Path} {call : Call} {control moved : Control Session FileId Path}
  {event : CallEvent Session}

/-- A call that has not passed its test changes nothing, and passes it only where the session is unfinished. -/
theorem Control.Lingers.step (lingers : control.Lingers session)
    (finds : forall other, event = .find other -> other = session)
    (taken : callStep world call control event = some (next, moved)) :
    next = world ∧ (moved.Lingers session ∨ event = .check ∧
      forall upload, world.sessions session = some upload -> upload.finished = false) := by
  cases control with
  | idle =>
    cases event with
    | find other =>
      simp only [callStep] at taken
      split at taken
      · cases taken
        exact ⟨rfl, .inl (finds other rfl)⟩
      · cases taken
        exact ⟨rfl, .inl trivial⟩
    | _ => simp [callStep] at taken
  | found other =>
    cases event with
    | check =>
      have isSession : other = session := lingers
      subst isSession
      cases move_of_callStep taken with
      | refused => exact ⟨rfl, .inl trivial⟩
      | checked isUpload unfinished =>
        refine ⟨rfl, .inr ⟨rfl, fun upload found => ?_⟩⟩
        rw [isUpload] at found
        cases found
        exact unfinished
    | _ => simp [callStep] at taken
  | failed => simp [callStep] at taken
  | _ => exact lingers.elim

variable [DecidableEq Call] {calls : Call -> Control Session FileId Path}

/-- A step before any call has made its test. -/
theorem Progress.step_before (isUpload : world.sessions session = some upload) (registered : upload.stage = .registered)
    (unfinished : upload.finished = false) (complete : upload.allComplete)
    (fresh : forall entry, entry ∈ upload.snapshot -> (world.view session entry).Fresh upload.mode entry.2)
    (waits : forall call, (calls call).Waits session) (finds : forall other, event = .find other -> other = session)
    (taken : callStep world call (calls call) event = some (next, moved)) :
    Progress session upload next (update calls call moved) := by
  have waiting := waits call
  cases isControl : calls call with
  | idle =>
    rw [isControl] at taken
    cases event with
    | find other =>
      rcases finds other rfl with rfl
      simp only [callStep, isUpload, any_some, registered, decide_true, if_true] at taken
      cases taken
      refine .before isUpload fresh ?_
      exact forall_update rfl fun other _ => waits other
    | _ => simp [callStep] at taken
  | found other =>
    rw [isControl] at waiting taken
    rcases waiting with rfl
    cases move_of_callStep taken with
    | refused found refusal =>
      rw [isUpload] at found
      cases found
      simp [unfinished, complete] at refusal
    | checked found =>
      rw [isUpload] at found
      cases found
      refine .during call _ _ (update_self call _ calls) (.begun isUpload fresh) ?_
      intro other different
      rw [update_of_ne different]
      exact (waits other).lingers
  | _ =>
    rw [isControl] at waiting
    exact waiting.elim

section

variable (others : forall other, other ≠ call -> (calls other).Lingers session)

include others

/-- A step of the call that commits the files. -/
theorem Progress.step_worker {commit : Commit Session FileId Path} {phase : Phase}
    (working : Working session upload world commit phase) (apart : upload.snapshot.Pairwise Apart)
    (complete : upload.allComplete) (sound : event ≠ .throw)
    (taken : callStep world call (.committing commit phase) event = some (next, moved)) :
    Progress session upload next (update calls call moved) := by
  have kept := lingers_update others moved
  cases following : commit.rest with
  | cons entry rest =>
    simp only [callStep, following] at taken
    rcases working.step following complete sound taken apart with ⟨commit, phase, rfl, works⟩
    exact .during call commit phase (update_self call _ calls) works kept
  | nil =>
    have all : commit.done = upload.snapshot := by
      rw [← working.isFiles, files, following, List.append_nil]
    simp only [callStep, following] at taken
    split at taken
    case h_1 =>
      cases taken
      refine .after call ?_ ⟨{ upload with finished := true }, ?_, rfl⟩ ?_ kept
      · rw [update_self]
        exact ⟨working.isSession, all⟩
      · simp [setSession, working.isSession, working.isUpload]
      · intro entry isEntry
        exact working.done entry (by rwa [all])
    case h_2 => cases taken

/-- A step of the call that has committed the files. -/
theorem Progress.step_ended (ends : (calls call).Ends session upload.snapshot) (isFinished : Exists fun finished =>
      world.sessions session = some finished ∧ finished.finished)
    (done : forall entry, entry ∈ upload.snapshot -> (world.view session entry).Done upload.mode entry.2)
    (taken : callStep world call (calls call) event = some (next, moved)) :
    Progress session upload next (update calls call moved) := by
  have kept := lingers_update others moved
  cases isControl : calls call with
  | marked other files =>
    rw [isControl] at ends taken
    rcases ends with ⟨rfl, rfl⟩
    rcases isFinished with ⟨finished, found, isFinished⟩
    cases move_of_callStep taken with
    | erased =>
      refine .after call ?_ ⟨{ finished with stage := .erased }, ?_, isFinished⟩ done kept
      · rw [update_self]
        exact ⟨rfl, rfl⟩
      · simp [setSession, found]
  | erased other files =>
    rw [isControl] at ends taken
    rcases ends with ⟨rfl, rfl⟩
    cases move_of_callStep taken with
    | answered =>
      refine .after call ?_ isFinished done kept
      rw [update_self]
      exact ⟨rfl, rfl⟩
  | complete other files =>
    rw [isControl] at taken
    simp [callStep] at taken
  | _ =>
    rw [isControl] at ends
    exact ends.elim

end

/-- A step of a call that waits, or has been refused, while another one is at work or through. -/
theorem Progress.step_other {worker : Call} (different : call ≠ worker)
    (others : forall other, other ≠ worker -> (calls other).Lingers session)
    (finds : forall other, event = .find other -> other = session) (refused : event = .check -> Exists fun finished =>
      world.sessions session = some finished ∧ finished.finished)
    (taken : callStep world call (calls call) event = some (next, moved)) :
    next = world ∧ update calls call moved worker = calls worker ∧
      forall other, other ≠ worker -> (update calls call moved other).Lingers session := by
  rcases (others call different).step finds taken with ⟨same, lingers | ⟨isCheck, unfinished⟩⟩
  · refine ⟨same, update_of_ne different.symm _ _, ?_⟩
    intro other away
    by_cases isCall : other = call
    · subst isCall
      rwa [update_self]
    · rw [update_of_ne isCall]
      exact others other away
  · rcases refused isCheck with ⟨finished, found, isFinished⟩
    rw [unfinished finished found] at isFinished
    cases isFinished

theorem Progress.callStep (ready : upload.stage = .registered ∧ upload.finished = false ∧ upload.allComplete)
    (apart : upload.snapshot.Pairwise Apart) (finds : forall other, event = .find other -> other = session)
    (sound : event ≠ .throw) (alone : event = .check -> forall other, (calls other).isCommitting = false)
    (taken : callStep world call (calls call) event = some (next, moved)) (progress : Progress session upload world calls) :
    Progress session upload next (update calls call moved) := by
  rcases ready with ⟨registered, unfinished, complete⟩
  cases progress with
  | before isUpload fresh waits =>
    exact .step_before isUpload registered unfinished complete fresh waits finds taken
  | during worker commit phase isCommitting working others =>
    by_cases isWorker : call = worker
    · subst isWorker
      rw [isCommitting] at taken
      exact .step_worker others working apart complete sound taken
    · have refused : event = .check -> Exists fun finished =>
          world.sessions session = some finished ∧ finished.finished := by
        intro isCheck
        have atWork := alone isCheck worker
        rw [isCommitting] at atWork
        cases atWork
      rcases Progress.step_other isWorker others finds refused taken with ⟨rfl, same, lingers⟩
      exact .during worker commit phase (same.trans isCommitting) working lingers
  | after worker ends isFinished done others =>
    by_cases isWorker : call = worker
    · subst isWorker
      exact .step_ended others ends isFinished done taken
    · rcases Progress.step_other isWorker others finds (fun _ => isFinished) taken with ⟨rfl, same, lingers⟩
      exact .after worker (by rw [same]; exact ends) isFinished done lingers

end Progress

/-! ## Runs -/

/-- What two or more calls on one session come to: one of them answers complete, every body is stored once, and no share
upload of a stored file is given up. -/
structure FinishedOnce [DecidableEq Session] [DecidableEq FileId] (state : State Call Stream Session FileId Path)
    (session : Session) (upload : UploadSession FileId Path) : Prop where
  answered : Exists fun call : Call => state.calls call = .complete session upload.snapshot ∧
    forall other files, state.calls other = .complete session files -> other = call
  stored : forall entry, entry ∈ upload.snapshot ->
    state.world.storesOf session entry.1 = [(entry.2.path, some (.file entry.2.received))]
  records : upload.mode = .share -> forall entry, entry ∈ upload.snapshot ->
    Exists fun record : Share.UploadQuota.Upload =>
      state.world.records session entry.1 = some record ∧ record.status ≠ .failed ∧ record.status ≠ .cancelled

def Exclusive (session : Session) (state : State Call Stream Session FileId Path)
    (label : Label Call Stream Session FileId Path) : Prop :=
  OnlyFinishes session label ∧ Alone state label

section Runs

variable [DecidableEq Call] [DecidableEq Stream] [DecidableEq Session] [DecidableEq FileId] [DecidableEq Path]
  {session : Session} {upload : UploadSession FileId Path} {state next final : State Call Stream Session FileId Path}

theorem Progress.step (ready : upload.stage = .registered ∧ upload.finished = false ∧ upload.allComplete)
    (apart : upload.snapshot.Pairwise Apart) {label : Label Call Stream Session FileId Path}
    (exclusive : Exclusive session state label) (taken : Upload.step state label = some next)
    (progress : Progress session upload state.world state.calls) : Progress session upload next.world next.calls := by
  cases label with
  | call call event =>
    rcases map_eq_some_iff.mp taken with ⟨⟨world, moved⟩, isMoved, rfl⟩
    refine .callStep ready apart ?_ ?_ ?_ isMoved progress
    · rintro other rfl
      exact exclusive.1
    · rintro rfl
      exact exclusive.1
    · rintro rfl
      exact exclusive.2
  | _ => exact exclusive.1.elim

/-- Among any number of calls on a completely received session, none of which makes its test while another one commits,
exactly one answers complete once all have returned. -/
theorem finish_is_once (ready : Ready state session upload) {labels : List (Label Call Stream Session FileId Path)}
    (reached : run step state labels = some final) (exclusive : Along step (Exclusive session) state labels)
    (returned : forall call, (final.calls call).hasReturned = true)
    (called : Exists fun call : Call => final.calls call ≠ .idle) : FinishedOnce final session upload := by
  have begun : Progress session upload state.world state.calls := by
    refine .before ready.isUpload ready.fresh fun call => ?_
    rw [ready.idle call]
    trivial
  have steps : forall before label (after : State Call Stream Session FileId Path), Exclusive session before label ->
      step before label = some after -> Progress session upload before.world before.calls ->
        Progress session upload after.world after.calls :=
    fun _ _ _ allowed taken holds =>
      Progress.step ⟨ready.registered, ready.unfinished, ready.complete⟩ ready.apart allowed taken holds
  have progress : Progress session upload final.world final.calls := run_induction steps reached exclusive begun
  cases progress with
  | before _ _ waits =>
    rcases called with ⟨call, moved⟩
    have waiting := waits call
    have back := returned call
    cases isControl : final.calls call with
    | idle => exact absurd isControl moved
    | _ => simp_all [Control.Waits, Control.hasReturned]
  | during call _ _ isCommitting =>
    have back := returned call
    rw [isCommitting] at back
    cases back
  | after call ends _ done others =>
    have back := returned call
    refine ⟨⟨call, ?_, ?_⟩, fun entry isEntry => (done entry isEntry).stores, ?_⟩
    · cases isControl : final.calls call with
      | complete =>
        rw [isControl] at ends
        rw [ends.1, ends.2]
      | _ =>
        simp_all [Control.Ends, Control.hasReturned]
    · intro other files isComplete
      by_contra different
      have lingers := others other different
      rw [isComplete] at lingers
      exact lingers
    · intro mode entry isEntry
      rcases (done entry isEntry).record mode with ⟨record, isRecord, status⟩
      exact ⟨record, isRecord, by simp [status], by simp [status]⟩

end Runs

/-! ## Two calls on one session -/

instance (session : Session) [DecidableEq Session] :
    (label : Label Call Stream Session FileId Path) -> Decidable (OnlyFinishes session label)
  | .call _ event =>
    match event with
    | .find other => inferInstanceAs (Decidable (other = session))
    | .throw => inferInstanceAs (Decidable False)
    | .check | .resolve | .verify | .look | .write | .upsert | .cache | .unstage | .confirm | .completeUpload
    | .mark | .erase | .answer | .clean => inferInstanceAs (Decidable True)
  | .stream _ _ | .start _ _ | .plan _ _ _ _ _ _ | .register _ | .close _ _ | .sweep _ _ _ | .drop _ | .write _ _ =>
    inferInstanceAs (Decidable False)

instance [Fintype Call] (state : State Call Stream Session FileId Path) :
    (label : Label Call Stream Session FileId Path) -> Decidable (Alone state label)
  | .call _ event =>
    match event with
    | .check => inferInstanceAs (Decidable (forall other, (state.calls other).isCommitting = false))
    | .find _ | .throw | .resolve | .verify | .look | .write | .upsert | .cache | .unstage | .confirm
    | .completeUpload | .mark | .erase | .answer | .clean => inferInstanceAs (Decidable True)
  | .stream _ _ | .start _ _ | .plan _ _ _ _ _ _ | .register _ | .close _ _ | .sweep _ _ _ | .drop _ | .write _ _ =>
    inferInstanceAs (Decidable True)

instance [Fintype Call] [DecidableEq Session] (session : Session) (state : State Call Stream Session FileId Path)
    (label : Label Call Stream Session FileId Path) : Decidable (Exclusive session state label) :=
  inferInstanceAs (Decidable (OnlyFinishes session label ∧ Alone state label))

/-- A file of one byte that has been received. -/
def receivedFile : UploadFile Unit :=
  { targetKey := str "1:/a.txt", path := (), expectedSize := 1, received := [7], status := .complete }

variable (mode : UploadMode)

/-- A registered session with that file. -/
def receivedSession : UploadSession Unit Unit :=
  { mode := mode, order := [()], files := fun _ => some receivedFile, stage := .registered, finished := false
    verdicts := [] }

def receivedUpload : Share.UploadQuota.Upload :=
  { shareSessionId := [], expectedSizeBytes := 1, receivedSizeBytes := 1, status := .receiving
    received_le := Nat.le_refl 1 }

def received : State Bool Unit Unit Unit Unit :=
  { world :=
      { sessions := fun _ => some (receivedSession mode), staged := fun _ _ => some { opened := 0, bytes := [7] }
        targets := fun _ => { row := none, cached := none }, records := fun _ _ => some receivedUpload
        opened := 1, stores := [], removals := [] }
    calls := fun _ => .idle
    streams := fun _ => .idle }

theorem ready_received : Ready (received mode) () (receivedSession mode) where
  isUpload := rfl
  registered := rfl
  unfinished := rfl
  complete := by
    cases mode <;> decide
  apart := List.pairwise_singleton _ _
  fresh entry isEntry := by
    rcases List.mem_singleton.mp isEntry with rfl
    exact ⟨rfl, rfl, rfl, rfl, fun _ => rfl⟩
  idle _ := rfl

/-- The events of one call on the session, one after another. -/
def events (call : Bool) (taken : List (CallEvent Unit)) : List (Label Bool Unit Unit Unit Unit) :=
  taken.map fun event => .call call event

def tests : List (CallEvent Unit) :=
  [.find (), .check]

def writes : List (CallEvent Unit) :=
  [.verify, .look, .write, .upsert, .cache]

def answers : List (CallEvent Unit) :=
  [.mark, .erase, .answer]

/-- What the calls have answered, how often the file was stored, and the share upload. -/
def result (state : State Bool Unit Unit Unit Unit) : (Bool × Bool) × Nat × Option Share.UploadQuota.UploadStatus :=
  ((decide (state.calls false = .complete () [((), receivedFile)]),
      decide (state.calls true = .complete () [((), receivedFile)])),
    state.world.stores.length, (state.world.records () ()).map fun record => record.status)

theorem finish_is_once_in_turn :
    Exists fun final : State Bool Unit Unit Unit Unit =>
      run step (received .share)
          (events true [.find ()] ++ events false (tests ++ [.resolve] ++ writes ++
            [.unstage, .confirm, .completeUpload] ++ answers) ++ events true [.check]) = some final ∧
        FinishedOnce final () (receivedSession .share) := by
  have exclusive : Along step (Exclusive ()) (received .share)
      (events true [.find ()] ++ events false (tests ++ [.resolve] ++ writes ++
        [.unstage, .confirm, .completeUpload] ++ answers) ++ events true [.check]) := by decide +kernel
  have returns : (run step (received .share)
      (events true [.find ()] ++ events false (tests ++ [.resolve] ++ writes ++
        [.unstage, .confirm, .completeUpload] ++ answers) ++ events true [.check])).any (fun final =>
          (final.calls false).hasReturned && (final.calls true).hasReturned &&
            decide (final.calls true ≠ .idle)) = true := by decide +kernel
  rcases (any_eq_true _ _).mp returns with ⟨final, reached, seen⟩
  simp only [Bool.and_eq_true, decide_eq_true_eq] at seen
  refine ⟨final, reached, finish_is_once (ready_received .share) reached exclusive ?_ ⟨true, seen.2⟩⟩
  intro call
  cases call with
  | false => exact seen.1.1
  | true => exact seen.1.2

/-- Of two calls that both make their test first, the second finds the file that the first has stored, and both answer
complete.  For a share upload the second call fails, and so does the share upload of the stored file and with it the
first call. -/
theorem finish_twice_harms :
    (run step (received .authenticated)
        (events false (tests ++ writes) ++ events true (tests ++ [.verify, .look]) ++
          events false (.unstage :: answers) ++ events true (.unstage :: answers))).map result =
        some ((true, true), 1, some .receiving) ∧
      (run step (received .share)
          (events false (tests ++ [.resolve] ++ writes) ++ events true (tests ++ [.resolve, .clean, .answer]) ++
            events false [.unstage, .confirm, .clean, .answer])).map result =
        some ((false, false), 1, some .failed) := by
  constructor
  · decide +kernel
  · decide +kernel

end Upload
end Vaulthalla
