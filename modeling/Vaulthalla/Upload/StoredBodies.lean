import Vaulthalla.Upload.Staging

namespace Vaulthalla
namespace Upload

open Foundation Transition Function Advances

/-!
# A finished upload is stored

What `finishSession` copies under the session mutex stays what the staging
files hold, as long as these are there, so the bytes that `createFile` seals
are the received bodies.

Three things can still go wrong.  `createFile` hands back an entry that it
finds in the cache, and the call goes on as if it had written it; it updates a
row that another writer has put at the path, which keeps the bytes of that
writer; and the late failure of a stream removes a body that another stream has
completed.
-/

variable {Call Stream Session FileId Path : Type}

/-! ## What a call has done -/

variable (world : World Call Session FileId Path) (call : Call) (session : Session) (entry : FileId × UploadFile Path)

/-- A row update of the call has left the received body at the target of the file. -/
def Written : Prop :=
  Exists fun store : Store Call Session FileId Path => store ∈ world.stores ∧
    (store.call = call ∧ store.session = session ∧ store.fileId = entry.1) ∧
      store.path = entry.2.path ∧ store.after = some (.file entry.2.received)

/-- The staging file holds the body, if it is still there. -/
def Matching : Prop :=
  forall staged, world.staged session entry.1 = some staged -> staged.bytes = entry.2.received

/-- The copies that a call works on are the files of the session. -/
structure Snapshot
    (files : List (FileId × UploadFile Path)) : Prop where
  settled : world.Settled session
  current : forall entry, entry ∈ files -> world.fileOf session entry.1 = some entry.2 ∧ entry.2.isComplete = true
  covers : forall id file, world.fileOf session id = some file -> (id, file) ∈ files

def Phase.Upholds : Phase -> Prop
  | .waiting | .resolved => True
  | .verified | .absent => Matching world session entry
  | .sealed body => Matching world session entry ∧ body = entry.2.received
  | .stored | .created => Matching world session entry ∧ Written world call session entry
  | .unstaged | .confirmed => False

structure Committing (commit : Commit Session FileId Path)
    (phase : Phase) : Prop where
  snapshot : Snapshot world commit.session commit.files
  done : forall entry, entry ∈ commit.done -> Written world call commit.session entry
  next : forall entry rest, commit.rest = entry :: rest -> phase.Upholds world call commit.session entry

/-- What holds of a call between two of its steps. -/
def Backed : Control Session FileId Path -> Prop
  | .found session => world.Settled session
  | .committing commit phase =>
    world.modeOf commit.session = some commit.mode ∧
      (commit.mode = .authenticated -> Committing world call commit phase)
  | .marked session files | .erased session files | .complete session files =>
    Exists fun mode : UploadMode => world.modeOf session = some mode ∧
      (mode = .authenticated -> Snapshot world session files ∧
        forall entry, entry ∈ files -> Written world call session entry)
  | .failing session _ _ => world.verdictsOf session ≠ []
  | .idle | .failed => True

section Kept

variable {world next : World Call Session FileId Path} {call : Call} {session : Session}
  {entry : FileId × UploadFile Path} {phase : Phase} {commit : Commit Session FileId Path}
  {rest : List (FileId × UploadFile Path)}

section

variable (evolved : Evolves world next)

include evolved

theorem Written.kept (written : Written world call session entry) : Written next call session entry := by
  rcases written with ⟨store, isStore, facts⟩
  exact ⟨store, evolved.stores store isStore, facts⟩

theorem Snapshot.kept {files : List (FileId × UploadFile Path)} (snapshot : Snapshot world session files) :
    Snapshot next session files where
  settled := evolved.settled session snapshot.settled
  current entry isEntry := by
    rcases snapshot.current entry isEntry with ⟨isFile, complete⟩
    exact ⟨evolved.frozen session entry.1 entry.2 isFile complete, complete⟩
  covers id file isFile := by
    rcases Option.isSome_iff_exists.mp (evolved.known session id file snapshot.settled isFile) with ⟨old, isOld⟩
    have listed := snapshot.covers id old isOld
    have still := evolved.frozen session id old isOld (snapshot.current (id, old) listed).2
    rw [isFile] at still
    cases still
    exact listed

section

variable (current : world.fileOf session entry.1 = some entry.2 ∧ entry.2.isComplete = true)

include current

theorem Matching.kept (matching : Matching world session entry) : Matching next session entry := by
  intro staged isStaged
  exact matching staged (evolved.intact session entry.1 entry.2 current.1 current.2 staged isStaged)

theorem Phase.Upholds.kept (upholds : phase.Upholds world call session entry) :
    phase.Upholds next call session entry := by
  cases phase with
  | waiting | resolved => trivial
  | verified | absent => exact .kept evolved current upholds
  | «sealed» body => exact ⟨.kept evolved current upholds.1, upholds.2⟩
  | stored | created => exact ⟨.kept evolved current upholds.1, upholds.2.kept evolved⟩
  | unstaged | confirmed => exact upholds

end

theorem Committing.kept (committing : Committing world call commit phase) :
    Committing next call commit phase where
  snapshot := committing.snapshot.kept evolved
  done entry isEntry := (committing.done entry isEntry).kept evolved
  next entry rest following := by
    refine (committing.next entry rest following).kept evolved (committing.snapshot.current entry ?_)
    simp [Commit.files, following]

theorem Backed.kept {control : Control Session FileId Path} (backed : Backed world call control) :
    Backed next call control := by
  cases control with
  | idle | failed => trivial
  | found session => exact evolved.settled session backed
  | committing commit phase =>
    exact ⟨evolved.mode commit.session commit.mode backed.1, fun mode => (backed.2 mode).kept evolved⟩
  | marked session files | erased session files | complete session files =>
    rcases backed with ⟨mode, isMode, stored⟩
    refine ⟨mode, evolved.mode session mode isMode, fun authenticated => ?_⟩
    rcases stored authenticated with ⟨snapshot, written⟩
    exact ⟨snapshot.kept evolved, fun entry isEntry => (written entry isEntry).kept evolved⟩
  | failing session mode rest => exact evolved.reported session backed

end

theorem snapshot_of_checked (sound : Sound world) {upload : UploadSession FileId Path}
    (settled : world.Settled session) (isUpload : world.sessions session = some upload)
    (complete : upload.allComplete) : Snapshot world session upload.snapshot where
  settled := settled
  current entry isEntry := by
    refine ⟨?_, List.all_eq_true.mp complete entry isEntry⟩
    simp [World.fileOf, isUpload, UploadSession.mem_snapshot isEntry]
  covers id file isFile := by
    have inFiles : upload.files id = some file := by
      simpa [World.fileOf, isUpload] using isFile
    refine List.mem_filterMap.mpr ⟨id, sound.listed session upload isUpload id file inFiles, ?_⟩
    simp [inFiles]

/-- Bytes of the expected size that were received for a complete file are its body. -/
theorem matching_of_verified (sound : Sound world) {staged : Staged}
    (current : world.fileOf session entry.1 = some entry.2 ∧ entry.2.isComplete)
    (isStaged : world.staged session entry.1 = some staged) (size : staged.bytes.length = entry.2.expectedSize) :
    Matching world session entry := by
  intro other isOther
  rw [isStaged] at isOther
  cases isOther
  rcases sound.within session entry.1 staged isStaged with ⟨file, isFile, sublist⟩
  rw [current.1] at isFile
  cases isFile
  have received := ((UploadFile.isComplete_iff entry.2).mp current.2).2
  exact sublist.eq_of_length (by omega)

theorem received_of_empty {file : UploadFile Path} (complete : file.isComplete) (size : file.expectedSize = 0) :
    file.received = [] := by
  have received := ((UploadFile.isComplete_iff file).mp complete).2
  exact List.eq_nil_of_length_eq_zero (by omega)

/-- The next file, once the one at the head has been written. -/
theorem Committing.advanced (following : commit.rest = entry :: rest) (mode : commit.mode = .authenticated)
    (committing : Committing world call commit phase) (written : Written world call commit.session entry) :
    Committing world call { commit with done := commit.done ++ [entry], rest := rest }
      (.first commit.mode) where
  snapshot := by
    have files : commit.done ++ [entry] ++ rest = commit.files := by
      simp [Commit.files, following]
    simpa only [Commit.files, files] using committing.snapshot
  done other isOther := by
    rcases List.mem_append.mp isOther with earlier | isEntry
    · exact committing.done other earlier
    · rw [List.mem_singleton.mp isEntry]
      exact written
  next _ _ _ := by
    rw [mode]
    trivial

/-- A new phase of the file at the head. -/
theorem Committing.within {later : Phase} (committing : Committing world call commit phase)
    (following : commit.rest = entry :: rest) (upholds : later.Upholds world call commit.session entry) :
    Committing world call commit later where
  snapshot := committing.snapshot
  done := committing.done
  next other others otherFollowing := by
    rw [following] at otherFollowing
    cases otherFollowing
    exact upholds

theorem Committing.current (committing : Committing world call commit phase) (following : commit.rest = entry :: rest) :
    world.fileOf commit.session entry.1 = some entry.2 ∧ entry.2.isComplete :=
  committing.snapshot.current entry (by simp [Commit.files, following])

end Kept

/-! ## States -/

structure Upheld (state : State Call Stream Session FileId Path) : Prop where
  sound : Sound state.world
  backed : forall call, Backed state.world call (state.calls call)

theorem upheld_initial (targets : Path -> Target) :
    Upheld (initial targets : State Call Stream Session FileId Path) where
  sound := ⟨by simp [World.Within, initial], by simp [World.Listed, initial], by simp [initial]⟩
  backed _ := trivial

/-- A step that is no step of a call. -/
theorem Upheld.advance {state : State Call Stream Session FileId Path} {world : World Call Session FileId Path}
    (advances : Advances state.world world) (streams : Stream -> StreamControl Session FileId)
    (upheld : Upheld state) : Upheld { state with world := world, streams := streams } where
  sound := (advances upheld.sound).1
  backed call := (upheld.backed call).kept (advances upheld.sound).2

/-! ## Undisturbed runs -/

section Runs

variable [DecidableEq Session] [DecidableEq FileId]

/-- Where `createFile` is about to look for the target of an authenticated upload, no file is cached, and where it is
about to write the row there is none. -/
def Vacant (world : World Call Session FileId Path) : Control Session FileId Path -> Prop
  | .committing commit .verified =>
    commit.mode = .authenticated ->
      commit.rest.head?.all (fun entry => (world.targets entry.2.path).cached ≠ some .file) = true
  | .committing commit (.sealed _) =>
    commit.mode = .authenticated -> commit.rest.head?.all (fun entry => (world.targets entry.2.path).row = none) = true
  | _ => True

instance decidableVacant (world : World Call Session FileId Path) :
    (control : Control Session FileId Path) -> Decidable (Vacant world control)
  | .committing commit phase =>
    match phase with
    | .verified | .sealed _ => inferInstanceAs (Decidable (commit.mode = .authenticated -> _ = true))
    | .waiting | .resolved | .absent | .stored | .created | .unstaged | .confirmed =>
      inferInstanceAs (Decidable True)
  | .idle | .found _ | .marked _ _ | .erased _ _ | .complete _ _ | .failing _ _ _ | .failed =>
    inferInstanceAs (Decidable True)

instance decidableInTime (world : World Call Session FileId Path) (control : StreamControl Session FileId) :
    (event : StreamEvent Session FileId) -> Decidable (InTime world control event)
  | .fail => inferInstanceAs (Decidable (_ = true))
  | .find _ | .refuse | .begin _ | .write _ | .record | .finish => inferInstanceAs (Decidable True)

/-- The steps after which a finished upload is stored. -/
def Undisturbed (state : State Call Stream Session FileId Path) : Label Call Stream Session FileId Path -> Prop
  | .call call .look | .call call .upsert => Vacant state.world (state.calls call)
  | .stream stream event => InTime state.world (state.streams stream) event
  | _ => True

instance decidableUndisturbed (state : State Call Stream Session FileId Path) :
    (label : Label Call Stream Session FileId Path) -> Decidable (Undisturbed state label)
  | .call call event =>
    match event with
    | .look | .upsert => decidableVacant state.world (state.calls call)
    | .find _ | .check | .resolve | .verify | .write | .cache | .unstage | .confirm | .completeUpload
    | .mark | .erase | .answer | .throw | .clean => inferInstanceAs (Decidable True)
  | .stream stream event => decidableInTime state.world (state.streams stream) event
  | .start _ _ | .plan _ _ _ _ _ _ | .register _ | .close _ _ | .sweep _ _ _ | .drop _ | .write _ _ =>
    inferInstanceAs (Decidable True)

variable {world next : World Call Session FileId Path} {call : Call} {control moved : Control Session FileId Path}
  {commit : Commit Session FileId Path} {entry : FileId × UploadFile Path} {rest : List (FileId × UploadFile Path)}
  {event : CallEvent Session}

/-- The removal of the staging file of a committed file. -/
theorem Committing.expendable (following : commit.rest = entry :: rest)
    (committing : Committing world call commit .created) : Expendable world commit.session entry.1 := by
  refine .inr (.inr (.inr ?_))
  intro staged isStaged
  rcases committing.next entry rest following with ⟨matching, store, isStore, ⟨_, ofSession, ofFile⟩, _, after⟩
  refine List.any_eq_true.mpr ⟨store, isStore, ?_⟩
  simp [ofSession, ofFile, after, matching staged isStaged]

theorem expendable_of_backed (following : commit.rest = entry :: rest)
    (backed : Backed world call (.committing commit .created)) : Expendable world commit.session entry.1 := by
  cases mode : commit.mode with
  | authenticated => exact (backed.2 mode).expendable following
  | share =>
    refine .inl ?_
    rw [backed.1, mode]
    simp

variable [DecidableEq Path]

theorem Move.advances (taken : Move world call control next moved) (backed : Backed world call control) :
    Advances world next := by
  cases taken with
  | found | lost | refused | checked | resolved | verified | absent | kept | empty | «sealed» | confirmed | answered
  | failed => exact refl world
  | stored => exact of_same rfl rfl rfl fun _ isStore => List.mem_cons_of_mem _ isStore
  | cached => exact of_same rfl rfl rfl fun _ isStore => isStore
  | ended following | unstaged following => exact of_unstage (expendable_of_backed following backed)
  | completed => exact of_setRecord _
  | thrown => exact of_report _
  | marked | erased =>
    exact of_setSession _ (fun _ => rfl) (fun _ => rfl) (by simp) (fun _ => rfl)
      (fun _ => id)
  | cleaned => exact of_unstage (.inr (.inr (.inl backed)))
  | closed => exact of_closeRecord _ _ _

theorem Move.backed (taken : Move world call control next moved) (sound : Sound world)
    (vacant : (Exists fun commit => moved = .committing commit .created ∨ moved = .committing commit .stored) ->
      Vacant world control)
    (backed : Backed world call control) : Backed next call moved := by
  have evolved : Evolves world next := (taken.advances backed sound).2
  cases taken with
  | found isUpload registered => exact ⟨_, isUpload, by simp [registered]⟩
  | lost | refused | failed => trivial
  | @checked session upload isUpload _ complete =>
    refine ⟨by simp [World.modeOf, isUpload], fun mode => ⟨?_, by simp, ?_⟩⟩
    · exact snapshot_of_checked sound backed isUpload complete
    · intro entry rest _
      have first : Phase.first upload.mode = .resolved := by
        rw [show upload.mode = .authenticated from mode]
        rfl
      rw [first]
      trivial
  | resolved following _ =>
    exact ⟨backed.1, fun mode => (backed.2 mode).within following trivial⟩
  | verified following isStaged size =>
    refine ⟨backed.1, fun mode => ?_⟩
    have committing := backed.2 mode
    exact committing.within following (matching_of_verified sound (committing.current following) isStaged size)
  | absent following _ =>
    exact ⟨backed.1, fun mode => (backed.2 mode).within following ((backed.2 mode).next _ _ following)⟩
  | kept following found =>
    refine ⟨backed.1, fun mode => ?_⟩
    have free := vacant ⟨_, .inl rfl⟩ mode
    simp [following, found] at free
  | empty following size =>
    refine ⟨backed.1, fun mode => ?_⟩
    have committing := backed.2 mode
    have matching := committing.next _ _ following
    exact committing.within following
      ⟨matching, (received_of_empty (committing.current following).2 size).symm⟩
  | «sealed» following isStaged =>
    refine ⟨backed.1, fun mode => ?_⟩
    have matching := (backed.2 mode).next _ _ following
    exact (backed.2 mode).within following ⟨matching, matching _ isStaged⟩
  | stored following =>
    refine ⟨backed.1, fun mode => ?_⟩
    have committing := backed.2 mode
    rcases committing.next _ _ following with ⟨matching, rfl⟩
    have free := vacant ⟨_, .inr rfl⟩ mode
    simp only [following, List.head?_cons, Option.all_some, decide_eq_true_eq] at free
    refine (committing.kept evolved).within following ⟨matching, ?_⟩
    exact ⟨_, List.mem_cons_self, ⟨rfl, rfl, rfl⟩, rfl, by simp [free]⟩
  | cached following =>
    refine ⟨backed.1, fun mode => ?_⟩
    have committing := (backed.2 mode).kept evolved
    exact committing.within following (committing.next _ _ following)
  | ended following _ =>
    refine ⟨evolved.mode _ _ backed.1, fun mode => ?_⟩
    have committing := (backed.2 mode).kept evolved
    exact committing.advanced following mode (committing.next _ _ following).2
  | unstaged _ mode =>
    refine ⟨evolved.mode _ _ backed.1, fun authenticated => ?_⟩
    rw [mode] at authenticated
    cases authenticated
  | confirmed following _ =>
    refine ⟨backed.1, fun mode => ?_⟩
    exact ((backed.2 mode).next _ _ following).elim
  | completed following _ _ =>
    refine ⟨backed.1, fun mode => ?_⟩
    exact ((backed.2 mode).next _ _ following).elim
  | thrown _ =>
    rcases Option.map_eq_some_iff.mp backed.1 with ⟨upload, isUpload, _⟩
    simp [Backed, World.verdictsOf, World.report, World.setSession, isUpload]
  | @marked commit phase all =>
    refine ⟨commit.mode, evolved.mode _ _ backed.1, fun mode => ?_⟩
    have committing := (backed.2 mode).kept evolved
    have files : commit.files = commit.done := by simp [Commit.files, all]
    exact ⟨files ▸ committing.snapshot, committing.done⟩
  | erased => exact .kept evolved backed
  | answered => exact backed
  | cleaned | closed => exact evolved.reported _ backed

/-- `createFile` hands back what it has found only when it looks, and writes the row only when it comes to it. -/
theorem vacant_of_step (taken : callStep world call control event = some (next, moved))
    (goesOn : Exists fun commit => moved = .committing commit .created ∨ moved = .committing commit .stored)
    (vacant : event = .look ∨ event = .upsert -> Vacant world control) : Vacant world control := by
  rcases goesOn with ⟨later, rfl | rfl⟩ <;>
  cases control with
  | committing commit phase =>
    cases phase with
    | verified | «sealed» =>
      refine vacant ?_
      cases event <;> simp only [callStep] at taken <;> split at taken <;>
        simp_all [commitStep, throwing]
    | _ => trivial
  | _ => trivial

variable [DecidableEq Call]

theorem Upheld.callStep {state : State Call Stream Session FileId Path}
    {moved : World Call Session FileId Path × Control Session FileId Path}
    (taken : callStep state.world call (state.calls call) event = some moved)
    (undisturbed : Undisturbed state (.call call event)) (upheld : Upheld state) :
    Upheld { state with world := moved.1, calls := update state.calls call moved.2 } := by
  have move := move_of_callStep taken
  have advances := move.advances (upheld.backed call) upheld.sound
  refine ⟨advances.1, fun other => ?_⟩
  by_cases same : other = call
  · subst same
    simp only [update_self]
    refine move.backed upheld.sound (fun goesOn => vacant_of_step taken goesOn ?_) (upheld.backed other)
    rintro (rfl | rfl) <;> exact undisturbed
  · simp only [update_of_ne same]
    exact (upheld.backed other).kept advances.2

variable [DecidableEq Stream]

theorem Upheld.step {state next : State Call Stream Session FileId Path} {label : Label Call Stream Session FileId Path}
    (taken : step state label = some next) (undisturbed : Undisturbed state label) (upheld : Upheld state) :
    Upheld next := by
  cases label <;> simp only [Upload.step] at taken
  case call call event =>
    rcases Option.map_eq_some_iff.mp taken with ⟨moved, isMoved, rfl⟩
    exact upheld.callStep isMoved undisturbed
  case stream stream event =>
    rcases Option.map_eq_some_iff.mp taken with ⟨moved, isMoved, rfl⟩
    exact upheld.advance (of_streamStep isMoved undisturbed) _
  case start session mode =>
    split at taken
    · simp at taken
    rename_i missing
    cases taken
    exact upheld.advance (of_start missing mode) _
  case plan session id key path size client =>
    split at taken
    · simp at taken
    rename_i isUpload
    rcases guarded taken with ⟨free, rfl⟩
    exact upheld.advance (of_planFile isUpload (Bool.and_eq_true_iff.mp free).1 path size client) _
  case register session =>
    split at taken
    · simp at taken
    rcases guarded taken with ⟨_, rfl⟩
    refine upheld.advance ?_ _
    exact of_setSession _ (fun _ => rfl) (fun _ => rfl) (by simp) (fun _ => rfl)
      (fun _ => id)
  case close session verdict =>
    rcases guarded taken with ⟨_, rfl⟩
    exact upheld.advance (of_report verdict) _
  case sweep session verdict id =>
    split at taken
    · rename_i isUpload isFile
      rcases guarded taken with ⟨given, rfl⟩
      exact upheld.advance (of_sweepFile isUpload isFile given) _
    · simp at taken
  case drop session =>
    rcases guarded taken with ⟨_, rfl⟩
    refine upheld.advance ?_ _
    exact of_setSession _ (fun _ => rfl) (fun _ => rfl) (by simp) (fun _ => rfl)
      (fun _ => id)
  case write path target =>
    cases taken
    refine upheld.advance ?_ _
    exact of_same rfl rfl rfl fun _ isStore => isStore

/-- What an answer of `finishSession` promises, and what a removed staging file presupposes. -/
def FinishedStored (state : State Call Stream Session FileId Path) : Prop :=
  (forall call session files, state.calls call = .complete session files ->
    state.world.modeOf session = some .authenticated ->
      forall id file, state.world.fileOf session id = some file -> Written state.world call session (id, file)) ∧
    forall removal, removal ∈ state.world.removals -> removal.Proper

/-- In every run of sessions and other writers in which `createFile` never finds a file, nor a row, at the target of an
authenticated upload and no late failure of a stream hits a complete file, a finished upload is stored. -/
theorem finished_uploads_stored {targets : Path -> Target} {labels : List (Label Call Stream Session FileId Path)}
    {final : State Call Stream Session FileId Path} (reached : run step (initial targets) labels = some final)
    (undisturbed : Along step Undisturbed (initial targets) labels) : FinishedStored final := by
  have upheld : Upheld final :=
    run_induction (fun _ _ _ allowed taken holds => .step taken allowed holds) reached undisturbed
      (upheld_initial targets)
  refine ⟨?_, upheld.sound.proper⟩
  intro call session files isComplete authenticated id file isFile
  have backed := upheld.backed call
  rw [isComplete] at backed
  rcases backed with ⟨mode, isMode, stored⟩
  rw [authenticated] at isMode
  rcases stored (Option.some.inj isMode).symm with ⟨snapshot, written⟩
  exact written (id, file) (snapshot.covers id file isFile)

end Runs

/-! ## Two sessions -/

variable (session path : Bool)

/-- A session with one file, planned, received and registered. -/
def uploadOne (body : Str) : List (Label Bool Bool Bool Unit Bool) :=
  [.start session .authenticated, .plan session () [] path body.length [], .register session,
   .stream session (.find session), .stream session (.begin ()), .stream session (.write body), .stream session .finish]

def finishUntilLook : List (Label Bool Bool Bool Unit Bool) :=
  [.call session (.find session), .call session .check, .call session .verify, .call session .look]

def writeTarget : List (Label Bool Bool Bool Unit Bool) :=
  [.call session .write, .call session .upsert, .call session .cache]

def finishFromCreated : List (Label Bool Bool Bool Unit Bool) :=
  [.call session .unstage, .call session .mark, .call session .erase, .call session .answer]

def freeTarget : Bool -> Target :=
  fun _ => { row := none, cached := none }

/-- What a call has answered, what is stored at the path and by whom. -/
def outcome (state : State Bool Bool Bool Unit Bool) : Control Bool Unit Bool × Option Entry × List Bool :=
  (state.calls session, (state.world.targets path).row, state.world.stores.map Store.call)

/-- The answer of a session with one file. -/
def answered (body : Str) : Control Bool Unit Bool :=
  .complete session
    [((), { targetKey := [], path := path, expectedSize := body.length, received := body, status := .complete })]

/-- Two sessions for two paths, with their steps in turns. -/
def finishBoth : List (Label Bool Bool Bool Unit Bool) :=
  uploadOne false false [1] ++ uploadOne true true [2] ++ finishUntilLook false ++ finishUntilLook true ++
    writeTarget true ++ writeTarget false ++ finishFromCreated false ++ finishFromCreated true

theorem finished_uploads_stored_both :
    Exists fun final : State Bool Bool Bool Unit Bool =>
      run step (initial freeTarget) finishBoth = some final ∧ final.calls false = answered false false [1] ∧
        final.calls true = answered true true [2] ∧ FinishedStored final := by
  have undisturbed : Along step Undisturbed (initial freeTarget) finishBoth := by decide +kernel
  have finished : (run step (initial freeTarget) finishBoth).map
      (fun final => (outcome false false final, outcome true true final)) =
        some ((answered false false [1], some (.file [1]), [false, true]),
          (answered true true [2], some (.file [2]), [false, true])) := by decide +kernel
  rcases Option.map_eq_some_iff.mp finished with ⟨final, reached, seen⟩
  exact ⟨final, reached, congrArg (fun both => both.1.1) seen, congrArg (fun both => both.2.1) seen,
    finished_uploads_stored reached undisturbed⟩

/-- The second of two finished sessions for one path. -/
def finishSecond : List (Label Bool Bool Bool Unit Bool) :=
  uploadOne false false [1] ++ uploadOne true false [2] ++ finishUntilLook false ++ writeTarget false ++
    finishFromCreated false ++ finishUntilLook true ++ finishFromCreated true

/-- Both sessions were created while the path was free.  The second finish finds the file of the first and answers
complete, after it has removed a body that is stored nowhere. -/
theorem second_upload_discarded :
    (run step (initial freeTarget) finishSecond).map (outcome true false) =
        some (answered true false [2], some (.file [1]), [false]) ∧
      forall final, run step (initial freeTarget) finishSecond = some final -> ¬ FinishedStored final := by
  have finished : (run step (initial freeTarget) finishSecond).map (outcome true false) =
      some (answered true false [2], some (.file [1]), [false]) := by decide +kernel
  refine ⟨finished, ?_⟩
  intro final reached stored
  have improper : (run step (initial freeTarget) finishSecond).any
      (fun state => state.world.removals.any fun removal => !decide removal.Proper) = true := by decide +kernel
  rw [reached] at improper
  rcases List.any_eq_true.mp improper with ⟨removal, isRemoval, notProper⟩
  have proper := stored.2 removal isRemoval
  simp [proper] at notProper

end Upload
end Vaulthalla
