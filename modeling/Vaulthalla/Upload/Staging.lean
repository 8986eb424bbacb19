import Vaulthalla.Upload.Coordinator

namespace Vaulthalla
namespace Upload

open Foundation Transition Function World Option

/-!
# What the steps of an upload leave alone

Once a file is complete nothing changes it: `beginFile` refuses it and chunks
are accepted only while it is received.  The one exception is the late failure
of an earlier stream of the same file.  The staging file of a complete file
can only disappear, and its bytes are bytes that were received.

Each change of the coordinator is shown to advance the world in this sense:
it keeps what is sound and evolves the rest.
-/

variable {Call Stream Session FileId Path : Type}

/-! ## What stays along a run -/

namespace World

section

variable (world : World Call Session FileId Path)

/-- `createSession` is through with the session. -/
def Settled (session : Session) : Prop :=
  Exists fun upload : UploadSession FileId Path =>
    world.sessions session = some upload ∧ upload.stage ≠ .building

/-- The staged bytes are bytes that were received for the file, if not all of them. -/
def Within : Prop :=
  forall session id staged, world.staged session id = some staged ->
    Exists fun file : UploadFile Path => world.fileOf session id = some file ∧ staged.bytes.Sublist file.received

def Listed : Prop :=
  forall session upload, world.sessions session = some upload ->
    forall id file, upload.files id = some file -> id ∈ upload.order

end

end World

/-- A received body of an authenticated session is removed only when it has been stored or the session given up. -/
def Removal.Proper (removal : Removal Session FileId) : Prop :=
  removal.mode = some .authenticated -> removal.complete = true -> removal.stored = true ∨ removal.verdicts ≠ []

instance (removal : Removal Session FileId) : Decidable removal.Proper :=
  inferInstanceAs (Decidable (removal.mode = some .authenticated -> removal.complete = true ->
    removal.stored = true ∨ removal.verdicts ≠ []))

variable (world : World Call Session FileId Path)

structure Sound : Prop where
  within : world.Within
  listed : world.Listed
  proper : forall removal, removal ∈ world.removals -> removal.Proper

variable (next : World Call Session FileId Path)

/-- What every step leaves as it is. -/
structure Evolves : Prop where
  frozen : forall session id file, world.fileOf session id = some file -> file.isComplete = true ->
    next.fileOf session id = some file
  intact : forall session id file, world.fileOf session id = some file -> file.isComplete = true ->
    forall staged, next.staged session id = some staged -> world.staged session id = some staged
  known : forall session id file, world.Settled session -> next.fileOf session id = some file ->
    (world.fileOf session id).isSome = true
  settled : forall session, world.Settled session -> next.Settled session
  stores : forall store, store ∈ world.stores -> store ∈ next.stores
  mode : forall session mode, world.modeOf session = some mode -> next.modeOf session = some mode
  reported : forall session, world.verdictsOf session ≠ [] -> next.verdictsOf session ≠ []

def Advances : Prop :=
  Sound world -> Sound next ∧ Evolves world next

variable {first second third : World Call Session FileId Path}

theorem Evolves.trans (early : Evolves first second) (late : Evolves second third) : Evolves first third where
  frozen session id file isFile complete :=
    late.frozen session id file (early.frozen session id file isFile complete) complete
  intact session id file isFile complete staged isStaged :=
    early.intact session id file isFile complete staged
      (late.intact session id file (early.frozen session id file isFile complete) complete staged isStaged)
  known session id file isSettled isFile := by
    rcases isSome_iff_exists.mp (late.known session id file (early.settled session isSettled) isFile)
      with ⟨middle, isMiddle⟩
    exact early.known session id middle isSettled isMiddle
  settled session isSettled := late.settled session (early.settled session isSettled)
  stores store isStore := late.stores store (early.stores store isStore)
  mode session mode isMode := late.mode session mode (early.mode session mode isMode)
  reported session isReported := late.reported session (early.reported session isReported)

theorem Advances.trans (early : Advances first second) (late : Advances second third) : Advances first third := by
  intro sound
  rcases early sound with ⟨middle, evolved⟩
  rcases late middle with ⟨final, evolvedLater⟩
  exact ⟨final, evolved.trans evolvedLater⟩

theorem Advances.refl : Advances world world :=
  fun sound => ⟨sound, ⟨fun _ _ _ isFile _ => isFile, fun _ _ _ _ _ _ => id,
    fun _ _ _ _ isFile => by rw [isFile]; rfl, fun _ => id, fun _ => id,
    fun _ _ => id, fun _ => id⟩⟩

/-! ### One session at a time -/

/-- What a step may do to one session. -/
structure EvolvesAt (session : Session) : Prop where
  within : world.Within -> forall id staged, next.staged session id = some staged ->
    Exists fun file : UploadFile Path => next.fileOf session id = some file ∧ staged.bytes.Sublist file.received
  listed : world.Listed -> forall upload, next.sessions session = some upload ->
    forall id file, upload.files id = some file -> id ∈ upload.order
  frozen : forall id file, world.fileOf session id = some file -> file.isComplete = true ->
    next.fileOf session id = some file ∧
      forall staged, next.staged session id = some staged -> world.staged session id = some staged
  known : forall id file, world.Settled session -> next.fileOf session id = some file ->
    (world.fileOf session id).isSome = true
  settled : world.Settled session -> next.Settled session
  mode : forall mode, world.modeOf session = some mode -> next.modeOf session = some mode
  reported : world.verdictsOf session ≠ [] -> next.verdictsOf session ≠ []

section Sessions

variable {world next : World Call Session FileId Path} {session : Session} {old : UploadSession FileId Path}

theorem Advances.of_sessions (each : forall session, EvolvesAt world next session)
    (stores : forall store, store ∈ world.stores -> store ∈ next.stores) (removals : next.removals = world.removals) :
    Advances world next := by
  intro sound
  refine ⟨⟨fun session => (each session).within sound.within, fun session => (each session).listed sound.listed, ?_⟩,
    fun session id file isFile complete => ((each session).frozen id file isFile complete).1,
    fun session id file isFile complete => ((each session).frozen id file isFile complete).2,
    fun session => (each session).known, fun session => (each session).settled, stores,
    fun session => (each session).mode, fun session => (each session).reported⟩
  rw [removals]
  exact sound.proper

theorem EvolvesAt.of_same (sessions : next.sessions session = world.sessions session)
    (staged : next.staged session = world.staged session) : EvolvesAt world next session := by
  have sameFile id : next.fileOf session id = world.fileOf session id := by
    rw [fileOf, fileOf, sessions]
  refine ⟨fun within id => ?_, fun listed => ?_, fun id file isFile _ => ?_, fun id file _ isFile => ?_, ?_, ?_, ?_⟩
  · rw [staged, sameFile]
    exact within session id
  · rw [sessions]
    exact listed session
  · rw [sameFile, staged]
    exact ⟨isFile, fun _ isStaged => isStaged⟩
  · rw [← sameFile, isFile]
    rfl
  · rw [World.Settled, World.Settled, sessions]
    exact fun isSettled => isSettled
  · rw [modeOf, modeOf, sessions]
    exact fun _ isMode => isMode
  · rw [verdictsOf, verdictsOf, sessions]
    exact fun isReported => isReported

/-- A session that is there before and after. -/
theorem EvolvesAt.of_upload (new : UploadSession FileId Path) (isOld : world.sessions session = some old)
    (isNew : next.sessions session = some new) (within : (forall id staged, world.staged session id = some staged ->
        Exists fun file => old.files id = some file ∧ staged.bytes.Sublist file.received) ->
      forall id staged, next.staged session id = some staged ->
        Exists fun file => new.files id = some file ∧ staged.bytes.Sublist file.received)
    (listed : (forall id file, old.files id = some file -> id ∈ old.order) ->
      forall id file, new.files id = some file -> id ∈ new.order)
    (frozen : forall id file, old.files id = some file -> file.isComplete ->
      new.files id = some file ∧ next.staged session id = world.staged session id)
    (known : old.stage ≠ .building -> forall id, (new.files id).isSome -> (old.files id).isSome)
    (stage : old.stage ≠ .building -> new.stage ≠ .building) (mode : new.mode = old.mode)
    (verdicts : old.verdicts ≠ [] -> new.verdicts ≠ []) : EvolvesAt world next session := by
  have oldFile id : world.fileOf session id = old.files id := by simp [fileOf, isOld]
  have newFile id : next.fileOf session id = new.files id := by simp [fileOf, isNew]
  refine ⟨fun sound id staged isStaged => ?_, fun sound upload isUpload => ?_, fun id file isFile complete => ?_,
    fun id file isSettled isFile => ?_, fun isSettled => ?_, fun given isGiven => ?_, fun isReported => ?_⟩
  · rw [newFile]
    exact within (fun id staged isStaged => oldFile id ▸ sound session id staged isStaged) id staged isStaged
  · cases isNew.symm.trans isUpload
    exact listed (sound session old isOld)
  · rw [oldFile] at isFile
    rcases frozen id file isFile complete with ⟨isKept, sameStaged⟩
    exact ⟨(newFile id).trans isKept, fun staged isStaged => sameStaged ▸ isStaged⟩
  · rcases isSettled with ⟨upload, isUpload, past⟩
    cases isOld.symm.trans isUpload
    rw [oldFile]
    exact known past id (by rw [← newFile, isFile]; rfl)
  · rcases isSettled with ⟨upload, isUpload, past⟩
    cases isOld.symm.trans isUpload
    exact ⟨new, isNew, stage past⟩
  · simpa [modeOf, isOld, isNew, mode] using isGiven
  · simpa [verdictsOf, isNew] using verdicts (by simpa [verdictsOf, isOld] using isReported)

/-- Changes of targets, of share uploads and of the list of stores. -/
theorem Advances.of_same (sessions : next.sessions = world.sessions) (staged : next.staged = world.staged)
    (removals : next.removals = world.removals) (stores : forall store, store ∈ world.stores -> store ∈ next.stores) :
    Advances world next :=
  .of_sessions (fun session => .of_same (congrFun sessions session) (congrFun staged session)) stores removals

end Sessions

section Slots

variable [DecidableEq Session]

/-- A change of one session and its staging files. -/
theorem Advances.at_session {world next : World Call Session FileId Path} (session : Session)
    (here : EvolvesAt world next session)
    (others : forall other, other ≠ session -> next.sessions other = world.sessions other ∧
      next.staged other = world.staged other)
    (stores : next.stores = world.stores) (removals : next.removals = world.removals) : Advances world next := by
  refine .of_sessions (fun other => ?_) (stores ▸ fun _ => id) removals
  by_cases same : other = session
  · exact same ▸ here
  · exact .of_same (others other same).1 (others other same).2

variable {session : Session} {world next : World Call Session FileId Path} {file : UploadFile Path} {id : FileId}
  {upload : UploadSession FileId Path}

/-- Changes of a session that leave its files alone. -/
theorem Advances.of_setSession (change : UploadSession FileId Path -> UploadSession FileId Path)
    (files : forall upload, (change upload).files = upload.files)
    (order : forall upload, (change upload).order = upload.order)
    (stage : forall upload, upload.stage ≠ .building -> (change upload).stage ≠ .building)
    (mode : forall upload, (change upload).mode = upload.mode)
    (verdicts : forall upload, upload.verdicts ≠ [] -> (change upload).verdicts ≠ []) :
    Advances world (world.setSession session change) := by
  refine .at_session session ?_ (fun other different => ?_) rfl rfl
  · cases isOld : world.sessions session with
    | none => exact .of_same (by simp [setSession, isOld]) rfl
    | some old =>
      refine .of_upload (change old) isOld (by simp [setSession, isOld]) ?_ ?_ ?_ ?_ (stage old) (mode old)
        (verdicts old)
      · exact files old ▸ fun within => within
      · exact files old ▸ order old ▸ fun listed => listed
      · exact files old ▸ fun _ _ isFile _ => ⟨isFile, rfl⟩
      · exact files old ▸ fun _ _ isFile => isFile
  · exact ⟨by simp [setSession, different], rfl⟩

theorem Advances.of_report (verdict : Verdict) :
    Advances world (world.report session verdict) := by
  refine .of_setSession _ (fun _ => rfl) (fun _ => rfl) (fun _ => id) (fun _ => rfl) ?_
  intro upload _
  simp

theorem Advances.of_start (missing : world.sessions session = none) (mode : UploadMode) :
    Advances world
      { world with
        sessions := update world.sessions session
          (some { mode := mode, order := [], files := fun _ => none, stage := .building, finished := false
                  verdicts := [] }) } := by
  have noFile id : world.fileOf session id = none := by simp [fileOf, missing]
  refine .at_session session ⟨fun within id staged isStaged => ?_, fun _ upload isUpload => ?_, ?_, ?_, ?_,
    ?_, ?_⟩ (fun other different => ⟨by simp [different], rfl⟩) rfl rfl
  · rcases within session id staged isStaged with ⟨file, isFile, _⟩
    rw [noFile] at isFile
    cases isFile
  · cases (update_self ..).symm.trans isUpload
    nofun
  · simp [noFile]
  · simp [fileOf]
  · simp [World.Settled, missing]
  · simp [modeOf, missing]
  · simp [verdictsOf, missing]

/-- A change of one file and of its staging file. -/
theorem Advances.of_slot [DecidableEq FileId] {changed : UploadSession FileId Path}
    (isUpload : world.sessions session = some upload)
    (sessions : next.sessions = update world.sessions session (some changed))
    (isFile : changed.files = update upload.files id (some file))
    (order : forall other, other ∈ upload.order -> other ∈ changed.order)
    (isListed : upload.files id = none -> upload.stage = .building ∧ id ∈ changed.order)
    (stage : changed.stage = upload.stage) (mode : changed.mode = upload.mode)
    (verdicts : changed.verdicts = upload.verdicts)
    (otherStaged : forall other otherId, other ≠ session ∨ otherId ≠ id ->
      next.staged other otherId = world.staged other otherId)
    (frozen : forall old, upload.files id = some old -> old.isComplete ->
      file = old ∧ next.staged session id = world.staged session id)
    (within : (forall staged, world.staged session id = some staged ->
        Exists fun old => upload.files id = some old ∧ staged.bytes.Sublist old.received) ->
      forall staged, next.staged session id = some staged -> staged.bytes.Sublist file.received)
    (stores : next.stores = world.stores) (removals : next.removals = world.removals) : Advances world next := by
  refine .at_session session ?_ (fun other different => ?_) stores removals
  · refine .of_upload changed isUpload (by simp [sessions]) (fun old otherId staged isStaged => ?_)
      (fun listed otherId otherFile isOther => ?_) (fun otherId old isOld complete => ?_) (fun past otherId isOther => ?_)
      (stage ▸ fun past => past) mode (verdicts ▸ fun isReported => isReported)
    all_goals by_cases same : otherId = id
    · subst same
      exact ⟨file, by simp [isFile], within (old otherId) staged isStaged⟩
    · rw [otherStaged session otherId (.inr same)] at isStaged
      simpa [isFile, same] using old otherId staged isStaged
    · subst same
      cases isOld : upload.files otherId with
      | none => exact (isListed isOld).2
      | some before => exact order otherId (listed otherId before isOld)
    · rw [isFile, update_of_ne same] at isOther
      exact order otherId (listed otherId otherFile isOther)
    · subst same
      rcases frozen old isOld complete with ⟨rfl, sameStaged⟩
      exact ⟨by simp [isFile], sameStaged⟩
    · exact ⟨by simp [isFile, same, isOld], otherStaged session otherId (.inr same)⟩
    · subst same
      cases isOld : upload.files otherId with
      | none => exact absurd (isListed isOld).1 past
      | some before => rfl
    · simpa [isFile, same] using isOther
  · exact ⟨by simp [sessions, different], funext fun otherId => otherStaged other otherId (.inl different)⟩

variable [DecidableEq FileId]

theorem staged_setStaged {other : Session} {otherId : FileId} (staged : Option Staged)
    (apart : other ≠ session ∨ otherId ≠ id) :
    (world.setStaged session id staged).staged other otherId = world.staged other otherId := by
  by_cases same : other = session
  · subst same
    simp [setStaged, apart.resolve_left (by simp)]
  · simp [setStaged, same]

/-- When the removal of a staging file is proper. -/
def Expendable (world : World Call Session FileId Path) (session : Session) (id : FileId) : Prop :=
  world.modeOf session ≠ some .authenticated ∨
    (forall file, world.fileOf session id = some file -> file.status ≠ .complete) ∨
    world.verdictsOf session ≠ [] ∨
      forall staged, world.staged session id = some staged -> world.holdsStore session id staged.bytes = true

theorem Advances.of_unstage (expendable : Expendable world session id) : Advances world (world.unstage session id) := by
  unfold unstage
  split
  · exact .refl world
  · rename_i staged isStaged
    intro sound
    have removed : forall other otherId bytes,
        (world.setStaged session id none).staged other otherId = some bytes ->
          world.staged other otherId = some bytes := by
      intro other otherId bytes isBytes
      by_cases here : other = session ∧ otherId = id
      · simp [setStaged, here.1, here.2] at isBytes
      · rwa [staged_setStaged none (not_and_or.mp here)] at isBytes
    refine ⟨⟨?_, sound.listed, ?_⟩, ⟨fun _ _ _ isFile _ => isFile, ?_, ?_, fun _ isSettled => isSettled,
      fun _ isStore => isStore, fun _ _ isMode => isMode, fun _ isReported => isReported⟩⟩
    · intro other otherId bytes isBytes
      exact sound.within other otherId bytes (removed other otherId bytes isBytes)
    · intro removal isRemoval
      rcases List.mem_cons.mp isRemoval with rfl | earlier
      · intro mode complete
        rcases expendable with shared | incomplete | reported | stored
        · exact absurd mode shared
        · rcases (any_eq_true _ _).mp complete with ⟨file, isFile, status⟩
          exact absurd (by simpa using status) (incomplete file isFile)
        · exact .inr reported
        · exact .inl (stored staged isStaged)
      · exact sound.proper removal earlier
    · intro other otherId file _ _ bytes isBytes
      exact removed other otherId bytes isBytes
    · intro other otherId file _ isFile
      have same : world.fileOf other otherId = some file := isFile
      rw [same]
      rfl

theorem Advances.of_setRecord (record : Option Share.UploadQuota.Upload) :
    Advances world (world.setRecord session id record) :=
  Advances.of_same rfl rfl rfl fun _ isStore => isStore

theorem Advances.of_closeRecord (session : Session) (id : FileId) (status : Share.UploadQuota.UploadStatus) :
    Advances world (world.closeRecord session id status) := by
  unfold closeRecord
  split
  · exact .refl world
  · exact .of_setRecord _

/-! ## Bodies and sessions -/

theorem sessions_setFile (isUpload : world.sessions session = some upload) (id : FileId) (file : UploadFile Path) :
    (world.setFile session id file).sessions =
      update world.sessions session
        (some { upload with files := update upload.files id (some file) }) := by
  simp [setFile, setSession, isUpload]

/-- A new status for a file. -/
theorem Advances.of_status (isFile : world.fileOf session id = some file) (status : FileStatus)
    (kept : file.isComplete -> file.status = status) :
    Advances world (world.setFile session id { file with status := status }) := by
  rcases bind_eq_some_iff.mp isFile with ⟨upload, isUpload, inFiles⟩
  refine .of_slot isUpload (sessions_setFile isUpload id _) rfl (fun _ => fun listed => listed)
    (fun missing => absurd (inFiles.symm.trans missing) (by simp)) rfl rfl rfl (fun _ _ _ => rfl) ?_ ?_ rfl rfl
  · intro old isOld complete
    rw [inFiles] at isOld
    cases isOld
    refine ⟨?_, rfl⟩
    rw [← kept complete]
  · intro within staged isStaged
    rcases within staged isStaged with ⟨old, isOld, sublist⟩
    rw [inFiles] at isOld
    cases isOld
    exact sublist

theorem not_isComplete_of_status (status : file.status ≠ .complete) : file.isComplete = false := by
  cases complete : file.isComplete with
  | false => rfl
  | true => exact absurd ((UploadFile.isComplete_iff file).mp complete).1 status

theorem Advances.of_begin (isFile : world.fileOf session id = some file) (status : file.status ≠ .complete) :
    Advances world
      ((({ world with opened := world.opened + 1 } : World Call Session FileId Path).setStaged session id
        (some { opened := world.opened, bytes := [] })).setFile session id
          { file with received := [], status := .receiving }) := by
  rcases bind_eq_some_iff.mp isFile with ⟨upload, isUpload, inFiles⟩
  refine .of_slot isUpload (sessions_setFile isUpload id _) rfl (fun _ => fun listed => listed)
    (fun missing => absurd (inFiles.symm.trans missing) (by simp)) rfl rfl rfl ?_ ?_ ?_ rfl rfl
  · exact fun _ _ => staged_setStaged _
  · intro old isOld complete
    rw [inFiles] at isOld
    cases isOld
    exact absurd complete (by simp [not_isComplete_of_status status])
  · intro _ staged isStaged
    simp only [setFile, setSession, setStaged, update_self, some.injEq] at isStaged
    subst isStaged
    exact List.nil_sublist _

theorem staged_appendStaged {opened : Nat} {data : Str} {staged : Staged}
    (isStaged : (appendStaged world session id opened data).staged session id = some staged) :
    Exists fun before => world.staged session id = some before ∧
      (staged.bytes = before.bytes ∨ staged.bytes = before.bytes ++ data) := by
  unfold appendStaged at isStaged
  split at isStaged
  · rename_i missing
    rw [missing] at isStaged
    cases isStaged
  · rename_i before isBefore
    split at isStaged
    · simp only [setStaged, update_self, some.injEq] at isStaged
      exact ⟨before, isBefore, .inr (by rw [← isStaged])⟩
    · exact ⟨staged, isStaged, .inl rfl⟩

theorem appendStaged_other {other : Session} {otherId : FileId} (opened : Nat) (data : Str)
    (apart : other ≠ session ∨ otherId ≠ id) :
    (appendStaged world session id opened data).staged other otherId = world.staged other otherId := by
  unfold appendStaged
  split
  · rfl
  · split
    · exact staged_setStaged _ apart
    · rfl

theorem appendStaged_rest (world : World Call Session FileId Path) (session : Session) (id : FileId) (opened : Nat)
    (data : Str) :
    (appendStaged world session id opened data).sessions = world.sessions ∧
      (appendStaged world session id opened data).stores = world.stores ∧
        (appendStaged world session id opened data).removals = world.removals := by
  unfold appendStaged
  split
  · exact ⟨rfl, rfl, rfl⟩
  · split
    · exact ⟨rfl, rfl, rfl⟩
    · exact ⟨rfl, rfl, rfl⟩

theorem Advances.of_receive (isFile : world.fileOf session id = some file) (status : file.status = .receiving)
    (opened : Nat) (data : Str) :
    Advances world
      (appendStaged (world.setFile session id { file with received := file.received ++ data }) session id opened
        data) := by
  rcases bind_eq_some_iff.mp isFile with ⟨upload, isUpload, inFiles⟩
  have rest := appendStaged_rest (world.setFile session id { file with received := file.received ++ data }) session id
    opened data
  refine .of_slot isUpload (rest.1.trans (sessions_setFile isUpload id _)) rfl (fun _ => fun listed => listed)
    (fun missing => absurd (inFiles.symm.trans missing) (by simp)) rfl rfl rfl
    (fun other otherId apart => appendStaged_other opened data apart) ?_ ?_ rest.2.1 rest.2.2
  · intro old isOld complete
    rw [inFiles] at isOld
    cases isOld
    exact absurd complete (by simp [not_isComplete_of_status, status])
  · intro within staged isStaged
    rcases staged_appendStaged isStaged with ⟨before, isBefore, appended⟩
    rcases within before isBefore with ⟨old, isOld, sublist⟩
    rw [inFiles] at isOld
    cases isOld
    rcases appended with same | longer
    · rw [same]
      exact sublist.trans (List.sublist_append_left _ _)
    · rw [longer]
      exact sublist.append (List.Sublist.refl data)

theorem sessions_unstage (world : World Call Session FileId Path) (session : Session) (id : FileId) :
    (world.unstage session id).sessions = world.sessions := by
  unfold unstage
  split <;> rfl

theorem fileOf_unstage (other : Session) (otherId : FileId) :
    (world.unstage session id).fileOf other otherId = world.fileOf other otherId := by
  rw [fileOf, sessions_unstage]
  rfl

theorem fileOf_closeRecord (other : Session) (otherId : FileId)
    (status : Share.UploadQuota.UploadStatus) :
    (world.closeRecord session id status).fileOf other otherId = world.fileOf other otherId := by
  unfold closeRecord
  split <;> rfl

theorem Advances.of_failFile (isFile : world.fileOf session id = some file) (status : file.status ≠ .complete) :
    Advances world (failFile world session id file) := by
  unfold failFile
  split
  · exact .refl world
  · have expendable : Expendable world session id := by
      refine .inr (.inl fun other isOther => ?_)
      rw [isFile] at isOther
      cases isOther
      exact status
    refine (Advances.of_unstage expendable).trans ((Advances.of_closeRecord session id .failed).trans ?_)
    refine .of_status (by rw [fileOf_closeRecord, fileOf_unstage, isFile]) .failed ?_
    intro complete
    exact absurd complete (by simp [not_isComplete_of_status status])

/-- The failure of the stream hits no complete file. -/
def InTime (world : World Call Session FileId Path) (control : StreamControl Session FileId) :
    StreamEvent Session FileId -> Prop
  | .fail =>
    control.failsOn.all (fun slot => (world.fileOf slot.1 slot.2).all fun file => file.status ≠ .complete) = true
  | _ => True

theorem Advances.of_streamStep {control moved : StreamControl Session FileId} {event : StreamEvent Session FileId}
    (taken : streamStep world control event = some (next, moved)) (inTime : InTime world control event) :
    Advances world next := by
  unfold streamStep at taken
  split at taken
  case h_1 =>
    rcases guarded taken with ⟨_, ⟨⟩⟩
    exact .refl world
  case h_2 =>
    cases taken
    exact .refl world
  case h_3 =>
    split at taken
    · rename_i file _ isFile
      split at taken
      · rename_i upload _ _ beginning
        cases taken
        refine .of_begin isFile ?_
        intro status
        simp [beginnable, status] at beginning
      · simp at taken
    · simp at taken
  case h_4 =>
    split at taken
    · rename_i isFile
      rcases guarded taken with ⟨accepted, ⟨⟩⟩
      exact .of_receive isFile accepted.1 _ _
    · simp at taken
  case h_5 =>
    split at taken
    · simp at taken
    cases taken
    exact .of_setRecord _
  case h_6 =>
    split at taken
    · simp at taken
    rename_i file isFile
    split at taken
    · cases taken
      exact .of_status isFile .complete fun complete => ((UploadFile.isComplete_iff file).mp complete).1
    · rename_i size
      cases taken
      refine .of_status isFile .failed fun complete => ?_
      exact absurd ((UploadFile.isComplete_iff file).mp complete).2 size
  case h_7 =>
    split at taken
    · simp at taken
    rename_i session id slot
    rcases map_eq_some_iff.mp taken with ⟨file, isFile, same⟩
    cases same
    refine .of_failFile isFile ?_
    simpa [InTime, slot, isFile] using inTime
  case h_8 => simp at taken

/-! ## Planned, closed and swept sessions -/

theorem Advances.of_planFile {key : Str} (isUpload : world.sessions session = some upload)
    (free : plannable upload id key) (path : Path) (size : Nat) (client : Str) :
    Advances world (planFile world session upload.mode id key path size client) := by
  have parts : (upload.stage = .building ∧ upload.verdicts = []) ∧ upload.files id = none := by
    simp only [plannable, Bool.and_eq_true, decide_eq_true_eq, isNone_iff_eq_none] at free
    exact ⟨free.1.1.1, free.1.2⟩
  -- the records of a share session are set on the way and read by nothing here
  let file : UploadFile Path :=
    { targetKey := key, path := path, expectedSize := size, received := []
      status := if size = 0 then .complete else .pending }
  let changed : UploadSession FileId Path :=
    { upload with order := upload.order ++ [id], files := update upload.files id (some file) }
  have slot : forall next : World Call Session FileId Path,
      next.sessions = update world.sessions session (some changed) ->
      (forall other otherId, other ≠ session ∨ otherId ≠ id ->
        next.staged other otherId = world.staged other otherId) ->
      (next.staged session id = world.staged session id ∨
        (next.staged session id).all (fun staged => staged.bytes = [])) ->
      next.stores = world.stores -> next.removals = world.removals -> Advances world next := by
    intro next sessions otherStaged staged stores removals
    refine .of_slot isUpload sessions rfl (fun other listed => List.mem_append_left _ listed)
      (fun _ => ⟨parts.1.1, by simp [changed]⟩) rfl rfl rfl otherStaged ?_ ?_ stores removals
    · intro old isOld
      rw [parts.2] at isOld
      cases isOld
    · intro within bytes isStaged
      rcases staged with same | empty
      · rw [same] at isStaged
        rcases within bytes isStaged with ⟨old, isOld, _⟩
        rw [parts.2] at isOld
        cases isOld
      · rw [isStaged] at empty
        simp only [all_some, decide_eq_true_eq] at empty
        rw [empty]
  unfold planFile
  by_cases zero : size = 0
  · cases mode : upload.mode <;>
    · simp only [zero, if_true]
      refine slot _ ?_ ?_ (.inr (by simp [setStaged])) rfl rfl
      · simp [setStaged, setRecord, setSession, isUpload, changed, file, zero]
      · exact fun _ _ => staged_setStaged _
  · cases mode : upload.mode <;>
    · simp only [zero, if_false]
      refine slot _ ?_ (fun _ _ _ => rfl) (.inl rfl) rfl rfl
      simp [setRecord, setSession, isUpload, changed, file, zero]

theorem Advances.of_sweepFile {verdict : Verdict} (isUpload : world.sessions session = some upload)
    (isFile : world.fileOf session id = some file) (given : verdict ∈ upload.verdicts) :
    Advances world (sweepFile world session upload.mode verdict id file) := by
  have reported : world.verdictsOf session ≠ [] := by
    simpa [verdictsOf, isUpload] using List.ne_nil_of_mem given
  have marking : Advances world
      (if verdict = .aborted ∧ file.status ≠ .complete then world.setFile session id { file with status := .failed }
        else world) := by
    split
    · rename_i incomplete
      refine .of_status isFile .failed fun complete => ?_
      exact absurd ((UploadFile.isComplete_iff file).mp complete).1 incomplete.2
    · exact .refl world
  intro sound
  have removing := Advances.of_unstage
    (show Expendable _ session id from .inr (.inr (.inl ((marking sound).2.reported session reported))))
  refine (marking.trans (removing.trans ?_)) sound
  cases upload.mode with
  | authenticated => exact .refl _
  | share => exact .of_closeRecord session id _

end Slots

end Upload
end Vaulthalla
