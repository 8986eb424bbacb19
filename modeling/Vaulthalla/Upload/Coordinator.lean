import Vaulthalla.Share.UploadQuota

namespace Vaulthalla
namespace Upload

open Foundation Function
open Share.UploadQuota (UploadStatus)

/-!
# HTTP upload sessions

`createSession` plans the files of a session and registers it.  Each body
comes through a `FileStream`, which appends to a staging file; when all bodies
are there, `finishSession` commits the files one after another with
`createFile` and answers.  A session can also be cancelled, expire, or be
aborted at shutdown.

The session mutex covers the tables of the session but neither the staging
files nor the catalog, so the steps of `finishSession` that touch those are
taken one at a time here.  `createFile` is given no permission to overwrite: it
looks for a cache entry of the target, and only without one does it seal the
staged bytes under a fresh alias, update the row and cache the entry.  A row
that is there by then keeps its own alias.

The received size of a file is the length of the bytes accepted for it since
its last `beginFile`; the bytes themselves are kept to say what was received.
The stores and the removals of staged bytes are recorded as they happen.
-/

/-! ## Sessions and their files -/

inductive FileStatus
  | pending | receiving | complete | failed
deriving DecidableEq

inductive UploadMode
  | authenticated | share
deriving DecidableEq

/-- How a session is given up, as its client is told. -/
inductive Verdict
  | failed | cancelled | expired | aborted
deriving DecidableEq

inductive Stage
  /-- `createSession` is still going through the files of the request. -/
  | building | registered | erased
deriving DecidableEq

/-- `UploadFileState`. -/
structure UploadFile (Path : Type) where
  /-- The vault and the lexically normal path of the request, by which `createSession` tells targets apart. -/
  targetKey : Str
  path : Path
  expectedSize : Nat
  received : Str
  status : FileStatus
deriving DecidableEq

def UploadFile.isComplete {Path : Type} (file : UploadFile Path) : Bool :=
  file.status == .complete && file.received.length == file.expectedSize

theorem UploadFile.isComplete_iff {Path : Type} (file : UploadFile Path) :
    file.isComplete ↔ file.status = .complete ∧ file.received.length = file.expectedSize := by
  simp [UploadFile.isComplete]

/-- `UploadSessionState`, with the order in which its map of files is iterated. -/
structure UploadSession (FileId Path : Type) where
  mode : UploadMode
  order : List FileId
  files : FileId -> Option (UploadFile Path)
  stage : Stage
  finished : Bool
  verdicts : List Verdict

section Session

variable {FileId Path : Type}

/-- The copies of the files that `finishSession` works on. -/
def UploadSession.snapshot (session : UploadSession FileId Path) : List (FileId × UploadFile Path) :=
  session.order.filterMap fun id => (session.files id).map fun file => (id, file)

theorem UploadSession.mem_snapshot {session : UploadSession FileId Path} {entry : FileId × UploadFile Path}
    (isFile : entry ∈ session.snapshot) : session.files entry.1 = some entry.2 := by
  rcases List.mem_filterMap.mp isFile with ⟨id, _, found⟩
  rcases Option.map_eq_some_iff.mp found with ⟨file, isStored, rfl⟩
  exact isStored

/-- What `finishSession` requires of the files under the session mutex. -/
def UploadSession.allComplete (session : UploadSession FileId Path) : Bool :=
  session.snapshot.all fun entry => entry.2.isComplete

end Session

/-! ## Staging files, targets and share uploads -/

/-- A staging file, with the number of the `beginFile` that opened it. -/
structure Staged where
  opened : Nat
  bytes : Str

inductive Entry
  | file (content : Str)
  | directory
  /-- The metadata of one body over the bytes of another. -/
  | mixed
deriving DecidableEq

inductive EntryKind
  | file | directory
deriving DecidableEq

/-- What the catalog and the cache hold for a path. -/
structure Target where
  row : Option Entry
  cached : Option EntryKind

/-- A row update of `createFile`, with what the path holds right after it. -/
structure Store (Call Session FileId Path : Type) where
  call : Call
  session : Session
  fileId : FileId
  path : Path
  after : Option Entry

/-- The removal of staged bytes: the mode of the session, whether they were a
completely received body, whether they had been stored, and what had become
of the session. -/
structure Removal (Session FileId : Type) where
  session : Session
  fileId : FileId
  bytes : Str
  mode : Option UploadMode
  (complete stored : Bool)
  verdicts : List Verdict

structure World (Call Session FileId Path : Type) where
  sessions : Session -> Option (UploadSession FileId Path)
  staged : Session -> FileId -> Option Staged
  targets : Path -> Target
  records : Session -> FileId -> Option Share.UploadQuota.Upload
  opened : Nat
  stores : List (Store Call Session FileId Path)
  removals : List (Removal Session FileId)

namespace World

variable {Call Session FileId Path : Type}

section

variable (world : World Call Session FileId Path) (session : Session)

def fileOf (id : FileId) : Option (UploadFile Path) :=
  (world.sessions session).bind fun upload => upload.files id

def modeOf : Option UploadMode :=
  (world.sessions session).map fun upload => upload.mode

def verdictsOf : List Verdict :=
  ((world.sessions session).map fun upload => upload.verdicts).getD []

end

variable [DecidableEq Session]

section

variable (world : World Call Session FileId Path) (session : Session)

def setSession (change : UploadSession FileId Path -> UploadSession FileId Path) : World Call Session FileId Path :=
  { world with sessions := update world.sessions session ((world.sessions session).map change) }

/-- The session is given up. -/
def report (verdict : Verdict) : World Call Session FileId Path :=
  world.setSession session fun upload => { upload with verdicts := verdict :: upload.verdicts }

end

variable [DecidableEq FileId]

section

variable (world : World Call Session FileId Path) (session : Session) (id : FileId)

def setFile (file : UploadFile Path) : World Call Session FileId Path :=
  world.setSession session fun upload => { upload with files := update upload.files id (some file) }

def setStaged (staged : Option Staged) : World Call Session FileId Path :=
  { world with
    staged := update world.staged session (update (world.staged session) id staged) }

def setRecord (record : Option Share.UploadQuota.Upload) : World Call Session FileId Path :=
  { world with
    records := update world.records session (update (world.records session) id record) }

/-- The bytes are what a row update of the session left at the target of the file. -/
def holdsStore (bytes : Str) : Bool :=
  world.stores.any fun store =>
    store.session = session && store.fileId = id && store.after = some (.file bytes)

/-- Remove a staging file, if it is there. -/
def unstage : World Call Session FileId Path :=
  match world.staged session id with
  | none => world
  | some staged =>
    { world.setStaged session id none with
      removals := { session := session, fileId := id, bytes := staged.bytes, mode := world.modeOf session
                    complete := (world.fileOf session id).any (fun file => file.status = .complete)
                    stored := world.holdsStore session id staged.bytes
                    verdicts := world.verdictsOf session } :: world.removals }

/-- `failUpload` and `cancelUpload`, whose refusals are swallowed. -/
def closeRecord (status : UploadStatus) : World Call Session FileId Path :=
  match (world.records session id).bind (fun record => record.close status) with
  | none => world
  | some closed => world.setRecord session id (some closed)

end

variable [DecidableEq Path]

/-- `upsertFile` for a new file: the row of the path comes to describe the sealed bytes.  On a conflict the row keeps the
alias that it has, and with it the bytes. -/
def store (world : World Call Session FileId Path) (call : Call) (session : Session) (id : FileId) (path : Path)
    (body : Str) : World Call Session FileId Path :=
  let row := if (world.targets path).row.isNone then .file body else .mixed
  let targets := update world.targets path { world.targets path with row := some row }
  { world with
    targets := targets
    stores := { call := call, session := session, fileId := id, path := path, after := (targets path).row } ::
      world.stores }

def cacheEntry (world : World Call Session FileId Path) (path : Path) : World Call Session FileId Path :=
  { world with targets := update world.targets path { world.targets path with cached := some .file } }

end World

/-! ## `finishSession` -/

/-- How far the commit of one file has come. -/
inductive Phase
  /-- A share upload, before its target is resolved again. -/
  | waiting
  /-- The staging file is looked at next. -/
  | resolved
  /-- It is there with the expected size; `createFile` looks for the target next. -/
  | verified | absent
  | sealed (body : Str)
  | stored
  /-- `createFile` has returned an entry. -/
  | created
  /-- The staging file is removed; `finishUpload` reads the share upload next. -/
  | unstaged | confirmed
deriving DecidableEq

def Phase.first : UploadMode -> Phase
  | .authenticated => .resolved
  | .share => .waiting

/-- A `finishSession` call between its check and its answer. -/
structure Commit (Session FileId Path : Type) where
  session : Session
  mode : UploadMode
  (done rest : List (FileId × UploadFile Path))
deriving DecidableEq

inductive Control (Session FileId Path : Type)
  | idle
  | found (session : Session)
  | committing (commit : Commit Session FileId Path) (phase : Phase)
  /-- The call has set `finished`. -/
  | marked (session : Session) (files : List (FileId × UploadFile Path))
  | erased (session : Session) (files : List (FileId × UploadFile Path))
  /-- The answer is complete. -/
  | complete (session : Session) (files : List (FileId × UploadFile Path))
  /-- The error path, with the files it has yet to clean. -/
  | failing (session : Session) (mode : UploadMode) (rest : List (FileId × UploadFile Path))
  | failed
deriving DecidableEq

inductive CallEvent (Session : Type)
  | find (session : Session)
  | check | resolve | verify | look | write | upsert | cache | unstage | confirm | completeUpload
  | mark | erase | answer
  /-- Any other statement of the commit throws. -/
  | throw | clean

namespace Commit

variable {Session FileId Path : Type}

def files (commit : Commit Session FileId Path) : List (FileId × UploadFile Path) :=
  commit.done ++ commit.rest

/-- The commit of the next file begins. -/
def advance (commit : Commit Session FileId Path) (entry : FileId × UploadFile Path)
    (rest : List (FileId × UploadFile Path)) : Control Session FileId Path :=
  .committing { commit with done := commit.done ++ [entry], rest := rest } (Phase.first commit.mode)

end Commit

section Calls

variable {Call Session FileId Path : Type} [DecidableEq Session] [DecidableEq FileId] [DecidableEq Path]

/-- An exception in the commit: the error path goes through all files of the session. -/
def throwing (world : World Call Session FileId Path) (commit : Commit Session FileId Path) :
    World Call Session FileId Path × Control Session FileId Path :=
  (world.report commit.session .failed, .failing commit.session commit.mode commit.files)

/-- `finishUpload` up to its update statement. -/
def finishable (record : Option Share.UploadQuota.Upload) : Bool :=
  record.any fun record => !record.isTerminal && record.receivedSizeBytes == record.expectedSizeBytes

section

variable (world : World Call Session FileId Path) (call : Call)

/-- One step in the commit of the file at the head of what is left. -/
def commitStep (commit : Commit Session FileId Path) (entry : FileId × UploadFile Path)
    (rest : List (FileId × UploadFile Path)) (phase : Phase) (event : CallEvent Session) :
    Option (World Call Session FileId Path × Control Session FileId Path) :=
  match phase, event with
  | .waiting, .resolve =>
    if (world.targets entry.2.path).row.isSome then some (throwing world commit)
    else some (world, .committing commit .resolved)
  | .resolved, .verify =>
    match world.staged commit.session entry.1 with
    | none => some (throwing world commit)
    | some staged =>
      if staged.bytes.length = entry.2.expectedSize then some (world, .committing commit .verified)
      else some (throwing world commit)
  | .verified, .look =>
    match (world.targets entry.2.path).cached with
    | none => some (world, .committing commit .absent)
    | some .directory => some (throwing world commit)
    -- the entry that is there is handed back as if it had been created
    | some .file => some (world, .committing commit .created)
  | .absent, .write =>
    if entry.2.expectedSize = 0 then some (world, .committing commit (.sealed []))
    else
      match world.staged commit.session entry.1 with
      | none => some (throwing world commit)
      | some staged => some (world, .committing commit (.sealed staged.bytes))
  | .sealed body, .upsert =>
    some (world.store call commit.session entry.1 entry.2.path body, .committing commit .stored)
  | .stored, .cache => some (world.cacheEntry entry.2.path, .committing commit .created)
  | .created, .unstage =>
    match commit.mode with
    | .authenticated => some (world.unstage commit.session entry.1, commit.advance entry rest)
    | .share => some (world.unstage commit.session entry.1, .committing commit .unstaged)
  | .unstaged, .confirm =>
    if finishable (world.records commit.session entry.1) then some (world, .committing commit .confirmed)
    else some (throwing world commit)
  | .confirmed, .completeUpload =>
    match (world.records commit.session entry.1).bind (fun record => record.close .complete) with
    | none => some (throwing world commit)
    | some closed =>
      some (world.setRecord commit.session entry.1 (some closed), commit.advance entry rest)
  | _, .throw => some (throwing world commit)
  | _, _ => none

/-- One step of a `finishSession` call. -/
def callStep (control : Control Session FileId Path) (event : CallEvent Session) :
    Option (World Call Session FileId Path × Control Session FileId Path) :=
  match control, event with
  | .idle, .find session =>
    if (world.sessions session).any (fun upload => upload.stage = .registered) then some (world, .found session)
    else some (world, .failed)
  | .found session, .check =>
    match world.sessions session with
    | none => none
    | some upload =>
      if upload.finished || !upload.allComplete then some (world, .failed)
      else
        some (world, .committing { session := session, mode := upload.mode, done := [], rest := upload.snapshot }
          (Phase.first upload.mode))
  | .committing commit phase, event =>
    match commit.rest with
    | entry :: rest => commitStep world call commit entry rest phase event
    | [] =>
      match event with
      | .mark =>
        some (world.setSession commit.session fun upload => { upload with finished := true },
          .marked commit.session commit.done)
      | _ => none
  | .marked session files, .erase =>
    some (world.setSession session fun upload => { upload with stage := .erased }, .erased session files)
  | .erased session files, .answer => some (world, .complete session files)
  | .failing session mode (entry :: rest), .clean =>
    match mode with
    | .authenticated => some (world.unstage session entry.1, .failing session mode rest)
    | .share => some (world.closeRecord session entry.1 .failed, .failing session mode rest)
  | .failing _ _ [], .answer => some (world, .failed)
  | _, _ => none

end

/-! ### What a step of a call does -/

/-- One step of `finishSession`: from a control in a world to a world and the next control. -/
inductive Move (world : World Call Session FileId Path) (call : Call) :
    Control Session FileId Path -> World Call Session FileId Path -> Control Session FileId Path -> Prop
  | found {session : Session} {upload : UploadSession FileId Path} (isUpload : world.sessions session = some upload)
      (registered : upload.stage = .registered) : Move world call .idle world (.found session)
  | lost (session : Session)
      (missing : forall upload, world.sessions session = some upload -> upload.stage ≠ .registered) :
      Move world call .idle world .failed
  | refused {session : Session} {upload : UploadSession FileId Path} (isUpload : world.sessions session = some upload)
      (refusal : upload.finished = true ∨ upload.allComplete = false) : Move world call (.found session) world .failed
  | checked {session : Session} {upload : UploadSession FileId Path} (isUpload : world.sessions session = some upload)
      (unfinished : upload.finished = false) (complete : upload.allComplete = true) :
      Move world call (.found session) world
        (.committing { session := session, mode := upload.mode, done := [], rest := upload.snapshot }
          (Phase.first upload.mode))
  | resolved {commit : Commit Session FileId Path} {entry rest} (next : commit.rest = entry :: rest)
      (free : (world.targets entry.2.path).row = none) :
      Move world call (.committing commit .waiting) world (.committing commit .resolved)
  | verified {commit : Commit Session FileId Path} {entry rest} {staged : Staged} (next : commit.rest = entry :: rest)
      (isStaged : world.staged commit.session entry.1 = some staged)
      (size : staged.bytes.length = entry.2.expectedSize) :
      Move world call (.committing commit .resolved) world (.committing commit .verified)
  | absent {commit : Commit Session FileId Path} {entry rest} (next : commit.rest = entry :: rest)
      (free : (world.targets entry.2.path).cached = none) :
      Move world call (.committing commit .verified) world (.committing commit .absent)
  | kept {commit : Commit Session FileId Path} {entry rest} (next : commit.rest = entry :: rest)
      (taken : (world.targets entry.2.path).cached = some .file) :
      Move world call (.committing commit .verified) world (.committing commit .created)
  | empty {commit : Commit Session FileId Path} {entry rest} (next : commit.rest = entry :: rest)
      (size : entry.2.expectedSize = 0) :
      Move world call (.committing commit .absent) world (.committing commit (.sealed []))
  | sealed {commit : Commit Session FileId Path} {entry rest} {staged : Staged} (next : commit.rest = entry :: rest)
      (isStaged : world.staged commit.session entry.1 = some staged) :
      Move world call (.committing commit .absent) world (.committing commit (.sealed staged.bytes))
  | stored {commit : Commit Session FileId Path} {entry rest} {body : Str} (next : commit.rest = entry :: rest) :
      Move world call (.committing commit (.sealed body))
        (world.store call commit.session entry.1 entry.2.path body) (.committing commit .stored)
  | cached {commit : Commit Session FileId Path} {entry rest} (next : commit.rest = entry :: rest) :
      Move world call (.committing commit .stored) (world.cacheEntry entry.2.path) (.committing commit .created)
  | ended {commit : Commit Session FileId Path} {entry rest} (next : commit.rest = entry :: rest)
      (mode : commit.mode = .authenticated) :
      Move world call (.committing commit .created) (world.unstage commit.session entry.1) (commit.advance entry rest)
  | unstaged {commit : Commit Session FileId Path} {entry rest} (next : commit.rest = entry :: rest)
      (mode : commit.mode = .share) :
      Move world call (.committing commit .created) (world.unstage commit.session entry.1)
        (.committing commit .unstaged)
  | confirmed {commit : Commit Session FileId Path} {entry rest} (next : commit.rest = entry :: rest)
      (ready : finishable (world.records commit.session entry.1) = true) :
      Move world call (.committing commit .unstaged) world (.committing commit .confirmed)
  | completed {commit : Commit Session FileId Path} {entry rest} {record closed : Share.UploadQuota.Upload}
      (next : commit.rest = entry :: rest) (isRecord : world.records commit.session entry.1 = some record)
      (isClosed : record.close .complete = some closed) :
      Move world call (.committing commit .confirmed) (world.setRecord commit.session entry.1 (some closed))
        (commit.advance entry rest)
  | thrown {commit : Commit Session FileId Path} {entry rest} {phase : Phase} (next : commit.rest = entry :: rest) :
      Move world call (.committing commit phase) (world.report commit.session .failed)
        (.failing commit.session commit.mode commit.files)
  | marked {commit : Commit Session FileId Path} {phase : Phase} (all : commit.rest = []) :
      Move world call (.committing commit phase)
        (world.setSession commit.session fun upload => { upload with finished := true })
        (.marked commit.session commit.done)
  | erased {session : Session} {files} :
      Move world call (.marked session files)
        (world.setSession session fun upload => { upload with stage := .erased }) (.erased session files)
  | answered {session : Session} {files} : Move world call (.erased session files) world (.complete session files)
  | cleaned {session : Session} {entry rest} :
      Move world call (.failing session .authenticated (entry :: rest)) (world.unstage session entry.1)
        (.failing session .authenticated rest)
  | closed {session : Session} {entry rest} :
      Move world call (.failing session .share (entry :: rest)) (world.closeRecord session entry.1 .failed)
        (.failing session .share rest)
  | failed {session : Session} {mode : UploadMode} : Move world call (.failing session mode []) world .failed

variable {world next : World Call Session FileId Path} {call : Call} {control moved : Control Session FileId Path}
  {event : CallEvent Session}

theorem move_of_commitStep {commit : Commit Session FileId Path} {entry : FileId × UploadFile Path}
    {rest : List (FileId × UploadFile Path)} {phase : Phase} (following : commit.rest = entry :: rest)
    (taken : commitStep world call commit entry rest phase event = some (next, moved)) :
    Move world call (.committing commit phase) next moved := by
  unfold commitStep at taken
  split at taken
  case h_1 =>
    split at taken
    · cases taken
      exact .thrown following
    · rename_i free
      cases taken
      exact .resolved following (by simpa using free)
  case h_2 =>
    split at taken
    · cases taken
      exact .thrown following
    · rename_i isStaged
      split at taken
      · rename_i size
        cases taken
        exact .verified following isStaged size
      · cases taken
        exact .thrown following
  case h_3 =>
    split at taken
    · rename_i free
      cases taken
      exact .absent following free
    · cases taken
      exact .thrown following
    · rename_i found
      cases taken
      exact .kept following found
  case h_4 =>
    split at taken
    · rename_i size
      cases taken
      exact .empty following size
    · split at taken
      · cases taken
        exact .thrown following
      · rename_i isStaged
        cases taken
        exact .sealed following isStaged
  case h_5 =>
    cases taken
    exact .stored following
  case h_6 =>
    cases taken
    exact .cached following
  case h_7 =>
    split at taken
    · rename_i mode
      cases taken
      exact .ended following mode
    · rename_i mode
      cases taken
      exact .unstaged following mode
  case h_8 =>
    split at taken
    · rename_i ready
      cases taken
      exact .confirmed following ready
    · cases taken
      exact .thrown following
  case h_9 =>
    split at taken
    · cases taken
      exact .thrown following
    · rename_i closing
      rcases Option.bind_eq_some_iff.mp closing with ⟨record, isRecord, isClosed⟩
      cases taken
      exact .completed following isRecord isClosed
  case h_10 =>
    cases taken
    exact .thrown following
  case h_11 => simp at taken

theorem move_of_callStep (taken : callStep world call control event = some (next, moved)) :
    Move world call control next moved := by
  unfold callStep at taken
  split at taken
  case h_1 =>
    split at taken
    · rename_i registered
      cases taken
      rcases (Option.any_eq_true _ _).mp registered with ⟨upload, isUpload, isRegistered⟩
      exact .found isUpload (by simpa using isRegistered)
    · rename_i session missing
      cases taken
      refine .lost session fun upload isUpload isRegistered => missing ?_
      simp [isUpload, isRegistered]
  case h_2 =>
    split at taken
    · simp at taken
    rename_i upload isUpload
    split at taken
    · rename_i refusal
      cases taken
      exact .refused isUpload (by simpa using refusal)
    · rename_i accepted
      cases taken
      simp only [Bool.or_eq_true, Bool.not_eq_true', not_or, Bool.not_eq_true, Bool.not_eq_false] at accepted
      exact .checked isUpload accepted.1 accepted.2
  case h_3 =>
    split at taken
    · rename_i following
      exact move_of_commitStep following taken
    · rename_i all
      split at taken
      · cases taken
        exact .marked all
      · simp at taken
  case h_4 =>
    cases taken
    exact .erased
  case h_5 =>
    cases taken
    exact .answered
  case h_6 =>
    split at taken
    · cases taken
      exact .cleaned
    · cases taken
      exact .closed
  case h_7 =>
    cases taken
    exact .failed
  case h_8 => simp at taken

end Calls

/-! ## Bodies -/

/-- A `FileStream`. -/
inductive StreamControl (Session FileId : Type)
  | idle
  /-- `beginFile` has its session. -/
  | found (session : Session)
  | receiving (session : Session) (id : FileId) (opened : Nat)
  /-- A chunk of a share upload is written and not recorded. -/
  | recording (session : Session) (id : FileId) (opened : Nat) (size : Nat)
  /-- `finish` has thrown, and the stream is neither finished nor failed. -/
  | mismatched (session : Session) (id : FileId)
  | ended

/-- The file on which `fail` of the stream acts. -/
def StreamControl.failsOn {Session FileId : Type} : StreamControl Session FileId -> Option (Session × FileId)
  | .receiving session id _ | .recording session id _ _ | .mismatched session id => some (session, id)
  | _ => none

inductive StreamEvent (Session FileId : Type)
  | find (session : Session)
  | refuse
  | begin (id : FileId)
  | write (data : Str)
  | record | finish | fail

section Streams

variable {Call Session FileId Path : Type} [DecidableEq Session] [DecidableEq FileId]

/-- `beginFile` refuses a file that is complete or being received, and a failed one of a share session. -/
def beginnable (mode : UploadMode) (file : UploadFile Path) : Bool :=
  match file.status, mode with
  | .pending, _ => true
  | .failed, .authenticated => true
  | _, _ => false

section

variable (world : World Call Session FileId Path)

/-- `FileStream::fail` under the session mutex. -/
def failFile (session : Session) (id : FileId) (file : UploadFile Path) : World Call Session FileId Path :=
  if file.status = .failed then world
  else ((world.unstage session id).closeRecord session id .failed).setFile session id { file with status := .failed }

/-- A chunk goes to the staging file that the stream has opened, which may have been unlinked since. -/
def appendStaged (session : Session) (id : FileId) (opened : Nat) (data : Str) : World Call Session FileId Path :=
  match world.staged session id with
  | none => world
  | some staged =>
    if staged.opened = opened then
      world.setStaged session id (some { staged with bytes := staged.bytes ++ data })
    else world

/-- One step of a PUT. -/
def streamStep (control : StreamControl Session FileId) (event : StreamEvent Session FileId) :
    Option (World Call Session FileId Path × StreamControl Session FileId) :=
  match control, event with
  | .idle, .find session =>
    if (world.sessions session).any (fun upload => upload.stage = .registered) then some (world, .found session)
    else none
  | .found _, .refuse => some (world, .ended)
  | .found session, .begin id =>
    match world.sessions session, world.fileOf session id with
    | some upload, some file =>
      if beginnable upload.mode file then
        some (((({ world with opened := world.opened + 1 } : World Call Session FileId Path).setStaged session id
            (some { opened := world.opened, bytes := [] })).setFile session id
              { file with received := [], status := .receiving }),
          .receiving session id world.opened)
      else none
    | _, _ => none
  | .receiving session id opened, .write data =>
    match world.sessions session, world.fileOf session id with
    | some upload, some file =>
      if file.status = .receiving ∧ file.received.length + data.length ≤ file.expectedSize then
        some (appendStaged (world.setFile session id { file with received := file.received ++ data }) session id
            opened data,
          match upload.mode with
          | .authenticated => .receiving session id opened
          | .share => .recording session id opened data.length)
      else none
    | _, _ => none
  | .recording session id opened size, .record =>
    match (world.records session id).bind (fun record => record.addReceivedBytes size) with
    | none => none
    | some record => some (world.setRecord session id (some record), .receiving session id opened)
  | .receiving session id _, .finish =>
    match world.fileOf session id with
    | none => none
    | some file =>
      if file.received.length = file.expectedSize then
        some (world.setFile session id { file with status := .complete }, .ended)
      else some (world.setFile session id { file with status := .failed }, .mismatched session id)
  | control, .fail =>
    match control.failsOn with
    | none => none
    | some (session, id) => (world.fileOf session id).map fun file => (failFile world session id file, .ended)
  | _, _ => none

end

end Streams

/-! ## The system -/

inductive Label (Call Stream Session FileId Path : Type)
  | call (call : Call) (event : CallEvent Session)
  | stream (stream : Stream) (event : StreamEvent Session FileId)
  /-- `createSession` begins. -/
  | start (session : Session) (mode : UploadMode)
  /-- It plans one file of the request.  Two keys can name one target. -/
  | plan (session : Session) (id : FileId) (key : Str) (path : Path) (size : Nat) (client : Str)
  | register (session : Session)
  /-- The session is given up: creation failed, cancelled, expired or aborted. -/
  | close (session : Session) (verdict : Verdict)
  /-- The cleanup of a closed session reaches one of its files. -/
  | sweep (session : Session) (verdict : Verdict) (id : FileId)
  | drop (session : Session)
  /-- Any other writer leaves the target in any state. -/
  | write (path : Path) (target : Target)

structure State (Call Stream Session FileId Path : Type) where
  world : World Call Session FileId Path
  calls : Call -> Control Session FileId Path
  streams : Stream -> StreamControl Session FileId

/-- Nothing has been uploaded yet. -/
def initial {Call Stream Session FileId Path : Type} (targets : Path -> Target) :
    State Call Stream Session FileId Path :=
  { world :=
      { sessions := fun _ => none, staged := fun _ _ => none, targets := targets, records := fun _ _ => none
        opened := 0, stores := [], removals := [] }
    calls := fun _ => .idle
    streams := fun _ => .idle }

section System

variable {Call Stream Session FileId Path : Type} [DecidableEq Call] [DecidableEq Stream] [DecidableEq Session]
  [DecidableEq FileId] [DecidableEq Path]

/-- No file of the session has the id or the key yet. -/
def plannable (upload : UploadSession FileId Path) (id : FileId) (key : Str) : Bool :=
  decide (upload.stage = .building ∧ upload.verdicts = []) && decide (id ∉ upload.order) &&
    (upload.files id).isNone && upload.snapshot.all fun entry => entry.2.targetKey ≠ key

/-- The check of `createSession` that the target is free: the cache for a user, the catalog for a share. -/
def targetFree (mode : UploadMode) (target : Target) : Bool :=
  match mode with
  | .authenticated => target.cached.isNone
  | .share => target.row.isNone

/-- A planned file.  An empty one is complete at once, with an empty staging file. -/
def planFile (world : World Call Session FileId Path) (session : Session) (mode : UploadMode) (id : FileId)
    (key : Str) (path : Path) (size : Nat) (client : Str) : World Call Session FileId Path :=
  let file : UploadFile Path :=
    { targetKey := key, path := path, expectedSize := size, received := []
      status := if size = 0 then .complete else .pending }
  let planned := world.setSession session fun upload =>
    { upload with order := upload.order ++ [id], files := update upload.files id (some file) }
  let recorded :=
    match mode with
    | .authenticated => planned
    | .share => planned.setRecord session id (some (Share.UploadQuota.newUpload client size))
  if size = 0 then
    ({ recorded with opened := recorded.opened + 1 } : World Call Session FileId Path).setStaged session id
      (some { opened := recorded.opened, bytes := [] })
  else recorded

/-- `createSession` gives up a session that it is building.  `cancelSession` acts on a session that it has found, which
may have been erased since; expiry and shutdown act on registered ones. -/
def closable (stage : Stage) (verdict : Verdict) : Bool :=
  match verdict with
  | .failed => stage == .building
  | .cancelled => stage != .building
  | .expired | .aborted => stage == .registered

/-- What the cleanup of a closed session does to one file. -/
def sweepFile (world : World Call Session FileId Path) (session : Session) (mode : UploadMode) (verdict : Verdict)
    (id : FileId) (file : UploadFile Path) : World Call Session FileId Path :=
  let marked :=
    if verdict = .aborted ∧ file.status ≠ .complete then world.setFile session id { file with status := .failed }
    else world
  let removed := marked.unstage session id
  match mode with
  | .authenticated => removed
  | .share => removed.closeRecord session id (if verdict = .cancelled then .cancelled else .failed)

def step (state : State Call Stream Session FileId Path) (label : Label Call Stream Session FileId Path) :
    Option (State Call Stream Session FileId Path) :=
  match label with
  | .call call event =>
    (callStep state.world call (state.calls call) event).map fun moved =>
      { state with world := moved.1, calls := update state.calls call moved.2 }
  | .stream stream event =>
    (streamStep state.world (state.streams stream) event).map fun moved =>
      { state with world := moved.1, streams := update state.streams stream moved.2 }
  | .start session mode =>
    match state.world.sessions session with
    | some _ => none
    | none =>
      some { state with
        world := { state.world with
          sessions := update state.world.sessions session
            (some { mode := mode, order := [], files := fun _ => none, stage := .building, finished := false
                    verdicts := [] }) } }
  | .plan session id key path size client =>
    match state.world.sessions session with
    | none => none
    | some upload =>
      if plannable upload id key && targetFree upload.mode (state.world.targets path) then
        some { state with world := planFile state.world session upload.mode id key path size client }
      else none
  | .register session =>
    match state.world.sessions session with
    | none => none
    | some upload =>
      if upload.stage = .building ∧ upload.verdicts = [] then
        some { state with world := state.world.setSession session fun upload =>
                            { upload with stage := .registered } }
      else none
  | .close session verdict =>
    if (state.world.sessions session).any (fun upload => closable upload.stage verdict) then
      some { state with world := state.world.report session verdict }
    else none
  | .sweep session verdict id =>
    match state.world.sessions session, state.world.fileOf session id with
    | some upload, some file =>
      if verdict ∈ upload.verdicts then
        some { state with world := sweepFile state.world session upload.mode verdict id file }
      else none
    | _, _ => none
  | .drop session =>
    if state.world.verdictsOf session ≠ [] then
      some { state with world := state.world.setSession session fun upload => { upload with stage := .erased } }
    else none
  | .write path target =>
    some { state with world := { state.world with targets := update state.world.targets path target } }

end System

end Upload
end Vaulthalla
