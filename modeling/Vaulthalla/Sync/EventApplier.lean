import Vaulthalla.Foundation.Selection
import Vaulthalla.Manifest.RemoteIndex

namespace Vaulthalla
namespace Sync
namespace EventApplier

open Foundation RemoteObject

/-!
# Applying the events of one object key

Notifications of the provider wait in an inbox.  `applyVault` claims pending
rows, groups them by key, and acts on the newest event of a group: a creation
writes the row of the remote index, a removal deletes it once a HEAD request
confirms that the object is gone.  The other events of the group are settled as
superseded.

The state is the part of the database that belongs to one key: its inbox rows,
its index row and the vault's own write intents for it, oldest first.
-/

/-! ## Events -/

inductive InboxKind
  | created | removed
deriving DecidableEq

inductive InboxState
  | pending | applied | done | skipped | failed
deriving DecidableEq

inductive InboxOrigin
  | unknown | external | self
deriving DecidableEq

/-- What a notification says. -/
structure Event where
  kind : InboxKind
  sequencer : Option Str
  eventTimeMs : Option Int
  eventTime : Int
  etag : Option Str
  sizeBytes : Option Nat
  versionId : Option Str
deriving DecidableEq

structure InboxRow where
  id : Nat
  event : Event
  state : InboxState
  note : Str
  origin : InboxOrigin
deriving DecidableEq

def applierUnquote (etag : Str) : Str :=
  if 2 ≤ etag.length ∧ etag.head? = some 34 ∧ etag.getLast? = some 34 then etag.tail.dropLast else etag

def eventMs (event : Event) : Int := event.eventTimeMs.getD (event.eventTime * 1000)

def hasSequencer (event : Event) : Bool := event.sequencer.any (!·.isEmpty)

def normalizedSequencer (value : Str) : Str := trimZeros (value.map lowerByte)

def s3SequencerIsNewerOrEqual (candidate current : Option Str) : Bool :=
  match candidate, current with
  | some candidate, some current =>
    if candidate.isEmpty || current.isEmpty then true
    else
      let next := normalizedSequencer candidate
      let existing := normalizedSequencer current
      if next.length ≠ existing.length then decide (existing.length < next.length) else decide (existing ≤ next)
  | _, _ => true

/-- Two events of one key that nothing orders. -/
def tied (first second : Event) : Bool :=
  !(hasSequencer first && hasSequencer second) && eventMs first == eventMs second

def newerOrEqual (first second : InboxRow) : Bool :=
  if hasSequencer first.event && hasSequencer second.event then
    s3SequencerIsNewerOrEqual first.event.sequencer second.event.sequencer
  else if eventMs first.event ≠ eventMs second.event then decide (eventMs second.event < eventMs first.event)
  else if first.event.kind ≠ second.event.kind then first.event.kind == InboxKind.removed
  else decide (second.id ≤ first.id)

/-- `lpad`, which also cuts a longer text. -/
def lpad (width : Nat) (text : Str) : Str :=
  if width ≤ text.length then text.take width else List.replicate (width - text.length) 48 ++ text

/-- The first column by which the inbox orders the events of a key. -/
def sequencerColumn (event : Event) : Str :=
  lpad 64 ((trimZeros (event.sequencer.getD [])).map lowerByte)

/-- The order of `upstream_inbox_latest_for_key`. -/
def listedBefore (first second : InboxRow) : Bool :=
  let left := sequencerColumn first.event
  let right := sequencerColumn second.event
  decide (right < left) || (left == right &&
    (decide (eventMs second.event < eventMs first.event) ||
      (eventMs first.event == eventMs second.event && decide (second.id < first.id))))

/-! ## The state of a key -/

/-- A write of this installation that the provider will report. -/
structure WriteIntent where
  op : InboxKind
  (recordedAt expiresAt : Int)
  expectedSize : Option Nat
  etag : Option Str
deriving DecidableEq

/-- The conditions of `upstream_write_intent_consume`. -/
def WriteIntent.covers (intent : WriteIntent) (now : Int) (event : Event) (sizeBytes : Option Nat)
    (etag : Option Str) : Bool :=
  intent.op == event.kind && decide (now < intent.expiresAt) && decide (intent.recordedAt ≤ event.eventTime + 5) &&
    (sizeBytes.isNone || intent.expectedSize.isNone || intent.expectedSize == sizeBytes) &&
    (etag.isNone || intent.etag.isNone || intent.etag == etag)

structure State where
  inbox : List InboxRow
  index : Option RemoteObject
  intents : List WriteIntent

namespace State

section

variable (state : State)

def latestForKey : Option InboxRow := Selection.holder listedBefore state.inbox

def settle (id : Nat) (result : InboxState) (note : Str) (origin : InboxOrigin) : State :=
  { state with
    inbox := state.inbox.map fun row =>
      if row.id = id ∧ (row.state = InboxState.pending ∨ row.state = InboxState.applied) then
        { row with state := result, note := note, origin := origin }
      else row }

def markSkipped (id : Nat) (note : Str) (origin : InboxOrigin) : State :=
  state.settle id InboxState.skipped note origin

def markApplied (row : InboxRow) : State :=
  state.settle row.id InboxState.applied row.note InboxOrigin.external

/-- The row is settled as this installation's own write, if an intent covers it. -/
def settleOwnWrite (now : Int) (row : InboxRow) (sizeBytes : Option Nat) (etag : Option Str) (note : Str) :
    Option State :=
  (state.intents.find? fun intent => intent.covers now row.event sizeBytes etag).map fun intent =>
    { state with intents := state.intents.erase intent }.markSkipped row.id note InboxOrigin.self

def upsertFile (file : File) : State :=
  { state with index := some (upsert state.index (ofFile file)) }

def deleteEventKey (sequencer : Option Str) : State :=
  { state with
    index := state.index.filter fun row => !{ row with eventSequencer := sequencer }.supersedes row }

end

end State

/-! ## Acting on a group -/

structure Head where
  etag : Str
  contentLength : Option Nat
  encrypted : Bool
  ivB64 : Str
  keyVersion : Nat
  contentHash : Option Str

structure Subscription where
  baselineStartedAt : Option Int
  ignoresForeign : Bool

/-- What the applier is told from elsewhere while it works on a group. -/
structure Surroundings where
  key : Str
  subscription : Option Subscription
  head : Option Head
  /-- The vault has a file at the key's path. -/
  fileKnown : Bool
  now : Int

def newFile (key : Str) (sizeBytes : Nat) (updatedAt : Int) : File where
  id := 0
  path := key
  sizeBytes := sizeBytes
  updatedAt := updatedAt
  encryptionIv := []
  mimeType := none
  contentHash := none
  remoteStorageClass := none
  remoteEtag := none
  remoteRestoreStatus := none
  remoteVersionId := none
  remoteSequencer := none
  remoteEncrypted := none
  encryptedWithKeyVersion := 0

def fileFromHead (around : Surroundings) (head : Head) : File :=
  let hasCipher := head.encrypted && !head.ivB64.isEmpty
  { newFile around.key (head.contentLength.getD 0) around.now with
    remoteEtag := if head.etag.isEmpty then none else some head.etag
    remoteEncrypted := some head.encrypted
    encryptionIv := if hasCipher then head.ivB64 else []
    encryptedWithKeyVersion := if hasCipher then head.keyVersion else 0
    contentHash := head.contentHash }

def fileFromEvent (around : Surroundings) (event : Event) : File :=
  { newFile around.key (event.sizeBytes.getD 0) event.eventTime with
    remoteEtag := event.etag
    remoteSequencer := event.sequencer
    remoteVersionId := event.versionId }

/-- Older events of the key, each of which may consume an intent. -/
def supersede (around : Surroundings) (state : State) (row : InboxRow) : State :=
  (state.settleOwnWrite around.now row row.event.sizeBytes row.event.etag
    (str "self: superseded by a newer event for the key")).getD
    (state.markSkipped row.id (str "superseded by a newer event for the key") InboxOrigin.external)

def kBaselineSkewSeconds : Int := 60

def beforeBaseline (around : Surroundings) (event : Event) : Bool :=
  (around.subscription.bind (·.baselineStartedAt)).any fun started =>
    decide (event.eventTime + kBaselineSkewSeconds < started)

/-- A newer event of the key was already handled. -/
def staleInInbox (state : State) (row : InboxRow) : Bool :=
  state.latestForKey.any fun newest =>
    newest.id != row.id && newest.state != InboxState.pending && !tied row.event newest.event && !newerOrEqual row newest

def staleInIndex (state : State) (row : InboxRow) : Bool :=
  row.event.sequencer.isSome && state.index.any fun indexed =>
    indexed.eventSequencer.isSome && !s3SequencerIsNewerOrEqual row.event.sequencer indexed.eventSequencer

def sameEtag (indexed : Option RemoteObject) (etag : Option Str) : Bool :=
  indexed.any fun row => row.etag.any fun known => etag.any fun etag => applierUnquote known == applierUnquote etag

section

variable (around : Surroundings)

/-- A new object nobody in this vault knows, where only objects written by Vaulthalla are imported. -/
def foreignIgnored (state : State) : Bool :=
  around.subscription.any (·.ignoresForeign) && state.index.isNone && !around.fileKnown &&
    !around.head.any (·.encrypted)

def learnOwnWrite (event : Event) (indexed : RemoteObject) : File :=
  let file := indexed.toFile around.now
  { file with
    remoteEtag := event.etag <|> file.remoteEtag
    remoteSequencer := event.sequencer <|> file.remoteSequencer
    remoteVersionId := event.versionId <|> file.remoteVersionId }

def create (state : State) (row : InboxRow) : State :=
  match state.settleOwnWrite around.now row row.event.sizeBytes row.event.etag (str "self: Vaulthalla's own write") with
  | some settled => (state.index.map fun indexed => settled.upsertFile (learnOwnWrite around row.event indexed)).getD settled
  | none =>
    if sameEtag state.index row.event.etag then
      state.markSkipped row.id (str "unchanged: the index already has this object") InboxOrigin.external
    else if foreignIgnored around state then
      state.markSkipped row.id
        (if around.head.isSome then str "foreign object ignored (no Vaulthalla metadata)" else str "object vanished")
        InboxOrigin.external
    else (state.upsertFile (fileFromEvent around row.event)).markApplied row

/-- The rest of a group's turn, once the event to act on is chosen and the others are settled. -/
def act (state : State) (row : InboxRow) : State :=
  if beforeBaseline around row.event then
    state.markSkipped row.id (str "superseded by the baseline listing") InboxOrigin.unknown
  else if staleInInbox state row then
    state.markSkipped row.id (str "stale: a newer event for the key was already handled") InboxOrigin.unknown
  else if staleInIndex state row then
    state.markSkipped row.id (str "stale: the index holds a newer event") InboxOrigin.unknown
  else match row.event.kind with
    | InboxKind.created => create around state row
    | InboxKind.removed => (state.deleteEventKey row.event.sequencer).markApplied row

end

def newestCreation (group : List InboxRow) : Option InboxRow :=
  Selection.holder newerOrEqual (group.filter fun row => row.event.kind == InboxKind.created)

section

variable (around : Surroundings) (state : State) (group : List InboxRow)

/-- A removal that the provider does not confirm: the newest creation of the group is
acted on instead or, without one, the index learns the object from the HEAD. -/
def unconfirmed (latest : InboxRow) (head : Head) : State :=
  let state := state.markSkipped latest.id (str "removal not confirmed: the object still exists") InboxOrigin.external
  match newestCreation group with
  | some creation =>
    act around ((group.filter fun row => row.id != latest.id && row.id != creation.id).foldl (supersede around) state)
      creation
  | none =>
    let learned :=
      if sameEtag state.index (some head.etag) then state else state.upsertFile (fileFromHead around head)
    (group.filter fun row => row.id != latest.id).foldl (fun state row =>
      state.markSkipped row.id (str "superseded by a newer event for the key") InboxOrigin.external) learned

def applyGroup : State :=
  if Manifest.isVaulthallaManifestKey around.key then
    group.foldl (fun state row => state.markSkipped row.id (str "Vaulthalla's index manifest") InboxOrigin.self) state
  else match Selection.holder newerOrEqual group with
  | none => state
  | some latest =>
    let older := group.filter fun row => row.id != latest.id
    match latest.event.kind with
    | InboxKind.created => act around (older.foldl (supersede around) state) latest
    | InboxKind.removed =>
      match state.settleOwnWrite around.now latest none none (str "self: Vaulthalla's own delete") with
      | some settled => older.foldl (supersede around) settled
      | none =>
        match around.head with
        | none => act around (older.foldl (supersede around) state) latest
        | some head => unconfirmed around state group latest head

end

/-! ## What a turn does to the inbox -/

/-- The rows with these ids are settled, and nothing else in the inbox changes. -/
def Marks (ids : Nat -> Prop) (before after : State) : Prop :=
  Exists fun change : InboxRow -> InboxRow => after.inbox = before.inbox.map change ∧ forall row,
    (change row).id = row.id ∧ (change row).event = row.event ∧ (¬ ids row.id -> change row = row) ∧
      (ids row.id -> (change row).state ≠ InboxState.pending)

variable {after before : State} {turn : State -> InboxRow -> State}

theorem Marks.refl (same : after.inbox = before.inbox) : Marks (fun _ => False) before after :=
  ⟨id, by simpa using same, fun _ => ⟨rfl, rfl, fun _ => rfl, False.elim⟩⟩

theorem Marks.trans {first second : Nat -> Prop} {between : State} (left : Marks first before between)
    (right : Marks second between after) : Marks (fun id => first id ∨ second id) before after := by
  rcases left with ⟨change, changed, keeps⟩
  rcases right with ⟨change', changed', keeps'⟩
  refine ⟨change' ∘ change, by simp [changed', changed], ?_⟩
  grind

theorem Marks.settle (state : State) (id : Nat) {result : InboxState} (isResult : result ≠ InboxState.pending)
    (note : Str) (origin : InboxOrigin) : Marks (fun other => other = id) state (state.settle id result note origin) := by
  refine ⟨_, rfl, ?_⟩
  intro row
  by_cases chosen : row.id = id ∧ (row.state = InboxState.pending ∨ row.state = InboxState.applied)
  · simp [chosen, isResult]
  · rw [if_neg chosen]
    exact ⟨rfl, rfl, fun _ => rfl, fun isId isPending => chosen ⟨isId, .inl isPending⟩⟩

section

variable (around : Surroundings) (state : State) (row : InboxRow)

include around state row

theorem supersede_cases :
    Exists fun intents => Exists fun note => Exists fun origin =>
      supersede around state row = { state with intents := intents }.markSkipped row.id note origin := by
  unfold supersede State.settleOwnWrite
  cases state.intents.find? fun intent => intent.covers around.now row.event row.event.sizeBytes row.event.etag with
  | none | some => exact ⟨_, _, _, rfl⟩

theorem marks_supersede : Marks (fun id => id = row.id) state (supersede around state row) := by
  rcases supersede_cases around state row with ⟨intents, note, origin, isSettled⟩
  rw [isSettled]
  exact .settle { state with intents := intents } row.id InboxState.noConfusion note origin

theorem index_supersede : (supersede around state row).index = state.index := by
  rcases supersede_cases around state row with ⟨intents, note, origin, isSettled⟩
  rw [isSettled]
  rfl

end

/-- A loop that settles each of the rows and leaves the index alone. -/
theorem Marks.foldl (marks : forall state row, Marks (fun id => id = row.id) state (turn state row))
    (rows : List InboxRow) (state : State) :
    Marks (fun id => id ∈ rows.map InboxRow.id) state (rows.foldl turn state) := by
  induction rows generalizing state with
  | nil => simpa using (.refl rfl : Marks (fun _ => False) state state)
  | cons row rows inductive_hypothesis =>
    simpa using (marks state row).trans (inductive_hypothesis (turn state row))

theorem index_foldl (keeps : forall state row, (turn state row).index = state.index) (rows : List InboxRow)
    (state : State) : (rows.foldl turn state).index = state.index := by
  induction rows generalizing state with
  | nil => rfl
  | cons row rows inductive_hypothesis => rw [List.foldl_cons, inductive_hypothesis, keeps]

@[simp] theorem index_markSkipped (state : State) (id : Nat) (note : Str) (origin : InboxOrigin) :
    (state.markSkipped id note origin).index = state.index :=
  rfl

@[simp] theorem index_markApplied (state : State) (row : InboxRow) : (state.markApplied row).index = state.index :=
  rfl

theorem index_foldl_markSkipped (note : Str) (origin : InboxOrigin) (rows : List InboxRow) (state : State) :
    (rows.foldl (fun state row => state.markSkipped row.id note origin) state).index = state.index :=
  index_foldl (fun state row => index_markSkipped state row.id note origin) rows state

/-- The newest row stays the newest. -/
theorem Marks.latestForKey {ids : Nat -> Prop} (marks : Marks ids before after) :
    Exists fun change => after.latestForKey = before.latestForKey.map change ∧ forall row,
      (change row).id = row.id ∧ (change row).event = row.event ∧ (¬ ids row.id -> change row = row) ∧
        (ids row.id -> (change row).state ≠ InboxState.pending) := by
  rcases marks with ⟨change, changed, keeps⟩
  refine ⟨change, ?_, keeps⟩
  unfold State.latestForKey
  rw [changed]
  refine Selection.holder_map ?_ _
  intro first second
  simp only [listedBefore, keeps]

end EventApplier
end Sync
end Vaulthalla
