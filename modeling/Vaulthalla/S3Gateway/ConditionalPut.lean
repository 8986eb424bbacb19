import Vaulthalla.Foundation.ByteString
import Vaulthalla.Foundation.Pool
import Vaulthalla.Foundation.Transition

namespace Vaulthalla
namespace S3Gateway
namespace ConditionalPut

open Foundation Pool Transition

/-!
# Conditional writes of one object

A `PUT` with `If-Match` or `If-None-Match` looks up the object, compares its ETag,
and later stores its body: first the file, then the row of the object table.
Nothing is held between the lookup and the store.  Each lookup reads the row,
then the file, and for a remote-backed bucket fills the table from the remote
index and reads the row again.

Requests are numbered by their arrival.  Each label is one statement of one
request, so the runs are the interleavings of any number of requests.
-/

/-! ## Comparing ETags -/

def comma : UInt8 := 44
def quote : UInt8 := 34

def isSpace (byte : UInt8) : Bool :=
  byte == 32 || (9 ≤ byte && byte ≤ 13)

def trimCopy (value : Str) : Str :=
  ((value.dropWhile isSpace).reverse.dropWhile isSpace).reverse

/-- What `std::getline` yields at commas: a last empty item is not delivered. -/
def listItems (condition : Str) : List Str :=
  let items := condition.splitOn comma
  if items.getLast? = some [] then items.dropLast else items

def etagListMatches (condition etag : Str) : Bool :=
  ((listItems condition).map trimCopy).any fun item =>
    item == str "*" || item == etag || (!item.isEmpty && item.head? != some quote && quote :: item ++ [quote] == etag)

theorem etagListMatches_star (etag : Str) : etagListMatches (str "*") etag := by
  have isItem : (listItems (str "*")).map trimCopy = [str "*"] := by decide +kernel
  simp [etagListMatches, isItem]

/-! ## Requests -/

structure Request where
  /-- Empty when the header is absent. -/
  (ifMatch ifNoneMatch : Str)
  /-- The ETag of the body. -/
  bodyEtag : Str

/-- The next statement of `headObject`. -/
inductive Lookup
  | row | file | backfill | rowAgain
deriving DecidableEq

inductive Phase
  | ifMatch (next : Lookup)
  | ifNoneMatch (next : Lookup)
  /-- The conditions hold; the body is checked and paid for, and then stored. -/
  | accepted | stored | succeeded | failed
deriving DecidableEq

def Request.afterMatch (request : Request) : Phase :=
  if request.ifNoneMatch = [] then .accepted else .ifNoneMatch .row

def Request.start (request : Request) : Phase :=
  if request.ifMatch = [] then request.afterMatch else .ifMatch .row

/-! ## The object -/

structure Store where
  remoteBacked : Bool
  /-- The key ends in a slash: the object has no file. -/
  directoryMarker : Bool
  /-- The ETag in the row of the object table. -/
  row : Option Str
  /-- The ETag made from the row of the file. -/
  file : Option Str
  /-- The ETag in the remote index. -/
  remote : Option Str

inductive Answer
  | next (lookup : Lookup)
  | found (etag : Str)
  | noSuchKey

/-- One statement of `headObject`. -/
def Store.headObject (store : Store) : Lookup -> Store × Answer
  | .row => (store, (store.row.map Answer.found).getD (.next .file))
  | .file =>
    (store, (store.file.map Answer.found).getD (if store.remoteBacked then .next .backfill else .noSuchKey))
  | .backfill =>
    -- ON CONFLICT DO NOTHING
    ({ store with row := store.row.or store.remote }, .next .rowAgain)
  | .rowAgain => (store, (store.row.map Answer.found).getD .noSuchKey)

def Request.afterIfMatch (request : Request) : Answer -> Phase
  | .next lookup => .ifMatch lookup
  | .found etag => if etagListMatches request.ifMatch etag then request.afterMatch else .failed
  | .noSuchKey => .failed

def Request.afterIfNoneMatch (request : Request) : Answer -> Phase
  | .next lookup => .ifNoneMatch lookup
  | .found etag => if etagListMatches request.ifNoneMatch etag then .failed else .accepted
  | .noSuchKey => .accepted

/-! ## The system -/

structure State where
  store : Store
  requests : List (Request × Phase)

def initial (store : Store) : State where
  store := store
  requests := []

inductive Label
  | arrive (request : Request)
  | lookup (index : Nat)
  /-- `createFile`, with the ETag that the new row of the file gives. -/
  | createFile (index : Nat) (fileEtag : Str)
  | upsertObject (index : Nat)
  /-- An exception at any point. -/
  | fail (index : Nat)

def State.move (state : State) (index : Nat) (store : Store) (request : Request) (phase : Phase) : State :=
  { store := store, requests := state.requests.set index (request, phase) }

def State.step (state : State) : Label -> Option State
  | .arrive request => some { state with requests := state.requests ++ [(request, request.start)] }
  | .lookup index =>
    match state.requests[index]? with
    | some (request, .ifMatch next) =>
      let answered := state.store.headObject next
      some (state.move index answered.1 request (request.afterIfMatch answered.2))
    | some (request, .ifNoneMatch next) =>
      let answered := state.store.headObject next
      some (state.move index answered.1 request (request.afterIfNoneMatch answered.2))
    | _ => none
  | .createFile index fileEtag =>
    match state.requests[index]? with
    | some (request, .accepted) =>
      let file := if state.store.directoryMarker then state.store.file else some fileEtag
      some (state.move index { state.store with file := file } request .stored)
    | _ => none
  | .upsertObject index =>
    match state.requests[index]? with
    | some (request, .stored) =>
      some (state.move index { state.store with row := some request.bodyEtag } request .succeeded)
    | _ => none
  | .fail index =>
    match state.requests[index]? with
    | some (_, .succeeded) => none
    | some (request, _) => some (state.move index state.store request .failed)
    | none => none

variable (entry : Request × Phase)

def success : Nat :=
  if entry.2 = .succeeded then 1 else 0

/-- How many requests have answered success. -/
def State.successes (state : State) : Nat :=
  total success state.requests

/-! ## One request at a time -/

/-- The condition that all requests carry. -/
inductive Header
  | ifNoneMatchAny
  | ifMatch (text : Str)

variable (header : Header)

def Header.carriedBy (request : Request) : Prop :=
  match header with
  | .ifNoneMatchAny => request.ifMatch = [] ∧ request.ifNoneMatch = str "*"
  | .ifMatch text => text ≠ [] ∧ request.ifMatch = text ∧ request.ifNoneMatch = []

instance (header : Header) (request : Request) : Decidable (header.carriedBy request) :=
  match header with
  | .ifNoneMatchAny => inferInstanceAs (Decidable (_ ∧ _))
  | .ifMatch _ => inferInstanceAs (Decidable (_ ∧ _))

/-- A request with the header fails when the object has this ETag. -/
def Header.refuses : Header -> Str -> Prop
  | .ifNoneMatchAny, _ => True
  | .ifMatch text, etag => etagListMatches text etag = false

instance (header : Header) (etag : Str) : Decidable (header.refuses etag) :=
  match header with
  | .ifNoneMatchAny => inferInstanceAs (Decidable True)
  | .ifMatch _ => inferInstanceAs (Decidable (_ = _))

/-- Between its first lookup and its end. -/
def isUnderWay : Bool :=
  entry.2 != entry.1.start && entry.2 != .succeeded && entry.2 != .failed

/-- Requests carry the header, write an ETag that the header refuses, and start no lookup while another one is under
way. -/
def Serialized (state : State) : Label -> Prop
  | .arrive request => header.carriedBy request ∧ header.refuses request.bodyEtag
  | .lookup index => ((state.requests.eraseIdx index).any isUnderWay) = false
  | _ => True

instance (header : Header) (state : State) : (label : Label) -> Decidable (Serialized header state label)
  | .arrive request => inferInstanceAs (Decidable (header.carriedBy request ∧ header.refuses request.bodyEtag))
  | .lookup index => inferInstanceAs (Decidable (((state.requests.eraseIdx index).any isUnderWay) = false))
  | .createFile _ _ | .upsertObject _ | .fail _ => inferInstanceAs (Decidable True)

def busy : Nat :=
  if isUnderWay entry then 1 else 0

structure Sound (state : State) : Prop where
  carried : forall entry, entry ∈ state.requests ->
    header.carriedBy entry.1 ∧ header.refuses entry.1.bodyEtag
  single : total busy state.requests ≤ 1
  /-- After a success nobody is under way, and the ETag of the object is refused. -/
  settled : state.successes = 0 ∨
    (state.successes = 1 ∧ total busy state.requests = 0 ∧
      Exists fun etag => state.store.row = some etag ∧ header.refuses etag)

variable {header : Header} {state next : State} {index : Nat} {request : Request} {phase moved : Phase}

/-- A request with the header starts with a lookup, and fails when it finds an ETag that the header refuses. -/
theorem start_of_carriedBy (carried : header.carriedBy request) :
    (request.start = .ifMatch .row ∧
        forall etag, header.refuses etag -> request.afterIfMatch (.found etag) = .failed) ∨
      (request.start = .ifNoneMatch .row ∧
        forall etag, header.refuses etag -> request.afterIfNoneMatch (.found etag) = .failed) := by
  cases header with
  | ifNoneMatchAny =>
    refine .inr ⟨?_, fun etag _ => ?_⟩
    · have notEmpty : str "*" ≠ [] := by decide +kernel
      simp [Request.start, Request.afterMatch, carried.1, carried.2, notEmpty]
    · simp [Request.afterIfNoneMatch, carried.2, etagListMatches_star]
  | ifMatch text =>
    refine .inl ⟨?_, fun etag refused => ?_⟩
    · simp [Request.start, carried.2.1, carried.1]
    · have noMatch : etagListMatches text etag = false := refused
      simp [Request.afterIfMatch, carried.2.1, noMatch]

theorem isUnderWay_of_writing (carried : header.carriedBy request) (writing : phase = .accepted ∨ phase = .stored) :
    busy (request, phase) = 1 := by
  have starts : request.start ≠ .accepted ∧ request.start ≠ .stored := by
    rcases start_of_carriedBy carried with ⟨isStart, _⟩ | ⟨isStart, _⟩
    · simp [isStart]
    · simp [isStart]
  rcases writing with rfl | rfl
  · simp [busy, isUnderWay, starts.1.symm]
  · simp [busy, isUnderWay, starts.2.symm]

theorem busy_le : busy entry ≤ 1 := by
  unfold busy
  split <;> decide

theorem busy_ended (request : Request) (ended : phase = .succeeded ∨ phase = .failed) : busy (request, phase) = 0 := by
  rcases ended with rfl | rfl
  · simp [busy, isUnderWay]
  · simp [busy, isUnderWay]

theorem totals_move (found : state.requests[index]? = some (request, phase)) (store : Store) (moved : Phase) :
    total busy (state.move index store request moved).requests + busy (request, phase) =
        total busy state.requests + busy (request, moved) ∧
      (state.move index store request moved).successes + success (request, phase) =
        state.successes + success (request, moved) :=
  ⟨total_set _ found _, total_set _ found _⟩

section

variable (sound : Sound header state)

include sound

section

variable (found : state.requests[index]? = some (request, phase))

include found

theorem carried_move (store : Store) :
    forall entry, entry ∈ (state.move index store request moved).requests ->
      header.carriedBy entry.1 ∧ header.refuses entry.1.bodyEtag :=
  forall_set sound.carried (sound.carried (request, phase) (List.mem_of_getElem? found))

/-- A lookup.  Once a request has succeeded, the next lookup is a first one and its request fails. -/
theorem sound_lookup (alone : ((state.requests.eraseIdx index).any isUnderWay) = false)
    (notEnded : phase ≠ .succeeded) (notSucceeded : moved ≠ .succeeded) {store : Store}
    (refused : phase = request.start -> forall etag, state.store.row = some etag -> header.refuses etag ->
      moved = .failed ∧ store = state.store) (under : phase ≠ request.start -> phase ≠ .failed) :
    Sound header (state.move index store request moved) := by
  have rest := total_eraseIdx busy found
  have noOther : total busy (state.requests.eraseIdx index) = 0 :=
    total_eq_zero fun other isOther => if_neg (List.any_eq_false.mp alone other isOther)
  have totals := totals_move found store moved
  have oldSuccess : success (request, phase) = 0 := if_neg notEnded
  have newSuccess : success (request, moved) = 0 := if_neg notSucceeded
  have small := busy_le (request, moved)
  refine ⟨carried_move sound found store, by omega, ?_⟩
  rcases sound.settled with none | ⟨one, idle, etag, isRow, isRefused⟩
  · exact .inl (by omega)
  · have isStart : phase = request.start := by
      by_contra notStart
      have isBusy : busy (request, phase) = 1 := by
        simp [busy, isUnderWay, notStart, notEnded, under notStart]
      omega
    rcases refused isStart etag isRow isRefused with ⟨rfl, rfl⟩
    have ended := busy_ended request (.inr rfl : Phase.failed = .succeeded ∨ Phase.failed = .failed)
    exact .inr ⟨by omega, by omega, etag, isRow, isRefused⟩

/-- The store is written by the one request that is under way, before any success. -/
theorem Sound.writing (writing : phase = .accepted ∨ phase = .stored) :
    total busy state.requests = 1 ∧ busy (request, phase) = 1 ∧ state.successes = 0 := by
  have carried := (sound.carried (request, phase) (List.mem_of_getElem? found)).1
  have isBusy : busy (request, phase) = 1 := isUnderWay_of_writing carried writing
  have counted := le_total busy found
  have single := sound.single
  refine ⟨by omega, isBusy, ?_⟩
  rcases sound.settled with none | ⟨_, idle, _⟩
  · exact none
  · omega

end

theorem sound_createFile (found : state.requests[index]? = some (request, .accepted)) (store : Store) :
    Sound header (state.move index store request .stored) := by
  rcases sound.writing found (.inl rfl) with ⟨one, isBusy, none⟩
  have totals := totals_move found store .stored
  have small := busy_le (request, .stored)
  have newSuccess : success (request, .stored) = 0 := rfl
  exact ⟨carried_move sound found store, by omega, .inl (by omega)⟩

theorem sound_upsertObject (found : state.requests[index]? = some (request, .stored)) :
    Sound header (state.move index { state.store with row := some request.bodyEtag } request .succeeded) := by
  rcases sound.writing found (.inr rfl) with ⟨one, isBusy, none⟩
  have totals := totals_move found { state.store with row := some request.bodyEtag } .succeeded
  have ended : busy (request, .succeeded) = 0 := busy_ended request (.inl rfl)
  have oldSuccess : success (request, .stored) = 0 := rfl
  have newSuccess : success (request, .succeeded) = 1 := rfl
  refine ⟨carried_move sound found _, by omega, .inr ⟨by omega, by omega, request.bodyEtag, rfl, ?_⟩⟩
  exact (sound.carried (request, .stored) (List.mem_of_getElem? found)).2

theorem sound_fail (found : state.requests[index]? = some (request, phase)) (notSucceeded : phase ≠ .succeeded) :
    Sound header (state.move index state.store request .failed) := by
  have totals := totals_move found state.store .failed
  have ended : busy (request, .failed) = 0 := busy_ended request (.inr rfl)
  have oldSuccess : success (request, phase) = 0 := if_neg notSucceeded
  have newSuccess : success (request, .failed) = 0 := rfl
  have single := sound.single
  refine ⟨carried_move sound found _, by omega, ?_⟩
  rcases sound.settled with none | ⟨one, idle, etag, isRow, isRefused⟩
  · exact .inl (by omega)
  · exact .inr ⟨by omega, by omega, etag, isRow, isRefused⟩

theorem sound_arrive (carried : header.carriedBy request ∧ header.refuses request.bodyEtag) :
    Sound header { state with requests := state.requests ++ [(request, request.start)] } := by
  have notBusy : busy (request, request.start) = 0 := by simp [busy, isUnderWay]
  have notSucceeded : success (request, request.start) = 0 := by
    rcases start_of_carriedBy carried.1 with ⟨isStart, _⟩ | ⟨isStart, _⟩
    · simp [success, isStart]
    · simp [success, isStart]
  have sameBusy : total busy (state.requests ++ [(request, request.start)]) = total busy state.requests := by
    rw [total_append, notBusy, Nat.add_zero]
  have sameSuccess : total success (state.requests ++ [(request, request.start)]) = state.successes := by
    rw [total_append, notSucceeded, Nat.add_zero, State.successes]
  refine ⟨forall_append sound.carried carried, sameBusy ▸ sound.single, ?_⟩
  simp only [State.successes, sameBusy, sameSuccess]
  exact sound.settled

end

theorem afterIfMatch_ne_succeeded (request : Request) (answer : Answer) : request.afterIfMatch answer ≠ .succeeded := by
  cases answer with
  | next | noSuchKey => simp [Request.afterIfMatch]
  | found etag =>
    simp only [Request.afterIfMatch, Request.afterMatch]
    split
    · split <;> simp
    · simp

theorem afterIfNoneMatch_ne_succeeded (request : Request) (answer : Answer) :
    request.afterIfNoneMatch answer ≠ .succeeded := by
  cases answer with
  | next | noSuchKey => simp [Request.afterIfNoneMatch]
  | found etag =>
    simp only [Request.afterIfNoneMatch]
    split <;> simp

theorem sound_step {label : Label} (allowed : Serialized header state label) (taken : state.step label = some next)
    (sound : Sound header state) : Sound header next := by
  cases label <;> simp only [State.step] at taken
  case arrive request =>
    cases taken
    exact sound_arrive sound allowed
  case lookup index =>
    split at taken
    · rename_i request lookup found
      cases taken
      have carried := (sound.carried _ (List.mem_of_getElem? found)).1
      refine sound_lookup sound found allowed (by simp) (afterIfMatch_ne_succeeded _ _) (fun isStart etag isRow refused => ?_)
        (by simp)
      rcases start_of_carriedBy carried with ⟨starts, fails⟩ | ⟨starts, fails⟩
      · rw [starts] at isStart
        cases isStart
        exact ⟨by simp [Store.headObject, isRow, fails etag refused], rfl⟩
      · cases starts.symm.trans isStart.symm
    · rename_i request lookup found
      cases taken
      have carried := (sound.carried _ (List.mem_of_getElem? found)).1
      refine sound_lookup sound found allowed (by simp) (afterIfNoneMatch_ne_succeeded _ _)
        (fun isStart etag isRow refused => ?_) (by simp)
      rcases start_of_carriedBy carried with ⟨starts, fails⟩ | ⟨starts, fails⟩
      · cases starts.symm.trans isStart.symm
      · rw [starts] at isStart
        cases isStart
        exact ⟨by simp [Store.headObject, isRow, fails etag refused], rfl⟩
    · cases taken
  case createFile index fileEtag =>
    split at taken
    · rename_i request found
      cases taken
      exact sound_createFile sound found _
    · cases taken
  case upsertObject index =>
    split at taken
    · rename_i request found
      cases taken
      exact sound_upsertObject sound found
    · cases taken
  case fail index =>
    split at taken
    · cases taken
    · rename_i request phase notSucceeded found
      cases taken
      exact sound_fail sound found fun isSucceeded => notSucceeded isSucceeded
    · cases taken

theorem sound_initial (store : Store) : Sound header (initial store) where
  carried := fun _ isRequest => absurd isRequest List.not_mem_nil
  single := Nat.zero_le 1
  settled := .inl rfl

/-- At most one of any number of requests with the header succeeds, if none of them starts its lookup while another is
between its lookup and its end, and the header refuses the ETags that they write. -/
theorem at_most_one_conditional_put {store : Store} {labels : List Label} {final : State}
    (reached : run State.step (initial store) labels = some final)
    (serialized : Transition.Along State.step (Serialized header) (initial store) labels) : final.successes ≤ 1 := by
  have sound : Sound header final :=
    run_induction (fun _ _ _ => sound_step) reached serialized (sound_initial store)
  rcases sound.settled with none | ⟨one, _⟩
  · exact none ▸ Nat.zero_le 1
  · exact Nat.le_of_eq one

/-! A key that does not exist, and two requests that create it -/

def absent : Store where
  remoteBacked := false
  directoryMarker := false
  row := none
  file := none
  remote := none

def creation (body : String) : Request where
  ifMatch := []
  ifNoneMatch := str "*"
  bodyEtag := quote :: str body ++ [quote]

/-- One request after the other. -/
def oneAfterTheOther : List Label :=
  [.arrive (creation "a"), .lookup 0, .lookup 0, .createFile 0 (str "meta"), .upsertObject 0,
    .arrive (creation "b"), .lookup 1]

theorem at_most_one_conditional_put_oneAfterTheOther :
    Exists fun final => run State.step (initial absent) oneAfterTheOther = some final ∧
      final.requests.map Prod.snd = [.succeeded, .failed] ∧ final.successes ≤ 1 := by
  have isRun : (run State.step (initial absent) oneAfterTheOther).map
      (fun final => final.requests.map Prod.snd) = some [.succeeded, .failed] := by decide +kernel
  rcases Option.map_eq_some_iff.mp isRun with ⟨final, reached, phases⟩
  have serialized : Transition.Along State.step (Serialized .ifNoneMatchAny) (initial absent) oneAfterTheOther := by
    decide +kernel
  exact ⟨final, reached, phases, at_most_one_conditional_put reached serialized⟩

/-- Both look up the key before either stores its body. -/
def bothLookFirst : List Label :=
  [.arrive (creation "a"), .arrive (creation "b"), .lookup 0, .lookup 0, .lookup 1, .lookup 1,
    .createFile 0 (str "meta"), .upsertObject 0, .createFile 1 (str "meta2"), .upsertObject 1]

theorem two_conditional_puts_succeed :
    (run State.step (initial absent) bothLookFirst).map State.successes = some 2 := by
  decide +kernel

end ConditionalPut
end S3Gateway
end Vaulthalla
