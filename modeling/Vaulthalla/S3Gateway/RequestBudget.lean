import Mathlib.Logic.Function.Basic
import Vaulthalla.Pricing.PriceBudget

namespace Vaulthalla
namespace S3Gateway
namespace RequestBudget

open Pricing (Status)

/-!
# The budget of one gateway request

Each branch of `routeAuthenticated` reserves the price of its operation, runs
it, and commits or releases the reservation.  A branch is a sequence of calls,
any of which may throw; calls in a row that touch no reservation are one call
here, which throws if one of them does.  Commit and release change only rows
that are still reserved, all those of one preflight in one transaction, and
change nothing when they throw.
-/

inductive Thrown
  /-- The price-budget denial of a preflight. -/
  | denied
  | failed
deriving DecidableEq

/-- How a preflight ends. -/
inductive Preflight
  /-- It returns nothing: no use that counts, or no enforcement for the credential. -/
  | skipped
  | denied
  /-- It throws before or while it reserves. -/
  | failed
  /-- It has reserved, and `recordPreflightNotifications` throws. -/
  | unnoticed
  /-- It is allowed and no policy has reserved anything. -/
  | unpriced
  | reserved
deriving DecidableEq

/-- The variables `budget` (`sourceBudget` of a copy) and `destBudget`. -/
inductive Slot
  | budget
  | dest
deriving DecidableEq

structure World where
  /-- The statuses that the rows of each preflight which has reserved have had, newest first. -/
  ledger : List (List Status)
  /-- The reservations, each with the place of its rows if it has any. -/
  slots : Slot -> Option (Option Nat)
  /-- Object rows were added from the index of a remote bucket. -/
  backfilled : Bool
  /-- The operation was run: objects, multipart uploads and files may have changed. -/
  operated : Bool

def Route : Type := World -> Option Thrown × World

def Route.andThen (first second : Route) : Route := fun world =>
  match first world with
  | (none, after) => second after
  | (some thrown, after) => (some thrown, after)

instance : AndThen Route := ⟨fun first second => first.andThen (second ())⟩

/-- `try { body } catch (...) { handler; throw; }` -/
def guarded (body handler : Route) : Route := fun world =>
  match body world with
  | (none, after) => (none, after)
  | (some thrown, after) => (((handler after).1.getD thrown : Thrown), (handler after).2)

def call (throws : Bool) : Route := fun world => (if throws then some .failed else none, world)

/-- The operation itself, which may have had an effect when it throws. -/
def operate (throws : Bool) : Route := fun world =>
  (if throws then some .failed else none, { world with operated := true })

def World.assign (world : World) (slot : Slot) (reservation : Option (Option Nat)) : World :=
  { world with slots := Function.update world.slots slot reservation }

def World.reserve (world : World) : World := { world with ledger := world.ledger ++ [[.reserved]] }

/-- `slot = preflightGatewayBudget(…)` -/
def preflight (slot : Slot) (outcome : Preflight) : Route := fun world =>
  match outcome with
  | .skipped => (none, world.assign slot none)
  | .denied => (some .denied, world)
  | .failed => (some .failed, world)
  | .unnoticed => (some .failed, world.reserve)
  | .unpriced => (none, world.assign slot (some none))
  | .reserved => (none, world.reserve.assign slot (some (some world.ledger.length)))

def settle (status : Status) (slot : Slot) (throws : Bool) : Route := fun world =>
  match world.slots slot with
  | none | some none => (none, world)
  | some (some index) =>
    if throws then (some .failed, world)
    else (none, { world with
      ledger := world.ledger.modify index fun old => if old.head? = some .reserved then status :: old else old })

def commitGatewayBudget (slot : Slot) (throws : Bool) : Route := settle .committed slot throws

def releaseGatewayBudget (slot : Slot) (throws : Bool) : Route := settle .released slot throws

/-! ## The branches -/

inductive Operation
  | listBuckets
  | createBucket
  | headBucket
  | deleteBucket
  | listMultipartUploads
  | listObjects
  | deleteObjects
  | createMultipartUpload
  | uploadPart
  | completeMultipartUpload
  | abortMultipartUpload
  | listParts
  | headObject
  | getObject
  | copyObject
  | putObject
  | deleteObject
deriving DecidableEq

/-- Which calls throw, how the preflights end, and what the branches look at. -/
structure Course where
  /-- Whatever runs before the first preflight. -/
  checks : Bool
  /-- A HEAD among the checks adds the object rows that are missing. -/
  backfills : Bool
  operation : Bool
  /-- `estimatedCostForGatewayUsage` -/
  estimate : Bool
  /-- `recordGatewaySyncOrigin`, for one of the keys. -/
  record : Bool
  respond : Bool
  commit : Bool
  commitDest : Bool
  release : Bool
  releaseDest : Bool
  /-- The release of a reservation for a download that did not happen. -/
  releaseUnused : Bool
  first : Preflight
  /-- The preflight after the operation. -/
  second : Preflight
  /-- The object is remote and has no local file, by what is known before. -/
  expectRemote : Bool
  /-- The operation has used the provider. -/
  touchedUpstream : Bool
  notModified : Bool
deriving DecidableEq

section Branches

variable (course : Course)

def examine : Route := fun world =>
  (if course.checks then some .failed else none, { world with backfilled := course.backfills })

/-- The shape of most branches: the reservation is committed inside the `try` block. -/
def inside (body : Route) (after outside : Bool) : Route :=
  examine course >> preflight .budget course.first >>
    guarded (body >> commitGatewayBudget .budget course.commit >> call after)
      (releaseGatewayBudget .budget course.release) >>
    call outside

def deleteObjects : Route :=
  examine course >> preflight .budget course.first >>
    guarded (operate course.operation) (releaseGatewayBudget .budget course.release) >>
    call (course.record || course.respond) >> commitGatewayBudget .budget course.commit

/-- What a read or a copy does once its use of the provider is known. -/
def reconcile (again : Route) : Route := fun world =>
  if course.touchedUpstream then
    Route.andThen (call course.estimate)
      (if world.slots .budget = none then preflight .budget course.second else call false) world
  else if world.slots .budget ≠ none ∧ course.expectRemote then
    Route.andThen (releaseGatewayBudget .budget course.releaseUnused) again world
  else (none, world)

def getObject : Route :=
  examine course >>
    if course.notModified then call course.respond
    else
      preflight .budget course.first >>
        guarded (operate course.operation >> reconcile course (preflight .budget course.second))
          (releaseGatewayBudget .budget course.release) >>
        call course.respond >> commitGatewayBudget .budget course.commit

/-- The source is paid for when the object has to be downloaded, the destination otherwise. -/
def copyObject : Route :=
  examine course >>
    guarded
      (preflight (if course.expectRemote then .budget else .dest) course.first >>
        operate course.operation >>
        reconcile course (preflight .budget .skipped >> preflight .dest course.second) >>
        call course.record >> commitGatewayBudget .budget course.commit >>
        commitGatewayBudget .dest course.commitDest >> call course.respond)
      (releaseGatewayBudget .budget course.release >> releaseGatewayBudget .dest course.releaseDest)

def route : Operation -> Route
  | .listBuckets => call course.checks
  | .createBucket => operate course.checks >> call course.respond
  | .headBucket =>
    examine course >> preflight .budget course.first >> commitGatewayBudget .budget course.commit >>
      call course.respond
  | .deleteBucket | .uploadPart => inside course (operate course.operation) false course.respond
  | .listMultipartUploads | .listObjects | .listParts =>
    inside course (operate (course.operation || course.respond)) false false
  | .deleteObjects => deleteObjects course
  | .createMultipartUpload | .abortMultipartUpload =>
    inside course (operate course.operation) course.respond false
  | .completeMultipartUpload =>
    inside course (operate (course.operation || course.record)) course.respond false
  | .headObject =>
    if course.notModified then inside course (operate course.operation) course.respond false
    else inside course (operate (course.operation || course.respond)) false false
  | .getObject => getObject course
  | .copyObject => copyObject course
  | .putObject | .deleteObject =>
    inside course (operate (course.operation || course.record)) false course.respond

end Branches

/-! ## Which requests leave a reservation -/

section Settlement

variable (course : Course)

/-- Every reservation was committed or released, and none was both. -/
def World.settled (world : World) : Bool :=
  world.ledger.all fun statuses => statuses = [.committed, .reserved] || statuses = [.released, .reserved]

def start : World := ⟨[], fun _ => none, false, false⟩

def Preflight.holds : Preflight -> Bool
  | .reserved => true
  | _ => false

/-- The branch goes on after the preflight. -/
def Preflight.passes : Preflight -> Bool
  | .skipped | .unpriced | .reserved => true
  | _ => false

/-- The branch has a reservation to commit, with or without rows. -/
def Preflight.grants : Preflight -> Bool
  | .unpriced | .reserved => true
  | _ => false

def Preflight.denies : Preflight -> Bool
  | .denied => true
  | _ => false

/-- A preflight leaves a reservation behind: it throws after it has reserved, or what follows loses it. -/
def Preflight.leaks (lost : Bool) : Preflight -> Bool
  | .unnoticed => true
  | .reserved => lost
  | _ => false

def isDenial : Option Thrown -> Bool
  | some .denied => true
  | _ => false

namespace Course

def getLeaks : Bool :=
  let held := course.first.holds
  let unsent := course.respond || course.commit
  course.first.leaks false || (course.first.passes &&
    if course.operation then held && course.release
    else if course.touchedUpstream then
      if course.estimate then held && course.release
      else if course.first.grants then held && unsent
      else course.second.leaks unsent
    else if course.first.grants && course.expectRemote then
      if held && course.releaseUnused then course.release else course.second.leaks unsent
    else held && unsent)

/-- The handler of a copy, by which reservations are held: a throwing release of the first keeps the second from being
released. -/
def handlerLeaks (source dest : Bool) : Bool :=
  (source && course.release) || (dest && course.releaseDest)

def finishLeaks (source dest : Bool) : Bool :=
  if course.record || (source && course.commit) then course.handlerLeaks source dest
  else dest && course.commitDest && course.handlerLeaks source dest

def copyLeaks : Bool :=
  let source := course.expectRemote && course.first.holds
  let dest := !course.expectRemote && course.first.holds
  course.first.leaks false || (course.first.passes &&
    if course.operation then course.handlerLeaks source dest
    else if course.touchedUpstream then
      if course.estimate then course.handlerLeaks source dest
      else if course.expectRemote && course.first.grants then course.finishLeaks source dest
      else if course.second.passes then course.finishLeaks course.second.holds dest
      else course.second.leaks false || course.handlerLeaks false dest
    else if course.expectRemote && course.first.grants then
      if source && course.releaseUnused then course.release
      else course.second.leaks (course.finishLeaks false true)
    else course.finishLeaks false dest)

/-- A throwing call leaves a reservation that is neither committed nor released. -/
def leaks (operation : Operation) : Bool :=
  !course.checks && match operation with
  | .listBuckets | .createBucket => false
  | .headBucket => course.first.leaks course.commit
  | .deleteObjects =>
    course.first.leaks
      (if course.operation then course.release else course.record || course.respond || course.commit)
  | .getObject => !course.notModified && course.getLeaks
  | .copyObject => course.copyLeaks
  | .deleteBucket | .uploadPart | .createMultipartUpload | .abortMultipartUpload =>
    course.first.leaks ((course.operation || course.commit) && course.release)
  | .listMultipartUploads | .listObjects | .listParts =>
    course.first.leaks ((course.operation || course.respond || course.commit) && course.release)
  | .headObject =>
    course.first.leaks
      ((course.operation || (!course.notModified && course.respond) || course.commit) && course.release)
  | .completeMultipartUpload | .putObject | .deleteObject =>
    course.first.leaks ((course.operation || course.record || course.commit) && course.release)

/-- The copy is made, and the preflight that comes after it denies it. -/
def lateDenial : Bool :=
  let granted := course.expectRemote && course.first.grants
  !course.checks && course.first.passes && !course.operation &&
    (if course.touchedUpstream then
      !course.estimate && !granted && !(!course.expectRemote && course.first.holds && course.releaseDest)
    else granted && !(course.first.holds && course.releaseUnused)) && course.second.denies

end Course

/-- Whether the reservations are settled, the request is denied, rows were added and the operation was run. -/
def outcome (ended : Option Thrown × World) : Bool × Bool × Bool × Bool :=
  (ended.2.settled, isDenial ended.1, ended.2.backfilled, ended.2.operated)

theorem outcome_inside (throws after outside : Bool) :
    outcome (inside course (operate throws) after outside start) =
      (!(!course.checks && course.first.leaks ((throws || course.commit) && course.release)),
        !course.checks && course.first.denies, course.backfills, !course.checks && course.first.passes) := by
  rcases course with ⟨checks, _, _, _, _, _, commit, _, release, _, _, first, _, _, _, _⟩
  cases checks with
  | true => rfl
  | false =>
    cases first with
    | denied | failed | unnoticed => rfl
    | skipped | unpriced => cases throws <;> cases after <;> cases outside <;> rfl
    | reserved => cases throws <;> cases commit <;> cases release <;> cases after <;> cases outside <;> rfl

theorem settled_deleteObjects : (deleteObjects course start).2.settled = !course.leaks .deleteObjects := by
  rcases course with ⟨checks, _, operation, _, record, respond, commit, _, release, _, _, first, _, _, _, _⟩
  cases checks with
  | true => rfl
  | false =>
    cases first with
    | denied | failed | unnoticed => rfl
    | skipped | unpriced => cases operation <;> cases record <;> cases respond <;> rfl
    | reserved => cases operation <;> cases release <;> cases record <;> cases respond <;> cases commit <;> rfl

theorem settled_getObject : (getObject course start).2.settled = !course.leaks .getObject := by
  rcases course with ⟨checks, _, operation, estimate, _, respond, commit, _, release, _, releaseUnused, first, second,
    expectRemote, touchedUpstream, notModified⟩
  cases checks with
  | true => rfl
  | false =>
    cases notModified with
    | true => cases respond <;> rfl
    | false =>
      cases first with
      | denied | failed | unnoticed => rfl
      | skipped | unpriced =>
        cases operation with
        | true => rfl
        | false =>
          cases touchedUpstream <;> cases estimate <;> cases expectRemote <;> cases second <;> cases respond <;>
            cases commit <;> rfl
      | reserved =>
        cases operation with
        | true => cases release <;> rfl
        | false =>
          cases touchedUpstream with
          | true => cases estimate <;> cases release <;> cases respond <;> cases commit <;> rfl
          | false =>
            cases expectRemote with
            | false => cases respond <;> cases commit <;> rfl
            | true =>
              cases releaseUnused <;> cases second <;> cases release <;> cases respond <;> cases commit <;> rfl

/-- What a copy comes to. -/
def Course.copyOutcome : Bool × Bool × Bool × Bool :=
  (!course.leaks .copyObject, (!course.checks && course.first.denies) || course.lateDenial, course.backfills,
    !course.checks && course.first.passes)

/-- A copy whose checks or first preflight throw runs no operation. -/
theorem outcome_copyObject_refused (early : course.checks = true ∨ course.first.passes = false) :
    outcome (copyObject course start) = course.copyOutcome := by
  rcases course with ⟨checks, _, _, _, _, _, _, _, _, _, _, first, _, expectRemote, _, _⟩
  cases checks with
  | true => rfl
  | false =>
    have refused : first.passes = false := early.resolve_left nofun
    cases first with
    | denied | failed | unnoticed => cases expectRemote <;> rfl
    | skipped | unpriced | reserved => cases refused

/-- A copy that holds no reservation when its operation runs can only take one afterwards. -/
theorem outcome_copyObject_unreserved (checked : course.checks = false)
    (free : course.first = .skipped ∨ course.first = .unpriced) :
    outcome (copyObject course start) = course.copyOutcome := by
  rcases course with ⟨checks, _, operation, estimate, record, respond, commit, commitDest, release, releaseDest,
    releaseUnused, first, second, expectRemote, touchedUpstream, _⟩
  cases checked
  rcases free with ⟨⟨⟩⟩ | ⟨⟨⟩⟩
  all_goals
    cases operation with
    | true => cases expectRemote <;> rfl
    | false =>
      cases touchedUpstream with
      | false =>
        cases expectRemote with
        | false => cases record <;> cases respond <;> rfl
        | true =>
          cases second with
          | reserved => cases record <;> cases commitDest <;> cases releaseDest <;> cases respond <;> rfl
          | denied | failed | unnoticed | skipped | unpriced => cases record <;> cases respond <;> rfl
      | true =>
        cases estimate with
        | true => cases expectRemote <;> rfl
        | false =>
          cases second with
          | reserved =>
            cases expectRemote <;> cases record <;> cases commit <;> cases release <;> cases respond <;> rfl
          | denied | failed | unnoticed | skipped | unpriced =>
            cases expectRemote <;> cases record <;> cases respond <;> rfl

/-- A copy that has paid for its destination keeps that reservation, and pays for a download it did not expect. -/
theorem outcome_copyObject_dest (checked : course.checks = false) (held : course.first = .reserved)
    (expected : course.expectRemote = false) :
    outcome (copyObject course start) = course.copyOutcome := by
  rcases course with ⟨checks, _, operation, estimate, record, respond, commit, commitDest, release, releaseDest,
    releaseUnused, first, second, expectRemote, touchedUpstream, _⟩
  cases checked
  cases held
  cases expected
  cases operation with
  | true => cases release <;> cases releaseDest <;> rfl
  | false =>
    cases touchedUpstream with
    | false => cases record <;> cases commitDest <;> cases releaseDest <;> cases respond <;> rfl
    | true =>
      cases estimate with
      | true => cases releaseDest <;> rfl
      | false =>
        cases second with
        | denied | failed | unnoticed => cases releaseDest <;> rfl
        | skipped | unpriced => cases record <;> cases commitDest <;> cases releaseDest <;> cases respond <;> rfl
        | reserved =>
          cases record <;> cases commit <;> cases commitDest <;> cases release <;> cases releaseDest <;>
            cases respond <;> rfl

/-- A copy that has paid for a download gives that reservation back when there was none, and pays for its destination. -/
theorem outcome_copyObject_source (checked : course.checks = false) (held : course.first = .reserved)
    (expected : course.expectRemote = true) :
    outcome (copyObject course start) = course.copyOutcome := by
  rcases course with ⟨checks, _, operation, estimate, record, respond, commit, commitDest, release, releaseDest,
    releaseUnused, first, second, expectRemote, touchedUpstream, _⟩
  cases checked
  cases held
  cases expected
  cases operation with
  | true => cases release <;> cases releaseDest <;> rfl
  | false =>
    cases touchedUpstream with
    | true => cases estimate <;> cases record <;> cases commit <;> cases release <;> cases respond <;> rfl
    | false =>
      cases releaseUnused with
      | true => cases release <;> rfl
      | false =>
        cases second with
        | denied | failed | unnoticed => rfl
        | skipped | unpriced => cases record <;> cases respond <;> rfl
        | reserved => cases record <;> cases commitDest <;> cases releaseDest <;> cases respond <;> rfl

theorem outcome_copyObject :
    outcome (copyObject course start) =
      (!course.leaks .copyObject, (!course.checks && course.first.denies) || course.lateDenial, course.backfills,
        !course.checks && course.first.passes) := by
  obtain ⟨checks, isChecked⟩ : Exists fun checks => course.checks = checks := ⟨_, rfl⟩
  obtain ⟨first, isFirst⟩ : Exists fun first => course.first = first := ⟨_, rfl⟩
  obtain ⟨expectRemote, isExpected⟩ : Exists fun expectRemote => course.expectRemote = expectRemote := ⟨_, rfl⟩
  cases checks with
  | true => exact outcome_copyObject_refused course (.inl isChecked)
  | false =>
    cases first with
    | denied | failed | unnoticed => exact outcome_copyObject_refused course (.inr (by rw [isFirst]; rfl))
    | skipped => exact outcome_copyObject_unreserved course isChecked (.inl isFirst)
    | unpriced => exact outcome_copyObject_unreserved course isChecked (.inr isFirst)
    | reserved =>
      cases expectRemote with
      | false => exact outcome_copyObject_dest course isChecked isFirst isExpected
      | true => exact outcome_copyObject_source course isChecked isFirst isExpected

theorem settled_createBucket : (route course .createBucket start).2.settled = true := by
  rcases course with ⟨checks, _, _, _, _, respond, _, _, _, _, _, _, _, _, _, _⟩
  cases checks <;> cases respond <;> rfl

theorem settled_headBucket : (route course .headBucket start).2.settled = !course.leaks .headBucket := by
  rcases course with ⟨checks, _, _, _, _, respond, commit, _, _, _, _, first, _, _, _, _⟩
  cases checks with
  | true => rfl
  | false => cases first <;> cases commit <;> cases respond <;> rfl

/-- Every call returns and every preflight reserves. -/
def smooth : Course :=
  ⟨false, false, false, false, false, false, false, false, false, false, false, .reserved, .reserved, false, false,
    false⟩

section Denied

variable {Store : Type} (backfill effect : Store -> Store) (store : Store)

/-- What the store is after the request: rows are added and the operation has its effect if they were. -/
def World.storeAfter (world : World) : Store :=
  let examined := if world.backfilled then backfill store else store
  if world.operated then effect examined else examined

/-- The requests that the statement below is about. -/
def Operation.writes : Operation -> Bool
  | .putObject | .copyObject | .deleteObject | .completeMultipartUpload => true
  | _ => false

variable {backfill effect store}

theorem denied_keeps_iff {ended : Option Thrown × World} {settled denied backfilled operated : Bool}
    (isOutcome : outcome ended = (settled, denied, backfilled, operated)) :
    (ended.1 = some .denied -> ended.2.storeAfter backfill effect store = store) ↔
      (denied = true -> World.storeAfter backfill effect store ⟨[], fun _ => none, backfilled, operated⟩ = store) := by
  simp only [outcome, Prod.mk.injEq] at isOutcome
  rcases isOutcome with ⟨_, rfl, rfl, rfl⟩
  have isDenied : isDenial ended.1 = true ↔ ended.1 = some .denied := by
    rcases ended with ⟨_ | _ | _, _⟩ <;> simp [isDenial]
  rw [isDenied]
  rfl

theorem Preflight.not_passes_of_denies {outcome : Preflight} (denies : outcome.denies = true) :
    outcome.passes = false := by
  cases outcome with
  | denied => rfl
  | skipped | failed | unnoticed | unpriced | reserved => cases denies

/-- The store after the checks. -/
def Course.examined (backfill : Store -> Store) (store : Store) : Store :=
  if course.backfills then backfill store else store

/-- A denied request changes nothing, unless its checks add rows or it is a copy that is denied after it was made. -/
theorem denied_request_changes_nothing_iff (operation : Operation) (writes : operation.writes = true) :
    ((route course operation start).1 = some .denied ->
        (route course operation start).2.storeAfter backfill effect store = store) ↔
      ((course.checks = false ∧ course.first.denies = true) -> course.examined backfill store = store) ∧
        ((operation = .copyObject ∧ course.lateDenial = true) ->
          effect (course.examined backfill store) = store) := by
  have early : course.first.denies = true -> course.first.passes = false := Preflight.not_passes_of_denies
  cases operation with
  | putObject | deleteObject | completeMultipartUpload =>
    refine (denied_keeps_iff (outcome_inside course _ _ _)).trans ?_
    simp only [World.storeAfter, Course.examined, Bool.and_eq_true, Bool.not_eq_true']
    grind
  | copyObject =>
    refine (denied_keeps_iff (outcome_copyObject course)).trans ?_
    have late : course.lateDenial = true -> course.checks = false ∧ course.first.passes = true := by
      intro isLate
      simp only [Course.lateDenial, Bool.and_eq_true, Bool.not_eq_true'] at isLate
      exact isLate.1.1.1
    simp only [World.storeAfter, Course.examined, Bool.and_eq_true, Bool.or_eq_true, Bool.not_eq_true']
    grind
  | _ => cases writes

end Denied

/-- A copy of a remote object that is held locally is made without a reservation; it downloads all the same, and the
preflight for the download denies it. -/
theorem copy_made_and_denied :
    (route { smooth with first := .skipped, second := .denied, touchedUpstream := true } .copyObject start).1 =
        some .denied ∧
      (route { smooth with first := .skipped, second := .denied, touchedUpstream := true } .copyObject
        start).2.storeAfter id Nat.succ 0 ≠ 0 :=
  ⟨rfl, Nat.succ_ne_zero 0⟩

/-- A copy is denied before it is made, and a HEAD has added no row. -/
theorem denied_copy_changes_nothing :
    (route { smooth with first := .denied, backfills := true } .copyObject start).1 = some .denied ∧
      (route { smooth with first := .denied, backfills := true } .copyObject start).2.storeAfter id Nat.succ 0 =
        0 := by
  refine ⟨rfl, (denied_request_changes_nothing_iff _ .copyObject rfl).mpr ⟨fun _ => rfl, ?_⟩ rfl⟩
  rintro ⟨_, isLate⟩
  cases isLate

end Settlement

end RequestBudget
end S3Gateway
end Vaulthalla
