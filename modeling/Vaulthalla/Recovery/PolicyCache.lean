import Vaulthalla.Foundation.Pool
import Vaulthalla.Foundation.Transition

namespace Vaulthalla
namespace Recovery
namespace PolicyCache

open Foundation Transition List

/-!
# The cached versioning policy

A call takes the policy of a vault from the cache, or reads its row and caches
it unless some policy was invalidated meanwhile.  `mayHaveBacklog` remembers
that a vault has no pending version, since none is to appear while versioning
is off.  But a capture that has found it on may commit one later.

The entries of one vault are modelled: those of the others share the epoch with
them, and nothing else.
-/

/-- Of a policy only `enabled` matters here; `seen` is the epoch in which its row was read. -/
structure CachedPolicy where
  enabled : Bool
  (loaded seen : Nat)

/-- In seconds.  A cached policy is used for a minute at most. -/
def policyTtl : Nat := 60

/-- `versioningPolicy` is called on its own, by `mayHaveBacklog` or by a capture. -/
inductive Purpose
  | policy | backlog | capture

/-- Where a call is, with what it holds: the epoch that it has seen under the lock, and
what its query has answered. -/
inductive Point
  | looking
  | reading (epoch : Nat)
  | storing (epoch : Nat) (enabled : Bool) (seen : Nat)
  | asking
  | querying (epoch : Nat)
  | remembering (epoch : Nat) (any : Bool)
  | capturing
deriving DecidableEq

structure Call where
  purpose : Purpose
  now : Nat
  /-- The epoch that the last invalidation before the call began. -/
  after : Nat
  point : Point

/-- What the last step has answered. -/
inductive Answer
  | policy (enabled : Bool) (after seen : Nat)
  | backlog (any : Bool)

/-- The rows of one vault and what the service remembers of them. -/
structure State where
  /-- The row of the policy. -/
  enabled : Bool
  /-- How many versions are pending upstream. -/
  pending : Nat
  policyCache : Option CachedPolicy
  policyEpoch : Nat
  noBacklog : Bool
  /-- The epoch that the last invalidation of this vault began. -/
  invalidated : Nat
  calls : List Call
  answer : Option Answer

inductive Label
  | start (purpose : Purpose) (now : Nat)
  /-- The next step of a call; a capture commits a version that is pending upstream, or another one or none. -/
  | advance (index : Nat) (pending : Bool)
  | updatePolicy (enabled : Bool)
  /-- `invalidatePolicy` is called for this vault or for another one. -/
  | invalidatePolicy (own : Bool)
  /-- A pending version was sent or skipped. -/
  | settle

/-- What follows once the policy is known; `mayHaveBacklog` answers true when versioning is on. -/
def Purpose.next : Purpose -> Bool -> Option Point
  | .backlog, false => some .asking
  | .capture, true => some .capturing
  | _, _ => none

/-- A call moves on or ends, with an answer or without. -/
def State.reply (state : State) (index : Nat) (call : Call) (point : Option Point) (answer : Option Answer) : State :=
  { state with calls := Pool.move state.calls index (point.map fun point => { call with point }), answer }

/-- Each query is a step of its own, outside the lock, and what it has answered is stored
under the lock only if the epoch is still the same. -/
def State.advance (state : State) (index : Nat) (call : Call) (pending : Bool) : State :=
  match call.point with
  | .looking =>
    match state.policyCache.filter fun cached => call.now < cached.loaded + policyTtl with
    | some cached =>
      state.reply index call (call.purpose.next cached.enabled) (some (.policy cached.enabled call.after cached.seen))
    | none => state.reply index call (some (.reading state.policyEpoch)) none
  | .reading epoch => state.reply index call (some (.storing epoch state.enabled state.policyEpoch)) none
  | .storing epoch enabled seen =>
    (if epoch = state.policyEpoch then { state with policyCache := some ⟨enabled, call.now, seen⟩ } else state).reply
      index call (call.purpose.next enabled) (some (.policy enabled call.after seen))
  | .asking =>
    if state.noBacklog then state.reply index call none (some (.backlog false))
    else state.reply index call (some (.querying state.policyEpoch)) none
  | .querying epoch => state.reply index call (some (.remembering epoch (state.pending != 0))) none
  | .remembering epoch any =>
    (if any = false ∧ epoch = state.policyEpoch then { state with noBacklog := true } else state).reply index call none
      (some (.backlog any))
  | .capturing =>
    { state with pending := if pending then state.pending + 1 else state.pending }.reply index call none none

/-- Every invalidation begins an epoch, and one for this vault also forgets its entries. -/
def step (state : State) : Label -> Option State
  | .start purpose now =>
    some { state with calls := state.calls ++ [⟨purpose, now, state.invalidated, .looking⟩], answer := none }
  | .advance index pending => state.calls[index]?.map fun call => state.advance index call pending
  | .updatePolicy enabled => some { state with enabled, answer := none }
  | .invalidatePolicy false => some { state with policyEpoch := state.policyEpoch + 1, answer := none }
  | .invalidatePolicy true =>
    some
      { state with
        policyCache := none
        noBacklog := false
        policyEpoch := state.policyEpoch + 1
        invalidated := state.policyEpoch + 1
        answer := none }
  | .settle => some { state with pending := state.pending - 1, answer := none }

def start (enabled : Bool) (pending : Nat) : State where
  enabled := enabled
  pending := pending
  policyCache := none
  policyEpoch := 0
  noBacklog := false
  invalidated := 0
  calls := []
  answer := none

/-- A policy that is answered was read after the last invalidation before the call, and a backlog is denied only when
there is none or a capture is in flight. -/
def State.Right (state : State) : Prop :=
  (forall enabled after seen, state.answer = some (.policy enabled after seen) -> after ≤ seen) ∧
    (state.answer = some (.backlog false) -> (forall call, call ∈ state.calls -> call.point ≠ .capturing) ->
      state.pending = 0)

/-- The call has found no pending version and is about to say so. -/
def Point.denies : Point -> Bool
  | .remembering _ any => !any
  | _ => false

/-- No version becomes pending while the vault is remembered as one without, or is about to be. -/
def Timely (state : State) : Label -> Prop
  | .advance index true => state.calls[index]?.map Call.point = some .capturing ->
      state.noBacklog = false ∧ forall other, other ∈ state.calls -> other.point.denies = false
  | _ => True

instance (state : State) : (label : Label) -> Decidable (Timely state label)
  | .advance _ true => inferInstanceAs (Decidable (_ -> _ ∧ _))
  | .advance _ false | .start _ _ | .updatePolicy _ | .invalidatePolicy _ | .settle => .isTrue trivial

/-! ## Freshness -/

/-- What a call holds.  Its epoch is not ahead, a policy it has read is as recent as its
caller may ask, and while it is about to deny a backlog there is none. -/
structure Call.Sound (invalidated policyEpoch pending : Nat) (call : Call) : Prop where
  after : call.after ≤ invalidated
  reading : forall epoch, call.point = .reading epoch -> epoch ≤ policyEpoch
  storing : forall epoch enabled seen, call.point = .storing epoch enabled seen -> epoch ≤ seen ∧ call.after ≤ seen
  denies : call.point.denies -> pending = 0

/-- The cached policy was read after the last invalidation, and the remembered absence of
a backlog is true. -/
structure Sound (state : State) : Prop where
  invalidated : state.invalidated ≤ state.policyEpoch
  cache : forall cached, state.policyCache = some cached -> state.invalidated ≤ cached.seen
  noBacklog : state.noBacklog -> state.pending = 0
  calls : forall call, call ∈ state.calls -> call.Sound state.invalidated state.policyEpoch state.pending

variable {state final : State} {call : Call} {index : Nat}

/-- Once the policy is known a call holds neither an epoch nor an answer. -/
theorem Call.Sound.next {invalidated policyEpoch pending : Nat} {enabled : Bool}
    (isSound : call.Sound invalidated policyEpoch pending) (point : Point)
    (isNext : call.purpose.next enabled = some point) :
    ({ call with point } : Call).Sound invalidated policyEpoch pending := by
  unfold Purpose.next at isNext
  split at isNext <;> cases isNext <;> exact ⟨isSound.after, nofun, nofun, nofun⟩

/-- The rule for every step of a call: what it holds afterwards, and what it answers, are right. -/
theorem Sound.reply (sound : Sound state) {point : Option Point} {answer : Option Answer}
    (moved : forall next, point = some next ->
      ({ call with point := next } : Call).Sound state.invalidated state.policyEpoch state.pending)
    (fresh : forall enabled after seen, answer = some (.policy enabled after seen) -> after ≤ seen)
    (denies : answer = some (.backlog false) -> state.pending = 0) :
    Sound (state.reply index call point answer) ∧ (state.reply index call point answer).Right := by
  refine ⟨{ sound with calls := Pool.forall_move sound.calls fun after isAfter => ?_ }, fresh,
    fun isAnswer _ => denies isAnswer⟩
  rcases Option.map_eq_some_iff.mp isAfter with ⟨point, isPoint, rfl⟩
  exact moved point isPoint

/-- A policy is stored only in the epoch in which it was read, and an invalidation begins
another.  The commit of a capture is the step that `Timely` is needed for. -/
theorem Sound.advance (sound : Sound state) {pending : Bool} (isCall : state.calls[index]? = some call)
    (timely : Timely state (.advance index pending)) :
    Sound (state.advance index call pending) ∧ (state.advance index call pending).Right := by
  have isSound := sound.calls call (mem_of_getElem? isCall)
  unfold State.advance
  split
  case h_1 =>
    split
    case h_1 cached found =>
      refine sound.reply isSound.next ?_ nofun
      rintro _ _ _ ⟨⟩
      exact isSound.after.trans (sound.cache cached (Option.filter_eq_some_iff.mp found).1)
    case h_2 =>
      refine sound.reply ?_ nofun nofun
      rintro _ ⟨⟩
      exact ⟨isSound.after, fun _ isPoint => by cases isPoint; exact Nat.le_refl _, nofun, nofun⟩
  case h_2 epoch isPoint =>
    refine sound.reply ?_ nofun nofun
    rintro _ ⟨⟩
    refine ⟨isSound.after, nofun, ?_, nofun⟩
    rintro _ _ _ ⟨⟩
    exact ⟨isSound.reading epoch isPoint, isSound.after.trans sound.invalidated⟩
  case h_3 epoch enabled seen isPoint =>
    rcases isSound.storing epoch enabled seen isPoint with ⟨isLater, isAfter⟩
    have fresh answered after read
        (isAnswer : some (Answer.policy enabled call.after seen) = some (.policy answered after read)) :
        after ≤ read := by
      cases isAnswer
      exact isAfter
    split
    case isTrue isLast =>
      have stored : Sound { state with policyCache := some ⟨enabled, call.now, seen⟩ } := by
        refine { sound with cache := ?_ }
        rintro _ ⟨⟩
        exact sound.invalidated.trans (isLast ▸ isLater)
      exact stored.reply isSound.next fresh nofun
    case isFalse => exact sound.reply isSound.next fresh nofun
  case h_4 =>
    split
    case isTrue isRemembered => exact sound.reply nofun nofun fun _ => sound.noBacklog isRemembered
    case isFalse =>
      refine sound.reply ?_ nofun nofun
      rintro _ ⟨⟩
      exact ⟨isSound.after, nofun, nofun, nofun⟩
  case h_5 =>
    refine sound.reply ?_ nofun nofun
    rintro _ ⟨⟩
    exact ⟨isSound.after, nofun, nofun, fun denies => by simpa [Point.denies] using denies⟩
  case h_6 epoch any isPoint =>
    have denies (isAny : any = false) : state.pending = 0 := isSound.denies (by rw [isPoint, isAny]; rfl)
    split
    case isTrue isLast =>
      have remembered : Sound { state with noBacklog := true } := { sound with noBacklog := fun _ => denies isLast.1 }
      exact remembered.reply nofun nofun fun _ => denies isLast.1
    case isFalse => exact sound.reply nofun nofun fun isAnswer => denies (by cases isAnswer; rfl)
  case h_7 isPoint =>
    cases pending with
    | false => exact sound.reply nofun nofun nofun
    | true =>
      rcases timely (by rw [isCall, Option.map_some, isPoint]) with ⟨isForgotten, noneDenies⟩
      have committed : Sound { state with pending := state.pending + 1 } :=
        { sound with
          noBacklog := fun isRemembered => by cases isForgotten.symm.trans isRemembered
          calls := fun other inside =>
            { sound.calls other inside with
              denies := fun denies => by cases (noneDenies other inside).symm.trans denies } }
      exact committed.reply nofun nofun nofun

theorem Sound.step (sound : Sound state) {label : Label} (timely : Timely state label)
    (taken : step state label = some final) : Sound final ∧ final.Right := by
  have later epoch (isOld : epoch ≤ state.policyEpoch) : epoch ≤ state.policyEpoch + 1 := Nat.le_succ_of_le isOld
  cases label with
  | start purpose now =>
    cases taken
    exact ⟨{ sound with calls := Pool.forall_append sound.calls ⟨Nat.le_refl _, nofun, nofun, nofun⟩ }, nofun, nofun⟩
  | advance index pending =>
    rcases Option.map_eq_some_iff.mp taken with ⟨call, isCall, rfl⟩
    exact sound.advance isCall timely
  | updatePolicy enabled =>
    cases taken
    exact ⟨{ sound with }, nofun, nofun⟩
  | invalidatePolicy own =>
    cases own with
    | false =>
      cases taken
      refine ⟨{ sound with invalidated := later _ sound.invalidated, calls := fun call inside => ?_ }, nofun, nofun⟩
      have isSound := sound.calls call inside
      exact { isSound with reading := fun epoch isPoint => later epoch (isSound.reading epoch isPoint) }
    | true =>
      cases taken
      refine ⟨⟨Nat.le_refl _, nofun, nofun, fun call inside => ?_⟩, nofun, nofun⟩
      have isSound := sound.calls call inside
      exact ⟨later _ (isSound.after.trans sound.invalidated),
        fun epoch isPoint => later epoch (isSound.reading epoch isPoint), isSound.storing, isSound.denies⟩
  | settle =>
    cases taken
    have stays (isZero : state.pending = 0) : state.pending - 1 = 0 := by rw [isZero]
    refine ⟨{ sound with noBacklog := stays ∘ sound.noBacklog, calls := fun call inside => ?_ }, nofun, nofun⟩
    exact { sound.calls call inside with denies := stays ∘ (sound.calls call inside).denies }

/-- Every policy that is answered is fresh and no backlog is denied wrongly, in every run in which no version becomes
pending while the vault is remembered as one without, or is about to be. -/
theorem policies_fresh_and_backlog_known {enabled : Bool} {pending : Nat} {labels : List Label}
    (reached : run step (start enabled pending) labels = some final)
    (timely : Along step Timely (start enabled pending) labels) : final.Right := by
  have holds : Sound final ∧ final.Right :=
    run_induction (fun _ _ _ timely taken holds => Sound.step holds.1 timely taken) reached timely
      ⟨⟨Nat.le_refl 0, nofun, nofun, nofun⟩, nofun, nofun⟩
  exact holds.2

/-- A capture and a call of `mayHaveBacklog` run side by side while versioning is turned off; the capture commits a
pending version, which is sent, and both this call and a second one find no backlog. -/
def timelyCapture : List Label :=
  [.start .capture 0, .start .backlog 0, .advance 0 false, .advance 1 false, .advance 0 false, .updatePolicy false,
    .advance 1 false, .advance 0 false, .invalidatePolicy true, .advance 0 true, .advance 0 false, .advance 0 false,
    .settle, .start .backlog 1] ++ replicate 2 (.advance 0 false) ++ [.invalidatePolicy false] ++
    replicate 4 (.advance 0 false)

theorem policies_fresh_and_backlog_known_captured :
    Exists fun final => run step (start true 0) timelyCapture = some final ∧ final.answer = some (.backlog false) ∧
      final.Right := by
  have timely : Along step Timely (start true 0) timelyCapture := by decide
  exact ⟨_, rfl, rfl, policies_fresh_and_backlog_known rfl timely⟩

/-- A capture finds versioning on; it is turned off and the policy invalidated; a call of `mayHaveBacklog` remembers
that nothing is pending; the capture commits a pending version; and the next call denies the backlog. -/
theorem backlog_denied_after_capture :
    Exists fun final =>
      run step (start true 0)
        (.start .capture 0 :: replicate 3 (.advance 0 false) ++
          [.updatePolicy false, .invalidatePolicy true, .start .backlog 0] ++ replicate 6 (.advance 1 false) ++
          [.advance 0 true, .start .backlog 0, .advance 0 false, .advance 0 false]) = some final ∧
        Not final.Right :=
  ⟨_, rfl, fun isRight => absurd (isRight.2 rfl nofun) (by decide)⟩

end PolicyCache
end Recovery
end Vaulthalla
