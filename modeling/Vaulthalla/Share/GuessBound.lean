import Vaulthalla.Share.EmailChallenge

namespace Vaulthalla
namespace Share
namespace EmailChallenge

open Foundation
open Transition (run Along run_induction run_invariant guarded unguarded)
open Pool (total total_set)
open Control (comparedCount loaded)

/-!
# The bound on guesses

A call that reads an open challenge takes one of the attempts that are left,
although the challenge does not say so until the call has counted.  The bound
holds in every run in which a call reads the challenge only while the attempts
counted and the calls under way together leave one.
-/

/-! ## Calls under way -/

/-- The challenge as the call read it admits another attempt, unless it expires first. -/
def Control.mayCompare : Control -> Nat
  | .loaded _ seen => (seen.consumedAt.isNone && decide (seen.attempts < seen.maxAttempts)).toNat
  | _ => 0

/-- The call has compared, and has neither counted nor consumed yet. -/
def Control.owes : Control -> Nat
  | .mismatched => 1
  | .matched => 1
  | _ => 0

/-- The calls that may still compare, or have compared and not settled it. -/
def underWay (system : System) : Nat :=
  total Control.mayCompare system.calls + total Control.owes system.calls

/-- A call reads an open challenge only while an attempt is left beside those under way. -/
def LeavesAttempt (system : System) : Label -> Prop
  | .load _ =>
    system.challenge.canAttempt system.now = true ->
      system.challenge.attempts + underWay system < system.challenge.maxAttempts
  | _ => True

instance (system : System) : (label : Label) -> Decidable (LeavesAttempt system label)
  | .load _ => inferInstanceAs (Decidable (_ -> _))
  | .call _ _ => inferInstanceAs (Decidable True)
  | .tick _ => inferInstanceAs (Decidable True)

/-! ## What a step does -/

/-- A step of one call: the position it had, the row and the position after, and whether it verifies a session. -/
inductive CallMove (challenge : Challenge) (now : Int) : Control -> Challenge -> Control -> Bool -> Prop
  | refused (code : Str) (seen : Challenge) : CallMove challenge now (.loaded code seen) challenge (.finished false) false
  | compared (code : Str) (seen : Challenge) (result : Control) (attemptable : seen.canAttempt now = true)
      (settles : result = .matched ∨ result = .mismatched) :
      CallMove challenge now (.loaded code seen) challenge result false
  | counted (counts : challenge.attempts < challenge.maxAttempts) (free : challenge.consumedAt = none)
      (inTime : now < challenge.expiresAt) :
      CallMove challenge now .mismatched { challenge with attempts := challenge.attempts + 1 } (.finished true) false
  | consumed (free : challenge.consumedAt = none) (inTime : now < challenge.expiresAt) :
      CallMove challenge now .matched { challenge with consumedAt := some now } .consumed false
  | unsettled (control : Control)
      (late : control = .matched ∧ ¬ (challenge.consumedAt = none ∧ now < challenge.expiresAt) ∨
        control = .mismatched ∧
          ¬ (challenge.attempts < challenge.maxAttempts ∧ challenge.consumedAt = none ∧ now < challenge.expiresAt)) :
      CallMove challenge now control challenge (.finished true) false
  | verified (found : Bool) : CallMove challenge now .consumed challenge (.finished true) found

variable {challenge seen after : Challenge} {control result : Control} {hashCode : Str -> Str} {now : Int}
  {system : System} {code : Str} {verifies : Bool}

theorem callMove_of_callStep {event : Event} {moved : Moved}
    (taken : callStep hashCode challenge now control event = some moved) :
    CallMove challenge now control moved.challenge moved.control moved.verifies := by
  unfold callStep at taken
  split at taken
  · cases taken
    exact .refused _ _
  · rename_i code seen
    split at taken
    · rename_i attemptable
      split at taken
      · cases taken
        exact .compared code seen _ attemptable (.inl rfl)
      · cases taken
        exact .compared code seen _ attemptable (.inr rfl)
    · cases taken
      exact .refused _ _
  · cases taken
    unfold recordAttempt
    split
    · rename_i counts
      exact .counted counts.1 counts.2.1 counts.2.2
    · rename_i late
      exact .unsettled _ (.inr ⟨rfl, late⟩)
  · unfold consume at taken
    split at taken
    · rename_i refusal
      split at refusal
      · simp at refusal
      rename_i late
      cases taken
      exact .unsettled _ (.inl ⟨rfl, late⟩)
    · rename_i consumption
      rcases guarded consumption with ⟨free, rfl⟩
      cases taken
      exact .consumed free.1 free.2
  · cases taken
    exact .verified _
  · simp at taken

/-! ## The invariant -/

/-- The bound on the comparisons made, those that calls under way may still make, and those not settled. -/
structure Counts (challenge : Challenge) (now : Int) (compared mayCompare owes : Nat) : Prop where
  bound : compared ≤ challenge.maxAttempts
  ahead : now < challenge.expiresAt -> compared + mayCompare ≤ challenge.maxAttempts
  owed : challenge.consumedAt = none -> now < challenge.expiresAt -> compared ≤ challenge.attempts + owes
  reserved : challenge.consumedAt = none -> now < challenge.expiresAt ->
    challenge.attempts + (mayCompare + owes) ≤ challenge.maxAttempts

/-- What every state of such a run satisfies. -/
structure Bounded (system : System) : Prop where
  counts : Counts system.challenge system.now (comparisons system) (total Control.mayCompare system.calls)
    (total Control.owes system.calls)
  early : system.challenge.consumedAt ≠ none -> system.challenge.attempts < system.challenge.maxAttempts
  consumedCall : .consumed ∈ system.calls -> system.challenge.consumedAt ≠ none
  verified : 0 < system.verified -> system.challenge.consumedAt ≠ none
  sameExpiry : forall code seen, .loaded code seen ∈ system.calls -> seen.expiresAt = system.challenge.expiresAt

theorem bounded_initial (initial : Initial system) : Bounded system := by
  have noCalls : system.calls = [] := initial.calls
  constructor
  · constructor
    · simp [comparisons, noCalls]
    · simp [comparisons, noCalls]
    · simp [comparisons, noCalls]
    · intro _ _
      simpa [noCalls] using initial.attempts
  · intro consumed
    exact absurd initial.consumedAt consumed
  · simp [noCalls]
  · rw [initial.verified]
    exact fun impossible => absurd impossible (Nat.lt_irrefl 0)
  · simp [noCalls]

theorem canAttempt_iff (challenge : Challenge) (now : Int) :
    challenge.canAttempt now ↔
      challenge.consumedAt = none ∧ now < challenge.expiresAt ∧ challenge.attempts < challenge.maxAttempts := by
  simp [Challenge.canAttempt, Challenge.isExpired, and_assoc]

/-- The challenge that a call read admits another attempt. -/
theorem mayCompare_of_canAttempt (attemptable : seen.canAttempt now) : (loaded code seen).mayCompare = 1 := by
  rcases (canAttempt_iff seen now).mp attemptable with ⟨free, _, left⟩
  simp [Control.mayCompare, free, left]

theorem mayCompare_of_closed (inTime : now < seen.expiresAt) (closed : ¬ seen.canAttempt now) :
    (loaded code seen).mayCompare = 0 := by
  rw [canAttempt_iff] at closed
  cases free : seen.consumedAt with
  | none =>
    have exhausted : ¬ seen.attempts < seen.maxAttempts := fun left => closed ⟨free, inTime, left⟩
    simp [Control.mayCompare, free, exhausted]
  | some time => simp [Control.mayCompare, free]

/-- A step of one call keeps the bound, from the change of the three totals that it makes. -/
theorem counts_call {compared mayCompare owes comparedAfter mayCompareAfter owesAfter : Nat}
    (move : CallMove challenge now control after result verifies)
    (sameExpiry : forall code seen, control = .loaded code seen -> seen.expiresAt = challenge.expiresAt)
    (counts : Counts challenge now compared mayCompare owes)
    (comparedChange : comparedAfter + control.comparedCount = compared + result.comparedCount)
    (mayCompareChange : mayCompareAfter + control.mayCompare = mayCompare + result.mayCompare)
    (owesChange : owesAfter + control.owes = owes + result.owes) :
    Counts after now comparedAfter mayCompareAfter owesAfter := by
  rcases counts with ⟨bound, ahead, owed, reserved⟩
  cases move with
  | refused code seen =>
    simp only [comparedCount, Control.compared, Control.owes, Bool.toNat_false] at *
    have fewer : mayCompareAfter ≤ mayCompare := by
      simp only [Control.mayCompare] at mayCompareChange
      omega
    constructor <;> grind
  | compared code seen _ attemptable settles =>
    have inTime : now < challenge.expiresAt := by
      rw [← sameExpiry code seen rfl]
      exact ((canAttempt_iff seen now).mp attemptable).2.1
    rw [mayCompare_of_canAttempt attemptable] at mayCompareChange
    have one : result.comparedCount = 1 ∧ result.mayCompare = 0 ∧ result.owes = 1 := by
      rcases settles with rfl | rfl <;> exact ⟨rfl, rfl, rfl⟩
    simp only [one, comparedCount, Control.compared, Control.owes, Bool.toNat_false] at *
    constructor <;> grind
  | counted | consumed | unsettled | verified =>
    simp only [comparedCount, Control.compared, Control.owes, Control.mayCompare, Bool.toNat_true] at *
    constructor <;> grind

/-- A step of one call keeps the invariant. -/
theorem bounded_call {index : Nat} (found : system.calls[index]? = some control)
    (move : CallMove system.challenge system.now control after result verifies) (bounded : Bounded system) :
    Bounded { system with
      challenge := after
      calls := system.calls.set index result
      verified := system.verified + verifies.toNat } := by
  have present : control ∈ system.calls := List.mem_of_getElem? found
  have member : forall {call : Control}, call ∈ system.calls.set index result -> call ≠ result -> call ∈ system.calls :=
    fun inside different => (List.mem_or_eq_of_mem_set inside).resolve_right different
  have counts : Counts after system.now (total comparedCount (system.calls.set index result))
      (total Control.mayCompare (system.calls.set index result)) (total Control.owes (system.calls.set index result)) := by
    apply counts_call move _ bounded.counts (total_set _ found result) (total_set _ found result) (total_set _ found result)
    intro code seen isLoaded
    exact bounded.sameExpiry code seen (isLoaded ▸ present)
  refine ⟨counts, ?_, ?_, ?_, ?_⟩
  · intro isConsumed
    cases move with
    | counted _ free _ => exact absurd free isConsumed
    | consumed free inTime =>
      -- The call that consumes is one of those under way.
      have owes := Pool.le_total Control.owes found
      simp only [Control.owes] at owes
      have room := bounded.counts.reserved free inTime
      show system.challenge.attempts < system.challenge.maxAttempts
      omega
    | refused | compared | unsettled | verified => exact bounded.early isConsumed
  · intro inside
    cases move with
    | consumed _ _ => simp
    | counted _ free _ => exact absurd free (bounded.consumedCall (member inside (by simp)))
    | compared code seen _ attemptable settles =>
      apply bounded.consumedCall (member inside _)
      rcases settles with rfl | rfl <;> simp
    | refused | unsettled | verified => exact bounded.consumedCall (member inside (by simp))
  · intro verified
    cases move with
    | consumed _ _ => simp
    | verified found => exact bounded.consumedCall present
    | counted _ free _ => exact absurd free (bounded.verified (by simpa using verified))
    | refused | compared | unsettled => exact bounded.verified (by simpa using verified)
  · intro code seen inside
    cases move with
    | compared _ _ _ _ settles =>
      apply bounded.sameExpiry code seen (member inside _)
      rcases settles with rfl | rfl <;> simp
    | _ =>
      exact bounded.sameExpiry code seen (member inside (by simp))

/-- A call that reads the challenge takes an attempt that is left. -/
theorem bounded_load (leaves : LeavesAttempt system (.load code)) (bounded : Bounded system) :
    Bounded { system with calls := system.calls ++ [.loaded code system.challenge] } := by
  have counts := bounded.counts
  have comparedSame : comparisons { system with calls := system.calls ++ [.loaded code system.challenge] } =
      comparisons system := by
    simp [comparisons, comparedCount, Control.compared]
  have owesSame : total Control.owes (system.calls ++ [.loaded code system.challenge]) =
      total Control.owes system.calls := by
    simp [Control.owes]
  have mayCompareMore : total Control.mayCompare (system.calls ++ [.loaded code system.challenge]) =
      total Control.mayCompare system.calls + (loaded code system.challenge).mayCompare := by
    simp
  have room : system.now < system.challenge.expiresAt -> (loaded code system.challenge).mayCompare = 0 ∨
      (loaded code system.challenge).mayCompare = 1 ∧ system.challenge.consumedAt = none ∧
        system.challenge.attempts + underWay system < system.challenge.maxAttempts := by
    intro inTime
    by_cases attemptable : system.challenge.canAttempt system.now
    · right
      exact ⟨mayCompare_of_canAttempt attemptable, ((canAttempt_iff _ _).mp attemptable).1, leaves attemptable⟩
    · left
      exact mayCompare_of_closed inTime attemptable
  constructor
  · constructor
    · rw [comparedSame]
      exact counts.bound
    · intro inTime
      rw [comparedSame, mayCompareMore]
      have ahead := counts.ahead inTime
      rcases room inTime with none' | ⟨one, free, fits⟩
      · rw [none']
        exact ahead
      · have owed := counts.owed free inTime
        unfold underWay at fits
        show _ ≤ system.challenge.maxAttempts
        omega
    · intro free inTime
      rw [comparedSame, owesSame]
      exact counts.owed free inTime
    · intro free inTime
      rw [owesSame, mayCompareMore]
      have reserved := counts.reserved free inTime
      rcases room inTime with none' | ⟨one, _, fits⟩
      · rw [none']
        exact reserved
      · unfold underWay at fits
        show system.challenge.attempts + _ ≤ system.challenge.maxAttempts
        omega
  · exact bounded.early
  · intro inside
    exact bounded.consumedCall (by simpa using inside)
  · exact bounded.verified
  · intro otherCode seen inside
    rcases List.mem_append.mp inside with older | new
    · exact bounded.sameExpiry otherCode seen older
    · cases List.mem_singleton.mp new
      rfl

theorem bounded_step (system : System) (label : Label) (next : System) (leaves : LeavesAttempt system label)
    (taken : step hashCode system label = some next) (bounded : Bounded system) : Bounded next := by
  cases label with
  | load code =>
    cases taken
    exact bounded_load leaves bounded
  | call index event =>
    simp only [step] at taken
    split at taken
    · simp at taken
    rename_i control found
    rcases Option.map_eq_some_iff.mp taken with ⟨moved, callTaken, same⟩
    cases same
    exact bounded_call found (callMove_of_callStep callTaken) bounded
  | tick now =>
    rcases unguarded taken with ⟨notEarlier, rfl⟩
    have counts := bounded.counts
    refine ⟨⟨counts.bound, ?_, ?_, ?_⟩, bounded.early, bounded.consumedCall, bounded.verified, bounded.sameExpiry⟩
    · intro inTime
      exact counts.ahead (by simp only at inTime; omega)
    · intro free inTime
      exact counts.owed free (by simp only at inTime; omega)
    · intro free inTime
      exact counts.reserved free (by simp only at inTime; omega)

/-- The bound on guesses, and what it leaves of an exhausted challenge. -/
theorem guesses_bounded {hashCode : Str -> Str} {start final : System} {labels : List Label}
    (initial : Initial start) (reached : run (step hashCode) start labels = some final)
    (leaves : Along (step hashCode) LeavesAttempt start labels) :
    comparisons final ≤ final.challenge.maxAttempts ∧
      (final.challenge.maxAttempts ≤ final.challenge.attempts ->
        final.challenge.consumedAt = none ∧ final.verified = 0) := by
  have bounded : Bounded final := run_induction bounded_step reached leaves (bounded_initial initial)
  refine ⟨bounded.counts.bound, ?_⟩
  intro exhausted
  have free : final.challenge.consumedAt = none := by
    by_contra isConsumed
    exact absurd (bounded.early isConsumed) (Nat.not_lt.mpr exhausted)
  refine ⟨free, ?_⟩
  by_contra someVerified
  exact bounded.verified (Nat.pos_of_ne_zero someVerified) free

/-! ## Calls on one challenge -/

/-- A new challenge.  The code is its own hash. -/
def sentChallenge : System :=
  { challenge := { codeHash := str "123456", attempts := 0, maxAttempts := 6, expiresAt := 600, consumedAt := none }
    now := 0
    calls := []
    verified := 0 }

theorem sentChallenge_initial : Initial sentChallenge :=
  ⟨rfl, rfl, rfl, by decide⟩

/-- A wrong code, and then the right one. -/
def secondGuessRight : List Label :=
  [.load (str "000000"), .call 0 .compare, .call 0 .recordAttempt, .tick 30,
    .load (str "123456"), .call 1 .compare, .call 1 .consume, .call 1 (.verify true)]

theorem guesses_bounded_second_right :
    Exists fun final : System => run (step id) sentChallenge secondGuessRight = some final ∧
      comparisons final ≤ 6 ∧ final.verified = 1 := by
  have enabled : ((run (step id) sentChallenge secondGuessRight).map fun final =>
      (final.verified, final.challenge.maxAttempts)) = some (1, 6) := by decide +kernel
  rcases Option.map_eq_some_iff.mp enabled with ⟨final, reached, same⟩
  have verified : final.verified = 1 := congrArg Prod.fst same
  have maximum : final.challenge.maxAttempts = 6 := congrArg Prod.snd same
  have bound := guesses_bounded sentChallenge_initial reached (by decide +kernel)
  exact ⟨final, reached, maximum ▸ bound.1, verified⟩

/-- Seven calls read the new challenge before any of them counts. -/
def sevenAtOnce : List Label :=
  List.replicate 6 (.load (str "000000")) ++ [.load (str "123456")] ++
    (List.range 6).flatMap (fun index => [.call index .compare, .call index .recordAttempt]) ++
    [.call 6 .compare, .call 6 .consume, .call 6 (.verify true)]

/-- Seven codes are compared, and the exhausted challenge is consumed. -/
theorem seven_guesses_at_once :
    ((run (step id) sentChallenge sevenAtOnce).map fun final =>
      (comparisons final, final.challenge.attempts, final.challenge.consumedAt, final.verified)) =
        some (7, 6, some 0, 1) := by
  decide +kernel

/-! ## One session -/

/-- The call has consumed the challenge, and verifies a session next. -/
def Control.verifiesNext : Control -> Nat
  | .consumed => 1
  | _ => 0

/-- A challenge that is not consumed has verified nothing, and a consumed one serves one call. -/
def ServesOne (system : System) : Prop :=
  system.verified + total Control.verifiesNext system.calls ≤ system.challenge.consumedAt.isSome.toNat

theorem servesOne_step (system : System) (label : Label) (next : System)
    (taken : step hashCode system label = some next) (serves : ServesOne system) : ServesOne next := by
  cases label with
  | load code =>
    cases taken
    simpa [ServesOne, Control.verifiesNext] using serves
  | call index event =>
    simp only [step] at taken
    split at taken
    · simp at taken
    rename_i control found
    rcases Option.map_eq_some_iff.mp taken with ⟨moved, callTaken, same⟩
    cases same
    have change := total_set Control.verifiesNext found moved.control
    have move := callMove_of_callStep callTaken
    rcases moved with ⟨after, result, verifies⟩
    simp only [ServesOne] at serves ⊢
    cases move with
    | compared code seen _ _ settles => rcases settles with rfl | rfl <;> simp_all [Control.verifiesNext]
    | verified =>
      have single := Bool.toNat_le verifies
      simp only [Control.verifiesNext] at change
      show _ ≤ system.challenge.consumedAt.isSome.toNat
      omega
    | unsettled _ late => rcases late with late | late <;> simp_all [Control.verifiesNext]
    | _ => simp_all [Control.verifiesNext]
  | tick now =>
    rcases unguarded taken with ⟨_, rfl⟩
    exact serves

/-- A challenge verifies at most one session, whatever the calls on it read and in whatever order they act. -/
theorem challenge_verifies_one_session {start final : System} {labels : List Label} (initial : Initial start)
    (reached : run (step hashCode) start labels = some final) : final.verified ≤ 1 := by
  have serves : ServesOne final := by
    apply run_invariant servesOne_step reached
    simp [ServesOne, initial.verified, initial.calls, initial.consumedAt]
  have single := Bool.toNat_le final.challenge.consumedAt.isSome
  unfold ServesOne at serves
  omega

theorem challenge_verifies_one_session_second_right :
    Exists fun final : System => run (step id) sentChallenge secondGuessRight = some final ∧ final.verified ≤ 1 := by
  refine ⟨_, rfl, challenge_verifies_one_session sentChallenge_initial (?_ : run (step id) _ secondGuessRight = _)⟩
  rfl

end EmailChallenge
end Share
end Vaulthalla
