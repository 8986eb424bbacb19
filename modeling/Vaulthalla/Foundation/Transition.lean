import Mathlib.Data.List.Induction
import Mathlib.Logic.Function.Basic

namespace Vaulthalla
namespace Foundation
namespace Transition

open Function

/-!
# Runs of a labelled transition system

A system is given by a partial step function: a label is enabled in a state
when the step function returns the next state.  A run follows a list of
labels.  The step function is computable, so a concrete run can be evaluated.

The rules below are the two ways in which a property of whole runs is derived
from one of single steps: an invariant that every enabled step preserves, and
one that only the steps of a given kind preserve, for runs made of those.
-/

variable {State Label : Type} {step : State -> Label -> Option State}

/-- The state after a list of labels, if each was enabled in its turn. -/
def run (step : State -> Label -> Option State) (state : State) : List Label -> Option State
  | [] => some state
  | label :: rest => (step state label).bind fun next => run step next rest

section

variable {Guard : Prop} [Decidable Guard] {target next : State}

/-- A step under a guard was taken: the guard holds. -/
theorem guarded (taken : (if Guard then some target else none) = some next) : Guard ∧ target = next := by
  simpa using taken

theorem unguarded (taken : (if Guard then none else some target) = some next) : ¬ Guard ∧ target = next := by
  simpa using taken

end

/-- Every step of the run, taken in its own state, is of the given kind. -/
def Along (step : State -> Label -> Option State) (Allowed : State -> Label -> Prop) (state : State) :
    List Label -> Prop
  | [] => True
  | label :: rest =>
    Allowed state label ∧
      match step state label with
      | none => True
      | some next => Along step Allowed next rest

instance decidableAlong (step : State -> Label -> Option State) (Allowed : State -> Label -> Prop)
    [forall state label, Decidable (Allowed state label)] (state : State) :
    (labels : List Label) -> Decidable (Along step Allowed state labels)
  | [] => inferInstanceAs (Decidable True)
  | label :: rest =>
    match taken : step state label with
    | none => decidable_of_iff (Allowed state label) (by simp [Along, taken])
    | some next =>
      have := decidableAlong step Allowed next rest
      decidable_of_iff (Allowed state label ∧ Along step Allowed next rest) (by simp [Along, taken])

theorem run_cons {state final : State} {label : Label} {rest : List Label}
    (reached : run step state (label :: rest) = some final) :
    Exists fun next => step state label = some next ∧ run step next rest = some final :=
  Option.bind_eq_some_iff.mp reached

theorem run_append (state : State) (first second : List Label) :
    run step state (first ++ second) = (run step state first).bind fun middle => run step middle second := by
  induction first generalizing state with
  | nil => rfl
  | cons label rest ih =>
    simp only [List.cons_append, run]
    cases step state label with
    | none => rfl
    | some next => exact ih next

/-- The invariant rule, for runs whose steps are all of the given kind. -/
theorem run_induction {Allowed : State -> Label -> Prop} {Invariant : State -> Prop}
    (preserved : forall state label next, Allowed state label -> step state label = some next ->
      Invariant state -> Invariant next)
    {state final : State} {labels : List Label} (reached : run step state labels = some final)
    (along : Along step Allowed state labels) (holds : Invariant state) : Invariant final := by
  induction labels generalizing state with
  | nil => exact Option.some.inj reached ▸ holds
  | cons label rest ih =>
    rcases run_cons reached with ⟨next, first, later⟩
    simp only [Along, first] at along
    rcases along with ⟨allowed, alongRest⟩
    exact ih later alongRest (preserved state label next allowed first holds)

/-- A run whose labels are all of a kind that does not depend on the state. -/
theorem along_of_forall {Allowed : Label -> Prop} {labels : List Label}
    (allowed : forall label, label ∈ labels -> Allowed label) (state : State) :
    Along step (fun _ label => Allowed label) state labels := by
  induction labels generalizing state with
  | nil => trivial
  | cons label rest ih =>
    refine ⟨allowed label List.mem_cons_self, ?_⟩
    split
    · trivial
    · exact ih (fun later isLater => allowed later (List.mem_cons_of_mem label isLater)) _

theorem along_true (state : State) (labels : List Label) : Along step (fun _ _ => True) state labels :=
  along_of_forall (fun _ _ => trivial) state

/-- The invariant rule for all runs. -/
theorem run_invariant {Invariant : State -> Prop}
    (preserved : forall state label next, step state label = some next -> Invariant state -> Invariant next)
    {state final : State} {labels : List Label} (reached : run step state labels = some final)
    (holds : Invariant state) : Invariant final :=
  run_induction (fun state label next _ => preserved state label next) reached (along_true state labels) holds

/-! ## The states of a run -/

/-- The run passes through the state. -/
def Visits (step : State -> Label -> Option State) (initial : State) (labels : List Label) (past : State) : Prop :=
  Exists fun earlier : List Label => earlier <+: labels ∧ run step initial earlier = some past

theorem visits_end {initial final : State} {labels : List Label} (reached : run step initial labels = some final) :
    Visits step initial labels final :=
  ⟨labels, List.prefix_rfl, reached⟩

theorem Visits.append {initial past : State} {labels : List Label} (visits : Visits step initial labels past)
    (later : List Label) : Visits step initial (labels ++ later) past := by
  rcases visits with ⟨earlier, isPrefix, reached⟩
  exact ⟨earlier, isPrefix.trans (List.prefix_append labels later), reached⟩

/-- One more step adds one state. -/
theorem visits_append_singleton {initial state next past : State} {labels : List Label} {label : Label}
    (reached : run step initial labels = some state) (taken : step state label = some next)
    (visits : Visits step initial (labels ++ [label]) past) : Visits step initial labels past ∨ past = next := by
  rcases visits with ⟨earlier, isPrefix, isReached⟩
  rcases List.prefix_concat_iff.mp isPrefix with rfl | isBefore
  · have isNext : run step initial (labels ++ [label]) = some next := by simp [run_append, reached, run, taken]
    exact .inr (Option.some.inj (isReached.symm.trans isNext))
  · exact .inl ⟨earlier, isBefore, isReached⟩

/-- The invariant rule for an invariant that refers to the labels so far. -/
theorem run_extend {initial : State} (Invariant : List Label -> State -> Prop) (base : Invariant [] initial)
    (extend : forall labels state label next, run step initial labels = some state ->
      step state label = some next -> Invariant labels state -> Invariant (labels ++ [label]) next)
    {labels : List Label} {final : State} (reached : run step initial labels = some final) :
    Invariant labels final := by
  induction labels using List.reverseRecOn generalizing final with
  | nil => exact Option.some.inj reached ▸ base
  | append_singleton labels label ih =>
    rw [run_append] at reached
    rcases Option.bind_eq_some_iff.mp reached with ⟨middle, first, last⟩
    rcases run_cons last with ⟨next, taken, isFinal⟩
    cases isFinal
    exact extend labels middle label _ first taken (ih first)

/-! ## Parties that share a resource -/

section Parties

variable {Party Local : Type} [DecidableEq Party]

/-- What a party holds after the move of one: the mover its new position, the others theirs. -/
theorem update_cases {parties : Party -> Local} {mover party : Party} {moved held : Local}
    (holds : update parties mover moved party = held) :
    (party = mover ∧ moved = held) ∨ (party ≠ mover ∧ parties party = held) := by
  by_cases same : party = mover
  · subst same
    exact .inl ⟨rfl, by rwa [update_self] at holds⟩
  · exact .inr ⟨same, by rwa [update_of_ne same] at holds⟩

/-- A property of every party survives the move of one, if the mover comes to
satisfy it and the others keep it. -/
theorem forall_update {Holds : Local -> Prop} {parties : Party -> Local} {mover : Party} {moved : Local}
    (movedHolds : Holds moved) (othersHold : forall other, other ≠ mover -> Holds (parties other)) :
    forall party, Holds (update parties mover moved party) := by
  intro party
  rcases update_cases (rfl : update parties mover moved party = _) with ⟨_, isMoved⟩ | ⟨other, isHeld⟩
  · exact isMoved ▸ movedHolds
  · exact isHeld ▸ othersHold party other

end Parties

end Transition
end Foundation
end Vaulthalla
