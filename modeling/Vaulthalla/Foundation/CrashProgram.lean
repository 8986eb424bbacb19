import Mathlib.Logic.Basic

namespace Vaulthalla
namespace Foundation
namespace CrashProgram

/-!
# Programs over a durable state that may throw or be killed

A program is a sequence of steps, each of which changes a durable state.  What
happens at a step is decided from outside: it is done, it throws, or the
process is killed, and in the last two cases the change may have been made or
not.  An exception can be caught, a kill cannot.

The triples below have a condition for each of the three endings.  The one for
the states in which a program may be killed is what a recovery starts from.
The rules are for steps that do not throw, so that a program throws only where
it raises an exception by itself.
-/

/-- What happens at a step.  The flag says whether the change was made. -/
inductive Event
  | done
  | thrown (applied : Bool)
  | killed (applied : Bool)

inductive Ending
  | returned | thrown | killed

namespace Event

def isThrown : Event -> Bool
  | .thrown _ => true
  | _ => false

/-- A step whose errors are ignored. -/
def quietly : Event -> Event
  | .thrown _ => .done
  | event => event

/-- A step that must not throw: the process is terminated if it does. -/
def terminating : Event -> Event
  | .thrown applied => .killed applied
  | event => event

theorem isThrown_quietly (event : Event) : event.quietly.isThrown = false := by
  cases event <;> rfl

theorem isThrown_terminating (event : Event) : event.terminating.isThrown = false := by
  cases event <;> rfl

end Event

def Program (State : Type) := State -> State × Ending

section Programs

variable {State : Type}

def skip : Program State :=
  fun state => (state, .returned)

def raise : Program State :=
  fun state => (state, .thrown)

def perform (event : Event) (effect : State -> State) : Program State :=
  fun state =>
    match event with
    | .done => (effect state, .returned)
    | .thrown applied => (if applied then effect state else state, .thrown)
    | .killed applied => (if applied then effect state else state, .killed)

def andThen (first second : Program State) : Program State :=
  fun state =>
    match first state with
    | (next, .returned) => second next
    | (next, .thrown) => (next, .thrown)
    | (next, .killed) => (next, .killed)

def branch (condition : State -> Bool) (yes no : Program State) : Program State :=
  fun state => if condition state then yes state else no state

variable {condition : State -> Bool} {no yes : Program State} {state : State} {effect : State -> State} {event : Event}

theorem branch_of_true (holds : condition state) : branch condition yes no state = yes state :=
  if_pos holds

theorem branch_of_false (fails : condition state = false) : branch condition yes no state = no state :=
  if_neg (by simp [fails])

/-- `try { body } catch (...) { cleanup; throw; }`. -/
def onThrow (body cleanup : Program State) : Program State :=
  fun state =>
    match body state with
    | (next, .thrown) => andThen cleanup raise next
    | (next, .returned) => (next, .returned)
    | (next, .killed) => (next, .killed)

/-! ## Triples with a crash condition -/

/-- From a state with `pre` the program returns with `post`, throws with `thrown`, or is killed with `crash`. -/
def Triple (pre : State -> Prop) (program : Program State) (post thrown crash : State -> Prop) : Prop :=
  forall state, pre state ->
    match program state with
    | (next, .returned) => post next
    | (next, .thrown) => thrown next
    | (next, .killed) => crash next

variable {pre middle post thrown crash : State -> Prop} {first second body cleanup : Program State}

theorem Triple.mono {weaker stronger strongerThrown : State -> Prop}
    (holdsProgram : Triple pre first stronger strongerThrown crash) (before : forall state, weaker state -> pre state)
    (returned : forall state, stronger state -> post state)
    (threw : forall state, strongerThrown state -> thrown state) : Triple weaker first post thrown crash := by
  intro state holds
  have ends := holdsProgram state (before state holds)
  match isEnd : first state with
  | (next, .returned) =>
    rw [isEnd] at ends
    exact returned next ends
  | (next, .thrown) =>
    rw [isEnd] at ends
    exact threw next ends
  | (next, .killed) =>
    rw [isEnd] at ends
    exact ends

section

variable (unthrown : event.isThrown = false) (returned : forall state, pre state -> post (effect state))

include unthrown returned

theorem Triple.perform (before : event = .killed false -> forall state, pre state -> crash state)
    (after : event = .killed true -> forall state, post state -> crash state) :
    Triple pre (perform event effect) post thrown crash := by
  intro state holds
  cases event with
  | done => exact returned state holds
  | thrown applied => cases unthrown
  | killed applied =>
    cases applied with
    | false => exact before rfl state holds
    | true => exact after rfl _ (returned state holds)

/-- A step before and after which a recovery succeeds. -/
theorem Triple.step (before : forall state, pre state -> crash state)
    (after : forall state, post state -> crash state) :
    Triple pre (CrashProgram.perform event effect) post thrown crash :=
  Triple.perform unthrown returned (fun _ => before) fun _ => after

end

theorem Triple.skip (holds : forall state, pre state -> post state) : Triple pre skip post thrown crash :=
  holds

theorem Triple.raise (holds : forall state, pre state -> thrown state) : Triple pre raise post thrown crash :=
  holds

theorem Triple.branch (yes : Triple (fun state => pre state ∧ condition state) first post thrown crash)
    (no : Triple (fun state => pre state ∧ condition state = false) second post thrown crash) :
    Triple pre (branch condition first second) post thrown crash := by
  intro state holds
  cases isCondition : condition state with
  | true =>
    rw [branch_of_true isCondition]
    exact yes state ⟨holds, isCondition⟩
  | false =>
    rw [branch_of_false isCondition]
    exact no state ⟨holds, isCondition⟩

theorem Triple.andThen (left : Triple pre first middle thrown crash) (right : Triple middle second post thrown crash) :
    Triple pre (andThen first second) post thrown crash := by
  intro state holds
  have leftHolds := left state holds
  unfold CrashProgram.andThen
  match ends : first state with
  | (next, .returned) =>
    rw [ends] at leftHolds
    exact right next leftHolds
  | (next, .thrown) =>
    rw [ends] at leftHolds
    exact leftHolds
  | (next, .killed) =>
    rw [ends] at leftHolds
    exact leftHolds

/-- Where the body does not throw, nothing is caught. -/
theorem Triple.onThrow (holdsBody : Triple pre body post (fun _ => False) crash) :
    Triple pre (onThrow body cleanup) post thrown crash := by
  intro state holds
  have bodyHolds := holdsBody state holds
  unfold CrashProgram.onThrow
  match ends : body state with
  | (next, .returned) =>
    rw [ends] at bodyHolds
    exact bodyHolds
  | (next, .thrown) =>
    rw [ends] at bodyHolds
    exact bodyHolds.elim
  | (next, .killed) =>
    rw [ends] at bodyHolds
    exact bodyHolds

/-- What holds wherever the program ends. -/
theorem Triple.ending (holdsProgram : Triple pre first crash crash crash) (holds : pre state) :
    crash (first state).1 := by
  have ends := holdsProgram state holds
  match isEnd : first state with
  | (next, .returned) | (next, .thrown) | (next, .killed) =>
    rw [isEnd] at ends
    exact ends

end Programs

end CrashProgram
end Foundation
end Vaulthalla
