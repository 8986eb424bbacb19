import Mathlib.Data.List.Nodup
import Vaulthalla.Foundation.ByteString
import Vaulthalla.Foundation.Transition

namespace Vaulthalla
namespace Recovery
namespace RestoreRuns

open Foundation Transition List

/-!
# Runs of a restore plan

A run of a plan keeps the finished outcomes that the saved result holds, goes
through the items in order, and saves the outcomes so far after each item that
it executes.  While it is before an item with a finished outcome, a save drops
that outcome from the result, and a run after a crash executes the item again.
-/

/-- How an item ended.  Those that a later run does not try again are the finished ones, below. -/
inductive Outcome
  | restored | removed | skipped | conflict | unavailable | failed
deriving DecidableEq

/-- One entry of the saved result, which names its item by the path it is restored to. -/
structure ItemOutcome where
  destinationPath : Str
  outcome : Outcome
  error : Option Str
deriving DecidableEq

abbrev pathsOf (items : List ItemOutcome) : List Str :=
  items.map ItemOutcome.destinationPath

/-- Conflicts, failures and items whose version is not available are tried again by the next run. -/
def ItemOutcome.isFinished (item : ItemOutcome) : Bool :=
  item.outcome ∈ [.restored, .skipped, .removed]

inductive PlanState
  | planned | running
  /-- Saved as `partial`. -/
  | partly | done | failed
deriving DecidableEq

/-- The state that a run ends with. -/
def stateOf (items : List ItemOutcome) : PlanState :=
  let has (outcome : Outcome) : Bool := items.any fun item => item.outcome = outcome
  if !has .failed && !has .conflict then
    if has .unavailable then .partly else .done
  else if !items.any ItemOutcome.isFinished && has .failed then .failed
  else .partly

/-- A run: the finished outcomes by path, the outcomes so far, and the paths of the items to come. -/
structure Restore where
  (finished items : List ItemOutcome)
  rest : List Str

/-- The row of the plan, the run under way, and every finished outcome that was ever saved. -/
structure State where
  planState : PlanState
  result : List ItemOutcome
  restore : Option Restore
  kept : List ItemOutcome

inductive Label
  | start (inTime : Bool)
  | keep
  /-- The run executes an item and saves the outcomes so far, or is killed in between. -/
  | execute (outcome : Outcome) (error : Option Str) (killed : Bool)
  | finish | kill

/-- The outcome that a run has taken over for an item. -/
def recorded (finished : List ItemOutcome) (path : Str) : Option ItemOutcome :=
  finished.find? fun item => item.destinationPath = path

/-- The saved result is replaced as a whole, by the outcomes of the present run. -/
def State.saveResult (state : State) (items : List ItemOutcome) : State :=
  { state with result := items, kept := items.filter ItemOutcome.isFinished ++ state.kept }

variable (plan : List Str)

/-- A run may start again from every state but `done` and `failed`, also from one that a
crash has left `running`; only the first start needs a plan that has not expired. -/
def step (state : State) : Label -> Option State
  | .start inTime =>
    if state.restore.isNone ∧ (state.planState ∈ [.running, .partly] ∨ state.planState = .planned ∧ inTime) then
      -- The last outcome of a path is the one that the map holds.
      some { state with
        planState := .running
        restore := some ⟨(state.result.filter ItemOutcome.isFinished).reverse, [], plan⟩ }
    else none
  | .keep => match state.restore with
    | some ⟨finished, items, path :: rest⟩ => (recorded finished path).map fun item =>
      { state with restore := some ⟨finished, items ++ [item], rest⟩ }
    | _ => none
  | .execute outcome error killed => match state.restore with
    | some ⟨finished, items, path :: rest⟩ =>
      let after := items ++ [⟨path, outcome, error⟩]
      if (recorded finished path).isSome then none
      else some (if killed then { state with restore := none }
        else { state with restore := some ⟨finished, after, rest⟩ }.saveResult after)
    | _ => none
  | .finish => match state.restore with
    | some ⟨_, items, []⟩ => some ({ state with planState := stateOf items, restore := none }.saveResult items)
    | _ => none
  | .kill => some { state with restore := none }

/-- An item is executed only when no later one has a finished outcome. -/
def State.orderly (state : State) : Label -> Bool
  | .execute _ _ _ => state.restore.all fun restore =>
    restore.rest.tail.all fun path => (recorded restore.finished path).isNone
  | _ => true

/-- Along a run the items gone through and those to come make up the plan, and a finished
outcome that was saved before is either taken over or still to come. -/
structure Restore.Sound (kept : List ItemOutcome) (restore : Restore) : Prop where
  paths : pathsOf restore.items ++ restore.rest = plan
  unique : (pathsOf restore.finished).Nodup
  kept : forall item, item ∈ kept ->
    item ∈ restore.items ∨ item ∈ restore.finished ∧ item.destinationPath ∈ restore.rest

/-- What holds between the steps.  That the paths of the result are an initial part of the
plan gives each path one outcome at most. -/
structure Sound (state : State) : Prop where
  paths : pathsOf state.result <+: plan
  kept : forall item, item ∈ state.kept -> item ∈ state.result ∧ item.isFinished = true
  restore : forall restore, state.restore = some restore -> state.planState = .running ∧ restore.Sound plan state.kept
  done : state.planState = .done ->
    pathsOf state.result = plan ∧ forall item, item ∈ state.result -> item.isFinished = true

section

variable {plan : List Str} {state next : State} {finished items : List ItemOutcome}

/-- A path with a finished outcome is not executed. -/
theorem recorded_isSome {item : ItemOutcome} (inside : item ∈ finished) :
    (recorded finished item.destinationPath).isSome :=
  find?_isSome.mpr ⟨item, inside, by simp⟩

/-- A run ends done only when none of its items has failed, is in conflict or was not available. -/
theorem isFinished_of_done (done : stateOf items = .done) {item : ItemOutcome} (inside : item ∈ items) :
    item.isFinished := by
  simp only [stateOf] at done
  split at done
  · split at done
    · cases done
    · cases isOutcome : item.outcome <;> simp_all [ItemOutcome.isFinished]
  · split at done <;> cases done

/-- Saved outcomes that include every finished one saved before. -/
theorem kept_saveResult (sound : Sound plan state) (holds : forall item, item ∈ state.kept -> item ∈ items) :
    forall item, item ∈ (state.saveResult items).kept -> item ∈ items ∧ item.isFinished := by
  intro item isKept
  rcases mem_append.mp isKept with isNew | wasKept
  · exact mem_filter.mp isNew
  · exact ⟨holds item wasKept, (sound.kept item wasKept).2⟩

/-- The save after an item is the critical step: it keeps the outcomes listed so far, and
by `orderly` no finished one is to come. -/
theorem sound_step {label : Label} (distinct : plan.Nodup) (orderly : state.orderly label)
    (taken : step plan state label = some next) (sound : Sound plan state) : Sound plan next := by
  cases label <;> simp only [step] at taken
  case start =>
    rcases guarded taken with ⟨_, rfl⟩
    refine ⟨sound.paths, sound.kept, ?_, nofun⟩
    rintro _ ⟨⟩
    refine ⟨rfl, rfl, ?_, fun item isKept => .inr ⟨?_, ?_⟩⟩
    · rw [pathsOf, map_reverse, nodup_reverse]
      exact (distinct.sublist sound.paths.sublist).sublist (filter_sublist.map _)
    · exact mem_reverse.mpr (mem_filter.mpr (sound.kept item isKept))
    · exact sound.paths.subset (mem_map_of_mem (sound.kept item isKept).1)
  case keep =>
    split at taken
    case h_1 finished items path rest isRestore =>
      rcases Option.map_eq_some_iff.mp taken with ⟨item, found, rfl⟩
      rcases sound.restore _ isRestore with ⟨isRunning, paths, unique, kept⟩
      have isPath : item.destinationPath = path := by simpa using find?_some found
      refine ⟨sound.paths, sound.kept, ?_, sound.done⟩
      rintro _ ⟨⟩
      refine ⟨isRunning, by simpa [isPath] using paths, unique, fun other isKept => ?_⟩
      rcases kept other isKept with listed | ⟨inside, toCome⟩
      · exact .inl (mem_append_left _ listed)
      rcases mem_cons.mp toCome with isNext | later
      · have same := inj_on_of_nodup_map unique inside (mem_of_find?_eq_some found) (isNext.trans isPath.symm)
        exact .inl (by simp [same])
      · exact .inr ⟨inside, later⟩
    · cases taken
  case execute outcome error killed =>
    split at taken
    case h_1 finished items path rest isRestore =>
      rcases unguarded taken with ⟨isNew, rfl⟩
      split
      · exact ⟨sound.paths, sound.kept, nofun, sound.done⟩
      rcases sound.restore _ isRestore with ⟨isRunning, paths, unique, kept⟩
      have listed : forall item, item ∈ state.kept -> item ∈ items ++ [⟨path, outcome, error⟩] := by
        intro item isKept
        rcases kept item isKept with listed | ⟨inside, toCome⟩
        · exact mem_append_left _ listed
        rcases mem_cons.mp toCome with rfl | later
        · exact absurd (recorded_isSome inside) isNew
        · simp only [State.orderly, isRestore, Option.all_some, tail_cons, all_eq_true] at orderly
          exact absurd (recorded_isSome inside) (by simp [Option.isNone_iff_eq_none.mp (orderly _ later)])
      have paths : pathsOf (items ++ [⟨path, outcome, error⟩]) ++ rest = plan := by simpa using paths
      have kept := kept_saveResult sound listed
      refine ⟨⟨rest, paths⟩, kept, ?_, fun done => nomatch isRunning.symm.trans done⟩
      rintro _ ⟨⟩
      exact ⟨isRunning, paths, unique, fun item isKept => .inl (kept item isKept).1⟩
    · cases taken
  case finish =>
    split at taken
    case h_1 items isRestore =>
      cases taken
      rcases sound.restore _ isRestore with ⟨_, paths, _, kept⟩
      have paths : pathsOf items = plan := by simpa using paths
      have kept := kept_saveResult sound fun item isKept => (kept item isKept).resolve_right nofun
      exact ⟨⟨[], (append_nil _).trans paths⟩, kept, nofun, fun done => ⟨paths, fun _ => isFinished_of_done done⟩⟩
    · cases taken
  case kill =>
    cases taken
    exact ⟨sound.paths, sound.kept, nofun, sound.done⟩

end

/-- In every state of a run, the finished outcomes that were saved are in the result and their items are not executed,
and a plan that is done has a finished outcome for each item. -/
theorem finished_outcomes_kept (distinct : plan.Nodup) (final : State) (labels : List Label)
    (reached : run (step plan) ⟨.planned, [], none, []⟩ labels = some final)
    (orderly : Along (step plan) (fun state label => state.orderly label = true) ⟨.planned, [], none, []⟩ labels) :
    (forall item, item ∈ final.kept -> item ∈ final.result ∧
      forall outcome error killed next, step plan final (.execute outcome error killed) = some next ->
        final.restore.bind (fun restore => restore.rest.head?) ≠ some item.destinationPath) ∧
      (final.planState = .done -> pathsOf final.result = plan ∧
        forall item, item ∈ final.result -> item.outcome ∈ [.restored, .skipped, .removed]) := by
  have sound : Sound plan final :=
    run_induction (fun _ _ _ orderly taken sound => sound_step distinct orderly taken sound) reached orderly
      ⟨ nil_prefix, nofun, nofun, nofun⟩
  refine ⟨fun item isKept => ⟨(sound.kept item isKept).1, fun outcome error killed next taken isNext => ?_⟩, ?_⟩
  · simp only [step] at taken
    split at taken
    case h_1 finished items path rest isRestore =>
      rcases unguarded taken with ⟨isNew, _⟩
      rcases sound.restore _ isRestore with ⟨_, paths, _, kept⟩
      have isPath : path = item.destinationPath := by simpa [isRestore] using isNext
      subst isPath
      rcases kept item isKept with listed | ⟨inside, _⟩
      · have twice := paths ▸ distinct
        exact (nodup_append.mp twice).2.2 _ (mem_map_of_mem listed) _ mem_cons_self rfl
      · exact isNew (recorded_isSome inside)
    · cases taken
  · intro done
    simpa [ItemOutcome.isFinished] using sound.done done

/-- The first item is restored and the run is killed at the second; the next run keeps the first outcome, restores the
second item and ends done. -/
theorem finished_outcomes_kept_resumed :
    let plan := [str "/a", str "/b"]
    let killed : List Label := [.start true, .execute .restored none false, .execute .restored none true]
    let resumed : List Label := [.start true, .keep, .execute .restored none false, .finish]
    Exists fun middle => Exists fun final =>
      run (step plan) ⟨.planned, [], none, []⟩ killed = some middle ∧
      run (step plan) ⟨.planned, [], none, []⟩ (killed ++ resumed) = some final ∧
      ⟨str "/a", .restored, none⟩ ∈ middle.kept ∧ middle.restore.isNone = true ∧ middle.result.length = 1 ∧
      (forall item, item ∈ middle.kept -> item ∈ middle.result) ∧
      (forall item, item ∈ final.kept -> item ∈ final.result) ∧ pathsOf final.result = plan := by
  intro plan killed resumed
  have first := finished_outcomes_kept plan (by decide) _ killed rfl (by decide)
  have second := finished_outcomes_kept plan (by decide) _ (killed ++ resumed) rfl (by decide)
  exact ⟨_, _, rfl, rfl, by decide, rfl, rfl, fun item isKept => (first.1 item isKept).1,
    fun item isKept => (second.1 item isKept).1, (second.2 rfl).1⟩

/-- The first item fails and the second is restored; the next run fails again on the first and is killed. -/
theorem restored_outcome_lost :
    Exists fun final => run (step [str "/a", str "/b"]) ⟨.planned, [], none, []⟩
      [.start true, .execute .failed none false, .execute .restored none false, .finish, .start true,
        .execute .failed none false, .kill] = some final ∧
        ⟨str "/b", .restored, none⟩ ∈ final.kept ∧ final.result = [⟨str "/a", .failed, none⟩] :=
  ⟨_, rfl, by decide, rfl⟩

end RestoreRuns
end Recovery
end Vaulthalla
