import Vaulthalla.Sync.Execution

namespace Vaulthalla
namespace Sync

open Foundation Function Planner AList Option
open Foundation.Transition (run Along run_induction update_cases)
open Execution (setPlace)

/-!
# Edits made while a plan is executed

A task replaces or removes whatever content it finds.  It finds the content
that the plan was made from as long as no local user has updated the row since
then, so an edit is safe exactly if it comes after the task has updated the
row: from there on the content lock keeps it away from what the task still has
to do.
-/

namespace Program

/-- The step is a transaction on the row. -/
def commits : Program -> Event -> Bool
  | holding _ _, .commit | describing _ _, .commit | deleting _, .commit | inserting _, .insert => true
  | _, _ => false

/-- The file id whose backing file the program is about to replace or remove, its transaction being done. -/
def replaces : Program -> Option Nat
  | committed id _ | described id | deleted id | evicted id => some id
  | _ => none

theorem locked_of_replaces {program : Program} {id : Nat} (replaces : program.replaces = some id) :
    program.locked = some id := by
  cases program <;> simp_all [Program.replaces, Program.locked]

end Program

/-! ## Content of a place -/

section Content

variable {Party : Type} {party : Party} {place after : Place Party} {program next : Program}

/-- The backing file of a file id has no content from the given update on. -/
def OldBacking (since : Nat) (place : Place Party) (id : Nat) : Prop :=
  forall generation, place.backing id = some generation -> generation.number < since

/-- Nothing at the place has been committed from the given update on. -/
structure Old (since : Nat) (place : Place Party) : Prop where
  row : forall row, place.row = some row -> row.generation.number < since
  backing : forall id, OldBacking since place id

/-- Content that was committed from the given update on is still there afterwards. -/
structure Keeps (since : Nat) (before after : Place Party) : Prop where
  row : forall row, before.row = some row -> since ≤ row.generation.number ->
    Exists fun kept : Row => after.row = some kept ∧ kept.generation = row.generation
  backing : forall id generation, before.backing id = some generation -> since ≤ generation.number ->
    after.backing id = some generation

variable {since id : Nat}

theorem Keeps.of_same (sameRow : after.row = place.row) (sameBacking : after.backing = place.backing) :
    Keeps since place after :=
  ⟨fun row stored _ => ⟨row, sameRow.trans stored, rfl⟩, fun id generation stored _ => by rw [sameBacking, stored]⟩

theorem Keeps.of_old (old : Old since place) : Keeps since place after :=
  ⟨fun row stored late => absurd (old.row row stored) (by omega),
    fun id generation stored late => absurd (old.backing id generation stored) (by omega)⟩

theorem Keeps.setBacking {bytes : Option Generation} (old : OldBacking since place id)
    (sameRow : after.row = place.row) (changed : after.backing = update place.backing id bytes) :
    Keeps since place after := by
  refine ⟨fun row stored _ => ⟨row, sameRow.trans stored, rfl⟩, ?_⟩
  intro other generation stored late
  by_cases same : other = id
  · subst same
    exact absurd (old generation stored) (by omega)
  · rw [changed, update_of_ne same, stored]

section

variable (move : Move party place program after next)

include move

/-- A program that finds old content only replaces or removes old content. -/
theorem Move.keeps (old : program.pending -> Old since place)
    (replaced : forall id, program.replaces = some id -> OldBacking since place id) : Keeps since place after := by
  cases move with
  | inserted | committed | described | deleted => exact .of_old (old rfl)
  | renamed | dropped | unlinked => exact .setBacking (replaced _ rfl) rfl rfl
  | stopped => exact .of_same stop_row stop_backing
  | _ =>
    exact .of_same rfl rfl

/-- A program that may still change the row has changed nothing. -/
theorem Move.pending (pending : next.pending) :
    program.pending = true ∧ after.row = place.row ∧ after.backing = place.backing := by
  cases move with
  | found | missing | admitted | sealed | indexed | claimed => exact ⟨rfl, rfl, rfl⟩
  | _ => simp [Program.pending] at pending

theorem Move.replaces (old : program.pending -> Old since place)
    (replaced : forall id, program.replaces = some id -> OldBacking since place id) :
    forall id, next.replaces = some id -> OldBacking since after id := by
  intro id replaces
  cases move with
  | committed | described | deleted => exact (old rfl).backing id
  | evicted => exact replaced id replaces
  | _ => simp [Program.replaces] at replaces

/-- A program that does not update the row leaves old content, if what it puts in place is old. -/
theorem Move.stays_old (old : Old since place) (unchanged : after.row = place.row ∧ after.commits = place.commits)
    (staged : forall id generation, program = .committed id generation -> generation.number < since) :
    Old since after := by
  refine ⟨fun row stored => old.row row (unchanged.1 ▸ stored), ?_⟩
  intro id
  cases move with
  | inserted | committed | described => simp [Place.insert, Place.update] at unchanged
  | renamed =>
    intro generation stored
    simp only [Place.setBacking, update_apply] at stored
    split at stored
    · exact staged _ generation (by rw [some.inj stored])
    · exact old.backing id generation stored
  | dropped | unlinked =>
    intro generation stored
    simp only [Place.setBacking, Place.release, update_apply] at stored
    split at stored
    · simp at stored
    · exact old.backing id generation stored
  | stopped => exact fun generation stored => old.backing id generation (stop_backing ▸ stored)
  | _ =>
    exact old.backing id

/-- The backing file of a file id that is locked by another party or not yet given out stays as it is, or is removed. -/
theorem Move.keeps_old_backing (foreign : program.locked ≠ some id) (known : id < place.nextId)
    (old : OldBacking since place id) : OldBacking since after id := by
  cases move with
  | inserted =>
    intro generation stored
    simp only [Place.insert, update_of_ne (Nat.ne_of_lt known)] at stored
    exact old generation stored
  | renamed | dropped | unlinked =>
    intro generation stored
    have other : id ≠ _ := fun same => foreign (congrArg some same.symm)
    simp only [Place.setBacking, Place.release, update_of_ne other] at stored
    exact old generation stored
  | stopped => exact fun generation stored => old generation (stop_backing ▸ stored)
  | _ => exact old

end

/-- Only a transaction changes the row. -/
theorem step_without_commit {event : Event} (taken : program.step party place event = some (after, next))
    (noCommit : program.commits event = false) :
    (after.row = place.row ∧ after.commits = place.commits) ∧
      forall id generation, next = .committed id generation -> False := by
  have move := move_of_step taken
  cases move with
  | inserted | committed | described | deleted =>
    cases event <;> simp [Program.step, Program.commits, Program.ended] at taken noCommit
  | stopped => exact ⟨⟨stop_row, stop_commits⟩, by simp⟩
  | _ => exact ⟨⟨rfl, rfl⟩, by simp⟩

end Content

/-! ## What a pass guards -/

namespace Execution

section Parts

variable {Writer : Type} (plan : List Action) (execution : Execution Writer)

theorem pendingAt_iff (path : Str) :
    execution.pendingAt plan path ↔ Exists fun task => Exists fun action =>
      plan[task]? = some action ∧ action.target = some path ∧
        (execution.tasks task).unsettled execution.phases action.type := by
  simp only [pendingAt, List.any_eq_true, List.mem_range, any_eq_true, Bool.and_eq_true, decide_eq_true_eq]
  constructor
  · rintro ⟨task, _, action, isAction, pending⟩
    exact ⟨task, action, isAction, pending⟩
  · rintro ⟨task, action, isAction, pending⟩
    exact ⟨task, (List.getElem?_eq_some_iff.mp isAction).1, action, isAction, pending⟩

theorem targetOf_eq {task : Nat} {action : Action} (isAction : plan[task]? = some action) :
    targetOf plan task = action.target := by
  simp [targetOf, isAction]

variable [DecidableEq Writer]

theorem programsAt_setWriter (writer : Writer) (next : Option (Str × Program)) (path : Str) :
    (execution.setWriter writer next).programsAt plan path =
      update (execution.programsAt plan path) (.inl writer)
        (next.bind fun held => if held.1 = path then some held.2 else none) := by
  funext party
  cases party with
  | inl other =>
    by_cases same : other = writer
    · subst same
      cases next <;> simp [programsAt, setWriter]
    · simp [programsAt, setWriter, same]
  | inr task => simp [programsAt, setWriter]

theorem programsAt_setTask (task : Nat) (next : Task) (path : Str) :
    (execution.setTask task next).programsAt plan path =
      update (execution.programsAt plan path) (.inr task)
        (if targetOf plan task = some path then next.program else none) := by
  funext party
  cases party with
  | inl writer => simp [programsAt, setTask]
  | inr other =>
    by_cases same : other = task
    · subst same
      simp [programsAt, setTask]
    · simp [programsAt, setTask, same]

end Parts

variable {Writer : Type} (plan : List Action)

/-- While a task may still change the row of a path, the content of the path is from before the plan.  Afterwards the
task only works on content from before the plan. -/
structure Guarded (since : Nat) (path : Str) (execution : Execution Writer) : Prop where
  disciplined : Disciplined (execution.places path) (execution.programsAt plan path)
  before : execution.pendingAt plan path = true -> Old since (execution.places path) ∧
    forall writer id generation, execution.programsAt plan path (.inl writer) = some (.committed id generation) ->
      generation.number < since
  after : forall task program id, execution.programsAt plan path (.inr task) = some program ->
    program.replaces = some id -> OldBacking since (execution.places path) id
  noIndex : forall task program index, targetOf plan task = some path -> execution.tasks task = .running program index ->
    index = none

section Steps

variable {plan : List Action} {since : Nat} {path : Str} {execution : Execution Writer}

/-- What happens at another path does not matter. -/
theorem Guarded.elsewhere (guarded : Guarded plan since path execution) {other : Str} (isOther : other ≠ path)
    (place : Place (Sum Writer Nat)) : Guarded plan since path (execution.setPlace other place) := by
  have same : (execution.setPlace other place).places path = execution.places path := by
    simp [setPlace, isOther.symm]
  refine ⟨?_, ?_, ?_, guarded.noIndex⟩
  · rw [same]
    exact guarded.disciplined
  · rw [same]
    exact guarded.before
  · rw [same]
    exact guarded.after

/-- The kinds of actions that are left become fewer. -/
theorem Guarded.setPhases (guarded : Guarded plan since path execution) {phases : List ActionType}
    (fewer : forall type, type ∈ phases -> type ∈ execution.phases) :
    Guarded plan since path { execution with phases := phases } := by
  refine ⟨guarded.disciplined, ?_, guarded.after, guarded.noIndex⟩
  intro pending
  apply guarded.before
  rcases (pendingAt_iff plan _ path).mp pending with ⟨task, action, isAction, targets, unsettled⟩
  refine (pendingAt_iff plan execution path).mpr ⟨task, action, isAction, targets, ?_⟩
  cases own : execution.tasks task with
  | waiting =>
    simp only [own, Task.unsettled, List.contains_iff_mem] at unsettled ⊢
    exact fewer _ unsettled
  | running program index => simpa only [own, Task.unsettled] using unsettled
  | done => simp [own, Task.unsettled] at unsettled

variable {action : Action} {index : Option Str} {program next : Program} {task : Nat} {writer : Writer}
  {event : Event} {place : Place (Sum Writer Nat)}

/-- A task that begins at the path is a download that keeps the body or a deletion. -/
theorem begin_spec (place : Place (Sum Writer Nat)) (content : Str)
    (keepsBody : action.type ≠ .deleteLocal -> action.indexOnly = false)
    (begins : Task.begin place action content = .running program index) :
    index = none ∧ program.locked = none ∧
      forall id, program.fileId = some id -> Exists fun row => place.row = some row ∧ row.id = id := by
  unfold Task.begin at begins
  by_cases removal : action.type = .deleteLocal
  · rw [if_pos removal] at begins
    split at begins
    · rename_i row stored
      cases begins
      refine ⟨rfl, rfl, ?_⟩
      intro id inHand
      cases inHand
      exact ⟨row, stored, rfl⟩
    · simp at begins
  · rw [if_neg removal, keepsBody removal, if_neg (by simp)] at begins
    cases begins
    exact ⟨rfl, rfl, by simp [Program.fileId, Program.locked]⟩

theorem waiting_of_hasTurn (isAction : plan[task]? = some action) (hasTurn : execution.hasTurn plan task) :
    (execution.tasks task).unsettled execution.phases action.type := by
  simp only [Execution.hasTurn, isAction, Bool.and_eq_true, decide_eq_true_eq] at hasTurn
  rw [hasTurn.1, Task.unsettled, List.contains_iff_mem]
  exact List.mem_of_head? hasTurn.2

variable [DecidableEq Writer]

section

variable (guarded : Guarded plan since path execution)

include guarded

theorem Guarded.setWriter {next : Option (Str × Program)} (idle : forall program, next = some (path, program) ->
      program.locked = none ∧ (forall id, program.fileId = some id -> id < (execution.places path).nextId)) :
    Guarded plan since path (execution.setWriter writer next) := by
  have held : forall program, (next.bind fun held => if held.1 = path then some held.2 else none) = some program ->
      next = some (path, program) := by
    intro program isProgram
    rcases bind_eq_some_iff.mp isProgram with ⟨⟨other, own⟩, isNext, here⟩
    simp only [ite_none_right_eq_some, some.injEq] at here
    rw [isNext, here.1, here.2]
  refine ⟨?_, ?_, ?_, guarded.noIndex⟩
  · rw [programsAt_setWriter]
    apply guarded.disciplined.set
    · intro program id isProgram locked
      rw [(idle program (held program isProgram)).1] at locked
      simp at locked
    · exact fun program id isProgram => (idle program (held program isProgram)).2 id
  · intro pending
    refine ⟨(guarded.before pending).1, ?_⟩
    intro other id generation
    rw [programsAt_setWriter]
    by_cases same : other = writer
    · subst same
      rw [update_self]
      intro isProgram
      exact absurd (idle _ (held _ isProgram)).1 (by simp [Program.locked])
    · rw [update_of_ne (by simpa using same)]
      exact (guarded.before pending).2 other id generation
  · intro task program id
    exact guarded.after task program id

/-- A task changes its position without a step of its program. -/
theorem Guarded.setTask {next : Task}
    (idle : forall program index, targetOf plan task = some path -> next = .running program index ->
      program.locked = none ∧ (forall id, program.fileId = some id -> id < (execution.places path).nextId) ∧ index = none)
    (settles : forall action, plan[task]? = some action -> action.target = some path ->
      next.unsettled execution.phases action.type ->
        (execution.tasks task).unsettled execution.phases action.type) :
    Guarded plan since path (execution.setTask task next) := by
  have held : forall program, (if targetOf plan task = some path then next.program else none) = some program ->
      targetOf plan task = some path ∧ Exists fun index => next = .running program index := by
    intro program isProgram
    simp only [ite_none_right_eq_some] at isProgram
    refine ⟨isProgram.1, ?_⟩
    cases next with
    | running own index =>
      cases isProgram.2
      exact ⟨index, rfl⟩
    | waiting | done => simp [Task.program] at isProgram
  have unlocked : forall program, (if targetOf plan task = some path then next.program else none) = some program ->
      program.locked = none ∧ forall id, program.fileId = some id -> id < (execution.places path).nextId := by
    intro program isProgram
    rcases held program isProgram with ⟨targets, index, isNext⟩
    rcases idle program index targets isNext with ⟨noLock, known, _⟩
    exact ⟨noLock, known⟩
  refine ⟨?_, ?_, ?_, ?_⟩
  · rw [programsAt_setTask]
    apply guarded.disciplined.set
    · intro program id isProgram locked
      rw [(unlocked program isProgram).1] at locked
      simp at locked
    · exact fun program id isProgram => (unlocked program isProgram).2 id
  · intro pending
    have pendingBefore : execution.pendingAt plan path := by
      rw [pendingAt_iff] at pending ⊢
      rcases pending with ⟨other, action, isAction, targets, unsettled⟩
      refine ⟨other, action, isAction, targets, ?_⟩
      by_cases same : other = task
      · subst same
        simp only [Execution.setTask, update_self] at unsettled
        exact settles action isAction targets unsettled
      · simpa only [Execution.setTask, update_of_ne same] using unsettled
    refine ⟨(guarded.before pendingBefore).1, ?_⟩
    intro writer id generation
    exact (guarded.before pendingBefore).2 writer id generation
  · intro other program id
    rw [programsAt_setTask]
    by_cases same : other = task
    · subst same
      rw [update_self]
      intro isProgram replaces
      have locked := Program.locked_of_replaces replaces
      rw [(unlocked program isProgram).1] at locked
      simp at locked
    · rw [update_of_ne (by simpa using same)]
      exact guarded.after other program id
  · intro other program index targets isRunning
    rcases update_cases isRunning with ⟨rfl, isNext⟩ | ⟨_, isRunning⟩
    · exact (idle program index targets isNext).2.2
    · exact guarded.noIndex other program index targets isRunning

/-- A local user's program takes a step at the path. -/
theorem Guarded.write (own : execution.writers writer = some (path, program))
    (taken : program.step (.inl writer) (execution.places path) event = some (place, next))
    (unhurried : program.commits event -> execution.pendingAt plan path = false) :
    Guarded plan since path ((execution.setPlace path place).setWriter writer (some (path, next))) := by
  have move := move_of_step taken
  have running : execution.programsAt plan path (.inl writer) = some program := by simp [programsAt, own]
  have programs : ((execution.setPlace path place).setWriter writer (some (path, next))).programsAt plan path =
      update (execution.programsAt plan path) (.inl writer) (some next) := by
    rw [programsAt_setWriter]
    simp only [bind_some, if_true]
    rfl
  have isPlace : ((execution.setPlace path place).setWriter writer (some (path, next))).places path = place := by
    simp [Execution.setWriter, setPlace]
  refine ⟨?_, ?_, ?_, guarded.noIndex⟩
  · rw [programs, isPlace]
    exact move.disciplined guarded.disciplined running
  · intro pending
    have noCommit : program.commits event = false := by
      by_contra commits
      have none := unhurried (by simpa using commits)
      exact absurd (pending.symm.trans none) (by simp)
    rcases guarded.before pending with ⟨old, staged⟩
    rcases step_without_commit taken noCommit with ⟨unchanged, notCommitted⟩
    rw [programs, isPlace]
    constructor
    · apply move.stays_old old unchanged
      rintro id generation rfl
      exact staged writer id generation running
    · intro other id generation
      by_cases same : other = writer
      · subst same
        rw [update_self]
        exact fun isNext => absurd (some.inj isNext) (notCommitted id generation)
      · rw [update_of_ne (by simpa using same)]
        exact staged other id generation
  · intro task other id
    rw [programs, isPlace, update_of_ne (by simp)]
    intro isOther replaces
    have locked := Program.locked_of_replaces replaces
    have held := guarded.disciplined.owned _ other id isOther locked
    apply move.keeps_old_backing
    · intro ownLock
      rw [guarded.disciplined.owned _ program id running ownLock] at held
      simp at held
    · exact guarded.disciplined.known _ other id isOther (Program.fileId_of_locked locked)
    · exact guarded.after task other id isOther replaces

section

variable
  (sole : forall first second, targetOf plan first = some path -> targetOf plan second = some path -> first = second)

include sole

/-- The program of the task at the path takes a step. -/
theorem Guarded.work (own : execution.tasks task = .running program index) (targets : targetOf plan task = some path)
    (taken : program.step (.inr task) (execution.places path) event = some (place, next)) :
    Keeps since (execution.places path) place ∧
      Guarded plan since path ((execution.setPlace path place).setTask task (.running next index)) := by
  have move := move_of_step taken
  have running : execution.programsAt plan path (.inr task) = some program := by
    simp [programsAt, targets, own, Task.program]
  have programs : ((execution.setPlace path place).setTask task (.running next index)).programsAt plan path =
      update (execution.programsAt plan path) (.inr task) (some next) := by
    rw [programsAt_setTask, if_pos targets]
    rfl
  have isPlace : ((execution.setPlace path place).setTask task (.running next index)).places path = place := by
    simp [Execution.setTask, setPlace]
  have noIndex := guarded.noIndex task program index targets own
  rcases bind_eq_some_iff.mp targets with ⟨action, isAction, isTarget⟩
  have old : program.pending -> Old since (execution.places path) := by
    intro pending
    refine (guarded.before ((pendingAt_iff plan execution path).mpr ⟨task, action, isAction, isTarget, ?_⟩)).1
    simp [own, Task.unsettled, pending]
  have replaced : forall id, program.replaces = some id -> OldBacking since (execution.places path) id :=
    fun id => guarded.after task program id running
  refine ⟨move.keeps old replaced, ?_, ?_, ?_, ?_⟩
  · rw [programs, isPlace]
    exact move.disciplined guarded.disciplined running
  · intro pending
    rcases (pendingAt_iff plan _ path).mp pending with ⟨other, otherAction, isOther, otherTarget, unsettled⟩
    have same : other = task := sole other task ((targetOf_eq plan isOther).trans otherTarget) targets
    subst same
    simp only [Execution.setTask, update_self, Task.unsettled, noIndex, isSome_none, Bool.or_false]
      at unsettled
    rcases move.pending unsettled with ⟨pendingBefore, sameRow, sameBacking⟩
    have oldBefore := old pendingBefore
    rw [programs, isPlace]
    refine ⟨⟨fun row stored => oldBefore.row row (sameRow ▸ stored),
      fun id generation stored => oldBefore.backing id generation (sameBacking ▸ stored)⟩, ?_⟩
    intro writer id generation
    have pendingAtBefore : execution.pendingAt plan path :=
      (pendingAt_iff plan execution path).mpr ⟨other, action, isAction, isTarget, by simp [own, Task.unsettled, pendingBefore]⟩
    exact (guarded.before pendingAtBefore).2 writer id generation
  · intro other otherProgram id
    rw [programs, isPlace]
    by_cases same : other = task
    · subst same
      rw [update_self]
      intro isNext replaces
      cases isNext
      exact move.replaces old replaced id replaces
    · rw [update_of_ne (by simpa using same)]
      intro isOther
      simp only [programsAt, ite_none_right_eq_some] at isOther
      exact absurd (sole other task isOther.1 targets) same
  · intro other otherProgram otherIndex otherTargets isRunning
    have same : other = task := sole other task otherTargets targets
    subst same
    simp only [Execution.setTask, update_self, Task.running.injEq] at isRunning
    rw [← isRunning.2]
    exact noIndex

/-- Every step keeps the guard, if local users do not update the row before the task. -/
theorem Guarded.step
    (keepsBody : forall action, action ∈ plan -> action.target = some path -> action.type ≠ .deleteLocal ->
      action.indexOnly = false) {label : Label Writer} {next : Execution Writer}
    (unhurried : forall writer event program, label = .write writer event ->
      execution.writers writer = some (path, program) -> program.commits event ->
        execution.pendingAt plan path = false) (taken : execution.step plan label = some next) :
    Guarded plan since path next := by
  cases label <;> simp only [Execution.step] at taken
  case create writer other content expected =>
    split at taken <;> cases taken
    apply guarded.setWriter
    intro program isProgram
    cases isProgram
    exact ⟨rfl, by simp [Program.fileId, Program.locked]⟩
  case sealCopy writer other content =>
    split at taken <;> cases taken
    rename_i file _ cached
    apply guarded.setWriter
    intro program isProgram
    cases isProgram
    refine ⟨rfl, ?_⟩
    intro id inHand
    cases inHand
    exact guarded.disciplined.entryKnown file cached
  case write writer event =>
    split at taken
    · simp at taken
    rename_i other program own
    rcases map_eq_some_iff.mp taken with ⟨⟨place, moved⟩, stepped, rfl⟩
    by_cases here : other = path
    · subst here
      exact guarded.write own stepped (unhurried writer event program rfl own)
    · apply (guarded.elsewhere here place).setWriter
      intro otherProgram isProgram
      cases isProgram
      exact absurd rfl here
  case leave writer =>
    split at taken
    · simp at taken
    split at taken <;> cases taken
    exact guarded.setWriter (by simp)
  case start task content =>
    split at taken
    · rename_i action other isAction targets
      rcases Transition.guarded taken with ⟨hasTurn, rfl⟩
      apply guarded.setTask
      · intro program index here begins
        cases targets.symm.trans here
        have isTarget := (targetOf_eq plan isAction).symm.trans here
        rcases begin_spec _ content (keepsBody action (List.mem_of_getElem? isAction) isTarget) begins with
          ⟨noIndex, unlocked, inHand⟩
        refine ⟨unlocked, ?_, noIndex⟩
        intro id isId
        rcases inHand id isId with ⟨row, stored, rfl⟩
        exact guarded.disciplined.rowKnown row stored
      · intro other isOther _ _
        exact waiting_of_hasTurn isOther hasTurn
    · simp at taken
  case work task event =>
    split at taken
    · rename_i program index other own targets
      rcases map_eq_some_iff.mp taken with ⟨⟨place, moved⟩, stepped, rfl⟩
      by_cases here : other = path
      · subst here
        exact (guarded.work sole own targets stepped).2
      · apply (guarded.elsewhere here place).setTask
        · intro otherProgram otherIndex isPath
          exact absurd (some.inj (targets.symm.trans isPath)) here
        · intro action isAction isPath
          rw [targetOf_eq plan isAction, isPath] at targets
          exact absurd (some.inj targets).symm here
    · simp at taken
  case resume task =>
    split at taken <;> cases taken
    rename_i id content own
    apply guarded.setTask
    · intro program index targets
      exact absurd (guarded.noIndex task _ _ targets own) (by simp)
    · intro action isAction isTarget
      exact absurd (guarded.noIndex task _ _ ((targetOf_eq plan isAction).trans isTarget) own) (by simp)
  case finish task =>
    have done : next = execution.setTask task .done := by
        split at taken <;> cases taken <;> rfl
    rw [done]
    exact guarded.setTask (by simp) (by simp [Task.unsettled])
  case skip task =>
    rcases Transition.guarded taken with ⟨_, rfl⟩
    exact guarded.setTask (by simp) (by simp [Task.unsettled])
  case advance =>
    split at taken
    · simp at taken
    rename_i type rest isPhases
    split at taken <;> cases taken
    apply guarded.setPhases
    intro other isLeft
    rw [isPhases]
    exact List.mem_cons_of_mem type isLeft
  case abort =>
    cases taken
    exact guarded.setPhases (by simp)

end

end

end Steps

/-! ## Whole passes -/

/-- The moment at which the rows are read: no task has begun, and all content has been committed. -/
structure Initial (start : Execution Writer) : Prop where
  waiting : forall task, start.tasks task = .waiting
  disciplined : forall path, Disciplined (start.places path) (start.programsAt plan path)
  old : forall path, Old (start.places path).commits.length (start.places path)
  staged : forall writer path id generation, start.writers writer = some (path, .committed id generation) ->
    generation.number < (start.places path).commits.length

theorem guarded_of_initial {plan : List Action} {start : Execution Writer} (initial : Initial plan start) (path : Str) :
    Guarded plan (start.places path).commits.length path start := by
  have noTask : forall task, start.programsAt plan path (.inr task) = none := by
    intro task
    simp [programsAt, initial.waiting task, Task.program]
  refine ⟨initial.disciplined path, fun _ => ⟨initial.old path, ?_⟩, ?_, ?_⟩
  · intro writer id generation isProgram
    simp only [programsAt] at isProgram
    split at isProgram
    · rename_i place program own
      simp only [ite_none_right_eq_some, some.injEq] at isProgram
      rw [isProgram.1, isProgram.2] at own
      exact initial.staged writer path id generation own
    · simp at isProgram
  · intro task program id isProgram
    rw [noTask task] at isProgram
    simp at isProgram
  · intro task program index _ isRunning
    rw [initial.waiting task] at isRunning
    simp at isRunning

variable [DecidableEq Writer]

/-- A local user updates the row of a path that had a local file only when no task may still change it. -/
def Unhurried (ctx : Cloud) (plan : List Action) (execution : Execution Writer) (label : Label Writer) : Prop :=
  match label with
  | .write writer event =>
    match execution.writers writer with
    | some (path, program) => program.commits event = true -> (ctx.localMap.lookup path).isSome = true ->
        execution.pendingAt plan path = false
    | none => True
  | _ => True

instance (ctx : Cloud) (plan : List Action) (execution : Execution Writer) (label : Label Writer) :
    Decidable (Unhurried ctx plan execution label) := by
  unfold Unhurried
  split
  · split <;> infer_instance
  · infer_instance

/-- In a pass during which local users do not update a row before the task of its path has, no task replaces or removes
content that was committed after the rows were read, at a path that had a local file then. -/
theorem tasks_keep_later_edits {ctx : Cloud} {policy : RemotePolicy} {plan : List Action} (keyed : Keyed ctx)
    (built : build ctx policy = .ok plan) {start execution next : Execution Writer} (initial : Initial plan start)
    {labels : List (Label Writer)} (reached : run (Execution.step plan) start labels = some execution)
    (unhurried : Along (Execution.step plan) (Unhurried ctx plan) start labels) {task : Nat} {event : Event}
    (worked : execution.step plan (.work task event) = some next) {path : Str}
    (hadLocal : (ctx.localMap.lookup path).isSome = true) :
    Keeps (start.places path).commits.length (execution.places path) (next.places path) := by
  have sole : forall first second, targetOf plan first = some path -> targetOf plan second = some path ->
      first = second := fun _ _ => task_unique keyed built
  have keepsBody : forall action, action ∈ plan -> action.target = some path -> action.type ≠ .deleteLocal ->
      action.indexOnly = false := by
    intro action member isTarget notRemoval
    by_contra indexes
    rw [build_eq_assemble built] at member
    have noLocal := indexOnly_without_local keyed member isTarget (by simpa using indexes) notRemoval
    simp [noLocal] at hadLocal
  have guarded : Guarded plan (start.places path).commits.length path execution := by
    refine run_induction ?_ reached unhurried (guarded_of_initial initial path)
    intro state label after allowed taken guarded
    refine guarded.step sole keepsBody ?_ taken
    rintro writer writerEvent program rfl own commits
    simp only [Unhurried, own] at allowed
    exact allowed commits hadLocal
  simp only [Execution.step] at worked
  split at worked
  · rename_i program index other own targets
    rcases map_eq_some_iff.mp worked with ⟨⟨place, moved⟩, stepped, rfl⟩
    by_cases here : other = path
    · subst here
      have kept := (guarded.work sole own targets stepped).1
      simpa [Execution.setTask, setPlace] using kept
    · apply Keeps.of_same <;> simp [Execution.setTask, setPlace, Ne.symm here]
  · simp at worked

/-! ## A pass over one file -/

open Planner (textFile scheduledPass)

def notePath : Str :=
  str "/note.txt"

/-- The note as both sides had it last. -/
def note : File :=
  textFile 1 notePath (some (str "h1")) 100

def askPolicy : RemotePolicy :=
  { strategy := .sync, conflictPolicy := .ask, maxDownloadedBytes := none }

/-- The object was overwritten on another node. -/
def overwrittenPass : Cloud :=
  scheduledPass (singleton notePath note)
    (singleton notePath (textFile 0 notePath (some (str "h2")) 200)) (singleton 1 (Baseline.afterUpload note)) []

/-- The object was removed on another node. -/
def removedPass : Cloud :=
  scheduledPass (singleton notePath note) ∅ (singleton 1 (Baseline.afterUpload note)) [notePath]

def ensureAction : Action :=
  { type := .ensureDirectories, key := [], localFile := none, remote := none }

def overwrittenPlan : List Action :=
  [ensureAction,
    { type := .download, key := notePath, localFile := some note,
      remote := some (textFile 0 notePath (some (str "h2")) 200) }]

def removedPlan : List Action :=
  [ensureAction, { type := .deleteLocal, key := notePath, localFile := some note, remote := none }]

theorem build_overwrittenPass : build overwrittenPass askPolicy = .ok overwrittenPlan := by
  rfl

theorem build_removedPass : build removedPass askPolicy = .ok removedPlan := by
  rfl

def planned : Generation :=
  { content := str "v1", number := 0 }

def emptyPlace : Place (Sum Unit Nat) :=
  { row := none, entry := none, backing := fun _ => none, holder := fun _ => none, nextId := 1, commits := [] }

def notePlace : Place (Sum Unit Nat) :=
  { row := some { id := 1, generation := planned }, entry := some { id := 1, generation := planned },
    backing := update (fun _ => none) 1 (some planned), holder := fun _ => none, nextId := 2,
    commits := [str "v1"] }

/-- The vault when the rows are read. -/
def whenRead : Execution Unit :=
  { places := update (fun _ => emptyPlace) notePath notePlace, writers := fun _ => none,
    tasks := fun _ => .waiting, phases := executorPhases }

/-- A user saves a file through `createFile`. -/
def saves (path : Str) (content : String) : List (Label Unit) :=
  [.create () path (str content) none, .write () .look, .write () .lock, .write () .commit, .write () .rename,
    .write () .refresh, .leave ()]

/-- The executor comes to the downloads, and the download of the note fetches its object. -/
def startsDownload : List (Label Unit) :=
  [.skip 0, .advance, .advance, .start 1 (str "theirs"), .work 1 .look, .work 1 .lock]

def startsRemoval : List (Label Unit) :=
  [.skip 0, .advance, .advance, .advance, .advance, .advance, .start 1 [], .work 1 .lock]

/-- The content of the note, and its bytes. -/
def noteContent (execution : Execution Unit) : Option Generation × Option Generation :=
  ((execution.places notePath).row.map Row.generation, (execution.places notePath).backing 1)

/-- An edit made after the plan and before the task is replaced by the object, or removed with the file. -/
theorem edit_after_plan_lost :
    (build overwrittenPass askPolicy = .ok overwrittenPlan ∧
      (run (Execution.step overwrittenPlan) whenRead (saves notePath "mine" ++ startsDownload)).map noteContent =
        some (some ⟨str "mine", 1⟩, some ⟨str "mine", 1⟩) ∧
      (run (Execution.step overwrittenPlan) whenRead
          (saves notePath "mine" ++ startsDownload ++ [.work 1 .commit, .work 1 .rename])).map noteContent =
        some (some ⟨str "theirs", 2⟩, some ⟨str "theirs", 2⟩)) ∧
    (build removedPass askPolicy = .ok removedPlan ∧
      (run (Execution.step removedPlan) whenRead (saves notePath "mine" ++ startsRemoval)).map noteContent =
        some (some ⟨str "mine", 1⟩, some ⟨str "mine", 1⟩) ∧
      (run (Execution.step removedPlan) whenRead
          (saves notePath "mine" ++ startsRemoval ++ [.work 1 .commit, .work 1 .evict, .work 1 .unlink])).map noteContent =
        some (none, none)) := by
  refine ⟨⟨build_overwrittenPass, ?_, ?_⟩, build_removedPass, ?_, ?_⟩ <;> decide +kernel

theorem keyed_singleton {key other : Str} {file found : File} (isPath : file.path = key)
    (absolute : isAbsolute key) (normal : makeAbsolute key = key)
    (looked : (singleton key file : AList (fun _ : Str => File)).lookup other = some found) :
    found.path = other ∧ isAbsolute other ∧ makeAbsolute other = other := by
  by_cases same : other = key
  · subst same
    rw [← insert_empty, lookup_insert] at looked
    cases looked
    exact ⟨isPath, absolute, normal⟩
  · rw [← insert_empty, lookup_insert_ne same] at looked
    simp at looked

theorem keyed_overwrittenPass : Keyed overwrittenPass where
  localKey := fun _ _ => keyed_singleton rfl (by decide) (by decide)
  remoteKey := fun _ _ => keyed_singleton rfl (by decide) (by decide)

theorem initial_whenRead : Initial plan whenRead := by
  have noPrograms : forall path, whenRead.programsAt plan path = fun _ => none := by
    intro path
    funext party
    cases party <;> simp [programsAt, whenRead, Task.program]
  have resting : forall path, Disciplined (whenRead.places path) (fun _ => none) ∧
      Old (whenRead.places path).commits.length (whenRead.places path) := by
    intro path
    by_cases here : path = notePath
    · rw [show whenRead.places path = notePlace by simp [whenRead, here]]
      refine ⟨⟨by simp, by simp, ?_, ?_⟩, ?_, ?_⟩
      · rintro row ⟨⟩
        decide
      · rintro file ⟨⟩
        decide
      · rintro row ⟨⟩
        decide
      · intro id generation stored
        simp only [notePlace, update_apply] at stored
        split at stored
        · cases stored
          decide
        · simp at stored
    · rw [show whenRead.places path = emptyPlace by simp [whenRead, here]]
      exact ⟨⟨by simp, by simp, by simp [emptyPlace], by simp [emptyPlace]⟩, by simp [emptyPlace],
        by simp [emptyPlace, OldBacking]⟩
  refine ⟨fun _ => rfl, ?_, fun path => (resting path).2, by simp [whenRead]⟩
  intro path
  rw [noPrograms path]
  exact (resting path).1

/-- A user who saves the note while the download holds the lock waits for it. -/
def savesDuringDownload : List (Label Unit) :=
  startsDownload ++ [.create () notePath (str "mine") none, .write () .look]

theorem tasks_keep_later_edits_waiting :
    Exists fun execution : Execution Unit => Exists fun next : Execution Unit =>
      run (Execution.step overwrittenPlan) whenRead savesDuringDownload = some execution ∧
        execution.step overwrittenPlan (.work 1 .commit) = some next ∧
          Keeps 1 (execution.places notePath) (next.places notePath) := by
  have unhurried : Along (Execution.step overwrittenPlan) (Unhurried overwrittenPass overwrittenPlan) whenRead
      savesDuringDownload := by decide +kernel
  have reached : (run (Execution.step overwrittenPlan) whenRead (savesDuringDownload ++ [.work 1 .commit])).isSome =
      true := by decide +kernel
  rw [Transition.run_append] at reached
  rcases isSome_iff_exists.mp reached with ⟨next, isNext⟩
  rcases bind_eq_some_iff.mp isNext with ⟨execution, isExecution, last⟩
  rcases Transition.run_cons last with ⟨after, worked, isAfter⟩
  cases isAfter
  have hadLocal : (overwrittenPass.localMap.lookup notePath).isSome = true := by decide +kernel
  have kept := tasks_keep_later_edits keyed_overwrittenPass build_overwrittenPass (initial_whenRead overwrittenPlan)
    isExecution unhurried worked hadLocal
  exact ⟨execution, next, isExecution, worked, kept⟩

end Execution

end Sync
end Vaulthalla
