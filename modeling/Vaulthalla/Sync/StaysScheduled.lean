import Vaulthalla.Sync.Scheduler

namespace Vaulthalla
namespace Sync
namespace Scheduler

open Foundation Transition Function Option

/-!
# An enabled vault stays scheduled

A pass that ends with any status but success leaves its task in the map and
in no queue: `shutdown` puts the task back after a success only, and a refresh
pushes a task only for an engine that has none.  Such a vault has no further
periodic pass until a request or a new engine replaces the task.

A request can lose its effect in four ways: it arrives between the question
for pending requests and the assignment of `next_run`, it reaches a task that
has been replaced, a refresh replaces the task that holds it, or the pass that
was to serve it finds the lease taken.
-/

variable {Caller Engine : Type}

/-! ## Orderly steps -/

/-- A request comes too late for the pass and too early for the queue. -/
def Place.misses : Place -> Bool
  | .checked _ => true
  | _ => false

/-- The steps after which the vault stays scheduled. -/
def Orderly [DecidableEq Engine] (cloud : Bool) (state : State Caller Engine) : Label Caller Engine -> Prop
  | .stop id status => state.map = some id -> status = .success
  -- the run loop does not come between the interruption of a task and the queueing of its successor
  | .pop id => state.map = some id -> (state.tasks id).all (fun task => !task.interrupted) = true
  | .begin id => state.map = some id -> state.asked = true -> (cloud && state.lease.isSome) = false
  | .request caller .ask =>
    match state.requests caller with
    | .sawRunning id => state.map = some id ∧ (state.tasks id).all (fun task => !task.place.misses) = true
    | _ => True
  | .refresh engine nextRun =>
    state.asked = true ->
      state.map.any (fun id => (state.tasks id).any fun task => task.engine = engine) = true ∨ nextRun ≤ state.now
  | _ => True

/-! ## What holds of the task in the map -/

/-- The task serves a request that was accepted since a pass last took its requests. -/
def Timely (now : Nat) (task : Task Engine) : Prop :=
  match task.place with
  | .queued | .handed | .scheduled => task.nextRun ≤ now
  | .starting => True
  | .running | .stopped _ => task.runNowFlag = true
  | .checked pending => pending = true
  | .off => False

/-- Some request is about to put a new task into the map. -/
def Succession (requests : Caller -> Request Engine) : Prop :=
  Exists fun caller : Caller => Exists fun engine : Engine => Exists fun nextRun : Nat =>
    requests caller = .prepared engine nextRun

structure Fit (requests : Caller -> Request Engine) (asked : Bool) (now : Nat) (task : Task Engine) : Prop where
  present : task.place ≠ .off
  succeeds : forall status, task.place = .stopped status -> status = .success
  interrupted : task.interrupted = true -> Succession requests
  timely : asked = true -> Timely now task

structure Kept (state : State Caller Engine) : Prop where
  mapped : Exists fun id : Nat => Exists fun task : Task Engine =>
    state.map = some id ∧ id < state.created ∧ state.tasks id = some task ∧
      Fit state.requests state.asked state.now task
  prepared : forall caller engine nextRun, state.requests caller = .prepared engine nextRun -> nextRun ≤ state.now

namespace Kept

variable {state : State Caller Engine} {id : Nat} {cloud : Bool} {label : Label Caller Engine}
  {next : State Caller Engine} {caller : Caller}

section

variable (kept : Kept state)

include kept

theorem task {task : Task Engine} (isMapped : state.map = some id) (isTask : state.tasks id = some task) :
    Fit state.requests state.asked state.now task := by
  rcases kept.mapped with ⟨other, found, isOther, _, isFound, fit⟩
  rw [isMapped] at isOther
  cases isOther
  rw [isTask] at isFound
  cases isFound
  exact fit

theorem setTask {old new : Task Engine} (isOld : state.tasks id = some old)
    (fit : state.map = some id -> Fit state.requests state.asked state.now old ->
      Fit state.requests state.asked state.now new) : Kept (state.setTask id new) := by
  refine ⟨?_, kept.prepared⟩
  rcases kept.mapped with ⟨mapped, task, isMapped, known, isTask, isFit⟩
  by_cases same : mapped = id
  · subst same
    rw [isOld] at isTask
    cases isTask
    exact ⟨mapped, new, isMapped, known, update_self mapped _ _, fit isMapped isFit⟩
  · exact ⟨mapped, task, isMapped, known, (update_of_ne same _ _).trans isTask, isFit⟩

theorem withLease (lease : Option Holder) : Kept { state with lease := lease } :=
  { kept with }

theorem served : Kept { state with asked := false } := by
  rcases kept.mapped with ⟨id, task, isMapped, known, isTask, fit⟩
  exact ⟨⟨id, task, isMapped, known, isTask, ⟨fit.present, fit.succeeds, fit.interrupted, by simp⟩⟩, kept.prepared⟩

theorem tick (elapsed : Nat) : Kept { state with now := state.now + elapsed } := by
  rcases kept.mapped with ⟨id, task, isMapped, known, isTask, fit⟩
  refine ⟨⟨id, task, isMapped, known, isTask, ⟨fit.present, fit.succeeds, fit.interrupted, fun asked => ?_⟩⟩, ?_⟩
  · have timely := fit.timely asked
    unfold Timely at timely ⊢
    split at timely <;> simp_all
    all_goals omega
  · intro caller engine nextRun isPrepared
    exact Nat.le_trans (kept.prepared caller engine nextRun isPrepared) (Nat.le_add_right _ _)

end

/-- A new task that is due whenever a request is outstanding. -/
theorem install (prepared : forall caller engine nextRun, state.requests caller = .prepared engine nextRun ->
      nextRun ≤ state.now)
    {task : Task Engine} (isQueued : task.place = .queued) (fresh : task.interrupted = false)
    (due : state.asked -> task.nextRun ≤ state.now) : Kept (state.install task) := by
  refine ⟨⟨state.created, task, rfl, Nat.lt_succ_self _, update_self _ _ _, ?_⟩, prepared⟩
  refine ⟨by simp [isQueued], by simp [isQueued], by simp [fresh], fun asked => ?_⟩
  simp only [Timely, isQueued]
  exact due asked

theorem passStep (kept : Kept state) {task : Task Engine} [DecidableEq Engine] (isTask : state.tasks id = some task)
    (isPass : label.pass = some id) (orderly : Orderly cloud state label)
    (taken : Scheduler.passStep cloud state id task label = some next) : Kept next := by
  cases label <;> cases isPass
  case pop other =>
    rcases guarded taken with ⟨ready, rfl⟩
    refine kept.setTask isTask fun isMapped fit => ?_
    have calm : task.interrupted = false := by
      simpa [isTask] using orderly isMapped
    refine ⟨by simp [calm], by simp [calm], by simp [calm], fun asked => ?_⟩
    have due : task.nextRun ≤ state.now := ready.2.resolve_left (by simp [calm])
    simpa [Timely, calm] using due
  case begin other =>
    rcases guarded taken with ⟨_, rfl⟩
    unfold beginPass
    split
    · rename_i isCloud
      split
      · rename_i holder isHeld
        refine kept.setTask isTask fun isMapped fit => ⟨by simp, by simp, fit.interrupted, fun asked => ?_⟩
        simpa [isCloud, isHeld] using orderly isMapped asked
      · exact (kept.withLease _).setTask isTask fun _ fit => ⟨by simp, by simp, fit.interrupted, fun _ => trivial⟩
    · exact kept.setTask isTask fun _ fit => ⟨by simp, by simp, fit.interrupted, fun _ => trivial⟩
  case newEvent other =>
    rcases guarded taken with ⟨_, rfl⟩
    exact kept.served.setTask isTask fun _ fit => ⟨by simp, by simp, fit.interrupted, by simp⟩
  case stop other status =>
    rcases guarded taken with ⟨isRunning, rfl⟩
    refine kept.setTask isTask fun isMapped fit => ⟨by simp, ?_, fit.interrupted, fun asked => ?_⟩
    · rintro other isStopped
      cases isStopped
      exact orderly isMapped
    · simpa [Timely, isRunning] using fit.timely asked
  case report other =>
    simp only [Scheduler.passStep] at taken
    split at taken
    · rename_i status isStopped
      cases taken
      refine kept.setTask isTask fun isMapped fit => ?_
      have success := fit.succeeds status isStopped
      refine ⟨by simp [success], by simp [success], fit.interrupted, fun asked => ?_⟩
      simpa [Timely, isStopped, success] using fit.timely asked
    · simp at taken
  case schedule other interval =>
    simp only [Scheduler.passStep] at taken
    split at taken
    · rename_i pending isChecked
      cases taken
      refine kept.setTask isTask fun isMapped fit => ⟨by simp, by simp, fit.interrupted, fun asked => ?_⟩
      have isPending : pending := by
        simpa [Timely, isChecked] using fit.timely asked
      simp [Timely, isPending]
    · simp at taken
  case requeue other =>
    rcases guarded taken with ⟨isScheduled, rfl⟩
    refine kept.setTask isTask fun _ fit => ⟨by simp, by simp, fit.interrupted, fun asked => ?_⟩
    simpa [Timely, isScheduled] using fit.timely asked

theorem processTask [DecidableEq Engine] (kept : Kept state) {engine : Engine} {nextRun : Nat}
    (orderly : Orderly cloud state (.refresh engine nextRun)) : Kept (Scheduler.processTask state engine nextRun) := by
  rcases kept.mapped with ⟨id, task, isMapped, _, isTask, _⟩
  unfold Scheduler.processTask
  simp only [isMapped]
  split
  · exact kept
  · rename_i changed
    have due : state.asked -> nextRun ≤ state.now := by
      intro asked
      refine (orderly asked).resolve_left ?_
      simpa [isMapped] using changed
    rcases State.interrupt_rest state id with ⟨requests, asked, now⟩
    refine .install ?_ rfl rfl ?_
    · rw [requests, now]
      exact kept.prepared
    · rw [asked, now]
      exact due

variable [DecidableEq Caller]

/-- A request that takes a step without having prepared a task, before or after. -/
theorem setRequest (kept : Kept state) {request : Request Engine}
    (before : forall engine nextRun, state.requests caller ≠ .prepared engine nextRun)
    (after : forall engine nextRun, request ≠ .prepared engine nextRun) : Kept (state.setRequest caller request) := by
  rcases kept.mapped with ⟨id, task, isMapped, known, isTask, fit⟩
  refine ⟨⟨id, task, isMapped, known, isTask, ⟨fit.present, fit.succeeds, fun interrupted => ?_, fit.timely⟩⟩, ?_⟩
  · rcases fit.interrupted interrupted with ⟨other, engine, nextRun, isPrepared⟩
    have different : other ≠ caller := by
      rintro rfl
      exact before engine nextRun isPrepared
    exact ⟨other, engine, nextRun, (update_of_ne different _ _).trans isPrepared⟩
  · intro other engine nextRun isPrepared
    rcases update_cases isPrepared with ⟨_, isPrepared⟩ | ⟨_, isPrepared⟩
    · exact absurd isPrepared (after engine nextRun)
    · exact kept.prepared other engine nextRun isPrepared

/-- The old task is interrupted once its successor is prepared. -/
theorem interrupt (kept : Kept state) (held : state.requests caller = .sawIdle id) (engine : Engine) :
    Kept ((state.interrupt id).setRequest caller (.prepared engine state.now)) := by
  have succession : Succession (update state.requests caller (.prepared engine state.now)) :=
    ⟨caller, engine, state.now, update_self _ _ _⟩
  have due : forall other otherEngine nextRun,
      update state.requests caller (.prepared engine state.now) other = .prepared otherEngine nextRun ->
        nextRun ≤ state.now := by
    intro other otherEngine nextRun isPrepared
    rcases update_cases isPrepared with ⟨_, ⟨⟩⟩ | ⟨_, isPrepared⟩
    · exact Nat.le_refl _
    · exact kept.prepared other otherEngine nextRun isPrepared
  rcases kept.mapped with ⟨mapped, task, isMapped, known, isTask, fit⟩
  unfold State.interrupt
  split
  · exact ⟨⟨mapped, task, isMapped, known, isTask, ⟨fit.present, fit.succeeds, fun _ => succession, fit.timely⟩⟩, due⟩
  · rename_i old isOld
    by_cases same : mapped = id
    · subst same
      rw [isTask] at isOld
      cases isOld
      exact ⟨⟨mapped, { task with interrupted := true }, isMapped, known, update_self mapped _ _,
        ⟨fit.present, fit.succeeds, fun _ => succession, fit.timely⟩⟩, due⟩
    · exact ⟨⟨mapped, task, isMapped, known, (update_of_ne same _ _).trans isTask,
        ⟨fit.present, fit.succeeds, fun _ => succession, fit.timely⟩⟩, due⟩

variable [DecidableEq Engine]

theorem requestStep (kept : Kept state) {event : RequestEvent} (orderly : Orderly cloud state (.request caller event))
    (taken : Scheduler.requestStep state caller event = some next) : Kept next := by
  unfold Scheduler.requestStep at taken
  split at taken
  case h_1 held =>
    rcases map_eq_some_iff.mp taken with ⟨id, isMapped, rfl⟩
    exact kept.setRequest (by simp [held]) (by simp)
  case h_2 held =>
    rcases map_eq_some_iff.mp taken with ⟨task, isTask, rfl⟩
    refine kept.setRequest (by simp [held]) ?_
    intro engine nextRun
    split <;> simp
  case h_3 id held =>
    rcases map_eq_some_iff.mp taken with ⟨task, isTask, rfl⟩
    simp only [Orderly, held, isTask, all_some, Bool.not_eq_true'] at orderly
    have settled : Kept (state.setRequest caller .idle) := kept.setRequest (by simp [held]) (by simp)
    have fit := settled.task orderly.1 isTask
    rcases settled.mapped with ⟨mapped, _, isMapped, known, _, _⟩
    cases some.inj (isMapped.symm.trans orderly.1)
    have timely : Timely state.now (task.runNow state.now) := by
      cases isPlace : task.place with
      | off => exact absurd isPlace fit.present
      | checked pending => simp [isPlace, Place.misses] at orderly
      | _ => simp [Timely, Task.runNow, isPlace]
    exact ⟨⟨id, task.runNow state.now, orderly.1, known, update_self _ _ _,
      ⟨fit.present, fit.succeeds, fit.interrupted, fun _ => timely⟩⟩, settled.prepared⟩
  case h_4 id held =>
    rcases map_eq_some_iff.mp taken with ⟨task, isTask, rfl⟩
    exact kept.interrupt held task.engine
  case h_5 engine nextRun held =>
    cases taken
    have due := kept.prepared caller engine nextRun held
    refine .install ?_ rfl rfl fun _ => due
    intro other otherEngine time isPrepared
    rcases update_cases isPrepared with ⟨_, ⟨⟩⟩ | ⟨_, isPrepared⟩
    exact kept.prepared other otherEngine time isPrepared
  case h_6 => simp at taken

theorem step (kept : Kept state) (orderly : Orderly cloud state label)
    (taken : Scheduler.step cloud state label = some next) : Kept next := by
  have passes : forall id, label.pass = some id ->
      ((state.tasks id).bind fun task => Scheduler.passStep cloud state id task label) = some next -> Kept next := by
    intro id isPass passed
    rcases bind_eq_some_iff.mp passed with ⟨task, isTask, moved⟩
    exact kept.passStep isTask isPass orderly moved
  cases label with
  | tick elapsed =>
    cases taken
    exact kept.tick elapsed
  | release =>
    simp only [Scheduler.step] at taken
    split at taken
    · simp at taken
    · cases taken
      exact kept.withLease none
    · rcases unguarded taken with ⟨_, rfl⟩
      exact kept.withLease none
  | runScoped =>
    rcases guarded taken with ⟨_, rfl⟩
    exact kept.withLease (some .scoped)
  | request caller event => exact kept.requestStep orderly taken
  | refresh engine nextRun =>
    cases taken
    exact kept.processTask orderly
  | pop id | begin id | newEvent id | stop id | report id | schedule id | requeue id => exact passes id rfl taken

end Kept

/-! ## Runs -/

section Runs

variable [DecidableEq Engine]

theorem kept_initial (engine : Engine) (nextRun : Nat) : Kept (initial engine nextRun : State Caller Engine) :=
  Kept.install (by simp) rfl rfl (by simp)

/-- No regular pass is running or handed to the pool. -/
def State.Resting (state : State Caller Engine) : Prop :=
  forall id, id < state.created -> (state.tasks id).all (fun task => task.place.rests) = true

/-- The task in the map is in the queue, to be run or to be followed by its successor, and it is due if a request was
accepted since a pass last took its requests. -/
structure Scheduled (state : State Caller Engine) (id : Nat) (task : Task Engine) : Prop where
  isMapped : state.map = some id
  isTask : state.tasks id = some task
  queued : task.place = .queued
  starts : task.interrupted = true -> Succession state.requests
  due : state.asked = true -> task.nextRun ≤ state.now

variable [DecidableEq Caller]

end Runs

/-! ## Runs that end without a queued task -/

instance [DecidableEq Engine] (cloud : Bool) (state : State Caller Engine) :
    (label : Label Caller Engine) -> Decidable (Orderly cloud state label)
  | .stop id status => inferInstanceAs (Decidable (state.map = some id -> status = .success))
  | .pop id => inferInstanceAs (Decidable (state.map = some id -> _ = true))
  | .begin id => inferInstanceAs (Decidable (state.map = some id -> state.asked = true -> _ = false))
  | .request caller event =>
    match event with
    | .ask =>
      match held : state.requests caller with
      | .sawRunning id =>
        decidable_of_iff (state.map = some id ∧ (state.tasks id).all (fun task => !task.place.misses) = true)
          (by simp [Orderly, held])
      | .idle | .holding _ | .sawIdle _ | .prepared _ _ => .isTrue (by simp [Orderly, held])
    | .read | .test | .interrupt | .publish => inferInstanceAs (Decidable True)
  | .refresh _ nextRun => inferInstanceAs (Decidable (state.asked = true -> _ = true ∨ nextRun ≤ state.now))
  | .tick _ | .newEvent _ | .report _ | .schedule _ _ | .requeue _ | .release | .runScoped =>
    inferInstanceAs (Decidable True)

instance (state : State Caller Engine) : Decidable state.Resting :=
  inferInstanceAs (Decidable (forall id, id < state.created -> _ = true))

/-- A pass of the first task from the queue to the end of its work. -/
def passUntilStop (status : Status) : List (Label Unit Bool) :=
  [.pop 0, .begin 0, .newEvent 0, .stop 0 status]

def passAfterReport : List (Label Unit Bool) :=
  [.schedule 0 60, .requeue 0]

def askWhileRunning : List (Label Unit Bool) :=
  [.request () .read, .request () .test]

/-- Whether no pass is under way, and the task of the vault. -/
def standing (state : State Unit Bool) : Bool × Option (Task Bool) × Bool × Nat :=
  (decide state.Resting, state.map.bind state.tasks, state.asked, state.now)

/-- A request is accepted while a pass runs, which then ends well. -/
def requestedPass : List (Label Unit Bool) :=
  [.pop 0, .begin 0, .newEvent 0] ++ askWhileRunning ++ [.request () .ask, .stop 0 .success, .report 0] ++
    passAfterReport

/-- No pass is under way, and the task of the vault is in no queue or not due in spite of a request. -/
def Unscheduled (state : State Unit Bool) : Prop :=
  state.Resting ∧ ¬ Exists fun id : Nat => Exists fun task : Task Bool => Scheduled state id task

theorem unscheduled_of_standing {state : State Unit Bool} {task : Task Bool} {asked : Bool} {now : Nat}
    (seen : standing state = (true, some task, asked, now))
    (missed : task.place ≠ .queued ∨ asked ∧ now < task.nextRun) : Unscheduled state := by
  simp only [standing, Prod.mk.injEq, decide_eq_true_eq] at seen
  rcases seen with ⟨resting, isTask, rfl, rfl⟩
  refine ⟨resting, ?_⟩
  rintro ⟨id, found, scheduled⟩
  have same : found = task := by
    rw [scheduled.isMapped, bind_some, scheduled.isTask] at isTask
    exact some.inj isTask
  subst same
  rcases missed with away | ⟨isAsked, later⟩
  · exact away scheduled.queued
  · exact absurd (scheduled.due isAsked) (by omega)

end Scheduler
end Sync
end Vaulthalla
