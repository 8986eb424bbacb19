import Vaulthalla.Foundation.Transition

namespace Vaulthalla
namespace Sync
namespace Scheduler

open Function

/-!
# The sync tasks of one vault

The controller keeps a task for the vault in its task map and a queue of
tasks.  The run loop takes tasks that are due, or interrupted, from the queue
and hands the others to the pool; a pass that has ended well puts its task
back.  `runNow` asks the running task for another pass, or replaces the task
by a new one that is due at once.  A refresh creates the task of a new engine.
An event-scoped pass takes the lease of the vault, and a regular pass of a
cloud vault that finds the lease taken is put back for two seconds.

The flags and `next_run` of a task are shared between the pass, the requests
and the run loop, and no lock spans more than one of the steps below.  A task
is known by the number under which it was created.  The sync of the vault is
enabled throughout, and the vault is never removed.
-/

/-! ## Tasks -/

/-- The status in which a pass ends. -/
inductive Status
  | success | error | stalled | cancelled
deriving DecidableEq

/-- Where a task is. -/
inductive Place
  /-- Neither in the queue nor in the pool. -/
  | off | queued
  /-- Submitted to the pool. -/
  | handed
  /-- `startTask` has set the running flag. -/
  | starting
  /-- `newEvent` has taken the pending request. -/
  | running
  /-- `shutdown` has cleared the running flag. -/
  | stopped (status : Status)
  /-- It has asked for a pending request. -/
  | checked (pending : Bool)
  /-- It has set `next_run`, and puts the task back next. -/
  | scheduled
deriving DecidableEq

/-- The pool has nothing to do with the task. -/
def Place.rests : Place -> Bool
  | .off | .queued => true
  | _ => false

structure Task (Engine : Type) where
  engine : Engine
  nextRun : Nat
  (runNowFlag interrupted : Bool)
  place : Place
deriving DecidableEq

def Task.isRunning {Engine : Type} (task : Task Engine) : Bool :=
  match task.place with
  | .starting | .running => true
  | _ => false

/-- `Local::runNow`. -/
def Task.runNow {Engine : Type} (task : Task Engine) (now : Nat) : Task Engine :=
  { task with runNowFlag := true, nextRun := now }

/-- A new task in the queue. -/
def Task.create {Engine : Type} (engine : Engine) (nextRun : Nat) : Task Engine :=
  { engine := engine, nextRun := nextRun, runNowFlag := false, interrupted := false, place := .queued }

/-! ## Requests and passes -/

/-- A call of `Controller::runNow`. -/
inductive Request (Engine : Type)
  | idle
  | holding (id : Nat)
  | sawRunning (id : Nat)
  | sawIdle (id : Nat)
  /-- The old task is interrupted, and the new one is made but in no queue. -/
  | prepared (engine : Engine) (nextRun : Nat)

inductive RequestEvent
  | read | test | ask | interrupt | publish

inductive Holder
  | scoped
  | regular (id : Nat)

/-- The controller's view of one vault.  `asked` tells whether a request was accepted since a pass last took its requests. -/
structure State (Caller Engine : Type) where
  now : Nat
  tasks : Nat -> Option (Task Engine)
  created : Nat
  map : Option Nat
  lease : Option Holder
  requests : Caller -> Request Engine
  asked : Bool

inductive Label (Caller Engine : Type)
  | tick (elapsed : Nat)
  /-- The run loop takes the task from the queue. -/
  | pop (id : Nat)
  /-- The pool calls the task. -/
  | begin (id : Nat)
  | newEvent (id : Nat)
  | stop (id : Nat) (status : Status)
  | report (id : Nat)
  | schedule (id : Nat) (interval : Nat)
  | requeue (id : Nat)
  /-- A pass gives the lease back. -/
  | release | runScoped
  | request (caller : Caller) (event : RequestEvent)
  /-- `processTask`, with the `next_run` that a new task would start with. -/
  | refresh (engine : Engine) (nextRun : Nat)

section Steps

variable {Caller Engine : Type}

section

variable (state : State Caller Engine)

def State.setTask (id : Nat) (task : Task Engine) : State Caller Engine :=
  { state with tasks := update state.tasks id (some task) }

/-- The new task becomes the task of the vault. -/
def State.install (task : Task Engine) : State Caller Engine :=
  { state with
    tasks := update state.tasks state.created (some task)
    created := state.created + 1
    map := some state.created }

def State.interrupt (id : Nat) : State Caller Engine :=
  match state.tasks id with
  | none => state
  | some task => state.setTask id { task with interrupted := true }

end

theorem State.interrupt_rest (state : State Caller Engine) (id : Nat) :
    (state.interrupt id).requests = state.requests ∧ (state.interrupt id).asked = state.asked ∧
      (state.interrupt id).now = state.now := by
  unfold State.interrupt
  split
  · exact ⟨rfl, rfl, rfl⟩
  · exact ⟨rfl, rfl, rfl⟩

section

variable (cloud : Bool) (state : State Caller Engine) (id : Nat) (task : Task Engine)

/-- `Cloud::operator()` up to the running flag; a local vault has no lease. -/
def beginPass : State Caller Engine :=
  if cloud then
    match state.lease with
    | some _ => state.setTask id { task with nextRun := state.now + 2, place := .scheduled }
    | none =>
      State.setTask { state with lease := some (.regular id) } id { task with place := .starting }
  else state.setTask id { task with place := .starting }

/-- What the pass of a task does next. -/
def passStep :
    Label Caller Engine -> Option (State Caller Engine)
  | .pop _ =>
    if task.place = .queued ∧ (task.interrupted = true ∨ task.nextRun ≤ state.now) then
      some (state.setTask id { task with place := if task.interrupted then .off else .handed })
    else none
  | .begin _ => if task.place = .handed then some (beginPass cloud state id task) else none
  | .newEvent _ =>
    if task.place = .starting then
      some (State.setTask { state with asked := false } id { task with runNowFlag := false, place := .running })
    else none
  | .stop _ status =>
    if task.place = .running then some (state.setTask id { task with place := .stopped status }) else none
  | .report _ =>
    match task.place with
    | .stopped status =>
      some (state.setTask id
        { task with place := if status = .success then .checked task.runNowFlag else .off })
    | _ => none
  | .schedule _ interval =>
    match task.place with
    | .checked pending =>
      some (state.setTask id
        { task with nextRun := if pending then state.now else state.now + interval, place := .scheduled })
    | _ => none
  | .requeue _ => if task.place = .scheduled then some (state.setTask id { task with place := .queued }) else none
  | _ => none

end

/-- Who a step of a pass belongs to. -/
def Label.pass : Label Caller Engine -> Option Nat
  | .pop id | .begin id | .newEvent id | .stop id _ | .report id | .schedule id _ | .requeue id => some id
  | _ => none

/-- A regular pass keeps the lease while it is at work. -/
def State.working (state : State Caller Engine) (id : Nat) : Bool :=
  (state.tasks id).any fun task =>
    match task.place with
    | .starting | .running | .stopped _ | .checked _ | .scheduled => true
    | _ => false

variable [DecidableEq Caller]

def State.setRequest (state : State Caller Engine) (caller : Caller) (request : Request Engine) : State Caller Engine :=
  { state with requests := update state.requests caller request }

def requestStep (state : State Caller Engine) (caller : Caller) (event : RequestEvent) : Option (State Caller Engine) :=
  match state.requests caller, event with
  | .idle, .read => state.map.map fun id => state.setRequest caller (.holding id)
  | .holding id, .test =>
    (state.tasks id).map fun task =>
      state.setRequest caller (if task.isRunning then .sawRunning id else .sawIdle id)
  | .sawRunning id, .ask =>
    (state.tasks id).map fun task =>
      State.setTask { state.setRequest caller .idle with asked := true } id (task.runNow state.now)
  | .sawIdle id, .interrupt =>
    (state.tasks id).map fun task =>
      (state.interrupt id).setRequest caller (.prepared task.engine state.now)
  | .prepared engine nextRun, .publish =>
    some (State.install { state.setRequest caller .idle with asked := true }
      { Task.create engine nextRun with runNowFlag := true })
  | _, _ => none

variable [DecidableEq Engine]

/-- `processTask` for an engine whose sync is enabled. -/
def processTask (state : State Caller Engine) (engine : Engine) (nextRun : Nat) : State Caller Engine :=
  match state.map with
  | none => state.install (Task.create engine nextRun)
  | some id =>
    if (state.tasks id).any (fun task => task.engine = engine) then state
    else (state.interrupt id).install (Task.create engine nextRun)

def step (cloud : Bool) (state : State Caller Engine) (label : Label Caller Engine) : Option (State Caller Engine) :=
  match label with
  | .tick elapsed => some { state with now := state.now + elapsed }
  | .release =>
    match state.lease with
    | none => none
    | some .scoped => some { state with lease := none }
    | some (.regular id) => if state.working id then none else some { state with lease := none }
  | .runScoped => if cloud && state.lease.isNone then some { state with lease := some .scoped } else none
  | .request caller event => requestStep state caller event
  | .refresh engine nextRun => some (processTask state engine nextRun)
  | label =>
    match label.pass with
    | none => none
    | some id => (state.tasks id).bind fun task => passStep cloud state id task label

/-- The vault after its first refresh. -/
def initial (engine : Engine) (nextRun : Nat) : State Caller Engine :=
  processTask { now := 0, tasks := fun _ => none, created := 0, map := none, lease := none, requests := fun _ => .idle
                asked := false } engine nextRun

end Steps

end Scheduler
end Sync
end Vaulthalla
