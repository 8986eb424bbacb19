import Vaulthalla.Sync.LocalFile
import Vaulthalla.Sync.PlanShape

namespace Vaulthalla
namespace Sync

open Foundation Function Sync.Action

/-!
# The execution of a plan

`Executor::run` goes through the kinds of actions in a fixed order.  The tasks
of one kind run side by side, and the next kind waits for them.  Meanwhile
local users create and overwrite files and seal working copies.

A download fetches the object and calls `createFile`; one that only indexes
describes the object in the row and removes the backing file; a local deletion
calls `removeLocally`.  The other actions leave the local content alone.
-/

/-! ## Tasks -/

namespace Action

/-- A download that does not keep the body. -/
def indexOnly (action : Action) : Bool :=
  action.type == .indexRemoteOnly || action.freeAfterDownload

/-- The path that `removeLocally` works on. -/
def removalPath (path : Str) : Str :=
  if isAbsolute path then path else slash :: path

/-- The path whose local content an action changes. -/
def target (action : Action) : Option Str :=
  match action.type with
  | .download | .indexRemoteOnly => (action.remote <|> action.localFile).map fun file => makeAbsolute file.path
  | .deleteLocal => action.localFile.map fun file => removalPath file.path
  | .ensureDirectories | .upload | .deleteRemote => none

end Action

inductive Task
  | waiting
  /-- The program of the task, and the content to index once the program has created a row for it. -/
  | running (program : Program) (index : Option Str)
  | done
deriving DecidableEq

namespace Task

def program : Task -> Option Program
  | running program _ => some program
  | _ => none

/-- The task may still change the row: its kind has not had its turn, or its program has not got there. -/
def unsettled (phases : List ActionType) (type : ActionType) : Task -> Bool
  | waiting => phases.contains type
  | running program index => program.pending || index.isSome
  | done => false

/-- The beginning of a task, with the content that it was given or has fetched. -/
def begin {Party : Type} (place : Place Party) (action : Action) (content : Str) : Task :=
  if action.type = .deleteLocal then
    match place.row with
    | some row => running (.removing row.id) none
    | none => done
  else if action.indexOnly then
    match place.row with
    | some row => running (.indexing row.id content) none
    | none => running (.looking [] none) (some content)
  else running (.looking content none) none

end Task

/-! ## The system -/

structure Execution (Writer : Type) where
  places : Str -> Place (Sum Writer Nat)
  /-- What each local user is doing, and where. -/
  writers : Writer -> Option (Str × Program)
  /-- The tasks, by their place in the plan. -/
  tasks : Nat -> Task
  /-- The kinds of actions that are left, with the current one first. -/
  phases : List ActionType

/-- The order of `Executor::run`. -/
def executorPhases : List ActionType :=
  [.ensureDirectories, .upload, .download, .indexRemoteOnly, .deleteRemote, .deleteLocal]

inductive Label (Writer : Type)
  | create (writer : Writer) (path content : Str) (expected : Option (Option Nat))
  | sealCopy (writer : Writer) (path content : Str)
  | write (writer : Writer) (event : Event)
  | leave (writer : Writer)
  | start (task : Nat) (content : Str)
  | work (task : Nat) (event : Event)
  | resume (task : Nat)
  | finish (task : Nat)
  /-- A task without local work, or one that fails before it. -/
  | skip (task : Nat)
  | advance
  /-- The request budget is exceeded. -/
  | abort

namespace Execution

variable {Writer : Type} [DecidableEq Writer] (plan : List Action)

def targetOf (task : Nat) : Option Str :=
  plan[task]?.bind target

/-- The kind of a task is the current one. -/
def hasTurn (execution : Execution Writer) (task : Nat) : Bool :=
  match plan[task]? with
  | some action => execution.tasks task = .waiting && execution.phases.head? = some action.type
  | none => false

/-- The barrier between two kinds: all tasks of this kind are done. -/
def settled (execution : Execution Writer) (type : ActionType) : Bool :=
  (List.range plan.length).all fun task =>
    plan[task]?.all fun action => action.type != type || execution.tasks task = .done

section

variable (execution : Execution Writer)

def setTask (task : Nat) (next : Task) : Execution Writer :=
  { execution with tasks := update execution.tasks task next }

def setWriter (writer : Writer) (next : Option (Str × Program)) : Execution Writer :=
  { execution with writers := update execution.writers writer next }

def setPlace (path : Str) (next : Place (Sum Writer Nat)) : Execution Writer :=
  { execution with places := update execution.places path next }

end

section

variable (plan : List Action) (execution : Execution Writer)

def step : Label Writer -> Option (Execution Writer)
  | .create writer path content expected =>
    match execution.writers writer with
    | some _ => none
    | none => some (execution.setWriter writer (some (path, .looking content expected)))
  | .sealCopy writer path content =>
    match execution.writers writer, (execution.places path).entry with
    | none, some file => some (execution.setWriter writer (some (path, .sealing file.id content)))
    | _, _ => none
  | .write writer event =>
    match execution.writers writer with
    | none => none
    | some (path, program) =>
      (program.step (.inl writer) (execution.places path) event).map fun result =>
        (execution.setPlace path result.1).setWriter writer (some (path, result.2))
  | .leave writer =>
    match execution.writers writer with
    | none => none
    | some (_, program) => if program.ended then some (execution.setWriter writer none) else none
  | .start task content =>
    match plan[task]?, targetOf plan task with
    | some action, some path =>
      if execution.hasTurn plan task then
        some (execution.setTask task (.begin (execution.places path) action content))
      else none
    | _, _ => none
  | .work task event =>
    match execution.tasks task, targetOf plan task with
    | .running program index, some path =>
      (program.step (.inr task) (execution.places path) event).map fun result =>
        (execution.setPlace path result.1).setTask task (.running result.2 index)
    | _, _ => none
  | .resume task =>
    match execution.tasks task with
    | .running (.finished (some id)) (some content) => some (execution.setTask task (.running (.indexing id content) none))
    | _ => none
  | .finish task =>
    match execution.tasks task with
    | .running (.finished _) none => some (execution.setTask task .done)
    | .running .conflicted _ => some (execution.setTask task .done)
    | .running .failed _ => some (execution.setTask task .done)
    | _ => none
  | .skip task => if execution.hasTurn plan task then some (execution.setTask task .done) else none
  | .advance =>
    match execution.phases with
    | [] => none
    | type :: rest => if execution.settled plan type then some { execution with phases := rest } else none
  | .abort => some { execution with phases := [] }

/-- The programs that are running at a path. -/
def programsAt (path : Str) : Sum Writer Nat -> Option Program
  | .inl writer =>
    match execution.writers writer with
    | some (place, program) => if place = path then some program else none
    | none => none
  | .inr task => if targetOf plan task = some path then (execution.tasks task).program else none

/-- A task of the plan may still change the row at a path. -/
def pendingAt (path : Str) : Bool :=
  (List.range plan.length).any fun task =>
    plan[task]?.any fun action =>
      action.target = some path && (execution.tasks task).unsettled execution.phases action.type

end

end Execution

/-! ## The targets of a plan -/

/-- The maps of a pass are keyed by the path of their files, which is absolute and normal (`groupEntriesByPath`). -/
structure Keyed (ctx : Cloud) : Prop where
  localKey : forall key file, ctx.localMap.lookup key = some file ->
    file.path = key ∧ isAbsolute key = true ∧ makeAbsolute key = key
  remoteKey : forall key file, ctx.s3Map.lookup key = some file ->
    file.path = key ∧ isAbsolute key = true ∧ makeAbsolute key = key

namespace Planner

variable {ctx : Cloud} {policy : RemotePolicy} {plan : List Action} {action : Action} {path : Str}

theorem target_of_planned (keyed : Keyed ctx) {key : Str} {localFile remote : Option File}
    (isLocal : action.localFile = localFile) (isRemote : action.remote = remote)
    (localKeyed : forall file, localFile = some file -> ctx.localMap.lookup key = some file)
    (remoteKeyed : forall file, remote = some file -> ctx.s3Map.lookup key = some file)
    (targeted : action.target = some path) : path = key := by
  have ofLocal : forall file, localFile = some file ->
      makeAbsolute file.path = key ∧ removalPath file.path = key := by
    intro file isFile
    rcases keyed.localKey key file (localKeyed file isFile) with ⟨same, absolute, normal⟩
    rw [same]
    exact ⟨normal, if_pos absolute⟩
  have ofRemote : forall file, remote = some file -> makeAbsolute file.path = key := by
    intro file isFile
    rcases keyed.remoteKey key file (remoteKeyed file isFile) with ⟨same, _, normal⟩
    rw [same]
    exact normal
  unfold target at targeted
  rw [isLocal, isRemote] at targeted
  have ofEither : ((remote <|> localFile).map fun file => makeAbsolute file.path) = some path -> path = key := by
    intro found
    rcases Option.map_eq_some_iff.mp found with ⟨file, isFile, same⟩
    cases isSome : remote with
    | some own =>
      rw [isSome] at isFile
      cases isFile
      exact same.symm.trans (ofRemote file isSome)
    | none =>
      rw [isSome] at isFile
      exact same.symm.trans (ofLocal file isFile).1
  cases type : action.type with
  | download | indexRemoteOnly =>
    rw [type] at targeted
    exact ofEither targeted
  | deleteLocal =>
    rw [type] at targeted
    rcases Option.map_eq_some_iff.mp targeted with ⟨file, isFile, same⟩
    exact same.symm.trans (ofLocal file isFile).2
  | ensureDirectories | upload | deleteRemote => simp [type] at targeted

section

variable (keyed : Keyed ctx) (member : action ∈ assemble ctx policy) (targeted : action.target = some path)

include keyed member targeted

/-- An action changes the local content at its own key only. -/
theorem target_eq_key : path = action.key := by
  rcases mem_assemble member with directories | planned | inRemote | inLocal
  · simp [target, directories] at targeted
  · exact target_of_planned keyed planned.localFile_eq planned.remote_eq (fun _ => id) (fun _ => id) targeted
  · simp [target, (remoteLeftovers_spec inRemote).2.1] at targeted
  · rcases localLeftovers_spec inLocal with ⟨_, type, _, localFile, hasLocal, same⟩
    simp only [target, type, same, Option.map_some, Option.some.injEq] at targeted
    rcases keyed.localKey _ _ hasLocal with ⟨isPath, absolute, _⟩
    rw [isPath, removalPath, if_pos absolute] at targeted
    exact targeted.symm

/-- A task that only indexes works at a path without a local file. -/
theorem indexOnly_without_local (indexes : action.indexOnly) (notRemoval : action.type ≠ .deleteLocal) :
    ctx.localMap.lookup path = none := by
  rw [target_eq_key keyed member targeted]
  rcases mem_assemble member with directories | planned | inRemote | inLocal
  · simp [target, directories] at targeted
  · apply planned.indexOnly
    simpa [indexOnly] using indexes
  · simp [target, (remoteLeftovers_spec inRemote).2.1] at targeted
  · exact absurd (localLeftovers_spec inLocal).2.1 notRemoval

end

theorem nodup_keys_of_build (built : build ctx policy = .ok plan) :
    ((plan.filter fun action => action.type != .ensureDirectories).map key).Nodup := by
  rcases assemble_emits ctx policy with ⟨emitted, assembled, distinct, _⟩
  have directoriesOnly : ((start ctx policy).plan.filter fun action => action.type != .ensureDirectories) = [] := by
    rw [List.filter_eq_nil_iff]
    intro action member
    simp [start_plan_type member]
  rw [build_eq_assemble built, assembled, List.filter_append, directoriesOnly, List.nil_append]
  exact (List.filter_sublist.map key).nodup distinct

/-- At most one task of a plan changes the local content at a path. -/
theorem task_unique (keyed : Keyed ctx) (built : build ctx policy = .ok plan) {first second : Nat}
    (firstTargets : Execution.targetOf plan first = some path)
    (secondTargets : Execution.targetOf plan second = some path) : first = second := by
  have distinct := nodup_keys_of_build built
  rw [List.Nodup, List.pairwise_map, List.pairwise_filter, List.pairwise_iff_getElem] at distinct
  have noDirectories : forall action : Action, action.target = some path ->
      (action.type != .ensureDirectories) = true := by
    intro action targeted
    cases type : action.type <;> first | rfl | simp [target, type] at targeted
  rcases Option.bind_eq_some_iff.mp firstTargets with ⟨firstAction, isFirst, firstTarget⟩
  rcases Option.bind_eq_some_iff.mp secondTargets with ⟨secondAction, isSecond, secondTarget⟩
  rcases List.getElem?_eq_some_iff.mp isFirst with ⟨firstBound, firstIs⟩
  rcases List.getElem?_eq_some_iff.mp isSecond with ⟨secondBound, secondIs⟩
  have isKey : forall action, action ∈ plan -> action.target = some path -> action.key = path := by
    intro action member targeted
    rw [build_eq_assemble built] at member
    exact (target_eq_key keyed member targeted).symm
  have sameKey : firstAction.key = secondAction.key := by
    rw [isKey firstAction (List.mem_of_getElem? isFirst) firstTarget,
      isKey secondAction (List.mem_of_getElem? isSecond) secondTarget]
  rcases Nat.lt_trichotomy first second with before | same | after
  · have different := distinct first second firstBound secondBound before
    rw [firstIs, secondIs] at different
    exact absurd sameKey (different (noDirectories _ firstTarget) (noDirectories _ secondTarget))
  · exact same
  · have different := distinct second first secondBound firstBound after
    rw [firstIs, secondIs] at different
    exact absurd sameKey.symm (different (noDirectories _ secondTarget) (noDirectories _ firstTarget))

end Planner

end Sync
end Vaulthalla
