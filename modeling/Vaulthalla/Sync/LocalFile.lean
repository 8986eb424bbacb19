import Vaulthalla.Foundation.ByteString
import Vaulthalla.Foundation.Transition

namespace Vaulthalla
namespace Sync

open Foundation Transition Function

/-!
# The local file at a path

The local side of a path is a row of the database, an entry of the filesystem
cache and the backing files, one for each file id.  The programs that change
its content are `Filesystem::createFile`, `WorkingCopies::seal`,
`CloudEngine::indexAndDeleteFile` and `Engine::removeLocally`.  The first two
are what local users run; a sync pass runs all but the second.

Each program looks at one part of the state before it takes the content lock
of the file id, and at another one afterwards.  `createFile` finds the cache
entry and asks for it again under the lock, and it compares the generation
only if its caller names one.  Without an entry it inserts a new file and
takes no lock.  `seal` keeps the entry it found.  `removeLocally` finds the
row by path and reads it again by id.  What the row said when the caller
decided to write is not looked at.
-/

/-! ## Content -/

/-- The content of a file since an update of its row.  The updates of a path are numbered, and the number stands for the
initialisation vector, which is new for each of them. -/
structure Generation where
  content : Str
  number : Nat
deriving DecidableEq

/-- `Generation::sourceId`: the vector, or one value for all empty files. -/
def Generation.sourceId (generation : Generation) : Option Nat :=
  if generation.content.isEmpty then none else some generation.number

structure Row where
  id : Nat
  generation : Generation
deriving DecidableEq

/-- The local side of a path. -/
structure Place (Party : Type) where
  row : Option Row
  /-- The entry of the filesystem cache, with the fields it holds. -/
  entry : Option Row
  backing : Nat -> Option Generation
  /-- `contentWriteMutex`, by file id. -/
  holder : Nat -> Option Party
  nextId : Nat
  /-- The contents that the row was given, in their order. -/
  commits : List Str

namespace Place

variable {Party : Type}

section

variable (place : Place Party)

def acquire (id : Nat) (party : Party) : Place Party :=
  { place with holder := update place.holder id (some party) }

def release (id : Nat) : Place Party :=
  { place with holder := update place.holder id none }

/-- The generation that the next update of the row gives the content. -/
def next (content : Str) : Generation :=
  { content := content, number := place.commits.length }

/-- `updateFile`, on a row that exists. -/
def update (id : Nat) (content : Str) : Place Party :=
  { place with row := some { id := id, generation := place.next content }, commits := place.commits ++ [content] }

/-- `upsertFile` for a new file, whose backing file has been written under a new name. -/
def insert (content : Str) : Place Party :=
  { place with
    row := some { id := place.nextId, generation := place.next content }
    backing := Function.update place.backing place.nextId (some (place.next content))
    nextId := place.nextId + 1
    commits := place.commits ++ [content] }

def setBacking (id : Nat) (bytes : Option Generation) : Place Party :=
  { place with backing := Function.update place.backing id bytes }

end

end Place

/-! ## Programs -/

/-- Where a program stands. -/
inductive Program
  /-- `createFile` with the source id that its caller expects, if any. -/
  | looking (content : Str) (expected : Option (Option Nat))
  | waiting (id : Nat) (content : Str) (expected : Option (Option Nat))
  | inserting (content : Str)
  | inserted (row : Row)
  /-- `seal`, with the entry it found. -/
  | sealing (id : Nat) (content : Str)
  /-- Either of the two, under the lock. -/
  | holding (id : Nat) (content : Str)
  | committed (id : Nat) (generation : Generation)
  | renamed (id : Nat) (generation : Generation)
  /-- `indexAndDeleteFile`, with the content that the remote file describes. -/
  | indexing (id : Nat) (content : Str)
  | describing (id : Nat) (content : Str)
  | described (id : Nat)
  /-- `removeLocally`. -/
  | removing (id : Nat)
  | deleting (id : Nat)
  | deleted (id : Nat)
  | evicted (id : Nat)
  | finished (id : Option Nat)
  /-- `ContentConflict`. -/
  | conflicted | failed
deriving DecidableEq

namespace Program

/-- The file id whose content lock the program holds. -/
def locked : Program -> Option Nat
  | holding id _ | committed id _ | renamed id _ | describing id _ | described id | deleting id | deleted id
  | evicted id => some id
  | _ => none

/-- The file id that the program has in hand. -/
def fileId : Program -> Option Nat
  | waiting id _ _ | sealing id _ | indexing id _ | removing id => some id
  | inserted row => some row.id
  | finished id => id
  | program => program.locked

/-- The program may still change the row. -/
def pending : Program -> Bool
  | looking _ _ | waiting _ _ _ | inserting _ | sealing _ _ | holding _ _ | indexing _ _ | describing _ _ | removing _
  | deleting _ => true
  | _ => false

def ended : Program -> Bool
  | finished _ | conflicted | failed => true
  | _ => false

end Program

inductive Event
  | look | lock
  /-- The file is open through the mounted filesystem. -/
  | busy | commit | rename | refresh | insert | cache | evict | unlink | fail
deriving DecidableEq

section Step

variable {Party : Type}

/-- The update of the row by a program that holds the lock.  It fails if the row of the file id is gone. -/
def updateRow (place : Place Party) (id : Nat) (content : Str) (next : Program) : Place Party × Program :=
  if place.row.any (fun row => row.id = id) then (place.update id content, next) else (place.release id, .failed)

/-- An exception gives the lock back. -/
def stop (place : Place Party) (program : Program) : Place Party :=
  match program.locked with
  | some id => place.release id
  | none => place

/-- One step of a program. -/
def Program.step (party : Party) (place : Place Party) (program : Program) (event : Event) :
    Option (Place Party × Program) :=
  match program, event with
  | .looking content expected, .look =>
    match place.entry with
    | some file => some (place, .waiting file.id content expected)
    | none => some (place, .inserting content)
  | .waiting id content expected, .lock =>
    if (place.holder id).isSome then none
    else if place.entry.any fun file => file.id = id && expected.all fun source => source = file.generation.sourceId
    then some (place.acquire id party, .holding id content)
    else some (place, .conflicted)
  | .waiting _ _ (some _), .busy => some (place, .conflicted)
  | .inserting content, .insert =>
    some (place.insert content, .inserted { id := place.nextId, generation := place.next content })
  | .inserted row, .cache => some ({ place with entry := some row }, .finished (some row.id))
  | .sealing id content, .lock =>
    if (place.holder id).isSome then none else some (place.acquire id party, .holding id content)
  | .holding id content, .commit => some (updateRow place id content (.committed id (place.next content)))
  | .committed id generation, .rename => some (place.setBacking id (some generation), .renamed id generation)
  | .renamed id generation, .refresh =>
    some ({ place.release id with entry := some { id := id, generation := generation } }, .finished (some id))
  | .indexing id content, .lock =>
    if (place.holder id).isSome then none else some (place.acquire id party, .describing id content)
  | .describing id content, .commit => some (updateRow place id content (.described id))
  | .described id, .unlink => some ((place.setBacking id none).release id, .finished (some id))
  | .removing id, .lock =>
    if (place.holder id).isSome then none
    else if place.row.any fun row => row.id = id then some (place.acquire id party, .deleting id)
    else some (place, .finished none)
  | .deleting id, .commit =>
    if place.row.any fun row => row.id = id then some ({ place with row := none }, .deleted id)
    else some (place.release id, .failed)
  | .deleted id, .evict =>
    some ({ place with entry := if place.entry.any (fun file => file.id = id) then none else place.entry }, .evicted id)
  | .evicted id, .unlink => some ((place.setBacking id none).release id, .finished none)
  | program, .fail => if program.ended then none else some (stop place program, .failed)
  | _, _ => none

/-- What the steps do, one constructor for each outcome. -/
inductive Move (party : Party) (place : Place Party) : Program -> Place Party -> Program -> Prop
  | found {content : Str} {expected : Option (Option Nat)} {file : Row} (cached : place.entry = some file) :
      Move party place (.looking content expected) place (.waiting file.id content expected)
  | missing {content : Str} {expected : Option (Option Nat)} (uncached : place.entry = none) :
      Move party place (.looking content expected) place (.inserting content)
  | admitted {id : Nat} {content : Str} {expected : Option (Option Nat)} {file : Row} (free : place.holder id = none)
      (cached : place.entry = some file) (same : file.id = id)
      (unchanged : forall source, expected = some source -> file.generation.sourceId = source) :
      Move party place (.waiting id content expected) (place.acquire id party) (.holding id content)
  | refused {id : Nat} {content : Str} {expected : Option (Option Nat)} :
      Move party place (.waiting id content expected) place .conflicted
  | inserted {content : Str} :
      Move party place (.inserting content) (place.insert content)
        (.inserted { id := place.nextId, generation := place.next content })
  | cached {row : Row} :
      Move party place (.inserted row) { place with entry := some row } (.finished (some row.id))
  | sealed {id : Nat} {content : Str} (free : place.holder id = none) :
      Move party place (.sealing id content) (place.acquire id party) (.holding id content)
  | committed {id : Nat} {content : Str} {row : Row} (stored : place.row = some row) (same : row.id = id) :
      Move party place (.holding id content) (place.update id content) (.committed id (place.next content))
  | renamed {id : Nat} {generation : Generation} :
      Move party place (.committed id generation) (place.setBacking id (some generation)) (.renamed id generation)
  | refreshed {id : Nat} {generation : Generation} :
      Move party place (.renamed id generation)
        { place.release id with entry := some { id := id, generation := generation } } (.finished (some id))
  | indexed {id : Nat} {content : Str} (free : place.holder id = none) :
      Move party place (.indexing id content) (place.acquire id party) (.describing id content)
  | described {id : Nat} {content : Str} {row : Row} (stored : place.row = some row) (same : row.id = id) :
      Move party place (.describing id content) (place.update id content) (.described id)
  | dropped {id : Nat} :
      Move party place (.described id) ((place.setBacking id none).release id) (.finished (some id))
  | claimed {id : Nat} (free : place.holder id = none) :
      Move party place (.removing id) (place.acquire id party) (.deleting id)
  | gone {id : Nat} : Move party place (.removing id) place (.finished none)
  | deleted {id : Nat} {row : Row} (stored : place.row = some row) (same : row.id = id) :
      Move party place (.deleting id) { place with row := none } (.deleted id)
  | evicted {id : Nat} :
      Move party place (.deleted id)
        { place with entry := if place.entry.any (fun file => file.id = id) then none else place.entry } (.evicted id)
  | unlinked {id : Nat} :
      Move party place (.evicted id) ((place.setBacking id none).release id) (.finished none)
  | stopped {program : Program} (running : program.ended = false) : Move party place program (stop place program) .failed

theorem any_row {row : Option Row} {id : Nat} (present : row.any (fun row => row.id = id) = true) :
    Exists fun stored => row = some stored ∧ stored.id = id := by
  cases row with
  | none => simp at present
  | some stored => exact ⟨stored, rfl, by simpa using present⟩

theorem free_of_isSome {holder : Option Party} (free : ¬ holder.isSome) : holder = none := by
  simpa using free

variable {after place : Place Party} {party : Party}

theorem move_of_updateRow {program updated next : Program} {id : Nat} {content : Str}
    (running : program.ended = false) (locked : program.locked = some id)
    (updates : forall row, place.row = some row -> row.id = id ->
      Move party place program (place.update id content) updated)
    (taken : updateRow place id content updated = (after, next)) : Move party place program after next := by
  unfold updateRow at taken
  split at taken
  · rename_i present
    cases taken
    rcases any_row present with ⟨row, stored, same⟩
    exact updates row stored same
  · cases taken
    have stops : Move party place program (stop place program) .failed := .stopped running
    simpa [stop, locked] using stops

theorem move_of_step {program next : Program} {event : Event}
    (taken : program.step party place event = some (after, next)) : Move party place program after next := by
  unfold Program.step at taken
  split at taken
  · split at taken <;> cases taken
    · rename_i cached
      exact .found cached
    · rename_i uncached
      exact .missing uncached
  · split at taken
    · simp at taken
    rename_i free
    split at taken <;> cases taken
    · rename_i admits
      cases cached : place.entry with
      | none => simp [cached] at admits
      | some file =>
        simp only [cached, Option.any_some, Bool.and_eq_true, decide_eq_true_eq] at admits
        refine .admitted (free_of_isSome free) cached admits.1 ?_
        intro source isExpected
        have unchanged := admits.2
        simp only [isExpected, Option.all_some, decide_eq_true_eq] at unchanged
        exact unchanged.symm
    · exact .refused
  · cases taken
    exact .refused
  · cases taken
    exact .inserted
  · cases taken
    exact .cached
  · split at taken <;> cases taken
    rename_i free
    exact .sealed (free_of_isSome free)
  · exact move_of_updateRow rfl rfl (fun _ stored same => .committed stored same) (Option.some.inj taken)
  · cases taken
    exact .renamed
  · cases taken
    exact .refreshed
  · split at taken <;> cases taken
    rename_i free
    exact .indexed (free_of_isSome free)
  · exact move_of_updateRow rfl rfl (fun _ stored same => .described stored same) (Option.some.inj taken)
  · cases taken
    exact .dropped
  · split at taken
    · simp at taken
    rename_i free
    split at taken <;> cases taken
    · exact .claimed (free_of_isSome free)
    · exact .gone
  · split at taken <;> cases taken
    · rename_i present
      rcases any_row present with ⟨row, stored, same⟩
      exact .deleted stored same
    · exact .stopped rfl
  · cases taken
    exact .evicted
  · cases taken
    exact .unlinked
  · split at taken
    · simp at taken
    rename_i running
    cases taken
    exact .stopped (by simpa using running)
  · simp at taken

end Step

/-! ## Locks and file ids -/

section Discipline

variable {Party : Type} {party : Party} {place after : Place Party} {program next : Program}

@[simp] theorem stop_row : (stop place program).row = place.row := by
  unfold stop
  split <;> rfl

@[simp] theorem stop_entry : (stop place program).entry = place.entry := by
  unfold stop
  split <;> rfl

@[simp] theorem stop_backing : (stop place program).backing = place.backing := by
  unfold stop
  split <;> rfl

@[simp] theorem stop_nextId : (stop place program).nextId = place.nextId := by
  unfold stop
  split <;> rfl

@[simp] theorem stop_commits : (stop place program).commits = place.commits := by
  unfold stop
  split <;> rfl

section

variable (move : Move party place program after next)
  (owned : forall id, program.locked = some id -> place.holder id = some party)

include move owned

/-- A program that holds a lock has taken it, or has it from before. -/
theorem Move.holds : forall id, next.locked = some id -> after.holder id = some party := by
  intro id locked
  cases move with
  | admitted | sealed | indexed | claimed =>
    cases locked
    simp [Place.acquire]
  | committed | renamed | described | deleted | evicted => exact owned id locked
  | _ =>
    simp [Program.locked] at locked

/-- The locks of others stay with them. -/
theorem Move.others_hold {other : Party} (isOther : other ≠ party) {id : Nat} (held : place.holder id = some other) :
    after.holder id = some other := by
  have notOwn : forall own, program.locked = some own -> id ≠ own := by
    intro own locked same
    rw [same, owned own locked] at held
    exact isOther (Option.some.inj held).symm
  have notFree : forall own, place.holder own = none -> id ≠ own := by
    intro own free same
    rw [same, free] at held
    simp at held
  have released : forall own, program.locked = some own -> (place.release own).holder id = some other := by
    intro own locked
    simp [Place.release, notOwn own locked, held]
  cases move with
  | found | missing | refused | gone | inserted | cached | committed | renamed | described | deleted | evicted => exact held
  | admitted free | sealed free | indexed free | claimed free => simp [Place.acquire, notFree _ free, held]
  | refreshed | dropped | unlinked => exact released _ rfl
  | stopped =>
    unfold stop
    split
    · rename_i own locked
      exact released own locked
    · exact held

end

theorem Move.nextId_le (move : Move party place program after next) : place.nextId ≤ after.nextId := by
  cases move <;> simp [Place.acquire, Place.update, Place.insert, Place.setBacking, Place.release]

/-- The locks that programs hold are theirs, and no file id in use is still to be given out. -/
structure Disciplined (place : Place Party) (programs : Party -> Option Program) : Prop where
  owned : forall party program id, programs party = some program -> program.locked = some id ->
    place.holder id = some party
  known : forall party program id, programs party = some program -> program.fileId = some id -> id < place.nextId
  rowKnown : forall row, place.row = some row -> row.id < place.nextId
  entryKnown : forall file, place.entry = some file -> file.id < place.nextId

theorem Program.fileId_of_locked {id : Nat} (locked : program.locked = some id) : program.fileId = some id := by
  cases program <;> simp_all [Program.locked, Program.fileId]

variable {programs : Party -> Option Program}

theorem Move.known (move : Move party place program after next) (disciplined : Disciplined place programs)
    (own : programs party = some program) : forall id, next.fileId = some id -> id < after.nextId := by
  have kept : forall id, program.fileId = some id -> id < place.nextId := fun id => disciplined.known party program id own
  intro id inHand
  cases move with
  | found cached =>
    cases inHand
    exact disciplined.entryKnown _ cached
  | inserted =>
    cases inHand
    exact Nat.lt_succ_self _
  | missing | refused | gone | unlinked | stopped => simp [Program.fileId, Program.locked] at inHand
  | _ => exact kept id inHand

section Parties

variable [DecidableEq Party]

/-- A party starts on a program, or leaves the one it has come to the end of. -/
theorem Disciplined.set (disciplined : Disciplined place programs) {program : Option Program}
    (unlocked : forall own id, program = some own -> own.locked ≠ some id)
    (known : forall own id, program = some own -> own.fileId = some id -> id < place.nextId) :
    Disciplined place (update programs party program) := by
  refine ⟨?_, ?_, disciplined.rowKnown, disciplined.entryKnown⟩
  · intro mover own id isOwn locked
    rcases update_cases isOwn with ⟨_, isOwn⟩ | ⟨_, isOwn⟩
    · exact absurd locked (unlocked own id isOwn)
    · exact disciplined.owned mover own id isOwn locked
  · intro mover own id isOwn inHand
    rcases update_cases isOwn with ⟨_, isOwn⟩ | ⟨_, isOwn⟩
    · exact known own id isOwn inHand
    · exact disciplined.known mover own id isOwn inHand

theorem Move.disciplined (move : Move party place program after next) (disciplined : Disciplined place programs)
    (own : programs party = some program) : Disciplined after (update programs party (some next)) := by
  have owned : forall id, program.locked = some id -> place.holder id = some party :=
    fun id => disciplined.owned party program id own
  refine ⟨?_, ?_, ?_, ?_⟩
  · intro mover other id isOther locked
    rcases update_cases isOther with ⟨rfl, ⟨⟩⟩ | ⟨same, isOther⟩
    · exact move.holds owned id locked
    · exact move.others_hold owned same (disciplined.owned mover other id isOther locked)
  · intro mover other id isOther inHand
    rcases update_cases isOther with ⟨_, ⟨⟩⟩ | ⟨_, isOther⟩
    · exact move.known disciplined own id inHand
    · exact (disciplined.known mover other id isOther inHand).trans_le move.nextId_le
  · intro row stored
    have ofProgram : forall id, program.locked = some id -> id < place.nextId :=
      fun id locked => disciplined.known party program id own (Program.fileId_of_locked locked)
    cases move with
    | inserted =>
      cases stored
      exact Nat.lt_succ_self _
    | committed | described =>
      cases stored
      exact ofProgram _ rfl
    | deleted => simp at stored
    | stopped => exact (disciplined.rowKnown row (stop_row ▸ stored)).trans_eq stop_nextId.symm
    | _ => exact disciplined.rowKnown row stored
  · intro file cached
    cases move with
    | cached | refreshed =>
      cases cached
      exact disciplined.known party _ _ own rfl
    | inserted => exact (disciplined.entryKnown file cached).trans (Nat.lt_succ_self _)
    | evicted =>
      split at cached
      · simp at cached
      · exact disciplined.entryKnown file cached
    | stopped => exact (disciplined.entryKnown file (stop_entry ▸ cached)).trans_eq stop_nextId.symm
    | _ => exact disciplined.entryKnown file cached

end Parties

end Discipline

end Sync
end Vaulthalla
