import Vaulthalla.Foundation.ByteString
import Vaulthalla.Foundation.Pool
import Vaulthalla.Foundation.Transition

namespace Vaulthalla
namespace Crypto
namespace IntegrityRegistry

open Foundation

/-!
# The registry of integrity verdicts

The first reader of a generation of a file schedules one verification of its
tag, and every reader of that generation shares the ticket with the verdict.  A
full read that has checked the tag itself records its verdict.

A ticket is an object of its own: readers and jobs keep it after the registry
has evicted it.  Tickets are numbered by their creation here and never freed.
`ensure` is one critical section.  A worker takes a job in one, runs the
verification outside and settles the ticket at the end; `record` finds its
ticket in one, and then tests and settles it without a common lock.
-/

/-! ## Keys -/

/-- The bytes that one sealed message lives in. -/
structure IntegrityKey where
  (domain ivB64 : Str)
  (keyVersion dev ino size : Nat)
  mtimeNs : Int

def IntegrityKey.str (key : IntegrityKey) : Str :=
  key.domain ++ Foundation.str "|" ++ key.ivB64 ++ Foundation.str "|" ++ Foundation.str (toString key.keyVersion) ++
    Foundation.str "|" ++ Foundation.str (toString key.dev) ++ Foundation.str ":" ++ Foundation.str (toString key.ino) ++
    Foundation.str "|" ++ Foundation.str (toString key.size) ++ Foundation.str "|" ++
    Foundation.str (toString key.mtimeNs)

/-! ## The state -/

inductive IntegrityState
  | unknown | verifying | verified | failed | superseded
deriving DecidableEq

/-- `IntegrityTicket::failed` -/
def IntegrityState.isFailure : IntegrityState -> Bool
  | .failed | .superseded => true
  | .unknown | .verifying | .verified => false

/-- A worker with a job. -/
inductive Worker
  | verifying (ticket : Nat)
  /-- It has its verdict and has not settled the ticket yet. -/
  | settling (ticket : Nat) (verdict : IntegrityState)

/-- A call of `record` after its critical section. -/
inductive Recording
  | recorded (ticket : Nat) (verified : Bool)
  /-- A success, and the ticket had not failed when the call has tested it. -/
  | passed (ticket : Nat)

structure Stats where
  (verified failed superseded scheduled cacheHits : Nat)

structure State where
  capacity : Nat
  /-- The states of all tickets that were ever created. -/
  objects : List IntegrityState
  tickets : List (Str × Nat)
  order : List Str
  queue : List Nat
  workers : List Worker
  recordings : List Recording
  stats : Stats

def initial (capacity : Nat) : State where
  capacity := capacity
  objects := []
  tickets := []
  order := []
  queue := []
  workers := []
  recordings := []
  stats := { verified := 0, failed := 0, superseded := 0, scheduled := 0, cacheHits := 0 }

/-! ## Critical sections -/

/-- The loop of `evictLocked`: the oldest tickets that are not being verified leave. -/
def evict (state : State) : Nat -> State
  | 0 => state
  | budget + 1 =>
    if state.capacity < state.tickets.length then
      match state.order with
      | [] => state
      | oldest :: rest =>
        match state.tickets.lookup oldest with
        | none => evict { state with order := rest } budget
        | some ticket =>
          if state.objects[ticket]? = some .verifying then
            evict { state with order := rest ++ [oldest] } budget
          else
            evict { state with
              order := rest
              tickets := state.tickets.filter fun entry => entry.1 != oldest } budget
    else state

def evictLocked (state : State) : State :=
  evict state state.order.length

/-- A new ticket in the registry. -/
def register (state : State) (id : Str) (first : IntegrityState) : State :=
  evictLocked { state with
    objects := state.objects ++ [first]
    tickets := state.tickets ++ [(id, state.objects.length)]
    order := state.order ++ [id] }

/-- The ticket that `ensure` returns, and the state after it. -/
def ensure (state : State) (key : IntegrityKey) : Nat × State :=
  match state.tickets.lookup key.str with
  | some ticket => (ticket, { state with stats := { state.stats with cacheHits := state.stats.cacheHits + 1 } })
  | none =>
    let registered := register state key.str .verifying
    (state.objects.length,
      { registered with
        queue := registered.queue ++ [state.objects.length]
        stats := { registered.stats with scheduled := registered.stats.scheduled + 1 } })

def Stats.count (stats : Stats) : IntegrityState -> Stats
  | .verified => { stats with verified := stats.verified + 1 }
  | .failed => { stats with failed := stats.failed + 1 }
  | .superseded | .unknown | .verifying => { stats with superseded := stats.superseded + 1 }

/-- The critical section of `record`, with the ticket it finds or creates. -/
def findOrRegister (state : State) (key : IntegrityKey) : Nat × State :=
  match state.tickets.lookup key.str with
  | some ticket => (ticket, state)
  | none => (state.objects.length, register state key.str .unknown)

def record (state : State) (key : IntegrityKey) (verified : Bool) : State :=
  let found := findOrRegister state key
  { found.2 with
    recordings := found.2.recordings ++ [.recorded found.1 verified]
    stats := found.2.stats.count (if verified then .verified else .failed) }

/-! ## Verdicts -/

def settle (state : State) (ticket : Nat) (verdict : IntegrityState) : State :=
  { state with objects := state.objects.set ticket verdict }

/-- A mismatch of a generation that was replaced meanwhile is no corruption. -/
def verdictOf (ok stillCurrent : Bool) : IntegrityState :=
  if ok then .verified else if stillCurrent then .failed else .superseded

inductive Label
  | ensure (key : IntegrityKey)
  | record (key : IntegrityKey) (verified : Bool)
  | takeJob
  /-- The verification returns or throws, and the check for the current generation answers. -/
  | finishJob (worker : Nat) (ok stillCurrent : Bool)
  | settleJob (worker : Nat)
  | advanceRecord (call : Nat)

def State.step (state : State) : Label -> Option State
  | .ensure key => some (IntegrityRegistry.ensure state key).2
  | .record key verified => some (IntegrityRegistry.record state key verified)
  | .takeJob =>
    match state.queue with
    | [] => none
    | ticket :: rest => some { state with queue := rest, workers := state.workers ++ [.verifying ticket] }
  | .finishJob worker ok stillCurrent =>
    match state.workers[worker]? with
    | some (.verifying ticket) =>
      some { state with
        workers := state.workers.set worker (.settling ticket (verdictOf ok stillCurrent))
        stats := state.stats.count (verdictOf ok stillCurrent) }
    | _ => none
  | .settleJob worker =>
    match state.workers[worker]? with
    | some (.settling ticket verdict) =>
      some (settle { state with workers := state.workers.eraseIdx worker } ticket verdict)
    | _ => none
  | .advanceRecord call =>
    match state.recordings[call]? with
    | some (.recorded ticket false) =>
      some (settle { state with recordings := state.recordings.eraseIdx call } ticket .failed)
    | some (.recorded ticket true) =>
      if (state.objects[ticket]?.map IntegrityState.isFailure).getD false then
        some { state with recordings := state.recordings.eraseIdx call }
      else some { state with recordings := state.recordings.set call (.passed ticket) }
    | some (.passed ticket) =>
      some (settle { state with recordings := state.recordings.eraseIdx call } ticket .verified)
    | none => none

end IntegrityRegistry
end Crypto
end Vaulthalla
