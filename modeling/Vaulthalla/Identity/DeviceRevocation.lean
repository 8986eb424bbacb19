import Vaulthalla.Foundation.Pool
import Vaulthalla.Foundation.Transition

namespace Vaulthalla
namespace Identity
namespace DeviceRevocation

open Foundation Transition Option

/-!
# Revoking a paired device

A connection of a device is authorized against the row of its key when the TLS
handshake is done.  It reads a request header next, and only then its websocket
session or HTTP principal is cached, where `closeDeviceSessions` finds it.
`ops::devices::revoke` marks the row, asks for the cached sessions, and closes
those of the device, the one that asked for the revocation apart.

The model is about one row of `devices`.  Keys are numbers, and a key that is
neither the current nor the previous one of the row belongs to no device.
-/

/-- A device keeps the key it had before a rotation, until it has connected with the new one. -/
structure Row where
  spki : Nat
  previous : Option Nat
  revoked : Bool

/-- Whether `byAnySpki` finds the row. -/
def Row.byAnySpki (row : Row) (key : Nat) : Bool := row.spki == key || row.previous == some key

/-- A websocket connection may do without a device, which can still be paired over it; an HTTP request may not. -/
inductive Lane
  | websocket | http
deriving DecidableEq

inductive Phase
  | connected
  /-- `authorize` has answered; the request header is awaited. -/
  | authorized
  /-- The session or the principal is cached. -/
  | registered
deriving DecidableEq

structure Connection where
  key : Nat
  phase : Phase
  /-- The peer carries the id of the row, and the connection its user. -/
  (paired closing : Bool)

/-- `classifyCommand` and `Session::serve` let the connection act as the user of the device. -/
def Connection.acts (connection : Connection) : Bool :=
  connection.phase == .registered && connection.paired && !connection.closing

/-- Where a call of `revoke` is. -/
inductive Progress
  | begun | marked
  | walking (sessions : List Nat)
  | returned
deriving DecidableEq

structure Revoker where
  /-- The connection of the device on which the command came in; a revocation by
  somebody else has none. -/
  self : Option Nat
  progress : Progress
deriving DecidableEq

/-- The row, and every connection and revocation there has been; an index names each of
them from its beginning on. -/
structure State where
  row : Row
  connections : List Connection
  revokers : List Revoker

/-- What the connections do, and from `revoke` on the four steps of a revocation. -/
inductive Label
  | connect (key : Nat)
  | authorize (connection : Nat) (hasUser : Bool)
  | clearPrevious (connection : Nat)
  | dispatch (connection : Nat) (lane : Lane)
  | command (connection : Nat)
  | rotate (connection : Nat) (key : Nat)
  | close (connection : Nat)
  | revoke (self : Option Nat)
  | mark (revoker : Nat)
  | getActive (revoker : Nat)
  | closeNext (revoker : Nat)
  | finish (revoker : Nat)

section

variable (state : State)

def State.set (index : Nat) (connection : Connection) : State :=
  { state with connections := state.connections.set index connection }

def State.advance (index : Nat) (revoker : Revoker) (progress : Progress) : State :=
  { state with revokers := state.revokers.set index { revoker with progress } }

/-- The connections whose sessions are cached. -/
def State.active : List Nat :=
  (List.range state.connections.length).filter fun index =>
    state.connections[index]?.any fun connection => connection.phase == .registered && !connection.closing

def State.acts (index : Nat) : Bool := state.connections[index]?.any Connection.acts

/-- The connection that asked for the revocation is passed over when the sessions are
closed, so that it can be answered. -/
def step : Label -> Option State
  | .connect key => some { state with connections := state.connections ++ [⟨key, .connected, false, false⟩] }
  | .authorize index hasUser => do
      let connection <- state.connections[index]?
      if connection.phase = .connected then
        some (state.set index { connection with
          phase := .authorized
          paired := state.row.byAnySpki connection.key && !state.row.revoked && hasUser })
      else none
  | .clearPrevious index => do
      let connection <- state.connections[index]?
      if connection.paired = true ∧ connection.key = state.row.spki then
        some { state with row := { state.row with previous := none } }
      else none
  | .dispatch index lane => do
      let connection <- state.connections[index]?
      if connection.phase = .authorized ∧ connection.closing = false then
        -- Only the websocket lane serves a connection that is not paired.
        some (state.set index (if connection.paired || lane == .websocket then { connection with phase := .registered }
          else { connection with closing := true }))
      else none
  | .command index => if state.acts index then some state else none
  | .rotate index key => do
      let connection <- state.connections[index]?
      if connection.acts = true ∧ connection.key = state.row.spki ∧ state.row.revoked = false ∧
          state.row.byAnySpki key = false then
        some { state with row := { state.row with spki := key, previous := some state.row.spki } }
      else none
  | .close index => do
      let connection <- state.connections[index]?
      some (state.set index { connection with closing := true })
  | .revoke self =>
    if self.all state.acts then some { state with revokers := state.revokers ++ [⟨self, .begun⟩] } else none
  | .mark index => do
      let revoker <- state.revokers[index]?
      if revoker.progress = .begun then
        some { state.advance index revoker .marked with row := { state.row with revoked := true } }
      else none
  | .getActive index => do
      let revoker <- state.revokers[index]?
      if revoker.progress = .marked then some (state.advance index revoker (.walking state.active)) else none
  | .closeNext index => do
      let revoker <- state.revokers[index]?
      match revoker.progress with
      | .walking (session :: rest) => do
          let connection <- state.connections[session]?
          let closes := connection.paired && revoker.self != some session
          some ((state.set session { connection with closing := connection.closing || closes }).advance index revoker
            (.walking rest))
      | _ => none
  | .finish index => do
      let revoker <- state.revokers[index]?
      if revoker.progress = .walking [] then some (state.advance index revoker .returned) else none

end

def initial (key : Nat) : State := ⟨⟨key, none, false⟩, [], []⟩

/-! ## Revocations that no authorized connection waits behind -/

/-- The connection is registered, or gone, or was not paired. -/
def Connection.settled (connection : Connection) : Bool :=
  !connection.paired || connection.phase == .registered || connection.closing

/-- When the row is marked, no connection that was authorized for it awaits its registration. -/
def Apart (state : State) : Label -> Prop
  | .mark _ => state.connections.all Connection.settled
  | _ => True

instance (state : State) (label : Label) : Decidable (Apart state label) := by
  unfold Apart
  split <;> infer_instance

/-- The walk has yet to reach the session. -/
def Progress.Awaits (index : Nat) : Progress -> Prop
  | .begun | .marked => True
  | .walking sessions => index ∈ sessions
  | .returned => False

/-- What a revoker that has marked the row can rely on. -/
structure Sound (row : Row) (connections : List Connection) (revoker : Revoker) : Prop where
  revoked : row.revoked = true
  settled : forall connection, connection ∈ connections -> connection.settled = true
  awaits : forall index connection, connections[index]? = some connection -> connection.acts = true ->
    revoker.self = some index ∨ revoker.progress.Awaits index

/-- It says nothing of a revoker that has not marked the row, since until then every
connection may be paired. -/
def Invariant (state : State) : Prop :=
  forall revoker, revoker ∈ state.revokers -> revoker.progress ≠ .begun -> Sound state.row state.connections revoker

variable {index : Nat} {new old : Connection} {revoker : Revoker} {state : State}

/-- A connection moves, stays settled and does not begin to act. -/
theorem Sound.set {row : Row} {connections : List Connection} (sound : Sound row connections revoker)
    (found : connections[index]? = some old) (settled : new.settled)
    (quiet : new.acts -> old.acts) : Sound row (connections.set index new) revoker := by
  rcases sound with ⟨revoked, wereSettled, awaits⟩
  refine ⟨revoked, Pool.forall_set wereSettled settled, Pool.forall_at_set awaits fun acts => ?_⟩
  exact awaits index old found (quiet acts)

/-- A connection moves and acts only if it acted before. -/
theorem Invariant.set (holds : Invariant state) (found : state.connections[index]? = some old)
    (settled : state.row.revoked -> old.settled -> new.settled)
    (quiet : state.row.revoked -> old.settled -> new.acts -> old.acts) : Invariant (state.set index new) := by
  intro revoker inside isPast
  have sound := holds revoker inside isPast
  have wasSettled := sound.settled old (List.mem_of_getElem? found)
  exact sound.set found (settled sound.revoked wasSettled) (quiet sound.revoked wasSettled)

/-- A revoker moves and still knows which sessions it has to reach. -/
theorem Invariant.advance (holds : Invariant state) {progress : Progress}
    (sound : Sound state.row state.connections { revoker with progress }) :
    Invariant (state.advance index revoker progress) := by
  intro other inside isPast
  rcases List.mem_or_eq_of_mem_set inside with wasInside | rfl
  · exact holds other wasInside isPast
  · exact sound

/-- Once the row is marked no connection is paired any more.  `Apart` rules out those that
were paired before and are not cached yet, which the walk would miss. -/
theorem Invariant.step {next : State} {label : Label} (holds : Invariant state) (apart : Apart state label)
    (taken : step state label = some next) : Invariant next := by
  cases label with
  | connect key =>
    cases taken
    intro revoker inside isPast
    rcases holds revoker inside isPast with ⟨revoked, settled, awaits⟩
    exact ⟨revoked, Pool.forall_append settled rfl, Pool.forall_at_append awaits nofun⟩
  | authorize index hasUser =>
    rcases bind_eq_some_iff.mp taken with ⟨connection, found, moved⟩
    rcases guarded moved with ⟨_, rfl⟩
    refine holds.set found ?_ ?_
    · intro revoked _
      simp [Connection.settled, revoked]
    · intro _ _ acts
      simp [Connection.acts] at acts
  | clearPrevious | rotate =>
    rcases bind_eq_some_iff.mp taken with ⟨connection, found, moved⟩
    rcases guarded moved with ⟨_, rfl⟩
    intro revoker inside isPast
    have sound := holds revoker inside isPast
    exact { sound with }
  | dispatch index lane =>
    rcases bind_eq_some_iff.mp taken with ⟨connection, found, moved⟩
    rcases guarded moved with ⟨⟨isAuthorized, isOpen⟩, rfl⟩
    -- A settled connection that is authorized only is not paired.
    have unpaired : connection.settled -> connection.paired = false := by
      simp [Connection.settled, isAuthorized, isOpen]
    refine holds.set found ?_ ?_
    · intro _ settled
      split <;> simp [Connection.settled, unpaired settled]
    · intro _ settled
      split <;> simp [Connection.acts, unpaired settled]
  | command index =>
    rcases guarded taken with ⟨_, rfl⟩
    exact holds
  | close index =>
    rcases bind_eq_some_iff.mp taken with ⟨connection, found, isNext⟩
    cases isNext
    refine holds.set found ?_ ?_
    · simp [Connection.settled]
    · simp [Connection.acts]
  | revoke self =>
    rcases guarded taken with ⟨_, rfl⟩
    intro revoker inside isPast
    rcases List.mem_append.mp inside with wasInside | isNew
    · exact holds revoker wasInside isPast
    · cases List.mem_singleton.mp isNew
      exact absurd rfl isPast
  | mark index =>
    rcases bind_eq_some_iff.mp taken with ⟨revoker, found, moved⟩
    rcases guarded moved with ⟨_, rfl⟩
    have settled := List.all_eq_true.mp apart
    intro other inside isPast
    rcases List.mem_or_eq_of_mem_set inside with wasInside | rfl
    · exact ⟨rfl, settled, (holds other wasInside isPast).awaits⟩
    · exact ⟨rfl, settled, fun _ _ _ _ => .inr trivial⟩
  | getActive index =>
    rcases bind_eq_some_iff.mp taken with ⟨revoker, found, moved⟩
    rcases guarded moved with ⟨isMarked, rfl⟩
    have sound := holds revoker (List.mem_of_getElem? found) (by simp [isMarked])
    refine holds.advance ⟨sound.revoked, sound.settled, ?_⟩
    intro other connection isThere acts
    refine .inr (List.mem_filter.mpr ⟨List.mem_range.mpr (List.getElem?_eq_some_iff.mp isThere).1, ?_⟩)
    grind [Connection.acts]
  | closeNext index =>
    rcases bind_eq_some_iff.mp taken with ⟨revoker, found, moved⟩
    split at moved
    case h_1 session rest isWalking =>
      rcases bind_eq_some_iff.mp moved with ⟨connection, isThere, isNext⟩
      cases isNext
      have stays := (holds.set isThere (by grind [Connection.settled]) (by grind [Connection.acts]) :
        Invariant (state.set session { connection with
          closing := connection.closing || (connection.paired && revoker.self != some session) }))
      have sound := stays revoker (List.mem_of_getElem? found) (by simp [isWalking])
      refine stays.advance ⟨sound.revoked, sound.settled, ?_⟩
      intro other later isLater acts
      rcases sound.awaits other later isLater acts with isSelf | waits
      · exact .inl isSelf
      · rw [isWalking] at waits
        rcases List.mem_cons.mp waits with rfl | isBehind
        · -- The session just visited acts only if it is the one that is spared.
          rw [State.set, List.getElem?_set_self (List.getElem?_eq_some_iff.mp isThere).1] at isLater
          cases isLater
          simp only [Connection.acts, Bool.and_eq_true, Bool.not_eq_true', Bool.or_eq_false_iff,
            Bool.and_eq_false_iff] at acts
          rcases acts with ⟨⟨_, isPaired⟩, _, unpaired | isSpared⟩
          · cases unpaired.symm.trans isPaired
          · exact .inl (by simpa using isSpared)
        · exact .inr isBehind
    case h_2 => cases moved
  | finish index =>
    rcases bind_eq_some_iff.mp taken with ⟨revoker, found, moved⟩
    rcases guarded moved with ⟨isWalking, rfl⟩
    have sound := holds revoker (List.mem_of_getElem? found) (by simp [isWalking])
    refine holds.advance ⟨sound.revoked, sound.settled, ?_⟩
    intro other connection isThere acts
    rcases sound.awaits other connection isThere acts with isSelf | waits
    · exact .inl isSelf
    · rw [isWalking] at waits
      exact absurd waits List.not_mem_nil

/-- When no authorized connection awaits its registration as the row is marked, a
command that starts after the return of `revoke` comes in on the session that asked
for it. -/
theorem revoked_device_runs_nothing {key : Nat} {labels : List Label} {final next : State}
    (reached : run step (initial key) labels = some final) (apart : Along step Apart (initial key) labels)
    {revoker : Revoker} (inside : revoker ∈ final.revokers) (returned : revoker.progress = .returned) {index : Nat}
    (starts : step final (.command index) = some next) : revoker.self = some index := by
  have holds : Invariant final :=
    run_induction (fun _ _ _ apart taken holds => .step holds apart taken) reached apart
      (fun _ none => absurd none List.not_mem_nil)
  have sound := holds revoker inside (by simp [returned])
  have acts := (ite_none_right_eq_some.mp starts).1
  rcases (any_eq_true _ _).mp acts with ⟨connection, isThere, connectionActs⟩
  rcases sound.awaits index connection isThere connectionActs with isSelf | waits
  · exact isSelf
  · rw [returned] at waits
    cases waits

/-! ## A device that unpairs itself, and a connection that slips through -/

/-- One connection is registered and another asks for the revocation; then the device
connects once more. -/
def separate : List Label :=
  [.connect 7, .authorize 0 true, .dispatch 0 .http, .connect 7, .authorize 1 true, .dispatch 1 .websocket,
    .revoke (some 1), .mark 0, .getActive 0, .closeNext 0, .closeNext 0, .finish 0,
    .connect 7, .authorize 2 true, .dispatch 2 .websocket]

/-- The row is marked and the sessions are closed while a connection awaits its header. -/
def overlapping : List Label :=
  [.connect 7, .authorize 0 true, .revoke none, .mark 0, .getActive 0, .finish 0, .dispatch 0 .websocket]

theorem unpaired_device_keeps_its_own_session :
    Exists fun final => run step (initial 7) separate = some final ∧
      forall index next, step final (.command index) = some next -> index = 1 := by
  have isRun : (run step (initial 7) separate).map State.revokers = some [⟨some 1, .returned⟩] := by decide +kernel
  rcases map_eq_some_iff.mp isRun with ⟨final, reached, revokers⟩
  refine ⟨final, reached, fun index next starts => ?_⟩
  have isSelf := revoked_device_runs_nothing reached (by decide +kernel)
    (revokers ▸ List.mem_singleton_self _) rfl starts
  exact (some.inj isSelf).symm

/-- Nobody's own session asked for the revocation, it has returned, and the device runs commands. -/
theorem device_slips_through :
    (run step (initial 7) overlapping).any fun final =>
      final.revokers == [⟨none, .returned⟩] && (step final (.command 0)).isSome := by
  decide +kernel

end DeviceRevocation
end Identity
end Vaulthalla
