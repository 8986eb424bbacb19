import Vaulthalla.Foundation.Pool
import Vaulthalla.Foundation.Transition

namespace Vaulthalla
namespace Identity
namespace SessionRevocation

open Foundation Transition Option

/-!
# Revoking the sessions of an account

A websocket session that presents a refresh token has it validated, against the
memory of another session or against the stored row, gets its user and an access
token, and is cached: under which the revoker finds it.  Later calls validate
the access token, or the refresh token again, renew the access token and cache
the session once more.  `revokeSessions` revokes the stored rows, asks for the
cached sessions of the account, and invalidates these one by one.

The model is about one account, which may sign in, and the refresh tokens issued
to it before the revocation, which are numbers.  The calls of one session follow
each other, as its strand runs them.
-/

/-- Where the call of a session is. -/
inductive Phase
  /-- The connection is new, and its refresh token is to be validated. -/
  | presented
  /-- The refresh token was refused. -/
  | refused
  /-- No call is in progress. -/
  | idle
  /-- The refresh token was found good; an access token is to be issued. -/
  | honoured
  /-- The access token was found good; it is renewed when it expires soon or its renewal is asked for. -/
  | passed
  /-- An access token was issued; the session is to be cached. -/
  | issued
  | closed
deriving DecidableEq

/-- A session is known by its index; the token is the one that it presented when it connected. -/
structure Session where
  token : Nat
  phase : Phase
  /-- It has the account as its user. -/
  user : Bool
  /-- It holds the refresh token it presented. -/
  refresh : Bool
  /-- It holds an access token that is not revoked. -/
  access : Bool
deriving DecidableEq

/-- Where `revokeSessions` is. -/
inductive Revoker
  | idle | rowsRevoked
  | walking (sessions : List Nat)
  | returned
deriving DecidableEq

/-- The rows, the sessions with the two indexes of the session manager, and the revocation. -/
structure State where
  /-- The stored rows that are valid. -/
  rows : List Nat
  sessions : List Session
  /-- The session that was cached last with each refresh token. -/
  sessionsByRefreshJti : List (Nat × Nat)
  sessionsByUserId : List Nat
  revoker : Revoker
deriving DecidableEq

/-- What a session does in its turn. -/
inductive Action
  | validateRefreshToken | validateAccessToken | accessToken | cache | rotateRefreshToken | remove
deriving DecidableEq

inductive Label
  | present (token : Nat)
  | call (session : Nat) (action : Action)
  | revokeAll | getSessionsByUserId | invalidate
  /-- The database does not revoke the token of the session, and the exception is logged. -/
  | invalidateThrows
  | finish

variable (state : State)

/-- `tryRehydrateFromPriorSession`: the other session that holds the token. -/
def prior (index token : Nat) : Option Session := do
  let entry <- state.sessionsByRefreshJti.find? fun entry => entry.1 == token
  let session <- state.sessions[entry.2]?
  -- the raw token of an invalidated session is empty
  if entry.2 ≠ index ∧ session.refresh = true ∧ session.token = token then some session else none

/-- `validateRefreshToken`: the user of the prior session, or that of the stored row. -/
def validated (index : Nat) (session : Session) : Option Bool :=
  if session.refresh then
    match prior state index session.token with
    | some prior => some prior.user
    | none => if state.rows.contains session.token then some true else none
  else none

def State.set (index : Nat) (session : Session) : State :=
  { state with sessions := state.sessions.set index session }

/-- `eraseSessionIndexesLocked`, for a session that may have got its user by the token. -/
def State.erase (index : Nat) (session : Session) : State :=
  { state with
    sessionsByRefreshJti := state.sessionsByRefreshJti.filter fun entry =>
      entry.2 ≠ index ∧ ¬ (session.user = true ∧ entry.1 = session.token)
    sessionsByUserId := state.sessionsByUserId.filter (· ≠ index) }

/-- A session that is past a validation without being cached yet. -/
def Session.Pending (session : Session) : Prop :=
  session.phase = .honoured ∨ session.phase = .passed ∨ session.phase = .issued

instance (session : Session) : Decidable session.Pending :=
  inferInstanceAs (Decidable (session.phase = .honoured ∨ session.phase = .passed ∨ session.phase = .issued))

/-- One action of a session.  Each takes the lock of the session manager for itself, so
the revoker may come between any two. -/
def advance (index : Nat) (session : Session) : Action -> Option State
  | .validateRefreshToken =>
    -- a renewal for a session without a user validates twice
    if session.phase = .presented ∨ session.phase = .idle ∨ session.phase = .honoured then
      some (state.set index (match validated state index session with
        | some user => { session with phase := .honoured, user := session.user || user }
        | none => { session with phase := if session.phase = .presented then .refused else .idle }))
    else none
  | .validateAccessToken =>
    if session.phase = .idle ∧ session.user = true ∧ session.access = true then
      some (state.set index { session with phase := .passed })
    else none
  | .accessToken =>
    if session.phase = .honoured ∨ session.phase = .passed then
      some (state.set index { session with phase := .issued, access := true })
    else none
  | .cache =>
    if session.phase = .issued ∨ session.phase = .passed then
      some { state.set index { session with phase := .idle } with
        sessionsByRefreshJti := (session.token, index) :: state.sessionsByRefreshJti.filter fun entry =>
          entry.2 ≠ index ∧ entry.1 ≠ session.token
        sessionsByUserId := if session.user then index :: state.sessionsByUserId else state.sessionsByUserId }
    else none
  | .rotateRefreshToken =>
    -- the new token names no user and has no row
    if session.phase = .refused then some (state.set index { session with phase := .idle, refresh := false }) else none
  | .remove =>
    if session.phase = .idle then some ((state.erase index session).set index { session with phase := .closed }) else none

/-- The revoker lists the sessions once, after the rows are revoked, and does not look again. -/
def step : Label -> Option State
  | .present token => some { state with sessions := state.sessions ++ [⟨token, .presented, false, true, false⟩] }
  | .call index action => state.sessions[index]?.bind (advance state index · action)
  | .revokeAll =>
    if state.revoker = .idle then some { state with rows := [], revoker := .rowsRevoked } else none
  | .getSessionsByUserId =>
    if state.revoker = .rowsRevoked then some { state with revoker := .walking state.sessionsByUserId } else none
  | .invalidate =>
    match state.revoker with
    | .walking (index :: rest) =>
      state.sessions[index]?.map fun session =>
        { (state.erase index session).set index { session with refresh := false, access := false } with
          revoker := .walking rest }
    | _ => none
  | .invalidateThrows =>
    match state.revoker with
    | .walking (index :: rest) =>
      state.sessions[index]?.map fun session =>
        { state.set index { session with access := false } with revoker := .walking rest }
    | _ => none
  | .finish => if state.revoker = .walking [] then some { state with revoker := .returned } else none

def initial (rows : List Nat) : State := ⟨rows, [], [], [], .idle⟩

/-! ## Revocations that no validation overlaps -/

/-- When a revocation begins no session is past a validation without being cached, none is validated while it runs, and
the database answers it. -/
def Apart : Label -> Prop
  | .revokeAll => forall session, session ∈ state.sessions -> ¬ session.Pending
  | .call _ .validateRefreshToken | .call _ .validateAccessToken => state.revoker = .idle ∨ state.revoker = .returned
  | .invalidateThrows => False
  | _ => True

instance (state : State) (label : Label) : Decidable (Apart state label) := by
  unfold Apart
  split <;> infer_instance

/-- The sessions that the revocation has still to reach. -/
def State.listed : List Nat :=
  match state.revoker with
  | .idle | .rowsRevoked => state.sessionsByUserId
  | .walking rest => rest
  | .returned => []

/-- What is true of each session: one that could lend its token or holds an access token is listed. -/
structure Tracked (index : Nat) (session : Session) : Prop where
  access : session.access = true -> session.phase ≠ .issued -> session.phase ≠ .closed -> index ∈ state.listed
  lends : session.refresh = true -> forall token, (token, index) ∈ state.sessionsByRefreshJti ->
    session.user = true ∧ index ∈ state.listed
  user : session.Pending -> session.user = true
  apart : state.revoker ≠ .idle -> ¬ session.Pending

/-- What holds between the steps, of the rows, the index by token and each session. -/
structure Invariant : Prop where
  noRows : state.revoker ≠ .idle -> state.rows = []
  indexed : forall entry, entry ∈ state.sessionsByRefreshJti -> entry.2 < state.sessions.length
  tracked : forall index session, state.sessions[index]? = some session -> Tracked state index session

variable {state}

/-- A step that keeps the session listed and adds no entry for it. -/
theorem Tracked.mono {next : State} {index : Nat} {session : Session} (tracked : Tracked state index session)
    (isListed : index ∈ state.listed -> index ∈ next.listed)
    (isEntry : forall token, (token, index) ∈ next.sessionsByRefreshJti -> (token, index) ∈ state.sessionsByRefreshJti)
    (isBusy : next.revoker ≠ .idle -> state.revoker ≠ .idle) : Tracked next index session where
  access hasAccess notIssued notClosed := isListed (tracked.access hasAccess notIssued notClosed)
  lends holdsToken token inside :=
    have lent := tracked.lends holdsToken token (isEntry token inside)
    ⟨lent.1, isListed lent.2⟩
  user := tracked.user
  apart busy := tracked.apart (isBusy busy)

/-- A session changes and the indexes stay. -/
theorem Invariant.set (holds : Invariant state) {index : Nat} {session : Session}
    (tracked : Tracked state index session) : Invariant (state.set index session) := by
  refine ⟨holds.noRows, by simpa [State.set] using holds.indexed, ?_⟩
  exact Pool.forall_at_set (fun place member isMember => (holds.tracked place member isMember).mono id (fun _ => id) id)
    (tracked.mono id (fun _ => id) id)

/-- A session that lends its token has the user, and the revoker has yet to reach it. -/
theorem Invariant.prior_user (holds : Invariant state) {index token : Nat} {session : Session}
    (found : prior state index token = some session) : session.user = true ∧ state.listed ≠ [] := by
  simp only [prior, bind_eq_bind, bind_eq_some_iff, ite_none_right_eq_some] at found
  rcases found with ⟨entry, isEntry, _, isPrior, ⟨_, holdsToken, _⟩, isSame⟩
  cases isSame
  have lends := (holds.tracked entry.2 _ isPrior).lends holdsToken entry.1 (List.mem_of_find?_eq_some isEntry)
  exact ⟨lends.1, List.ne_nil_of_mem lends.2⟩

/-- A token that is found good brings the user, and none is after a revocation. -/
theorem Invariant.validated_user (holds : Invariant state) {index : Nat} {session : Session} {user : Bool}
    (good : validated state index session = some user) : user = true ∧ state.revoker ≠ .returned := by
  unfold validated at good
  split at good
  case isFalse => cases good
  case isTrue =>
    split at good
    case h_1 prior found =>
      cases good
      refine ⟨(holds.prior_user found).1, fun isOver => (holds.prior_user found).2 ?_⟩
      rw [State.listed, isOver]
    case h_2 =>
      rcases guarded good with ⟨stored, rfl⟩
      refine ⟨rfl, fun isOver => ?_⟩
      rw [holds.noRows (by simp [isOver])] at stored
      cases stored

/-- A session that leaves the indexes, when nothing more is required of it. -/
theorem Invariant.erase (holds : Invariant state) {index : Nat} (session : Session) {new : Session} {next : State}
    (isNext : next = { (state.erase index session).set index new with revoker := next.revoker })
    (isListed : forall place, place ≠ index -> place ∈ state.listed -> place ∈ next.listed)
    (isBusy : next.revoker ≠ .idle -> state.revoker ≠ .idle)
    (isSilent : new.access = true -> new.phase = .closed) (isQuiet : ¬ new.Pending) : Invariant next := by
  rw [isNext] at isListed ⊢
  refine ⟨fun busy => holds.noRows (isBusy busy), ?_, Pool.forall_at_set_of_ne (fun place member isOther isMember => ?_) ?_⟩
  · intro entry inside
    simpa [State.set, State.erase] using holds.indexed entry (List.mem_of_mem_filter inside)
  · exact (holds.tracked place member isMember).mono (isListed place isOther) (fun _ => List.mem_of_mem_filter) isBusy
  · refine ⟨fun hasAccess _ notClosed => absurd (isSilent hasAccess) notClosed, fun _ token inside => ?_,
      fun isPending => absurd isPending isQuiet, fun _ => isQuiet⟩
    simp [State.set, State.erase] at inside

/-- A session that passes a validation does so before the revocation begins, and is cached
before it, by `Apart`; from then on the revoker has it on its list. -/
theorem Invariant.call (holds : Invariant state) {index : Nat} {action : Action} {session : Session} {next : State}
    (found : state.sessions[index]? = some session) (apart : Apart state (.call index action))
    (taken : advance state index session action = some next) : Invariant next := by
  have tracked := holds.tracked index session found
  have idle : session.Pending -> state.revoker = .idle := fun isPending => by
    by_contra isBusy
    exact tracked.apart isBusy isPending
  cases action with
  | validateRefreshToken =>
    rcases guarded taken with ⟨isPhase, rfl⟩
    split
    case h_1 user good =>
      have isIdle : state.revoker = .idle := apart.resolve_right (holds.validated_user good).2
      refine holds.set ⟨fun hasAccess _ _ => ?_, fun holdsToken token isEntry => ?_, fun _ => ?_, absurd isIdle⟩
      · exact tracked.access hasAccess (by grind) (by grind)
      · simp [tracked.lends holdsToken token isEntry]
      · simp [(holds.validated_user good).1]
    case h_2 =>
      refine holds.set ⟨fun hasAccess _ _ => ?_, tracked.lends, ?_, ?_⟩
      · exact tracked.access hasAccess (by grind) (by grind)
      · grind [Session.Pending]
      · grind [Session.Pending]
  | validateAccessToken =>
    rcases guarded taken with ⟨⟨isPhase, hasUser, hasAccess⟩, rfl⟩
    have isListed := tracked.access hasAccess (by simp [isPhase]) (by simp [isPhase])
    have isIdle : state.revoker = .idle := by
      refine apart.resolve_right fun isOver => ?_
      simp [State.listed, isOver] at isListed
    exact holds.set ⟨fun _ _ _ => isListed, tracked.lends, fun _ => hasUser, absurd isIdle⟩
  | accessToken =>
    rcases guarded taken with ⟨isPhase, rfl⟩
    have isPending : session.Pending := by grind [Session.Pending]
    exact holds.set ⟨fun _ notIssued => absurd rfl notIssued, tracked.lends, fun _ => tracked.user isPending,
      absurd (idle isPending)⟩
  | cache =>
    rcases guarded taken with ⟨isPhase, rfl⟩
    have isPending : session.Pending := by grind [Session.Pending]
    have isIdle := idle isPending
    have hasUser := tracked.user isPending
    have isPlace : index < state.sessions.length := (List.getElem?_eq_some_iff.mp found).1
    refine ⟨holds.noRows, ?_, Pool.forall_at_set_of_ne (fun place member isOther isMember => ?_) ?_⟩
    · intro entry inside
      rw [State.set, List.length_set]
      rcases List.mem_cons.mp inside with rfl | old
      · exact isPlace
      · exact holds.indexed entry (List.mem_of_mem_filter old)
    · refine (holds.tracked place member isMember).mono ?_ ?_ id
      · simp +contextual [State.listed, State.set, isIdle, hasUser]
      · grind [State.set]
    · constructor
      all_goals simp [State.listed, State.set, isIdle, hasUser, Session.Pending]
  | rotateRefreshToken =>
    rcases guarded taken with ⟨isPhase, rfl⟩
    refine holds.set ⟨fun hasAccess _ _ => ?_, nofun, ?_, ?_⟩
    · exact tracked.access hasAccess (by simp [isPhase]) (by simp [isPhase])
    · simp [Session.Pending]
    · simp [Session.Pending]
  | remove =>
    rcases guarded taken with ⟨isPhase, rfl⟩
    refine holds.erase session rfl (fun place isOther inside => ?_) id (fun _ => rfl) (by simp [Session.Pending])
    cases isRevoker : state.revoker <;> simp_all [State.listed, State.set, State.erase]

theorem Invariant.step {next : State} {label : Label} (holds : Invariant state) (apart : Apart state label)
    (taken : step state label = some next) : Invariant next := by
  cases label with
  | present token =>
    cases taken
    refine ⟨holds.noRows, fun entry inside => ?_, Pool.forall_at_append (fun place member isMember => ?_) ?_⟩
    · have isPlace := holds.indexed entry inside
      rw [List.length_append]
      omega
    · exact (holds.tracked place member isMember).mono id (fun _ => id) id
    · refine ⟨nofun, fun _ token inside => ?_, by simp [Session.Pending], by simp [Session.Pending]⟩
      exact absurd (holds.indexed _ inside) (Nat.lt_irrefl _)
  | call index action =>
    rcases bind_eq_some_iff.mp taken with ⟨session, found, moved⟩
    exact holds.call found apart moved
  | revokeAll =>
    rcases guarded taken with ⟨isIdle, rfl⟩
    refine ⟨fun _ => rfl, holds.indexed, fun index session found => ?_⟩
    have tracked := holds.tracked index session found
    have isListed : index ∈ state.listed -> index ∈ state.sessionsByUserId := by simp [State.listed, isIdle]
    exact ⟨fun hasAccess notIssued notClosed => isListed (tracked.access hasAccess notIssued notClosed),
      fun holdsToken token inside => (tracked.lends holdsToken token inside).imp_right isListed, tracked.user,
      fun _ => apart session (List.mem_of_getElem? found)⟩
  | getSessionsByUserId =>
    rcases guarded taken with ⟨isRevoked, rfl⟩
    have isBusy : state.revoker ≠ .idle := by simp [isRevoked]
    refine ⟨fun _ => holds.noRows isBusy, holds.indexed, fun index session found => ?_⟩
    refine (holds.tracked index session found).mono ?_ (fun _ => id) (fun _ => isBusy)
    simp [State.listed, isRevoked]
  | invalidate =>
    dsimp only [SessionRevocation.step] at taken
    split at taken
    case h_1 index rest isWalking =>
      rcases map_eq_some_iff.mp taken with ⟨session, found, rfl⟩
      have isBusy : state.revoker ≠ .idle := by simp [isWalking]
      refine holds.erase session rfl (fun place isOther inside => ?_) (fun _ => isBusy) nofun ?_
      · simpa [State.listed, isWalking, isOther] using inside
      · exact (holds.tracked index session found).apart isBusy
    case h_2 => cases taken
  | invalidateThrows => exact apart.elim
  | finish =>
    rcases guarded taken with ⟨isWalking, rfl⟩
    have isBusy : state.revoker ≠ .idle := by simp [isWalking]
    refine ⟨fun _ => holds.noRows isBusy, holds.indexed, fun index session found => ?_⟩
    refine (holds.tracked index session found).mono ?_ (fun _ => id) (fun _ => isBusy)
    simp [State.listed, isWalking]

/-- The session can act with an access token. -/
def Session.Authenticated (session : Session) : Prop := session.access = true ∧ session.phase ≠ .closed

/-- When no validation overlaps the revocation, no session that presented one of the
tokens has a usable access token from its return on, or is about to get one. -/
theorem revoked_logins_stay_revoked {rows : List Nat} {labels : List Label} {final : State}
    (reached : run step (initial rows) labels = some final) (apart : Along step Apart (initial rows) labels)
    (returned : final.revoker = .returned) :
    forall session, session ∈ final.sessions -> ¬ session.Authenticated ∧ ¬ session.Pending := by
  have holds : Invariant final :=
    run_induction (fun _ _ _ apart taken holds => .step holds apart taken) reached apart
      ⟨fun isBusy => absurd rfl isBusy, nofun, nofun⟩
  intro session inside
  rcases List.getElem?_of_mem inside with ⟨index, found⟩
  have tracked := holds.tracked index session found
  have isQuiet : ¬ session.Pending := tracked.apart (by simp [returned])
  refine ⟨fun ⟨hasAccess, isOpen⟩ => ?_, isQuiet⟩
  have isListed := tracked.access hasAccess (fun isIssued => isQuiet (Or.inr (Or.inr isIssued))) isOpen
  simp [State.listed, returned] at isListed

/-! ## Sessions that are caught and sessions that slip through -/

/-- A session signs in. -/
def signsIn (session : Nat) : List Label :=
  [.call session .validateRefreshToken, .call session .accessToken, .call session .cache]

/-- Two sessions share a token, one of which renews its access token; after the revocation one tries to renew it
again and a third presents the token. -/
def separate : List Label :=
  [.present 0, .present 0] ++ signsIn 0 ++ signsIn 1 ++
    [.call 1 .validateAccessToken, .call 1 .accessToken, .call 1 .cache, .revokeAll, .getSessionsByUserId, .invalidate,
      .invalidate, .present 0, .invalidate, .finish, .call 1 .validateRefreshToken, .call 2 .validateRefreshToken,
      .call 2 .rotateRefreshToken]

/-- The token is found good before the rows are revoked, and the session is cached after the walk. -/
def overlapping : List Label :=
  [.present 0, .call 0 .validateRefreshToken, .revokeAll, .getSessionsByUserId, .finish, .call 0 .accessToken,
    .call 0 .cache]

/-- A cached session has its access token found good, is invalidated, and then gets a new access token. -/
def renewing : List Label :=
  .present 0 :: signsIn 0 ++ [.call 0 .validateAccessToken, .revokeAll, .getSessionsByUserId, .invalidate, .finish,
    .call 0 .accessToken, .call 0 .cache]

theorem separate_logins_stay_revoked :
    Exists fun final => run step (initial [0]) separate = some final ∧
      forall session, session ∈ final.sessions -> ¬ session.Authenticated ∧ ¬ session.Pending := by
  have isRun : (run step (initial [0]) separate).map State.revoker = some .returned := by decide +kernel
  rcases map_eq_some_iff.mp isRun with ⟨final, reached, returned⟩
  exact ⟨final, reached, revoked_logins_stay_revoked reached (by decide +kernel) returned⟩

theorem session_slips_through :
    run step (initial [0]) overlapping = some ⟨[], [⟨0, .idle, true, true, true⟩], [(0, 0)], [0], .returned⟩ ∧
      run step (initial [0]) renewing = some ⟨[], [⟨0, .idle, true, false, true⟩], [(0, 0)], [0], .returned⟩ := by
  decide +kernel

end SessionRevocation
end Identity
end Vaulthalla
