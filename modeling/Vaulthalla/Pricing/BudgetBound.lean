import Mathlib.Tactic.Ring
import Vaulthalla.Pricing.PriceBudget

namespace Vaulthalla
namespace Pricing

open Foundation Transition LedgerRow Option
open Transaction (inserts statement)

/-!
# Enforced budgets are never overrun

A preflight adds to the use of a policy only while it holds the policy's row,
and what it has read of the use can only fall until it commits: a row of the
policy is inserted by the holder alone, and a commit, a release or an expiry
never raises a charge.  So what was within the limit when it was checked is
within the limit when it is inserted.
-/

/-! ## Amounts -/

/-- Rounding a request to the column's digits cannot carry it over a limit that it keeps. -/
theorem stored_le_of_not_exceeds {requested : Decimal} {used limit : Nat}
    (within : requested.exceeds used limit = false) : used + requested.stored ≤ limit := by
  have positive : 0 < 10 ^ requested.scale := Nat.pow_pos (by decide)
  have inDecimals : used * 10 ^ requested.scale + requested.digits * 10 ^ 8 ≤ limit * 10 ^ requested.scale := by
    simpa [Decimal.exceeds] using within
  have usedFits : used ≤ limit := by
    refine Nat.le_of_mul_le_mul_right ?_ positive
    omega
  have rest : requested.digits * 10 ^ 8 ≤ (limit - used) * 10 ^ requested.scale := by
    rw [Nat.sub_mul]
    omega
  have rounded : requested.stored < limit - used + 1 := by
    unfold Decimal.stored
    rw [Nat.div_lt_iff_lt_mul (by omega)]
    calc
      2 * (requested.digits * 10 ^ 8) + 10 ^ requested.scale
          < 2 * ((limit - used) * 10 ^ requested.scale) + 2 * 10 ^ requested.scale := by omega
      _ = (limit - used + 1) * (2 * 10 ^ requested.scale) := by ring
  omega

/-! ## Charges -/

section Charges

variable {ledger : List LedgerRow} {expired ids : List Nat} {policyId : Nat} {window : Window} {start : Int}

/-- A row that stops to be active, or comes to cost no more, does not raise a charge. -/
theorem charge_le {row changed : LedgerRow} (samePolicy : changed.policyId = row.policyId)
    (sameWindow : changed.window = row.window) (sameStart : changed.windowStart = row.windowStart)
    (active : changed.isActive expired -> row.isActive expired)
    (cost : changed.committedCost.getD changed.reservedCost ≤ row.committedCost.getD row.reservedCost) :
    changed.charge expired policyId window start ≤ row.charge expired policyId window start := by
  unfold charge
  rw [samePolicy, sameWindow, sameStart]
  split
  case isTrue counts =>
    rw [if_pos ⟨counts.1, counts.2.1, counts.2.2.1, active counts.2.2.2⟩]
    exact cost
  case isFalse => exact Nat.zero_le _

/-- An update of reservations that raises the charge of none of them, as the view has it. -/
theorem charged_updateReserved_le {change : LedgerRow -> LedgerRow}
    (shrinks : forall row, row ∈ ledger -> row.id ∈ ids -> row.status = .reserved ->
      (change row).charge expired policyId window start ≤ row.charge expired policyId window start) :
    charged (updateReserved ids change ledger) expired policyId window start ≤
      charged ledger expired policyId window start := by
  unfold charged updateReserved
  rw [Pool.total_map]
  refine Pool.total_le_total fun row inside => ?_
  split
  case isTrue chosen => exact shrinks row inside chosen.1 chosen.2
  case isFalse => exact Nat.le_refl _

variable {status : Status}

/-- A status that is not counted takes the row out of every sum. -/
theorem charge_inactive (row : LedgerRow) (notReserved : status ≠ .reserved) (notCommitted : status ≠ .committed) :
    charge expired policyId window start { row with status := status } = 0 := by
  simp [charge, isActive, notReserved, notCommitted]

/-- To leave the reserved state without a commit lowers every sum. -/
theorem charged_inactive_le (notReserved : status ≠ .reserved) (notCommitted : status ≠ .committed) :
    charged (updateReserved ids (fun row => { row with status := status }) ledger) expired policyId window start ≤
      charged ledger expired policyId window start := by
  refine charged_updateReserved_le fun row _ _ _ => ?_
  rw [charge_inactive row notReserved notCommitted]
  exact Nat.zero_le _

theorem charged_le_of_fewer (expired : List Nat) :
    charged ledger expired policyId window start ≤ charged ledger [] policyId window start := by
  refine Pool.total_le_total fun row _ => ?_
  unfold charge
  split
  case isTrue counts =>
    have active : row.isActive [] := counts.2.2.2.imp (fun reserved => ⟨reserved.1, List.not_mem_nil⟩) id
    rw [if_pos ⟨counts.1, counts.2.1, counts.2.2.1, active⟩]
  case isFalse => exact Nat.zero_le _

/-- Once a transaction has committed its expiries, everyone sees what it has seen. -/
theorem charged_expireRows (expired : List Nat) :
    charged (expireRows expired ledger) [] policyId window start = charged ledger expired policyId window start := by
  unfold charged expireRows updateReserved
  rw [Pool.total_map]
  congr 1
  funext row
  split
  case isTrue chosen =>
    rw [charge_inactive row (by decide) (by decide)]
    have notActive : Not (row.isActive expired) := by
      rintro (reserved | committed)
      · exact reserved.2 chosen.1
      · rw [chosen.2] at committed
        cases committed
    exact (if_neg fun counts => notActive counts.2.2.2).symm
  case isFalse notChosen =>
    have same : row.isActive [] <-> row.isActive expired := by
      constructor
      · rintro (reserved | committed)
        · exact .inl ⟨reserved.1, fun inside => notChosen ⟨inside, reserved.1⟩⟩
        · exact .inr committed
      · rintro (reserved | committed)
        · exact .inl ⟨reserved.1, List.not_mem_nil⟩
        · exact .inr committed
    simp only [charge, same]

theorem charged_append (added : List LedgerRow) :
    charged (ledger ++ added) expired policyId window start =
      charged ledger expired policyId window start + charged added expired policyId window start :=
  Pool.total_concat ledger added

end Charges

/-! ## Reservations -/

section Reservations

variable {calendar : Calendar} {request : PreflightRequest} {policies : List Policy} {transaction : Transaction}
  {policyId firstId : Nat} {window : Window} {start : Int}

theorem nodup_configuredWindows (policy : Policy) : (configuredWindows policy).Nodup := by
  simp only [configuredWindows]
  split
  · exact List.nodup_singleton _
  · exact List.Nodup.filter _ (by decide)

theorem mem_reservationsOf {target : Policy × Window} (inside : target ∈ reservationsOf request policies) :
    target.1 ∈ policies ∧ target.2 ∈ configuredWindows target.1 ∧ target.1.mode ≠ .off ∧
      policyIssue request target.1 = none ∧ estimateCanBeReserved request.estimate := by
  rcases List.mem_flatMap.mp inside with ⟨policy, isPolicy, isTarget⟩
  split at isTarget
  case isTrue reservable =>
    rcases List.mem_map.mp isTarget with ⟨configured, isConfigured, rfl⟩
    exact ⟨isPolicy, isConfigured, reservable.1, reservable.2.1, reservable.2.2.1⟩
  case isFalse => cases isTarget

def targetKey (target : Policy × Window) : Nat × Window :=
  (target.1.id, target.2)

/-- One preflight reserves once for each policy and window. -/
theorem nodup_reservationsOf (distinct : (policies.map (·.id)).Nodup) :
    ((reservationsOf request policies).map targetKey).Nodup := by
  induction policies with
  | nil => exact List.nodup_nil
  | cons policy rest ih =>
    rw [List.map_cons, List.nodup_cons] at distinct
    have isSplit : reservationsOf request (policy :: rest) =
        reservationsOf request [policy] ++ reservationsOf request rest := by
      simp [reservationsOf]
    rw [isSplit, List.map_append, List.nodup_append]
    refine ⟨?_, ih distinct.2, ?_⟩
    · simp only [reservationsOf, List.flatMap_cons, List.flatMap_nil, List.append_nil]
      split
      · rw [List.map_map]
        exact (nodup_configuredWindows policy).map fun first second same => (Prod.mk.inj same).2
      · exact List.nodup_nil
    · intro first isFirst second isSecond same
      rcases List.mem_map.mp isFirst with ⟨target, isTarget, rfl⟩
      rcases List.mem_map.mp isSecond with ⟨other, isOther, rfl⟩
      have ofPolicy : target.1 = policy := by simpa using (mem_reservationsOf isTarget).1
      have ofRest : other.1 ∈ rest := (mem_reservationsOf isOther).1
      have sameId : other.1.id = policy.id := ofPolicy ▸ (Prod.mk.inj same).1.symm
      exact distinct.1 (sameId ▸ List.mem_map_of_mem ofRest)

/-- The reservation's part in the use of a policy in a window. -/
def targetCharge (request : PreflightRequest) (policyId : Nat) (window : Window) (target : Policy × Window) : Nat :=
  if targetKey target = (policyId, window) then request.estimate.cost.stored else 0

theorem charge_reservationRow_le (id : Nat) (target : Policy × Window) :
    (reservationRow calendar transaction id target).charge [] policyId window start ≤
      targetCharge transaction.request policyId window target := by
  unfold charge targetCharge
  split
  case isTrue counts =>
    rw [if_pos (Prod.ext counts.1 counts.2.1)]
    exact Nat.le_refl _
  case isFalse => exact Nat.zero_le _

theorem charged_inserts_le (distinct : (transaction.policies.map (·.id)).Nodup) :
    charged (transaction.inserts calendar firstId) [] policyId window start ≤
      transaction.request.estimate.cost.stored := by
  unfold inserts
  split
  · exact Nat.zero_le _
  · let targets := reservationsOf transaction.request transaction.policies
    calc
      charged _ [] policyId window start
          = Pool.total (fun target : (Policy × Window) × Nat =>
              (reservationRow calendar transaction (firstId + target.2) target.1).charge [] policyId window start)
              targets.zipIdx := Pool.total_map _ _
      _ ≤ Pool.total (fun target => targetCharge transaction.request policyId window target.1) targets.zipIdx :=
            Pool.total_le_total fun target _ => charge_reservationRow_le _ target.1
      _ = Pool.total (targetCharge transaction.request policyId window) (targets.zipIdx.map Prod.fst) :=
            (Pool.total_map Prod.fst _).symm
      _ = Pool.total (targetCharge transaction.request policyId window) targets := by rw [List.zipIdx_map_fst]
      _ ≤ transaction.request.estimate.cost.stored :=
            Pool.total_ite_le (nodup_reservationsOf distinct) (policyId, window) _

/-- A preflight that is not stalled charges only the policies it holds, in the windows of its own time. -/
theorem exists_target_of_charged (isCharged : charged (transaction.inserts calendar firstId) [] policyId window start ≠ 0) :
    (finalizeBlockingDecision transaction.decision).stalled = none ∧
      Exists fun target => target ∈ reservationsOf transaction.request transaction.policies ∧
        target.1.id = policyId ∧ target.2 = window ∧ windowStart calendar transaction.timestamp window = start := by
  unfold inserts at isCharged
  split at isCharged
  · exact absurd rfl isCharged
  case isFalse goesOn =>
    simp only [Bool.or_eq_true, not_or] at goesOn
    refine ⟨not_isSome_iff_eq_none.mp goesOn.1.1, ?_⟩
    by_contra noTarget
    refine isCharged (Pool.total_eq_zero fun row isRow => if_neg ?_)
    rcases List.mem_map.mp isRow with ⟨target, isTarget, rfl⟩
    rintro ⟨samePolicy, sameWindow, sameStart, _⟩
    refine noTarget ⟨target.1, List.fst_mem_of_mem_zipIdx isTarget, samePolicy, sameWindow, ?_⟩
    rw [← sameWindow]
    exact sameStart

end Reservations

/-! ## Open transactions -/

section Transactions

variable {calendar : Calendar} {policies : Table Policy Policy.id} {ledger : List LedgerRow} {transaction : Transaction}

/-- With the requested cost the enforced limit of the policy is kept, in the view of a transaction that has expired the
given rows. -/
def Fits (ledger : List LedgerRow) (expired : List Nat) (start : Int) (requested : Decimal) (policy : Policy)
    (window : Window) : Prop :=
  policy.mode = .enforce -> window ≠ .perRun -> forall limit, limitForWindow policy window = some limit ->
    charged ledger expired policy.id window start + requested.stored ≤ limit

variable (decision : Decision)

def Decision.isBlocked : Prop :=
  decision.stalled ≠ none ∨ decision.blockingChecks ≠ []

/-- The rows that are still to be locked. -/
def Phase.toLock : Phase -> List Nat
  | .locking ids => ids
  | .begun | .expired | .checking _ => []

/-- A transaction that has not started to lock, or has. -/
def Phase.hasSelected : Phase -> Bool
  | .begun | .expired => false
  | .locking _ | .checking _ => true

structure Transaction.Sound (calendar : Calendar) (policies : Table Policy Policy.id) (ledger : List LedgerRow)
    (transaction : Transaction) : Prop where
  noOverride : transaction.request.overridePolicyIds = []
  unselected : transaction.phase.hasSelected = false -> transaction.policies = []
  distinct : (transaction.policies.map (·.id) ++ transaction.phase.toLock).Nodup
  /-- A locked row is as it was read. -/
  held : forall policy, policy ∈ transaction.policies -> policies.find policy.id = some policy
  /-- Every reservation fits, is still to be checked, or the run is blocked. -/
  cleared : forall items, transaction.phase = .checking items ->
    forall target, target ∈ reservationsOf transaction.request transaction.policies ->
      Item.check target.1 target.2 ∈ items ∨ transaction.decision.isBlocked ∨
        Fits ledger transaction.expired (windowStart calendar transaction.timestamp target.2)
          transaction.request.estimate.cost target.1 target.2
  /-- A policy that cannot be evaluated blocks the run if it is enforced, once the loop has come to it. -/
  issues : forall items, transaction.phase = .checking items -> forall policy, policy ∈ transaction.policies ->
    policy.mode = .enforce ->
      (policyIssue transaction.request policy ≠ none ∨ estimateCanBeReserved transaction.request.estimate = false) ->
      (Exists fun text => Item.issue policy text ∈ items) ∨ transaction.decision.isBlocked
  /-- So does an enforced limit that the check has found exceeded. -/
  exceeded : forall check, check ∈ transaction.decision.checks -> check.mode = .enforce -> check.exceeded = true ->
    transaction.decision.isBlocked

theorem stalled_finalize : (finalizeBlockingDecision decision).stalled ≠ none <-> decision.isBlocked := by
  unfold finalizeBlockingDecision Decision.isBlocked
  split
  case h_1 noChecks => simp [noChecks]
  case h_2 first rest hasChecks => simp [hasChecks]

/-! Recording an issue or a check -/

variable {decision : Decision} {policy : Policy} {request : PreflightRequest} {window : Window} {expired : List Nat}
  {start : Int}

theorem isBlocked_recordIssue {text : Str} (blocks : decision.isBlocked ∨ policy.mode = .enforce) :
    (recordIssue decision policy text).isBlocked := by
  unfold recordIssue
  split
  case isTrue =>
    unfold setBlocked
    split
    case isTrue isStalled => exact .inl (isSome_iff_ne_none.mp isStalled)
    case isFalse => exact .inl (some_ne_none _)
  case isFalse notEnforced => exact blocks.resolve_right notEnforced

theorem checks_recordIssue (policy : Policy) (text : Str) :
    (recordIssue decision policy text).checks = decision.checks := by
  unfold recordIssue
  split
  · unfold setBlocked
    split <;> rfl
  · rfl

theorem checks_recordCheck (request : PreflightRequest) (decision : Decision) (check : WindowCheck) :
    (recordCheck request decision check).checks = decision.checks ++ [check] := by
  unfold recordCheck
  split
  · split
    · split <;> rfl
    · rfl
    · rfl
    · rfl
  · rfl

theorem isBlocked_recordCheck {check : WindowCheck} (noOverride : request.overridePolicyIds = [])
    (blocks : decision.isBlocked ∨ (check.mode = .enforce ∧ check.exceeded)) :
    (recordCheck request decision check).isBlocked := by
  unfold recordCheck
  split
  case isTrue =>
    split
    case h_1 =>
      rw [noOverride, if_neg List.not_mem_nil]
      exact .inr (List.append_ne_nil_of_right_ne_nil _ (List.cons_ne_nil _ _))
    case h_2 isWarn => exact blocks.resolve_right fun enforced => by cases isWarn.symm.trans enforced.1
    case h_3 isOff => exact blocks.resolve_right fun enforced => by cases isOff.symm.trans enforced.1
    case h_4 isReport => exact blocks.resolve_right fun enforced => by cases isReport.symm.trans enforced.1
  case isFalse notExceeded => exact blocks.resolve_right fun enforced => notExceeded enforced.2

theorem not_exceeds_of_checkWindow {used limit : Nat} (hasLimit : limitForWindow policy window = some limit)
    (notExceeded : (checkWindow request policy window used).exceeded = false) :
    request.estimate.cost.exceeds used limit = false := by
  have isCompared : (checkWindow request policy window used).exceeded =
      ((limitForWindow policy window).map (request.estimate.cost.exceeds used)).getD false := rfl
  rwa [isCompared, hasLimit, map_some, getD_some] at notExceeded

/-- What the check of a window finds within the limit fits. -/
theorem fits_of_checkWindow (within : policy.mode = .enforce ->
      (checkWindow request policy window (usedForWindow ledger expired policy window start)).exceeded = false) :
    Fits ledger expired start request.estimate.cost policy window := by
  intro enforced notPerRun limit hasLimit
  have kept := stored_le_of_not_exceeds (not_exceeds_of_checkWindow hasLimit (within enforced))
  rwa [usedForWindow, if_neg notPerRun] at kept

/-- After the check of a window the run is blocked or the reservation fits. -/
theorem blocked_or_fits (noOverride : request.overridePolicyIds = []) :
    (recordCheck request decision
        (checkWindow request policy window (usedForWindow ledger expired policy window start))).isBlocked ∨
      Fits ledger expired start request.estimate.cost policy window := by
  refine or_iff_not_imp_left.mpr fun notBlocked => fits_of_checkWindow fun enforced => ?_
  refine Bool.eq_false_iff.mpr fun isExceeded => notBlocked ?_
  exact isBlocked_recordCheck noOverride (.inr ⟨enforced, isExceeded⟩)

/-! The statements -/

variable {state : State} {others : List Transaction} {next : Transaction} {index : Nat}

theorem sound_expireOwn (sound : transaction.Sound calendar policies ledger)
    (ran : transaction.statement state others calendar (.expireOwn index) = some next) :
    next.Sound calendar policies ledger ∧ next.policies = transaction.policies := by
  rcases guarded ran with ⟨isBegun, rfl⟩
  have noPolicies := sound.unselected (isBegun.1 ▸ rfl)
  refine ⟨⟨sound.noOverride, fun _ => noPolicies, ?_, sound.held, ?_, ?_, sound.exceeded⟩, rfl⟩
  · simpa [isBegun.1, Phase.toLock] using sound.distinct
  · intro items isChecking
    cases isChecking
  · intro items isChecking
    cases isChecking

theorem sound_select (sound : transaction.Sound calendar policies ledger)
    (ran : transaction.statement state others calendar (.select index) = some next) :
    next.Sound calendar policies ledger ∧ next.policies = transaction.policies := by
  rcases guarded ran with ⟨isExpired, rfl⟩
  have noPolicies := sound.unselected (isExpired ▸ rfl)
  refine ⟨⟨sound.noOverride, fun _ => noPolicies, ?_, sound.held, ?_, ?_, sound.exceeded⟩, rfl⟩
  · have ordered : ((state.policies.rows.filter (policyMatches transaction.request)).map (·.id)).Nodup :=
      state.policies.unique.sublist (List.filter_sublist.map _)
    simpa [noPolicies, Phase.toLock] using (List.perm_insertionSort (· ≤ ·) _).nodup_iff.mpr ordered
  · intro items isChecking
    cases isChecking
  · intro items isChecking
    cases isChecking

theorem not_checking_locking {ids : List Nat} {items : List Item} : Phase.locking ids ≠ .checking items := by
  intro same
  cases same

/-- A row that the transaction comes to hold is held by no other. -/
theorem sound_lock (sound : transaction.Sound calendar state.policies ledger)
    (ran : transaction.statement state others calendar (.lock index) = some next) :
    next.Sound calendar state.policies ledger ∧
      forall id, next.holds id -> transaction.holds id ∨ (others.any fun other => other.holds id) = false := by
  simp only [statement] at ran
  split at ran
  case h_1 isPhase =>
    cases ran
    refine ⟨⟨sound.noOverride, ?_, ?_, sound.held, ?_, ?_, sound.exceeded⟩, fun _ => .inl⟩
    · intro notSelected
      cases notSelected
    · simpa [isPhase, Phase.toLock] using sound.distinct
    · rintro items ⟨⟩ target isTarget
      rcases mem_reservationsOf isTarget with ⟨isPolicy, isConfigured, isOn, noIssue, canReserve⟩
      refine .inl (List.mem_flatMap.mpr ⟨target.1, isPolicy, ?_⟩)
      rw [itemsOf, if_neg isOn, noIssue]
      simpa only [if_pos canReserve] using List.mem_map_of_mem isConfigured
    · rintro items ⟨⟩ policy isPolicy enforced hasIssue
      have isOn : policy.mode ≠ .off := by
        rw [enforced]
        decide
      refine .inl ?_
      cases isIssue : policyIssue transaction.request policy with
      | some text =>
        refine ⟨text, List.mem_flatMap.mpr ⟨policy, isPolicy, ?_⟩⟩
        rw [itemsOf, if_neg isOn, isIssue]
        exact List.mem_singleton_self _
      | none =>
        have cannotReserve := hasIssue.resolve_left fun isSome => isSome isIssue
        refine ⟨str "price budget cannot be evaluated", List.mem_flatMap.mpr ⟨policy, isPolicy, ?_⟩⟩
        rw [itemsOf, if_neg isOn, isIssue]
        simp [cannotReserve]
  case h_2 id rest isPhase =>
    have distinct : (transaction.policies.map (·.id) ++ id :: rest).Nodup := by
      simpa [isPhase, Phase.toLock] using sound.distinct
    have distinctRest : (transaction.policies.map (·.id) ++ rest).Nodup :=
      distinct.sublist ((List.Sublist.refl _).append (List.sublist_cons_self id rest))
    have skips : ({ transaction with phase := .locking rest } : Transaction).Sound calendar state.policies ledger :=
      ⟨sound.noOverride, nofun, distinctRest, sound.held,
        fun items isChecking => absurd isChecking not_checking_locking,
        fun items isChecking => absurd isChecking not_checking_locking, sound.exceeded⟩
    rcases ite_none_left_eq_some.mp ran with ⟨isFree, ran⟩
    split at ran
    case h_1 policy found =>
      split at ran
      · cases ran
        have isId : policy.id = id := Table.key_of_find found
        refine ⟨⟨sound.noOverride, nofun, ?_, ?_,
          fun items isChecking => absurd isChecking not_checking_locking,
          fun items isChecking => absurd isChecking not_checking_locking, sound.exceeded⟩, ?_⟩
        · simpa [Phase.toLock, isId] using distinct
        · intro other isOther
          rcases List.mem_append.mp isOther with isOld | isNew
          · exact sound.held other isOld
          · rw [List.mem_singleton.mp isNew, isId]
            exact found
        · intro heldId holds
          simp only [Transaction.holds, List.any_append, Bool.or_eq_true] at holds
          refine holds.imp_right fun isNew => ?_
          have isSame : policy.id = heldId := by simpa using isNew
          rw [← isSame, isId]
          exact Bool.eq_false_iff.mpr isFree
      · cases ran
        exact ⟨skips, fun _ => .inl⟩
    case h_2 =>
      cases ran
      exact ⟨skips, fun _ => .inl⟩
  case h_3 => cases ran

theorem sound_evaluate (sound : transaction.Sound calendar policies state.ledger)
    (ran : transaction.statement state others calendar (.evaluate index) = some next) :
    next.Sound calendar policies state.ledger ∧ next.policies = transaction.policies := by
  simp only [statement] at ran
  split at ran
  case h_1 policy text rest isPhase =>
    cases ran
    refine ⟨⟨sound.noOverride, nofun, ?_, sound.held, ?_, ?_, ?_⟩, rfl⟩
    · simpa [isPhase, Phase.toLock] using sound.distinct
    · rintro items ⟨⟩ target isTarget
      rcases sound.cleared _ isPhase target isTarget with waits | blocked | fits
      · exact .inl (List.mem_of_ne_of_mem (by intro same; cases same) waits)
      · exact .inr (.inl (isBlocked_recordIssue (.inl blocked)))
      · exact .inr (.inr fits)
    · rintro items ⟨⟩ other isOther enforced hasIssue
      rcases sound.issues _ isPhase other isOther enforced hasIssue with ⟨waitingText, waits⟩ | blocked
      · rcases List.mem_cons.mp waits with isThis | later
        · cases isThis
          exact .inr (isBlocked_recordIssue (.inr enforced))
        · exact .inl ⟨waitingText, later⟩
      · exact .inr (isBlocked_recordIssue (.inl blocked))
    · intro check isCheck enforced isExceeded
      rw [checks_recordIssue] at isCheck
      exact isBlocked_recordIssue (.inl (sound.exceeded check isCheck enforced isExceeded))
  case h_2 policy window rest isPhase =>
    cases ran
    refine ⟨⟨sound.noOverride, nofun, ?_, sound.held, ?_, ?_, ?_⟩, rfl⟩
    · simpa [isPhase, Phase.toLock] using sound.distinct
    · rintro items ⟨⟩ target isTarget
      rcases sound.cleared _ isPhase target isTarget with waits | blocked | fits
      · rcases List.mem_cons.mp waits with isThis | later
        · -- the check of this window: its verdict is recorded
          cases isThis
          exact .inr (blocked_or_fits sound.noOverride)
        · exact .inl later
      · exact .inr (.inl (isBlocked_recordCheck sound.noOverride (.inl blocked)))
      · exact .inr (.inr fits)
    · rintro items ⟨⟩ other isOther enforced hasIssue
      rcases sound.issues _ isPhase other isOther enforced hasIssue with ⟨waitingText, waits⟩ | blocked
      · exact .inl ⟨waitingText, List.mem_of_ne_of_mem (by intro same; cases same) waits⟩
      · exact .inr (isBlocked_recordCheck sound.noOverride (.inl blocked))
    · intro check isCheck enforced isExceeded
      rw [checks_recordCheck] at isCheck
      rcases List.mem_append.mp isCheck with isOld | isNew
      · exact isBlocked_recordCheck sound.noOverride (.inl (sound.exceeded check isOld enforced isExceeded))
      · rw [List.mem_singleton] at isNew
        subst isNew
        exact isBlocked_recordCheck sound.noOverride (.inr ⟨enforced, isExceeded⟩)
  case h_3 => cases ran

theorem sound_statement {label : Label} (sound : transaction.Sound calendar state.policies state.ledger)
    (ran : transaction.statement state others calendar label = some next) :
    next.Sound calendar state.policies state.ledger ∧
      forall id, next.holds id -> transaction.holds id ∨ (others.any fun other => other.holds id) = false := by
  have keeps (same : next.policies = transaction.policies) id (holds : next.holds id) :
      transaction.holds id = true ∨ (others.any fun other => other.holds id) = false :=
    .inl (by rwa [Transaction.holds, same] at holds)
  cases label with
  | expireOwn index => exact (sound_expireOwn sound ran).imp_right keeps
  | select index => exact (sound_select sound ran).imp_right keeps
  | lock index => exact sound_lock sound ran
  | evaluate index => exact (sound_evaluate sound ran).imp_right keeps
  | _ => cases ran

end Transactions

/-! ## Steps of the system -/

section Steps

variable {calendar : Calendar} {state next : State} {policies : Table Policy Policy.id}
  {before after : List LedgerRow} {transaction : Transaction} {index : Nat}

/-- No enforced limit of a day or a month is exceeded by what is committed and reserved. -/
def WithinLimits (policies : Table Policy Policy.id) (ledger : List LedgerRow) : Prop :=
  forall policy, policy ∈ policies.rows -> policy.mode = .enforce -> forall window, window ≠ .perRun ->
    forall limit, limitForWindow policy window = some limit ->
      forall start, charged ledger [] policy.id window start ≤ limit

def holder (policyId : Nat) (transaction : Transaction) : Nat :=
  if transaction.holds policyId then 1 else 0

/-- A reservation has no committed cost yet. -/
def Uncommitted (ledger : List LedgerRow) : Prop :=
  forall row, row ∈ ledger -> row.status = .reserved -> row.committedCost = none

variable {ids expired : List Nat} {policy : Policy} {policyId : Nat} {start : Int} {window : Window}
  {maxDaily maxMonthly maxRun : Option Nat}

theorem uncommitted_updateReserved {change : LedgerRow -> LedgerRow} (uncommitted : Uncommitted before)
    (leaves : forall row, (change row).status ≠ .reserved) : Uncommitted (updateReserved ids change before) := by
  intro changed isChanged isReserved
  rcases List.mem_map.mp isChanged with ⟨row, isRow, rfl⟩
  split at isReserved
  case isTrue => exact absurd isReserved (leaves row)
  case isFalse notChosen =>
    rw [if_neg notChosen]
    exact uncommitted row isRow isReserved

theorem uncommitted_inserts (firstId : Nat) : Uncommitted (transaction.inserts calendar firstId) := by
  intro row isRow _
  unfold inserts at isRow
  split at isRow
  · cases isRow
  rcases List.mem_map.mp isRow with ⟨target, _, rfl⟩
  rfl

structure Bounded (calendar : Calendar) (state : State) : Prop where
  within : WithinLimits state.policies state.ledger
  uncommitted : Uncommitted state.ledger
  exclusive : forall policyId, Pool.total (holder policyId) state.transactions ≤ 1
  sound : forall transaction, transaction ∈ state.transactions ->
    transaction.Sound calendar state.policies state.ledger

theorem holds_of_mem (inside : policy ∈ transaction.policies) : transaction.holds policy.id :=
  List.any_eq_true.mpr ⟨policy, inside, beq_self_eq_true policy.id⟩

/-- A transaction stays sound when the use of the policies it holds does not grow. -/
theorem Transaction.Sound.shrinks (sound : transaction.Sound calendar policies before)
    (shrinks : forall policy, policy ∈ transaction.policies -> forall window start,
      charged after transaction.expired policy.id window start ≤
        charged before transaction.expired policy.id window start) :
    transaction.Sound calendar policies after :=
  { sound with
    cleared := by
      intro items isChecking target isTarget
      refine (sound.cleared items isChecking target isTarget).imp_right (Or.imp_right fun fits => ?_)
      intro enforced notPerRun limit hasLimit
      have smaller := shrinks target.1 (mem_reservationsOf isTarget).1 target.2
        (windowStart calendar transaction.timestamp target.2)
      exact Nat.le_trans (Nat.add_le_add_right smaller _) (fits enforced notPerRun limit hasLimit) }

section

variable (bounded : Bounded calendar state)

include bounded

/-- A step that changes nothing but the ledger, and raises no charge in the view of anyone. -/
theorem Bounded.shrinks (uncommitted : Uncommitted after)
    (shrinks : forall expired, (expired = [] ∨ Exists fun transaction =>
        transaction ∈ state.transactions ∧ expired = transaction.expired) ->
      forall policyId window start,
        charged after expired policyId window start ≤ charged state.ledger expired policyId window start) :
    Bounded calendar { state with ledger := after } where
  within := fun policy isPolicy enforced window notPerRun limit hasLimit start =>
    Nat.le_trans (shrinks [] (.inl rfl) policy.id window start)
      (bounded.within policy isPolicy enforced window notPerRun limit hasLimit start)
  uncommitted := uncommitted
  exclusive := bounded.exclusive
  sound := fun transaction isOpen =>
    (bounded.sound transaction isOpen).shrinks fun policy _ window start =>
      shrinks transaction.expired (.inr ⟨transaction, isOpen, rfl⟩) policy.id window start

/-- A statement of one transaction. -/
theorem Bounded.set (found : state.transactions[index]? = some transaction) {moved : Transaction}
    (sound : moved.Sound calendar state.policies state.ledger)
    (takes : forall policyId, moved.holds policyId -> transaction.holds policyId ∨
      ((state.transactions.eraseIdx index).any fun other => other.holds policyId) = false) :
    Bounded calendar { state with transactions := state.transactions.set index moved } where
  within := bounded.within
  uncommitted := bounded.uncommitted
  exclusive := by
    intro policyId
    have bound := bounded.exclusive policyId
    have total := Pool.total_set (holder policyId) found moved
    have rest := Pool.total_eraseIdx (holder policyId) found
    have small : holder policyId moved ≤ 1 := by
      unfold holder
      split <;> decide
    dsimp only
    by_cases holds : moved.holds policyId
    · rcases takes policyId holds with held | free
      · have same : holder policyId moved = holder policyId transaction := by simp only [holder, holds, held]
        omega
      · have noOther : Pool.total (holder policyId) (state.transactions.eraseIdx index) = 0 :=
          Pool.total_eq_zero fun other isOther => if_neg (List.any_eq_false.mp free other isOther)
        omega
    · have notHolding : holder policyId moved = 0 := if_neg holds
      omega
  sound := Pool.forall_set bounded.sound sound

/-- A policy that another transaction holds is not charged by this one. -/
theorem charged_inserts_of_held (found : state.transactions[index]? = some transaction) {other : Transaction}
    (isOther : other ∈ state.transactions.eraseIdx index) (held : policy ∈ other.policies) (firstId : Nat)
    (window : Window) (start : Int) : charged (transaction.inserts calendar firstId) [] policy.id window start = 0 := by
  by_contra isCharged
  rcases exists_target_of_charged isCharged with ⟨_, target, isTarget, sameId, _⟩
  have holds : holder policy.id transaction = 1 :=
    if_pos (sameId ▸ holds_of_mem (mem_reservationsOf isTarget).1)
  have otherHolds : holder policy.id other = 1 := if_pos (holds_of_mem held)
  rcases List.getElem?_of_mem isOther with ⟨position, atPosition⟩
  have counted := Pool.le_total (holder policy.id) atPosition
  have rest := Pool.total_eraseIdx (holder policy.id) found
  have bound := bounded.exclusive policy.id
  omega

end

/-- What a preflight adds fits into every limit. -/
theorem withinLimits_finish (within : WithinLimits policies before)
    (sound : transaction.Sound calendar policies before) (isDone : transaction.phase = .checking []) (firstId : Nat) :
    WithinLimits policies (expireRows transaction.expired before ++ transaction.inserts calendar firstId) := by
  intro policy isPolicy enforced window notPerRun limit hasLimit start
  have distinct : (transaction.policies.map (·.id)).Nodup := by
    simpa [isDone, Phase.toLock] using sound.distinct
  have added : charged (transaction.inserts calendar firstId) [] policy.id window start ≤
      transaction.request.estimate.cost.stored := charged_inserts_le distinct
  rw [charged_append, charged_expireRows]
  by_cases isCharged : charged (transaction.inserts calendar firstId) [] policy.id window start = 0
  · rw [isCharged, Nat.add_zero]
    exact Nat.le_trans (charged_le_of_fewer _) (within policy isPolicy enforced window notPerRun limit hasLimit start)
  · rcases exists_target_of_charged isCharged with ⟨notStalled, target, isTarget, sameId, sameWindow, sameStart⟩
    -- the policy that was read is the one in the table
    have isSame : target.1 = policy := by
      have read := sound.held target.1 (mem_reservationsOf isTarget).1
      rw [sameId, Table.find_of_mem isPolicy] at read
      exact (some.inj read).symm
    rcases sound.cleared [] isDone target isTarget with waits | blocked | fits
    · cases waits
    · exact absurd notStalled ((stalled_finalize transaction.decision).mpr blocked)
    rw [isSame, sameWindow, sameStart] at fits
    have kept := fits enforced notPerRun limit hasLimit
    exact Nat.le_trans (Nat.add_le_add_left added _) kept

theorem Bounded.finish (bounded : Bounded calendar state) (found : state.transactions[index]? = some transaction)
    (isDone : transaction.phase = .checking []) (lastId : Nat) :
    Bounded calendar { state with
      ledger := expireRows transaction.expired state.ledger ++ transaction.inserts calendar state.nextId
      nextId := lastId
      transactions := state.transactions.eraseIdx index } where
  within := withinLimits_finish bounded.within (bounded.sound transaction (List.mem_of_getElem? found)) isDone
    state.nextId
  uncommitted := by
    intro row isRow isReserved
    rcases List.mem_append.mp isRow with isOld | isNew
    · exact uncommitted_updateReserved bounded.uncommitted (fun _ same => by cases same) row isOld isReserved
    · exact uncommitted_inserts state.nextId row isNew isReserved
  exclusive := fun policyId => Nat.le_trans (Pool.total_eraseIdx_le index) (bounded.exclusive policyId)
  sound := by
    intro other isOther
    have isOpen : other ∈ state.transactions := List.mem_of_mem_eraseIdx isOther
    refine (bounded.sound other isOpen).shrinks fun policy held window start => ?_
    have nothing := charged_inserts_of_held bounded found isOther held state.nextId window start
    have stillNothing := Nat.le_zero.mp (nothing ▸ charged_le_of_fewer other.expired)
    rw [charged_append, stillNothing, Nat.add_zero]
    exact charged_inactive_le (by decide) (by decide)

/-- A limit is kept or raised; to set one where there was none would lower it. -/
def NotLowered (old new : Option Nat) : Prop :=
  forall limit, limit ∈ new -> Exists fun former => former ∈ old ∧ former ≤ limit

/-- No override, a run commits at most what it has reserved, and limits are not lowered. -/
def Honest (state : State) : Label -> Prop
  | .begin request => request.overridePolicyIds = []
  | .commit reservations finalCost =>
    forall row, row ∈ state.ledger -> row.id ∈ reservations -> row.status = .reserved ->
      (finalCost.map Decimal.stored).getD row.reservedCost ≤ row.reservedCost
  | .setLimits policyId _ maxDaily maxMonthly =>
    forall policy, policy ∈ state.policies.rows -> policy.id = policyId ->
      NotLowered policy.maxDailyCost maxDaily ∧ NotLowered policy.maxMonthlyCost maxMonthly
  | _ => True

instance (old new : Option Nat) : Decidable (NotLowered old new) :=
  inferInstanceAs (Decidable (forall limit, limit ∈ new -> Exists fun former => former ∈ old ∧ former ≤ limit))

instance (state : State) : (label : Label) -> Decidable (Honest state label)
  | .begin request => inferInstanceAs (Decidable (request.overridePolicyIds = []))
  | .commit reservations finalCost =>
    inferInstanceAs (Decidable (forall row, row ∈ state.ledger -> row.id ∈ reservations -> row.status = .reserved ->
      (finalCost.map Decimal.stored).getD row.reservedCost ≤ row.reservedCost))
  | .setLimits policyId _ maxDaily maxMonthly =>
    inferInstanceAs (Decidable (forall policy, policy ∈ state.policies.rows -> policy.id = policyId ->
      NotLowered policy.maxDailyCost maxDaily ∧ NotLowered policy.maxMonthlyCost maxMonthly))
  | .tick _ | .expireOwn _ | .select _ | .lock _ | .evaluate _ | .finish _ | .abort _ | .release _
  | .expireStaleReservations => inferInstanceAs (Decidable True)

theorem charged_commit_le {finalCost : Option Decimal}
    (atMost : forall row, row ∈ before -> row.id ∈ ids -> row.status = .reserved ->
      (finalCost.map Decimal.stored).getD row.reservedCost ≤ row.reservedCost) (uncommitted : Uncommitted before)
    (free : forall id, id ∈ ids -> id ∉ expired) :
    charged (updateReserved ids (commitRow finalCost) before) expired policyId window start ≤
      charged before expired policyId window start := by
  refine charged_updateReserved_le fun row isRow isChosen isReserved => charge_le rfl rfl rfl ?_ ?_
  · exact fun _ => .inl ⟨isReserved, free row.id isChosen⟩
  · rw [uncommitted row isRow isReserved]
    exact atMost row isRow isChosen isReserved

theorem free_of_holdsRow (free : state.holdsRow ids = false) (isView : expired = [] ∨ Exists fun transaction =>
      transaction ∈ state.transactions ∧ expired = transaction.expired) : forall id, id ∈ ids -> id ∉ expired := by
  intro id isChosen isExpired
  rcases isView with rfl | ⟨transaction, isOpen, rfl⟩
  · cases isExpired
  have noneHeld := List.any_eq_false.mp free transaction isOpen
  refine noneHeld (List.any_eq_true.mpr ⟨id, isExpired, decide_eq_true isChosen⟩)

theorem bounded_initial : Bounded calendar (initial policies) where
  within := fun _ _ _ _ _ limit _ _ => Nat.zero_le limit
  uncommitted := fun _ isRow => absurd isRow List.not_mem_nil
  exclusive := fun _ => Nat.zero_le 1
  sound := fun _ isOpen => absurd isOpen List.not_mem_nil

theorem sound_begin (request : PreflightRequest) (noOverride : request.overridePolicyIds = []) (timestamp : Int) :
    Transaction.Sound calendar policies before
      { request := request, timestamp := timestamp, expired := [], policies := [], decision := .empty,
        phase := .begun } where
  noOverride := noOverride
  unselected := fun _ => rfl
  distinct := List.nodup_nil
  held := fun _ isPolicy => absurd isPolicy List.not_mem_nil
  cleared := fun _ isChecking => Phase.noConfusion isChecking
  issues := fun _ isChecking => Phase.noConfusion isChecking
  exceeded := fun _ isCheck => absurd isCheck List.not_mem_nil

/-- Limits that are not lowered are kept as before. -/
theorem withinLimits_setLimits (within : WithinLimits policies before)
    (raised : forall policy, policy ∈ policies.rows -> policy.id = policyId ->
      NotLowered policy.maxDailyCost maxDaily ∧ NotLowered policy.maxMonthlyCost maxMonthly) :
    WithinLimits (policies.update (withLimits policyId maxRun maxDaily maxMonthly)
      (withLimits_id policyId maxRun maxDaily maxMonthly)) before := by
  intro changed isChanged enforced window notPerRun limit hasLimit start
  rcases List.mem_map.mp isChanged with ⟨policy, isPolicy, rfl⟩
  rw [withLimits_id]
  by_cases isTarget : policy.id = policyId
  · rw [withLimits, if_pos isTarget] at enforced hasLimit
    have former : Exists fun limitBefore => limitForWindow policy window = some limitBefore ∧ limitBefore ≤ limit := by
      cases window with
      | perRun => exact absurd rfl notPerRun
      | daily => exact (raised policy isPolicy isTarget).1 limit hasLimit
      | monthly => exact (raised policy isPolicy isTarget).2 limit hasLimit
    rcases former with ⟨limitBefore, hadLimit, below⟩
    exact Nat.le_trans (within policy isPolicy enforced window notPerRun limitBefore hadLimit start) below
  · rw [withLimits, if_neg isTarget] at enforced hasLimit
    exact within policy isPolicy enforced window notPerRun limit hasLimit start

theorem Bounded.setLimits (bounded : Bounded calendar state)
    (free : Not ((state.transactions.any fun transaction => transaction.holds policyId)))
    (raised : forall policy, policy ∈ state.policies.rows -> policy.id = policyId ->
      NotLowered policy.maxDailyCost maxDaily ∧ NotLowered policy.maxMonthlyCost maxMonthly) :
    Bounded calendar { state with
      policies := state.policies.update (withLimits policyId maxRun maxDaily maxMonthly)
        (withLimits_id policyId maxRun maxDaily maxMonthly) } where
  within := withinLimits_setLimits bounded.within raised
  uncommitted := bounded.uncommitted
  exclusive := bounded.exclusive
  sound := by
    intro transaction isOpen
    have sound := bounded.sound transaction isOpen
    refine { sound with held := fun policy held => ?_ }
    have notTarget : policy.id ≠ policyId := by
      intro same
      exact free (List.any_eq_true.mpr ⟨transaction, isOpen, same ▸ holds_of_mem held⟩)
    rw [Table.find_update, sound.held policy held]
    simp [withLimits, notTarget]

theorem bounded_step {label : Label} (honest : Honest state label) (taken : state.step calendar label = some next)
    (bounded : Bounded calendar state) : Bounded calendar next := by
  cases label with
  | tick elapsed =>
    cases taken
    exact { bounded with }
  | begin request =>
    cases taken
    refine ⟨bounded.within, bounded.uncommitted, fun policyId => ?_,
      Pool.forall_append bounded.sound (sound_begin request honest state.now)⟩
    rw [Pool.total_append]
    exact bounded.exclusive policyId
  | expireOwn index | select index | lock index | evaluate index =>
    rcases bind_eq_some_iff.mp taken with ⟨transaction, found, moved⟩
    rcases map_eq_some_iff.mp moved with ⟨changed, ran, rfl⟩
    rcases sound_statement (bounded.sound transaction (List.mem_of_getElem? found)) ran with ⟨sound, takes⟩
    exact bounded.set found sound takes
  | finish index =>
    rcases bind_eq_some_iff.mp taken with ⟨transaction, found, finishes⟩
    rcases guarded finishes with ⟨isDone, rfl⟩
    exact bounded.finish found isDone _
  | abort index =>
    cases taken
    refine ⟨bounded.within, bounded.uncommitted, fun policyId => ?_, fun transaction isOpen =>
      bounded.sound transaction (List.mem_of_mem_eraseIdx isOpen)⟩
    exact Nat.le_trans (Pool.total_eraseIdx_le index) (bounded.exclusive policyId)
  | commit reservations finalCost =>
    rcases guarded taken with ⟨isFree, rfl⟩
    refine bounded.shrinks (uncommitted_updateReserved bounded.uncommitted fun _ same => by cases same) ?_
    intro expired isView policyId window start
    refine charged_commit_le (fun row isRow isChosen => ?_) bounded.uncommitted (free_of_holdsRow isFree.2 isView)
    exact honest row isRow (List.mem_filter.mp isChosen).1
  | release | expireStaleReservations =>
    rcases guarded taken with ⟨_, rfl⟩
    refine bounded.shrinks (uncommitted_updateReserved bounded.uncommitted fun _ same => by cases same) ?_
    exact fun expired _ policyId window start => charged_inactive_le (by decide) (by decide)
  | setLimits policyId maxRun maxDaily maxMonthly =>
    rcases unguarded taken with ⟨free, rfl⟩
    exact bounded.setLimits free honest

end Steps

/-! ## Runs -/

/-- Some enforced policy cannot be evaluated for the run, or the run exceeds one of its limits. -/
def Transaction.IsRefused (transaction : Transaction) : Prop :=
  (Exists fun policy => policy ∈ transaction.policies ∧ policy.mode = .enforce ∧
    (policyIssue transaction.request policy ≠ none ∨ estimateCanBeReserved transaction.request.estimate = false)) ∨
  Exists fun check => check ∈ transaction.decision.checks ∧ check.mode = .enforce ∧ check.exceeded = true

variable {transaction : Transaction}

theorem inserts_of_isRefused {calendar : Calendar} {policies : Table Policy Policy.id} {ledger : List LedgerRow}
    (sound : transaction.Sound calendar policies ledger) (isDone : transaction.phase = .checking [])
    (refused : transaction.IsRefused) (firstId : Nat) : transaction.inserts calendar firstId = [] := by
  have blocked : transaction.decision.isBlocked := by
    rcases refused with ⟨policy, isPolicy, enforced, hasIssue⟩ | ⟨check, isCheck, enforced, isExceeded⟩
    · rcases sound.issues [] isDone policy isPolicy enforced hasIssue with ⟨text, waits⟩ | blocked
      · cases waits
      · exact blocked
    · exact sound.exceeded check isCheck enforced isExceeded
  have stalls := isSome_iff_ne_none.mpr ((stalled_finalize transaction.decision).mpr blocked)
  simp [inserts, stalls]

/-- In every state of a run, the committed costs and open reservations of an enforced policy are within its limit for
each day and each month; and a run that an enforced policy refuses inserts no reservation at all. -/
theorem budgets_are_never_overrun {calendar : Calendar} {policies : Table Policy Policy.id} {labels : List Label}
    {state : State} (reached : Transition.run (State.step calendar) (initial policies) labels = some state)
    (honest : Transition.Along (State.step calendar) Honest (initial policies) labels) :
    (forall policy, policy ∈ state.policies.rows -> policy.mode = .enforce ->
      forall window, window ≠ .perRun -> forall limit, limitForWindow policy window = some limit ->
        forall start, charged state.ledger [] policy.id window start ≤ limit) ∧
    forall index transaction next, state.transactions[index]? = some transaction -> transaction.IsRefused ->
      state.step calendar (.finish index) = some next ->
        next.ledger = expireRows transaction.expired state.ledger := by
  have bounded : Bounded calendar state :=
    Transition.run_induction (fun _ _ _ => bounded_step) reached honest bounded_initial
  refine ⟨bounded.within, fun index transaction next found refused taken => ?_⟩
  rcases bind_eq_some_iff.mp taken with ⟨finished, isFinished, finishes⟩
  cases found.symm.trans isFinished
  rcases guarded finishes with ⟨isDone, rfl⟩
  have sound := bounded.sound transaction (List.mem_of_getElem? found)
  simp only [inserts_of_isRefused sound isDone refused state.nextId, List.append_nil]

/-! A budget of 10.00 a day and two runs of 6.00 -/

def dailyPolicy : Policy where
  id := 1
  scope := .global
  providerKey := none
  vaultId := none
  gatewayCredentialId := none
  mode := .enforce
  currency := str "USD"
  maxRunCost := none
  maxDailyCost := some 1000000000
  maxMonthlyCost := none
  requireVerifiedCatalog := true
  allowStaleCatalog := false
  maxCatalogAgeSeconds := some 43200
  isActive := true

def dailyPolicies : Table Policy Policy.id where
  rows := [dailyPolicy]
  unique := List.nodup_singleton _

def sixDollars : PreflightRequest where
  vaultId := 1
  runUuid := str "run"
  providerKey := str "aws-s3"
  providerSupported := true
  estimate :=
    { available := true
      supported := true
      unavailableReason := []
      estimateMode := budgetMode
      freeTierPolicy := budgetFreeTierPolicy
      estimatedCost := some { digits := 600, scale := 2 }
      currency := str "USD"
      catalogVerified := true
      stale := false
      catalogAgeSeconds := some 60 }
  dryRun := false
  overridePolicyIds := []
  gatewayCredentialId := none
  gatewayScopesOnly := false
  synthetic := false

def utc : Calendar where
  day := fun timestamp => timestamp - timestamp % 86400
  month := fun timestamp => timestamp - timestamp % 2592000

/-- The statements of a preflight with one policy of one window, up to its commit. -/
def preflightOf (index : Nat) : List Label :=
  [.expireOwn index, .select index, .lock index, .lock index, .evaluate index]

/-- Both preflights have begun before the first one commits. -/
def twoRuns : List Label :=
  [.begin sixDollars, .begin sixDollars] ++ preflightOf 0 ++ [.finish 0] ++ preflightOf 0

theorem isRefused_of_any
    (refused : (transaction.decision.checks.any fun check => check.mode == .enforce && check.exceeded) = true) :
    transaction.IsRefused := by
  rcases List.any_eq_true.mp refused with ⟨check, isCheck, enforced⟩
  rw [Bool.and_eq_true, beq_iff_eq] at enforced
  exact .inr ⟨check, isCheck, enforced.1, enforced.2⟩

/-- The policies and the end of the second run, which its check refuses. -/
def secondRun : Option (List Policy × Bool) := do
  let state <- Transition.run (State.step utc) (initial dailyPolicies) twoRuns
  let transaction <- state.transactions[0]?
  let _ <- state.step utc (.finish 0)
  return (state.policies.rows, transaction.decision.checks.any fun check => check.mode == .enforce && check.exceeded)

theorem budgets_are_never_overrun_twoRuns :
    Exists fun state => Exists fun transaction => Exists fun next =>
      Transition.run (State.step utc) (initial dailyPolicies) twoRuns = some state ∧
        state.transactions[0]? = some transaction ∧ state.step utc (.finish 0) = some next ∧
        charged state.ledger [] 1 .daily 0 ≤ 1000000000 ∧
        next.ledger = expireRows transaction.expired state.ledger := by
  have isRun : secondRun = some ([dailyPolicy], true) := by decide +kernel
  simp only [secondRun, bind_eq_bind, bind_eq_some_iff, pure_def, some.injEq,
    Prod.mk.injEq] at isRun
  rcases isRun with ⟨state, reached, transaction, found, next, finished, isPolicies, refused⟩
  rcases budgets_are_never_overrun reached (by decide +kernel) with ⟨within, leavesNothing⟩
  have isPolicy : dailyPolicy ∈ state.policies.rows := isPolicies ▸ List.mem_singleton_self dailyPolicy
  refine ⟨state, transaction, next, reached, found, finished, ?_, ?_⟩
  · exact within dailyPolicy isPolicy rfl .daily (by decide) 1000000000 rfl 0
  · exact leavesNothing 0 transaction next found (isRefused_of_any refused) finished

end Pricing
end Vaulthalla
