import Vaulthalla.Pricing.BudgetBound

namespace Vaulthalla
namespace Pricing

open Foundation Transition LedgerRow State Option

/-!
# When a committed cost is counted

A row of the ledger changes while it is reserved and never afterwards.  A commit
that finds its row reserved is therefore counted from then on, once, whatever is
called later.  A commit that finds it released or expired returns without an
error and is never counted.
-/

/-! ## What a step does to the ledger -/

inductive LedgerChange (calendar : Calendar) (state next : State) : Prop
  | same (ledger : next.ledger = state.ledger) (nextId : next.nextId = state.nextId)
  | updates (ids : List Nat) (change : LedgerRow -> LedgerRow) (keeps : forall row, (change row).id = row.id)
      (ledger : next.ledger = updateReserved ids change state.ledger) (nextId : next.nextId = state.nextId)
  | inserts (transaction : Transaction)
      (ledger : next.ledger =
        expireRows transaction.expired state.ledger ++ transaction.inserts calendar state.nextId)
      (nextId : next.nextId = state.nextId + (transaction.inserts calendar state.nextId).length)

variable {calendar : Calendar} {state next final : State} {label : Label} {change : LedgerRow -> LedgerRow}
  {ids : List Nat} {ledger : List LedgerRow} {row : LedgerRow} {finalCost : Option Decimal}

theorem ledgerChange_step (taken : state.step calendar label = some next) : LedgerChange calendar state next := by
  cases label with
  | tick | begin | abort => exact some.inj taken ▸ .same rfl rfl
  | expireOwn index | select index | lock index | evaluate index =>
    rcases bind_eq_some_iff.mp taken with ⟨transaction, found, moved⟩
    rcases map_eq_some_iff.mp moved with ⟨changed, ran, rfl⟩
    exact .same rfl rfl
  | finish index =>
    rcases bind_eq_some_iff.mp taken with ⟨transaction, found, finishes⟩
    split at finishes
    · exact some.inj finishes ▸ .inserts transaction rfl rfl
    · cases finishes
  | commit reservations finalCost =>
    rcases guarded taken with ⟨_, rfl⟩
    exact .updates _ (commitRow finalCost) (fun _ => rfl) rfl rfl
  | release reservations =>
    rcases guarded taken with ⟨_, rfl⟩
    exact .updates _ (fun row => { row with status := .released }) (fun _ => rfl) rfl rfl
  | expireStaleReservations =>
    rcases guarded taken with ⟨_, rfl⟩
    exact .updates _ (fun row => { row with status := .expired }) (fun _ => rfl) rfl rfl
  | setLimits policyId maxRun maxDaily maxMonthly =>
    rcases ite_none_left_eq_some.mp taken with ⟨_, taken⟩
    exact some.inj taken ▸ .same rfl rfl

/-! ## Ids -/

/-- The rows have distinct ids that the sequence has given out. -/
structure Numbered (state : State) : Prop where
  distinct : (state.ledger.map (·.id)).Nodup
  given : forall id, id ∈ state.ledger.map (·.id) -> 0 < id ∧ id < state.nextId
  positive : 0 < state.nextId

theorem numbered_initial (policies : Table Policy Policy.id) : Numbered (initial policies) where
  distinct := List.nodup_nil
  given := fun _ isRow => absurd isRow List.not_mem_nil
  positive := Nat.one_pos

theorem map_id_updateReserved (keeps : forall row, (change row).id = row.id) (ledger : List LedgerRow) :
    (updateReserved ids change ledger).map (·.id) = ledger.map (·.id) := by
  rw [updateReserved, List.map_map]
  refine List.map_congr_left fun row _ => ?_
  simp only [Function.comp_apply]
  split
  · exact keeps row
  · rfl

theorem map_id_inserts (transaction : Transaction) (firstId : Nat) :
    (transaction.inserts calendar firstId).map (·.id) =
      List.range' firstId (transaction.inserts calendar firstId).length := by
  unfold Transaction.inserts
  split
  · rfl
  · refine List.ext_getElem (by simp) fun position isLeft isRight => ?_
    simp [reservationRow]

theorem numbered_step (taken : state.step calendar label = some next) (numbered : Numbered state) : Numbered next := by
  cases ledgerChange_step taken with
  | same ledger nextId =>
    exact ⟨ledger ▸ numbered.distinct, ledger ▸ nextId ▸ numbered.given, nextId ▸ numbered.positive⟩
  | updates ids change keeps ledger nextId =>
    have sameIds : next.ledger.map (·.id) = state.ledger.map (·.id) := by
      rw [ledger, map_id_updateReserved keeps]
    exact ⟨sameIds ▸ numbered.distinct, sameIds ▸ nextId ▸ numbered.given, nextId ▸ numbered.positive⟩
  | inserts transaction ledger nextId =>
    have isIds : next.ledger.map (·.id) = state.ledger.map (·.id) ++
        List.range' state.nextId (transaction.inserts calendar state.nextId).length := by
      have expired : (expireRows transaction.expired state.ledger).map (·.id) = state.ledger.map (·.id) := by
        refine map_id_updateReserved ?_ state.ledger
        exact fun _ => rfl
      rw [ledger, List.map_append, map_id_inserts, expired]
    refine ⟨?_, fun id isId => ?_, nextId ▸ Nat.add_pos_left numbered.positive _⟩
    · rw [isIds, List.nodup_append]
      refine ⟨numbered.distinct, List.nodup_range', fun older isOlder newer isNewer same => ?_⟩
      have isLow := (numbered.given older isOlder).2
      have isHigh := (List.mem_range'_1.mp isNewer).1
      omega
    · rw [isIds, List.mem_append, List.mem_range'_1] at isId
      rcases isId with isOlder | isNewer
      · have given := numbered.given id isOlder
        omega
      · have positive := numbered.positive
        omega

/-! ## Settled rows -/

theorem mem_updateReserved (settled : row.status ≠ .reserved) (inside : row ∈ ledger) :
    row ∈ updateReserved ids change ledger :=
  List.mem_map.mpr ⟨row, inside, if_neg fun chosen => settled chosen.2⟩

def State.records (row : LedgerRow) (state : State) : Prop :=
  row ∈ state.ledger

/-- A row that is not reserved stays as it is. -/
theorem records_step (settled : row.status ≠ .reserved) (taken : state.step calendar label = some next)
    (inside : state.records row) : next.records row := by
  unfold records at inside ⊢
  cases ledgerChange_step taken with
  | same ledger nextId => exact ledger ▸ inside
  | updates ids change keeps ledger nextId => exact ledger ▸ mem_updateReserved settled inside
  | inserts transaction ledger nextId =>
    exact ledger ▸ List.mem_append_left _ (mem_updateReserved settled inside)

/-- What the row is after a commit of its id. -/
def LedgerRow.afterCommit (row : LedgerRow) (finalCost : Option Decimal) : LedgerRow :=
  if row.status = .reserved then commitRow finalCost row else row

theorem afterCommit_settled (row : LedgerRow) (finalCost : Option Decimal) :
    (row.afterCommit finalCost).status ≠ .reserved := by
  unfold afterCommit
  split
  case isTrue =>
    intro same
    cases same
  case isFalse settled => exact settled

theorem id_afterCommit (row : LedgerRow) (finalCost : Option Decimal) : (row.afterCommit finalCost).id = row.id := by
  unfold afterCommit
  split <;> rfl

theorem mem_commit {reservations : List Nat}
    (taken : state.step calendar (.commit reservations finalCost) = some next) (inside : row ∈ state.ledger)
    (isChosen : row.id ∈ reservations) (notZero : row.id ≠ 0) : row.afterCommit finalCost ∈ next.ledger := by
  rcases guarded taken with ⟨_, rfl⟩
  refine List.mem_map.mpr ⟨row, inside, ?_⟩
  have isId : row.id ∈ reservationIds reservations := List.mem_filter.mpr ⟨isChosen, bne_iff_ne.mpr notZero⟩
  simp only [afterCommit, isId, true_and]

/-! ## Counting -/

/-- The use that the other rows make of the policy in the window. -/
def usedByOthers (ledger : List LedgerRow) (id : Nat) (expired : List Nat) (policy : Policy) (window : Window)
    (start : Int) : Nat :=
  usedForWindow (ledger.filter fun row => row.id != id) expired policy window start

/-- With distinct ids, a row counts beside the others. -/
theorem charged_split (distinct : (ledger.map (·.id)).Nodup) (inside : row ∈ ledger) (expired : List Nat)
    (policyId : Nat) (window : Window) (start : Int) :
    charged ledger expired policyId window start =
      charged (ledger.filter fun other => other.id != row.id) expired policyId window start +
        row.charge expired policyId window start := by
  induction ledger with
  | nil => cases inside
  | cons first rest ih =>
    rw [List.map_cons, List.nodup_cons] at distinct
    rcases List.mem_cons.mp inside with rfl | later
    · have others : (rest.filter fun other => other.id != row.id) = rest := by
        refine List.filter_eq_self.mpr fun other isOther => bne_iff_ne.mpr fun same => ?_
        exact distinct.1 (same ▸ List.mem_map_of_mem isOther)
      simp only [charged, Pool.total_cons, List.filter_cons, bne_self_eq_false, Bool.false_eq_true, if_false, others]
      omega
    · have different : first.id ≠ row.id := by
        intro same
        exact distinct.1 (same ▸ List.mem_map_of_mem later)
      have onRest := ih distinct.2 later
      simp only [charged] at onRest
      simp only [charged, Pool.total_cons, List.filter_cons, bne_iff_ne.mpr different, if_true, onRest]
      omega

/-- The cost that a commit reports for the row. -/
def LedgerRow.actualCost (row : LedgerRow) (finalCost : Option Decimal) : Nat :=
  (finalCost.map Decimal.stored).getD row.reservedCost

/-- A commit of the row with the given cost is counted: the row is reserved, or was committed with the same cost.  A cost
of zero is also right for a row that is not counted, and for a run's own limit, which has no use. -/
def LedgerRow.Countable (row : LedgerRow) (actual : Nat) : Prop :=
  (row.window ≠ .perRun ∧ (row.status = .reserved ∨
      (row.status = .committed ∧ row.committedCost.getD row.reservedCost = actual))) ∨
    ((row.window = .perRun ∨ row.status = .released ∨ row.status = .expired) ∧ actual = 0)

instance (row : LedgerRow) (actual : Nat) : Decidable (row.Countable actual) :=
  inferInstanceAs (Decidable (_ ∨ _))

theorem charge_afterCommit (notPerRun : row.window ≠ .perRun) (expired : List Nat) :
    (row.afterCommit finalCost).charge expired row.policyId row.window row.windowStart = row.actualCost finalCost <->
      row.Countable (row.actualCost finalCost) := by
  cases isStatus : row.status with
  | reserved => simp [afterCommit, charge, isActive, LedgerRow.Countable,
      actualCost, commitRow, isStatus, notPerRun]
  | committed => simp [afterCommit, charge, isActive, LedgerRow.Countable, isStatus,
      notPerRun]
  | released | expired => simp [afterCommit, charge, isActive, LedgerRow.Countable, isStatus,
      notPerRun, eq_comm]

/-- After a commit has returned, and whatever is called later, the use that a preflight computes for the policy and the
window (whichever reservations it has expired itself) is that of the other rows and the actual cost, exactly when the
row was countable as the commit found it. -/
theorem commit_is_counted {policies : Table Policy Policy.id} {labels later : List Label} {reservations : List Nat}
    {finalCost : Option Decimal} {row : LedgerRow}
    (reached : run (step calendar) (initial policies) labels = some state)
    (inside : row ∈ state.ledger) (isChosen : row.id ∈ reservations)
    (committed : state.step calendar (.commit reservations finalCost) = some next)
    (continued : run (step calendar) next later = some final) {policy : Policy}
    (isPolicy : policy.id = row.policyId) (expired : List Nat) :
    usedForWindow final.ledger expired policy row.window row.windowStart =
        usedByOthers final.ledger row.id expired policy row.window row.windowStart + row.actualCost finalCost <->
      row.Countable (row.actualCost finalCost) := by
  have numbered : Numbered state :=
    run_invariant (fun _ _ _ => numbered_step) reached (numbered_initial policies)
  have numberedFinal : Numbered final :=
    run_invariant (fun _ _ _ => numbered_step) continued (numbered_step committed numbered)
  have notZero : row.id ≠ 0 := Nat.ne_of_gt (numbered.given row.id (List.mem_map_of_mem inside)).1
  have stays : final.records (row.afterCommit finalCost) :=
    run_invariant (fun _ _ _ => records_step (afterCommit_settled row finalCost)) continued
      (mem_commit committed inside isChosen notZero)
  by_cases isPerRun : row.window = .perRun
  · simp [usedByOthers, usedForWindow, LedgerRow.Countable, isPerRun, eq_comm]
  · have isSplit := charged_split numberedFinal.distinct stays expired row.policyId row.window row.windowStart
    rw [id_afterCommit] at isSplit
    rw [usedByOthers, usedForWindow, usedForWindow, if_neg isPerRun, if_neg isPerRun, isPolicy, isSplit,
      Nat.add_left_cancel_iff]
    exact charge_afterCommit isPerRun expired

/-! A run of 6.00 that takes more than a day -/

def oneReservation : List Label :=
  [.begin sixDollars] ++ preflightOf 0 ++ [.finish 0]

/-- The rows after the first labels, and the use of the day at the end of all. -/
def committedLate (before after : List Label) : Option (List LedgerRow × Nat × Nat) := do
  let state <- run (step utc) (initial dailyPolicies) before
  let next <- state.step utc (.commit [1] none)
  let final <- run (step utc) next after
  return (state.ledger, usedForWindow final.ledger [] dailyPolicy .daily 0,
    usedByOthers final.ledger 1 [] dailyPolicy .daily 0)

/-- The one row of the ledger. -/
def sixDollarsReserved (status : Status) : LedgerRow where
  id := 1
  policyId := 1
  runUuid := str "run"
  window := .daily
  windowStart := 0
  reservedCost := 600000000
  committedCost := none
  status := status
  createdAt := 0

theorem commit_is_counted_oneReservation :
    Exists fun state => Exists fun next => Exists fun final =>
      run (step utc) (initial dailyPolicies) oneReservation = some state ∧
        state.step utc (.commit [1] none) = some next ∧
        run (step utc) next [.release [1], .commit [1] none] = some final ∧
        usedForWindow final.ledger [] dailyPolicy .daily 0 =
          usedByOthers final.ledger 1 [] dailyPolicy .daily 0 + 600000000 := by
  have isRun : (committedLate oneReservation [.release [1], .commit [1] none]).map Prod.fst =
      some [sixDollarsReserved .reserved] := by decide +kernel
  simp only [committedLate, bind_eq_bind, map_eq_some_iff, bind_eq_some_iff, pure_def,
    some.injEq] at isRun
  rcases isRun with ⟨_, ⟨state, reached, next, committed, final, continued, rfl⟩, isLedger⟩
  have inside : sixDollarsReserved .reserved ∈ state.ledger := by
    rw [show state.ledger = [sixDollarsReserved .reserved] from isLedger]
    exact List.mem_singleton_self _
  have counted := commit_is_counted reached inside (List.mem_singleton_self 1) committed continued
    (rfl : dailyPolicy.id = (sixDollarsReserved .reserved).policyId) []
  exact ⟨state, next, final, reached, committed, continued, counted.mpr (by decide)⟩

/-- The reservation expires after a day; the commit then returns without an error and is not counted. -/
theorem late_commit_is_not_counted :
    committedLate (oneReservation ++ [.tick 86401, .expireStaleReservations]) [] =
      some ([sixDollarsReserved .expired], 0, 0) := by
  decide +kernel

/-- A row that was committed, released or expired is the only row of its id for ever, and never changes. -/
theorem settled_row_is_final {policies : Table Policy Policy.id} {labels later : List Label}
    (reached : run (step calendar) (initial policies) labels = some state) (inside : row ∈ state.ledger)
    (settled : row.status ≠ .reserved) (continued : run (step calendar) state later = some final) :
    row ∈ final.ledger ∧ forall other, other ∈ final.ledger -> other.id = row.id -> other = row := by
  have numbered : Numbered final :=
    run_invariant (fun _ _ _ => numbered_step) continued
      (run_invariant (fun _ _ _ => numbered_step) reached (numbered_initial policies))
  have stays : final.records row := run_invariant (fun _ _ _ => records_step settled) continued inside
  exact ⟨stays, fun other isOther same => List.inj_on_of_nodup_map numbered.distinct isOther stays same⟩

/-- A commit comes after the reservation has expired. -/
theorem settled_row_is_final_expired :
    Exists fun state => Exists fun final => run (step utc) state [.commit [1] none] = some final ∧
      sixDollarsReserved .expired ∈ final.ledger := by
  have isRun : ((run (step utc) (initial dailyPolicies)
      (oneReservation ++ [.tick 86401, .expireStaleReservations])).bind fun state =>
        (run (step utc) state [.commit [1] none]).map fun _ => state.ledger) =
        some [sixDollarsReserved .expired] := by decide +kernel
  rcases bind_eq_some_iff.mp isRun with ⟨state, reached, continues⟩
  rcases map_eq_some_iff.mp continues with ⟨final, continued, isLedger⟩
  have inside : sixDollarsReserved .expired ∈ state.ledger := isLedger ▸ List.mem_singleton_self _
  exact ⟨state, final, continued, (settled_row_is_final reached inside (by decide) continued).1⟩

end Pricing
end Vaulthalla
