import Vaulthalla.Foundation.Pool
import Vaulthalla.Foundation.Transition

namespace Vaulthalla
namespace Sync
namespace PassLease

open Foundation Transition Function List

/-!
# One pass per cloud vault

A regular pass and an event applier take the lease of the vault when they
start, and a scope guard releases it.  `runScoped` takes it for a task, which
owns it once it has adopted it, and releases it when it has run or when it is
destroyed unrun.  The handler of `runScoped` releases it too.
-/

/-- A call of `runScoped`, and then the task that it has made. -/
inductive Scoped
  | calling | made
  /-- The task has adopted the lease, and is submitted next. -/
  | adopted | queued | running
  /-- `submit` has thrown and the task is destroyed; the handler comes next. -/
  | unwinding
deriving DecidableEq

inductive Party
  | regular (passing : Bool)
  | applier (applying : Bool)
  | byEvent (stage : Scoped)
deriving DecidableEq

def Party.holds : Party -> Bool
  | .regular passing => passing
  | .applier applying => applying
  | .byEvent stage => stage ∉ [.calling, .unwinding]

inductive Effect
  | none | acquire | release

/-- The next step of a party and where it is then.  A regular pass that finds the lease taken is put back, and a pool
that is stopping drops what is submitted and what is queued. -/
def Party.advance (active stopping throws : Bool) : Party -> Effect × Option Party
  | .regular false => if active then (.none, some (.regular false)) else (.acquire, some (.regular true))
  | .applier false => if active then (.none, none) else (.acquire, some (.applier true))
  | .byEvent .calling => if active then (.none, none) else (.acquire, some (.byEvent .made))
  | .byEvent .made => if throws then (.release, none) else (.none, some (.byEvent .adopted))
  | .byEvent .adopted =>
    if throws then (.release, some (.byEvent .unwinding))
    else if stopping then (.release, none)
    else (.none, some (.byEvent .queued))
  | .byEvent .queued => if stopping then (.release, none) else (.none, some (.byEvent .running))
  | .regular true | .applier true | .byEvent .running | .byEvent .unwinding => (.release, none)

structure State where
  activePasses : Nat -> Bool
  stopping : Bool
  parties : List (Nat × Party)
  /-- How often the lease was released by a party that did not hold it. -/
  stray : Nat

inductive Label
  | enter (vaultId : Nat) (party : Party)
  | advance (index : Nat) (throws : Bool)
  | requestStop

variable (state : State)

def State.perform (vaultId : Nat) (holds : Bool) : Effect -> State
  | .none => state
  | .acquire => { state with activePasses := update state.activePasses vaultId true }
  | .release =>
    { state with
      activePasses := update state.activePasses vaultId false
      stray := if holds then state.stray else state.stray + 1 }

def step : Label -> Option State
  | .enter vaultId party =>
    if party ∈ [.regular false, .applier false, .byEvent .calling] then
      some { state with parties := state.parties ++ [(vaultId, party)] }
    else none
  | .advance index throws =>
    state.parties[index]?.map fun (vaultId, party) =>
      let moved := party.advance (state.activePasses vaultId) state.stopping throws
      { state.perform vaultId party.holds moved.1 with
        parties := Pool.move state.parties index (moved.2.map fun next => (vaultId, next)) }
  | .requestStop => some { state with stopping := true }

def start : State where
  activePasses _ := false
  stopping := false
  parties := []
  stray := 0

/-- How many hold the lease of the vault. -/
def holders (vaultId : Nat) (parties : List (Nat × Party)) : Nat :=
  Pool.total (fun party => if party.1 = vaultId then party.2.holds.toNat else 0) parties

/-- The submission of the task of `runScoped` does not throw. -/
def Submits : Label -> Prop
  | .advance index throws => state.parties[index]?.map Prod.snd = some (.byEvent .adopted) -> throws = false
  | _ => True

instance (state : State) : (label : Label) -> Decidable (Submits state label)
  | .advance _ _ => inferInstanceAs (Decidable (_ -> _))
  | .enter _ _ | .requestStop => .isTrue trivial

/-! ## Ownership -/

/-- The effect is what it has to be for a party that holds the lease before or after it. -/
def Effect.Fits (active before after : Bool) : Effect -> Prop
  | .none => after = before
  | .acquire => active = false ∧ before = false ∧ after
  | .release => before ∧ after = false

theorem Party.fits_advance {party : Party} (active stopping : Bool) {throws : Bool}
    (isHandled : party ≠ .byEvent .unwinding) (submits : party = .byEvent .adopted -> throws = false) :
    (party.advance active stopping throws).1.Fits active party.holds
        ((party.advance active stopping throws).2.any Party.holds) ∧
      (party.advance active stopping throws).2 ≠ some (.byEvent .unwinding) := by
  cases party with
  | regular passing | applier passing =>
    cases passing <;> cases active <;> simp [Party.advance, Party.holds, Effect.Fits]
  | byEvent stage =>
    cases stage with
    | unwinding => exact absurd rfl isHandled
    | adopted =>
      cases submits rfl
      cases stopping <;> simp [Party.advance, Party.holds, Effect.Fits]
    | _ => cases active <;> cases stopping <;> cases throws <;> simp [Party.advance, Party.holds, Effect.Fits]

/-- A lease is taken exactly if one party holds it. -/
structure Owned : Prop where
  holders : forall vaultId, holders vaultId state.parties = (state.activePasses vaultId).toNat
  handled : forall party, party ∈ state.parties -> party.2 ≠ .byEvent .unwinding
  stray : state.stray = 0

variable {state next : State}

theorem Owned.move (owned : Owned state) {index vaultId : Nat} {party : Party}
    (isParty : state.parties[index]? = some (vaultId, party)) {effect : Effect} {moved : Option Party}
    (fits : effect.Fits (state.activePasses vaultId) party.holds (moved.any Party.holds))
    (isHandled : moved ≠ some (.byEvent .unwinding)) :
    Owned
      { state.perform vaultId party.holds effect with
        parties := Pool.move state.parties index (moved.map fun next => (vaultId, next)) } := by
  have count (other : Nat) :
      PassLease.holders other (Pool.move state.parties index (moved.map fun next => (vaultId, next))) +
        (if vaultId = other then party.holds.toNat else 0) =
      (state.activePasses other).toNat + if vaultId = other then (moved.any Party.holds).toNat else 0 := by
    rw [← owned.holders other]
    cases moved with
    | none =>
      rw [Option.any_none, Bool.toNat_false, ite_self]
      exact Pool.total_eraseIdx _ isParty
    | some next => exact Pool.total_set _ isParty (vaultId, next)
  refine ⟨fun other => ?_, Pool.forall_move owned.handled fun after isAfter => ?_, ?_⟩
  · have counted := count other
    by_cases same : vaultId = other
    · subst same
      rw [if_pos rfl, if_pos rfl] at counted
      cases effect with
      | none =>
        rw [fits] at counted
        exact Nat.add_right_cancel counted
      | acquire =>
        rw [fits.1, fits.2.1, fits.2.2] at counted
        exact counted.trans (by simp [State.perform])
      | release =>
        rw [fits.1, fits.2] at counted
        have atMostOne := Bool.toNat_le (state.activePasses vaultId)
        simp only [State.perform, update_self, Bool.toNat_true, Bool.toNat_false] at counted ⊢
        omega
    · rw [if_neg same, if_neg same] at counted
      cases effect <;> simpa [State.perform, Ne.symm same] using counted
  · rcases Option.map_eq_some_iff.mp isAfter with ⟨party, rfl, rfl⟩
    exact fun isUnwinding => isHandled (congrArg some isUnwinding)
  · cases effect with
    | none | acquire => exact owned.stray
    | release => exact (if_pos fits.1).trans owned.stray

theorem Owned.step (owned : Owned state) {label : Label} (submits : Submits state label)
    (taken : step state label = some next) : Owned next := by
  unfold PassLease.step at taken
  cases label with
  | enter vaultId party =>
    rcases guarded taken with ⟨isNew, rfl⟩
    have isFree : party.holds = false ∧ party ≠ .byEvent .unwinding := by
      simp only [mem_cons, not_mem_nil, or_false] at isNew
      rcases isNew with rfl | rfl | rfl <;> decide
    refine ⟨fun other => ?_, Pool.forall_append owned.handled isFree.2, owned.stray⟩
    rw [← owned.holders other]
    simp [PassLease.holders, isFree.1]
  | advance index throws =>
    rcases Option.map_eq_some_iff.mp taken with ⟨⟨vaultId, party⟩, isParty, rfl⟩
    have isHere : state.parties[index]?.map Prod.snd = some party := by rw [isParty, Option.map_some]
    rcases Party.fits_advance (state.activePasses vaultId) state.stopping
      (owned.handled _ (mem_of_getElem? isParty)) fun isAdopted => submits (isHere.trans (congrArg some isAdopted))
      with ⟨fits, isHandled⟩
    exact owned.move isParty fits isHandled
  | requestStop =>
    cases taken
    exact { owned with }

/-- At most one party holds the lease of a vault at a time, a lease that is taken is held by a party that is still
there, and no lease was released by a party that did not hold it, in every run in which no submission throws. -/
theorem one_pass_at_a_time {labels : List Label} (reached : run step start labels = some state)
    (submits : Along step Submits start labels) (vaultId : Nat) :
    holders vaultId state.parties ≤ 1 ∧ (state.activePasses vaultId ↔ 0 < holders vaultId state.parties) ∧
      state.stray = 0 := by
  have owned : Owned state :=
    run_induction (fun _ _ _ submits taken owned => Owned.step owned submits taken) reached submits
      ⟨fun _ => rfl, nofun, rfl⟩
  rw [owned.holders vaultId]
  exact ⟨Bool.toNat_le _, by cases state.activePasses vaultId <;> decide, owned.stray⟩

/-- The pool drops a scoped pass, and a regular one runs. -/
def droppedPass : List Label :=
  [.enter 1 (.byEvent .calling), .advance 0 false, .advance 0 false, .requestStop, .advance 0 false,
    .enter 1 (.regular false), .advance 0 false]

theorem one_pass_at_a_time_dropped :
    Exists fun final =>
      run step start droppedPass = some final ∧ holders 1 final.parties ≤ 1 ∧
        (final.activePasses 1 ↔ 0 < holders 1 final.parties) ∧ final.stray = 0 := by
  have submits : Along step Submits start droppedPass := by decide
  exact ⟨_, rfl, one_pass_at_a_time rfl submits 1⟩

/-- The submission of a scoped pass throws: the task releases the lease, an applier takes it, and the handler of
`runScoped` releases it again, so a regular pass takes it too. -/
theorem two_passes_at_once :
    (run step start
      [.enter 1 (.byEvent .calling), .enter 1 (.applier false), .enter 1 (.regular false), .advance 0 false,
        .advance 0 false, .advance 0 true, .advance 1 false, .advance 0 false, .advance 1 false]).map
      (fun final => (holders 1 final.parties, final.stray)) = some (2, 1) := by
  decide

end PassLease
end Sync
end Vaulthalla
