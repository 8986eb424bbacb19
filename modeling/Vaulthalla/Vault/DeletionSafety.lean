import Vaulthalla.Vault.Retention

namespace Vaulthalla
namespace Vault
namespace Retention

open Foundation Transition Function Control

/-!
# A deletion can be undone until it has begun

`claimDue` turns a pending record into one that is being purged, and `restore`
takes pending records only.  Nothing turns a record back into a pending one,
so a pass that is at work has excluded every restore, and whatever a restored
vault has lost it has lost before it was scheduled: nothing.
-/

variable {Pass : Type}

/-! ## Where a deletion stands -/

/-- The pass may remove data. -/
def Control.atWork : Control -> Bool
  | .claimed _ _ | .emptying _ | .emptied _ | .removing _ _ => true
  | _ => false

/-- The time at which the pass was begun, as far as it still uses it. -/
def Control.begun : Control -> Nat
  | .idle => 0
  | .claimed now _ | .emptying now | .emptied now | .removing now _ | .failing now _ | .expiring now => now

/-- Nothing has been removed, and nobody is about to. -/
structure Untouched (state : State Pass) : Prop where
  removals : state.removals = []
  passes : forall pass, (state.passes pass).atWork = false

/-- The state of the vault, as its deletion record has it. -/
inductive Standing (state : State Pass) : Prop
  | live (row : VaultRow) (isRow : state.vault = some row) (isLive : row.deleted = false)
      (isRecord : state.record = none) (untouched : Untouched state)
      (keys : forall version, version ∈ state.owed -> version ∈ row.keys)
  | pending (row : VaultRow) (record : Deletion) (isRow : state.vault = some row) (isDeleted : row.deleted = true)
      (isRecord : state.record = some record) (isPending : record.state = .pending) (untouched : Untouched state)
      (keys : forall version, version ∈ state.owed -> version ∈ row.keys ∧ version ∈ state.copies)
  | purging (row : VaultRow) (record : Deletion) (isRow : state.vault = some row) (isDeleted : row.deleted = true)
      (isRecord : state.record = some record) (isPurging : record.state = .purging) (due : record.purgeAfter ≤ state.now)
      (keys : forall version, version ∈ state.owed -> version ∈ state.copies)
  | purged (record : Deletion) (isGone : state.vault = none) (isRecord : state.record = some record)
      (isPurged : record.state = .purged) (due : record.purgeAfter ≤ state.now)
      (keys : forall version, version ∈ state.owed -> version ∈ state.copies ∨ record.keyRetainUntil ≤ state.now)

def Removal.Timely (removal : Removal) : Prop :=
  removal.purgeAfter.any (fun time => decide (time ≤ removal.time)) = true

structure Guarded (state : State Pass) : Prop where
  standing : Standing state
  timely : forall removal, removal ∈ state.removals -> removal.Timely
  begun : forall pass, (state.passes pass).begun ≤ state.now

theorem guarded_initial (isS3 : Bool) (keys : List Nat) : Guarded (initial isS3 keys : State Pass) where
  standing := .live { deleted := false, keys := keys } rfl rfl rfl ⟨rfl, fun _ => rfl⟩ (by simp [initial])
  timely := by simp [initial]
  begun _ := Nat.le_refl 0

variable {state : State Pass}

theorem Standing.of_live (standing : Standing state) (isLive : state.live) : Untouched state := by
  cases standing with
  | live _ _ _ _ untouched => exact untouched
  | pending row _ isRow isDeleted => simp [State.live, isRow, isDeleted] at isLive
  | purging row _ isRow isDeleted => simp [State.live, isRow, isDeleted] at isLive
  | purged _ isGone => simp [State.live, isGone] at isLive

/-- A pass at work has a record that is due, whatever has become of it. -/
theorem Standing.of_atWork (standing : Standing state) {pass : Pass} (working : (state.passes pass).atWork) :
    Exists fun record =>
      state.record = some record ∧ record.state ≠ .pending ∧ record.purgeAfter ≤ state.now := by
  cases standing with
  | live _ _ _ _ untouched => simp [untouched.passes pass] at working
  | pending _ _ _ _ _ _ untouched => simp [untouched.passes pass] at working
  | purging _ record _ _ isRecord isPurging due => exact ⟨record, isRecord, by simp [isPurging], due⟩
  | purged record _ isRecord isPurged due => exact ⟨record, isRecord, by simp [isPurged], due⟩

/-! ## Statements keep the standing -/

theorem Standing.tick (standing : Standing state) (elapsed : Nat) :
    Standing { state with now := state.now + elapsed } := by
  cases standing with
  | live row isRow isLive isRecord untouched keys =>
    exact .live row isRow isLive isRecord { untouched with } keys
  | pending row record isRow isDeleted isRecord isPending untouched keys =>
    exact .pending row record isRow isDeleted isRecord isPending { untouched with } keys
  | purging row record isRow isDeleted isRecord isPurging due keys =>
    exact .purging row record isRow isDeleted isRecord isPurging (Nat.le_trans due (Nat.le_add_right _ _)) keys
  | purged record isGone isRecord isPurged due keys =>
    refine .purged record isGone isRecord isPurged (Nat.le_trans due (Nat.le_add_right _ _)) fun version isOwed => ?_
    exact (keys version isOwed).imp_right fun passed => Nat.le_trans passed (Nat.le_add_right _ _)

variable {next final : State Pass} {change : Deletion -> Deletion} {control moved : Control} {event : PassEvent}
  {label : Label Pass} {labels : List (Label Pass)}

section

variable (standing : Standing state)

include standing

theorem Standing.schedule {window keyWindow : Nat} {deleteUpstream : Bool}
    (taken : state.schedule window keyWindow deleteUpstream = some next) : Standing next := by
  cases standing with
  | live row isRow isLive isRecord untouched keys =>
    simp only [State.schedule, isRow, isRecord, isLive, Bool.false_eq_true, if_false, Option.some.injEq] at taken
    subst taken
    exact .pending { row with deleted := true } _ rfl rfl rfl rfl { untouched with }
      fun version isKey => ⟨isKey, isKey⟩
  | pending row record isRow isDeleted isRecord => simp [State.schedule, isRow, isRecord] at taken
  | purging row record isRow isDeleted isRecord => simp [State.schedule, isRow, isRecord] at taken
  | purged record isGone => simp [State.schedule, isGone] at taken

theorem Standing.restore : Standing state.restore := by
  unfold State.restore
  split
  · rename_i restorable
    cases standing with
    | live row isRow isLive isRecord => simp [State.restorable, isRecord] at restorable
    | pending row record isRow isDeleted isRecord isPending untouched keys =>
      refine .live { row with deleted := false } (by simp [isRow]) rfl rfl { untouched with } ?_
      exact fun version isOwed => (keys version isOwed).1
    | purging row record isRow isDeleted isRecord isPurging =>
      simp [State.restorable, isRecord, isPurging] at restorable
    | purged record isGone isRecord isPurged => simp [State.restorable, isRecord, isPurged] at restorable
  · exact standing

/-- A change of the record that leaves its state, and lets it become due no later. -/
theorem Standing.setRecord (sameState : forall record, (change record).state = record.state)
    (earlier : forall record, (change record).purgeAfter ≤ record.purgeAfter)
    (retained : forall record, (change record).keyRetainUntil = record.keyRetainUntil) :
    Standing { state with record := state.record.map change } := by
  cases standing with
  | live row isRow isLive isRecord untouched keys =>
    exact .live row isRow isLive (by simp [isRecord]) { untouched with } keys
  | pending row record isRow isDeleted isRecord isPending untouched keys =>
    exact .pending row (change record) isRow isDeleted (by simp [isRecord]) (by rw [sameState, isPending])
      { untouched with } keys
  | purging row record isRow isDeleted isRecord isPurging due keys =>
    exact .purging row (change record) isRow isDeleted (by simp [isRecord]) (by rw [sameState, isPurging])
      (Nat.le_trans (earlier record) due) keys
  | purged record isGone isRecord isPurged due keys =>
    refine .purged (change record) isGone (by simp [isRecord]) (by rw [sameState, isPurged])
      (Nat.le_trans (earlier record) due) ?_
    simpa [retained] using keys

theorem Standing.rekey (isLive : state.live) (keys : List Nat) :
    Standing { state with vault := state.vault.map fun row => { row with keys := keys }, owed := [] } := by
  cases standing with
  | live row isRow isLive isRecord untouched _ =>
    exact .live { row with keys := keys } (by simp [isRow]) isLive isRecord
      { untouched with } (by simp)
  | pending row _ isRow isDeleted => simp [State.live, isRow, isDeleted] at isLive
  | purging row _ isRow isDeleted => simp [State.live, isRow, isDeleted] at isLive
  | purged _ isGone => simp [State.live, isGone] at isLive

theorem Standing.finishPurge (isPurging : state.record.any (fun record => record.state = .purging) = true) :
    Standing state.finishPurge := by
  cases standing with
  | live _ _ _ isRecord => simp [isRecord] at isPurging
  | pending _ record _ _ isRecord isPending => simp [isRecord, isPending] at isPurging
  | purging row record isRow isDeleted isRecord _ due keys =>
    refine .purged { record with state := .purged, nextAttemptAt := none } ?_ ?_ rfl due ?_
    · simp [State.finishPurge, isRow, Option.filter, isDeleted]
    · simp [State.finishPurge, isRecord]
    · exact fun version isOwed => .inl (keys version isOwed)
  | purged record _ isRecord isPurged => simp [isRecord, isPurged] at isPurging

theorem Standing.expireKeys {now : Nat} (past : now ≤ state.now) : Standing (state.expireKeys now) := by
  unfold State.expireKeys
  split
  · rename_i expires
    cases standing with
    | live _ _ _ isRecord => simp [isRecord] at expires
    | pending _ record _ _ isRecord isPending => simp [isRecord, isPending, State.keysExpire] at expires
    | purging _ record _ _ isRecord isPurging => simp [isRecord, isPurging, State.keysExpire] at expires
    | purged record isGone isRecord isPurged due keys =>
      simp only [isRecord, Option.any_some, State.keysExpire, Bool.and_eq_true, decide_eq_true_eq] at expires
      refine .purged { record with keyPurged := true } isGone (by simp [isRecord]) isPurged due ?_
      exact fun version _ => .inr (Nat.le_trans expires.2 past)
  · exact standing

end

/-! ## Steps of a pass -/

/-- The record is claimed, and no restore takes it back. -/
def Claimed (state : State Pass) : Prop :=
  Exists fun record : Deletion => state.record = some record ∧ record.state ≠ .pending ∧ record.purgeAfter ≤ state.now

theorem Standing.setPasses (standing : Standing state) {passes : Pass -> Control}
    (claimed : forall pass, (passes pass).atWork -> Claimed state) : Standing { state with passes := passes } := by
  have calm : (forall record, state.record = some record -> record.state = .pending) ->
      forall pass, (passes pass).atWork = false := by
    intro unclaimed pass
    cases working : (passes pass).atWork with
    | false => rfl
    | true =>
      rcases claimed pass working with ⟨record, isRecord, notPending, _⟩
      exact absurd (unclaimed record isRecord) notPending
  cases standing with
  | live row isRow isLive isRecord untouched keys =>
    exact .live row isRow isLive isRecord ⟨untouched.removals, calm (by simp [isRecord])⟩ keys
  | pending row record isRow isDeleted isRecord isPending untouched keys =>
    refine .pending row record isRow isDeleted isRecord isPending ⟨untouched.removals, calm ?_⟩ keys
    intro other isOther
    rw [isRecord] at isOther
    cases isOther
    exact isPending
  | purging row record isRow isDeleted isRecord isPurging due keys =>
    exact .purging row record isRow isDeleted isRecord isPurging due keys
  | purged record isGone isRecord isPurged due keys => exact .purged record isGone isRecord isPurged due keys

theorem Standing.removeData (standing : Standing state) (claimed : Claimed state) (data : Data) :
    Standing (state.removeData data) := by
  rcases claimed with ⟨found, isFound, notPending, _⟩
  cases standing with
  | live _ _ _ isRecord =>
    rw [isRecord] at isFound
    cases isFound
  | pending _ record _ _ isRecord isPending =>
    rw [isRecord] at isFound
    cases isFound
    exact absurd isPending notPending
  | purging row record isRow isDeleted isRecord isPurging due keys =>
    exact .purging row record isRow isDeleted isRecord isPurging due keys
  | purged record isGone isRecord isPurged due keys => exact .purged record isGone isRecord isPurged due keys

theorem Standing.claim (standing : Standing state) {record : Deletion} (isRecord : state.record = some record)
    {now : Nat} (isPast : now ≤ state.now) (due : State.due record now) :
    Standing { state with record := some { record with state := .purging, nextAttemptAt := none } } := by
  cases standing with
  | live _ _ _ isNone => simp [isNone] at isRecord
  | pending row found isRow isDeleted isFound isPending _ keys =>
    rw [isFound] at isRecord
    cases isRecord
    refine .purging row _ isRow isDeleted rfl rfl ?_ fun version isOwed => (keys version isOwed).2
    exact Nat.le_trans (by simpa [State.due, isPending] using due) isPast
  | purging row found isRow isDeleted isFound isPurging already keys =>
    rw [isFound] at isRecord
    cases isRecord
    exact .purging row _ isRow isDeleted rfl rfl already keys
  | purged found _ isFound isPurged =>
    rw [isFound] at isRecord
    cases isRecord
    simp [State.due, isPurged] at due

/-- What a step of a pass leaves for the others. -/
structure Proceeds (state next : State Pass) (control : Control) : Prop where
  standing : Standing next
  now : next.now = state.now
  timely : forall removal, removal ∈ next.removals -> removal ∈ state.removals ∨ removal.Timely
  kept : forall removal, removal ∈ state.removals -> removal ∈ next.removals
  claimed : Claimed state -> Claimed next
  works : control.atWork = true -> Claimed next
  begun : control.begun ≤ state.now
  unrecorded : state.record = none -> next.record = none

theorem Proceeds.of_same (standing : Standing state) (works : control.atWork -> Claimed state)
    (begun : control.begun ≤ state.now) : Proceeds state state control :=
  ⟨standing, rfl, fun _ => .inl, fun _ => id, id, works, begun,
    id⟩

theorem Proceeds.of_removeData (standing : Standing state) (claimed : Claimed state) (data : Data)
    (begun : control.begun ≤ state.now) : Proceeds state (state.removeData data) control := by
  refine ⟨standing.removeData claimed data, rfl, ?_, fun _ isRemoval => List.mem_cons_of_mem _ isRemoval,
    id, fun _ => claimed, begun, id⟩
  intro removal isRemoval
  rcases List.mem_cons.mp isRemoval with rfl | earlier
  · rcases claimed with ⟨record, isRecord, _, due⟩
    exact .inr (by simpa [Removal.Timely, isRecord] using due)
  · exact .inl earlier

/-- A change of the record that leaves its state. -/
theorem Proceeds.of_setRecord (standing : Standing state)
    (sameState : forall record, (change record).state = record.state)
    (sameTimes : forall record, (change record).purgeAfter = record.purgeAfter ∧
      (change record).keyRetainUntil = record.keyRetainUntil) (works : control.atWork -> Claimed state)
    (begun : control.begun ≤ state.now) : Proceeds state { state with record := state.record.map change } control := by
  have claimed : Claimed state -> Claimed { state with record := state.record.map change } := by
    rintro ⟨record, isRecord, notPending, due⟩
    exact ⟨change record, by simp [isRecord], by rwa [sameState], by rw [(sameTimes record).1]; exact due⟩
  refine ⟨standing.setRecord sameState ?_ fun record => (sameTimes record).2, rfl, fun _ => .inl,
    fun _ => id, claimed, fun working => claimed (works working), begun,
    fun isNone => by rw [isNone]; rfl⟩
  exact fun record => Nat.le_of_eq (sameTimes record).1

theorem removals_expireKeys (state : State Pass) (now : Nat) : (state.expireKeys now).removals = state.removals := by
  unfold State.expireKeys
  split <;> rfl

theorem proceeds_of_passStep (standing : Standing state) (works : control.atWork -> Claimed state)
    (begun : control.begun ≤ state.now) (taken : state.passStep control event = some (next, moved)) :
    Proceeds state next moved := by
  unfold State.passStep at taken
  split at taken
  case h_1 now =>
    rcases Option.ite_none_left_eq_some.mp taken with ⟨isPast, taken⟩
    have isPast := Nat.le_of_not_lt isPast
    split at taken
    · cases taken
      exact .of_same standing (by simp [atWork]) isPast
    · rename_i record isRecord
      split at taken
      · rename_i due
        cases taken
        have claims := standing.claim isRecord isPast due
        have claimed : Claimed { state with record := some { record with state := .purging, nextAttemptAt := none } } := by
          cases claims with
          | live _ _ _ isNone => cases isNone
          | pending _ found _ _ isFound isPending =>
            cases isFound
            cases isPending
          | purging _ found _ _ isFound isPurging early => exact ⟨found, isFound, by simp [isPurging], early⟩
          | purged found _ isFound isPurged early => exact ⟨found, isFound, by simp [isPurged], early⟩
        exact ⟨claims, rfl, fun _ => .inl, fun _ => id, fun _ => claimed,
          fun _ => claimed, isPast, fun isNone => by rw [isRecord] at isNone; cases isNone⟩
      · cases taken
        exact .of_same standing (by simp [atWork]) isPast
  case h_2 =>
    split at taken
    · cases taken
      exact .of_same standing (fun _ => works rfl) begun
    · cases taken
      exact .of_same standing (fun _ => works rfl) begun
  case h_3 =>
    cases taken
    exact .of_removeData standing (works rfl) .upstream begun
  case h_4 =>
    cases taken
    exact .of_same standing (fun _ => works rfl) begun
  case h_5 =>
    cases taken
    exact .of_same standing (by simp [atWork]) begun
  case h_6 =>
    cases taken
    exact .of_setRecord standing (fun _ => rfl) (fun _ => ⟨rfl, rfl⟩) (fun _ => works rfl) begun
  case h_7 =>
    cases taken
    exact .of_removeData standing (works rfl) _ begun
  case h_8 =>
    rcases guarded taken with ⟨isPurging, ⟨⟩⟩
    refine ⟨standing.finishPurge isPurging, rfl, fun _ => .inl, fun _ => id, ?_,
      by simp [atWork], begun, fun isNone => by simp [State.finishPurge, isNone]⟩
    rintro ⟨record, isRecord, _, due⟩
    exact ⟨{ record with state := .purged, nextAttemptAt := none }, by simp [State.finishPurge, isRecord], by simp, due⟩
  case h_9 | h_10 | h_11 | h_12 =>
    cases taken
    exact .of_same standing (by simp [atWork]) begun
  case h_13 =>
    cases taken
    refine .of_setRecord standing ?_ ?_ (by simp [atWork]) begun
    · intro record
      split <;> rfl
    · intro record
      split <;> exact ⟨rfl, rfl⟩
  case h_14 =>
    cases taken
    refine ⟨standing.expireKeys begun, ?_, ?_, ?_, ?_, by simp [atWork], Nat.zero_le _, ?_⟩
    · unfold State.expireKeys
      split <;> rfl
    · intro removal isRemoval
      rw [removals_expireKeys] at isRemoval
      exact .inl isRemoval
    · intro removal isRemoval
      rwa [removals_expireKeys]
    · rintro ⟨record, isRecord, notPending, due⟩
      unfold State.expireKeys
      split
      · exact ⟨{ record with keyPurged := true }, by simp [isRecord], notPending, due⟩
      · exact ⟨record, isRecord, notPending, due⟩
    · intro isNone
      simp [State.expireKeys, isNone]
  case h_15 =>
    cases taken
    exact .of_same standing (by simp [atWork]) (Nat.zero_le _)
  case h_16 => simp at taken

theorem Guarded.proceeds (guarded : Guarded state) {pass : Pass}
    (taken : state.passStep (state.passes pass) event = some (next, moved)) : Proceeds state next moved :=
  proceeds_of_passStep guarded.standing (fun working => guarded.standing.of_atWork working) (guarded.begun pass) taken

theorem Standing.of_unrecorded (standing : Standing state) (isNone : state.record = none) :
    state.live = true ∧ state.removals = [] := by
  cases standing with
  | live row isRow isLive _ untouched => exact ⟨by simp [State.live, isRow, isLive], untouched.removals⟩
  | pending _ _ _ _ isRecord => rw [isRecord] at isNone; cases isNone
  | purging _ _ _ _ isRecord => rw [isRecord] at isNone; cases isNone
  | purged _ _ isRecord => rw [isRecord] at isNone; cases isNone

/-- A key version is still somewhere, or the purge has finished and its time has passed. -/
def Retained (state : State Pass) (version : Nat) : Prop :=
  version ∈ state.copies ∨ state.vault.any (fun row => decide (version ∈ row.keys)) = true ∨
    state.record.any (fun record => decide (record.state = .purged ∧ record.keyRetainUntil ≤ state.now)) = true

theorem Standing.retained (standing : Standing state) {version : Nat} (isOwed : version ∈ state.owed) :
    Retained state version := by
  cases standing with
  | live row isRow _ _ _ keys => exact .inr (.inl (by simpa [isRow] using keys version isOwed))
  | pending _ _ _ _ _ _ _ keys => exact .inl (keys version isOwed).2
  | purging _ _ _ _ _ _ _ keys => exact .inl (keys version isOwed)
  | purged record _ isRecord isPurged _ keys =>
    rcases keys version isOwed with copied | passed
    · exact .inl copied
    · exact .inr (.inr (by simp [isRecord, isPurged, passed]))

/-! ## Runs -/

variable [DecidableEq Pass]

theorem Guarded.pass (guarded : Guarded state) {pass : Pass}
    (taken : state.passStep (state.passes pass) event = some (next, moved)) :
    Guarded { next with passes := update state.passes pass moved } := by
  have proceeds := guarded.proceeds taken
  refine ⟨proceeds.standing.setPasses ?_, ?_, ?_⟩
  · intro other working
    rcases update_cases (rfl : update state.passes pass moved other = _) with ⟨_, isMoved⟩ | ⟨_, isHeld⟩
    · exact proceeds.works (isMoved ▸ working)
    · exact proceeds.claimed (guarded.standing.of_atWork (isHeld ▸ working))
  · intro removal isRemoval
    exact (proceeds.timely removal isRemoval).elim (guarded.timely removal) id
  · intro other
    simp only [proceeds.now]
    by_cases same : other = pass
    · subst same
      rw [update_self]
      exact proceeds.begun
    · rw [update_of_ne same]
      exact guarded.begun other

def Label.isSchedule : Label Pass -> Bool
  | .schedule _ _ _ => true
  | _ => false

/-- What the statements outside a pass leave alone. -/
theorem unrelated_of_step (taken : state.step label = some next)
    (outside : forall pass event, label ≠ .pass pass event) :
    next.removals = state.removals ∧ next.passes = state.passes ∧ state.now ≤ next.now ∧
      (label.isSchedule = false -> state.record = none -> next.record = none) := by
  cases label with
  | tick elapsed =>
    cases taken
    exact ⟨rfl, rfl, Nat.le_add_right _ _, fun _ => id⟩
  | schedule window keyWindow deleteUpstream =>
    simp only [State.step, State.schedule] at taken
    split at taken
    · rcases unguarded taken with ⟨_, rfl⟩
      exact ⟨rfl, rfl, Nat.le_refl _, nofun⟩
    · simp at taken
  | restore =>
    cases taken
    unfold State.restore
    split
    · exact ⟨rfl, rfl, Nat.le_refl _, fun _ _ => rfl⟩
    · exact ⟨rfl, rfl, Nat.le_refl _, fun _ => id⟩
  | expedite deleteUpstream =>
    cases taken
    exact ⟨rfl, rfl, Nat.le_refl _, fun _ isNone => by simp [State.expedite, isNone]⟩
  | rekey keys =>
    rcases guarded taken with ⟨_, rfl⟩
    exact ⟨rfl, rfl, Nat.le_refl _, fun _ => id⟩
  | pass pass event => exact absurd rfl (outside pass event)

theorem Standing.step (standing : Standing state) (taken : state.step label = some next)
    (outside : forall pass event, label ≠ .pass pass event) : Standing next := by
  cases label with
  | tick elapsed =>
    cases taken
    exact standing.tick elapsed
  | schedule window keyWindow deleteUpstream => exact standing.schedule taken
  | restore =>
    cases taken
    exact standing.restore
  | expedite deleteUpstream =>
    cases taken
    refine standing.setRecord ?_ ?_ ?_ <;> intro record <;> split
    · rfl
    · rfl
    · exact Nat.le_refl _
    · exact Nat.min_le_left _ _
    · rfl
    · rfl
  | rekey keys =>
    rcases guarded taken with ⟨isLive, rfl⟩
    exact standing.rekey isLive keys
  | pass pass event => exact absurd rfl (outside pass event)

theorem Guarded.step (guarded : Guarded state) (taken : state.step label = some next) :
    Guarded next ∧ forall removal, removal ∈ state.removals -> removal ∈ next.removals := by
  have statement : (forall pass event, label ≠ .pass pass event) ->
      Guarded next ∧ forall removal, removal ∈ state.removals -> removal ∈ next.removals := by
    intro outside
    rcases unrelated_of_step taken outside with ⟨removals, passes, later, _⟩
    refine ⟨⟨guarded.standing.step taken outside, ?_, ?_⟩, ?_⟩
    · rw [removals]
      exact guarded.timely
    · rw [passes]
      exact fun pass => Nat.le_trans (guarded.begun pass) later
    · rw [removals]
      exact fun _ isRemoval => isRemoval
  cases label with
  | pass pass event =>
    rcases Option.map_eq_some_iff.mp taken with ⟨moved, isMoved, rfl⟩
    exact ⟨guarded.pass isMoved, (guarded.proceeds isMoved).kept⟩
  | _ => exact statement (by simp)

section

variable (guarded : Guarded state) (reached : run State.step state labels = some final)

include guarded reached

theorem guarded_of_run : Guarded final := by
  refine run_invariant ?_ reached guarded
  intro before label after taken holds
  exact (holds.step taken).1

/-- What has been removed stays removed. -/
theorem removals_of_run {removal : Removal} (isRemoval : removal ∈ state.removals) : removal ∈ final.removals := by
  have steps : forall (before : State Pass) label after, before.step label = some after ->
      Guarded before ∧ removal ∈ before.removals -> Guarded after ∧ removal ∈ after.removals := by
    intro before label after taken holds
    rcases holds.1.step taken with ⟨guards, kept⟩
    exact ⟨guards, kept removal holds.2⟩
  exact (run_invariant steps reached ⟨guarded, isRemoval⟩).2

end

/-- Only a schedule makes a record. -/
theorem Guarded.unrecorded (guarded : Guarded state) (unscheduled : label.isSchedule = false)
    (taken : state.step label = some next) (isNone : state.record = none) : next.record = none := by
  cases label with
  | pass pass event =>
    rcases Option.map_eq_some_iff.mp taken with ⟨moved, isMoved, rfl⟩
    exact (guarded.proceeds isMoved).unrecorded isNone
  | _ => exact (unrelated_of_step taken nofun).2.2.2 unscheduled isNone

/-- A vault without a record has lost nothing, and loses nothing until it is scheduled. -/
theorem untouched_of_run (guarded : Guarded state) (isNone : state.record = none)
    (unscheduled : forall label, label ∈ labels -> label.isSchedule = false)
    (reached : run State.step state labels = some final) : final.live ∧ final.removals = [] := by
  have steps : forall (before : State Pass) label after, label.isSchedule = false -> before.step label = some after ->
      Guarded before ∧ before.record = none -> Guarded after ∧ after.record = none := by
    intro before label after isUnscheduled taken holds
    exact ⟨(holds.1.step taken).1, holds.1.unrecorded isUnscheduled taken holds.2⟩
  rcases run_induction steps reached (along_of_forall unscheduled state) ⟨guarded, isNone⟩ with ⟨guards, stillNone⟩
  exact guards.standing.of_unrecorded stillNone

/-! ## The deletion of a vault -/

/-- In every run, from a live vault: a restore that succeeds finds everything in place, and nothing is removed until
the vault is scheduled again; data goes only once the record is due; a vault that has lost data is never live again;
and each key version of the scheduled vault is kept until the purge has finished and its time has passed. -/
theorem deletion_undone_or_completed (isS3 : Bool) (keys : List Nat) (before after : List (Label Pass))
    (middle final : State Pass) (reached : run State.step (initial isS3 keys) before = some middle)
    (later : run State.step middle after = some final) :
    (middle.restorable = true -> forall labels, after = .restore :: labels ->
        (forall label, label ∈ labels -> label.isSchedule = false) -> final.live = true ∧ final.removals = []) ∧
      (forall removal, removal ∈ final.removals -> removal.Timely) ∧
      (middle.removals ≠ [] -> final.live = false) ∧
      forall version, version ∈ final.owed -> Retained final version := by
  have guardedMiddle := guarded_of_run (guarded_initial isS3 keys) reached
  have guarded := guarded_of_run guardedMiddle later
  refine ⟨?_, guarded.timely, ?_, fun version isOwed => guarded.standing.retained isOwed⟩
  · intro restorable labels isAfter unscheduled
    subst isAfter
    rcases run_cons later with ⟨restored, isRestored, rest⟩
    have guardedRestored := (guardedMiddle.step isRestored).1
    cases isRestored
    refine untouched_of_run guardedRestored ?_ unscheduled rest
    simp [State.restore, restorable]
  · intro lost
    rcases List.exists_mem_of_ne_nil _ lost with ⟨removal, isRemoval⟩
    have stillLost := removals_of_run guardedMiddle later isRemoval
    cases isLive : final.live with
    | false => rfl
    | true =>
      have nothing := (guarded.standing.of_live isLive).removals
      rw [nothing] at stillLost
      cases stillLost

/-- A vault is deleted and restored, and deleted again; a pass finds it due and is killed in the middle, and the next
one finishes.  Its key copies go when their time has passed. -/
def deletedTwice : List (Label Bool) :=
  [.restore, .tick 1, .schedule 5 9 true, .tick 2, .expedite none, .pass true (.claimDue 3), .pass true (.check false),
    .pass true .deleteObject, .pass true .crash, .pass false (.claimDue 3), .pass false (.check false),
    .pass false .listEmpty, .pass false .markUpstreamPurged, .pass false .removeNext, .pass false .removeNext,
    .pass false .removeNext, .pass false .finishPurge, .pass false .expireKeys, .tick 7, .pass true (.claimDue 10),
    .pass true .expireKeys]

/-- The run above: what is removed and when, and that nothing is left of the keys. -/
theorem deletion_undone_or_completed_twice :
    Exists fun final : State Bool =>
      run State.step (initial true [1, 2]) (.schedule 5 9 false :: deletedTwice) = some final ∧
        final.removals.map Removal.time = [3, 3, 3, 3] ∧ final.copies = [] ∧
        (forall removal, removal ∈ final.removals -> removal.Timely) ∧
        forall version, version ∈ [1, 2] -> Retained final version := by
  have evaluated : (run State.step (initial true [1, 2]) (.schedule 5 9 false :: deletedTwice)).map
      (fun final : State Bool => (final.removals.map Removal.time, final.copies, final.owed)) =
        some ([3, 3, 3, 3], [], [1, 2]) := by decide +kernel
  rcases Option.map_eq_some_iff.mp evaluated with ⟨final, reached, isFinal⟩
  simp only [Prod.mk.injEq] at isFinal
  rcases isFinal with ⟨removals, copies, owed⟩
  rcases run_cons reached with ⟨middle, first, later⟩
  have deleted := deletion_undone_or_completed true [1, 2] [.schedule 5 9 false] deletedTwice middle final
    (by rw [run, first]; rfl) later
  exact ⟨final, reached, removals, copies, deleted.2.1, fun version isOne => deleted.2.2.2 version (owed ▸ isOne)⟩

end Retention
end Vault
end Vaulthalla
