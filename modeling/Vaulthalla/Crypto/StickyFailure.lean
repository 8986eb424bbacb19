import Vaulthalla.Crypto.IntegrityRegistry

namespace Vaulthalla
namespace Crypto
namespace IntegrityRegistry

open Foundation List.Subset Transition Option

/-!
# A failure is sticky when it comes last

A failed ticket never leaves that state as long as no other verdict on it is
under way when it fails.  A job that is queued or running, a worker that holds
a verdict other than a failure, and a recorded success that has passed its test
all settle the ticket without looking at it again.  Once a ticket has failed
with none of these pending, no later step brings one about: a new job has a new
ticket, and a recorded success is dropped by its test.
-/

/-! ## Verdicts under way -/

def Worker.contradicts (ticket : Nat) : Worker -> Bool
  | .verifying ofJob => ofJob == ticket
  | .settling ofJob verdict => ofJob == ticket && verdict != .failed

def Recording.contradicts (ticket : Nat) : Recording -> Bool
  | .recorded _ _ => false
  | .passed ofCall => ofCall == ticket

/-- Another verdict than a failure may still be settled on the ticket, without a further look at it. -/
def State.awaits (state : State) (ticket : Nat) : Prop :=
  ticket ∈ state.queue ∨ (Exists fun worker => worker ∈ state.workers ∧ worker.contradicts ticket = true) ∨
    Exists fun recording => recording ∈ state.recordings ∧ recording.contradicts ticket = true

instance (state : State) (ticket : Nat) : Decidable (state.awaits ticket) :=
  inferInstanceAs (Decidable (_ ∨ _))

/-- The ticket on which a step settles a failure. -/
def State.failsOn (state : State) : Label -> Option Nat
  | .settleJob worker =>
    match state.workers[worker]? with
    | some (.settling ticket .failed) => some ticket
    | _ => none
  | .advanceRecord call =>
    match state.recordings[call]? with
    | some (.recorded ticket false) => some ticket
    | _ => none
  | _ => none

/-- No other verdict on a ticket is under way when it fails. -/
def FailsLast (state : State) (label : Label) : Prop :=
  forall ticket, ticket ∈ state.failsOn label -> Not (state.awaits ticket)

instance (state : State) (label : Label) : Decidable (FailsLast state label) :=
  inferInstanceAs (Decidable (forall ticket, ticket ∈ state.failsOn label -> Not (state.awaits ticket)))

/-! ## What a step does to the tickets -/

theorem evict_frame (state : State) (budget : Nat) :
    (evict state budget).objects = state.objects ∧ (evict state budget).queue = state.queue ∧
      (evict state budget).workers = state.workers ∧ (evict state budget).recordings = state.recordings := by
  induction budget generalizing state with
  | zero => exact ⟨rfl, rfl, rfl, rfl⟩
  | succ budget ih =>
    unfold evict
    split
    · split
      · exact ⟨rfl, rfl, rfl, rfl⟩
      · split
        · exact ih _
        · split
          · exact ih _
          · exact ih _
    · exact ⟨rfl, rfl, rfl, rfl⟩

theorem register_frame (state : State) (id : Str) (first : IntegrityState) :
    (register state id first).objects = state.objects ++ [first] ∧ (register state id first).queue = state.queue ∧
      (register state id first).workers = state.workers ∧
      (register state id first).recordings = state.recordings :=
  evict_frame _ _

/-- What a step may do to the states of the tickets and to the verdicts under way. -/
inductive Change (state : State) (label : Label) (next : State) : Prop
  /-- The failed tickets are the same, and no new verdict is under way for one of them. -/
  | keeps (kept : forall ticket : Nat, next.objects[ticket]? = some .failed <-> state.objects[ticket]? = some .failed)
      (quiet : forall ticket : Nat, state.objects[ticket]? = some .failed -> next.awaits ticket -> state.awaits ticket)
  /-- One verdict that was under way is settled. -/
  | settles (ticket : Nat) (verdict : IntegrityState) (set : next.objects = state.objects.set ticket verdict)
      (quiet : forall other, next.awaits other -> state.awaits other)
      (origin : (verdict = .failed ∧ state.failsOn label = some ticket) ∨
        (verdict ≠ .failed ∧ state.awaits ticket))

theorem failed_append (states : List IntegrityState) {first : IntegrityState} (notFailed : first ≠ .failed)
    (ticket : Nat) : (states ++ [first])[ticket]? = some .failed <-> states[ticket]? = some .failed := by
  rcases Nat.lt_trichotomy ticket states.length with older | rfl | newer
  · rw [List.getElem?_append_left older]
  · simp [notFailed]
  · rw [List.getElem?_eq_none (Nat.le_of_lt newer), List.getElem?_eq_none (by simpa using Nat.succ_le_of_lt newer)]

section

variable (state : State) (key : IntegrityKey)

include state key

theorem change_ensure : Change state (.ensure key) (ensure state key).2 := by
  unfold ensure
  split
  · exact .keeps (fun ticket => Iff.rfl) fun ticket _ awaits => awaits
  · rcases register_frame state key.str .verifying with ⟨objects, queue, workers, recordings⟩
    refine .keeps (fun ticket => ?_) fun ticket isFailed awaits => ?_
    · simp only [objects]
      exact failed_append state.objects (by decide) ticket
    · simp only [State.awaits, queue, workers, recordings, List.mem_append, List.mem_singleton] at awaits
      rcases awaits with (isQueued | isNew) | others
      · exact .inl isQueued
      · -- the new job has a ticket of its own
        have isOld := (List.getElem?_eq_some_iff.mp isFailed).1
        exact absurd isOld (isNew ▸ Nat.lt_irrefl _)
      · exact .inr others

theorem findOrRegister_frame :
    (forall ticket : Nat, (findOrRegister state key).2.objects[ticket]? = some .failed <->
        state.objects[ticket]? = some .failed) ∧
      (findOrRegister state key).2.queue = state.queue ∧ (findOrRegister state key).2.workers = state.workers ∧
      (findOrRegister state key).2.recordings = state.recordings := by
  unfold findOrRegister
  split
  · exact ⟨fun _ => Iff.rfl, rfl, rfl, rfl⟩
  · rcases register_frame state key.str .unknown with ⟨objects, others⟩
    refine ⟨fun ticket => ?_, others⟩
    rw [objects]
    exact failed_append state.objects (by decide) ticket

theorem change_record (verified : Bool) : Change state (.record key verified) (record state key verified) := by
  rcases findOrRegister_frame state key with ⟨failed, queue, workers, recordings⟩
  refine .keeps failed fun ticket _ awaits => ?_
  simp only [State.awaits, record, queue, workers, recordings, List.mem_append,
    List.mem_singleton] at awaits
  rcases awaits with isQueued | atWorker | ⟨recording, isOld | rfl, contradicts⟩
  · exact .inl isQueued
  · exact .inr (.inl atWorker)
  · exact .inr (.inr ⟨recording, isOld, contradicts⟩)
  · exact absurd contradicts Bool.false_ne_true

end

variable {next state : State} {worker ticket : Nat} {label : Label}

theorem change_takeJob (taken : state.step .takeJob = some next) : Change state .takeJob next := by
  simp only [State.step] at taken
  split at taken
  · cases taken
  rename_i job rest isQueue
  cases taken
  refine .keeps (fun ticket => Iff.rfl) fun ticket _ awaits => ?_
  simp only [State.awaits, List.mem_append, List.mem_singleton] at awaits
  rcases awaits with isQueued | ⟨worker, isOld | rfl, contradicts⟩ | recorded
  · exact .inl (isQueue ▸ List.mem_cons_of_mem job isQueued)
  · exact .inr (.inl ⟨worker, isOld, contradicts⟩)
  · have isJob : job = ticket := by simpa [Worker.contradicts] using contradicts
    exact .inl (isQueue ▸ isJob ▸ List.mem_cons_self)
  · exact .inr (.inr recorded)

theorem change_finishJob {ok stillCurrent : Bool} (taken : state.step (.finishJob worker ok stillCurrent) = some next) :
    Change state (.finishJob worker ok stillCurrent) next := by
  simp only [State.step] at taken
  split at taken
  · rename_i job atWorker
    cases taken
    refine .keeps (fun ticket => Iff.rfl) fun ticket _ awaits => ?_
    rcases awaits with isQueued | ⟨busy, isBusy, contradicts⟩ | recorded
    · exact .inl isQueued
    · rcases List.mem_or_eq_of_mem_set isBusy with isOld | rfl
      · exact .inr (.inl ⟨busy, isOld, contradicts⟩)
      · have isJob : job = ticket := by
          simp only [Worker.contradicts, Bool.and_eq_true, beq_iff_eq] at contradicts
          exact contradicts.1
        exact .inr (.inl ⟨_, List.mem_of_getElem? atWorker, beq_iff_eq.mpr isJob⟩)
    · exact .inr (.inr recorded)
  · cases taken

theorem awaits_of_subset (queue : next.queue ⊆ state.queue) (workers : next.workers ⊆ state.workers)
    (recordings : next.recordings ⊆ state.recordings) (ticket : Nat) : next.awaits ticket -> state.awaits ticket := by
  intro awaits
  rcases awaits with isQueued | ⟨worker, isBusy, contradicts⟩ | ⟨recording, isRecorded, contradicts⟩
  · exact .inl (queue isQueued)
  · exact .inr (.inl ⟨worker, workers isBusy, contradicts⟩)
  · exact .inr (.inr ⟨recording, recordings isRecorded, contradicts⟩)

theorem change_settleJob (taken : state.step (.settleJob worker) = some next) :
    Change state (.settleJob worker) next := by
  simp only [State.step] at taken
  split at taken
  · rename_i ticket verdict atWorker
    cases taken
    refine .settles ticket verdict rfl
      (awaits_of_subset (refl _) List.eraseIdx_subset (refl _)) ?_
    by_cases isFailed : verdict = .failed
    · subst isFailed
      exact .inl ⟨rfl, by simp [State.failsOn, atWorker]⟩
    · refine .inr ⟨isFailed, .inr (.inl ⟨_, List.mem_of_getElem? atWorker, ?_⟩)⟩
      simp [Worker.contradicts, isFailed]
  · cases taken

theorem change_advanceRecord {call : Nat} (taken : state.step (.advanceRecord call) = some next) :
    Change state (.advanceRecord call) next := by
  simp only [State.step] at taken
  split at taken
  · rename_i ticket atCall
    cases taken
    exact .settles ticket .failed rfl
      (awaits_of_subset (refl _) (refl _) List.eraseIdx_subset)
      (.inl ⟨rfl, by simp [State.failsOn, atCall]⟩)
  · rename_i ticket atCall
    split at taken
    · cases taken
      refine .keeps (fun _ => Iff.rfl) fun ticket _ => awaits_of_subset ?_ ?_ List.eraseIdx_subset ticket
      · exact refl _
      · exact refl _
    · rename_i passes
      cases taken
      refine .keeps (fun _ => Iff.rfl) fun other isFailed awaits => ?_
      rcases awaits with isQueued | atWorker | ⟨recording, isRecorded, contradicts⟩
      · exact .inl isQueued
      · exact .inr (.inl atWorker)
      · rcases List.mem_or_eq_of_mem_set isRecorded with isOld | rfl
        · exact .inr (.inr ⟨recording, isOld, contradicts⟩)
        · -- the test has passed, so this ticket has not failed
          have isTicket : ticket = other := by simpa [Recording.contradicts] using contradicts
          subst isTicket
          exact absurd (by simp [isFailed, IntegrityState.isFailure]) passes
  · rename_i ticket atCall
    cases taken
    refine .settles ticket .verified rfl
      (awaits_of_subset (refl _) (refl _) List.eraseIdx_subset) (.inr ?_)
    exact ⟨by decide, .inr (.inr ⟨_, List.mem_of_getElem? atCall, beq_self_eq_true ticket⟩)⟩
  · cases taken

theorem change_step (taken : state.step label = some next) : Change state label next := by
  cases label with
  | ensure key => exact some.inj taken ▸ change_ensure state key
  | record key verified => exact some.inj taken ▸ change_record state key verified
  | takeJob => exact change_takeJob taken
  | finishJob worker ok stillCurrent => exact change_finishJob taken
  | settleJob worker => exact change_settleJob taken
  | advanceRecord call => exact change_advanceRecord taken

/-! ## Runs -/

/-- No other verdict is under way for a ticket that has failed. -/
def Settled (state : State) : Prop :=
  forall ticket : Nat, state.objects[ticket]? = some .failed -> Not (state.awaits ticket)

theorem settled_initial (capacity : Nat) : Settled (initial capacity) := by
  intro ticket isFailed
  simp [initial] at isFailed

theorem settled_step (allowed : FailsLast state label) (taken : state.step label = some next)
    (settled : Settled state) : Settled next := by
  intro ticket isFailed awaits
  cases change_step taken with
  | keeps kept quiet =>
    have wasFailed := (kept ticket).mp isFailed
    exact settled ticket wasFailed (quiet ticket wasFailed awaits)
  | settles target verdict set quiet origin =>
    rw [set, List.getElem?_set] at isFailed
    split at isFailed
    · rename_i isTarget
      subst isTarget
      split at isFailed
      · rcases origin with ⟨_, fails⟩ | ⟨notFailed, _⟩
        · exact allowed target fails (quiet target awaits)
        · exact notFailed (some.inj isFailed)
      · cases isFailed
    · exact settled ticket isFailed (quiet ticket awaits)

/-- In a settled state every step keeps the failures. -/
theorem failed_step (taken : state.step label = some next) (settled : Settled state)
    (isFailed : state.objects[ticket]? = some .failed) : next.objects[ticket]? = some .failed := by
  cases change_step taken with
  | keeps kept quiet => exact (kept ticket).mpr isFailed
  | settles target verdict set quiet origin =>
    rw [set, List.getElem?_set]
    split
    · rename_i isTarget
      subst isTarget
      rcases origin with ⟨rfl, _⟩ | ⟨_, underWay⟩
      · rw [if_pos (List.getElem?_eq_some_iff.mp isFailed).1]
      · exact absurd underWay (settled target isFailed)
    · exact isFailed

def HasFailed (ticket : Nat) (state : State) : Prop :=
  Settled state ∧ state.objects[ticket]? = some .failed

theorem hasFailed_step (allowed : FailsLast state label) (taken : state.step label = some next)
    (failed : HasFailed ticket state) : HasFailed ticket next :=
  ⟨settled_step allowed taken failed.1, failed_step taken failed.1 failed.2⟩

/-- In a run in which every failure is the last verdict on its ticket, a failed ticket stays failed, and it is what
`ensure` returns for every key under which it is registered. -/
theorem failure_is_sticky {capacity : Nat} {earlier later : List Label} {state final : State}
    (reached : run State.step (initial capacity) earlier = some state)
    (earlierLast : Transition.Along State.step FailsLast (initial capacity) earlier)
    (continued : run State.step state later = some final)
    (laterLast : Transition.Along State.step FailsLast state later) {ticket : Nat}
    (isFailed : state.objects[ticket]? = some .failed) :
    final.objects[ticket]? = some .failed ∧
      forall key : IntegrityKey, final.tickets.lookup key.str = some ticket ->
        (ensure final key).1 = ticket ∧
          (ensure final key).2.objects[ticket]? = some .failed := by
  have settled : Settled state :=
    run_induction (fun _ _ _ => settled_step) reached earlierLast (settled_initial capacity)
  have stays : HasFailed ticket final :=
    run_induction (fun _ _ _ => hasFailed_step) continued laterLast ⟨settled, isFailed⟩
  refine ⟨stays.2, fun key registered => ?_⟩
  simp only [ensure, registered, true_and]
  exact stays.2

def sampleKey : IntegrityKey where
  domain := str "vault"
  ivB64 := str "iv"
  keyVersion := 1
  dev := 1
  ino := 2
  size := 100
  mtimeNs := 7

/-- A reader schedules the verification and it fails; a full read then records a success. -/
def failsThenRecords : List Label × List Label :=
  ([.ensure sampleKey, .takeJob, .finishJob 0 false true, .settleJob 0],
    [.record sampleKey true, .advanceRecord 0])

/-- A full read records a failure while a worker holds a success for the same ticket. -/
def recordsDuringVerification : List Label × List Label :=
  ([.ensure sampleKey, .takeJob, .finishJob 0 true true, .record sampleKey false, .advanceRecord 0],
    [.settleJob 0])

/-- What is observed of the two parts of a run: the state of the first ticket after each, the ticket of the key at the
end, and whether every failure of the second part comes last. -/
def observed (capacity : Nat) (parts : List Label × List Label) :
    Option (Option IntegrityState × Option IntegrityState × Option Nat × Bool) := do
  let state <- run State.step (initial capacity) parts.1
  let final <- run State.step state parts.2
  return (state.objects[0]?, final.objects[0]?, final.tickets.lookup sampleKey.str,
    decide (Transition.Along State.step FailsLast state parts.2))

theorem failure_is_sticky_failsThenRecords :
    Exists fun state => Exists fun final =>
      run State.step (initial 8) failsThenRecords.1 = some state ∧
        run State.step state failsThenRecords.2 = some final ∧ state.objects[0]? = some .failed ∧
        final.objects[0]? = some .failed ∧ (ensure final sampleKey).1 = 0 := by
  have isRun : observed 8 failsThenRecords = some (some .failed, some .failed, some 0, true) := by decide +kernel
  simp only [observed, bind_eq_bind, bind_eq_some_iff, pure_def, some.injEq,
    Prod.mk.injEq, decide_eq_true_eq] at isRun
  rcases isRun with ⟨state, reached, final, continued, isFailed, _, registered, laterLast⟩
  have sticky := failure_is_sticky reached (by decide +kernel) continued laterLast isFailed
  exact ⟨state, final, reached, continued, isFailed, sticky.1, (sticky.2 sampleKey registered).1⟩

/-- A recorded failure is overwritten by the success of a worker, and `ensure` returns the verified ticket. -/
theorem recorded_failure_is_overwritten :
    observed 8 recordsDuringVerification = some (some .failed, some .verified, some 0, true) := by
  decide +kernel

end IntegrityRegistry
end Crypto
end Vaulthalla
