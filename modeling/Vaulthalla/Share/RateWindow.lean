import Vaulthalla.Share.RateLimiter

namespace Vaulthalla
namespace Share
namespace RateLimiter

open Foundation AList FixedWindow
open Transition (run Along run_induction run_invariant)
open FixedWindow (current admittedSince admittedBetween openedAt IsWindow Metered Ordered)

/-!
# The bound on one key

The answers that the callers of one key see are those of a fixed window kept
for that key alone, whatever happens to other keys, as long as no check drops
the key's bucket to make room while its window is open.  An idle bucket that
is dropped had been idle for longer than its window.
-/

/-! ## Looking up one key -/

theorem lookup_dropIdle (buckets : Buckets) (now : Int) (key : Str) (bucket : Bucket) :
    (dropIdle buckets now).lookup key = some bucket ↔ buckets.lookup key = some bucket ∧ idle now bucket = false := by
  have filtered : bucket ∈ (dropIdle buckets now).lookup key ↔
      bucket ∈ buckets.lookup key ∧ idle now bucket = false := by
    rw [mem_lookup_iff, mem_lookup_iff]
    simp [dropIdle, List.mem_filter]
  simpa [Option.mem_def] using filtered

/-- The bucket of a key that is lost between two tables was idle, or made room. -/
def LostOnly (now : Int) (Evicted : Prop) (before after : Option Bucket) : Prop :=
  after = before ∨
    after = none ∧ forall bucket, before = some bucket -> idle now bucket = true ∨ Evicted

theorem dropIdle_lost (buckets : Buckets) (now : Int) (key : Str) (Evicted : Prop) :
    LostOnly now Evicted (buckets.lookup key) ((dropIdle buckets now).lookup key) := by
  cases kept : (dropIdle buckets now).lookup key with
  | some bucket => exact .inl ((lookup_dropIdle buckets now key bucket).mp kept).1.symm
  | none =>
    right
    refine ⟨rfl, ?_⟩
    intro bucket found
    cases isIdle : idle now bucket with
    | true => exact .inl rfl
    | false =>
      have stays := (lookup_dropIdle buckets now key bucket).mpr ⟨found, isIdle⟩
      rw [kept] at stays
      cases stays

variable {buckets room : Buckets} {now : Int} {oldest key : Str} {system : System} {policy : RateLimitPolicy}
  {bucket : Bucket} {count : Nat}

theorem makeRoom_lost (key : Str) (made : makeRoom buckets now oldest = some room) :
    LostOnly now (evicted buckets now oldest = some key) (buckets.lookup key) (room.lookup key) := by
  unfold makeRoom at made
  split at made
  · rename_i full
    simp only at made
    split at made
    · rename_i stillFull
      split at made
      · cases made
        by_cases same : key = oldest
        · subst same
          right
          refine ⟨lookup_erase key _, ?_⟩
          intro bucket _
          exact .inr (by simp [evicted, full, stillFull])
        · rw [lookup_erase_ne same]
          exact dropIdle_lost buckets now key _
      · simp at made
    · cases made
      exact dropIdle_lost buckets now key _
  · cases made
    exact .inl rfl

/-! ## One key and its fixed window -/

section Key

variable {policy : RateLimitPolicy} {key : Str} {clock now : Int} {log : List FixedWindow.Attempt}

/-- A bucket counts the checks allowed in the current window.  A key without
a bucket is past its window. -/
def Agrees (policy : RateLimitPolicy) (clock : Int) (log : List FixedWindow.Attempt) : Option Bucket -> Prop
  | none => forall start, current policy.nanoseconds log = some start -> policy.nanoseconds ≤ clock - start
  | some bucket =>
    current policy.nanoseconds log = some bucket.windowStart ∧
      bucket.count = (admittedSince bucket.windowStart log).length ∧
      0 < bucket.count ∧ bucket.windowStart ≤ bucket.lastSeen

variable {found : Option Bucket}

theorem Agrees.later (agrees : Agrees policy clock log found) (later : clock ≤ now) : Agrees policy now log found := by
  cases found with
  | none =>
    intro start isCurrent
    have elapsed := agrees start isCurrent
    omega
  | some bucket => exact agrees

theorem nanoseconds_le_ttl (short : policy.window ≤ 30 * 60) : policy.nanoseconds ≤ kIdleBucketTtl := by
  unfold RateLimitPolicy.nanoseconds kIdleBucketTtl
  omega

theorem Agrees.lost {Evicted : Prop} {before after : Option Bucket} (short : policy.window ≤ 30 * 60)
    (agrees : Agrees policy now log before) (lost : LostOnly now Evicted before after)
    (spared : Evicted -> forall bucket, before = some bucket -> policy.nanoseconds ≤ now - bucket.windowStart) :
    Agrees policy now log after := by
  rcases lost with rfl | ⟨rfl, reason⟩
  · exact agrees
  · cases before with
    | none => exact agrees
    | some bucket =>
      rcases agrees with ⟨isCurrent, _, _, seen⟩
      intro start isStart
      have same : bucket.windowStart = start := Option.some.inj (isCurrent.symm.trans isStart)
      subst same
      rcases reason bucket rfl with isIdle | evicts
      · have elapsed : kIdleBucketTtl ≤ now - bucket.lastSeen := by simpa [idle] using isIdle
        have window := nanoseconds_le_ttl short
        omega
      · exact spared evicts bucket rfl

/-- The bucket that a check opens is that of the window in which the check falls. -/
theorem opened_agrees (positive : 0 < policy.nanoseconds) (ordered : Ordered log)
    (agrees : Agrees policy now log found) :
    (opened policy now (found.getD newBucket)).windowStart =
        openedAt policy.nanoseconds (current policy.nanoseconds log) now ∧
      (opened policy now (found.getD newBucket)).count =
        (admittedSince (openedAt policy.nanoseconds (current policy.nanoseconds log) now) log).length ∧
      (opened policy now (found.getD newBucket)).lastSeen = now := by
  have fresh : (forall start, current policy.nanoseconds log = some start -> policy.nanoseconds ≤ now - start) ->
      openedAt policy.nanoseconds (current policy.nanoseconds log) now = now ∧ admittedSince now log = [] := by
    intro elapsed
    cases isCurrent : current policy.nanoseconds log with
    | none =>
      cases log with
      | nil => exact ⟨rfl, rfl⟩
      | cons attempt earlier => simp [current] at isCurrent
    | some start =>
      have expired : ¬ now - start < policy.nanoseconds := by
        have := elapsed start isCurrent
        omega
      exact ⟨by simp [openedAt, expired], admittedSince_opened positive ordered isCurrent expired⟩
  cases found with
  | none =>
    rcases fresh agrees with ⟨opens, empty⟩
    rw [opens, empty]
    simp [opened, newBucket]
  | some bucket =>
    rcases agrees with ⟨isCurrent, counted, nonzero, _⟩
    by_cases expired : policy.nanoseconds ≤ now - bucket.windowStart
    · have elapsed : forall start, current policy.nanoseconds log = some start ->
          policy.nanoseconds ≤ now - start := by
        intro start isStart
        rw [← Option.some.inj (isCurrent.symm.trans isStart)]
        exact expired
      rcases fresh elapsed with ⟨opens, empty⟩
      rw [opens, empty]
      simp [opened, expired]
    · have inside : now - bucket.windowStart < policy.nanoseconds := by omega
      have notNew : bucket.count ≠ 0 := by omega
      have same : opened policy now ((some bucket).getD newBucket) = { bucket with lastSeen := now } := by
        simp [opened, expired, notNew]
      rw [same, isCurrent, openedAt, if_pos inside]
      exact ⟨rfl, counted, rfl⟩

/-- One check keeps the bucket in agreement, and allows nothing beyond the maximum. -/
theorem check_agrees (positive : 0 < policy.nanoseconds) (usable : 0 < policy.maxAttempts) (ordered : Ordered log)
    (past : forall attempt, attempt ∈ log -> attempt.time ≤ now) (agrees : Agrees policy now log found) :
    let result := decideBucket policy now (opened policy now (found.getD newBucket))
    Agrees policy now ({ time := now, admitted := result.2.allowed } :: log) (some result.1) ∧
      (result.2.allowed ->
        (admittedSince (openedAt policy.nanoseconds (current policy.nanoseconds log) now) log).length <
          policy.maxAttempts) := by
  intro result
  rcases opened_agrees positive ordered agrees with ⟨sameStart, sameCount, seenNow⟩
  have begun : openedAt policy.nanoseconds (current policy.nanoseconds log) now ≤ now := by
    apply openedAt_le
    intro start isCurrent
    rcases current_mem isCurrent with ⟨attempt, member, rfl⟩
    exact past attempt member
  by_cases full : policy.maxAttempts ≤ (opened policy now (found.getD newBucket)).count
  · have refused : result = (opened policy now (found.getD newBucket),
        { allowed := false, remaining := 0,
          retryAfter := retryAfter policy now (opened policy now (found.getD newBucket)) }) := if_pos full
    rw [refused]
    refine ⟨⟨by rw [current, sameStart], ?_, by simpa using Nat.lt_of_lt_of_le usable full, ?_⟩, by simp⟩
    · rw [sameStart, sameCount]
      simp [admittedSince]
    · rw [sameStart, seenNow]
      exact begun
  · have allowed : result = ({ opened policy now (found.getD newBucket) with
          count := (opened policy now (found.getD newBucket)).count + 1 },
        { allowed := true,
          remaining := policy.maxAttempts - ((opened policy now (found.getD newBucket)).count + 1),
          retryAfter := 0 }) := if_neg full
    rw [allowed]
    refine ⟨⟨by rw [current, sameStart], ?_, Nat.succ_pos _, ?_⟩, ?_⟩
    · simp only [sameStart, sameCount, admittedSince]
      rw [List.filter_cons_of_pos (by simp [begun]), List.length_cons]
    · simp only [sameStart, seenNow]
      exact begun
    · intro _
      rw [← sameCount]
      exact Nat.lt_of_not_le full

end Key

/-! ## Steps -/

/-- What a call does: it answers no check and drops only idle buckets, or it
is a check that is answered. -/
inductive Move (system : System) : Call -> System -> Prop
  | quiet (call : Call) (buckets : Buckets)
      (lost : forall key, LostOnly call.now False (system.buckets.lookup key) (buckets.lookup key)) :
      Move system call { system with buckets := buckets, clock := call.now }
  | answered (key : Str) (policy : RateLimitPolicy) (now : Int) (oldest : Str) (room : Buckets)
      (checkable : requireCheckable key policy = .ok ()) (made : makeRoom system.buckets now oldest = some room) :
      Move system (.check key policy now oldest)
        { buckets := (check room key policy now).1, clock := now,
          answers := { key := key, time := now, decision := (check room key policy now).2 } :: system.answers }

theorem move_of_step {next : System} {call : Call} (taken : step system call = some next) :
    system.clock ≤ call.now ∧ Move system call next := by
  rcases Option.ite_none_left_eq_some.mp taken with ⟨notEarlier, taken⟩
  refine ⟨Int.not_lt.mp notEarlier, ?_⟩
  cases call with
  | check key policy now oldest =>
    cases checkable : requireCheckable key policy with
    | error message =>
      simp only [checkable] at taken
      cases taken
      exact .quiet _ system.buckets fun _ => .inl rfl
    | ok _ =>
      simp only [checkable] at taken
      rcases Option.map_eq_some_iff.mp taken with ⟨room, made, same⟩
      cases same
      exact .answered key policy now oldest room checkable made
  | peek key policy now =>
    cases taken
    exact .quiet _ system.buckets fun _ => .inl rfl
  | prune now =>
    cases taken
    exact .quiet (.prune now) (prune system.buckets now) fun key => dropIdle_lost system.buckets now key False

theorem checkable_iff (key : Str) (policy : RateLimitPolicy) :
    requireCheckable key policy = .ok () ↔ key ≠ [] ∧ policy.maxAttempts ≠ 0 ∧ 0 < policy.window := by
  unfold requireCheckable
  cases key with
  | nil => simp
  | cons byte rest =>
    by_cases none' : policy.maxAttempts = 0
    · simp [none']
    · by_cases closed : policy.window ≤ 0
      · simp [none', closed]
      · simp [none', closed, Int.not_le.mp closed]

/-! ## Runs -/

/-- Checks of the key use the policy. -/
def UsesPolicy (key : Str) (policy : RateLimitPolicy) : Call -> Prop
  | .check checked used _ _ => checked = key -> used = policy
  | _ => True

instance (key : Str) (policy : RateLimitPolicy) : (call : Call) -> Decidable (UsesPolicy key policy call)
  | .check _ _ _ _ => inferInstanceAs (Decidable (_ -> _))
  | .peek _ _ _ => inferInstanceAs (Decidable True)
  | .prune _ => inferInstanceAs (Decidable True)

/-- The key whose bucket a call drops because the table is full. -/
def evictedBy (system : System) : Call -> Option Str
  | .check key policy now oldest =>
    match requireCheckable key policy with
    | .error _ => none
    | .ok () => evicted system.buckets now oldest
  | _ => none

section

variable (key : Str) (policy : RateLimitPolicy) (system : System) (call : Call)

/-- The call does not drop the key's bucket for want of room while its window is open. -/
def Spares : Prop :=
  evictedBy system call = some key ->
    (system.buckets.lookup key).all (fun bucket => decide (policy.nanoseconds ≤ call.now - bucket.windowStart)) = true

/-- A call that leaves the bound on the key in force. -/
def Orderly : Prop :=
  UsesPolicy key policy call ∧ Spares key policy system call

end

instance (key : Str) (policy : RateLimitPolicy) (system : System) (call : Call) :
    Decidable (Orderly key policy system call) :=
  inferInstanceAs (Decidable (_ ∧ (_ -> _)))

/-- The checks of one key answered so far and the key's bucket are those of a fixed window. -/
structure Tracks (key : Str) (policy : RateLimitPolicy) (system : System) : Prop where
  ordered : Ordered (attempts key system)
  past : forall attempt, attempt ∈ attempts key system -> attempt.time ≤ system.clock
  metered : Metered policy.maxAttempts policy.nanoseconds (attempts key system)
  bucket : Agrees policy system.clock (attempts key system) (system.buckets.lookup key)
  checked : attempts key system = [] ∨ 0 < policy.nanoseconds

theorem tracks_fresh (key : Str) (policy : RateLimitPolicy) (clock : Int) : Tracks key policy (fresh clock) where
  ordered := trivial
  past := by simp [attempts, fresh]
  metered := trivial
  bucket := by
    intro start isCurrent
    simp [attempts, fresh, current] at isCurrent
  checked := .inl rfl

theorem spared_of_evicted {checked : Str} {used : RateLimitPolicy} (checkable : requireCheckable checked used = .ok ())
    (spares : Spares key policy system (.check checked used now oldest))
    (evicts : evicted system.buckets now oldest = some key) :
    forall bucket, system.buckets.lookup key = some bucket -> policy.nanoseconds ≤ now - bucket.windowStart := by
  intro bucket found
  have elapsed := spares (by simpa [evictedBy, checkable] using evicts)
  rw [found] at elapsed
  exact of_decide_eq_true elapsed

/-- One call keeps the key in step with its fixed window. -/
theorem tracks_step (short : policy.window ≤ 30 * 60) (system : System) (call : Call) (next : System)
    (orderly : Orderly key policy system call) (taken : step system call = some next)
    (tracks : Tracks key policy system) : Tracks key policy next := by
  rcases orderly with ⟨usesPolicy, spares⟩
  rcases move_of_step taken with ⟨later, move⟩
  cases move with
  | quiet _ buckets lost =>
    refine ⟨tracks.ordered, ?_, tracks.metered, ?_, tracks.checked⟩
    · intro attempt member
      exact Int.le_trans (tracks.past attempt member) later
    · exact (tracks.bucket.later later).lost short (lost key) False.elim
  | answered checked used now oldest room checkable made =>
    have past : forall attempt, attempt ∈ attempts key system -> attempt.time ≤ now := fun attempt member =>
      Int.le_trans (tracks.past attempt member) later
    have kept : Agrees policy now (attempts key system) (room.lookup key) :=
      (tracks.bucket.later later).lost short (makeRoom_lost key made) (spared_of_evicted checkable spares)
    by_cases same : checked = key
    · subst same
      have samePolicy : used = policy := usesPolicy rfl
      subst samePolicy
      rcases (checkable_iff checked used).mp checkable with ⟨_, someAttempts, someWindow⟩
      have positive : 0 < used.nanoseconds := by
        unfold RateLimitPolicy.nanoseconds
        omega
      have agrees := check_agrees positive (Nat.pos_of_ne_zero someAttempts) tracks.ordered past kept
      have log : attempts checked
            { buckets := (check room checked used now).1, clock := now,
              answers := { key := checked, time := now, decision := (check room checked used now).2 } ::
                system.answers } =
          { time := now, admitted := (check room checked used now).2.allowed } :: attempts checked system := by
        simp [attempts]
      constructor <;> rw [log]
      · exact ⟨past, tracks.ordered⟩
      · intro attempt member
        rcases List.mem_cons.mp member with rfl | older
        · exact Int.le_refl now
        · exact past attempt older
      · exact ⟨agrees.2, tracks.metered⟩
      · simpa only [check, lookup_insert] using agrees.1
      · exact .inr positive
    · have log : attempts key
            { buckets := (check room checked used now).1, clock := now,
              answers := { key := checked, time := now, decision := (check room checked used now).2 } ::
                system.answers } = attempts key system := by
        simp [attempts, same]
      constructor <;> rw [log]
      · exact tracks.ordered
      · exact past
      · exact tracks.metered
      · simpa only [check, lookup_insert_ne (.symm same)] using kept
      · exact tracks.checked

/-- A call that is not a check of the key keeps the key's bucket while its window is open. -/
theorem lookup_kept_step (short : policy.window ≤ 30 * 60) (seen : bucket.windowStart ≤ bucket.lastSeen)
    (system : System) (call : Call) (next : System)
    (allowed : Orderly key policy system call ∧ forall used now oldest, call ≠ .check key used now oldest)
    (taken : step system call = some next)
    (kept : system.buckets.lookup key = some bucket ∨ policy.nanoseconds ≤ system.clock - bucket.windowStart) :
    next.buckets.lookup key = some bucket ∨ policy.nanoseconds ≤ next.clock - bucket.windowStart := by
  rcases allowed with ⟨⟨_, spares⟩, otherKey⟩
  rcases move_of_step taken with ⟨later, move⟩
  have window := nanoseconds_le_ttl short
  have idleElapsed : forall {now : Int}, idle now bucket -> policy.nanoseconds ≤ now - bucket.windowStart := by
    intro now isIdle
    have elapsed : kIdleBucketTtl ≤ now - bucket.lastSeen := by simpa [idle] using isIdle
    omega
  rcases kept with found | elapsed
  · cases move with
    | quiet _ buckets lost =>
      rcases lost key with same | ⟨_, reason⟩
      · exact .inl (same.trans found)
      · exact .inr (idleElapsed ((reason bucket found).resolve_right id))
    | answered checked used now oldest room checkable made =>
      have different : key ≠ checked := by
        intro same
        exact otherKey used now oldest (by rw [same])
      rcases makeRoom_lost key made with same | ⟨_, reason⟩
      · left
        simpa only [check, lookup_insert_ne different] using same.trans found
      · right
        rcases reason bucket found with isIdle | evicts
        · exact idleElapsed isIdle
        · exact spared_of_evicted checkable spares evicts bucket found
  · right
    have sameClock : next.clock = call.now := by
      cases move <;> rfl
    omega

/-- The bound on one key, whatever the other keys do. -/
theorem allowed_in_window_bounded {key : Str} {policy : RateLimitPolicy} {clock : Int} {calls : List Call}
    {final : System} (short : policy.window ≤ 30 * 60) (reached : run step (fresh clock) calls = some final)
    (orderly : Along step (Orderly key policy) (fresh clock) calls) :
    (forall start first last, IsWindow policy.nanoseconds (attempts key final) start -> start ≤ first ->
        last < start + policy.nanoseconds ->
        (admittedBetween first last (attempts key final)).length ≤ policy.maxAttempts) ∧
      (forall bucket later after, final.buckets.lookup key = some bucket -> run step final later = some after ->
        Along step (fun system call =>
          Orderly key policy system call ∧ forall used now oldest, call ≠ .check key used now oldest) final later ->
        after.clock < bucket.windowStart + policy.nanoseconds -> after.buckets.lookup key = some bucket) := by
  have tracks : Tracks key policy final :=
    run_induction (tracks_step short) reached orderly (tracks_fresh key policy clock)
  constructor
  · intro start first last isWindow after before
    rcases tracks.checked with none' | positive
    · simp [none', admittedBetween]
    · exact admittedBetween_le positive tracks.ordered tracks.metered isWindow after before
  · intro bucket later after found continued others early
    have agrees := tracks.bucket
    rw [found] at agrees
    rcases run_induction (lookup_kept_step short agrees.2.2.2) continued others (.inl found) with same | elapsed
    · exact same
    · omega

/-! ## A busy table -/

def guestKey : Str := str "auth.login|ip:203.0.113.7|user:admin"

def guestPolicy : RateLimitPolicy := { maxAttempts := 1, window := 60 }

/-- Two attempts of the guest in one window: the second is refused. -/
def guestCalls : List Call :=
  [.check guestKey guestPolicy 0 [], .prune 1, .check guestKey guestPolicy 2 []]

theorem allowed_in_window_bounded_guest :
    Exists fun final : System => run step (fresh 0) guestCalls = some final ∧
      (admittedBetween 0 2 (attempts guestKey final)).length ≤ 1 ∧ (attempts guestKey final).length = 2 := by
  have enabled : ((run step (fresh 0) guestCalls).map fun system => attempts guestKey system) =
      some [{ time := 2, admitted := false }, { time := 0, admitted := true }] := by decide +kernel
  rcases Option.map_eq_some_iff.mp enabled with ⟨final, reached, log⟩
  have short : guestPolicy.window ≤ 30 * 60 := by decide
  have orderly : Along step (Orderly guestKey guestPolicy) (fresh 0) guestCalls := by decide +kernel
  have bound := (allowed_in_window_bounded short reached orderly).1 0 0 2
  refine ⟨final, reached, bound ?_ (by decide) (by decide), by rw [log]; rfl⟩
  rw [log]
  exact ⟨_, List.suffix_rfl, by decide⟩

variable (index : Nat)

/-- One of many other keys. -/
def fillerKey : Str :=
  List.replicate (index + 1) 97

def fillerCheck : Call :=
  .check (fillerKey index) guestPolicy 1 guestKey

theorem guestKey_ne_fillerKey : guestKey ≠ fillerKey index := by
  intro same
  have member : (117 : UInt8) ∈ fillerKey index := by
    rw [← same]
    decide
  exact absurd (List.eq_of_mem_replicate member) (by decide)

theorem fillerKey_injective {first second : Nat} (same : fillerKey first = fillerKey second) : first = second := by
  have sameLength := congrArg List.length same
  simpa [fillerKey] using sameLength

theorem fillerKey_checkable : requireCheckable (fillerKey index) guestPolicy = .ok () := by
  apply (checkable_iff _ _).mpr
  exact ⟨by simp [fillerKey], by decide, by decide⟩

def guestBucket : Bucket := { windowStart := 0, lastSeen := 0, count := 1 }

/-- The guest has made its attempt, and a number of other keys have been checked since. -/
structure Crowded (count : Nat) (system : System) : Prop where
  clock : system.clock ≤ 1
  size : system.buckets.entries.length = count + 1
  guest : system.buckets.lookup guestKey = some guestBucket
  member : forall key bucket, system.buckets.lookup key = some bucket ->
    key = guestKey ∨ (Exists fun index : Nat => index < count ∧ key = fillerKey index) ∧ bucket.lastSeen = 1
  log : attempts guestKey system = [{ time := 0, admitted := true }]

theorem Crowded.lastSeen_nonneg (crowded : Crowded count system) (found : system.buckets.lookup key = some bucket) :
    0 ≤ bucket.lastSeen := by
  rcases crowded.member key bucket found with rfl | ⟨_, seen⟩
  · have same : guestBucket = bucket := Option.some.inj (crowded.guest.symm.trans found)
    rw [← same]
    decide
  · omega

/-- The system after the check of a key without a bucket. -/
def afterNewCheck (system : System) (room : Buckets) (key : Str) (policy : RateLimitPolicy) (now : Int) : System :=
  { buckets := room.insert key { windowStart := now, lastSeen := now, count := 1 }
    clock := now
    answers :=
      { key := key, time := now,
        decision := { allowed := true, remaining := policy.maxAttempts - 1, retryAfter := 0 } } :: system.answers }

theorem step_new_check (notEarlier : system.clock ≤ now) (checkable : requireCheckable key policy = .ok ())
    (made : makeRoom system.buckets now oldest = some room) (absent : room.lookup key = none) :
    step system (.check key policy now oldest) = some (afterNewCheck system room key policy now) := by
  have notBefore : ¬ now < system.clock := Int.not_lt.mpr notEarlier
  have usable : ¬ policy.maxAttempts ≤ 0 := by
    have nonzero := ((checkable_iff key policy).mp checkable).2.1
    omega
  have answer : check room key policy now =
      (room.insert key { windowStart := now, lastSeen := now, count := 1 },
        { allowed := true, remaining := policy.maxAttempts - 1, retryAfter := 0 }) := by
    simp [check, absent, opened, newBucket, decideBucket, usable]
  simp [step, Call.now, notBefore, checkable, made, answer, afterNewCheck]

theorem Crowded.filler_absent (crowded : Crowded count system) : system.buckets.lookup (fillerKey count) = none := by
  cases found : system.buckets.lookup (fillerKey count) with
  | none => rfl
  | some bucket =>
    rcases crowded.member _ bucket found with same | ⟨⟨index, small, same⟩, _⟩
    · exact absurd same.symm (guestKey_ne_fillerKey count)
    · exact absurd (fillerKey_injective same) (by omega)

theorem crowded_step (crowded : Crowded count system) (room : count + 1 < kMaxBuckets) :
    Exists fun next => step system (fillerCheck count) = some next ∧ Crowded (count + 1) next := by
  have absent := crowded.filler_absent
  have made : makeRoom system.buckets 1 guestKey = some system.buckets := by
    have notFull : ¬ kMaxBuckets ≤ system.buckets.entries.length := by
      rw [crowded.size]
      omega
    simp [makeRoom, notFull]
  refine ⟨afterNewCheck system system.buckets (fillerKey count) guestPolicy 1,
    step_new_check crowded.clock (fillerKey_checkable count) made absent, ?_⟩
  · constructor
    · exact Int.le_refl 1
    · simp only [afterNewCheck]
      rw [entries_insert_of_notMem (lookup_eq_none.mp absent), List.length_cons, crowded.size]
    · simp only [afterNewCheck]
      rw [lookup_insert_ne (guestKey_ne_fillerKey count)]
      exact crowded.guest
    · intro key bucket found
      simp only [afterNewCheck] at found
      by_cases same : key = fillerKey count
      · subst same
        rw [lookup_insert] at found
        right
        refine ⟨⟨count, Nat.lt_succ_self count, rfl⟩, ?_⟩
        rw [← Option.some.inj found]
      · rw [lookup_insert_ne same] at found
        rcases crowded.member key bucket found with isGuest | ⟨⟨index, small, isFiller⟩, seen⟩
        · exact .inl isGuest
        · exact .inr ⟨⟨index, Nat.lt_succ_of_lt small, isFiller⟩, seen⟩
    · have other : (fillerKey count == guestKey) = false :=
        beq_eq_false_iff_ne.mpr (guestKey_ne_fillerKey count).symm
      simpa [attempts, afterNewCheck, other] using crowded.log

/-- The guest's check, and those of a number of other keys. -/
def crowd (count : Nat) : List Call :=
  .check guestKey guestPolicy 0 [] :: (List.range count).map fillerCheck

theorem crowded_run (count : Nat) (room : count < kMaxBuckets) :
    Exists fun system => run step (fresh 0) (crowd count) = some system ∧ Crowded count system := by
  induction count with
  | zero =>
    refine ⟨{ buckets := insert guestKey guestBucket ∅, clock := 0,
              answers := [{ key := guestKey, time := 0,
                            decision := { allowed := true, remaining := 0, retryAfter := 0 } }] }, by rfl, ?_⟩
    refine ⟨by decide, by rfl, by rfl, ?_, by rfl⟩
    intro key bucket found
    by_cases same : key = guestKey
    · exact .inl same
    · rw [lookup_insert_ne same] at found
      cases found
  | succ count ih =>
    rcases ih (Nat.lt_of_succ_lt room) with ⟨system, reached, crowded⟩
    rcases crowded_step crowded room with ⟨next, taken, crowdedNext⟩
    refine ⟨next, ?_, crowdedNext⟩
    have extended : crowd (count + 1) = crowd count ++ [fillerCheck count] := by
      simp [crowd, List.range_succ]
    rw [extended, Transition.run_append, reached]
    simp [run, taken]

theorem dropIdle_of_recent
    (recent : forall key bucket, buckets.lookup key = some bucket -> now - bucket.lastSeen < kIdleBucketTtl) :
    dropIdle buckets now = buckets := by
  apply ext
  apply List.filter_eq_self.mpr
  intro entry member
  rcases entry with ⟨key, bucket⟩
  have seen := recent key bucket (mem_lookup_iff.mpr member)
  simp only [idle, Bool.not_eq_true', decide_eq_false_iff_not]
  omega

theorem isOldest_of_least (found : buckets.lookup key = some bucket)
    (least : forall other otherBucket, buckets.lookup other = some otherBucket ->
      bucket.lastSeen ≤ otherBucket.lastSeen) : isOldest buckets key := by
  simp only [isOldest, found, List.all_eq_true, decide_eq_true_eq]
  intro entry member
  exact least entry.1 entry.2 (mem_lookup_iff.mpr member)

theorem makeRoom_of_oldest
    (recent : forall key bucket, buckets.lookup key = some bucket -> now - bucket.lastSeen < kIdleBucketTtl)
    (isLeast : isOldest buckets oldest) :
    makeRoom buckets now oldest =
      some (if kMaxBuckets ≤ buckets.entries.length then buckets.erase oldest else buckets) := by
  unfold makeRoom
  rw [dropIdle_of_recent recent]
  by_cases full : kMaxBuckets ≤ buckets.entries.length
  · simp only [full, isLeast, if_true]
  · simp only [full, if_false]

/-- One key more than the table holds: the guest's bucket goes. -/
theorem crowded_evicts (crowded : Crowded (kMaxBuckets - 1) system) :
    Exists fun next => step system (fillerCheck (kMaxBuckets - 1)) = some next ∧ next.clock = 1 ∧
      next.buckets.lookup guestKey = none ∧
      (Exists fun bucket => next.buckets.lookup (fillerKey (kMaxBuckets - 1)) = some bucket) ∧
      (forall key bucket, next.buckets.lookup key = some bucket -> bucket.lastSeen = 1) ∧
      attempts guestKey next = [{ time := 0, admitted := true }] := by
  have recent : forall key bucket, system.buckets.lookup key = some bucket -> 1 - bucket.lastSeen < kIdleBucketTtl := by
    intro key bucket found
    have seen := crowded.lastSeen_nonneg found
    unfold kIdleBucketTtl
    omega
  have made : makeRoom system.buckets 1 guestKey = some (system.buckets.erase guestKey) := by
    have isLeast : isOldest system.buckets guestKey :=
      isOldest_of_least crowded.guest fun _ _ found => crowded.lastSeen_nonneg found
    have full : kMaxBuckets ≤ system.buckets.entries.length := by
      rw [crowded.size]
      decide
    rw [makeRoom_of_oldest recent isLeast, if_pos full]
  have absent : (system.buckets.erase guestKey).lookup (fillerKey (kMaxBuckets - 1)) = none := by
    rw [lookup_erase_ne (guestKey_ne_fillerKey _).symm]
    exact crowded.filler_absent
  refine ⟨afterNewCheck system (system.buckets.erase guestKey) (fillerKey (kMaxBuckets - 1)) guestPolicy 1,
    step_new_check crowded.clock (fillerKey_checkable _) made absent, rfl, ?_, ⟨_, lookup_insert _⟩, ?_, ?_⟩
  · simp only [afterNewCheck]
    rw [lookup_insert_ne (guestKey_ne_fillerKey _), lookup_erase]
  · intro key bucket found
    simp only [afterNewCheck] at found
    by_cases same : key = fillerKey (kMaxBuckets - 1)
    · subst same
      rw [lookup_insert] at found
      rw [← Option.some.inj found]
    · rw [lookup_insert_ne same] at found
      by_cases isGuest : key = guestKey
      · subst isGuest
        rw [lookup_erase] at found
        cases found
      · rw [lookup_erase_ne isGuest] at found
        rcases crowded.member key bucket found with guest | ⟨_, seen⟩
        · exact absurd guest isGuest
        · exact seen
  · have other : (fillerKey (kMaxBuckets - 1) == guestKey) = false :=
      beq_eq_false_iff_ne.mpr (guestKey_ne_fillerKey _).symm
    simpa [attempts, afterNewCheck, other] using crowded.log

/-- The guest, as many other keys as the table holds, and the guest again in the same minute. -/
def overrun : List Call :=
  crowd (kMaxBuckets - 1) ++
    [fillerCheck (kMaxBuckets - 1), .check guestKey guestPolicy 2 (fillerKey (kMaxBuckets - 1))]

theorem overrun_usesPolicy : forall call, call ∈ overrun -> UsesPolicy guestKey guestPolicy call := by
  intro call member
  rcases List.mem_append.mp member with inCrowd | last
  · rcases List.mem_cons.mp inCrowd with rfl | filler
    · exact fun _ => rfl
    · rcases List.mem_map.mp filler with ⟨index, _, rfl⟩
      exact fun _ => rfl
  · rcases List.mem_cons.mp last with rfl | guest
    · exact fun _ => rfl
    · rw [List.mem_singleton.mp guest]
      exact fun _ => rfl

/-- The other keys reset the guest's count before its window has elapsed. -/
theorem guest_reset_by_other_keys :
    (forall call, call ∈ overrun -> UsesPolicy guestKey guestPolicy call) ∧ guestPolicy.window ≤ 30 * 60 ∧
      Exists fun final : System => run step (fresh 0) overrun = some final ∧
        IsWindow guestPolicy.nanoseconds (attempts guestKey final) 0 ∧
        guestPolicy.maxAttempts < (admittedBetween 0 2 (attempts guestKey final)).length := by
  refine ⟨overrun_usesPolicy, by decide, ?_⟩
  rcases crowded_run (kMaxBuckets - 1) (by decide) with ⟨system, reached, crowded⟩
  rcases crowded_evicts crowded with ⟨next, taken, clock, lost, ⟨bucket, found⟩, seen, log⟩
  have recent : forall key bucket, next.buckets.lookup key = some bucket -> 2 - bucket.lastSeen < kIdleBucketTtl := by
    intro key bucket found
    rw [seen key bucket found]
    decide
  have isLeast : isOldest next.buckets (fillerKey (kMaxBuckets - 1)) = true := by
    apply isOldest_of_least found
    intro other otherBucket otherFound
    exact Int.le_of_eq ((seen _ _ found).trans (seen _ _ otherFound).symm)
  rcases Option.isSome_iff_exists.mp (by rw [makeRoom_of_oldest recent isLeast]; rfl :
    (makeRoom next.buckets 2 (fillerKey (kMaxBuckets - 1))).isSome = true) with ⟨room, made⟩
  have absent : room.lookup guestKey = none := by
    rcases makeRoom_lost guestKey made with same | ⟨gone, _⟩
    · rw [same, lost]
    · exact gone
  have checkable : requireCheckable guestKey guestPolicy = .ok () := by rfl
  have again := step_new_check (by rw [clock]; decide) checkable made absent
  have bothAllowed : attempts guestKey (afterNewCheck next room guestKey guestPolicy 2) =
      [{ time := 2, admitted := true }, { time := 0, admitted := true }] := by
    simpa [attempts, afterNewCheck] using log
  refine ⟨afterNewCheck next room guestKey guestPolicy 2, ?_, ?_⟩
  · rw [overrun, Transition.run_append, reached]
    simp [run, taken, again]
  · rw [bothAllowed]
    exact ⟨⟨_, List.suffix_rfl, by decide⟩, by decide⟩

/-! ## The size of the table -/

theorem length_erase_of_isOldest (isLeast : isOldest buckets oldest) :
    (buckets.erase oldest).entries.length < buckets.entries.length := by
  have present : oldest ∈ buckets := by
    rw [← lookup_isSome]
    unfold isOldest at isLeast
    split at isLeast <;> simp_all
  rcases List.exists_of_kerase present with ⟨bucket, before, after, _, whole, rest⟩
  show (List.kerase oldest buckets.entries).length < buckets.entries.length
  rw [rest, whole]
  simp

/-- A table that has room for all of its buckets has room for one more when a check needs it. -/
theorem length_makeRoom (made : makeRoom buckets now oldest = some room)
    (fits : buckets.entries.length ≤ kMaxBuckets) : room.entries.length < kMaxBuckets := by
  have fewer : (dropIdle buckets now).entries.length ≤ buckets.entries.length := List.length_filter_le _ _
  unfold makeRoom at made
  split at made
  · simp only at made
    split at made
    · rcases Option.ite_none_right_eq_some.mp made with ⟨isLeast, same⟩
      have one := length_erase_of_isOldest isLeast
      cases same
      omega
    · rename_i enough
      cases made
      omega
  · rename_i enough
    cases made
    omega

/-- The table never holds more buckets than its limit, whatever keys are checked. -/
theorem table_within_limit {clock : Int} {calls : List Call} {final : System}
    (reached : run step (fresh clock) calls = some final) : final.buckets.entries.length ≤ kMaxBuckets := by
  have preserved : forall system call next, step system call = some next ->
      system.buckets.entries.length ≤ kMaxBuckets -> next.buckets.entries.length ≤ kMaxBuckets := by
    intro system call next taken fits
    rcases Option.ite_none_left_eq_some.mp taken with ⟨_, taken⟩
    cases call with
    | check key policy now oldest =>
      dsimp only at taken
      split at taken
      · cases taken
        exact fits
      · rcases Option.map_eq_some_iff.mp taken with ⟨room, made, same⟩
        cases same
        -- the earlier bucket of the key leaves the table
        have replaced := (List.kerase_sublist key room.entries).length_le
        exact Nat.succ_le_of_lt (replaced.trans_lt (length_makeRoom made fits))
    | peek key policy now =>
      cases taken
      exact fits
    | prune now =>
      cases taken
      exact (List.length_filter_le _ _).trans fits
  exact run_invariant preserved reached (Nat.zero_le kMaxBuckets)

/-- The guest and two other keys are checked in turn, with a prune between the checks. -/
def mixedCalls : List Call :=
  [.check (fillerKey 1) guestPolicy 0 [], .check guestKey guestPolicy 1800 [], .check (fillerKey 0) guestPolicy 1801 [],
    .peek guestKey guestPolicy 1802, .prune 1900, .check guestKey guestPolicy 1901 []]

theorem table_within_limit_mixed :
    Exists fun final : System => run step (fresh 0) mixedCalls = some final ∧ final.buckets.entries.length = 3 ∧
      final.buckets.entries.length ≤ kMaxBuckets := by
  refine ⟨_, rfl, rfl, table_within_limit (?_ : run step (fresh 0) mixedCalls = _)⟩
  rfl

end RateLimiter
end Share
end Vaulthalla
