import Mathlib.Data.List.Basic

namespace Vaulthalla
namespace Foundation
namespace FixedWindow

/-!
# Fixed windows

Attempts arrive at nondecreasing times, and each is admitted or refused.  The
first attempt opens a window of a given length; an attempt after the end of
the window opens the next one.  A log of attempts is kept with the latest
first.

A log is metered when an attempt was admitted only while fewer than the
maximum had been admitted in its window.  The bound on the attempts admitted
in one window follows, for every window of the log and not only for the last.
-/

/-- An attempt: when it was made, and whether it was admitted. -/
structure Attempt where
  time : Int
  admitted : Bool
deriving DecidableEq

/-- The start of the window in which an attempt at a given time falls, after the window that was open before. -/
def openedAt (length : Int) (start : Option Int) (time : Int) : Int :=
  match start with
  | none => time
  | some start => if time - start < length then start else time

/-- The start of the window of the latest attempt. -/
def current (length : Int) : List Attempt -> Option Int
  | [] => none
  | attempt :: earlier => some (openedAt length (current length earlier) attempt.time)

/-- The attempts admitted between two instants. -/
def admittedBetween (first last : Int) (log : List Attempt) : List Attempt :=
  log.filter fun attempt => attempt.admitted && decide (first ≤ attempt.time) && decide (attempt.time ≤ last)

/-- The attempts admitted since an instant. -/
def admittedSince (start : Int) (log : List Attempt) : List Attempt :=
  log.filter fun attempt => attempt.admitted && decide (start ≤ attempt.time)

/-- An instant at which a window of the log was opened. -/
def IsWindow (length : Int) (log : List Attempt) (start : Int) : Prop :=
  Exists fun earlier : List Attempt => earlier <:+ log ∧ current length earlier = some start

/-- Nothing was admitted in a window that had reached the maximum. -/
def Metered (maximum : Nat) (length : Int) : List Attempt -> Prop
  | [] => True
  | attempt :: earlier =>
    (attempt.admitted = true ->
      (admittedSince (openedAt length (current length earlier) attempt.time) earlier).length < maximum) ∧
    Metered maximum length earlier

/-- The log is in the order of time. -/
def Ordered : List Attempt -> Prop
  | [] => True
  | attempt :: earlier => (forall other, other ∈ earlier -> other.time ≤ attempt.time) ∧ Ordered earlier

theorem admittedBetween_length_le (first last : Int) (log : List Attempt) :
    (admittedBetween first last log).length ≤ (admittedSince first log).length := by
  apply List.Sublist.length_le
  apply List.monotone_filter_right
  intro attempt kept
  simp only [Bool.and_eq_true] at kept ⊢
  exact kept.1

variable {length time start : Int} {log : List Attempt} {maximum : Nat}

theorem openedAt_le {start : Option Int} (started : forall opened, start = some opened -> opened ≤ time) :
    openedAt length start time ≤ time := by
  cases start with
  | none => exact Int.le_refl time
  | some opened =>
    simp only [openedAt]
    split
    · exact started opened rfl
    · exact Int.le_refl time

/-- The window of the latest attempt was opened by an attempt of the log. -/
theorem current_mem (isCurrent : current length log = some start) :
    Exists fun attempt => attempt ∈ log ∧ attempt.time = start := by
  induction log with
  | nil => simp [current] at isCurrent
  | cons attempt earlier ih =>
    have opened : openedAt length (current length earlier) attempt.time = start := Option.some.inj isCurrent
    cases before : current length earlier with
    | none =>
      rw [before] at opened
      exact ⟨attempt, List.mem_cons_self, opened⟩
    | some previous =>
      rw [before, openedAt] at opened
      split at opened
      · rcases ih (opened ▸ before) with ⟨opener, member, sameTime⟩
        exact ⟨opener, List.mem_cons_of_mem attempt member, sameTime⟩
      · exact ⟨attempt, List.mem_cons_self, opened⟩

theorem current_le {attempt : Attempt} {earlier : List Attempt} (ordered : Ordered (attempt :: earlier)) :
    forall opened, current length earlier = some opened -> opened ≤ attempt.time := by
  intro opened isCurrent
  rcases current_mem isCurrent with ⟨opener, member, sameTime⟩
  rw [← sameTime]
  exact ordered.1 opener member

/-- An attempt falls in the window that is open after it. -/
theorem lt_openedAt_add (positive : 0 < length) (start : Option Int) (time : Int) :
    time < openedAt length start time + length := by
  cases start with
  | none =>
    simp only [openedAt]
    omega
  | some opened =>
    simp only [openedAt]
    split <;> omega

theorem lt_current_add (positive : 0 < length) (ordered : Ordered log) (isCurrent : current length log = some start) :
    forall attempt, attempt ∈ log -> attempt.time < start + length := by
  cases log with
  | nil => simp [current] at isCurrent
  | cons latest earlier =>
    have opened : openedAt length (current length earlier) latest.time = start := Option.some.inj isCurrent
    have inside : latest.time < start + length := by
      rw [← opened]
      exact lt_openedAt_add positive _ _
    intro attempt member
    rcases List.mem_cons.mp member with rfl | older
    · exact inside
    · exact Int.lt_of_le_of_lt (ordered.1 attempt older) inside

/-- A window that is opened anew has no attempt in it yet. -/
theorem admittedSince_opened {previous : Int} (positive : 0 < length) (ordered : Ordered log)
    (isCurrent : current length log = some previous) (elapsed : ¬ time - previous < length) :
    admittedSince time log = [] := by
  apply List.filter_eq_nil_iff.mpr
  intro attempt member
  have inside := lt_current_add positive ordered isCurrent attempt member
  simp only [Bool.and_eq_true, decide_eq_true_eq, not_and]
  intro _
  omega

/-- No more than the maximum is admitted in the window of the latest attempt. -/
theorem admittedSince_current (positive : 0 < length) (ordered : Ordered log) (metered : Metered maximum length log)
    (isCurrent : current length log = some start) : (admittedSince start log).length ≤ maximum := by
  induction log generalizing start with
  | nil => simp [admittedSince]
  | cons attempt earlier ih =>
    have opened : openedAt length (current length earlier) attempt.time = start := Option.some.inj isCurrent
    have begun : start ≤ attempt.time := by
      rw [← opened]
      exact openedAt_le (current_le ordered)
    cases admission : attempt.admitted with
    | true =>
      have room := metered.1 admission
      rw [opened] at room
      simp only [admittedSince] at room ⊢
      rw [List.filter_cons_of_pos (by simp [admission, begun]), List.length_cons]
      exact room
    | false =>
      have same : admittedSince start (attempt :: earlier) = admittedSince start earlier := by
        simp [admittedSince, admission]
      rw [same]
      cases before : current length earlier with
      | none =>
        -- Nothing was attempted before the first window.
        cases earlier with
        | nil => simp [admittedSince]
        | cons other rest => simp [current] at before
      | some previous =>
        rw [before, openedAt] at opened
        split at opened
        · exact ih ordered.2 metered.2 (opened ▸ before)
        · rename_i elapsed
          rw [← opened, admittedSince_opened positive ordered.2 before elapsed]
          exact Nat.zero_le maximum

/-! ## Every window -/

/-- A window is the last one, or it ended before the last one began. -/
theorem IsWindow.eq_or_add_le (positive : 0 < length) (ordered : Ordered log) (isWindow : IsWindow length log start) :
    Exists fun last => current length log = some last ∧ (start = last ∨ start + length ≤ last) := by
  induction log with
  | nil =>
    rcases isWindow with ⟨earlier, isSuffix, isCurrent⟩
    rw [List.suffix_nil.mp isSuffix] at isCurrent
    simp [current] at isCurrent
  | cons attempt earlier ih =>
    refine ⟨_, rfl, ?_⟩
    rcases isWindow with ⟨part, isSuffix, isCurrent⟩
    rcases List.suffix_cons_iff.mp isSuffix with whole | older
    · subst whole
      exact .inl (Option.some.inj isCurrent).symm
    · rcases ih ordered.2 ⟨part, older, isCurrent⟩ with ⟨last, isLast, apart⟩
      rw [isLast, openedAt]
      split
      · exact apart
      · right
        rcases apart with rfl | ended <;> omega

/-- The bound on one window: between two instants in it, no more than the
maximum is admitted. -/
theorem admittedBetween_le {first last : Int} (positive : 0 < length) (ordered : Ordered log)
    (metered : Metered maximum length log) (isWindow : IsWindow length log start) (after : start ≤ first)
    (before : last < start + length) : (admittedBetween first last log).length ≤ maximum := by
  induction log with
  | nil => simp [admittedBetween]
  | cons attempt earlier ih =>
    rcases isWindow.eq_or_add_le positive ordered with ⟨latest, isLatest, rfl | ended⟩
    · calc
        (admittedBetween first last (attempt :: earlier)).length ≤
            (admittedSince first (attempt :: earlier)).length := admittedBetween_length_le first last _
        _ ≤ (admittedSince start (attempt :: earlier)).length := by
            apply List.Sublist.length_le
            apply List.monotone_filter_right
            intro other kept
            simp only [Bool.and_eq_true, decide_eq_true_eq] at kept ⊢
            exact ⟨kept.1, by omega⟩
        _ ≤ maximum := admittedSince_current positive ordered metered isLatest
    · -- The latest attempt belongs to a later window, so it is not between the two instants.
      have begun : latest ≤ attempt.time := by
        rw [← Option.some.inj isLatest]
        exact openedAt_le (current_le ordered)
      have same : admittedBetween first last (attempt :: earlier) = admittedBetween first last earlier := by
        apply List.filter_cons_of_neg
        simp only [Bool.and_eq_true, decide_eq_true_eq, not_and]
        intro _
        omega
      rw [same]
      apply ih ordered.2 metered.2
      rcases isWindow with ⟨part, isSuffix, isCurrent⟩
      rcases List.suffix_cons_iff.mp isSuffix with whole | older
      · subst whole
        have sameStart : latest = start := Option.some.inj (isLatest.symm.trans isCurrent)
        omega
      · exact ⟨part, older, isCurrent⟩

end FixedWindow
end Foundation
end Vaulthalla
