import Mathlib.Data.List.Perm.Basic

namespace Vaulthalla
namespace Foundation
namespace Selection

open List

/-!
# The first maximum of a list

A loop that keeps its best candidate and replaces it only by a strictly better
one selects the first element of maximal score.  Which element that is depends
on the order of the list as soon as two elements share the maximal score.  The
set of elements of maximal score does not depend on the order, and each of
them is selected from some rearrangement.
-/

variable {A : Type} (score : A -> Nat)

/-- One turn of the loop. -/
def better (best : Option A) (candidate : A) : Option A :=
  match best with
  | none => some candidate
  | some current => if score candidate > score current then some candidate else some current

def firstMaximum (values : List A) : Option A :=
  values.foldl (better score) none

/-- An element of maximal score. -/
def IsTop (values : List A) (value : A) : Prop :=
  value ∈ values ∧ forall other, other ∈ values -> score other ≤ score value

variable {score} {value : A} {values : List A}

theorem IsTop.perm {first second : List A} (rearranged : first.Perm second) (top : IsTop score first value) :
    IsTop score second value :=
  ⟨rearranged.mem_iff.mp top.1, fun other member => top.2 other (rearranged.mem_iff.mpr member)⟩

/-- Candidates that are not strictly better leave the choice alone. -/
theorem foldl_better_of_le {best : A} :
    forall values : List A, (forall value, value ∈ values -> score value ≤ score best) ->
      values.foldl (better score) (some best) = some best := by
  intro values
  induction values with
  | nil =>
    intro _
    rfl
  | cons value rest ih =>
    intro bounded
    have notBetter : ¬ score value > score best := Nat.not_lt.mpr (bounded value (by simp))
    rw [foldl_cons, better, if_neg notBetter]
    exact ih (fun other member => bounded other (by simp [member]))

/-! ## Where the choice stands -/

/-- An element that is better than all before it and no worse than any after it. -/
def IsFirstTop (score : A -> Nat) (values : List A) (value : A) : Prop :=
  Exists fun before : List A => Exists fun after : List A => values = before ++ value :: after ∧
    (forall other, other ∈ before -> score other < score value) ∧
      forall other, other ∈ after -> score other ≤ score value

/-- An element better than all before it replaces the choice among them. -/
theorem better_of_lt {best : Option A} (worse : forall other, other ∈ values -> score other < score value)
    (below : forall other, best = some other -> score other < score value) :
    better score (values.foldl (better score) best) value = some value := by
  induction values generalizing best with
  | nil =>
    cases best with
    | none => rfl
    | some other => exact if_pos (below other rfl)
  | cons first rest ih =>
    refine ih (fun other later => worse other (mem_cons_of_mem _ later)) fun other chosen => ?_
    cases best with
    | none => exact Option.some.inj chosen ▸ worse first mem_cons_self
    | some best =>
      rw [better] at chosen
      split at chosen
      · exact Option.some.inj chosen ▸ worse first mem_cons_self
      · exact Option.some.inj chosen ▸ below best rfl

theorem firstMaximum_of_isFirstTop (first : IsFirstTop score values value) :
    firstMaximum score values = some value := by
  rcases first with ⟨before, after, rfl, worse, bounded⟩
  have chosen : better score (before.foldl (better score) none) value = some value := better_of_lt worse nofun
  rw [firstMaximum, foldl_append, foldl_cons, chosen]
  exact foldl_better_of_le after bounded

theorem exists_isFirstTop (score : A -> Nat) (nonempty : values ≠ []) :
    Exists fun value => IsFirstTop score values value := by
  induction values with
  | nil => exact absurd rfl nonempty
  | cons value rest ih =>
    by_cases last : rest = []
    · subst last
      exact ⟨value, [], [], rfl, by simp, by simp⟩
    · rcases ih last with ⟨chosen, before, after, rfl, worse, bounded⟩
      by_cases improved : score value < score chosen
      · refine ⟨chosen, value :: before, after, rfl, ?_, bounded⟩
        intro other inside
        rcases mem_cons.mp inside with rfl | earlier
        · exact improved
        · exact worse other earlier
      · refine ⟨value, [], before ++ chosen :: after, rfl, by simp, ?_⟩
        have least : score chosen ≤ score value := Nat.not_lt.mp improved
        intro other inside
        rcases mem_append.mp inside with earlier | later
        · exact Nat.le_trans (Nat.le_of_lt (worse other earlier)) least
        · rcases mem_cons.mp later with rfl | after
          · exact least
          · exact Nat.le_trans (bounded other after) least

theorem firstMaximum_eq_none_iff : firstMaximum score values = none ↔ values = [] := by
  constructor
  · intro isNone
    by_contra nonempty
    rcases exists_isFirstTop score nonempty with ⟨chosen, first⟩
    cases isNone.symm.trans (firstMaximum_of_isFirstTop first)
  · rintro rfl
    rfl

/-- The loop selects exactly the first element of maximal score. -/
theorem firstMaximum_eq_some_iff : firstMaximum score values = some value ↔ IsFirstTop score values value := by
  constructor
  · intro selected
    have nonempty : values ≠ [] := by
      rintro rfl
      cases selected
    rcases exists_isFirstTop score nonempty with ⟨chosen, first⟩
    have same : some chosen = some value := (firstMaximum_of_isFirstTop first).symm.trans selected
    exact Option.some.inj same ▸ first
  · exact firstMaximum_of_isFirstTop

theorem firstMaximum_isTop {chosen : A} (selected : firstMaximum score values = some chosen) :
    IsTop score values chosen := by
  rcases firstMaximum_eq_some_iff.mp selected with ⟨before, after, rfl, worse, bounded⟩
  refine ⟨mem_append_right _ mem_cons_self, fun other inside => ?_⟩
  rcases mem_append.mp inside with earlier | later
  · exact Nat.le_of_lt (worse other earlier)
  · rcases mem_cons.mp later with rfl | after
    · exact Nat.le_refl _
    · exact bounded other after

/-- A leading part that holds an element of maximal score decides the choice. -/
theorem firstMaximum_append_of_top {front rest : List A} (leading : value ∈ front)
    (top : IsTop score (front ++ rest) value) : firstMaximum score (front ++ rest) = firstMaximum score front := by
  cases selected : firstMaximum score front with
  | none =>
    rw [firstMaximum_eq_none_iff] at selected
    simp [selected] at leading
  | some chosen =>
    have best := firstMaximum_isTop selected
    rw [firstMaximum, foldl_append, ← firstMaximum, selected]
    apply foldl_better_of_le
    intro other later
    exact Nat.le_trans (top.2 other (by simp [later])) (best.2 value leading)

/-! ## A holder that is replaced by whoever beats it -/

def holder (beats : A -> A -> Bool) : List A -> Option A
  | [] => none
  | first :: rest => some (rest.foldl (fun best next => if beats next best then next else best) first)

section Holder

variable {beats : A -> A -> Bool} {values : List A} {chosen : A}

theorem mem_of_holder (held : holder beats values = some chosen) : chosen ∈ values := by
  cases values with
  | nil => cases held
  | cons first rest =>
    cases held
    induction rest generalizing first with
    | nil => exact mem_cons_self
    | cons next rest ih =>
      rw [foldl_cons]
      by_cases replaced : beats next first
      · rw [if_pos replaced]
        exact mem_cons_of_mem _ (ih next)
      · rw [if_neg replaced]
        rcases mem_cons.mp (ih first) with same | inside
        · rw [same]
          exact mem_cons_self
        · exact mem_cons_of_mem _ (mem_cons_of_mem _ inside)

theorem holder_map {change : A -> A} (same : forall first second, beats (change first) (change second) = beats first second)
    (values : List A) : holder beats (values.map change) = (holder beats values).map change := by
  cases values with
  | nil => rfl
  | cons first rest =>
    simp only [map_cons, holder, Option.map_some, Option.some.injEq]
    induction rest generalizing first with
    | nil => rfl
    | cons next rest ih =>
      simp only [map_cons, foldl_cons, same]
      rw [← ih, apply_ite change]

end Holder

end Selection
end Foundation
end Vaulthalla
