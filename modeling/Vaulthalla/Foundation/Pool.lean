import Mathlib.Algebra.BigOperators.Group.List.Basic
import Mathlib.Algebra.Order.BigOperators.Group.List
import Mathlib.Algebra.Order.Ring.Nat
import Mathlib.Data.List.Nodup

namespace Vaulthalla
namespace Foundation
namespace Pool

open List

/-!
# Totals over a pool

Any number of calls are under way at once.  They form a list; a call is added
at its end, and a step replaces one call by its next position.  A bound that
all calls share is a bound on a total over the list.
-/

variable {A : Type} {weight other : A -> Nat} {pool : List A} {index : Nat} {old : A}

def total (weight : A -> Nat) (pool : List A) : Nat :=
  (pool.map weight).sum

@[simp] theorem total_nil : total weight [] = 0 :=
  rfl

@[simp] theorem total_cons (member : A) : total weight (member :: pool) = weight member + total weight pool :=
  rfl

@[simp] theorem total_append (member : A) : total weight (pool ++ [member]) = total weight pool + weight member := by
  simp [total]

theorem total_concat (first second : List A) : total weight (first ++ second) = total weight first + total weight second := by
  simp [total]

theorem total_map {B : Type} (change : B -> A) (others : List B) :
    total weight (others.map change) = total (fun member => weight (change member)) others := by
  simp [total, Function.comp_def]

theorem total_eq_zero (zero : forall member, member ∈ pool -> weight member = 0) : total weight pool = 0 :=
  sum_eq_zero (forall_mem_map.mpr zero)

/-- At most one member has a given key when no two have the same. -/
theorem total_ite_le {K : Type} [DecidableEq K] {key : A -> K} (unique : (pool.map key).Nodup) (wanted : K)
    (amount : Nat) : total (fun member => if key member = wanted then amount else 0) pool ≤ amount := by
  induction pool with
  | nil => exact Nat.zero_le amount
  | cons member rest ih =>
    rw [map_cons, nodup_cons] at unique
    rw [total_cons]
    split
    case isTrue isWanted =>
      have noOther : total (fun later => if key later = wanted then amount else 0) rest = 0 := by
        refine total_eq_zero fun later inside => if_neg fun alsoWanted => ?_
        exact unique.1 (isWanted ▸ alsoWanted ▸ mem_map_of_mem inside)
      omega
    case isFalse =>
      rw [Nat.zero_add]
      exact ih unique.2

theorem perm_eraseIdx (found : pool[index]? = some old) : (old :: pool.eraseIdx index).Perm pool := by
  rcases List.getElem?_eq_some_iff.mp found with ⟨inside, rfl⟩
  exact getElem_cons_eraseIdx_perm inside

theorem perm_set (found : pool[index]? = some old) (new : A) : (new :: pool.eraseIdx index).Perm (pool.set index new) := by
  rw [← eraseIdx_set_eq (a := new)]
  exact perm_eraseIdx (getElem?_set_self (List.getElem?_eq_some_iff.mp found).1)

theorem total_perm {other : List A} (perm : pool.Perm other) : total weight pool = total weight other :=
  (perm.map weight).sum_eq

theorem total_eraseIdx (weight : A -> Nat) (found : pool[index]? = some old) :
    total weight (pool.eraseIdx index) + weight old = total weight pool := by
  rw [← total_perm (perm_eraseIdx found), total_cons, Nat.add_comm]

/-- One step of one member. -/
theorem total_set (weight : A -> Nat) (found : pool[index]? = some old) (new : A) :
    total weight (pool.set index new) + weight old = total weight pool + weight new := by
  rw [← total_perm (perm_set found new), ← total_eraseIdx weight found, total_cons]
  omega

theorem flatMap_set_perm {B : Type} (emit : A -> List B) (found : pool[index]? = some old) (new : A) :
    ((pool.set index new).flatMap emit ++ emit old).Perm (pool.flatMap emit ++ emit new) := by
  have before := (perm_eraseIdx found).flatMap_right emit
  have after := (perm_set found new).flatMap_right emit
  refine (after.symm.append_right _).trans (.trans ?_ (before.append_right _))
  rw [flatMap_cons, flatMap_cons, append_assoc]
  exact perm_append_comm.trans (perm_append_comm.append_right _)

theorem total_eraseIdx_le (index : Nat) : total weight (pool.eraseIdx index) ≤ total weight pool := by
  cases found : pool[index]? with
  | none => rw [eraseIdx_of_length_le (getElem?_eq_none_iff.mp found)]
  | some old => exact Nat.le.intro (total_eraseIdx weight found)

theorem le_total (weight : A -> Nat) (found : pool[index]? = some old) : weight old ≤ total weight pool := by
  rw [← total_eraseIdx weight found]
  exact Nat.le_add_left _ _

theorem total_le_total (below : forall member, member ∈ pool -> weight member ≤ other member) :
    total weight pool ≤ total other pool :=
  sum_le_sum below

theorem total_add (pool : List A) :
    total (fun member => weight member + other member) pool = total weight pool + total other pool :=
  sum_map_add

/-! ## Every member -/

variable {Holds : A -> Prop} {new : A}

/-- A property of every member survives the step of one, if its next position has the property. -/
theorem forall_set (all : forall member, member ∈ pool -> Holds member) (holds : Holds new) :
    forall member, member ∈ pool.set index new -> Holds member := by
  intro member inside
  rcases mem_or_eq_of_mem_set inside with old | rfl
  · exact all member old
  · exact holds

section

variable {Holds : Nat -> A -> Prop}

/-- A statement about each member and its place, where the step of one says something new of the others. -/
theorem forall_at_set_of_ne (others : forall place member, place ≠ index -> pool[place]? = some member ->
    Holds place member) (holds : Holds index new) :
    forall place member, (pool.set index new)[place]? = some member -> Holds place member := by
  intro place member found
  rw [getElem?_set] at found
  split at found
  case isTrue same =>
    subst same
    cases (Option.ite_none_right_eq_some.mp found).2
    exact holds
  case isFalse isOther => exact others place member (Ne.symm isOther) found

variable (all : forall place member, pool[place]? = some member -> Holds place member)

include all

theorem forall_at_set (holds : Holds index new) :
    forall place member, (pool.set index new)[place]? = some member -> Holds place member :=
  forall_at_set_of_ne (fun place member _ => all place member) holds

theorem forall_at_append (holds : Holds pool.length new) :
    forall place member, (pool ++ [new])[place]? = some member -> Holds place member := by
  intro place member found
  rw [getElem?_append] at found
  split at found
  case isTrue => exact all place member found
  case isFalse isBeyond =>
    have isLast : place = pool.length := by
      by_contra isOther
      have isLong : [new].length ≤ place - pool.length := by
        rw [length_singleton]
        omega
      rw [getElem?_eq_none isLong] at found
      cases found
    subst isLast
    cases (by simpa using found : new = member)
    exact holds

end

theorem forall_append (all : forall member, member ∈ pool -> Holds member) (holds : Holds new) :
    forall member, member ∈ pool ++ [new] -> Holds member := by
  intro member inside
  rcases mem_append.mp inside with old | added
  · exact all member old
  · rw [mem_singleton.mp added]
    exact holds

/-! ## Members that leave -/

/-- The member goes to its next position, or leaves when it has none. -/
def move (pool : List A) (index : Nat) : Option A -> List A
  | some new => pool.set index new
  | none => pool.eraseIdx index

variable {next : Option A}

theorem forall_move (all : forall member, member ∈ pool -> Holds member)
    (holds : forall new, next = some new -> Holds new) :
    forall member, member ∈ move pool index next -> Holds member := by
  cases next with
  | some new => exact forall_set all (holds new rfl)
  | none => exact fun member inside => all member (mem_of_mem_eraseIdx inside)

theorem length_move_le (next : Option A) : (move pool index next).length ≤ pool.length := by
  cases next with
  | some new => exact Nat.le_of_eq length_set
  | none => exact length_eraseIdx_le pool index

/-! ## A single member -/

theorem eq_singleton (single : pool.length ≤ 1) (found : pool[index]? = some old) : pool = [old] ∧ index = 0 := by
  cases pool with
  | nil => simp at found
  | cons first rest =>
    have isAlone : rest = [] := eq_nil_of_length_eq_zero (by simpa using single)
    subst isAlone
    cases index with
    | succ index => simp at found
    | zero => exact ⟨by simpa using found, rfl⟩

/-- After a move of the only member there is at most the moved one. -/
theorem move_of_single (single : pool.length ≤ 1) (found : pool[index]? = some old) :
    move pool index next = next.toList := by
  rcases eq_singleton single found with ⟨rfl, rfl⟩
  cases next <;> rfl

end Pool
end Foundation
end Vaulthalla
