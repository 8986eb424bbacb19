import Mathlib.Data.List.Dedup
import Mathlib.Data.List.Destutter
import Mathlib.Data.List.Sort

namespace Vaulthalla
namespace Foundation
namespace SortedKeys

/-!
# Sorted lists without repetitions

Sorting a list and then removing adjacent repetitions, as `std::sort` followed
by `std::unique` does, enumerates its elements once each.  A loop over such a
list meets every element exactly once.
-/

variable {A : Type} [DecidableEq A] (below : A -> A -> Prop) [DecidableRel below] (values : List A)

def sortedUnique : List A :=
  (values.insertionSort below).destutter (fun first second => first ≠ second)

variable [Std.Total below] [IsTrans A below] [Std.Antisymm below]

/-- In a sorted list equal elements are adjacent, so all repetitions are removed. -/
theorem sortedUnique_eq_dedup : sortedUnique below values = (values.insertionSort below).dedup :=
  (List.pairwise_insertionSort below values).destutter_eq_dedup

theorem mem_sortedUnique (value : A) (values : List A) : value ∈ sortedUnique below values ↔ value ∈ values := by
  rw [sortedUnique_eq_dedup, List.mem_dedup, List.mem_insertionSort]

theorem nodup_sortedUnique : (sortedUnique below values).Nodup := by
  rw [sortedUnique_eq_dedup]
  exact List.nodup_dedup _

end SortedKeys
end Foundation
end Vaulthalla
