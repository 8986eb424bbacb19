import Mathlib.Data.List.Nodup

namespace Vaulthalla
namespace Foundation

/-!
# Tables with a unique key

A table holds rows of which no two have the same key.  A row is inserted unless
its key is taken, and an update changes columns other than the key.  What a
table holds is read through `find`, so the lemmas below say what each statement
does to the row of a given key.
-/

variable {K Row : Type} {key : Row -> K}

structure Table (Row : Type) (key : Row -> K) where
  rows : List Row
  unique : (rows.map key).Nodup

namespace Table

variable [DecidableEq K] {table after : Table Row key} {row : Row} {wanted : K}

def empty : Table Row key :=
  ⟨[], List.nodup_nil⟩

def find (table : Table Row key) (wanted : K) : Option Row :=
  table.rows.find? fun row => key row = wanted

theorem key_of_find (found : table.find wanted = some row) : key row = wanted := by
  simpa using List.find?_some found

theorem find_eq_none_iff : table.find wanted = none ↔ wanted ∉ table.rows.map key := by
  simp [find, List.find?_eq_none]

theorem find_of_mem (inside : row ∈ table.rows) : table.find (key row) = some row := by
  rcases table with ⟨rows, unique⟩
  induction rows with
  | nil => cases inside
  | cons first rest ih =>
    rw [List.map_cons, List.nodup_cons] at unique
    rcases List.mem_cons.mp inside with rfl | later
    · simp [find]
    · have different : key first ≠ key row := by
        intro same
        exact unique.1 (same ▸ List.mem_map_of_mem later)
      have found := ih unique.2 later
      simpa [find, different] using found

/-! ## Statements -/

/-- `INSERT … ON CONFLICT DO NOTHING`, or nothing when no row is affected. -/
def insert (table : Table Row key) (row : Row) : Option (Table Row key) :=
  if isFree : key row ∉ table.rows.map key then
    some ⟨table.rows ++ [row], by
      rw [List.map_append, List.map_cons, List.map_nil, List.nodup_append]
      refine ⟨table.unique, List.nodup_singleton _, ?_⟩
      intro other isOther last isLast same
      rw [List.mem_singleton.mp isLast] at same
      exact isFree (same ▸ isOther)⟩
  else none

/-- An `UPDATE` of all rows that keeps their keys. -/
def update (table : Table Row key) (change : Row -> Row) (keeps : forall row, key (change row) = key row) :
    Table Row key :=
  ⟨table.rows.map change, by
    rw [List.map_map, show key ∘ change = key from funext keeps]
    exact table.unique⟩

theorem find_insert (inserted : table.insert row = some after) :
    table.find (key row) = none ∧
      forall wanted, after.find wanted = if wanted = key row then some row else table.find wanted := by
  unfold insert at inserted
  split at inserted
  case isTrue isFree =>
    cases inserted
    have isAbsent : table.find (key row) = none := find_eq_none_iff.mpr isFree
    refine ⟨isAbsent, fun wanted => ?_⟩
    simp only [find, List.find?_append, List.find?_singleton]
    by_cases same : wanted = key row
    · subst same
      have isAbsent : table.rows.find? (fun other => decide (key other = key row)) = none := isAbsent
      simp [isAbsent]
    · simp [same, Ne.symm same]
  case isFalse => cases inserted

section

variable {change : Row -> Row} (keeps : forall row, key (change row) = key row)

include keeps

theorem find_update : (table.update change keeps).find wanted = (table.find wanted).map change := by
  simp only [find, update, List.find?_map, Function.comp_def, keeps]

/-- An update of the row of one key leaves the others. -/
theorem find_update_of_ne {changed : K} (others : forall row, key row ≠ changed -> change row = row)
    (different : wanted ≠ changed) : (table.update change keeps).find wanted = table.find wanted := by
  rw [find_update]
  cases found : table.find wanted with
  | none => rfl
  | some row => rw [Option.map_some, others row (key_of_find found ▸ different)]

end

end Table
end Foundation
end Vaulthalla
