import Mathlib.Data.List.Infix
import Mathlib.Data.List.Basic

namespace Vaulthalla
namespace Foundation

open List

/-!
# Byte strings

A `std::string` is a sequence of bytes, and every comparison the program makes
on paths, permission names and glob patterns is a comparison of bytes.  The
model therefore keeps byte lists and never decodes them.  String literals of
the source are written through `str`, which gives their UTF-8 bytes.

The lemmas below concern splitting at a separator.  A path is read as the
list of its components, and the later arguments move between a path and its
components in both directions.
-/

abbrev Str := List UInt8

/-- The bytes of a literal of the source. -/
def str (text : String) : Str :=
  text.toUTF8.data.toList

def slash : UInt8 := 47
def dotByte : UInt8 := 46
def starByte : UInt8 := 42
def questionByte : UInt8 := 63
def backslash : UInt8 := 92

/-! ## Splitting at a separator -/

section Splitting

variable {A : Type} [DecidableEq A] (separator : A)

/-- Splitting commutes with a bytewise substitution that neither creates nor
removes separators. -/
theorem splitOn_map (change : A -> A) (separates : forall value, change value = separator ↔ value = separator) :
    forall values : List A,
      (values.map change).splitOn separator =
        (values.splitOn separator).map (map change) := by
  intro values
  induction values with
  | nil => rfl
  | cons value rest ih =>
    rw [map_cons, splitOn_cons_eq_if_modifyHead, splitOn_cons_eq_if_modifyHead, ih]
    by_cases same : value = separator
    · have changed : change value = separator := (separates value).mpr same
      simp [same ▸ changed, same]
    · have unchanged : change value ≠ separator :=
        fun equal => same ((separates value).mp equal)
      simp only [beq_eq_false_iff_ne.mpr same, beq_eq_false_iff_ne.mpr unchanged]
      cases splitOn separator rest with
      | nil | cons => rfl

theorem not_mem_of_mem_splitOn :
    forall (values : List A) (piece : List A),
      piece ∈ values.splitOn separator -> separator ∉ piece := by
  intro values
  induction values with
  | nil =>
    intro piece member
    simp only [splitOn_nil, mem_singleton] at member
    simp [member]
  | cons value rest ih =>
    intro piece member
    rw [splitOn_cons_eq_if_modifyHead] at member
    by_cases same : value = separator
    · simp only [same, beq_self_eq_true, if_true, mem_cons] at member
      rcases member with empty | member
      · simp [empty]
      · exact ih piece member
    · simp only [beq_eq_false_iff_ne.mpr same, Bool.false_eq_true, if_false] at member
      cases pieces : splitOn separator rest with
      | nil => simp [pieces] at member
      | cons head tail =>
        simp only [pieces, modifyHead_cons, mem_cons] at member
        rcases member with first | member
        · have clean : separator ∉ head := ih head (by simp [pieces])
          simp [first, clean, Ne.symm same]
        · exact ih piece (by simp [pieces, member])

theorem mem_of_mem_splitOn :
    forall (values : List A) (piece : List A), piece ∈ values.splitOn separator ->
      forall value, value ∈ piece -> value ∈ values := by
  intro values
  induction values with
  | nil =>
    intro piece member value inside
    simp only [splitOn_nil, mem_singleton] at member
    simp [member] at inside
  | cons first rest ih =>
    intro piece member value inside
    rw [splitOn_cons_eq_if_modifyHead] at member
    cases pieces : splitOn separator rest with
    | nil => exact absurd pieces (splitOn_ne_nil separator rest)
    | cons head tail =>
      rw [pieces] at ih member
      split at member
      · rcases mem_cons.mp member with rfl | later
        · simp at inside
        · exact mem_cons_of_mem first (ih piece later value inside)
      · rcases mem_cons.mp member with rfl | later
        · rcases mem_cons.mp inside with same | within
          · exact same ▸ mem_cons_self
          · exact mem_cons_of_mem first (ih head mem_cons_self value within)
        · exact mem_cons_of_mem first (ih piece (mem_cons_of_mem head later) value inside)

/-- Text put in front only changes the first piece. -/
theorem mem_tail_splitOn_append (before values piece : List A)
    (member : piece ∈ (values.splitOn separator).tail) : piece ∈ ((before ++ values).splitOn separator).tail := by
  induction before with
  | nil => exact member
  | cons value rest ih =>
    rw [cons_append, splitOn_cons_eq_if_modifyHead]
    split
    · exact mem_of_mem_tail ih
    · rw [tail_modifyHead]
      exact ih

end Splitting

end Foundation
end Vaulthalla
