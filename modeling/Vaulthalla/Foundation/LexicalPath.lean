import Vaulthalla.Foundation.ByteString

namespace Vaulthalla
namespace Foundation

/-!
# Lexical path normalisation

`std::filesystem::path::lexically_normal` is a function of the text of a path.
It drops empty and dot components, resolves a dot-dot against the name before
it, and keeps a trailing separator that the text or a final dot implies.  The
definition below follows that description on the components between
separators; a generic path has only the separator `/`, and there is no root
name.

The useful facts are about absolute paths.  Their normal form is a separator
followed by ordinary names, possibly with one trailing separator, and a path
already written that way is its own normal form.
-/

def dot : Str := [dotByte]
def dotDot : Str := [dotByte, dotByte]

variable (path : Str)

/-- The texts between separators.  An absolute path starts with an empty one. -/
def components : List Str :=
  path.splitOn slash

variable (absolute : Bool) (names : List Str)

/-- One component of the input read onto the names kept so far, the last name
first.  A dot-dot at the root of an absolute path is dropped. -/
def pushComponent (component : Str) : List Str :=
  if component = [] ∨ component = dot then names
  else if component = dotDot then
    match names with
    | [] => if absolute then [] else [component]
    | name :: rest => if name = dotDot then component :: name :: rest else rest
  else component :: names

def normalNames (parts : List Str) : List Str :=
  (parts.foldl (pushComponent absolute) []).reverse

def isAbsolute : Bool :=
  path.head? == some slash

/-- Whether the normal form keeps a separator at the end: the text ends in a
separator, a dot or a resolved dot-dot, and a name remains for it to follow. -/
def keepsTrailing (parts names : List Str) : Bool :=
  let final := parts.getLastD []
  (final == [] || final == dot || final == dotDot) &&
    !names.isEmpty && names.getLastD [] != dotDot

/-- The text of a list of names below a root. -/
def render (trailing : Bool) : Str :=
  (if absolute then [slash] else []) ++ [slash].intercalate names ++ (if trailing then [slash] else [])

/-- `path.lexically_normal().generic_string()`. -/
def lexicallyNormal : Str :=
  if path = [] then []
  else
    let parts := components path
    let absolute := isAbsolute path
    let names := normalNames absolute parts
    let text := render absolute names (keepsTrailing parts names)
    if text = [] then dot else text

example : lexicallyNormal (str "/a/./b//../c/") = str "/a/c/" := by decide
example : lexicallyNormal (str "a/../..") = str ".." := by decide
example : lexicallyNormal (str "/../x/..") = str "/" := by decide

/-! ## Ordinary names -/

/-- A component that normalisation keeps as it is. -/
def LegalName (name : Str) : Prop :=
  name ≠ [] ∧ name ≠ dot ∧ name ≠ dotDot

instance (name : Str) : Decidable (LegalName name) :=
  inferInstanceAs (Decidable (_ ∧ _ ∧ _))

theorem pushComponent_of_legal {name : Str}
    (legal : LegalName name) : pushComponent absolute names name = name :: names := by
  simp only [pushComponent, legal.1, legal.2.1, legal.2.2, or_self, if_false]

theorem foldl_pushComponent_of_legal :
    forall (parts names : List Str), (forall name, name ∈ parts -> LegalName name) ->
      parts.foldl (pushComponent absolute) names = parts.reverse ++ names := by
  intro parts
  induction parts with
  | nil =>
    intro names _
    rfl
  | cons part rest ih =>
    intro names legal
    rw [List.foldl_cons, pushComponent_of_legal absolute names (legal part (by simp)),
      ih _ (fun name member => legal name (by simp [member]))]
    simp

theorem components_cons_slash : components (slash :: path) = [] :: components path := by
  simp [components, List.splitOn_cons_eq_if_modifyHead]

theorem components_cons_of_ne {byte : UInt8} (different : byte ≠ slash) (path : Str) :
    Exists fun first => Exists fun others => components (byte :: path) = (byte :: first) :: others := by
  rw [components, List.splitOn_cons_eq_if_modifyHead]
  cases pieces : List.splitOn slash path with
  | nil => exact absurd pieces (List.splitOn_ne_nil slash path)
  | cons first others => exact ⟨first, others, by simp [different]⟩

theorem isAbsolute_iff : isAbsolute path ↔ Exists fun rest => path = slash :: rest := by
  cases path with
  | nil | cons => simp [isAbsolute]

/-- A path written as a separator followed by ordinary names is normal. -/
theorem lexicallyNormal_of_legal (rest : Str) (legal : forall name, name ∈ components rest -> LegalName name) :
    lexicallyNormal (slash :: rest) = slash :: rest := by
  have nonempty : components rest ≠ [] := List.splitOn_ne_nil slash rest
  have names : normalNames true (components (slash :: rest)) = components rest := by
    rw [components_cons_slash, normalNames, List.foldl_cons]
    have dropped : pushComponent true [] [] = [] := rfl
    rw [dropped, foldl_pushComponent_of_legal true _ _ legal]
    simp
  have final : LegalName ((components (slash :: rest)).getLastD []) := by
    rw [components_cons_slash, List.getLastD_cons]
    rw [List.getLastD_eq_getLast?, List.getLast?_eq_some_getLast nonempty]
    exact legal _ (List.getLast_mem nonempty)
  have trailing : keepsTrailing (components (slash :: rest)) (components rest) = false := by
    simp only [keepsTrailing, beq_eq_false_iff_ne.mpr final.1, beq_eq_false_iff_ne.mpr final.2.1,
      beq_eq_false_iff_ne.mpr final.2.2, Bool.or_self, Bool.false_and]
  have joined : [slash].intercalate (components rest) = rest := List.intercalate_splitOn slash
  have absolute : isAbsolute (slash :: rest) := by simp [isAbsolute]
  simp [lexicallyNormal, absolute, names, trailing, render, joined]

/-! ## The shape of a normal absolute path -/

theorem pushComponent_legal {names : List Str} {component : Str}
    (kept : forall name, name ∈ names -> LegalName name ∧ slash ∉ name) (clean : slash ∉ component) :
    forall name, name ∈ pushComponent true names component -> LegalName name ∧ slash ∉ name := by
  intro name member
  unfold pushComponent at member
  split at member
  · exact kept name member
  · rename_i present
    split at member
    · cases names with
      | nil => simp at member
      | cons head rest =>
        have different : head ≠ dotDot := (kept head (by simp)).1.2.2
        simp only [different, if_false] at member
        exact kept name (by simp [member])
    · rename_i ordinary
      rcases List.mem_cons.mp member with same | member
      · subst same
        exact ⟨⟨fun empty => present (.inl empty), fun single => present (.inr single), ordinary⟩, clean⟩
      · exact kept name member

theorem foldl_pushComponent_legal :
    forall (parts names : List Str), (forall part, part ∈ parts -> slash ∉ part) ->
      (forall name, name ∈ names -> LegalName name ∧ slash ∉ name) ->
      forall name, name ∈ parts.foldl (pushComponent true) names -> LegalName name ∧ slash ∉ name := by
  intro parts
  induction parts with
  | nil =>
    intro names _ kept
    exact kept
  | cons part rest ih =>
    intro names clean kept
    exact ih _ (fun other member => clean other (by simp [member]))
      (pushComponent_legal kept (clean part (by simp)))

/-- Normalising an absolute path leaves ordinary names between separators,
and a trailing separator only after a name. -/
theorem lexicallyNormal_absolute (absolute : isAbsolute path) :
    Exists fun names => Exists fun trailing : Bool =>
      (forall name, name ∈ names -> LegalName name ∧ slash ∉ name) ∧
      (trailing -> names ≠ []) ∧
      lexicallyNormal path = render true names trailing := by
  have nonempty : path ≠ [] := by
    intro empty
    simp [empty, isAbsolute] at absolute
  refine ⟨normalNames true (components path),
    keepsTrailing (components path) (normalNames true (components path)), ?_, ?_, ?_⟩
  · intro name member
    exact foldl_pushComponent_legal (components path) [] (not_mem_of_mem_splitOn slash path)
      (by simp) name (List.mem_reverse.mp member)
  · intro trailing empty
    simp [keepsTrailing, empty] at trailing
  · simp [lexicallyNormal, nonempty, absolute, render]

/-! ## Comparing paths -/

/-- The elements of a path after its root: its nonempty components, and an
empty one for a trailing separator after a name. -/
def elements : List Str :=
  let names := (components path).filter (fun name => name ≠ [])
  names ++ (if path.getLast? = some slash ∧ names ≠ [] then [[]] else [])

/-- `operator==` of `std::filesystem::path`, which compares root and elements
rather than text. -/
def samePath (first second : Str) : Bool :=
  isAbsolute first == isAbsolute second && elements first == elements second

example : samePath (str "/a//b") (str "/a/b") = true := by decide
example : samePath (str "/a/b/") (str "/a/b") = false := by decide

end Foundation
end Vaulthalla
