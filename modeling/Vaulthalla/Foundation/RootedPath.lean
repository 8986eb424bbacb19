import Vaulthalla.Foundation.LexicalPath

namespace Vaulthalla
namespace Foundation

/-!
# Rooted paths

A list of names is written below a root as one text, each name after a
separator.  Read back at the separators the text gives the names, so two lists
of names are equal when their texts are, and one is a prefix of the other when
its text is the start of the other's, up to a separator.

A dot-dot with no name before it can be kept instead of dropped.  The names
that remain are then settled: resolving them again changes nothing.
-/

/-- The nonempty texts between separators. -/
def namesOf (path : Str) : List Str :=
  (components path).filter (fun name => name ≠ [])

/-- The names below the root, or the root itself. -/
def rooted (names : List Str) : Str :=
  if names = [] then [slash] else names.flatMap (fun name => slash :: name)

/-- A name that can stand between two separators. -/
def SegmentName (name : Str) : Prop :=
  name ≠ [] ∧ slash ∉ name

/-! ## Reading a rooted path -/

theorem components_append_slash (first second : Str) :
    components (first ++ slash :: second) = components first ++ components second :=
  List.splitOn_append_cons_self first second

theorem namesOf_append_slash (first second : Str) :
    namesOf (first ++ slash :: second) = namesOf first ++ namesOf second := by
  simp only [namesOf, components_append_slash, List.filter_append]

theorem namesOf_cons_slash (path : Str) : namesOf (slash :: path) = namesOf path :=
  namesOf_append_slash [] path

theorem namesOf_of_segment {name : Str} (segment : SegmentName name) : namesOf name = [name] := by
  have split : ([slash].intercalate [name]).splitOn slash = [name] :=
    List.splitOn_intercalate slash (by simpa using segment.2) (by simp)
  have whole : components name = [name] := by simpa [components] using split
  simp [namesOf, whole, segment.1]

variable {names : List Str}

theorem namesOf_flatMap (segments : forall name, name ∈ names -> SegmentName name) :
    namesOf (names.flatMap fun name => slash :: name) = names := by
  induction names with
  | nil => rfl
  | cons name rest ih =>
    have first : SegmentName name := segments name List.mem_cons_self
    have others := ih fun later inside => segments later (List.mem_cons_of_mem name inside)
    cases rest with
    | nil => simpa [namesOf_cons_slash] using namesOf_of_segment first
    | cons second further =>
      have joined : (name :: second :: further).flatMap (fun part => slash :: part) =
          slash :: (name ++ slash :: (second ++ further.flatMap fun part => slash :: part)) := by simp
      have tail : (second :: further).flatMap (fun part => slash :: part) =
          slash :: (second ++ further.flatMap fun part => slash :: part) := by simp
      rw [tail, namesOf_cons_slash] at others
      rw [joined, namesOf_cons_slash, namesOf_append_slash, namesOf_of_segment first, others]
      rfl

theorem namesOf_rooted (segments : forall name, name ∈ names -> SegmentName name) : namesOf (rooted names) = names := by
  unfold rooted
  split
  · rename_i empty
    rw [empty]
    rfl
  · exact namesOf_flatMap segments

theorem rooted_append (nonempty : names ≠ []) (others : List Str) :
    rooted (names ++ others) = rooted names ++ others.flatMap fun name => slash :: name := by
  simp [rooted, nonempty]

theorem flatMap_slash_eq (nonempty : names ≠ []) :
    (names.flatMap fun name => slash :: name) = slash :: [slash].intercalate names := by
  induction names with
  | nil => exact absurd rfl nonempty
  | cons name rest ih =>
    cases rest with
    | nil => simp
    | cons second further =>
      rw [List.flatMap_cons, ih (by simp)]
      simp [List.intercalate]

/-- Ordinary names below the root are in normal form. -/
theorem lexicallyNormal_rooted (legal : forall name, name ∈ names -> LegalName name)
    (clean : forall name, name ∈ names -> slash ∉ name) : lexicallyNormal (rooted names) = rooted names := by
  by_cases empty : names = []
  · subst empty
    decide
  · have parts : components ([slash].intercalate names) = names := List.splitOn_intercalate slash clean empty
    rw [rooted, if_neg empty, flatMap_slash_eq empty]
    apply lexicallyNormal_of_legal
    rw [parts]
    exact legal

theorem isAbsolute_rooted (names : List Str) : isAbsolute (rooted names) := by
  cases names with
  | nil => rfl
  | cons name rest => simp [rooted, isAbsolute]

theorem rooted_eq_slash_iff (segments : forall name, name ∈ names -> SegmentName name) :
    rooted names = [slash] ↔ names = [] := by
  constructor
  · intro same
    have read := namesOf_rooted segments
    rw [same] at read
    exact read.symm
  · intro empty
    rw [empty]
    rfl

/-- A name list starts another when its text starts the other's and a separator, or nothing, follows. -/
theorem prefix_iff_text {root path : List Str} (rootSegments : forall name, name ∈ root -> SegmentName name)
    (pathSegments : forall name, name ∈ path -> SegmentName name) (below : root ≠ []) :
    root <+: path ↔ rooted path = rooted root ∨ Exists fun rest => rooted path = rooted root ++ slash :: rest := by
  constructor
  · rintro ⟨others, rfl⟩
    cases others with
    | nil => exact .inl (by rw [List.append_nil])
    | cons name rest =>
      refine .inr ⟨name ++ rest.flatMap (fun part => slash :: part), ?_⟩
      rw [rooted_append below]
      simp
  · rintro (same | ⟨rest, joined⟩)
    · have read := namesOf_rooted pathSegments
      rw [same, namesOf_rooted rootSegments] at read
      rw [read]
    · have read := namesOf_rooted pathSegments
      rw [joined, namesOf_append_slash, namesOf_rooted rootSegments] at read
      exact ⟨namesOf rest, read⟩

/-! ## Settled names -/

/-- The names kept so far, the last first: ordinary names above dot-dots. -/
def Settled : List Str -> Prop
  | [] => True
  | name :: rest => Settled rest ∧ slash ∉ name ∧ name ≠ [] ∧ name ≠ dot ∧ (name = dotDot -> rest.headD dotDot = dotDot)

theorem settled_push {component : Str} (settled : Settled names) (clean : slash ∉ component) :
    Settled (pushComponent false names component) := by
  unfold pushComponent
  split
  · exact settled
  · rename_i present
    rw [not_or] at present
    split
    · cases names with
      | nil => exact ⟨trivial, clean, present.1, present.2, fun _ => rfl⟩
      | cons name rest =>
        by_cases same : name = dotDot
        · simp only [same, if_true]
          exact ⟨same ▸ settled, clean, present.1, present.2, fun _ => rfl⟩
        · simp only [same, if_false]
          exact settled.1
    · rename_i ordinary
      exact ⟨settled, clean, present.1, present.2, fun isDotDot => absurd isDotDot ordinary⟩

theorem settled_foldl {parts : List Str} (settled : Settled names) (clean : forall part, part ∈ parts -> slash ∉ part) :
    Settled (parts.foldl (pushComponent false) names) := by
  induction parts generalizing names with
  | nil => exact settled
  | cons part rest ih =>
    have first := settled_push settled (clean part List.mem_cons_self)
    exact ih first fun later inside => clean later (List.mem_cons_of_mem part inside)

/-- Resolving settled names again changes nothing. -/
theorem foldl_of_settled (settled : Settled names) : names.reverse.foldl (pushComponent false) [] = names := by
  induction names with
  | nil => rfl
  | cons name rest ih =>
    rcases settled with ⟨below, _, nonempty, notDot, order⟩
    rw [List.reverse_cons, List.foldl_append, ih below]
    by_cases isDotDot : name = dotDot
    · have head := order isDotDot
      subst isDotDot
      cases rest with
      | nil => rfl
      | cons other further =>
        have same : other = dotDot := head
        subst same
        rfl
    · simp [pushComponent, nonempty, notDot, isDotDot]

theorem segment_of_settled (settled : Settled names) : forall name, name ∈ names -> SegmentName name ∧ name ≠ dot := by
  induction names with
  | nil => simp
  | cons first rest ih =>
    rcases settled with ⟨below, clean, nonempty, notDot, _⟩
    intro name inside
    rcases List.mem_cons.mp inside with rfl | later
    · exact ⟨⟨nonempty, clean⟩, notDot⟩
    · exact ih below name later

/-- Empty components take no part in the resolution. -/
theorem foldl_pushComponent_filter (absolute : Bool) (parts names : List Str) :
    (parts.filter fun part => part ≠ []).foldl (pushComponent absolute) names =
      parts.foldl (pushComponent absolute) names := by
  induction parts generalizing names with
  | nil => rfl
  | cons part rest ih =>
    by_cases empty : part = []
    · subst empty
      exact ih names
    · rw [List.filter_cons_of_pos (by simpa using empty), List.foldl_cons, List.foldl_cons, ih]

end Foundation
end Vaulthalla
