import Vaulthalla.Foundation.RootedPath

namespace Vaulthalla
namespace Foundation

open List

/-!
# Relative paths

`operator/`, `filename` and `lexically_relative` of `std::filesystem::path`,
on texts.  A text is written from its names and a trailing separator; joined
below a root and made relative to that root again it is the same text.

Resolving a relative path first and reading it below a name afterwards gives
the names that reading it below that name gives at once.
-/

/-- `operator/`: an absolute second path replaces the first. -/
def appendPath (first second : Str) : Str :=
  if isAbsolute second then second
  else if first = [] ∨ first.getLast? = some slash then first ++ second
  else first ++ slash :: second

/-- `path.filename()`: the text after the last separator. -/
def filename (path : Str) : Str :=
  (components path).getLastD []

/-- What is left of two lists after their common start. -/
def dropCommon : List Str -> List Str -> List Str × List Str
  | first :: rest, second :: others => if first = second then dropCommon rest others else (first :: rest, second :: others)
  | firsts, seconds => (firsts, seconds)

variable (names : List Str)

/-- The number of steps up that the names of a base ask for. -/
def stepsUp : Int :=
  names.foldl (fun steps name =>
    if name = dotDot then steps - 1 else if name ≠ [] ∧ name ≠ dot then steps + 1 else steps) 0

/-- `path.lexically_relative(base)`. -/
def lexicallyRelative (path base : Str) : Str :=
  if isAbsolute path ≠ isAbsolute base then []
  else
    let rest := dropCommon (elements path) (elements base)
    if rest.1 = [] ∧ rest.2 = [] then dot
    else
      let steps := stepsUp rest.2
      if steps = 0 ∧ (rest.1 = [] ∨ rest.1.head? = some []) then dot
      else if steps < 0 then []
      else [slash].intercalate (replicate steps.toNat dotDot ++ rest.1)

example : lexicallyRelative (str "/a/b/../c") (str "/a") = str "b/../c" := by decide +kernel
example : lexicallyRelative (str "/a/d/") (str "/a/b/c") = str "../../d/" := by decide +kernel
example : appendPath (str "/a") (str "/b") = str "/b" := by decide +kernel

theorem appendPath_slash {path : Str} (relative : isAbsolute path = false) : appendPath [slash] path = slash :: path := by
  simp [appendPath, relative]

theorem components_clean (path : Str) : forall part, part ∈ components path -> slash ∉ part :=
  not_mem_of_mem_splitOn slash path

/-! ## Written paths -/

variable (trailing : Bool)

/-- The empty component behind a trailing separator. -/
def trailingPart : List Str :=
  if trailing then [[]] else []

theorem render_true : render true names trailing = slash :: render false names trailing := by
  simp [render]

variable {names root parts : List Str}

section

variable (nonempty : names ≠ [])

include nonempty

theorem rooted_eq_render : rooted names = slash :: render false names false := by
  rw [rooted, if_neg nonempty, flatMap_slash_eq nonempty]
  simp [render]

variable (segments : forall name, name ∈ names -> SegmentName name)

include segments

variable (trailing : Bool)

theorem components_render : components (render false names trailing) = names ++ trailingPart trailing := by
  have parts : components ([slash].intercalate names) = names :=
    splitOn_intercalate slash (fun name inside => (segments name inside).2) nonempty
  cases trailing with
  | false => simpa [render, trailingPart] using parts
  | true =>
    have joined : render false names true = [slash].intercalate names ++ slash :: [] := by simp [render]
    rw [joined, components_append_slash, parts]
    rfl

theorem head_components_render : (components (render false names trailing)).head? ≠ some [] := by
  rw [components_render nonempty segments]
  cases names with
  | nil => exact absurd rfl nonempty
  | cons name rest => simpa using (segments name mem_cons_self).1

theorem render_ne_nil : render false names trailing ≠ [] := by
  intro empty
  exact head_components_render nonempty segments trailing (by rw [empty]; rfl)

theorem isAbsolute_render : isAbsolute (render false names trailing) = false := by
  cases absolute : isAbsolute (render false names trailing) with
  | false => rfl
  | true =>
    rcases (isAbsolute_iff _).mp absolute with ⟨rest, text⟩
    exact absurd (by rw [text, components_cons_slash]; rfl) (head_components_render nonempty segments trailing)

/-- A text that ends in a separator has an empty last component. -/
theorem getLast_render : (slash :: render false names false).getLast? ≠ some slash := by
  intro last
  rcases getLast?_eq_some_iff.mp last with ⟨start, text⟩
  have parts : components (slash :: render false names false) = components start ++ [[]] := by
    rw [text, components_append_slash]
    rfl
  rw [components_cons_slash, components_render nonempty segments, trailingPart] at parts
  simp only [Bool.false_eq_true, if_false, append_nil] at parts
  have same : [] = names.getLast nonempty := by
    have ends := congrArg getLast? parts
    rw [getLast?_append, getLast?_cons, getLast?_eq_some_getLast nonempty] at ends
    simpa using ends.symm
  exact (segments _ (getLast_mem nonempty)).1 same.symm

theorem elements_render : elements (slash :: render false names trailing) = names ++ trailingPart trailing := by
  have kept : (components (slash :: render false names trailing)).filter (fun name => name ≠ []) = names := by
    rw [components_cons_slash, components_render nonempty segments]
    have whole : names.filter (fun name => name ≠ []) = names :=
      filter_eq_self.mpr fun name inside => by simpa using (segments name inside).1
    cases trailing with
    | false | true => simpa [trailingPart] using whole
  unfold elements
  simp only [kept]
  cases trailing with
  | false => simp [trailingPart, getLast_render nonempty segments]
  | true =>
    have last : (slash :: render false names true).getLast? = some slash := by
      rw [getLast?_eq_some_iff]
      exact ⟨slash :: [slash].intercalate names, by simp [render]⟩
    simp [trailingPart, last, nonempty]

theorem namesOf_render : namesOf (slash :: render false names trailing) = names := by
  have kept : names.filter (fun name => name ≠ []) = names :=
    filter_eq_self.mpr fun name inside => by simpa using (segments name inside).1
  rw [namesOf_cons_slash, namesOf, components_render nonempty segments, filter_append, kept]
  cases trailing <;> simp [trailingPart]

theorem elements_rooted : elements (rooted names) = names := by
  rw [rooted_eq_render nonempty, elements_render nonempty segments]
  simp [trailingPart]

theorem filename_render :
    filename (slash :: render false names trailing) = if trailing then [] else names.getLast nonempty := by
  rw [filename, components_cons_slash, components_render nonempty segments, getLastD_cons,
    getLastD_eq_getLast?, getLast?_append, getLast?_eq_some_getLast nonempty]
  cases trailing with
  | false | true => simp [trailingPart]

end

/-- A text below a root, written from all the names. -/
theorem appendPath_render (below : root ≠ []) (rootSegments : forall name, name ∈ root -> SegmentName name)
    (nonempty : names ≠ []) (segments : forall name, name ∈ names -> SegmentName name) (trailing : Bool) :
    appendPath (rooted root) (render false names trailing) = slash :: render false (root ++ names) trailing := by
  have hasName : ¬ (rooted root = [] ∨ (rooted root).getLast? = some slash) := by
    rw [rooted_eq_render below]
    exact not_or.mpr ⟨by simp, getLast_render below rootSegments⟩
  rw [appendPath, isAbsolute_render nonempty segments, if_neg (by simp), if_neg hasName]
  have joined : rooted root ++ slash :: [slash].intercalate names = slash :: [slash].intercalate (root ++ names) := by
    rw [← flatMap_slash_eq nonempty, ← rooted_append below, rooted, if_neg (by simp [below]),
      flatMap_slash_eq (by simp [below])]
  have whole := congrArg (fun text => text ++ if trailing then [slash] else []) joined
  simpa [render] using whole

/-! ## Relative to a root -/

theorem dropCommon_append (root rest : List Str) : dropCommon (root ++ rest) root = (rest, []) := by
  induction root with
  | nil => cases rest <;> rfl
  | cons name others ih => simpa [dropCommon] using ih

section

variable (below : root ≠ []) (rootSegments : forall name, name ∈ root -> SegmentName name)

include below rootSegments

theorem lexicallyRelative_render (nonempty : names ≠ []) (segments : forall name, name ∈ names -> SegmentName name)
    (trailing : Bool) :
    lexicallyRelative (slash :: render false (root ++ names) trailing) (rooted root) = render false names trailing := by
  have all : forall name, name ∈ root ++ names -> SegmentName name := fun name inside =>
    (mem_append.mp inside).elim (rootSegments name) (segments name)
  have parts : dropCommon (elements (slash :: render false (root ++ names) trailing)) (elements (rooted root)) =
      (names ++ trailingPart trailing, []) := by
    rw [elements_render (by simp [below]) all, elements_rooted below rootSegments, append_assoc, dropCommon_append]
  have absolute : isAbsolute (slash :: render false (root ++ names) trailing) = isAbsolute (rooted root) := by
    rw [isAbsolute_rooted]
    simp [isAbsolute]
  have notEmpty : names ++ trailingPart trailing ≠ [] := by simp [nonempty]
  have firstName : (names ++ trailingPart trailing).head? ≠ some [] := by
    rw [← components_render nonempty segments]
    exact head_components_render nonempty segments trailing
  have text : [slash].intercalate (names ++ trailingPart trailing) = render false names trailing := by
    rw [← components_render nonempty segments]
    exact intercalate_splitOn slash
  unfold lexicallyRelative
  rw [if_neg (not_not_intro absolute)]
  simp only [parts, notEmpty, false_and, if_false, firstName, or_self, and_false]
  simpa [stepsUp] using text

/-- A root is written as a dot, relative to itself. -/
theorem lexicallyRelative_self (trailing : Bool) :
    lexicallyRelative (slash :: render false root trailing) (rooted root) = dot := by
  have parts : dropCommon (elements (slash :: render false root trailing)) (elements (rooted root)) =
      (trailingPart trailing, []) := by
    rw [elements_render below rootSegments, elements_rooted below rootSegments, dropCommon_append]
  have absolute : isAbsolute (slash :: render false root trailing) = isAbsolute (rooted root) := by
    rw [isAbsolute_rooted]
    simp [isAbsolute]
  unfold lexicallyRelative
  rw [if_neg (not_not_intro absolute)]
  cases trailing with
  | false => simp [parts, trailingPart]
  | true => simp [parts, trailingPart, stepsUp]

end

theorem stepsUp_of_legal (legal : forall name, name ∈ names -> LegalName name) : stepsUp names = names.length := by
  have counted : forall (rest : List Str) (steps : Int), (forall name, name ∈ rest -> LegalName name) ->
      rest.foldl (fun steps name =>
        if name = dotDot then steps - 1 else if name ≠ [] ∧ name ≠ dot then steps + 1 else steps) steps =
          steps + rest.length := by
    intro rest
    induction rest with
    | nil => simp
    | cons name others ih =>
      intro steps legalRest
      rcases legalRest name mem_cons_self with ⟨nonempty, notDot, ordinary⟩
      rw [foldl_cons, ih _ fun other inside => legalRest other (mem_cons_of_mem name inside)]
      simp only [ordinary, if_false, nonempty, notDot, ne_eq, not_false_eq_true, and_self, if_true, length_cons]
      omega
  simpa [stepsUp] using counted names 0 legal

/-- The root of everything lies above every other root. -/
theorem lexicallyRelative_slash (below : root ≠ []) (legal : forall name, name ∈ root -> LegalName name)
    (clean : forall name, name ∈ root -> slash ∉ name) : dotDot <+: lexicallyRelative [slash] (rooted root) := by
  have segments : forall name, name ∈ root -> SegmentName name := fun name inside =>
    ⟨(legal name inside).1, clean name inside⟩
  have parts : dropCommon (elements [slash]) (elements (rooted root)) = ([], root) := by
    rw [elements_rooted below segments]
    rfl
  have absolute : isAbsolute [slash] = isAbsolute (rooted root) := by
    rw [isAbsolute_rooted]
    rfl
  have positive : 0 < root.length := length_pos_of_ne_nil below
  unfold lexicallyRelative
  rw [if_neg (not_not_intro absolute)]
  simp only [parts, below, and_false, if_false, stepsUp_of_legal legal]
  rw [if_neg (by omega), if_neg (by omega)]
  cases root with
  | nil => exact absurd rfl below
  | cons name rest =>
    rw [append_nil, length_cons, Int.toNat_natCast, replicate_succ]
    cases replicate rest.length dotDot with
    | nil => exact ⟨[], by simp⟩
    | cons other others => exact ⟨_, by rw [intercalate_cons_cons]; rfl⟩

/-! ## Normal forms of relative paths -/

/-- Whether a text ends in a separator or in a component that normalisation drops. -/
def endsOpen (parts : List Str) : Bool :=
  parts.getLastD [] == [] || parts.getLastD [] == dot || parts.getLastD [] == dotDot

theorem keepsTrailing_eq (parts names : List Str) :
    keepsTrailing parts names = (endsOpen parts && !names.isEmpty && names.getLastD [] != dotDot) :=
  rfl

theorem settled_normalNames (clean : forall part, part ∈ parts -> slash ∉ part) :
    Settled (normalNames false parts).reverse := by
  rw [normalNames, reverse_reverse]
  exact settled_foldl trivial clean

theorem segment_normalNames (clean : forall part, part ∈ parts -> slash ∉ part) :
    forall name, name ∈ normalNames false parts -> SegmentName name :=
  fun name inside => (segment_of_settled (settled_normalNames clean) name (mem_reverse.mpr inside)).1

theorem lexicallyNormal_relative {path : Str} (nonempty : path ≠ []) (relative : isAbsolute path = false) :
    lexicallyNormal path =
      if normalNames false (components path) = [] then dot
      else render false (normalNames false (components path))
        (keepsTrailing (components path) (normalNames false (components path))) := by
  unfold lexicallyNormal
  rw [if_neg nonempty]
  simp only [relative]
  by_cases none : normalNames false (components path) = []
  · rw [if_pos none, none]
    simp [render, keepsTrailing, intercalate]
  · rw [if_neg none, if_neg]
    exact render_ne_nil none (segment_normalNames (components_clean path)) _

theorem endsOpen_append_trailing : endsOpen (names ++ trailingPart trailing) = (trailing || endsOpen names) := by
  cases trailing with
  | false => simp [trailingPart]
  | true => simp [trailingPart, endsOpen]

theorem normalNames_append_trailing (absolute : Bool) (names : List Str) (trailing : Bool) :
    normalNames absolute (names ++ trailingPart trailing) = normalNames absolute names := by
  cases trailing with
  | false => simp [trailingPart]
  | true =>
    simp only [trailingPart, if_true, normalNames, foldl_append, foldl_cons, foldl_nil]
    rfl

theorem lexicallyNormal_render (nonempty : names ≠ []) (segments : forall name, name ∈ names -> SegmentName name)
    (trailing : Bool) :
    lexicallyNormal (render false names trailing) =
      if normalNames false names = [] then dot
      else render false (normalNames false names)
        ((trailing || endsOpen names) && (normalNames false names).getLastD [] != dotDot) := by
  rw [lexicallyNormal_relative (render_ne_nil nonempty segments trailing) (isAbsolute_render nonempty segments trailing),
    components_render nonempty segments, normalNames_append_trailing, keepsTrailing_eq, endsOpen_append_trailing]
  by_cases none : normalNames false names = []
  · rw [if_pos none, if_pos none]
  · have present : (normalNames false names).isEmpty = false := by simpa using none
    rw [if_neg none, if_neg none, present, Bool.not_false, Bool.and_true]

theorem endsOpen_settled (settled : Settled names.reverse) (nonempty : names ≠ []) :
    endsOpen names = (names.getLastD [] == dotDot) := by
  have last : names.getLastD [] = names.getLast nonempty := by
    rw [getLastD_eq_getLast?, getLast?_eq_some_getLast nonempty]
    rfl
  rcases segment_of_settled settled _ (mem_reverse.mpr (getLast_mem nonempty)) with ⟨segment, notDot⟩
  rw [endsOpen, last, beq_eq_false_iff_ne.mpr segment.1, beq_eq_false_iff_ne.mpr notDot]
  simp

/-- A settled list of names is written in normal form. -/
theorem lexicallyNormal_settled (settled : Settled names.reverse) (nonempty : names ≠ []) {trailing : Bool}
    (stays : trailing -> names.getLastD [] ≠ dotDot) :
    lexicallyNormal (render false names trailing) = render false names trailing := by
  have segments : forall name, name ∈ names -> SegmentName name := fun name inside =>
    (segment_of_settled settled name (mem_reverse.mpr inside)).1
  have again : normalNames false names = names := by
    have resolved := foldl_of_settled settled
    rw [reverse_reverse] at resolved
    rw [normalNames, resolved, reverse_reverse]
  rw [lexicallyNormal_render nonempty segments, again, if_neg nonempty, endsOpen_settled settled nonempty]
  cases trailing with
  | false => rw [Bool.false_or, bne, Bool.and_not_self]
  | true => rw [Bool.true_or, Bool.true_and, bne_iff_ne.mpr (stays rfl)]

/-- The normal form of a relative path is its own normal form. -/
theorem lexicallyNormal_twice (nonempty : names ≠ []) (segments : forall name, name ∈ names -> SegmentName name)
    (trailing : Bool) :
    lexicallyNormal (lexicallyNormal (render false names trailing)) = lexicallyNormal (render false names trailing) := by
  rw [lexicallyNormal_render nonempty segments]
  by_cases none : normalNames false names = []
  · rw [if_pos none]
    decide
  · rw [if_neg none]
    apply lexicallyNormal_settled (settled_normalNames fun name inside => (segments name inside).2) none
    intro stays
    rw [Bool.and_eq_true] at stays
    simpa using stays.2

/-! ## Reading a path below a name -/

theorem normalNames_cons {name : Str} (legal : LegalName name) (parts : List Str) :
    normalNames false (name :: parts) = (parts.foldl (pushComponent false) [name]).reverse := by
  rw [normalNames, foldl_cons, pushComponent_of_legal false [] legal]

/-- A resolved path, read after other names, gives what the path itself gives there. -/
theorem foldl_normalNames (clean : forall part, part ∈ parts -> slash ∉ part) (names : List Str) :
    (normalNames false parts).foldl (pushComponent false) names = parts.foldl (pushComponent false) names := by
  induction parts using reverseRecOn with
  | nil => rfl
  | append_singleton rest part ih =>
    have cleanRest : forall other, other ∈ rest -> slash ∉ other := fun other inside => clean other (by simp [inside])
    have before := ih cleanRest
    have settled : Settled (rest.foldl (pushComponent false) []) := settled_foldl trivial cleanRest
    rw [normalNames] at before
    rw [normalNames, foldl_append, foldl_append, ← before]
    generalize rest.foldl (pushComponent false) [] = kept at settled
    simp only [foldl_cons, foldl_nil]
    by_cases dropped : part = [] ∨ part = dot
    · simp [pushComponent, dropped]
    · by_cases climbs : part = dotDot
      · subst climbs
        cases kept with
        | nil => rfl
        | cons name others =>
          by_cases same : name = dotDot
          · simp [pushComponent, dropped, same]
          · rcases settled with ⟨_, _, nonempty, notDot, _⟩
            have pops : forall below : List Str, pushComponent false (name :: below) dotDot = below := by
              intro below
              exact if_neg same
            rw [pops, reverse_cons, foldl_append, foldl_cons, foldl_nil,
              pushComponent_of_legal false _ ⟨nonempty, notDot, same⟩, pops]
      · simp [pushComponent, dropped, climbs]

/-- Names that do not start by climbing do not climb. -/
theorem dotDot_not_mem_of_settled {first : Str} {rest : List Str} (settled : Settled (first :: rest).reverse)
    (ordinary : first ≠ dotDot) : dotDot ∉ first :: rest := by
  have bottom : forall names : List Str, Settled names -> dotDot ∈ names -> names.getLastD [] = dotDot := by
    intro names
    induction names with
    | nil => simp
    | cons name others ih =>
      rintro ⟨below, _, _, _, order⟩ inside
      cases others with
      | nil => exact (mem_singleton.mp inside).symm
      | cons second further =>
        have later : dotDot ∈ second :: further := by
          rcases mem_cons.mp inside with same | later
          · have head : second = dotDot := order same.symm
            simp [head]
          · exact later
        have last := ih below later
        simpa using last
  intro inside
  have last := bottom _ settled (mem_reverse.mpr inside)
  exact ordinary (by simpa using last)

end Foundation
end Vaulthalla
