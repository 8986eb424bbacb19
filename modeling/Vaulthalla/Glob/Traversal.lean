import Vaulthalla.Glob.Matcher

namespace Vaulthalla
namespace Glob
namespace Matcher

open Foundation

/-!
# Literal starts and directory corridors

The traversal test and the listing test look only at the literal start of a
pattern, the text before its first wildcard.  This module says what their
answers mean for the paths the pattern matches.

A path in the language starts with the literal start.  Two texts that start
the same path are comparable, so a directory with a matching path below it is
either above the literal start or at or beyond its end.  That is the whole
content of `mayMatchWithin`, and its negative answer is sound for the subtree.
-/

/-! ## What the tests compute -/

variable {path directory : Str} {pattern : Pattern}

theorem isEmpty_of_isAbsolute (absolute : isAbsolute path) : path.isEmpty = false := by
  rcases (isAbsolute_iff path).mp absolute with ⟨rest, rfl⟩
  rfl

theorem matches_iff (pattern : Pattern) (path : Str) :
    Matcher.matches pattern path ↔
      isAbsolute (normalizePath path) ∧ normalizePath path ∈ language pattern.tokens := by
  cases absolute : isAbsolute (normalizePath path) with
  | false => simp [Matcher.matches, absolute]
  | true => simp [Matcher.matches, absolute, isEmpty_of_isAbsolute absolute, matchRecursive_iff]

theorem within_root : within (str "/") = [slash] := rfl

theorem within_of_ne {dir : Str} (different : dir ≠ str "/") : within dir = dir ++ [slash] := by
  rw [within, if_neg different]
  rfl

theorem self_starts_within (dir : Str) : dir <+: within dir := by
  rw [within]
  split
  · exact List.prefix_rfl
  · exact List.prefix_append dir _

theorem within_length_le (dir : Str) : (within dir).length ≤ dir.length + 1 := by
  by_cases root : dir = str "/"
  · rw [root]
    decide
  · rw [within_of_ne root]
    simp

theorem isAncestorOrSelf_iff (ancestor path : Str) :
    isAncestorOrSelf ancestor path ↔ path = ancestor ∨ within ancestor <+: path := by
  by_cases root : ancestor = str "/"
  · subst root
    rw [within_root, isAncestorOrSelf, if_pos rfl]
    cases path with
    | nil => decide
    | cons first rest =>
      simp only [List.isEmpty_cons, Bool.not_false, Bool.true_and, isAbsolute, List.head?_cons,
        beq_iff_eq, Option.some.injEq]
      constructor
      · rintro rfl
        exact .inr ⟨rest, rfl⟩
      · rintro (equal | ⟨other, equal⟩)
        · exact (List.cons.inj equal).1
        · exact (List.cons.inj equal).1.symm
  · rw [within_of_ne root]
    constructor
    · intro holds
      simp only [isAncestorOrSelf, root, if_false] at holds
      split at holds
      · simp at holds
      split at holds
      · simp at holds
      rename_i starts
      simp only [Bool.not_eq_true', Bool.not_eq_false, List.isPrefixOf_iff_prefix] at starts
      rcases starts with ⟨rest, rfl⟩
      cases rest with
      | nil => simp
      | cons next further =>
        have separator : next = slash := by simpa using holds
        exact .inr ⟨further, by simp [separator]⟩
    · rintro (rfl | ⟨rest, rfl⟩)
      · simp [isAncestorOrSelf, root]
      · simp [isAncestorOrSelf, root]

/-- The last four tests of the source never reject: once the directory is not
a strict ancestor of the literal start it is the literal start. -/
theorem requiresTraversalThrough_iff (pattern : Pattern) (directory : Str) :
    requiresTraversalThrough pattern directory ↔
      isAbsolute (normalizePath directory) ∧ Matcher.matches pattern directory = false ∧
        isAncestorOrSelf (normalizePath directory) (literalTraversalPrefix pattern) := by
  cases absolute : isAbsolute (normalizePath directory) with
  | false => simp [requiresTraversalThrough, absolute]
  | true =>
    have nonempty := isEmpty_of_isAbsolute absolute
    cases matched : Matcher.matches pattern directory with
    | true => simp [requiresTraversalThrough, matched]
    | false =>
      cases above : isAncestorOrSelf (normalizePath directory) (literalTraversalPrefix pattern) with
      | false => simp [requiresTraversalThrough, above]
      | true =>
        simp only [requiresTraversalThrough, nonempty, absolute, matched, above, isStrictAncestor]
        by_cases same : normalizePath directory = literalTraversalPrefix pattern
        · rw [same] at nonempty
          cases ends : (literalTraversalPrefix pattern).getLast? == some slash <;>
            simp [same, nonempty]
        · simp [same]

theorem literalTraversalPrefix_starts (absolute : isAbsolute path) (member : path ∈ language pattern.tokens) :
    literalTraversalPrefix pattern <+: path := by
  rcases (mem_language_iff_literal pattern.tokens path).mp member with ⟨remaining, _, equal⟩
  rw [literalTraversalPrefix]
  split
  · rcases (isAbsolute_iff path).mp absolute with ⟨rest, rooted⟩
    exact ⟨rest, rooted.symm⟩
  · exact ⟨remaining, equal.symm⟩

/-! ## The listing test -/

/-- A path at a directory or below it, after normalisation. -/
def AtOrBelow (directory path : Str) : Prop :=
  normalizePath path = directory ∨ within directory <+: normalizePath path

theorem mayMatchWithin_of_matches (matched : Matcher.matches pattern directory) :
    mayMatchWithin pattern directory = true := by
  rcases (matches_iff pattern directory).mp matched with ⟨absolute, _⟩
  simp [mayMatchWithin, absolute, isEmpty_of_isAbsolute absolute, matched]

theorem mayMatchWithin_of_above (absolute : isAbsolute (normalizePath directory))
    (above : isAncestorOrSelf (normalizePath directory) (literalTraversalPrefix pattern)) :
    mayMatchWithin pattern directory = true := by
  cases matched : Matcher.matches pattern directory with
  | true => exact mayMatchWithin_of_matches matched
  | false =>
    have required : requiresTraversalThrough pattern directory :=
      (requiresTraversalThrough_iff pattern directory).mpr ⟨absolute, matched, above⟩
    simp [mayMatchWithin, absolute, isEmpty_of_isAbsolute absolute, required]

/-- A pattern without wildcards matches one path only, and that path is its
literal start. -/
theorem literalTraversalPrefix_of_no_wildcard (literal : pattern.tokens.any Token.isWildcard = false)
    (absolute : isAbsolute path) (member : path ∈ language pattern.tokens) : literalTraversalPrefix pattern = path := by
  rcases (mem_language_iff_literal pattern.tokens path).mp member with ⟨remaining, empty, equal⟩
  rw [afterLiteral_of_no_wildcard literal, language, Language.mem_one] at empty
  rw [empty, List.append_nil] at equal
  rw [literalTraversalPrefix, ← equal, isEmpty_of_isAbsolute absolute]
  rfl

section

variable (normal : normalizePath directory = directory) (absolute : isAbsolute directory = true)
  (inside : AtOrBelow directory path) (silent : mayMatchWithin pattern directory = false)

include normal absolute inside silent

/-- A negative listing answer covers the subtree: the pattern matches no path
at or below the directory. -/
theorem matches_of_mayMatchWithin_false : Matcher.matches pattern path = false := by
  by_contra found
  rw [Bool.not_eq_false] at found
  rcases (matches_iff pattern path).mp found with ⟨pathAbsolute, member⟩
  suffices positive : mayMatchWithin pattern directory by
    rw [positive] at silent
    exact Bool.noConfusion silent
  rw [← normal] at absolute
  rcases inside with same | below
  · apply mayMatchWithin_of_matches
    rw [matches_iff, normal, ← same]
    exact ⟨pathAbsolute, member⟩
  · have starts := literalTraversalPrefix_starts pathAbsolute member
    rw [← normal] at below
    -- The literal start and the text of the subtree both start the path.
    rcases List.prefix_or_prefix_of_prefix starts below with short | long
    · cases wild : pattern.tokens.any Token.isWildcard with
      | true =>
        simp [mayMatchWithin, absolute, isEmpty_of_isAbsolute absolute, wild, List.isPrefixOf_iff_prefix.mpr short]
      | false =>
        have whole := literalTraversalPrefix_of_no_wildcard wild pathAbsolute member
        exact mayMatchWithin_of_above absolute ((isAncestorOrSelf_iff _ _).mpr (.inr (whole ▸ below)))
    · exact mayMatchWithin_of_above absolute ((isAncestorOrSelf_iff _ _).mpr (.inr long))

/-- The same answer also excludes a corridor through any directory of the subtree. -/
theorem requiresTraversalThrough_of_mayMatchWithin_false : requiresTraversalThrough pattern path = false := by
  by_contra required
  rw [Bool.not_eq_false, requiresTraversalThrough_iff, isAncestorOrSelf_iff] at required
  rcases required with ⟨_, _, corridor⟩
  have above : isAncestorOrSelf (normalizePath directory) (literalTraversalPrefix pattern) := by
    rw [isAncestorOrSelf_iff, normal]
    rcases inside with same | below
    · rwa [same] at corridor
    · right
      rcases corridor with equal | further
      · rwa [equal]
      · exact below.trans ((self_starts_within _).trans further)
  rw [← normal] at absolute
  rw [mayMatchWithin_of_above absolute above] at silent
  exact Bool.noConfusion silent

end

end Matcher
end Glob
end Vaulthalla
