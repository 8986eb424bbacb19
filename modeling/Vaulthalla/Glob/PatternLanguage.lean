import Vaulthalla.Glob.Matcher

namespace Vaulthalla
namespace Glob

open Foundation Tokenizer Backtracking

/-!
# What a pattern text matches

The language of a pattern is read off its text, byte by byte, without the
tokens.  The tokens that `parse` makes of the text have the same language, so
`Matcher::matches` accepts exactly the paths that the text describes.
-/

/-- A byte that is not special stands for itself, so a literal run does. -/
def patternLanguage : Str -> Language UInt8
  | [] => 1
  | byte :: rest =>
    if byte = questionByte then oneInSegment * patternLanguage rest
    else if byte ≠ starByte then {[byte]} * patternLanguage rest
    else
      match rest with
      | [] => someOutside isSlash
      | next :: further =>
        if next ≠ starByte then someOutside isSlash * patternLanguage (next :: further)
        else
          match further with
          | [] => anyWord
          | third :: last =>
            if third = slash then (1 + endingIn isSlash) * patternLanguage last
            else anyWord * patternLanguage (third :: last)

theorem singleton_mul_singleton (first second : Str) : ({first} : Language UInt8) * {second} = {first ++ second} := by
  ext word
  rw [mem_singleton_mul]
  constructor
  · rintro ⟨remaining, rfl, rfl⟩
    rfl
  · rintro rfl
    exact ⟨second, rfl, rfl⟩

theorem language_pushLiteralIfNeeded (buffer : Str) (tokens : List Token) :
    language (pushLiteralIfNeeded buffer ++ tokens) = {buffer} * language tokens := by
  cases buffer with
  | nil => exact (one_mul _).symm
  | cons byte rest => rfl

/-- The tokens of a text begin with a separator only if the text does. -/
theorem language_doubleStar {third : UInt8} {last : Str} (notSlash : third ≠ slash) :
    language (.doubleStar :: parseFrom [] (third :: last)) =
      anyWord * language (parseFrom [] (third :: last)) := by
  refine language.eq_7 _ fun rest isSlash => notSlash ?_
  have sameText := text_parseFrom [] (third :: last)
  rw [isSlash] at sameText
  exact (List.cons.inj sameText).1.symm

theorem language_parseFrom (buffer source : Str) :
    language (parseFrom buffer source) = {buffer} * patternLanguage source := by
  have unread {source : Str} (ih : forall buffer, language (parseFrom buffer source) =
      {buffer} * patternLanguage source) : language (parseFrom [] source) = patternLanguage source :=
    (ih []).trans (one_mul _)
  fun_induction patternLanguage source generalizing buffer with
  | case1 =>
    have pushed := language_pushLiteralIfNeeded buffer []
    rwa [List.append_nil] at pushed
  | case2 source ih =>
    have isParse : parseFrom buffer (questionByte :: source) =
        pushLiteralIfNeeded buffer ++ .question :: parseFrom [] source := by
      rw [parseFrom.eq_def]
      rfl
    rw [isParse, language_pushLiteralIfNeeded, language, unread ih]
  | case3 byte source notQuestion notStar ih =>
    by_cases separator : byte = slash
    · rw [separator, parseFrom_slash, language_pushLiteralIfNeeded, language, unread ih]
    · have isParse : parseFrom buffer (byte :: source) = parseFrom (buffer ++ [byte]) source := by
        rw [parseFrom.eq_def]
        simp [isSpecial, separator, notQuestion, notStar]
      rw [isParse, ih, ← singleton_mul_singleton, mul_assoc]
  | case4 byte notQuestion isStar =>
    have isParse : parseFrom buffer [byte] = pushLiteralIfNeeded buffer ++ [.star] := by
      rw [not_not.mp isStar, parseFrom.eq_def]
      rfl
    rw [isParse, language_pushLiteralIfNeeded, language, language, mul_one]
  | case5 byte notQuestion isStar next further notDouble ih =>
    have isParse : parseFrom buffer (byte :: next :: further) =
        pushLiteralIfNeeded buffer ++ .star :: parseFrom [] (next :: further) := by
      rw [not_not.mp isStar, parseFrom.eq_def]
      exact if_neg notDouble
    rw [isParse, language_pushLiteralIfNeeded, language, unread ih]
  | case6 byte notQuestion isStar next isDouble =>
    have isParse : parseFrom buffer [byte, next] = pushLiteralIfNeeded buffer ++ [.doubleStar] := by
      rw [not_not.mp isStar, not_not.mp isDouble, parseFrom.eq_def]
      rfl
    have isLast : language [.doubleStar] = anyWord * 1 := rfl
    rw [isParse, language_pushLiteralIfNeeded, isLast, mul_one]
  | case7 byte notQuestion isStar next isDouble last ih =>
    have isParse : parseFrom buffer (byte :: next :: slash :: last) =
        pushLiteralIfNeeded buffer ++ .doubleStar :: .slash :: parseFrom [] last := by
      rw [not_not.mp isStar, not_not.mp isDouble, parseFrom.eq_def]
      exact congrArg (pushLiteralIfNeeded buffer ++ .doubleStar :: ·) (parseFrom_slash [] last)
    rw [isParse, language_pushLiteralIfNeeded, language, unread ih]
  | case8 byte notQuestion isStar next isDouble third last notSlash ih =>
    have isParse : parseFrom buffer (byte :: next :: third :: last) =
        pushLiteralIfNeeded buffer ++ .doubleStar :: parseFrom [] (third :: last) := by
      rw [not_not.mp isStar, not_not.mp isDouble, parseFrom.eq_def]
      rfl
    rw [isParse, language_pushLiteralIfNeeded, language_doubleStar notSlash, unread ih]

/-- The matcher accepts the paths in the language of the pattern and no others. -/
theorem matches_iff_patternLanguage (source : Str) (valid : validate source = .ok ()) :
    Exists fun pattern => parse source = .ok pattern ∧ forall path, Matcher.normalizePath path = path ->
      isAbsolute path = true -> (Matcher.matches pattern path = true ↔ path ∈ patternLanguage source) := by
  refine ⟨⟨source, parseFrom [] source⟩, by rw [parse, valid]; rfl, fun path normal absolute => ?_⟩
  have notEmpty : path.isEmpty = false := by
    cases path with
    | nil => cases absolute
    | cons => rfl
  have isWalk : Matcher.matches ⟨source, parseFrom [] source⟩ path =
      matchRecursive (parseFrom [] source) path := by
    simp [Matcher.matches, normal, absolute, notEmpty]
  rw [isWalk, matchRecursive_iff, language_parseFrom]
  exact iff_of_eq (congrArg (path ∈ ·) (one_mul _))

theorem matches_iff_patternLanguage_docs : Exists fun pattern => parse (str "/docs/**/a?") = .ok pattern ∧
    (Matcher.matches pattern (str "/docs/old/ab") = true ↔ str "/docs/old/ab" ∈ patternLanguage (str "/docs/**/a?")) := by
  rcases matches_iff_patternLanguage (str "/docs/**/a?") (by decide +kernel) with ⟨pattern, parsed, decides⟩
  exact ⟨pattern, parsed, decides (str "/docs/old/ab") (by decide +kernel) (by decide +kernel)⟩

end Glob
end Vaulthalla
