import Mathlib.Algebra.Order.Group.Nat
import Vaulthalla.Glob.Traversal

namespace Vaulthalla
namespace Glob

open Foundation Language Backtracking List

/-!
# Patterns written from names

A path that is used as a pattern may hold wildcard bytes in its names.  The
pattern then still matches the path, since every wildcard matches the bytes
that write it; and followed by `/**` it matches all that lies below the path.
What such a pattern matches besides depends on its wildcards: only `**` reaches
past a separator, so without one a pattern matches texts with as many
separators as its own.
-/

namespace Tokenizer

/-! ## Texts that are accepted as patterns -/

def tripleStar : Str := [starByte, starByte, starByte]

variable {byte : UInt8} {first second word source rest : Str}

/-- A word without a byte does not reach across that byte. -/
theorem prefix_of_append_cons (absent : byte ∉ word) (starts : word <+: first ++ byte :: second) : word <+: first := by
  induction first generalizing word with
  | nil =>
    cases word with
    | nil => exact nil_prefix
    | cons head rest =>
      have same : head = byte := (cons_prefix_cons.mp starts).1
      exact absurd (same ▸ mem_cons_self) absent
  | cons next further ih =>
    cases word with
    | nil => exact nil_prefix
    | cons head rest =>
      rcases cons_prefix_cons.mp starts with ⟨same, later⟩
      have restAbsent : byte ∉ rest := fun inside => absent (mem_cons_of_mem head inside)
      exact cons_prefix_cons.mpr ⟨same, ih restAbsent later⟩

theorem infix_append_cons_iff (absent : byte ∉ word) :
    word <:+: first ++ byte :: second ↔ word <:+: first ∨ word <:+: second := by
  constructor
  · intro inside
    induction first with
    | nil =>
      rcases infix_cons_iff.mp inside with starts | later
      · exact .inl (prefix_of_append_cons absent starts).isInfix
      · exact .inr later
    | cons next further ih =>
      rcases infix_cons_iff.mp inside with starts | later
      · exact .inl (prefix_of_append_cons absent starts).isInfix
      · rcases ih later with inFirst | inSecond
        · exact .inl (infix_cons_iff.mpr (.inr inFirst))
        · exact .inr inSecond
  · rintro (inFirst | inSecond)
    · exact inFirst.trans (infix_append [] first (byte :: second))
    · exact inSecond.trans ⟨first ++ [byte], [], by simp⟩

theorem tripleStar_replicate (stars : Nat) : tripleStar <:+: replicate stars starByte ↔ 2 < stars := by
  constructor
  · intro inside
    have long : 3 ≤ stars := by simpa [tripleStar] using inside.length_le
    exact long
  · intro long
    have parts : stars = 3 + (stars - 3) := by omega
    rw [parts, ← replicate_append_replicate]
    exact infix_append [] _ _

/-- A run of stars that is under way counts as if it stood before the text. -/
theorem validateFrom_eq_ok_iff (index stars : Nat) (pattern : Str) :
    validateFrom index stars pattern = .ok () ↔
      backslash ∉ pattern ∧ ¬ tripleStar <:+: replicate stars starByte ++ pattern := by
  induction pattern generalizing index stars with
  | nil =>
    rw [append_nil, tripleStar_replicate]
    by_cases long : stars > 2
    · simp [validateFrom, long]
    · simp [validateFrom, long]
  | cons byte rest ih =>
    by_cases star : byte = starByte
    · subst star
      have moved : replicate (stars + 1) starByte ++ rest = replicate stars starByte ++ starByte :: rest := by
        rw [replicate_succ', append_assoc, singleton_append]
      have other : backslash ≠ starByte := by decide
      rw [validateFrom, if_pos rfl, ih, moved, mem_cons, not_or]
      simp [other]
    · have absent : byte ∉ tripleStar := by simpa [tripleStar] using star
      rw [validateFrom, if_neg star, infix_append_cons_iff absent, tripleStar_replicate, mem_cons, not_or]
      by_cases long : stars > 2
      · simp [long]
      · by_cases escape : byte = backslash
        · simp [long, escape]
        · simp [long, escape, ih, Ne.symm escape]

theorem validate_eq_ok_iff (pattern : Str) :
    validate pattern = .ok () ↔ isAbsolute pattern ∧ backslash ∉ pattern ∧ ¬ tripleStar <:+: pattern := by
  cases pattern with
  | nil => simp [validate, isAbsolute]
  | cons first rest =>
    by_cases rooted : first = Foundation.slash
    · simp [validate, rooted, isAbsolute, validateFrom_eq_ok_iff]
    · simp [validate, rooted, isAbsolute]

theorem parse_of_valid (absolute : isAbsolute source) (noEscape : backslash ∉ source)
    (noRun : ¬ tripleStar <:+: source) : parse source = .ok { source := source, tokens := parseFrom [] source } := by
  have valid : validate source = .ok () := (validate_eq_ok_iff source).mpr ⟨absolute, noEscape, noRun⟩
  simp [parse, valid, bind, Except.bind, pure, Except.pure]

theorem valid_of_parse {pattern : Pattern} (parsed : parse source = .ok pattern) :
    backslash ∉ source ∧ ¬ tripleStar <:+: source := by
  cases valid : validate source with
  | error message => simp [parse, valid, bind, Except.bind] at parsed
  | ok done => exact ((validate_eq_ok_iff source).mp valid).2

/-! ## Reading one byte -/

theorem parseFrom_ordinary (ordinary : isSpecial byte = false) (buffer rest : Str) :
    parseFrom buffer (byte :: rest) = parseFrom (buffer ++ [byte]) rest := by
  rw [parseFrom.eq_def]
  simp [ordinary]

theorem parseFrom_question (buffer rest : Str) :
    parseFrom buffer (questionByte :: rest) = pushLiteralIfNeeded buffer ++ .question :: parseFrom [] rest := by
  rw [parseFrom.eq_def]
  rfl

theorem parseFrom_doubleStar (buffer rest : Str) :
    parseFrom buffer (starByte :: starByte :: rest) =
      pushLiteralIfNeeded buffer ++ .doubleStar :: parseFrom [] rest := by
  rfl

theorem parseFrom_star (single : rest.head? ≠ some starByte) (buffer : Str) :
    parseFrom buffer (starByte :: rest) = pushLiteralIfNeeded buffer ++ .star :: parseFrom [] rest := by
  cases rest with
  | nil =>
    rfl
  | cons next further =>
    have different : next ≠ starByte := by simpa using single
    rw [parseFrom.eq_def]
    simp [isSpecial, different]
    rfl

/-- A pattern is cut at each of its separators. -/
theorem parseFrom_append_slash (buffer first second : Str) :
    parseFrom buffer (first ++ Foundation.slash :: second) =
      parseFrom buffer first ++ .slash :: parseFrom [] second := by
  fun_induction parseFrom buffer first with
  | case1 buffer => exact parseFrom_slash buffer second
  | case2 buffer byte rest ordinary ih =>
    rw [cons_append, parseFrom_ordinary (by simpa using ordinary), ih]
  | case3 buffer rest special ih => rw [cons_append, parseFrom_slash, ih, append_assoc, cons_append]
  | case4 buffer rest special notSlash ih =>
    rw [cons_append, parseFrom_question, ih, append_assoc, cons_append]
  | case5 buffer byte special notSlash notQuestion ih =>
    have star := special_cases (by simpa using special) notSlash notQuestion
    have single : (Foundation.slash :: second).head? ≠ some starByte := by
      rw [head?_cons]
      decide
    rw [star, cons_append, nil_append, parseFrom_star single, append_assoc, cons_append]
    exact congrArg _ (congrArg _ (parseFrom_slash [] second))
  | case6 buffer byte special notSlash notQuestion further ih =>
    have star := special_cases (by simpa using special) notSlash notQuestion
    rw [star, cons_append, cons_append, parseFrom_doubleStar, ih, append_assoc, cons_append]
  | case7 buffer byte special notSlash notQuestion next further single ih =>
    have star := special_cases (by simpa using special) notSlash notQuestion
    rw [star, cons_append, parseFrom_star (by simpa using single), ih, append_assoc, cons_append]

/-! ## Double stars -/

def doubleStarText : Str := [starByte, starByte]

theorem infix_tail (inside : doubleStarText <:+: byte :: rest) (single : byte ≠ starByte ∨ rest.head? ≠ some starByte) :
    doubleStarText <:+: rest := by
  rcases infix_cons_iff.mp inside with ⟨further, joined⟩ | later
  · simp only [doubleStarText, cons_append, cons.injEq] at joined
    rcases joined with ⟨star, rfl⟩
    rcases single with other | other
    · exact absurd star.symm other
    · exact absurd rfl other
  · exact later

theorem doubleStar_mem_parseFrom (buffer pattern : Str) (inside : doubleStarText <:+: pattern) :
    Token.doubleStar ∈ parseFrom buffer pattern := by
  fun_induction parseFrom buffer pattern with
  | case1 buffer => exact absurd inside.length_le (by decide)
  | case2 buffer byte rest ordinary ih =>
    have other : byte ≠ starByte := by
      rintro rfl
      exact absurd ordinary (by decide)
    exact ih (infix_tail inside (.inl other))
  | case3 buffer rest special ih => simp [ih (infix_tail inside (.inl (by decide)))]
  | case4 buffer rest special notSlash ih => simp [ih (infix_tail inside (.inl (by decide)))]
  | case5 buffer byte special notSlash notQuestion ih => exact absurd inside.length_le (by simp [doubleStarText])
  | case6 buffer byte special notSlash notQuestion further ih => simp
  | case7 buffer byte special notSlash notQuestion next further single ih =>
    simp [ih (infix_tail inside (.inr (by simpa using single)))]

theorem infix_text_of_doubleStar {tokens : List Token} (inside : Token.doubleStar ∈ tokens) :
    doubleStarText <:+: text tokens := by
  rcases append_of_mem inside with ⟨before, after, rfl⟩
  exact ⟨text before, text after, by simp [doubleStarText, Token.value]; rfl⟩

end Tokenizer

/-! ## The text of a pattern and its language -/

open Tokenizer (text text_cons text_append)

variable {word : Str}

theorem doubleStar_slash_mem {further : List Token} (before : Str) (member : word ∈ language further) :
    before ++ slash :: word ∈ language (.doubleStar :: .slash :: further) := by
  have ends : before ++ [slash] ∈ (1 + endingIn isSlash : Language UInt8) :=
    .inr ⟨before, slash, by decide, rfl⟩
  have joined := append_mem_mul ends member
  rwa [append_assoc, singleton_append] at joined

/-- What the tokens after a text match, the text may precede. -/
theorem text_append_mem_language (tokens others : List Token) (member : word ∈ language others) :
    text tokens ++ word ∈ language (tokens ++ others) := by
  induction tokens with
  | nil => exact member
  | cons token rest ih =>
    rw [text_cons, append_assoc, cons_append]
    cases token with
    | literal name => exact (mem_singleton_mul name _ _).mpr ⟨_, ih, rfl⟩
    | slash => exact (mem_singleton_mul [slash] _ _).mpr ⟨_, ih, rfl⟩
    | question => exact append_mem_mul ⟨questionByte, by decide, rfl⟩ ih
    | star =>
      have segment : Token.star.value ∈ someOutside isSlash := by
        have isText : Token.star.value = [starByte] := rfl
        rw [isText]
        refine ⟨by simp, ?_⟩
        intro byte member
        rw [mem_singleton.mp member]
        rfl
      exact append_mem_mul segment ih
    | doubleStar =>
      by_cases spanning : Exists fun further => rest ++ others = .slash :: further
      · -- The separator after the stars belongs to them.
        rcases spanning with ⟨further, follows⟩
        rw [follows] at ih ⊢
        rcases (mem_singleton_mul [slash] _ _).mp ih with ⟨remaining, later, split⟩
        rw [split]
        exact doubleStar_slash_mem _ later
      · rw [language.eq_7 _ (fun further equal => spanning ⟨further, equal⟩)]
        exact append_mem_mul (mem_anyWord _) ih

/-- Every pattern matches its own text. -/
theorem text_mem_language (tokens : List Token) : text tokens ∈ language tokens := by
  have whole : text tokens ++ [] ∈ language (tokens ++ []) :=
    text_append_mem_language tokens [] nil_mem_one
  simpa using whole

/-- Without `**` a pattern fixes the number of separators. -/
theorem count_slash_of_mem_language {tokens : List Token} (single : Token.doubleStar ∉ tokens)
    (member : word ∈ language tokens) : word.count slash = (text tokens).count slash := by
  induction tokens generalizing word with
  | nil =>
    have empty : word = [] := member
    rw [empty]
    rfl
  | cons token rest ih =>
    have restSingle : Token.doubleStar ∉ rest := fun inside => single (mem_cons_of_mem token inside)
    cases token with
    | literal name =>
      rcases (mem_singleton_mul name _ _).mp member with ⟨remaining, later, rfl⟩
      rw [text_cons, count_append, count_append, ih restSingle later]
      rfl
    | slash =>
      rcases (mem_singleton_mul [slash] _ _).mp member with ⟨remaining, later, rfl⟩
      rw [text_cons, count_append, count_append, ih restSingle later]
      rfl
    | question =>
      rcases mem_mul.mp member with ⟨consumed, ⟨byte, inside, rfl⟩, remaining, later, rfl⟩
      have other : slash ∉ [byte] := by
        intro isByte
        rw [← mem_singleton.mp isByte] at inside
        exact absurd inside (by decide)
      rw [text_cons, count_append, count_append, ih restSingle later,
        count_eq_zero_of_not_mem other]
      rfl
    | star =>
      rcases mem_mul.mp member with ⟨consumed, ⟨_, clean⟩, remaining, later, rfl⟩
      have other : slash ∉ consumed := fun inside => absurd (clean slash inside) (by decide)
      rw [text_cons, count_append, count_append, ih restSingle later,
        count_eq_zero_of_not_mem other]
      rfl
    | doubleStar => exact absurd mem_cons_self single

/-- A `**` reaches past separators: what follows it may be repeated behind another text. -/
theorem repeat_mem_language (before after : List Token) (between : Str) :
    text before ++ (str "**" ++ text after ++ between ++ text after) ∈ language (before ++ .doubleStar :: after) := by
  apply text_append_mem_language
  by_cases spanning : Exists fun further => after = .slash :: further
  · rcases spanning with ⟨further, rfl⟩
    exact doubleStar_slash_mem _ (text_mem_language further)
  · rw [language.eq_7 _ (fun further equal => spanning ⟨further, equal⟩)]
    exact append_mem_mul (mem_anyWord _) (text_mem_language after)

end Glob
end Vaulthalla
