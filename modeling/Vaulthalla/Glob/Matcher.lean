import Mathlib.Data.List.DropRight
import Vaulthalla.Foundation.Backtracking
import Vaulthalla.Glob.Tokenizer

namespace Vaulthalla
namespace Glob

open Foundation Backtracking

/-!
# Matching paths against glob patterns

`matchRecursive` walks the tokens and the remaining path together.  The source
carries two indices; here the remaining tokens and the remaining path are the
arguments, and the three loops of the wildcard cases are the backtracking
scans of the foundation.

`language` states what a token list is meant to match, as a product of the
languages of its tokens.  The form `**/` is one unit: it stands for zero or
more whole segments, and therefore consumes either nothing or a text that ends
in a separator.  `matchRecursive_iff` connects the two, and every later
argument about patterns is an argument about languages.
-/

def isSlash (byte : UInt8) : Bool :=
  byte == slash

/-- `matchRecursive` on the tokens from `tokenIndex` and the path from `pathIndex`. -/
def matchRecursive : List Token -> Str -> Bool
  | [], path => path.isEmpty
  | .literal text :: rest, path =>
    text.isPrefixOf path && matchRecursive rest (path.drop text.length)
  | .slash :: rest, path =>
    match path with
    | [] => false
    | byte :: remaining => isSlash byte && matchRecursive rest remaining
  | .question :: rest, path =>
    match path with
    | [] => false
    | byte :: remaining => !isSlash byte && matchRecursive rest remaining
  | .star :: rest, path =>
    afterSome isSlash (fun remaining => matchRecursive rest remaining) path
  | .doubleStar :: .slash :: rest, path =>
    matchRecursive rest path ||
      afterStop isSlash (fun remaining => matchRecursive rest remaining) path
  | .doubleStar :: rest, path =>
    anywhere (fun remaining => matchRecursive rest remaining) path

/-! ## The language of a pattern -/

/-- One byte that is not a separator. -/
def oneInSegment : Language UInt8 :=
  { word | Exists fun byte => isSlash byte = false ∧ word = [byte] }

def language : List Token -> Language UInt8
  | [] => 1
  | .literal text :: rest => {text} * language rest
  | .slash :: rest => {[slash]} * language rest
  | .question :: rest => oneInSegment * language rest
  | .star :: rest => someOutside isSlash * language rest
  | .doubleStar :: .slash :: rest => (1 + endingIn isSlash) * language rest
  | .doubleStar :: rest => anyWord * language rest

theorem mem_singleton_mul (text word : Str) (other : Language UInt8) :
    word ∈ ({text} : Language UInt8) * other ↔
      Exists fun remaining => remaining ∈ other ∧ word = text ++ remaining := by
  constructor
  · rintro ⟨consumed, rfl, remaining, member, rfl⟩
    exact ⟨remaining, member, rfl⟩
  · rintro ⟨remaining, member, rfl⟩
    exact ⟨text, rfl, remaining, member, rfl⟩

private theorem literal_step (text path : Str) (accepted : Bool) (other : Language UInt8)
    (decides : accepted ↔ path.drop text.length ∈ other) :
    (text.isPrefixOf path && accepted) = true ↔ path ∈ ({text} : Language UInt8) * other := by
  rw [mem_singleton_mul, Bool.and_eq_true, List.isPrefixOf_iff_prefix, decides]
  constructor
  · rintro ⟨⟨remaining, rfl⟩, member⟩
    rw [List.drop_left] at member
    exact ⟨remaining, member, rfl⟩
  · rintro ⟨remaining, member, rfl⟩
    refine ⟨List.prefix_append text remaining, ?_⟩
    rwa [List.drop_left]

variable (tokens : List Token)

/-- The matcher decides the language of its tokens. -/
theorem matchRecursive_iff (path : Str) : matchRecursive tokens path ↔ path ∈ language tokens := by
  fun_induction matchRecursive tokens path with
  | case1 path => simp [language, Language.mem_one]
  | case2 text rest path ih =>
    exact literal_step text path _ _ ih
  | case3 rest =>
    simp [language, mem_singleton_mul]
  | case4 rest byte remaining ih =>
    rw [language, mem_singleton_mul, Bool.and_eq_true, ih]
    constructor
    · rintro ⟨separator, member⟩
      exact ⟨remaining, member, by simpa [isSlash] using separator⟩
    · rintro ⟨other, member, equal⟩
      rcases equal with ⟨rfl, rfl⟩
      exact ⟨by simp [isSlash], member⟩
  | case5 rest =>
    constructor
    · intro impossible
      simp at impossible
    · rintro ⟨consumed, ⟨byte, _, rfl⟩, remaining, _, joined⟩
      simp at joined
  | case6 rest byte remaining ih =>
    rw [language, Language.mem_mul, Bool.and_eq_true, ih, Bool.not_eq_true']
    constructor
    · rintro ⟨inside, member⟩
      exact ⟨[byte], ⟨byte, inside, rfl⟩, remaining, member, rfl⟩
    · rintro ⟨consumed, ⟨other, inside, rfl⟩, others, member, joined⟩
      rcases joined with ⟨rfl, rfl⟩
      exact ⟨inside, member⟩
  | case7 rest path ih =>
    exact afterSome_iff ih isSlash path
  | case8 rest path ihNone ihSome =>
    rw [language, Bool.or_eq_true, add_mul, one_mul, Language.mem_add, ihNone,
      afterStop_iff ihSome isSlash path]
  | case9 rest path notSlash ih =>
    rw [language.eq_7 rest notSlash]
    exact anywhere_iff ih path

/-! ## The literal start of a pattern -/

/-- The text of the tokens before the first wildcard. -/
def literalText : List Token -> Str
  | [] => []
  | token :: rest => if token.isWildcard then [] else token.value ++ literalText rest

/-- The tokens from the first wildcard on. -/
def afterLiteral : List Token :=
  tokens.dropWhile (fun token => !token.isWildcard)

theorem mem_language_iff_literal (word : Str) :
    word ∈ language tokens ↔
      Exists fun remaining => remaining ∈ language (afterLiteral tokens) ∧
        word = literalText tokens ++ remaining := by
  induction tokens generalizing word with
  | nil => simp [literalText, afterLiteral]
  | cons token rest ih =>
    have skipped text : (Exists fun remaining => remaining ∈ language rest ∧
          word = text ++ remaining) ↔
        Exists fun remaining => remaining ∈ language (afterLiteral rest) ∧
          word = text ++ (literalText rest ++ remaining) := by
      constructor
      · rintro ⟨remaining, member, rfl⟩
        rcases (ih remaining).mp member with ⟨further, later, rfl⟩
        exact ⟨further, later, rfl⟩
      · rintro ⟨further, member, rfl⟩
        exact ⟨_, (ih _).mpr ⟨further, member, rfl⟩, rfl⟩
    cases token with
    | literal text =>
      rw [language, mem_singleton_mul, skipped text]
      simp [literalText, afterLiteral, Token.isWildcard, Token.value]
    | slash =>
      have value : Token.value .slash = [slash] := rfl
      rw [language, mem_singleton_mul, skipped [slash]]
      simp [literalText, afterLiteral, Token.isWildcard, value]
    | star | doubleStar | question => simp [literalText, afterLiteral, Token.isWildcard]

theorem afterLiteral_of_no_wildcard {tokens : List Token}
    (literal : tokens.any Token.isWildcard = false) : afterLiteral tokens = [] := by
  rw [afterLiteral, List.dropWhile_eq_nil_iff]
  intro token member
  have plain := List.any_eq_false.mp literal token member
  simpa using plain

namespace Matcher

/-- `Matcher::normalizePath`. -/
def normalizePath (path : Str) : Str :=
  lexicallyNormal path

/-- `Matcher::matches` for a compiled pattern. -/
def «matches» (pattern : Pattern) (path : Str) : Bool :=
  let normalized := normalizePath path
  if normalized.isEmpty || !isAbsolute normalized then false
  else matchRecursive pattern.tokens normalized

variable (pattern : Pattern)

/-- `literalTraversalPrefix`: the literal start, or the root if it is empty. -/
def literalTraversalPrefix : Str :=
  let lead := literalText pattern.tokens
  if lead.isEmpty then str "/" else lead

def isAncestorOrSelf (ancestor path : Str) : Bool :=
  if ancestor = str "/" then !path.isEmpty && isAbsolute path
  else if ancestor.length > path.length then false
  else if !ancestor.isPrefixOf path then false
  else if ancestor.length = path.length then true
  else path[ancestor.length]? == some slash

def isStrictAncestor (ancestor path : Str) : Bool :=
  ancestor != path && isAncestorOrSelf ancestor path

/-- The text without its trailing separators; one is left if there is nothing else. -/
def popTrailingSlashes (path : Str) : Str :=
  let trimmed := path.rdropWhile isSlash
  if trimmed.isEmpty then str "/" else trimmed

def parentDirectory (path : Str) : Str :=
  if path.isEmpty || path == str "/" then str "/"
  else
    -- Everything through the last separator; empty when there is none.
    let through := (popTrailingSlashes path).rdropWhile (fun byte => !isSlash byte)
    if through.length ≤ 1 then str "/" else through.dropLast

/-- `Matcher::requiresTraversalThrough` for a compiled pattern. -/
def requiresTraversalThrough (directory : Str) : Bool :=
  let dir := normalizePath directory
  if dir.isEmpty || !isAbsolute dir then false
  else if Matcher.matches pattern directory then false
  else
    let lead := literalTraversalPrefix pattern
    if !isAncestorOrSelf dir lead then false
    else if isStrictAncestor dir lead then true
    else if !lead.isEmpty && lead.getLast? == some slash then true
    else
      let normalizedLead :=
        if lead != str "/" && lead.getLast? == some slash then lead.dropLast else lead
      dir == normalizedLead || dir == parentDirectory lead

/-- The text every path below a directory starts with. -/
def within (dir : Str) : Str :=
  if dir = str "/" then dir else dir ++ str "/"

/-- `Matcher::mayMatchWithin`. -/
def mayMatchWithin (directory : Str) : Bool :=
  let dir := normalizePath directory
  if dir.isEmpty || !isAbsolute dir then false
  else if Matcher.matches pattern directory || requiresTraversalThrough pattern directory then true
  else if !pattern.tokens.any Token.isWildcard then false
  else
    let lead := literalTraversalPrefix pattern
    lead.isPrefixOf (within dir) || (within dir).isPrefixOf lead

end Matcher

end Glob
end Vaulthalla
