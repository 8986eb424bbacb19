import Vaulthalla.Foundation.LexicalPath

namespace Vaulthalla
namespace Glob

open Foundation

/-!
# Glob patterns and their tokenizer

An override names the paths it is about by a glob pattern.  `Tokenizer::parse`
first validates the pattern text and then cuts it at the special bytes `*`,
`?` and `/`.  Only literal tokens carry text of their own, so the token type
has no text field on the other constructors; `Token.value` gives the text the
source stores with each of them.

The tokens are a faithful reading of the text: written one after the other
they give the pattern back, and a literal is a nonempty run of bytes none of
which is special.  Later arguments substitute bytes of the pattern text for
its wildcards and use both facts.
-/

inductive Token
  | literal (value : Str)
  | star | doubleStar | question | slash
deriving DecidableEq

namespace Token

def value : Token -> Str
  | literal text => text
  | star => str "*"
  | doubleStar => str "**"
  | question => str "?"
  | slash => str "/"

/-- `isWildcardToken` of the matcher. -/
def isWildcard : Token -> Bool
  | star | doubleStar | question => true
  | literal _ | slash => false

end Token

structure Pattern where
  source : Str
  tokens : List Token
deriving DecidableEq

namespace Tokenizer

def isSpecial (byte : UInt8) : Bool :=
  byte == starByte || byte == questionByte || byte == slash

/-! ## Validation -/

def emptyMessage : Str := str "Glob pattern cannot be empty"

def relativeMessage : Str := str "Glob pattern must be vault-absolute and begin with '/'"

def escapeMessage (index : Nat) : Str :=
  str "Glob pattern escaping is not supported: found '\\' at index " ++ str (toString index)

def starRunMessage (length : Nat) : Str :=
  str "Glob pattern contains invalid star run of length " ++ str (toString length) ++
    str "; only '*' and '**' are supported"

/-- The scan of `validate` from an index on.  The source counts a run of stars
when it meets its first star and reports the run at once; here `stars` is the
length of the run that ends just before the index, and the run is reported as
soon as it is over. -/
def validateFrom (index stars : Nat) : Str -> Except Str Unit
  | [] => if stars > 2 then .error (starRunMessage stars) else .ok ()
  | byte :: rest =>
    if byte = starByte then validateFrom (index + 1) (stars + 1) rest
    else if stars > 2 then .error (starRunMessage stars)
    else if byte = backslash then .error (escapeMessage index)
    else validateFrom (index + 1) 0 rest

def validate (pattern : Str) : Except Str Unit :=
  match pattern with
  | [] => .error emptyMessage
  | first :: _ =>
    if first ≠ slash then .error relativeMessage
    else validateFrom 0 0 pattern

/-! ## Parsing -/

/-- `pushLiteralIfNeeded`: the tokens a literal buffer stands for. -/
def pushLiteralIfNeeded (buffer : Str) : List Token :=
  if buffer.isEmpty then [] else [.literal buffer]

/-- The scan of `parse`, with the literal read so far.  A star followed by a
second star is one token, and both bytes are consumed. -/
def parseFrom (buffer : Str) : Str -> List Token
  | [] => pushLiteralIfNeeded buffer
  | byte :: rest =>
    if !isSpecial byte then parseFrom (buffer ++ [byte]) rest
    else if byte = slash then
      pushLiteralIfNeeded buffer ++ .slash :: parseFrom [] rest
    else if byte = questionByte then
      pushLiteralIfNeeded buffer ++ .question :: parseFrom [] rest
    else
      match rest with
      | [] => pushLiteralIfNeeded buffer ++ .star :: parseFrom [] []
      | next :: further =>
        if next = starByte then
          pushLiteralIfNeeded buffer ++ .doubleStar :: parseFrom [] further
        else
          pushLiteralIfNeeded buffer ++ .star :: parseFrom [] (next :: further)

def parse (pattern : Str) : Except Str Pattern := do
  validate pattern
  return { source := pattern, tokens := parseFrom [] pattern }

example : parse (str "/docs/**/a?.txt") =
    .ok { source := str "/docs/**/a?.txt",
          tokens := [.slash, .literal (str "docs"), .slash, .doubleStar, .slash,
            .literal (str "a"), .question, .literal (str ".txt")] } := by rfl

example : parse (str "/a***") = .error (starRunMessage 3) := by rfl
example : parse (str "/a\\b") = .error (escapeMessage 2) := by rfl

/-! ## What a parsed pattern is -/

/-- A literal token never holds a special byte and is never empty. -/
def PlainLiteral : Token -> Prop
  | .literal text => text ≠ [] ∧ forall byte, byte ∈ text -> isSpecial byte = false
  | _ => True

/-- The text of a token list. -/
def text (tokens : List Token) : Str :=
  tokens.flatMap Token.value

@[simp] theorem text_nil : text [] = [] := rfl

@[simp] theorem text_cons (token : Token) (rest : List Token) :
    text (token :: rest) = token.value ++ text rest := rfl

@[simp] theorem text_append (first second : List Token) : text (first ++ second) = text first ++ text second := by
  simp [text]

theorem text_pushLiteralIfNeeded (buffer : Str) : text (pushLiteralIfNeeded buffer) = buffer := by
  cases buffer <;> simp [pushLiteralIfNeeded, Token.value]

theorem pushLiteralIfNeeded_plain {buffer : Str} (plain : forall byte, byte ∈ buffer -> isSpecial byte = false) :
    forall token, token ∈ pushLiteralIfNeeded buffer -> PlainLiteral token := by
  intro token member
  cases buffer with
  | nil => simp [pushLiteralIfNeeded] at member
  | cons byte rest =>
    simp only [pushLiteralIfNeeded, List.isEmpty_cons, Bool.false_eq_true, if_false,
      List.mem_singleton] at member
    subst member
    exact ⟨by simp, plain⟩

theorem special_cases {byte : UInt8} (special : isSpecial byte)
    (notSlash : byte ≠ slash) (notQuestion : byte ≠ questionByte) : byte = starByte := by
  simpa [isSpecial, notSlash, notQuestion] using special

/-- The tokens written out are the text that was read. -/
theorem text_parseFrom (buffer pattern : Str) : text (parseFrom buffer pattern) = buffer ++ pattern := by
  fun_induction parseFrom buffer pattern with
  | case1 buffer => simp [text_pushLiteralIfNeeded]
  | case2 buffer byte rest ordinary ih => simp [ih]
  | case3 buffer rest special ih =>
    simp only [text_append, text_cons, text_pushLiteralIfNeeded, ih]
    rfl
  | case4 buffer rest special notSlash ih =>
    simp only [text_append, text_cons, text_pushLiteralIfNeeded, ih]
    rfl
  | case5 buffer byte special notSlash notQuestion ih =>
    have star := special_cases (by simpa using special) notSlash notQuestion
    simp only [text_append, text_cons, text_pushLiteralIfNeeded, ih, star]
    rfl
  | case6 buffer byte special notSlash notQuestion further ih =>
    have star := special_cases (by simpa using special) notSlash notQuestion
    simp only [text_append, text_cons, text_pushLiteralIfNeeded, ih, star]
    rfl
  | case7 buffer byte special notSlash notQuestion next further single ih =>
    have star := special_cases (by simpa using special) notSlash notQuestion
    simp only [text_append, text_cons, text_pushLiteralIfNeeded, ih, star]
    rfl

theorem parseFrom_plain (buffer pattern : Str) :
    (forall byte, byte ∈ buffer -> isSpecial byte = false) ->
      forall token, token ∈ parseFrom buffer pattern -> PlainLiteral token := by
  fun_induction parseFrom buffer pattern with
  | case1 buffer => exact pushLiteralIfNeeded_plain
  | case2 buffer byte rest ordinary ih =>
    intro plain
    apply ih
    intro other member
    rcases List.mem_append.mp member with member | member
    · exact plain other member
    · simpa [List.mem_singleton.mp member] using ordinary
  | case3 buffer rest special ih
  | case4 buffer rest special notSlash ih
  | case5 buffer byte special notSlash notQuestion ih
  | case6 buffer byte special notSlash notQuestion further ih
  | case7 buffer byte special notSlash notQuestion next further single ih =>
    intro plain token member
    rcases List.mem_append.mp member with member | member
    · exact pushLiteralIfNeeded_plain plain token member
    · rcases List.mem_cons.mp member with same | member
      · subst same
        trivial
      · exact ih (by simp) token member

/-- What `parse` promises about a pattern it accepts. -/
structure Parsed (pattern : Pattern) : Prop where
  absolute : Exists fun rest => pattern.source = slash :: rest
  text : text pattern.tokens = pattern.source
  plain : forall token, token ∈ pattern.tokens -> PlainLiteral token

theorem validate_absolute {pattern : Str} (valid : validate pattern = .ok ()) :
    Exists fun rest => pattern = slash :: rest := by
  cases pattern with
  | nil => simp [validate] at valid
  | cons first rest =>
    by_cases same : first = slash
    · exact ⟨rest, by rw [same]⟩
    · simp [validate, same] at valid

theorem parseFrom_slash (buffer rest : Str) :
    parseFrom buffer (slash :: rest) = pushLiteralIfNeeded buffer ++ .slash :: parseFrom [] rest := by
  rw [parseFrom.eq_def]
  rfl

theorem parse_spec {source : Str} {pattern : Pattern} (parsed : parse source = .ok pattern) :
    pattern.source = source ∧ Parsed pattern := by
  cases valid : validate source with
  | error message => simp [parse, valid, bind, Except.bind] at parsed
  | ok done =>
    simp only [parse, valid, bind, Except.bind, pure, Except.pure, Except.ok.injEq] at parsed
    subst parsed
    refine ⟨rfl, validate_absolute valid, ?_, ?_⟩
    · simp [text_parseFrom]
    · exact parseFrom_plain [] source (by simp)

end Tokenizer

end Glob
end Vaulthalla
