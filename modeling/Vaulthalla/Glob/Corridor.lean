import Vaulthalla.Glob.Traversal

namespace Vaulthalla
namespace Glob
namespace Matcher

open Foundation Tokenizer Language List

/-!
# Where a traversal corridor leads

`requiresTraversalThrough` opens the directories above the literal start of a
pattern.  Whether such a directory really leads to a matching path depends on
the rest of the pattern.  Replacing each wildcard by ordinary bytes gives a
matching path, and this path is normal when no segment of the pattern text is
empty, a dot or a dot-dot.

One case remains.  When the directory is the literal start itself and does not
end in a separator, the pattern may only extend the last name of the
directory, as `/docs*` does at `/docs`.  A `**` in that position can open a
new segment; a `*` or a `?` cannot, and the corridor then leads past the
directory rather than into it.
-/

/-! ## Filling in the wildcards -/

/-- The byte `a` in place of a wildcard byte of the pattern text. -/
def fillByte (byte : UInt8) : UInt8 :=
  if byte = starByte ∨ byte = questionByte then 97 else byte

/-- A pattern text with its wildcards filled in. -/
def fill (pattern : Str) : Str :=
  pattern.map fillByte

theorem fillByte_eq_slash (byte : UInt8) : fillByte byte = slash ↔ byte = slash := by
  unfold fillByte
  split
  · rename_i wild
    rcases wild with rfl | rfl <;> decide
  · exact Iff.rfl

theorem fillByte_eq_dot (byte : UInt8) : fillByte byte = dotByte ↔ byte = dotByte := by
  unfold fillByte
  split
  · rename_i wild
    rcases wild with rfl | rfl <;> decide
  · exact Iff.rfl

theorem fill_append (first second : Str) : fill (first ++ second) = fill first ++ fill second :=
  map_append

theorem fill_plain {text : Str} (plain : forall byte, byte ∈ text -> isSpecial byte = false) : fill text = text := by
  have fixed : forall byte, byte ∈ text -> fillByte byte = id byte := by
    intro byte member
    have ordinary := plain byte member
    simp only [isSpecial, Bool.or_eq_false_iff, beq_eq_false_iff_ne] at ordinary
    simp [fillByte, ordinary.1.1, ordinary.1.2]
  calc fill text = text.map id := map_congr_left fixed
    _ = text := map_id text

/-- Filling in the wildcards of a parsed pattern gives a text it matches. -/
theorem fill_mem_language (tokens : List Token) :
    (forall token, token ∈ tokens -> Tokenizer.PlainLiteral token) ->
      fill (text tokens) ∈ language tokens := by
  fun_induction language tokens with
  | case1 =>
    intro _
    exact nil_mem_one
  | case2 text rest ih =>
    intro plain
    rw [mem_singleton_mul, text_cons, fill_append]
    have literal : Tokenizer.PlainLiteral (.literal text) := plain _ (by simp)
    exact ⟨_, ih (fun token member => plain token (by simp [member])),
      by rw [Token.value, fill_plain literal.2]⟩
  | case3 rest ih =>
    intro plain
    rw [mem_singleton_mul, text_cons, fill_append]
    exact ⟨_, ih (fun token member => plain token (by simp [member])), rfl⟩
  | case4 rest ih =>
    intro plain
    rw [text_cons, fill_append]
    exact append_mem_mul ⟨97, by decide, rfl⟩
      (ih (fun token member => plain token (by simp [member])))
  | case5 rest ih =>
    intro plain
    rw [text_cons, fill_append]
    have filled : forall byte, byte ∈ fill [starByte] -> isSlash byte = false := by
      intro byte member
      rw [mem_singleton.mp member]
      rfl
    exact append_mem_mul ⟨by decide, filled⟩
      (ih (fun token member => plain token (by simp [member])))
  | case6 rest ih =>
    intro plain
    rw [text_cons, text_cons, ← append_assoc, fill_append]
    exact append_mem_mul (.inr ⟨[97, 97], slash, by decide, rfl⟩)
      (ih (fun token member => plain token (by simp [member])))
  | case7 rest notSlash ih =>
    intro plain
    rw [text_cons, fill_append]
    exact append_mem_mul (Backtracking.mem_anyWord _)
      (ih (fun token member => plain token (by simp [member])))

/-- A leading `**` may also open a new segment. -/
theorem slash_fill_mem_language (rest : List Token)
    (plain : forall token, token ∈ rest -> Tokenizer.PlainLiteral token) :
    slash :: fill (text (.doubleStar :: rest)) ∈ language (.doubleStar :: rest) := by
  by_cases spanning : Exists fun further => rest = .slash :: further
  · rcases spanning with ⟨further, rfl⟩
    rw [language, text_cons, text_cons, ← append_assoc, fill_append,
      ← cons_append]
    exact append_mem_mul (.inr ⟨[slash, 97, 97], slash, by decide, rfl⟩)
      (fill_mem_language further (fun token member => plain token (by simp [member])))
  · rw [language.eq_7 rest (fun further equal => spanning ⟨further, equal⟩), text_cons,
      fill_append, ← cons_append]
    exact append_mem_mul (Backtracking.mem_anyWord _) (fill_mem_language rest plain)

theorem fill_legal {name : Str} (legal : LegalName name) : LegalName (fill name) := by
  have single byte : fillByte byte = 46 ↔ byte = 46 := fillByte_eq_dot byte
  refine ⟨?_, ?_, ?_⟩
  · intro empty
    exact legal.1 (map_eq_nil_iff.mp empty)
  · intro equal
    apply legal.2.1
    simpa [fill, dot, dotByte, map_eq_cons_iff, single] using equal
  · intro equal
    apply legal.2.2
    simpa [fill, dotDot, dotByte, map_eq_cons_iff, single] using equal

theorem fill_star_legal (rest : Str) : LegalName (fill (starByte :: rest)) := by
  have first : fill (starByte :: rest) = 97 :: fill rest := rfl
  rw [first]
  refine ⟨by simp, ?_, ?_⟩ <;> simp [dot, dotDot, dotByte]

theorem components_fill (path : Str) : components (fill path) = (components path).map fill :=
  splitOn_map slash fillByte fillByte_eq_slash path

/-- No segment of the pattern text is empty, a dot or a dot-dot. -/
def LegalSegments (source : Str) : Prop :=
  forall name, name ∈ (components source).tail -> LegalName name

instance (source : Str) : Decidable (LegalSegments source) :=
  inferInstanceAs (Decidable (forall name, name ∈ (components source).tail -> LegalName name))

variable (directory : Str)

/-- The text a directory shares with everything inside it. -/
def directoryText : Str :=
  if directory.getLast? = some slash then directory else directory ++ [slash]

/-- A path inside a directory, other than the directory itself. -/
def StrictlyBelow (path : Str) : Prop :=
  Exists fun rest => rest ≠ [] ∧ path = directoryText directory ++ rest

theorem directoryText_ends : Exists fun before => directoryText directory = before ++ [slash] := by
  unfold directoryText
  split
  · rename_i ends
    rcases getLast?_eq_some_iff.mp ends with ⟨before, equal⟩
    exact ⟨before, equal⟩
  · exact ⟨directory, rfl⟩

theorem directoryText_starts_within : directoryText directory <+: within directory := by
  unfold directoryText
  split
  · exact self_starts_within directory
  · rename_i ends
    have different : directory ≠ str "/" := by
      rintro rfl
      exact ends rfl
    rw [within_of_ne different]

/-! ## Normal texts -/

theorem legal_not_ending {rest before : Str} (legal : forall name, name ∈ components rest -> LegalName name) :
    slash :: rest ≠ before ++ [slash] := by
  intro equal
  have empty : [] ∈ components rest := by
    cases before with
    | nil =>
      have nothing : rest = [] := by simpa using equal
      simp [nothing, components]
    | cons first others =>
      have final : rest = others ++ slash :: [] := by simpa using (cons.inj equal).2
      rw [final, components, splitOn_append_cons_self]
      simp
  exact (legal [] empty).1 rfl

variable {directory : Str} {pattern : Pattern} {rest : List Token}

/-- A normal absolute directory without a trailing separator, other than the
root, is a separator followed by ordinary names. -/
theorem normal_components (normal : normalizePath directory = directory) (absolute : isAbsolute directory)
    (open_end : directory.getLast? ≠ some slash) :
    Exists fun rest => directory = slash :: rest ∧ forall name, name ∈ components rest -> LegalName name := by
  rcases lexicallyNormal_absolute directory absolute with ⟨names, trailing, legal, _, shape⟩
  rw [normalizePath] at normal
  rw [normal] at shape
  cases trailing with
  | true =>
    have ends : (render true names true).getLast? = some slash := getLast?_concat
    rw [shape] at open_end
    exact absurd ends open_end
  | false =>
    have nonempty : names ≠ [] := by
      rintro rfl
      rw [shape] at open_end
      exact absurd rfl open_end
    refine ⟨[slash].intercalate names, by simpa [render] using shape, ?_⟩
    rw [components, splitOn_intercalate slash (fun name member => (legal name member).2) nonempty]
    exact fun name member => (legal name member).1

theorem fill_source {source rest : Str} (rooted : source = slash :: rest) (legal : LegalSegments source) :
    fill source = slash :: fill rest ∧ forall name, name ∈ components (fill rest) -> LegalName name := by
  subst rooted
  refine ⟨rfl, ?_⟩
  intro name member
  rw [components_fill] at member
  rcases mem_map.mp member with ⟨segment, inside, rfl⟩
  refine fill_legal (legal segment ?_)
  rwa [components_cons_slash]

/-! ## The corridor -/

theorem text_eq_literal (tokens : List Token) : text tokens = literalText tokens ++ text (afterLiteral tokens) := by
  induction tokens with
  | nil => rfl
  | cons token rest ih =>
    cases wild : token.isWildcard with
    | true => simp [literalText, afterLiteral, wild]
    | false =>
      simp only [literalText, wild, text_cons, ih, afterLiteral]
      simp [wild]

section

variable (parsed : Tokenizer.Parsed pattern) (legal : LegalSegments pattern.source)

include parsed legal

/-- The filled pattern is a witness as soon as it lies in the directory. -/
theorem filled_witness (starts : directoryText directory <+: literalTraversalPrefix pattern) :
    Exists fun path => normalizePath path = path ∧ StrictlyBelow directory path ∧
      Matcher.matches pattern path := by
  rcases parsed.absolute with ⟨rest, rooted⟩
  rcases fill_source rooted legal with ⟨filled, names⟩
  have normal : normalizePath (fill pattern.source) = fill pattern.source := by
    rw [filled]
    exact lexicallyNormal_of_legal _ names
  have absolute : isAbsolute (fill pattern.source) := by rw [filled]; rfl
  have member : fill pattern.source ∈ language pattern.tokens := by
    rw [← parsed.text]
    exact fill_mem_language pattern.tokens parsed.plain
  refine ⟨fill pattern.source, normal, ?_, (matches_iff _ _).mpr (by rw [normal]; exact ⟨absolute, member⟩)⟩
  rcases starts.trans (literalTraversalPrefix_starts absolute member) with ⟨remaining, joined⟩
  refine ⟨remaining, ?_, joined.symm⟩
  -- Nothing after the directory would leave a separator at the end of the path.
  rintro rfl
  rcases directoryText_ends directory with ⟨before, ends⟩
  rw [append_nil, ends, filled] at joined
  exact legal_not_ending names joined.symm

/-- At a literal start followed by `**`, the wildcard can open a new segment. -/
theorem doubleStar_witness (normal : normalizePath directory = directory) (absolute : isAbsolute directory)
    (open_end : directory.getLast? ≠ some slash) (atLiteral : literalText pattern.tokens = directory)
    (next : afterLiteral pattern.tokens = .doubleStar :: rest) :
    Exists fun path => normalizePath path = path ∧ StrictlyBelow directory path ∧
      Matcher.matches pattern path := by
  rcases normal_components normal absolute open_end with ⟨body, rooted, names⟩
  have plain : forall token, token ∈ rest -> Tokenizer.PlainLiteral token := by
    intro token member
    have later : token ∈ afterLiteral pattern.tokens := by rw [next]; exact mem_cons_of_mem _ member
    exact parsed.plain token ((dropWhile_suffix _).subset later)
  have source : pattern.source = directory ++ text (.doubleStar :: rest) := by
    rw [← parsed.text, text_eq_literal, atLiteral, next]
  -- The added segment starts with a filled wildcard; the later ones are segments of the pattern.
  have segments : forall name, name ∈ components (fill (text (.doubleStar :: rest))) ->
      LegalName name := by
    intro name member
    rw [components_fill] at member
    rcases mem_map.mp member with ⟨segment, inside, rfl⟩
    have stars : text (.doubleStar :: rest) = starByte :: starByte :: text rest := rfl
    rcases components_cons_of_ne (by decide : starByte ≠ slash) (starByte :: text rest)
      with ⟨first, others, pieces⟩
    rw [stars, pieces] at inside
    rcases mem_cons.mp inside with same | later
    · rw [same]
      exact fill_star_legal first
    · apply fill_legal
      apply legal
      rw [source, stars]
      apply mem_tail_splitOn_append
      rw [← components, pieces]
      exact later
  have normalPath : normalizePath (slash :: (body ++ slash :: fill (text (.doubleStar :: rest)))) =
      slash :: (body ++ slash :: fill (text (.doubleStar :: rest))) := by
    apply lexicallyNormal_of_legal
    intro name member
    rw [components, splitOn_append_cons_self] at member
    rcases mem_append.mp member with before | after
    · exact names name before
    · exact segments name after
  refine ⟨_, normalPath, ⟨fill (text (.doubleStar :: rest)), ?_, ?_⟩, ?_⟩
  · exact cons_ne_nil _ _
  · rw [directoryText, if_neg open_end, rooted]
    simp
  · rw [matches_iff, normalPath, mem_language_iff_literal, next, atLiteral, rooted]
    exact ⟨rfl, _, slash_fill_mem_language rest plain, rfl⟩

end

/-- Whether the pattern continues its literal start inside the same segment. -/
def ExtendsLastName (pattern : Pattern) : Prop :=
  Exists fun rest => afterLiteral pattern.tokens = .star :: rest ∨
    afterLiteral pattern.tokens = .question :: rest

/-- A directory on the literal start, in the middle of a name that the pattern
goes on to extend. -/
def StopsInsideName (pattern : Pattern) (directory : Str) : Prop :=
  directory = literalTraversalPrefix pattern ∧ directory.getLast? ≠ some slash ∧ ExtendsLastName pattern

theorem literalText_of_open_end (same : literalTraversalPrefix pattern = directory)
    (open_end : directory.getLast? ≠ some slash) : literalText pattern.tokens = directory := by
  rw [literalTraversalPrefix] at same
  split at same
  · -- The default literal start is the root, which ends in a separator.
    rw [← same] at open_end
    exact absurd rfl open_end
  · exact same

theorem not_slash_mem_language {word : Str} :
    slash :: word ∉ language (.star :: rest) ∧ slash :: word ∉ language (.question :: rest) := by
  constructor
  · rintro ⟨consumed, ⟨nonempty, inside⟩, remaining, _, joined⟩
    cases consumed with
    | nil => exact nonempty rfl
    | cons first others =>
      have separator : first = slash := (cons.inj joined).1
      have ordinary := inside first (by simp)
      rw [separator] at ordinary
      exact absurd ordinary (by decide)
  · rintro ⟨consumed, ⟨byte, inside, rfl⟩, remaining, _, joined⟩
    have separator : byte = slash := (cons.inj joined).1
    rw [separator] at inside
    exact absurd inside (by decide)

/-- From such a directory the pattern leads past it, never into it. -/
theorem matches_of_stopsInsideName {path : Str} (stops : StopsInsideName pattern directory)
    (normal : normalizePath path = path) (below : StrictlyBelow directory path) :
    Matcher.matches pattern path = false := by
  by_contra found
  rw [Bool.not_eq_false, matches_iff, normal] at found
  rcases stops with ⟨same, open_end, rest, extension⟩
  rcases (mem_language_iff_literal pattern.tokens path).mp found.2 with ⟨remaining, member, equal⟩
  rcases below with ⟨tail, _, inside⟩
  rw [directoryText, if_neg open_end] at inside
  rw [literalText_of_open_end same.symm open_end, inside, append_assoc] at equal
  have separated : remaining = slash :: tail := (append_cancel_left equal).symm
  rw [separated] at member
  rcases extension with next | next
  · rw [next] at member
    exact not_slash_mem_language.1 member
  · rw [next] at member
    exact not_slash_mem_language.2 member

theorem afterLiteral_wild {tokens : List Token} {token : Token} (next : afterLiteral tokens = token :: rest) :
    token.isWildcard := by
  have stopped := head?_dropWhile_not (fun token : Token => !token.isWildcard) tokens
  rw [← afterLiteral, next] at stopped
  simpa using stopped

/-- A corridor of a pattern with ordinary segments leads to a matching path
strictly below, unless it stops inside a name. -/
theorem corridor_leads (parsed : Tokenizer.Parsed pattern) (legal : LegalSegments pattern.source)
    (normal : normalizePath directory = directory) (required : requiresTraversalThrough pattern directory) :
    (Exists fun path => normalizePath path = path ∧ StrictlyBelow directory path ∧
      Matcher.matches pattern path) ∨ StopsInsideName pattern directory := by
  rcases (requiresTraversalThrough_iff pattern directory).mp required with ⟨absolute, unmatched, above⟩
  rw [normal] at absolute above
  rcases (isAncestorOrSelf_iff _ _).mp above with same | strict
  · by_cases ends : directory.getLast? = some slash
    · left
      apply filled_witness parsed legal
      rw [directoryText, if_pos ends, same]
    · have atLiteral := literalText_of_open_end same ends
      cases next : afterLiteral pattern.tokens with
      | nil =>
        have member : directory ∈ language pattern.tokens := by
          rw [mem_language_iff_literal, next, atLiteral]
          exact ⟨[], nil_mem_one, (append_nil directory).symm⟩
        have matched : Matcher.matches pattern directory := by
          rw [matches_iff, normal]
          exact ⟨absolute, member⟩
        rw [matched] at unmatched
        exact Bool.noConfusion unmatched
      | cons token rest =>
        have wild := afterLiteral_wild next
        cases token with
        | literal | slash => simp [Token.isWildcard] at wild
        | doubleStar =>
          left
          exact doubleStar_witness parsed legal normal absolute ends atLiteral next
        | star => exact .inr ⟨same.symm, ends, rest, .inl next⟩
        | question => exact .inr ⟨same.symm, ends, rest, .inr next⟩
  · left
    exact filled_witness parsed legal ((directoryText_starts_within directory).trans strict)

end Matcher
end Glob
end Vaulthalla
