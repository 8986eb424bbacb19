import Mathlib.Computability.Language

namespace Vaulthalla
namespace Foundation
namespace Backtracking

/-!
# Backtracking scans over a word

A wildcard matcher tries a continuation at one position after another of the
remaining word.  Three such scans occur: one that must consume a nonempty run
avoiding a stop set, one that may stop anywhere, and one that resumes only
after an element of the stop set.

Each scan is characterised by the language it consumes.  If the continuation
decides membership in a language, the scan decides membership in the product
of the consumed language with it, so a matcher built from scans is correct by
composing these facts in the order of its cases.
-/

variable {A : Type}

/-- Consume one or more elements outside the stop set, trying the continuation
after each of them. -/
def afterSome (stop : A -> Bool) (continuation : List A -> Bool) : List A -> Bool
  | [] => false
  | value :: rest => !stop value && (continuation rest || afterSome stop continuation rest)

/-- Try the continuation at every position, the end included. -/
def anywhere (continuation : List A -> Bool) : List A -> Bool
  | [] => continuation []
  | value :: rest => continuation (value :: rest) || anywhere continuation rest

/-- Try the continuation right after every element of the stop set. -/
def afterStop (stop : A -> Bool) (continuation : List A -> Bool) : List A -> Bool
  | [] => false
  | value :: rest => (stop value && continuation rest) || afterStop stop continuation rest

/-! ## The consumed languages -/

/-- Nonempty words outside the stop set. -/
def someOutside (stop : A -> Bool) : Language A :=
  { word | word ≠ [] ∧ forall value, value ∈ word -> stop value = false }

/-- Words that end in an element of the stop set. -/
def endingIn (stop : A -> Bool) : Language A :=
  { word | Exists fun before => Exists fun value => stop value = true ∧ word = before ++ [value] }

def anyWord : Language A := { _word | True }

theorem mem_anyWord (word : List A) : word ∈ (anyWord : Language A) :=
  trivial

/-! ## Correctness of the scans -/

section Correctness

variable {continuation : List A -> Bool} {language : Language A}
variable (decides : forall word, continuation word = true ↔ word ∈ language)

include decides

theorem afterSome_iff (stop : A -> Bool) (word : List A) :
    afterSome stop continuation word ↔ word ∈ someOutside stop * language := by
  rw [Language.mem_mul]
  induction word with
  | nil =>
    constructor
    · intro impossible
      simp [afterSome] at impossible
    · rintro ⟨consumed, ⟨nonempty, _⟩, remaining, _, joined⟩
      exact absurd (List.append_eq_nil_iff.mp joined).1 nonempty
  | cons value rest ih =>
    simp only [afterSome, Bool.and_eq_true, Bool.not_eq_true', Bool.or_eq_true, decides, ih]
    constructor
    · rintro ⟨outside, found | ⟨consumed, ⟨nonempty, clean⟩, remaining, member, joined⟩⟩
      · exact ⟨[value], ⟨by simp, by simpa using outside⟩, rest, found, rfl⟩
      · refine ⟨value :: consumed, ⟨by simp, ?_⟩, remaining, member, by simp [joined]⟩
        simpa [outside] using clean
    · rintro ⟨consumed, ⟨nonempty, clean⟩, remaining, member, joined⟩
      cases consumed with
      | nil => exact absurd rfl nonempty
      | cons head tail =>
        simp only [List.cons_append, List.cons.injEq] at joined
        rcases joined with ⟨rfl, joined⟩
        refine ⟨clean head (by simp), ?_⟩
        -- Either the run stops after its first element or the shorter run is found below.
        by_cases short : tail = []
        · left
          simpa [short, ← joined] using member
        · right
          exact ⟨tail, ⟨short, fun other inside => clean other (by simp [inside])⟩,
            remaining, member, joined⟩

theorem anywhere_iff (word : List A) : anywhere continuation word ↔ word ∈ anyWord * language := by
  rw [Language.mem_mul]
  induction word with
  | nil =>
    simp only [anywhere, decides]
    constructor
    · intro member
      exact ⟨[], trivial, [], member, rfl⟩
    · rintro ⟨consumed, _, remaining, member, joined⟩
      rwa [← (List.append_eq_nil_iff.mp joined).2]
  | cons value rest ih =>
    simp only [anywhere, Bool.or_eq_true, decides, ih]
    constructor
    · rintro (found | ⟨consumed, _, remaining, member, joined⟩)
      · exact ⟨[], trivial, value :: rest, found, rfl⟩
      · exact ⟨value :: consumed, trivial, remaining, member, by simp [joined]⟩
    · rintro ⟨consumed, _, remaining, member, joined⟩
      cases consumed with
      | nil =>
        left
        simpa [← joined] using member
      | cons head tail =>
        right
        simp only [List.cons_append, List.cons.injEq] at joined
        exact ⟨tail, trivial, remaining, member, joined.2⟩

theorem afterStop_iff (stop : A -> Bool) (word : List A) :
    afterStop stop continuation word ↔ word ∈ endingIn stop * language := by
  induction word with
  | nil =>
    constructor
    · intro impossible
      simp [afterStop] at impossible
    · rintro ⟨consumed, ⟨before, value, _, rfl⟩, remaining, _, joined⟩
      simp at joined
  | cons value rest ih =>
    simp only [afterStop, Bool.or_eq_true, Bool.and_eq_true, decides, ih]
    constructor
    · rintro (⟨stops, found⟩ | ⟨consumed, ⟨before, final, stops, rfl⟩, remaining, member, joined⟩)
      · exact ⟨[value], ⟨[], value, stops, rfl⟩, rest, found, rfl⟩
      · exact ⟨value :: (before ++ [final]), ⟨value :: before, final, stops, rfl⟩,
          remaining, member, by simp [← joined]⟩
    · rintro ⟨consumed, ⟨before, final, stops, rfl⟩, remaining, member, joined⟩
      cases before with
      | nil =>
        left
        rcases joined with ⟨rfl, rfl⟩
        exact ⟨stops, member⟩
      | cons head tail =>
        right
        simp only [List.cons_append, List.cons.injEq] at joined
        exact ⟨tail ++ [final], ⟨tail, final, stops, rfl⟩, remaining, member, joined.2⟩

end Correctness

end Backtracking
end Foundation
end Vaulthalla
