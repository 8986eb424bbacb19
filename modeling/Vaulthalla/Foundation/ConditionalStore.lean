import Mathlib.Data.Option.Basic

namespace Vaulthalla
namespace Foundation

/-!
# An object with conditional writes

One object of a store that supports `If-Match` and `If-None-Match: *`.  A
successful write gives the object a tag that no earlier content had.  The
tags are numbers here, handed out in order; `issued` bounds all those handed
out so far, and the object carries the proof that its own tag is one of them.

A reader who remembers the tag of the object can write on the condition that
the object still has that tag.  A tag that was handed out before a write is
never the tag of the object after it.
-/

structure TaggedObject (Content : Type) where
  current : Option (Nat × Content)
  issued : Nat
  current_lt : forall tag content, current = some (tag, content) -> tag < issued

namespace TaggedObject

variable {Content : Type} (object : TaggedObject Content)

def tag : Option Nat :=
  object.current.map Prod.fst

def content : Option Content :=
  object.current.map Prod.snd

/-- An object that was never written. -/
def absent : TaggedObject Content :=
  { current := none, issued := 0, current_lt := by simp }

/-- The write itself. -/
def write (content : Content) : TaggedObject Content :=
  { current := some (object.issued, content)
    issued := object.issued + 1
    current_lt := by
      intro tag _ same
      cases same
      exact Nat.lt_succ_self _ }

/-- The precondition of a conditional write: the tag of the object is the one
expected, and without an expected tag there is no object. -/
def accepts (expected : Option Nat) : Bool :=
  object.tag == expected

@[simp] theorem write_content (content : Content) : (object.write content).content = some content :=
  rfl

theorem tag_lt_issued {object : TaggedObject Content} {tag : Nat} (isTag : object.tag = some tag) :
    tag < object.issued := by
  rcases Option.map_eq_some_iff.mp isTag with ⟨⟨found, content⟩, current, rfl⟩
  exact object.current_lt found content current

end TaggedObject
end Foundation
end Vaulthalla
