import Mathlib.Data.List.Nodup

namespace Vaulthalla
namespace Foundation
namespace EmittingFold

/-!
# Folds that emit at most one item for each key

A loop over a list of keys carries a state, and part of that state is a list
it appends to.  When a turn appends at most one item, and only an item of the
key it visits, the items of the whole loop follow the order of the keys.  If
moreover no key is visited twice, the items of one key are those of the single
turn that visits it.  That turn runs in some intermediate state, about which
an invariant of the loop says what it has to.
-/

variable {S K A : Type} {step : S -> K -> S} {out : S -> List A} {key : A -> K}
variable {Emitted : K -> A -> Prop}

/-- A turn appends at most one item, which stands in relation `Emitted` to the key visited. -/
def Emits (step : S -> K -> S) (out : S -> List A) (Emitted : K -> A -> Prop) : Prop :=
  forall state visited, Exists fun emitted : Option A =>
    out (step state visited) = out state ++ emitted.toList ∧
      forall item, item ∈ emitted -> Emitted visited item

/-- The items of a whole loop, in the order of the keys. -/
theorem foldl_emits (emits : Emits step out Emitted)
    (keyed : forall visited item, Emitted visited item -> key item = visited) (keys : List K) (state : S) :
    Exists fun emitted =>
      out (keys.foldl step state) = out state ++ emitted ∧
        (emitted.map key).Sublist keys ∧ forall item, item ∈ emitted -> Emitted (key item) item := by
  induction keys generalizing state with
  | nil => exact ⟨[], by simp, by simp, by simp⟩
  | cons visited rest ih =>
    rcases emits state visited with ⟨first, firstOut, firstEmitted⟩
    rcases ih (step state visited) with ⟨later, laterOut, laterKeys, laterEmitted⟩
    refine ⟨first.toList ++ later, ?_, ?_, ?_⟩
    · rw [List.foldl_cons, laterOut, firstOut, List.append_assoc]
    · cases first with
      | none => simpa using laterKeys.cons visited
      | some item =>
        have same : key item = visited := keyed visited item (firstEmitted item rfl)
        simpa [same] using laterKeys.cons_cons visited
    · intro item member
      rcases List.mem_append.mp member with now | after
      · have emittedNow := firstEmitted item (Option.mem_toList.mp now)
        rwa [← keyed visited item emittedNow] at emittedNow
      · exact laterEmitted item after

variable {keys : List K}

section

variable (emits : Emits step out Emitted) (keyed : forall visited item, Emitted visited item -> key item = visited)

include emits keyed

theorem mem_out_foldl_of_not_mem {item : A} (notVisited : key item ∉ keys) (state : S) :
    item ∈ out (keys.foldl step state) ↔ item ∈ out state := by
  rcases foldl_emits emits keyed keys state with ⟨emitted, outEq, keysOf, _⟩
  have notEmitted : item ∉ emitted := fun member =>
    notVisited (keysOf.subset (List.mem_map_of_mem member))
  simp [outEq, notEmitted]

/-- The items of one key are those of the turn that visits it, and that turn
runs in a state of the loop. -/
theorem foldl_visit {Invariant : S -> Prop}
    (preserved : forall state visited, Invariant state -> Invariant (step state visited)) (distinct : keys.Nodup)
    {visited : K} (member : visited ∈ keys) {state : S} (holds : Invariant state) :
    Exists fun reached => Invariant reached ∧ forall emitted : List A,
      out (step reached visited) = out reached ++ emitted ->
        forall item, key item = visited ->
          (item ∈ out (keys.foldl step state) ↔ item ∈ out state ∨ item ∈ emitted) := by
  induction keys generalizing state with
  | nil => simp at member
  | cons first rest ih =>
    rcases List.nodup_cons.mp distinct with ⟨notLater, distinctRest⟩
    by_cases same : visited = first
    · subst same
      refine ⟨state, holds, ?_⟩
      intro emitted emission item itemKey
      rw [List.foldl_cons, mem_out_foldl_of_not_mem emits keyed (itemKey ▸ notLater), emission,
        List.mem_append]
    · have later : visited ∈ rest := (List.mem_cons.mp member).resolve_left same
      rcases ih distinctRest later (preserved state first holds) with
        ⟨reached, reachedHolds, items⟩
      refine ⟨reached, reachedHolds, ?_⟩
      intro emitted emission item itemKey
      -- The first turn emits items of another key only.
      have unchanged : item ∈ out (step state first) ↔ item ∈ out state := by
        have notFirst : key item ∉ [first] := by
          simpa [itemKey] using same
        exact mem_out_foldl_of_not_mem emits keyed notFirst state
      rw [List.foldl_cons, items emitted emission item itemKey, unchanged]

end

end EmittingFold
end Foundation
end Vaulthalla
