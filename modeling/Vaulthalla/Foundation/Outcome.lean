namespace Vaulthalla
namespace Foundation
namespace Outcome

/-!
# Computations that may throw

A function of the source that throws is a computation in `Except`.  What a
caller learns from a value it got back is read off one step at a time: each
part of the computation returned, and each of its checks held.
-/

variable {E A B : Type}

/-- A check that throws when it fails. -/
def require (holds : Bool) (failure : E) : Except E Unit :=
  if holds then .ok () else .error failure

@[simp] theorem require_eq_ok {holds : Bool} {failure : E} {done : Unit} :
    require holds failure = .ok done ↔ holds = true := by
  cases holds <;> simp [require]

theorem bind_eq_ok {first : Except E A} {next : A -> Except E B} {result : B} :
    (first >>= next) = .ok result ↔ Exists fun value => first = .ok value ∧ next value = .ok result := by
  cases first with
  | error | ok => simp [bind, Except.bind]

@[simp] theorem pure_eq_ok {value result : A} : (pure value : Except E A) = .ok result ↔ value = result := by
  simp [pure, Except.pure]

/-! ## Loops -/

/-- A loop that appends what each of its turns yields. -/
def collect (turn : A -> Except E (List B)) : List A -> Except E (List B)
  | [] => return []
  | value :: rest => do
      let first ← turn value
      let others ← collect turn rest
      return first ++ others

variable {turn : A -> Except E (List B)} {values : List A}

theorem mem_of_collect {results : List B} (collected : collect turn values = .ok results) {result : B} :
    result ∈ results ↔ Exists fun value => value ∈ values ∧
      Exists fun yielded => turn value = .ok yielded ∧ result ∈ yielded := by
  induction values generalizing results with
  | nil =>
    have none : [] = results := pure_eq_ok.mp collected
    simp [← none]
  | cons value rest ih =>
    rcases bind_eq_ok.mp collected with ⟨first, turned, later⟩
    rcases bind_eq_ok.mp later with ⟨others, collectedRest, joined⟩
    have same : first ++ others = results := pure_eq_ok.mp joined
    rw [← same, List.mem_append, ih collectedRest]
    constructor
    · rintro (inFirst | ⟨other, inside, found⟩)
      · exact ⟨value, List.mem_cons_self, first, turned, inFirst⟩
      · exact ⟨other, List.mem_cons_of_mem value inside, found⟩
    · rintro ⟨other, inside, yielded, otherTurned, found⟩
      rcases List.mem_cons.mp inside with rfl | later
      · have sameYield : first = yielded := Except.ok.inj (turned.symm.trans otherTurned)
        exact .inl (sameYield ▸ found)
      · exact .inr ⟨other, later, yielded, otherTurned, found⟩

theorem collect_returns_iff :
    (Exists fun results => collect turn values = .ok results) ↔
      forall value, value ∈ values -> Exists fun yielded => turn value = .ok yielded := by
  induction values with
  | nil => simp [collect]
  | cons value rest ih =>
    simp only [List.forall_mem_cons, ← ih, collect, bind_eq_ok, pure_eq_ok]
    constructor
    · rintro ⟨_, first, turned, others, collected, _⟩
      exact ⟨⟨first, turned⟩, others, collected⟩
    · rintro ⟨⟨first, turned⟩, others, collected⟩
      exact ⟨first ++ others, first, turned, others, collected, rfl⟩

end Outcome
end Foundation
end Vaulthalla
