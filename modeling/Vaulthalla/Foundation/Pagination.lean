import Mathlib.Data.List.Forall2
import Mathlib.Data.List.Sort
import Mathlib.Order.Defs.Unbundled

namespace Vaulthalla
namespace Foundation
namespace Pagination

open List

/-!
# Reading an ordered listing page by page

A server keeps rows under keys that a strict total order compares.  A request
names the key to resume after and gets the first rows beyond it, at most `size`
of them; when rows remain it also gets the key of the last row of the page, and
the client asks again with that key.  Because the rows are listed in the order
of their keys, the rows beyond the last key of a page are exactly the rows the
page left out, so the pages together are the listing.
-/

/-! ## Rows in the order of their keys -/

section Order

variable {A K : Type} (key : A -> K) (before : K -> K -> Prop) [DecidableRel before]

/-- The rows in the order of their keys, as `ORDER BY` gives them. -/
def orderBy (rows : List A) : List A :=
  rows.insertionSort (fun first second => ¬ before (key second) (key first))

/-- The rows whose key lies beyond the resume point. -/
def beyond (start : K) (rows : List A) : List A :=
  rows.filter (fun row => decide (before start (key row)))

/-- Every row has a smaller key than the rows listed after it. -/
def Ascending (rows : List A) : Prop :=
  rows.Pairwise (fun first second => before (key first) (key second))

variable {row : A} {rows : List A}

theorem mem_orderBy : row ∈ orderBy key before rows ↔ row ∈ rows :=
  mem_insertionSort _

theorem length_orderBy (rows : List A) : (orderBy key before rows).length = rows.length :=
  length_insertionSort _ rows

theorem mem_beyond {start : K} : row ∈ beyond key before start rows ↔ row ∈ rows ∧ before start (key row) := by
  simp [beyond]

variable [IsStrictTotalOrder K before]

section

variable (distinct : rows.Pairwise (fun first second => key first ≠ key second))

include distinct

/-- Sorting rows with distinct keys leaves no two rows in a tie. -/
theorem orderBy_ascending : Ascending key before (orderBy key before rows) := by
  have total : Std.Total (fun first second : A => ¬ before (key second) (key first)) :=
    ⟨fun first second => by
      by_cases less : before (key second) (key first)
      · exact .inr (asymm_of before less)
      · exact .inl less⟩
  have transitive : IsTrans A (fun first second => ¬ before (key second) (key first)) :=
    ⟨fun first second third notSecond notThird less => by
      rcases trichotomous_of before (key first) (key second) with below | equal | above
      · exact notThird (trans_of before less below)
      · exact notThird (equal ▸ less)
      · exact notSecond above⟩
  have sorted := pairwise_insertionSort (fun first second => ¬ before (key second) (key first)) rows
  have apart : (orderBy key before rows).Pairwise (fun first second => key first ≠ key second) :=
    (perm_insertionSort _ rows).symm.pairwise distinct (·.symm)
  refine (sorted.and apart).imp ?_
  rintro first second ⟨notAbove, differ⟩
  rcases trichotomous_of before (key first) (key second) with below | equal | above
  · exact below
  · exact absurd equal differ
  · exact absurd above notAbove

/-- Selecting before sorting lists the same rows as selecting after it. -/
theorem orderBy_beyond (start : K) :
    orderBy key before (beyond key before start rows) = beyond key before start (orderBy key before rows) := by
  have selectedFirst : Ascending key before (orderBy key before (beyond key before start rows)) :=
    orderBy_ascending key before (distinct.filter _)
  have sortedFirst : Ascending key before (beyond key before start (orderBy key before rows)) :=
    (orderBy_ascending key before distinct).filter _
  have rearranged : (orderBy key before (beyond key before start rows)).Perm
      (beyond key before start (orderBy key before rows)) :=
    (perm_insertionSort _ _).trans ((perm_insertionSort _ rows).symm.filter _)
  refine rearranged.eq_of_pairwise ?_ selectedFirst sortedFirst
  intro first second _ _ below above
  exact absurd above (asymm_of before below)

end

/-- In an ascending list the rows beyond the key of a row are the rows after it. -/
theorem beyond_key {earlier later : List A} (ascending : Ascending key before (earlier ++ row :: later)) :
    beyond key before (key row) (earlier ++ row :: later) = later := by
  rcases pairwise_append.mp ascending with ⟨_, ascendingRest, across⟩
  rcases pairwise_cons.mp ascendingRest with ⟨rowFirst, _⟩
  have skipped : earlier.filter (fun other => decide (before (key row) (key other))) = [] := by
    rw [filter_eq_nil_iff]
    intro other member
    rw [decide_eq_true_eq]
    exact asymm_of before (across other member row mem_cons_self)
  have kept : later.filter (fun other => decide (before (key row) (key other))) = later := by
    rw [filter_eq_self]
    intro other member
    exact decide_eq_true (rowFirst other member)
  rw [beyond, filter_append, skipped, filter_cons_of_neg (by simpa using irrefl_of before (key row)), kept,
    nil_append]

/-- Resuming after a listed row is resuming after it in what was listed. -/
theorem beyond_beyond {start resume : K} (later : before start resume) (rows : List A) :
    beyond key before resume (beyond key before start rows) = beyond key before resume rows := by
  rw [beyond, beyond, beyond, filter_filter]
  refine filter_congr ?_
  intro row _
  by_cases further : before resume (key row)
  · simp [further, trans_of before later further]
  · simp [further]

end Order

/-! ## Following the resume keys -/

section Follow

variable {A K R : Type} (truncated : R -> Bool) (token : R -> Option K)

/-- A client that asks for pages until one is not truncated; `none` when it is
still asking after `fuel` pages or gets no key to resume after. -/
def follow (fetch : K -> R) : Nat -> R -> Option (List R)
  | 0, _ => none
  | fuel + 1, page =>
    if truncated page then
      match token page with
      | none => none
      | some resume => (follow fetch fuel (fetch resume)).map (page :: ·)
    else some [page]

variable (key : A -> K) (Shows : List A -> R -> Prop)

/-- A page that shows the first `size` of the rows it is asked for and, when it
leaves rows out, the key of the last row it shows. -/
structure Answers (size : Nat) (rows : List A) (page : R) : Prop where
  shown : Shows (rows.take size) page
  rest : truncated page = decide (size < rows.length)
  resume : size < rows.length -> token page = (rows.take size).getLast?.map key

variable {truncated token key Shows} (before : K -> K -> Prop) [DecidableRel before] [IsStrictTotalOrder K before]
  {full : List A}

/-- The rows a truncated page leaves out are the rows beyond its resume key. -/
theorem Answers.resume_beyond (ascending : Ascending key before full) {size : Nat} (positive : 0 < size) {start : K}
    {page : R} (answers : Answers truncated token key Shows size (beyond key before start full) page)
    (more : size < (beyond key before start full).length) :
    Exists fun resume => token page = some resume ∧
      beyond key before resume full = (beyond key before start full).drop size := by
  have shownSome : (beyond key before start full).take size ≠ [] := by
    intro empty
    have lengthTake := congrArg length empty
    rw [length_take, Nat.min_eq_left (Nat.le_of_lt more), length_nil] at lengthTake
    omega
  rcases eq_nil_or_concat ((beyond key before start full).take size) with empty | ⟨earlier, last, shown⟩
  · exact absurd empty shownSome
  have split : beyond key before start full = earlier ++ last :: (beyond key before start full).drop size := by
    conv_lhs => rw [← take_append_drop size (beyond key before start full), shown]
    simp
  have listed : last ∈ beyond key before start full := by
    rw [split]
    simp
  have pastStart : before start (key last) := ((mem_beyond key before).mp listed).2
  have stillAscending : Ascending key before (beyond key before start full) := ascending.filter _
  refine ⟨key last, ?_, ?_⟩
  · rw [answers.resume more, shown]
    simp
  · rw [← beyond_beyond key before pastStart full]
    rw [split] at stillAscending
    calc
      beyond key before (key last) (beyond key before start full) =
          beyond key before (key last) (earlier ++ last :: (beyond key before start full).drop size) := by
        rw [← split]
      _ = (beyond key before start full).drop size := beyond_key key before stillAscending

/-- Following the keys ends, and the pages show the listing cut into pieces. -/
theorem follow_complete (ascending : Ascending key before full) {size : Nat} (positive : 0 < size) {fetch : K -> R}
    (answers : forall start, Answers truncated token key Shows size (beyond key before start full) (fetch start)) :
    forall fuel start, (beyond key before start full).length < fuel ->
      Exists fun pages => Exists fun pieces : List (List A) =>
        follow truncated token fetch fuel (fetch start) = some pages ∧
          pieces.flatten = beyond key before start full ∧ List.Forall₂ Shows pieces pages ∧
            forall piece, piece ∈ pieces -> piece.length ≤ size := by
  intro fuel
  induction fuel with
  | zero =>
    intro start enough
    exact absurd enough (Nat.not_lt_zero _)
  | succ fuel ih =>
    intro start enough
    have here := answers start
    by_cases more : size < (beyond key before start full).length
    · rcases here.resume_beyond before ascending positive more with ⟨resume, given, remaining⟩
      have fewer : (beyond key before resume full).length < fuel := by
        rw [remaining, length_drop]
        omega
      rcases ih resume fewer with ⟨pages, pieces, followed, together, shown, bounded⟩
      refine ⟨fetch start :: pages, (beyond key before start full).take size :: pieces, ?_, ?_, ?_, ?_⟩
      · rw [follow, if_pos (here.rest.trans (decide_eq_true more)), given]
        simp [followed]
      · rw [flatten_cons, together, remaining, take_append_drop]
      · exact List.Forall₂.cons here.shown shown
      · intro piece member
        rcases mem_cons.mp member with rfl | tail
        · exact length_take_le size _
        · exact bounded piece tail
    · have whole : (beyond key before start full).take size = beyond key before start full :=
        take_of_length_le (Nat.not_lt.mp more)
      refine ⟨[fetch start], [beyond key before start full], ?_, ?_, ?_, ?_⟩
      · rw [follow, here.rest, if_neg (by simpa using Nat.not_lt.mp more)]
      · simp
      · exact List.Forall₂.cons (whole ▸ here.shown) List.Forall₂.nil
      · intro piece member
        rw [mem_singleton.mp member]
        exact Nat.not_lt.mp more

/-- What every page shows of its piece, the pages together show of the whole. -/
theorem flatMap_of_shows {B : Type} {view : R -> List B} {select : A -> Option B}
    (viewed : forall piece page, Shows piece page -> view page = piece.filterMap select)
    {pieces : List (List A)} {pages : List R} (shown : List.Forall₂ Shows pieces pages) :
    pages.flatMap view = pieces.flatten.filterMap select := by
  induction shown with
  | nil => rfl
  | cons first _ ih =>
    rw [flatMap_cons, flatten_cons, filterMap_append, viewed _ _ first, ih]

end Follow
end Pagination
end Foundation
end Vaulthalla
