import Mathlib.Data.Char
import Mathlib.Data.List.Dedup
import Mathlib.Data.List.Infix
import Mathlib.Data.List.Lex
import Vaulthalla.Foundation.Pagination

namespace Vaulthalla
namespace S3Gateway
namespace Listing

open Foundation Pagination List

/-!
# Listing the objects of a bucket

`Gateway::listObjectStates` selects the objects of a vault whose key starts with
the requested prefix, groups those whose remaining key contains the delimiter
into common prefixes, and returns at most `max_keys` objects and groups in the
order of the database collation, with the key of the last one when more are
left.  The next request carries that key as its continuation token.

Text is what PostgreSQL compares and cuts: a list of characters.
-/

abbrev Text := List Char

/-- A deterministic collation of the database: a strict total order on text. -/
structure Collation where
  before : Text -> Text -> Prop
  decidable : DecidableRel before
  order : IsStrictTotalOrder Text before

instance (collation : Collation) : DecidableRel collation.before := collation.decidable

instance (collation : Collation) : IsStrictTotalOrder Text collation.before := collation.order

/-! ## Text functions of the query -/

/-- Model of `STRPOS`: the position of the first occurrence, counted from one,
and zero when there is none. -/
def strpos (pattern : Text) : Text -> Nat
  | [] => if pattern = [] then 1 else 0
  | letter :: rest =>
    if pattern.isPrefixOf (letter :: rest) then 1
    else if strpos pattern rest = 0 then 0 else strpos pattern rest + 1

/-- Model of `normalizeKey`. -/
def normalizeKey (key : Text) : Text :=
  key.dropWhile (fun letter => letter = '/')

/-! ## Tables -/

structure ObjectState where
  vault_id : Nat
  (object_key etag : Text)
  size_bytes : Nat
  (content_type storage_class : Option Text)
  last_modified : Int
  multipart : Bool
  part_count : Option Nat

/-- The columns of `files_trashed` that decide whether an object is hidden. -/
structure TrashedFile where
  vault_id : Nat
  path : Text
  deleted_at : Option Int

structure LiveFile where
  vault_id : Nat
  path : Text

/-- The tables the listing reads; `(vault_id, object_key)` is the primary key of
`s3_gateway_object`. -/
structure Database where
  s3_gateway_object : List ObjectState
  files_trashed : List TrashedFile
  files : List LiveFile
  primaryKey : s3_gateway_object.Pairwise
    (fun first second => ¬ (first.vault_id = second.vault_id ∧ first.object_key = second.object_key))

/-- Model of `notHiddenByActiveTrashSql`. -/
def notHiddenByActiveTrash (database : Database) (object : ObjectState) : Bool :=
  !database.files_trashed.any (fun trashed =>
    decide (trashed.vault_id = object.vault_id) && decide (trashed.path = '/' :: object.object_key) &&
      trashed.deleted_at.isNone &&
      !database.files.any (fun live => decide (live.vault_id = trashed.vault_id) && decide (live.path = trashed.path)))

/-! ## The query -/

structure ObjectListParams where
  keyPrefix : Text
  (delimiter start_after continuation_token : Option Text)
  max_keys : Nat

structure ObjectListResult where
  objects : List ObjectState := []
  common_prefixes : List Text := []
  next_continuation_token : Option Text := none
  is_truncated : Bool := false

/-- The objects of the vault that carry the prefix and are not in the trash. -/
def source (database : Database) (vaultId : Nat) (start : Text) : List ObjectState :=
  database.s3_gateway_object.filter (fun object =>
    decide (object.vault_id = vaultId) && decide (object.object_key.take start.length = start) &&
      notHiddenByActiveTrash database object)

/-- What follows the prefix in an object key. -/
def rest (start : Text) (object : ObjectState) : Text :=
  object.object_key.drop start.length

/-- The key up to and including the first delimiter after the prefix. -/
def commonPrefixOf (start delimiter : Text) (object : ObjectState) : Text :=
  start ++ (rest start object).take (strpos delimiter (rest start object) + delimiter.length - 1)

/-- A row of `items`: a common prefix, or an object without a delimiter. -/
inductive Item where
  | commonPrefix (itemKey : Text)
  | object (state : ObjectState)

namespace Item

def key : Item -> Text
  | .commonPrefix itemKey => itemKey
  | .object state => state.object_key

def object? : Item -> Option ObjectState
  | .commonPrefix _ => none
  | .object state => some state

def commonPrefix? : Item -> Option Text
  | .commonPrefix itemKey => some itemKey
  | .object _ => none

end Item

/-- `SELECT DISTINCT … UNION ALL …` of the query with a delimiter. -/
def items (start delimiter : Text) (objects : List ObjectState) : List Item :=
  ((objects.filter (fun object => decide (strpos delimiter (rest start object) > 0))).map
      (commonPrefixOf start delimiter)).dedup.map Item.commonPrefix ++
    (objects.filter (fun object => decide (strpos delimiter (rest start object) = 0))).map Item.object

/-! ## The page -/

/-- The loop over the rows of either query: `push` stores a row, `key` is what
it remembers of the last stored one. -/
def emit {Row : Type} (key : Row -> Text) (push : ObjectListResult -> Row -> ObjectListResult) (maxKeys : Nat) :
    List Row -> Nat -> Option Text -> ObjectListResult -> ObjectListResult
  | [], _, _, out => out
  | row :: rows, emitted, lastEmitted, out =>
    if emitted ≥ maxKeys then { out with is_truncated := true, next_continuation_token := lastEmitted }
    else emit key push maxKeys rows (emitted + 1) (some (key row)) (push out row)

def pushItem (out : ObjectListResult) : Item -> ObjectListResult
  | .commonPrefix itemKey => { out with common_prefixes := out.common_prefixes ++ [itemKey] }
  | .object state => { out with objects := out.objects ++ [state] }

def pushObject (out : ObjectListResult) (state : ObjectState) : ObjectListResult :=
  { out with objects := out.objects ++ [state] }

variable (collation : Collation)

/-- `WHERE key > after ORDER BY key LIMIT limit`. -/
def selectAfter {Row : Type} (key : Row -> Text) (after : Text) (limit : Nat) (rows : List Row) : List Row :=
  (orderBy key collation.before (beyond key collation.before after rows)).take limit

/-- The delimiter when it groups at all. -/
def ObjectListParams.grouping (params : ObjectListParams) : Option Text :=
  params.delimiter.filter (fun delimiter => !delimiter.isEmpty)

/-- Where a request resumes. -/
def ObjectListParams.after (params : ObjectListParams) : Text :=
  params.continuation_token.getD (params.start_after.getD [])

section

variable (database : Database) (vaultId : Nat) (params : ObjectListParams)

/-- Model of `Gateway::listObjectStates`. -/
def listObjectStates : ObjectListResult :=
  let start := normalizeKey params.keyPrefix
  let maxKeys := min params.max_keys 1000
  if maxKeys = 0 then {}
  else
    match params.grouping with
    | some delimiter =>
      emit Item.key pushItem maxKeys
        (selectAfter collation Item.key params.after (maxKeys + 1)
          (items start delimiter (source database vaultId start))) 0 none {}
    | none =>
      emit ObjectState.object_key pushObject maxKeys
        (selectAfter collation ObjectState.object_key params.after (maxKeys + 1)
          (source database vaultId start)) 0 none {}

/-- A client that repeats the request with each continuation token until a page
is not truncated. -/
def followTokens (fuel : Nat) : Option (List ObjectListResult) :=
  follow ObjectListResult.is_truncated ObjectListResult.next_continuation_token
    (fun token => listObjectStates collation database vaultId { params with continuation_token := some token })
    fuel (listObjectStates collation database vaultId params)

end

/-! ## What a listing contains -/

/-- The object can appear in a listing under the prefix. -/
structure Visible (database : Database) (vaultId : Nat) (start : Text) (object : ObjectState) : Prop where
  stored : object ∈ database.s3_gateway_object
  vault : object.vault_id = vaultId
  carries : start <+: object.object_key
  notHidden : notHiddenByActiveTrash database object = true

/-- `group` is the key up to and including its first delimiter after the prefix. -/
def Groups (start delimiter : Text) (object : ObjectState) (group : Text) : Prop :=
  Exists fun name : Text => group = start ++ name ++ delimiter ∧ group <+: object.object_key ∧
    forall shorter : Text, start ++ shorter ++ delimiter <+: object.object_key -> name.length ≤ shorter.length

/-- The listing without pages: the objects and the groups beyond the starting
point, each once and in the order of the collation. -/
structure IsListing (database : Database) (vaultId : Nat) (params : ObjectListParams) (objects : List ObjectState)
    (groups : List Text) : Prop where
  objects_ascending : Ascending ObjectState.object_key collation.before objects
  objects_listed : forall object, object ∈ objects ↔
    Visible database vaultId (normalizeKey params.keyPrefix) object ∧
      collation.before params.after object.object_key ∧
        forall delimiter, params.grouping = some delimiter ->
          ¬ delimiter <:+: rest (normalizeKey params.keyPrefix) object
  groups_ascending : groups.Pairwise collation.before
  groups_listed : forall group, group ∈ groups ↔
    collation.before params.after group ∧ Exists fun delimiter : Text => params.grouping = some delimiter ∧
      Exists fun object : ObjectState => Visible database vaultId (normalizeKey params.keyPrefix) object ∧
        Groups (normalizeKey params.keyPrefix) delimiter object group

/-! ## Positions of the delimiter -/

variable {pattern text start delimiter : Text} {database : Database} {object : ObjectState} {vaultId : Nat}
  {objects : List ObjectState} {params : ObjectListParams}

theorem strpos_eq_zero : strpos pattern text = 0 ↔ ¬ pattern <:+: text := by
  induction text with
  | nil =>
    by_cases empty : pattern = []
    · simp [strpos, empty]
    · simp [strpos, empty]
  | cons letter rest ih =>
    rw [infix_cons_iff, strpos]
    by_cases here : pattern.isPrefixOf (letter :: rest)
    · simp [here, isPrefixOf_iff_prefix.mp here]
    · have elsewhere : ¬ pattern <+: letter :: rest := fun starts => here ( isPrefixOf_iff_prefix.mpr starts)
      by_cases later : strpos pattern rest = 0
      · simp [here, elsewhere, later, ih.mp later]
      · have occurs : pattern <:+: rest := not_not.mp (fun absent => later (ih.mpr absent))
        simp [here, later, occurs]

/-- A positive position is one more than the length of the text before the first occurrence. -/
theorem strpos_first (occurs : strpos pattern text ≠ 0) :
    Exists fun name => strpos pattern text = name.length + 1 ∧ name ++ pattern <+: text ∧
      forall shorter : Text, shorter ++ pattern <+: text -> name.length ≤ shorter.length := by
  induction text with
  | nil =>
    by_cases empty : pattern = []
    · exact ⟨[], by simp [strpos, empty], by simp [empty], by simp⟩
    · simp [strpos, empty] at occurs
  | cons letter rest ih =>
    by_cases here : pattern.isPrefixOf (letter :: rest)
    · exact ⟨[], by simp [strpos, here], by simpa using isPrefixOf_iff_prefix.mp here, by simp⟩
    · have later : strpos pattern rest ≠ 0 := by
        intro absent
        exact occurs (by simp [strpos, here, absent])
      rcases ih later with ⟨name, position, starts, first⟩
      refine ⟨letter :: name, ?_, ?_, ?_⟩
      · simp [strpos, here, position]
      · simpa using starts
      · intro shorter shorterStarts
        cases shorter with
        | nil => exact absurd ( isPrefixOf_iff_prefix.mpr shorterStarts) here
        | cons other tail =>
          have tailStarts : tail ++ pattern <+: rest := (cons_prefix_cons.mp shorterStarts).2
          exact Nat.succ_le_succ (first tail tailStarts)

theorem mem_source : object ∈ source database vaultId start ↔ Visible database vaultId start object := by
  rw [source, mem_filter, Bool.and_eq_true, Bool.and_eq_true, decide_eq_true_eq, decide_eq_true_eq]
  constructor
  · rintro ⟨stored, ⟨vault, carries⟩, notHidden⟩
    exact ⟨stored, vault, prefix_iff_eq_take.mpr carries.symm, notHidden⟩
  · rintro ⟨stored, vault, carries, notHidden⟩
    exact ⟨stored, ⟨vault, (prefix_iff_eq_take.mp carries).symm⟩, notHidden⟩

theorem Visible.key_eq (visible : Visible database vaultId start object) :
    start ++ rest start object = object.object_key :=
  prefix_iff_eq_append.mp visible.carries

/-- The group the query computes is the group of the specification. -/
theorem groups_iff (visible : Visible database vaultId start object) (delimiter group : Text) :
    Groups start delimiter object group ↔
      strpos delimiter (rest start object) > 0 ∧ commonPrefixOf start delimiter object = group := by
  have key := visible.key_eq
  have within : forall name : Text,
      start ++ name ++ delimiter <+: object.object_key ↔ name ++ delimiter <+: rest start object := by
    intro name
    rw [← key, append_assoc, prefix_append_right_inj]
  constructor
  · rintro ⟨name, rfl, starts, first⟩
    have occurs : strpos delimiter (rest start object) ≠ 0 := by
      intro absent
      exact strpos_eq_zero.mp absent ((suffix_append name delimiter).isInfix.trans ((within name).mp starts).isInfix)
    rcases strpos_first occurs with ⟨found, position, foundStarts, foundFirst⟩
    have sameLength : found.length = name.length :=
      Nat.le_antisymm (foundFirst name ((within name).mp starts)) (first found ((within found).mpr foundStarts))
    refine ⟨Nat.pos_of_ne_zero occurs, ?_⟩
    have taken := prefix_iff_eq_take.mp ((within name).mp starts)
    rw [commonPrefixOf, position, append_assoc, append_cancel_left_eq, taken]
    congr 1
    rw [length_append]
    omega
  · rintro ⟨occurs, rfl⟩
    rcases strpos_first (Nat.pos_iff_ne_zero.mp occurs) with ⟨name, position, starts, first⟩
    have cut : commonPrefixOf start delimiter object = start ++ name ++ delimiter := by
      have taken := prefix_iff_eq_take.mp starts
      rw [commonPrefixOf, position, append_assoc, append_cancel_left_eq, taken]
      congr 1
      rw [length_append]
      omega
    rw [cut]
    exact ⟨name, rfl, (within name).mpr starts, fun shorter shorterStarts => first shorter ((within shorter).mp shorterStarts)⟩

/-! ## Rows with distinct keys -/

theorem source_distinct (database : Database) (vaultId : Nat) (start : Text) :
    (source database vaultId start).Pairwise (fun first second => first.object_key ≠ second.object_key) := by
  refine (database.primaryKey.filter _).imp_of_mem ?_
  intro first second firstListed secondListed differ sameKey
  have firstVault := (mem_source.mp firstListed).vault
  have secondVault := (mem_source.mp secondListed).vault
  exact differ ⟨firstVault.trans secondVault.symm, sameKey⟩

/-- A group contains the delimiter after the prefix and an ungrouped key does not. -/
theorem commonPrefixOf_ne_key {grouped single : ObjectState} (groupedVisible : Visible database vaultId start grouped)
    (occurs : strpos delimiter (rest start grouped) > 0) (absent : strpos delimiter (rest start single) = 0) :
    commonPrefixOf start delimiter grouped ≠ single.object_key := by
  intro same
  rcases (groups_iff groupedVisible delimiter _).mpr ⟨occurs, same⟩ with ⟨name, key, _, _⟩
  have singleRest : rest start single = name ++ delimiter := by
    rw [rest, key, append_assoc, drop_left]
  exact strpos_eq_zero.mp absent (singleRest ▸ (suffix_append name delimiter).isInfix)

theorem items_distinct (database : Database) (vaultId : Nat) (start delimiter : Text) :
    (items start delimiter (source database vaultId start)).Pairwise (fun first second => first.key ≠ second.key) := by
  rw [items, pairwise_append]
  refine ⟨?_, ?_, ?_⟩
  · rw [pairwise_map]
    exact nodup_dedup _
  · rw [pairwise_map]
    exact (source_distinct database vaultId start).filter _
  · intro group groupListed item itemListed
    rcases mem_map.mp groupListed with ⟨text, textListed, rfl⟩
    rcases mem_map.mp (mem_dedup.mp textListed) with ⟨grouped, groupedListed, rfl⟩
    rcases mem_map.mp itemListed with ⟨single, singleListed, rfl⟩
    rcases mem_filter.mp groupedListed with ⟨groupedSource, occurs⟩
    rcases mem_filter.mp singleListed with ⟨_, absent⟩
    exact commonPrefixOf_ne_key (mem_source.mp groupedSource) (of_decide_eq_true occurs) (of_decide_eq_true absent)

theorem mem_items_object {state : ObjectState} :
    Item.object state ∈ items start delimiter objects ↔
      state ∈ objects ∧ strpos delimiter (rest start state) = 0 := by
  simp [items]

theorem mem_items_commonPrefix {group : Text} :
    Item.commonPrefix group ∈ items start delimiter objects ↔
      Exists fun object => object ∈ objects ∧ strpos delimiter (rest start object) > 0 ∧
        commonPrefixOf start delimiter object = group := by
  simp [items, and_assoc]

theorem length_items_le (start delimiter : Text) (objects : List ObjectState) :
    (items start delimiter objects).length ≤ objects.length := by
  rw [items, length_append, length_map, length_map]
  have grouped := (dedup_sublist ((objects.filter (fun object =>
    decide (strpos delimiter (rest start object) > 0))).map (commonPrefixOf start delimiter))).length_le
  rw [length_map] at grouped
  have parts := length_eq_length_filter_add (l := objects)
    (fun object => decide (strpos delimiter (rest start object) = 0))
  have complement : objects.filter (fun object => !decide (strpos delimiter (rest start object) = 0)) =
      objects.filter (fun object => decide (strpos delimiter (rest start object) > 0)) := by
    refine filter_congr ?_
    intro object _
    simp [Nat.pos_iff_ne_zero]
  rw [complement] at parts
  omega

/-! ## What one page shows -/

section Page

variable {Row : Type} {key : Row -> Text} {push : ObjectListResult -> Row -> ObjectListResult}
  {object? : Row -> Option ObjectState} {group? : Row -> Option Text}

/-- Storing a row appends it to the objects or to the common prefixes. -/
structure Pushes (push : ObjectListResult -> Row -> ObjectListResult) (object? : Row -> Option ObjectState)
    (group? : Row -> Option Text) : Prop where
  pushed : forall out row, push out row =
    { out with
      objects := out.objects ++ (object? row).toList
      common_prefixes := out.common_prefixes ++ (group? row).toList }
  single : forall row, (object? row).toList.length + (group? row).toList.length = 1

theorem pushItem_pushes : Pushes pushItem Item.object? Item.commonPrefix? where
  pushed := by
    intro out item
    cases item <;> simp [pushItem, Item.object?, Item.commonPrefix?]
  single := by
    intro item
    cases item <;> rfl

theorem pushObject_pushes : Pushes pushObject some (fun _ => none) where
  pushed := by
    intro out state
    simp [pushObject]
  single := by
    intro state
    rfl

theorem filterMap_cons_toList {A B : Type} (select : A -> Option B) (row : A) (rows : List A) :
    (row :: rows).filterMap select = (select row).toList ++ rows.filterMap select := by
  cases chosen : select row <;> simp [chosen]

theorem foldl_push (pushes : Pushes push object? group?) (rows : List Row) :
    forall out, rows.foldl push out =
      { out with
        objects := out.objects ++ rows.filterMap object?
        common_prefixes := out.common_prefixes ++ rows.filterMap group? } := by
  induction rows with
  | nil => simp
  | cons row rows ih =>
    intro out
    rw [foldl_cons, ih, pushes.pushed]
    simp only [filterMap_cons_toList, append_assoc]

/-- The loop stores rows until `maxKeys` are stored and marks the result when a row is left. -/
theorem emit_eq (maxKeys : Nat) (rows : List Row) :
    forall emitted lastEmitted out, emitted ≤ maxKeys ->
      emit key push maxKeys rows emitted lastEmitted out =
        if maxKeys - emitted < rows.length then
          { (rows.take (maxKeys - emitted)).foldl push out with
            is_truncated := true
            next_continuation_token := ((rows.take (maxKeys - emitted)).getLast?.map key).or lastEmitted }
        else rows.foldl push out := by
  induction rows with
  | nil =>
    intro emitted lastEmitted out bounded
    simp [emit]
  | cons row rows ih =>
    intro emitted lastEmitted out bounded
    by_cases full : emitted ≥ maxKeys
    · have none : maxKeys - emitted = 0 := Nat.sub_eq_zero_of_le full
      simp [emit, full, none]
    · have room : maxKeys - emitted = (maxKeys - (emitted + 1)) + 1 := by omega
      rw [emit, if_neg full, ih (emitted + 1) (some (key row)) (push out row) (by omega), room]
      simp only [length_cons, Nat.add_lt_add_iff_right, take_succ_cons, foldl_cons]
      congr 2
      rw [getLast?_cons]
      cases (rows.take (maxKeys - (emitted + 1))).getLast? <;> simp

/-- The page shows these rows, split into objects and common prefixes. -/
structure Shows (object? : Row -> Option ObjectState) (group? : Row -> Option Text) (rows : List Row)
    (page : ObjectListResult) : Prop where
  objects : page.objects = rows.filterMap object?
  groups : page.common_prefixes = rows.filterMap group?

section

variable (pushes : Pushes push object? group?)

include pushes

theorem length_filterMap_add (rows : List Row) :
    (rows.filterMap object?).length + (rows.filterMap group?).length = rows.length := by
  induction rows with
  | nil => rfl
  | cons row rows ih =>
    have single := pushes.single row
    rw [filterMap_cons_toList, filterMap_cons_toList, length_append, length_append, length_cons]
    omega

/-- One answer of the gateway shows the first rows of what it was asked for. -/
theorem emit_answers (maxKeys : Nat) (rows : List Row) :
    Answers ObjectListResult.is_truncated ObjectListResult.next_continuation_token key (Shows object? group?) maxKeys
      rows (emit key push maxKeys (rows.take (maxKeys + 1)) 0 none {}) := by
  rw [emit_eq maxKeys (rows.take (maxKeys + 1)) 0 none {} (Nat.zero_le _), foldl_push pushes, foldl_push pushes,
    Nat.sub_zero, length_take, take_take, Nat.min_eq_left (Nat.le_succ maxKeys)]
  by_cases more : maxKeys < rows.length
  · rw [if_pos (by omega)]
    exact ⟨⟨by simp, by simp⟩, by simp [more], by simp⟩
  · have whole : rows.take (maxKeys + 1) = rows := take_of_length_le (by omega)
    have wholePage : rows.take maxKeys = rows := take_of_length_le (by omega)
    rw [if_neg (by omega), whole]
    exact ⟨⟨by simp [wholePage], by simp [wholePage]⟩, by simp [more], fun less => absurd less more⟩

/-- Following the tokens ends, and the pages show every row beyond the starting
point once, in order. -/
theorem follow_pages {rows : List Row} (distinct : rows.Pairwise (fun first second => key first ≠ key second))
    {maxKeys : Nat} (positive : 0 < maxKeys) {fetch : Text -> ObjectListResult} (fetched : forall after, fetch after =
      emit key push maxKeys (selectAfter collation key after (maxKeys + 1) rows) 0 none {}) {fuel : Nat}
    (enough : rows.length < fuel) (after : Text) :
    Exists fun pages =>
      follow ObjectListResult.is_truncated ObjectListResult.next_continuation_token fetch fuel (fetch after) =
          some pages ∧
        pages.flatMap ObjectListResult.objects =
            (beyond key collation.before after (orderBy key collation.before rows)).filterMap object? ∧
          pages.flatMap ObjectListResult.common_prefixes =
              (beyond key collation.before after (orderBy key collation.before rows)).filterMap group? ∧
            forall page, page ∈ pages -> page.objects.length + page.common_prefixes.length ≤ maxKeys := by
  have answers : forall start, Answers ObjectListResult.is_truncated ObjectListResult.next_continuation_token key
      (Shows object? group?) maxKeys (beyond key collation.before start (orderBy key collation.before rows))
      (fetch start) := by
    intro start
    rw [fetched, selectAfter, orderBy_beyond key collation.before distinct]
    exact emit_answers pushes maxKeys _
  have fewer : (beyond key collation.before after (orderBy key collation.before rows)).length < fuel := by
    refine Nat.lt_of_le_of_lt (length_filter_le _ _) ?_
    rw [length_orderBy]
    exact enough
  rcases follow_complete collation.before (orderBy_ascending key collation.before distinct) positive answers fuel
      after fewer with ⟨pages, pieces, followed, together, shown, bounded⟩
  refine ⟨pages, followed, ?_, ?_, ?_⟩
  · rw [← together]
    exact flatMap_of_shows (fun piece page shows => shows.objects) shown
  · rw [← together]
    exact flatMap_of_shows (fun piece page shows => shows.groups) shown
  · intro page member
    rcases forall₂_iff_zip.mp shown with ⟨sameLength, pairs⟩
    rcases getElem_of_mem member with ⟨index, inPages, rfl⟩
    have inPieces : index < pieces.length := sameLength ▸ inPages
    have shows := pairs (mem_iff_getElem.mpr ⟨index, by simp [inPages, inPieces], getElem_zip⟩)
    rw [shows.objects, shows.groups, length_filterMap_add pushes]
    exact bounded _ (getElem_mem inPieces)

end

end Page

/-! ## Complete listings -/

/-- The objects among the listed items are ascending, as the items are. -/
theorem filterMap_ascending {Row B : Type} {key : Row -> Text} {target : B -> Text} {select : Row -> Option B}
    (keyed : forall row value, select row = some value -> target value = key row) {rows : List Row}
    (ascending : Ascending key collation.before rows) : Ascending target collation.before (rows.filterMap select) := by
  rw [Ascending, pairwise_filterMap]
  refine ascending.imp ?_
  intro first second less value valueOf other otherOf
  rw [keyed first value valueOf, keyed second other otherOf]
  exact less

theorem isListing_of_items (groups : params.grouping = some delimiter) {rows : List Item}
    (listed : rows = beyond Item.key collation.before params.after (orderBy Item.key collation.before
      (items (normalizeKey params.keyPrefix) delimiter (source database vaultId (normalizeKey params.keyPrefix))))) :
    IsListing collation database vaultId params (rows.filterMap Item.object?) (rows.filterMap Item.commonPrefix?) := by
  have ascending : Ascending Item.key collation.before rows := by
    rw [listed]
    exact (orderBy_ascending Item.key collation.before
      (items_distinct database vaultId (normalizeKey params.keyPrefix) delimiter)).filter _
  have member : forall item, item ∈ rows ↔
      item ∈ items (normalizeKey params.keyPrefix) delimiter (source database vaultId (normalizeKey params.keyPrefix)) ∧
        collation.before params.after item.key := by
    intro item
    rw [listed, mem_beyond, mem_orderBy]
  have objectOf : forall item state, item.object? = some state ↔ item = Item.object state := by
    intro item state
    cases item <;> simp [Item.object?]
  have groupOf : forall item text, item.commonPrefix? = some text ↔ item = Item.commonPrefix text := by
    intro item text
    cases item <;> simp [Item.commonPrefix?]
  refine ⟨?_, ?_, ?_, ?_⟩
  · refine filterMap_ascending collation ?_ ascending
    intro item state isObject
    rw [(objectOf item state).mp isObject]
    rfl
  · intro object
    simp only [mem_filterMap, objectOf, exists_eq_right, member, mem_items_object, mem_source, groups,
      Option.some.injEq, forall_eq', strpos_eq_zero]
    exact ⟨fun ⟨⟨visible, absent⟩, later⟩ => ⟨visible, later, absent⟩,
      fun ⟨visible, later, absent⟩ => ⟨⟨visible, absent⟩, later⟩⟩
  · have groupKey : forall (item : Item) text, item.commonPrefix? = some text -> id text = item.key := by
      intro item text isGroup
      rw [(groupOf item text).mp isGroup]
      rfl
    exact filterMap_ascending collation groupKey ascending
  · intro group
    simp only [mem_filterMap, groupOf, exists_eq_right, member, mem_items_commonPrefix, mem_source, groups,
      Option.some.injEq, exists_eq_left']
    constructor
    · rintro ⟨⟨object, visible, grouped⟩, later⟩
      exact ⟨later, object, visible, (groups_iff visible delimiter group).mpr grouped⟩
    · rintro ⟨later, object, visible, grouped⟩
      exact ⟨⟨object, visible, (groups_iff visible delimiter group).mp grouped⟩, later⟩

theorem isListing_of_objects (plain : params.grouping = none) {rows : List ObjectState}
    (listed : rows = beyond ObjectState.object_key collation.before params.after
      (orderBy ObjectState.object_key collation.before (source database vaultId (normalizeKey params.keyPrefix)))) :
    IsListing collation database vaultId params (rows.filterMap some) (rows.filterMap (fun _ => none)) := by
  have ascending : Ascending ObjectState.object_key collation.before rows := by
    rw [listed]
    exact (orderBy_ascending ObjectState.object_key collation.before
      (source_distinct database vaultId (normalizeKey params.keyPrefix))).filter _
  rw [filterMap_some]
  refine ⟨ascending, ?_, ?_, ?_⟩
  · intro object
    simp [listed, mem_beyond, mem_orderBy, mem_source, plain]
  · simp
  · intro group
    simp [plain]

theorem listObjectStates_grouped (positive : params.max_keys ≥ 1) (groups : params.grouping = some delimiter)
    (after : Text) :
    listObjectStates collation database vaultId { params with continuation_token := some after } =
      emit Item.key pushItem (min params.max_keys 1000)
        (selectAfter collation Item.key after (min params.max_keys 1000 + 1)
          (items (normalizeKey params.keyPrefix) delimiter
            (source database vaultId (normalizeKey params.keyPrefix)))) 0 none {} := by
  have size : ¬ min params.max_keys 1000 = 0 := by omega
  have sameGrouping : ({ params with continuation_token := some after } : ObjectListParams).grouping =
      some delimiter := groups
  rw [listObjectStates, if_neg size, sameGrouping]
  rfl

theorem listObjectStates_plain (positive : params.max_keys ≥ 1) (plain : params.grouping = none) (after : Text) :
    listObjectStates collation database vaultId { params with continuation_token := some after } =
      emit ObjectState.object_key pushObject (min params.max_keys 1000)
        (selectAfter collation ObjectState.object_key after (min params.max_keys 1000 + 1)
          (source database vaultId (normalizeKey params.keyPrefix))) 0 none {} := by
  have size : ¬ min params.max_keys 1000 = 0 := by omega
  have sameGrouping : ({ params with continuation_token := some after } : ObjectListParams).grouping = none := plain
  rw [listObjectStates, if_neg size, sameGrouping]
  rfl

/-- For every collation and every bucket, following the continuation tokens of a
request ends, the pages together are the listing, and no page is too long. -/
theorem listing_pagination_is_complete (database : Database) (vaultId : Nat) (params : ObjectListParams)
    (positive : params.max_keys ≥ 1) (fuel : Nat) (enough : database.s3_gateway_object.length < fuel) :
    Exists fun pages : List ObjectListResult =>
      followTokens collation database vaultId params fuel = some pages ∧
        IsListing collation database vaultId params (pages.flatMap ObjectListResult.objects)
            (pages.flatMap ObjectListResult.common_prefixes) ∧
          forall page, page ∈ pages -> page.objects.length + page.common_prefixes.length ≤ params.max_keys := by
  have size : 0 < min params.max_keys 1000 := by omega
  have sourceFewer : (source database vaultId (normalizeKey params.keyPrefix)).length < fuel :=
    Nat.lt_of_le_of_lt (length_filter_le _ _) enough
  cases grouping : params.grouping with
  | some delimiter =>
    have itemsFewer := Nat.lt_of_le_of_lt (length_items_le (normalizeKey params.keyPrefix) delimiter _) sourceFewer
    rcases follow_pages collation pushItem_pushes (items_distinct database vaultId _ delimiter) size
        (listObjectStates_grouped collation positive grouping) itemsFewer params.after with
      ⟨pages, followed, objects, groups, bounded⟩
    refine ⟨pages, followed, ?_, ?_⟩
    · rw [objects, groups]
      exact isListing_of_items collation grouping rfl
    · exact fun page member => Nat.le_trans (bounded page member) (Nat.min_le_left _ _)
  | none =>
    rcases follow_pages collation pushObject_pushes (source_distinct database vaultId _) size
        (listObjectStates_plain collation positive grouping) sourceFewer params.after with
      ⟨pages, followed, objects, groups, bounded⟩
    refine ⟨pages, followed, ?_, ?_⟩
    · rw [objects, groups]
      exact isListing_of_objects collation grouping rfl
    · exact fun page member => Nat.le_trans (bounded page member) (Nat.min_le_left _ _)

/-- Comparison by code points, the collation `C`. -/
def codePoints : Collation where
  before := fun first second => first < second
  decidable := inferInstance
  order := inferInstance

def stored (key : Text) : ObjectState :=
  ⟨1, key, [], 0, none, none, 0, false, none⟩

/-- Two keys under one group and a key beside it. -/
def smallBucket : Database where
  s3_gateway_object := [stored "b".toList, stored "a/x".toList, stored "a/y".toList]
  files_trashed := []
  files := []
  primaryKey := by decide

def groupedRequest : ObjectListParams := ⟨[], some ['/'], none, none, 1⟩

theorem listing_pagination_is_complete_groupedRequest :
    Exists fun pages : List ObjectListResult =>
      followTokens codePoints smallBucket 1 groupedRequest 4 = some pages ∧
        IsListing codePoints smallBucket 1 groupedRequest (pages.flatMap ObjectListResult.objects)
            (pages.flatMap ObjectListResult.common_prefixes) ∧
          forall page, page ∈ pages -> page.objects.length + page.common_prefixes.length ≤ 1 :=
  listing_pagination_is_complete codePoints smallBucket 1 groupedRequest (by decide) 4 (by decide)

end Listing
end S3Gateway
end Vaulthalla
