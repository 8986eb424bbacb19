import Vaulthalla.Manifest.Protocol
import Vaulthalla.Sync.PlanShape

namespace Vaulthalla
namespace Manifest

open Foundation Sync Transition Option
open Node (goto)

/-!
# Lost updates of the manifest

A node publishes its whole index, on the condition that the manifest still has
the ETag the node remembers.  Nothing is lost as long as a remembered ETag
stands for the content of the node's index.  A refresh keeps this up: the ETag
is read before the rows, so at worst the rows are newer than the ETag, and the
next `PUT` fails.  The publication does not: the ETag is read by a `HEAD` after
the `PUT`, and when another node published in between, the ETag remembered is
that of rows the index does not have.  The node then trusts its index, and its
next `PUT` drops those rows.

The theorem is that this is the only way to lose a row.  A row that a `PUT`
left in the manifest stays until some plan uploads or deletes its key, if no
other node was between its own `PUT` and the `HEAD` after it at that moment.
-/

/-! ## Remembered ETags are old ones -/

/-- The ETag that a node carries along in its present position. -/
def Control.tag : Control -> Option Nat
  | .fetching remoteEtag _ => remoteEtag
  | .replacing remoteEtag _ _ => remoteEtag
  | .recording remoteEtag _ => remoteEtag
  | .replaying _ _ _ expected _ => expected
  | .publishing _ expected _ => expected
  | _ => none

/-- Every ETag a node knows has been handed out. -/
structure KnowsIssued (issued : Nat) (node : Node) : Prop where
  remembered : forall tag, node.etag = some tag -> tag < issued
  carried : forall tag, node.control.tag = some tag -> tag < issued

variable {node moved : Node} {issued : Nat} {manifest after : TaggedObject RemoteIndex} {event : Event}

theorem KnowsIssued.mono {earlier later : Nat} (grows : earlier ≤ later) (knows : KnowsIssued earlier node) :
    KnowsIssued later node :=
  ⟨fun tag known => (knows.remembered tag known).trans_le grows,
    fun tag known => (knows.carried tag known).trans_le grows⟩

theorem KnowsIssued.resume (remembered : forall tag, node.etag = some tag -> tag < issued) (next : Resume) :
    KnowsIssued issued (node.resume next) := by
  cases next with
  | done => exact ⟨remembered, by simp [Node.resume, goto, Control.tag]⟩
  | firstAttempt | retry => exact ⟨remembered, remembered⟩

theorem getHeadObject_lt {answer : HeadAnswer} {tag : Nat}
    (answered : getHeadObject manifest answer = some (some tag)) : tag < manifest.issued := by
  apply TaggedObject.tag_lt_issued
  unfold getHeadObject at answered
  split at answered <;> simp_all

theorem putManifest_issued (manifest : TaggedObject RemoteIndex) (node : Node) (delivered : Bool)
    (expected : Option Nat) : manifest.issued ≤ (putManifest manifest node delivered expected).issued := by
  unfold putManifest
  split
  · exact Nat.le_succ _
  · exact Nat.le_refl _

/-- Tags are handed out by writes only, and never taken back. -/
theorem issued_le_of_move (move : Move manifest node event after moved) : manifest.issued ≤ after.issued := by
  cases move with
  | put delivered answer plan expected attempt control position reply =>
    exact putManifest_issued manifest node delivered expected
  | _ => exact Nat.le_refl _

/-- A node that remembers and carries the ETags it had before. -/
theorem KnowsIssued.carry (knows : KnowsIssued issued node) (sameEtag : moved.etag = node.etag)
    (sameTag : moved.control.tag = node.control.tag) : KnowsIssued issued moved := by
  constructor
  · rw [sameEtag]
    exact knows.remembered
  · rw [sameTag]
    exact knows.carried

theorem knowsIssued_of_move (move : Move manifest node event after moved) (knows : KnowsIssued manifest.issued node) :
    KnowsIssued after.issued moved := by
  cases move with
  | forget _ control holdsNothing =>
    refine ⟨knows.remembered, ?_⟩
    rcases holdsNothing with rfl | ⟨next, rfl⟩ <;> simp [goto, Control.tag]
  | resume _ next => exact KnowsIssued.resume knows.remembered next
  | headed answer remoteEtag next answered =>
    refine ⟨knows.remembered, ?_⟩
    intro tag carried
    simp only [goto, Control.tag] at carried
    exact getHeadObject_lt (carried ▸ answered)
  | fetched remoteEtag rows next position content =>
    exact knows.carry rfl (by rw [position]; rfl)
  | replaced remoteEtag rows next position =>
    exact knows.carry rfl (by rw [position]; rfl)
  | recorded remoteEtag next position =>
    apply KnowsIssued.resume
    intro tag remembered
    exact knows.carried tag (by rw [position]; exact remembered)
  | replayed action rest plan mutated changed expected attempt position =>
    exact knows.carry rfl (by rw [position]; rfl)
  | prepared plan mutated expected attempt position =>
    exact knows.carry rfl (by rw [position]; rfl)
  | put delivered answer plan expected attempt control position reply =>
    apply KnowsIssued.mono (putManifest_issued manifest node delivered expected)
    refine ⟨knows.remembered, ?_⟩
    rcases reply with rfl | ⟨next, rfl⟩ | ⟨rfl, _⟩ <;> simp [goto, Control.tag]
  | learned answer position =>
    refine ⟨?_, by simp [Control.tag]⟩
    intro tag remembered
    exact getHeadObject_lt (join_eq_some_iff.mp remembered)

section System

variable {Party : Type} [DecidableEq Party]

def TagsIssued (system : System Party) : Prop :=
  forall party, KnowsIssued system.manifest.issued (system.nodes party)

omit [DecidableEq Party] in
theorem tagsIssued_of_initial {system : System Party} (initial : Initial system) : TagsIssued system := by
  intro party
  rcases initial party with ⟨forgets, idles⟩
  exact ⟨by simp [forgets], by simp [idles, Control.tag]⟩

theorem tagsIssued_step (system : System Party) (label : Party × Event) (next : System Party)
    (taken : step system label = some next) (holds : TagsIssued system) : TagsIssued next := by
  rcases step_eq_some taken with ⟨⟨after, moved⟩, nodeTaken, rfl⟩
  have move := move_of_nodeStep nodeTaken
  apply forall_update (knowsIssued_of_move move (holds label.1))
  intro other _
  exact (holds other).mono (issued_le_of_move move)

end System

/-! ## Rows that stay -/

/-- The index of a node has the row wherever the node could take the given
ETag for that of its index. -/
structure Vouches (key : Str) (row : RemoteObject) (tag : Nat) (node : Node) : Prop where
  remembered : node.etag = some tag -> node.index.lookup key = some row
  replacing : forall remoteEtag rows next, node.control = .replacing remoteEtag rows next ->
    remoteEtag = some tag ∨ node.etag = some tag -> rows.lookup key = some row
  recording : forall remoteEtag next, node.control = .recording remoteEtag next ->
    remoteEtag = some tag -> node.index.lookup key = some row
  replaying : forall rest plan mutated expected attempt,
    node.control = .replaying rest plan mutated expected attempt ->
    expected = some tag -> node.index.lookup key = some row
  publishing : forall plan expected attempt, node.control = .publishing plan expected attempt ->
    expected = some tag -> node.index.lookup key = some row
  published : node.control = .published -> node.index.lookup key = some row

section Vouches

variable {key : Str} {row : RemoteObject} {tag : Nat} {node : Node} {control : Control}

/-- A position in which nothing but the remembered ETag matters. -/
theorem Vouches.forget (holdsNothing : control = .idle ∨ Exists fun next => control = .refreshing next)
    (remembered : node.etag = some tag -> node.index.lookup key = some row) :
    Vouches key row tag (node.goto control) := by
  rcases holdsNothing with rfl | ⟨next, rfl⟩ <;>
    exact ⟨remembered, by simp [goto], by simp [goto], by simp [goto], by simp [goto],
      by simp [goto]⟩

theorem Vouches.resume (remembered : node.etag = some tag -> node.index.lookup key = some row) (next : Resume) :
    Vouches key row tag (node.resume next) := by
  have replays : forall plan attempt,
      Vouches key row tag (node.goto (.replaying plan plan false node.etag attempt)) := by
    intro plan attempt
    refine ⟨remembered, by simp [goto], by simp [goto], ?_, by simp [goto], by simp [goto]⟩
    intro rest all mutated expected count position
    cases position
    exact remembered
  cases next with
  | done => exact .forget (.inl rfl) remembered
  | firstAttempt plan => exact replays plan 1
  | retry plan attempt => exact replays plan attempt

/-- No node knows a new ETag, so only one that is about to learn it matters. -/
theorem Vouches.of_new_tag (knows : KnowsIssued tag node)
    (published : node.control = .published -> node.index.lookup key = some row) : Vouches key row tag node := by
  have notRemembered : node.etag ≠ some tag := fun known => Nat.lt_irrefl tag (knows.remembered tag known)
  have notCarried : node.control.tag ≠ some tag := fun known => Nat.lt_irrefl tag (knows.carried tag known)
  refine ⟨fun known => absurd known notRemembered, ?_, ?_, ?_, ?_, published⟩
  · intro remoteEtag rows next position known
    rw [position] at notCarried
    exact absurd known (not_or.mpr ⟨notCarried, notRemembered⟩)
  · intro remoteEtag next position known
    rw [position] at notCarried
    exact absurd known notCarried
  · intro rest plan mutated expected attempt position known
    rw [position] at notCarried
    exact absurd known notCarried
  · intro plan expected attempt position known
    rw [position] at notCarried
    exact absurd known notCarried

/-- A `PUT` changes nothing, or it was made under the manifest's ETag and writes the node's index. -/
theorem putManifest_cases (manifest : TaggedObject RemoteIndex) (node : Node) (delivered : Bool)
    (expected : Option Nat) :
    putManifest manifest node delivered expected = manifest ∨
      (manifest.tag = expected ∧
        putManifest manifest node delivered expected = manifest.write (publishableRows node.index)) := by
  unfold putManifest
  split
  · rename_i applied
    simp only [Bool.and_eq_true, TaggedObject.accepts, beq_iff_eq] at applied
    exact .inr ⟨applied.2, rfl⟩
  · exact .inl rfl

/-- The `PUT` of a node that vouches for the row keeps the row in the manifest. -/
theorem vouches_of_put {delivered : Bool} {plan : List Action} {expected : Option Nat} {attempt : Nat}
    (currentTag : manifest.tag = some tag) (vouches : Vouches key row tag node)
    (position : node.control = .publishing plan expected attempt)
    (reply : control = .idle ∨ (Exists fun next => control = .refreshing next) ∨
      (control = .published ∧ (delivered && manifest.accepts expected) = true)) :
    (putManifest manifest node delivered expected = manifest ∧ Vouches key row tag (node.goto control)) ∨
      (putManifest manifest node delivered expected = manifest.write (publishableRows node.index) ∧
        node.index.lookup key = some row ∧
        Exists fun next => node.goto control = node.goto next ∧ next.tag = none) := by
  rcases putManifest_cases manifest node delivered expected with unchanged | ⟨matched, written⟩
  · rcases reply with idles | refreshes | ⟨_, applied⟩
    · exact .inl ⟨unchanged, .forget (.inl idles) vouches.remembered⟩
    · exact .inl ⟨unchanged, .forget (.inr refreshes) vouches.remembered⟩
    · -- A `PUT` that was answered with success has issued a new ETag.
      simp only [putManifest, applied, if_true] at unchanged
      have grows : manifest.issued + 1 = manifest.issued := congrArg TaggedObject.issued unchanged
      omega
  · refine .inr ⟨written, vouches.publishing plan expected attempt position (matched ▸ currentTag), control,
      rfl, ?_⟩
    rcases reply with rfl | ⟨next, rfl⟩ | ⟨rfl, _⟩ <;> rfl

/-- A step that does not replay an action on the key either leaves the
manifest alone and keeps what the node vouches for, or publishes an index
that has the row. -/
theorem vouches_of_move {rows : RemoteIndex} (current : manifest.current = some (tag, rows))
    (present : rows.lookup key = some row) (canPublish : publishable key) (vouches : Vouches key row tag node)
    (move : Move manifest node event after moved) (untouched : forall action rest plan mutated expected attempt,
      node.control = .replaying (action :: rest) plan mutated expected attempt -> event = .proceed ->
      replayedKey action ≠ some key) :
    (after = manifest ∧ Vouches key row tag moved) ∨
      (after = manifest.write (publishableRows node.index) ∧ node.index.lookup key = some row ∧
        Exists fun control => moved = node.goto control ∧ control.tag = none) := by
  have currentTag : manifest.tag = some tag := by simp [TaggedObject.tag, current]
  cases move with
  | forget _ control holdsNothing => exact .inl ⟨rfl, .forget holdsNothing vouches.remembered⟩
  | resume _ next => exact .inl ⟨rfl, .resume vouches.remembered next⟩
  | headed answer remoteEtag next answered =>
    exact .inl ⟨rfl, vouches.remembered, by simp [goto], by simp [goto], by simp [goto],
      by simp [goto], by simp [goto]⟩
  | fetched remoteEtag fetchedRows next position content =>
    -- The rows just fetched are those of the manifest, whatever ETag the `HEAD` saw.
    have sameRows : fetchedRows = rows := by
      simpa [TaggedObject.content, current] using content.symm
    refine .inl ⟨rfl, vouches.remembered, ?_, by simp [goto], by simp [goto], by simp [goto],
      by simp [goto]⟩
    intro _ _ _ here _
    cases here
    rw [sameRows, present]
  | replaced remoteEtag fetchedRows next position =>
    have published : remoteEtag = some tag ∨ node.etag = some tag ->
        (publishableRows fetchedRows).lookup key = some row := fun known =>
      (mem_lookup_publishableRows fetchedRows key row).mpr
        ⟨vouches.replacing remoteEtag fetchedRows next position known, canPublish⟩
    refine .inl ⟨rfl, fun known => published (.inr known), by simp, ?_, by simp, by simp, by simp⟩
    intro _ _ here known
    cases here
    exact published (.inl known)
  | recorded remoteEtag next position =>
    exact .inl ⟨rfl, .resume (vouches.recording remoteEtag next position) next⟩
  | replayed action rest plan mutated changed expected attempt position =>
    have sameRow : (replayAction node.vault node.index action).1.lookup key = node.index.lookup key :=
      replayAction_lookup_of_ne node.vault node.index
        (untouched action rest plan mutated expected attempt position rfl)
    refine .inl ⟨rfl, fun known => sameRow.trans (vouches.remembered known), by simp, by simp, ?_, by simp,
      by simp⟩
    intro _ _ _ _ _ here known
    cases here
    exact sameRow.trans (vouches.replaying _ plan mutated expected attempt position known)
  | prepared plan mutated expected attempt position =>
    refine .inl ⟨rfl, vouches.remembered, by simp [goto], by simp [goto], by simp [goto], ?_,
      by simp [goto]⟩
    intro _ _ _ here known
    cases here
    exact vouches.replaying [] plan mutated expected attempt position known
  | put delivered answer plan expected attempt control position reply =>
    exact vouches_of_put currentTag vouches position reply
  | learned answer position =>
    exact .inl ⟨rfl, fun _ => vouches.published position, by simp, by simp, by simp, by simp, by simp⟩

end Vouches

/-! ## Whole runs -/

section Runs

variable {Party : Type} [DecidableEq Party]

/-- The manifest has the row, and every node vouches for it under the manifest's ETag. -/
def Kept (key : Str) (row : RemoteObject) (system : System Party) : Prop :=
  Exists fun tag : Nat => Exists fun rows : RemoteIndex =>
    system.manifest.current = some (tag, rows) ∧ rows.lookup key = some row ∧
      forall party, Vouches key row tag (system.nodes party)

variable {row : RemoteObject}

/-- Right after a `PUT` that left the row, every node vouches for it, except
one that is about to learn the ETag of an index it does not have. -/
theorem kept_of_put {key : Str} {system : System Party} {writer : Party} {control : Control}
    (issued : TagsIssued system) (holdsNothing : control.tag = none)
    (present : (publishableRows (system.nodes writer).index).lookup key = some row)
    (waiting : forall other, other ≠ writer -> (system.nodes other).control = .published ->
      (system.nodes other).index.lookup key = some row) :
    Kept key row
      { manifest := system.manifest.write (publishableRows (system.nodes writer).index),
        nodes := Function.update system.nodes writer ((system.nodes writer).goto control) } := by
  refine ⟨system.manifest.issued, publishableRows (system.nodes writer).index, rfl, present, ?_⟩
  apply forall_update
  · apply Vouches.of_new_tag
    · exact ⟨(issued writer).remembered, by simp [goto, holdsNothing]⟩
    · intro _
      exact ((mem_lookup_publishableRows _ key row).mp present).1
  · intro other different
    exact Vouches.of_new_tag (issued other) (waiting other different)

theorem kept_step {key : Str} (canPublish : publishable key) (system : System Party) (label : Party × Event)
    (next : System Party) (untouched : replays system label ≠ some key) (taken : step system label = some next)
    (holds : TagsIssued system ∧ Kept key row system) : TagsIssued next ∧ Kept key row next := by
  rcases holds with ⟨issued, tag, rows, current, present, vouches⟩
  refine ⟨tagsIssued_step system label next taken issued, ?_⟩
  rcases step_eq_some taken with ⟨⟨after, moved⟩, nodeTaken, rfl⟩
  have notReplayed : forall action rest plan mutated expected attempt,
      (system.nodes label.1).control = .replaying (action :: rest) plan mutated expected attempt ->
      label.2 = .proceed -> replayedKey action ≠ some key := by
    intro action rest plan mutated expected attempt position proceeds
    simpa [replays, position, proceeds] using untouched
  rcases vouches_of_move current present canPublish (vouches label.1) (move_of_nodeStep nodeTaken) notReplayed
    with ⟨rfl, movedVouches⟩ | ⟨rfl, hasRow, control, rfl, holdsNothing⟩
  · exact ⟨tag, rows, current, present, forall_update movedVouches fun other _ => vouches other⟩
  · apply kept_of_put issued holdsNothing
    · exact (mem_lookup_publishableRows _ key row).mpr ⟨hasRow, canPublish⟩
    · intro other _ waits
      exact (vouches other).published waits

/-- A row that a successful `PUT` left in the manifest stays there along every
run in which no plan uploads or deletes its key, provided that no other node
was between its own `PUT` and the `HEAD` after it when the `PUT` was made. -/
theorem published_row_kept {start before after final : System Party} {earlier later : List (Party × Event)}
    {writer : Party} {delivered : Bool} {answer : PutAnswer} {rows : RemoteIndex} {key : Str} {row : RemoteObject}
    (initial : Initial start) (reached : run step start earlier = some before)
    (put : step before (writer, .put delivered answer) = some after)
    (successful : before.manifest.tag ≠ after.manifest.tag)
    (quiet : forall other, other ≠ writer -> (before.nodes other).control ≠ .published)
    (left : after.manifest.content = some rows) (present : rows.lookup key = some row)
    (continued : run step after later = some final)
    (untouched : Along step (fun system label => replays system label ≠ some key) after later) :
    Exists fun finalRows : RemoteIndex =>
      final.manifest.content = some finalRows ∧ finalRows.lookup key = some row := by
  have issued : TagsIssued before := run_invariant tagsIssued_step reached (tagsIssued_of_initial initial)
  rcases step_eq_some put with ⟨⟨manifest, moved⟩, nodeTaken, rfl⟩
  have written : publishable key = true ∧ Kept key row
      { manifest := manifest, nodes := Function.update before.nodes writer moved } := by
    cases move_of_nodeStep nodeTaken with
    | forget | resume => exact absurd rfl successful
    | put _ _ plan expected attempt control position reply =>
      rcases putManifest_cases before.manifest (before.nodes writer) delivered expected with
        unchanged | ⟨_, writes⟩
      · exact absurd (by rw [unchanged]) successful
      · simp only [writes, TaggedObject.write_content, some.injEq] at left
        subst left
        rw [writes]
        refine ⟨((mem_lookup_publishableRows _ key row).mp present).2, ?_⟩
        apply kept_of_put issued _ present
        · intro other different waits
          exact absurd waits (quiet other different)
        · rcases reply with rfl | ⟨next, rfl⟩ | ⟨rfl, _⟩ <;> rfl
  rcases run_induction (kept_step written.1) continued untouched
    ⟨tagsIssued_step before _ _ put issued, written.2⟩ with ⟨_, tag, finalRows, current, stays, _⟩
  exact ⟨finalRows, by simp [TaggedObject.content, current], stays⟩

end Runs

/-! ## Two nodes -/

/-- A node that has not met the manifest and knows no object. -/
def freshNode : Node :=
  { vault := { encryptUpstream := true, configuredStorageClass := none }, index := ∅, etag := none, control := .idle }

def freshSystem : System Bool :=
  { manifest := TaggedObject.absent, nodes := fun _ => freshNode }

/-- A plan that uploads one file. -/
def uploads (name : Str) : List Action :=
  [{ type := .upload, key := name, localFile := some (Planner.textFile 1 (str "/" ++ name) none 100), remote := none }]

/-- A node publishes an upload for the first time, and finds no manifest. -/
def firstPublication (party : Bool) (name : Str) : List (Bool × Event) :=
  [(party, .mutate (uploads name)), (party, .head .answered), (party, .proceed), (party, .proceed)]

/-- A node that remembers no ETag refreshes before it publishes. -/
def refreshedPublication (party : Bool) (name : Str) : List (Bool × Event) :=
  [(party, .mutate (uploads name)), (party, .head .answered), (party, .get), (party, .proceed), (party, .proceed),
    (party, .proceed), (party, .proceed)]

def delivered (party : Bool) : Bool × Event := (party, .put true .ok)

def manifestRow (system : System Bool) (key : Str) : Option RemoteObject :=
  system.manifest.content.bind fun rows => rows.lookup key

/-- The first node is about to publish. -/
def beforePut : System Bool :=
  (run step freshSystem (firstPublication true (str "a.txt"))).getD freshSystem

def afterPut : System Bool :=
  (step beforePut (delivered true)).getD beforePut

/-- With the `HEAD` right after the `PUT`, the first node's row survives the second node's publication. -/
theorem published_row_kept_in_turn :
    let later := (true, Event.head .answered) :: refreshedPublication false (str "b.txt") ++ [delivered false]
    Exists fun final => run step afterPut later = some final ∧
      Exists fun rows =>
        final.manifest.content = some rows ∧ (rows.lookup (str "a.txt")).isSome = true := by
  intro later
  have reached : run step freshSystem (firstPublication true (str "a.txt")) = some beforePut :=
    (getD_of_ne_none (by decide +kernel) freshSystem).symm
  have put : step beforePut (delivered true) = some afterPut :=
    (getD_of_ne_none (by decide +kernel) beforePut).symm
  have quiet : forall other, other ≠ true -> (beforePut.nodes other).control ≠ .published := by
    intro other different awaits
    rw [Bool.eq_false_of_not_eq_true different] at awaits
    exact Control.noConfusion awaits
  have hasRow : (manifestRow afterPut (str "a.txt")).isSome = true := by decide +kernel
  have enabled : (run step afterPut later).isSome = true := by decide +kernel
  rcases bind_eq_some_iff.mp (some_get hasRow).symm with ⟨rows, left, present⟩
  rcases isSome_iff_exists.mp enabled with ⟨final, continued⟩
  rcases published_row_kept (fun _ => ⟨rfl, rfl⟩) reached put (by decide +kernel) quiet left present continued
    (by decide +kernel) with ⟨finalRows, content, stays⟩
  exact ⟨final, continued, finalRows, content, by rw [stays]; rfl⟩

/-- The second node publishes between the first node's `PUT` and its `HEAD`.
The first node then remembers an ETag under which its index lacks the second
node's row, and drops that row with its next upload. -/
theorem publication_between_put_and_head_lost :
    let earlier := firstPublication true (str "a.txt") ++ [delivered true] ++
      refreshedPublication false (str "b.txt") ++ [delivered false]
    let later := [(false, .head .answered), (true, .head .answered), (true, .mutate (uploads (str "c.txt"))),
      (true, .proceed), (true, .proceed), delivered true]
    ((run step freshSystem earlier).map fun system => (manifestRow system (str "b.txt")).isSome) = some true ∧
      ((run step freshSystem earlier).map fun system =>
        decide (Along step (fun system label => replays system label ≠ some (str "b.txt")) system later)) =
          some true ∧
      ((run step freshSystem (earlier ++ later)).map fun system => manifestRow system (str "b.txt")) = some none := by
  decide +kernel

end Manifest
end Vaulthalla
