import Vaulthalla.Foundation.ConditionalStore
import Vaulthalla.Foundation.Transition
import Vaulthalla.Manifest.RemoteIndex

namespace Vaulthalla
namespace Manifest

open Foundation Sync Transition

/-!
# The manifest protocol

The nodes that share a bucket coordinate through one object, the manifest.  A
node runs `refreshRemoteIndexFromManifestIfChanged` at the start of a pass and
`applyRemoteIndexMutation` at its end; the latter refreshes as well, before a
first attempt without a remembered ETag and before every retry.  Both are cut
here at each request and each database write, so that any interleaving of the
nodes and a failure at any point are runs of one transition system.

A request may fail, be delivered without its answer arriving, or be answered
with a conflict; a `HEAD` that fails reads like a missing object.  The flag
for a pending rebuild from a full listing is down throughout.
-/

/-! ## One node -/

/-- Where `refreshRemoteIndexFromManifestIfChanged` returns to. -/
inductive Resume
  | done
  | firstAttempt (plan : List Action)
  | retry (plan : List Action) (attempt : Nat)

/-- What a node does next. -/
inductive Control
  | idle
  /-- About to send the `HEAD` of a refresh. -/
  | refreshing (next : Resume)
  | fetching (remoteEtag : Option Nat) (next : Resume)
  | replacing (remoteEtag : Option Nat) (rows : RemoteIndex) (next : Resume)
  | recording (remoteEtag : Option Nat) (next : Resume)
  | replaying (rest plan : List Action) (mutated : Bool) (expected : Option Nat) (attempt : Nat)
  | publishing (plan : List Action) (expected : Option Nat) (attempt : Nat)
  /-- Between its own successful `PUT` and the `HEAD` that follows. -/
  | published

structure Node where
  vault : VaultSettings
  index : RemoteIndex
  /-- The ETag remembered in the manifest state of the vault. -/
  etag : Option Nat
  control : Control

def remoteManifestPublishMaxAttempts : Nat := 3

namespace Node

def goto (node : Node) (control : Control) : Node :=
  { node with control := control }

/-- The return from a refresh.  The remembered ETag is read again, and the plan is replayed. -/
def resume (node : Node) (next : Resume) : Node :=
  match next with
  | .done => node.goto .idle
  | .firstAttempt plan => node.goto (.replaying plan plan false node.etag 1)
  | .retry plan attempt => node.goto (.replaying plan plan false node.etag attempt)

/-- A `ConditionalRequestFailed` leads to the next attempt, or stalls the pass after the last one. -/
def afterConflict (node : Node) (plan : List Action) (attempt : Nat) : Node :=
  if attempt < remoteManifestPublishMaxAttempts then node.goto (.refreshing (.retry plan (attempt + 1)))
  else node.goto .idle

end Node

/-! ## Requests -/

inductive HeadAnswer
  | answered | withoutETag | unreachable

variable (manifest : TaggedObject RemoteIndex)

/-- `getHeadObject`, and the ETag header in the answer. -/
def getHeadObject (answer : HeadAnswer) : Option (Option Nat) :=
  match answer, manifest.tag with
  | .unreachable, _ => none
  | _, none => none
  | .answered, some tag => some (some tag)
  | .withoutETag, some _ => some none

inductive PutAnswer
  | ok | conditionFailed | error

inductive Event
  | refresh
  | mutate (plan : List Action)
  | head (answer : HeadAnswer)
  | get
  /-- The next write to the node's own database. -/
  | proceed
  | put (delivered : Bool) (answer : PutAnswer)
  /-- An exception, or a crash of the node. -/
  | fail

/-- The manifest after a conditional `PUT` of the node's index. -/
def putManifest (node : Node) (delivered : Bool) (expected : Option Nat) : TaggedObject RemoteIndex :=
  if delivered && manifest.accepts expected then manifest.write (publishableRows node.index) else manifest

/-! ## Steps -/

/-- One step of a node against the manifest. -/
def nodeStep (node : Node) (event : Event) : Option (TaggedObject RemoteIndex × Node) :=
  match event, node.control with
  | .refresh, .idle => some (manifest, node.goto (.refreshing .done))
  | .mutate plan, .idle =>
    match node.etag with
    | none => some (manifest, node.goto (.refreshing (.firstAttempt plan)))
    | some etag => some (manifest, node.goto (.replaying plan plan false (some etag) 1))
  | .head answer, .refreshing next =>
    match getHeadObject manifest answer with
    | none => some (manifest, node.resume next)
    | some remoteEtag =>
      if remoteEtag.isSome && remoteEtag == node.etag && !node.index.entries.isEmpty then
        some (manifest, Node.resume { node with etag := remoteEtag } next)
      else some (manifest, node.goto (.fetching remoteEtag next))
  | .get, .fetching remoteEtag next =>
    match manifest.content with
    | none => none
    | some rows => some (manifest, node.goto (.replacing remoteEtag rows next))
  | .proceed, .replacing remoteEtag rows next =>
    some (manifest, { node with index := publishableRows rows, control := .recording remoteEtag next })
  | .proceed, .recording remoteEtag next => some (manifest, Node.resume { node with etag := remoteEtag } next)
  | .proceed, .replaying (action :: rest) plan mutated expected attempt =>
    let (index, changed) := replayAction node.vault node.index action
    some (manifest,
      { node with index := index, control := .replaying rest plan (mutated || changed) expected attempt })
  | .proceed, .replaying [] plan mutated expected attempt =>
    if attempt = 1 ∧ mutated = false then some (manifest, node.goto .idle)
    else some (manifest, node.goto (.publishing plan expected attempt))
  | .put delivered answer, .publishing plan expected attempt =>
    let after := putManifest manifest node delivered expected
    match answer with
    | .ok => if delivered && manifest.accepts expected then some (after, node.goto .published) else none
    | .conditionFailed => some (after, node.afterConflict plan attempt)
    | .error => some (after, node.goto .idle)
  | .head answer, .published =>
    some (manifest, { node with etag := (getHeadObject manifest answer).join, control := .idle })
  | .fail, _ => some (manifest, node.goto .idle)
  | _, _ => none

/-- The bucket's manifest and the nodes that share it. -/
structure System (Party : Type) where
  manifest : TaggedObject RemoteIndex
  nodes : Party -> Node

section System

variable {Party : Type} [DecidableEq Party] (system : System Party)

def step (label : Party × Event) : Option (System Party) :=
  (nodeStep system.manifest (system.nodes label.1) label.2).map fun result =>
    { manifest := result.1, nodes := Function.update system.nodes label.1 result.2 }

/-- Every node is idle and has not met the manifest yet.  Its index may hold anything. -/
def Initial : Prop :=
  forall party, (system.nodes party).etag = none ∧ (system.nodes party).control = .idle

/-- The key whose row a step of a node uploads or deletes by its own plan. -/
def replays (label : Party × Event) : Option Str :=
  match label.2, (system.nodes label.1).control with
  | .proceed, .replaying (action :: _) _ _ _ _ => replayedKey action
  | _, _ => none

theorem step_eq_some {system next : System Party} {label : Party × Event} (taken : step system label = some next) :
    Exists fun result =>
      nodeStep system.manifest (system.nodes label.1) label.2 = some result ∧
        next = { manifest := result.1, nodes := Function.update system.nodes label.1 result.2 } := by
  rcases Option.map_eq_some_iff.mp taken with ⟨result, moved, rfl⟩
  exact ⟨result, moved, rfl⟩

end System

/-! ## What a step can do -/

/-- The moves of a node, by what they do to its memory of the manifest. -/
inductive Move (manifest : TaggedObject RemoteIndex) (node : Node) :
    Event -> TaggedObject RemoteIndex -> Node -> Prop
  /-- A step that holds no ETag afterwards beyond the remembered one. -/
  | forget (event : Event) (control : Control)
      (holdsNothing : control = .idle ∨ Exists fun next : Resume => control = .refreshing next) :
      Move manifest node event manifest (node.goto control)
  | resume (event : Event) (next : Resume) : Move manifest node event manifest (node.resume next)
  | headed (answer : HeadAnswer) (remoteEtag : Option Nat) (next : Resume)
      (answered : getHeadObject manifest answer = some remoteEtag) :
      Move manifest node (.head answer) manifest (node.goto (.fetching remoteEtag next))
  | fetched (remoteEtag : Option Nat) (rows : RemoteIndex) (next : Resume)
      (position : node.control = .fetching remoteEtag next) (content : manifest.content = some rows) :
      Move manifest node .get manifest (node.goto (.replacing remoteEtag rows next))
  | replaced (remoteEtag : Option Nat) (rows : RemoteIndex) (next : Resume)
      (position : node.control = .replacing remoteEtag rows next) :
      Move manifest node .proceed manifest
        { node with index := publishableRows rows, control := .recording remoteEtag next }
  | recorded (remoteEtag : Option Nat) (next : Resume) (position : node.control = .recording remoteEtag next) :
      Move manifest node .proceed manifest (Node.resume { node with etag := remoteEtag } next)
  | replayed (action : Action) (rest plan : List Action) (mutated changed : Bool) (expected : Option Nat)
      (attempt : Nat) (position : node.control = .replaying (action :: rest) plan mutated expected attempt) :
      Move manifest node .proceed manifest
        { node with index := (replayAction node.vault node.index action).1,
                    control := .replaying rest plan changed expected attempt }
  | prepared (plan : List Action) (mutated : Bool) (expected : Option Nat) (attempt : Nat)
      (position : node.control = .replaying [] plan mutated expected attempt) :
      Move manifest node .proceed manifest (node.goto (.publishing plan expected attempt))
  | put (delivered : Bool) (answer : PutAnswer) (plan : List Action) (expected : Option Nat) (attempt : Nat)
      (control : Control) (position : node.control = .publishing plan expected attempt)
      (after : control = .idle ∨ (Exists fun next : Resume => control = .refreshing next) ∨
        (control = .published ∧ (delivered && manifest.accepts expected) = true)) :
      Move manifest node (.put delivered answer) (putManifest manifest node delivered expected)
        (node.goto control)
  | learned (answer : HeadAnswer) (position : node.control = .published) :
      Move manifest node (.head answer) manifest
        { node with etag := (getHeadObject manifest answer).join, control := .idle }

theorem move_of_nodeStep {manifest after : TaggedObject RemoteIndex} {node moved : Node} {event : Event}
    (taken : nodeStep manifest node event = some (after, moved)) : Move manifest node event after moved := by
  unfold nodeStep at taken
  split at taken
  · cases taken
    exact .forget _ _ (.inr ⟨_, rfl⟩)
  · -- Without a remembered ETag the plan waits for a refresh.
    rename_i plan _
    cases remembered : node.etag with
    | none =>
      simp only [remembered] at taken
      cases taken
      exact .forget _ _ (.inr ⟨_, rfl⟩)
    | some etag =>
      simp only [remembered] at taken
      cases taken
      rw [← remembered]
      exact .resume _ (.firstAttempt plan)
  · rename_i answer next _
    cases answered : getHeadObject manifest answer with
    | none =>
      simp only [answered] at taken
      cases taken
      exact .resume _ next
    | some remoteEtag =>
      simp only [answered] at taken
      split at taken
      · -- The remembered ETag is the manifest's, and nothing is fetched.
        rename_i same
        simp only [Bool.and_eq_true, beq_iff_eq] at same
        cases taken
        rw [same.1.2]
        exact .resume _ next
      · cases taken
        exact .headed answer remoteEtag next answered
  · rename_i remoteEtag next position
    cases content : manifest.content with
    | none => simp [content] at taken
    | some rows =>
      simp only [content] at taken
      cases taken
      exact .fetched remoteEtag rows next position content
  · rename_i remoteEtag rows next position
    cases taken
    exact .replaced remoteEtag rows next position
  · rename_i remoteEtag next position
    cases taken
    exact .recorded remoteEtag next position
  · rename_i action rest plan mutated expected attempt position
    cases taken
    exact .replayed action rest plan mutated _ expected attempt position
  · rename_i plan mutated expected attempt position
    split at taken
    · cases taken
      exact .forget _ _ (.inl rfl)
    · cases taken
      exact .prepared plan mutated expected attempt position
  · rename_i delivered answer plan expected attempt position
    cases answer with
    | ok =>
      rcases guarded taken with ⟨applied, ⟨⟩⟩
      exact .put delivered _ plan expected attempt _ position (.inr (.inr ⟨rfl, applied⟩))
    | conditionFailed =>
      cases taken
      unfold Node.afterConflict
      split
      · exact .put delivered _ plan expected attempt _ position (.inr (.inl ⟨_, rfl⟩))
      · exact .put delivered _ plan expected attempt _ position (.inl rfl)
    | error =>
      cases taken
      exact .put delivered _ plan expected attempt _ position (.inl rfl)
  · rename_i answer position
    cases taken
    exact .learned answer position
  · cases taken
    exact .forget _ _ (.inl rfl)
  · simp at taken

end Manifest
end Vaulthalla
