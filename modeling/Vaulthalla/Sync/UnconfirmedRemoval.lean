import Vaulthalla.Sync.EventApplier

namespace Vaulthalla
namespace Sync
namespace EventApplier

open Foundation InboxKind

/-!
# Removals that the provider does not confirm

When the newest event of a group is a removal and the object still exists, the
newest creation of the group is acted on instead.  By then the removal is
settled, and the inbox lists it as the newest event of the key: an older
creation counts as overtaken by the very removal that was refused.
-/

section Creation

variable {around : Surroundings} {state : State} {group : List InboxRow} {latest creation row : InboxRow} {head : Head}

/-- The newest row of the key is another one, newer than this, and it was handled before
or is settled in this turn. -/
def Overtaken (state : State) (group : List InboxRow) (creation : InboxRow) : Prop :=
  Exists fun newest => state.latestForKey = some newest ∧ newest.id ≠ creation.id ∧
    (newest.state ≠ InboxState.pending ∨ newest.id ∈ group.map InboxRow.id) ∧
    tied creation.event newest.event = false ∧ newerOrEqual creation newest = false

/-- The state in which the creation is acted on. -/
def othersSettled (around : Surroundings) (state : State) (group : List InboxRow) (latest creation : InboxRow) : State :=
  (group.filter fun row => row.id != latest.id && row.id != creation.id).foldl (supersede around)
    (state.markSkipped latest.id (str "removal not confirmed: the object still exists") InboxOrigin.external)

def ownWrite (around : Surroundings) (state : State) (row : InboxRow) : Option State :=
  state.settleOwnWrite around.now row row.event.sizeBytes row.event.etag (str "self: Vaulthalla's own write")

/-- The row is announced by one of the intents. -/
def announced (now : Int) (intents : List WriteIntent) (row : InboxRow) : Option WriteIntent :=
  intents.find? fun intent => intent.covers now row.event row.event.sizeBytes row.event.etag

/-- A row takes the first intent that announces it. -/
def claim (now : Int) (intents : List WriteIntent) (row : InboxRow) : List WriteIntent :=
  ((announced now intents row).map intents.erase).getD intents

theorem ownWrite_eq_none_iff : ownWrite around state row = none ↔ announced around.now state.intents row = none :=
  Option.map_eq_none_iff

theorem intents_foldl_supersede (around : Surroundings) (rows : List InboxRow) (state : State) :
    (rows.foldl (supersede around) state).intents = rows.foldl (claim around.now) state.intents := by
  induction rows generalizing state with
  | nil => rfl
  | cons row rest ih =>
    have one : (supersede around state row).intents = claim around.now state.intents row := by
      unfold supersede State.settleOwnWrite claim announced
      cases state.intents.find? fun intent =>
          intent.covers around.now row.event row.event.sizeBytes row.event.etag with
      | none | some => rfl
    rw [List.foldl_cons, ih, one, List.foldl_cons]

theorem index_othersSettled (around : Surroundings) (state : State) (group : List InboxRow) (latest creation : InboxRow) :
    (othersSettled around state group latest creation).index = state.index :=
  index_foldl (index_supersede around) _ _

theorem marks_othersSettled (around : Surroundings) (state : State) (creation : InboxRow) (isLatest : latest ∈ group) :
    Exists fun ids => Marks ids state (othersSettled around state group latest creation) ∧
      forall id, id ≠ creation.id -> (ids id ↔ id ∈ group.map InboxRow.id) := by
  refine ⟨_, (Marks.settle state latest.id InboxState.noConfusion _ _).trans
    (Marks.foldl (marks_supersede around) _ _), ?_⟩
  intro id isOther
  grind

theorem staleInInbox_othersSettled_iff (around : Surroundings) (state : State) (creation : InboxRow)
    (isLatest : latest ∈ group) :
    staleInInbox (othersSettled around state group latest creation) creation ↔
      Overtaken state group creation := by
  rcases marks_othersSettled around state creation isLatest with ⟨ids, marks, inGroup⟩
  rcases marks.latestForKey with ⟨change, isNewest, keeps⟩
  have handled : forall newest : InboxRow, newest.id ≠ creation.id -> ((change newest).state ≠ InboxState.pending ↔
      newest.state ≠ InboxState.pending ∨ newest.id ∈ group.map InboxRow.id) := by
    intro newest isOther
    rw [← inGroup newest.id isOther]
    by_cases inside : ids newest.id
    · exact iff_of_true ((keeps newest).2.2.2 inside) (.inr inside)
    · rw [(keeps newest).2.2.1 inside, or_iff_left inside]
  have sameOrder : forall newest, newerOrEqual creation (change newest) = newerOrEqual creation newest := by
    intro newest
    simp only [newerOrEqual, (keeps newest).1, (keeps newest).2.1]
  simp only [staleInInbox, isNewest, Overtaken, Option.any_eq_true, Option.map_eq_some_iff, Bool.and_eq_true,
    bne_iff_ne, Bool.not_eq_true']
  constructor
  · rintro ⟨_, ⟨newest, found, rfl⟩, ⟨⟨isOther, isHandled⟩, untied⟩, isNewer⟩
    rw [(keeps newest).1] at isOther
    rw [(keeps newest).2.1] at untied
    rw [sameOrder newest] at isNewer
    exact ⟨newest, found, isOther, (handled newest isOther).mp isHandled, untied, isNewer⟩
  · rintro ⟨newest, found, isOther, isHandled, untied, isNewer⟩
    refine ⟨change newest, ⟨newest, found, rfl⟩, ⟨⟨?_, (handled newest isOther).mpr isHandled⟩, ?_⟩, ?_⟩
    · rwa [(keeps newest).1]
    · rwa [(keeps newest).2.1]
    · rwa [sameOrder newest]

theorem index_create_isSome :
    (create around state row).index.isSome ↔
      state.index.isSome ∨ (ownWrite around state row = none ∧ foreignIgnored around state = false) := by
  unfold create
  cases own : ownWrite around state row with
  | some settled =>
    have sameIndex : settled.index = state.index := by
      rcases Option.map_eq_some_iff.mp own with ⟨intent, _, rfl⟩
      rfl
    unfold ownWrite at own
    rw [own]
    cases indexed : state.index with
    | none => simp [sameIndex, indexed]
    | some row => simp [State.upsertFile]
  | none =>
    unfold ownWrite at own
    rw [own]
    by_cases isSame : sameEtag state.index row.event.etag
    · have isIndexed : state.index.isSome := by
        unfold sameEtag at isSame
        cases indexed : state.index <;> simp_all
      simp [isSame, isIndexed]
    · by_cases isForeign : foreignIgnored around state
      · simp [isSame, isForeign]
      · simp [isSame, isForeign, State.upsertFile]

theorem index_act_isSome (isCreation : row.event.kind = created) :
    (act around state row).index.isSome ↔ state.index.isSome ∨
      (beforeBaseline around row.event = false ∧ staleInInbox state row = false ∧
        ownWrite around state row = none ∧ foreignIgnored around state = false) := by
  unfold act
  split_ifs with isBefore isStale isOlder
  · simp [isBefore]
  · simp [isStale]
  · have isIndexed : state.index.isSome := by
      unfold staleInIndex at isOlder
      cases indexed : state.index <;> simp_all
    simp [isIndexed]
  · simp only [isCreation, index_create_isSome, Bool.not_eq_true] at isBefore isStale ⊢
    simp [isBefore, isStale]

/-- The row of the index was there before, or the applier asks the provider and the
newest creation of the group, if it has one, is not settled for another reason. -/
def RowStays (around : Surroundings) (state : State) (group : List InboxRow) (latest : InboxRow) : Prop :=
  state.index.isSome = true ∨
    (Manifest.isVaulthallaManifestKey around.key = false ∧
      (state.intents.find? fun intent => intent.covers around.now latest.event none none) = none ∧
      forall creation, newestCreation group = some creation ->
        beforeBaseline around creation.event = false ∧ ¬ Overtaken state group creation ∧
          announced around.now ((group.filter fun row => row.id != latest.id && row.id != creation.id).foldl
            (claim around.now) state.intents) creation = none ∧
          foreignIgnored around state = false)

theorem index_unconfirmed_isSome (isLatest : latest ∈ group) :
    (unconfirmed around state group latest head).index.isSome ↔ state.index.isSome ∨
      forall creation, newestCreation group = some creation ->
        beforeBaseline around creation.event = false ∧ ¬ Overtaken state group creation ∧
          announced around.now ((group.filter fun row => row.id != latest.id && row.id != creation.id).foldl
            (claim around.now) state.intents) creation = none ∧
          foreignIgnored around state = false := by
  unfold unconfirmed
  cases isNewest : newestCreation group with
  | none =>
    rw [index_foldl_markSkipped]
    split_ifs with isSame
    · have isIndexed : state.index.isSome := by
        unfold sameEtag at isSame
        cases indexed : state.index <;> simp_all
      simp [isIndexed]
    · simp [State.upsertFile]
  | some creation =>
    have isCreation : creation.event.kind = created := by
      simpa using (List.mem_filter.mp (Selection.mem_of_holder isNewest)).2
    have stale := staleInInbox_othersSettled_iff around state creation isLatest
    have sameForeign : foreignIgnored around (othersSettled around state group latest creation) =
        foreignIgnored around state := by
      rw [foreignIgnored, foreignIgnored, index_othersSettled]
    change (act around (othersSettled around state group latest creation) creation).index.isSome ↔ _
    have left : (othersSettled around state group latest creation).intents =
        (group.filter fun row => row.id != latest.id && row.id != creation.id).foldl (claim around.now) state.intents :=
      intents_foldl_supersede around _ _
    rw [index_act_isSome isCreation, index_othersSettled, sameForeign, ownWrite_eq_none_iff, left]
    simp [← stale]

/-- After the turn of a group whose newest event is a removal of an object that exists,
the index has a row for the key exactly when it had one before or the newest creation
of the group is not settled for another reason: overtaken by a handled event, the
refused removal among them. -/
theorem unconfirmed_removal_keeps_row (isNewest : Selection.holder newerOrEqual group = some latest)
    (isRemoval : latest.event.kind = removed) (stillThere : around.head = some head) :
    (applyGroup around state group).index.isSome = true ↔ RowStays around state group latest := by
  unfold applyGroup RowStays
  split_ifs with isManifest
  · rw [index_foldl_markSkipped]
    simp [isManifest]
  · simp only [isNewest, isRemoval, stillThere]
    cases own : state.settleOwnWrite around.now latest none none (str "self: Vaulthalla's own delete") with
    | some settled =>
      rcases Option.map_eq_some_iff.mp own with ⟨intent, covers, rfl⟩
      rw [index_foldl (index_supersede around), covers]
      simp
    | none =>
      rw [index_unconfirmed_isSome (Selection.mem_of_holder isNewest), Option.map_eq_none_iff.mp own]
      simp [isManifest]

end Creation

/-! ## A creation and the deletion of an older version -/

def sampleEvent (kind : InboxKind) (sequencer : String) (etag : String) : Event where
  kind := kind
  sequencer := some (str sequencer)
  eventTimeMs := none
  eventTime := 100
  etag := some (str etag)
  sizeBytes := some 5
  versionId := none

def pendingRow (id : Nat) (event : Event) : InboxRow := ⟨id, event, InboxState.pending, [], InboxOrigin.unknown⟩

/-- The object exists, and the vault has no subscription that leaves anything out. -/
def objectExists : Surroundings :=
  ⟨str "k", none, some ⟨str "e", some 5, false, [], 0, none⟩, false, 200⟩

/-- Our own upload is overtaken by somebody else's, and with it a deletion with the same sequencer is reported. -/
def ownThenForeign : List InboxRow :=
  [pendingRow 1 (sampleEvent created "1" "d"), pendingRow 2 (sampleEvent created "2" "e"),
    pendingRow 3 (sampleEvent removed "2" "e")]

/-- The deletion is not confirmed.  The intent is taken by our own upload, so the other one gets its row. -/
theorem unconfirmed_removal_keeps_foreign_row :
    let state : State := ⟨ownThenForeign, none, [⟨created, 100, 300, none, some (str "d")⟩]⟩
    newestCreation ownThenForeign = some (pendingRow 2 (sampleEvent created "2" "e")) ∧
      (announced 200 state.intents (pendingRow 1 (sampleEvent created "1" "d"))).isSome = true ∧
      (applyGroup objectExists state ownThenForeign).index.isSome = true := by
  intro state
  have isLatest : Selection.holder newerOrEqual ownThenForeign = some (pendingRow 3 (sampleEvent removed "2" "e")) := by
    decide +kernel
  refine ⟨by decide +kernel, by decide +kernel, (unconfirmed_removal_keeps_row isLatest rfl rfl).mpr ?_⟩
  refine .inr ⟨by decide +kernel, by decide +kernel, fun creation isCreation => ?_⟩
  have same : newestCreation ownThenForeign = some (pendingRow 2 (sampleEvent created "2" "e")) := by decide +kernel
  cases same.symm.trans isCreation
  refine ⟨by decide +kernel, ?_, by decide +kernel, by decide +kernel⟩
  rintro ⟨newest, isNewest, _, _, _, isOlder⟩
  have same : state.latestForKey = some (pendingRow 3 (sampleEvent removed "2" "e")) := by decide +kernel
  cases same.symm.trans isNewest
  exact absurd isOlder (by decide +kernel)

def creationThenRemoval : List InboxRow :=
  [pendingRow 1 (sampleEvent created "1" "e"), pendingRow 2 (sampleEvent removed "2" "e")]

/-- An object is created, and then one of its older versions is deleted: the index
learns neither event, though the provider says that the object is there. -/
theorem refused_removal_hides_creation :
    Selection.holder newerOrEqual creationThenRemoval = some (pendingRow 2 (sampleEvent removed "2" "e")) ∧
      (applyGroup objectExists ⟨creationThenRemoval, none, []⟩ creationThenRemoval).index = none := by
  decide +kernel

end EventApplier
end Sync
end Vaulthalla
