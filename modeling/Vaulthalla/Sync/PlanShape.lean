import Vaulthalla.Foundation.EmittingFold
import Vaulthalla.Sync.Planner

namespace Vaulthalla
namespace Sync
namespace Planner

open Foundation RemotePolicy Sync.Action AList

/-!
# The shape of a plan

A turn of the main loop pushes at most one action, for the key it visits, with
the files that the two maps hold for that key.  This is proved once for each
function the turn is made of.  The loop visits a key once, so its actions have
distinct keys, and the two passes over the leftovers only name keys for which
the loop pushed nothing: a policy that deletes the leftovers of one side does
not transfer them.

The conflict state matters for later keys only through the conflicts that were
closed, and these are never taken back.
-/

/-! ## What one turn does to the state -/

/-- A change of the bookkeeping alone: the plan stays, and closed conflicts stay closed. -/
structure Bookkeeping (before after : PlanState) : Prop where
  plan_eq : after.plan = before.plan
  closed_subset : before.writes.closed ⊆ after.writes.closed

theorem Bookkeeping.refl (state : PlanState) : Bookkeeping state state :=
  ⟨rfl, List.Subset.refl _⟩

theorem Bookkeeping.trans {first second third : PlanState} (earlier : Bookkeeping first second)
    (later : Bookkeeping second third) : Bookkeeping first third :=
  ⟨later.plan_eq.trans earlier.plan_eq, List.Subset.trans earlier.closed_subset later.closed_subset⟩

section Bookkeeping

variable (ctx : Cloud) (policy : RemotePolicy) (state : PlanState)

theorem skipArchived_bookkeeping : Bookkeeping state state.skipArchived :=
  ⟨rfl, List.Subset.refl _⟩

theorem closeOpenConflict_bookkeeping (fileId : Nat) (resolution : Str) :
    Bookkeeping state (ctx.closeOpenConflict state fileId resolution) := by
  unfold Cloud.closeOpenConflict
  split
  · exact .refl state
  · exact ⟨rfl, List.subset_append_left _ _⟩

theorem noteInSync_bookkeeping (localFile remote : File) :
    Bookkeeping state (ctx.noteInSync state localFile remote) := by
  have settled := closeOpenConflict_bookkeeping ctx state localFile.id (str "converged")
  unfold Cloud.noteInSync
  split
  · exact .refl state
  · simp only
    split
    · exact settled
    · exact { settled with }

theorem handleConflict_bookkeeping (conflict : Conflict) :
    Bookkeeping state (ctx.handleConflict policy state conflict).2 := by
  have noted : Bookkeeping state { state with eventConflicts := state.eventConflicts ++ [conflict] } :=
    ⟨rfl, List.Subset.refl _⟩
  unfold Cloud.handleConflict
  cases resolved : policy.resolveConflict conflict.localFile conflict.upstream with
  | some resolution =>
    simp only
    split
    · exact noted.trans (closeOpenConflict_bookkeeping ctx _ conflict.fileId resolution.toText)
    · exact noted
  | none =>
    cases row : ctx.openConflicts.lookup conflict.fileId with
    | none => exact ⟨rfl, List.Subset.refl _⟩
    | some record =>
      simp only
      split
      · exact noted
      · exact ⟨rfl, List.Subset.refl _⟩

end Bookkeeping

/-! ## The actions of the main loop -/

/-- The reason for which the loop deletes a local file: its removal upstream
was announced, and nobody changed it since both sides last agreed. -/
def FollowsRemoval (ctx : Cloud) (key : Str) : Prop :=
  key ∈ ctx.removedKeys ∧ Exists fun localFile : File => Exists fun base : Baseline =>
    ctx.localMap.lookup key = some localFile ∧ ctx.baselineFor localFile.id = some base ∧
      localChangedSince localFile base = false

/-- An action that the loop may push when it visits a key. -/
structure Planned (ctx : Cloud) (policy : RemotePolicy) (key : Str) (action : Action) : Prop where
  key_eq : action.key = key
  localFile_eq : action.localFile = ctx.localMap.lookup key
  remote_eq : action.remote = ctx.s3Map.lookup key
  not_ensureDirectories : action.type ≠ .ensureDirectories
  not_deleteRemote : action.type ≠ .deleteRemote
  removal : action.type = .deleteLocal -> ctx.s3Map.lookup key = none ∧ FollowsRemoval ctx key
  not_remoteLeftover : ctx.localMap.lookup key = none -> policy.deleteRemoteLeftovers = false
  not_localLeftover : ctx.s3Map.lookup key = none -> policy.deleteLocalLeftovers = false
  indexOnly : action.type = .indexRemoteOnly ∨ action.freeAfterDownload = true -> ctx.localMap.lookup key = none

variable {ctx : Cloud} {policy : RemotePolicy} {action : Action}

/-- A transfer between two existing sides needs no permission of the policy. -/
theorem Planned.transfer {key : Str} {localFile remote : File} (hasLocal : ctx.localMap.lookup key = some localFile)
    (hasRemote : ctx.s3Map.lookup key = some remote) {type : ActionType}
    (isTransfer : type = .upload ∨ type = .download) :
    Planned ctx policy key
      { type := type, key := key, localFile := some localFile, remote := some remote } := by
  refine ⟨rfl, hasLocal.symm, hasRemote.symm, ?_, ?_, ?_, ?_, ?_, ?_⟩
  all_goals rcases isTransfer with rfl | rfl <;> simp [hasLocal, hasRemote]

/-- What a turn of the loop does: bookkeeping, and at most one push. -/
structure Turn (ctx : Cloud) (policy : RemotePolicy) (key : Str) (before after : PlanState) : Prop where
  emission : Exists fun emitted : Option Action =>
    after.plan = before.plan ++ emitted.toList ∧
      forall action, action ∈ emitted -> Planned ctx policy key action
  closed_subset : before.writes.closed ⊆ after.writes.closed

section Turns

variable {ctx : Cloud} {policy : RemotePolicy} {key : Str} {before after : PlanState}

theorem Turn.of_bookkeeping (kept : Bookkeeping before after) : Turn ctx policy key before after :=
  ⟨⟨none, by simp [kept.plan_eq], by simp⟩, kept.closed_subset⟩

theorem Turn.push (kept : Bookkeeping before after) (planned : Planned ctx policy key action) :
    Turn ctx policy key before (after.push action) := by
  refine ⟨⟨some action, ?_, ?_⟩, kept.closed_subset⟩
  · simp [PlanState.push, kept.plan_eq]
  · intro other same
    exact Option.mem_some_iff.mp same ▸ planned

theorem Turn.after_bookkeeping {middle : PlanState} (kept : Bookkeeping before middle)
    (turn : Turn ctx policy key middle after) : Turn ctx policy key before after := by
  rcases turn with ⟨⟨emitted, plan, planned⟩, closed⟩
  exact ⟨⟨emitted, by rw [plan, kept.plan_eq], planned⟩, List.Subset.trans kept.closed_subset closed⟩

variable {remote : File}

theorem Turn.pushDownload (kept : Bookkeeping before after) {localFile : Option File} (planned : Planned ctx policy key
      { type := .download, key := key, localFile := localFile, remote := some remote }) :
    Turn ctx policy key before (pushDownload after key localFile remote) := by
  unfold Planner.pushDownload
  split
  · exact .of_bookkeeping (kept.trans (skipArchived_bookkeeping after))
  · exact .push kept planned

variable (state : PlanState)

theorem planLocalOnly_turn {localFile : File}
    (hasLocal : ctx.localMap.lookup key = some localFile) (noRemote : ctx.s3Map.lookup key = none) :
    Turn ctx policy key state (planLocalOnly ctx policy state key localFile) := by
  have settled : Bookkeeping state (if ctx.hasOpenConflict state.writes localFile.id then
      ctx.closeOpenConflict state localFile.id (str "superseded") else state) := by
    split
    · exact closeOpenConflict_bookkeeping ctx state localFile.id (str "superseded")
    · exact Bookkeeping.refl state
  unfold planLocalOnly
  simp only
  split
  · rename_i removed
    simp only [Bool.and_eq_true, Bool.not_eq_true', List.contains_iff_mem, Option.any_eq_true] at removed
    rcases removed with ⟨⟨⟨announced, _⟩, noLeftovers⟩, base, found, unchanged⟩
    apply Turn.push settled
    exact ⟨rfl, hasLocal.symm, noRemote.symm, by simp, by simp,
      fun _ => ⟨noRemote, announced, localFile, base, hasLocal, found, unchanged⟩,
      by simp [hasLocal], fun _ => noLeftovers, by simp⟩
  · split
    · rename_i uploads
      apply Turn.push settled
      refine ⟨rfl, hasLocal.symm, noRemote.symm, by simp, by simp, by simp, by simp [hasLocal], ?_, by simp⟩
      intro _
      by_contra deletes
      simp [uploadLocalOnly_of_deleteLocalLeftovers (by simpa using deletes)] at uploads
    · exact Turn.of_bookkeeping settled

theorem planRemoteOnly_turn (noLocal : ctx.localMap.lookup key = none)
    (hasRemote : ctx.s3Map.lookup key = some remote) :
    Turn ctx policy key state (planRemoteOnly policy state key remote) := by
  unfold planRemoteOnly
  split
  · rename_i downloads
    have noLeftovers : policy.deleteRemoteLeftovers = false := by
      by_contra deletes
      simp [downloadRemoteOnly_of_deleteRemoteLeftovers (by simpa using deletes)] at downloads
    split
    · apply Turn.push (Bookkeeping.refl state)
      exact ⟨rfl, noLocal.symm, hasRemote.symm, by simp, by simp, by simp, fun _ => noLeftovers,
        by simp [hasRemote], fun _ => noLocal⟩
    · apply Turn.pushDownload (Bookkeeping.refl state)
      exact ⟨rfl, noLocal.symm, hasRemote.symm, by simp, by simp, by simp, fun _ => noLeftovers,
        by simp [hasRemote], fun _ => noLocal⟩
  · exact Turn.of_bookkeeping (Bookkeeping.refl state)

section BothSides

variable (state : PlanState) {localFile remote : File}
variable (hasLocal : ctx.localMap.lookup key = some localFile) (hasRemote : ctx.s3Map.lookup key = some remote)
include hasLocal hasRemote

theorem planByPolicy_turn : Turn ctx policy key state (planByPolicy policy state key localFile remote) := by
  unfold planByPolicy
  cases decided : policy.decideForBoth localFile remote with
  | none => exact .of_bookkeeping (.refl state)
  | some type =>
    rcases decideForBoth_cases decided with rfl | rfl
    · exact .push (.refl state) (.transfer hasLocal hasRemote (.inl rfl))
    · exact .pushDownload (.refl state) (.transfer hasLocal hasRemote (.inr rfl))

theorem planConflict_turn : Turn ctx policy key state (planConflict ctx policy state key localFile remote) := by
  unfold planConflict
  cases built : Cloud.maybeBuildConflict localFile remote with
  | none => exact planByPolicy_turn state hasLocal hasRemote
  | some conflict =>
    have kept := handleConflict_bookkeeping ctx policy state conflict
    simp only
    split
    · rename_i waiting handled
      exact .of_bookkeeping (by simpa [handled] using kept)
    · rename_i settled handled
      exact .push (by simpa [handled] using kept)
        (.transfer hasLocal hasRemote (.inl rfl))
    · rename_i settled handled
      exact .push (by simpa [handled] using kept)
        (.transfer hasLocal hasRemote (.inr rfl))

theorem planDifferent_turn : Turn ctx policy key state (planDifferent ctx policy state key localFile remote) := by
  have conflict : Turn ctx policy key state (planConflict ctx policy state key localFile remote) :=
    planConflict_turn state hasLocal hasRemote
  unfold planDifferent
  simp only
  split
  · exact .of_bookkeeping (.refl state)
  · split
    · exact .push (.refl state) (.transfer hasLocal hasRemote (.inl rfl))
    · exact conflict
  · split
    · exact .pushDownload (.refl state) (.transfer hasLocal hasRemote (.inr rfl))
    · exact conflict
  · exact conflict
  · exact conflict

theorem planBoth_turn : Turn ctx policy key state (planBoth ctx policy state key localFile remote) := by
  unfold planBoth
  simp only
  split
  · exact .pushDownload (.refl state) (.transfer hasLocal hasRemote (.inr rfl))
  · split
    · exact .push (.refl state) (.transfer hasLocal hasRemote (.inl rfl))
    · split
      · exact .of_bookkeeping (noteInSync_bookkeeping ctx state localFile remote)
      · split
        · exact .after_bookkeeping (noteInSync_bookkeeping ctx state localFile remote)
            (planByPolicy_turn _ hasLocal hasRemote)
        · exact planDifferent_turn state hasLocal hasRemote

end BothSides

/-- Every turn of the main loop pushes at most one action, and a justified one. -/
theorem planKey_turn : Turn ctx policy key state (planKey ctx policy state key) := by
  unfold planKey
  cases hasLocal : ctx.localMap.lookup key with
  | none =>
    cases hasRemote : ctx.s3Map.lookup key with
    | none => exact .of_bookkeeping (.refl state)
    | some remote => exact planRemoteOnly_turn state hasLocal hasRemote
  | some localFile =>
    cases hasRemote : ctx.s3Map.lookup key with
    | none => exact planLocalOnly_turn state hasLocal hasRemote
    | some remote => exact planBoth_turn state hasLocal hasRemote

end Turns

/-! ## The whole loop -/

theorem mem_allKeysSorted (ctx : Cloud) (key : Str) :
    key ∈ ctx.allKeysSorted ↔ key ∈ ctx.localMap ∨ key ∈ ctx.s3Map := by
  rw [Cloud.allKeysSorted, SortedKeys.mem_sortedUnique, List.mem_append, mem_keys, mem_keys]

theorem nodup_allKeysSorted (ctx : Cloud) : ctx.allKeysSorted.Nodup :=
  SortedKeys.nodup_sortedUnique _ _

theorem planKey_emits (ctx : Cloud) (policy : RemotePolicy) :
    EmittingFold.Emits (planKey ctx policy) PlanState.plan (Planned ctx policy) :=
  fun state _ => (planKey_turn state).emission

theorem start_plan_type (member : action ∈ (start ctx policy).plan) : action.type = .ensureDirectories := by
  unfold start at member
  split at member
  · exact (List.mem_singleton.mp member) ▸ rfl
  · simp at member

theorem start_plan_length (ctx : Cloud) (policy : RemotePolicy) : (start ctx policy).plan.length ≤ 1 := by
  unfold start
  split <;> simp

/-- The actions of the loop have distinct keys, and each is justified. -/
theorem planKeys_emits (ctx : Cloud) (policy : RemotePolicy) :
    Exists fun emitted =>
      (planKeys ctx policy).plan = (start ctx policy).plan ++ emitted ∧
        (emitted.map key).Nodup ∧
        forall action, action ∈ emitted -> Planned ctx policy action.key action := by
  rcases EmittingFold.foldl_emits (planKey_emits ctx policy)
    (fun _ _ planned => Planned.key_eq planned) ctx.allKeysSorted (start ctx policy) with
    ⟨emitted, plan, keysOf, planned⟩
  exact ⟨emitted, plan, keysOf.nodup (nodup_allKeysSorted ctx), planned⟩

/-! ## Leftovers -/

section Leftovers

variable {ctx : Cloud} {policy : RemotePolicy} {action : Action}

theorem remoteLeftovers_spec (member : action ∈ remoteLeftovers ctx policy) :
    policy.deleteRemoteLeftovers ∧ action.type = .deleteRemote ∧
      ctx.localMap.lookup action.key = none ∧
      Exists fun remote => ctx.s3Map.lookup action.key = some remote := by
  unfold remoteLeftovers at member
  split at member
  · rename_i deletes
    rcases List.mem_map.mp member with ⟨entry, kept, rfl⟩
    rcases List.mem_filter.mp kept with ⟨present, absent⟩
    exact ⟨deletes, rfl, Option.isNone_iff_eq_none.mp absent, entry.2, mem_lookup_iff.mpr present⟩
  · simp at member

theorem localLeftovers_spec (member : action ∈ localLeftovers ctx policy) :
    policy.deleteLocalLeftovers ∧ action.type = .deleteLocal ∧
      ctx.s3Map.lookup action.key = none ∧
      Exists fun localFile =>
        ctx.localMap.lookup action.key = some localFile ∧ action.localFile = some localFile := by
  unfold localLeftovers at member
  split at member
  · rename_i deletes
    rcases List.mem_map.mp member with ⟨entry, kept, rfl⟩
    rcases List.mem_filter.mp kept with ⟨present, absent⟩
    exact ⟨deletes, rfl, Option.isNone_iff_eq_none.mp absent, entry.2, mem_lookup_iff.mpr present, rfl⟩
  · simp at member

theorem nodup_filtered_keys {map : AList (fun _ : Str => File)} (keep : Sigma (fun _ : Str => File) -> Bool) :
    ((map.entries.filter keep).map Sigma.fst).Nodup :=
  (List.filter_sublist.map Sigma.fst).nodup map.nodupKeys

theorem nodup_remoteLeftovers_keys (ctx : Cloud) (policy : RemotePolicy) :
    ((remoteLeftovers ctx policy).map key).Nodup := by
  unfold remoteLeftovers
  split
  · rw [List.map_map]
    exact nodup_filtered_keys _
  · simp

theorem nodup_localLeftovers_keys (ctx : Cloud) (policy : RemotePolicy) :
    ((localLeftovers ctx policy).map key).Nodup := by
  unfold localLeftovers
  split
  · rw [List.map_map]
    exact nodup_filtered_keys _
  · simp

end Leftovers

/-! ## Plans -/

/-- A plan is the directory action, the actions of the loop and the leftovers of one side. -/
theorem assemble_emits (ctx : Cloud) (policy : RemotePolicy) :
    Exists fun emitted =>
      assemble ctx policy =
        (start ctx policy).plan ++ (emitted ++ remoteLeftovers ctx policy ++ localLeftovers ctx policy) ∧
        ((emitted ++ remoteLeftovers ctx policy ++ localLeftovers ctx policy).map key).Nodup ∧
        forall action, action ∈ emitted -> Planned ctx policy action.key action := by
  rcases planKeys_emits ctx policy with ⟨emitted, plan, distinct, planned⟩
  refine ⟨emitted, by simp [assemble, plan], ?_, planned⟩
  rw [List.map_append, List.map_append]
  apply List.Nodup.append
  · apply List.Nodup.append distinct (nodup_remoteLeftovers_keys ctx policy)
    -- The policy deletes these leftovers, so the loop did not transfer them.
    intro key inLoop inLeftovers
    rcases List.mem_map.mp inLoop with ⟨action, emittedAction, rfl⟩
    rcases List.mem_map.mp inLeftovers with ⟨leftover, isLeftover, same⟩
    rcases remoteLeftovers_spec isLeftover with ⟨deletes, _, noLocal, _⟩
    rw [same] at noLocal
    simp [(planned action emittedAction).not_remoteLeftover noLocal] at deletes
  · exact nodup_localLeftovers_keys ctx policy
  · intro key earlier inLeftovers
    rcases List.mem_map.mp inLeftovers with ⟨leftover, isLeftover, rfl⟩
    rcases localLeftovers_spec isLeftover with ⟨deletes, _, noRemote, _⟩
    rcases List.mem_append.mp earlier with inLoop | inRemote
    · rcases List.mem_map.mp inLoop with ⟨action, emittedAction, same⟩
      rw [← same] at noRemote
      simp [(planned action emittedAction).not_localLeftover noRemote] at deletes
    · rcases List.mem_map.mp inRemote with ⟨other, isRemote, same⟩
      rcases remoteLeftovers_spec isRemote with ⟨_, _, _, remote, hasRemote⟩
      rw [same, noRemote] at hasRemote
      simp at hasRemote

section

variable (member : action ∈ assemble ctx policy)

include member

/-- Where an action of a plan comes from. -/
theorem mem_assemble :
    action.type = .ensureDirectories ∨ Planned ctx policy action.key action ∨
      action ∈ remoteLeftovers ctx policy ∨ action ∈ localLeftovers ctx policy := by
  rcases planKeys_emits ctx policy with ⟨emitted, plan, _, planned⟩
  simp only [assemble, plan, List.mem_append] at member
  rcases member with ((first | inLoop) | inRemote) | inLocal
  · exact .inl (start_plan_type first)
  · exact .inr (.inl (planned action inLoop))
  · exact .inr (.inr (.inl inRemote))
  · exact .inr (.inr (.inr inLocal))

theorem deleteRemote_justified (deletes : action.type = .deleteRemote) :
    policy.strategy = .mirror ∧ policy.conflictPolicy = .keepLocal ∧
      ctx.localMap.lookup action.key = none := by
  rcases mem_assemble member with directories | planned | inRemote | inLocal
  · simp [directories] at deletes
  · exact absurd deletes planned.not_deleteRemote
  · rcases remoteLeftovers_spec inRemote with ⟨permitted, _, noLocal, _⟩
    rcases (deleteRemoteLeftovers_iff policy).mp permitted with ⟨mirror, keepLocal⟩
    exact ⟨mirror, keepLocal, noLocal⟩
  · simp [(localLeftovers_spec inLocal).2.1] at deletes

theorem deleteLocal_justified (deletes : action.type = .deleteLocal) :
    ctx.s3Map.lookup action.key = none ∧ action.localFile = ctx.localMap.lookup action.key ∧
      ((policy.strategy = .mirror ∧ policy.conflictPolicy = .keepRemote) ∨
        FollowsRemoval ctx action.key) := by
  rcases mem_assemble member with directories | planned | inRemote | inLocal
  · simp [directories] at deletes
  · rcases planned.removal deletes with ⟨noRemote, follows⟩
    exact ⟨noRemote, planned.localFile_eq, .inr follows⟩
  · simp [(remoteLeftovers_spec inRemote).2.1] at deletes
  · rcases localLeftovers_spec inLocal with ⟨permitted, _, noRemote, localFile, hasLocal, same⟩
    exact ⟨noRemote, by rw [hasLocal, same],
      .inl ((deleteLocalLeftovers_iff policy).mp permitted)⟩

end

/-- A returned plan has one action for each key besides the single directory
action, and deletes on neither side without the reason the policy names. -/
theorem build_wellFormed {ctx : Cloud} {policy : RemotePolicy} {plan : List Action}
    (built : build ctx policy = .ok plan) :
    ((plan.filter fun action => action.type != .ensureDirectories).map key).Nodup ∧
      (plan.filter fun action => action.type == .ensureDirectories).length ≤ 1 ∧
      (forall action, action ∈ plan -> action.type = .deleteRemote ->
        policy.strategy = .mirror ∧ policy.conflictPolicy = .keepLocal ∧
          ctx.localMap.lookup action.key = none) ∧
      (forall action, action ∈ plan -> action.type = .deleteLocal ->
        ctx.s3Map.lookup action.key = none ∧
          ((policy.strategy = .mirror ∧ policy.conflictPolicy = .keepRemote) ∨
            FollowsRemoval ctx action.key)) ∧
      (forall action localFile base, action ∈ plan -> action.type = .deleteLocal ->
        action.localFile = some localFile -> ctx.baselineFor localFile.id = some base ->
        localChangedSince localFile base = true ->
        policy.strategy = .mirror ∧ policy.conflictPolicy = .keepRemote) := by
  rw [build_eq_assemble built]
  refine ⟨?_, ?_, fun _ => deleteRemote_justified, ?_, ?_⟩
  · rcases assemble_emits ctx policy with ⟨emitted, assembled, distinct, _⟩
    have directoriesOnly : ((start ctx policy).plan.filter fun action =>
        action.type != .ensureDirectories) = [] := by
      rw [List.filter_eq_nil_iff]
      intro action member
      simp [start_plan_type member]
    rw [assembled, List.filter_append, directoriesOnly, List.nil_append]
    exact (List.filter_sublist.map key).nodup distinct
  · rcases assemble_emits ctx policy with ⟨emitted, assembled, _, planned⟩
    have noDirectories : ((emitted ++ remoteLeftovers ctx policy ++ localLeftovers ctx policy).filter
        fun action => action.type == .ensureDirectories) = [] := by
      rw [List.filter_eq_nil_iff]
      intro action member
      simp only [List.mem_append] at member
      rcases member with (inLoop | inRemote) | inLocal
      · simpa using (planned action inLoop).not_ensureDirectories
      · simp [(remoteLeftovers_spec inRemote).2.1]
      · simp [(localLeftovers_spec inLocal).2.1]
    rw [assembled, List.filter_append, noDirectories, List.append_nil]
    exact (List.length_filter_le _ _).trans (start_plan_length ctx policy)
  · intro action member deletes
    rcases deleteLocal_justified member deletes with ⟨noRemote, _, reason⟩
    exact ⟨noRemote, reason⟩
  · intro action localFile base member deletes isLocal found changed
    rcases deleteLocal_justified member deletes with ⟨_, same, mirror | follows⟩
    · exact mirror
    · rcases follows with ⟨_, recorded, agreed, hasLocal, foundToo, unchanged⟩
      rw [same, hasLocal] at isLocal
      cases isLocal
      rw [found] at foundToo
      cases foundToo
      simp [changed] at unchanged

/-- A text file of four bytes, as a scan of the vault finds it. -/
def textFile (id : Nat) (path : Str) (contentHash : Option Str) (updatedAt : Int) : File :=
  { id := id
    path := path
    sizeBytes := 4
    updatedAt := updatedAt
    encryptionIv := str "iv"
    mimeType := some (str "text/plain")
    contentHash := contentHash
    remoteStorageClass := none
    remoteEtag := none
    remoteRestoreStatus := none
    remoteVersionId := none
    remoteSequencer := none
    remoteEncrypted := none
    encryptedWithKeyVersion := 1 }

/-- A scheduled pass without open conflicts. -/
def scheduledPass (localMap s3Map : AList (fun _ : Str => File)) (baselines : AList (fun _ : Nat => Baseline))
    (removedKeys : List Str) : Cloud :=
  { localMap := localMap
    s3Map := s3Map
    baselines := baselines
    openConflicts := ∅
    conflictWrites := { baselines := [], opened := [], closed := [] }
    scope := none
    removedKeys := removedKeys
    downloadedBytes := 0
    freeSpace := 1024 }

/-- One file was removed upstream and another one added: the first is deleted, the second fetched. -/
theorem build_wellFormed_removal :
    let removed := textFile 1 (str "/a.txt") (some (str "h1")) 100
    let added := textFile 0 (str "/b.txt") (some (str "h2")) 100
    let ctx := scheduledPass (singleton (str "a.txt") removed) (singleton (str "b.txt") added)
      (singleton 1 (.afterUpload removed)) [str "a.txt"]
    let plan : List Action :=
      [{ type := .ensureDirectories, key := [], localFile := none, remote := none },
        { type := .deleteLocal, key := str "a.txt", localFile := some removed, remote := none },
        { type := .download, key := str "b.txt", localFile := none, remote := some added }]
    build ctx { strategy := .sync, conflictPolicy := .ask, maxDownloadedBytes := none } = .ok plan ∧
      ((plan.filter fun action => action.type != .ensureDirectories).map key).Nodup := by
  intro removed added ctx plan
  have built : build ctx { strategy := .sync, conflictPolicy := .ask, maxDownloadedBytes := none } = .ok plan := rfl
  exact ⟨built, (build_wellFormed built).1⟩

/-- Every action of a plan carries the files that the two sides list under its key. -/
theorem plan_carries_listed_files {ctx : Cloud} {policy : RemotePolicy} {plan : List Action} {action : Action}
    (built : build ctx policy = .ok plan) (member : action ∈ plan) (acts : action.type ≠ .ensureDirectories) :
    action.localFile = ctx.localMap.lookup action.key ∧ action.remote = ctx.s3Map.lookup action.key := by
  rw [build_eq_assemble built] at member
  rcases mem_assemble member with directories | planned | inRemote | inLocal
  · exact absurd directories acts
  · exact ⟨planned.localFile_eq, planned.remote_eq⟩
  · rcases List.mem_map.mp (List.mem_ite_nil_right.mp inRemote).2 with ⟨entry, kept, rfl⟩
    rcases List.mem_filter.mp kept with ⟨present, absent⟩
    exact ⟨(Option.isNone_iff_eq_none.mp absent).symm, (mem_lookup_iff.mpr present).symm⟩
  · rcases List.mem_map.mp (List.mem_ite_nil_right.mp inLocal).2 with ⟨entry, kept, rfl⟩
    rcases List.mem_filter.mp kept with ⟨present, absent⟩
    exact ⟨(mem_lookup_iff.mpr present).symm, (Option.isNone_iff_eq_none.mp absent).symm⟩

/-- One file is new on each side. -/
theorem plan_carries_listed_files_both :
    let kept := textFile 1 (str "/a.txt") (some (str "h1")) 100
    let added := textFile 0 (str "/b.txt") none 100
    let ctx := scheduledPass (singleton (str "a.txt") kept) (singleton (str "b.txt") added) ∅ []
    some kept = ctx.localMap.lookup (str "a.txt") ∧ some added = ctx.s3Map.lookup (str "b.txt") := by
  intro kept added ctx
  have built : build ctx { strategy := .sync, conflictPolicy := .ask, maxDownloadedBytes := none } =
      .ok [{ type := .ensureDirectories, key := [], localFile := none, remote := none },
        { type := .upload, key := str "a.txt", localFile := some kept, remote := none },
        { type := .download, key := str "b.txt", localFile := none, remote := some added }] := rfl
  exact ⟨(plan_carries_listed_files built (.tail _ (.head _)) nofun).1,
    (plan_carries_listed_files built (.tail _ (.tail _ (.head _))) nofun).2⟩

end Planner
end Sync
end Vaulthalla
