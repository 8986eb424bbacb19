import Vaulthalla.Sync.PlanShape

namespace Vaulthalla
namespace Sync
namespace Planner

open Foundation RemotePolicy

/-!
# Keys on both sides and the metadata path

For a key on both sides the planner asks two questions in turn.  First it
compares the rows with each other: equal rows are left alone, rows that agree
in size and in any hash both have go to the decision by strategy, and only the
rest is compared with the baseline.  The baseline has the last word for that
rest alone.  Rows that differ in metadata only (a mime type that the remote
index does not keep, a remote row without a hash) take the decision by
strategy whatever the baseline says, and that decision looks at the times.

The two results below say exactly when this shows: under `ask` for a file that
changed on both sides, and under any rule for a file that changed on neither.
-/

/-! ## The decision by strategy -/

/-- The rows differ, but neither in size nor in a hash that both have. -/
def MetadataOnly (localFile remote : File) : Prop :=
  localFile.equal remote = false ∧ Cloud.hasPotentialConflict localFile remote false = false

instance (localFile remote : File) : Decidable (MetadataOnly localFile remote) :=
  inferInstanceAs (Decidable (_ ∧ _))

def Fetchable (remote : File) : Prop := remote.requiresArchiveRestoreForBodyGet = false

def Stamped (localFile remote : File) : Prop := localFile.updatedAt ≠ 0 ∧ remote.updatedAt ≠ 0

/-- The side modified last can be copied over the other. -/
def NewestCopies (localFile remote : File) : Prop :=
  remote.updatedAt < localFile.updatedAt ∨ (localFile.updatedAt < remote.updatedAt ∧ Fetchable remote)

/-- The policy and the modification times call for a transfer that can be made. -/
def TransferDue (policy : RemotePolicy) (localFile remote : File) : Prop :=
  match policy.strategy with
  | .cache => Stamped localFile remote ∧ localFile.updatedAt < remote.updatedAt ∧ Fetchable remote
  | .sync =>
    (Stamped localFile remote ∧ NewestCopies localFile remote) ∨
      (¬ Stamped localFile remote ∧ Fetchable remote)
  | .mirror =>
    match policy.conflictPolicy with
    | .keepLocal => True
    | .keepRemote => Fetchable remote
    | .keepNewest => Stamped localFile remote ∧ NewestCopies localFile remote
    | .ask => False

/-- The action that the decision by strategy pushes. -/
def policyAction (policy : RemotePolicy) (key : Str) (localFile remote : File) : Option Action :=
  match policy.decideForBoth localFile remote with
  | none => none
  | some .download =>
    if remote.requiresArchiveRestoreForBodyGet then none
    else some { type := .download, key := key, localFile := some localFile, remote := some remote }
  | some type => some { type := type, key := key, localFile := some localFile, remote := some remote }

theorem planByPolicy_plan (policy : RemotePolicy) (state : PlanState) (key : Str) (localFile remote : File) :
    (planByPolicy policy state key localFile remote).plan =
      state.plan ++ (policyAction policy key localFile remote).toList := by
  cases decided : policy.decideForBoth localFile remote with
  | none => simp [planByPolicy, policyAction, decided]
  | some type =>
    rcases decideForBoth_cases decided with rfl | rfl
    · simp [planByPolicy, policyAction, decided, PlanState.push]
    · cases archived : remote.requiresArchiveRestoreForBodyGet <;>
        simp [planByPolicy, policyAction, decided, pushDownload, archived, PlanState.skipArchived,
          PlanState.push]

section PolicyAction

variable {policy : RemotePolicy} {key : Str} {localFile remote : File}

theorem policyAction_spec {action : Action} (emitted : action ∈ policyAction policy key localFile remote) :
    action.key = key ∧ (action.type = .upload ∨ action.type = .download) := by
  unfold policyAction at emitted
  split at emitted
  · simp at emitted
  · split at emitted
    · simp at emitted
    · exact Option.mem_some_iff.mp emitted ▸ ⟨rfl, .inr rfl⟩
  · rename_i type _ decided
    exact Option.mem_some_iff.mp emitted ▸ ⟨rfl, decideForBoth_cases decided⟩

theorem policyAction_isSome_of_upload (decided : policy.decideForBoth localFile remote = some .upload) :
    (policyAction policy key localFile remote).isSome := by
  simp [policyAction, decided]

theorem policyAction_isSome_of_download (decided : policy.decideForBoth localFile remote = some .download) :
    (policyAction policy key localFile remote).isSome ↔ Fetchable remote := by
  cases archived : remote.requiresArchiveRestoreForBodyGet <;>
    simp [policyAction, decided, archived, Fetchable]

theorem policyAction_isSome_of_none (decided : policy.decideForBoth localFile remote = none) :
    (policyAction policy key localFile remote).isSome = false := by
  simp [policyAction, decided]

/-- The newest side wins when both sides have a time. -/
theorem policyAction_isSome_of_newest (decided : policy.decideForBoth localFile remote =
      newest localFile.updatedAt remote.updatedAt) :
    (policyAction policy key localFile remote).isSome ↔ NewestCopies localFile remote := by
  rcases lt_trichotomy localFile.updatedAt remote.updatedAt with older | same | newer
  · rw [policyAction_isSome_of_download (by simp [decided, newest, older, older.le])]
    simp [NewestCopies, older, older.le]
  · rw [policyAction_isSome_of_none (by simp [decided, newest, same])]
    simp [NewestCopies, same]
  · rw [policyAction_isSome_of_upload (by simp [decided, newest, newer])]
    simp [NewestCopies, newer]

theorem policyAction_isSome_iff :
    (policyAction policy key localFile remote).isSome ↔ TransferDue policy localFile remote := by
  have stampedIff : Stamped localFile remote ↔ ¬ (localFile.updatedAt = 0 ∨ remote.updatedAt = 0) := by
    simp [Stamped]
  unfold TransferDue
  cases strategy : policy.strategy with
  | cache =>
    by_cases stamped : Stamped localFile remote
    · by_cases older : localFile.updatedAt < remote.updatedAt
      · rw [policyAction_isSome_of_download
          (by simp [decideForBoth, strategy, stampedIff.mp stamped, older])]
        simp [stamped, older]
      · rw [policyAction_isSome_of_none
          (by simp [decideForBoth, strategy, stampedIff.mp stamped, older])]
        simp [older]
    · rw [policyAction_isSome_of_none
        (by simp [decideForBoth, strategy, not_not.mp (stampedIff.not.mp stamped)])]
      simp [stamped]
  | sync =>
    by_cases stamped : Stamped localFile remote
    · rw [policyAction_isSome_of_newest
        (by simp [decideForBoth, strategy, stampedIff.mp stamped])]
      simp [stamped]
    · rw [policyAction_isSome_of_download
        (by simp [decideForBoth, strategy, not_not.mp (stampedIff.not.mp stamped)])]
      simp [stamped]
  | mirror =>
    cases conflict : policy.conflictPolicy with
    | keepLocal =>
      rw [policyAction_isSome_of_upload (by simp [decideForBoth, strategy, conflict])]
      simp
    | keepRemote =>
      exact policyAction_isSome_of_download (by simp [decideForBoth, strategy, conflict])
    | keepNewest =>
      by_cases stamped : Stamped localFile remote
      · rw [policyAction_isSome_of_newest
          (by simp [decideForBoth, strategy, conflict, stampedIff.mp stamped])]
        simp [stamped]
      · rw [policyAction_isSome_of_none
          (by simp [decideForBoth, strategy, conflict,
            not_not.mp (stampedIff.not.mp stamped)])]
        simp [stamped]
    | ask =>
      rw [policyAction_isSome_of_none (by simp [decideForBoth, strategy, conflict])]
      simp

end PolicyAction

/-! ## One turn for a key on both sides -/

/-- What the metadata path pushes for a pair of rows. -/
def metadataActions (policy : RemotePolicy) (key : Str) (localFile remote : File) : List Action :=
  if MetadataOnly localFile remote then (policyAction policy key localFile remote).toList else []

variable {action : Action} {localFile remote : File} {policy : RemotePolicy}

theorem metadataActions_spec {key : Str} (emitted : action ∈ metadataActions policy key localFile remote) :
    action.key = key ∧ (action.type = .upload ∨ action.type = .download) := by
  unfold metadataActions at emitted
  split at emitted
  · exact policyAction_spec (Option.mem_toList.mp emitted)
  · simp at emitted

theorem metadataActions_eq_nil_iff (policy : RemotePolicy) (key : Str) (localFile remote : File) :
    metadataActions policy key localFile remote = [] ↔
      ¬ (MetadataOnly localFile remote ∧ TransferDue policy localFile remote) := by
  unfold metadataActions
  by_cases metadata : MetadataOnly localFile remote
  · have due := @policyAction_isSome_iff policy key localFile remote
    rw [← due]
    cases policyAction policy key localFile remote <;> simp [metadata]
  · simp [metadata]

section OneTurn

variable {ctx : Cloud} {policy : RemotePolicy} {state : PlanState} {key : Str} {localFile remote : File}
variable {base : Baseline}

/-- Past the two early exits, a turn pushes what the metadata path pushes,
unless the rows really differ and are then compared with the baseline. -/
theorem planBoth_plan (noEvent : (scopeChanged ctx key && !ctx.hasOpenConflict state.writes localFile.id &&
      (ctx.baselineFor localFile.id).any (fun base => !localChangedSince localFile base)) = false)
    (found : ctx.baselineFor localFile.id = some base) (settledBase : base.publishing = false)
    (different : localFile.equal remote = false -> Cloud.hasPotentialConflict localFile remote false ->
      (planDifferent ctx policy state key localFile remote).plan = state.plan) :
    (planBoth ctx policy state key localFile remote).plan =
      state.plan ++ metadataActions policy key localFile remote := by
  have notReplaying : (!ctx.hasOpenConflict state.writes localFile.id &&
      (ctx.baselineFor localFile.id).any (fun base => base.publishing && !remoteChangedSince remote base)) =
      false := by
    simp [found, settledBase]
  have inSync := (noteInSync_bookkeeping ctx state localFile remote).plan_eq
  simp only [planBoth, metadataActions, MetadataOnly, noEvent, notReplaying, Bool.false_eq_true, if_false]
  by_cases same : localFile.equal remote
  · simp [same, inSync]
  · by_cases potential : Cloud.hasPotentialConflict localFile remote false
    · simpa [same, potential] using different (Bool.not_eq_true _ ▸ same) potential
    · simp [same, potential, planByPolicy_plan, inSync]

end OneTurn

/-! ## The plan for a key on both sides -/

/-- When a key exists on both sides, its actions are those of the turn that
visits it, in some state of the loop. -/
theorem mem_plan_iff_of_both {ctx : Cloud} {plan : List Action} (built : build ctx policy = .ok plan) {key : Str}
    (hasLocal : ctx.localMap.lookup key = some localFile) (hasRemote : ctx.s3Map.lookup key = some remote)
    {actions : List Action} (turn : forall state : PlanState, ctx.conflictWrites.closed ⊆ state.writes.closed ->
      (planBoth ctx policy state key localFile remote).plan = state.plan ++ actions) (itsKey : action.key = key)
    (noDirectory : action.type ≠ .ensureDirectories) : action ∈ plan ↔ action ∈ actions := by
  have visited : key ∈ ctx.allKeysSorted := by
    rw [mem_allKeysSorted]
    exact .inl (AList.lookup_isSome.mp (by simp [hasLocal]))
  have startClosed : ctx.conflictWrites.closed ⊆ (start ctx policy).writes.closed := List.Subset.refl _
  have staysClosed : forall state other,
      ctx.conflictWrites.closed ⊆ state.writes.closed ->
      ctx.conflictWrites.closed ⊆ (planKey ctx policy state other).writes.closed :=
    fun state _ closed => List.Subset.trans closed (planKey_turn state).closed_subset
  rcases EmittingFold.foldl_visit (planKey_emits ctx policy) (fun _ _ planned => Planned.key_eq planned)
    staysClosed (nodup_allKeysSorted ctx) visited startClosed with ⟨state, closed, items⟩
  have turnPlan : (planKey ctx policy state key).plan = state.plan ++ actions := by
    simp only [planKey, hasLocal, hasRemote]
    exact turn state closed
  have inLoop : action ∈ (planKeys ctx policy).plan ↔ action ∈ actions := by
    have notFirst : action ∉ (start ctx policy).plan := fun first => noDirectory (start_plan_type first)
    rw [planKeys, items actions turnPlan action itsKey]
    simp [notFirst]
  have notRemoteLeftover : action ∉ remoteLeftovers ctx policy := by
    intro member
    have noLocal := (remoteLeftovers_spec member).2.2.1
    rw [itsKey, hasLocal] at noLocal
    simp at noLocal
  have notLocalLeftover : action ∉ localLeftovers ctx policy := by
    intro member
    have noRemote := (localLeftovers_spec member).2.2.1
    rw [itsKey, hasRemote] at noRemote
    simp at noRemote
  rw [build_eq_assemble built]
  simp [assemble, inLoop, notRemoteLeftover, notLocalLeftover]

section MetadataTurn

variable {ctx : Cloud} {policy : RemotePolicy} {plan : List Action} {key : Str} {localFile remote : File}
variable (built : build ctx policy = .ok plan)
variable (hasLocal : ctx.localMap.lookup key = some localFile) (hasRemote : ctx.s3Map.lookup key = some remote)
variable (turn : forall state : PlanState, ctx.conflictWrites.closed ⊆ state.writes.closed ->
  (planBoth ctx policy state key localFile remote).plan =
    state.plan ++ metadataActions policy key localFile remote)
include built hasLocal hasRemote turn

/-- A key whose turn is left to the metadata path has no action exactly when that path transfers nothing. -/
theorem no_action_iff :
    (forall action, action ∈ plan -> action.type ≠ .ensureDirectories -> action.key ≠ key) ↔
      ¬ (MetadataOnly localFile remote ∧ TransferDue policy localFile remote) := by
  rw [← metadataActions_eq_nil_iff policy key localFile remote]
  constructor
  · intro leftAlone
    apply List.eq_nil_iff_forall_not_mem.mpr
    intro action emitted
    rcases metadataActions_spec emitted with ⟨itsKey, transfers⟩
    have noDirectory : action.type ≠ .ensureDirectories := by
      rcases transfers with isUpload | isDownload <;> simp [*]
    have planned := (mem_plan_iff_of_both built hasLocal hasRemote turn itsKey noDirectory).mpr emitted
    exact leftAlone action planned noDirectory itsKey
  · intro nothing action member noDirectory itsKey
    have emitted := (mem_plan_iff_of_both built hasLocal hasRemote turn itsKey noDirectory).mp member
    simp [nothing] at emitted

theorem no_transfer_iff :
    (forall action, action ∈ plan -> action.key = key ->
        action.type ≠ .upload ∧ action.type ≠ .download) ↔
      ¬ (MetadataOnly localFile remote ∧ TransferDue policy localFile remote) := by
  rw [← no_action_iff built hasLocal hasRemote turn]
  constructor
  · intro waits action member noDirectory itsKey
    -- The metadata path pushes transfers only.
    have emitted := (mem_plan_iff_of_both built hasLocal hasRemote turn itsKey noDirectory).mp member
    rcases waits action member itsKey with ⟨notUpload, notDownload⟩
    exact (metadataActions_spec emitted).2.elim notUpload notDownload
  · intro leftAlone action member itsKey
    constructor
    · intro isUpload
      exact leftAlone action member (by simp [isUpload]) itsKey
    · intro isDownload
      exact leftAlone action member (by simp [isDownload]) itsKey

end MetadataTurn

end Planner
end Sync
end Vaulthalla
