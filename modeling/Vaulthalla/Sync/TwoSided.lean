import Vaulthalla.Sync.MetadataPath

namespace Vaulthalla
namespace Sync
namespace Planner

open Foundation Cloud AList Baseline

/-!
# Files that changed on both sides, and on neither

The rule `ask` is meant to leave a file that changed on both sides to its
owner, and every rule is meant to leave a file alone that changed on neither.
The comparison with the baseline does both, but rows that differ in metadata
only never reach it.  Each theorem gives the exact condition on the two rows
and the policy.

The second theorem covers the pass after an upload.  The remote row is then
the uploaded one as the index gives it back, without its mime type, so a file
with a mime type always differs in metadata, and a mirror transfers it in
every pass.
-/

section Turns

variable {ctx : Cloud} {policy : RemotePolicy} {state : PlanState} {key : Str} {localFile remote : File}
variable {base : Baseline}

theorem hasOpenConflict_eq_false_of_subset {earlier later : ConflictPassWrites} {fileId : Nat}
    (stillClosed : earlier.closed ⊆ later.closed) (noConflict : ctx.hasOpenConflict earlier fileId = false) :
    ctx.hasOpenConflict later fileId = false := by
  unfold hasOpenConflict at noConflict ⊢
  simp only [Bool.and_eq_false_iff, List.all_eq_false] at noConflict ⊢
  rcases noConflict with absent | ⟨entry, closed, same⟩
  · exact .inl absent
  · exact .inr ⟨entry, stillClosed closed, same⟩

/-- The index keeps size and hash, so a file never conflicts with its own row. -/
theorem hasPotentialConflict_readBack {existing : Option RemoteObject} {encryptUpstream : Bool}
    {configuredStorageClass : Option Str} {file : File}
    (writes : RemoteObject.Writes existing (uploadedRow encryptUpstream configuredStorageClass file)) (now : Int) :
    hasPotentialConflict file (readBack existing encryptUpstream configuredStorageClass now file) false =
      false := by
  cases hash : file.contentHash with
  | some value =>
    simp [hasPotentialConflict, hash, readBack_contentHash writes now hash, readBack_sizeBytes writes now]
  | none => simp [hasPotentialConflict, hash, readBack_sizeBytes writes now]

theorem maybeBuildConflict_of_potential (potential : hasPotentialConflict localFile remote false) :
    Exists fun conflict => maybeBuildConflict localFile remote = some conflict := by
  have reasons : (analyze localFile remote).isEmpty = false := by
    unfold hasPotentialConflict at potential
    unfold analyze
    by_cases sameSize : localFile.sizeBytes = remote.sizeBytes
    · cases localHash : localFile.contentHash <;> cases remoteHash : remote.contentHash <;>
        simp_all
    · simp [sameSize]
  unfold maybeBuildConflict
  simp [potential, reasons]

/-- Under `ask` a conflict stays unresolved, and nothing is planned for it. -/
theorem planConflict_ask (asks : policy.conflictPolicy = .ask)
    (potential : hasPotentialConflict localFile remote false) :
    (planConflict ctx policy state key localFile remote).plan = state.plan := by
  rcases maybeBuildConflict_of_potential potential with ⟨conflict, built⟩
  have unresolved : (ctx.handleConflict policy state conflict).1 = none := by
    simp only [handleConflict, RemotePolicy.resolveConflict, asks]
    split
    · rfl
    · split <;> rfl
  have kept := (handleConflict_bookkeeping ctx policy state conflict).plan_eq
  rcases handled : ctx.handleConflict policy state conflict with ⟨resolution, settled⟩
  rw [handled] at unresolved kept
  subst unresolved
  simpa [planConflict, built, handled] using kept

theorem planBoth_changed_ask (asks : policy.conflictPolicy = .ask)
    (found : ctx.baselineFor localFile.id = some base) (settledBase : base.publishing = false)
    (localMoved : localChangedSince localFile base) (remoteMoved : remoteChangedSince remote base) :
    (planBoth ctx policy state key localFile remote).plan =
      state.plan ++ metadataActions policy key localFile remote := by
  apply planBoth_plan (by simp [found, localMoved]) found settledBase
  intro _ potential
  have undecided : divergenceOf ctx state.writes key localFile remote = .unknown ∨
      divergenceOf ctx state.writes key localFile remote = .both := by
    unfold divergenceOf
    rw [found]
    cases ctx.hasOpenConflict state.writes localFile.id <;> simp [classify, localMoved, remoteMoved]
  unfold planDifferent
  rcases undecided with waits | moved
  · simpa [waits] using planConflict_ask asks potential
  · simpa [moved] using planConflict_ask asks potential

theorem planBoth_unchanged (noConflict : ctx.hasOpenConflict state.writes localFile.id = false)
    (noEvent : scopeChanged ctx key = false) (found : ctx.baselineFor localFile.id = some base)
    (settledBase : base.publishing = false) (localStays : localChangedSince localFile base = false)
    (remoteStays : remoteChangedSince remote base = false) :
    (planBoth ctx policy state key localFile remote).plan =
      state.plan ++ metadataActions policy key localFile remote := by
  apply planBoth_plan (by simp [noEvent]) found settledBase
  intro _ _
  have inSync : divergenceOf ctx state.writes key localFile remote = .inSync := by
    simp [divergenceOf, noConflict, found, classify, localStays, remoteStays]
  simp [planDifferent, inSync]

end Turns

section Plans

variable {ctx : Cloud} {policy : RemotePolicy} {plan : List Action} {key : Str} {localFile remote : File}
variable {base : Baseline}

/-- Under `ask`, a file that changed on both sides since its baseline is
neither uploaded nor downloaded, except on the metadata path. -/
theorem ask_waits_iff (built : build ctx policy = .ok plan) (asks : policy.conflictPolicy = .ask)
    (hasLocal : ctx.localMap.lookup key = some localFile) (hasRemote : ctx.s3Map.lookup key = some remote)
    (found : ctx.baselineFor localFile.id = some base) (settledBase : base.publishing = false)
    (localMoved : localChangedSince localFile base = true) (remoteMoved : remoteChangedSince remote base = true) :
    (forall action, action ∈ plan -> action.key = key ->
        action.type ≠ .upload ∧ action.type ≠ .download) ↔
      ¬ (MetadataOnly localFile remote ∧ TransferDue policy localFile remote) := by
  apply no_transfer_iff built hasLocal hasRemote
  intro state _
  exact planBoth_changed_ask asks found settledBase localMoved remoteMoved

/-- Two new hashes are a conflict, and the file waits. -/
theorem ask_waits_for_two_hashes :
    let base := afterUpload (textFile 1 (str "/a.txt") (some (str "h0")) 50)
    let ctx := scheduledPass
      (singleton (str "a.txt") (textFile 1 (str "/a.txt") (some (str "h1")) 200))
      (singleton (str "a.txt") (textFile 0 (str "/a.txt") (some (str "h2")) 100))
      (singleton 1 base) []
    let plan : List Action := [{ type := .ensureDirectories, key := [], localFile := none, remote := none }]
    build ctx { strategy := .sync, conflictPolicy := .ask, maxDownloadedBytes := none } = .ok plan ∧
      forall action, action ∈ plan -> action.key = str "a.txt" ->
        action.type ≠ .upload ∧ action.type ≠ .download := by
  intro base ctx plan
  have built : build ctx { strategy := .sync, conflictPolicy := .ask, maxDownloadedBytes := none } = .ok plan := rfl
  refine ⟨built, ?_⟩
  apply (ask_waits_iff built rfl rfl rfl rfl (by decide) (by decide) (by decide)).mpr
  rintro ⟨metadata, _⟩
  exact absurd metadata (by decide)

/-- A remote row without a hash, of the old size and with a new ETag, against
a local file with a new hash: both sides changed, and the local file is
uploaded over the other's change. -/
theorem ask_overwrites_two_sided_change :
    let localFile := textFile 1 (str "/a.txt") (some (str "h1")) 200
    let remote : File := { textFile 0 (str "/a.txt") none 100 with remoteEtag := some (str "e1") }
    let base : Baseline :=
      { fileId := 1, contentHash := some (str "h0"), sizeBytes := 4, remoteContentHash := none,
        remoteEtag := some (str "e0"), remoteSizeBytes := some 4 }
    let ctx := scheduledPass (singleton (str "a.txt") localFile) (singleton (str "a.txt") remote)
      (singleton 1 base) []
    base.publishing = false ∧ classify localFile remote (ctx.baselineFor 1) = .both ∧
      build ctx { strategy := .sync, conflictPolicy := .ask, maxDownloadedBytes := none } =
        .ok [{ type := .ensureDirectories, key := [], localFile := none, remote := none },
          { type := .upload, key := str "a.txt", localFile := some localFile, remote := some remote }] :=
  ⟨by decide, by decide, rfl⟩

/-- A file that changed on neither side since its baseline has no action,
except on the metadata path.  After an upload, when the remote row is the
uploaded one read back from the index, that is the case when the two rows are
equal or the policy and the times call for no transfer. -/
theorem unchanged_left_alone_iff (built : build ctx policy = .ok plan)
    (hasLocal : ctx.localMap.lookup key = some localFile) (hasRemote : ctx.s3Map.lookup key = some remote)
    (noConflict : ctx.hasOpenConflict ctx.conflictWrites localFile.id = false)
    (noEvent : scopeChanged ctx key = false) (found : ctx.baselineFor localFile.id = some base)
    (settledBase : base.publishing = false) :
    (localChangedSince localFile base = false -> remoteChangedSince remote base = false ->
      ((forall action, action ∈ plan -> action.type ≠ .ensureDirectories -> action.key ≠ key) ↔
        ¬ (MetadataOnly localFile remote ∧ TransferDue policy localFile remote))) ∧
    (forall existing encryptUpstream configuredStorageClass now, base = afterUpload localFile ->
      RemoteObject.Writes existing (uploadedRow encryptUpstream configuredStorageClass localFile) ->
      remote = readBack existing encryptUpstream configuredStorageClass now localFile ->
      ((forall action, action ∈ plan -> action.type ≠ .ensureDirectories -> action.key ≠ key) ↔
        localFile.equal remote = true ∨ ¬ TransferDue policy localFile remote)) := by
  have general : localChangedSince localFile base = false -> remoteChangedSince remote base = false ->
      ((forall action, action ∈ plan -> action.type ≠ .ensureDirectories -> action.key ≠ key) ↔
        ¬ (MetadataOnly localFile remote ∧ TransferDue policy localFile remote)) := by
    intro localStays remoteStays
    apply no_action_iff built hasLocal hasRemote
    intro state closed
    exact planBoth_unchanged (hasOpenConflict_eq_false_of_subset closed noConflict) noEvent found settledBase
      localStays remoteStays
  refine ⟨general, ?_⟩
  intro existing encryptUpstream configuredStorageClass now uploaded writes indexed
  rcases afterUpload_unchanged writes now with ⟨localStays, remoteStays⟩
  rw [general (by rw [uploaded, localStays]) (by rw [uploaded, indexed, remoteStays])]
  have samePotential : hasPotentialConflict localFile remote false = false := by
    rw [indexed]
    exact hasPotentialConflict_readBack writes now
  simp only [MetadataOnly, samePotential, and_true, not_and_or, Bool.not_eq_false]

/-- Under a two-way sync an uploaded file is left alone by the next pass. -/
theorem uploaded_left_alone_by_sync :
    let uploaded := textFile 1 (str "/a.txt") (some (str "h1")) 100
    let ctx := scheduledPass (singleton (str "a.txt") uploaded)
      (singleton (str "a.txt") (readBack none true none 0 uploaded))
      (singleton 1 (afterUpload uploaded)) []
    let plan : List Action := [{ type := .ensureDirectories, key := [], localFile := none, remote := none }]
    build ctx { strategy := .sync, conflictPolicy := .ask, maxDownloadedBytes := none } = .ok plan ∧
      forall action, action ∈ plan -> action.type ≠ .ensureDirectories -> action.key ≠ str "a.txt" := by
  intro uploaded ctx plan
  have built : build ctx { strategy := .sync, conflictPolicy := .ask, maxDownloadedBytes := none } = .ok plan := by
    decide +kernel
  have hasLocal : ctx.localMap.lookup (str "a.txt") = some uploaded := rfl
  have hasRemote : ctx.s3Map.lookup (str "a.txt") = some (readBack none true none 0 uploaded) := rfl
  have found : ctx.baselineFor uploaded.id = some (afterUpload uploaded) := rfl
  have sameTime : (readBack none true none 0 uploaded).updatedAt = uploaded.updatedAt := rfl
  have stamped : Stamped uploaded (readBack none true none 0 uploaded) := ⟨by decide, by decide⟩
  refine ⟨built, ?_⟩
  apply ((unchanged_left_alone_iff built hasLocal hasRemote (by decide) (by decide) found (by decide)).2
    none true none 0 rfl (by intro old impossible; simp at impossible) rfl).mpr
  exact .inr (by simp [TransferDue, NewestCopies, stamped, sameTime])

/-- A mirror that keeps the local side uploads an uploaded file again: its
mime type did not come back from the index. -/
theorem mirror_uploads_unchanged_file :
    let uploaded := textFile 1 (str "/a.txt") (some (str "h1")) 100
    let indexed := readBack none true none 0 uploaded
    let base := afterUpload uploaded
    let ctx := scheduledPass (singleton (str "a.txt") uploaded) (singleton (str "a.txt") indexed)
      (singleton 1 base) []
    base.publishing = false ∧ localChangedSince uploaded base = false ∧ remoteChangedSince indexed base = false ∧
      ctx.hasOpenConflict ctx.conflictWrites 1 = false ∧ scopeChanged ctx (str "a.txt") = false ∧
      build ctx { strategy := .mirror, conflictPolicy := .keepLocal, maxDownloadedBytes := none } =
        .ok [{ type := .upload, key := str "a.txt", localFile := some uploaded, remote := some indexed }] :=
  ⟨by decide, by decide, by decide, by decide, by decide, by decide +kernel⟩

end Plans
end Planner
end Sync
end Vaulthalla
