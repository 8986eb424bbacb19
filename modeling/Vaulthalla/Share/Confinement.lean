import Vaulthalla.Share.TargetResolver

namespace Vaulthalla
namespace Share
namespace TargetResolver

open Foundation VaultPath Scope Outcome List
open Outcome (require bind_eq_ok)
open Scope (normalizeVaultPath nul splitComponents)

/-!
# Confinement of a share

Whatever the provider answers, a target that is returned lies at the root of
the share or below it, name by name.  The paths that pass the checks are normal
paths, and on normal paths the texts that the checks compare are the names.
-/

/-! ## Paths of requests -/

variable {name path vaultPath : Str} {root share : VaultPath} {principal : Principal} {expected : Option TargetType}
  {operation : Operation} {scope : Scope.ScopeDecision} {vaultId : UInt32} {target : ResolvedTarget}

theorem nul_not_mem_component (clean : nul ∉ path) (inside : name ∈ components path) : nul ∉ name :=
  fun found => clean (mem_of_mem_splitOn slash path name inside nul found)

theorem dotDot_not_mem_components (path : VaultPath) : dotDot ∉ components path.text := by
  intro inside
  have isName : dotDot ∈ namesOf path.text := mem_filter.mpr ⟨inside, by decide⟩
  rw [path.namesOf_text] at isName
  exact path.dotDot_not_mem isName

theorem normalizeRequestedPath_text (path : VaultPath) : normalizeRequestedPath path.text = .ok path.text := by
  have names : (components path.text).filter (fun component => component ≠ [] ∧ component ≠ dot) = path.names := by
    have read := path.namesOf_text
    unfold namesOf at read
    have parts : (components path.text).filter (fun component => component ≠ [] ∧ component ≠ dot) =
        ((components path.text).filter fun component => component ≠ []).filter fun component => component ≠ dot := by
      rw [filter_filter]
      apply filter_congr
      intro component _
      simp [Bool.and_comm]
    rw [parts, read]
    exact filter_eq_self.mpr fun name inside => by simpa using (path.legal name inside).2.1
  have noEscape := dotDot_not_mem_components path
  have nonempty : path.text ≠ [] := by
    rcases (isAbsolute_iff _).mp path.isAbsolute_text with ⟨rest, isRooted⟩
    simp [isRooted]
  simp only [normalizeRequestedPath, splitStrict, bind_eq_ok, require_eq_ok, pure_eq_ok]
  exact ⟨_, ⟨(), by simpa using nonempty, (), by simpa using path.nul_not_mem_text, (), by simpa using noEscape, rfl⟩,
    by rw [names]; rfl⟩

/-- The names that a path keeps are components of it. -/
theorem mem_components_of_splitComponents (inside : name ∈ splitComponents path) : name ∈ components path := by
  have kept : forall (parts names : List Str), name ∈ parts.foldl (pushComponent false) names ->
      name ∈ parts ∨ name ∈ names := by
    intro parts
    induction parts with
    | nil => exact fun names member => .inr member
    | cons part rest ih =>
      intro names member
      rcases ih _ member with later | pushed
      · exact .inl (mem_cons_of_mem part later)
      · unfold pushComponent at pushed
        split at pushed
        · exact .inr pushed
        · split at pushed
          · split at pushed
            · simp only [Bool.false_eq_true, if_false, mem_singleton] at pushed
              exact .inl (pushed ▸ mem_cons_self)
            · split at pushed
              · rcases mem_cons.mp pushed with rfl | old
                · exact .inl mem_cons_self
                · exact .inr old
              · exact .inr (mem_cons_of_mem _ pushed)
          · rcases mem_cons.mp pushed with rfl | old
            · exact .inl mem_cons_self
            · exact .inr old
  rcases kept (components path) [] (mem_reverse.mp inside) with member | none
  · exact member
  · simp at none

/-- A path that does not climb is normal once its names are kept. -/
theorem vaultPath_of_stays (clean : nul ∉ path) (stays : dotDot ∉ splitComponents path) :
    Exists fun normal : VaultPath => normal.names = splitComponents path ∧
      normalizeVaultPath path = .ok normal.text := by
  have settled := segment_of_settled (settled_splitComponents path)
  have kept : forall name, name ∈ splitComponents path -> SegmentName name ∧ name ≠ dot := fun name inside =>
    settled name (mem_reverse.mpr inside)
  refine ⟨⟨splitComponents path, ?_, ?_, ?_⟩, rfl, normalizeVaultPath_eq_ok.mpr ⟨clean, rfl⟩⟩
  · intro name inside
    rcases kept name inside with ⟨segment, notDot⟩
    exact ⟨segment.1, notDot, fun climbs => stays (climbs ▸ inside)⟩
  · exact fun name inside => (kept name inside).1.2
  · exact fun name inside => nul_not_mem_component clean (mem_components_of_splitComponents inside)

/-- The scope of a root, on normal paths. -/
theorem vaultPaths_of_contains {rootPath : Str} (inside : contains rootPath path = .ok true) :
    Exists fun root : VaultPath => Exists fun entry : VaultPath =>
      normalizeVaultPath rootPath = .ok root.text ∧ normalizeVaultPath path = .ok entry.text ∧
        root.names <+: entry.names := by
  rcases contains_iff.mp inside with ⟨rootClean, clean, rootStays, stays, below⟩
  rcases vaultPath_of_stays rootClean rootStays with ⟨root, rootNames, rootNormal⟩
  rcases vaultPath_of_stays clean stays with ⟨entry, names, normal⟩
  refine ⟨root, entry, rootNormal, normal, ?_⟩
  rw [rootNames, names]
  exact below

/-! ## Paths of the share and of the vault -/

/-- The path of the vault for a path of the share. -/
def joined (root share : VaultPath) : VaultPath where
  names := root.names ++ share.names
  legal := fun name inside => (mem_append.mp inside).elim (root.legal name) (share.legal name)
  clean := fun name inside => (mem_append.mp inside).elim (root.clean name) (share.clean name)
  noNul := fun name inside => (mem_append.mp inside).elim (root.noNul name) (share.noNul name)

theorem text_eq_slash_iff (path : VaultPath) : path.text = str "/" ↔ path.names = [] :=
  rooted_eq_slash_iff path.segments

theorem text_joined (below : root.names ≠ []) (inside : share.names ≠ []) :
    (joined root share).text = root.text ++ share.text := by
  rw [text, joined, rooted_append below]
  simp [text, rooted, inside]

theorem joined_of_top (top : root.names = []) : (joined root share).text = share.text := by
  simp [text, joined, top]

theorem joined_root (top : share.names = []) : (joined root share).text = root.text := by
  simp [text, joined, top]

theorem toVaultPath_shareRelative (valid : requireValidPrincipal principal = .ok ())
    (isRoot : normalizeVaultPath principal.rootPath = .ok root.text) (share : VaultPath) :
    toVaultPath principal share.text .shareRelative = .ok (joined root share).text := by
  refine bind_eq_ok.mpr ⟨(), valid, bind_eq_ok.mpr ⟨_, isRoot, bind_eq_ok.mpr
    ⟨_, normalizeRequestedPath_text share, ?_⟩⟩⟩
  simp only [text_eq_slash_iff]
  by_cases shareTop : share.names = []
  · rw [if_pos shareTop, joined_root shareTop]
    rfl
  · rw [if_neg shareTop]
    by_cases top : root.names = []
    · rw [if_pos top, joined_of_top top]
      rfl
    · rw [if_neg top, text_joined top shareTop]
      rfl

theorem shareRelativePath_joined (isRoot : normalizeVaultPath principal.rootPath = .ok root.text) (share : VaultPath) :
    shareRelativePath principal (joined root share).text = .ok share.text := by
  have inside : contains root.text (joined root share).text = .ok true :=
    (contains_text_iff _ _).mpr (prefix_append _ _)
  refine bind_eq_ok.mpr ⟨_, isRoot, bind_eq_ok.mpr ⟨_, normalizeRequestedPath_text _, bind_eq_ok.mpr
    ⟨true, inside, bind_eq_ok.mpr ⟨(), require_eq_ok.mpr rfl, ?_⟩⟩⟩⟩
  by_cases shareTop : share.names = []
  · have isTop : share.text = str "/" := (text_eq_slash_iff share).mpr shareTop
    rw [if_pos (joined_root shareTop), isTop]
    rfl
  · have other : (joined root share).text ≠ root.text := by
      intro same
      have lengths := congrArg (fun path : VaultPath => path.names.length) (text_injective same)
      simp only [joined, length_append] at lengths
      exact shareTop (eq_nil_of_length_eq_zero (by omega))
    rw [if_neg other]
    simp only [text_eq_slash_iff]
    by_cases top : root.names = []
    · rw [if_pos top, joined_of_top top]
      rfl
    · rw [if_neg top, text_joined top shareTop, drop_left]
      rfl

theorem exists_joined {path : VaultPath} (below : root.names <+: path.names) :
    Exists fun share => path = joined root share := by
  rcases below with ⟨others, split⟩
  have member : forall name, name ∈ others -> name ∈ path.names := fun name inside => by simp [← split, inside]
  refine ⟨⟨others, fun name inside => path.legal name (member name inside),
    fun name inside => path.clean name (member name inside),
    fun name inside => path.noNul name (member name inside)⟩, ?_⟩
  exact text_injective (congrArg rooted split.symm)

/-- On the paths at or below the root, and on the paths of the share, the two translations undo each other. -/
structure Inverse (principal : Principal) (root : VaultPath) : Prop where
  fromVault : forall path : VaultPath, root.names <+: path.names -> Exists fun share : VaultPath =>
    shareRelativePath principal path.text = .ok share.text ∧
      toVaultPath principal share.text .shareRelative = .ok path.text
  fromShare : forall share : VaultPath, Exists fun path : VaultPath => root.names <+: path.names ∧
    toVaultPath principal share.text .shareRelative = .ok path.text ∧
      shareRelativePath principal path.text = .ok share.text

theorem inverse_of_valid (valid : requireValidPrincipal principal = .ok ())
    (isRoot : normalizeVaultPath principal.rootPath = .ok root.text) :
    Inverse principal root where
  fromVault := by
    intro path below
    rcases exists_joined below with ⟨share, rfl⟩
    exact ⟨share, shareRelativePath_joined isRoot share, toVaultPath_shareRelative valid isRoot share⟩
  fromShare := fun share => ⟨joined root share, prefix_append _ _, toVaultPath_shareRelative valid isRoot share,
    shareRelativePath_joined isRoot share⟩

/-! ## Targets -/

/-- A target that a principal may use for an operation. -/
structure Confined (principal : Principal) (operation : Operation) (target : ResolvedTarget) : Prop where
  sameVault : target.vaultId = principal.vaultId
  isEntry : Exists fun entry : Entry => target.entry = some entry ∧ entryHasVault entry principal.vaultId = true ∧
    normalizeVaultPath entry.path = .ok target.vaultPath
  belowRoot : Exists fun root : Str => normalizeVaultPath principal.rootPath = .ok root ∧
    namesOf root <+: namesOf target.vaultPath ∧ (principal.grant.targetType = .file -> target.vaultPath = root)
  noEscape : dotDot ∉ components target.vaultPath
  granted : target.operation = operation ∧ principal.grant.allows operation = true
  toShare : shareRelativePath principal target.vaultPath = .ok target.sharePath
  toVault : toVaultPath principal target.sharePath .shareRelative = .ok target.vaultPath

/-- What the check of the scope has shown. -/
theorem authorizeScope_spec (authorized : authorizeScope principal vaultId vaultPath operation expected = .ok scope) :
    vaultId = principal.vaultId ∧ principal.grant.allows operation ∧
      Exists fun root => Exists fun path : VaultPath =>
        normalizeVaultPath principal.rootPath = .ok root.text ∧ scope.normalizedPath = path.text ∧
          root.names <+: path.names ∧ (principal.grant.targetType = .file -> path = root) := by
  rcases bind_eq_ok.mp authorized with ⟨decision, answered, rest⟩
  simp only [bind_eq_ok, require_eq_ok, pure_eq_ok] at rest
  rcases rest with ⟨_, allowed, rootText, normalRoot, _, fileRoot, rfl⟩
  rcases authorize_allowed answered allowed with ⟨normalized, sameVault, inside, granted⟩
  have vault : principal.vaultId = vaultId := by simpa [Principal.hasVault] using sameVault
  rcases vaultPaths_of_contains inside with ⟨root, path, isRoot, normal, below⟩
  -- The path that is compared has been normalized once already.
  have isPath : decision.normalizedPath = path.text := by
    rw [← (normalizeVaultPath_eq_ok.mp normal).2, splitComponents_normalized normalized]
    exact (normalizeVaultPath_eq_ok.mp normalized).2.symm
  refine ⟨vault.symm, granted, root, path, isRoot, isPath, below, ?_⟩
  intro isFile
  have sameText : decision.normalizedPath = rootText := by simpa [isFile] using fileRoot
  apply text_injective
  rw [← isPath, sameText]
  exact Except.ok.inj (normalRoot.symm.trans isRoot)

/-- What is known of a target that is returned. -/
structure Finished (principal : Principal) (vaultId : UInt32) (normalizedPath : Str) (operation : Operation)
    (target : ResolvedTarget) : Prop where
  vault : target.vaultId = vaultId
  path : target.vaultPath = normalizedPath
  operation : target.operation = operation
  entry : Exists fun entry : Entry => target.entry = some entry ∧ entryHasVault entry vaultId = true ∧
    normalizeVaultPath entry.path = .ok normalizedPath
  share : shareRelativePath principal normalizedPath = .ok target.sharePath

theorem finishResolve_spec {requestedPath normalizedPath : Str} {rootEntry entry : Option Entry}
    (finished : finishResolve principal vaultId requestedPath normalizedPath operation expected rootEntry entry =
      .ok target) : Finished principal vaultId normalizedPath operation target := by
  simp only [finishResolve, bind_eq_ok, require_eq_ok, pure_eq_ok] at finished
  rcases finished with ⟨found, _, _, ofVault, path, normal, _, samePath, _, _, _, _, _, _, _, _, root, _, sharePath,
    relative, _, _, _, _, rfl⟩
  have isPath : path = normalizedPath := by simpa using samePath
  exact
    { vault := rfl
      path := rfl
      operation := rfl
      entry := ⟨found, rfl, ofVault, isPath ▸ normal⟩
      share := relative }

theorem confined_of_finished (valid : requireValidPrincipal principal = .ok ())
    (authorized : authorizeScope principal vaultId vaultPath operation expected = .ok scope)
    (finished : Finished principal vaultId scope.normalizedPath operation target) :
    Confined principal operation target := by
  rcases authorizeScope_spec authorized with ⟨rfl, granted, root, path, isRoot, isPath, below, fileRoot⟩
  have targetPath : target.vaultPath = path.text := finished.path.trans isPath
  rcases exists_joined below with ⟨share, isJoined⟩
  have relative : shareRelativePath principal path.text = .ok target.sharePath := isPath ▸ finished.share
  have isShare : target.sharePath = share.text := by
    rw [isJoined, shareRelativePath_joined isRoot share] at relative
    exact (Except.ok.inj relative).symm
  refine
    { sameVault := finished.vault
      isEntry := ?_
      belowRoot := ⟨root.text, isRoot, ?_, ?_⟩
      noEscape := ?_
      granted := ⟨finished.operation, granted⟩
      toShare := ?_
      toVault := ?_ }
  · rw [finished.path]
    exact finished.entry
  · rw [targetPath, root.namesOf_text, path.namesOf_text]
    exact below
  · intro isFile
    rw [targetPath, fileRoot isFile]
  · rw [targetPath]
    exact dotDot_not_mem_components path
  · rw [targetPath]
    exact relative
  · rw [targetPath, isShare, isJoined]
    exact toVaultPath_shareRelative valid isRoot share

/-- Every target that is returned is confined to the share, and the paths of the share and of the vault agree. -/
theorem targets_confined (resolver : Resolver) (principal : Principal) :
    (forall request target, resolve resolver principal request = .ok target ->
      Confined principal request.operation target) ∧
    (forall parent child operation target, resolveListedChild resolver principal parent child operation = .ok target ->
      Confined principal operation target) ∧
    (forall root : VaultPath, requireValidPrincipal principal = .ok () ->
      normalizeVaultPath principal.rootPath = .ok root.text -> Inverse principal root) := by
  refine ⟨?_, ?_, fun root valid isRoot => inverse_of_valid valid isRoot⟩
  · intro request target returned
    simp only [resolve, bind_eq_ok] at returned
    rcases returned with ⟨_, _, _, valid, _, _, scope, authorized, _, _, _, _, _, _, _, _, _, _, _, _, _, _, _, _, _, _,
      finished⟩
    exact confined_of_finished valid authorized (finishResolve_spec finished)
  · intro parent child operation target returned
    simp only [resolveListedChild, bind_eq_ok] at returned
    rcases returned with ⟨_, _, _, valid, _, _, _, _, _, _, _, _, _, _, scope, authorized, _, _, _, _, finished⟩
    exact confined_of_finished valid authorized (finishResolve_spec finished)

/-- A shared folder with a file in it, on a server that allows anonymous links. -/
def teamFolder : Entry :=
  { id := 7, vaultId := some 3, parentId := some 1, path := str "/team", isDirectory := true }

def teamFile : Entry :=
  { id := 8, vaultId := some 3, parentId := some 7, path := str "/team/a", isDirectory := false }

def teamResolver : Resolver where
  getEntryById := fun _ => .ok (some teamFolder)
  getEntryByVaultPath := fun _ _ => .ok (some teamFile)
  sharing := { enabled := true, enableAnonymous := true, enableEmailValidated := false }

def teamGrant : Grant :=
  { vaultId := 3, rootEntryId := 7, rootPath := str "/team", targetType := .directory,
    allowedOps := Operation.download.bit, duplicatePolicy := .reject }

def teamPrincipal : Principal :=
  { shareId := str "s", shareSessionId := str "t", vaultId := 3, rootEntryId := 7, rootPath := str "/team",
    grant := teamGrant, accessMode := .public_, scopedVaultRole := none }

def teamRequest : TargetResolveRequest :=
  { path := str "//a/.", operation := .download, pathMode := .shareRelative, expectedTargetType := none,
    vaultId := none }

def teamListing : ResolvedTarget :=
  { vaultId := 3, rootEntryId := 7, rootPath := str "/team", requestedPath := str "/", vaultPath := str "/team",
    sharePath := str "/", operation := .list, targetType := .directory, rootEntry := some teamFolder,
    entry := some teamFolder }

def teamRoot : VaultPath where
  names := [str "team"]
  legal := by decide
  clean := by decide
  noNul := by decide

theorem targets_confined_team :
    (Exists fun target : ResolvedTarget => resolve teamResolver teamPrincipal teamRequest = .ok target ∧
      target.vaultPath = str "/team/a" ∧ Confined teamPrincipal .download target) ∧
    (Exists fun target : ResolvedTarget =>
      resolveListedChild teamResolver teamPrincipal teamListing (some teamFile) .download = .ok target ∧
        target.sharePath = str "/a" ∧ Confined teamPrincipal .download target) ∧
    Inverse teamPrincipal teamRoot := by
  have confined := targets_confined teamResolver teamPrincipal
  refine ⟨?_, ?_, confined.2.2 teamRoot (by decide +kernel) (by decide +kernel)⟩
  · have returned : Exists fun target =>
        resolve teamResolver teamPrincipal teamRequest = .ok target ∧ target.vaultPath = str "/team/a" :=
      ⟨_, by rfl, by decide +kernel⟩
    rcases returned with ⟨target, isTarget, path⟩
    exact ⟨target, isTarget, path, confined.1 teamRequest target isTarget⟩
  · have returned : Exists fun target =>
        resolveListedChild teamResolver teamPrincipal teamListing (some teamFile) .download = .ok target ∧
          target.sharePath = str "/a" :=
      ⟨_, by rfl, by decide +kernel⟩
    rcases returned with ⟨target, isTarget, path⟩
    exact ⟨target, isTarget, path, confined.2.1 teamListing (some teamFile) .download target isTarget⟩

end TargetResolver
end Share
end Vaulthalla
