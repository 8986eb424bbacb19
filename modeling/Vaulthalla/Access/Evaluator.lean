import Vaulthalla.Foundation.Selection
import Vaulthalla.Access.Permissions

namespace Vaulthalla
namespace Access
namespace Evaluator

open Foundation
open Glob Selection

/-!
# The filesystem policy evaluator

`Evaluator::evaluate` decides one action on one resolved target under the
permissions of a role.  It rejects a request that does not fit its target,
lets the best matching override decide, falls back to the masks, and finally
opens a directory for lookup or listing if an allowing override lies beyond
it.

The definitions follow the source function by function.  The second half
collects what a decision consists of: `evaluate_allowed_iff` says that an
accepted request is allowed exactly when a corridor opens it or one of the
actions consulted for it is allowed.  The properties of decisions are proved
from that statement.
-/

inductive Reason
  | allowed | missingPath | missingEntry | missingPathAndEntry | missingUser
  | invalidActionForEntryType | deniedByOverride | allowedByOverride | deniedByBasePermissions
  | allowedByBasePermissions | storageEngineNotFound | unableToResolvePaths
  | lowRiskOpRequiredForOverrideTraversal | entryVaultMismatch

structure Decision where
  allowed : Bool
  reason : Reason
  evaluatedPath : Option Str := none
  matchedOverride : Option Str := none
  overrideEffect : Option OverrideOpt := none

structure ResolvedRequest where
  action : FilesystemAction
  vaultPath : Str
  «exists» : Bool
  isDirectory : Bool

structure TargetContext where
  vaultPath : Str
  «exists» : Bool
  isDir : Bool

structure StageResult where
  matched : Bool := false
  allowed : Option Bool := none
  reason : Reason := .deniedByBasePermissions
  matchedOverride : Option Str := none
  overrideEffect : Option OverrideOpt := none

/-! ## Actions -/

def directoryPermissionForAction : FilesystemAction -> Option DirectoryPermissions
  | .list => some .list
  | .write => some .upload
  | .read => some .download
  | .rename => some .rename
  | .delete => some .delete
  | .move => some .move
  | .copy => some .copy
  | .touch => some .touch
  | .link => some .touch
  | .lookup => some .list
  | .preview | .overwrite | .shareInternal | .sharePublic | .sharePublicValidated => none

def filePermissionForAction : FilesystemAction -> Option FilePermissions
  | .preview => some .preview
  | .write => some .upload
  | .read => some .download
  | .overwrite => some .overwrite
  | .rename => some .rename
  | .delete => some .delete
  | .move => some .move
  | .copy => some .copy
  | .lookup => some .preview
  | .shareInternal | .sharePublic | .sharePublicValidated | .list | .touch | .link => none

def requiresExistingEntry : FilesystemAction -> Bool
  | .touch | .write | .link => false
  | _ => true

def isValidForFile : FilesystemAction -> Bool
  | .list | .touch | .link => false
  | _ => true

def isValidForDirectory : FilesystemAction -> Bool
  | .preview | .overwrite => false
  | _ => true

def allowedByBase (perms : Filesystem) (isDir : Bool) (action : FilesystemAction) : Bool :=
  if isDir then
    match action with
    | .list => perms.directories.has .list
    | .write => perms.directories.has .upload
    | .read => perms.directories.has .download
    | .touch => perms.directories.has .touch
    | .link => perms.directories.has .touch
    | .rename => perms.directories.has .rename
    | .delete => perms.directories.has .delete
    | .move => perms.directories.has .move
    | .copy => perms.directories.has .copy
    | .shareInternal => perms.directories.share.has .internal
    | .sharePublic => perms.directories.share.has .public_
    | .sharePublicValidated => perms.directories.share.has .publicWithValidation
    | .lookup => perms.directories.has .list
    | .preview | .overwrite => false
  else
    match action with
    | .preview => perms.files.has .preview
    | .write => perms.files.has .upload
    | .read => perms.files.has .download
    | .overwrite => perms.files.has .overwrite
    | .rename => perms.files.has .rename
    | .delete => perms.files.has .delete
    | .move => perms.files.has .move
    | .copy => perms.files.has .copy
    | .shareInternal => perms.files.share.has .internal
    | .sharePublic => perms.files.share.has .public_
    | .sharePublicValidated => perms.files.share.has .publicWithValidation
    | .lookup => perms.files.has .preview
    | .list | .touch | .link => false

/-! ## Overrides -/

def tokenScore : Token -> Nat
  | .literal text => 10 + text.length
  | .slash => 1
  | .question => 2
  | .star | .doubleStar => 0

def scorePattern (pattern : Pattern) : Nat :=
  pattern.tokens.foldl (fun score token => score + tokenScore token) 0

/-- Whether the loop of `findBestOverride` goes past a resolved name. -/
def permissionMismatch {P : Type} [DecidableEq P] (resolved required : Option P) : Bool :=
  match resolved with
  | none => false
  | some permission => required != some permission

/-- The candidates of `findBestOverride`: everything its loop does not skip. -/
def applicable (path : Str) (action : FilesystemAction) (override : Override) : Bool :=
  override.enabled &&
    !permissionMismatch (Files.resolveFromQualifiedName override.qualifiedName)
      (filePermissionForAction action) &&
    !permissionMismatch (Directories.resolveFromQualifiedName override.qualifiedName)
      (directoryPermissionForAction action) &&
    Matcher.matches override.pattern path

/-- The loop of the source, with its best candidate and that candidate's score. -/
def findBestOverrideStep (path : Str) (action : FilesystemAction)
    (state : Option Override × Nat) (override : Override) : Option Override × Nat :=
  if !applicable path action override then state
  else
    let score := scorePattern override.pattern
    if state.1.isNone || score > state.2 then (some override, score) else state

variable (overrides : List Override)

def findBestOverride (path : Str) (action : FilesystemAction) : Option Override :=
  (overrides.foldl (findBestOverrideStep path action) (none, 0)).1

variable (override : Override)

def overrideEffect : Option OverrideOpt :=
  if !override.enabled then none else some override.effect

def resolveOverrides (path : Str) (action : FilesystemAction) : StageResult :=
  match findBestOverride overrides path action with
  | none => { }
  | some best =>
    match overrideEffect best with
    | none => { }
    | some .allow =>
      { matched := true, allowed := some true, reason := .allowedByOverride,
        matchedOverride := some best.pattern.source, overrideEffect := some .allow }
    | some .deny =>
      { matched := true, allowed := some false, reason := .deniedByOverride,
        matchedOverride := some best.pattern.source, overrideEffect := some .deny }

def requiresTraversalThrough (path : Str) : Bool :=
  overrides.any fun override =>
    override.enabled && override.effect == .allow &&
      Matcher.requiresTraversalThrough override.pattern path

def isDirectoryListOverride : Bool :=
  Directories.resolveFromQualifiedName override.qualifiedName == some .list

def allowsDirectoryListTraversalThrough (directory : Str) : Bool :=
  overrides.any fun override =>
    override.enabled && override.effect == .allow && isDirectoryListOverride override &&
      Matcher.requiresTraversalThrough override.pattern directory

def overridesMayAffectListing (perms : Filesystem) (directory : Str) : Bool :=
  perms.overrides.any fun override =>
    override.enabled && Matcher.mayMatchWithin override.pattern directory

/-! ## Stages and decisions -/

/-- The stage the masks alone decide. -/
def baseStage (perms : Filesystem) (isDir : Bool) (action : FilesystemAction) : StageResult :=
  let allowed := allowedByBase perms isDir action
  { matched := true, allowed := some allowed,
    reason := if allowed then .allowedByBasePermissions else .deniedByBasePermissions }

section

variable (perms : Filesystem) (target : TargetContext) (action : FilesystemAction)

/-- The local `resolve` of `resolveStage`. -/
def resolveAction : StageResult :=
  let overrides := resolveOverrides perms.overrides target.vaultPath action
  if overrides.matched then overrides else baseStage perms target.isDir action

def resolveStage : StageResult :=
  let stage := resolveAction perms target action
  if action = .lookup ∧ target.isDir = false ∧ target.exists = true ∧ stage.allowed = some false then
    -- Seeing a file is implied by being allowed to download it.
    let read := resolveAction perms target .read
    if read.allowed.getD false then read else stage
  else stage

end

/-- The target context of a resolved request. -/
def ResolvedRequest.target (req : ResolvedRequest) : TargetContext :=
  { vaultPath := req.vaultPath, «exists» := req.exists, isDir := req.isDirectory }

/-- The end of `evaluate`: what a stage result becomes.  A denied lookup or
listing is still granted when an allowing override lies beyond the target. -/
def decideStage (perms : Filesystem) (req : ResolvedRequest) (stage : StageResult) : Decision :=
  match stage.matched, stage.allowed with
  | true, some allowed =>
    if !allowed && (req.action == .lookup &&
        requiresTraversalThrough perms.overrides req.vaultPath) then
      { allowed := true, reason := .lowRiskOpRequiredForOverrideTraversal,
        evaluatedPath := some req.vaultPath }
    else if !allowed && (req.action == .list &&
        allowsDirectoryListTraversalThrough perms.overrides req.vaultPath) then
      { allowed := true, reason := .lowRiskOpRequiredForOverrideTraversal,
        evaluatedPath := some req.vaultPath }
    else
      { allowed := allowed, reason := stage.reason, evaluatedPath := some req.vaultPath,
        matchedOverride := stage.matchedOverride, overrideEffect := stage.overrideEffect }
  | _, _ =>
    { allowed := false, reason := .deniedByBasePermissions, evaluatedPath := some req.vaultPath }

def evaluate (perms : Filesystem) (req : ResolvedRequest) : Decision :=
  if req.vaultPath.isEmpty then { allowed := false, reason := .missingPath }
  else if !req.exists && requiresExistingEntry req.action then
    { allowed := false, reason := .missingEntry, evaluatedPath := some req.vaultPath }
  else if req.isDirectory && !isValidForDirectory req.action then
    { allowed := false, reason := .invalidActionForEntryType, evaluatedPath := some req.vaultPath }
  else if !req.isDirectory && !isValidForFile req.action then
    { allowed := false, reason := .invalidActionForEntryType, evaluatedPath := some req.vaultPath }
  else decideStage perms req (resolveStage perms req.target req.action)

/-! ## What the override loop selects -/

/-- The score by which overrides compete. -/
def overrideScore : Nat :=
  scorePattern override.pattern

/-- The overrides that compete for an action on a path, in the order of the list. -/
def candidates (path : Str) (action : FilesystemAction) : List Override :=
  overrides.filter (applicable path action)

theorem findBestOverrideStep_fst (path : Str) (action : FilesystemAction) :
    forall overrides best,
      (overrides.foldl (findBestOverrideStep path action) (best, (best.map overrideScore).getD 0)).1 =
        (candidates overrides path action).foldl (better overrideScore) best := by
  intro overrides
  induction overrides with
  | nil =>
    intro best
    rfl
  | cons override rest ih =>
    intro best
    rw [List.foldl_cons, candidates, List.filter_cons, findBestOverrideStep]
    cases competes : applicable path action override with
    | false => simpa [candidates] using ih best
    | true =>
      cases best with
      | none => simpa [better, overrideScore, candidates] using ih (some override)
      | some current =>
        by_cases improved : scorePattern override.pattern > scorePattern current.pattern
        · simpa [better, overrideScore, candidates, improved] using ih (some override)
        · simpa [better, overrideScore, candidates, improved] using ih (some current)

/-- The loop selects the first candidate of maximal score. -/
theorem findBestOverride_eq (path : Str) (action : FilesystemAction) :
    findBestOverride overrides path action =
      firstMaximum overrideScore (candidates overrides path action) :=
  findBestOverrideStep_fst path action overrides none

variable {action : FilesystemAction} {req : ResolvedRequest}

theorem findBestOverride_mem {overrides : List Override} {path : Str} {best : Override}
    (found : findBestOverride overrides path action = some best) : best ∈ overrides ∧ applicable path action best := by
  rw [findBestOverride_eq] at found
  exact List.mem_filter.mp (firstMaximum_isTop found).1

theorem applicable_enabled {path : Str} {override : Override} (competes : applicable path action override) :
    override.enabled = true := by
  simp only [applicable, Bool.and_eq_true] at competes
  exact competes.1.1.1

/-! ## What a decision consists of -/

/-- The answer of one action: the best override, or the masks without one. -/
def decides (perms : Filesystem) (target : TargetContext) (action : FilesystemAction) : Bool :=
  match findBestOverride perms.overrides target.vaultPath action with
  | some best => best.effect == .allow
  | none => allowedByBase perms target.isDir action

theorem resolveAction_spec (perms : Filesystem) (target : TargetContext) (action : FilesystemAction) :
    (resolveAction perms target action).matched ∧
      (resolveAction perms target action).allowed = some (decides perms target action) := by
  cases found : findBestOverride perms.overrides target.vaultPath action with
  | none => simp [resolveAction, resolveOverrides, decides, found, baseStage]
  | some best =>
    have enabled := applicable_enabled (findBestOverride_mem found).2
    cases effect : best.effect <;>
      simp [resolveAction, resolveOverrides, decides, found, overrideEffect, enabled, effect]

theorem resolveAction_reason (perms : Filesystem) (target : TargetContext) (action : FilesystemAction) :
    (resolveAction perms target action).reason ≠ .lowRiskOpRequiredForOverrideTraversal := by
  cases found : findBestOverride perms.overrides target.vaultPath action with
  | none =>
    cases base : allowedByBase perms target.isDir action <;>
      simp [resolveAction, resolveOverrides, found, baseStage, base]
  | some best =>
    have enabled := applicable_enabled (findBestOverride_mem found).2
    cases effect : best.effect <;>
      simp [resolveAction, resolveOverrides, found, overrideEffect, enabled, effect]

theorem resolveStage_reason (perms : Filesystem) (target : TargetContext) (action : FilesystemAction) :
    (resolveStage perms target action).reason ≠ .lowRiskOpRequiredForOverrideTraversal := by
  simp only [resolveStage]
  split
  · split
    · exact resolveAction_reason perms target .read
    · exact resolveAction_reason perms target action
  · exact resolveAction_reason perms target action

/-- Whether a denied lookup falls back to the read decision. -/
def fallsBackToRead (target : TargetContext) (action : FilesystemAction) : Bool :=
  action == .lookup && !target.isDir && target.exists

theorem resolveStage_spec (perms : Filesystem) (target : TargetContext) (action : FilesystemAction) :
    (resolveStage perms target action).matched ∧
      (resolveStage perms target action).allowed =
        some (decides perms target action || (fallsBackToRead target action && decides perms target .read)) := by
  rcases resolveAction_spec perms target action with ⟨matched, allowed⟩
  rcases resolveAction_spec perms target .read with ⟨readMatched, readAllowed⟩
  by_cases fallback : action = .lookup ∧ target.isDir = false ∧ target.exists ∧
      (resolveAction perms target action).allowed = some false
  · have stage : resolveStage perms target action =
        if (resolveAction perms target .read).allowed.getD false then resolveAction perms target .read
        else resolveAction perms target action := if_pos fallback
    rcases fallback with ⟨isLookup, isFile, present, denied⟩
    have falls : fallsBackToRead target action := by
      simp [fallsBackToRead, isLookup, isFile, present]
    have stageDenied : decides perms target action = false := by
      simpa [denied] using allowed.symm
    cases answer : decides perms target .read with
    | true => simp [stage, readAllowed, readMatched, answer, stageDenied, falls]
    | false => simp [stage, readAllowed, answer, matched, allowed, stageDenied]
  · have stage : resolveStage perms target action = resolveAction perms target action := if_neg fallback
    refine ⟨by rw [stage, matched], ?_⟩
    rw [stage, allowed]
    cases answer : decides perms target action with
    | true => rfl
    | false =>
      have stays : fallsBackToRead target action = false := by
        rw [answer] at allowed
        simp only [fallsBackToRead, Bool.and_eq_false_iff, beq_eq_false_iff_ne, Bool.not_eq_false']
        by_contra applies
        simp only [not_or, not_not, Bool.not_eq_true] at applies
        exact fallback ⟨applies.1.1, applies.1.2, by simpa using applies.2, allowed⟩
      simp [stays]

/-- A request that names a path, has the entry it needs and an action for its kind. -/
def Accepted (req : ResolvedRequest) : Prop :=
  req.vaultPath ≠ [] ∧ (requiresExistingEntry req.action = true -> req.exists = true) ∧
    (if req.isDirectory then isValidForDirectory req.action else isValidForFile req.action) = true

instance (req : ResolvedRequest) : Decidable (Accepted req) :=
  inferInstanceAs (Decidable (_ ∧ _ ∧ _))

/-- Whether an allowing override beyond the target opens it. -/
def opened (perms : Filesystem) (req : ResolvedRequest) : Bool :=
  (req.action == .lookup && requiresTraversalThrough perms.overrides req.vaultPath) ||
    (req.action == .list && allowsDirectoryListTraversalThrough perms.overrides req.vaultPath)

/-- The actions whose answers can allow a request. -/
def consulted (req : ResolvedRequest) : List FilesystemAction :=
  if fallsBackToRead req.target req.action then [req.action, .read] else [req.action]

section

variable (perms : Filesystem)

include perms

theorem decideStage_of_allowed (req : ResolvedRequest) {stage : StageResult} {answer : Bool}
    (matched : stage.matched) (allowed : stage.allowed = some answer) :
    decideStage perms req stage =
      if answer = false ∧ opened perms req then
        { allowed := true, reason := .lowRiskOpRequiredForOverrideTraversal,
          evaluatedPath := some req.vaultPath }
      else
        { allowed := answer, reason := stage.reason, evaluatedPath := some req.vaultPath,
          matchedOverride := stage.matchedOverride, overrideEffect := stage.overrideEffect } := by
  cases answer with
  | true => simp [decideStage, matched, allowed]
  | false =>
    by_cases lookup : req.action = .lookup ∧ requiresTraversalThrough perms.overrides req.vaultPath
    · simp [decideStage, matched, allowed, opened, lookup]
    · by_cases list : req.action = .list ∧
          allowsDirectoryListTraversalThrough perms.overrides req.vaultPath
      · simp [decideStage, matched, allowed, opened, list]
      · simp [decideStage, matched, allowed, opened, lookup, list]

theorem evaluate_of_not_accepted (rejected : ¬ Accepted req) :
    (evaluate perms req).allowed = false ∧
      (evaluate perms req).reason ≠ .lowRiskOpRequiredForOverrideTraversal := by
  unfold evaluate
  split
  · exact ⟨rfl, by simp⟩
  split
  · exact ⟨rfl, by simp⟩
  split
  · exact ⟨rfl, by simp⟩
  split
  · exact ⟨rfl, by simp⟩
  rename_i path entry directory file
  refine absurd ⟨by simpa using path, ?_, ?_⟩ rejected
  · intro required
    simpa [required] using entry
  · cases isDirectory : req.isDirectory with
    | true => simpa [isDirectory] using directory
    | false => simpa [isDirectory] using file

theorem evaluate_of_accepted (accepted : Accepted req) :
    evaluate perms req = decideStage perms req (resolveStage perms req.target req.action) := by
  rcases accepted with ⟨path, present, kind⟩
  have named : req.vaultPath.isEmpty = false := by simpa using path
  have entry : (!req.exists && requiresExistingEntry req.action) = false := by
    cases required : requiresExistingEntry req.action with
    | true => simp [present required]
    | false => simp
  have directory : (req.isDirectory && !isValidForDirectory req.action) = false := by
    cases isDirectory : req.isDirectory with
    | true => simpa [isDirectory] using kind
    | false => rfl
  have file : (!req.isDirectory && !isValidForFile req.action) = false := by
    cases isDirectory : req.isDirectory with
    | true => rfl
    | false => simpa [isDirectory] using kind
  simp only [evaluate, named, entry, directory, file, Bool.false_eq_true, if_false]

/-- The answer of a stage, from the answers of the consulted actions. -/
theorem consulted_decides_iff (req : ResolvedRequest) :
    (Exists fun action => action ∈ consulted req ∧ decides perms req.target action) ↔
      (decides perms req.target req.action ||
        (fallsBackToRead req.target req.action && decides perms req.target .read)) = true := by
  cases falls : fallsBackToRead req.target req.action <;> simp [consulted, falls]

/-- A stage allows a request exactly when a corridor opens its target or one of
the consulted actions is allowed. -/
theorem decideStage_allowed_iff (req : ResolvedRequest) :
    (decideStage perms req (resolveStage perms req.target req.action)).allowed ↔
      opened perms req ∨
        Exists fun action => action ∈ consulted req ∧ decides perms req.target action := by
  rcases resolveStage_spec perms req.target req.action with ⟨matched, allowed⟩
  rw [decideStage_of_allowed perms req matched allowed, consulted_decides_iff]
  generalize (decides perms req.target req.action ||
    (fallsBackToRead req.target req.action && decides perms req.target .read)) = answer
  cases answer <;> cases corridor : opened perms req <;> simp

/-- A request is allowed exactly when it is accepted and either a corridor
opens its target or one of the consulted actions is allowed. -/
theorem evaluate_allowed_iff (req : ResolvedRequest) :
    (evaluate perms req).allowed ↔
      Accepted req ∧ (opened perms req ∨
        Exists fun action => action ∈ consulted req ∧ decides perms req.target action) := by
  by_cases accepted : Accepted req
  · rw [evaluate_of_accepted perms accepted, decideStage_allowed_iff]
    simp only [accepted, true_and]
  · simp [accepted, (evaluate_of_not_accepted perms accepted).1]

end

/-- The traversal reason is only given where an allowing override requires it. -/
theorem opened_of_traversal_reason {perms : Filesystem}
    (granted : (evaluate perms req).reason = .lowRiskOpRequiredForOverrideTraversal) : opened perms req := by
  by_cases accepted : Accepted req
  · rcases resolveStage_spec perms req.target req.action with ⟨matched, allowed⟩
    rw [evaluate_of_accepted perms accepted, decideStage_of_allowed perms req matched allowed] at granted
    by_contra closed
    simp only [closed, and_false, if_false] at granted
    exact resolveStage_reason perms req.target req.action granted
  · exact absurd granted (evaluate_of_not_accepted perms accepted).2

end Evaluator
end Access
end Vaulthalla
