import Vaulthalla.Access.Evaluator

namespace Vaulthalla
namespace Access
namespace Evaluator

open Foundation
open Selection

/-!
# Which overrides take part in a decision

Two questions about the list of overrides are answered here.

The first is which overrides can be left out.  The loop skips an override
whose name resolves to a file permission other than the one of the action, or
to a directory permission other than the one of the action.  It never asks
whether the target is a file or a directory, so a file permission also decides
a request on a directory when both kinds have the action.

The second is what the order of the list means.  Among the candidates of
maximal score the first one wins.  Putting the allowing overrides first gives
the most permissive order and putting the denying ones first the most
restrictive; the order matters exactly when these two disagree.
-/

/-- The same masks with another list of overrides. -/
def withOverrides (perms : Filesystem) (overrides : List Override) : Filesystem :=
  { perms with overrides := overrides }

/-! ## Overrides on another permission -/

/-- An override the loop skips because of the permission it names. -/
def mismatched (action : FilesystemAction) (override : Override) : Bool :=
  permissionMismatch (Files.resolveFromQualifiedName override.qualifiedName)
      (filePermissionForAction action) ||
    permissionMismatch (Directories.resolveFromQualifiedName override.qualifiedName)
      (directoryPermissionForAction action)

variable {action : FilesystemAction} {target : TargetContext} {first second overrides : List Override}
  {perms : Filesystem} {effect : OverrideOpt} {req : ResolvedRequest}

theorem not_applicable_of_mismatched {path : Str} {override : Override} (differs : mismatched action override) :
    applicable path action override = false := by
  simp only [mismatched, Bool.or_eq_true] at differs
  rcases differs with file | directory
  · simp [applicable, file]
  · simp [applicable, directory]

theorem candidates_filter_mismatched (overrides : List Override) (path : Str) (action : FilesystemAction) :
    candidates (overrides.filter fun override => !mismatched action override) path action =
      candidates overrides path action := by
  rw [candidates, candidates, List.filter_filter]
  apply List.filter_congr
  intro override _
  cases differs : mismatched action override with
  | true => simp [not_applicable_of_mismatched differs]
  | false => simp

/-- Leaving out every override on another permission changes nothing of a
decision.  Lookup and list are excepted because their corridors read the
allowing overrides of every permission. -/
theorem evaluate_without_mismatched (perms : Filesystem) (req : ResolvedRequest)
    (notLookup : req.action ≠ .lookup) (notList : req.action ≠ .list) :
    evaluate (withOverrides perms (perms.overrides.filter fun override => !mismatched req.action override))
      req = evaluate perms req := by
  have stage : resolveStage
      (withOverrides perms (perms.overrides.filter fun override => !mismatched req.action override))
      req.target req.action = resolveStage perms req.target req.action := by
    simp only [resolveStage, notLookup, false_and, if_false, resolveAction, resolveOverrides, findBestOverride_eq]
    rw [withOverrides, candidates_filter_mismatched]
    rfl
  simp only [evaluate, stage, decideStage]
  simp [notLookup, notList]

/-- A role without any permission of its own. -/
def noPermissions (overrides : List Override) : Filesystem :=
  { files := { permissions := 0, share := { permissions := 0 } },
    directories := { permissions := 0, share := { permissions := 0 } },
    overrides := overrides }

theorem allowedByBase_noPermissions (overrides : List Override) (isDir : Bool)
    (action : FilesystemAction) : allowedByBase (noPermissions overrides) isDir action = false := by
  cases isDir <;> cases action <;>
    simp [allowedByBase, noPermissions, Files.has, Directories.has, Share.has]

/-- An override on one literal path directly below the root. -/
def literalOverride (name : String) (effect : OverrideOpt) (entry : String) : Override :=
  { qualifiedName := str name, effect := effect, enabled := true,
    pattern := { source := str "/" ++ str entry, tokens := [.slash, .literal (str entry)] } }

theorem evaluate_without_mismatched_read :
    evaluate (noPermissions [literalOverride "vault.fs.files.download" .allow "docs"])
        { action := .read, vaultPath := str "/docs", «exists» := true, isDirectory := false } =
      evaluate (noPermissions [literalOverride "vault.fs.files.delete" .deny "docs",
          literalOverride "vault.fs.files.download" .allow "docs"])
        { action := .read, vaultPath := str "/docs", «exists» := true, isDirectory := false } :=
  evaluate_without_mismatched
    (noPermissions [literalOverride "vault.fs.files.delete" .deny "docs",
      literalOverride "vault.fs.files.download" .allow "docs"])
    { action := .read, vaultPath := str "/docs", «exists» := true, isDirectory := false }
    (by decide) (by decide)

/-- Whether an override names the permission that the action has for the kind of the target. -/
def namesPermissionOfKind (action : FilesystemAction) (isDirectory : Bool) (override : Override) : Bool :=
  if isDirectory then
    (directoryPermissionForAction action).isSome &&
      Directories.resolveFromQualifiedName override.qualifiedName == directoryPermissionForAction action
  else
    (filePermissionForAction action).isSome &&
      Files.resolveFromQualifiedName override.qualifiedName == filePermissionForAction action

/-- The kind of the target is not part of the filter: an override on the file
permission `download` grants reading a directory that the masks do not grant,
although it does not name the directory permission of the action. -/
theorem file_override_decides_directory :
    let perms := noPermissions [literalOverride "vault.fs.files.download" .allow "docs"]
    let req : ResolvedRequest :=
      { action := .read, vaultPath := str "/docs", «exists» := true, isDirectory := true }
    (evaluate (withOverrides perms (perms.overrides.filter fun override =>
        !(override.enabled && !namesPermissionOfKind req.action req.isDirectory override))) req).allowed = false ∧
      (evaluate perms req).allowed = true := by
  decide

/-! ## The order of the list -/

section

variable (perms : Filesystem) (target : TargetContext) (action : FilesystemAction)

/-- The target and action of a request have an override of maximal score with this effect. -/
def TopEffect (effect : OverrideOpt) : Prop :=
  Exists fun override => Selection.IsTop overrideScore
    (candidates perms.overrides target.vaultPath action) override ∧ override.effect = effect

/-- Best overrides with both effects: the choice between them is a matter of order. -/
def OpposingTie : Prop :=
  TopEffect perms target action .allow ∧ TopEffect perms target action .deny

/-- Some order of the overrides answers the action with this effect. -/
def MayAnswer (effect : OverrideOpt) : Prop :=
  TopEffect perms target action effect ∨
    (candidates perms.overrides target.vaultPath action = [] ∧
      allowedByBase perms target.isDir action = (effect == .allow))

end

/-- The requests whose answer depends on the order of the overrides: nothing
opens the target, every consulted action can be denied, and one of them is
also allowed by an equally good override. -/
def OrderMatters (perms : Filesystem) (req : ResolvedRequest) : Prop :=
  Accepted req ∧ opened perms req = false ∧
    (forall action, action ∈ consulted req -> MayAnswer perms req.target action .deny) ∧
    Exists fun action => action ∈ consulted req ∧ OpposingTie perms req.target action

/-- The list with the overrides of one effect in front. -/
def effectFirst (effect : OverrideOpt) (overrides : List Override) : List Override :=
  overrides.filter (fun override => override.effect == effect) ++
    overrides.filter (fun override => !(override.effect == effect))

theorem effectFirst_perm (effect : OverrideOpt) (overrides : List Override) :
    (effectFirst effect overrides).Perm overrides :=
  List.filter_append_perm _ overrides

theorem candidates_perm (rearranged : first.Perm second) (path : Str) (action : FilesystemAction) :
    (candidates first path action).Perm (candidates second path action) :=
  rearranged.filter _

theorem opened_perm (rearranged : overrides.Perm perms.overrides) (req : ResolvedRequest) :
    opened (withOverrides perms overrides) req = opened perms req := by
  have traversal : requiresTraversalThrough overrides req.vaultPath =
      requiresTraversalThrough perms.overrides req.vaultPath := rearranged.any_eq
  have listing : allowsDirectoryListTraversalThrough overrides req.vaultPath =
      allowsDirectoryListTraversalThrough perms.overrides req.vaultPath := rearranged.any_eq
  simp only [opened, withOverrides, traversal, listing]

theorem decides_of_some {best : Override} (found : firstMaximum overrideScore
      (candidates perms.overrides target.vaultPath action) = some best) :
    decides perms target action = (best.effect == .allow) := by
  rw [decides, findBestOverride_eq, found]

theorem decides_of_no_candidates (none : candidates perms.overrides target.vaultPath action = []) :
    decides perms target action = allowedByBase perms target.isDir action := by
  rw [decides, findBestOverride_eq, none]
  rfl

/-- Whatever the order, the answer is one the best overrides allow. -/
theorem mayAnswer_of_decides (rearranged : overrides.Perm perms.overrides)
    (answer : decides (withOverrides perms overrides) target action = (effect == .allow)) :
    MayAnswer perms target action effect := by
  have same : (candidates (withOverrides perms overrides).overrides target.vaultPath action).Perm
      (candidates perms.overrides target.vaultPath action) :=
    candidates_perm rearranged target.vaultPath action
  cases found : firstMaximum overrideScore
      (candidates (withOverrides perms overrides).overrides target.vaultPath action) with
  | none =>
    rw [firstMaximum_eq_none_iff] at found
    rw [decides_of_no_candidates found] at answer
    right
    exact ⟨(found ▸ same).symm.eq_nil, answer⟩
  | some best =>
    rw [decides_of_some found] at answer
    left
    refine ⟨best, (firstMaximum_isTop found).perm same, ?_⟩
    cases effect <;> cases chosen : best.effect <;> simp [chosen] at answer ⊢

/-- The order that puts an effect first answers with that effect whenever some order does. -/
theorem decides_effectFirst (possible : MayAnswer perms target action effect) :
    decides (withOverrides perms (effectFirst effect perms.overrides)) target action =
      (effect == .allow) := by
  have same := candidates_perm (effectFirst_perm effect perms.overrides) target.vaultPath action
  rcases possible with ⟨best, top, has⟩ | ⟨none, base⟩
  · have parts : candidates (effectFirst effect perms.overrides) target.vaultPath action =
        candidates (perms.overrides.filter fun override => override.effect == effect) target.vaultPath action ++
          candidates (perms.overrides.filter fun override => !(override.effect == effect))
            target.vaultPath action := List.filter_append _ _
    have top' := top.perm same.symm
    rw [parts] at top'
    have leading : best ∈ candidates (perms.overrides.filter fun override => override.effect == effect)
        target.vaultPath action := by
      rcases List.mem_filter.mp top.1 with ⟨member, competes⟩
      exact List.mem_filter.mpr ⟨List.mem_filter.mpr ⟨member, by simp [has]⟩, competes⟩
    have decided := firstMaximum_append_of_top leading top'
    rw [← parts] at decided
    cases found : firstMaximum overrideScore
        (candidates (perms.overrides.filter fun override => override.effect == effect)
          target.vaultPath action) with
    | none =>
      rw [firstMaximum_eq_none_iff] at found
      simp [found] at leading
    | some chosen =>
      have inFront := (List.mem_filter.mp (firstMaximum_isTop found).1).1
      have hasEffect : chosen.effect = effect := by simpa using (List.mem_filter.mp inFront).2
      rw [decides_of_some (decided.trans found), hasEffect]
  · rw [decides_of_no_candidates (none ▸ same).eq_nil]
    exact base

theorem opposingTie_of_mayAnswer (allows : MayAnswer perms target action .allow)
    (denies : MayAnswer perms target action .deny) : OpposingTie perms target action := by
  rcases allows with allows | ⟨none, base⟩
  · rcases denies with denies | ⟨none, _⟩
    · exact ⟨allows, denies⟩
    · rcases allows with ⟨best, top, _⟩
      rw [none] at top
      exact absurd top.1 (by simp)
  · rcases denies with ⟨best, top, _⟩ | ⟨_, masked⟩
    · rw [none] at top
      exact absurd top.1 (by simp)
    · rw [base] at masked
      exact absurd masked (by decide)

/-- Two orders of one list of overrides that disagree on a request. -/
theorem orderMatters_of_disagreement (firstPerm : first.Perm perms.overrides)
    (secondPerm : second.Perm perms.overrides) (allowed : (evaluate (withOverrides perms first) req).allowed)
    (denied : (evaluate (withOverrides perms second) req).allowed = false) : OrderMatters perms req := by
  rcases (evaluate_allowed_iff _ _).mp allowed with ⟨accepted, grounds⟩
  have refused : ¬ (Accepted req ∧ (opened (withOverrides perms second) req ∨
      Exists fun action => action ∈ consulted req ∧
        decides (withOverrides perms second) req.target action)) := by
    rw [← evaluate_allowed_iff, denied]
    simp
  rw [opened_perm firstPerm] at grounds
  rw [opened_perm secondPerm] at refused
  have closed : opened perms req = false := by
    by_contra isOpen
    exact refused ⟨accepted, .inl (by simpa using isOpen)⟩
  have deniable : forall action, action ∈ consulted req -> MayAnswer perms req.target action .deny := by
    intro action member
    apply mayAnswer_of_decides secondPerm
    cases answered : decides (withOverrides perms second) req.target action with
    | true => exact absurd ⟨accepted, .inr ⟨action, member, answered⟩⟩ refused
    | false => rfl
  rcases grounds with isOpen | ⟨action, member, answered⟩
  · rw [closed] at isOpen
    exact Bool.noConfusion isOpen
  · exact ⟨accepted, closed, deniable, action, member,
      opposingTie_of_mayAnswer (mayAnswer_of_decides firstPerm answered) (deniable action member)⟩

theorem evaluate_allowFirst (matters : OrderMatters perms req) :
    (evaluate (withOverrides perms (effectFirst .allow perms.overrides)) req).allowed := by
  rcases matters with ⟨accepted, _, _, action, member, tie⟩
  exact (evaluate_allowed_iff _ _).mpr
    ⟨accepted, .inr ⟨action, member, decides_effectFirst (.inl tie.1)⟩⟩

theorem evaluate_denyFirst (matters : OrderMatters perms req) :
    (evaluate (withOverrides perms (effectFirst .deny perms.overrides)) req).allowed = false := by
  rcases matters with ⟨accepted, closed, deniable, _⟩
  by_contra granted
  rw [Bool.not_eq_false, evaluate_allowed_iff, opened_perm (effectFirst_perm .deny perms.overrides)] at granted
  rcases granted.2 with isOpen | ⟨action, member, answered⟩
  · rw [closed] at isOpen
    exact Bool.noConfusion isOpen
  · rw [decides_effectFirst (deniable action member)] at answered
    exact absurd answered (by decide)

/-- The decision is independent of the order of the overrides exactly when no
tie between opposite effects decides it, and the override that decides an action
is the first of its candidates of maximal score. -/
theorem allowed_independent_of_order_iff (perms : Filesystem) (req : ResolvedRequest) :
    ((forall rearranged : List Override, rearranged.Perm perms.overrides ->
        (evaluate (withOverrides perms rearranged) req).allowed = (evaluate perms req).allowed) ↔
      ¬ OrderMatters perms req) ∧
    forall action best, IsFirstTop overrideScore (candidates perms.overrides req.vaultPath action) best ->
      findBestOverride perms.overrides req.vaultPath action = some best ∧
        decides perms req.target action = (best.effect == .allow) := by
  refine ⟨⟨?_, ?_⟩, fun action best first => ?_⟩
  · intro independent matters
    have permissive := independent _ (effectFirst_perm .allow perms.overrides)
    have restrictive := independent _ (effectFirst_perm .deny perms.overrides)
    rw [evaluate_allowFirst matters] at permissive
    rw [evaluate_denyFirst matters, ← permissive] at restrictive
    exact Bool.noConfusion restrictive
  · intro settled rearranged rearrangement
    have original : (evaluate (withOverrides perms perms.overrides) req).allowed =
        (evaluate perms req).allowed := rfl
    rw [← original]
    cases first : (evaluate (withOverrides perms rearranged) req).allowed with
    | true =>
      cases second : (evaluate (withOverrides perms perms.overrides) req).allowed with
      | true => rfl
      | false =>
        exact absurd (orderMatters_of_disagreement rearrangement (List.Perm.refl _) first second) settled
    | false =>
      cases second : (evaluate (withOverrides perms perms.overrides) req).allowed with
      | true =>
        exact absurd (orderMatters_of_disagreement (List.Perm.refl _) rearrangement second first) settled
      | false => rfl
  · have found := firstMaximum_of_isFirstTop first
    exact ⟨(findBestOverride_eq _ _ _).trans found, decides_of_some found⟩

/-- Two equally specific overrides with opposite effects, on different patterns: the first one wins. -/
theorem tied_overrides_follow_the_list :
    let allows : Override :=
      { qualifiedName := str "vault.fs.files.download", effect := .allow, enabled := true,
        pattern := { source := str "/b*", tokens := [.slash, .literal (str "b"), .star] } }
    let denies : Override :=
      { allows with effect := .deny, pattern := { source := str "/*a", tokens := [.slash, .star, .literal (str "a")] } }
    let req : ResolvedRequest := { action := .read, vaultPath := str "/ba", «exists» := true, isDirectory := false }
    [allows, denies].Perm [denies, allows] ∧
      (evaluate (noPermissions [allows, denies]) req).allowed = true ∧
      (evaluate (noPermissions [denies, allows]) req).allowed = false := by
  refine ⟨List.Perm.swap _ _ _, ?_, ?_⟩ <;> decide

end Evaluator
end Access
end Vaulthalla
