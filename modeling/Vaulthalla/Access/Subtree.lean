import Vaulthalla.Access.Evaluator
import Vaulthalla.Glob.Traversal

namespace Vaulthalla
namespace Access
namespace Evaluator

open Foundation
open Glob Matcher

/-!
# Subtrees that no override reaches

A listing asks `overridesMayAffectListing` once per directory and skips the
check of each entry if the answer is negative.  This is sound when a negative
answer means that no enabled override takes part in any decision inside the
subtree: the stage of every entry is then the one its kind gets from the
masks, and a single probe of each kind speaks for all of them.
-/

/-- The stage the masks give to an entry of a kind, the read fallback of a
file lookup included.  It does not depend on the path. -/
def baseOnlyStage (perms : Filesystem) (isDir present : Bool) (action : FilesystemAction) : StageResult :=
  let stage := baseStage perms isDir action
  if action = .lookup ∧ isDir = false ∧ present = true ∧ stage.allowed = some false then
    let read := baseStage perms isDir .read
    if read.allowed.getD false then read else stage
  else stage

variable {perms : Filesystem}

theorem override_silent {directory : Str} (unaffected : overridesMayAffectListing perms directory = false)
    {override : Override} (member : override ∈ perms.overrides) (enabled : override.enabled) :
    mayMatchWithin override.pattern directory = false := by
  have silent := List.any_eq_false.mp unaffected override member
  simpa [enabled] using silent

section Inside

variable {perms : Filesystem} {directory path : Str}
variable (normal : normalizePath directory = directory) (absolute : isAbsolute directory = true)
variable (unaffected : overridesMayAffectListing perms directory = false)
variable (inside : Matcher.AtOrBelow directory path)

include normal absolute unaffected inside

theorem no_candidates (action : FilesystemAction) : candidates perms.overrides path action = [] := by
  apply List.filter_eq_nil_iff.mpr
  intro override member competes
  have silent := override_silent unaffected member (applicable_enabled competes)
  simp only [applicable, Bool.and_eq_true] at competes
  rw [matches_of_mayMatchWithin_false normal absolute inside silent] at competes
  exact Bool.noConfusion competes.2

theorem resolveAction_base (isDir present : Bool) (action : FilesystemAction) :
    resolveAction perms { vaultPath := path, «exists» := present, isDir := isDir } action =
      baseStage perms isDir action := by
  have none := no_candidates normal absolute unaffected inside action
  simp [resolveAction, resolveOverrides, findBestOverride_eq, none, Selection.firstMaximum]

theorem not_opened (isDirectory present : Bool) (action : FilesystemAction) :
    opened perms { action := action, vaultPath := path, «exists» := present, isDirectory := isDirectory } =
      false := by
  have closed : requiresTraversalThrough perms.overrides path = false := by
    apply List.any_eq_false.mpr
    intro override member required
    simp only [Bool.and_eq_true] at required
    have silent := override_silent unaffected member required.1.1
    rw [requiresTraversalThrough_of_mayMatchWithin_false normal absolute inside silent] at required
    exact Bool.noConfusion required.2
  have unlisted : allowsDirectoryListTraversalThrough perms.overrides path = false := by
    apply List.any_eq_false.mpr
    intro override member required
    simp only [Bool.and_eq_true] at required
    have silent := override_silent unaffected member required.1.1.1
    rw [requiresTraversalThrough_of_mayMatchWithin_false normal absolute inside silent] at required
    exact Bool.noConfusion required.2
  simp [opened, closed, unlisted]

theorem resolveStage_base (isDir present : Bool) (action : FilesystemAction) :
    resolveStage perms { vaultPath := path, «exists» := present, isDir := isDir } action =
      baseOnlyStage perms isDir present action := by
  simp only [resolveStage, resolveAction_base normal absolute unaffected inside, baseOnlyStage]

end Inside

theorem path_nonempty {directory path : Str} (absolute : isAbsolute directory)
    (inside : Matcher.AtOrBelow directory path) : path ≠ [] := by
  rintro rfl
  rcases (isAbsolute_iff directory).mp absolute with ⟨rest, rooted⟩
  have empty : normalizePath [] = [] := rfl
  rcases inside with same | below
  · rw [empty, rooted] at same
    exact absurd same.symm (by simp)
  · rw [empty, List.prefix_nil, within] at below
    split at below
    · simp [rooted] at below
    · simp [rooted] at below

/-- What the stage of the masks becomes when no corridor opens the target. -/
def reportStage (stage : StageResult) (path : Str) : Decision :=
  { allowed := stage.allowed.getD false, reason := stage.reason, evaluatedPath := some path,
    matchedOverride := stage.matchedOverride, overrideEffect := stage.overrideEffect }

theorem decideStage_of_not_opened {req : ResolvedRequest} (closed : opened perms req = false) :
    decideStage perms req (resolveStage perms req.target req.action) =
      reportStage (resolveStage perms req.target req.action) req.vaultPath := by
  rcases resolveStage_spec perms req.target req.action with ⟨matched, allowed⟩
  rw [decideStage_of_allowed perms req matched allowed, closed, reportStage, allowed]
  simp

/-- A resolved request on an entry of the subtree. -/
def requestOn (action : FilesystemAction) (path : Str) (present isDirectory : Bool) : ResolvedRequest :=
  { action := action, vaultPath := path, «exists» := present, isDirectory := isDirectory }

/-- If no enabled override may affect the listing of a directory, every stage
at or below it comes from the masks alone, and any two entries of one kind get
the same decision, up to the path it reports. -/
theorem subtree_decided_by_base (perms : Filesystem) (directory path other : Str)
    (normal : normalizePath directory = directory) (absolute : isAbsolute directory = true)
    (unaffected : overridesMayAffectListing perms directory = false)
    (inside : Matcher.AtOrBelow directory path) (otherInside : Matcher.AtOrBelow directory other)
    (action : FilesystemAction) (present isDirectory : Bool) :
    resolveStage perms { vaultPath := path, «exists» := present, isDir := isDirectory } action =
      baseOnlyStage perms isDirectory present action ∧
    evaluate perms (requestOn action path present isDirectory) =
      { evaluate perms (requestOn action other present isDirectory) with evaluatedPath := some path } := by
  have stage := resolveStage_base normal absolute unaffected inside isDirectory present action
  have otherStage := resolveStage_base normal absolute unaffected otherInside isDirectory present action
  refine ⟨stage, ?_⟩
  have decided := decideStage_of_not_opened
    (not_opened normal absolute unaffected inside isDirectory present action)
  have otherDecided := decideStage_of_not_opened
    (not_opened normal absolute unaffected otherInside isDirectory present action)
  have named : path.isEmpty = false := by simpa using path_nonempty absolute inside
  have otherNamed : other.isEmpty = false := by simpa using path_nonempty absolute otherInside
  unfold evaluate
  simp only [requestOn, named, otherNamed, decided, otherDecided]
  simp only [ResolvedRequest.target, stage, otherStage, Bool.false_eq_true, if_false]
  split_ifs <;> rfl

/-- A role that reads files and lists directories, with one override elsewhere. -/
def privateOverride : Filesystem :=
  { files := { permissions := 5, share := { permissions := 0 } },
    directories := { permissions := 1, share := { permissions := 0 } },
    overrides :=
      [{ qualifiedName := str "vault.fs.files.download", effect := .deny, enabled := true,
         pattern := { source := str "/private/*",
                      tokens := [.slash, .literal (str "private"), .slash, .star] } }] }

theorem subtree_decided_by_base_docs :
    (evaluate privateOverride (requestOn .read (str "/docs/a/b.txt") true false)).allowed = true ∧
    evaluate privateOverride (requestOn .read (str "/docs/a/b.txt") true false) =
      { evaluate privateOverride (requestOn .read (str "/docs/c.txt") true false) with
        evaluatedPath := some (str "/docs/a/b.txt") } := by
  refine ⟨by decide, ?_⟩
  exact (subtree_decided_by_base privateOverride (str "/docs") _ _ (by decide) (by decide) (by decide)
    (.inr ⟨str "a/b.txt", by decide⟩) (.inr ⟨str "c.txt", by decide⟩) .read true false).2

end Evaluator
end Access
end Vaulthalla
