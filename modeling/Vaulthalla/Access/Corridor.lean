import Vaulthalla.Access.OverrideSelection
import Vaulthalla.Glob.Corridor

namespace Vaulthalla
namespace Access
namespace Evaluator

open Foundation
open Glob Tokenizer

/-!
# Corridors to granted entries

A grant on an entry is of little use if the directories above it cannot be
passed.  The evaluator therefore opens a directory for lookup when an enabled
allowing override requires traversal through it, and for listing when the
override is on the directory permission `list`.

Two statements bound this mechanism.  A corridor never opens a directory for
nothing, provided the pattern consists of ordinary segments: apart from the
case where the pattern only extends the name of the directory, something below
it is matched.  In the other direction, a granted entry is reachable through
every ancestor down to the literal start of the pattern.  Below the literal
start an ancestor is passed only where the pattern matches it too; a pattern
with a wildcard in a middle segment does not open what the wildcard matched.
-/

variable {perms : Filesystem} {directory entry : Str} {pattern : Pattern} {override : Override}

theorem override_of_opened {req : ResolvedRequest} (isOpen : opened perms req) :
    Exists fun override => override ∈ perms.overrides ∧ override.enabled ∧
      override.effect = .allow ∧
      Matcher.requiresTraversalThrough override.pattern req.vaultPath := by
  simp only [opened, Bool.or_eq_true, Bool.and_eq_true] at isOpen
  rcases isOpen with ⟨_, through⟩ | ⟨_, through⟩
  · rcases List.any_eq_true.mp through with ⟨override, member, required⟩
    simp only [Bool.and_eq_true, beq_iff_eq] at required
    exact ⟨override, member, required.1.1, required.1.2, required.2⟩
  · rcases List.any_eq_true.mp through with ⟨override, member, required⟩
    simp only [Bool.and_eq_true, beq_iff_eq] at required
    exact ⟨override, member, required.1.1.1, required.1.1.2, required.2⟩

/-- A normal path strictly below a directory that a pattern matches. -/
def MatchedBelow (pattern : Pattern) (directory : Str) : Prop :=
  Exists fun path => Matcher.normalizePath path = path ∧ Matcher.StrictlyBelow directory path ∧
    Matcher.matches pattern path = true

theorem matchedBelow_iff {source : Str} (accepted : parse source = .ok pattern)
    (legal : Matcher.LegalSegments source) (normal : Matcher.normalizePath directory = directory)
    (required : Matcher.requiresTraversalThrough pattern directory) :
    MatchedBelow pattern directory ↔ ¬ Matcher.StopsInsideName pattern directory := by
  rcases parse_spec accepted with ⟨same, parsed⟩
  constructor
  · rintro ⟨path, normalPath, below, matched⟩ stops
    rw [Matcher.matches_of_stopsInsideName stops normalPath below] at matched
    exact Bool.noConfusion matched
  · intro continues
    rcases Matcher.corridor_leads parsed (same ▸ legal) normal required with found | stops
    · exact found
    · exact absurd stops continues

/-- For a pattern of ordinary segments, a directory that traversal is required
through has a matching path below it exactly when the corridor does not stop
inside a name.  Consequently a grant made for traversal is owed to an enabled
allowing override that matches something below, or extends the name of the
directory. -/
theorem traversal_leads_to_match :
    (forall (source : Str) (pattern : Pattern) (directory : Str),
      parse source = .ok pattern -> Matcher.LegalSegments source ->
      Matcher.normalizePath directory = directory ->
      Matcher.requiresTraversalThrough pattern directory = true ->
      (MatchedBelow pattern directory ↔ ¬ Matcher.StopsInsideName pattern directory)) ∧
    (forall (perms : Filesystem) (req : ResolvedRequest),
      (forall override, override ∈ perms.overrides ->
        parse override.pattern.source = .ok override.pattern) ->
      Matcher.normalizePath req.vaultPath = req.vaultPath ->
      (evaluate perms req).reason = .lowRiskOpRequiredForOverrideTraversal ->
      Exists fun override => override ∈ perms.overrides ∧ override.enabled = true ∧
        override.effect = .allow ∧
        (Matcher.LegalSegments override.pattern.source ->
          MatchedBelow override.pattern req.vaultPath ∨
            Matcher.StopsInsideName override.pattern req.vaultPath)) := by
  constructor
  · intro source pattern directory accepted legal normal required
    exact matchedBelow_iff accepted legal normal required
  · intro perms req accepted normal granted
    rcases override_of_opened (opened_of_traversal_reason granted) with ⟨override, member, enabled, allows, required⟩
    refine ⟨override, member, enabled, allows, fun legal => ?_⟩
    by_cases stops : Matcher.StopsInsideName override.pattern req.vaultPath
    · exact .inr stops
    · exact .inl ((matchedBelow_iff (accepted override member) legal normal required).mpr stops)

/-- The compiled form of a literal directory followed by more tokens. -/
def docsPattern (rest : String) (tokens : List Token) : Pattern :=
  { source := str "/docs" ++ str rest, tokens := .slash :: .literal (str "docs") :: tokens }

/-- Below `/docs` the pattern with a star after the slash has a match. -/
theorem traversal_leads_to_match_docs :
    Matcher.requiresTraversalThrough (docsPattern "/*" [.slash, .star]) (str "/docs") = true ∧
      MatchedBelow (docsPattern "/*" [.slash, .star]) (str "/docs") := by
  refine ⟨by decide, ?_⟩
  refine (traversal_leads_to_match.1 (str "/docs/*") _ (str "/docs") rfl (by decide) (by decide)
    (by decide)).mpr ?_
  rintro ⟨same, _⟩
  exact absurd same (by decide)

/-- A corridor without anything below it: at a name the pattern extends, at a
pattern with an empty segment in the middle, and at a pattern that names the
directory with a trailing separator. -/
theorem traversal_without_match :
    (parse (str "/docs*") = .ok (docsPattern "*" [.star]) ∧
      Matcher.requiresTraversalThrough (docsPattern "*" [.star]) (str "/docs") = true ∧
      ¬ MatchedBelow (docsPattern "*" [.star]) (str "/docs")) ∧
    (parse (str "/docs//a") = .ok (docsPattern "//a" [.slash, .slash, .literal (str "a")]) ∧
      Matcher.requiresTraversalThrough (docsPattern "//a" [.slash, .slash, .literal (str "a")])
        (str "/docs") = true ∧
      ¬ MatchedBelow (docsPattern "//a" [.slash, .slash, .literal (str "a")]) (str "/docs")) ∧
    (parse (str "/docs/") = .ok (docsPattern "/" [.slash]) ∧
      Matcher.requiresTraversalThrough (docsPattern "/" [.slash]) (str "/docs") = true ∧
      ¬ MatchedBelow (docsPattern "/" [.slash]) (str "/docs")) := by
  refine ⟨⟨rfl, by decide, ?_⟩, ⟨rfl, by decide, ?_⟩, ⟨rfl, by decide, ?_⟩⟩
  · rintro ⟨path, normal, below, matched⟩
    have stops : Matcher.StopsInsideName (docsPattern "*" [.star]) (str "/docs") :=
      ⟨by decide, by decide, [], .inl rfl⟩
    rw [Matcher.matches_of_stopsInsideName stops normal below] at matched
    exact Bool.noConfusion matched
  · rintro ⟨path, normal, _, matched⟩
    rcases (Matcher.matches_iff _ _).mp matched with ⟨absolute, member⟩
    rw [normal] at absolute member
    have whole := Matcher.literalTraversalPrefix_of_no_wildcard (by decide) absolute member
    rw [← whole] at normal
    exact absurd normal (by decide)
  · rintro ⟨path, normal, ⟨rest, nonempty, inside⟩, matched⟩
    rcases (Matcher.matches_iff _ _).mp matched with ⟨absolute, member⟩
    rw [normal] at absolute member
    have whole := Matcher.literalTraversalPrefix_of_no_wildcard (by decide) absolute member
    rw [← whole] at inside
    exact nonempty (List.append_right_eq_self.mp inside.symm)

/-! ## Reaching a granted entry -/

/-- A directory on the way to an entry, other than the entry itself. -/
def ProperAncestor (directory entry : Str) : Prop :=
  Exists fun rest => rest ≠ [] ∧ entry = Matcher.within directory ++ rest

/-- The lookup of an existing directory. -/
def lookupDirectory (directory : Str) : ResolvedRequest :=
  { action := .lookup, vaultPath := directory, «exists» := true, isDirectory := true }

/-- The ancestors an override opens by itself: down to its literal start
unless it matches them, and any ancestor it matches with a permission that
governs lookups. -/
def Reaches (override : Override) (directory : Str) : Prop :=
  (directory.length ≤ (Matcher.literalTraversalPrefix override.pattern).length ∧
    Matcher.matches override.pattern directory = false) ∨
  (Matcher.matches override.pattern directory = true ∧ mismatched .lookup override = false)

theorem lookupDirectory_accepted (absolute : isAbsolute directory) : Accepted (lookupDirectory directory) := by
  rcases (isAbsolute_iff directory).mp absolute with ⟨rest, rfl⟩
  exact ⟨by simp [lookupDirectory], fun _ => rfl, rfl⟩

theorem consulted_lookupDirectory (directory : Str) : consulted (lookupDirectory directory) = [.lookup] := rfl

/-- Some enabled override decides the lookup of a directory as denied. -/
def LookupDeniedByOverride (perms : Filesystem) (directory : Str) : Prop :=
  Exists fun best => findBestOverride perms.overrides directory .lookup = some best ∧ best.effect = .deny

theorem applicable_of_reaches (enabled : override.enabled)
    (matched : Matcher.matches override.pattern directory) (governs : mismatched .lookup override = false) :
    applicable directory .lookup override = true := by
  simp only [mismatched, Bool.or_eq_false_iff] at governs
  simp [applicable, enabled, matched, governs.1, governs.2]

section

variable (normal : Matcher.normalizePath directory = directory) (absolute : isAbsolute directory)
  (normalEntry : Matcher.normalizePath entry = entry) (ancestor : ProperAncestor directory entry)

include normal absolute normalEntry ancestor

/-- An ancestor of a matched entry is on the corridor of the pattern exactly
when it is not longer than the literal start. -/
theorem requiresTraversalThrough_ancestor (matched : Matcher.matches pattern entry) :
    Matcher.requiresTraversalThrough pattern directory ↔
      directory.length ≤ (Matcher.literalTraversalPrefix pattern).length ∧
        Matcher.matches pattern directory = false := by
  rcases (Matcher.matches_iff _ _).mp matched with ⟨entryAbsolute, member⟩
  rw [normalEntry] at entryAbsolute member
  have starts := Matcher.literalTraversalPrefix_starts entryAbsolute member
  rcases ancestor with ⟨rest, _, path⟩
  have below : Matcher.within directory <+: entry := ⟨rest, path.symm⟩
  have above := (Matcher.self_starts_within directory).trans below
  rw [Matcher.requiresTraversalThrough_iff, normal, Matcher.isAncestorOrSelf_iff]
  constructor
  · rintro ⟨_, unmatched, same | strict⟩
    · exact ⟨by rw [same], unmatched⟩
    · exact ⟨((Matcher.self_starts_within directory).trans strict).length_le, unmatched⟩
  · rintro ⟨short, unmatched⟩
    refine ⟨absolute, unmatched, ?_⟩
    rcases Nat.lt_or_ge (Matcher.literalTraversalPrefix pattern).length (Matcher.within directory).length
      with shorter | longer
    · left
      have into := List.prefix_of_prefix_length_le above starts short
      have bound := Matcher.within_length_le directory
      exact (into.eq_of_length_le (by omega)).symm
    · right
      exact List.prefix_of_prefix_length_le below starts longer

/-- The ancestors that an allowing override reaches are passed by a lookup. -/
theorem lookup_of_reaches (member : override ∈ perms.overrides) (enabled : override.enabled)
    (allows : override.effect = .allow) (matched : Matcher.matches override.pattern entry)
    (reaches : Reaches override directory) :
    (evaluate perms (lookupDirectory directory)).allowed ∨ LookupDeniedByOverride perms directory := by
  rcases reaches with corridor | ⟨here, governs⟩
  · left
    have required := (requiresTraversalThrough_ancestor normal absolute normalEntry ancestor matched).mpr corridor
    have through : requiresTraversalThrough perms.overrides directory :=
      List.any_eq_true.mpr ⟨override, member, by simp [enabled, allows, required]⟩
    refine (evaluate_allowed_iff _ _).mpr ⟨lookupDirectory_accepted absolute, .inl ?_⟩
    simp [opened, lookupDirectory, through]
  · have competes : override ∈ candidates perms.overrides directory .lookup :=
      List.mem_filter.mpr ⟨member, applicable_of_reaches enabled here governs⟩
    cases found : findBestOverride perms.overrides directory .lookup with
    | none =>
      rw [findBestOverride_eq, Selection.firstMaximum_eq_none_iff] at found
      simp [found] at competes
    | some best =>
      cases effect : best.effect with
      | deny => exact .inr ⟨best, found, effect⟩
      | allow =>
        left
        refine (evaluate_allowed_iff _ _).mpr
          ⟨lookupDirectory_accepted absolute, .inr ⟨.lookup, by simp [consulted_lookupDirectory], ?_⟩⟩
        simp [decides, ResolvedRequest.target, lookupDirectory, found, effect]

/-- Alone on a role without permissions, an override opens no other ancestor. -/
theorem reaches_of_lookup_alone (matched : Matcher.matches override.pattern entry)
    (allowed : (evaluate (noPermissions [override]) (lookupDirectory directory)).allowed) :
    Reaches override directory := by
  rcases (evaluate_allowed_iff _ _).mp allowed with ⟨_, isOpen | ⟨action, member, answer⟩⟩
  · left
    have required : Matcher.requiresTraversalThrough override.pattern directory := by
      rcases override_of_opened isOpen with ⟨other, only, _, _, required⟩
      rwa [List.mem_singleton.mp only] at required
    exact (requiresTraversalThrough_ancestor normal absolute normalEntry ancestor matched).mp required
  · right
    have isLookup : action = .lookup := by simpa [consulted_lookupDirectory] using member
    subst isLookup
    cases found : findBestOverride [override] directory .lookup with
    | none =>
      have denied : decides (noPermissions [override]) (lookupDirectory directory).target .lookup = false := by
        have lookup : findBestOverride (noPermissions [override]).overrides
            (lookupDirectory directory).target.vaultPath .lookup = none := found
        rw [decides, lookup]
        exact allowedByBase_noPermissions _ _ _
      rw [denied] at answer
      exact Bool.noConfusion answer
    | some best =>
      rcases findBestOverride_mem found with ⟨only, competes⟩
      rw [List.mem_singleton.mp only] at competes
      simp only [applicable, Bool.and_eq_true, Bool.not_eq_true'] at competes
      exact ⟨competes.2, by simp [mismatched, competes.1.1.2, competes.1.2]⟩

end

/-- Reachability of granted entries.  An allowing override that matches an
entry lets a lookup pass every proper ancestor it reaches, unless the best
override for the lookup there denies it.  On a role without permissions the
override alone passes no other ancestor, so nothing more can be promised. -/
theorem granted_entry_reachable (perms : Filesystem) (override : Override) (directory entry : Str)
    (member : override ∈ perms.overrides) (enabled : override.enabled = true) (allows : override.effect = .allow)
    (normal : Matcher.normalizePath directory = directory) (absolute : isAbsolute directory = true)
    (normalEntry : Matcher.normalizePath entry = entry) (matched : Matcher.matches override.pattern entry = true)
    (ancestor : ProperAncestor directory entry) :
    (Reaches override directory ->
      (evaluate perms (lookupDirectory directory)).allowed = true ∨
        LookupDeniedByOverride perms directory) ∧
    ((evaluate (noPermissions [override]) (lookupDirectory directory)).allowed = true ↔
      Reaches override directory) := by
  refine ⟨lookup_of_reaches normal absolute normalEntry ancestor member enabled allows matched, ?_, ?_⟩
  · exact reaches_of_lookup_alone normal absolute normalEntry ancestor matched
  · intro reaches
    have alone : override ∈ (noPermissions [override]).overrides := List.mem_singleton.mpr rfl
    rcases lookup_of_reaches normal absolute normalEntry ancestor alone enabled allows matched reaches
      with allowed | ⟨best, found, denies⟩
    · exact allowed
    · have only := List.mem_singleton.mp (findBestOverride_mem found).1
      rw [only, allows] at denies
      exact OverrideOpt.noConfusion denies

/-- An allowing override for a file two levels below `/docs`, behind a wildcard segment. -/
def secretOverride : Override :=
  { qualifiedName := str "vault.fs.files.download", effect := .allow, enabled := true,
    pattern := docsPattern "/*/secret.txt" [.slash, .star, .slash, .literal (str "secret.txt")] }

theorem granted_entry_reachable_docs :
    (evaluate (noPermissions [secretOverride]) (lookupDirectory (str "/docs"))).allowed = true :=
  (granted_entry_reachable (noPermissions [secretOverride]) secretOverride (str "/docs")
    (str "/docs/a/secret.txt") (by decide) rfl rfl (by decide) (by decide) (by decide) (by decide)
    ⟨str "a/secret.txt", by decide, by decide⟩).2.mpr (.inl ⟨by decide, by decide⟩)

/-- The directory behind a wildcard in a middle segment is not opened,
although the override matches an entry in it and nothing denies the lookup. -/
theorem wildcard_segment_not_reached :
    secretOverride.enabled = true ∧ secretOverride.effect = .allow ∧
      parse (str "/docs/*/secret.txt") = .ok secretOverride.pattern ∧
      Matcher.matches secretOverride.pattern (str "/docs/a/secret.txt") = true ∧
      ProperAncestor (str "/docs/a") (str "/docs/a/secret.txt") ∧
      findBestOverride [secretOverride] (str "/docs/a") .lookup = none ∧
      (evaluate (noPermissions [secretOverride]) (lookupDirectory (str "/docs/a"))).allowed = false := by
  refine ⟨rfl, rfl, rfl, by decide, ⟨str "secret.txt", by decide, by decide⟩, by decide, by decide⟩

end Evaluator
end Access
end Vaulthalla
