import Vaulthalla.Glob.OwnText
import Vaulthalla.Share.ScopedRole

namespace Vaulthalla
namespace Share
namespace ScopedRole

open Foundation
open Glob Tokenizer List
open Outcome (bind_eq_ok)
open Access (Filesystem FilesystemAction Override)
open Access.Evaluator (Decision Accepted consulted decides opened isValidForFile isValidForDirectory)
open Tokenizer (parseFrom tripleStar doubleStarText text)

/-!
# Shares of entries with unusual names

The root of a share is used as a pattern.  Its wildcards match themselves, so
a root that is accepted as a pattern matches itself and, followed by `/**`, all
that lies below it.  A backslash or three stars in a row are not accepted, and
then no role can be built.  The pattern of a file also reaches past the file
when its name holds two stars.
-/

/-! ## The patterns of a root -/

/-- The pattern of a text that is accepted. -/
def patternOf (source : Str) : Pattern :=
  { source := source, tokens := parseFrom [] source }

variable {source name : Str} {pattern : Pattern} {entry root : VaultPath} {grant : Grant} {operation : Operation}
  {patterns : List Str} {role : Filesystem} {action : FilesystemAction} {request : ShareRequest} {principal : Principal}

theorem makePattern_of_valid (absolute : isAbsolute source) (noEscape : backslash ∉ source)
    (noRun : ¬ tripleStar <:+: source) : makePattern source = .ok (patternOf source) := by
  rw [makePattern, parse_of_valid absolute noEscape noRun]
  rfl

theorem parse_of_makePattern (made : makePattern source = .ok pattern) : parse source = .ok pattern := by
  cases parsed : parse source with
  | error message => simp [makePattern, parsed, Except.mapError] at made
  | ok other =>
    rw [makePattern, parsed] at made
    exact congrArg Except.ok (Except.ok.inj made)

theorem valid_of_makePattern (made : makePattern source = .ok pattern) :
    backslash ∉ source ∧ ¬ tripleStar <:+: source ∧ pattern = patternOf source := by
  have parsed := parse_of_makePattern made
  rcases valid_of_parse parsed with ⟨noEscape, noRun⟩
  have absolute : isAbsolute source := by
    rcases parse_spec parsed with ⟨same, spec⟩
    rw [← same]
    exact (isAbsolute_iff _).mpr spec.absolute
  exact ⟨noEscape, noRun, Except.ok.inj (made.symm.trans (makePattern_of_valid absolute noEscape noRun))⟩

theorem text_patternOf (source : Str) : text (patternOf source).tokens = source := by
  simp [patternOf, text_parseFrom]

theorem matches_text_iff (pattern : Pattern) (entry : VaultPath) :
    Matcher.matches pattern entry.text ↔ entry.text ∈ language pattern.tokens := by
  rw [Matcher.matches_iff, Matcher.normalizePath, entry.lexicallyNormal_text]
  simp [entry.isAbsolute_text]

theorem matches_own_text (root : VaultPath) : Matcher.matches (patternOf root.text) root.text := by
  rw [matches_text_iff]
  have own := text_mem_language (patternOf root.text).tokens
  rwa [text_patternOf] at own

/-- The text of an entry below a root goes on with a separator. -/
theorem text_below (below : root.names <+: entry.names) (other : entry ≠ root) :
    Exists fun rest => rest ≠ [] ∧ entry.text = (if root.names = [] then [] else root.text) ++ slash :: rest := by
  rcases below with ⟨others, joined⟩
  have nonempty : others ≠ [] := by
    rintro rfl
    rw [append_nil] at joined
    exact other (VaultPath.text_injective (congrArg rooted joined.symm))
  have firstName : [slash].intercalate others ≠ [] := by
    intro empty
    have parts : others = components ([slash].intercalate others) :=
      (splitOn_intercalate slash (fun name inside => entry.clean name (by simp [← joined, inside])) nonempty).symm
    rw [empty] at parts
    have inside : [] ∈ entry.names := by simp [← joined, parts, components]
    exact (entry.legal [] inside).1 rfl
  refine ⟨[slash].intercalate others, firstName, ?_⟩
  rw [← flatMap_slash_eq nonempty]
  by_cases top : root.names = []
  · rw [if_pos top, VaultPath.text, ← joined, top, nil_append, rooted, if_neg nonempty, nil_append]
  · rw [if_neg top, VaultPath.text, ← joined, rooted_append top]
    rfl

theorem length_below (below : root.names <+: entry.names) (other : entry ≠ root) :
    root.text.length < entry.text.length := by
  rcases text_below below other with ⟨rest, nonempty, joined⟩
  have positive : 0 < rest.length := length_pos_of_ne_nil nonempty
  rw [joined]
  split
  · rename_i top
    simp only [VaultPath.text, top, rooted, if_true, nil_append, length_cons, length_nil]
    omega
  · simp only [length_append, length_cons]
    omega

theorem tokens_belowPattern (root : VaultPath) :
    (patternOf (belowPattern root.text)).tokens =
      (if root.names = [] then [] else (patternOf root.text).tokens) ++ [.slash, .doubleStar] := by
  by_cases top : root.names = []
  · have isTop : root.text = str "/" := by rw [VaultPath.text, top]; rfl
    rw [if_pos top, belowPattern, if_pos isTop]
    rfl
  · have notTop : root.text ≠ str "/" := fun same => top ((rooted_eq_slash_iff root.segments).mp same)
    rw [if_neg top, belowPattern, if_neg notTop]
    exact parseFrom_append_slash [] root.text (str "**")

/-- The second pattern of a directory matches all that lies below it. -/
theorem matches_below (below : root.names <+: entry.names) (other : entry ≠ root) :
    Matcher.matches (patternOf (belowPattern root.text)) entry.text := by
  rcases text_below below other with ⟨rest, _, joined⟩
  have behind : slash :: rest ∈ language [.slash, .doubleStar] :=
    (mem_singleton_mul [slash] _ _).mpr ⟨rest, by
      simpa [language] using Language.append_mem_mul (Backtracking.mem_anyWord rest) Language.nil_mem_one, rfl⟩
  have whole := text_append_mem_language (if root.names = [] then [] else (patternOf root.text).tokens) _ behind
  rw [matches_text_iff, tokens_belowPattern, joined]
  split at whole
  · rename_i top
    simpa [top] using whole
  · rename_i top
    rw [text_patternOf] at whole
    simpa [top] using whole

theorem belowPattern_valid (noEscape : backslash ∉ root.text) (noRun : ¬ tripleStar <:+: root.text) :
    makePattern (belowPattern root.text) = .ok (patternOf (belowPattern root.text)) := by
  have absolute := root.isAbsolute_text
  unfold belowPattern
  split
  · exact makePattern_of_valid (by decide) (by decide) (by decide)
  · have tail : str "/**" = slash :: str "**" := rfl
    rw [tail]
    apply makePattern_of_valid
    · rcases (isAbsolute_iff _).mp absolute with ⟨rest, isRooted⟩
      rw [isRooted]
      rfl
    · intro inside
      rcases mem_append.mp inside with inRoot | inTail
      · exact noEscape inRoot
      · exact absurd inTail (by decide)
    · rw [infix_append_cons_iff (by decide)]
      rintro (inRoot | inTail)
      · exact noRun inRoot
      · exact absurd inTail.length_le (by decide)

/-! ## Below a file -/

/-- Without two stars in a row, the pattern of a root matches nothing below the root. -/
theorem not_matches_below (noDouble : ¬ doubleStarText <:+: root.text) (below : root.names <+: entry.names)
    (other : entry ≠ root) : Matcher.matches (patternOf root.text) entry.text = false := by
  rw [Bool.eq_false_iff, ne_eq, matches_text_iff]
  intro member
  have single : Token.doubleStar ∉ (patternOf root.text).tokens := by
    intro inside
    have written := infix_text_of_doubleStar inside
    rw [text_patternOf] at written
    exact noDouble written
  rcases text_below below other with ⟨rest, nonempty, joined⟩
  by_cases top : root.names = []
  · have isTop : root.text = [slash] := by rw [VaultPath.text, top]; rfl
    rw [isTop] at member
    rcases (mem_singleton_mul [slash] _ _).mp member with ⟨remaining, none, whole⟩
    have empty : remaining = [] := none
    rw [joined, if_pos top, empty] at whole
    exact nonempty (cons.inj whole).2
  · have separators := count_slash_of_mem_language single member
    rw [text_patternOf, joined, if_neg top, count_append, count_cons_self] at separators
    omega

theorem not_traversed_below (below : root.names <+: entry.names) (other : entry ≠ root) :
    Matcher.requiresTraversalThrough (patternOf root.text) entry.text = false := by
  rw [Bool.eq_false_iff, ne_eq, Matcher.requiresTraversalThrough_iff]
  rintro ⟨_, _, above⟩
  have leads : Matcher.literalTraversalPrefix (patternOf root.text) <+: root.text :=
    Matcher.literalTraversalPrefix_starts root.isAbsolute_text ((matches_text_iff _ _).mp (matches_own_text root))
  have short := leads.length_le
  have long := length_below below other
  rw [Matcher.isAncestorOrSelf_iff, Matcher.normalizePath, entry.lexicallyNormal_text] at above
  rcases above with same | starts
  · rw [same] at short
    omega
  · have upTo := (Matcher.self_starts_within entry.text).length_le
    have fits := starts.length_le
    omega

/-! ## The role of a normal root -/

def sourcesOf (grant : Grant) (root : VaultPath) : List Str :=
  match grant.targetType with
  | .file => [root.text]
  | .directory => [root.text, belowPattern root.text]

theorem patternsFor_eq (isRoot : Scope.normalizeVaultPath grant.rootPath = .ok root.text) :
    patternsFor grant = .ok (sourcesOf grant root) := by
  unfold patternsFor sourcesOf
  rw [isRoot]
  cases grant.targetType <;> rfl

theorem normalize_root {rootPath : Str} (isRoot : rootPath = root.text) :
    Scope.normalizeVaultPath rootPath = .ok root.text := by
  rw [isRoot]
  exact root.normalize_text

theorem root_mem_sourcesOf (grant : Grant) (root : VaultPath) : root.text ∈ sourcesOf grant root := by
  unfold sourcesOf
  split <;> simp

theorem sources_valid (noEscape : backslash ∉ root.text) (noRun : ¬ tripleStar <:+: root.text) :
    forall source, source ∈ sourcesOf grant root -> makePattern source = .ok (patternOf source) := by
  have own := makePattern_of_valid root.isAbsolute_text noEscape noRun
  have below := belowPattern_valid noEscape noRun
  unfold sourcesOf
  split
  · simpa using own
  · simpa using ⟨own, below⟩

theorem mem_grantedPermissions :
    name ∈ grantedPermissions grant operation ↔
      grant.allows operation ∧ Exists fun action =>
        actionForOperation operation = some action ∧ name ∈ permissionsForAction action grant.targetType := by
  unfold grantedPermissions
  cases allowed : grant.allows operation with
  | false => simp
  | true =>
    cases operation <;>
      simp [supportsOperation, actionForOperation]

theorem RoleOf.decides_iff (isRole : RoleOf grant patterns operation role) (target : Access.Evaluator.TargetContext)
    (action : FilesystemAction) :
    decides role target action ↔ Exists fun override => override ∈ role.overrides ∧
      Access.Evaluator.applicable target.vaultPath action override := by
  have allows : forall override, override ∈ role.overrides -> override.effect = .allow := by
    intro override inside
    rcases isRole.sound override inside with ⟨_, _, _, _, _, _, _, rfl⟩
    rfl
  have decided := decides_scopedVaultRole allows target action
  rwa [← isRole.masks] at decided

/-- The role allows an operation where one of its patterns matches. -/
theorem RoleOf.allows (isRole : RoleOf grant patterns operation role)
    (found : actionForOperation operation = some action) (granted : name ∈ grantedPermissions grant operation)
    (inside : source ∈ patterns) (made : makePattern source = .ok (patternOf source))
    (matched : Matcher.matches (patternOf source) entry.text)
    (accepted : Accepted (entryRequest action entry request)) :
    (Access.Evaluator.evaluate role (entryRequest action entry request)).allowed := by
  rcases mem_grantedPermissions.mp granted with ⟨_, other, otherFound, named⟩
  have same : action = other := Option.some.inj (found.symm.trans otherFound)
  subst same
  have member := isRole.complete (allowOverride name (patternOf source)) ⟨name, granted, source, inside, _, made, rfl⟩
  have decided : decides role (entryRequest action entry request).target action :=
    (isRole.decides_iff _ action).mpr ⟨_, member, (permission_applies named _ _).trans matched⟩
  have first : action ∈ consulted (entryRequest action entry request) := by
    unfold consulted
    split <;> exact mem_cons_self
  exact (Access.Evaluator.evaluate_allowed_iff _ _).mpr ⟨accepted, .inr ⟨action, first, decided⟩⟩

/-- Nothing is allowed below a file whose name does not hold two stars. -/
theorem RoleOf.denies_below_file (isRole : RoleOf grant (sourcesOf grant root) operation role)
    (isFile : grant.targetType = .file) (noDouble : ¬ doubleStarText <:+: root.text)
    (below : root.names <+: entry.names) (other : entry ≠ root) (action : FilesystemAction) (request : ShareRequest) :
    (Access.Evaluator.evaluate role (entryRequest action entry request)).allowed = false := by
  have pattern : forall override, override ∈ role.overrides -> override.pattern = patternOf root.text := by
    intro override inside
    rcases isRole.sound override inside with ⟨_, _, _, source, member, made, parsed, rfl⟩
    have isRoot : source = root.text := by simpa [sourcesOf, isFile] using member
    subst isRoot
    exact (valid_of_makePattern parsed).2.2
  have silent : forall answered : FilesystemAction,
      decides role (entryRequest action entry request).target answered = false := by
    intro answered
    rw [Bool.eq_false_iff, ne_eq, isRole.decides_iff]
    rintro ⟨override, inside, applies⟩
    simp only [Access.Evaluator.applicable, Bool.and_eq_true] at applies
    have matched := applies.2
    rw [pattern override inside] at matched
    exact absurd (matched.symm.trans (not_matches_below noDouble below other)) (by decide)
  have closed : opened role (entryRequest action entry request) = false := by
    have none : forall override, override ∈ role.overrides ->
        Matcher.requiresTraversalThrough override.pattern entry.text = false := by
      intro override inside
      rw [pattern override inside]
      exact not_traversed_below below other
    have traversal : Access.Evaluator.requiresTraversalThrough role.overrides entry.text = false := by
      simp only [Access.Evaluator.requiresTraversalThrough, any_eq_false]
      intro override inside
      simp [none override inside]
    have listing : Access.Evaluator.allowsDirectoryListTraversalThrough role.overrides entry.text = false := by
      simp only [Access.Evaluator.allowsDirectoryListTraversalThrough, any_eq_false]
      intro override inside
      simp [none override inside]
    simp [opened, entryRequest, traversal, listing]
  rw [Bool.eq_false_iff, ne_eq, Access.Evaluator.evaluate_allowed_iff]
  rintro ⟨_, isOpened | ⟨answered, _, decided⟩⟩
  · exact absurd (closed.symm.trans isOpened) (by decide)
  · exact absurd ((silent answered).symm.trans decided) (by decide)

/-! ## Shares that work -/

/-- A principal that was resolved for the grant, with the role of the grant or none yet. -/
structure IsPrincipalOf (grant : Grant) (principal : Principal) : Prop where
  session : principal.shareId ≠ [] ∧ principal.shareSessionId ≠ []
  sameVault : principal.vaultId = grant.vaultId
  sameEntry : principal.rootEntryId = grant.rootEntryId
  sameRoot : principal.rootPath = grant.rootPath
  sameGrant : principal.grant = grant
  role : principal.scopedVaultRole = none ∨ Exists fun role : Filesystem =>
    scopedVaultRoleForGrant grant = .ok role ∧ principal.scopedVaultRole = some role

section

variable (grant : Grant)

/-- The action of the operation is defined for the kind of the entry, and a link to a file is asked about a file. -/
def RightKind (request : ShareRequest) : Prop :=
  (grant.targetType = .file -> request.targetType = .file) ∧
    forall action, actionForOperation request.operation = some action ->
      (if request.targetType == .directory then isValidForDirectory action else isValidForFile action) = true

/-- The root itself or, for a directory, an entry below it. -/
def InScope (root entry : VaultPath) : Prop :=
  entry = root ∨ grant.targetType = .directory ∧ root.names <+: entry.names

/-- The operations of the grant work on existing entries exactly in its scope. -/
def Works (root : VaultPath) : Prop :=
  (Exists fun role : Filesystem => scopedVaultRoleForGrant grant = .ok role) ∧
    forall (principal : Principal) (request : ShareRequest) (entry : VaultPath), IsPrincipalOf grant principal ->
      request.vaultPath = entry.text -> request.targetExists = true -> request.operation ≠ .overwrite ->
        RightKind grant request ->
          ((Exists fun decision : Decision => evaluate principal request = .ok decision ∧ decision.allowed = true) ↔
            request.vaultId = grant.vaultId ∧ grant.allows request.operation = true ∧ InScope grant root entry)

/-- Some operation of the grant gives a permission. -/
def GrantsSomething : Prop :=
  Exists fun operation : Operation => Exists fun name : Str => name ∈ grantedPermissions grant operation

/-- A root that can be used as a pattern; the pattern of a file stays within the file's name. -/
def PlainRoot (root : VaultPath) : Prop :=
  backslash ∉ root.text ∧ ¬ tripleStar <:+: root.text ∧
    (grant.targetType = .file -> ¬ doubleStarText <:+: root.text)

end

theorem accepted_of_rightKind (found : actionForOperation request.operation = some action)
    (present : request.targetExists) (kind : RightKind grant request) (entry : VaultPath) :
    Accepted (entryRequest action entry request) := by
  refine ⟨?_, fun _ => present, kind.2 action found⟩
  rcases (isAbsolute_iff _).mp entry.isAbsolute_text with ⟨rest, isRooted⟩
  simp [entryRequest, isRooted]

/-- An operation of the right kind gives a permission. -/
theorem granted_of_rightKind (allowed : grant.allows request.operation)
    (supported : request.operation ≠ .overwrite) (kind : RightKind grant request) :
    Exists fun name => name ∈ grantedPermissions grant request.operation := by
  rcases kind with ⟨sameKind, valid⟩
  cases isKind : grant.targetType with
  | directory =>
    cases operation : request.operation <;>
      first
        | exact absurd operation supported
        | exact ⟨_, mem_grantedPermissions.mpr
            ⟨operation ▸ allowed, _, rfl, by rw [isKind]; exact mem_cons_self⟩⟩
  | file =>
    have isFile := sameKind isKind
    cases operation : request.operation <;>
      first
        | exact absurd operation supported
        | exact ⟨_, mem_grantedPermissions.mpr
            ⟨operation ▸ allowed, _, rfl, by rw [isKind]; exact mem_cons_self⟩⟩
        | simp [operation, actionForOperation, isFile, isValidForFile] at valid

section

variable (isPrincipal : IsPrincipalOf grant principal) (found : patternsFor grant = .ok patterns)

include isPrincipal found

theorem roleOf_principal (hasRole : roleFor principal operation = .ok role) : RoleOf grant patterns operation role := by
  rcases isPrincipal.role with none | ⟨ownRole, built, attached⟩
  · rw [roleFor, none] at hasRole
    have effective := roleOf_effective (isPrincipal.sameGrant ▸ found) hasRole
    rwa [isPrincipal.sameGrant] at effective
  · rw [roleFor, attached] at hasRole
    rw [← Outcome.pure_eq_ok.mp hasRole]
    exact roleOf_scoped found built operation

theorem roleFor_returns (operation : Operation)
    (accepts : forall name, name ∈ grantedPermissions grant operation -> forall source, source ∈ patterns ->
      Exists fun pattern => makePattern source = .ok pattern) :
    Exists fun role => roleFor principal operation = .ok role := by
  rcases isPrincipal.role with none | ⟨ownRole, built, attached⟩
  · rw [roleFor, none]
    rcases overridesForOperation_returns_iff.mpr accepts with ⟨overrides, added⟩
    by_cases skipped : (!principal.allows operation || !supportsOperation operation) = true
    · exact ⟨scopedVaultRole [], if_pos skipped⟩
    · refine ⟨scopedVaultRole overrides, (if_neg skipped).trans ?_⟩
      rw [isPrincipal.sameGrant, found]
      exact bind_eq_ok.mpr ⟨_, rfl, bind_eq_ok.mpr ⟨overrides, added, rfl⟩⟩
  · exact ⟨ownRole, by rw [roleFor, attached]; rfl⟩

end

theorem inScope_below (inside : InScope grant root entry) : root.names <+: entry.names := by
  rcases inside with rfl | ⟨_, below⟩
  · exact prefix_rfl
  · exact below

/-- In scope, one of the patterns of the grant matches. -/
theorem source_of_inScope (inside : InScope grant root entry) :
    Exists fun source => source ∈ sourcesOf grant root ∧ Matcher.matches (patternOf source) entry.text := by
  by_cases same : entry = root
  · subst same
    exact ⟨entry.text, root_mem_sourcesOf grant entry, matches_own_text entry⟩
  · rcases inside with isRoot | ⟨isDirectory, below⟩
    · exact absurd isRoot same
    · exact ⟨belowPattern root.text, by simp [sourcesOf, isDirectory], matches_below below same⟩

/-- The principal of a valid grant is valid. -/
theorem isValid_of_principal (valid : grant.requireValid = .ok ()) (isPrincipal : IsPrincipalOf grant principal) :
    isValidSharePrincipal principal := by
  rcases bind_eq_ok.mp valid with ⟨_, hasVault, rest⟩
  rcases bind_eq_ok.mp rest with ⟨_, hasEntry, _⟩
  rw [Outcome.require_eq_ok] at hasVault hasEntry
  simp only [isValidSharePrincipal, isPrincipal.sameVault, isPrincipal.sameEntry, hasVault, hasEntry, Bool.and_true,
    Bool.and_eq_true, Bool.not_eq_true', isEmpty_eq_false_iff]
  exact isPrincipal.session

theorem works_of_plainRoot (valid : grant.requireValid = .ok ()) (isRoot : grant.rootPath = root.text)
    (plain : GrantsSomething grant -> PlainRoot grant root) : Works grant root := by
  have found := patternsFor_eq (normalize_root isRoot)
  have accepts : forall operation name, name ∈ grantedPermissions grant operation -> forall source,
      source ∈ sourcesOf grant root -> makePattern source = .ok (patternOf source) := by
    intro operation name granted
    rcases plain ⟨operation, name, granted⟩ with ⟨noEscape, noRun, _⟩
    exact sources_valid noEscape noRun
  refine ⟨(scopedVaultRoleForGrant_returns_iff found).mpr fun operation name granted source inside =>
    ⟨_, accepts operation name granted source inside⟩, ?_⟩
  intro principal request entry isPrincipal path present supported kind
  have rootPath : principal.rootPath = root.text := isPrincipal.sameRoot.trans isRoot
  rw [evaluate_allowed_iff (normalize_root rootPath) path]
  constructor
  · rintro ⟨_, sameVault, below, granted, action, isAction, role, hasRole, allowed⟩
    have grantAllows : grant.allows request.operation := by
      rw [Principal.allows, isPrincipal.sameGrant] at granted
      exact granted
    rcases granted_of_rightKind grantAllows supported kind with ⟨name, gives⟩
    refine ⟨?_, grantAllows, ?_⟩
    · rw [Principal.hasVault, isPrincipal.sameVault, beq_iff_eq] at sameVault
      exact sameVault.symm
    · cases isKind : grant.targetType with
      | directory => exact .inr ⟨isKind, below⟩
      | file =>
        left
        by_contra other
        have noDouble := (plain ⟨_, name, gives⟩).2.2 isKind
        have denied := (roleOf_principal isPrincipal found hasRole).denies_below_file isKind noDouble below other
          action request
        exact absurd (denied.symm.trans allowed) (by decide)
  · rintro ⟨sameVault, granted, inside⟩
    rcases granted_of_rightKind granted supported kind with ⟨name, gives⟩
    rcases mem_grantedPermissions.mp gives with ⟨_, action, isAction, _⟩
    rcases roleFor_returns isPrincipal found request.operation fun name gives source member =>
      ⟨_, accepts _ name gives source member⟩ with ⟨role, hasRole⟩
    rcases source_of_inScope inside with ⟨source, member, matched⟩
    refine ⟨isValid_of_principal valid isPrincipal, ?_, inScope_below inside, ?_, action, isAction, role, hasRole, ?_⟩
    · rw [Principal.hasVault, isPrincipal.sameVault, sameVault, beq_self_eq_true]
    · rw [Principal.allows, isPrincipal.sameGrant]
      exact granted
    · exact (roleOf_principal isPrincipal found hasRole).allows isAction gives member
        (accepts _ name gives source member) matched (accepted_of_rightKind isAction present kind entry)

/-! ## Roots that do not work -/

/-- The root again, below itself. -/
def twice (root : VaultPath) : VaultPath where
  names := root.names ++ root.names
  legal := fun name inside => root.legal name (by simpa using inside)
  clean := fun name inside => root.clean name (by simpa using inside)
  noNul := fun name inside => root.noNul name (by simpa using inside)

/-- Two stars in the name of a root match what lies between the root and its end below it. -/
theorem matches_twice (double : doubleStarText <:+: root.text) :
    Matcher.matches (patternOf root.text) (twice root).text ∧ twice root ≠ root := by
  have nonempty : root.names ≠ [] := by
    intro top
    rw [VaultPath.text, top] at double
    exact absurd double.length_le (by decide)
  have written : (twice root).text = root.text ++ root.text := by
    rw [VaultPath.text, twice, rooted_append nonempty, VaultPath.text, rooted, if_neg nonempty]
  constructor
  · rw [matches_text_iff, written]
    rcases append_of_mem (doubleStar_mem_parseFrom [] root.text double) with ⟨before, after, split⟩
    have own : root.text = text before ++ (str "**" ++ text after) := by
      rw [← text_patternOf root.text, patternOf, split, text_append, text_cons]
      rfl
    have reaches := repeat_mem_language before after (text before ++ str "**")
    have joined : root.text ++ root.text =
        text before ++ (str "**" ++ text after ++ (text before ++ str "**") ++ text after) := by
      rw [own]
      simp only [append_assoc]
    rw [joined, patternOf, split]
    exact reaches
  · intro same
    have lengths := congrArg length (congrArg VaultPath.names same)
    simp only [twice, length_append] at lengths
    exact nonempty (eq_nil_of_length_eq_zero (by omega))

/-- A principal of the grant with its role. -/
def principalOf (grant : Grant) (role : Filesystem) : Principal :=
  { shareId := str "share", shareSessionId := str "session", vaultId := grant.vaultId,
    rootEntryId := grant.rootEntryId, rootPath := grant.rootPath, grant := grant, accessMode := .public_,
    scopedVaultRole := some role }

theorem isPrincipalOf_principalOf (built : scopedVaultRoleForGrant grant = .ok role) :
    IsPrincipalOf grant (principalOf grant role) where
  session := ⟨(by decide : str "share" ≠ []), (by decide : str "session" ≠ [])⟩
  sameVault := rfl
  sameEntry := rfl
  sameRoot := rfl
  sameGrant := rfl
  role := .inr ⟨role, built, rfl⟩

/-- An operation on an existing file. -/
def fileRequest (grant : Grant) (operation : Operation) (path : Str) : ShareRequest :=
  { vaultId := grant.vaultId, vaultPath := path, operation := operation, targetType := .file, targetExists := true }

/-- The operations that give a permission on a file are defined for files. -/
theorem rightKind_of_granted (isFile : grant.targetType = .file) (gives : name ∈ grantedPermissions grant operation)
    (path : Str) : operation ≠ .overwrite ∧ RightKind grant (fileRequest grant operation path) := by
  rcases mem_grantedPermissions.mp gives with ⟨_, action, isAction, named⟩
  rw [isFile] at named
  refine ⟨by rintro rfl; simp [actionForOperation] at isAction, fun _ => rfl, ?_⟩
  intro other isOther
  have same : action = other := Option.some.inj (isAction.symm.trans isOther)
  subst same
  cases action <;> first | rfl | simp [permissionsForAction, Access.Evaluator.filePermissionForAction] at named

theorem plainRoot_of_works (valid : grant.requireValid = .ok ()) (isRoot : grant.rootPath = root.text)
    (works : Works grant root) (something : GrantsSomething grant) : PlainRoot grant root := by
  have found := patternsFor_eq (normalize_root isRoot)
  rcases works with ⟨⟨role, built⟩, agrees⟩
  rcases something with ⟨operation, name, gives⟩
  rcases (scopedVaultRoleForGrant_returns_iff found).mp ⟨role, built⟩ operation name gives root.text
    (root_mem_sourcesOf grant root) with ⟨pattern, made⟩
  rcases valid_of_makePattern made with ⟨noEscape, noRun, _⟩
  refine ⟨noEscape, noRun, ?_⟩
  intro isFile double
  rcases matches_twice double with ⟨matched, other⟩
  rcases rightKind_of_granted isFile gives (twice root).text with ⟨supported, kind⟩
  rcases mem_grantedPermissions.mp gives with ⟨granted, action, isAction, _⟩
  have isPrincipal := isPrincipalOf_principalOf built
  have allowed := (roleOf_scoped found built operation).allows isAction gives (root_mem_sourcesOf grant root)
    (makePattern_of_valid root.isAbsolute_text noEscape noRun) matched (accepted_of_rightKind isAction rfl kind _)
  have reached : Exists fun decision => evaluate (principalOf grant role)
      (fileRequest grant operation (twice root).text) = .ok decision ∧ decision.allowed :=
    (evaluate_allowed_iff (normalize_root (isPrincipal.sameRoot.trans isRoot)) rfl).mpr
      ⟨isValid_of_principal valid isPrincipal, beq_self_eq_true _, prefix_append _ _, granted, action, isAction,
        role, rfl, allowed⟩
  rcases (agrees _ _ _ isPrincipal rfl rfl supported kind).mp reached with ⟨_, _, same | ⟨isDirectory, _⟩⟩
  · exact other same
  · rw [isFile] at isDirectory
    exact absurd isDirectory (by decide)

/-- A share works for a root exactly when the root can stand for itself as a pattern. -/
theorem shared_root_works_iff {grant : Grant} {root : VaultPath} (valid : grant.requireValid = .ok ())
    (isRoot : grant.rootPath = root.text) : Works grant root ↔ (GrantsSomething grant -> PlainRoot grant root) :=
  ⟨plainRoot_of_works valid isRoot, works_of_plainRoot valid isRoot⟩

/-! ## Some roots -/

def linkTo (root : Str) (targetType : TargetType) : Grant :=
  { vaultId := 1, rootEntryId := 2, rootPath := root, targetType := targetType, allowedOps := 11,
    duplicatePolicy := .reject }

/-- A directory whose name is a wildcard. -/
def wildRoot : VaultPath where
  names := [str "a*", str "**"]
  legal := by decide
  clean := by decide
  noNul := by decide

theorem shared_root_works_iff_wild : Works (linkTo wildRoot.text .directory) wildRoot := by
  refine (shared_root_works_iff (by decide +kernel) rfl).mpr ?_
  intro _
  exact ⟨by decide, by decide, by decide⟩

/-- A backslash or three stars in the root: no role.  Two stars in the name of a file: the share reaches below it. -/
theorem unusual_roots_fail :
    scopedVaultRoleForGrant (linkTo (str "/a\\b") .directory) =
        .error (.runtimeError (escapeMessage 2)) ∧
      scopedVaultRoleForGrant (linkTo (str "/***") .directory) =
        .error (.runtimeError (starRunMessage 3)) ∧
      ((scopedVaultRoleForGrant (linkTo (str "/a**") .file)).bind fun role =>
        (evaluate (principalOf (linkTo (str "/a**") .file) role)
          (fileRequest (linkTo (str "/a**") .file) .download (str "/a**/b"))).map fun decision =>
            decision.allowed) = .ok true := by
  decide +kernel

end ScopedRole
end Share
end Vaulthalla
