import Vaulthalla.Access.OverrideSelection
import Vaulthalla.Access.PathAgreement
import Vaulthalla.Access.Subtree
import Vaulthalla.Share.LinkAuthorizer
import Vaulthalla.Share.SharedNames

namespace Vaulthalla
namespace Share
namespace LinkAuthorizer

open Foundation ScopedRole
open Access (FilesystemAction Filesystem Override)
open Access.Evaluator (Entry User DecidingRole Decision Accepted consulted decides decidingRole allowedByBase
  isValidForFile isValidForDirectory evaluateAccount entryActionRequest entryTarget mismatched requestOn
  overridesMayAffectListing)
open Outcome (bind_eq_ok)
open Scope (normalizeVaultPath)
open ScopedRole (ShareRequest IsPrincipalOf actionForOperation scopedVaultRoleForGrant patternOf sourcesOf)
open Glob Matcher
open Glob.Tokenizer (tripleStar)
open Access.Evaluator (checkKind_eq_ok ofAnotherVault resolveTarget teamEngine)

/-!
# Links and the rights of their creators

The role of a directory link allows its operations on the whole subtree, while
the creator has been checked at the root.  The link stays within the rights of
its creator if the masks of the role that decides for the creator have every
operation for the kinds of entries in the subtree, and no denying override on
it may match at the root or below.  Where no override at all may match there,
this is also necessary.
-/

/-! ## Entries within reach of a link -/

variable (role : Filesystem)

/-- The action is defined for the kind of the entry. -/
def FitsKind (action : FilesystemAction) (isDirectory : Bool) : Prop :=
  (if isDirectory then isValidForDirectory action else isValidForFile action) = true

variable (deployment : Deployment) (link : Link) (entry : Entry)

/-- An entry that exists in the vault of a link, with its path. -/
structure Present (path : VaultPath) : Prop where
  stored : Exists fun id : UInt32 => deployment.getFSEntryById id = some entry
  ofVault : entry.vaultId = some link.vaultId.toInt32
  isPath : entry.path = path.text

/-- The link can have a principal, and its root can be used as a pattern. -/
structure Usable (root : VaultPath) : Prop where
  isRoot : normalizeVaultPath link.rootPath = .ok root.text
  hasVault : link.vaultId ≠ 0
  hasEntry : link.rootEntryId ≠ 0
  noEscape : backslash ∉ root.text
  noRun : ¬ tripleStar <:+: root.text

/-- There is an entry of the kind at the root or below it. -/
def Occurs (root : VaultPath) (isDirectory : Bool) : Prop :=
  Exists fun entry : Entry => Exists fun path : VaultPath =>
    Present deployment link entry path ∧ root.names <+: path.names ∧ entry.isDirectory = isDirectory

/-- The masks have every operation of the link for each kind that occurs in its subtree, and no denying override on it
may match at the root or below.  Seeing a file is implied by reading it. -/
def Covers (root : VaultPath) : Prop :=
  forall (operation : Operation) (action : FilesystemAction) (isDirectory : Bool),
    link.grant.allows operation = true -> actionForOperation operation = some action -> FitsKind action isDirectory ->
    Occurs deployment link root isDirectory ->
    Exists fun answer => answer ∈ consulted (requestOn action root.text true isDirectory) ∧
      allowedByBase role isDirectory answer = true ∧
        forall override, override ∈ role.overrides -> override.enabled = true -> override.effect = .deny ->
          mismatched answer override = false -> mayMatchWithin override.pattern root.text = false

/-! ## What the principal of a link may do -/

/-- The request of a link's principal for an entry. -/
def shareRequestFor (operation : Operation) : ShareRequest :=
  { vaultId := link.vaultId, vaultPath := entry.path, operation := operation,
    targetType := if entry.isDirectory then .directory else .file, targetExists := true }

/-- The principal of a link, with the role of its grant, is allowed an operation on an entry. -/
def LinkAllows (operation : Operation) : Prop :=
  Exists fun role : Filesystem => scopedVaultRoleForGrant link.grant = .ok role ∧
    Exists fun principal : Principal => IsPrincipalOf link.grant principal ∧ principal.scopedVaultRole = some role ∧
      Exists fun decision : Decision =>
        evaluate principal (shareRequestFor link entry operation) = .ok decision ∧ decision.allowed = true

/-- No operation of the link goes beyond what its creator may do on the same entry. -/
def NeverAmplifies (user : User) (link : Link) : Prop :=
  forall (entry : Entry) (root path : VaultPath) (operation : Operation) (action : FilesystemAction),
    normalizeVaultPath link.rootPath = .ok root.text -> Present deployment link entry path ->
    root.names <+: path.names -> LinkAllows link entry operation -> actionForOperation operation = some action ->
    (evaluateAccount deployment.system deployment.identities (some user)
      (entryActionRequest action link.vaultId entry)).allowed = true

theorem targetType_beq :
    ((if entry.isDirectory then TargetType.directory else TargetType.file) == TargetType.directory) =
      entry.isDirectory := by
  cases entry.isDirectory <;> rfl

variable {action : FilesystemAction} {link : Link} {operation : Operation} {entry : Entry}

/-- An operation of a directory link gives a permission. -/
theorem gives_permission (isDirectory : link.targetType = .directory) (allowed : link.grant.allows operation)
    (isAction : actionForOperation operation = some action) :
    Exists fun name => name ∈ grantedPermissions link.grant operation := by
  have kind : link.grant.targetType = .directory := isDirectory
  have supported : supportsOperation operation := by
    cases operation <;> first | rfl | cases isAction
  simp only [grantedPermissions, allowed, supported, isAction, kind, Bool.not_true, Bool.or_self,
    Bool.false_eq_true, if_false]
  cases operation <;> cases isAction <;> exact ⟨_, List.mem_cons_self⟩

theorem linkAllows_iff {root path : VaultPath} (isDirectory : link.targetType = .directory)
    (isRoot : normalizeVaultPath link.rootPath = .ok root.text) (isPath : entry.path = path.text)
    (below : root.names <+: path.names) (isAction : actionForOperation operation = some action) :
    LinkAllows link entry operation ↔
      Usable link root ∧ link.grant.allows operation ∧ FitsKind action entry.isDirectory := by
  have found := patternsFor_eq (show normalizeVaultPath link.grant.rootPath = .ok root.text from isRoot)
  constructor
  · rintro ⟨role, built, principal, isPrincipal, attached, decided⟩
    have principalRoot : normalizeVaultPath principal.rootPath = .ok root.text := by
      rw [isPrincipal.sameRoot]
      exact isRoot
    rcases (evaluate_allowed_iff principalRoot isPath).mp decided with
      ⟨valid, _, _, granted, other, isOther, ownRole, _, allowed⟩
    have sameAction : other = action := Option.some.inj (isOther.symm.trans isAction)
    subst sameAction
    rw [Principal.allows, isPrincipal.sameGrant] at granted
    have accepted := ((Access.Evaluator.evaluate_allowed_iff _ _).mp allowed).1
    have fits : FitsKind other entry.isDirectory := by
      have kind := accepted.2.2
      rw [FitsKind]
      simpa only [entryRequest, shareRequestFor, targetType_beq] using kind
    rcases gives_permission isDirectory granted isAction with ⟨name, gives⟩
    rcases (scopedVaultRoleForGrant_returns_iff found).mp ⟨role, built⟩ _ name gives root.text
      (root_mem_sourcesOf _ root) with ⟨pattern, made⟩
    rcases valid_of_makePattern made with ⟨noEscape, noRun, _⟩
    simp only [isValidSharePrincipal, isPrincipal.sameVault, isPrincipal.sameEntry, Bool.and_eq_true,
      bne_iff_ne] at valid
    exact ⟨⟨isRoot, valid.1.2, valid.2, noEscape, noRun⟩, granted, fits⟩
  · rintro ⟨usable, granted, fits⟩
    have sources : forall source, source ∈ sourcesOf link.grant root ->
        makePattern source = .ok (patternOf source) := sources_valid usable.noEscape usable.noRun
    rcases (scopedVaultRoleForGrant_returns_iff found).mpr fun _ _ _ source inside =>
      ⟨_, sources source inside⟩ with ⟨role, built⟩
    have isPrincipal := isPrincipalOf_principalOf built
    refine ⟨role, built, principalOf link.grant role, isPrincipal, rfl, ?_⟩
    have principalRoot : normalizeVaultPath (principalOf link.grant role).rootPath = .ok root.text := isRoot
    refine (evaluate_allowed_iff principalRoot isPath).mpr
      ⟨?_, beq_self_eq_true _, below, granted, action, isAction, role, rfl, ?_⟩
    · simp only [isValidSharePrincipal, isPrincipal.sameVault, isPrincipal.sameEntry, Bool.and_eq_true,
        bne_iff_ne, Bool.not_eq_true', List.isEmpty_eq_false_iff]
      exact ⟨⟨isPrincipal.session, usable.hasVault⟩, usable.hasEntry⟩
    · rcases gives_permission isDirectory granted isAction with ⟨name, gives⟩
      have inside : ScopedRole.InScope link.grant root path := .inr ⟨isDirectory, below⟩
      rcases source_of_inScope inside with ⟨source, member, matched⟩
      have accepted : Accepted (entryRequest action path (shareRequestFor link entry operation)) := by
        rcases (isAbsolute_iff _).mp path.isAbsolute_text with ⟨rest, isRooted⟩
        refine ⟨by simp [entryRequest, isRooted], fun _ => rfl, ?_⟩
        rw [FitsKind] at fits
        simpa only [entryRequest, shareRequestFor, targetType_beq] using fits
      exact (roleOf_scoped found built operation).allows isAction gives member (sources source member) matched
        accepted

/-! ## What the creator may do -/

theorem creator_allowed_iff {deployment : Deployment} {user : User} {engine : Access.Engine} {path : VaultPath}
    (authorizing : user.authorizing) (found : deployment.system.storage.getEngine link.vaultId = some engine)
    (present : Present deployment link entry path) (fits : FitsKind action entry.isDirectory) :
    (evaluateAccount deployment.system deployment.identities (some user)
        (entryActionRequest action link.vaultId entry)).allowed ↔
      Exists fun deciding => decidingRole deployment.identities user engine.vault = some deciding ∧
        (deciding.opens (requestOn action path.text true entry.isDirectory) ∨
          Exists fun answer => answer ∈ consulted (requestOn action path.text true entry.isDirectory) ∧
            decides deciding.role (requestOn action path.text true entry.isDirectory).target answer) := by
  have named : entry.path ≠ [] := by
    rcases (isAbsolute_iff _).mp path.isAbsolute_text with ⟨rest, isRooted⟩
    simp [present.isPath, isRooted]
  have sameVault : ofAnotherVault (some entry) engine = false := by
    have own := deployment.system.storage.filed link.vaultId engine found
    simp [ofAnotherVault, present.ofVault, own]
  have resolved : resolveTarget deployment.system (entryActionRequest action link.vaultId entry) =
      .ok (entryTarget engine entry) := by
    rw [Access.Evaluator.resolveTarget_entry found named (Access.Evaluator.absRelToRoot_ne_nil _ _ _) sameVault]
    exact checkKind_eq_ok.mpr ⟨fun _ => rfl, fits, rfl⟩
  rw [Access.Evaluator.evaluateAccount_allowed_iff authorizing resolved, ← present.isPath]
  rfl

section Subtree

variable {role : Filesystem} {root path : VaultPath} (below : root.names <+: path.names)

include below

theorem atOrBelow_of_names : AtOrBelow root.text path.text := by
  have normal : normalizePath path.text = path.text := path.lexicallyNormal_text
  rw [AtOrBelow, normal]
  by_cases same : path = root
  · exact .inl (congrArg VaultPath.text same)
  · rcases text_below below same with ⟨rest, _, joined⟩
    refine .inr ⟨rest, ?_⟩
    rw [joined]
    by_cases top : root.names = []
    · have isTop : root.text = str "/" := by rw [VaultPath.text, top]; rfl
      rw [if_pos top, isTop, within_root]
      rfl
    · have notTop : root.text ≠ str "/" := fun same => top ((rooted_eq_slash_iff root.segments).mp same)
      rw [if_neg top, within_of_ne notTop, List.append_assoc]
      rfl

theorem decides_of_undenied {isDirectory present : Bool} {answer : FilesystemAction}
    (masked : allowedByBase role isDirectory answer = true)
    (undenied : forall override, override ∈ role.overrides -> override.enabled = true -> override.effect = .deny ->
      mismatched answer override = false -> mayMatchWithin override.pattern root.text = false) :
    decides role { vaultPath := path.text, «exists» := present, isDir := isDirectory } answer := by
  unfold decides
  split
  case h_1 best found =>
    rcases Access.Evaluator.findBestOverride_mem found with ⟨member, competes⟩
    simp only [Access.Evaluator.applicable, Bool.and_eq_true, Bool.not_eq_true'] at competes
    cases effect : best.effect with
    | allow => rfl
    | deny =>
      have silent := undenied best member competes.1.1.1 effect (by simp [mismatched, competes.1.1.2, competes.1.2])
      have unmatched := matches_of_mayMatchWithin_false root.lexicallyNormal_text root.isAbsolute_text
        (atOrBelow_of_names below) silent
      rw [unmatched] at competes
      exact Bool.noConfusion competes.2
  case h_2 => exact masked

end Subtree

/-- A directory link that is accepted stays within the rights of its creator if these cover its subtree.  Where no
override may match in the subtree, it does so only then. -/
theorem accepted_link_within_rights {deployment : Deployment} {user : User} {link : Link}
    {decision : AuthorizationDecision} {engine : Access.Engine} {root : VaultPath} {deciding : DecidingRole}
    (isDirectory : link.targetType = .directory)
    (answered : canCreateLink deployment (.human (some user)) link = .ok decision)
    (accepted : decision.allowed = true) (found : deployment.system.storage.getEngine link.vaultId = some engine)
    (isRoot : normalizeVaultPath link.rootPath = .ok root.text)
    (decider : decidingRole deployment.identities user engine.vault = some deciding) :
    (Covers deciding.role deployment link root -> NeverAmplifies deployment user link) ∧
      (Usable link root -> overridesMayAffectListing deciding.role root.text = false ->
        NeverAmplifies deployment user link -> Covers deciding.role deployment link root) := by
  rcases canCreateLink_allowed answered accepted with ⟨authorizing, _⟩
  constructor
  · intro covers entry other path operation action isOther present below allows isAction
    have same : other = root := VaultPath.text_injective (Except.ok.inj (isOther.symm.trans isRoot))
    subst same
    rcases (linkAllows_iff isDirectory isRoot present.isPath below isAction).mp allows with ⟨_, granted, fits⟩
    rcases covers operation action entry.isDirectory granted isAction fits ⟨entry, path, present, below, rfl⟩ with
      ⟨answer, isAnswer, masked, undenied⟩
    exact (creator_allowed_iff authorizing found present fits).mpr
      ⟨deciding, decider, .inr ⟨answer, isAnswer, decides_of_undenied below masked undenied⟩⟩
  · rintro usable unaffected within operation action _ granted isAction fits ⟨entry, path, present, below, rfl⟩
    have inside := atOrBelow_of_names below
    have allows := (linkAllows_iff isDirectory isRoot present.isPath below isAction).mpr ⟨usable, granted, fits⟩
    rcases (creator_allowed_iff authorizing found present fits).mp
      (within entry root path operation action isRoot present below allows isAction) with ⟨other, isOther, permitted⟩
    cases decider.symm.trans isOther
    have closed := Access.Evaluator.not_opened root.lexicallyNormal_text root.isAbsolute_text unaffected inside
      entry.isDirectory true action
    rcases permitted with isOpen | ⟨answer, isAnswer, decided⟩
    · have opened : Access.Evaluator.opened deciding.role (requestOn action path.text true entry.isDirectory) := by
        simp only [DecidingRole.opens, Access.Evaluator.opened, Bool.or_eq_true, Bool.and_eq_true] at isOpen ⊢
        exact isOpen.imp_left fun through => ⟨through.1.2, through.2⟩
      exact absurd (closed.symm.trans opened) Bool.false_ne_true
    · refine ⟨answer, isAnswer, ?_, fun override member enabled _ _ =>
        Access.Evaluator.override_silent unaffected member enabled⟩
      have none := Access.Evaluator.no_candidates root.lexicallyNormal_text root.isAbsolute_text unaffected inside answer
      simpa [decides, Access.Evaluator.findBestOverride_eq, none, Selection.firstMaximum, requestOn,
        Access.Evaluator.ResolvedRequest.target] using decided

/-! ## A link to a folder -/

/-- A user whose only role on the vault of `teamEngine` is the given one. -/
def member : User :=
  { id := 7, authorizing := true, superAdmin := false, vaultRoles := AList.singleton 1 (some role), groups := [],
    globals := none }

/-- Everything is allowed by the masks. -/
def fullRole (overrides : List Override) : Filesystem :=
  { files := { permissions := 255, share := { permissions := 7 } },
    directories := { permissions := 255, share := { permissions := 7 } },
    overrides := overrides }

/-- The downloads of the files in one folder are denied. -/
def withoutKeys : Filesystem :=
  fullRole [{ qualifiedName := str "vault.fs.files.download", effect := .deny, enabled := true,
              pattern := { source := str "/docs/keys/*",
                           tokens := [.slash, .literal (str "docs"), .slash, .literal (str "keys"), .slash, .star] } }]

def docsEntry : Entry :=
  { vaultId := some 1, path := str "/docs", isDirectory := true }

def keyEntry : Entry :=
  { vaultId := some 1, path := str "/docs/keys/id", isDirectory := false }

def docsDeployment : Deployment where
  system :=
    { storage := Access.Evaluator.StorageManager.empty.file (str "/team") teamEngine,
      getEntry := fun path => if path = str "/team/docs" then some docsEntry else none }
  identities := fun id => if id = 5 then some { id := 5, isAdmin := false } else none
  getFSEntryById := fun id => if id = 2 then some docsEntry else if id = 3 then some keyEntry else none

/-- Metadata, listing and download below the folder. -/
def docsLink : Link :=
  { vaultId := 1, rootEntryId := 2, rootPath := str "/docs", targetType := .directory, accessMode := .public_,
    allowedOps := 11, duplicatePolicy := .reject }

/-- The user cannot read the key, and the link that the user may create lets others download it. -/
theorem link_reads_denied_file :
    canCreateLink docsDeployment (.human (some (member withoutKeys))) docsLink = .ok allow ∧
      (member withoutKeys).superAdmin = false ∧
      docsDeployment.getFSEntryById 3 = some keyEntry ∧
      ((scopedVaultRoleForGrant docsLink.grant).bind fun role =>
        (evaluate (principalOf docsLink.grant role)
          (shareRequestFor docsLink keyEntry .download)).map Decision.allowed) = .ok true ∧
      actionForOperation .download = some .read ∧
      (evaluateAccount docsDeployment.system docsDeployment.identities (some (member withoutKeys))
        (entryActionRequest .read docsLink.vaultId keyEntry)).allowed = false := by
  decide +kernel

/-- The downloads of another folder are denied. -/
def withoutPrivate : Filesystem :=
  fullRole [{ qualifiedName := str "vault.fs.files.download", effect := .deny, enabled := true,
              pattern := { source := str "/private/*",
                           tokens := [.slash, .literal (str "private"), .slash, .star] } }]

def docsRoot : VaultPath where
  names := [str "docs"]
  legal := by decide
  clean := by decide
  noNul := by decide

theorem accepted_link_within_rights_docs :
    canCreateLink docsDeployment (.human (some (member withoutPrivate))) docsLink = .ok allow ∧
      NeverAmplifies docsDeployment (member withoutPrivate) docsLink := by
  have answered : canCreateLink docsDeployment (.human (some (member withoutPrivate))) docsLink = .ok allow := by
    decide +kernel
  rcases (canCreateLink_allowed answered rfl).2 with ⟨engine, found⟩
  have isEngine : engine.vault.id = 1 := docsDeployment.system.storage.filed 1 engine found
  have decider : decidingRole docsDeployment.identities (member withoutPrivate) engine.vault =
      some { role := withoutPrivate, onVault := true } := by
    rw [decidingRole, isEngine]
    rfl
  have isRoot : normalizeVaultPath docsLink.rootPath = .ok docsRoot.text := by decide +kernel
  refine ⟨answered, (accepted_link_within_rights rfl answered rfl found isRoot decider).1 ?_⟩
  intro operation action isDirectory _ isAction fits _
  refine ⟨action, ?_, ?_, fun override isOverride _ _ _ => ?_⟩
  · unfold consulted
    split <;> exact List.mem_cons_self
  · cases isDirectory <;> cases action <;> first | rfl | exact absurd fits Bool.false_ne_true
  · rw [List.mem_singleton.mp isOverride]
    decide

end LinkAuthorizer
end Share
end Vaulthalla
