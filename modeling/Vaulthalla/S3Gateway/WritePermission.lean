import Vaulthalla.Access.Evaluator
import Vaulthalla.S3Gateway.ObjectKey

namespace Vaulthalla
namespace S3Gateway
namespace WritePermission

open Foundation Access ObjectKey

/-!
# The right to store a body

A request that writes an object is checked by `requireS3Permission` and stored by
`putObject` or `putObjectFromFile`.  The check asks the policies of the account
and of the credential for one filesystem action, which depends on whether an
object exists and on whether the path is that of a directory marker.  The store
decides on its own whether the key is that of a directory marker.

The account's decision is an arbitrary function of action, vault and path; the
credential's is the evaluator of filesystem policies on an arbitrary role.
-/

/-! ## Policies -/

inductive S3Action where
  | listBuckets | headBucket | createBucket | deleteBucket | listObjects | headObject | getObject
  | putObject | deleteObject | deleteObjects | copyObjectSource | copyObjectDestination
  | createMultipartUpload | uploadPart | completeMultipartUpload | abortMultipartUpload
  | listMultipartUploads | listParts | manageBucketBinding | manageCredential | manageBudget

/-- Model of `Evaluator::filesystemActionFor`. -/
def filesystemActionFor (action : S3Action) (objectExists isDirectoryMarker : Bool) : Option FilesystemAction :=
  match action with
  | .listBuckets | .headBucket | .listObjects | .listMultipartUploads => some .list
  | .headObject | .getObject | .copyObjectSource | .listParts => some .read
  | .putObject | .copyObjectDestination | .createMultipartUpload | .uploadPart | .completeMultipartUpload =>
    if isDirectoryMarker then some .touch else if objectExists then some .overwrite else some .write
  | .deleteObject | .deleteObjects | .abortMultipartUpload => some .delete
  | .createBucket | .deleteBucket | .manageBucketBinding | .manageCredential | .manageBudget => none

/-- An account, with what `resolver::Vault::has` answers for an action on a mounted path of a vault. -/
structure Principal where
  (isSuperAdmin isAdmin : Bool)
  has : FilesystemAction -> Nat -> Str -> Bool

structure SelectedVault where
  vault_id : Nat
  enabled : Bool

/-- What the database says about credentials. -/
structure CredentialTables where
  selectedVaults : Nat -> List SelectedVault
  defaultRoleEnabled : Nat -> Option Bool
  effectiveRole : Nat -> Nat -> Str -> Option Filesystem

inductive Reason where
  | allowed | missingPrincipal | missingVault | noFilesystemMapping | principalRbacDenied
  | globalPrincipalRequired | missingDefaultRole | vaultNotSelected | effectiveCredentialRoleDenied
  | credentialRoleMissing

structure Decision where
  allowed : Bool := false
  reason : Reason := .principalRbacDenied
  principal_allowed : Bool := false
  credential_allowed : Bool := false
  credential_decision : Option Evaluator.Decision := none

structure S3PolicyRequest where
  principal : Option Principal
  credential_id : Nat
  scope_mode : Str
  vault_id : Nat
  (vault_path fuse_path : Str)
  action : S3Action
  (object_exists is_directory_marker : Bool)

def principalHas (principal : Principal) (vaultId : Nat) (fusePath : Str) (action : FilesystemAction) : Bool :=
  principal.isSuperAdmin || principal.has action vaultId fusePath

variable (tables : CredentialTables)

/-- The part of `Evaluator::evaluate` after the account has been asked. -/
def evaluateCredential (principal : Principal) (request : S3PolicyRequest) (fsAction : FilesystemAction) : Decision :=
  let listed := request.scope_mode = str "vault_allowlist"
  let everywhere := request.scope_mode = str "global"
  if request.credential_id = 0 then
    { allowed := true, reason := .allowed, principal_allowed := true, credential_allowed := true }
  else if request.scope_mode = str "user_access" then
    { allowed := true, reason := .allowed, principal_allowed := true, credential_allowed := true }
  else if everywhere ∧ principal.isAdmin = false then
    { reason := .globalPrincipalRequired, principal_allowed := true }
  else if listed ∧ (tables.selectedVaults request.credential_id).any
      (fun selected => selected.vault_id == request.vault_id && selected.enabled) = false then
    { reason := .vaultNotSelected, principal_allowed := true }
  else if (listed ∨ everywhere) ∧ tables.defaultRoleEnabled request.credential_id ≠ some true then
    { reason := .missingDefaultRole, principal_allowed := true }
  else
    match tables.effectiveRole request.credential_id request.vault_id request.scope_mode with
    | none => { reason := .credentialRoleMissing, principal_allowed := true }
    | some role =>
      let decision := Evaluator.evaluate role
        { action := fsAction
          vaultPath := request.vault_path
          «exists» := request.object_exists
          isDirectory := request.is_directory_marker || request.vault_path == [slash] }
      if decision.allowed then
        { allowed := true, reason := .allowed, principal_allowed := true, credential_allowed := true,
          credential_decision := some decision }
      else
        { reason := .effectiveCredentialRoleDenied, principal_allowed := true,
          credential_decision := some decision }

/-- Model of `Evaluator::evaluate`. -/
def evaluate (request : S3PolicyRequest) : Decision :=
  match request.principal with
  | none => { reason := .missingPrincipal }
  | some principal =>
    if request.vault_id = 0 then { reason := .missingVault }
    else
      match filesystemActionFor request.action request.object_exists request.is_directory_marker with
      | none => { reason := .noFilesystemMapping }
      | some fsAction =>
        if principalHas principal request.vault_id request.fuse_path fsAction then
          evaluateCredential tables principal request fsAction
        else {}

/-! ## The bucket and the state of its vault -/

structure GatewayAccessContext where
  credential_id : Nat
  scope_mode : Str
  dev_context : Bool

structure ResolvedBucket where
  vault_id : Nat
  actor : Option Principal
  gateway_access : Option GatewayAccessContext
  vaultPathToFusePath : Str -> Str

inductive EntryKind where
  | file | directory | symlink
  deriving DecidableEq

/-- The rows and the cached entries of a vault.  `objectState` is the lookup of
visible object rows by key, `entry` that of filesystem rows by path, and `cached`
what the entry cache holds for the mounted path of a path. -/
structure VaultState where
  objectState : Str -> Bool
  entry : Str -> Option EntryKind
  cached : Str -> Option EntryKind
  cached_entry : forall path kind, cached path = some kind -> entry path = some kind

/-- Model of `objectExistsInBucket`. -/
def objectExistsInBucket (state : VaultState) (path : Str) : Bool :=
  path == [slash] || state.objectState (vaultPathToKey path) || state.entry path == some .file

variable (bucket : ResolvedBucket)

/-- Model of `ObjectStore::requireS3Permission`: whether it returns. -/
def requireS3Permission (state : VaultState) (vaultPath : Str) (action : S3Action) : Bool :=
  let absolutePath := makeAbsolute vaultPath
  let fusePath := bucket.vaultPathToFusePath absolutePath
  let objectExists := objectExistsInBucket state absolutePath
  let isDirectory := absolutePath == [slash] || isDirectoryMarker vaultPath
  match bucket.gateway_access with
  | none =>
    match filesystemActionFor action objectExists isDirectory, bucket.actor with
    | some fsAction, some actor => principalHas actor bucket.vault_id fusePath fsAction
    | _, _ => false
  | some access =>
    (evaluate tables
      { principal := bucket.actor
        credential_id := if access.dev_context then 0 else access.credential_id
        scope_mode := access.scope_mode
        vault_id := bucket.vault_id
        vault_path := absolutePath
        fuse_path := fusePath
        action := action
        object_exists := objectExists
        is_directory_marker := isDirectory }).allowed

/-! ## The requests that store a body -/

inductive Operation where
  | putObject | copyObject | completeMultipartUpload

/-- What the router checks on the written key before it calls the store. -/
def routerChecks : Operation -> List S3Action
  | .putObject => [.putObject]
  | .copyObject => [.putObject, .copyObjectDestination]
  | .completeMultipartUpload => [.completeMultipartUpload]

/-- Whether `createFile` stores the body at the path.  It refuses to overwrite a
cached directory; `completes` says whether the rest ends without an exception. -/
def createFile (state : VaultState) (path : Str) (completes : Bool) : Bool :=
  completes && state.cached path != some .directory

section

variable (tables : CredentialTables) (bucket : ResolvedBucket) (state : VaultState)

/-- Model of `putObject` and `putObjectFromFile`: the path at which the body is stored. -/
def putObject (key body : Str) (completes : Bool) : Option Str :=
  match keyToVaultPath key with
  | .error _ => none
  | .ok path =>
    if requireS3Permission tables bucket state path .putObject = false then none
    else if isDirectoryMarker key then
      -- A marker has no file behind it, and a marker with a body is refused.
      none
    else if createFile state path completes ∧ body ≠ [] then some path
    else none

/-- The path at which a request stores a nonempty body, if it does. -/
def storesBody (operation : Operation) (key body : Str) (completes : Bool) : Option Str :=
  match keyToVaultPath key with
  | .error _ => none
  | .ok path =>
    if (routerChecks operation).all (requireS3Permission tables bucket state path) then
      putObject tables bucket state key body completes
    else none

end

/-! ## The right to write -/

/-- Whether anything is at the path: an object or an entry of any kind. -/
def occupied (state : VaultState) (path : Str) : Bool :=
  state.objectState (vaultPathToKey path) || (state.entry path).isSome

/-- The action that storing a body at the path is. -/
def writeAction (state : VaultState) (path : Str) : FilesystemAction :=
  if occupied state path then .overwrite else .write

/-- Account and credential may write a file at the path. -/
structure MayWrite (state : VaultState) (path : Str) : Prop where
  principal : Exists fun actor : Principal => bucket.actor = some actor ∧
    principalHas actor bucket.vault_id (bucket.vaultPathToFusePath path) (writeAction state path) = true
  credential : forall actor access, bucket.actor = some actor -> bucket.gateway_access = some access ->
    (evaluateCredential tables actor
      { principal := bucket.actor
        credential_id := if access.dev_context then 0 else access.credential_id
        scope_mode := access.scope_mode
        vault_id := bucket.vault_id
        vault_path := path
        fuse_path := bucket.vaultPathToFusePath path
        action := .putObject
        object_exists := occupied state path
        is_directory_marker := false } (writeAction state path)).allowed = true

/-- The key names a file in the same way for the check and for the store, and the
check sees what is at its path. -/
def PlainTarget (state : VaultState) (key : Str) : Prop :=
  forall path, keyToVaultPath key = .ok path -> isDirectoryMarker key = false ->
    state.cached path ≠ some .directory ->
      filename key ≠ dot ∧
        (state.entry path = some .directory ∨ state.entry path = some .symlink ->
          state.objectState (vaultPathToKey path) = true)

/-! ## What a check grants -/

/-- The request that `requireS3Permission` hands to the evaluator. -/
def policyRequest (access : GatewayAccessContext) (path : Str) (action : S3Action)
    (objectExists isDirectory : Bool) : S3PolicyRequest where
  principal := bucket.actor
  credential_id := if access.dev_context then 0 else access.credential_id
  scope_mode := access.scope_mode
  vault_id := bucket.vault_id
  vault_path := path
  fuse_path := bucket.vaultPathToFusePath path
  action := action
  object_exists := objectExists
  is_directory_marker := isDirectory

variable {tables : CredentialTables} {action : S3Action} {bucket : ResolvedBucket} {path body key : Str}
  {state : VaultState} {completes : Bool} {operation : Operation} {role : Filesystem}

theorem evaluate_allowed {request : S3PolicyRequest} {fsAction : FilesystemAction}
    (mapped : filesystemActionFor request.action request.object_exists request.is_directory_marker = some fsAction) :
    (evaluate tables request).allowed ↔ request.vault_id ≠ 0 ∧
      Exists fun actor => request.principal = some actor ∧
        principalHas actor request.vault_id request.fuse_path fsAction ∧
          (evaluateCredential tables actor request fsAction).allowed := by
  cases known : request.principal with
  | none => simp [evaluate, known]
  | some actor =>
    by_cases missing : request.vault_id = 0
    · simp [evaluate, known, missing]
    · cases granted : principalHas actor request.vault_id request.fuse_path fsAction <;>
        simp [evaluate, known, missing, mapped, granted]

/-- Every check of a request that writes an object asks for the same action. -/
def checkedAction (state : VaultState) (path : Str) : FilesystemAction :=
  if isDirectoryMarker path then .touch else if objectExistsInBucket state path then .overwrite else .write

theorem filesystemActionFor_write
    (writes : action ∈ [S3Action.putObject, .copyObjectDestination, .completeMultipartUpload]) (state : VaultState)
    (path : Str) :
    filesystemActionFor action (objectExistsInBucket state path) (isDirectoryMarker path) =
      some (checkedAction state path) := by
  simp only [List.mem_cons, List.not_mem_nil, or_false] at writes
  unfold checkedAction
  rcases writes with rfl | rfl | rfl <;>
    cases isDirectoryMarker path <;> cases objectExistsInBucket state path <;> rfl

theorem requireS3Permission_iff (normal : makeAbsolute path = path) (below : path ≠ [slash])
    (writes : action ∈ [S3Action.putObject, .copyObjectDestination, .completeMultipartUpload]) :
    requireS3Permission tables bucket state path action ↔
      Exists fun actor => bucket.actor = some actor ∧
        principalHas actor bucket.vault_id (bucket.vaultPathToFusePath path) (checkedAction state path) ∧
          forall access, bucket.gateway_access = some access -> bucket.vault_id ≠ 0 ∧
            (evaluateCredential tables actor
              (policyRequest bucket access path action (objectExistsInBucket state path) (isDirectoryMarker path))
              (checkedAction state path)).allowed := by
  have mapped := filesystemActionFor_write writes state path
  have notTop : (path == [slash]) = false := by simpa using below
  cases access : bucket.gateway_access with
  | none =>
    cases known : bucket.actor with
    | none => simp [requireS3Permission, access, known]
    | some actor => simp [requireS3Permission, access, known, normal, notTop, mapped]
  | some context =>
    have asked : requireS3Permission tables bucket state path action =
        (evaluate tables (policyRequest bucket context path action (objectExistsInBucket state path)
          (isDirectoryMarker path))).allowed := by
      simp [requireS3Permission, access, normal, notTop, policyRequest]
    rw [asked, evaluate_allowed mapped]
    constructor
    · rintro ⟨vault, actor, known, granted, credential⟩
      refine ⟨actor, known, granted, ?_⟩
      rintro other same
      cases same
      exact ⟨vault, credential⟩
    · rintro ⟨actor, known, granted, credential⟩
      rcases credential context rfl with ⟨vault, allowed⟩
      exact ⟨vault, actor, known, granted, allowed⟩

/-- What it takes that a request stores a body. -/
theorem storesBody_eq_some :
    storesBody tables bucket state operation key body completes = some path ↔
      keyToVaultPath key = .ok path ∧
        (forall action, action ∈ S3Action.putObject :: routerChecks operation ->
          requireS3Permission tables bucket state path action) ∧
          isDirectoryMarker key = false ∧ completes ∧ state.cached path ≠ some .directory ∧ body ≠ [] := by
  cases converted : keyToVaultPath key with
  | error reason => simp [storesBody, converted]
  | ok found =>
    have refused : forall flag : Bool, (¬ flag = false) ↔ flag := by
      intro flag
      cases flag <;> simp
    simp only [storesBody, putObject, converted, createFile, Option.ite_none_right_eq_some,
      Option.ite_none_left_eq_some, List.all_eq_true, List.forall_mem_cons, Bool.and_eq_true, bne_iff_ne,
      Option.some.injEq, Except.ok.injEq, refused, Bool.not_eq_true]
    constructor
    · rintro ⟨routed, granted, file, ⟨⟨completed, notDirectory⟩, present⟩, rfl⟩
      exact ⟨rfl, ⟨granted, routed⟩, file, completed, notDirectory, present⟩
    · rintro ⟨rfl, ⟨granted, routed⟩, file, completed, notDirectory, present⟩
      exact ⟨routed, granted, file, ⟨⟨completed, notDirectory⟩, present⟩, rfl⟩

theorem routerChecks_write (operation : Operation) :
    forall action, action ∈ S3Action.putObject :: routerChecks operation ->
      action ∈ [S3Action.putObject, .copyObjectDestination, .completeMultipartUpload] := by
  cases operation <;> simp [routerChecks]

/-! ## Plain targets -/

/-- On a plain target the check asks for the action that storing the body is. -/
theorem checkedAction_eq (below : path ≠ [slash]) (notMarker : isDirectoryMarker path = false)
    (seen : state.entry path = some .directory ∨ state.entry path = some .symlink ->
      state.objectState (vaultPathToKey path)) :
    objectExistsInBucket state path = occupied state path ∧ checkedAction state path = writeAction state path := by
  have notTop : (path == [slash]) = false := by simpa using below
  have same : objectExistsInBucket state path = occupied state path := by
    rw [objectExistsInBucket, occupied, notTop, Bool.false_or]
    cases object : state.objectState (vaultPathToKey path) with
    | true => rfl
    | false =>
      rw [object] at seen
      cases entry : state.entry path with
      | none => rfl
      | some kind =>
        cases kind with
        | file => rfl
        | directory => exact absurd (seen (.inl entry)) (by simp)
        | symlink => exact absurd (seen (.inr entry)) (by simp)
  refine ⟨same, ?_⟩
  rw [checkedAction, writeAction, notMarker, same]
  rfl

theorem mayWrite_of_plainTarget (plain : PlainTarget state key)
    (stored : storesBody tables bucket state operation key body completes = some path) :
    MayWrite tables bucket state path := by
  rcases storesBody_eq_some.mp stored with ⟨converted, granted, file, _, notDirectory, _⟩
  rcases plain path converted file notDirectory with ⟨notDot, seen⟩
  rcases keyToVaultPath_normal converted with ⟨names, normal⟩
  have notMarker : isDirectoryMarker path = false := by
    rw [isDirectoryMarker_path converted, file, beq_eq_false_iff_ne.mpr notDot]
    rfl
  rcases checkedAction_eq normal.ne_slash notMarker seen with ⟨sameExists, sameAction⟩
  have allowed := (requireS3Permission_iff normal.makeAbsolute_eq normal.ne_slash (by simp)).mp
    (granted .putObject List.mem_cons_self)
  rw [sameExists, sameAction, notMarker] at allowed
  rcases allowed with ⟨actor, known, principal, credential⟩
  refine ⟨⟨actor, known, principal⟩, ?_⟩
  intro other access otherKnown present
  have sameActor : other = actor := Option.some.inj (otherKnown.symm.trans known)
  rw [sameActor]
  exact (credential access present).2

/-! ## Roles that tell the actions apart -/

/-- A role with masks and no overrides. -/
def maskRole (files directories : UInt16) : Filesystem :=
  ⟨⟨files, ⟨0⟩⟩, ⟨directories, ⟨0⟩⟩, []⟩

def touchOnly : Filesystem := maskRole 0 DirectoryPermissions.touch.bit

def uploadOnly : Filesystem := maskRole FilePermissions.upload.bit 0

/-- A credential that is limited to one role on every vault it is used for. -/
def limitedTo (role : Filesystem) : CredentialTables where
  selectedVaults := fun _ => [⟨1, true⟩]
  defaultRoleEnabled := fun _ => some true
  effectiveRole := fun _ _ _ => some role

/-- A bucket of vault one, used by a super admin through a limited credential. -/
def limitedBucket : ResolvedBucket where
  vault_id := 1
  actor := some ⟨true, true, fun _ _ _ => true⟩
  gateway_access := some ⟨1, str "vault_allowlist", false⟩
  vaultPathToFusePath := id

theorem evaluateCredential_limited (role : Filesystem) (actor : Principal) (below : path ≠ [slash])
    (action : S3Action) (objectExists isDirectory : Bool) (fsAction : FilesystemAction) :
    (evaluateCredential (limitedTo role) actor
      (policyRequest limitedBucket ⟨1, str "vault_allowlist", false⟩ path action objectExists isDirectory)
      fsAction).allowed =
      (Evaluator.evaluate role
        { action := fsAction, vaultPath := path, «exists» := objectExists, isDirectory := isDirectory }).allowed := by
  have notTop : (path == [slash]) = false := by simpa using below
  have selected : str "vault_allowlist" ≠ str "user_access" := by decide
  have listed : str "vault_allowlist" ≠ str "global" := by decide
  cases allowed : (Evaluator.evaluate role
      { action := fsAction, vaultPath := path, «exists» := objectExists, isDirectory := isDirectory }).allowed <;>
    simp [evaluateCredential, policyRequest, limitedTo, limitedBucket, notTop, selected, listed, allowed]

theorem evaluate_maskRole (files directories : UInt16) (nonempty : path ≠ []) {action : FilesystemAction}
    (write : action = .touch ∨ action = .write ∨ action = .overwrite) (present isDirectory : Bool) :
    (Evaluator.evaluate (maskRole files directories)
      { action := action, vaultPath := path, «exists» := present, isDirectory := isDirectory }).allowed ↔
      (Evaluator.requiresExistingEntry action -> present) ∧
        (if isDirectory then Evaluator.isValidForDirectory action else Evaluator.isValidForFile action) ∧
          Evaluator.allowedByBase (maskRole files directories) isDirectory action := by
  rw [Evaluator.evaluate_allowed_iff]
  rcases write with rfl | rfl | rfl <;>
    simp [Evaluator.Accepted, nonempty, Evaluator.opened, Evaluator.consulted, Evaluator.fallsBackToRead,
      Evaluator.decides, Evaluator.ResolvedRequest.target, maskRole, Evaluator.findBestOverride, and_assoc]

/-- The limited bucket passes every check of a path exactly when the role allows the checked action there. -/
theorem limited_checks (normal : makeAbsolute path = path) (below : path ≠ [slash]) (allows : (Evaluator.evaluate role
      { action := checkedAction state path, vaultPath := path, «exists» := objectExistsInBucket state path,
        isDirectory := isDirectoryMarker path }).allowed) (operation : Operation) :
    forall action, action ∈ S3Action.putObject :: routerChecks operation ->
      requireS3Permission (limitedTo role) limitedBucket state path action := by
  intro action checked
  refine (requireS3Permission_iff normal below (routerChecks_write operation action checked)).mpr ?_
  refine ⟨⟨true, true, fun _ _ _ => true⟩, rfl, rfl, ?_⟩
  intro access present
  cases present
  refine ⟨by decide, ?_⟩
  rw [evaluateCredential_limited role _ below]
  exact allows

theorem limited_mayWrite (below : path ≠ [slash]) (may : MayWrite (limitedTo role) limitedBucket state path) :
    (Evaluator.evaluate role
      { action := writeAction state path, vaultPath := path, «exists» := occupied state path,
        isDirectory := false }).allowed := by
  rw [← evaluateCredential_limited role ⟨true, true, fun _ _ _ => true⟩ below .putObject]
  exact may.credential _ _ rfl rfl

section

variable (converted : keyToVaultPath key = .ok path) (file : isDirectoryMarker key = false)
  (notDirectory : state.cached path ≠ some .directory)

include converted file notDirectory

/-- With the right to create directories alone, a body is stored under a key that ends in a dot. -/
theorem stores_with_touch (endsInDot : filename key = dot) (operation : Operation) (present : body ≠ []) :
    storesBody (limitedTo touchOnly) limitedBucket state operation key body true = some path ∧
      ¬ MayWrite (limitedTo touchOnly) limitedBucket state path := by
  rcases keyToVaultPath_normal converted with ⟨names, normal⟩
  have marker : isDirectoryMarker path := by
    rw [isDirectoryMarker_path converted, endsInDot]
    simp
  have nonempty : path ≠ [] := by simp [normal.text]
  constructor
  · refine storesBody_eq_some.mpr ⟨converted, ?_, file, rfl, notDirectory, present⟩
    refine limited_checks normal.makeAbsolute_eq normal.ne_slash ?_ operation
    rw [checkedAction, marker]
    exact (evaluate_maskRole _ _ nonempty (.inl rfl) _ _).mpr
      ⟨fun needed => absurd needed (by decide), by decide, by decide⟩
  · intro may
    have allowed := limited_mayWrite normal.ne_slash may
    rw [writeAction] at allowed
    split at allowed
    · exact absurd ((evaluate_maskRole _ _ nonempty (.inr (.inr rfl)) _ _).mp allowed).2.2 (by decide)
    · exact absurd ((evaluate_maskRole _ _ nonempty (.inr (.inl rfl)) _ _).mp allowed).2.2 (by decide)

/-- With the right to create files alone, a body replaces an entry that is not a file. -/
theorem stores_with_upload (notDot : filename key ≠ dot)
    (other : state.entry path = some .directory ∨ state.entry path = some .symlink)
    (unseen : state.objectState (vaultPathToKey path) = false) (operation : Operation) (present : body ≠ []) :
    storesBody (limitedTo uploadOnly) limitedBucket state operation key body true = some path ∧
      ¬ MayWrite (limitedTo uploadOnly) limitedBucket state path := by
  rcases keyToVaultPath_normal converted with ⟨names, normal⟩
  have notMarker : isDirectoryMarker path = false := by
    rw [isDirectoryMarker_path converted, file, beq_eq_false_iff_ne.mpr notDot]
    rfl
  have nonempty : path ≠ [] := by simp [normal.text]
  have absent : objectExistsInBucket state path = false := by
    have notTop : (path == [slash]) = false := by simpa using normal.ne_slash
    rcases other with entry | entry <;> simp [objectExistsInBucket, notTop, unseen, entry]
  have taken : occupied state path := by
    rcases other with entry | entry <;> simp [occupied, entry]
  constructor
  · refine storesBody_eq_some.mpr ⟨converted, ?_, file, rfl, notDirectory, present⟩
    refine limited_checks normal.makeAbsolute_eq normal.ne_slash ?_ operation
    rw [checkedAction, notMarker, absent]
    exact (evaluate_maskRole _ _ nonempty (.inr (.inl rfl)) _ _).mpr ⟨by decide, by decide, by decide⟩
  · intro may
    have allowed := limited_mayWrite normal.ne_slash may
    rw [writeAction, taken] at allowed
    exact absurd ((evaluate_maskRole _ _ nonempty (.inr (.inr rfl)) _ _).mp allowed).2.2 (by decide)

end

/-! ## Bodies and rights -/

/-- A vault with nothing in it. -/
def emptyVault : VaultState where
  objectState := fun _ => false
  entry := fun _ => none
  cached := fun _ => none
  cached_entry := by simp

/-- The key `a/.` is checked as a directory marker and stored as a file. -/
theorem touch_right_stores_a_body :
    storesBody (limitedTo touchOnly) limitedBucket emptyVault .putObject (str "a/.") (str "body") true =
        some (str "/a/") ∧
      ¬ MayWrite (limitedTo touchOnly) limitedBucket emptyVault (str "/a/") :=
  stores_with_touch (by decide +kernel) (by decide) (by decide) (by decide) .putObject (by decide)

/-- A key under which bodies are stored only with the right to write them: for
every account, credential, request and outcome, exactly the plain targets. -/
theorem body_needs_right_to_write (state : VaultState) (key : Str) :
    (forall (tables : CredentialTables) (bucket : ResolvedBucket) (operation : Operation) (body : Str)
        (completes : Bool) (path : Str),
      storesBody tables bucket state operation key body completes = some path ->
        MayWrite tables bucket state path) ↔ PlainTarget state key := by
  constructor
  · intro rights path converted file notDirectory
    have notDot : filename key ≠ dot := by
      intro endsInDot
      rcases stores_with_touch converted file notDirectory endsInDot .putObject (show str "body" ≠ [] by decide) with
        ⟨stored, denied⟩
      exact denied (rights _ _ _ _ _ _ stored)
    refine ⟨notDot, ?_⟩
    intro other
    cases seen : state.objectState (vaultPathToKey path) with
    | true => rfl
    | false =>
      rcases stores_with_upload converted file notDirectory notDot other seen .putObject
        (show str "body" ≠ [] by decide) with ⟨stored, denied⟩
      exact absurd (rights _ _ _ _ _ _ stored) denied
  · intro plain tables bucket operation body completes path stored
    exact mayWrite_of_plainTarget plain stored

end WritePermission
end S3Gateway
end Vaulthalla
