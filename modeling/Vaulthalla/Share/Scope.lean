import Vaulthalla.Access.Permissions
import Vaulthalla.Foundation.Outcome
import Vaulthalla.Foundation.RootedPath

namespace Vaulthalla
namespace Share

open Foundation
open Outcome (require bind_eq_ok)

/-!
# Share grants and their scope

A grant gives a set of operations on one entry of a vault, or on a directory
and all that lies below it.  `Scope` decides whether a path lies in the grant.
It normalises both paths as text, keeping a dot-dot that climbs above the root,
and compares the texts.  `contains_iff` says what the comparison means: the
names of the root start the names of the path, and neither climbs.
-/

inductive Operation
  | metadata | list | preview | download | upload | mkdir | overwrite
deriving DecidableEq

namespace Operation

def bit : Operation -> UInt32
  | metadata => 1
  | list => 2
  | preview => 4
  | download => 8
  | upload => 16
  | mkdir => 32
  | overwrite => 64

end Operation

inductive TargetType
  | file | directory
deriving DecidableEq

inductive AccessMode
  | public_ | emailValidated
deriving DecidableEq

inductive DuplicatePolicy
  | reject | rename | overwrite
deriving DecidableEq

/-- The exceptions of the share code, with their texts. -/
inductive Failure
  | invalidArgument (message : Str)
  | runtimeError (message : Str)
  | denied (message : Str)
  | invalid (message : Str)
  | notFound (message : Str)
  | conflict (message : Str)
deriving DecidableEq

structure Grant where
  (vaultId rootEntryId : UInt32)
  rootPath : Str
  targetType : TargetType
  allowedOps : UInt32
  duplicatePolicy : DuplicatePolicy

namespace Grant

def allows (grant : Grant) (operation : Operation) : Bool :=
  (grant.allowedOps &&& operation.bit) != 0

def requireValid (grant : Grant) : Except Failure Unit := do
  require (grant.vaultId != 0) (.invalidArgument (str "Share grant vault_id is required"))
  require (grant.rootEntryId != 0) (.invalidArgument (str "Share grant root_entry_id is required"))
  require (grant.rootPath.head? == some slash) (.invalidArgument (str "Share grant root_path must be absolute"))
  require (!(grant.targetType == .file && grant.allows .mkdir))
    (.invalidArgument (str "Share file target cannot allow mkdir"))
  require (!(grant.duplicatePolicy == .overwrite && !grant.allows .overwrite))
    (.invalidArgument (str "Share overwrite duplicate policy requires overwrite permission"))

end Grant

/-- Who uses a link.  The role is the one that was built for the grant, if any. -/
structure Principal where
  (shareId shareSessionId : Str)
  (vaultId rootEntryId : UInt32)
  rootPath : Str
  grant : Grant
  accessMode : AccessMode
  scopedVaultRole : Option Access.Filesystem

namespace Principal

def allows (principal : Principal) (operation : Operation) : Bool :=
  principal.grant.allows operation

def hasVault (principal : Principal) (vaultId : UInt32) : Bool :=
  principal.vaultId == vaultId

end Principal

/-! ## Normal paths -/

namespace Scope

def nul : UInt8 := 0

def invalidByteMessage : Str := str "share scope path contains invalid byte"

variable (path : Str)

/-- The names of a path, each dot-dot resolved against the name before it or kept. -/
def splitComponents : List Str :=
  normalNames false (components path)

def hasEscapeComponent : Bool :=
  (splitComponents path).contains dotDot

def normalizeVaultPath : Except Failure Str := do
  require (!path.contains nul) (.invalidArgument invalidByteMessage)
  let source := if path = [] then [slash] else path
  let absolute := if source.head? = some slash then source else slash :: source
  return rooted (splitComponents absolute)

/-- The tests of `contains`, on two normal paths. -/
def containsNormal (root candidate : Str) : Bool :=
  if hasEscapeComponent root || hasEscapeComponent candidate then false
  else if root = str "/" then true
  else if candidate = root then true
  else if !root.isPrefixOf candidate then false
  else decide (candidate.length > root.length) && candidate[root.length]? == some slash

def contains (rootPath candidatePath : Str) : Except Failure Bool := do
  let root ← normalizeVaultPath rootPath
  let candidate ← normalizeVaultPath candidatePath
  return containsNormal root candidate

inductive ScopeReason
  | vaultMismatch | pathEscape | outsideScope | operationNotGranted | invalidMkdirTarget | allowed

def ScopeReason.text : ScopeReason -> Str
  | vaultMismatch => str "vault_mismatch"
  | pathEscape => str "path_escape"
  | outsideScope => str "outside_scope"
  | operationNotGranted => str "operation_not_granted"
  | invalidMkdirTarget => str "invalid_mkdir_target"
  | allowed => str "allowed"

structure ScopeRequest where
  vaultId : UInt32
  path : Str
  operation : Operation
  targetType : Option TargetType

structure ScopeDecision where
  allowed : Bool
  reason : ScopeReason
  normalizedPath : Str

def isMkdirTargetAllowed (principal : Principal) (request : ScopeRequest) : Bool :=
  if request.operation ≠ .mkdir then true
  else
    match request.targetType with
    | some targetType => targetType == .directory
    | none => principal.grant.targetType == .directory

def authorize (principal : Principal) (request : ScopeRequest) : Except Failure ScopeDecision := do
  let path ← normalizeVaultPath request.path
  if !principal.hasVault request.vaultId then
    return { allowed := false, reason := .vaultMismatch, normalizedPath := path }
  else if hasEscapeComponent path then
    return { allowed := false, reason := .pathEscape, normalizedPath := path }
  else
    let inside ← contains principal.rootPath path
    if !inside then return { allowed := false, reason := .outsideScope, normalizedPath := path }
    else if !principal.allows request.operation then
      return { allowed := false, reason := .operationNotGranted, normalizedPath := path }
    else if !isMkdirTargetAllowed principal request then
      return { allowed := false, reason := .invalidMkdirTarget, normalizedPath := path }
    else return { allowed := true, reason := .allowed, normalizedPath := path }

example : normalizeVaultPath (str "a//./b/../../../c/") = .ok (str "/../c") := by decide +kernel
example : contains (str "/docs/") (str "docs/../docs/a") = .ok true := by decide +kernel
example : contains (str "/docs") (str "/docs2") = .ok false := by decide +kernel

/-! ## The names of a path -/

theorem settled_splitComponents : Settled (splitComponents path).reverse := by
  unfold splitComponents normalNames
  rw [List.reverse_reverse]
  exact settled_foldl trivial (not_mem_of_mem_splitOn slash path)

theorem splitComponents_eq_foldl_namesOf :
    splitComponents path = ((namesOf path).foldl (pushComponent false) []).reverse := by
  rw [namesOf, foldl_pushComponent_filter]
  rfl

theorem splitComponents_rooted {names : List Str} (settled : Settled names.reverse) :
    splitComponents (rooted names) = names := by
  have segments : forall name, name ∈ names -> SegmentName name := fun name inside =>
    (segment_of_settled settled name (List.mem_reverse.mpr inside)).1
  have again := foldl_of_settled settled
  rw [List.reverse_reverse] at again
  rw [splitComponents_eq_foldl_namesOf, namesOf_rooted segments, again, List.reverse_reverse]

theorem splitComponents_cons_slash : splitComponents (slash :: path) = splitComponents path := by
  rw [splitComponents_eq_foldl_namesOf, splitComponents_eq_foldl_namesOf, namesOf_cons_slash]

theorem normalizeVaultPath_eq_ok {path out : Str} :
    normalizeVaultPath path = .ok out ↔ nul ∉ path ∧ rooted (splitComponents path) = out := by
  have source : splitComponents (if path = [] then [slash] else path) = splitComponents path := by
    split
    · rename_i empty
      rw [empty]
      rfl
    · rfl
  have absolute : forall text : Str,
      splitComponents (if text.head? = some slash then text else slash :: text) = splitComponents text := by
    intro text
    split
    · rfl
    · exact splitComponents_cons_slash text
  unfold normalizeVaultPath
  rw [bind_eq_ok]
  simp [absolute, source]

/-- Normal paths are their own normal form. -/
theorem splitComponents_normalized {path out : Str} (normalized : normalizeVaultPath path = .ok out) :
    splitComponents out = splitComponents path := by
  rcases normalizeVaultPath_eq_ok.mp normalized with ⟨_, rfl⟩
  exact splitComponents_rooted (settled_splitComponents path)

theorem hasEscapeComponent_iff : hasEscapeComponent path ↔ dotDot ∈ splitComponents path :=
  List.contains_iff_mem

variable {path root : List Str}

/-- The text comparison of `contains`, on the names. -/
theorem startsBelow_iff (rootSegments : forall name, name ∈ root -> SegmentName name)
    (pathSegments : forall name, name ∈ path -> SegmentName name) :
    (rooted root = str "/" ∨ rooted path = rooted root ∨
        ((rooted root).isPrefixOf (rooted path) ∧ (rooted root).length < (rooted path).length ∧
          (rooted path)[(rooted root).length]? = some slash)) ↔
      root <+: path := by
  by_cases top : root = []
  · subst top
    simp only [List.nil_prefix, iff_true]
    exact .inl rfl
  · have notRoot : rooted root ≠ str "/" := fun same => top ((rooted_eq_slash_iff rootSegments).mp same)
    rw [prefix_iff_text rootSegments pathSegments top]
    simp only [notRoot, false_or]
    apply or_congr Iff.rfl
    constructor
    · rintro ⟨starts, _, separator⟩
      rcases List.isPrefixOf_iff_prefix.mp starts with ⟨rest, joined⟩
      rw [← joined, List.getElem?_append_right (Nat.le_refl _), Nat.sub_self] at separator
      cases rest with
      | nil => simp at separator
      | cons byte further =>
        have same : byte = slash := by simpa using separator
        exact ⟨further, by rw [← joined, same]⟩
    · rintro ⟨rest, joined⟩
      rw [joined]
      simp

theorem containsNormal_iff (rootSettled : Settled root.reverse) (settled : Settled path.reverse) :
    containsNormal (rooted root) (rooted path) ↔ dotDot ∉ root ∧ dotDot ∉ path ∧ root <+: path := by
  have segments : forall {names : List Str}, Settled names.reverse -> forall name, name ∈ names -> SegmentName name :=
    fun settled name inside => (segment_of_settled settled name (List.mem_reverse.mpr inside)).1
  have escapes : (hasEscapeComponent (rooted root) || hasEscapeComponent (rooted path)) ↔
      dotDot ∈ root ∨ dotDot ∈ path := by
    rw [Bool.or_eq_true, hasEscapeComponent_iff, hasEscapeComponent_iff, splitComponents_rooted rootSettled,
      splitComponents_rooted settled]
  unfold containsNormal
  split
  · rename_i climbs
    rcases escapes.mp climbs with inRoot | inPath
    · simp [inRoot]
    · simp [inPath]
  · rename_i stays
    have noEscape := not_or.mp (fun climbs => stays (escapes.mpr climbs))
    rw [← startsBelow_iff (segments rootSettled) (segments settled)]
    simp only [noEscape.1, noEscape.2, not_false_eq_true, true_and]
    by_cases top : rooted root = str "/"
    · simp [top]
    · by_cases same : rooted path = rooted root
      · simp [same]
      · cases starts : (rooted root).isPrefixOf (rooted path) <;> simp [top, same]

/-- A path lies in the scope of a root exactly when the root's names start its names and neither climbs. -/
theorem contains_iff {rootPath path : Str} :
    contains rootPath path = .ok true ↔
      nul ∉ rootPath ∧ nul ∉ path ∧ dotDot ∉ splitComponents rootPath ∧ dotDot ∉ splitComponents path ∧
        splitComponents rootPath <+: splitComponents path := by
  have compared := containsNormal_iff (settled_splitComponents rootPath) (settled_splitComponents path)
  unfold contains
  rw [bind_eq_ok]
  constructor
  · rintro ⟨root, rootNormal, rest⟩
    rcases bind_eq_ok.mp rest with ⟨candidate, normal, answer⟩
    rcases normalizeVaultPath_eq_ok.mp rootNormal with ⟨rootClean, rfl⟩
    rcases normalizeVaultPath_eq_ok.mp normal with ⟨clean, rfl⟩
    exact ⟨rootClean, clean, compared.mp (Outcome.pure_eq_ok.mp answer)⟩
  · rintro ⟨rootClean, clean, inside⟩
    refine ⟨_, normalizeVaultPath_eq_ok.mpr ⟨rootClean, rfl⟩, bind_eq_ok.mpr
      ⟨_, normalizeVaultPath_eq_ok.mpr ⟨clean, rfl⟩, ?_⟩⟩
    exact Outcome.pure_eq_ok.mpr (compared.mpr inside)

/-- What an allowed scope request has shown. -/
theorem authorize_allowed {principal : Principal} {request : ScopeRequest} {decision : ScopeDecision}
    (answered : authorize principal request = .ok decision) (allowed : decision.allowed) :
    normalizeVaultPath request.path = .ok decision.normalizedPath ∧ principal.hasVault request.vaultId ∧
      contains principal.rootPath decision.normalizedPath = .ok true ∧
      principal.allows request.operation := by
  rcases bind_eq_ok.mp answered with ⟨path, normal, rest⟩
  split at rest
  · cases rest
    simp at allowed
  · rename_i sameVault
    split at rest
    · cases rest
      simp at allowed
    · rcases bind_eq_ok.mp rest with ⟨inside, tested, later⟩
      split at later
      · cases later
        simp at allowed
      · rename_i isInside
        split at later
        · cases later
          simp at allowed
        · rename_i granted
          split at later
          · cases later
            simp at allowed
          · cases later
            have within : inside := by simpa using isInside
            subst within
            exact ⟨normal, by simpa using sameVault, tested, by simpa using granted⟩

end Scope

/-! ## Normal vault paths -/

/-- The path of an entry: ordinary names, without the byte no path may hold. -/
structure VaultPath where
  names : List Str
  legal : forall name, name ∈ names -> LegalName name
  clean : forall name, name ∈ names -> slash ∉ name
  noNul : forall name, name ∈ names -> Scope.nul ∉ name

namespace VaultPath

open Scope

def text (path : VaultPath) : Str :=
  rooted path.names

theorem segments (path : VaultPath) : forall name, name ∈ path.names -> SegmentName name :=
  fun name inside => ⟨(path.legal name inside).1, path.clean name inside⟩

theorem dotDot_not_mem (path : VaultPath) : dotDot ∉ path.names :=
  fun inside => (path.legal dotDot inside).2.2 rfl

theorem namesOf_text (path : VaultPath) : namesOf path.text = path.names :=
  namesOf_rooted path.segments

theorem text_injective {first second : VaultPath} (same : first.text = second.text) : first = second := by
  have names : first.names = second.names := by rw [← namesOf_text first, same, namesOf_text]
  cases first
  cases second
  cases names
  rfl

section

variable (path : VaultPath)

include path

theorem splitComponents_text : splitComponents path.text = path.names := by
  rw [splitComponents_eq_foldl_namesOf, namesOf_text, foldl_pushComponent_of_legal false _ _ path.legal,
    List.append_nil, List.reverse_reverse]

theorem nul_not_mem_text : nul ∉ path.text := by
  unfold text rooted
  split
  · decide
  · intro inside
    rcases List.mem_flatMap.mp inside with ⟨name, member, found⟩
    rcases List.mem_cons.mp found with same | within
    · exact absurd same (by decide)
    · exact path.noNul name member within

theorem normalize_text : normalizeVaultPath path.text = .ok path.text :=
  normalizeVaultPath_eq_ok.mpr ⟨path.nul_not_mem_text, by rw [splitComponents_text]; rfl⟩

theorem lexicallyNormal_text : lexicallyNormal path.text = path.text :=
  lexicallyNormal_rooted path.legal path.clean

theorem isAbsolute_text : isAbsolute path.text :=
  isAbsolute_rooted path.names

end

theorem contains_text_iff (root path : VaultPath) :
    contains root.text path.text = .ok true ↔ root.names <+: path.names := by
  simp [contains_iff, nul_not_mem_text, splitComponents_text, dotDot_not_mem]

/-- The scope of a root that is written in another way. -/
theorem contains_normalized_iff {rootPath : Str} {root : VaultPath} (isRoot : normalizeVaultPath rootPath = .ok root.text)
    (path : VaultPath) : contains rootPath path.text = .ok true ↔ root.names <+: path.names := by
  have clean := (normalizeVaultPath_eq_ok.mp isRoot).1
  have names : splitComponents rootPath = root.names := by
    rw [← splitComponents_normalized isRoot, splitComponents_text]
  simp [contains_iff, clean, names, nul_not_mem_text, splitComponents_text, dotDot_not_mem]

end VaultPath

end Share
end Vaulthalla
