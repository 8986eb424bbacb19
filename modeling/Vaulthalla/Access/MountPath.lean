import Vaulthalla.Foundation.RelativePath

namespace Vaulthalla
namespace Access

open Foundation

/-!
# Paths of a vault and of the mount

All vaults are mounted below one FUSE root, each under its own name.  A client
names a path of a vault; the filesystem acts on paths below the FUSE root.  The
two are converted into each other through absolute paths, which are made
relative to the root of the target.  A path that is not below that root loses
everything but its last name.
-/

inductive PathType
  | fuseRoot | vaultRoot | cacheRoot | thumbnailRoot | fileCacheRoot | backingRoot
  | backingVaultRoot

def makeAbsolute (path : Str) : Str :=
  if path = [] then [slash]
  else if isAbsolute path then lexicallyNormal path
  else appendPath [slash] (lexicallyNormal path)

def stripLeadingSlash (path : Str) : Str :=
  if path = [] then [slash]
  else
    let norm := lexicallyNormal path
    if norm = [] ∨ norm = [slash] then [slash]
    else if norm.head? = some slash then norm.drop 1
    else norm

/-- The directories of an installation.  The mount point is an absolute normal path below the root. -/
structure Installation where
  mountNames : List Str
  below : mountNames ≠ []
  legal : forall name, name ∈ mountNames -> LegalName name
  clean : forall name, name ∈ mountNames -> slash ∉ name
  (backingPath cachePath : Str)

def Installation.mountPath (installation : Installation) : Str :=
  rooted installation.mountNames

structure Path where
  (fuseRoot vaultRoot cacheRoot thumbnailRoot fileCacheRoot backingRoot backingVaultRoot : Str)

namespace Path

def make (installation : Installation) (vaultFuseMount vaultBackingMount : Str) : Path :=
  let cacheRoot := appendPath (appendPath installation.backingPath (stripLeadingSlash installation.cachePath))
    (stripLeadingSlash vaultBackingMount)
  { fuseRoot := installation.mountPath
    vaultRoot := appendPath installation.mountPath (stripLeadingSlash vaultFuseMount)
    cacheRoot := cacheRoot
    thumbnailRoot := appendPath cacheRoot (str "thumbnails")
    fileCacheRoot := appendPath cacheRoot (str "files")
    backingRoot := installation.backingPath
    backingVaultRoot := appendPath installation.backingPath (stripLeadingSlash vaultBackingMount) }

section

variable (paths : Path)

def root : PathType -> Str
  | .fuseRoot => paths.fuseRoot
  | .vaultRoot => paths.vaultRoot
  | .cacheRoot => paths.cacheRoot
  | .thumbnailRoot => paths.thumbnailRoot
  | .fileCacheRoot => paths.fileCacheRoot
  | .backingRoot => paths.backingRoot
  | .backingVaultRoot => paths.backingVaultRoot

def absPath (relPath : Str) (type : PathType) : Str :=
  if relPath = [slash] then paths.root type else appendPath (paths.root type) (stripLeadingSlash relPath)

def relPath (absPath : Str) (type : PathType) : Str :=
  lexicallyRelative absPath (paths.root type)

def absRelToRoot (path : Str) (type : PathType) : Str :=
  let rel := paths.relPath path type
  if rel = [] ∨ dotDot.isPrefixOf rel then makeAbsolute (filename path)
  else makeAbsolute (lexicallyNormal rel)

def absRelToAbsRel (path : Str) (initial target : PathType) : Str :=
  paths.absRelToRoot (paths.absPath path initial) target

end

end Path

/-! ## Vaults and engines -/

def backslashOrNul (byte : UInt8) : Bool :=
  byte == backslash || byte == 0

def isValidFuseName (fuseName : Str) : Bool :=
  if fuseName = [] ∨ fuseName = dot ∨ fuseName = dotDot then false
  else fuseName.all fun byte => !(byte == slash || backslashOrNul byte)

def isLowerAlnum (byte : UInt8) : Bool :=
  (97 ≤ byte && byte ≤ 122) || (48 ≤ byte && byte ≤ 57)

def isValidVaultSlug (slug : Str) : Bool :=
  if slug.length < 3 ∨ slug.length > 63 then false
  else if !(slug.head?.any isLowerAlnum) || !(slug.getLast?.any isLowerAlnum) then false
  else slug.all fun byte => isLowerAlnum byte || byte == 45

/-- A vault, as far as its mount and its owner are concerned, with the names that its row may hold. -/
structure Vault where
  (id ownerId : UInt32)
  slug : Str
  fuseName : Option Str
  mountPoint : Str
  slugValid : isValidVaultSlug slug = true
  fuseNameValid : forall name, fuseName = some name -> isValidFuseName name = true

def Vault.effectiveFuseName (vault : Vault) : Str :=
  match vault.fuseName with
  | some name => if name ≠ [] then name else vault.slug
  | none => vault.slug

structure Engine where
  vault : Vault
  paths : Path

namespace Engine

/-- The engine that the storage manager builds for a vault. -/
def make (installation : Installation) (vault : Vault) : Engine :=
  { vault := vault, paths := Path.make installation (makeAbsolute vault.effectiveFuseName) vault.mountPoint }

def vaultPathToFusePath (engine : Engine) (path : Str) : Str :=
  engine.paths.absRelToAbsRel path .vaultRoot .fuseRoot

def fusePathToVaultPath (engine : Engine) (path : Str) : Str :=
  engine.paths.absRelToAbsRel path .fuseRoot .vaultRoot

end Engine

/-! ## Mount names -/

variable {name path : Str} {names rest root : List Str} {paths : Path} {type : PathType}

theorem legal_of_isValidFuseName (valid : isValidFuseName name) : LegalName name ∧ slash ∉ name := by
  unfold isValidFuseName at valid
  split at valid
  · simp at valid
  rename_i allowed
  rw [not_or, not_or] at allowed
  refine ⟨allowed, ?_⟩
  intro inside
  have checked := List.all_eq_true.mp valid slash inside
  simp at checked

/-- A slug would also do as a FUSE name. -/
theorem legal_of_isValidVaultSlug {slug : Str} (valid : isValidVaultSlug slug) : LegalName slug ∧ slash ∉ slug := by
  unfold isValidVaultSlug at valid
  split at valid
  · simp at valid
  rename_i length
  split at valid
  · simp at valid
  refine ⟨⟨?_, ?_, ?_⟩, ?_⟩
  · rintro rfl
    simp at length
  · rintro rfl
    simp [dot] at length
  · rintro rfl
    simp [dotDot] at length
  · intro inside
    have checked := List.all_eq_true.mp valid slash inside
    exact absurd checked (by decide)

theorem Vault.legal_effectiveFuseName (vault : Vault) :
    LegalName vault.effectiveFuseName ∧ slash ∉ vault.effectiveFuseName := by
  unfold Vault.effectiveFuseName
  split
  · rename_i name found
    split
    · exact legal_of_isValidFuseName (vault.fuseNameValid name found)
    · exact legal_of_isValidVaultSlug vault.slugValid
  · exact legal_of_isValidVaultSlug vault.slugValid

/-! ## Texts of names -/

theorem lexicallyNormal_segment (segment : SegmentName name) : lexicallyNormal name = name := by
  by_cases single : name = dot
  · subst single
    decide
  · have settled : Settled [name].reverse := ⟨trivial, segment.2, segment.1, single, fun _ => rfl⟩
    have normal : lexicallyNormal (render false [name] false) = render false [name] false :=
      lexicallyNormal_settled settled (by simp) (by simp)
    have text : render false [name] false = name := by simp [render]
    rwa [text] at normal

theorem isAbsolute_segment (segment : SegmentName name) : isAbsolute name = false := by
  have relative := isAbsolute_render (List.cons_ne_nil name []) (by simpa using segment) false
  have text : render false [name] false = name := by simp [render]
  rwa [text] at relative

theorem makeAbsolute_segment (segment : SegmentName name) : makeAbsolute name = slash :: name := by
  have relative := isAbsolute_segment segment
  rw [makeAbsolute, if_neg segment.1, if_neg (by simp [relative]), lexicallyNormal_segment segment,
    appendPath_slash relative]

section

variable (nonempty : names ≠ []) (segments : forall name, name ∈ names -> SegmentName name) (trailing : Bool)

include nonempty segments trailing

theorem isAbsolute_lexicallyNormal : isAbsolute (lexicallyNormal (render false names trailing)) = false := by
  rw [lexicallyNormal_render nonempty segments]
  split
  · rfl
  · rename_i kept
    exact isAbsolute_render kept (segment_normalNames fun name inside => (segments name inside).2) _

theorem lexicallyNormal_ne_nil : lexicallyNormal (render false names trailing) ≠ [] := by
  rw [lexicallyNormal_render nonempty segments]
  split
  · decide
  · rename_i kept
    exact render_ne_nil kept (segment_normalNames fun name inside => (segments name inside).2) _

theorem makeAbsolute_lexicallyNormal :
    makeAbsolute (lexicallyNormal (render false names trailing)) =
      slash :: lexicallyNormal (render false names trailing) := by
  have relative := isAbsolute_lexicallyNormal nonempty segments trailing
  rw [makeAbsolute, if_neg (lexicallyNormal_ne_nil nonempty segments trailing), if_neg (by simp [relative]),
    lexicallyNormal_twice nonempty segments, appendPath_slash relative]

end

/-- Whether a text starts with two dots is seen in its first name. -/
theorem dotDot_prefix_render (segment : SegmentName name) (trailing : Bool) :
    dotDot.isPrefixOf (render false (name :: rest) trailing) = dotDot.isPrefixOf name := by
  have text : Exists fun tail => render false (name :: rest) trailing = name ++ tail ∧ tail.head? ≠ some dotByte := by
    cases rest with
    | nil => cases trailing <;> simp [render, slash, dotByte]
    | cons second others => simp [render, slash, dotByte, List.intercalate]
  rcases text with ⟨tail, whole, separate⟩
  rw [whole]
  cases name with
  | nil => exact absurd rfl segment.1
  | cons first more =>
    cases more with
    | nil =>
      cases tail with
      | nil => rfl
      | cons byte further =>
        have different : byte ≠ dotByte := by simpa using separate
        simp [dotDot, List.isPrefixOf, Ne.symm different]
    | cons second others => simp [dotDot, List.isPrefixOf]

/-! ## Stripped paths -/

theorem stripLeadingSlash_slash (top : path = [] ∨ lexicallyNormal path = [slash]) :
    stripLeadingSlash path = [slash] := by
  unfold stripLeadingSlash
  split
  · rfl
  · rename_i nonempty
    have normal := top.resolve_left nonempty
    simp [normal]

theorem legal_normalNames (path : Str) :
    forall name, name ∈ normalNames true (components path) -> LegalName name ∧ slash ∉ name := by
  intro name inside
  exact foldl_pushComponent_legal (components path) [] (components_clean path) (by simp) name
    (List.mem_reverse.mp inside)

section

variable (absolute : isAbsolute path = true) (below : normalNames true (components path) ≠ [])

include absolute below

/-- An absolute path below the root is normalised to its names and the separator its last component implies. -/
theorem lexicallyNormal_below :
    lexicallyNormal path =
      slash :: render false (normalNames true (components path)) (endsOpen (components path)) := by
  rcases (isAbsolute_iff path).mp absolute with ⟨rest, rooted⟩
  have nonempty : path ≠ [] := by simp [rooted]
  have last : (normalNames true (components path)).getLastD [] ≠ dotDot := by
    rw [List.getLastD_eq_getLast?, List.getLast?_eq_some_getLast below]
    exact (legal_normalNames path _ (List.getLast_mem below)).1.2.2
  have present : (normalNames true (components path)).isEmpty = false := by simpa using below
  rw [lexicallyNormal, if_neg nonempty]
  simp only [absolute]
  rw [if_neg (by simp [render]), keepsTrailing_eq, present, bne_iff_ne.mpr last, Bool.not_false, Bool.and_true,
    Bool.and_true, render_true]

theorem stripLeadingSlash_absolute :
    stripLeadingSlash path = render false (normalNames true (components path)) (endsOpen (components path)) := by
  rcases (isAbsolute_iff path).mp absolute with ⟨rest, rooted⟩
  have nonempty : path ≠ [] := by simp [rooted]
  have normal := lexicallyNormal_below absolute below
  have segments : forall name, name ∈ normalNames true (components path) -> SegmentName name := fun name inside =>
    ⟨(legal_normalNames path name inside).1.1, (legal_normalNames path name inside).2⟩
  have notTop : ¬ (lexicallyNormal path = [] ∨ lexicallyNormal path = [slash]) := by
    rw [normal]
    simpa using render_ne_nil below segments _
  rw [stripLeadingSlash, if_neg nonempty, if_neg notTop, normal]
  simp

end

theorem stripLeadingSlash_relative (nonempty : path ≠ []) (relative : isAbsolute path = false) :
    stripLeadingSlash path = lexicallyNormal path := by
  have normal := lexicallyNormal_relative nonempty relative
  have shape : lexicallyNormal path ≠ [] ∧ isAbsolute (lexicallyNormal path) = false := by
    rw [normal]
    split
    · decide
    · rename_i kept
      have segments := segment_normalNames (components_clean path)
      exact ⟨render_ne_nil kept segments _, isAbsolute_render kept segments _⟩
  have notSlash : lexicallyNormal path ≠ [slash] := by
    intro same
    rw [same] at shape
    exact absurd shape.2 (by decide)
  have front : (lexicallyNormal path).head? ≠ some slash := by
    intro same
    have absolute : isAbsolute (lexicallyNormal path) := by simp [isAbsolute, same]
    exact absurd (shape.2.symm.trans absolute) (by decide)
  rw [stripLeadingSlash, if_neg nonempty]
  simp [shape.1, notSlash, front]

/-! ## Conversions -/

section

variable (isRoot : paths.root type = rooted root) (below : root ≠ [])

include isRoot below

/-- A path below a root, converted: its names below the root, or its last name if they seem to climb. -/
theorem absRelToRoot_below (rootSegments : forall name, name ∈ root -> SegmentName name)
    (isNames : names = name :: rest) (segments : forall other, other ∈ names -> SegmentName other) (trailing : Bool) :
    paths.absRelToRoot (slash :: render false (root ++ names) trailing) type =
      if dotDot.isPrefixOf name then
        makeAbsolute (if trailing then [] else names.getLastD [])
      else slash :: lexicallyNormal (render false names trailing) := by
  have nonempty : names ≠ [] := by simp [isNames]
  have all : forall other, other ∈ root ++ names -> SegmentName other := fun other inside =>
    (List.mem_append.mp inside).elim (rootSegments other) (segments other)
  have relative : paths.relPath (slash :: render false (root ++ names) trailing) type = render false names trailing := by
    rw [Path.relPath, isRoot]
    exact lexicallyRelative_render below rootSegments nonempty segments trailing
  have first : dotDot.isPrefixOf (render false names trailing) = dotDot.isPrefixOf name := by
    rw [isNames]
    exact dotDot_prefix_render (segments name (by simp [isNames])) trailing
  have last : (root ++ names).getLast (by simp [nonempty]) = names.getLastD [] := by
    rw [List.getLast_append_of_ne_nil _ nonempty, List.getLastD_eq_getLast?, List.getLast?_eq_some_getLast nonempty]
    rfl
  unfold Path.absRelToRoot
  simp only [relative, render_ne_nil nonempty segments trailing, false_or, first]
  rw [makeAbsolute_lexicallyNormal nonempty segments,
    filename_render (by simp [nonempty]) all, last]

/-- The root itself becomes a dot. -/
theorem absRelToRoot_self (rootSegments : forall name, name ∈ root -> SegmentName name) (trailing : Bool) :
    paths.absRelToRoot (slash :: render false root trailing) type = slash :: dot := by
  have relative : paths.relPath (slash :: render false root trailing) type = dot := by
    rw [Path.relPath, isRoot]
    exact lexicallyRelative_self below rootSegments trailing
  unfold Path.absRelToRoot
  simp only [relative]
  rw [if_neg (by decide)]
  decide

/-- The root of everything is above every root of an installation. -/
theorem absRelToRoot_slash (legal : forall name, name ∈ root -> LegalName name)
    (clean : forall name, name ∈ root -> slash ∉ name) : paths.absRelToRoot [slash] type = [slash] := by
  have climbs : dotDot.isPrefixOf (paths.relPath [slash] type) := by
    rw [Path.relPath, isRoot]
    exact List.isPrefixOf_iff_prefix.mpr (lexicallyRelative_slash below legal clean)
  unfold Path.absRelToRoot
  simp only [climbs, or_true, if_true]
  decide

end

end Access
end Vaulthalla
