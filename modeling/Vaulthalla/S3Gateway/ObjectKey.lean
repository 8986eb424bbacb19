import Vaulthalla.Access.MountPath

namespace Vaulthalla
namespace S3Gateway
namespace ObjectKey

open Foundation Access

/-!
# Object keys as paths of a vault

An object key is any text.  The gateway turns it into an absolute path of the
vault by normalising it below the root, and refuses keys that climb.  Whether an
object is a directory marker is read off the last byte, but the key and the path
made from it can end differently: normalisation drops a final dot and keeps the
separator before it.
-/

inductive KeyError where
  | empty | nul | escapes
  deriving DecidableEq

/-- Whether a normal form still contains a step up. -/
def climbs (normalized : Str) : Bool :=
  decide (str "/../" <+: normalized) || decide (str "/../" <:+: normalized) || decide (str "/.." <:+ normalized)

/-- Model of `ObjectStore::keyToVaultPath`. -/
def keyToVaultPath (key : Str) : Except KeyError Str :=
  if key = [] then .error .empty
  else if 0 ∈ key then .error .nul
  else if dotDot ∈ components key then .error .escapes
  else
    let normalized := lexicallyNormal (appendPath [slash] key)
    if normalized = [slash] ∨ climbs normalized = true then .error .escapes
    else .ok (makeAbsolute normalized)

/-- Model of `ObjectStore::vaultPathToKey`. -/
def vaultPathToKey (path : Str) : Str :=
  if stripLeadingSlash path = [slash] then [] else stripLeadingSlash path

/-- Model of `ObjectStore::isDirectoryMarker`. -/
def isDirectoryMarker (key : Str) : Bool :=
  key.getLast? == some slash

example : keyToVaultPath (str "folder/") = .ok (str "/folder/") := by decide +kernel
example : keyToVaultPath (str "nested/../../escape.txt") = .error .escapes := by decide +kernel

/-! ## The path of a key -/

theorem components_ne_nil (path : Str) : components path ≠ [] :=
  List.splitOn_ne_nil slash path

theorem eq_of_components {first second : Str} (same : components first = components second) : first = second := by
  have firstText : [slash].intercalate (components first) = first := List.intercalate_splitOn slash
  have secondText : [slash].intercalate (components second) = second := List.intercalate_splitOn slash
  rw [← firstText, same, secondText]

variable {key path : Str}

/-- The last component is empty exactly behind a final separator. -/
theorem filename_eq_nil (nonempty : key ≠ []) : filename key = [] ↔ isDirectoryMarker key := by
  rw [isDirectoryMarker, beq_iff_eq, List.getLast?_eq_some_iff]
  constructor
  · intro last
    rcases List.eq_nil_or_concat (components key) with none | ⟨parts, final, split⟩
    · exact absurd none (components_ne_nil key)
    rw [List.concat_eq_append] at split
    rw [filename, split, List.getLastD_concat] at last
    subst last
    cases parts with
    | nil =>
      have noText : components key = components [] := split
      exact absurd (eq_of_components noText) nonempty
    | cons part others =>
      have clean : forall name, name ∈ part :: others -> slash ∉ name := by
        intro name inside
        exact components_clean key name (by rw [split]; exact List.mem_append_left _ inside)
      refine ⟨[slash].intercalate (part :: others), eq_of_components ?_⟩
      have joined : components ([slash].intercalate (part :: others)) = part :: others :=
        List.splitOn_intercalate slash clean (by simp)
      rw [split, components_append_slash, joined]
      rfl
  · rintro ⟨start, text⟩
    rw [filename, text, components_append_slash]
    simp [components]

/-- Making a key absolute leaves its last component and its climbing components alone. -/
theorem appendPath_key (key : Str) : isAbsolute (appendPath [slash] key) ∧
    (components (appendPath [slash] key)).getLastD [] = filename key := by
  cases absolute : isAbsolute key with
  | true =>
    have whole : appendPath [slash] key = key := by simp [appendPath, absolute]
    rw [whole]
    exact ⟨absolute, rfl⟩
  | false =>
    rw [appendPath_slash absolute, components_cons_slash]
    refine ⟨by simp [isAbsolute], ?_⟩
    rcases List.exists_cons_of_ne_nil (components_ne_nil key) with ⟨part, others, split⟩
    rw [filename, split]
    simp

/-- A path in normal form with a name below the root. -/
structure NormalPath (path : Str) (names : List Str) (trailing : Bool) : Prop where
  nonempty : names ≠ []
  legal : forall name, name ∈ names -> LegalName name ∧ slash ∉ name
  text : path = slash :: render false names trailing

namespace NormalPath

variable {path : Str} {names : List Str} {trailing : Bool}

section

variable (normal : NormalPath path names trailing)

include normal

theorem segments : forall name, name ∈ names -> SegmentName name :=
  fun name inside => ⟨(normal.legal name inside).1.1, (normal.legal name inside).2⟩

theorem absolute : isAbsolute path := by
  simp [normal.text, isAbsolute]

theorem components_eq : components path = [] :: (names ++ trailingPart trailing) := by
  rw [normal.text, components_cons_slash, components_render normal.nonempty normal.segments]

theorem normalNames_eq : normalNames true (components path) = names := by
  have skipped : normalNames true ([] :: (names ++ trailingPart trailing)) =
      normalNames true (names ++ trailingPart trailing) := rfl
  rw [normal.components_eq, skipped, normalNames_append_trailing, normalNames,
    foldl_pushComponent_of_legal true _ _ (fun name inside => (normal.legal name inside).1)]
  simp

theorem last_legal : LegalName (names.getLastD []) := by
  rw [List.getLastD_eq_getLast?, List.getLast?_eq_some_getLast normal.nonempty]
  exact (normal.legal _ (List.getLast_mem normal.nonempty)).1

theorem endsOpen_eq : endsOpen (components path) = trailing := by
  have last : ([] :: (names ++ trailingPart trailing)).getLastD [] = (names ++ trailingPart trailing).getLastD [] := by
    rw [List.getLastD_cons]
  have closed : endsOpen names = false := by
    rw [endsOpen, beq_eq_false_iff_ne.mpr normal.last_legal.1, beq_eq_false_iff_ne.mpr normal.last_legal.2.1,
      beq_eq_false_iff_ne.mpr normal.last_legal.2.2]
    rfl
  rw [normal.components_eq, endsOpen, last, ← endsOpen, endsOpen_append_trailing, closed, Bool.or_false]

/-- A normal path is its own normal form. -/
theorem lexicallyNormal_eq : lexicallyNormal path = path := by
  have below : normalNames true (components path) ≠ [] := by
    rw [normal.normalNames_eq]
    exact normal.nonempty
  rw [lexicallyNormal_below normal.absolute below, normal.normalNames_eq, normal.endsOpen_eq, ← normal.text]

theorem makeAbsolute_eq : makeAbsolute path = path := by
  rw [makeAbsolute, if_neg (by simp [normal.text]), if_pos normal.absolute, normal.lexicallyNormal_eq]

theorem ne_slash : path ≠ [slash] := by
  intro same
  rw [normal.text] at same
  exact render_ne_nil normal.nonempty normal.segments trailing (List.cons.inj same).2

theorem isDirectoryMarker_eq : isDirectoryMarker path = trailing := by
  cases trailing with
  | false =>
    rw [isDirectoryMarker, beq_eq_false_iff_ne, normal.text]
    exact getLast_render normal.nonempty normal.segments
  | true =>
    rw [isDirectoryMarker, beq_iff_eq, normal.text, List.getLast?_eq_some_iff]
    exact ⟨slash :: [slash].intercalate names, by simp [render]⟩

end

end NormalPath

/-- What a key that is accepted looks like. -/
theorem keyToVaultPath_eq_ok (converted : keyToVaultPath key = .ok path) :
    key ≠ [] ∧ dotDot ∉ components key ∧ lexicallyNormal (appendPath [slash] key) ≠ [slash] ∧
      path = makeAbsolute (lexicallyNormal (appendPath [slash] key)) := by
  unfold keyToVaultPath at converted
  split at converted
  · cases converted
  rename_i nonempty
  split at converted
  · cases converted
  split at converted
  · cases converted
  rename_i noClimb
  dsimp only at converted
  split at converted
  · cases converted
  rename_i kept
  exact ⟨nonempty, noClimb, fun top => kept (.inl top), (Except.ok.inj converted).symm⟩

/-- An absolute path without names is the root. -/
theorem lexicallyNormal_root (absolute : isAbsolute path) (none : normalNames true (components path) = []) :
    lexicallyNormal path = [slash] := by
  have nonempty : path ≠ [] := by
    intro empty
    rw [empty] at absolute
    exact absurd absolute (by decide)
  rw [lexicallyNormal, if_neg nonempty]
  simp only [absolute, none]
  simp [render, keepsTrailing, List.intercalate]

theorem filename_mem_components (key : Str) : filename key ∈ components key := by
  rw [filename, List.getLastD_eq_getLast?, List.getLast?_eq_some_getLast (components_ne_nil key)]
  exact List.getLast_mem (components_ne_nil key)

/-- The path of a key: its names, with a trailing separator exactly when the key ends in one or in a dot. -/
theorem keyToVaultPath_normal (converted : keyToVaultPath key = .ok path) :
    Exists fun names => NormalPath path names (isDirectoryMarker key || filename key == dot) := by
  rcases keyToVaultPath_eq_ok converted with ⟨nonempty, noClimb, notTop, result⟩
  rcases appendPath_key key with ⟨absolute, last⟩
  have below : normalNames true (components (appendPath [slash] key)) ≠ [] :=
    fun none => notTop (lexicallyNormal_root absolute none)
  have notClimbing : filename key ≠ dotDot := fun climbing => noClimb (climbing ▸ filename_mem_components key)
  have trailing : endsOpen (components (appendPath [slash] key)) =
      (isDirectoryMarker key || filename key == dot) := by
    rw [endsOpen, last, beq_eq_false_iff_ne.mpr notClimbing, Bool.or_false]
    congr 1
    rw [Bool.eq_iff_iff, beq_iff_eq]
    exact filename_eq_nil nonempty
  have normal : NormalPath (lexicallyNormal (appendPath [slash] key))
      (normalNames true (components (appendPath [slash] key))) (isDirectoryMarker key || filename key == dot) :=
    ⟨below, legal_normalNames _, by rw [lexicallyNormal_below absolute below, trailing]⟩
  refine ⟨normalNames true (components (appendPath [slash] key)), ?_⟩
  rw [result, normal.makeAbsolute_eq]
  exact normal

/-- A path ends in a separator when its key does, and also when its key ends in a dot component. -/
theorem isDirectoryMarker_path (converted : keyToVaultPath key = .ok path) :
    isDirectoryMarker path = (isDirectoryMarker key || filename key == dot) := by
  rcases keyToVaultPath_normal converted with ⟨names, normal⟩
  exact normal.isDirectoryMarker_eq

end ObjectKey
end S3Gateway
end Vaulthalla
