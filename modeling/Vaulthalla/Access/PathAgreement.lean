import Vaulthalla.Access.Target

namespace Vaulthalla
namespace Access
namespace Evaluator

open Foundation Engine Access.Path List

/-!
# The path that is judged and the path that is acted on

A handler converts the path of a client to a path of the mount, has the
evaluator judge that path, and acts on it.  The evaluator converts it back.
The two agree exactly when the client's path leads below the mount root of the
vault and neither conversion takes a name for a step up.
-/

/-! ## The names below a mount -/

/-- The names below the mount root that a path leads to, if it ends below it. -/
def namesBelow (mount path : Str) : Option (List Str) :=
  if path = [] then none
  else if isAbsolute path then some (normalNames true (components path))
  else
    match normalNames false (mount :: components path) with
    | [] => none
    | first :: rest => if first = mount then some rest else none

/-- A path to an entry below the mount root.  No name that decides where it leads may start with two dots. -/
def Located (mount path : Str) : Prop :=
  ¬ dotDot <+: mount ∧ Exists fun first : Str => Exists fun others : List Str =>
    namesBelow mount path = some (first :: others) ∧
      (dotDot <+: first -> others = [] ∧ endsOpen (components path) = false)

/-- The handlers that change a vault. -/
inductive Mutation
  | mkdir | upload | move | rename | copy | remove

variable (engine : Engine)

/-- The FUSE path that a handler acts on, for a path of its payload. -/
def Mutation.fusePath (path : Str) : Mutation -> Str
  | .upload => engine.paths.absRelToRoot (engine.paths.absPath path .vaultRoot) .fuseRoot
  | .mkdir | .move | .rename | .copy | .remove => engine.vaultPathToFusePath path

/-- The path that is acted on lies at or below the mount root, and comes from the path that was judged. -/
structure Agrees (acted judged : Str) : Prop where
  belowMount : [engine.vault.effectiveFuseName] <+: namesOf acted
  image : engine.vaultPathToFusePath judged = acted

/-- The two conversions of a client's path agree. -/
def Converts (path : Str) : Prop :=
  Agrees engine (engine.vaultPathToFusePath path) (engine.fusePathToVaultPath (engine.vaultPathToFusePath path))

/-! ## Names that are written out -/

variable {names others : List Str} {path first mount : Str}

theorem settled_of_legal (legal : forall name, name ∈ names -> LegalName name)
    (clean : forall name, name ∈ names -> slash ∉ name) : Settled names := by
  induction names with
  | nil => exact trivial
  | cons name rest ih =>
    rcases legal name mem_cons_self with ⟨nonempty, notDot, ordinary⟩
    refine ⟨?_, clean name mem_cons_self, nonempty, notDot, fun climbs => absurd climbs ordinary⟩
    exact ih (fun other inside => legal other (mem_cons_of_mem name inside))
      fun other inside => clean other (mem_cons_of_mem name inside)

/-- Ordinary names, as they stand in a path. -/
structure Ordinary (names : List Str) : Prop where
  nonempty : names ≠ []
  legal : forall name, name ∈ names -> LegalName name
  clean : forall name, name ∈ names -> slash ∉ name

namespace Ordinary

variable {names : List Str}

theorem segments (ordinary : Ordinary names) : forall name, name ∈ names -> SegmentName name :=
  fun name inside => ⟨(ordinary.legal name inside).1, ordinary.clean name inside⟩

theorem cons (legal : LegalName mount ∧ slash ∉ mount) (ordinary : Ordinary names) :
    Ordinary (mount :: names) where
  nonempty := cons_ne_nil mount names
  legal := forall_mem_cons.mpr ⟨legal.1, ordinary.legal⟩
  clean := forall_mem_cons.mpr ⟨legal.2, ordinary.clean⟩

theorem singleton {name : Str} (legal : LegalName name ∧ slash ∉ name) : Ordinary [name] where
  nonempty := cons_ne_nil name []
  legal := by simpa using legal.1
  clean := by simpa using legal.2

section

variable (ordinary : Ordinary names)

include ordinary

theorem settled : Settled names.reverse :=
  settled_of_legal (fun name inside => ordinary.legal name (mem_reverse.mp inside))
    fun name inside => ordinary.clean name (mem_reverse.mp inside)

theorem last_mem : names.getLastD [] ∈ names := by
  rw [getLastD_eq_getLast?, getLast?_eq_some_getLast ordinary.nonempty]
  exact getLast_mem ordinary.nonempty

theorem endsOpen_eq : endsOpen names = false := by
  rw [endsOpen_settled ordinary.settled ordinary.nonempty]
  exact beq_eq_false_iff_ne.mpr (ordinary.legal _ ordinary.last_mem).2.2

variable (trailing : Bool)

theorem normal : lexicallyNormal (render false names trailing) = render false names trailing :=
  lexicallyNormal_settled ordinary.settled ordinary.nonempty fun _ => (ordinary.legal _ ordinary.last_mem).2.2

theorem strip : stripLeadingSlash (slash :: render false names trailing) = render false names trailing := by
  have parts : components (slash :: render false names trailing) = [] :: (names ++ trailingPart trailing) := by
    rw [components_cons_slash, components_render ordinary.nonempty ordinary.segments]
  have resolved : normalNames true (components (slash :: render false names trailing)) = names := by
    have skipped : normalNames true ([] :: (names ++ trailingPart trailing)) =
        normalNames true (names ++ trailingPart trailing) := rfl
    rw [parts, skipped, normalNames_append_trailing, normalNames, foldl_pushComponent_of_legal true _ _ ordinary.legal]
    simp
  have ends : endsOpen (components (slash :: render false names trailing)) = trailing := by
    have last : ([] :: (names ++ trailingPart trailing)).getLastD [] = (names ++ trailingPart trailing).getLastD [] := by
      rw [getLastD_cons]
    rw [parts, endsOpen, last, ← endsOpen, endsOpen_append_trailing, ordinary.endsOpen_eq, Bool.or_false]
  have absolute : isAbsolute (slash :: render false names trailing) := by simp [isAbsolute]
  rw [stripLeadingSlash_absolute absolute (by rw [resolved]; exact ordinary.nonempty), resolved, ends]

theorem ne_slash : slash :: render false names trailing ≠ [slash] := by
  intro same
  exact render_ne_nil ordinary.nonempty ordinary.segments trailing (cons.inj same).2

theorem namesOf_render : namesOf (slash :: render false names trailing) = names :=
  Foundation.namesOf_render ordinary.nonempty ordinary.segments trailing

end

end Ordinary

/-! ## The conversions of an engine -/

section Conversions

variable {installation : Installation} {vault : Vault}

theorem mountNames_segments : forall name, name ∈ installation.mountNames -> SegmentName name :=
  fun name inside => ⟨(installation.legal name inside).1, installation.clean name inside⟩

theorem vaultRoot_eq : (make installation vault).paths.root .vaultRoot =
    rooted (installation.mountNames ++ [vault.effectiveFuseName]) := by
  have legal := vault.legal_effectiveFuseName
  have segment : SegmentName vault.effectiveFuseName := ⟨legal.1.1, legal.2⟩
  have text : render false [vault.effectiveFuseName] false = vault.effectiveFuseName := by simp [render]
  have stripped : stripLeadingSlash (makeAbsolute vault.effectiveFuseName) = render false [vault.effectiveFuseName] false := by
    have written := (Ordinary.singleton legal).strip false
    rw [text] at written
    rw [makeAbsolute_segment segment, written, text]
  have root : (make installation vault).paths.root .vaultRoot =
      appendPath (rooted installation.mountNames) (stripLeadingSlash (makeAbsolute vault.effectiveFuseName)) := rfl
  rw [root, stripped, appendPath_render installation.below mountNames_segments (cons_ne_nil _ _)
    (Ordinary.singleton legal).segments, rooted_eq_render (by simp)]

theorem vaultRoot_ordinary : Ordinary (installation.mountNames ++ [vault.effectiveFuseName]) where
  nonempty := by simp
  legal := fun name inside => (mem_append.mp inside).elim (installation.legal name)
    fun single => mem_singleton.mp single ▸ vault.legal_effectiveFuseName.1
  clean := fun name inside => (mem_append.mp inside).elim (installation.clean name)
    fun single => mem_singleton.mp single ▸ vault.legal_effectiveFuseName.2

theorem vaultPathToFusePath_slash :
    (make installation vault).vaultPathToFusePath [slash] = slash :: vault.effectiveFuseName := by
  have legal := vault.legal_effectiveFuseName
  have text : render false [vault.effectiveFuseName] false = vault.effectiveFuseName := by simp [render]
  have start : (make installation vault).paths.absPath [slash] .vaultRoot =
      slash :: render false (installation.mountNames ++ [vault.effectiveFuseName]) false := by
    rw [absPath, if_pos rfl, vaultRoot_eq, rooted_eq_render (by simp)]
  rw [vaultPathToFusePath, absRelToAbsRel, start,
    absRelToRoot_below rfl installation.below mountNames_segments rfl (Ordinary.singleton legal).segments,
    (Ordinary.singleton legal).normal, text]
  split
  · exact makeAbsolute_segment ⟨legal.1.1, legal.2⟩
  · rfl

variable {path first : Str} {names others : List Str} {trailing : Bool}

/-- A path that is all dots and separators becomes the FUSE root. -/
theorem vaultPathToFusePath_top (other : path ≠ [slash]) (top : path = [] ∨ lexicallyNormal path = [slash]) :
    (make installation vault).vaultPathToFusePath path = [slash] := by
  have start : (make installation vault).paths.absPath path .vaultRoot = [slash] := by
    rw [absPath, if_neg other, stripLeadingSlash_slash top]
    rfl
  rw [vaultPathToFusePath, absRelToAbsRel, start]
  exact absRelToRoot_slash rfl installation.below installation.legal installation.clean

variable (installation vault) in
theorem vaultPathToFusePath_stripped (other : path ≠ [slash])
    (stripped : stripLeadingSlash path = render false names trailing) (nonempty : names ≠ [])
    (segments : forall name, name ∈ names -> SegmentName name) :
    (make installation vault).vaultPathToFusePath path =
      if dotDot.isPrefixOf vault.effectiveFuseName then makeAbsolute (if trailing then [] else names.getLastD [])
      else slash :: lexicallyNormal (render false (vault.effectiveFuseName :: names) trailing) := by
  have legal := vault.legal_effectiveFuseName
  have all : forall name, name ∈ vault.effectiveFuseName :: names -> SegmentName name :=
    forall_mem_cons.mpr ⟨⟨legal.1.1, legal.2⟩, segments⟩
  have start : (make installation vault).paths.absPath path .vaultRoot =
      slash :: render false (installation.mountNames ++ vault.effectiveFuseName :: names) trailing := by
    rw [absPath, if_neg other, vaultRoot_eq, stripped,
      appendPath_render vaultRoot_ordinary.nonempty vaultRoot_ordinary.segments
        nonempty segments]
    simp
  have last : (vault.effectiveFuseName :: names).getLastD [] = names.getLastD [] := by
    cases names with
    | nil => exact absurd rfl nonempty
    | cons name rest => rfl
  rw [vaultPathToFusePath, absRelToAbsRel, start,
    absRelToRoot_below rfl installation.below mountNames_segments rfl all, last]

theorem absPath_fuseRoot (ordinary : Ordinary names) (trailing : Bool) :
    (make installation vault).paths.absPath (slash :: render false names trailing) .fuseRoot =
      slash :: render false (installation.mountNames ++ names) trailing := by
  rw [absPath, if_neg (ordinary.ne_slash trailing), ordinary.strip]
  exact appendPath_render installation.below mountNames_segments ordinary.nonempty ordinary.segments trailing

/-- The mount root is judged as a dot. -/
theorem fusePathToVaultPath_mount (trailing : Bool) :
    (make installation vault).fusePathToVaultPath (slash :: render false [vault.effectiveFuseName] trailing) =
      slash :: dot := by
  rw [fusePathToVaultPath, absRelToAbsRel,
    absPath_fuseRoot (.singleton vault.legal_effectiveFuseName)]
  exact absRelToRoot_self vaultRoot_eq vaultRoot_ordinary.nonempty
    vaultRoot_ordinary.segments trailing

theorem fusePathToVaultPath_below (ordinary : Ordinary (first :: others)) (trailing : Bool) :
    (make installation vault).fusePathToVaultPath
        (slash :: render false (vault.effectiveFuseName :: first :: others) trailing) =
      if dotDot.isPrefixOf first then makeAbsolute (if trailing then [] else (first :: others).getLastD [])
      else slash :: render false (first :: others) trailing := by
  have whole := ordinary.cons vault.legal_effectiveFuseName
  have split : installation.mountNames ++ vault.effectiveFuseName :: first :: others =
      (installation.mountNames ++ [vault.effectiveFuseName]) ++ (first :: others) := by simp
  rw [fusePathToVaultPath, absRelToAbsRel, absPath_fuseRoot whole, split,
    absRelToRoot_below vaultRoot_eq vaultRoot_ordinary.nonempty
      vaultRoot_ordinary.segments rfl ordinary.segments, ordinary.normal]

theorem vaultPathToFusePath_below (ordinary : Ordinary names)
    (plain : ¬ dotDot <+: vault.effectiveFuseName) (trailing : Bool) :
    (make installation vault).vaultPathToFusePath (slash :: render false names trailing) =
      slash :: render false (vault.effectiveFuseName :: names) trailing := by
  rw [vaultPathToFusePath_stripped installation vault (ordinary.ne_slash trailing) (ordinary.strip trailing)
    ordinary.nonempty ordinary.segments, if_neg (mt isPrefixOf_iff_prefix.mp plain),
    (ordinary.cons vault.legal_effectiveFuseName).normal]

/-! ## Agreement -/

/-- At the mount root the two never agree: it is judged as a dot, and a dot leads to the FUSE root. -/
theorem not_converts_of_mount (isFuse : (make installation vault).vaultPathToFusePath path =
      slash :: render false [vault.effectiveFuseName] trailing) : ¬ Converts (make installation vault) path := by
  rintro ⟨_, image⟩
  rw [isFuse, fusePathToVaultPath_mount,
    vaultPathToFusePath_top (by decide) (.inr (by decide))] at image
  exact (Ordinary.singleton vault.legal_effectiveFuseName).ne_slash trailing image.symm

theorem converts_below_iff (ordinary : Ordinary (first :: others)) (plain : ¬ dotDot <+: vault.effectiveFuseName)
    (isFuse : (make installation vault).vaultPathToFusePath path =
      slash :: render false (vault.effectiveFuseName :: first :: others) trailing) :
    Converts (make installation vault) path ↔
      (dotDot <+: first -> others = [] ∧ trailing = false) := by
  have whole := ordinary.cons vault.legal_effectiveFuseName
  have below : [vault.effectiveFuseName] <+: namesOf ((make installation vault).vaultPathToFusePath path) := by
    rw [isFuse, whole.namesOf_render]
    exact ⟨first :: others, rfl⟩
  have reduced : Converts (make installation vault) path ↔
      (make installation vault).vaultPathToFusePath
          ((make installation vault).fusePathToVaultPath
            (slash :: render false (vault.effectiveFuseName :: first :: others) trailing)) =
        slash :: render false (vault.effectiveFuseName :: first :: others) trailing := by
    constructor
    · rintro ⟨_, image⟩
      rwa [isFuse] at image
    · intro image
      refine ⟨below, ?_⟩
      rw [isFuse]
      exact image
  rw [reduced, fusePathToVaultPath_below ordinary]
  by_cases climbs : dotDot <+: first
  case neg =>
    rw [if_neg (mt isPrefixOf_iff_prefix.mp climbs), vaultPathToFusePath_below ordinary plain]
    simp [climbs]
  case pos =>
    simp only [ isPrefixOf_iff_prefix.mpr climbs, if_true, climbs, true_implies]
    cases trailing with
    | true =>
      have top : makeAbsolute [] = [slash] := rfl
      simp only [if_true, top, vaultPathToFusePath_slash, Bool.true_eq_false, and_false, iff_false]
      intro same
      have names := congrArg namesOf same
      have single := (Ordinary.singleton vault.legal_effectiveFuseName).namesOf_render false
      rw [whole.namesOf_render] at names
      simp only [render, Bool.false_eq_true, if_false, nil_append, append_nil, intercalate_singleton]
        at single
      rw [single] at names
      simp at names
    | false =>
      have last := ordinary.last_mem
      have legalLast : LegalName ((first :: others).getLastD []) ∧ slash ∉ (first :: others).getLastD [] :=
        ⟨ordinary.legal _ last, ordinary.clean _ last⟩
      have text : makeAbsolute ((first :: others).getLastD []) =
          slash :: render false [(first :: others).getLastD []] false := by
        rw [makeAbsolute_segment ⟨legalLast.1.1, legalLast.2⟩]
        simp [render]
      have single := Ordinary.singleton legalLast
      rw [if_neg (by simp), text, vaultPathToFusePath_below single plain]
      simp only [and_true]
      constructor
      · intro same
        have names := congrArg namesOf same
        rw [whole.namesOf_render, (single.cons vault.legal_effectiveFuseName).namesOf_render] at names
        exact ((cons.inj (cons.inj names).2).2).symm
      · rintro rfl
        rfl

variable (installation) in
/-- A mount name that starts with two dots is lost in every conversion. -/
theorem not_converts_of_dots (other : path ≠ [slash])
    (stripped : stripLeadingSlash path = render false names trailing) (nonempty : names ≠ [])
    (segments : forall name, name ∈ names -> SegmentName name)
    (climbs : dotDot <+: vault.effectiveFuseName) : ¬ Converts (make installation vault) path := by
  have isFuse := vaultPathToFusePath_stripped installation vault other stripped nonempty segments
  rw [if_pos ( isPrefixOf_iff_prefix.mpr climbs)] at isFuse
  intro agrees
  have below : [vault.effectiveFuseName] <+: namesOf ((make installation vault).vaultPathToFusePath path) :=
    agrees.belowMount
  rw [isFuse] at below
  cases trailing with
  | true =>
    have none : namesOf (makeAbsolute []) = [] := by decide
    rw [if_pos rfl, none] at below
    simp at below
  | false =>
    have segment : SegmentName (names.getLastD []) := by
      rw [getLastD_eq_getLast?, getLast?_eq_some_getLast nonempty]
      exact segments _ (getLast_mem nonempty)
    rw [if_neg (by simp), makeAbsolute_segment segment] at isFuse below
    rw [namesOf_cons_slash, namesOf_of_segment segment] at below
    have same : vault.effectiveFuseName = names.getLastD [] := by simpa using below
    have atMount : (make installation vault).vaultPathToFusePath path =
        slash :: render false [vault.effectiveFuseName] false := by
      rw [isFuse, ← same]
      simp [render]
    exact not_converts_of_mount atMount agrees

end Conversions

/-! ## The names of a client's path -/

theorem isAbsolute_of_normal_slash (nonempty : path ≠ []) (top : lexicallyNormal path = [slash]) :
    isAbsolute path ∧ normalNames true (components path) = [] := by
  cases absolute : isAbsolute path with
  | false =>
    have normal := lexicallyNormal_relative nonempty absolute
    rw [top] at normal
    split at normal
    · exact absurd normal (by decide)
    rename_i kept
    have relative := isAbsolute_render kept (segment_normalNames (components_clean path))
      (keepsTrailing (components path) (normalNames false (components path)))
    rw [← normal] at relative
    exact absurd relative (by decide)
  | true =>
    refine ⟨rfl, ?_⟩
    by_contra below
    have stripped := stripLeadingSlash_absolute absolute below
    rw [stripLeadingSlash_slash (.inr top)] at stripped
    have segments : forall name, name ∈ normalNames true (components path) -> SegmentName name := by
      intro name inside
      have kept := foldl_pushComponent_legal (components path) [] (components_clean path) (by simp) name
        (mem_reverse.mp inside)
      exact ⟨kept.1.1, kept.2⟩
    have relative := isAbsolute_render below segments (endsOpen (components path))
    rw [← stripped] at relative
    exact absurd relative (by decide)

/-- Reading dot-dots onto dot-dots keeps nothing else. -/
theorem foldl_dotDots {parts : List Str} (climbs : forall part, part ∈ parts -> part = dotDot)
    (kept : forall name, name ∈ names -> name = dotDot) :
    forall name, name ∈ parts.foldl (pushComponent false) names -> name = dotDot := by
  induction parts generalizing names with
  | nil => exact kept
  | cons part rest ih =>
    apply ih fun other inside => climbs other (mem_cons_of_mem part inside)
    have isDotDot := climbs part mem_cons_self
    subst isDotDot
    intro name inside
    cases names with
    | nil => exact mem_singleton.mp inside
    | cons first others =>
      have firstDots := kept first mem_cons_self
      subst firstDots
      rcases mem_cons.mp inside with same | old
      · exact same
      · exact kept name old

theorem all_dotDots {rest : List Str} (settled : Settled (dotDot :: rest)) : forall name, name ∈ dotDot :: rest -> name = dotDot := by
  induction rest with
  | nil => exact fun name inside => mem_singleton.mp inside
  | cons second others ih =>
    have head : second = dotDot := settled.2.2.2.2 rfl
    subst head
    intro name inside
    rcases mem_cons.mp inside with same | later
    · exact same
    · exact ih settled.1 name later

/-- A path that ends below a mount name does not end in a step up. -/
theorem last_ne_dotDot (legal : LegalName mount)
    (below : normalNames false (mount :: components path) = mount :: first :: others) :
    normalNames false (components path) ≠ [] ∧ (normalNames false (components path)).getLastD [] ≠ dotDot := by
  have clean := components_clean path
  have read : ((normalNames false (components path)).foldl (pushComponent false) [mount]).reverse =
      mount :: first :: others := by
    rw [foldl_normalNames clean, ← normalNames_cons legal, below]
  constructor
  · intro none
    rw [none] at read
    simp at read
  · intro last
    have settled : Settled (normalNames false (components path)).reverse := settled_normalNames clean
    cases reversed : (normalNames false (components path)).reverse with
    | nil =>
      rw [reverse_eq_nil_iff.mp reversed] at read
      simp at read
    | cons top rest =>
      have isNames : normalNames false (components path) = (top :: rest).reverse := by
        rw [← reversed, reverse_reverse]
      have isDotDot : top = dotDot := by
        rw [isNames, getLastD_eq_getLast?, getLast?_reverse] at last
        simpa using last
      subst isDotDot
      rw [reversed] at settled
      have climbs : forall name, name ∈ normalNames false (components path) -> name = dotDot := by
        intro name inside
        exact all_dotDots settled name (by rw [← reversed]; exact mem_reverse.mpr inside)
      cases names : normalNames false (components path) with
      | nil =>
        rw [names] at read
        simp at read
      | cons step further =>
        rw [names] at climbs read
        have isStep := climbs step mem_cons_self
        subst isStep
        have pops : pushComponent false [mount] dotDot = [] := by
          exact if_neg legal.2.2
        rw [foldl_cons, pops] at read
        have kept : mount ∈ further.foldl (pushComponent false) [] := by
          rw [← mem_reverse, read]
          exact mem_cons_self
        have none : forall name, name ∈ ([] : List Str) -> name = dotDot := by simp
        exact legal.2.2 (foldl_dotDots (fun name inside => climbs name (mem_cons_of_mem dotDot inside)) none
          mount kept)

/-- What a relative path is after stripping: its own names, or a dot. -/
theorem strip_relative (nonempty : path ≠ []) (relative : isAbsolute path = false) (legal : LegalName mount) :
    Exists fun names => Exists fun trailing =>
      stripLeadingSlash path = render false names trailing ∧ names ≠ [] ∧
        (forall name, name ∈ names -> SegmentName name) ∧
        normalNames false (mount :: names) = normalNames false (mount :: components path) ∧
        (normalNames false (components path) ≠ [] ->
          names = normalNames false (components path) ∧ trailing = keepsTrailing (components path) names) := by
  have clean := components_clean path
  have read := foldl_normalNames clean [mount]
  rw [stripLeadingSlash_relative nonempty relative, lexicallyNormal_relative nonempty relative]
  by_cases none : normalNames false (components path) = []
  · refine ⟨[dot], false, by rw [if_pos none]; rfl, by simp, ?_, ?_, fun some => absurd none some⟩
    · intro name inside
      rw [mem_singleton.mp inside]
      exact ⟨by decide, by decide⟩
    · rw [none] at read
      have single : (components path).foldl (pushComponent false) [mount] = [mount] := read.symm
      rw [normalNames_cons legal, normalNames_cons legal, single]
      rfl
  · refine ⟨normalNames false (components path), keepsTrailing (components path) (normalNames false (components path)),
      by rw [if_neg none], none, segment_normalNames clean, ?_, fun _ => ⟨rfl, rfl⟩⟩
    rw [normalNames_cons legal, read, normalNames_cons legal]

/-- The trailing separator of a path that ends below a mount name. -/
theorem trailing_of_below {trailing : Bool} (legal : LegalName mount)
    (below : normalNames false (mount :: components path) = mount :: first :: others)
    (own : normalNames false (components path) ≠ [] ->
      names = normalNames false (components path) ∧ trailing = keepsTrailing (components path) names) :
    (trailing || endsOpen (mount :: names)) = endsOpen (components path) := by
  rcases last_ne_dotDot legal below with ⟨some, last⟩
  rcases own some with ⟨isNames, isTrailing⟩
  have settled : Settled names.reverse := isNames ▸ settled_normalNames (components_clean path)
  have nonempty : names ≠ [] := isNames ▸ some
  have present : names.isEmpty = false := by simpa using nonempty
  have lastName : names.getLastD [] ≠ dotDot := isNames ▸ last
  have closed : endsOpen (mount :: names) = false := by
    have sameLast : (mount :: names).getLastD [] = names.getLastD [] := by
      cases names with
      | nil => exact absurd rfl nonempty
      | cons name rest => rfl
    rw [endsOpen, sameLast, ← endsOpen, endsOpen_settled settled nonempty]
    exact beq_eq_false_iff_ne.mpr lastName
  rw [closed, Bool.or_false, isTrailing, keepsTrailing_eq, present, bne_iff_ne.mpr lastName, Bool.not_false,
    Bool.and_true, Bool.and_true]

/-! ## The paths that agree -/

section Main

variable {installation : Installation} {vault : Vault}

theorem converts_iff_of_absolute (other : path ≠ [slash]) (absolute : isAbsolute path)
    (below : normalNames true (components path) ≠ []) :
    Converts (make installation vault) path ↔ Located vault.effectiveFuseName path := by
  have ordinary : Ordinary (normalNames true (components path)) := by
    have kept := foldl_pushComponent_legal (components path) [] (components_clean path) (by simp)
    exact ⟨below, fun name inside => (kept name (mem_reverse.mp inside)).1,
      fun name inside => (kept name (mem_reverse.mp inside)).2⟩
  have stripped := stripLeadingSlash_absolute absolute below
  have nonempty : path ≠ [] := by
    rintro rfl
    simp [isAbsolute] at absolute
  have read : namesBelow vault.effectiveFuseName path = some (normalNames true (components path)) := by
    simp [namesBelow, nonempty, absolute]
  unfold Located
  rw [read]
  by_cases plain : dotDot <+: vault.effectiveFuseName
  case pos =>
    have never := not_converts_of_dots installation other stripped below ordinary.segments plain
    simp [plain, never]
  case neg =>
    have isFuse := vaultPathToFusePath_stripped installation vault other stripped below ordinary.segments
    rw [if_neg (mt isPrefixOf_iff_prefix.mp plain), (ordinary.cons vault.legal_effectiveFuseName).normal] at isFuse
    cases names : normalNames true (components path) with
    | nil => exact absurd names below
    | cons first others =>
      rw [names] at isFuse ordinary
      rw [converts_below_iff ordinary plain isFuse]
      simp [plain]

theorem converts_iff_of_relative (nonempty : path ≠ []) (relative : isAbsolute path = false) :
    Converts (make installation vault) path ↔ Located vault.effectiveFuseName path := by
  have legal := vault.legal_effectiveFuseName
  have other : path ≠ [slash] := by
    rintro rfl
    simp [isAbsolute] at relative
  rcases strip_relative nonempty relative legal.1 with ⟨names, trailing, stripped, some, segments, read, own⟩
  have all : forall name, name ∈ vault.effectiveFuseName :: names -> SegmentName name :=
    forall_mem_cons.mpr ⟨⟨legal.1.1, legal.2⟩, segments⟩
  have clean : forall name, name ∈ vault.effectiveFuseName :: names -> slash ∉ name := fun name inside =>
    (all name inside).2
  unfold Located
  by_cases plain : dotDot <+: vault.effectiveFuseName
  case pos =>
    have never := not_converts_of_dots installation other stripped some segments plain
    simp [plain, never]
  case neg =>
    have isFuse := vaultPathToFusePath_stripped installation vault other stripped some segments
    rw [if_neg (mt isPrefixOf_iff_prefix.mp plain), lexicallyNormal_render (cons_ne_nil _ _) all] at isFuse
    have kept := segment_normalNames clean
    have settled := settled_normalNames clean
    simp only [plain, not_false_eq_true, true_and, namesBelow, nonempty, if_false, relative, Bool.false_eq_true,
      ← read]
    cases below : normalNames false (vault.effectiveFuseName :: names) with
    | nil =>
      rw [below, if_pos rfl] at isFuse
      simp only [reduceCtorEq, false_and, exists_const, iff_false]
      intro agrees
      have start : [vault.effectiveFuseName] <+: namesOf (slash :: dot) := isFuse ▸ agrees.belowMount
      have single : namesOf (slash :: dot) = [dot] := by decide
      rw [single] at start
      have same : vault.effectiveFuseName = dot := by simpa using start
      exact legal.1.2.1 same
    | cons first rest =>
      rw [below] at isFuse kept settled
      rw [if_neg (cons_ne_nil first rest)] at isFuse
      by_cases same : first = vault.effectiveFuseName
      · subst same
        cases rest with
        | nil =>
          have never := not_converts_of_mount isFuse
          simp [never]
        | cons name others =>
          have stays := dotDot_not_mem_of_settled settled legal.1.2.2
          have ordinary : Ordinary (name :: others) := by
            have member : forall part, part ∈ name :: others -> part ∈ vault.effectiveFuseName :: name :: others :=
              fun part inside => mem_cons_of_mem _ inside
            refine ⟨cons_ne_nil _ _, ?_, fun part inside => (kept part (member part inside)).2⟩
            intro part inside
            have notDot := (segment_of_settled settled part (mem_reverse.mpr (member part inside))).2
            exact ⟨(kept part (member part inside)).1, notDot, fun climbs => stays (climbs ▸ member part inside)⟩
          have ends := trailing_of_below legal.1 (read.symm.trans below) own
          have lastName : (vault.effectiveFuseName :: name :: others).getLastD [] ≠ dotDot := by
            intro last
            have inside := (ordinary.cons legal).last_mem
            rw [last] at inside
            exact stays inside
          rw [ends, bne_iff_ne.mpr lastName, Bool.and_true] at isFuse
          rw [converts_below_iff ordinary plain isFuse]
          simp
      · simp only [same, if_false, reduceCtorEq, false_and, exists_const, iff_false]
        intro agrees
        have start : [vault.effectiveFuseName] <+: first :: rest := by
          have belowMount : [vault.effectiveFuseName] <+:
              namesOf ((make installation vault).vaultPathToFusePath path) := agrees.belowMount
          rwa [isFuse, Foundation.namesOf_render (cons_ne_nil first rest) kept] at belowMount
        rcases start with ⟨tail, joined⟩
        exact same (cons.inj joined).1.symm

theorem converts_iff (path : Str) : Converts (make installation vault) path ↔ Located vault.effectiveFuseName path := by
  by_cases isRoot : path = [slash]
  · subst isRoot
    have isFuse : (make installation vault).vaultPathToFusePath [slash] =
        slash :: render false [vault.effectiveFuseName] false := by
      rw [vaultPathToFusePath_slash]
      simp [render]
    have never := not_converts_of_mount isFuse
    have read : namesBelow vault.effectiveFuseName [slash] = some [] := rfl
    simp [never, Located, read]
  · by_cases top : path = [] ∨ lexicallyNormal path = [slash]
    · have never : ¬ Converts (make installation vault) path := by
        rintro ⟨below, _⟩
        have none : namesOf [slash] = [] := by decide
        rw [vaultPathToFusePath_top isRoot top, none] at below
        simp at below
      have read : namesBelow vault.effectiveFuseName path = none ∨ namesBelow vault.effectiveFuseName path = some [] := by
        by_cases empty : path = []
        · exact .inl (by simp [namesBelow, empty])
        · rcases isAbsolute_of_normal_slash empty (top.resolve_left empty) with ⟨absolute, none⟩
          exact .inr (by simp [namesBelow, empty, absolute, none])
      rcases read with read | read
      · simp [never, Located, read]
      · simp [never, Located, read]
    · rw [not_or] at top
      cases absolute : isAbsolute path with
      | false => exact converts_iff_of_relative top.1 absolute
      | true =>
        apply converts_iff_of_absolute isRoot absolute
        intro none
        apply top.2
        rw [lexicallyNormal, if_neg top.1]
        simp [absolute, none, render, keepsTrailing, intercalate]

/-! ## Requests -/

theorem makeAbsolute_ne_nil (path : Str) : makeAbsolute path ≠ [] := by
  unfold makeAbsolute
  split
  · simp
  · rename_i nonempty
    split
    · unfold lexicallyNormal
      rw [if_neg nonempty]
      simp only
      split
      · decide
      · assumption
    · unfold appendPath
      split
      · rename_i absolute
        rcases (isAbsolute_iff _).mp absolute with ⟨rest, isRooted⟩
        simp [isRooted]
      · simp

theorem absRelToRoot_ne_nil (paths : Path) (path : Str) (type : PathType) : paths.absRelToRoot path type ≠ [] := by
  unfold absRelToRoot
  simp only
  split
  · exact makeAbsolute_ne_nil _
  · exact makeAbsolute_ne_nil _

/-- A system that has only this engine, and no entries. -/
def emptySystem (engine : Engine) : System where
  storage := StorageManager.empty.file (engine.paths.absRelToRoot engine.paths.vaultRoot .fuseRoot) engine
  getEntry := fun _ => none

variable (installation vault) in
/-- The path that a handler acts on is the one that was judged, for every action and every cache, exactly for the paths
that lead below the mount root. -/
theorem judged_path_acted_on_iff (path : Str) :
    (forall (system : System) (action : FilesystemAction) (target : Target) (mutation : Mutation),
      system.storage.getEngine vault.id = some (make installation vault) ->
      resolveTarget system
          (pathRequest action vault.id ((make installation vault).vaultPathToFusePath path)) = .ok target ->
        Agrees (make installation vault) (mutation.fusePath (make installation vault) path)
          target.context.vaultPath) ↔
      Located vault.effectiveFuseName path := by
  have named : (make installation vault).vaultPathToFusePath path ≠ [] := absRelToRoot_ne_nil _ _ _
  have converted : (make installation vault).fusePathToVaultPath
      ((make installation vault).vaultPathToFusePath path) ≠ [] := absRelToRoot_ne_nil _ _ _
  rw [← converts_iff]
  constructor
  · intro agrees
    -- A file that does not exist yet is always accepted for writing.
    have found : (emptySystem (make installation vault)).storage.getEngine vault.id =
        some (make installation vault) := AList.lookup_insert _
    have accepted := (resolveTarget_path found named converted .write
      (pathTarget (emptySystem (make installation vault)) (make installation vault) .write
        ((make installation vault).vaultPathToFusePath path))).mpr ⟨rfl, rfl⟩
    exact agrees _ _ _ .mkdir found accepted
  · intro converts system action target mutation found accepted
    rcases (resolveTarget_path found named converted action target).mp accepted with ⟨_, checked⟩
    rcases checkKind_eq_ok.mp checked with ⟨_, _, rfl⟩
    cases mutation <;> exact converts

end Main

/-! ## Two vaults -/

def mountedAt : Installation where
  mountNames := [str "mnt", str "vh"]
  below := by simp
  legal := by decide
  clean := by decide
  backingPath := str "/var/lib/vh"
  cachePath := str ".cache"

def teamVault : Vault :=
  { id := 1, ownerId := 5, slug := str "team", fuseName := none, mountPoint := str "A", slugValid := by decide,
    fuseNameValid := by simp }

def opsVault : Vault :=
  { id := 2, ownerId := 6, slug := str "ops", fuseName := none, mountPoint := str "B", slugValid := by decide,
    fuseNameValid := by simp }

def teamEngine : Engine :=
  make mountedAt teamVault

def twoVaults : System where
  storage := (StorageManager.empty.file (str "/ops") (make mountedAt opsVault)).file (str "/team") teamEngine
  getEntry := fun path =>
    if path = str "/" then some { vaultId := none, path := str "/", isDirectory := true }
    else if path = str "/team" then some { vaultId := some 1, path := str "/", isDirectory := true }
    else if path = str "/ops" then some { vaultId := some 2, path := str "/", isDirectory := true }
    else none

/-- The path that is judged for a client's path, if the request is accepted, and the path that is acted on. -/
def judgedAndActed (action : FilesystemAction) (path : Str) : Option (Str × Str) :=
  match resolveTarget twoVaults (pathRequest action 1 (teamEngine.vaultPathToFusePath path)) with
  | .ok target => some (target.context.vaultPath, teamEngine.vaultPathToFusePath path)
  | .error _ => none

/-- A folder made in another vault, a file judged under another path, and the FUSE root listed as a folder of the vault. -/
theorem judged_elsewhere :
    judgedAndActed .touch (str "../ops/x") = some (str "/x", str "/ops/x") ∧
      judgedAndActed .write (str "/..a/b") = some (str "/b", str "/team/..a/b") ∧
      judgedAndActed .list (str "/.") = some (str "/vh", str "/") ∧
      judgedAndActed .list (str "/") = some (str "/.", str "/team") ∧
      teamEngine.vaultPathToFusePath (str "/.") = str "/" := by
  decide +kernel

theorem judged_path_acted_on_iff_folder :
    Located (str "team") (str "a/../docs//x/") ∧
      Agrees teamEngine (Mutation.fusePath teamEngine (str "a/../docs//x/") .mkdir) (str "/docs/x/") := by
  have located : Located (str "team") (str "a/../docs//x/") :=
    ⟨by decide, str "docs", [str "x"], by decide +kernel, by decide⟩
  have accepted : Exists fun target =>
      resolveTarget twoVaults (pathRequest .touch 1 (teamEngine.vaultPathToFusePath (str "a/../docs//x/"))) = .ok target ∧
        target.context.vaultPath = str "/docs/x/" :=
    ⟨_, by rfl, by decide +kernel⟩
  rcases accepted with ⟨target, isTarget, judged⟩
  refine ⟨located, judged ▸ ?_⟩
  exact (judged_path_acted_on_iff mountedAt teamVault (str "a/../docs//x/")).mpr located twoVaults .touch target .mkdir
    (by rfl) isTarget

end Evaluator
end Access
end Vaulthalla
