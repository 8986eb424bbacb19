import Vaulthalla.Foundation.ByteString

namespace Vaulthalla
namespace Upstream
namespace Lifecycle

open Foundation List Option

/-!
# The lifecycle rule of a bucket

A change is merged into the rule that Vaulthalla owns, and every other rule of
the bucket is written back as it was read.  The result is flagged as destructive
when it needs a person's consent because it deletes more, or sooner.
-/

/-- A rule as it was parsed.  A rule is foreign when it is not ours, and unmodeled when it
has elements that these fields do not carry. -/
structure LifecycleRule where
  id : Str
  enabled : Bool
  keyPrefix : Str
  (abortIncompleteMultipartDays expireCurrentDays expireNoncurrentDays : Option Nat)
  (foreign unmodeled : Bool)
  rawXml : Str

/-- A patch of the owned rule: an absent field is left as it is. -/
structure OwnedRuleChange where
  (abortIncompleteMultipartDays expireCurrentDays expireNoncurrentDays : Option Nat)
  keyPrefix : Option Str
  clear : Bool

/-- The rules to write back, the owned one among them if it is left, and the two flags
that the caller asks for consent by. -/
structure MergeResult where
  rules : List LifecycleRule
  owned : Option LifecycleRule
  (changed destructive : Bool)

inductive MergeError
  | invalidArgument (text : Str)
  | unmodeledOwnedRule (text : Str)

/-- The id by which Vaulthalla knows its own rule in a bucket that others configure too. -/
def kOwnedRuleId : Str := str "vaulthalla-managed"

section

variable (rule : LifecycleRule)

def LifecycleRule.isOwned : Bool :=
  rule.id = kOwnedRuleId && !rule.foreign

/-- A rule that only aborts incomplete uploads deletes no object. -/
def LifecycleRule.destructive : Bool :=
  rule.expireCurrentDays.isSome || rule.expireNoncurrentDays.isSome

def LifecycleRule.hasAction : Bool :=
  rule.abortIncompleteMultipartDays.isSome || rule.destructive

end

/-- A field after the patch: absent keeps it, 0 removes it. -/
def patched (current : Option Nat) : Option Nat -> Option Nat
  | none => current
  | some 0 => none
  | some days => some days

/-- An expiration appears, or its term becomes shorter. -/
def tightened (before : Option Nat) : Option Nat -> Bool
  | none => false
  | some days => before.all fun former => days < former

section

variable (current : List LifecycleRule) (change : OwnedRuleChange) (before : Option LifecycleRule)
  (rule : LifecycleRule)

/-- The owned rule after the patch.  It is enabled in any case, and loses the XML it was read from. -/
def OwnedRuleChange.apply : LifecycleRule :=
  let rule := before.getD ⟨[], true, [], none, none, none, false, false, []⟩
  { id := kOwnedRuleId
    enabled := true
    keyPrefix := change.keyPrefix.getD rule.keyPrefix
    abortIncompleteMultipartDays := patched rule.abortIncompleteMultipartDays change.abortIncompleteMultipartDays
    expireCurrentDays := patched rule.expireCurrentDays change.expireCurrentDays
    expireNoncurrentDays := patched rule.expireNoncurrentDays change.expireNoncurrentDays
    foreign := false
    unmodeled := rule.unmodeled
    rawXml := [] }

/-- The four ways in which the rule may delete more or sooner than before.  A rule that
was disabled deleted nothing, whatever its terms were. -/
def isDestructive : Bool :=
  tightened (before.bind LifecycleRule.expireCurrentDays) rule.expireCurrentDays ||
    tightened (before.bind LifecycleRule.expireNoncurrentDays) rule.expireNoncurrentDays ||
    before.any (fun former => rule.destructive && former.keyPrefix ≠ rule.keyPrefix) ||
    before.any fun former => !former.enabled && rule.destructive

/-- There was no rule, or a field that the patch can set differs from it. -/
def isChanged : Bool :=
  before.all fun former =>
    former.abortIncompleteMultipartDays ≠ rule.abortIncompleteMultipartDays ||
      former.expireCurrentDays ≠ rule.expireCurrentDays ||
      former.expireNoncurrentDays ≠ rule.expireNoncurrentDays || former.keyPrefix ≠ rule.keyPrefix || !former.enabled

/-- The rule that is patched: the last of those with the id. -/
def ownedBefore : Option LifecycleRule :=
  (current.filter LifecycleRule.isOwned).getLast?

def others : List LifecycleRule :=
  current.filter fun rule => !rule.isOwned

/-- The checks are made in this order, so a patch with `clear` also removes an owned rule
that was edited outside Vaulthalla. -/
def mergeOwnedRule (allowNoncurrent : Bool) : Except MergeError MergeResult :=
  let before := ownedBefore current
  let rule := change.apply before
  if change.expireNoncurrentDays.any (fun days => 0 < days) && !allowNoncurrent then
    .error (.invalidArgument
      (str "this provider has no object versions: noncurrent-version expiration is not supported"))
  else if change.clear then .ok ⟨others current, none, before.isSome, false⟩
  else if before.any LifecycleRule.unmodeled then
    .error (.unmodeledOwnedRule (str ("the bucket's 'vaulthalla-managed' lifecycle rule was changed outside " ++
      "Vaulthalla (it has filters or actions Vaulthalla doesn't manage); rewriting it would " ++
      "change what it does. Remove it (clear) or edit it with the provider.")))
  else if !rule.hasAction then .ok ⟨others current, none, before.isSome, false⟩
  else .ok ⟨others current ++ [rule], some rule, isChanged before rule, isDestructive before rule⟩

end

/-! ## What rules delete -/

/-- The two kinds of expiration, of objects and of their noncurrent versions. -/
inductive Expiry
  | current | noncurrent

def LifecycleRule.days (rule : LifecycleRule) : Expiry -> Option Nat
  | .current => rule.expireCurrentDays
  | .noncurrent => rule.expireNoncurrentDays

/-- The rule deletes the object, or the noncurrent version, of the key at the given age.  Rules of others, and rules
with elements that the fields do not carry, delete whatever their provider makes of them. -/
def LifecycleRule.Deletes (elsewhere : LifecycleRule -> Expiry -> Str -> Nat -> Prop) (rule : LifecycleRule)
    (expiry : Expiry) (key : Str) (age : Nat) : Prop :=
  if rule.foreign || rule.unmodeled then elsewhere rule expiry key age
  else rule.enabled = true ∧ rule.keyPrefix <+: key ∧ rule.days expiry = some age

section Merging

variable {current : List LifecycleRule} {change : OwnedRuleChange} {before : Option LifecycleRule}
  {rule : LifecycleRule}

theorem patched_patched (days patch : Option Nat) : patched (patched days patch) patch = patched days patch := by
  rcases patch with _ | _ | patch <;> rfl

/-- A patch that was applied once changes nothing the second time: each field that it sets
has its value, and each that it removes is gone. -/
theorem apply_apply (change : OwnedRuleChange) (before : Option LifecycleRule) :
    change.apply (some (change.apply before)) = change.apply before := by
  have samePrefix old : change.keyPrefix.getD (change.keyPrefix.getD old) = change.keyPrefix.getD old := by
    cases change.keyPrefix <;> rfl
  simp [OwnedRuleChange.apply, patched_patched, samePrefix]

/-- A patch that leaves no field in a rule leaves none in an empty one. -/
theorem patched_none {days patch : Option Nat} (removed : patched days patch = none) : patched none patch = none := by
  rcases patch with _ | _ | patch
  · rfl
  · rfl
  · cases removed

/-- A merge that drops the owned rule drops it again when it finds none. -/
theorem hasAction_apply_none (inactive : (change.apply before).hasAction = false) :
    (change.apply none).hasAction = false := by
  simp only [LifecycleRule.hasAction, LifecycleRule.destructive, Bool.or_eq_false_iff, isSome_eq_false_iff,
    isNone_iff_eq_none] at inactive ⊢
  exact ⟨patched_none inactive.1, patched_none inactive.2.1, patched_none inactive.2.2⟩

/-- What the owned rule deletes was deleted by the one before, unless the merge is flagged. -/
theorem deleted_before (harmless : isDestructive before rule = false) {expiry : Expiry} {age : Nat}
    (expires : rule.days expiry = some age) :
    Exists fun former => before = some former ∧ former.enabled ∧ former.keyPrefix = rule.keyPrefix ∧
      Exists fun earlier => earlier ≤ age ∧ former.days expiry = some earlier := by
  have deletes : rule.destructive := by
    cases expiry <;> simp_all [LifecycleRule.destructive, LifecycleRule.days]
  cases before with
  | none => cases expiry <;> simp_all [isDestructive, tightened, LifecycleRule.days]
  | some former =>
    simp only [isDestructive, deletes, Bool.or_eq_false_iff] at harmless
    rcases harmless with ⟨⟨kept, samePrefix⟩, stillEnabled⟩
    refine ⟨former, rfl, by simpa using stillEnabled, by simpa using samePrefix, ?_⟩
    have kept : tightened (former.days expiry) (some age) = false := by
      cases expiry with
      | current => exact expires ▸ kept.1
      | noncurrent => exact expires ▸ kept.2
    cases isEarlier : former.days expiry with
    | none => simp [isEarlier, tightened] at kept
    | some earlier => exact ⟨earlier, by simpa [isEarlier, tightened] using kept, rfl⟩

end Merging

/-- A merge leaves the other rules as they are, is idempotent, and deletes no more and no sooner when it is not
flagged as destructive. -/
theorem merge_is_honest (elsewhere : LifecycleRule -> Expiry -> Str -> Nat -> Prop) (current : List LifecycleRule)
    (change : OwnedRuleChange) (allowNoncurrent : Bool) (result : MergeResult)
    (merged : mergeOwnedRule current change allowNoncurrent = .ok result) :
    others result.rules = others current ∧
      (Exists fun again => mergeOwnedRule result.rules change allowNoncurrent = .ok again ∧ again.changed = false) ∧
      (result.destructive = false -> forall rule expiry key age, rule ∈ result.rules ->
        rule.Deletes elsewhere expiry key age -> Exists fun former => Exists fun earlier =>
          former ∈ current ∧ earlier ≤ age ∧ former.Deletes elsewhere expiry key earlier) := by
  have same : others (others current) = others current := by simp [others]
  have noOwned : ownedBefore (others current) = none := by simp [ownedBefore, others]
  have kept rule expiry key age (isOther : rule ∈ others current)
      (deletes : rule.Deletes elsewhere expiry key age) : Exists fun former => Exists fun earlier =>
        former ∈ current ∧ earlier ≤ age ∧ former.Deletes elsewhere expiry key earlier :=
    ⟨rule, age, mem_of_mem_filter isOther, Nat.le_refl age, deletes⟩
  simp only [mergeOwnedRule] at merged
  split at merged
  · cases merged
  split at merged
  case isTrue allowed clears =>
    cases merged
    refine ⟨same, ⟨⟨others current, none, false, false⟩, ?_, rfl⟩, fun _ => kept⟩
    simp [mergeOwnedRule, allowed, clears, noOwned, same]
  split at merged
  · cases merged
  split at merged
  case isTrue allowed keeps _ inactive =>
    cases merged
    have stillInactive := hasAction_apply_none (by simpa using inactive)
    refine ⟨same, ⟨⟨others current, none, false, false⟩, ?_, rfl⟩, fun _ => kept⟩
    simp [mergeOwnedRule, allowed, keeps, noOwned, same, stillInactive]
  case isFalse allowed keeps modeled active =>
    cases merged
    have isModeled : (change.apply (ownedBefore current)).unmodeled = false := by
      cases isBefore : ownedBefore current <;> simp_all [OwnedRuleChange.apply]
    have isOurs : (change.apply (ownedBefore current)).enabled = true ∧
        (change.apply (ownedBefore current)).foreign = false := ⟨rfl, rfl⟩
    have isOwned : (change.apply (ownedBefore current)).isOwned = true := by
      simp [LifecycleRule.isOwned, OwnedRuleChange.apply]
    have applied := apply_apply change (ownedBefore current)
    generalize change.apply (ownedBefore current) = rule at *
    have same : others (others current ++ [rule]) = others current := by simp [others, isOwned]
    have isBefore : ownedBefore (others current ++ [rule]) = some rule := by simp [ownedBefore, others, isOwned]
    refine ⟨same, ⟨⟨others current ++ [rule], some rule, isChanged (some rule) rule, isDestructive (some rule) rule⟩,
      ?_, ?_⟩, ?_⟩
    · simp [mergeOwnedRule, allowed, keeps, isBefore, isModeled, applied, active, same]
    · simp [isChanged, isOurs]
    · intro harmless other expiry key age isRule deletes
      rcases mem_append.mp isRule with isOther | isNew
      · exact kept other expiry key age isOther deletes
      · rw [mem_singleton.mp isNew, LifecycleRule.Deletes, isModeled, isOurs.2] at deletes
        rcases deleted_before harmless deletes.2.2 with ⟨former, isFormer, enabled, samePrefix, earlier, atMost, expires⟩
        rcases mem_filter.mp (mem_of_getLast? isFormer) with ⟨inside, isOwned⟩
        have isOurs : former.foreign = false := by simp_all [LifecycleRule.isOwned]
        have isModeled : former.unmodeled = false := by simpa [isFormer] using modeled
        refine ⟨former, earlier, inside, atMost, ?_⟩
        rw [LifecycleRule.Deletes, isModeled, isOurs]
        exact ⟨enabled, samePrefix ▸ deletes.2.1, expires⟩

/-- A rule that expires the objects below a prefix. -/
def expiring (id keyPrefix : Str) (days : Nat) (foreign : Bool) : LifecycleRule :=
  ⟨id, true, keyPrefix, none, some days, none, foreign, false, []⟩

/-- Beside a rule of someone else, our expiration is put off from 30 days to 60: nothing is flagged, and what is deleted
at 60 days was deleted before. -/
theorem merge_is_honest_relaxed :
    let logs := expiring (str "logs") (str "logs/") 7 true
    let current := [logs, expiring kOwnedRuleId [] 30 false]
    Exists fun result => mergeOwnedRule current ⟨none, some 60, none, none, false⟩ true = .ok result ∧
      result.rules = [logs, expiring kOwnedRuleId [] 60 false] ∧ result.changed = true ∧ others result.rules = [logs] ∧
      Exists fun former => Exists fun earlier => former ∈ current ∧ earlier ≤ 60 ∧
        former.Deletes (fun _ _ _ _ => False) .current (str "a") earlier := by
  intro logs current
  have honest := merge_is_honest (fun _ _ _ _ => False) current ⟨none, some 60, none, none, false⟩ true _ rfl
  refine ⟨_, rfl, rfl, rfl, honest.1, honest.2.2 rfl (expiring kOwnedRuleId [] 60 false) .current (str "a") 60 ?_ ?_⟩
  · exact .tail _ (.head _)
  · exact ⟨rfl, nil_prefix, rfl⟩

end Lifecycle
end Upstream
end Vaulthalla
