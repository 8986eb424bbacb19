import Vaulthalla.Sync.File

namespace Vaulthalla
namespace Sync

open Foundation

/-!
# Remote sync policies

A policy is a strategy together with a rule for conflicts.  The predicates of
`RemotePolicy` decide what happens to a path that exists on one side only, and
`decideForBoth` gives the transfer for a path on both sides when no conflict
intervenes.  The latter looks at the modification times alone.
-/

inductive Strategy
  | cache | sync | mirror
deriving DecidableEq

inductive ConflictPolicy
  | keepLocal | keepRemote | keepNewest | ask
deriving DecidableEq

inductive ActionType
  | ensureDirectories | upload | download | indexRemoteOnly | deleteLocal | deleteRemote
deriving DecidableEq

inductive Resolution
  | keptLocal | keptRemote

def Resolution.toText : Resolution -> Str
  | keptLocal => str "kept_local"
  | keptRemote => str "kept_remote"

/-- A policy with the part of its request budget that planning reads. -/
structure RemotePolicy where
  strategy : Strategy
  conflictPolicy : ConflictPolicy
  maxDownloadedBytes : Option Nat

namespace RemotePolicy

section

variable (policy : RemotePolicy)

def wantsEnsureDirectories : Bool :=
  policy.strategy != .mirror

def downloadRemoteOnly : Bool :=
  match policy.strategy, policy.conflictPolicy with
  | .cache, _ => true
  | .sync, _ => true
  | .mirror, .keepRemote => true
  | .mirror, .keepLocal => false
  | .mirror, .keepNewest => true
  | .mirror, .ask => true

def uploadLocalOnly : Bool :=
  match policy.strategy, policy.conflictPolicy with
  | .cache, _ => true
  | .sync, _ => true
  | .mirror, .keepLocal => true
  | .mirror, .keepRemote => false
  | .mirror, .keepNewest => false
  | .mirror, .ask => false

def deleteRemoteLeftovers : Bool :=
  match policy.strategy, policy.conflictPolicy with
  | .mirror, .keepLocal => true
  | _, _ => false

def propagatesRemoteRemoval : Bool :=
  !(policy.strategy == .mirror && policy.conflictPolicy == .keepLocal)

def deleteLocalLeftovers : Bool :=
  match policy.strategy, policy.conflictPolicy with
  | .mirror, .keepRemote => true
  | _, _ => false

end

/-- The direction of the side modified last. -/
def newest (localTime remoteTime : Int) : Option ActionType :=
  if localTime > remoteTime then some .upload
  else if remoteTime > localTime then some .download
  else none

variable (policy : RemotePolicy)

def decideForBoth (localFile remote : File) : Option ActionType :=
  let unset := localFile.updatedAt = 0 ∨ remote.updatedAt = 0
  match policy.strategy with
  | .cache =>
    if unset then none
    else if remote.updatedAt > localFile.updatedAt then some .download
    else none
  | .sync =>
    if unset then some .download
    else newest localFile.updatedAt remote.updatedAt
  | .mirror =>
    match policy.conflictPolicy with
    | .keepLocal => some .upload
    | .keepRemote => some .download
    | .keepNewest => if unset then none else newest localFile.updatedAt remote.updatedAt
    | .ask => none

/-- `resolve_conflict`: the resolution the policy chooses, or nothing when the
conflict is left to the user. -/
def resolveConflict (localFile upstream : File) : Option Resolution :=
  match policy.conflictPolicy with
  | .ask => none
  | .keepLocal => some .keptLocal
  | .keepRemote => some .keptRemote
  | .keepNewest =>
    if localFile.updatedAt = 0 ∨ upstream.updatedAt = 0 then none
    else if localFile.updatedAt > upstream.updatedAt then some .keptLocal
    else some .keptRemote

/-! ## The two mirrors that delete -/

theorem deleteRemoteLeftovers_iff :
    policy.deleteRemoteLeftovers ↔
      policy.strategy = .mirror ∧ policy.conflictPolicy = .keepLocal := by
  rcases policy with ⟨strategy, conflictPolicy, _⟩
  cases strategy <;> cases conflictPolicy <;> simp [deleteRemoteLeftovers]

theorem deleteLocalLeftovers_iff :
    policy.deleteLocalLeftovers ↔
      policy.strategy = .mirror ∧ policy.conflictPolicy = .keepRemote := by
  rcases policy with ⟨strategy, conflictPolicy, _⟩
  cases strategy <;> cases conflictPolicy <;> simp [deleteLocalLeftovers]

variable {policy : RemotePolicy} {action : ActionType}

/-- A policy that deletes remote leftovers does not also download them. -/
theorem downloadRemoteOnly_of_deleteRemoteLeftovers (deletes : policy.deleteRemoteLeftovers) :
    policy.downloadRemoteOnly = false := by
  rcases (deleteRemoteLeftovers_iff policy).mp deletes with ⟨mirror, keepLocal⟩
  simp [downloadRemoteOnly, mirror, keepLocal]

/-- A policy that deletes local leftovers does not also upload them. -/
theorem uploadLocalOnly_of_deleteLocalLeftovers (deletes : policy.deleteLocalLeftovers) :
    policy.uploadLocalOnly = false := by
  rcases (deleteLocalLeftovers_iff policy).mp deletes with ⟨mirror, keepRemote⟩
  simp [uploadLocalOnly, mirror, keepRemote]

theorem newest_cases {localTime remoteTime : Int} (decided : newest localTime remoteTime = some action) :
    action = .upload ∨ action = .download := by
  unfold newest at decided
  split at decided
  · exact .inl (Option.some.inj decided).symm
  · split at decided
    · exact .inr (Option.some.inj decided).symm
    · simp at decided

/-- A path on both sides is only ever transferred. -/
theorem decideForBoth_cases {localFile remote : File} (decided : policy.decideForBoth localFile remote = some action) :
    action = .upload ∨ action = .download := by
  unfold decideForBoth at decided
  cases strategy : policy.strategy with
  | cache =>
    simp only [strategy] at decided
    split at decided
    · simp at decided
    split at decided
    · exact .inr (Option.some.inj decided).symm
    · simp at decided
  | sync =>
    simp only [strategy] at decided
    split at decided
    · exact .inr (Option.some.inj decided).symm
    · exact newest_cases decided
  | mirror =>
    simp only [strategy] at decided
    cases conflict : policy.conflictPolicy <;> simp only [conflict] at decided
    case keepLocal =>
      exact .inl (Option.some.inj decided).symm
    case keepRemote =>
      exact .inr (Option.some.inj decided).symm
    case keepNewest =>
      split at decided
      · simp at decided
      · exact newest_cases decided
    case ask => cases decided

end RemotePolicy
end Sync
end Vaulthalla
