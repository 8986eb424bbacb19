import Mathlib.Algebra.Group.Nat.Defs
import Mathlib.Data.List.AList
import Vaulthalla.Foundation.SortedKeys
import Vaulthalla.Sync.Baseline
import Vaulthalla.Sync.RemotePolicy

namespace Vaulthalla
namespace Sync

open Foundation

/-!
# The sync planner

`Planner::build` turns the state of a pass into a list of actions.  The pass
holds one map of files per side, the baselines and open conflicts of the
vault, the keys removed upstream and, for an event-driven pass, its scope.
The unordered maps of the source are association lists with distinct keys;
their order is the unspecified iteration order of the source.

The main loop visits every key of either map once and in order.  Besides
pushing actions it writes to the conflict state of the pass: a conflict closed
for one key no longer counts as open for a later key of the same file id.
This state is passed along explicitly.  The engine's own policy, which
`handleConflict` consults, is the policy the caller hands to `build`.
-/

/-! ## The state of a pass -/

/-- One side of a recorded conflict, with the fields that identify its content. -/
structure ConflictSide where
  sizeBytes : Nat
  (contentHash etag : Option Str)

structure ConflictRecord where
  id : Nat
  (localSide remoteSide : ConflictSide)

structure ConflictReason where
  (code message : Str)

/-- A conflict found by the pass.  `id` is that of the open row it refreshes, zero for a new one. -/
structure Conflict where
  (id fileId : Nat)
  (localFile upstream : File)
  reasons : List ConflictReason

structure ConflictPassWrites where
  baselines : List Baseline
  opened : List Conflict
  closed : List (Nat × Str)

structure PassScope where
  changed : List Str

structure Cloud where
  localMap : AList (fun _ : Str => File)
  s3Map : AList (fun _ : Str => File)
  baselines : AList (fun _ : Nat => Baseline)
  openConflicts : AList (fun _ : Nat => ConflictRecord)
  conflictWrites : ConflictPassWrites
  scope : Option PassScope
  removedKeys : List Str
  (downloadedBytes freeSpace : Nat)

structure Action where
  type : ActionType
  key : Str
  (localFile remote : Option File)
  freeAfterDownload : Bool := false
deriving DecidableEq

/-- What the main loop carries from key to key. -/
structure PlanState where
  plan : List Action
  archiveTierDownloadsSkipped : Nat
  writes : ConflictPassWrites
  eventConflicts : List Conflict

namespace PlanState

def push (state : PlanState) (action : Action) : PlanState :=
  { state with plan := state.plan ++ [action] }

def skipArchived (state : PlanState) : PlanState :=
  { state with archiveTierDownloadsSkipped := state.archiveTierDownloadsSkipped + 1 }

end PlanState

namespace Cloud

section

variable (ctx : Cloud)

def allKeysSorted : List Str :=
  SortedKeys.sortedUnique (fun first second : Str => first ≤ second) (ctx.localMap.keys ++ ctx.s3Map.keys)

def baselineFor (fileId : Nat) : Option Baseline :=
  ctx.baselines.lookup fileId

/-- `hasOpenConflict`, with the conflicts this pass has closed so far. -/
def hasOpenConflict (writes : ConflictPassWrites) (fileId : Nat) : Bool :=
  (ctx.openConflicts.lookup fileId).isSome && writes.closed.all (fun entry => entry.1 != fileId)

def closeOpenConflict (state : PlanState) (fileId : Nat) (resolution : Str) : PlanState :=
  if !ctx.hasOpenConflict state.writes fileId then state
  else { state with writes := { state.writes with closed := state.writes.closed ++ [(fileId, resolution)] } }

def noteInSync (state : PlanState) (localFile remote : File) : PlanState :=
  if localFile.id = 0 then state
  else
    let settled := ctx.closeOpenConflict state localFile.id (str "converged")
    let agreed := Baseline.agreed localFile remote
    if (ctx.baselineFor localFile.id).any (fun current => current.sameAs agreed) then settled
    else { settled with writes := { settled.writes with baselines := settled.writes.baselines ++ [agreed] } }

end

/-! ## Conflicts -/

section

variable (localFile upstream : File)

def hasPotentialConflict (upstreamDecryptionFailure : Bool) : Bool :=
  if upstreamDecryptionFailure then true
  else if localFile.sizeBytes ≠ upstream.sizeBytes then true
  else
    match localFile.contentHash, upstream.contentHash with
    | some first, some second => first != second
    | _, _ => false

/-- `Conflict::analyze` at planning time, where no decryption has failed. -/
def analyze : List ConflictReason :=
  (match localFile.contentHash, upstream.contentHash with
    | some first, some second =>
      if first ≠ second then [{ code := str "hash_mismatch", message := str "Content hashes differ." }] else []
    | _, _ => []) ++
  (if localFile.sizeBytes ≠ upstream.sizeBytes then
    [{ code := str "size_mismatch", message := str "File sizes differ." }] else [])

def maybeBuildConflict : Option Conflict :=
  if !hasPotentialConflict localFile upstream false then none
  else
    let reasons := analyze localFile upstream
    if reasons.isEmpty then none
    else some { id := 0, fileId := localFile.id, localFile := localFile, upstream := upstream, reasons := reasons }

end

def sideMatches (side : ConflictSide) (hash : Option Str) (size : Nat) (etag : Option Str) : Bool :=
  match side.contentHash, hash with
  | some recorded, some now => recorded == now && side.sizeBytes == size
  | _, _ =>
    match side.etag, etag with
    | some recorded, some now => recorded == now
    | _, _ => side.sizeBytes == size && side.contentHash == hash

/-- `handleConflict`: the resolution, if the policy has one, and the state
with the conflict recorded, refreshed or closed.  Without a resolution the
file waits. -/
def handleConflict (ctx : Cloud) (policy : RemotePolicy) (state : PlanState) (conflict : Conflict) :
    Option Resolution × PlanState :=
  let noted := { state with eventConflicts := state.eventConflicts ++ [conflict] }
  match policy.resolveConflict conflict.localFile conflict.upstream with
  | some resolution =>
    (some resolution,
      if (ctx.openConflicts.lookup conflict.fileId).isSome then
        ctx.closeOpenConflict noted conflict.fileId resolution.toText
      else noted)
  | none =>
    match ctx.openConflicts.lookup conflict.fileId with
    | none => (none, { noted with writes := { noted.writes with opened := noted.writes.opened ++ [conflict] } })
    | some row =>
      let same :=
        sideMatches row.localSide conflict.localFile.contentHash conflict.localFile.sizeBytes none &&
          sideMatches row.remoteSide conflict.upstream.contentHash conflict.upstream.sizeBytes
            conflict.upstream.remoteEtag
      if same then (none, noted)
      else
        (none, { noted with
          writes := { noted.writes with opened := noted.writes.opened ++ [{ conflict with id := row.id }] } })

end Cloud

/-! ## The main loop -/

namespace Planner

/-- A download of an object whose body can be fetched; an archived one is only counted. -/
def pushDownload (state : PlanState) (key : Str) (localFile : Option File) (remote : File) : PlanState :=
  if remote.requiresArchiveRestoreForBodyGet then state.skipArchived
  else state.push { type := .download, key := key, localFile := localFile, remote := some remote }

def pushUpload (state : PlanState) (key : Str) (localFile : File) (remote : Option File) : PlanState :=
  state.push { type := .upload, key := key, localFile := some localFile, remote := remote }

variable (ctx : Cloud) (policy : RemotePolicy)

/-- A key that exists locally only. -/
def planLocalOnly (state : PlanState) (key : Str) (localFile : File) : PlanState :=
  let settled :=
    if ctx.hasOpenConflict state.writes localFile.id then
      ctx.closeOpenConflict state localFile.id (str "superseded")
    else state
  if ctx.removedKeys.contains key && policy.propagatesRemoteRemoval && !policy.deleteLocalLeftovers &&
      (ctx.baselineFor localFile.id).any (fun base => !localChangedSince localFile base) then
    settled.push { type := .deleteLocal, key := key, localFile := some localFile, remote := none }
  else if policy.uploadLocalOnly then pushUpload settled key localFile none
  else settled

section

variable (policy : RemotePolicy) (state : PlanState) (key : Str)

/-- A key that exists remotely only.  A cache only indexes it. -/
def planRemoteOnly (remote : File) : PlanState :=
  if policy.downloadRemoteOnly then
    if policy.strategy = .cache then
      state.push { type := .indexRemoteOnly, key := key, localFile := none, remote := some remote,
                   freeAfterDownload := true }
    else pushDownload state key none remote
  else state

/-- The decision by strategy, for a key on both sides that is not in conflict. -/
def planByPolicy (localFile remote : File) : PlanState :=
  match policy.decideForBoth localFile remote with
  | none => state
  | some .download => pushDownload state key (some localFile) remote
  | some type => state.push { type := type, key := key, localFile := some localFile, remote := some remote }

end

/-- An unequal pair: recorded if it stays unresolved, transferred as the policy resolves it. -/
def planConflict (state : PlanState) (key : Str) (localFile remote : File) : PlanState :=
  match Cloud.maybeBuildConflict localFile remote with
  | none => planByPolicy policy state key localFile remote
  | some conflict =>
    match ctx.handleConflict policy state conflict with
    | (none, waiting) => waiting
    | (some .keptLocal, settled) => pushUpload settled key localFile (some remote)
    | (some .keptRemote, settled) =>
      settled.push { type := .download, key := key, localFile := some localFile, remote := some remote }

def scopeChanged (key : Str) : Bool :=
  ctx.scope.any (fun scope => scope.changed.contains key)

/-- The reading of an unequal pair against its baseline. -/
def divergenceOf (writes : ConflictPassWrites) (key : Str) (localFile remote : File) : Divergence :=
  let divergence :=
    if ctx.hasOpenConflict writes localFile.id then .unknown
    else classify localFile remote (ctx.baselineFor localFile.id)
  if scopeChanged ctx key && divergence == .localOnly then .both else divergence

section

variable (ctx : Cloud) (policy : RemotePolicy) (state : PlanState) (key : Str)

/-- A key that exists on both sides with different content. -/
def planDifferent (localFile remote : File) : PlanState :=
  let asked := policy.conflictPolicy == .ask && !ctx.hasOpenConflict state.writes localFile.id
  match divergenceOf ctx state.writes key localFile remote with
  | .inSync => state
  | .localOnly =>
    if asked then pushUpload state key localFile (some remote)
    else planConflict ctx policy state key localFile remote
  | .remoteOnly =>
    if asked then pushDownload state key (some localFile) remote
    else planConflict ctx policy state key localFile remote
  | .both => planConflict ctx policy state key localFile remote
  | .unknown => planConflict ctx policy state key localFile remote

/-- A key that exists on both sides. -/
def planBoth (localFile remote : File) : PlanState :=
  let isOpen := ctx.hasOpenConflict state.writes localFile.id
  let base := ctx.baselineFor localFile.id
  if scopeChanged ctx key && !isOpen && base.any (fun base => !localChangedSince localFile base) then
    -- An event said the object was overwritten, and nobody changed the local copy.
    pushDownload state key (some localFile) remote
  else if !isOpen && base.any (fun base => base.publishing && !remoteChangedSince remote base) then
    -- An interrupted replay of the file's own history is finished under every policy.
    pushUpload state key localFile (some remote)
  else if localFile.equal remote then ctx.noteInSync state localFile remote
  else if !Cloud.hasPotentialConflict localFile remote false then
    -- Same content for conflict purposes; differences in metadata still go to the policy.
    planByPolicy policy (ctx.noteInSync state localFile remote) key localFile remote
  else planDifferent ctx policy state key localFile remote

/-- One turn of the main loop. -/
def planKey : PlanState :=
  match ctx.localMap.lookup key, ctx.s3Map.lookup key with
  | some localFile, none => planLocalOnly ctx policy state key localFile
  | none, some remote => planRemoteOnly policy state key remote
  | some localFile, some remote => planBoth ctx policy state key localFile remote
  | none, none => state

end

/-! ## Leftovers and the space check -/

def remoteLeftovers : List Action :=
  if policy.deleteRemoteLeftovers then
    (ctx.s3Map.entries.filter fun entry => (ctx.localMap.lookup entry.1).isNone).map fun entry =>
      { type := .deleteRemote, key := entry.1, localFile := none, remote := some entry.2 }
  else []

def localLeftovers : List Action :=
  if policy.deleteLocalLeftovers then
    (ctx.localMap.entries.filter fun entry => (ctx.s3Map.lookup entry.1).isNone).map fun entry =>
      { type := .deleteLocal, key := entry.1, localFile := some entry.2, remote := none }
  else []

inductive PlanError
  | requestBudgetExceeded (message : Str)
  | notEnoughFreeSpace (message : Str)
deriving DecidableEq

/-- The files whose bodies a plan fetches and keeps. -/
def plannedDownloads (plan : List Action) : List File :=
  (plan.filter fun action => action.type == .download && !action.freeAfterDownload).filterMap fun action =>
    action.remote <|> action.localFile

/-- The byte count of the planned downloads, in the width of `uintmax_t`. -/
def requiredBytes (downloads : List File) : Nat :=
  downloads.foldl (fun total file => (total + file.sizeBytes) % 2 ^ 64) 0

def budgetMessage (planned remaining : Nat) : Str :=
  str "S3 downloaded-byte budget would be exceeded by planned body downloads. Planned: " ++
    str (toString planned) ++ str ", Remaining: " ++ str (toString remaining)

def spaceMessage (required available : Nat) : Str :=
  str "[RemotePolicy::preflightSpaceForPlan] Not enough free space. Required: " ++
    str (toString required) ++ str ", Available: " ++ str (toString available)

section

variable (ctx : Cloud) (policy : RemotePolicy)

def preflightSpaceForPlan (plan : List Action) : Except PlanError Unit :=
  let downloads := plannedDownloads plan
  let required := requiredBytes downloads
  let remaining := policy.maxDownloadedBytes.map fun limit => limit - ctx.downloadedBytes
  if downloads.isEmpty then .ok ()
  else if remaining.any (fun remaining => required > remaining) then
    .error (.requestBudgetExceeded (budgetMessage required (remaining.getD 0)))
  else if ctx.freeSpace ≥ required then .ok ()
  else .error (.notEnoughFreeSpace (spaceMessage required ctx.freeSpace))

/-- The state in which the main loop starts. -/
def start : PlanState :=
  { plan :=
      if policy.wantsEnsureDirectories then
        [{ type := .ensureDirectories, key := [], localFile := none, remote := none }]
      else []
    archiveTierDownloadsSkipped := 0
    writes := ctx.conflictWrites
    eventConflicts := [] }

/-- The state after the main loop. -/
def planKeys : PlanState :=
  ctx.allKeysSorted.foldl (planKey ctx policy) (start ctx policy)

def assemble : List Action :=
  (planKeys ctx policy).plan ++ remoteLeftovers ctx policy ++ localLeftovers ctx policy

/-- `Planner::build`. -/
def build : Except PlanError (List Action) := do
  let plan := assemble ctx policy
  preflightSpaceForPlan ctx policy plan
  return plan

end

theorem build_eq_assemble {ctx : Cloud} {policy : RemotePolicy} {plan : List Action}
    (built : build ctx policy = .ok plan) : plan = assemble ctx policy := by
  cases space : preflightSpaceForPlan ctx policy (assemble ctx policy) with
  | error reason => simp [build, space, bind, Except.bind] at built
  | ok done => simpa [build, space, bind, Except.bind, pure, Except.pure] using built.symm

end Planner
end Sync
end Vaulthalla
