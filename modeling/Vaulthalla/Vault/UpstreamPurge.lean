import Vaulthalla.Foundation.ByteString
import Vaulthalla.Foundation.Transition

namespace Vaulthalla
namespace Vault
namespace UpstreamPurge

open Foundation Function

/-!
# Emptying the bucket of a deleted vault

The purge of an S3 vault whose deletion asks for it reads the binding of the
vault, asks whether anything forbids the deletion of its objects, and then
lists the bucket from the start and deletes what each page names, until a page
is empty or the share of the pass is used up.  The question for other vaults on
the bucket is one query, made once in each pass.

Vaults are created, bound to other buckets, deleted, restored and removed at
any time, and their API keys are changed and dropped.  The only thing that the
tables forbid is that two vaults have the same API key and the same bucket.
The pass mutex admits one pass at a time, and a pass may end after any step.

What a server has under a bucket name is one bucket, however the endpoint of
the server is spelled.  Each object carries the vault that wrote it, if a vault
did.
-/

/-! ## Rows -/

/-- The columns of `api_keys` that say where a request goes. -/
structure KeyRow where
  endpoint : Option Str
  region : Str
  /-- What answers at the endpoint.  Texts that differ, as in their case, may lead to one server. -/
  server : Str

structure Place where
  (server bucket : Str)
deriving DecidableEq

/-- A row of `s3`. -/
structure Binding (ApiKey : Type) where
  key : ApiKey
  bucket : Str
deriving DecidableEq

inductive Stage
  | absent | live
  /-- Deleted, with a pending record. -/
  | pending
  /-- Claimed by a pass. -/
  | purging | gone
deriving DecidableEq

/-- A vault with its binding, its deletion record and the ownership of its bucket. -/
structure VaultRow (ApiKey : Type) where
  stage : Stage
  binding : Option (Binding ApiKey)
  (deleteUpstream upstreamPurged adopted : Bool)

structure Object (Vault : Type) where
  key : Str
  writer : Option Vault
deriving DecidableEq

/-- A deletion by a pass: the vault that is purged and the object that went. -/
structure Erasure (Vault : Type) where
  vault : Vault
  object : Object Vault
deriving DecidableEq

/-! ## Passes -/

/-- Where the pass stands with the vault that it has claimed. -/
inductive Control (Vault ApiKey : Type)
  | idle
  | claimed (vault : Vault)
  /-- The binding is read, and neither protection nor adoption forbids the deletion. -/
  | examined (vault : Vault) (binding : Binding ApiKey)
  /-- No other vault uses the bucket. -/
  | cleared (vault : Vault) (binding : Binding ApiKey)
  /-- The controller is there.  The keys of the page that are still to be deleted. -/
  | emptying (vault : Vault) (place : Place) (page : List Str)
  | emptied (vault : Vault)
  /-- Only the backing data and `finishPurge` are left. -/
  | finishing (vault : Vault)

inductive PassEvent (Vault : Type)
  | claim (vault : Vault)
  | examine | checkOthers | connect | list | deleteNext | markUpstreamPurged | finishPurge
  /-- The share is used up, a step throws, or the process dies. -/
  | stop

inductive Label (Vault ApiKey : Type)
  | setKey (key : ApiKey) (row : KeyRow)
  | dropKey (key : ApiKey)
  | protect (place : Place) (isProtected : Bool)
  | create (vault : Vault) (binding : Binding ApiKey)
  | rebind (vault : Vault) (binding : Binding ApiKey)
  | setAdopted (vault : Vault) (adopted : Bool)
  | schedule (vault : Vault) (deleteUpstream : Bool)
  | restore (vault : Vault)
  | expedite (vault : Vault) (deleteUpstream : Bool)
  | remove (vault : Vault)
  | write (vault : Vault) (key : Str)
  /-- An object that no vault wrote. -/
  | foreignWrite (place : Place) (key : Str)
  /-- A deletion that no pass makes. -/
  | erase (place : Place) (key : Str)
  | pass (event : PassEvent Vault)

/-- `ids` are the vaults that were ever created. -/
structure State (Vault ApiKey : Type) where
  keys : ApiKey -> Option KeyRow
  vaults : Vault -> VaultRow ApiKey
  ids : List Vault
  isProtected : Place -> Bool
  objects : Place -> List (Object Vault)
  pass : Control Vault ApiKey
  erased : List (Erasure Vault)

/-- The page size of `listObjectKeysPage`. -/
def pageSize : Nat := 1000

/-- Where a vault with this binding reads and writes. -/
def placeOf {ApiKey : Type} (keys : ApiKey -> Option KeyRow) (binding : Binding ApiKey) : Option Place :=
  (keys binding.key).map fun row => { server := row.server, bucket := binding.bucket }

namespace State

variable {Vault ApiKey : Type}

def place (state : State Vault ApiKey) (vault : Vault) : Option Place :=
  (state.vaults vault).binding.bind (placeOf state.keys)

variable [DecidableEq Vault] [DecidableEq ApiKey]

section

variable (state : State Vault ApiKey)

def setVault (vault : Vault) (row : VaultRow ApiKey) : State Vault ApiKey :=
  { state with vaults := update state.vaults vault row }

/-- `UNIQUE (api_key_id, bucket)`. -/
def bindable (vault : Vault) (binding : Binding ApiKey) : Bool :=
  state.ids.all fun other => other == vault || (state.vaults other).binding != some binding

/-- The join of `otherVaultsOnBucket` takes another vault for this binding. -/
def sharesBucket (mine : Binding ApiKey) (other : Vault) : Bool :=
  (state.vaults other).binding.any fun binding =>
    binding.bucket == mine.bucket &&
      (state.keys binding.key).any fun theirKey => (state.keys mine.key).any fun myKey =>
        theirKey.endpoint.getD [] == myKey.endpoint.getD [] && theirKey.region == myKey.region

/-- `Deletion::otherVaultsOnBucket`. -/
def otherVaultsOnBucket (vault : Vault) : List Vault :=
  match (state.vaults vault).binding with
  | none => []
  | some mine => state.ids.filter fun other => other != vault && state.sharesBucket mine other

def putObject (place : Place) (object : Object Vault) : State Vault ApiKey :=
  { state with
    objects := update state.objects place
      (object :: (state.objects place).filter fun other => other.key != object.key) }

def eraseObject (place : Place) (key : Str) : State Vault ApiKey :=
  { state with
    objects := update state.objects place ((state.objects place).filter fun object => object.key != key) }

/-- A deletion by a pass, with what it deletes. -/
def purgeObject (vault : Vault) (place : Place) (key : Str) : State Vault ApiKey :=
  { state.eraseObject place key with
    erased := ((state.objects place).filter fun object => object.key == key).map (fun object => ⟨vault, object⟩) ++
      state.erased }

end

/-! ## Steps -/

/-- One step of the pass. -/
def passStep (state : State Vault ApiKey) (event : PassEvent Vault) : Option (State Vault ApiKey) :=
  match state.pass, event with
  | .idle, .claim vault =>
    let row := state.vaults vault
    if row.stage = .pending ∨ row.stage = .purging then
      some { state.setVault vault { row with stage := .purging } with
        pass := if row.deleteUpstream && !row.upstreamPurged then .claimed vault else .finishing vault }
    else none
  | .claimed vault, .examine =>
    let row := state.vaults vault
    let allowed := row.binding.filter fun binding =>
      binding.bucket != [] && (placeOf state.keys binding).any (fun place => !state.isProtected place) && !row.adopted
    match allowed with
    | none => some { state with pass := .finishing vault }
    | some binding => some { state with pass := .examined vault binding }
  | .examined vault binding, .checkOthers =>
    if state.otherVaultsOnBucket vault = [] then some { state with pass := .cleared vault binding }
    else some { state with pass := .finishing vault }
  | .cleared vault binding, .connect =>
    match placeOf state.keys binding with
    | none => some { state with pass := .idle }
    | some place => some { state with pass := .emptying vault place [] }
  | .emptying vault place [], .list =>
    match ((state.objects place).map Object.key).take pageSize with
    | [] => some { state with pass := .emptied vault }
    | key :: rest => some { state with pass := .emptying vault place (key :: rest) }
  | .emptying vault place (key :: rest), .deleteNext =>
    some { state.purgeObject vault place key with pass := .emptying vault place rest }
  | .emptied vault, .markUpstreamPurged =>
    some { state.setVault vault { state.vaults vault with upstreamPurged := true } with pass := .finishing vault }
  | .finishing vault, .finishPurge =>
    some { state.setVault vault { state.vaults vault with stage := .gone, binding := none } with pass := .idle }
  | _, .stop => some { state with pass := .idle }
  | _, _ => none

def step (state : State Vault ApiKey) (label : Label Vault ApiKey) : Option (State Vault ApiKey) :=
  match label with
  | .setKey key row => some { state with keys := update state.keys key (some row) }
  | .dropKey key =>
    -- the rows of s3 go with the key
    some { state with
      keys := update state.keys key none
      vaults := fun vault =>
        { state.vaults vault with binding := (state.vaults vault).binding.filter fun binding => binding.key ≠ key } }
  | .protect place isProtected => some { state with isProtected := update state.isProtected place isProtected }
  | .create vault binding =>
    if (state.vaults vault).stage = .absent ∧ state.bindable vault binding = true then
      some { state.setVault vault
          { stage := .live, binding := some binding, deleteUpstream := false, upstreamPurged := false
            adopted := false } with
        ids := vault :: state.ids }
    else none
  | .rebind vault binding =>
    let row := state.vaults vault
    if vault ∈ state.ids ∧ row.stage ≠ .gone ∧ state.bindable vault binding = true then
      some (state.setVault vault { row with binding := some binding })
    else none
  | .setAdopted vault adopted => some (state.setVault vault { state.vaults vault with adopted := adopted })
  | .schedule vault deleteUpstream =>
    let row := state.vaults vault
    if row.stage = .live then
      some (state.setVault vault
        { row with stage := .pending, deleteUpstream := deleteUpstream, upstreamPurged := false })
    else none
  | .restore vault =>
    let row := state.vaults vault
    if row.stage = .pending then some (state.setVault vault { row with stage := .live }) else none
  | .expedite vault deleteUpstream =>
    let row := state.vaults vault
    if row.stage = .pending ∨ row.stage = .purging then
      some (state.setVault vault { row with deleteUpstream := deleteUpstream })
    else none
  | .remove vault =>
    let row := state.vaults vault
    if row.stage = .live then some (state.setVault vault { row with stage := .gone, binding := none }) else none
  | .write vault key => (state.place vault).map fun place => state.putObject place { key := key, writer := some vault }
  | .foreignWrite place key => some (state.putObject place { key := key, writer := none })
  | .erase place key => some (state.eraseObject place key)
  | .pass event => state.passStep event

end State

/-- No API keys and no vaults. -/
def initial {Vault ApiKey : Type} : State Vault ApiKey :=
  { keys := fun _ => none
    vaults := fun _ =>
      { stage := .absent, binding := none, deleteUpstream := false, upstreamPurged := false, adopted := false }
    ids := [], isProtected := fun _ => false, objects := fun _ => [], pass := .idle, erased := [] }

end UpstreamPurge
end Vault
end Vaulthalla
