import Vaulthalla.Foundation.Pool
import Vaulthalla.Foundation.Table
import Vaulthalla.Vault.ExportDocument
import Vaulthalla.Vault.KeyRows

namespace Vaulthalla
namespace Vault
namespace KeyImport

open Foundation KeyRotation KeyAttestation ExportDocument

/-!
# Imports of vault keys

`importKeys` in recover mode reads an export document, then what the database
holds and references of the vault, one query after the other, and decides about
each version of the document; at its end it writes the rows it has planned in
one transaction, each under the condition that the row is still what it has read.

Key rows are in three tables: the current one, the retired ones, and the copies
that are kept for a deleted vault.  Each row records the key check and the
attestation of its key once the daemon has unsealed it; `backfill` records them
whenever a row without them is unsealed, by an import too.

Any number of imports, rotations, first keys, backfills and changes of the other
records of the vault are interleaved.
-/

/-! ## Tables -/

structure Provenance where
  keyCheck : Str
  /-- Absent when signing has failed. -/
  attestation : Option Attestation
deriving DecidableEq

structure StoredKey (Sealed : Type) extends KeyRow Sealed where
  keyCheck : Option Str
  attestation : Option Attestation
deriving DecidableEq

structure RetiredKey (Sealed : Type) extends StoredKey Sealed where
  pending : Bool

inductive SealedTable
  | current | retired | deletionCopy
deriving DecidableEq

structure KeyTables (Sealed : Type) where
  current : Option (StoredKey Sealed)
  retired : Table (RetiredKey Sealed) fun row => row.version
  copies : Table (StoredKey Sealed) fun row => row.version

structure SealedWrite (Sealed : Type) where
  table : SealedTable
  version : Nat
  sealed : Sealed
  /-- What the row held when the import was planned, if there was one. -/
  expected : Option Sealed
  rotationPending : Bool
  provenance : Provenance
deriving DecidableEq

section Tables

variable {Sealed : Type}

def StoredKey.record (row : StoredKey Sealed) (provenance : Provenance) : StoredKey Sealed :=
  { row with keyCheck := some provenance.keyCheck, attestation := provenance.attestation }

def RetiredKey.record (row : RetiredKey Sealed) (provenance : Provenance) : RetiredKey Sealed :=
  { row with toStoredKey := row.toStoredKey.record provenance }

section

variable (tables : KeyTables Sealed)

/-- The row of a version in a table. -/
def KeyTables.row (table : SealedTable) (version : Nat) : Option (StoredKey Sealed) :=
  match table with
  | .current => tables.current.filter fun row => row.version = version
  | .retired => (tables.retired.find version).map RetiredKey.toStoredKey
  | .deletionCopy => tables.copies.find version

def KeyTables.rotationPendingKeyVersions : List Nat :=
  (tables.retired.rows.filter RetiredKey.pending).map fun row => row.version

/-- `UPDATE vault_keys_trashed SET rotation_completed_at …` -/
def KeyTables.markKeyRotationFinished : KeyTables Sealed :=
  { tables with retired := tables.retired.update (fun row => { row with pending := false }) fun _ => rfl }

def KeyTables.closeIf (close : Bool) : KeyTables Sealed :=
  if close then tables.markKeyRotationFinished else tables

/-- A vault's first key, unless it has one. -/
def KeyTables.addVaultKey (sealed : Sealed) (provenance : Option Provenance) : Option (KeyTables Sealed) :=
  match tables.current with
  | some _ => none
  | none =>
    let row : StoredKey Sealed := { version := 1, sealed := sealed, keyCheck := none, attestation := none }
    some { tables with current := some (provenance.elim row row.record) }

/-- The retired row of the outgoing version gets its provenance if it was never recorded. -/
def KeyTables.fillOutgoing (version : Nat) (provenance : Provenance) : KeyTables Sealed :=
  { tables with
    retired := tables.retired.update
      (fun row =>
        if row.version = version ∧ (row.keyCheck.isNone ∨ row.attestation.isNone) then row.record provenance else row)
      fun row => by split <;> rfl }

end

/-- A new current row; its provenance is recorded when it has the version it was computed for. -/
def newCurrent (version : Nat) (sealed : Sealed) (expected : Nat) (provenance : Option Provenance) : StoredKey Sealed :=
  let row : StoredKey Sealed := { version := version, sealed := sealed, keyCheck := none, attestation := none }
  if version = expected then provenance.elim row row.record else row

/-- The transaction `rotateVaultKey`, unless it throws. -/
def KeyTables.rotateVaultKey (tables : KeyTables Sealed) (sealed : Sealed) (expected : Nat)
    (provenance : Option Provenance) (outgoing : Option (Nat × Provenance)) (closePrior closeOutgoing : Bool) :
    Option (KeyTables Sealed) :=
  let prior := tables.closeIf closePrior
  let rotated :=
    match prior.current with
    | none =>
      -- no row to count from: the version is the caller's
      if expected = 0 then none
      else some { prior with current := some (newCurrent expected sealed expected provenance) }
    | some row =>
      (prior.retired.insert { row with pending := true }).map fun retired =>
        { prior with
          current := some (newCurrent (row.version + 1) sealed expected provenance)
          retired := retired }
  rotated.map fun after =>
    (outgoing.elim after fun named => after.fillOutgoing named.1 named.2).closeIf closeOutgoing

/-- The provenance of a row changes when its check is missing or another one, or it has no attestation yet and one is
offered. -/
def StoredKey.refresh [DecidableEq Sealed] (read : KeyRow Sealed) (provenance : Provenance) (row : StoredKey Sealed) :
    StoredKey Sealed :=
  if row.version = read.version ∧ row.sealed = read.sealed ∧
      (row.keyCheck ≠ some provenance.keyCheck ∨ (row.attestation.isNone ∧ provenance.attestation.isSome)) then
    row.record provenance
  else row

theorem StoredKey.toKeyRow_refresh [DecidableEq Sealed] (read : KeyRow Sealed) (provenance : Provenance)
    (row : StoredKey Sealed) : (row.refresh read provenance).toKeyRow = row.toKeyRow := by
  unfold StoredKey.refresh
  split <;> rfl

/-- `recordProvenance`: every row that holds exactly the sealed key that was read. -/
def KeyTables.recordProvenance [DecidableEq Sealed] (tables : KeyTables Sealed) (read : KeyRow Sealed)
    (provenance : Provenance) : KeyTables Sealed where
  current := tables.current.map fun row => row.refresh read provenance
  retired := tables.retired.update
    (fun row => { row with toStoredKey := row.toStoredKey.refresh read provenance })
    fun row => congrArg KeyRow.version (StoredKey.toKeyRow_refresh read provenance row.toStoredKey)
  copies := tables.copies.update (fun row => row.refresh read provenance)
    fun row => congrArg KeyRow.version (StoredKey.toKeyRow_refresh read provenance row)

/-! ## Writes -/

def SealedWrite.stored (write : SealedWrite Sealed) : StoredKey Sealed :=
  { version := write.version
    sealed := write.sealed
    keyCheck := some write.provenance.keyCheck
    attestation := write.provenance.attestation }

def StoredKey.reseal [DecidableEq Sealed] (write : SealedWrite Sealed) (row : StoredKey Sealed) : StoredKey Sealed :=
  if row.version = write.version then write.stored else row

theorem StoredKey.version_reseal [DecidableEq Sealed] (write : SealedWrite Sealed) (row : StoredKey Sealed) :
    (row.reseal write).version = row.version := by
  unfold StoredKey.reseal
  split
  case isTrue same => exact same.symm
  case isFalse => rfl

/-- One statement of `writeImported`, when it affects its row. -/
def writeSealed [DecidableEq Sealed] (tables : KeyTables Sealed) (write : SealedWrite Sealed) :
    Option (KeyTables Sealed) :=
  match write.expected with
  | some old =>
    if (tables.row write.table write.version).map (fun row => row.sealed) = some old then
      match write.table with
      | .current => some { tables with current := some write.stored }
      | .retired =>
        some { tables with
          retired := tables.retired.update (fun row => { row with toStoredKey := row.toStoredKey.reseal write })
            fun row => StoredKey.version_reseal write row.toStoredKey }
      | .deletionCopy =>
        some { tables with
          copies := tables.copies.update (fun row => row.reseal write) fun row => StoredKey.version_reseal write row }
    else none
  | none =>
    match write.table with
    | .current => if tables.current.isSome then none else some { tables with current := some write.stored }
    | .retired =>
      (tables.retired.insert { write.stored with pending := write.rotationPending }).map fun retired =>
        { tables with retired := retired }
    | .deletionCopy => (tables.copies.insert write.stored).map fun copies => { tables with copies := copies }

/-- The transaction `writeImported`, unless a statement does not affect its row. -/
def writeImported [DecidableEq Sealed] (tables : KeyTables Sealed) (writes : List (SealedWrite Sealed)) :
    Option (KeyTables Sealed) :=
  writes.foldlM writeSealed tables

end Tables

/-! ## What an import reads -/

/-- The other records of the vault. -/
inductive VaultRecord
  | absent
  | live (name : Str)
  /-- The flags say whether the caller may see the deletion, whether the key is retained and the vault restorable,
  and whether the row of the vault still exists. -/
  | deleted (name : Str) (keyVersion : Option Nat) (visible keyRetained restorable liveRows : Bool)

def VaultRecord.keyVersion : VaultRecord -> Option Nat
  | .deleted _ version _ _ _ _ => version
  | _ => none

structure ImportTarget (Sealed : Type) where
  name : Str
  (deleted liveRows : Bool)
  current : Option Nat
  currentRow : Option (StoredKey Sealed)
  (retired copies : List (StoredKey Sealed))
  referenced : List Nat
deriving DecidableEq

/-- Where a key belongs, and the row that was read there. -/
structure Slot (Sealed : Type) where
  table : SealedTable
  row : Option (StoredKey Sealed)
deriving DecidableEq

inductive ImportOutcome
  | restored | unchanged | needsSalvage | refused
deriving DecidableEq

/-- The next query of `importTarget`. -/
inductive Reading
  | vault | deletion | liveRows | copies | referenced | currentRow | retiredVersions
  | retiredRows (versions : List Nat)
deriving DecidableEq

/-- What the rows of a candidate's version have shown so far. -/
structure Probe (Sealed : Type) where
  identical : Bool
  toWrite : List (Slot Sealed)
  recordedChecks : List Str
deriving DecidableEq

/-- Where an import stands. -/
inductive Point (Sealed : Type)
  | reading (query : Reading) (candidates : List Candidate)
  | planning (candidates : List Candidate)
  | probing (candidate : Candidate) (slots : List (Slot Sealed)) (probe : Probe Sealed) (rest : List Candidate)
  /-- The attestation is checked next. -/
  | proving (candidate : Candidate) (toWrite : List (Slot Sealed)) (rest : List Candidate)
  /-- The version before the current one: are files sealed under it? -/
  | filing (candidate : Candidate) (provenance : Provenance) (toWrite : List (Slot Sealed)) (rest : List Candidate)
  /-- Is no rotation pending? -/
  | asking (candidate : Candidate) (provenance : Provenance) (toWrite : List (Slot Sealed)) (rest : List Candidate)
  | sealing (candidate : Candidate) (provenance : Provenance) (toWrite : List (Slot Sealed)) (pendingRotation : Bool)
      (rest : List Candidate)
  /-- The request is confirmed, the transaction is next. -/
  | writing
deriving DecidableEq

structure Import (Sealed : Type) where
  confirmName : Option Str
  target : ImportTarget Sealed
  outcomes : List (Nat × ImportOutcome)
  writes : List (SealedWrite Sealed)
  point : Point Sealed
deriving DecidableEq

structure State (Sealed : Type) where
  tables : KeyTables Sealed
  vault : VaultRecord
  /-- The versions that live files are sealed under. -/
  files : List Nat
  /-- Those of recovery blobs, provider versions and remote objects. -/
  retained : List Nat
  /-- `key_attestation_keys` -/
  publicKeys : List (Nat × Str)
  calls : List (Import Sealed)

section Steps

variable {Sealed : Type}

def KeyTables.versions (tables : KeyTables Sealed) : List Nat :=
  let retired := tables.retired.rows.map fun row : RetiredKey Sealed => row.version
  tables.current.toList.map (fun row => row.version) ++ retired ++
    -- a retired version was rotated to the next one
    retired.map (· + 1) ++ tables.copies.rows.map fun row : StoredKey Sealed => row.version

def State.referencedKeyVersions (state : State Sealed) : List Nat :=
  (state.tables.versions ++ state.vault.keyVersion.toList ++ state.files ++ state.retained).filter fun version =>
    0 < version

/-- The row of a version in a table, as it was read. -/
def ImportTarget.row (target : ImportTarget Sealed) (table : SealedTable) (version : Nat) : Option (StoredKey Sealed) :=
  match table with
  | .current => target.currentRow.filter fun row => row.version = version
  | .retired => target.retired.find? fun row => row.version = version
  | .deletionCopy => target.copies.find? fun row => row.version = version

def ImportTarget.slots (target : ImportTarget Sealed) (version : Nat) : List (Slot Sealed) :=
  (if target.liveRows then
    if some version = target.current then [{ table := .current, row := target.currentRow }]
    else [{ table := .retired, row := target.row .retired version }]
  else []) ++
  if target.deleted then [{ table := .deletionCopy, row := target.row .deletionCopy version }] else []

variable (call : Import Sealed)

def Import.moveTo (point : Point Sealed) : Import Sealed :=
  { call with point := point }

def Import.decide (candidate : Candidate) (outcome : ImportOutcome) (rest : List Candidate) : Import Sealed :=
  { call with outcomes := call.outcomes ++ [(candidate.version, outcome)], point := .planning rest }

/-- One query of `importTarget`, unless it throws. -/
def Import.read (state : State Sealed) (call : Import Sealed) (candidates : List Candidate) :
    Reading -> Option (Import Sealed)
  | .vault =>
    match state.vault with
    | .live name =>
      some { call with
        target := { call.target with name := name, liveRows := true }
        point := .reading .referenced candidates }
    | _ => some (call.moveTo (.reading .deletion candidates))
  | .deletion =>
    match state.vault with
    | .deleted name keyVersion visible keyRetained restorable _ =>
      if visible && keyRetained && restorable then
        some { call with
          target := { call.target with name := name, deleted := true, current := keyVersion }
          point := .reading .liveRows candidates }
      else none
    | _ => none
  | .liveRows =>
    let liveRows :=
      match state.vault with
      | .deleted _ _ _ _ _ liveRows => liveRows
      | _ => false
    some { call with
      target := { call.target with liveRows := liveRows }
      point := .reading .copies candidates }
  | .copies =>
    some { call with
      target := { call.target with copies := state.tables.copies.rows }
      point := .reading .referenced candidates }
  | .referenced =>
    let target := { call.target with referenced := state.referencedKeyVersions }
    if target.liveRows then some { call with target := target, point := .reading .currentRow candidates }
    else if 0 < target.current.getD 0 then some { call with target := target, point := .planning candidates }
    else none
  | .currentRow =>
    match state.tables.current with
    | some row =>
      some { call with
        target := { call.target with currentRow := some row, current := some row.version }
        point := .reading .retiredVersions candidates }
    | none =>
      some { call with
        target := { call.target with current := call.target.referenced.max?.or call.target.current }
        point := .reading .retiredVersions candidates }
  | .retiredVersions =>
    some (call.moveTo (.reading (.retiredRows (state.tables.retired.rows.map fun row => row.version)) candidates))
  | .retiredRows (version :: versions) =>
    some { call with
      target :=
        { call.target with retired := call.target.retired ++ (state.tables.row .retired version).toList }
      point := .reading (.retiredRows versions) candidates }
  | .retiredRows [] =>
    if 0 < call.target.current.getD 0 then some (call.moveTo (.planning candidates)) else none

variable [DecidableEq Sealed] (host : Host Sealed) (vaultId : Nat)

/-- What `backfill` records about a row that was unsealed to a key, with an attestation if the node could sign. -/
def backfill (tables : KeyTables Sealed) (read : StoredKey Sealed) (key : Str)
    (signed : Option Attestation) : KeyTables Sealed :=
  let check := host.keyCheck key vaultId read.version
  if read.keyCheck.any (keyCheckEquals · check) && read.attestation.isSome then tables
  else tables.recordProvenance read.toKeyRow { keyCheck := check, attestation := signed }

/-- The first decision about a candidate, or the refusal of the whole document. -/
def Import.consider (call : Import Sealed) (candidate : Candidate) (rest : List Candidate) : Option (Import Sealed) :=
  let check := host.keyCheck candidate.key vaultId candidate.version
  if candidate.backupCheck.any fun backup => !keyCheckEquals backup check then none
  else if call.target.current.getD 0 < candidate.version || !call.target.referenced.contains candidate.version then
    some (call.decide candidate .refused rest)
  else
    some (call.moveTo (.probing candidate (call.target.slots candidate.version)
      { identical := false, toWrite := [], recordedChecks := [] } rest))

/-- Where a proven candidate goes next. -/
def Import.proven (candidate : Candidate) (provenance : Provenance)
    (toWrite : List (Slot Sealed)) (rest : List Candidate) : Import Sealed :=
  if call.target.current = some (candidate.version + 1) then
    call.moveTo (.filing candidate provenance toWrite rest)
  else call.moveTo (.sealing candidate provenance toWrite false rest)

/-- All rows of the version are probed. -/
def Import.judge (call : Import Sealed) (candidate : Candidate)
    (probe : Probe Sealed) (rest : List Candidate) (signed : Option Attestation) : Import Sealed :=
  let check := host.keyCheck candidate.key vaultId candidate.version
  if probe.toWrite.isEmpty then call.decide candidate .unchanged rest
  else if probe.identical then
    call.proven candidate { keyCheck := check, attestation := signed } probe.toWrite rest
  else if probe.recordedChecks.any fun recorded => !keyCheckEquals recorded check then
    call.decide candidate .needsSalvage rest
  else if candidate.attestationProblem.isSome then call.decide candidate .needsSalvage rest
  else call.moveTo (.proving candidate probe.toWrite rest)

def Import.prove (state : State Sealed) (call : Import Sealed)
    (candidate : Candidate) (toWrite : List (Slot Sealed)) (rest : List Candidate) : Import Sealed :=
  let check := host.keyCheck candidate.key vaultId candidate.version
  let attestation := candidate.attestation.getD { keyId := 0, signature := [] }
  if host.check state.publicKeys attestation vaultId candidate.version check = .valid then
    call.proven candidate { keyCheck := check, attestation := some attestation } toWrite rest
  else call.decide candidate .needsSalvage rest

def Slot.write (slot : Slot Sealed) (candidate : Candidate) (provenance : Provenance) (pendingRotation : Bool)
    (sealed : Sealed) : SealedWrite Sealed :=
  { table := slot.table
    version := candidate.version
    sealed := sealed
    expected := slot.row.map fun row => row.sealed
    rotationPending := slot.row.isNone && slot.table == .retired && pendingRotation
    provenance := provenance }

/-- The next step of an import: the tables, and where the import then stands unless it returns or throws.  An attest
call of the step yields the given attestation, and a key is sealed to the given bytes. -/
def Import.advance (state : State Sealed) (call : Import Sealed)
    (signed : Option Attestation) (seals : List Sealed) : Option (KeyTables Sealed × Option (Import Sealed)) :=
  match call.point with
  | .reading query candidates => some (state.tables, call.read state candidates query)
  | .planning (candidate :: rest) => some (state.tables, call.consider host vaultId candidate rest)
  | .planning [] =>
    if call.writes.isEmpty then some (state.tables, none)
    -- the request has to name the vault
    else if call.confirmName = some call.target.name then some (state.tables, some (call.moveTo .writing))
    else some (state.tables, none)
  | .probing candidate (slot :: slots) probe rest =>
    match slot.row with
    | none =>
      some (state.tables, some (call.moveTo (.probing candidate slots
        { probe with toWrite := probe.toWrite ++ [slot] } rest)))
    | some row =>
      let checks := probe.recordedChecks ++ row.keyCheck.toList
      match host.unsealKey row.sealed with
      | none =>
        some (state.tables, some (call.moveTo (.probing candidate slots
          { probe with toWrite := probe.toWrite ++ [slot], recordedChecks := checks } rest)))
      | some held =>
        let tables := backfill host vaultId state.tables row held signed
        if held = candidate.key then
          some (tables, some (call.moveTo (.probing candidate slots
            { probe with identical := true, recordedChecks := checks } rest)))
        -- a working key is never replaced
        else some (tables, none)
  | .probing candidate [] probe rest => some (state.tables, some (call.judge host vaultId candidate probe rest signed))
  | .proving candidate toWrite rest => some (state.tables, some (call.prove host vaultId state candidate toWrite rest))
  | .filing candidate provenance toWrite rest =>
    if candidate.version ∈ state.files then
      some (state.tables, some (call.moveTo (.asking candidate provenance toWrite rest)))
    else some (state.tables, some (call.moveTo (.sealing candidate provenance toWrite false rest)))
  | .asking candidate provenance toWrite rest =>
    some (state.tables, some (call.moveTo
      (.sealing candidate provenance toWrite state.tables.rotationPendingKeyVersions.isEmpty rest)))
  | .sealing candidate provenance toWrite pendingRotation rest =>
    if seals.length = toWrite.length ∧ seals.all fun sealed => host.unsealKey sealed = some candidate.key then
      let writes := List.zipWith (fun slot sealed => slot.write candidate provenance pendingRotation sealed) toWrite
        seals
      some (state.tables,
        some { call.decide candidate .restored rest with writes := call.writes ++ writes })
    else none
  | .writing =>
    match writeImported state.tables call.writes with
    | none => some (state.tables, none)
    | some tables => some (tables, none)

inductive Label (Sealed : Type)
  | importKeys (document : Json) (confirmName : Option Str)
  | advance (call : Nat) (signed : Option Attestation) (seals : List Sealed)
  | rotateVaultKey (sealed : Sealed) (expected : Nat) (provenance : Option Provenance)
      (outgoing : Option (Nat × Provenance)) (closePrior closeOutgoing : Bool)
  | markKeyRotationFinished
  | addVaultKey (sealed : Sealed) (provenance : Option Provenance)
  /-- A row that is read elsewhere unseals. -/
  | unsealRow (table : SealedTable) (version : Nat) (signed : Option Attestation)
  /-- The node signs with a new key. -/
  | addSigningKey (keyId : Nat) (publicKey : Str)
  /-- The records of the vault and its data change. -/
  | environment (vault : VaultRecord) (files retained : List Nat)

def ImportTarget.empty : ImportTarget Sealed :=
  { name := []
    deleted := false
    liveRows := false
    current := none
    currentRow := none
    retired := []
    copies := []
    referenced := [] }

/-- The import at its first query, unless the document is refused. -/
def Import.begin (document : Json) (confirmName : Option Str) : Option (Import Sealed) :=
  match candidatesFrom host.decode document vaultId with
  | .error _ => none
  | .ok candidates =>
    if vaultId = 0 then none
    else
      some
        { confirmName := confirmName
          target := ImportTarget.empty
          outcomes := []
          writes := []
          point := .reading .vault candidates }

def State.step (state : State Sealed) (label : Label Sealed) : Option (State Sealed) :=
  match label with
  | .importKeys document confirmName =>
    some { state with calls := state.calls ++ (Import.begin host vaultId document confirmName).toList }
  | .advance index signed seals =>
    match state.calls[index]? with
    | none => none
    | some call =>
      (call.advance host vaultId state signed seals).map fun result =>
        { state with tables := result.1, calls := Pool.move state.calls index result.2 }
  | .rotateVaultKey sealed expected provenance outgoing closePrior closeOutgoing =>
    some { state with
      tables := (state.tables.rotateVaultKey sealed expected provenance outgoing closePrior closeOutgoing).getD
        state.tables }
  | .markKeyRotationFinished => some { state with tables := state.tables.markKeyRotationFinished }
  | .addVaultKey sealed provenance =>
    some { state with tables := (state.tables.addVaultKey sealed provenance).getD state.tables }
  | .unsealRow table version signed =>
    match state.tables.row table version with
    | none => none
    | some row =>
      (host.unsealKey row.sealed).map fun key =>
        { state with tables := backfill host vaultId state.tables row key signed }
  | .addSigningKey keyId publicKey =>
    if host.ownsKey publicKey ∧ (state.publicKeys.lookup keyId).isNone then
      some { state with publicKeys := state.publicKeys ++ [(keyId, publicKey)] }
    else none
  | .environment vault files retained => some { state with vault := vault, files := files, retained := retained }

end Steps

end KeyImport
end Vault
end Vaulthalla
