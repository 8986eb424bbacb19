import Vaulthalla.Foundation.Pool
import Vaulthalla.Vault.KeyRows

namespace Vaulthalla
namespace Vault
namespace KeyCalls

open Foundation KeyRotation

/-!
# Calls on the keys of a vault

Rotations are prepared and finished, keys are loaded and imported, and a
salvage makes a fresh key for a vault whose own is lost.  Each call reads and
changes the key rows in several transactions, and the memory of the running
manager under its mutex; any number of calls are under way at once, and a call
that throws returns with what it has done so far.

A row holds a sealed key.  Whether it unseals under the master key of the host,
and to what, is given by `unsealKey`.  A vault without a manager is not running:
`load_key` is then called by a new manager, which the other calls see when it
has returned.  The versions that files and retained data are sealed under
change in any way while the vault has a key row.

A salvage of a running vault whose current row unseals is a `prepare_key_rotation`
call and a `load_key` call, so only the other kind is a call of its own.  The
retained keys of a deleted vault are a table that none of these calls reads.
-/

/-! ## Imports -/

/-- A key of an export document, as the host would seal it.  It is intact when
it matches the key check of the document, and proven when the attestation and
the recorded key check bear it out. -/
structure Candidate (Key Sealed : Type) where
  version : Nat
  key : Key
  sealed : Sealed
  (intact proven : Bool)
deriving DecidableEq

inductive SealedTable
  | current | retired
deriving DecidableEq

structure SealedWrite (Sealed : Type) where
  table : SealedTable
  version : Nat
  sealed : Sealed
  /-- What the row held when the import was planned, if there was one. -/
  expected : Option Sealed
  rotationPending : Bool
deriving DecidableEq

structure ImportTarget (Sealed : Type) where
  referenced : List Nat
  current : Nat
  currentRow : Option (KeyRow Sealed)
  retired : List (KeyRow Sealed)
deriving DecidableEq

/-- What an import decides for a candidate. -/
inductive Verdict (Sealed : Type)
  /-- The import throws. -/
  | refuse | skip
  | write (table : SealedTable) (row : Option (KeyRow Sealed))

section Import

variable {Key Sealed : Type}

/-- Where the key of a version belongs, and the row that is there. -/
def ImportTarget.slot (target : ImportTarget Sealed) (version : Nat) : SealedTable × Option (KeyRow Sealed) :=
  if version = target.current then (.current, target.currentRow)
  else (.retired, target.retired.find? fun row => row.version == version)

def ImportTarget.verdict [DecidableEq Key] (unsealKey : Sealed -> Option Key) (target : ImportTarget Sealed)
    (candidate : Candidate Key Sealed) : Verdict Sealed :=
  let slot := target.slot candidate.version
  if !candidate.intact then .refuse
  else if target.current < candidate.version || !target.referenced.contains candidate.version then .skip
  else
    match slot.2.bind fun row => unsealKey row.sealed with
    | some held => if held = candidate.key then .skip else .refuse
    -- a key without proof needs a salvage
    | none => if candidate.proven then .write slot.1 slot.2 else .skip

def Candidate.write (candidate : Candidate Key Sealed) (table : SealedTable) (row : Option (KeyRow Sealed))
    (pendingRotation : Bool) : SealedWrite Sealed :=
  { table := table
    version := candidate.version
    sealed := candidate.sealed
    expected := row.map KeyRow.sealed
    rotationPending := row.isNone && table == .retired && pendingRotation }

/-- One statement of `writeImported`; it must find what the plan has read. -/
def writeSealed [DecidableEq Sealed] (rows : KeyRows Sealed) (write : SealedWrite Sealed) : Option (KeyRows Sealed) :=
  match write.table, write.expected with
  | .current, some old =>
    if rows.current = some { version := write.version, sealed := old } then
      some { rows with current := some { version := write.version, sealed := write.sealed } }
    else none
  | .current, none =>
    if rows.current = none then
      some { rows with current := some { version := write.version, sealed := write.sealed } }
    else none
  | .retired, some old =>
    if rows.retired.any fun row => row.version == write.version && row.sealed == old then
      some { rows with
        retired := rows.retired.map fun row =>
          if row.version = write.version ∧ row.sealed = old then { row with sealed := write.sealed } else row }
    else none
  | .retired, none =>
    if rows.hasRetiredKeyVersion write.version then none
    else
      some { rows with
        retired := rows.retired ++
          [{ version := write.version, sealed := write.sealed, pending := write.rotationPending }] }

/-- The transaction `writeImported`, unless it throws. -/
def writeImported [DecidableEq Sealed] (rows : KeyRows Sealed) (writes : List (SealedWrite Sealed)) :
    Option (KeyRows Sealed) :=
  writes.foldlM writeSealed rows

end Import

/-! ## Positions -/

/-- Where a `load_key` call stands. -/
inductive LoadPoint (Key : Type)
  | called
  /-- Whether a rotation is pending is read. -/
  | asked (rotating : Bool)
  /-- There is no current row. -/
  | missing
  /-- Nothing is sealed either, so a first key is made. -/
  | minting
  | found (rotating : Bool) (version : Nat) (key : Key)
  | unsealed (manager : Manager Key)
  | exempted (manager : Manager Key) (salvaged : List Nat)
  /-- The versions of live files that are still to be looked up. -/
  | checking (manager : Manager Key) (salvaged versions : List Nat)
  /-- The keys are in memory, the flag is stored next. -/
  | stored (rotating : Bool)
deriving DecidableEq

/-- Where an `importKeys` call stands. -/
inductive ImportPoint (Key Sealed : Type)
  | called (candidates : List (Candidate Key Sealed))
  | listed (candidates : List (Candidate Key Sealed)) (referenced : List Nat)
  | located (candidates : List (Candidate Key Sealed)) (referenced : List Nat) (current : Nat)
      (row : Option (KeyRow Sealed))
  | planning (target : ImportTarget Sealed) (candidates : List (Candidate Key Sealed))
      (writes : List (SealedWrite Sealed))
  /-- Files are sealed under the version before the current one; is a rotation pending? -/
  | asking (target : ImportTarget Sealed) (candidate : Candidate Key Sealed) (table : SealedTable)
      (row : Option (KeyRow Sealed)) (candidates : List (Candidate Key Sealed)) (writes : List (SealedWrite Sealed))
  | planned (writes : List (SealedWrite Sealed))
deriving DecidableEq

/-- Where a salvage that makes its own key stands. -/
inductive SalvagePoint
  | called
  | listed (referenced : List Nat)
  | minting (expected : Nat) (outgoingHeld : Bool)
deriving DecidableEq

inductive Call (Key Sealed : Type)
  | prepare (call : Prepare Key Sealed)
  | finish (call : Finish)
  /-- Whether the call has changed the rows, and whether the manager is a new one. -/
  | load (changed fresh : Bool) (point : LoadPoint Key)
  | importKeys (point : ImportPoint Key Sealed)
  | salvage (point : SalvagePoint)
deriving DecidableEq

structure State (Key Sealed : Type) where
  rows : KeyRows Sealed
  memory : Option (Manager Key)
  /-- The versions that live files are sealed under. -/
  files : List Nat
  /-- Those of recovery blobs, provider versions and remote objects. -/
  retained : List Nat
  /-- Those that a key salvage names. -/
  salvaged : List Nat
  calls : List (Call Key Sealed)

/-! ## Steps -/

section System

variable {Key Sealed : Type} (state : State Key Sealed)

def State.referencedKeyVersions : List Nat :=
  state.rows.current.toList.map KeyRow.version ++ state.rows.retired.map (fun row => row.version) ++
    -- a retired version was rotated to the next one
    state.rows.retired.map (fun row => row.version + 1) ++ state.files ++ state.retained

def highest (versions : List Nat) : Nat :=
  versions.foldr max 0

/-- A vault with no key row takes the highest version that its records reference. -/
def State.currentVersion : Nat :=
  match state.rows.current with
  | some row => row.version
  | none => highest state.referencedKeyVersions

/-- `load_key` accepts a file of this version. -/
def State.holdsVersion (manager : Manager Key) (salvaged : List Nat) (version : Nat) : Bool :=
  version == manager.version || (manager.rotating && version + 1 == manager.version) || salvaged.contains version ||
    state.rows.hasRetiredKeyVersion version

/-- A step of `load_key` that does not make a key: the memory, and where the call then stands unless it returns. -/
def LoadPoint.advance (unsealKey : Sealed -> Option Key) (state : State Key Sealed) (fresh : Bool) :
    LoadPoint Key -> Option (Option (Manager Key) × Option (LoadPoint Key))
  | .called => some (state.memory, some (.asked state.rows.keyRotationInProgress))
  | .asked rotating =>
    match state.rows.current with
    | none => some (state.memory, some .missing)
    | some row => some (state.memory, (unsealKey row.sealed).map fun key => .found rotating row.version key)
  | .missing =>
    if state.files.isEmpty && state.retained.isEmpty then some (state.memory, some .minting)
    else some (state.memory, none)
  | .minting => none
  | .found rotating version key =>
    if rotating then
      some (state.memory, (state.rows.pending.head?.bind fun row => unsealKey row.sealed).map fun outgoing =>
        .unsealed { key := key, version := version, outgoing := some outgoing, rotating := true })
    else
      some (state.memory, some (.unsealed { key := key, version := version, outgoing := none, rotating := false }))
  | .unsealed manager => some (state.memory, some (.exempted manager state.salvaged))
  | .exempted manager salvaged => some (state.memory, some (.checking manager salvaged state.files))
  | .checking manager salvaged (version :: versions) =>
    if state.holdsVersion manager salvaged version then
      some (state.memory, some (.checking manager salvaged versions))
    else some (state.memory, none)
  | .checking manager _ [] =>
    if fresh then some (some manager, none)
    else
      state.memory.map fun running =>
        (some { manager with rotating := running.rotating }, some (.stored manager.rotating))
  | .stored rotating => state.memory.map fun running => (some { running with rotating := rotating }, none)

/-- A step of `importKeys` before it writes. -/
def ImportPoint.advance [DecidableEq Key] (unsealKey : Sealed -> Option Key) (state : State Key Sealed) :
    ImportPoint Key Sealed -> Option (ImportPoint Key Sealed)
  | .called candidates => some (.listed candidates state.referencedKeyVersions)
  | .listed candidates referenced =>
    let current := (state.rows.current.map KeyRow.version).getD (highest referenced)
    if current = 0 then none else some (.located candidates referenced current state.rows.current)
  | .located candidates referenced current row =>
    let target :=
      { referenced := referenced
        current := current
        currentRow := row
        retired := state.rows.retired.map RetiredRow.toKeyRow }
    some (.planning target candidates [])
  | .planning target (candidate :: candidates) writes =>
    match target.verdict unsealKey candidate with
    | .refuse => none
    | .skip => some (.planning target candidates writes)
    | .write table row =>
      if candidate.version + 1 = target.current ∧ candidate.version ∈ state.files then
        some (.asking target candidate table row candidates writes)
      else some (.planning target candidates (writes ++ [candidate.write table row false]))
  | .asking target candidate table row candidates writes =>
    some (.planning target candidates (writes ++ [candidate.write table row state.rows.pending.isEmpty]))
  | .planning _ [] writes => if writes.isEmpty then none else some (.planned writes)
  | .planned _ => none

/-- A step of a salvage before it makes its key. -/
def SalvagePoint.advance (unsealKey : Sealed -> Option Key) (state : State Key Sealed) :
    SalvagePoint -> Option SalvagePoint
  | .called => some (.listed state.referencedKeyVersions)
  | .listed referenced =>
    let held := (state.rows.current.bind fun row => unsealKey row.sealed).isSome
    let base := (state.rows.current.map KeyRow.version).getD (highest referenced)
    if state.memory.isSome && held then none else some (.minting (base + 1) held)
  | .minting _ _ => none

/-- The next step of a call that does not make a key: the rows, the memory, and
where the call then stands unless it returns. -/
def Call.advance [DecidableEq Key] [DecidableEq Sealed] (unsealKey : Sealed -> Option Key) (state : State Key Sealed) :
    Call Key Sealed -> Option (KeyRows Sealed × Option (Manager Key) × Option (Call Key Sealed))
  | .prepare call =>
    state.memory.map fun manager =>
      let result := call.advance state.rows manager
      (result.1, some result.2.1, result.2.2.map .prepare)
  | .finish call =>
    state.memory.map fun manager =>
      let result := call.advance state.rows manager
      (result.1, some result.2.1, result.2.2.map .finish)
  | .load changed fresh point =>
    (point.advance unsealKey state fresh).map fun result =>
      (state.rows, result.1, result.2.map (.load changed fresh))
  | .importKeys (.planned writes) =>
    match writeImported state.rows writes with
    | none => some (state.rows, state.memory, none)
    -- the running manager loads its keys again, or a new one does
    | some rows => some (rows, state.memory, some (.load true state.memory.isNone .called))
  | .importKeys point => some (state.rows, state.memory, (point.advance unsealKey state).map .importKeys)
  | .salvage (.minting _ _) => none
  | .salvage point => some (state.rows, state.memory, (point.advance unsealKey state).map .salvage)

/-- The step of a call that stores a key it has made: `addVaultKey` or `mintSalvageKey`. -/
def Call.mint (next : Key) (sealed : Sealed) :
    Call Key Sealed -> Option (KeyRows Sealed × Option (Call Key Sealed))
  | .load _ fresh .minting =>
    if state.rows.current.isSome then some (state.rows, none)
    else
      let manager := { key := next, version := 1, outgoing := none, rotating := false }
      some ({ state.rows with current := some { version := 1, sealed := sealed } },
        some (.load true fresh (.checking manager [] [])))
  | .salvage (.minting expected outgoingHeld) =>
    match state.rows.rotateVaultKey sealed expected true (!outgoingHeld) with
    | none => some (state.rows, none)
    | some (rows, _) => some (rows, some (.load true state.memory.isNone .called))
  | _ => none

inductive Label (Key Sealed : Type)
  | prepare (next : Key) (sealed : Sealed)
  | finish | load
  | importKeys (candidates : List (Candidate Key Sealed))
  | salvage
  | advance (call : Nat)
  | mint (call : Nat) (next : Key) (sealed : Sealed)
  /-- Files are written, rotated and removed, and data is retained and freed. -/
  | environment (files retained salvaged : List Nat)

def State.step [DecidableEq Key] [DecidableEq Sealed] (unsealKey : Sealed -> Option Key) (state : State Key Sealed)
    (label : Label Key Sealed) : Option (State Key Sealed) :=
  match label with
  | .prepare next sealed =>
    if state.memory.isSome ∧ unsealKey sealed = some next then
      let call := (Prepare.begin state.rows next sealed).map .prepare
      some { state with calls := state.calls ++ call.toList }
    else none
  | .finish =>
    if state.memory.isSome then
      let call := (Finish.begin state.rows).map .finish
      some { state with calls := state.calls ++ call.toList }
    else none
  | .load => some { state with calls := state.calls ++ [.load false state.memory.isNone .called] }
  | .importKeys candidates =>
    if candidates.all fun candidate => unsealKey candidate.sealed = some candidate.key then
      some { state with calls := state.calls ++ [.importKeys (.called candidates)] }
    else none
  | .salvage => some { state with calls := state.calls ++ [.salvage .called] }
  | .advance index =>
    match state.calls[index]? with
    | none => none
    | some call =>
      (call.advance unsealKey state).map fun result =>
        { state with
          rows := result.1
          memory := result.2.1
          calls := Pool.move state.calls index result.2.2 }
  | .mint index next sealed =>
    match state.calls[index]? with
    | none => none
    | some call =>
      if unsealKey sealed = some next then
        (call.mint state next sealed).map fun result =>
          { state with rows := result.1, calls := Pool.move state.calls index result.2 }
      else none
  | .environment files retained salvaged =>
    if state.rows.current.isSome then
      some { state with files := files, retained := retained, salvaged := salvaged }
    else none

end System

end KeyCalls
end Vault
end Vaulthalla
