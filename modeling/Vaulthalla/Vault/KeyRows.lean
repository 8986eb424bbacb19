import Mathlib.Logic.Function.Basic

namespace Vaulthalla
namespace Vault
namespace KeyRotation

/-!
# The keys of a vault

A vault has one current key row and the retired rows of its earlier versions,
each sealed under the master key of the host.  A retired row whose rotation is
not completed marks a pending rotation.  The encryption manager of the running
vault holds the current key in memory and, while a rotation is pending, the
outgoing one; a file is read with the key that `keySnapshot` finds for the
version in its row.

`prepare_key_rotation` and `finish_key_rotation` ask for a pending rotation in
one transaction, change the rows in another and the memory after that, so each
is a call with a position between these steps.
-/

/-! ## Key rows -/

/-- The row of a vault in `vault_keys`. -/
structure KeyRow (Sealed : Type) where
  version : Nat
  sealed : Sealed
deriving DecidableEq

/-- A row of `vault_keys_trashed`.  It is pending while `rotation_completed_at` is null. -/
structure RetiredRow (Sealed : Type) extends KeyRow Sealed where
  pending : Bool

structure KeyRows (Sealed : Type) where
  current : Option (KeyRow Sealed)
  retired : List (RetiredRow Sealed)

section Rows

variable {Sealed : Type}

def RetiredRow.complete (row : RetiredRow Sealed) : RetiredRow Sealed :=
  { row with pending := false }

section

variable (rows : KeyRows Sealed)

def KeyRows.pending : List (RetiredRow Sealed) :=
  rows.retired.filter RetiredRow.pending

def KeyRows.keyRotationInProgress : Bool :=
  rows.retired.any RetiredRow.pending

def KeyRows.hasRetiredKeyVersion (version : Nat) : Bool :=
  rows.retired.any fun row => row.version == version

def KeyRows.markKeyRotationFinished : KeyRows Sealed :=
  { rows with retired := rows.retired.map RetiredRow.complete }

def KeyRows.closeIf (close : Bool) : KeyRows Sealed :=
  if close then rows.markKeyRotationFinished else rows

/-- The statement `rotate_vault_key`: the current row is retired, which a
retired row of the same version forbids. -/
def KeyRows.retireCurrent (row : KeyRow Sealed) (next : Sealed) : Option (KeyRows Sealed) :=
  if rows.hasRetiredKeyVersion row.version then none
  else
    some
      { current := some { version := row.version + 1, sealed := next }
        retired := rows.retired ++ [{ row with pending := true }] }

/-- The transaction `rotateVaultKey` and the version it returns, unless it throws. -/
def KeyRows.rotateVaultKey (next : Sealed) (expected : Nat) (closePrior closeOutgoing : Bool) :
    Option (KeyRows Sealed × Nat) :=
  match rows.current with
  | none =>
    -- the version is the caller's where there is no row to count from
    if expected = 0 then none
    else
      let rotated := { rows.closeIf closePrior with current := some { version := expected, sealed := next } }
      some (rotated.closeIf closeOutgoing, expected)
  | some row =>
    ((rows.closeIf closePrior).retireCurrent row next).map fun rotated =>
      (rotated.closeIf closeOutgoing, row.version + 1)

end

variable (rows : KeyRows Sealed)

theorem keyRotationInProgress_eq : rows.keyRotationInProgress = !rows.pending.isEmpty := by
  rw [Bool.eq_iff_iff]
  simp [KeyRows.keyRotationInProgress, KeyRows.pending]

@[simp] theorem pending_markKeyRotationFinished : rows.markKeyRotationFinished.pending = [] := by
  simp [KeyRows.pending, KeyRows.markKeyRotationFinished, RetiredRow.complete]

@[simp] theorem current_closeIf (close : Bool) : (rows.closeIf close).current = rows.current := by
  cases close <;> rfl

@[simp] theorem pending_closeIf (close : Bool) : (rows.closeIf close).pending = if close then [] else rows.pending := by
  cases close <;> simp [KeyRows.closeIf]

variable {next : Sealed} {rotated rows : KeyRows Sealed} {row : KeyRow Sealed} {closeOutgoing closePrior : Bool}
  {expected version : Nat}

theorem retireCurrent_some (isRotated : rows.retireCurrent row next = some rotated) :
    rotated.current = some { version := row.version + 1, sealed := next } ∧
      rotated.pending = rows.pending ++ [{ row with pending := true }] := by
  unfold KeyRows.retireCurrent at isRotated
  split at isRotated
  · cases isRotated
  cases isRotated
  exact ⟨rfl, by simp [KeyRows.pending]⟩

/-- A rotation of a current row, when it does not throw. -/
theorem rotateVaultKey_some (isRow : rows.current = some row)
    (isRotated : rows.rotateVaultKey next expected closePrior closeOutgoing = some (rotated, version)) :
    version = row.version + 1 ∧ rotated.current = some { version := version, sealed := next } ∧
      rotated.pending =
        if closeOutgoing then [] else (rows.closeIf closePrior).pending ++ [{ row with pending := true }] := by
  unfold KeyRows.rotateVaultKey at isRotated
  simp only [isRow] at isRotated
  rcases Option.map_eq_some_iff.mp isRotated with ⟨retired, isRetired, isResult⟩
  cases isResult
  rcases retireCurrent_some isRetired with ⟨isCurrent, isPending⟩
  exact ⟨rfl, by rw [current_closeIf, isCurrent], by rw [← isPending, pending_closeIf]⟩

/-- A rotation of a vault that has lost its current row. -/
theorem rotateVaultKey_of_none (isNone : rows.current = none)
    (isRotated : rows.rotateVaultKey next expected closePrior closeOutgoing = some (rotated, version)) :
    rotated.current = some { version := version, sealed := next } ∧
      rotated.pending = if closeOutgoing then [] else (rows.closeIf closePrior).pending := by
  unfold KeyRows.rotateVaultKey at isRotated
  simp only [isNone] at isRotated
  split at isRotated
  · cases isRotated
  cases isRotated
  exact ⟨by rw [current_closeIf], by rw [pending_closeIf]; rfl⟩

end Rows

/-! ## The manager -/

/-- The keys of an `EncryptionManager` in memory, once they are loaded. -/
structure Manager (Key : Type) where
  key : Key
  version : Nat
  /-- `old_key_` -/
  outgoing : Option Key
  /-- `rotation_in_progress_` -/
  rotating : Bool
deriving DecidableEq

section Memory

variable {Key : Type} (manager : Manager Key)

/-- The key for a version, unless `keySnapshot` throws. -/
def Manager.keySnapshot (version : Nat) : Option Key :=
  if manager.rotating then
    manager.outgoing.bind fun outgoing =>
      if version = manager.version then some manager.key
      else if version + 1 = manager.version then some outgoing
      else none
  else if version = manager.version then some manager.key
  else none

/-- The update at the end of `prepare_key_rotation`. -/
def Manager.prepared (next : Key) (version : Nat) : Manager Key :=
  { key := next, version := version, outgoing := some manager.key, rotating := true }

/-- The update at the end of `finish_key_rotation`. -/
def Manager.finished : Manager Key :=
  { manager with outgoing := none, rotating := false }

end Memory

/-! ## Calls -/

/-- Where a `prepare_key_rotation` call with a new key stands. -/
inductive Prepare (Key Sealed : Type)
  /-- No rotation was pending. -/
  | asked (next : Key) (sealed : Sealed)
  /-- The current version is read. -/
  | ready (next : Key) (sealed : Sealed) (expected : Nat)
  /-- The rows are rotated, the memory is not. -/
  | rotated (next : Key) (version : Nat)
deriving DecidableEq

/-- Where a `finish_key_rotation` call stands. -/
inductive Finish
  /-- A rotation was pending. -/
  | asked
  /-- The rows are marked, the memory still has the outgoing key. -/
  | marked
deriving DecidableEq

section Calls

variable {Key Sealed : Type}

section

variable (rows : KeyRows Sealed)

def Prepare.begin (next : Key) (sealed : Sealed) : Option (Prepare Key Sealed) :=
  if rows.keyRotationInProgress then none else some (.asked next sealed)

/-- The next step of the call, and where it then stands unless it returns. -/
def Prepare.advance (manager : Manager Key) :
    Prepare Key Sealed -> KeyRows Sealed × Manager Key × Option (Prepare Key Sealed)
  | .asked next sealed => (rows, manager, some (.ready next sealed (manager.version + 1)))
  | .ready next sealed expected =>
    match rows.rotateVaultKey sealed expected false false with
    | none => (rows, manager, none)
    | some (after, version) => (after, manager, some (.rotated next version))
  | .rotated next version => (rows, manager.prepared next version, none)

def Finish.begin : Option Finish :=
  if rows.keyRotationInProgress then some .asked else none

def Finish.advance (manager : Manager Key) :
    Finish -> KeyRows Sealed × Manager Key × Option Finish
  | .asked => (rows.markKeyRotationFinished, manager, some .marked)
  | .marked => (rows, manager.finished, none)

end

end Calls

end KeyRotation
end Vault
end Vaulthalla
