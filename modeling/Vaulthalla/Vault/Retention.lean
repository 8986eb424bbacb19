import Vaulthalla.Foundation.Transition

namespace Vaulthalla
namespace Vault
namespace Retention

/-!
# Deletion of one vault

Deleting a vault is a schedule.  `schedule` marks the vault row as deleted,
inserts the deletion record and copies the key versions; `restore` takes a
pending record back, and `expedite` makes it due.  A retention pass claims a
due record, empties the bucket if that was asked for, removes the backing
directories and finishes the purge; later it removes the key copies.

Every database call is one transaction, and the steps of a pass lie between
them.  A pass may fail or its process may die between any two steps, and any
number of passes may be under way, which is more than the one that the pass
mutex admits.  The clock of the database and of the passes is one clock.
-/

/-! ## Rows -/

inductive DeletionState
  | pending | purging | purged
deriving DecidableEq

/-- A row of `vault_deletion`. -/
structure Deletion where
  state : DeletionState
  (purgeAfter keyRetainUntil : Nat)
  (deleteUpstream upstreamPurged : Bool)
  nextAttemptAt : Option Nat
  keyPurged : Bool

/-- The vault row with the versions in `vault_keys` and `vault_keys_trashed`, which go with it. -/
structure VaultRow where
  deleted : Bool
  keys : List Nat

inductive Data
  | upstream | backing | cache | versions

/-- The three directories that `removeBackingData` removes in turn. -/
def Data.backingParts : List Data :=
  [.backing, .cache, .versions]

/-- A removal of data, with the time and the `purge_after` of the record at that time. -/
structure Removal where
  data : Data
  time : Nat
  purgeAfter : Option Nat

/-! ## Passes -/

/-- Where a pass stands with the record that it has claimed. -/
inductive Control
  | idle
  /-- The record as `claimDue` returned it. -/
  | claimed (now : Nat) (record : Deletion)
  /-- The blocker check has passed, and the bucket is emptied page by page. -/
  | emptying (now : Nat)
  | emptied (now : Nat)
  /-- The parts of the backing data that are still to be removed. -/
  | removing (now : Nat) (rest : List Data)
  /-- Only `deferPurge` or `recordFailure` is left. -/
  | failing (now : Nat) (retryAt : Nat)
  /-- Only `expireKeys` is left. -/
  | expiring (now : Nat)

inductive PassEvent
  /-- The claim of a pass that has read the clock at the given time. -/
  | claimDue (now : Nat)
  /-- The pass is asked to stop, or a step throws. -/
  | stop (retryAt : Nat)
  /-- What is to be done upstream, and whether anything forbids it. -/
  | check (blocked : Bool)
  | deleteObject | listEmpty
  /-- The share of the pass is used up. -/
  | deferred | markUpstreamPurged | removeNext | finishPurge | record | expireKeys | crash

inductive Label (Pass : Type)
  | tick (elapsed : Nat)
  | schedule (window keyWindow : Nat) (deleteUpstream : Bool)
  | restore
  | expedite (deleteUpstream : Option Bool)
  /-- The key versions of a live vault change. -/
  | rekey (keys : List Nat)
  | pass (pass : Pass) (event : PassEvent)

/-- The state of one vault.  `owed` are the key versions it had when it was last scheduled, as long as its keys have not
been changed since by itself. -/
structure State (Pass : Type) where
  isS3 : Bool
  now : Nat
  vault : Option VaultRow
  record : Option Deletion
  copies : List Nat
  passes : Pass -> Control
  removals : List Removal
  owed : List Nat

namespace State

variable {Pass : Type}

def live (state : State Pass) : Bool :=
  state.vault.any fun row => !row.deleted

/-! ## Statements -/

section

variable (state : State Pass)

/-- `Deletion::schedule`, which throws for a vault that is gone or deleted. -/
def schedule (window keyWindow : Nat) (deleteUpstream : Bool) : Option (State Pass) :=
  match state.vault, state.record with
  | some row, none =>
    if row.deleted then none
    else
      some { state with
        vault := some { row with deleted := true }
        record := some
          { state := .pending, purgeAfter := state.now + window
            keyRetainUntil := max (state.now + keyWindow) (state.now + window)
            deleteUpstream := deleteUpstream && state.isS3, upstreamPurged := false, nextAttemptAt := none
            keyPurged := false }
        copies := row.keys
        owed := row.keys }
  | _, _ => none

/-- `Deletion::restore` returns true. -/
def restorable : Bool :=
  state.record.any (fun record => record.state = .pending) && state.vault.any fun row => row.deleted

/-- `Deletion::restore`.  The key copies go with the record. -/
def restore : State Pass :=
  if state.restorable then
    { state with
      vault := state.vault.map fun row => { row with deleted := false }
      record := none
      copies := [] }
  else state

/-- `Deletion::expedite`. -/
def expedite (deleteUpstream : Option Bool) : State Pass :=
  { state with
    record := state.record.map fun record =>
      if record.state = .purged then record
      else
        { record with
          purgeAfter := min record.purgeAfter state.now
          nextAttemptAt := if record.state = .purging then some state.now else record.nextAttemptAt
          deleteUpstream := deleteUpstream.getD record.deleteUpstream } }

end

/-- Whether `claimDue` takes the record. -/
def due (record : Deletion) (now : Nat) : Bool :=
  match record.state with
  | .pending => decide (record.purgeAfter ≤ now)
  | .purging => record.nextAttemptAt.all fun time => decide (time ≤ now)
  | .purged => false

/-- `recordFailure` and `deferPurge`, which find only a record that is being purged. -/
def postpone (state : State Pass) (retryAt : Nat) : State Pass :=
  { state with
    record := state.record.map fun record =>
      if record.state = .purging then { record with nextAttemptAt := some retryAt } else record }

def removeData (state : State Pass) (data : Data) : State Pass :=
  { state with
    removals := { data := data, time := state.now, purgeAfter := state.record.map Deletion.purgeAfter } ::
      state.removals }

/-- `Deletion::finishPurge` where the record is being purged: the vault row goes, with its keys. -/
def finishPurge (state : State Pass) : State Pass :=
  { state with
    vault := state.vault.filter fun row => !row.deleted
    record := state.record.map fun record => { record with state := .purged, nextAttemptAt := none } }

/-- Whether `expireKeys` takes the record. -/
def keysExpire (record : Deletion) (now : Nat) : Bool :=
  record.state == .purged && !record.keyPurged && decide (record.keyRetainUntil ≤ now)

def expireKeys (state : State Pass) (now : Nat) : State Pass :=
  if state.record.any (fun record => keysExpire record now) then
    { state with
      record := state.record.map fun record => { record with keyPurged := true }
      copies := [] }
  else state

/-! ## Steps -/

/-- One step of a pass. -/
def passStep (state : State Pass) (control : Control) (event : PassEvent) : Option (State Pass × Control) :=
  match control, event with
  | .idle, .claimDue now =>
    if state.now < now then none
    else
      match state.record with
      | none => some (state, .expiring now)
      | some record =>
        if due record now then
          let claimed := { record with state := .purging, nextAttemptAt := none }
          some ({ state with record := some claimed }, .claimed now claimed)
        else some (state, .expiring now)
  | .claimed now record, .check blocked =>
    if record.deleteUpstream && state.isS3 && !record.upstreamPurged && !blocked then some (state, .emptying now)
    else some (state, .removing now Data.backingParts)
  | .emptying now, .deleteObject => some (state.removeData .upstream, .emptying now)
  | .emptying now, .listEmpty => some (state, .emptied now)
  | .emptying now, .deferred => some (state, .failing now now)
  | .emptied now, .markUpstreamPurged =>
    some ({ state with record := state.record.map fun record => { record with upstreamPurged := true } },
      .removing now Data.backingParts)
  | .removing now (data :: rest), .removeNext => some (state.removeData data, .removing now rest)
  | .removing now [], .finishPurge =>
    if state.record.any (fun record => record.state = .purging) then some (state.finishPurge, .expiring now)
    else none
  | .claimed now _, .stop retryAt | .emptying now, .stop retryAt | .emptied now, .stop retryAt
  | .removing now _, .stop retryAt => some (state, .failing now retryAt)
  | .failing now retryAt, .record => some (state.postpone retryAt, .expiring now)
  | .expiring now, .expireKeys => some (state.expireKeys now, .idle)
  | _, .crash => some (state, .idle)
  | _, _ => none

variable [DecidableEq Pass]

def step (state : State Pass) (label : Label Pass) : Option (State Pass) :=
  match label with
  | .tick elapsed => some { state with now := state.now + elapsed }
  | .schedule window keyWindow deleteUpstream => state.schedule window keyWindow deleteUpstream
  | .restore => some state.restore
  | .expedite deleteUpstream => some (state.expedite deleteUpstream)
  | .rekey keys =>
    if state.live then
      some { state with vault := state.vault.map fun row => { row with keys := keys }, owed := [] }
    else none
  | .pass pass event =>
    (state.passStep (state.passes pass) event).map fun moved =>
      { moved.1 with passes := Function.update state.passes pass moved.2 }

end State

/-- A live vault, with its key versions. -/
def initial {Pass : Type} (isS3 : Bool) (keys : List Nat) : State Pass :=
  { isS3 := isS3, now := 0, vault := some { deleted := false, keys := keys }, record := none, copies := []
    passes := fun _ => .idle, removals := [], owed := [] }

end Retention
end Vault
end Vaulthalla
