import Mathlib.Data.List.Sort
import Vaulthalla.Foundation.ByteString
import Vaulthalla.Foundation.Pool
import Vaulthalla.Foundation.Table
import Vaulthalla.Foundation.Transition

namespace Vaulthalla
namespace Pricing

open Foundation

/-!
# Price budgets

A run asks for its estimated cost before it starts.  `preflight` reads what every
matching policy has used in the current windows, and records one reservation for
each policy and window if no enforced limit stands against it.  The run later
commits what it has cost, or releases its reservations; a reservation of more
than a day expires.

The service is a client of the database.  A preflight is one transaction of many
statements under `READ COMMITTED`: each statement reads what is committed when it
runs, and what the transaction writes shows when it commits.  It holds the rows
of its policies from `SELECT … FOR UPDATE` on, and the ledger rows it has expired.
The other calls are one statement each, and wait for rows that are held.
-/

/-! ## Amounts -/

/-- A decimal text: its digits, and how many of them stand after the point. -/
structure Decimal where
  (digits scale : Nat)

/-- The amount in a `NUMERIC(20,8)` column, in units of its last digit: the column rounds half up. -/
def Decimal.stored (decimal : Decimal) : Nat :=
  (2 * (decimal.digits * 10 ^ 8) + 10 ^ decimal.scale) / (2 * 10 ^ decimal.scale)

/-- `used + requested > limit`, in exact decimals. -/
def Decimal.exceeds (requested : Decimal) (used limit : Nat) : Bool :=
  decide (limit * 10 ^ requested.scale < used * 10 ^ requested.scale + requested.digits * 10 ^ 8)

def isValidPriceBudgetDecimal (decimal : Decimal) : Bool :=
  decide (decimal.scale ≤ 8)

/-! ## Policies -/

inductive Mode
  | off | report | warn | enforce
deriving DecidableEq

inductive Scope
  | global | provider | vault | gatewayCredential | gatewayCredentialVault
deriving DecidableEq

inductive Window
  | perRun | daily | monthly
deriving DecidableEq

structure Policy where
  id : Nat
  scope : Scope
  providerKey : Option Str
  (vaultId gatewayCredentialId : Option Nat)
  mode : Mode
  currency : Str
  (maxRunCost maxDailyCost maxMonthlyCost : Option Nat)
  (requireVerifiedCatalog allowStaleCatalog : Bool)
  maxCatalogAgeSeconds : Option Int
  isActive : Bool
deriving DecidableEq

def limitForWindow (policy : Policy) : Window -> Option Nat
  | .perRun => policy.maxRunCost
  | .daily => policy.maxDailyCost
  | .monthly => policy.maxMonthlyCost

def configuredWindows (policy : Policy) : List Window :=
  let windows := [Window.perRun, .daily, .monthly].filter fun window => (limitForWindow policy window).isSome
  if windows = [] then [.perRun] else windows

/-- `date_trunc` in the time zone of the database session. -/
structure Calendar where
  day : Int -> Int
  month : Int -> Int

variable (calendar : Calendar)

def windowStart (timestamp : Int) : Window -> Int
  | .perRun => timestamp
  | .daily => calendar.day timestamp
  | .monthly => calendar.month timestamp

/-! ## Requests -/

structure PriceEstimateReport where
  (available supported : Bool)
  (unavailableReason estimateMode freeTierPolicy : Str)
  /-- Nothing for an empty text. -/
  estimatedCost : Option Decimal
  currency : Str
  (catalogVerified stale : Bool)
  catalogAgeSeconds : Option Int

structure PreflightRequest where
  vaultId : Nat
  (runUuid providerKey : Str)
  providerSupported : Bool
  estimate : PriceEstimateReport
  dryRun : Bool
  overridePolicyIds : List Nat
  gatewayCredentialId : Option Nat
  (gatewayScopesOnly synthetic : Bool)

def budgetMode : Str := str "budget_conservative"
def budgetFreeTierPolicy : Str := str "ignore_account_wide_free_tiers"

def estimateCanBeReserved (estimate : PriceEstimateReport) : Bool :=
  estimate.available && estimate.estimateMode == budgetMode && estimate.freeTierPolicy == budgetFreeTierPolicy &&
    estimate.estimatedCost.isSome && !estimate.currency.isEmpty

/-- The cost of an estimate; an empty text counts as zero. -/
def PriceEstimateReport.cost (estimate : PriceEstimateReport) : Decimal :=
  estimate.estimatedCost.getD { digits := 0, scale := 0 }

def isSpace (byte : UInt8) : Bool :=
  byte == 32 || (9 ≤ byte && byte ≤ 13)

def normalizePriceBudgetCurrency (value : Str) : Str :=
  (((value.dropWhile isSpace).reverse.dropWhile isSpace).reverse).map fun byte =>
    if 97 ≤ byte ∧ byte ≤ 122 then byte - 32 else byte

def isGatewayCredentialScope : Scope -> Bool
  | .gatewayCredential | .gatewayCredentialVault => true
  | .global | .provider | .vault => false

variable (request : PreflightRequest)

/-- `policyWhereClause` without the inactive policies. -/
def policyMatches (policy : Policy) : Bool :=
  let ofProvider := policy.providerKey = none ∨ policy.providerKey = some request.providerKey
  decide (policy.isActive = true ∧ policy.mode ≠ .off ∧
    ((request.gatewayScopesOnly = false ∧
        (policy.scope = .global ∨
          (policy.scope = .provider ∧ policy.providerKey = some request.providerKey) ∨
          (policy.scope = .vault ∧ policy.vaultId = some request.vaultId ∧ ofProvider))) ∨
      (request.gatewayCredentialId.isSome ∧ policy.gatewayCredentialId = request.gatewayCredentialId ∧ ofProvider ∧
        (policy.scope = .gatewayCredential ∨
          (policy.scope = .gatewayCredentialVault ∧ policy.vaultId = some request.vaultId)))))

/-- Why the policy cannot be evaluated for the request. -/
def policyIssue (policy : Policy) : Option Str :=
  let estimate := request.estimate
  if request.providerSupported = false ∧ policy.scope ≠ .global ∧
      (request.synthetic && isGatewayCredentialScope policy.scope) = false then
    some (str "price budget cannot be evaluated: provider is unsupported for local S3 pricing")
  else if estimate.supported = false then
    some (str "price budget cannot be evaluated: " ++ estimate.unavailableReason)
  else if estimate.available = false then
    some (str "price budget cannot be evaluated: " ++ estimate.unavailableReason)
  else if estimate.estimateMode ≠ budgetMode ∨ estimate.freeTierPolicy ≠ budgetFreeTierPolicy then
    some (str "price budget cannot be evaluated from a non-budget-conservative estimate")
  else if policy.requireVerifiedCatalog = true ∧ estimate.catalogVerified = false then
    some (str "price budget cannot be evaluated: verified pricing catalog is required")
  else if estimate.stale = true ∧ policy.allowStaleCatalog = false then
    some (str "price budget cannot be evaluated: pricing catalog is stale")
  else if estimate.stale = true ∧ policy.allowStaleCatalog = true ∧
      (match policy.maxCatalogAgeSeconds, estimate.catalogAgeSeconds with
        | some maximum, some age => decide (maximum < age)
        | _, _ => false) = true then
    some (str "price budget cannot be evaluated: stale pricing catalog is older than policy max age")
  else if normalizePriceBudgetCurrency estimate.currency ≠ normalizePriceBudgetCurrency policy.currency then
    some (str "price budget currency mismatch: estimate is " ++ estimate.currency ++ str ", policy is " ++
      policy.currency)
  else none

/-! ## Decisions -/

structure WindowCheck where
  policyId : Nat
  scope : Scope
  mode : Mode
  window : Window
  currency : Str
  limit : Option Nat
  usedBefore : Nat
  remainingBefore : Option Int
  requested : Decimal
  exceeded : Bool

inductive Warning
  | issue (policyId : Nat) (text : Str)
  | overridden (policyId : Nat) (window : Window)
  | wouldExceed (check : WindowCheck)

inductive Reason
  | issue (policyId : Nat) (text : Str)
  | exceeded (check : WindowCheck)

structure Decision where
  /-- The first reason that stalls the run; it is allowed when there is none. -/
  stalled : Option Reason
  warnings : List Warning
  (checks blockingChecks : List WindowCheck)

def Decision.empty : Decision where
  stalled := none
  warnings := []
  checks := []
  blockingChecks := []

variable (decision : Decision)

def setBlocked (policy : Policy) (text : Str) : Decision :=
  if decision.stalled.isSome then decision else { decision with stalled := some (.issue policy.id text) }

def appendWarning (warning : Warning) : Decision :=
  { decision with warnings := decision.warnings ++ [warning] }

def windowPriority : Window -> Nat
  | .monthly => 0
  | .daily => 1
  | .perRun => 2

def primaryBlockingLess (preferGatewayCredentialVault : Bool) (first second : WindowCheck) : Bool :=
  if windowPriority first.window ≠ windowPriority second.window then
    decide (windowPriority first.window < windowPriority second.window)
  else if preferGatewayCredentialVault = true ∧ isGatewayCredentialScope first.scope = true ∧
      isGatewayCredentialScope second.scope = true ∧ first.scope ≠ second.scope then
    decide (first.scope = .gatewayCredentialVault)
  else if first.remainingBefore.getD 0 ≠ second.remainingBefore.getD 0 then
    decide (first.remainingBefore.getD 0 < second.remainingBefore.getD 0)
  else decide (first.policyId < second.policyId)

/-- Checks that block take the place of any earlier reason. -/
def finalizeBlockingDecision : Decision :=
  match decision.blockingChecks with
  | [] => decision
  | first :: rest =>
    let hasScope scope := (first :: rest).any fun check => check.scope == scope
    let prefer := hasScope .gatewayCredentialVault && !hasScope .gatewayCredential
    let primary := rest.foldl (fun best check => if primaryBlockingLess prefer check best then check else best) first
    { decision with stalled := some (.exceeded primary) }

/-! ## The ledger -/

inductive Status
  | reserved | committed | released | expired
deriving DecidableEq

structure LedgerRow where
  (id policyId : Nat)
  runUuid : Str
  window : Window
  windowStart : Int
  reservedCost : Nat
  committedCost : Option Nat
  status : Status
  createdAt : Int
deriving DecidableEq

/-- A row as a transaction sees it that has expired the given rows itself. -/
def LedgerRow.isActive (row : LedgerRow) (expired : List Nat) : Prop :=
  (row.status = .reserved ∧ row.id ∉ expired) ∨ row.status = .committed

instance (row : LedgerRow) (expired : List Nat) : Decidable (row.isActive expired) :=
  inferInstanceAs (Decidable (_ ∨ _))

/-- What the row adds to the use of a policy in a window. -/
def LedgerRow.charge (expired : List Nat) (policyId : Nat) (window : Window) (start : Int) (row : LedgerRow) : Nat :=
  if row.policyId = policyId ∧ row.window = window ∧ row.windowStart = start ∧ row.isActive expired then
    row.committedCost.getD row.reservedCost
  else 0

variable (ledger : List LedgerRow)

def charged (expired : List Nat) (policyId : Nat) (window : Window) (start : Int) : Nat :=
  Pool.total (LedgerRow.charge expired policyId window start) ledger

def usedForWindow (expired : List Nat) (policy : Policy) (window : Window) (start : Int) : Nat :=
  if window = .perRun then 0 else charged ledger expired policy.id window start

/-- `UPDATE … WHERE id IN (…) AND status = 'reserved'` -/
def updateReserved (ids : List Nat) (change : LedgerRow -> LedgerRow) (ledger : List LedgerRow) : List LedgerRow :=
  ledger.map fun row => if row.id ∈ ids ∧ row.status = .reserved then change row else row

def staleReservationAge : Int := 24 * 60 * 60

/-- The reservations that are stale at the given time. -/
def staleIds (timestamp : Int) : List Nat :=
  (ledger.filter fun row => row.status = .reserved ∧ row.createdAt < timestamp - staleReservationAge).map (·.id)

def expireRows (ids : List Nat) (ledger : List LedgerRow) : List LedgerRow :=
  updateReserved ids (fun row => { row with status := .expired }) ledger

/-! ## Preflight transactions -/

/-- What the loop over the policies still has to do. -/
inductive Item
  | issue (policy : Policy) (text : Str)
  | check (policy : Policy) (window : Window)
deriving DecidableEq

def itemsOf (policy : Policy) : List Item :=
  if policy.mode = .off then []
  else
    match policyIssue request policy with
    | some text => [.issue policy text]
    | none =>
      if estimateCanBeReserved request.estimate then (configuredWindows policy).map (.check policy)
      else [.issue policy (str "price budget cannot be evaluated")]

inductive Phase
  | begun | expired
  /-- The rows that `FOR UPDATE` still has to lock, in the order of their ids. -/
  | locking (ids : List Nat)
  | checking (items : List Item)
deriving DecidableEq

structure Transaction where
  request : PreflightRequest
  /-- `CURRENT_TIMESTAMP` -/
  timestamp : Int
  /-- The reservations that the transaction has expired. -/
  expired : List Nat
  /-- The policies whose rows it holds, as it has read them. -/
  policies : List Policy
  decision : Decision
  phase : Phase

variable (transaction : Transaction)

def Transaction.holds (policyId : Nat) : Bool :=
  transaction.policies.any fun policy => policy.id == policyId

def checkWindow (policy : Policy) (window : Window) (used : Nat) : WindowCheck where
  policyId := policy.id
  scope := policy.scope
  mode := policy.mode
  window := window
  currency := policy.currency
  limit := limitForWindow policy window
  usedBefore := used
  remainingBefore := (limitForWindow policy window).map fun limit => (limit : Int) - used
  requested := request.estimate.cost
  exceeded := ((limitForWindow policy window).map (request.estimate.cost.exceeds used)).getD false

def recordCheck (check : WindowCheck) : Decision :=
  let checked := { decision with checks := decision.checks ++ [check] }
  if check.exceeded then
    match check.mode with
    | .enforce =>
      if check.policyId ∈ request.overridePolicyIds then
        appendWarning checked (.overridden check.policyId check.window)
      else { checked with blockingChecks := checked.blockingChecks ++ [check] }
    | .warn => appendWarning checked (.wouldExceed check)
    | .off | .report => checked
  else checked

def recordIssue (policy : Policy) (text : Str) : Decision :=
  if policy.mode = .enforce then setBlocked decision policy text else appendWarning decision (.issue policy.id text)

/-- The policies and windows for which reservations are recorded. -/
def reservationsOf (policies : List Policy) : List (Policy × Window) :=
  policies.flatMap fun policy =>
    if policy.mode ≠ .off ∧ policyIssue request policy = none ∧ estimateCanBeReserved request.estimate = true ∧
        normalizePriceBudgetCurrency request.estimate.currency = normalizePriceBudgetCurrency policy.currency then
      (configuredWindows policy).map fun window => (policy, window)
    else []

def reservationRow (id : Nat) (target : Policy × Window) :
    LedgerRow where
  id := id
  policyId := target.1.id
  runUuid := transaction.request.runUuid
  window := target.2
  windowStart := windowStart calendar transaction.timestamp target.2
  reservedCost := transaction.request.estimate.cost.stored
  committedCost := none
  status := .reserved
  createdAt := transaction.timestamp

/-- The rows that the transaction inserts, from the given id on. -/
def Transaction.inserts (firstId : Nat) : List LedgerRow :=
  if (finalizeBlockingDecision transaction.decision).stalled.isSome || transaction.request.dryRun ||
      !estimateCanBeReserved transaction.request.estimate then []
  else
    (reservationsOf transaction.request transaction.policies).zipIdx.map fun target =>
      reservationRow calendar transaction (firstId + target.2) target.1

/-! ## The system -/

structure State where
  now : Int
  policies : Table Policy Policy.id
  ledger : List LedgerRow
  nextId : Nat
  transactions : List Transaction

/-- An empty ledger; a `SERIAL` starts at one. -/
def initial (policies : Table Policy Policy.id) : State where
  now := 0
  policies := policies
  ledger := []
  nextId := 1
  transactions := []

/-- An open transaction has expired one of the reservations, and holds its row. -/
def State.holdsRow (state : State) (ids : List Nat) : Bool :=
  state.transactions.any fun transaction => transaction.expired.any fun id => id ∈ ids

inductive Label
  | tick (elapsed : Nat)
  | begin (request : PreflightRequest)
  /-- The next statement of an open preflight; `finish` ends it with its commit. -/
  | expireOwn (index : Nat)
  | select (index : Nat)
  | lock (index : Nat)
  | evaluate (index : Nat)
  | finish (index : Nat)
  /-- The connection is lost or a statement fails. -/
  | abort (index : Nat)
  | commit (reservations : List Nat) (finalCost : Option Decimal)
  | release (reservations : List Nat)
  | expireStaleReservations
  /-- An `upsertPolicy` of a policy that exists, for its limits. -/
  | setLimits (policyId : Nat) (maxRun maxDaily maxMonthly : Option Nat)

def withLimits (policyId : Nat) (maxRun maxDaily maxMonthly : Option Nat) (policy : Policy) : Policy :=
  if policy.id = policyId then
    { policy with maxRunCost := maxRun, maxDailyCost := maxDaily, maxMonthlyCost := maxMonthly }
  else policy

theorem withLimits_id (policyId : Nat) (maxRun maxDaily maxMonthly : Option Nat) (policy : Policy) :
    (withLimits policyId maxRun maxDaily maxMonthly policy).id = policy.id := by
  unfold withLimits
  split <;> rfl

/-- `reservationIds` -/
def reservationIds (reservations : List Nat) : List Nat :=
  reservations.filter fun id => id != 0

def commitRow (finalCost : Option Decimal) (row : LedgerRow) : LedgerRow :=
  { row with status := .committed, committedCost := some ((finalCost.map Decimal.stored).getD row.reservedCost) }

/-- The statements of a preflight.  Nothing when the statement has to wait. -/
def Transaction.statement (state : State) (others : List Transaction) (calendar : Calendar)
    (transaction : Transaction) : Label -> Option Transaction
  | .expireOwn _ =>
    let stale := staleIds state.ledger transaction.timestamp
    if transaction.phase = .begun ∧ (others.any fun other => other.expired.any fun id => id ∈ stale) = false then
      some { transaction with expired := stale, phase := .expired }
    else none
  | .select _ =>
    if transaction.phase = .expired then
      some { transaction with
        phase := .locking (((state.policies.rows.filter (policyMatches transaction.request)).map (·.id)).insertionSort
          (· ≤ ·)) }
    else none
  | .lock _ =>
    match transaction.phase with
    | .locking [] =>
      some { transaction with
        phase := .checking (transaction.policies.flatMap (itemsOf transaction.request)) }
    | .locking (id :: rest) =>
      if others.any fun other => other.holds id then none
      else
        -- the row is read again once it is locked
        match state.policies.find id with
        | some policy =>
          if policyMatches transaction.request policy then
            some { transaction with policies := transaction.policies ++ [policy], phase := .locking rest }
          else some { transaction with phase := .locking rest }
        | none => some { transaction with phase := .locking rest }
    | _ => none
  | .evaluate _ =>
    match transaction.phase with
    | .checking (.issue policy text :: rest) =>
      some { transaction with
        decision := recordIssue transaction.decision policy text
        phase := .checking rest }
    | .checking (.check policy window :: rest) =>
      let used := usedForWindow state.ledger transaction.expired policy window
        (windowStart calendar transaction.timestamp window)
      some { transaction with
        decision := recordCheck transaction.request transaction.decision
          (checkWindow transaction.request policy window used)
        phase := .checking rest }
    | _ => none
  | _ => none

def State.step (state : State) (label : Label) : Option State :=
  match label with
  | .tick elapsed => some { state with now := state.now + elapsed }
  | .begin request =>
    some { state with
      transactions := state.transactions ++
        [{ request := request, timestamp := state.now, expired := [], policies := [], decision := .empty,
           phase := .begun }] }
  | .expireOwn index | .select index | .lock index | .evaluate index =>
    state.transactions[index]?.bind fun transaction =>
      (transaction.statement state (state.transactions.eraseIdx index) calendar label).map fun next =>
        { state with transactions := state.transactions.set index next }
  | .finish index =>
    state.transactions[index]?.bind fun transaction =>
      if transaction.phase = .checking [] then
        let inserted := transaction.inserts calendar state.nextId
        some { state with
          ledger := expireRows transaction.expired state.ledger ++ inserted
          nextId := state.nextId + inserted.length
          transactions := state.transactions.eraseIdx index }
      else none
  | .abort index => some { state with transactions := state.transactions.eraseIdx index }
  | .commit reservations finalCost =>
    let ids := reservationIds reservations
    if (finalCost.all isValidPriceBudgetDecimal) = true ∧ state.holdsRow ids = false then
      some { state with ledger := updateReserved ids (commitRow finalCost) state.ledger }
    else none
  | .release reservations =>
    let ids := reservationIds reservations
    if state.holdsRow ids = false then
      some { state with
        ledger := updateReserved ids (fun row => { row with status := .released }) state.ledger }
    else none
  | .expireStaleReservations =>
    let stale := staleIds state.ledger state.now
    if state.holdsRow stale = false then some { state with ledger := expireRows stale state.ledger }
    else none
  | .setLimits policyId maxRun maxDaily maxMonthly =>
    if state.transactions.any fun transaction => transaction.holds policyId then none
    else
      some { state with
        policies := state.policies.update (withLimits policyId maxRun maxDaily maxMonthly)
          (withLimits_id policyId maxRun maxDaily maxMonthly) }

end Pricing
end Vaulthalla
