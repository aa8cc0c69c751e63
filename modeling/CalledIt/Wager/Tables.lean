import CalledIt.Lib.Transducer
import CalledIt.Wager.Solvency

/-!
# CalledIt.Wager.Tables

The tables of the wagers and the database functions that move money in them
(`db/migrations/0011_wager_hardening.sql`, `0022_usdc_assets.sql`).

A function answers with the tables it leaves, or `none` where it raises: its
transaction is rolled back then.  The locks of a call are taken before it reads, so
`perform` handles one call after the other.
-/

namespace CalledIt.Wager

open Engine (MarketStatus PositionState)

/-! ## rows -/

inductive Currency
  | rep
  | asset (asset : WagerAsset)
  deriving DecidableEq, Repr

inductive LedgerKind
  | deposit
  | starterGrant
  | stake
  | payout
  | refund
  | withdrawal
  | withdrawalRefund
  deriving DecidableEq, Repr

structure LedgerRow extends LedgerEntry where
  kind : LedgerKind
  marketId : Option String
  deriving DecidableEq, Repr

structure StakePosition extends WagerPositionRow where
  marketId : String
  deriving DecidableEq, Repr

structure WithdrawalRequest where
  id : String
  userId : Nat
  destPubkey : String
  asset : WagerAsset
  lamports : Int
  state : WithdrawalState
  deriving DecidableEq, Repr

structure StarterGrant where
  userId : Nat
  positionId : String
  lamports : Nat
  deriving DecidableEq, Repr

structure StarterBudget where
  enabled : Bool
  grantLamports : Nat
  totalCapLamports : Nat
  maxGrants : Nat
  grantedLamports : Nat
  grantedCount : Nat
  deriving DecidableEq, Repr

/-- A user's wallet; `verified` is for `verified_at` and `link_history_id`. -/
structure WalletLink where
  pubkey : String
  verified : Bool
  deriving DecidableEq, Repr

/-- A market, but for its currency, which never changes. -/
structure MarketRow where
  groupId : Int
  status : MarketStatus
  escrow : Bool
  deriving DecidableEq, Repr

/-- What the functions read and do not write. -/
structure Surroundings where
  link : Nat → Option WalletLink
  market : String → Option MarketRow
  groupEnabled : Int → Option Bool
  paused : WagerAsset → Option Bool

structure WagerTables where
  ledger : List LedgerRow
  positions : List StakePosition
  withdrawals : List WithdrawalRequest
  grants : List StarterGrant
  budget : StarterBudget
  surroundings : Surroundings

namespace StarterBudget

/-- The check constraints of the table. -/
def check (budget : StarterBudget) : Bool :=
  budget.grantLamports = 10000000 ∧ budget.totalCapLamports = 5000000000 ∧
    budget.maxGrants = 500 ∧ budget.grantedCount ≤ budget.maxGrants ∧
    budget.grantedLamports ≤ budget.totalCapLamports ∧
    budget.grantedLamports = budget.grantedCount * budget.grantLamports

def recordGrant (budget : StarterBudget) : StarterBudget :=
  { budget with
    grantedCount := budget.grantedCount + 1
    grantedLamports := budget.grantedLamports + budget.grantLamports }

end StarterBudget

/-! ## inserts -/

namespace WagerTables

/-- The key is unique, and a market in escrow takes no entry. -/
def insertLedger (tables : WagerTables) (row : LedgerRow) : Option WagerTables :=
  if (row.marketId.bind tables.surroundings.market).any (·.escrow) then none
  else if tables.ledger.any (·.key = row.key) then none
  else some { tables with ledger := tables.ledger ++ [row] }

def insertPosition (tables : WagerTables) (position : StakePosition) : Option WagerTables :=
  if tables.positions.any (·.id = position.id) then none
  else some { tables with positions := tables.positions ++ [position] }

def insertWithdrawal (tables : WagerTables) (request : WithdrawalRequest) : Option WagerTables :=
  if tables.withdrawals.any (·.id = request.id) then none
  else some { tables with withdrawals := tables.withdrawals ++ [request] }

def insertGrant (tables : WagerTables) (grant : StarterGrant) : Option WagerTables :=
  if grant.lamports ≠ 10000000 ∨
      tables.grants.any (fun g => g.userId = grant.userId ∨ g.positionId = grant.positionId) then
    none
  else some { tables with grants := tables.grants ++ [grant] }

def updateBudget (tables : WagerTables) (budget : StarterBudget) : Option WagerTables :=
  if budget.check then some { tables with budget } else none

end WagerTables

/-! ## balances -/

/-- A sum has to fit into its `bigint` variable. -/
def bigint (value : Int) : Option Int :=
  if -(2 ^ 63) ≤ value ∧ value < 2 ^ 63 then some value else none

def lamportsOf (rows : List LedgerRow) : Int := (rows.map (·.lamports)).sum

/-- The user's balance in the asset. -/
def assetBalance (tables : WagerTables) (userId : Nat) (asset : WagerAsset) : Int :=
  lamportsOf (tables.ledger.filter fun r => r.userId = userId ∧ r.asset = asset)

/-- The sum over the user's entries in all assets. -/
def combinedBalance (tables : WagerTables) (userId : Nat) : Int :=
  lamportsOf (tables.ledger.filter (·.userId = userId))

/-- Rows with different keys have one with a given key at most. -/
theorem length_le_one {rows : List LedgerRow} (hnodup : (rows.map (·.key)).Nodup)
    (key : LedgerKey) (hkey : ∀ r ∈ rows, r.key = key) : rows.length ≤ 1 := by
  have hreplicate : rows.map (·.key) = List.replicate rows.length key :=
    List.eq_replicate_iff.mpr ⟨List.length_map _, fun k hk => by
      obtain ⟨r, hr, rfl⟩ := List.mem_map.mp hk
      exact hkey r hr⟩
  rw [hreplicate] at hnodup
  exact List.nodup_replicate.mp hnodup

/-! ## stakes -/

/-- The arguments of `wager_stake`, and the id that the position gets. -/
structure StakeCall where
  userId : Nat
  groupId : Int
  marketId : String
  side : WagerPositionSide
  lamports : Int
  state : PositionState
  idempotencyKey : Option String
  starterOnly : Bool
  positionId : String
  deriving DecidableEq, Repr

inductive RefusalCode
  | closed
  | wrongSide
  | cap
  | paused
  | starterUnavailable
  | budgetExhausted
  | walletRequired
  | insufficient
  | invalidAsset
  | noWallet
  | walletUnverified
  | withdrawalPending
  deriving DecidableEq, Repr

inductive WagerOutcome
  | staked (positionId : String)
  | duplicate
  | requested (withdrawalId : String)
  | posted (inserted : Bool)
  | refused (code : RefusalCode)
  deriving DecidableEq, Repr

def starterGrantLamports : Nat := 10000000

def stakeCap : WagerAsset → Int
  | .sol => 100000000
  | .usdc => 10000000

namespace StakeCall

def apiKey (key : String) : LedgerKey := .other ("wager:stake:api:" ++ key)

def ledgerKey (call : StakeCall) : LedgerKey :=
  match call.idempotencyKey with
  | some key => apiKey key
  | none => .other ("wager:stake:" ++ call.positionId)

def position (call : StakeCall) : StakePosition :=
  { id := call.positionId
    userId := call.userId
    side := call.side
    state := call.state
    stake := call.lamports.toNat
    marketId := call.marketId }

def debit (call : StakeCall) (asset : WagerAsset) : LedgerRow :=
  { userId := call.userId
    asset
    lamports := -call.lamports
    key := call.ledgerKey
    kind := .stake
    marketId := some call.marketId }

def starterCredit (call : StakeCall) (budget : StarterBudget) : LedgerRow :=
  { userId := call.userId
    asset := .sol
    lamports := budget.grantLamports
    key := .other ("wager:starter:" ++ toString call.userId)
    kind := .starterGrant
    marketId := some call.marketId }

def grant (call : StakeCall) (budget : StarterBudget) : StarterGrant :=
  { userId := call.userId, positionId := call.positionId, lamports := budget.grantLamports }

end StakeCall

/-- The branch that pays for the stake with a starter grant. -/
def starterStake (tables : WagerTables) (call : StakeCall) (asset : WagerAsset) :
    Option (WagerTables × WagerOutcome) :=
  let budget := tables.budget
  if asset ≠ .sol ∨ call.lamports ≠ starterGrantLamports ∨
      tables.grants.any (·.userId = call.userId) then
    some (tables, .refused .starterUnavailable)
  else if !budget.enabled then some (tables, .refused .starterUnavailable)
  else if budget.maxGrants ≤ budget.grantedCount ∨
      budget.totalCapLamports < budget.grantedLamports + budget.grantLamports then
    some (tables, .refused .budgetExhausted)
  else do
    let tables ← tables.insertPosition call.position
    let tables ← tables.insertLedger (call.starterCredit budget)
    let tables ← tables.insertLedger (call.debit .sol)
    let tables ← tables.insertGrant (call.grant budget)
    let tables ← tables.updateBudget budget.recordGrant
    some (tables, .staked call.positionId)

/-- The branch that pays for the stake with the balance. -/
def fundedStake (tables : WagerTables) (call : StakeCall) (asset : WagerAsset) :
    Option (WagerTables × WagerOutcome) :=
  if (tables.surroundings.link call.userId).isNone then some (tables, .refused .walletRequired)
  else do
    let balance ← bigint (assetBalance tables call.userId asset)
    if balance < call.lamports then some (tables, .refused .insufficient)
    else
      let tables ← tables.insertPosition call.position
      let tables ← tables.insertLedger (call.debit asset)
      some (tables, .staked call.positionId)

/-- The positions of the market that are not void. -/
def livePositions (tables : WagerTables) (marketId : String) : List StakePosition :=
  tables.positions.filter fun p => p.marketId = marketId ∧ p.state ≠ .void

/-- The asset that the market takes the stake in, or why it does not take it.  A
missing status row of the asset raises. -/
def stakeAsset (currencyOf : String → Currency) (tables : WagerTables) (call : StakeCall) :
    Option (Except RefusalCode WagerAsset) :=
  let surroundings := tables.surroundings
  let mine := (livePositions tables call.marketId).filter (·.userId = call.userId)
  match surroundings.market call.marketId, currencyOf call.marketId with
  | some market, .asset asset =>
      if market.groupId ≠ call.groupId ∨
          (market.status ≠ .pendingLineup ∧ market.status ≠ .open) then
        some (.error .closed)
      else if surroundings.groupEnabled call.groupId = some false then some (.error .closed)
      else if mine.any (·.side ≠ call.side) then some (.error .wrongSide)
      else if stakeCap asset < (mine.map (·.stake)).sum + call.lamports then some (.error .cap)
      else
        (surroundings.paused asset).map fun paused =>
          if paused then .error .paused else .ok asset
  | _, _ => some (.error .closed)

/-- `wager_stake`; `currencyOf` tells the currency a market was made with. -/
def wagerStake (currencyOf : String → Currency) (tables : WagerTables) (call : StakeCall) :
    Option (WagerTables × WagerOutcome) :=
  if call.lamports ≤ 0 then none
  else if call.state ≠ .pending ∧ call.state ≠ .active then some (tables, .refused .closed)
  else if call.idempotencyKey.any fun key => tables.ledger.any (·.key = StakeCall.apiKey key) then
    some (tables, .duplicate)
  else
    match stakeAsset currencyOf tables call with
    | none => none
    | some (.error code) => some (tables, .refused code)
    | some (.ok asset) =>
        if call.starterOnly then starterStake tables call asset
        else fundedStake tables call asset

/-! ## withdrawals -/

/-- The arguments of a withdrawal, and the id that its row gets. -/
structure WithdrawalCall where
  userId : Nat
  lamports : Int
  withdrawalId : String
  deriving DecidableEq, Repr

namespace WithdrawalCall

def request (call : WithdrawalCall) (asset : WagerAsset) (destPubkey : String) :
    WithdrawalRequest :=
  { id := call.withdrawalId
    userId := call.userId
    destPubkey
    asset
    lamports := call.lamports
    state := .debited }

def ledgerKey (call : WithdrawalCall) : LedgerKey :=
  .other ("wager:withdrawal:" ++ call.withdrawalId)

def debit (call : WithdrawalCall) (asset : WagerAsset) : LedgerRow :=
  { userId := call.userId
    asset
    lamports := -call.lamports
    key := call.ledgerKey
    kind := .withdrawal
    marketId := none }

end WithdrawalCall

/-- The row of the withdrawal and its debit. -/
def writeWithdrawal (tables : WagerTables) (call : WithdrawalCall) (asset : WagerAsset)
    (destPubkey : String) : Option (WagerTables × WagerOutcome) := do
  let tables ← tables.insertWithdrawal (call.request asset destPubkey)
  let tables ← tables.insertLedger (call.debit asset)
  some (tables, .requested call.withdrawalId)

/-- `wager_request_withdrawal(bigint, text, bigint)`. -/
def requestWithdrawal (tables : WagerTables) (call : WithdrawalCall) (asset : WagerAsset) :
    Option (WagerTables × WagerOutcome) :=
  if call.lamports ≤ 0 then some (tables, .refused .invalidAsset)
  else
    match tables.surroundings.link call.userId with
    | none => some (tables, .refused .noWallet)
    | some link => do
        let balance ← bigint (assetBalance tables call.userId asset)
        if balance < call.lamports then some (tables, .refused .insufficient)
        else writeWithdrawal tables call asset link.pubkey

def WithdrawalRequest.isPending (request : WithdrawalRequest) : Bool :=
  request.state = .debited ∨ request.state = .submitted

def hasPendingWithdrawal (tables : WagerTables) (userId : Nat) : Bool :=
  tables.withdrawals.any fun w => w.userId = userId ∧ w.isPending

/-- `wager_request_withdrawal(bigint, bigint)`: the balance is summed over all
entries, and the debit gets the default asset. -/
def requestSolWithdrawal (tables : WagerTables) (call : WithdrawalCall) :
    Option (WagerTables × WagerOutcome) :=
  if call.lamports ≤ 0 then none
  else
    match tables.surroundings.link call.userId with
    | none => some (tables, .refused .noWallet)
    | some link =>
        if !link.verified then some (tables, .refused .walletUnverified)
        else if hasPendingWithdrawal tables call.userId then
          some (tables, .refused .withdrawalPending)
        else do
          let balance ← bigint (combinedBalance tables call.userId)
          if balance < call.lamports then some (tables, .refused .insufficient)
          else writeWithdrawal tables call .sol link.pubkey

/-! ## credits -/

/-- What `postWagerLedger` and `wager_credit_deposit` post: deposits, the credits of a
settlement and refunds of withdrawals.  None of them takes from a balance. -/
structure Credit where
  row : LedgerRow
  kind_mem : row.kind ∈ [.deposit, .payout, .refund, .withdrawalRefund]
  lamports_nonneg : 0 ≤ row.lamports

/-- An entry with a key that was posted before is ignored. -/
def postWagerLedger (tables : WagerTables) (credit : Credit) :
    Option (WagerTables × WagerOutcome) :=
  if (credit.row.marketId.bind tables.surroundings.market).any (·.escrow) then none
  else if tables.ledger.any (·.key = credit.row.key) then some (tables, .posted false)
  else some ({ tables with ledger := tables.ledger ++ [credit.row] }, .posted true)

/-! ## calls -/

/-- The calls that move money, and what other statements may change in between. -/
inductive WagerCall
  | stake (call : StakeCall)
  | requestWithdrawal (call : WithdrawalCall) (asset : WagerAsset)
  | requestSolWithdrawal (call : WithdrawalCall)
  | credit (credit : Credit)
  | setPositionState (id : String) (state : PositionState)
  | setWithdrawalState (id : String) (state : WithdrawalState)
  | enableStarter (enabled : Bool)
  | elsewhere (surroundings : Surroundings)

def setPositionState (tables : WagerTables) (id : String) (state : PositionState) : WagerTables :=
  { tables with
    positions := tables.positions.map fun p => if p.id = id then { p with state } else p }

def setWithdrawalState (tables : WagerTables) (id : String) (state : WithdrawalState) :
    WagerTables :=
  { tables with
    withdrawals := tables.withdrawals.map fun w => if w.id = id then { w with state } else w }

/-- A call that raises leaves the tables as they were. -/
def commit (tables : WagerTables) (result : Option (WagerTables × WagerOutcome)) :
    WagerTables × List WagerOutcome :=
  match result with
  | none => (tables, [])
  | some (tables, outcome) => (tables, [outcome])

def perform (currencyOf : String → Currency) (tables : WagerTables) :
    WagerCall → WagerTables × List WagerOutcome
  | .stake call => commit tables (wagerStake currencyOf tables call)
  | .requestWithdrawal call asset => commit tables (requestWithdrawal tables call asset)
  | .requestSolWithdrawal call => commit tables (requestSolWithdrawal tables call)
  | .credit credit => commit tables (postWagerLedger tables credit)
  | .setPositionState id state => (setPositionState tables id state, [])
  | .setWithdrawalState id state => (setWithdrawalState tables id state, [])
  | .enableStarter enabled => ({ tables with budget := { tables.budget with enabled } }, [])
  | .elsewhere surroundings => ({ tables with surroundings }, [])

end CalledIt.Wager
