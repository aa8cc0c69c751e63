import Mathlib.Data.List.Dedup
import CalledIt.Lib.Threads
import CalledIt.Wager.Tables

/-!
# CalledIt.Wager.Settling

The application of a settlement (`engine/src/wager/settlement.ts`).

A run reads the market, posts one ledger entry for each refund and each payout, voids
pending positions between the two, and marks the market as applied.  Any number of runs
go on side by side, and each may stop at any call.  The state flip changes what the next
run reads but not what it posts (`Read.creditRows_perm`); with the keys of the ledger,
every market is credited once (`settled_once`).
-/

namespace CalledIt.Wager

open Lib
open Engine (PositionState SettlementOutcome)

/-! ## tables -/

/-- The tables of the wagers, with what a settlement reads beside them. -/
structure SettlementTables extends WagerTables where
  currency : String → Option Currency
  outcome : String → Option SettlementOutcome
  probability : String → Option ℚ
  applied : List String

def positionsOf (tables : SettlementTables) (marketId : String) : List WagerPositionRow :=
  (tables.positions.filter (·.marketId = marketId)).map (·.toWagerPositionRow)

def setPositionStates (tables : SettlementTables) (ids : List String) (state : PositionState) :
    SettlementTables :=
  { tables with
    positions := tables.positions.map fun p => if p.id ∈ ids then { p with state } else p }

/-- What the stakes of the market took from balances. -/
def stakeDebited (tables : SettlementTables) (marketId : String) : Int :=
  -lamportsOf (tables.ledger.filter fun r => r.marketId = some marketId ∧ r.kind = .stake)

/-! ## calls -/

inductive SettlementCall
  | hasSettlementApplied (marketId : String)
  | getMarketAsset (marketId : String)
  | getSettlementOutcome (marketId : String)
  | getMarketProbability (marketId : String)
  | positionsForMarket (marketId : String)
  | stakeDebitedLamportsForMarket (marketId : String)
  | postWagerLedger (credit : Credit)
  | setPositionStates (ids : List String) (state : PositionState)
  | insertSettlementApplied (marketId : String)

namespace SettlementCall

def Reply : SettlementCall → Type
  | hasSettlementApplied _ => Bool
  | getMarketAsset _ => Option WagerAsset
  | getSettlementOutcome _ => Option SettlementOutcome
  | getMarketProbability _ => Option ℚ
  | positionsForMarket _ => List WagerPositionRow
  | stakeDebitedLamportsForMarket _ => Int
  | postWagerLedger _ => Bool
  | setPositionStates _ _ => Unit
  | insertSettlementApplied _ => Unit

/-- What a call answers and leaves.  A call that raises has no answer; its run stops
there. -/
def Answers : (c : SettlementCall) → SettlementTables → c.Reply → SettlementTables → Prop
  | hasSettlementApplied marketId, s, found, t => (found = true ↔ marketId ∈ s.applied) ∧ t = s
  | getMarketAsset marketId, s, asset, t => s.currency marketId = asset.map .asset ∧ t = s
  | getSettlementOutcome marketId, s, outcome, t => outcome = s.outcome marketId ∧ t = s
  | getMarketProbability marketId, s, probability, t =>
      probability = s.probability marketId ∧ t = s
  -- the rows come in no particular order
  | positionsForMarket marketId, s, rows, t => (positionsOf s marketId).Perm rows ∧ t = s
  | stakeDebitedLamportsForMarket marketId, s, debited, t =>
      debited = stakeDebited s marketId ∧ t = s
  | postWagerLedger credit, s, inserted, t =>
      credit.row.lamports.natAbs ≤ maxSafeInteger ∧
        ∃ tables, Wager.postWagerLedger s.toWagerTables credit = some (tables, .posted inserted) ∧
          t = { s with toWagerTables := tables }
  | setPositionStates ids state, s, _, t => t = Wager.setPositionStates s ids state
  | insertSettlementApplied marketId, s, _, t =>
      t = if marketId ∈ s.applied then s else { s with applied := s.applied ++ [marketId] }

end SettlementCall

abbrev SettlementProgram := Program SettlementCall SettlementCall.Reply

/-! ## the application -/

def refundCredit (asset : WagerAsset) (marketId : String) (refund : Refund) : Credit where
  row :=
    { userId := refund.userId
      asset
      lamports := refund.lamports
      key := .refund refund.positionId
      kind := .refund
      marketId := some marketId }
  kind_mem := by simp
  lamports_nonneg := Int.natCast_nonneg _

def payoutCredit (asset : WagerAsset) (marketId : String) (payout : Nat × Nat) : Credit where
  row :=
    { userId := payout.1
      asset
      lamports := payout.2
      key := .payout marketId payout.1
      kind := .payout
      marketId := some marketId }
  kind_mem := by simp
  lamports_nonneg := Int.natCast_nonneg _

/-- The positions whose stakes win. -/
def wins (outcome : SettlementOutcome) (positions : List WagerPositionRow) :
    List WagerPositionRow :=
  positions.filter fun p => !fullRefund outcome p ∧ p.side = winningSide outcome

/-- The entries of the payout map, in the order in which they came in. -/
def payoutEntries (outcome : SettlementOutcome) (positions : List WagerPositionRow)
    (payouts : Store Nat Nat) : List (Nat × Nat) :=
  ((wins outcome positions).map (·.userId)).reverse.dedup.reverse.filterMap fun userId =>
    (payouts.lookup userId).map (userId, ·)

structure WagerSettlementOptions where
  requireFullyBacked : Bool
  /-- The database has `stakeDebitedLamportsForMarket`. -/
  readsDebits : Bool
  deriving DecidableEq, Repr

namespace SettlementProgram

def hasSettlementApplied (marketId : String) : SettlementProgram Bool :=
  Program.perform (SettlementCall.hasSettlementApplied marketId)

def getMarketAsset (marketId : String) : SettlementProgram (Option WagerAsset) :=
  Program.perform (SettlementCall.getMarketAsset marketId)

def getSettlementOutcome (marketId : String) : SettlementProgram (Option SettlementOutcome) :=
  Program.perform (SettlementCall.getSettlementOutcome marketId)

def getMarketProbability (marketId : String) : SettlementProgram (Option ℚ) :=
  Program.perform (SettlementCall.getMarketProbability marketId)

def positionsForMarket (marketId : String) : SettlementProgram (List WagerPositionRow) :=
  Program.perform (SettlementCall.positionsForMarket marketId)

def stakeDebitedLamportsForMarket (marketId : String) : SettlementProgram Int :=
  Program.perform (SettlementCall.stakeDebitedLamportsForMarket marketId)

/-- Whether the entry was new is not looked at. -/
def postWagerLedger (credit : Credit) : SettlementProgram PUnit :=
  .call (.postWagerLedger credit) fun _ => .done ⟨⟩

def setPositionStates (ids : List String) (state : PositionState) : SettlementProgram PUnit :=
  .call (.setPositionStates ids state) fun _ => .done ⟨⟩

def insertSettlementApplied (marketId : String) : SettlementProgram PUnit :=
  .call (.insertSettlementApplied marketId) fun _ => .done ⟨⟩

end SettlementProgram

open SettlementProgram

/-- Whether the stakes were debited, where the options ask for it. -/
def fullyBacked (options : WagerSettlementOptions) (marketId : String)
    (positions : List WagerPositionRow) : SettlementProgram Bool :=
  if !options.requireFullyBacked then pure true
  else if !options.readsDebits then pure (decide ((0 : Int) = stakes positions))
  else do
    let debited ← stakeDebitedLamportsForMarket marketId
    pure (decide (debited = stakes positions))

/-- The writes of a settlement. -/
def applyCredits (marketId : String) (asset : WagerAsset) (outcome : SettlementOutcome)
    (positions : List WagerPositionRow) (credits : SettlementCredits) :
    SettlementProgram PUnit := do
  credits.refunds.forM fun refund =>
    SettlementProgram.postWagerLedger (refundCredit asset marketId refund)
  if credits.voidedPendingIds ≠ [] then
    SettlementProgram.setPositionStates credits.voidedPendingIds .void
  (payoutEntries outcome positions credits.payouts).forM fun payout =>
    SettlementProgram.postWagerLedger (payoutCredit asset marketId payout)
  insertSettlementApplied marketId

/-- What a run does with what it read; unsafe amounts throw. -/
def settle (options : WagerSettlementOptions) (marketId : String) (asset : WagerAsset)
    (outcome : SettlementOutcome) (probability : ℚ) (positions : List WagerPositionRow) :
    SettlementProgram PUnit := do
  if ← fullyBacked options marketId positions then
    match settlementCredits positions outcome probability with
    | none => pure ⟨⟩
    | some credits => applyCredits marketId asset outcome positions credits

def applySettlement (marketId : String) (options : WagerSettlementOptions) :
    SettlementProgram PUnit := do
  if ← hasSettlementApplied marketId then pure ⟨⟩
  else
    match ← getMarketAsset marketId with
    | none => pure ⟨⟩
    | some asset =>
        match ← getSettlementOutcome marketId with
        | none => pure ⟨⟩
        | some outcome =>
            match ← getMarketProbability marketId with
            | none => pure ⟨⟩
            | some probability => do
                let positions ← positionsForMarket marketId
                settle options marketId asset outcome probability positions

end CalledIt.Wager
