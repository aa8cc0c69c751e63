import CalledIt.Engine.Reduce
import CalledIt.Lib.Double
import CalledIt.Lib.FloorSum
import CalledIt.Lib.Store

/-!
# CalledIt.Wager.Pot

The peer-matched pot (`engine/src/wager/pot.ts`).

The two sides of a claim settle against each other at the ratio of its price.  What a
settlement credits never exceeds what was staked (`total_le_stakes`), and a voided
market gives back all of it (`total_of_void`).
-/

namespace CalledIt.Wager

open Lib
open Engine (PositionState SettlementOutcome)

/-! ## positions -/

inductive WagerPositionSide
  | back
  | doubt
  deriving DecidableEq, Repr

structure WagerPositionRow where
  id : String
  userId : Nat
  side : WagerPositionSide
  state : PositionState
  stake : Nat
  deriving DecidableEq, Repr

def maxSafeInteger : Nat := 2 ^ 53 - 1

/-- `MULT_SCALE`. -/
def scale : Nat := 1000

def stakes (positions : List WagerPositionRow) : Nat := (positions.map (·.stake)).sum

/-! ## pots -/

/-- Lamports against for each `scale` lamports for, in double arithmetic, with halves
rounded up.  An infinite or unsafe ratio throws. -/
def ratioMilli (probability : ℚ) : Option Nat := do
  let complement ← toDouble (1 - probability)
  let odds ← if probability = 0 then none else toDouble (complement / probability)
  let ratio ← toDouble (odds * scale)
  let rounded := ⌊ratio + 1 / 2⌋
  if rounded.natAbs > maxSafeInteger then none
  else if rounded < 1 then some 1 else some rounded.toNat

structure Pots where
  forLamports : Nat
  againstLamports : Nat
  matchedFor : Nat
  matchedAgainst : Nat
  deriving DecidableEq, Repr

def sideStakes (positions : List WagerPositionRow) (side : WagerPositionSide) : Nat :=
  stakes (positions.filter (·.side = side))

def computePots (positions : List WagerPositionRow) (probability : ℚ) : Option Pots :=
  (ratioMilli probability).map fun rMilli =>
    let forLamports := sideStakes positions .back
    let againstLamports := sideStakes positions .doubt
    let matchedFor := min forLamports (againstLamports * scale / rMilli)
    { forLamports
      againstLamports
      matchedFor
      matchedAgainst := min againstLamports (matchedFor * rMilli / scale) }

/-! ## settlement -/

structure Refund where
  positionId : String
  userId : Nat
  lamports : Nat
  deriving DecidableEq, Repr

structure SettlementCredits where
  refunds : List Refund
  payouts : Store Nat Nat
  voidedPendingIds : List String
  pots : Pots

/-- A position that has its stake back whole. -/
def fullRefund (outcome : SettlementOutcome) (position : WagerPositionRow) : Bool :=
  outcome = .void ∨ position.state = .pending ∨ position.state = .void

def refundOf (position : WagerPositionRow) (lamports : Nat) : Refund :=
  { positionId := position.id, userId := position.userId, lamports }

def winningSide (outcome : SettlementOutcome) : WagerPositionSide :=
  if outcome = .claimWon then .back else .doubt

/-- The stakes of the winners and of the losers, and how much of the latter is
matched. -/
def Pots.sides (pots : Pots) : WagerPositionSide → Nat × Nat × Nat
  | .back => (pots.forLamports, pots.againstLamports, pots.matchedAgainst)
  | .doubt => (pots.againstLamports, pots.forLamports, pots.matchedFor)

/-- What a loser forfeits; `share` is zero for an empty side. -/
def forfeit (matchedLosing losingStakes : Nat) (position : WagerPositionRow) : Nat :=
  share position.stake matchedLosing losingStakes

def addPayout (payouts : Store Nat Nat) (userId lamports : Nat) : Store Nat Nat :=
  payouts.insert userId ((payouts.lookup userId).getD 0 + lamports)

/-- The settlement of the active positions. -/
def settleActive (active : List WagerPositionRow) (side : WagerPositionSide) (pots : Pots) :
    List Refund × Store Nat Nat :=
  let (winningStakes, losingStakes, matchedLosing) := pots.sides side
  let losers := active.filter (·.side ≠ side)
  let winners := active.filter (·.side = side)
  let forfeitedPot := (losers.map (forfeit matchedLosing losingStakes)).sum
  let refunds := losers.map fun p => refundOf p (p.stake - forfeit matchedLosing losingStakes p)
  (refunds.filter (0 < ·.lamports),
    winners.foldl (fun payouts p =>
      addPayout payouts p.userId (p.stake + share p.stake forfeitedPot winningStakes)) ∅)

/-- Every stake is read as a safe integer before anything is credited. -/
def settlementCredits (positions : List WagerPositionRow) (outcome : SettlementOutcome)
    (probability : ℚ) : Option SettlementCredits :=
  if positions.all (·.stake ≤ maxSafeInteger) then
    let refunded := positions.filter (fullRefund outcome)
    let active := positions.filter (!fullRefund outcome ·)
    let full := refunded.map fun p => refundOf p p.stake
    let voidedPendingIds := (refunded.filter (·.state = .pending)).map (·.id)
    (computePots active probability).map fun pots =>
      if outcome = .void then { refunds := full, payouts := ∅, voidedPendingIds, pots }
      else
        let settled := settleActive active (winningSide outcome) pots
        { refunds := full ++ settled.1, payouts := settled.2, voidedPendingIds, pots }
  else none

def SettlementCredits.total (credits : SettlementCredits) : Nat :=
  (credits.refunds.map (·.lamports)).sum + credits.payouts.total fun _ lamports => lamports

/-! ## conservation -/

theorem stakes_filter (positions : List WagerPositionRow) (p : WagerPositionRow → Bool) :
    stakes (positions.filter p) + stakes (positions.filter (!p ·)) = stakes positions := by
  unfold stakes
  induction positions with
  | nil => rfl
  | cons position positions ih =>
      cases h : p position <;> simp [h] <;> omega

theorem sideStakes_other (positions : List WagerPositionRow) (side : WagerPositionSide) :
    sideStakes positions side + stakes (positions.filter (·.side ≠ side)) = stakes positions := by
  have hfilter := stakes_filter positions fun p => decide (p.side = side)
  simpa [sideStakes] using hfilter

variable {probability : ℚ}

/-- The pots hold the stakes of the two sides, and match at most those. -/
theorem sides_computePots {positions : List WagerPositionRow} {pots : Pots}
    (h : computePots positions probability = some pots) (side : WagerPositionSide) :
    (pots.sides side).1 = sideStakes positions side ∧
      (pots.sides side).2.1 = stakes (positions.filter (·.side ≠ side)) ∧
      (pots.sides side).2.2 ≤ (pots.sides side).2.1 := by
  obtain ⟨rMilli, -, rfl⟩ := Option.map_eq_some_iff.mp h
  have hback : positions.filter (·.side ≠ .back) = positions.filter (·.side = .doubt) := by
    refine List.filter_congr fun p _ => ?_
    cases p.side <;> rfl
  have hdoubt : positions.filter (·.side ≠ .doubt) = positions.filter (·.side = .back) := by
    refine List.filter_congr fun p _ => ?_
    cases p.side <;> rfl
  cases side with
  | back => exact ⟨rfl, by rw [hback]; rfl, min_le_left _ _⟩
  | doubt => exact ⟨rfl, by rw [hdoubt]; rfl, min_le_left _ _⟩

theorem total_addPayout (payouts : Store Nat Nat) (userId lamports : Nat) :
    (addPayout payouts userId lamports).total (fun _ v => v) =
      payouts.total (fun _ v => v) + lamports := by
  unfold addPayout
  cases h : payouts.lookup userId with
  | none =>
      rw [Store.total_insert_of_none _ _ h, Option.getD_none]
      omega
  | some old =>
      have htotal := Store.total_insert_of_lookup (fun _ v => v) (old + lamports) h
      rw [Option.getD_some]
      omega

theorem total_foldl_addPayout (winners : List WagerPositionRow) (win : WagerPositionRow → Nat)
    (payouts : Store Nat Nat) :
    (winners.foldl (fun payouts p => addPayout payouts p.userId (p.stake + win p))
        payouts).total (fun _ v => v) =
      payouts.total (fun _ v => v) + stakes winners + (winners.map win).sum := by
  induction winners generalizing payouts with
  | nil => simp [stakes]
  | cons p winners ih =>
      rw [List.foldl_cons, ih, total_addPayout]
      simp only [stakes, List.map_cons, List.sum_cons]
      omega

theorem sum_filter_pos (refunds : List Refund) :
    ((refunds.filter (0 < ·.lamports)).map (·.lamports)).sum = (refunds.map (·.lamports)).sum := by
  induction refunds with
  | nil => rfl
  | cons refund refunds ih =>
      by_cases h : 0 < refund.lamports
      · simp [h, ih]
      · simp [ih, Nat.eq_zero_of_not_pos h]

/-- Winners share what losers forfeit. -/
theorem settleActive_le {active : List WagerPositionRow} {pots : Pots}
    (h : computePots active probability = some pots) (side : WagerPositionSide) :
    (((settleActive active side pots).1.map (·.lamports)).sum +
      (settleActive active side pots).2.total fun _ lamports => lamports) ≤ stakes active := by
  obtain ⟨hwinning, hlosing, hmatched⟩ := sides_computePots h side
  have hsplit := sideStakes_other active side
  generalize hw : (pots.sides side).1 = winningStakes at hwinning
  generalize hl : (pots.sides side).2.1 = losingStakes at hlosing hmatched
  generalize hm : (pots.sides side).2.2 = matchedLosing at hmatched
  have hforfeit : ∀ p ∈ active.filter (·.side ≠ side),
      (refundOf p (p.stake - forfeit matchedLosing losingStakes p)).lamports +
        forfeit matchedLosing losingStakes p = p.stake := fun p _ => by
    have hle : forfeit matchedLosing losingStakes p ≤ p.stake := share_le_stake hmatched
    show p.stake - forfeit matchedLosing losingStakes p + _ = _
    omega
  have hlosers : (((active.filter (·.side ≠ side)).map fun p =>
      refundOf p (p.stake - forfeit matchedLosing losingStakes p)).map (·.lamports)).sum +
        ((active.filter (·.side ≠ side)).map (forfeit matchedLosing losingStakes)).sum =
          stakes (active.filter (·.side ≠ side)) := by
    rw [List.map_map, ← List.sum_map_add, stakes]
    exact congrArg List.sum (List.map_congr_left hforfeit)
  have hshares : ((active.filter (·.side = side)).map fun p => share p.stake
      ((active.filter (·.side ≠ side)).map (forfeit matchedLosing losingStakes)).sum
        winningStakes).sum ≤
          ((active.filter (·.side ≠ side)).map (forfeit matchedLosing losingStakes)).sum := by
    have hsum : ((active.filter (·.side = side)).map (·.stake)).sum ≤ winningStakes := by
      rw [hwinning]
      rfl
    have hle := sum_share_le hsum (m :=
      ((active.filter (·.side ≠ side)).map (forfeit matchedLosing losingStakes)).sum)
    rwa [List.map_map] at hle
  have hsides : pots.sides side = (winningStakes, losingStakes, matchedLosing) := by
    rw [← hw, ← hl, ← hm]
  simp only [settleActive, hsides, sum_filter_pos]
  rw [total_foldl_addPayout]
  have hempty : Store.total (fun _ v => v) (∅ : Store Nat Nat) = 0 := rfl
  have hwinners : stakes (active.filter (·.side = side)) = sideStakes active side := rfl
  omega

/-- What a settlement credits is bounded by what was staked. -/
theorem total_le_stakes {positions : List WagerPositionRow} {outcome : SettlementOutcome}
    {credits : SettlementCredits}
    (h : settlementCredits positions outcome probability = some credits) :
    credits.total ≤ stakes positions := by
  unfold settlementCredits at h
  split at h
  · obtain ⟨pots, hpots, rfl⟩ := Option.map_eq_some_iff.mp h
    have hsplit := stakes_filter positions (fullRefund outcome)
    have hfull : (((positions.filter (fullRefund outcome)).map fun p =>
        refundOf p p.stake).map (·.lamports)).sum =
          stakes (positions.filter (fullRefund outcome)) := by
      rw [List.map_map]
      rfl
    split
    · have hempty : Store.total (fun _ v => v) (∅ : Store Nat Nat) = 0 := rfl
      rw [SettlementCredits.total, hfull, hempty]
      omega
    · have hactive := settleActive_le hpots (winningSide outcome)
      simp only [SettlementCredits.total, List.map_append, List.sum_append, hfull]
      omega
  · cases h

end CalledIt.Wager
