import CalledIt.Escrow.Position

/-!
# CalledIt.Escrow.Settlement

Settling and voiding a market (`instructions/settlement.rs`).

A settlement runs in stages: `beginSettlement` fixes the outcome and the matched
totals, then `calculateEntitlement` is called once for each position, by anyone
and in any order, and the last call makes the market `settled`.
-/

namespace CalledIt.Escrow

open Lib

structure SettleMarketArgs where
  outcome : SettlementOutcome
  decidingSequence : UInt64
  terminalPhase : String
  regulationScore : Option ScoreV1
  fullMatchScore : Option ScoreV1
  evidenceSequenceCommitment : Bytes 32
  normalizedEvidenceRoot : Bytes 32
  issuedAt : Int64
  expiresAt : Int64
  evidenceHash : Bytes 32

structure VoidMarketArgs where
  reason : VoidReason
  decidingSequence : UInt64
  issuedAt : Int64
  expiresAt : Int64
  evidenceHash : Bytes 32

structure EntitlementCalculation where
  forfeited : UInt64
  finalized : Bool

structure FinalPositionSettlement where
  position : Pubkey
  owner : Pubkey
  baseEntitlement : UInt64
  forfeited : UInt64

/-! ## checks -/

def validateTerminalPhase (terminalPhase : String) : Result Unit :=
  require (terminalPhase = "F" ∨ terminalPhase = "FET" ∨ terminalPhase = "FPE")
    EscrowError.invalidTerminalPhase

def validateMarketOracle (rt : Runtime) (account : OracleSetAccount) (market : Market)
    (slot : UInt64) : Result Unit := do
  validatePinnedOracleSet rt account market.oracleSetEpoch
  require (account.oracleSet.activationSlot ≤ slot) EscrowError.oracleSetInactive

def validateSettlementStart (market : Market) (outcome : SettlementOutcome)
    (evidenceHash : Bytes 32) : Result Unit := do
  require (outcome = .claimWon ∨ outcome = .claimLost) EscrowError.invalidSettlementOutcome
  match market.state with
  | .open | .frozen => return ()
  | .settling | .settled =>
      if market.settlementOutcome = outcome ∧ market.settlementEvidenceHash = evidenceHash then
        .error EscrowError.alreadySettled
      else
        .error EscrowError.conflictingSettlement
  | .voided => .error EscrowError.alreadyVoided
  | .opening | .closed => .error EscrowError.invalidMarketState

def validateTimeoutDeadline (now resolutionDeadline : Int64) : Result Unit :=
  require (now ≥ resolutionDeadline) EscrowError.timeoutNotReached

def validateVoidStart (state : MarketState) : Result Unit :=
  match state with
  | .open | .frozen => .ok ()
  | .voided => .error EscrowError.alreadyVoided
  | .settling | .settled => .error EscrowError.conflictingSettlement
  | .opening | .closed => .error EscrowError.invalidMarketState

def validatePositionPrincipal (position : UserPosition) : Result Unit := do
  let accounted ← okOr ((checkedAdd position.activeAmount position.pendingAmount).bind
      fun value => checkedAdd value position.refundableAmount)
    EscrowError.arithmeticOverflow
  require (accounted = position.totalPaidAmount) EscrowError.accountingInvariant

def winningSide : SettlementOutcome → Result PositionSide
  | .claimWon => .ok .back
  | .claimLost => .ok .doubt
  | .unresolved | .void => .error EscrowError.invalidSettlementOutcome

/-- `map_math_error` of the settlement instructions. -/
def mapSettlementMathError : MathError → ProgramError
  | .overflow => EscrowError.arithmeticOverflow
  | .invalidOutcome | .invalidProbability | .invalidRatio => EscrowError.invalidSettlementOutcome
  | .inconsistentTotals | .duplicateOwner | .oppositeSide => EscrowError.accountingInvariant

/-! ## the stages -/

def beginSettlement (market : Market) (outcome : SettlementOutcome) (evidenceHash : Bytes 32) :
    Result Market := do
  validateSettlementStart market outcome evidenceHash
  let pots ← (computePots market.activeBackTotal market.activeDoubtTotal market.ratioMilli).mapError
    mapSettlementMathError
  return { market with
    finalMatchedBackTotal := pots.matchedBack
    finalMatchedDoubtTotal := pots.matchedDoubt
    finalForfeitedTotal := 0
    settlementProcessedPositionCount := 0
    settlementOutcome := outcome
    settlementEvidenceHash := evidenceHash
    state := if market.positionCount = 0 then .settled else .settling }

/-- The matched and the total stake of a losing position's side. -/
def Market.losingStakes (market : Market) (side : PositionSide) : UInt64 × UInt64 :=
  if side = .back then (market.finalMatchedBackTotal, market.activeBackTotal)
  else (market.finalMatchedDoubtTotal, market.activeDoubtTotal)

/-- The base entitlement of a position and what it forfeits. -/
def baseEntitlement (market : Market) (position : UserPosition) (winner : PositionSide)
    (refundBuckets : UInt64) : Result (UInt64 × UInt64) :=
  if position.side = winner then do
    let base ← okOr (checkedAdd position.activeAmount refundBuckets)
      EscrowError.arithmeticOverflow
    return (base, 0)
  else do
    let (matchedLosing, totalLosing) := market.losingStakes position.side
    let forfeited ← (loserForfeit position.activeAmount matchedLosing totalLosing).mapError
      mapSettlementMathError
    let base ← okOr ((checkedSub position.activeAmount forfeited).bind
        fun value => checkedAdd value refundBuckets)
      EscrowError.accountingInvariant
    return (base, forfeited)

def calculateEntitlement (market : Market) (position : UserPosition) (slot : UInt64) :
    Result (Market × UserPosition × EntitlementCalculation) := do
  require (¬ position.claimed) EscrowError.alreadyClaimed
  require (¬ position.settlementProcessed) EscrowError.entitlementAlreadyCalculated
  require (market.state = .settling) EscrowError.invalidMarketState
  validatePositionPrincipal position
  let winner ← winningSide market.settlementOutcome
  let refundBuckets ← okOr (checkedAdd position.pendingAmount position.refundableAmount)
    EscrowError.arithmeticOverflow
  let (settlementBaseEntitlement, forfeited) ← baseEntitlement market position winner
    refundBuckets
  let finalForfeitedTotal ← okOr (checkedAdd market.finalForfeitedTotal forfeited)
    EscrowError.arithmeticOverflow
  let settlementProcessedPositionCount ← okOr
    (checkedAdd market.settlementProcessedPositionCount 1) EscrowError.arithmeticOverflow
  require (settlementProcessedPositionCount ≤ market.positionCount)
    EscrowError.accountingInvariant
  let finalized := settlementProcessedPositionCount = market.positionCount
  return (
    { market with
      finalForfeitedTotal
      settlementProcessedPositionCount
      state := if finalized then .settled else market.state },
    { position with
      settlementBaseEntitlement
      settlementProcessed := true
      updatedSlot := slot },
    { forfeited, finalized })

def transitionToVoid (market : Market) (evidenceHash : Bytes 32) : Result Market := do
  validateVoidStart market.state
  return { market with
    state := .voided
    finalMatchedBackTotal := 0
    finalMatchedDoubtTotal := 0
    finalForfeitedTotal := 0
    -- once terminal, the counter tracks the position accounts still to close
    settlementProcessedPositionCount := market.positionCount
    settlementOutcome := .void
    settlementEvidenceHash := evidenceHash }

/-! ## the instructions -/

/-- `emit_settled`. -/
def settledEvent (marketKey : Pubkey) (market : Market)
    (finalPosition : Option FinalPositionSettlement) : Event :=
  .marketSettled
    { market := marketKey
      outcome := market.settlementOutcome
      matchedBack := market.finalMatchedBackTotal
      matchedDoubt := market.finalMatchedDoubtTotal
      forfeitedTotal := market.finalForfeitedTotal
      evidenceHash := market.settlementEvidenceHash
      finalPosition := finalPosition.map (·.position)
      finalOwner := finalPosition.map (·.owner)
      finalBaseEntitlement := finalPosition.map (·.baseEntitlement)
      finalForfeitedAmount := finalPosition.map (·.forfeited) }

def settleMarket (rt : Runtime) (clock : Clock) (ledger : Ledger) (accounts : AttestedAccounts)
    (args : SettleMarketArgs) : Result (Ledger × Event) := do
  let market ← ledger.loadMarket
  require (accounts.oracleSet.key = (rt.oracleSetAddress market.oracleSetEpoch).1) .constraintSeeds
  validateTerminalPhase args.terminalPhase
  validateSettlementStart market args.outcome args.evidenceHash
  validateMarketOracle rt accounts.oracleSet market clock.slot
  let attestation : SettlementAttestationV1 :=
    { common := marketAttestationCommon accounts.config market ledger.marketKey args.issuedAt
        args.expiresAt args.evidenceHash
      outcome := args.outcome
      decidingSequence := args.decidingSequence
      terminalPhase := args.terminalPhase
      regulationScore := args.regulationScore
      fullMatchScore := args.fullMatchScore
      evidenceSequenceCommitment := args.evidenceSequenceCommitment
      normalizedEvidenceRoot := args.normalizedEvidenceRoot }
  let message ← attestationMessage attestation.encode
  verifyThresholdSignatures accounts.oracleSet.oracleSet accounts.preceding message
    clock.unixTimestamp args.issuedAt args.expiresAt
  let market ← beginSettlement market args.outcome args.evidenceHash
  return (
    { ledger with market },
    if market.state = .settled then settledEvent ledger.marketKey market none
    else .marketSettlementStarted
      { market := ledger.marketKey
        outcome := market.settlementOutcome
        matchedBack := market.finalMatchedBackTotal
        matchedDoubt := market.finalMatchedDoubtTotal
        positionCount := market.positionCount
        evidenceHash := market.settlementEvidenceHash })

/-- `calculate_position_entitlement` on the position of `owner`. -/
def calculatePositionEntitlement (rt : Runtime) (clock : Clock) (ledger : Ledger)
    (owner : Pubkey) : Result (Ledger × Event) := do
  let market ← ledger.loadMarket
  let position ← ledger.loadPosition owner
  let positionKey := (rt.positionAddress ledger.marketKey owner).1
  let (market, position, calculation) ← calculateEntitlement market position clock.slot
  return (
    { ledger with market, positions := ledger.positions.insert owner position },
    if calculation.finalized then
      settledEvent ledger.marketKey market (some
        { position := positionKey
          owner := position.owner
          baseEntitlement := position.settlementBaseEntitlement
          forfeited := calculation.forfeited })
    else .positionEntitlementCalculated
      { market := ledger.marketKey
        position := positionKey
        owner := position.owner
        baseEntitlement := position.settlementBaseEntitlement
        forfeitedAmount := calculation.forfeited
        processedPositionCount := market.settlementProcessedPositionCount })

def voidMarket (rt : Runtime) (clock : Clock) (ledger : Ledger) (accounts : AttestedAccounts)
    (args : VoidMarketArgs) : Result (Ledger × Event) := do
  let market ← ledger.loadMarket
  require (accounts.oracleSet.key = (rt.oracleSetAddress market.oracleSetEpoch).1) .constraintSeeds
  validateVoidStart market.state
  validateMarketOracle rt accounts.oracleSet market clock.slot
  let attestation : VoidAttestationV1 :=
    { common := marketAttestationCommon accounts.config market ledger.marketKey args.issuedAt
        args.expiresAt args.evidenceHash
      reason := args.reason
      decidingSequence := args.decidingSequence }
  let message ← attestationMessage attestation.encode
  verifyThresholdSignatures accounts.oracleSet.oracleSet accounts.preceding message
    clock.unixTimestamp args.issuedAt args.expiresAt
  let market ← transitionToVoid market args.evidenceHash
  return (
    { ledger with market },
    .marketVoided
      { market := ledger.marketKey
        evidenceHash := args.evidenceHash
        timedOut := false
        reason := some args.reason
        decidingSequence := some args.decidingSequence })

def timeoutVoid (clock : Clock) (ledger : Ledger) : Result (Ledger × Event) := do
  let market ← ledger.loadMarket
  validateTimeoutDeadline clock.unixTimestamp market.resolutionDeadline
  let market ← transitionToVoid market zeroHash
  return (
    { ledger with market },
    .marketVoided
      { market := ledger.marketKey
        evidenceHash := zeroHash
        timedOut := true
        reason := none
        decidingSequence := none })

/-! ## what the stages do -/

/-- Before its terminal transition a market is open or frozen. -/
def MarketState.Live (state : MarketState) : Prop := state = .open ∨ state = .frozen

instance (state : MarketState) : Decidable state.Live := inferInstanceAs (Decidable (_ ∨ _))

/-- What the terminal transition writes down for good. -/
structure Verdict where
  outcome : SettlementOutcome
  evidenceHash : Bytes 32
  matchedBack : UInt64
  matchedDoubt : UInt64
  deriving DecidableEq

/-- Nothing written yet. -/
def Verdict.pending : Verdict :=
  { outcome := .unresolved, evidenceHash := zeroHash, matchedBack := 0, matchedDoubt := 0 }

def Market.verdict (m : Market) : Verdict :=
  { outcome := m.settlementOutcome
    evidenceHash := m.settlementEvidenceHash
    matchedBack := m.finalMatchedBackTotal
    matchedDoubt := m.finalMatchedDoubtTotal }

variable {m : Market} {outcome : SettlementOutcome} {hash : Bytes 32}

theorem validateSettlementStart_ok (h : validateSettlementStart m outcome hash = .ok ()) :
    (outcome = .claimWon ∨ outcome = .claimLost) ∧ m.state.Live := by
  unfold validateSettlementStart at h
  simp only [bind_ok_iff, require_ok_iff] at h
  obtain ⟨_, houtcome, h⟩ := h
  refine ⟨houtcome, ?_⟩
  unfold MarketState.Live
  cases hs : m.state <;> simp only [hs] at h <;> simp_all
  all_goals split at h <;> contradiction

theorem validateSettlementStart_of_live (houtcome : outcome = .claimWon ∨ outcome = .claimLost)
    (hlive : m.state.Live) : validateSettlementStart m outcome hash = .ok () := by
  unfold validateSettlementStart
  rw [require_pos houtcome, ok_bind]
  rcases hlive with hs | hs <;> rw [hs] <;> rfl

theorem validateVoidStart_ok_iff {state : MarketState} {u : Unit} :
    validateVoidStart state = .ok u ↔ state.Live := by
  unfold MarketState.Live
  cases state <;> simp [validateVoidStart]

variable {m' : Market}

theorem beginSettlement_ok_iff :
    beginSettlement m outcome hash = .ok m' ↔
      (outcome = .claimWon ∨ outcome = .claimLost) ∧ m.state.Live ∧
      ∃ pots, computePots m.activeBackTotal m.activeDoubtTotal m.ratioMilli = .ok pots ∧
        m' = { m with
          finalMatchedBackTotal := pots.matchedBack
          finalMatchedDoubtTotal := pots.matchedDoubt
          finalForfeitedTotal := 0
          settlementProcessedPositionCount := 0
          settlementOutcome := outcome
          settlementEvidenceHash := hash
          state := if m.positionCount = 0 then .settled else .settling } := by
  unfold beginSettlement
  simp only [bind_ok_iff, mapError_ok_iff, pure_ok_iff]
  constructor
  · rintro ⟨_, hstart, pots, hpots, rfl⟩
    obtain ⟨houtcome, hlive⟩ := validateSettlementStart_ok hstart
    exact ⟨houtcome, hlive, pots, hpots, rfl⟩
  · rintro ⟨houtcome, hlive, pots, hpots, rfl⟩
    exact ⟨(), validateSettlementStart_of_live houtcome hlive, pots, hpots, rfl⟩

theorem transitionToVoid_ok_iff :
    transitionToVoid m hash = .ok m' ↔ m.state.Live ∧
      m' = { m with
        state := .voided
        finalMatchedBackTotal := 0
        finalMatchedDoubtTotal := 0
        finalForfeitedTotal := 0
        settlementProcessedPositionCount := m.positionCount
        settlementOutcome := .void
        settlementEvidenceHash := hash } := by
  unfold transitionToVoid
  simp only [bind_ok_iff, validateVoidStart_ok_iff, pure_ok_iff]
  constructor
  · rintro ⟨_, hlive, rfl⟩
    exact ⟨hlive, rfl⟩
  · rintro ⟨hlive, rfl⟩
    exact ⟨(), hlive, rfl⟩

/-- A position's buckets add up to what was paid in. -/
def UserPosition.Balanced (p : UserPosition) : Prop :=
  p.activeAmount.toNat + p.pendingAmount.toNat + p.refundableAmount.toNat =
    p.totalPaidAmount.toNat

instance (p : UserPosition) : Decidable p.Balanced := inferInstanceAs (Decidable (_ = _))

variable {p : UserPosition}

theorem validatePositionPrincipal_ok_iff {u : Unit} :
    validatePositionPrincipal p = .ok u ↔ p.Balanced := by
  have htotal := p.totalPaidAmount.toNat_lt
  unfold validatePositionPrincipal UserPosition.Balanced
  simp only [bind_ok_iff, okOr_ok_iff, Option.bind_eq_some_iff, checkedAdd_eq_some,
    require_ok_iff]
  constructor
  · rintro ⟨accounted, ⟨value, hvalue, haccounted⟩, rfl⟩
    omega
  · intro h
    have hvalue : (p.activeAmount + p.pendingAmount).toNat =
        p.activeAmount.toNat + p.pendingAmount.toNat := by
      rw [UInt64.toNat_add]
      omega
    exact ⟨p.totalPaidAmount, ⟨_, hvalue.symm, by omega⟩, rfl⟩

/-- What a position gives up when `winner` wins: nothing on the winning side,
the floored matched share of the stake on the other. -/
def Market.forfeitOf (m : Market) (winner : PositionSide) (p : UserPosition) : Nat :=
  if p.side = winner then 0
  else share p.activeAmount.toNat (m.losingStakes p.side).1.toNat (m.losingStakes p.side).2.toNat

/-- The matched stakes lie within the totals they were computed from. -/
def Market.Matched (m : Market) : Prop :=
  m.finalMatchedBackTotal.toNat ≤ m.activeBackTotal.toNat ∧
    m.finalMatchedDoubtTotal.toNat ≤ m.activeDoubtTotal.toNat

theorem Market.Matched.losingStakes_le (h : m.Matched) (side : PositionSide) :
    (m.losingStakes side).1.toNat ≤ (m.losingStakes side).2.toNat := by
  unfold Market.losingStakes
  split
  · exact h.1
  · exact h.2

variable {winner : PositionSide}

theorem baseEntitlement_ok {buckets base forfeited : UInt64}
    (h : baseEntitlement m p winner buckets = .ok (base, forfeited)) :
    forfeited.toNat = m.forfeitOf winner p ∧
      base.toNat + forfeited.toNat = p.activeAmount.toNat + buckets.toNat := by
  unfold baseEntitlement at h
  unfold Market.forfeitOf
  by_cases hside : p.side = winner
  · simp only [hside, if_true, bind_ok_iff, okOr_ok_iff, checkedAdd_eq_some, pure_ok_iff,
      Prod.mk.injEq] at h ⊢
    obtain ⟨b, hb, rfl, rfl⟩ := h
    exact ⟨rfl, hb.symm⟩
  · simp only [hside, if_false, bind_ok_iff, mapError_ok_iff, okOr_ok_iff,
      Option.bind_eq_some_iff, checkedSub_eq_some, checkedAdd_eq_some, loserForfeit_ok_iff,
      pure_ok_iff, Prod.mk.injEq] at h ⊢
    obtain ⟨f, ⟨_, hf⟩, b, ⟨rest, hrest, hb⟩, rfl, rfl⟩ := h
    exact ⟨hf, by omega⟩

/-- A base entitlement of a balanced position is always computed. -/
theorem exists_baseEntitlement (hm : m.Matched) (hp : p.Balanced) (winner : PositionSide)
    {buckets : UInt64}
    (hbuckets : buckets.toNat = p.pendingAmount.toNat + p.refundableAmount.toNat) :
    ∃ base forfeited, baseEntitlement m p winner buckets = .ok (base, forfeited) := by
  have htotal := p.totalPaidAmount.toNat_lt
  unfold UserPosition.Balanced at hp
  unfold baseEntitlement
  by_cases hside : p.side = winner
  · have hadd : checkedAdd p.activeAmount buckets = some p.totalPaidAmount := by
      rw [checkedAdd_eq_some]
      omega
    rw [if_pos hside, hadd]
    exact ⟨_, _, rfl⟩
  · obtain ⟨f, hf, hle⟩ := exists_loserForfeit p.activeAmount (hm.losingStakes_le p.side)
    have hsub : (p.activeAmount - f).toNat = p.activeAmount.toNat - f.toNat :=
      UInt64.toNat_sub_of_le _ _ (UInt64.le_iff_toNat_le.mpr hle)
    have hrest : checkedSub p.activeAmount f = some (p.activeAmount - f) := by
      rw [checkedSub_eq_some]
      omega
    have hadd : checkedAdd (p.activeAmount - f) buckets =
        some (p.activeAmount - f + buckets) := by
      rw [checkedAdd_eq_some, UInt64.toNat_add]
      omega
    simp only [if_neg hside, hf, Except.mapError, ok_bind, hrest, Option.bind_some, hadd, okOr]
    exact ⟨_, _, rfl⟩

/-- One entitlement calculation: base and forfeit add up to what was paid in. -/
structure Entitled (m : Market) (p : UserPosition) (winner : PositionSide) (slot : UInt64)
    (m' : Market) (p' : UserPosition) : Prop where
  unclaimed : p.claimed = false
  unprocessed : p.settlementProcessed = false
  settling : m.state = .settling
  balanced : p.Balanced
  wins : winningSide m.settlementOutcome = .ok winner
  base : p'.settlementBaseEntitlement.toNat + m.forfeitOf winner p = p.totalPaidAmount.toNat
  forfeited : m'.finalForfeitedTotal.toNat = m.finalForfeitedTotal.toNat + m.forfeitOf winner p
  processed : m'.settlementProcessedPositionCount.toNat =
    m.settlementProcessedPositionCount.toNat + 1
  within : m'.settlementProcessedPositionCount.toNat ≤ m.positionCount.toNat
  market : m' = { m with
    finalForfeitedTotal := m'.finalForfeitedTotal
    settlementProcessedPositionCount := m'.settlementProcessedPositionCount
    state := if m'.settlementProcessedPositionCount = m.positionCount then .settled
      else .settling }
  position : p' = { p with
    settlementBaseEntitlement := p'.settlementBaseEntitlement
    settlementProcessed := true
    updatedSlot := slot }

/-- The last position settles the market. -/
theorem Entitled.state {p' : UserPosition} {slot : UInt64} (h : Entitled m p winner slot m' p') :
    m'.state = if m'.settlementProcessedPositionCount = m.positionCount then .settled
      else .settling := congrArg Market.state h.market

theorem calculateEntitlement_ok {p' : UserPosition} {slot : UInt64}
    {calculation : EntitlementCalculation}
    (h : calculateEntitlement m p slot = .ok (m', p', calculation)) :
    ∃ winner, Entitled m p winner slot m' p' := by
  unfold calculateEntitlement at h
  simp only [bind_ok_iff, Prod.exists, require_ok_iff, validatePositionPrincipal_ok_iff,
    okOr_ok_iff, checkedAdd_eq_some, pure_ok_iff, Prod.mk.injEq, UInt64.le_iff_toNat_le,
    Bool.not_eq_true] at h
  obtain ⟨_, hclaimed, _, hprocessed, _, hstate, _, hbalanced, winner, hwinner, buckets, hbuckets,
    base, f, hbase, total, htotal, count, hcount, _, hwithin, rfl, rfl, rfl⟩ := h
  obtain ⟨hforfeit, hsum⟩ := baseEntitlement_ok hbase
  have hpaid := hbalanced
  unfold UserPosition.Balanced at hpaid
  refine ⟨winner, hclaimed, hprocessed, hstate, hbalanced, hwinner, ?_, ?_, hcount.symm, hwithin,
    ?_, rfl⟩
  · change base.toNat + _ = _
    omega
  · change total.toNat = _
    omega
  · simp only [hstate]

theorem exists_calculateEntitlement (slot : UInt64) (hclaimed : p.claimed = false)
    (hprocessed : p.settlementProcessed = false) (hstate : m.state = .settling) (hp : p.Balanced)
    (hwinner : winningSide m.settlementOutcome = .ok winner) (hm : m.Matched)
    (hforfeit : m.finalForfeitedTotal.toNat + m.forfeitOf winner p < 2 ^ 64)
    (hcount : m.settlementProcessedPositionCount.toNat + 1 ≤ m.positionCount.toNat) :
    ∃ m' p' calculation, calculateEntitlement m p slot = .ok (m', p', calculation) := by
  have hlt := m.positionCount.toNat_lt
  have htotal := p.totalPaidAmount.toNat_lt
  have hpaid := hp
  unfold UserPosition.Balanced at hpaid
  have hbuckets : (p.pendingAmount + p.refundableAmount).toNat =
      p.pendingAmount.toNat + p.refundableAmount.toNat := by
    rw [UInt64.toNat_add]
    omega
  obtain ⟨base, f, hbase⟩ := exists_baseEntitlement hm hp winner hbuckets
  have hf := (baseEntitlement_ok hbase).1
  have htotal : (m.finalForfeitedTotal + f).toNat = m.finalForfeitedTotal.toNat + f.toNat := by
    rw [UInt64.toNat_add]
    omega
  have hnext : (m.settlementProcessedPositionCount + 1).toNat =
      m.settlementProcessedPositionCount.toNat + 1 := by
    rw [UInt64.toNat_add]
    change (_ + 1) % _ = _
    omega
  have h1 : checkedAdd p.pendingAmount p.refundableAmount =
      some (p.pendingAmount + p.refundableAmount) := checkedAdd_eq_some.mpr hbuckets.symm
  have h2 : checkedAdd m.finalForfeitedTotal f = some (m.finalForfeitedTotal + f) :=
    checkedAdd_eq_some.mpr htotal.symm
  have h3 : checkedAdd m.settlementProcessedPositionCount 1 =
      some (m.settlementProcessedPositionCount + 1) := checkedAdd_eq_some.mpr hnext.symm
  have h4 : m.settlementProcessedPositionCount + 1 ≤ m.positionCount := by
    rw [UInt64.le_iff_toNat_le]
    omega
  unfold calculateEntitlement
  have hunclaimed : ¬ p.claimed = true := by simp [hclaimed]
  have hunprocessed : ¬ p.settlementProcessed = true := by simp [hprocessed]
  have hprincipal : validatePositionPrincipal p = .ok () := validatePositionPrincipal_ok_iff.mpr hp
  simp only [require_pos hunclaimed, require_pos hunprocessed, require_pos hstate, hprincipal,
    hwinner, h1, okOr, ok_bind, hbase, h2, h3, require_pos h4]
  exact ⟨_, _, _, rfl⟩

end CalledIt.Escrow
