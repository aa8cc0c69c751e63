import CalledIt.Escrow.Solvency
import CalledIt.Sdk.AccountDecoders

/-!
# CalledIt.Recovery.Eligibility

The owner's last resort (`apps/escrow-recovery/src/recovery.ts`).

The tool reads the market and the position, decides which operation is due, and works out
by itself what the program will pay.  `Agrees` says that both come out as the program has
them; that holds in every reachable state, but for a winning side on which nothing was
active (`recovery_agrees_iff`).
-/

namespace CalledIt.Recovery

open Lib
open Escrow (Bytes Pubkey Asset PositionSide MarketState Market UserPosition Ledger Life Clock
  Result zeroHash prepareClaim claimAmount validateTimeoutDeadline transitionToVoid)
open Sdk (MarketAccount UserPositionAccount marketAccount userPositionAccount)

inductive RecoveryOperation
  | inspect
  | claim
  | refund
  | timeoutRefund
  deriving DecidableEq, Repr

def RecoveryOperation.text : RecoveryOperation → String
  | inspect => "inspect"
  | claim => "claim"
  | refund => "refund"
  | timeoutRefund => "timeout-refund"

inductive RecoveryEligibility
  | alreadyRecovered
  | claim
  | refund
  | timeoutRefund
  | notReady
  deriving DecidableEq, Repr

def RecoveryEligibility.text : RecoveryEligibility → String
  | alreadyRecovered => "already-recovered"
  | claim => "claim"
  | refund => "refund"
  | timeoutRefund => "timeout-refund"
  | notReady => "not-ready"

/-- The codes of `RecoveryErrorCode` that the decisions below fail with. -/
inductive RecoveryErrorCode
  | alreadyRecovered
  | notReady
  | transactionMismatch
  deriving DecidableEq, Repr

structure RecoveryError where
  code : RecoveryErrorCode
  message : String
  deriving DecidableEq, Repr

/-- The instructions of a recovery transaction. -/
inductive RecoveryInstruction
  | timeoutVoid
  | claimPosition
  deriving DecidableEq, Repr

/-! ## the tool -/

def recoveryEligibility (market : MarketAccount) (position : UserPositionAccount)
    (blockTime : Int) : RecoveryEligibility :=
  if position.claimed then .alreadyRecovered
  else if market.state = .settled ∧ position.settlementProcessed then .claim
  else if market.state = .voided then .refund
  else if (market.state = .open ∨ market.state = .frozen) ∧ blockTime ≥ market.resolutionDeadline
    then .timeoutRefund
  else .notReady

def enforceOperation (operation : RecoveryOperation) (eligibility : RecoveryEligibility) :
    Except RecoveryError Unit :=
  if operation = .inspect then .ok ()
  else if eligibility = .alreadyRecovered then
    .error ⟨.alreadyRecovered, "owner position is already claimed"⟩
  else if operation.text ≠ eligibility.text then
    .error ⟨.notReady,
      "requested " ++ operation.text ++ " is not available from finalized chain state"⟩
  else .ok ()

/-- The side that a settled market pays. -/
def winningSide (outcome : Option Sdk.SettlementOutcome) : Option PositionSide :=
  if outcome = some .claimWon then some .back
  else if outcome = some .claimLost then some .doubt
  else none

def recoverableAmount (market : MarketAccount) (position : UserPositionAccount)
    (eligibility : RecoveryEligibility) : Except RecoveryError (Option Int) :=
  if eligibility = .refund ∨ eligibility = .timeoutRefund then .ok (some position.totalPaidAmount)
  else if eligibility ≠ .claim then .ok none
  else
    match winningSide market.settlementOutcome with
    | none => .error ⟨.transactionMismatch, "settled market has no valid settlement outcome"⟩
    | some winningSide =>
        if position.side ≠ winningSide then .ok (some position.settlementBaseEntitlement)
        else
          let totalWinning :=
            if winningSide = .back then market.activeBackTotal else market.activeDoubtTotal
          if totalWinning = 0 then
            .error ⟨.transactionMismatch, "settled winning side has zero active principal"⟩
          else
            .ok (some (position.settlementBaseEntitlement +
              (position.activeAmount * market.finalForfeitedTotal).tdiv totalWinning))

/-- An inspection has no transaction. -/
def recoveryInstructions (operation : RecoveryOperation) : List RecoveryInstruction :=
  if operation = .timeoutRefund then [.timeoutVoid, .claimPosition] else [.claimPosition]

/-- What `prepareRecovery` decides on the accounts it has decoded and checked. -/
def prepareRecovery (operation : RecoveryOperation) (market : MarketAccount)
    (position : UserPositionAccount) (blockTime : Int) :
    Except RecoveryError (RecoveryEligibility × Option Int × Option (List RecoveryInstruction)) := do
  let eligibility := recoveryEligibility market position blockTime
  enforceOperation operation eligibility
  let expectedAmount ← recoverableAmount market position eligibility
  if operation = .inspect then return (eligibility, expectedAmount, none)
  else return (eligibility, expectedAmount, some (recoveryInstructions operation))

/-! ## the program -/

/-- The guards of the program on its own state, one instruction after the other, and what the
claim pays. -/
def statePays (clock : Clock) (market : Market) (position : UserPosition) :
    List RecoveryInstruction → Result (Option UInt64)
  | [] => .ok none
  | .timeoutVoid :: rest => do
      validateTimeoutDeadline clock.unixTimestamp market.resolutionDeadline
      let market ← transitionToVoid market zeroHash
      statePays clock market position rest
  | .claimPosition :: rest => do
      let (market, position, amount) ← prepareClaim market position
      return (← statePays clock market position rest).or (some amount)

section

variable (clock : Clock) (market : Market) (position : UserPosition)

/-- The eligibility that the tool reads off the accounts of the program. -/
abbrev eligibility : RecoveryEligibility :=
  recoveryEligibility (marketAccount market) (userPositionAccount position)
    clock.unixTimestamp.toInt

/-- The operation is what the tool says is due. -/
def Eligible (operation : RecoveryOperation) : Prop :=
  operation ≠ .inspect ∧ (eligibility clock market position).text = operation.text

/-- The tool decides and pays as the program does. -/
structure Agrees : Prop where
  /-- An operation with the transaction is due exactly when the transaction passes. -/
  eligible : ∀ operation, operation ≠ .inspect →
    ((∃ due, Eligible clock market position due ∧
        recoveryInstructions due = recoveryInstructions operation) ↔
      ∃ amount, statePays clock market position (recoveryInstructions operation) =
        .ok (some amount))
  /-- What is due can be prepared, for the amount that the program pays. -/
  prepares : ∀ operation, Eligible clock market position operation →
    ∃ amount, statePays clock market position (recoveryInstructions operation) =
        .ok (some amount) ∧
      recoverableAmount (marketAccount market) (userPositionAccount position)
        (eligibility clock market position) = .ok (some amount.toNat) ∧
      prepareRecovery operation (marketAccount market) (userPositionAccount position)
        clock.unixTimestamp.toInt = .ok (eligibility clock market position,
          some (amount.toNat : Int), some (recoveryInstructions operation))

/-- The position won, and nothing on its side was active. -/
def WonInactive : Prop :=
  market.state = .settled ∧ position.claimed = false ∧
    Escrow.winningSide market.settlementOutcome = .ok position.side ∧
    market.activeTotal position.side = 0

/-- The transaction that is due, and the amount that it pays. -/
inductive Due : List RecoveryInstruction → Nat → Prop
  | claim : market.state.Terminal → position.claimed = false →
      Due [.claimPosition] (market.dueOf position)
  | timeout : market.state.Live → market.resolutionDeadline ≤ clock.unixTimestamp →
      position.claimed = false →
      Due [.timeoutVoid, .claimPosition] position.totalPaidAmount.toNat

end

/-! ## what passes -/

variable {amount : UInt64} {operation : RecoveryOperation}

section

variable {clock : Clock} {m : Market} {p : UserPosition}

theorem statePays_claim_iff :
    statePays clock m p [.claimPosition] = .ok (some amount) ↔
      ∃ m' p', prepareClaim m p = .ok (m', p', amount) := by
  simp [statePays, bind_ok_iff]

theorem statePays_timeout_iff :
    statePays clock m p [.timeoutVoid, .claimPosition] = .ok (some amount) ↔
      m.resolutionDeadline ≤ clock.unixTimestamp ∧
        ∃ voided, transitionToVoid m zeroHash = .ok voided ∧
        ∃ m' p', prepareClaim voided p = .ok (m', p', amount) := by
  rw [statePays]
  simp only [bind_ok_iff, statePays_claim_iff, validateTimeoutDeadline, require_ok_iff]
  simp

theorem recoveryInstructions_cases (operation : RecoveryOperation) :
    recoveryInstructions operation = [.claimPosition] ∨
      recoveryInstructions operation = [.timeoutVoid, .claimPosition] := by
  cases operation <;> simp [recoveryInstructions]

variable {rt : Escrow.Runtime} {opening L : Ledger} {trace : List Escrow.Entry} {o : Pubkey}

/-- A live market past its deadline can be voided by anyone. -/
theorem life_of_timeout (h : Life rt opening trace L)
    (hdeadline : L.market.resolutionDeadline ≤ clock.unixTimestamp) {voided : Market}
    (hvoid : transitionToVoid L.market zeroHash = .ok voided) :
    ∃ trace', Life rt opening trace' { L with market := voided } := by
  have hlive := (Escrow.transitionToVoid_ok_iff.mp hvoid).1
  obtain ⟨_, event, hvoid', hexecute⟩ := Escrow.execute_timeoutVoid rt hlive hdeadline
  obtain rfl := Except.ok.inj (hvoid.symm.trans hvoid')
  exact ⟨_, h.opened, .snoc h.run (.call hexecute)⟩

theorem statePays_iff (h : Life rt opening trace L) (hp : L.positions.lookup o = some p) :
    statePays clock L.market p (recoveryInstructions operation) = .ok (some amount) ↔
      Due clock L.market p (recoveryInstructions operation) amount.toNat := by
  rcases recoveryInstructions_cases operation with heq | heq
  · rw [heq, statePays_claim_iff]
    constructor
    · rintro ⟨m', p', hprepare⟩
      obtain ⟨hunclaimed, -, hclaim, -⟩ := Escrow.prepareClaim_ok hprepare
      have hterminal := Escrow.terminal_of_claimAmount hclaim
      have hpaying := (Escrow.payoutInv_of_life h).terminal hterminal
      rw [(hpaying.claimAmount_iff hterminal hp).mp hclaim]
      exact .claim hterminal hunclaimed
    · intro hdue
      generalize hn : amount.toNat = n at hdue
      cases hdue with
      | claim hterminal hunclaimed =>
          obtain ⟨m', p', amount', hprepare, hamount, -⟩ :=
            Escrow.exists_prepareClaim h hterminal hp hunclaimed
          obtain rfl : amount = amount' := UInt64.toNat_inj.mp (hn.trans hamount.symm)
          exact ⟨m', p', hprepare⟩
  · rw [heq, statePays_timeout_iff]
    constructor
    · rintro ⟨hdeadline, voided, hvoid, m', p', hprepare⟩
      obtain ⟨hunclaimed, -, hclaim, -⟩ := Escrow.prepareClaim_ok hprepare
      obtain ⟨hlive, rfl⟩ := Escrow.transitionToVoid_ok_iff.mp hvoid
      obtain rfl := Except.ok.inj hclaim
      exact .timeout hlive hdeadline hunclaimed
    · intro hdue
      generalize hn : amount.toNat = n at hdue
      cases hdue with
      | timeout hlive hdeadline hunclaimed =>
          obtain ⟨voided, hvoid⟩ : ∃ voided, transitionToVoid L.market zeroHash = .ok voided :=
            ⟨_, Escrow.transitionToVoid_ok_iff.mpr ⟨hlive, rfl⟩⟩
          obtain ⟨trace', hlife⟩ := life_of_timeout h hdeadline hvoid
          have hstate : voided.state = .voided := by
            rw [(Escrow.transitionToVoid_ok_iff.mp hvoid).2]
          obtain ⟨m', p', amount', hprepare, hamount, -⟩ :=
            Escrow.exists_prepareClaim hlife (.inr hstate) hp hunclaimed
          rw [Market.dueOf, hstate] at hamount
          obtain rfl : amount = amount' := UInt64.toNat_inj.mp (hn.trans hamount.symm)
          exact ⟨hdeadline, _, hvoid, m', p', hprepare⟩

/-- What is due fits an amount. -/
theorem exists_amount (h : Life rt opening trace L) (hp : L.positions.lookup o = some p)
    {transaction : List RecoveryInstruction} {n : Nat}
    (hdue : Due clock L.market p transaction n) : ∃ amount : UInt64, n = amount.toNat := by
  cases hdue with
  | claim hterminal hclaimed =>
      obtain ⟨-, -, amount, -, hamount, -⟩ := Escrow.exists_prepareClaim h hterminal hp hclaimed
      exact ⟨amount, hamount.symm⟩
  | timeout => exact ⟨_, rfl⟩

/-! ## what the tool sees -/

theorem text_eq_iff {eligibility : RecoveryEligibility} (h : operation ≠ .inspect) :
    eligibility.text = operation.text ↔
      (eligibility = .claim ∧ operation = .claim ∨ eligibility = .refund ∧ operation = .refund ∨
        eligibility = .timeoutRefund ∧ operation = .timeoutRefund) := by
  cases operation with
  | inspect => exact absurd rfl h
  | claim => cases eligibility <;> simp [RecoveryEligibility.text, RecoveryOperation.text]
  | refund => cases eligibility <;> simp [RecoveryEligibility.text, RecoveryOperation.text]
  | timeoutRefund => cases eligibility <;> simp [RecoveryEligibility.text, RecoveryOperation.text]

/-- A position that is still to be paid has been processed when its market is settled. -/
theorem processed_of_life (h : Life rt opening trace L) (hp : L.positions.lookup o = some p)
    (hstate : L.market.state = .settled) : p.settlementProcessed = true :=
  (((Escrow.payoutInv_of_life h).terminal (.inl hstate)).settled hstate).2 hp

theorem eligibility_of_claimed (hclaimed : p.claimed = true) :
    eligibility clock m p = .alreadyRecovered := if_pos hclaimed

theorem eligibility_of_unclaimed (hclaimed : p.claimed = false) :
    eligibility clock m p =
      if m.state = .settled ∧ p.settlementProcessed then .claim
      else if m.state = .voided then .refund
      else if m.state.Live ∧ m.resolutionDeadline ≤ clock.unixTimestamp then .timeoutRefund
      else .notReady := by
  have hopen : ¬ (userPositionAccount p).claimed = true := by simp [userPositionAccount, hclaimed]
  rw [eligibility, recoveryEligibility, if_neg hopen]
  simp only [Int64.le_iff_toInt_le]
  rfl

theorem eligibility_claim_iff (h : Life rt opening trace L)
    (hp : L.positions.lookup o = some p) :
    eligibility clock L.market p = .claim ↔ p.claimed = false ∧ L.market.state = .settled := by
  cases hclaimed : p.claimed with
  | true => simp [eligibility_of_claimed hclaimed]
  | false =>
      rw [eligibility_of_unclaimed hclaimed]
      by_cases hstate : L.market.state = .settled
      · simp [hstate, processed_of_life h hp hstate]
      · simp only [hstate, false_and, if_false, and_false, iff_false]
        grind

theorem eligibility_refund_iff :
    eligibility clock m p = .refund ↔ p.claimed = false ∧ m.state = .voided := by
  cases hclaimed : p.claimed with
  | true => simp [eligibility_of_claimed hclaimed]
  | false =>
      rw [eligibility_of_unclaimed hclaimed]
      grind

theorem eligibility_timeoutRefund_iff :
    eligibility clock m p = .timeoutRefund ↔
      p.claimed = false ∧ m.state.Live ∧ m.resolutionDeadline ≤ clock.unixTimestamp := by
  cases hclaimed : p.claimed with
  | true => simp [eligibility_of_claimed hclaimed]
  | false =>
      rw [eligibility_of_unclaimed hclaimed]
      by_cases hlive : m.state.Live
      · have hsettled : m.state ≠ .settled := by rcases hlive with hs | hs <;> simp [hs]
        have hvoided : m.state ≠ .voided := by rcases hlive with hs | hs <;> simp [hs]
        simp [hlive, hsettled, hvoided]
      · simp only [hlive, false_and, if_false, and_false, iff_false]
        grind

/-- An operation is due exactly when its transaction is. -/
theorem eligible_iff (h : Life rt opening trace L) (hp : L.positions.lookup o = some p) :
    (∃ due, Eligible clock L.market p due ∧
        recoveryInstructions due = recoveryInstructions operation) ↔
      ∃ n, Due clock L.market p (recoveryInstructions operation) n := by
  constructor
  · rintro ⟨due, ⟨hdue, htext⟩, heq⟩
    rw [← heq]
    rcases (text_eq_iff hdue).mp htext with ⟨he, rfl⟩ | ⟨he, rfl⟩ | ⟨he, rfl⟩
    · obtain ⟨hclaimed, hstate⟩ := (eligibility_claim_iff h hp).mp he
      exact ⟨_, .claim (.inl hstate) hclaimed⟩
    · obtain ⟨hclaimed, hstate⟩ := eligibility_refund_iff.mp he
      exact ⟨_, .claim (.inr hstate) hclaimed⟩
    · obtain ⟨hclaimed, hlive, hdeadline⟩ := eligibility_timeoutRefund_iff.mp he
      exact ⟨_, .timeout hlive hdeadline hclaimed⟩
  · rintro ⟨n, hdue⟩
    generalize recoveryInstructions operation = transaction at hdue
    cases hdue with
    | claim hterminal hclaimed =>
        rcases hterminal with hstate | hstate
        · refine ⟨.claim, ⟨by decide, ?_⟩, rfl⟩
          rw [(eligibility_claim_iff h hp).mpr ⟨hclaimed, hstate⟩]
          rfl
        · refine ⟨.refund, ⟨by decide, ?_⟩, rfl⟩
          rw [eligibility_refund_iff.mpr ⟨hclaimed, hstate⟩]
          rfl
    | timeout hlive hdeadline hclaimed =>
        refine ⟨.timeoutRefund, ⟨by decide, ?_⟩, rfl⟩
        rw [eligibility_timeoutRefund_iff.mpr ⟨hclaimed, hlive, hdeadline⟩]
        rfl

/-! ## amounts -/

/-- The floor of the client's division. -/
theorem tdiv_toNat (a b c : UInt64) :
    ((a.toNat : Int) * b.toNat).tdiv c.toNat = share a.toNat b.toNat c.toNat := by
  rw [share, ← Int.natCast_mul, Int.ofNat_tdiv]

theorem winningSide_of_view {outcome : Escrow.SettlementOutcome} {winner : PositionSide}
    (hwinner : Escrow.winningSide outcome = .ok winner) :
    winningSide (Sdk.outcomeView outcome) = some winner := by
  cases outcome with
  | unresolved | void => cases hwinner
  | claimWon | claimLost =>
      obtain rfl := Except.ok.inj hwinner
      rfl

theorem recoverableAmount_claim {winner : PositionSide}
    (hwinner : Escrow.winningSide m.settlementOutcome = .ok winner) (hstate : m.state = .settled) :
    recoverableAmount (marketAccount m) (userPositionAccount p) .claim =
      if p.side = winner ∧ m.activeTotal winner = 0 then
        .error ⟨.transactionMismatch, "settled winning side has zero active principal"⟩
      else .ok (some (m.dueOf p : Int)) := by
  have hzero (total : UInt64) : (total.toNat : Int) = 0 ↔ total = 0 := by
    rw [← UInt64.toNat_inj]
    exact Int.natCast_eq_zero
  have htotal : (if winner = .back then (m.activeBackTotal.toNat : Int)
      else m.activeDoubtTotal.toNat) = (m.activeTotal winner).toNat := by
    cases winner <;> rfl
  have hdue : m.dueOf p = p.settlementBaseEntitlement.toNat + m.winningsOf winner p := by
    rw [Market.dueOf, hstate, hwinner]
  simp only [recoverableAmount, marketAccount, userPositionAccount, winningSide_of_view hwinner,
    htotal, hzero, tdiv_toNat]
  rw [hdue, Market.winningsOf]
  by_cases hside : p.side = winner
  · simp [hside]
  · simp [hside]

theorem recoverableAmount_refund {eligibility : RecoveryEligibility}
    (h : eligibility = .refund ∨ eligibility = .timeoutRefund) :
    recoverableAmount (marketAccount m) (userPositionAccount p) eligibility =
      .ok (some (p.totalPaidAmount.toNat : Int)) := if_pos h

theorem prepareRecovery_of_amount (h : Eligible clock m p operation) {amount : Int}
    (hamount : recoverableAmount (marketAccount m) (userPositionAccount p)
      (eligibility clock m p) = .ok (some amount)) :
    prepareRecovery operation (marketAccount m) (userPositionAccount p)
      clock.unixTimestamp.toInt =
        .ok (eligibility clock m p, some amount, some (recoveryInstructions operation)) := by
  obtain ⟨hoperation, htext⟩ := h
  have hopen : eligibility clock m p ≠ .alreadyRecovered := by
    rcases (text_eq_iff hoperation).mp htext with ⟨he, -⟩ | ⟨he, -⟩ | ⟨he, -⟩ <;> simp [he]
  have henforce : enforceOperation operation (eligibility clock m p) = .ok () := by
    simp [enforceOperation, hoperation, hopen, htext]
  rw [prepareRecovery, henforce, ok_bind, hamount, ok_bind, if_neg hoperation]
  rfl

/-! ## agreement -/

/-- What is due can be recovered, unless the position won with nothing active. -/
theorem recoverableAmount_iff (h : Life rt opening trace L) (hp : L.positions.lookup o = some p)
    (heligible : Eligible clock L.market p operation) {n : Nat}
    (hdue : Due clock L.market p (recoveryInstructions operation) n) :
    recoverableAmount (marketAccount L.market) (userPositionAccount p)
      (eligibility clock L.market p) = .ok (some (n : Int)) ↔ ¬ WonInactive L.market p := by
  obtain ⟨hoperation, htext⟩ := heligible
  rcases (text_eq_iff hoperation).mp htext with ⟨he, rfl⟩ | ⟨he, rfl⟩ | ⟨he, rfl⟩
  · obtain ⟨hclaimed, hstate⟩ := (eligibility_claim_iff h hp).mp he
    obtain ⟨winner, hwinner⟩ := (((Escrow.payoutInv_of_life h).terminal (.inl hstate)).settled
      hstate).1
    have hwon : WonInactive L.market p ↔ p.side = winner ∧ L.market.activeTotal winner = 0 := by
      unfold WonInactive
      rw [hwinner]
      constructor
      · rintro ⟨-, -, hside, hzero⟩
        obtain rfl := Except.ok.inj hside
        exact ⟨rfl, hzero⟩
      · rintro ⟨rfl, hzero⟩
        exact ⟨hstate, hclaimed, rfl, hzero⟩
    have hn : n = L.market.dueOf p := by
      cases hdue
      rfl
    rw [he, recoverableAmount_claim hwinner hstate, hwon, hn]
    by_cases hinactive : p.side = winner ∧ L.market.activeTotal winner = 0 <;> simp [hinactive]
  · obtain ⟨-, hstate⟩ := eligibility_refund_iff.mp he
    have hn : n = p.totalPaidAmount.toNat := by
      cases hdue
      rw [Market.dueOf, hstate]
    rw [recoverableAmount_refund (.inl he), hn]
    simp [WonInactive, hstate]
  · obtain ⟨-, hlive, -⟩ := eligibility_timeoutRefund_iff.mp he
    have hn : n = p.totalPaidAmount.toNat := by
      cases hdue
      rfl
    have hstate : L.market.state ≠ .settled := by rcases hlive with hs | hs <;> simp [hs]
    rw [recoverableAmount_refund (.inr he), hn]
    simp [WonInactive, hstate]

/-- **The recovery tool agrees with the program** on every reachable market, position and
clock, but for an unpaid position that won with nothing active on its side. -/
theorem recovery_agrees_iff (h : Life rt opening trace L) (hp : L.positions.lookup o = some p) :
    Agrees clock L.market p ↔ ¬ WonInactive L.market p := by
  constructor
  · rintro ⟨-, hprepares⟩ hwon
    have he : eligibility clock L.market p = .claim :=
      (eligibility_claim_iff h hp).mpr ⟨hwon.2.1, hwon.1⟩
    have heligible : Eligible clock L.market p .claim := ⟨by decide, by rw [he]; rfl⟩
    obtain ⟨amount, hpays, hamount, -⟩ := hprepares .claim heligible
    have hdue := (statePays_iff h hp).mp hpays
    exact (recoverableAmount_iff h hp heligible hdue).mp hamount hwon
  · intro hwon
    refine ⟨fun operation _ => ?_, fun operation heligible => ?_⟩
    · rw [eligible_iff h hp]
      constructor
      · rintro ⟨n, hdue⟩
        obtain ⟨amount, rfl⟩ := exists_amount h hp hdue
        exact ⟨amount, (statePays_iff h hp).mpr hdue⟩
      · rintro ⟨amount, hpays⟩
        exact ⟨_, (statePays_iff h hp).mp hpays⟩
    · obtain ⟨n, hdue⟩ := (eligible_iff h hp).mp ⟨operation, heligible, rfl⟩
      obtain ⟨amount, rfl⟩ := exists_amount h hp hdue
      have hamount := (recoverableAmount_iff h hp heligible hdue).mpr hwon
      exact ⟨amount, (statePays_iff h hp).mpr hdue, hamount,
        prepareRecovery_of_amount heligible hamount⟩

end

open Escrow (Sample.runtime Sample.clock Sample.backer)

/-- A settled winner with an active stake recovers it. -/
theorem recovery_agrees_sample :
    ∃ opening trace L p, Life Sample.runtime opening trace L ∧ L.market.state = .settled ∧
      L.positions.lookup Sample.backer = some p ∧ p.side = .back ∧
      Agrees (Sample.clock 10200) L.market p := by
  obtain ⟨opening, trace, L, hlife, hstate, hposition⟩ := Escrow.Sample.exists_life
    (P := fun _ L => L.market.state = .settled ∧
      (L.positions.lookup Sample.backer).any fun p =>
        decide (p.side = .back) && decide (L.market.activeTotal p.side ≠ 0)) 8 (by decide +kernel)
  obtain ⟨p, hlookup, hfacts⟩ := (Option.any_eq_true _ _).mp hposition
  simp only [Bool.and_eq_true, decide_eq_true_eq] at hfacts
  obtain ⟨hside, hactive⟩ := hfacts
  have hagrees : Agrees (Sample.clock 10200) L.market p :=
    (recovery_agrees_iff hlife hlookup).mpr fun hwon => hactive hwon.2.2.2
  exact ⟨opening, trace, L, p, hlife, hstate, hlookup, hside, hagrees⟩

/-- A backer in play whose stake is never activated, and the claim is won. -/
def neverActivated : List Escrow.Move :=
  [Escrow.Sample.place 700 Sample.backer .back 3000001,
   Escrow.Sample.settle,
   .call (Sample.clock 10150) (.calculatePositionEntitlement Sample.backer)]

/-- The program would pay that backer the stake back, and the tool fails. -/
theorem never_activated_cannot_recover :
    ∃ opening trace L p, Life Sample.runtime opening trace L ∧
      L.positions.lookup Sample.backer = some p ∧
      statePays (Sample.clock 10200) L.market p [.claimPosition] = .ok (some 3000001) ∧
      Eligible (Sample.clock 10200) L.market p .claim ∧
      prepareRecovery .claim (marketAccount L.market) (userPositionAccount p)
        (Sample.clock 10200).unixTimestamp.toInt =
          .error ⟨.transactionMismatch, "settled winning side has zero active principal"⟩ ∧
      ¬ Agrees (Sample.clock 10200) L.market p := by
  obtain ⟨opening, trace, L, hlife, hposition⟩ := Escrow.Sample.exists_life_of_played
    (P := fun _ L => (L.positions.lookup Sample.backer).any fun p =>
      decide (statePays (Sample.clock 10200) L.market p [.claimPosition] = .ok (some 3000001)) &&
      decide ((eligibility (Sample.clock 10200) L.market p).text = "claim") &&
      decide (prepareRecovery .claim (marketAccount L.market) (userPositionAccount p)
        (Sample.clock 10200).unixTimestamp.toInt =
          .error ⟨.transactionMismatch, "settled winning side has zero active principal"⟩))
    neverActivated (by decide +kernel)
  obtain ⟨p, hlookup, hfacts⟩ := (Option.any_eq_true _ _).mp hposition
  simp only [Bool.and_eq_true, decide_eq_true_eq] at hfacts
  obtain ⟨⟨hpays, htext⟩, herror⟩ := hfacts
  have heligible : Eligible (Sample.clock 10200) L.market p .claim := ⟨by decide, htext⟩
  refine ⟨opening, trace, L, p, hlife, hlookup, hpays, heligible, herror, ?_⟩
  rintro ⟨-, hprepares⟩
  obtain ⟨amount, -, -, hprepared⟩ := hprepares .claim heligible
  rw [herror] at hprepared
  cases hprepared

end CalledIt.Recovery
