import CalledIt.Lib.Checked
import CalledIt.Lib.FloorSum
import CalledIt.Escrow.State

/-!
# CalledIt.Escrow.Math

Checked integer implementation of the peer-matched pot model (`math.rs`).

Each operation is followed by its characterisation over natural numbers: a
result is returned exactly when nothing overflows, and then it is the floor
division one expects.  `settlePositions` is the reference settlement over
aggregate positions; the instructions of the program compute the same credits
in stages.
-/

namespace CalledIt.Escrow

open Lib

inductive MathError
  | invalidProbability
  | invalidRatio
  | invalidOutcome
  | overflow
  | inconsistentTotals
  | duplicateOwner
  | oppositeSide
  deriving DecidableEq, Repr

abbrev MathResult := Except MathError

structure Pots where
  back : UInt64
  doubt : UInt64
  matchedBack : UInt64
  matchedDoubt : UInt64
  deriving DecidableEq, Repr

structure SettlementInput where
  userKey : UInt64
  side : PositionSide
  activeAmount : UInt64
  pendingAmount : UInt64
  refundableAmount : UInt64
  deriving DecidableEq, Repr

def SettlementInput.totalAmount (p : SettlementInput) : MathResult UInt64 :=
  okOr ((checkedAdd p.activeAmount p.pendingAmount).bind
    fun amount => checkedAdd amount p.refundableAmount) .overflow

structure PositionCredit where
  userKey : UInt64
  refund : UInt64
  payout : UInt64
  deriving DecidableEq, Repr

structure SettlementResult where
  pots : Pots
  forfeitedPot : UInt64
  credits : List PositionCredit
  dust : UInt64
  deriving DecidableEq, Repr

/-! ## the arithmetic -/

def mulDivFloor (value multiplier divisor : UInt64) : MathResult UInt64 := do
  require (divisor ≠ 0) MathError.invalidRatio
  let product ← okOr (checkedMulU128 value.toNat multiplier.toNat) .overflow
  okOr (tryFromNat (product / divisor.toNat)) .overflow

/-- AGAINST atomic units required per 1,000 FOR atomic units: nearest, with
ties rounded upward, and at least one. -/
def ratioMilli (probabilityPpm : UInt32) : MathResult UInt32 := do
  require (¬ (probabilityPpm = 0 ∨ probabilityPpm ≥ probabilityPpmScale))
    MathError.invalidProbability
  let denominator := probabilityPpm.toUInt64
  let numerator ← okOr
    (checkedMul (probabilityPpmScale - probabilityPpm).toUInt64 multiplierScale) .overflow
  let shifted ← okOr (checkedAdd numerator (denominator / 2)) .overflow
  let rounded := max (shifted / denominator) 1
  if rounded.toNat < 2 ^ 32 then .ok rounded.toUInt32 else .error .overflow

def computePots (back doubt : UInt64) (ratioMilli : UInt32) : MathResult Pots := do
  require (ratioMilli ≠ 0) MathError.invalidRatio
  let matchable ← mulDivFloor doubt multiplierScale ratioMilli.toUInt64
  let matchedBack := min back matchable
  let required ← mulDivFloor matchedBack ratioMilli.toUInt64 multiplierScale
  let matchedDoubt := min doubt required
  return { back, doubt, matchedBack, matchedDoubt }

def loserForfeit (stake matchedLosing totalLosing : UInt64) : MathResult UInt64 :=
  if totalLosing = 0 then
    .ok 0
  else do
    require (¬ matchedLosing > totalLosing) MathError.inconsistentTotals
    mulDivFloor stake matchedLosing totalLosing

def winnerWinnings (stake forfeitedPot totalWinning : UInt64) : MathResult UInt64 :=
  if totalWinning = 0 then
    .ok 0
  else
    mulDivFloor stake forfeitedPot totalWinning

variable {value multiplier divisor : UInt64}

/-- A floor division is returned exactly when it fits. -/
theorem mulDivFloor_ok_iff {c : UInt64} :
    mulDivFloor value multiplier divisor = .ok c ↔
      divisor ≠ 0 ∧ c.toNat = share value.toNat multiplier.toNat divisor.toNat := by
  unfold mulDivFloor share
  rw [checkedMulU128_toNat]
  simp only [bind_ok_iff, require_ok_iff, okOr_ok_iff, tryFromNat_eq_some, Option.some.injEq]
  constructor
  · rintro ⟨_, hd, product, rfl, hc⟩
    exact ⟨hd, hc.symm⟩
  · rintro ⟨hd, hc⟩
    exact ⟨(), hd, _, rfl, hc.symm⟩

/-- Its only failure on a nonzero divisor is an overflow. -/
theorem mulDivFloor_error {e : MathError} (hd : divisor ≠ 0)
    (h : mulDivFloor value multiplier divisor = .error e) :
    e = .overflow ∧ 2 ^ 64 ≤ share value.toNat multiplier.toNat divisor.toNat := by
  unfold mulDivFloor at h
  rw [checkedMulU128_toNat] at h
  simp only [bind_error_iff, require_error_iff, require_ok_iff, okOr_error_iff, okOr_ok_iff,
    tryFromNat_eq_none, reduceCtorEq, false_and, Option.some.injEq, false_or] at h
  rcases h with ⟨hz, _⟩ | ⟨_, _, product, rfl, hbig, rfl⟩
  · exact absurd hd hz
  · exact ⟨rfl, hbig⟩

theorem exists_mulDivFloor (hd : divisor ≠ 0)
    (hlt : share value.toNat multiplier.toNat divisor.toNat < 2 ^ 64) :
    ∃ c, mulDivFloor value multiplier divisor = .ok c := by
  cases h : mulDivFloor value multiplier divisor with
  | ok c => exact ⟨c, rfl⟩
  | error e =>
      have hbig := (mulDivFloor_error hd h).2
      omega

/-- `1000 (1 - p) / p` rounded to the nearest, for a probability of `ppm` parts
per million, and at least one. -/
def nearestRatio (ppm : Nat) : Nat := max (((1000000 - ppm) * 1000 + ppm / 2) / ppm) 1

theorem nearestRatio_lt {ppm : Nat} (h : ppm ≤ 999999) : nearestRatio ppm < 2 ^ 32 := by
  have hdiv : ((1000000 - ppm) * 1000 + ppm / 2) / ppm ≤ (1000000 - ppm) * 1000 + ppm / 2 :=
    Nat.div_le_self _ _
  unfold nearestRatio
  omega

theorem toNat_max (a b : UInt64) : (max a b).toNat = max a.toNat b.toNat := by
  change (if a ≤ b then b else a).toNat = max a.toNat b.toNat
  simp only [UInt64.le_iff_toNat_le, Nat.max_def]
  split <;> rfl

variable {ratio : UInt32}

/-- A ratio is derived exactly for the probabilities strictly between zero and
one. -/
theorem ratioMilli_ok_iff {ppm : UInt32} :
    ratioMilli ppm = .ok ratio ↔
      (1 ≤ ppm.toNat ∧ ppm.toNat ≤ 999999) ∧ ratio.toNat = nearestRatio ppm.toNat := by
  have hscale : probabilityPpmScale.toNat = 1000000 := rfl
  have hrange : ¬ (ppm = 0 ∨ ppm ≥ probabilityPpmScale) ↔
      1 ≤ ppm.toNat ∧ ppm.toNat ≤ 999999 := by
    rw [← UInt32.toNat_inj, ge_iff_le, UInt32.le_iff_toNat_le, hscale, UInt32.toNat_zero]
    omega
  unfold ratioMilli
  simp only [bind_ok_iff, require_ok_iff, hrange, okOr_ok_iff, checkedMul_eq_some,
    checkedAdd_eq_some, exists_const]
  refine and_congr_right fun hppm => ?_
  have hle : ppm ≤ probabilityPpmScale := by
    rw [UInt32.le_iff_toNat_le, hscale]
    omega
  have hnum : (probabilityPpmScale - ppm).toUInt64.toNat * multiplierScale.toNat =
      (1000000 - ppm.toNat) * 1000 := by
    rw [UInt32.toNat_toUInt64, UInt32.toNat_sub_of_le _ _ hle, hscale]
    rfl
  have hhalf : (ppm.toUInt64 / 2).toNat = ppm.toNat / 2 := by
    rw [UInt64.toNat_div, UInt32.toNat_toUInt64]
    rfl
  have hfit := nearestRatio_lt hppm.2
  rw [hnum, hhalf]
  constructor
  · rintro ⟨n, hn, shifted, hshifted, h⟩
    have hround : (max (shifted / ppm.toUInt64) 1).toNat = nearestRatio ppm.toNat := by
      rw [toNat_max, UInt64.toNat_div, UInt32.toNat_toUInt64, ← hshifted, ← hn]
      rfl
    rw [hround, if_pos hfit, Except.ok.injEq] at h
    rw [← h, UInt64.toNat_toUInt32, hround]
    exact Nat.mod_eq_of_lt hfit
  · intro h
    have hn : (UInt64.ofNat ((1000000 - ppm.toNat) * 1000)).toNat =
        (1000000 - ppm.toNat) * 1000 := by
      rw [UInt64.toNat_ofNat']
      omega
    have hshifted : (UInt64.ofNat ((1000000 - ppm.toNat) * 1000 + ppm.toNat / 2)).toNat =
        (1000000 - ppm.toNat) * 1000 + ppm.toNat / 2 := by
      rw [UInt64.toNat_ofNat']
      omega
    refine ⟨_, hn.symm, _, (hshifted.trans (by rw [hn])).symm, ?_⟩
    have hround : (max (UInt64.ofNat ((1000000 - ppm.toNat) * 1000 + ppm.toNat / 2) /
        ppm.toUInt64) 1).toNat = nearestRatio ppm.toNat := by
      rw [toNat_max, UInt64.toNat_div, UInt32.toNat_toUInt64, hshifted]
      rfl
    rw [hround, if_pos hfit, Except.ok.injEq, ← UInt32.toNat_inj, UInt64.toNat_toUInt32, hround, h]
    exact Nat.mod_eq_of_lt hfit

theorem exists_ratioMilli {ppm : UInt32} (h : 1 ≤ ppm.toNat ∧ ppm.toNat ≤ 999999) :
    ∃ ratio, ratioMilli ppm = .ok ratio ∧ ratio.toNat = nearestRatio ppm.toNat := by
  have hratio : (UInt32.ofNat (nearestRatio ppm.toNat)).toNat = nearestRatio ppm.toNat :=
    UInt32.toNat_ofNat_of_lt (nearestRatio_lt h.2)
  exact ⟨_, ratioMilli_ok_iff.mpr ⟨h, hratio⟩, hratio⟩

/-- `FOR` units that the doubting stake can match, before capping. -/
def matchable (doubt ratio : Nat) : Nat := share doubt 1000 ratio

/-- Capping by the matchable amount keeps the second division below `doubt`. -/
theorem share_matchable_le (doubt ratio : Nat) {matchedBack : Nat}
    (h : matchedBack ≤ matchable doubt ratio) : share matchedBack ratio 1000 ≤ doubt := by
  apply Nat.div_le_of_le_mul
  calc
    matchedBack * ratio ≤ doubt * 1000 / ratio * ratio := Nat.mul_le_mul_right ratio h
    _ ≤ doubt * 1000 := Nat.div_mul_le_self _ _
    _ = 1000 * doubt := Nat.mul_comm _ _

theorem ne_zero_iff_toNat {a : UInt64} : a ≠ 0 ↔ a.toNat ≠ 0 := by
  rw [ne_eq, ne_eq, ← UInt64.toNat_inj]
  rfl

theorem toUInt64_ne_zero {r : UInt32} (h : r ≠ 0) : r.toUInt64 ≠ 0 := by
  rw [ne_zero_iff_toNat, UInt32.toNat_toUInt64]
  intro hz
  exact h (UInt32.toNat_inj.mp hz)

/-- A natural number that fits is the value of some word. -/
theorem exists_toNat_eq {n : Nat} (h : n < 2 ^ 64) : ∃ a : UInt64, a.toNat = n :=
  ⟨.ofNat n, UInt64.toNat_ofNat_of_lt h⟩

theorem toNat_min (a b : UInt64) : (min a b).toNat = min a.toNat b.toNat := by
  simp only [Std.min_eq_if, UInt64.le_iff_toNat_le]
  split <;> rfl

variable {back doubt : UInt64} {pots : Pots}

/-- Pots are computed exactly when the matchable amount fits a `u64`. -/
theorem computePots_ok_iff :
    computePots back doubt ratio = .ok pots ↔
      ratio ≠ 0 ∧ matchable doubt.toNat ratio.toNat < 2 ^ 64 ∧
      pots.back = back ∧ pots.doubt = doubt ∧
      pots.matchedBack.toNat = min back.toNat (matchable doubt.toNat ratio.toNat) ∧
      pots.matchedDoubt.toNat =
        min doubt.toNat (share pots.matchedBack.toNat ratio.toNat 1000) := by
  have hscale : multiplierScale.toNat = 1000 := rfl
  unfold computePots
  simp only [bind_ok_iff, require_ok_iff, mulDivFloor_ok_iff, pure_ok_iff,
    UInt32.toNat_toUInt64, hscale]
  constructor
  · rintro ⟨_, hr, m, ⟨_, hm⟩, req, ⟨_, hreq⟩, rfl⟩
    refine ⟨hr, ?_, rfl, rfl, ?_, ?_⟩
    · rw [matchable, ← hm]; exact m.toNat_lt
    · rw [toNat_min, hm, matchable]
    · rw [toNat_min, hreq]
  · rintro ⟨hr, hfit, hb, hd, hmb, hmd⟩
    have hr64 := toUInt64_ne_zero hr
    have hr64' : share doubt.toNat multiplierScale.toNat ratio.toUInt64.toNat < 2 ^ 64 := by
      rw [hscale, UInt32.toNat_toUInt64]; exact hfit
    obtain ⟨m, hm⟩ := exists_mulDivFloor hr64 hr64'
    have hm' := (mulDivFloor_ok_iff.mp hm).2
    rw [hscale, UInt32.toNat_toUInt64] at hm'
    have hmin : (min back m).toNat ≤ matchable doubt.toNat ratio.toNat := by
      rw [toNat_min, hm', matchable]; exact Nat.min_le_right _ _
    have hreqlt : share (min back m).toNat ratio.toUInt64.toNat multiplierScale.toNat < 2 ^ 64 := by
      rw [hscale, UInt32.toNat_toUInt64]
      exact Nat.lt_of_le_of_lt (share_matchable_le _ _ hmin) doubt.toNat_lt
    obtain ⟨req, hreq⟩ := exists_mulDivFloor (by decide) hreqlt
    have hreq' := (mulDivFloor_ok_iff.mp hreq).2
    rw [hscale, UInt32.toNat_toUInt64] at hreq'
    have hmatched : min back m = pots.matchedBack := by
      rw [← UInt64.toNat_inj, toNat_min, hm', hmb, matchable]
    rw [hmatched] at hreq'
    have hdoubt : min doubt req = pots.matchedDoubt := by
      rw [← UInt64.toNat_inj, toNat_min, hreq', hmd]
    refine ⟨(), hr, m, ⟨hr64, hm'⟩, req, ⟨by decide, ?_⟩, ?_⟩
    · rw [hmatched]; exact hreq'
    · rw [hmatched, hdoubt, ← hb, ← hd]

theorem exists_computePots (hr : ratio ≠ 0) (hfit : matchable doubt.toNat ratio.toNat < 2 ^ 64) :
    ∃ pots, computePots back doubt ratio = .ok pots := by
  obtain ⟨matchedBack, hback⟩ := exists_toNat_eq
    (Nat.lt_of_le_of_lt (Nat.min_le_left _ (matchable doubt.toNat ratio.toNat)) back.toNat_lt)
  obtain ⟨matchedDoubt, hdoubt⟩ := exists_toNat_eq
    (Nat.lt_of_le_of_lt (Nat.min_le_left _ (share matchedBack.toNat ratio.toNat 1000))
      doubt.toNat_lt)
  exact ⟨⟨back, doubt, matchedBack, matchedDoubt⟩,
    computePots_ok_iff.mpr ⟨hr, hfit, rfl, rfl, hback, hdoubt⟩⟩

/-- Matched stakes never exceed the stakes they come from. -/
theorem matched_le_of_computePots (h : computePots back doubt ratio = .ok pots) :
    pots.matchedBack.toNat ≤ back.toNat ∧ pots.matchedDoubt.toNat ≤ doubt.toNat := by
  obtain ⟨_, _, _, _, hmb, hmd⟩ := computePots_ok_iff.mp h
  rw [hmb, hmd]
  exact ⟨Nat.min_le_left _ _, Nat.min_le_left _ _⟩

variable {matchedLosing : UInt64}

/-- A forfeit is the floored share of the stake in the matched losing pot. -/
theorem loserForfeit_ok_iff {stake totalLosing f : UInt64} :
    loserForfeit stake matchedLosing totalLosing = .ok f ↔
      (totalLosing = 0 ∨ matchedLosing.toNat ≤ totalLosing.toNat) ∧
      f.toNat = share stake.toNat matchedLosing.toNat totalLosing.toNat := by
  unfold loserForfeit
  by_cases ht : totalLosing = 0
  · subst ht
    simp only [if_true, Except.ok.injEq, true_or, true_and, UInt64.toNat_zero, share_zero_total]
    rw [← UInt64.toNat_inj, eq_comm]
    rfl
  · simp only [ht, if_false, bind_ok_iff, require_ok_iff, mulDivFloor_ok_iff,
      false_or, gt_iff_lt, UInt64.lt_iff_toNat_lt, Nat.not_lt]
    constructor
    · rintro ⟨_, hle, _, hf⟩; exact ⟨hle, hf⟩
    · rintro ⟨hle, hf⟩; exact ⟨(), hle, ht, hf⟩

/-- A consistent forfeit is always computed, and never exceeds the stake. -/
theorem exists_loserForfeit (stake : UInt64) {totalLosing : UInt64}
    (h : matchedLosing.toNat ≤ totalLosing.toNat) :
    ∃ f, loserForfeit stake matchedLosing totalLosing = .ok f ∧ f.toNat ≤ stake.toNat := by
  have hle : share stake.toNat matchedLosing.toNat totalLosing.toNat ≤ stake.toNat :=
    share_le_stake h
  obtain ⟨f, hf⟩ := exists_toNat_eq (Nat.lt_of_le_of_lt hle stake.toNat_lt)
  refine ⟨f, loserForfeit_ok_iff.mpr ⟨.inr h, hf⟩, ?_⟩
  rw [hf]; exact hle

/-- Winnings are the floored share of the stake in the forfeited pot. -/
theorem winnerWinnings_ok_iff {stake forfeitedPot totalWinning w : UInt64} :
    winnerWinnings stake forfeitedPot totalWinning = .ok w ↔
      w.toNat = share stake.toNat forfeitedPot.toNat totalWinning.toNat := by
  unfold winnerWinnings
  by_cases ht : totalWinning = 0
  · subst ht
    simp only [if_true, Except.ok.injEq, UInt64.toNat_zero, share_zero_total]
    rw [← UInt64.toNat_inj, eq_comm]
    rfl
  · rw [if_neg ht, mulDivFloor_ok_iff, and_iff_right ht]

/-! ## the reference settlement -/

/-- Each owner may appear once; the error says whether a second appearance is
on the same side. -/
def validateUniqueOwners : List SettlementInput → MathResult Unit
  | [] => .ok ()
  | position :: rest =>
      match rest.find? (fun duplicate => position.userKey = duplicate.userKey) with
      | some duplicate =>
          if position.side = duplicate.side then .error .duplicateOwner else .error .oppositeSide
      | none => validateUniqueOwners rest

def checkedAmountSum (values : List UInt64) : MathResult UInt64 :=
  okOr (checkedSum values) .overflow

/-- The sum of the positions' total amounts. -/
def escrowedTotal (positions : List SettlementInput) : MathResult UInt64 :=
  positions.foldlM (fun total position => do
    okOr (checkedAdd total (← position.totalAmount)) .overflow) 0

/-- The credit of a position when the market is void: everything back. -/
def voidCredit (position : SettlementInput) : MathResult PositionCredit := do
  return { userKey := position.userKey, refund := ← position.totalAmount, payout := 0 }

/-- What the losing positions give up together. -/
def forfeitedTotal (positions : List SettlementInput) (winningSide : PositionSide)
    (matchedLosing losingStakes : UInt64) : MathResult UInt64 :=
  (positions.filter fun position => position.side ≠ winningSide).foldlM
    (fun pot position => do
      okOr (checkedAdd pot (← loserForfeit position.activeAmount matchedLosing losingStakes))
        .overflow) 0

/-- The credit of one position once the forfeited pot is known. -/
def settledCredit (winningSide : PositionSide)
    (winningStakes losingStakes matchedLosing forfeitedPot : UInt64)
    (position : SettlementInput) : MathResult PositionCredit := do
  let baseRefund ← okOr (checkedAdd position.pendingAmount position.refundableAmount) .overflow
  if position.side = winningSide then
    let winnings ← winnerWinnings position.activeAmount forfeitedPot winningStakes
    let payout ← okOr (checkedAdd position.activeAmount winnings) .overflow
    return { userKey := position.userKey, refund := baseRefund, payout }
  else
    let forfeit ← loserForfeit position.activeAmount matchedLosing losingStakes
    let activeRefund ← okOr (checkedSub position.activeAmount forfeit) .inconsistentTotals
    let refund ← okOr (checkedAdd activeRefund baseRefund) .overflow
    return { userKey := position.userKey, refund, payout := 0 }

/-- `SettlementResult::total_credited`. -/
def totalCredited (credits : List PositionCredit) : MathResult UInt64 :=
  credits.foldlM (fun total credit =>
    okOr ((checkedAdd total credit.refund).bind fun value => checkedAdd value credit.payout)
      .overflow) 0

/-- The side the outcome pays; a void or missing outcome pays none. -/
def winningSideOf : SettlementOutcome → MathResult PositionSide
  | .claimWon => .ok .back
  | .claimLost => .ok .doubt
  | .unresolved | .void => .error .invalidOutcome

/-- Winning stakes, losing stakes and the matched part of the losing stakes. -/
def Pots.stakesFor (pots : Pots) (winningSide : PositionSide) : UInt64 × UInt64 × UInt64 :=
  if winningSide = .back then (pots.back, pots.doubt, pots.matchedDoubt)
  else (pots.doubt, pots.back, pots.matchedBack)

def settlePositions (positions : List SettlementInput) (outcome : SettlementOutcome)
    (ratioMilli : UInt32) : MathResult SettlementResult := do
  require (ratioMilli ≠ 0) MathError.invalidRatio
  require (outcome ≠ .unresolved) MathError.invalidOutcome
  validateUniqueOwners positions
  let escrowed ← escrowedTotal positions
  if outcome = .void then
    let credits ← positions.mapM voidCredit
    let pots ← computePots 0 0 ratioMilli
    return { pots, forfeitedPot := 0, credits, dust := 0 }
  else
    let activeBack ← checkedAmountSum
      ((positions.filter fun position => position.side = .back).map (·.activeAmount))
    let activeDoubt ← checkedAmountSum
      ((positions.filter fun position => position.side = .doubt).map (·.activeAmount))
    let pots ← computePots activeBack activeDoubt ratioMilli
    let winningSide ← winningSideOf outcome
    let (winningStakes, losingStakes, matchedLosing) := pots.stakesFor winningSide
    let forfeitedPot ← forfeitedTotal positions winningSide matchedLosing losingStakes
    let credits ← positions.mapM
      (settledCredit winningSide winningStakes losingStakes matchedLosing forfeitedPot)
    let credited ← totalCredited credits
    let dust ← okOr (checkedSub escrowed credited) .inconsistentTotals
    return { pots, forfeitedPot, credits, dust }

theorem stakesFor_matched_le (h : computePots back doubt ratio = .ok pots) (win : PositionSide) :
    (pots.stakesFor win).2.2.toNat ≤ (pots.stakesFor win).2.1.toNat := by
  obtain ⟨hback, hdoubt⟩ := matched_le_of_computePots h
  obtain ⟨_, _, hb, hd, _, _⟩ := computePots_ok_iff.mp h
  rw [← hb] at hback
  rw [← hd] at hdoubt
  cases win with
  | back => exact hdoubt
  | doubt => exact hback

/-! ## what a successful reference settlement computes -/

/-- The sum of a side's active stakes. -/
def activeSum (positions : List SettlementInput) (side : PositionSide) : Nat :=
  ((positions.filter fun position => position.side = side).map (·.activeAmount.toNat)).sum

/-- A position's total, over the naturals. -/
def SettlementInput.paid (p : SettlementInput) : Nat :=
  p.activeAmount.toNat + p.pendingAmount.toNat + p.refundableAmount.toNat

/-- The floored forfeits of all positions off the winning side. -/
def forfeitSum (positions : List SettlementInput) (winningSide : PositionSide)
    (matchedLosing losingStakes : Nat) : Nat :=
  ((positions.filter fun position => position.side ≠ winningSide).map fun position =>
    share position.activeAmount.toNat matchedLosing losingStakes).sum

variable {p : SettlementInput}

theorem totalAmount_ok_iff {a : UInt64} :
    p.totalAmount = .ok a ↔ p.paid = a.toNat := by
  unfold SettlementInput.totalAmount SettlementInput.paid
  rw [okOr_ok_iff, Option.bind_eq_some_iff]
  simp only [checkedAdd_eq_some]
  constructor
  · rintro ⟨x, hx, ha⟩; omega
  · intro h
    have ha := a.toNat_lt
    refine ⟨p.activeAmount + p.pendingAmount, ?_, ?_⟩
    · rw [UInt64.toNat_add]; omega
    · rw [UInt64.toNat_add]; omega

variable {t : UInt64}

/-- A left fold that adds a computed amount at each step returns the sum. -/
theorem foldlM_add_ok {f : α → MathResult UInt64} {g : α → Nat}
    (hf : ∀ a v, f a = .ok v → v.toNat = g a) {as : List α} {s : UInt64}
    (h : as.foldlM (fun acc a => do okOr (checkedAdd acc (← f a)) .overflow) s = .ok t) :
    t.toNat = s.toNat + (as.map g).sum := by
  refine (foldlM_ok_sum (I := fun _ => True) (m := UInt64.toNat) ?_ trivial h).2
  intro acc a acc' _ _ hacc
  simp only [bind_ok_iff, okOr_ok_iff, checkedAdd_eq_some] at hacc
  obtain ⟨v, hv, hsum⟩ := hacc
  rw [← hsum, hf a v hv]
  exact ⟨trivial, rfl⟩

variable {positions : List SettlementInput}

theorem escrowedTotal_ok (h : escrowedTotal positions = .ok t) :
    t.toNat = (positions.map SettlementInput.paid).sum := by
  have hsum := foldlM_add_ok (fun p v hv => (totalAmount_ok_iff.mp hv).symm) h
  simpa using hsum

theorem forfeitedTotal_ok {side : PositionSide} {losingStakes : UInt64}
    (h : forfeitedTotal positions side matchedLosing losingStakes = .ok t) :
    t.toNat = forfeitSum positions side matchedLosing.toNat losingStakes.toNat := by
  have hsum := foldlM_add_ok
    (g := fun p => share p.activeAmount.toNat matchedLosing.toNat losingStakes.toNat)
    (fun p v hv => (loserForfeit_ok_iff.mp hv).2) h
  simpa [forfeitSum] using hsum

theorem checkedAmountSum_ok {side : PositionSide} (h : checkedAmountSum
      ((positions.filter fun p => p.side = side).map (·.activeAmount)) = .ok t) :
    t.toNat = activeSum positions side := by
  unfold checkedAmountSum at h
  rw [okOr_ok_iff, checkedSum_eq_some, List.map_map] at h
  exact h.symm

/-- What one credit pays in all. -/
def PositionCredit.paidOut (c : PositionCredit) : Nat := c.refund.toNat + c.payout.toNat

theorem totalCredited_ok {credits : List PositionCredit}
    (h : totalCredited credits = .ok t) : t.toNat = (credits.map PositionCredit.paidOut).sum := by
  have hsum := (foldlM_ok_sum (I := fun _ => True) (m := UInt64.toNat)
    (w := PositionCredit.paidOut) ?_ trivial h).2
  · simpa using hsum
  intro acc c acc' _ _ hacc
  rw [okOr_ok_iff, Option.bind_eq_some_iff] at hacc
  obtain ⟨mid, hmid, hadd⟩ := hacc
  rw [checkedAdd_eq_some] at hmid hadd
  refine ⟨trivial, ?_⟩
  rw [PositionCredit.paidOut]
  omega

variable {win : PositionSide}

/-- A credit of the winning side: the stake and its winnings on top of what was
never at risk. -/
theorem settledCredit_winner {W L mL F : UInt64} {c : PositionCredit} (hs : p.side = win)
    (h : settledCredit win W L mL F p = .ok c) :
    c.userKey = p.userKey ∧ c.refund.toNat = p.pendingAmount.toNat + p.refundableAmount.toNat ∧
      c.payout.toNat = p.activeAmount.toNat + share p.activeAmount.toNat F.toNat W.toNat := by
  unfold settledCredit at h
  simp only [hs, if_true, bind_ok_iff, okOr_ok_iff, checkedAdd_eq_some, winnerWinnings_ok_iff,
    pure_ok_iff] at h
  obtain ⟨base, hbase, w, hw, pay, hpay, rfl⟩ := h
  exact ⟨rfl, hbase.symm, by rw [← hpay, hw]⟩

/-- A credit of the losing side: everything but the forfeit. -/
theorem settledCredit_loser {W L mL F : UInt64} {c : PositionCredit} (hs : p.side ≠ win)
    (h : settledCredit win W L mL F p = .ok c) :
    c.userKey = p.userKey ∧
      c.refund.toNat + share p.activeAmount.toNat mL.toNat L.toNat = p.paid ∧
      c.payout.toNat = 0 := by
  unfold settledCredit at h
  simp only [hs, if_false, bind_ok_iff, okOr_ok_iff, checkedAdd_eq_some, checkedSub_eq_some,
    loserForfeit_ok_iff, pure_ok_iff] at h
  obtain ⟨base, hbase, f, ⟨_, hf⟩, rest, hrest, refund, hrefund, rfl⟩ := h
  refine ⟨rfl, ?_, rfl⟩
  change refund.toNat + _ = p.paid
  unfold SettlementInput.paid
  omega

/-- The facts of a settlement that names a winner. -/
structure SettlesTo (positions : List SettlementInput) (win : PositionSide) (ratio : UInt32)
    (r : SettlementResult) : Prop where
  unique : validateUniqueOwners positions = .ok ()
  back : r.pots.back.toNat = activeSum positions .back
  doubt : r.pots.doubt.toNat = activeSum positions .doubt
  pots : computePots r.pots.back r.pots.doubt ratio = .ok r.pots
  forfeited : r.forfeitedPot.toNat = forfeitSum positions win
    (r.pots.stakesFor win).2.2.toNat (r.pots.stakesFor win).2.1.toNat
  credits : List.Forall₂ (fun p c => settledCredit win (r.pots.stakesFor win).1
    (r.pots.stakesFor win).2.1 (r.pots.stakesFor win).2.2 r.forfeitedPot p = .ok c)
    positions r.credits
  dust : r.dust.toNat + (r.credits.map PositionCredit.paidOut).sum =
    (positions.map SettlementInput.paid).sum
  escrowed : (positions.map SettlementInput.paid).sum < 2 ^ 64

theorem ne_void_of_winningSideOf {outcome : SettlementOutcome}
    (h : winningSideOf outcome = .ok win) : outcome ≠ .void := by
  rintro rfl
  simp [winningSideOf] at h

theorem settlePositions_decided {outcome : SettlementOutcome} {r : SettlementResult}
    (hw : winningSideOf outcome = .ok win) (h : settlePositions positions outcome ratio = .ok r) :
    SettlesTo positions win ratio r := by
  unfold settlePositions at h
  simp only [ne_void_of_winningSideOf hw, if_false, bind_ok_iff, hw, Except.ok.injEq,
    exists_eq_left', pure_ok_iff, okOr_ok_iff, checkedSub_eq_some, mapM_ok_iff_forall₂] at h
  obtain ⟨_, _, _, _, _, hu, esc, hesc, back, hback, doubt, hdoubt, pots, hpots, F, hF,
    credits, hcredits, credited, hcredited, dust, hdust, rfl⟩ := h
  obtain ⟨_, _, hpb, hpd, _, _⟩ := computePots_ok_iff.mp hpots
  refine ⟨hu, ?_, ?_, ?_, forfeitedTotal_ok hF, hcredits, ?_, ?_⟩
  · rw [hpb]; exact checkedAmountSum_ok hback
  · rw [hpd]; exact checkedAmountSum_ok hdoubt
  · rw [hpb, hpd]; exact hpots
  · rw [← totalCredited_ok hcredited, ← escrowedTotal_ok hesc]
    exact hdust
  · rw [← escrowedTotal_ok hesc]
    exact esc.toNat_lt

end CalledIt.Escrow
