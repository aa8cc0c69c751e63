import CalledIt.Sdk.MathReference
import CalledIt.Escrow.Math

/-!
# CalledIt.Sdk.Agreement

The client's payout engine and the program's pay the same.

The two collect their results differently: the program a credit for each
position, the client a list of refunds and a map of payouts that leave out what
is zero.  Both are read off owner by owner (`Pays`, `Credited`), and for the same
positions they come to the same amounts (`engines_agree`).
-/

namespace CalledIt.Sdk

open Lib
open Escrow (PositionSide SettlementInput SettlementResult PositionCredit)

/-- A position as the two engines take it: `key` names its owner to the
program. -/
structure SamePosition (key : String → UInt64) (p : EscrowMathPosition)
    (q : SettlementInput) : Prop where
  owner : q.userKey = key p.owner
  side : p.side = q.side
  active : p.activeAmount = q.activeAmount.toNat
  pending : p.pendingAmount = q.pendingAmount.toNat
  refundable : p.refundableAmount = q.refundableAmount.toNat

def SettlementOutcome.onChain : SettlementOutcome → Escrow.SettlementOutcome
  | .claimWon => .claimWon
  | .claimLost => .claimLost
  | .void => .void

structure SamePots (pots : EscrowPots) (onChain : Escrow.Pots) : Prop where
  back : pots.backAmount = onChain.back.toNat
  doubt : pots.doubtAmount = onChain.doubt.toNat
  matchedBack : pots.matchedBack = onChain.matchedBack.toNat
  matchedDoubt : pots.matchedDoubt = onChain.matchedDoubt.toNat

/-- The refunds the credits hold for a key. -/
def refundFor (userKey : UInt64) (credits : List PositionCredit) : Nat :=
  (credits.map fun c => if c.userKey = userKey then c.refund.toNat else 0).sum

/-- The payouts the credits hold for a key. -/
def payoutFor (userKey : UInt64) (credits : List PositionCredit) : Nat :=
  (credits.map fun c => if c.userKey = userKey then c.payout.toNat else 0).sum

/-! ## ratios and pots -/

/-- The client's ratio, for every probability strictly between zero and one. -/
theorem ratioMilliFromProbabilityPpm_eq {ppm : Nat} (hlow : 1 ≤ ppm) (hhigh : ppm ≤ 999999) :
    ratioMilliFromProbabilityPpm ppm = .ok (Escrow.nearestRatio ppm : Nat) := by
  have hrange : ¬ ((ppm : Int) < 1 ∨ (ppm : Int) > 999999) := by omega
  have hnumerator : (1000000 - (ppm : Int)) * scale = ((1000000 - ppm) * 1000 : Nat) := by
    unfold scale
    omega
  have hrounded : ((1000000 - (ppm : Int)) * scale + (ppm : Int).tdiv 2).tdiv ppm =
      (((1000000 - ppm) * 1000 + ppm / 2) / ppm : Nat) := by
    rw [hnumerator]
    rfl
  unfold ratioMilliFromProbabilityPpm assertInteger Escrow.nearestRatio
  rw [require_pos hrange]
  simp only [ok_bind, pure_bind, hrounded]
  rw [pure_ok_iff]
  split <;> omega

theorem minBigint_cast (a b : Nat) : minBigint a b = (min a b : Nat) := by
  unfold minBigint
  split <;> omega

theorem tdiv_cast (a m t : Nat) : ((a : Int) * m).tdiv t = (share a m t : Nat) := by
  rw [← Int.natCast_mul, share, Int.ofNat_tdiv]

variable {key : String → UInt64}

theorem SamePosition.paid {p : EscrowMathPosition} {q : SettlementInput}
    (h : SamePosition key p q) : p.paid = q.paid := by
  rw [EscrowMathPosition.paid, SettlementInput.paid, h.active, h.pending, h.refundable]
  omega

variable {ps : List EscrowMathPosition} {qs : List SettlementInput}

theorem activeOn_eq (h : List.Forall₂ (SamePosition key) ps qs) (side : PositionSide) :
    activeOn side ps = Escrow.activeSum qs side := by
  unfold activeOn Escrow.activeSum
  rw [sum_filter_map]
  apply sum_eq_cast_sum h
  intro p q hpq
  rw [hpq.side, hpq.active]
  split <;> rfl

variable {ratio : UInt32} {pots : EscrowPots} {onChain : Escrow.Pots}

/-- Pots over the same totals and the same ratio. -/
theorem samePots (h : List.Forall₂ (SamePosition key) ps qs)
    (hpots : computePots ps ratio.toNat = .ok pots)
    (hback : onChain.back.toNat = Escrow.activeSum qs .back)
    (hdoubt : onChain.doubt.toNat = Escrow.activeSum qs .doubt)
    (honChain : Escrow.computePots onChain.back onChain.doubt ratio = .ok onChain) :
    SamePots pots onChain := by
  obtain ⟨hb, hd, hmb, hmd⟩ := computePots_ok hpots
  obtain ⟨_, _, _, _, hmb', hmd'⟩ := Escrow.computePots_ok_iff.mp honChain
  rw [activeOn_eq h, ← hback] at hb
  rw [activeOn_eq h, ← hdoubt] at hd
  have hscale : scale = (1000 : Nat) := rfl
  have hmatched : pots.matchedBack = onChain.matchedBack.toNat := by
    rw [hmb, hb, hd, hscale, tdiv_cast, minBigint_cast, hmb']
    rfl
  refine ⟨hb, hd, hmatched, ?_⟩
  rw [hmd, hd, hmatched, hscale, tdiv_cast, minBigint_cast, hmd']

/-! ## the program's credits -/

/-- A settlement that credits each position with `refund` and `payout`. -/
structure Credited (positions : List SettlementInput) (refund payout : SettlementInput → Nat)
    (r : SettlementResult) : Prop where
  credits : List.Forall₂ (fun q c => c.userKey = q.userKey ∧ c.refund.toNat = refund q ∧
    c.payout.toNat = payout q) positions r.credits
  dust : r.dust.toNat + ((positions.map refund).sum + (positions.map payout).sum) =
    (positions.map SettlementInput.paid).sum

variable {r : SettlementResult}

theorem credited_void (h : Escrow.settlePositions qs .void ratio = .ok r) :
    SamePots ⟨0, 0, 0, 0⟩ r.pots ∧ Credited qs SettlementInput.paid (fun _ => 0) r := by
  unfold Escrow.settlePositions at h
  simp only [if_true, bind_ok_iff, mapM_ok_iff_forall₂, pure_ok_iff] at h
  obtain ⟨_, _, _, _, _, _, _, _, credits, hcredits, pots, hpots, rfl⟩ := h
  obtain ⟨_, _, hback, hdoubt, hmb, hmd⟩ := Escrow.computePots_ok_iff.mp hpots
  rw [UInt64.toNat_zero, Nat.zero_min] at hmb hmd
  refine ⟨⟨?_, ?_, ?_, ?_⟩, ?_, ?_⟩
  · rw [hback]; rfl
  · rw [hdoubt]; rfl
  · rw [hmb]; rfl
  · rw [hmd]; rfl
  · refine hcredits.imp fun q c hc => ?_
    simp only [Escrow.voidCredit, bind_ok_iff, Escrow.totalAmount_ok_iff, pure_ok_iff] at hc
    obtain ⟨refund, hrefund, rfl⟩ := hc
    exact ⟨rfl, hrefund.symm, rfl⟩
  · simp

/-- What a position gets back when `win` wins. -/
def refundOnChain (r : SettlementResult) (win : PositionSide) (q : SettlementInput) : Nat :=
  q.pendingAmount.toNat + q.refundableAmount.toNat + if q.side = win then 0
    else q.activeAmount.toNat - share q.activeAmount.toNat (r.pots.stakesFor win).2.2.toNat
      (r.pots.stakesFor win).2.1.toNat

/-- What a position wins when `win` wins. -/
def payoutOnChain (r : SettlementResult) (win : PositionSide) (q : SettlementInput) : Nat :=
  if q.side = win then q.activeAmount.toNat + share q.activeAmount.toNat r.forfeitedPot.toNat
    (r.pots.stakesFor win).1.toNat
  else 0

theorem credited_decided {win : PositionSide} (h : Escrow.SettlesTo qs win ratio r) :
    Credited qs (refundOnChain r win) (payoutOnChain r win) r := by
  have hmatched : (r.pots.stakesFor win).2.2.toNat ≤ (r.pots.stakesFor win).2.1.toNat :=
    Escrow.stakesFor_matched_le h.pots win
  have hcredits : List.Forall₂ (fun q c => c.userKey = q.userKey ∧
      c.refund.toNat = refundOnChain r win q ∧ c.payout.toNat = payoutOnChain r win q)
      qs r.credits := by
    refine h.credits.imp fun q c hc => ?_
    have hle : share q.activeAmount.toNat (r.pots.stakesFor win).2.2.toNat
        (r.pots.stakesFor win).2.1.toNat ≤ q.activeAmount.toNat := share_le_stake hmatched
    unfold refundOnChain payoutOnChain
    by_cases hside : q.side = win
    · obtain ⟨hkey, hrefund, hpayout⟩ := Escrow.settledCredit_winner hside hc
      simp only [hside, if_true]
      exact ⟨hkey, hrefund, hpayout⟩
    · obtain ⟨hkey, hrefund, hpayout⟩ := Escrow.settledCredit_loser hside hc
      unfold SettlementInput.paid at hrefund
      simp only [hside, if_false]
      exact ⟨hkey, by omega, hpayout⟩
  refine ⟨hcredits, ?_⟩
  rw [← h.dust, ← List.sum_map_add]
  congr 2
  refine map_eq_map_of_forall₂ hcredits fun q c hc => ?_
  rw [PositionCredit.paidOut, hc.2.1, hc.2.2]

/-! ## agreement -/

/-- Settlements that pay corresponding positions alike pay owners alike. -/
theorem Pays.agrees (hsame : List.Forall₂ (SamePosition key) ps qs)
    (hkey : Set.InjOn key {owner | ∃ p ∈ ps, p.owner = owner})
    {refund payout : EscrowMathPosition → Int} {t : EscrowSettlement} (ht : Pays ps refund payout t)
    {refund' payout' : SettlementInput → Nat} (hr : Credited qs refund' payout' r)
    (hrefund : ∀ p q, SamePosition key p q → refund p = refund' q)
    (hpayout : ∀ p q, SamePosition key p q → payout p = payout' q) :
    (∀ p ∈ ps, refundsTo (· = p.owner) t.refunds = refundFor (key p.owner) r.credits ∧
      t.payouts.getD p.owner = payoutFor (key p.owner) r.credits) ∧ t.dust = r.dust.toNat := by
  have hmem : List.Forall₂ (fun p q => p ∈ ps ∧ SamePosition key p q) ps qs :=
    forall₂_imp_mem hsame fun p hp q _ hpq => ⟨hp, hpq⟩
  -- an owner is selected exactly when its key is
  have howner : ∀ p ∈ ps, ∀ p' q, p' ∈ ps ∧ SamePosition key p' q →
      (p'.owner = p.owner ↔ q.userKey = key p.owner) := by
    intro p hp p' q hpq
    rw [hpq.2.owner]
    exact (hkey.eq_iff ⟨p', hpq.1, rfl⟩ ⟨p, hp, rfl⟩).symm
  refine ⟨?_, ?_⟩
  · intro p hp
    constructor
    · rw [ht.refunds, refundFor, ← map_eq_map_of_forall₂ hr.credits
        (f := fun q => if q.userKey = key p.owner then refund' q else 0)
        (fun q c hc => by rw [hc.1, hc.2.1])]
      refine sum_eq_cast_sum hmem fun p' q hpq => ?_
      simp only [howner p hp p' q hpq, hrefund p' q hpq.2]
      split <;> rfl
    · rw [ht.payouts, payoutFor, ← map_eq_map_of_forall₂ hr.credits
        (f := fun q => if q.userKey = key p.owner then payout' q else 0)
        (fun q c hc => by rw [hc.1, hc.2.2])]
      refine sum_eq_cast_sum hmem fun p' q hpq => ?_
      simp only [howner p hp p' q hpq, hpayout p' q hpq.2]
      split <;> rfl
  · have hdust := ht.dust
    rw [sum_eq_cast_sum hsame hrefund, sum_eq_cast_sum hsame hpayout,
      sum_eq_cast_sum hsame fun p q hpq => hpq.paid] at hdust
    have hdust' := hr.dust
    omega

theorem SamePots.stakesFor (h : SamePots pots onChain) (win : PositionSide) :
    pots.stakesFor win = (((onChain.stakesFor win).1.toNat : Int),
      ((onChain.stakesFor win).2.1.toNat : Int), ((onChain.stakesFor win).2.2.toNat : Int)) := by
  cases win <;> simp [EscrowPots.stakesFor, Escrow.Pots.stakesFor, h.back, h.doubt, h.matchedBack,
    h.matchedDoubt]

/-- A corresponding position forfeits the same. -/
theorem forfeitOf_eq (h : SamePots pots onChain) (win : PositionSide) {p : EscrowMathPosition}
    {q : SettlementInput} (hpq : SamePosition key p q) :
    pots.forfeitOf win p = (share q.activeAmount.toNat (onChain.stakesFor win).2.2.toNat
      (onChain.stakesFor win).2.1.toNat : Nat) := by
  rw [EscrowPots.forfeitOf, h.stakesFor, hpq.active]
  exact tdiv_cast _ _ _

theorem forfeitedPot_eq (hsame : List.Forall₂ (SamePosition key) ps qs) {win : PositionSide}
    (hpots : SamePots pots r.pots) (hr : Escrow.SettlesTo qs win ratio r) :
    pots.forfeitedPot win ps = r.forfeitedPot.toNat := by
  rw [hr.forfeited, Escrow.forfeitSum, sum_filter_map]
  refine sum_eq_cast_sum hsame fun p q hpq => ?_
  rw [forfeitOf_eq hpots win hpq, hpq.side]
  by_cases hside : q.side = win
  · simp [hside]
  · simp [hside]

theorem winningSideOf_onChain {outcome : SettlementOutcome} (h : outcome ≠ .void) :
    Escrow.winningSideOf outcome.onChain = .ok outcome.winningSide := by
  cases outcome with
  | claimWon => rfl
  | claimLost => rfl
  | void => contradiction

/-- A settlement that names a winner, by both engines. -/
theorem decided_agree (hsame : List.Forall₂ (SamePosition key) ps qs)
    (hkey : Set.InjOn key {owner | ∃ p ∈ ps, p.owner = owner}) {outcome : SettlementOutcome}
    (houtcome : outcome ≠ .void) {t : EscrowSettlement}
    (ht : settlePositions ps outcome ratio.toNat = .ok t)
    (hr : Escrow.settlePositions qs outcome.onChain ratio = .ok r) :
    SamePots t.pots r.pots ∧
    (∀ p ∈ ps, refundsTo (· = p.owner) t.refunds = refundFor (key p.owner) r.credits ∧
      t.payouts.getD p.owner = payoutFor (key p.owner) r.credits) ∧
    t.dust = r.dust.toNat := by
  have hs := Escrow.settlePositions_decided (winningSideOf_onChain houtcome) hr
  obtain ⟨hpots, hpays⟩ := settlePositions_decided houtcome ht
  have hsamePots := samePots hsame hpots hs.back hs.doubt hs.pots
  have hle : ∀ q : SettlementInput, share q.activeAmount.toNat
      (r.pots.stakesFor outcome.winningSide).2.2.toNat
      (r.pots.stakesFor outcome.winningSide).2.1.toNat ≤ q.activeAmount.toNat := by
    intro q
    exact share_le_stake (Escrow.stakesFor_matched_le hs.pots _)
  have hforfeits : ∀ p ∈ ps, t.pots.forfeitOf outcome.winningSide p ≤ p.activeAmount := by
    intro p hp
    obtain ⟨q, _, hpq⟩ := exists_of_forall₂ hsame hp
    rw [forfeitOf_eq hsamePots _ hpq, hpq.active]
    exact_mod_cast hle q
  refine ⟨hsamePots, Pays.agrees hsame hkey (hpays hforfeits) (credited_decided hs) ?_ ?_⟩
  · intro p q hpq
    have hq := hle q
    rw [EscrowPots.refundOf, refundOnChain, EscrowMathPosition.idle, hpq.side, hpq.active,
      hpq.pending, hpq.refundable, forfeitOf_eq hsamePots _ hpq]
    split <;> omega
  · intro p q hpq
    rw [EscrowPots.payoutOf, payoutOnChain, hpq.side, hpq.active,
      forfeitedPot_eq hsame hsamePots hs, hsamePots.stakesFor, tdiv_cast]
    split <;> rfl

/-- The program's engine and the client's agree: on the pots, on each owner's
refund and payout and on the dust of every settlement that both compute, and on
the ratio of every probability. -/
theorem engines_agree :
    (∀ (key : String → UInt64) (ps : List EscrowMathPosition) (qs : List SettlementInput)
      (outcome : SettlementOutcome) (ratio : UInt32) (t : EscrowSettlement) (r : SettlementResult),
      Set.InjOn key {owner | ∃ p ∈ ps, p.owner = owner} →
      List.Forall₂ (SamePosition key) ps qs →
      settlePositions ps outcome ratio.toNat = .ok t →
      Escrow.settlePositions qs outcome.onChain ratio = .ok r →
      SamePots t.pots r.pots ∧
      (∀ p ∈ ps, refundsTo (· = p.owner) t.refunds = refundFor (key p.owner) r.credits ∧
        t.payouts.getD p.owner = payoutFor (key p.owner) r.credits) ∧
      t.dust = r.dust.toNat) ∧
    ∀ ppm : UInt32, 1 ≤ ppm.toNat → ppm.toNat ≤ 999999 → ∃ ratio : UInt32,
      Escrow.ratioMilli ppm = .ok ratio ∧
      ratioMilliFromProbabilityPpm ppm.toNat = .ok (ratio.toNat : Int) := by
  constructor
  · intro key ps qs outcome ratio t r hkey hsame ht hr
    by_cases houtcome : outcome = .void
    · subst houtcome
      obtain ⟨hpots, hpays⟩ := settlePositions_void ht
      obtain ⟨honChain, hcredited⟩ := credited_void hr
      rw [hpots]
      exact ⟨honChain, Pays.agrees hsame hkey hpays hcredited (fun _ _ hpq => hpq.paid)
        fun _ _ _ => rfl⟩
    · exact decided_agree hsame hkey houtcome ht hr
  · intro ppm hlow hhigh
    obtain ⟨ratio, hok, hratio⟩ := Escrow.exists_ratioMilli ⟨hlow, hhigh⟩
    refine ⟨ratio, hok, ?_⟩
    rw [hratio]
    exact ratioMilliFromProbabilityPpm_eq hlow hhigh

/-- A won claim with a backer and a doubter, and the ratio of an even one. -/
theorem engines_agree_sample :
    ∃ t r, settlePositions [⟨"p1", "alice", .back, 1000, 5, 0⟩, ⟨"p2", "bob", .doubt, 700, 0, 3⟩]
        .claimWon 2333 = .ok t ∧
      Escrow.settlePositions [⟨1, .back, 1000, 5, 0⟩, ⟨2, .doubt, 700, 0, 3⟩] .claimWon 2333 =
        .ok r ∧
      SamePots t.pots r.pots ∧ refundsTo (· = "bob") t.refunds = refundFor 2 r.credits ∧
      t.payouts.getD "alice" = payoutFor 1 r.credits ∧ t.dust = r.dust.toNat ∧
      ∃ ratio : UInt32, Escrow.ratioMilli 500000 = .ok ratio ∧
        ratioMilliFromProbabilityPpm 500000 = .ok (ratio.toNat : Int) := by
  let key (owner : String) : UInt64 := if owner = "alice" then 1 else 2
  have hkey : Set.InjOn key {owner | ∃ p ∈ ([⟨"p1", "alice", .back, 1000, 5, 0⟩,
      ⟨"p2", "bob", .doubt, 700, 0, 3⟩] : List EscrowMathPosition), p.owner = owner} := by
    rintro _ ⟨p, hp, rfl⟩ _ ⟨q, hq, rfl⟩ h
    simp only [List.mem_cons, List.not_mem_nil, or_false] at hp hq
    rcases hp with rfl | rfl <;> rcases hq with rfl | rfl <;> simp_all [key]
  have hsame : List.Forall₂ (SamePosition key) [⟨"p1", "alice", .back, 1000, 5, 0⟩,
      ⟨"p2", "bob", .doubt, 700, 0, 3⟩] [⟨1, .back, 1000, 5, 0⟩, ⟨2, .doubt, 700, 0, 3⟩] :=
    .cons ⟨by decide, rfl, rfl, rfl, rfl⟩ (.cons ⟨by decide, rfl, rfl, rfl, rfl⟩ .nil)
  obtain ⟨t, ht⟩ := isOk_iff.mp (show (settlePositions [⟨"p1", "alice", .back, 1000, 5, 0⟩,
    ⟨"p2", "bob", .doubt, 700, 0, 3⟩] .claimWon 2333).isOk = true by decide +kernel)
  obtain ⟨r, hr⟩ := isOk_iff.mp (show (Escrow.settlePositions [⟨1, .back, 1000, 5, 0⟩,
    ⟨2, .doubt, 700, 0, 3⟩] .claimWon 2333).isOk = true by decide +kernel)
  obtain ⟨hpots, howners, hdust⟩ := engines_agree.1 key _ _ .claimWon 2333 t r hkey hsame ht hr
  exact ⟨t, r, ht, hr, hpots, (howners ⟨"p2", "bob", .doubt, 700, 0, 3⟩ (by simp)).1,
    (howners ⟨"p1", "alice", .back, 1000, 5, 0⟩ (by simp)).2, hdust,
    engines_agree.2 500000 (by decide) (by decide)⟩

end CalledIt.Sdk
