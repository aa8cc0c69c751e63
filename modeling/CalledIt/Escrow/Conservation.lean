import CalledIt.Escrow.Math

/-!
# CalledIt.Escrow.Conservation

What a reference settlement conserves, and how much of it is dust.

Forfeits are floored one by one, and the winnings are floored shares of the floored forfeits.
The pots of `computePots` match nothing where a side is empty, so each of the two roundings loses
less than one unit for each position it rounds (`forfeited_lt`, `SettlesTo.dust_lt`), and what is
credited is never more than what is held.
-/

namespace CalledIt.Escrow

open Lib

/-! ## sides -/

/-- The positions of a side, and those of the other one. -/
def winnersOf (positions : List SettlementInput) (win : PositionSide) : List SettlementInput :=
  positions.filter fun p => p.side = win

@[inherit_doc winnersOf]
def losersOf (positions : List SettlementInput) (win : PositionSide) : List SettlementInput :=
  positions.filter fun p => p.side ≠ win

/-- The winning positions that have something at stake. -/
def activeWinners (positions : List SettlementInput) (win : PositionSide) : List SettlementInput :=
  (winnersOf positions win).filter fun p => 0 < p.activeAmount

def activeAmounts (positions : List SettlementInput) : List Nat :=
  positions.map (·.activeAmount.toNat)

theorem sum_winners (positions : List SettlementInput) (win : PositionSide) :
    (activeAmounts (winnersOf positions win)).sum = activeSum positions win := rfl

theorem countP_winners (positions : List SettlementInput) (win : PositionSide) :
    (activeAmounts (winnersOf positions win)).countP (0 < ·) =
      (activeWinners positions win).length := by
  rw [activeAmounts, List.countP_map, activeWinners, List.countP_eq_length_filter]
  congr 2

def PositionSide.other : PositionSide → PositionSide
  | .back => .doubt
  | .doubt => .back

theorem losersOf_eq (positions : List SettlementInput) (win : PositionSide) :
    losersOf positions win = winnersOf positions win.other := by
  refine List.filter_congr fun p _ => ?_
  cases win <;> cases p.side <;> rfl

/-- The stakes that a settlement divides by are the active sums of the two sides. -/
theorem stakesFor_sides (pots : Pots) {positions : List SettlementInput}
    (hback : pots.back.toNat = activeSum positions .back)
    (hdoubt : pots.doubt.toNat = activeSum positions .doubt) (win : PositionSide) :
    (pots.stakesFor win).1.toNat = (activeAmounts (winnersOf positions win)).sum ∧
      (pots.stakesFor win).2.1.toNat = (activeAmounts (losersOf positions win)).sum := by
  rw [losersOf_eq, sum_winners, sum_winners]
  cases win with
  | back => exact ⟨hback, hdoubt⟩
  | doubt => exact ⟨hdoubt, hback⟩

/-- Nothing is matched against an empty winning side. -/
theorem matched_eq_zero {back doubt : UInt64} {ratio : UInt32} {pots : Pots}
    (h : computePots back doubt ratio = .ok pots) {win : PositionSide}
    (hzero : (pots.stakesFor win).1.toNat = 0) : (pots.stakesFor win).2.2.toNat = 0 := by
  obtain ⟨_, _, hb, hd, hmb, hmd⟩ := computePots_ok_iff.mp h
  cases win with
  | back =>
      have hback : back.toNat = 0 := by rw [← hb]; exact hzero
      show pots.matchedDoubt.toNat = 0
      simp [hmd, hmb, hback]
  | doubt =>
      have hdoubt : doubt.toNat = 0 := by rw [← hd]; exact hzero
      show pots.matchedBack.toNat = 0
      simp [hmb, hdoubt, matchable]

/-! ## forfeits -/

theorem forfeitSum_eq (positions : List SettlementInput) (win : PositionSide) (m t : Nat) :
    forfeitSum positions win m t =
      ((activeAmounts (losersOf positions win)).map fun a => share a m t).sum := by
  rw [activeAmounts, List.map_map]
  rfl

/-- The floored forfeits make up the matched part of the losing stakes, but for less than one
unit for each loser. -/
theorem forfeited_lt (positions : List SettlementInput) (win : PositionSide) {m : Nat}
    (hm : m ≤ (activeAmounts (losersOf positions win)).sum) :
    let forfeited := forfeitSum positions win m (activeAmounts (losersOf positions win)).sum
    forfeited ≤ m ∧ (m = forfeited ∨ m < forfeited + (losersOf positions win).length) := by
  rw [forfeitSum_eq]
  refine ⟨sum_share_le (Nat.le_refl _), ?_⟩
  by_cases hpos : 0 < (activeAmounts (losersOf positions win)).sum
  · right
    have hlt := lt_sum_share (activeAmounts (losersOf positions win)) m hpos
    have hcount : (activeAmounts (losersOf positions win)).countP (0 < ·) ≤
        (losersOf positions win).length := by
      simpa [activeAmounts] using
        List.countP_le_length (p := (0 < ·)) (l := activeAmounts (losersOf positions win))
    omega
  · left
    have hzero : (activeAmounts (losersOf positions win)).sum = 0 := by omega
    simp [hzero] at hm ⊢
    omega

/-! ## credits -/

/-- What a position is credited, by the side it is on. -/
structure Credited (win : PositionSide) (p : SettlementInput) (c : PositionCredit) : Prop where
  userKey : c.userKey = p.userKey
  loser : p.side ≠ win →
    p.pendingAmount.toNat + p.refundableAmount.toNat ≤ c.paidOut ∧ c.paidOut ≤ p.paid
  winner : p.side = win → p.activeAmount.toNat ≤ c.payout.toNat

variable {W L mL F : UInt64}

/-- What a credit is worth: the total, with winnings or less a forfeit. -/
theorem paidOut_settledCredit {win : PositionSide} {p : SettlementInput} {c : PositionCredit}
    (h : settledCredit win W L mL F p = .ok c) :
    c.paidOut + (if p.side = win then 0 else share p.activeAmount.toNat mL.toNat L.toNat) =
      p.paid + if p.side = win then share p.activeAmount.toNat F.toNat W.toNat else 0 := by
  unfold PositionCredit.paidOut
  by_cases hs : p.side = win
  · obtain ⟨-, hrefund, hpayout⟩ := settledCredit_winner hs h
    simp only [hs, if_true, SettlementInput.paid]
    omega
  · obtain ⟨-, hrefund, hpayout⟩ := settledCredit_loser hs h
    simp only [hs, if_false]
    omega

theorem credited_of_settledCredit {win : PositionSide} {p : SettlementInput} {c : PositionCredit}
    (hle : mL.toNat ≤ L.toNat) (h : settledCredit win W L mL F p = .ok c) :
    Credited win p c where
  userKey := by
    by_cases hs : p.side = win
    · exact (settledCredit_winner hs h).1
    · exact (settledCredit_loser hs h).1
  loser hs := by
    have hpaid := paidOut_settledCredit h
    have hforfeit : share p.activeAmount.toNat mL.toNat L.toNat ≤ p.activeAmount.toNat :=
      share_le_stake hle
    simp only [hs, if_false, SettlementInput.paid] at hpaid ⊢
    omega
  winner hs := by
    obtain ⟨-, -, hpayout⟩ := settledCredit_winner hs h
    omega

/-- The two roundings, over all positions: what is credited and forfeited is what was held and
won. -/
theorem sum_settledCredit {positions : List SettlementInput} {win : PositionSide}
    {credits : List PositionCredit}
    (h : List.Forall₂ (fun p c => settledCredit win W L mL F p = .ok c) positions credits) :
    (credits.map PositionCredit.paidOut).sum + forfeitSum positions win mL.toNat L.toNat =
      (positions.map SettlementInput.paid).sum +
        ((activeAmounts (winnersOf positions win)).map fun a => share a F.toNat W.toNat).sum := by
  unfold forfeitSum activeAmounts winnersOf
  rw [sum_filter_map, List.map_map, sum_filter_map]
  induction h with
  | nil => rfl
  | cons hc _ ih =>
      have hone := paidOut_settledCredit hc
      simp only [List.map_cons, List.sum_cons, ite_not, Function.comp_apply] at *
      omega

section Settled

variable {positions : List SettlementInput} {win : PositionSide} {ratio : UInt32}
  {r : SettlementResult}

section

variable (h : SettlesTo positions win ratio r)

include h

theorem SettlesTo.sides :
    (r.pots.stakesFor win).1.toNat = (activeAmounts (winnersOf positions win)).sum ∧
      (r.pots.stakesFor win).2.1.toNat = (activeAmounts (losersOf positions win)).sum :=
  stakesFor_sides r.pots h.back h.doubt win

theorem SettlesTo.forfeits :
    r.forfeitedPot.toNat ≤ (r.pots.stakesFor win).2.2.toNat ∧
      ((r.pots.stakesFor win).2.2.toNat = r.forfeitedPot.toNat ∨
        (r.pots.stakesFor win).2.2.toNat <
          r.forfeitedPot.toNat + (losersOf positions win).length) := by
  have hle := stakesFor_matched_le h.pots win
  rw [h.sides.2] at hle
  have hlt := forfeited_lt positions win hle
  rw [← h.sides.2, ← h.forfeited] at hlt
  exact hlt

theorem SettlesTo.credited :
    List.Forall₂ (Credited win) positions r.credits :=
  h.credits.imp fun _ _ hc => credited_of_settledCredit (stakesFor_matched_le h.pots win) hc

/-- The dust is what the winners' shares leave of the forfeits. -/
theorem SettlesTo.dust_eq :
    r.dust.toNat + ((activeAmounts (winnersOf positions win)).map fun a =>
      share a r.forfeitedPot.toNat (activeAmounts (winnersOf positions win)).sum).sum =
        r.forfeitedPot.toNat := by
  have hsum := sum_settledCredit h.credits
  have hdust := h.dust
  rw [← h.forfeited, h.sides.1] at hsum
  omega

theorem SettlesTo.dust_lt :
    r.dust = 0 ∨ r.dust.toNat < (activeWinners positions win).length := by
  have hdust := h.dust_eq
  by_cases hpos : 0 < (activeAmounts (winnersOf positions win)).sum
  · right
    have hlt := lt_sum_share (activeAmounts (winnersOf positions win)) r.forfeitedPot.toNat hpos
    rw [countP_winners] at hlt
    omega
  · left
    -- without a winner nothing is matched, and nothing is forfeited
    have hwinning : (r.pots.stakesFor win).1.toNat = 0 := by rw [h.sides.1]; omega
    have hforfeit := h.forfeits.1
    rw [matched_eq_zero h.pots hwinning] at hforfeit
    rw [← UInt64.toNat_inj, UInt64.toNat_zero]
    omega

end

end Settled

/-! ## no inconsistent totals -/

section Errors

/-- The computation never finds its own totals inconsistent. -/
abbrev Consistent (m : MathResult α) : Prop := Avoids (· = MathError.inconsistentTotals) m

theorem consistent_mulDivFloor (value multiplier divisor : UInt64) :
    Consistent (mulDivFloor value multiplier divisor) :=
  (Avoids.require (by simp)).bind fun _ _ => (Avoids.okOr (by simp)).bind fun _ _ =>
    Avoids.okOr (by simp)

theorem consistent_computePots (back doubt : UInt64) (ratio : UInt32) :
    Consistent (computePots back doubt ratio) :=
  (Avoids.require (by simp)).bind fun _ _ => (consistent_mulDivFloor _ _ _).bind fun _ _ =>
    (consistent_mulDivFloor _ _ _).bind fun _ _ => Avoids.ok _

theorem consistent_loserForfeit (stake : UInt64) (hle : mL.toNat ≤ L.toNat) :
    Consistent (loserForfeit stake mL L) := by
  obtain ⟨f, hf, -⟩ := exists_loserForfeit stake hle
  rw [hf]
  exact Avoids.ok f

theorem consistent_winnerWinnings (stake F W : UInt64) :
    Consistent (winnerWinnings stake F W) := by
  unfold winnerWinnings
  split
  · exact Avoids.ok 0
  · exact consistent_mulDivFloor _ _ _

theorem consistent_totalAmount (p : SettlementInput) : Consistent p.totalAmount :=
  Avoids.okOr (by simp)

theorem consistent_validateUniqueOwners (positions : List SettlementInput) :
    Consistent (validateUniqueOwners positions) := by
  induction positions with
  | nil => exact Avoids.ok ()
  | cons p positions ih =>
      unfold validateUniqueOwners
      split
      · intro e he
        split at he <;> cases he <;> simp
      · exact ih

/-- A forfeit is taken from the stake it is a share of. -/
theorem consistent_settledCredit (win : PositionSide) (W F : UInt64) (hle : mL.toNat ≤ L.toNat)
    (p : SettlementInput) :
    Consistent (settledCredit win W L mL F p) := by
  refine (Avoids.okOr (by simp)).bind fun _ _ => ?_
  split
  · exact (consistent_winnerWinnings _ _ _).bind fun _ _ =>
      (Avoids.okOr (by simp)).bind fun _ _ => Avoids.ok _
  · refine (consistent_loserForfeit _ hle).bind fun f hf => ?_
    have hforfeit : f.toNat ≤ p.activeAmount.toNat := by
      rw [(loserForfeit_ok_iff.mp hf).2]
      exact share_le_stake hle
    refine (Avoids.okOr fun hnone => ?_).bind fun _ _ =>
      (Avoids.okOr (by simp)).bind fun _ _ => Avoids.ok _
    rw [checkedSub_eq_none] at hnone
    omega

/-- The winners' shares never exceed the forfeits, so no settlement credits more than it holds. -/
theorem credited_le_escrowed {positions : List SettlementInput} {win : PositionSide} {pots : Pots}
    {credits : List PositionCredit} (hback : pots.back.toNat = activeSum positions .back)
    (hdoubt : pots.doubt.toNat = activeSum positions .doubt)
    (hF : F.toNat = forfeitSum positions win (pots.stakesFor win).2.2.toNat
      (pots.stakesFor win).2.1.toNat)
    (hcredits : List.Forall₂ (fun p c => settledCredit win (pots.stakesFor win).1
      (pots.stakesFor win).2.1 (pots.stakesFor win).2.2 F p = .ok c) positions credits) :
    (credits.map PositionCredit.paidOut).sum ≤ (positions.map SettlementInput.paid).sum := by
  have hsum := sum_settledCredit hcredits
  rw [(stakesFor_sides pots hback hdoubt win).1, ← hF] at hsum
  have hshares := sum_share_le (m := F.toNat)
    (Nat.le_refl (activeAmounts (winnersOf positions win)).sum)
  omega

theorem consistent_settlePositions (positions : List SettlementInput) (outcome : SettlementOutcome)
    (ratio : UInt32) : Consistent (settlePositions positions outcome ratio) := by
  refine (Avoids.require (by simp)).bind fun _ _ => (Avoids.require (by simp)).bind fun _ _ =>
    (consistent_validateUniqueOwners positions).bind fun _ _ =>
      (Avoids.foldlM (fun s p => (consistent_totalAmount p).bind fun _ _ =>
        Avoids.okOr (by simp)) _ _).bind fun escrowed hescrowed => ?_
  split
  · exact (Avoids.mapM (fun p => (consistent_totalAmount p).bind fun _ _ => Avoids.ok _) _).bind
      fun _ _ => (consistent_computePots _ _ _).bind fun _ _ => Avoids.ok _
  refine (Avoids.okOr (by simp)).bind fun back hback => (Avoids.okOr (by simp)).bind
    fun doubt hdoubt => (consistent_computePots _ _ _).bind fun pots hpots => ?_
  refine Avoids.bind (fun e he => ?_) fun win hwin => ?_
  · cases outcome <;> simp [winningSideOf] at he <;> simp [← he]
  have hle := stakesFor_matched_le hpots win
  refine (Avoids.foldlM (fun s p => (consistent_loserForfeit _ hle).bind fun _ _ =>
    Avoids.okOr (by simp)) _ _).bind fun F hF => ?_
  refine (Avoids.mapM (consistent_settledCredit win _ F hle) _).bind fun credits hcredits => ?_
  refine (Avoids.foldlM (fun s c => Avoids.okOr (by simp)) _ _).bind fun credited hcredited => ?_
  refine (Avoids.okOr fun hnone => ?_).bind fun _ _ => Avoids.ok _
  obtain ⟨_, _, hpb, hpd, _, _⟩ := computePots_ok_iff.mp hpots
  have hcredit := credited_le_escrowed (by rw [hpb]; exact checkedAmountSum_ok hback)
    (by rw [hpd]; exact checkedAmountSum_ok hdoubt) (forfeitedTotal_ok hF)
    (mapM_ok_iff_forall₂.mp hcredits)
  rw [← totalCredited_ok hcredited, ← escrowedTotal_ok hescrowed] at hcredit
  rw [checkedSub_eq_none] at hnone
  omega

end Errors

/-! ## conservation -/

theorem settlePositions_void {positions : List SettlementInput} {ratio : UInt32}
    {r : SettlementResult} (h : settlePositions positions .void ratio = .ok r) :
    r.dust = 0 ∧ List.Forall₂ (fun p c => c.userKey = p.userKey ∧ c.paidOut = p.paid)
      positions r.credits := by
  unfold settlePositions at h
  simp only [if_true, bind_ok_iff, mapM_ok_iff_forall₂, pure_ok_iff] at h
  obtain ⟨_, _, _, _, _, _, _, _, credits, hcredits, _, _, rfl⟩ := h
  refine ⟨rfl, hcredits.imp fun p c hc => ?_⟩
  simp only [voidCredit, bind_ok_iff, totalAmount_ok_iff, pure_ok_iff] at hc
  obtain ⟨amount, hamount, rfl⟩ := hc
  simp [PositionCredit.paidOut, hamount]

/-- Everything held is credited or dust, and both roundings are bounded. -/
structure Conserves (positions : List SettlementInput) (outcome : SettlementOutcome)
    (r : SettlementResult) : Prop where
  total : (r.credits.map PositionCredit.paidOut).sum + r.dust.toNat =
    (positions.map SettlementInput.paid).sum
  void : outcome = .void → r.dust = 0 ∧
    List.Forall₂ (fun p c => c.userKey = p.userKey ∧ c.paidOut = p.paid) positions r.credits
  dust : ∀ win, winningSideOf outcome = .ok win →
    r.dust = 0 ∨ r.dust.toNat < (activeWinners positions win).length
  credits : ∀ win, winningSideOf outcome = .ok win →
    List.Forall₂ (Credited win) positions r.credits
  forfeited : ∀ win, winningSideOf outcome = .ok win →
    r.forfeitedPot.toNat ≤ (r.pots.stakesFor win).2.2.toNat ∧
      ((r.pots.stakesFor win).2.2.toNat = r.forfeitedPot.toNat ∨
        (r.pots.stakesFor win).2.2.toNat < r.forfeitedPot.toNat + (losersOf positions win).length)

theorem conserves_of_settled {positions : List SettlementInput} {outcome : SettlementOutcome}
    {ratio : UInt32} {r : SettlementResult} (h : settlePositions positions outcome ratio = .ok r) :
    Conserves positions outcome r where
  total := by
    cases hwin : winningSideOf outcome with
    | ok win =>
        have hdust := (settlePositions_decided hwin h).dust
        omega
    | error e =>
        cases outcome with
        | void =>
            obtain ⟨hdust, hcredits⟩ := settlePositions_void h
            rw [hdust, map_eq_map_of_forall₂ hcredits fun p c hc => hc.2.symm]
            rfl
        | unresolved => simp [settlePositions, bind_ok_iff] at h
        | claimWon | claimLost => cases hwin
  void hvoid := settlePositions_void (hvoid ▸ h)
  dust win hwin := (settlePositions_decided hwin h).dust_lt
  credits win hwin := (settlePositions_decided hwin h).credited
  forfeited win hwin := (settlePositions_decided hwin h).forfeits

/-- A settlement conserves every unit that is held, and never finds its totals inconsistent. -/
theorem settlement_conserves (positions : List SettlementInput) (outcome : SettlementOutcome)
    (ratio : UInt32) :
    (∀ r, settlePositions positions outcome ratio = .ok r → Conserves positions outcome r) ∧
      settlePositions positions outcome ratio ≠ .error .inconsistentTotals :=
  ⟨fun _ h => conserves_of_settled h,
    fun h => consistent_settlePositions positions outcome ratio _ h rfl⟩

theorem settlement_conserves_sample :
    ∃ r, settlePositions [⟨1, .back, 1000, 5, 0⟩, ⟨2, .doubt, 700, 0, 3⟩, ⟨3, .back, 10, 0, 0⟩]
      .claimWon 2333 = .ok r ∧ r.dust = 1 ∧
      Conserves [⟨1, .back, 1000, 5, 0⟩, ⟨2, .doubt, 700, 0, 3⟩, ⟨3, .back, 10, 0, 0⟩]
        .claimWon r :=
  ⟨_, rfl, rfl, (settlement_conserves _ _ 2333).1 _ rfl⟩

/-- Where nobody lost, no shortfall is smaller than the number of losers. -/
theorem shortfall_without_losers :
    ∃ r, settlePositions [⟨1, .back, 100, 0, 0⟩] .claimWon 1000 = .ok r ∧
      ¬ (r.pots.stakesFor .back).2.2.toNat - r.forfeitedPot.toNat <
        (losersOf [⟨1, .back, 100, 0, 0⟩] .back).length :=
  ⟨_, rfl, by decide⟩

end CalledIt.Escrow
