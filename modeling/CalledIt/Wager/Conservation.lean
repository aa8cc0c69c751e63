import CalledIt.Wager.CreditRows

/-!
# CalledIt.Wager.Conservation

What a settlement of the pot gives back to whom.

The pots match nothing where a side is empty (`matched_eq_zero`), so that nobody forfeits
anything there.  Elsewhere the winners' shares use up what is forfeited, but for less than one
lamport for each winner (`settleActive_total`, `forfeited_le`).
-/

namespace CalledIt.Wager

open Lib
open Engine (PositionState SettlementOutcome)

/-! ## who is credited -/

def losses (outcome : SettlementOutcome) (positions : List WagerPositionRow) :
    List WagerPositionRow :=
  (active outcome positions).filter (·.side ≠ winningSide outcome)

def ofUser (user : Nat) (positions : List WagerPositionRow) : List WagerPositionRow :=
  positions.filter (·.userId = user)

namespace SettlementCredits

variable (credits : SettlementCredits)

def refundsOf (positionId : String) : List Refund :=
  credits.refunds.filter (·.positionId = positionId)

def refundedTo (user : Nat) : Nat :=
  ((credits.refunds.filter (·.userId = user)).map (·.lamports)).sum

def paidTo (user : Nat) : Nat := (credits.payouts.lookup user).getD 0

end SettlementCredits

/-- A void market, or one where nothing is at stake on one of the sides. -/
def Unopposed (outcome : SettlementOutcome) (positions : List WagerPositionRow) : Prop :=
  outcome = .void ∨ ∃ side, ∀ p ∈ positions, p.state = .active → p.side ≠ side

/-- What a settlement owes its positions. -/
structure Conserved (positions : List WagerPositionRow) (outcome : SettlementOutcome)
    (credits : SettlementCredits) : Prop where
  bounded : credits.total ≤ stakes positions
  dust : stakes positions ≤ credits.total + (wins outcome positions).length
  unopposed : Unopposed outcome positions → ∀ user,
    credits.refundedTo user + credits.paidTo user = stakes (ofUser user positions)
  inactive : ∀ p ∈ positions, p.state = .pending ∨ p.state = .void →
    credits.refundsOf p.id = [refundOf p p.stake]
  winner : ∀ p ∈ wins outcome positions,
    stakes (ofUser p.userId (wins outcome positions)) ≤ credits.paidTo p.userId ∧
      p.stake ≤ credits.paidTo p.userId
  loser : ∀ p ∈ losses outcome positions, ∀ refund ∈ credits.refundsOf p.id,
    refund.userId = p.userId ∧ refund.lamports ≤ p.stake
  once : (credits.refunds.map (·.positionId)).Nodup
  known : ∀ refund ∈ credits.refunds, ∃ p ∈ positions,
    refund.positionId = p.id ∧ refund.userId = p.userId

/-! ## the pots -/

section Pots

variable {active : List WagerPositionRow} {probability : ℚ} {pots : Pots}

/-- Nothing is matched against an empty side. -/
theorem matched_eq_zero (h : computePots active probability = some pots)
    {empty : WagerPositionSide} (hempty : sideStakes active empty = 0) (side : WagerPositionSide) :
    (pots.sides side).2.2 = 0 := by
  obtain ⟨rMilli, -, rfl⟩ := Option.map_eq_some_iff.mp h
  have hfor : min (sideStakes active .back) (sideStakes active .doubt * scale / rMilli) = 0 := by
    cases empty with
    | back => rw [hempty, Nat.zero_min]
    | doubt => rw [hempty, Nat.zero_mul, Nat.zero_div, Nat.min_zero]
  cases side with
  | back =>
      show min _ (min _ _ * rMilli / scale) = 0
      rw [hfor, Nat.zero_mul, Nat.zero_div, Nat.min_zero]
  | doubt => exact hfor

theorem forfeit_of_unmatched (losingStakes : Nat) (p : WagerPositionRow) :
    forfeit 0 losingStakes p = 0 := by
  simp [forfeit, share]

theorem forfeited_of_unmatched {side : WagerPositionSide} (h : (pots.sides side).2.2 = 0) :
    forfeited active side pots = 0 := by
  rw [forfeited, h]
  refine List.sum_eq_zero fun lamports hmem => ?_
  obtain ⟨p, -, rfl⟩ := List.mem_map.mp hmem
  exact forfeit_of_unmatched _ p

/-- What the losers forfeit, they do not have back. -/
theorem sum_unmatched (h : computePots active probability = some pots)
    (side : WagerPositionSide) :
    ((unmatched active side pots).map (·.lamports)).sum + forfeited active side pots =
      stakes (active.filter (·.side ≠ side)) := by
  obtain ⟨-, -, hmatched⟩ := sides_computePots h side
  rw [unmatched, sum_filter_pos, List.map_map, forfeited, ← List.sum_map_add, stakes]
  refine congrArg List.sum (List.map_congr_left fun p _ => ?_)
  have hle : forfeit (pots.sides side).2.2 (pots.sides side).2.1 p ≤ p.stake :=
    share_le_stake hmatched
  show p.stake - forfeit (pots.sides side).2.2 (pots.sides side).2.1 p + _ = p.stake
  omega

/-- Winners have their stakes back, and their shares of what is forfeited. -/
theorem total_payouts (active : List WagerPositionRow) (side : WagerPositionSide) (pots : Pots) :
    ((settleActive active side pots).2.total fun _ lamports => lamports) =
      sideStakes active side + (((active.filter (·.side = side)).map (·.stake)).map fun stake =>
        share stake (forfeited active side pots) (pots.sides side).1).sum := by
  have htotal := total_foldl_addPayout (active.filter (·.side = side))
    (fun p => share p.stake (forfeited active side pots) (pots.sides side).1) ∅
  rw [List.map_map]
  refine Eq.trans htotal ?_
  show 0 + sideStakes active side + _ = _
  rw [Nat.zero_add]
  rfl

/-- All that the active positions are credited, and what they forfeit for it. -/
theorem settleActive_total (h : computePots active probability = some pots)
    (side : WagerPositionSide) :
    (((settleActive active side pots).1.map (·.lamports)).sum +
      (settleActive active side pots).2.total fun _ lamports => lamports) +
        forfeited active side pots =
      stakes active + (((active.filter (·.side = side)).map (·.stake)).map fun stake =>
        share stake (forfeited active side pots) (pots.sides side).1).sum := by
  have hlosers := sum_unmatched h side
  have hwinners := total_payouts active side pots
  have hsplit := sideStakes_other active side
  rw [settleActive_fst]
  omega

/-- The shares leave less than one lamport for each winner. -/
theorem forfeited_le (h : computePots active probability = some pots)
    (side : WagerPositionSide) :
    forfeited active side pots ≤
      (((active.filter (·.side = side)).map (·.stake)).map fun stake =>
        share stake (forfeited active side pots) (pots.sides side).1).sum +
          (active.filter (·.side = side)).length := by
  obtain ⟨hwinning, -, -⟩ := sides_computePots h side
  have hsum : (pots.sides side).1 = ((active.filter (·.side = side)).map (·.stake)).sum := hwinning
  by_cases hpos : 0 < (pots.sides side).1
  · rw [hsum] at hpos ⊢
    have hlt := lt_sum_share _ (forfeited active side pots) hpos
    have hcount := List.countP_le_length (p := (0 < ·))
      (l := (active.filter (·.side = side)).map (·.stake))
    rw [List.length_map] at hcount
    omega
  · have hzero : sideStakes active side = 0 := by omega
    rw [forfeited_of_unmatched (matched_eq_zero h hzero side)]
    exact Nat.zero_le _

end Pots

/-! ## users -/

theorem sum_refunds (user : Nat) (positions : List WagerPositionRow) (f : WagerPositionRow → Nat) :
    (((positions.map fun p => refundOf p (f p)).filter (·.userId = user)).map (·.lamports)).sum =
      ((ofUser user positions).map f).sum := by
  rw [List.filter_map, List.map_map]
  rfl

/-- A user's stakes, among those that a test keeps and those that it does not. -/
theorem stakes_ofUser (user : Nat) (positions : List WagerPositionRow)
    (test : WagerPositionRow → Bool) :
    stakes (ofUser user (positions.filter test)) +
        stakes (ofUser user (positions.filter (!test ·))) = stakes (ofUser user positions) := by
  have hsplit := stakes_filter (ofUser user positions) test
  rw [ofUser, List.filter_comm, List.filter_comm (fun p => !test p)] at hsplit
  exact hsplit

theorem paid_settleActive (active : List WagerPositionRow) (side : WagerPositionSide) (pots : Pots)
    (user : Nat) :
    ((settleActive active side pots).2.lookup user).getD 0 =
      ((ofUser user (active.filter (·.side = side))).map fun p =>
        p.stake + share p.stake (forfeited active side pots) (pots.sides side).1).sum := by
  rw [lookup_settleActive]
  split
  · rfl
  · next hnone =>
    have hempty : ofUser user (active.filter (·.side = side)) = [] :=
      List.filter_eq_nil_iff.mpr fun p hp huser =>
        hnone (List.mem_map.mpr ⟨p, hp, of_decide_eq_true huser⟩)
    rw [hempty]
    rfl

/-! ## what a settlement owes -/

section Settled

variable {positions : List WagerPositionRow} {outcome : SettlementOutcome} {probability : ℚ}
  {credits : SettlementCredits}

theorem Unopposed.exists_empty (h : Unopposed outcome positions) :
    ∃ side, sideStakes (active outcome positions) side = 0 := by
  obtain hvoid | ⟨side, hside⟩ := h
  · have hnone : active outcome positions = [] :=
      List.filter_eq_nil_iff.mpr fun p _ => by simp [fullRefund, hvoid]
    exact ⟨.back, by rw [hnone]; rfl⟩
  · have hnone : (active outcome positions).filter (·.side = side) = [] := by
      refine List.filter_eq_nil_iff.mpr fun p hp => ?_
      obtain ⟨hmem, hactive⟩ := List.mem_filter.mp hp
      have hstate : p.state = .active := by
        cases hs : p.state <;> simp_all [fullRefund]
      simpa using hside p hmem hstate
    exact ⟨side, by rw [sideStakes, hnone]; rfl⟩

variable (hids : (positions.map (·.id)).Nodup)

include hids in
theorem eq_of_id {p q : WagerPositionRow}
    (hp : p ∈ positions) (hq : q ∈ positions) (hid : p.id = q.id) : p = q :=
  List.inj_on_of_nodup_map hids hp hq hid

variable (h : settlementCredits positions outcome probability = some credits)
include h

theorem total_credits :
    stakes positions ≤ credits.total + (wins outcome positions).length := by
  obtain ⟨-, pots, hpots, hrefunds, hpayouts, -⟩ := settlementCredits_parts h
  have hactive := settleActive_total hpots (winningSide outcome)
  have hdust := forfeited_le hpots (winningSide outcome)
  have hfull : ((fullRefunds outcome positions).map (·.lamports)).sum =
      stakes (positions.filter (fullRefund outcome)) := by
    rw [fullRefunds, List.map_map]
    rfl
  have hsplit : stakes (positions.filter (fullRefund outcome)) +
      stakes (active outcome positions) = stakes positions := stakes_filter _ _
  rw [SettlementCredits.total, hrefunds, hpayouts, List.map_append, List.sum_append, hfull,
    wins_eq]
  omega

theorem credited_unopposed (hunopposed : Unopposed outcome positions) (user : Nat) :
    credits.refundedTo user + credits.paidTo user = stakes (ofUser user positions) := by
  obtain ⟨-, pots, hpots, hrefunds, hpayouts, -⟩ := settlementCredits_parts h
  obtain ⟨empty, hempty⟩ := hunopposed.exists_empty
  have hmatched := matched_eq_zero hpots hempty (winningSide outcome)
  have hfull : (((fullRefunds outcome positions).filter (·.userId = user)).map
      (·.lamports)).sum = stakes (ofUser user (positions.filter (fullRefund outcome))) :=
    sum_refunds user _ _
  have hlosers : (((unmatched (active outcome positions) (winningSide outcome) pots).filter
      (·.userId = user)).map (·.lamports)).sum =
        stakes (ofUser user (losses outcome positions)) := by
    rw [unmatched, List.filter_comm, sum_filter_pos, sum_refunds, hmatched]
    simp only [forfeit_of_unmatched, Nat.sub_zero]
    rfl
  have hwinners : credits.paidTo user = stakes (ofUser user
      ((active outcome positions).filter (·.side = winningSide outcome))) := by
    rw [SettlementCredits.paidTo, hpayouts, paid_settleActive, forfeited_of_unmatched hmatched]
    simp only [share, Nat.mul_zero, Nat.zero_div, Nat.add_zero]
    rfl
  have hactive : stakes (ofUser user ((active outcome positions).filter
        (·.side = winningSide outcome))) + stakes (ofUser user (losses outcome positions)) =
      stakes (ofUser user (active outcome positions)) := by
    have hsides := stakes_ofUser user (active outcome positions)
      fun p => decide (p.side = winningSide outcome)
    simpa [losses] using hsides
  have hsplit : stakes (ofUser user (positions.filter (fullRefund outcome))) +
      stakes (ofUser user (active outcome positions)) = stakes (ofUser user positions) :=
    stakes_ofUser user positions _
  rw [SettlementCredits.refundedTo, hrefunds, settleActive_fst, List.filter_append,
    List.map_append, List.sum_append, hfull, hlosers, hwinners]
  omega

include hids in
/-- With unique ids, a refund among all of them is the only one of its position. -/
theorem refundsOf_eq {refund : Refund}
    (hmem : refund ∈ credits.refunds) : credits.refundsOf refund.positionId = [refund] := by
  have hnodup := refunds_nodup hids h
  obtain ⟨before, after, hsplit⟩ := List.append_of_mem hmem
  rw [hsplit, List.map_append, List.map_cons, List.nodup_middle, List.nodup_cons] at hnodup
  obtain ⟨hother, -⟩ := hnodup
  rw [← List.map_append, List.mem_map] at hother
  push Not at hother
  rw [SettlementCredits.refundsOf, hsplit, List.filter_append, List.filter_cons_of_pos (by simp),
    List.filter_eq_nil_iff.mpr, List.filter_eq_nil_iff.mpr, List.nil_append]
  · exact fun r hr => by simpa using hother r (List.mem_append_right _ hr)
  · exact fun r hr => by simpa using hother r (List.mem_append_left _ hr)

include hids in
theorem refundsOf_inactive {p : WagerPositionRow} (hp : p ∈ positions)
    (hstate : p.state = .pending ∨ p.state = .void) :
    credits.refundsOf p.id = [refundOf p p.stake] := by
  have hfull : fullRefund outcome p = true := by simp [fullRefund, hstate]
  have hmem : refundOf p p.stake ∈ credits.refunds := by
    obtain ⟨-, pots, -, hrefunds, -, -⟩ := settlementCredits_parts h
    rw [hrefunds]
    exact List.mem_append_left _
      (List.mem_map.mpr ⟨p, List.mem_filter.mpr ⟨hp, hfull⟩, rfl⟩)
  exact refundsOf_eq hids h hmem

theorem paid_winner (user : Nat) : stakes (ofUser user (wins outcome positions)) ≤ credits.paidTo user := by
  obtain ⟨-, pots, -, -, hpayouts, -⟩ := settlementCredits_parts h
  rw [SettlementCredits.paidTo, hpayouts, paid_settleActive, wins_eq, stakes]
  exact List.sum_le_sum fun p _ => Nat.le_add_right _ _

/-- What a position has back is at most what it staked. -/
theorem lamports_le {refund : Refund} (hmem : refund ∈ credits.refunds) :
    ∃ p ∈ positions, refund.positionId = p.id ∧ refund.userId = p.userId ∧
      refund.lamports ≤ p.stake := by
  obtain ⟨-, pots, -, hrefunds, -, -⟩ := settlementCredits_parts h
  rw [hrefunds, List.mem_append] at hmem
  rcases hmem with hmem | hmem
  · obtain ⟨p, hp, rfl⟩ := List.mem_map.mp hmem
    exact ⟨p, List.mem_of_mem_filter hp, rfl, rfl, Nat.le_refl _⟩
  · obtain ⟨p, hp, rfl⟩ := List.mem_map.mp (List.mem_of_mem_filter hmem)
    exact ⟨p, List.mem_of_mem_filter (List.mem_of_mem_filter hp), rfl, rfl, Nat.sub_le _ _⟩

end Settled

/-- Every settlement of safe stakes goes through and owes nobody anything but dust. -/
theorem pot_conserves {positions : List WagerPositionRow}
    (hids : (positions.map (·.id)).Nodup)
    (hstakes : ∀ p ∈ positions, 0 < p.stake ∧ p.stake ≤ maxSafeInteger)
    (outcome : SettlementOutcome) {probability : ℚ}
    (hratio : (ratioMilli probability).isSome = true) :
    ∃ credits, settlementCredits positions outcome probability = some credits ∧
      Conserved positions outcome credits := by
  have hsafe : positions.all (·.stake ≤ maxSafeInteger) = true :=
    List.all_eq_true.mpr fun p hp => decide_eq_true (hstakes p hp).2
  obtain ⟨credits, h⟩ : ∃ credits,
      settlementCredits positions outcome probability = some credits := by
    obtain ⟨rMilli, hrMilli⟩ := Option.isSome_iff_exists.mp hratio
    rw [settlementCredits_eq, if_pos hsafe, computePots, hrMilli]
    exact ⟨_, rfl⟩
  refine ⟨credits, h, ?_⟩
  exact
    { bounded := total_le_stakes h
      dust := total_credits h
      unopposed := credited_unopposed h
      inactive := fun p hp => refundsOf_inactive hids h hp
      winner := fun p hp => by
        have hpaid := paid_winner h p.userId
        have hown : p.stake ≤ stakes (ofUser p.userId (wins outcome positions)) :=
          List.single_le_sum (fun _ _ => Nat.zero_le _) _
            (List.mem_map_of_mem (List.mem_filter.mpr ⟨hp, by simp⟩))
        exact ⟨hpaid, hown.trans hpaid⟩
      loser := fun p hp refund hrefund => by
        obtain ⟨hmem, hid⟩ := List.mem_filter.mp hrefund
        obtain ⟨q, hq, hqid, huser, hle⟩ := lamports_le h hmem
        have hp' : p ∈ positions := List.mem_of_mem_filter (List.mem_of_mem_filter hp)
        obtain rfl := eq_of_id hids hp' hq ((of_decide_eq_true hid).symm.trans hqid)
        exact ⟨huser, hle⟩
      once := refunds_nodup hids h
      known := fun refund hrefund => mem_refunds h hrefund }

namespace Sample

/-- Two sides, a position that is pending, and a user on both sides. -/
def mixedPositions : List WagerPositionRow :=
  [⟨"a", 1, .back, .active, 10⟩, ⟨"b", 2, .doubt, .active, 7⟩, ⟨"c", 1, .doubt, .active, 3⟩,
    ⟨"d", 3, .back, .pending, 5⟩]

end Sample

theorem pot_conserves_sample :
    ∃ credits, settlementCredits Sample.mixedPositions .claimWon (1 / 2) = some credits ∧
      Conserved Sample.mixedPositions .claimWon credits :=
  pot_conserves (by decide) (by decide) .claimWon (by decide +kernel)

end CalledIt.Wager
