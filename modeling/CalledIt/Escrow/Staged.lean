import CalledIt.Escrow.Replay

/-!
# CalledIt.Escrow.Staged

The staged settlement and the reference settlement.

The program never holds all positions at once: `beginSettlement` fixes the
matched totals, each `calculateEntitlement` takes one position, and the winnings
are computed when a position claims.  Called in any order, the stages pay what
`settlePositions` pays in one pass (`staged_refines_reference`).  The one thing
that can keep them from starting is the size of the doubting stake
(`settlement_startable_iff`).
-/

namespace CalledIt.Escrow

open Lib

/-! ## starting a settlement -/

/-- A settlement over these totals can be started: the pots are computed, no
live market with these totals fails with an overflow, and either outcome gets
through. -/
structure Startable (back doubt : UInt64) (ratio : UInt32) : Prop where
  pots : ∃ pots, computePots back doubt ratio = .ok pots
  noOverflow : ∀ (market : Market) (outcome : SettlementOutcome) (hash : Bytes 32),
    market.state.Live → market.activeBackTotal = back → market.activeDoubtTotal = doubt →
    market.ratioMilli = ratio →
    beginSettlement market outcome hash ≠ .error EscrowError.arithmeticOverflow
  begins : ∀ (market : Market) (outcome : SettlementOutcome) (hash : Bytes 32),
    market.state.Live → market.activeBackTotal = back → market.activeDoubtTotal = doubt →
    market.ratioMilli = ratio → outcome = .claimWon ∨ outcome = .claimLost →
    ∃ market', beginSettlement market outcome hash = .ok market'

variable {m : Market} {outcome : SettlementOutcome}

theorem beginSettlement_ne_overflow {hash : Bytes 32} (hlive : m.state.Live)
    (hpots : ∃ pots, computePots m.activeBackTotal m.activeDoubtTotal m.ratioMilli = .ok pots) :
    beginSettlement m outcome hash ≠ .error EscrowError.arithmeticOverflow := by
  obtain ⟨pots, hpots⟩ := hpots
  by_cases houtcome : outcome = .claimWon ∨ outcome = .claimLost
  · rw [beginSettlement_ok_iff.mpr ⟨houtcome, hlive, pots, hpots, rfl⟩]
    simp
  · unfold beginSettlement validateSettlementStart
    simp [require, houtcome]

/-- Pots that overflow block the settlement of either outcome. -/
theorem beginSettlement_overflow {hash : Bytes 32}
    (houtcome : outcome = .claimWon ∨ outcome = .claimLost) (hlive : m.state.Live)
    (hpots : computePots m.activeBackTotal m.activeDoubtTotal m.ratioMilli = .error .overflow) :
    beginSettlement m outcome hash = .error EscrowError.arithmeticOverflow := by
  unfold beginSettlement
  rw [validateSettlementStart_of_live houtcome hlive, ok_bind, hpots]
  rfl

theorem startable_iff {back doubt : UInt64} {ratio : UInt32} (hr : ratio ≠ 0) :
    Startable back doubt ratio ↔ doubt.toNat * 1000 < 2 ^ 64 * ratio.toNat := by
  have hpos : 0 < ratio.toNat := by
    rw [Nat.pos_iff_ne_zero, ne_eq, ← UInt32.toNat_zero, UInt32.toNat_inj]
    exact hr
  have hfit : matchable doubt.toNat ratio.toNat < 2 ^ 64 ↔
      doubt.toNat * 1000 < 2 ^ 64 * ratio.toNat := Nat.div_lt_iff_lt_mul hpos
  rw [← hfit]
  constructor
  · intro h
    obtain ⟨pots, hpots⟩ := h.pots
    exact (computePots_ok_iff.mp hpots).2.1
  · intro hlt
    have hpots : ∃ pots, computePots back doubt ratio = .ok pots := exists_computePots hr hlt
    refine ⟨hpots, ?_, ?_⟩
    · rintro m outcome hash hlive rfl rfl rfl
      exact beginSettlement_ne_overflow hlive hpots
    · rintro m outcome hash hlive rfl rfl rfl houtcome
      obtain ⟨pots, hpots⟩ := hpots
      exact ⟨_, beginSettlement_ok_iff.mpr ⟨houtcome, hlive, pots, hpots, rfl⟩⟩

/-- A settlement over totals that fit together in a `u64` can be started exactly
when the doubting stake's matchable amount, before it is capped by the backing
stake, fits a `u64` as well. -/
theorem settlement_startable_iff (ppm : UInt32) (hppm : 1 ≤ ppm.toNat ∧ ppm.toNat ≤ 999999) :
    ∃ ratio, ratioMilli ppm = .ok ratio ∧
      ∀ back doubt : UInt64, back.toNat + doubt.toNat ≤ 2 ^ 64 - 1 →
        (Startable back doubt ratio ↔ doubt.toNat * 1000 < 2 ^ 64 * ratio.toNat) := by
  obtain ⟨ratio, hok, hratio⟩ := exists_ratioMilli hppm
  have hr : ratio ≠ 0 := by
    rw [ne_eq, ← UInt32.toNat_inj, hratio, UInt32.toNat_zero, nearestRatio]
    omega
  refine ⟨ratio, hok, ?_⟩
  intro back doubt _
  exact startable_iff hr

/-- An even claim: totals of any size can be settled. -/
theorem settlement_startable_even :
    ratioMilli 500000 = .ok 1000 ∧ Startable 1 18446744073709551614 1000 := by
  have heven : ratioMilli 500000 = .ok 1000 := by decide
  obtain ⟨ratio, hratio, h⟩ := settlement_startable_iff 500000 (by decide)
  obtain rfl : 1000 = ratio := Except.ok.inj (heven.symm.trans hratio)
  exact ⟨heven, (h 1 18446744073709551614 (by decide)).mpr (by decide)⟩

/-- At the highest probability, `18446744073709552` lamports of doubt keep the
settlement of a single backed lamport from being started. -/
theorem settlement_blocked :
    ratioMilli 999999 = .ok 1 ∧
    (1 : UInt64).toNat + (18446744073709552 : UInt64).toNat ≤ 2 ^ 64 - 1 ∧
    computePots 1 18446744073709552 1 = .error .overflow ∧
    ∃ market : Market, market.state.Live ∧ market.activeBackTotal = 1 ∧
      market.activeDoubtTotal = 18446744073709552 ∧ market.ratioMilli = 1 ∧
      beginSettlement market .claimWon Sample.evidence = .error EscrowError.arithmeticOverflow := by
  have hpots : computePots 1 18446744073709552 1 = .error .overflow := by decide
  obtain ⟨_, _, L, _, hlive⟩ := Sample.exists_life (P := fun _ L => L.market.state.Live) 0
    (by decide +kernel)
  refine ⟨by decide, by decide, hpots,
    { L.market with
      activeBackTotal := 1
      activeDoubtTotal := 18446744073709552
      ratioMilli := 1 }, hlive, rfl, rfl, rfl,
    beginSettlement_overflow (.inl rfl) hlive hpots⟩

/-! ## settling in stages -/

/-- One call of `calculateEntitlement` on a position, at a slot.  The positions
handled so far are kept in the order of the calls. -/
def stage (state : Market × List UserPosition) (call : UserPosition × UInt64) :
    Result (Market × List UserPosition) := do
  let (market, position, _) ← calculateEntitlement state.1 call.1 call.2
  return (market, state.2 ++ [position])

/-- `beginSettlement`, then one call after another. -/
def stagedSettlement (market : Market) (outcome : SettlementOutcome) (evidenceHash : Bytes 32)
    (calls : List (UserPosition × UInt64)) : Result (Market × List UserPosition) := do
  let market ← beginSettlement market outcome evidenceHash
  calls.foldlM stage (market, [])

/-- The position as the reference settlement takes it. -/
def UserPosition.input (key : Pubkey → UInt64) (p : UserPosition) : SettlementInput :=
  { userKey := key p.owner
    side := p.side
    activeAmount := p.activeAmount
    pendingAmount := p.pendingAmount
    refundableAmount := p.refundableAmount }

/-- A live market with the totals and the count of these positions, none of
them settled. -/
structure Ready (market : Market) (positions : List UserPosition) : Prop where
  live : market.state.Live
  back : market.activeBackTotal.toNat =
    ((positions.filter fun p => p.side = .back).map (·.activeAmount.toNat)).sum
  doubt : market.activeDoubtTotal.toNat =
    ((positions.filter fun p => p.side = .doubt).map (·.activeAmount.toNat)).sum
  count : market.positionCount.toNat = positions.length
  fresh : ∀ p ∈ positions, p.claimed = false ∧ p.settlementProcessed = false ∧ p.Balanced

instance (market : Market) (positions : List UserPosition) : Decidable (Ready market positions) :=
  decidable_of_iff
    (market.state.Live ∧
      market.activeBackTotal.toNat =
        ((positions.filter fun p => p.side = .back).map (·.activeAmount.toNat)).sum ∧
      market.activeDoubtTotal.toNat =
        ((positions.filter fun p => p.side = .doubt).map (·.activeAmount.toNat)).sum ∧
      market.positionCount.toNat = positions.length ∧
      ∀ p ∈ positions, p.claimed = false ∧ p.settlementProcessed = false ∧ p.Balanced)
    ⟨fun ⟨h1, h2, h3, h4, h5⟩ => ⟨h1, h2, h3, h4, h5⟩,
      fun h => ⟨h.live, h.back, h.doubt, h.count, h.fresh⟩⟩

/-- What a call leaves of a position: its owner, its stake, and the part of the
payment it does not forfeit. -/
structure Handled (m₀ : Market) (win : PositionSide) (p p' : UserPosition) : Prop where
  owner : p'.owner = p.owner
  side : p'.side = p.side
  active : p'.activeAmount = p.activeAmount
  base : p'.settlementBaseEntitlement.toNat + m₀.forfeitOf win p = p.totalPaidAmount.toNat

/-- The market and the handled positions after the calls `done` of a settlement
begun in `m₀`. -/
structure Progress (m₀ : Market) (win : PositionSide) (done : List (UserPosition × UInt64))
    (m : Market) (handled : List UserPosition) : Prop where
  market : m = { m₀ with
    finalForfeitedTotal := m.finalForfeitedTotal
    settlementProcessedPositionCount := m.settlementProcessedPositionCount
    state := m.state }
  state : m.state = if done.length = m₀.positionCount.toNat then .settled else .settling
  forfeited : m.finalForfeitedTotal.toNat = (done.map fun call => m₀.forfeitOf win call.1).sum
  processed : m.settlementProcessedPositionCount.toNat = done.length
  handled : List.Forall₂ (fun call p' => Handled m₀ win call.1 p') done handled

variable {m₀ : Market} {win : PositionSide}

/-- One more call, on a fresh position, while there are positions left. -/
theorem Progress.step {done : List (UserPosition × UInt64)} {handled : List UserPosition}
    (h : Progress m₀ win done m handled) (hwin : winningSide m₀.settlementOutcome = .ok win)
    (hm : m₀.Matched) {call : UserPosition × UInt64}
    (hfresh : call.1.claimed = false ∧ call.1.settlementProcessed = false ∧ call.1.Balanced)
    (hleft : done.length < m₀.positionCount.toNat)
    (hfits : (done.map fun call => m₀.forfeitOf win call.1).sum + m₀.forfeitOf win call.1 <
      2 ^ 64) :
    ∃ m' p', stage (m, handled) call = .ok (m', handled ++ [p']) ∧
      Progress m₀ win (done ++ [call]) m' (handled ++ [p']) := by
  have houtcome : m.settlementOutcome = m₀.settlementOutcome := by rw [h.market]
  have hcount : m.positionCount = m₀.positionCount := by rw [h.market]
  have hforfeit : m.forfeitOf win call.1 = m₀.forfeitOf win call.1 := by rw [h.market]; rfl
  have hmatched : m.Matched := by rw [h.market]; exact hm
  have hsettling : m.state = .settling := by rw [h.state, if_neg (by omega)]
  have hprocessed := h.processed
  obtain ⟨m', p', calculation, hcall⟩ := exists_calculateEntitlement call.2 hfresh.1 hfresh.2.1
    hsettling hfresh.2.2 (houtcome ▸ hwin) hmatched (by rw [hforfeit, h.forfeited]; exact hfits)
    (by rw [hcount]; omega)
  obtain ⟨winner, he⟩ := calculateEntitlement_ok hcall
  obtain rfl : winner = win := by
    have hwinner := he.wins
    rw [houtcome, hwin, Except.ok.injEq] at hwinner
    exact hwinner.symm
  have hnext := he.processed
  refine ⟨m', p', by unfold stage; rw [hcall]; rfl, ?_⟩
  constructor
  · rw [he.market, h.market]
  · simp only [he.state, ← UInt64.toNat_inj, hcount, hnext, hprocessed, List.length_append,
      List.length_singleton]
  · rw [he.forfeited, h.forfeited, hforfeit, List.map_append, List.sum_append]
    simp
  · rw [hnext, hprocessed, List.length_append]
    rfl
  · have hbase := he.base
    rw [hforfeit] at hbase
    have hp : Handled m₀ winner call.1 p' := by
      rw [he.position]
      exact ⟨rfl, rfl, rfl, hbase⟩
    exact List.rel_append h.handled (.cons hp .nil)

/-- A market whose settlement has just begun, with the positions still to
handle. -/
structure Begun (m₀ : Market) (win : PositionSide) (positions : List UserPosition) : Prop where
  wins : winningSide m₀.settlementOutcome = .ok win
  matched : m₀.Matched
  state : m₀.state = if positions.length = 0 then .settled else .settling
  forfeited : m₀.finalForfeitedTotal = 0
  processed : m₀.settlementProcessedPositionCount = 0
  count : m₀.positionCount.toNat = positions.length
  fresh : ∀ p ∈ positions, p.claimed = false ∧ p.settlementProcessed = false ∧ p.Balanced
  fits : (positions.map (m₀.forfeitOf win)).sum < 2 ^ 64

variable {calls : List (UserPosition × UInt64)} {positions : List UserPosition}

/-- Sums over the calls do not depend on their order. -/
theorem sum_calls (horder : (calls.map Prod.fst).Perm positions) (w : UserPosition → Nat) :
    (calls.map fun call => w call.1).sum = (positions.map w).sum := by
  rw [← (horder.map w).sum_eq, List.map_map]
  rfl

/-- Calls on the positions in any order make progress, one by one. -/
theorem Begun.exists_progress (h : Begun m₀ win positions)
    (horder : (calls.map Prod.fst).Perm positions) {pre post : List (UserPosition × UInt64)}
    (hsplit : calls = pre ++ post) :
    ∃ m handled, pre.foldlM stage (m₀, []) = .ok (m, handled) ∧
      Progress m₀ win pre m handled := by
  have hlength : calls.length = positions.length := by
    rw [← horder.length_eq, List.length_map]
  have hsum := sum_calls horder (m₀.forfeitOf win)
  let P (done : List (UserPosition × UInt64)) (state : Market × List UserPosition) : Prop :=
    Progress m₀ win done state.1 state.2
  have hstart : P [] (m₀, []) := by
    refine ⟨rfl, ?_, ?_, ?_, .nil⟩
    · rw [h.state, h.count]
      simp [eq_comm]
    · rw [h.forfeited]; rfl
    · rw [h.processed]; rfl
  have hstep : ∀ done call rest state, calls = done ++ call :: rest → P done state →
      ∃ state', stage state call = .ok state' ∧ P (done ++ [call]) state' := by
    rintro done call rest ⟨m, handled⟩ hcalls hdone
    have hmem : call.1 ∈ positions := by
      rw [← horder.mem_iff, hcalls]
      simp
    have hbound := h.fits
    rw [← hsum, hcalls, List.map_append, List.map_cons, List.sum_append, List.sum_cons] at hbound
    have hleft : done.length < m₀.positionCount.toNat := by
      rw [h.count, ← hlength, hcalls, List.length_append, List.length_cons]
      omega
    obtain ⟨m', p', hstage, hprogress⟩ := Progress.step hdone h.wins h.matched (h.fresh _ hmem)
      hleft (by omega)
    exact ⟨_, hstage, hprogress⟩
  obtain ⟨⟨m, handled⟩, hrun, hprogress⟩ := exists_foldlM_ok hstep hstart hsplit
  exact ⟨m, handled, hrun, hprogress⟩

/-! ## the reference -/

theorem winningSide_ok_iff :
    winningSide outcome = .ok win ↔ winningSideOf outcome = .ok win := by
  cases outcome <;> simp [winningSide, winningSideOf]

theorem activeSum_input (key : Pubkey → UInt64) (positions : List UserPosition)
    (side : PositionSide) :
    activeSum (positions.map (UserPosition.input key)) side =
      ((positions.filter fun p => p.side = side).map (·.activeAmount.toNat)).sum := by
  unfold activeSum
  rw [List.filter_map, List.map_map]
  rfl

/-- A begun market that agrees with the reference on every pot. -/
structure Agrees (m₀ : Market) (win : PositionSide) (r : SettlementResult) : Prop where
  winning : m₀.activeTotal win = (r.pots.stakesFor win).1
  losing : ∀ side, side ≠ win →
    m₀.losingStakes side = ((r.pots.stakesFor win).2.2, (r.pots.stakesFor win).2.1)

variable {r : SettlementResult}

/-- The forfeits of the stages are those of the reference. -/
theorem Agrees.sum_forfeitOf (h : Agrees m₀ win r) (key : Pubkey → UInt64)
    (positions : List UserPosition) :
    (positions.map (m₀.forfeitOf win)).sum = forfeitSum (positions.map (UserPosition.input key))
      win (r.pots.stakesFor win).2.2.toNat (r.pots.stakesFor win).2.1.toNat := by
  unfold forfeitSum
  rw [List.filter_map, List.map_map]
  change _ = ((positions.filter fun p => p.side ≠ win).map fun p =>
    share p.activeAmount.toNat (r.pots.stakesFor win).2.2.toNat
      (r.pots.stakesFor win).2.1.toNat).sum
  rw [sum_filter_map]
  congr 1
  apply List.map_congr_left
  intro p _
  unfold Market.forfeitOf
  by_cases hside : p.side = win
  · simp [hside]
  · rw [if_neg hside, if_pos hside, h.losing p.side hside]

theorem Ready.begins {market : Market} (h : Ready market positions)
    (hwin : winningSideOf outcome = .ok win) {key : Pubkey → UInt64}
    (href : SettlesTo (positions.map (UserPosition.input key)) win market.ratioMilli r)
    (hash : Bytes 32) :
    ∃ m₀, beginSettlement market outcome hash = .ok m₀ ∧ Begun m₀ win positions ∧
      Agrees m₀ win r := by
  have hback : r.pots.back = market.activeBackTotal := by
    rw [← UInt64.toNat_inj, href.back, activeSum_input]
    exact h.back.symm
  have hdoubt : r.pots.doubt = market.activeDoubtTotal := by
    rw [← UInt64.toNat_inj, href.doubt, activeSum_input]
    exact h.doubt.symm
  have hpots := href.pots
  rw [hback, hdoubt] at hpots
  have houtcome : outcome = .claimWon ∨ outcome = .claimLost := by
    cases outcome <;> simp_all [winningSideOf]
  refine ⟨_, beginSettlement_ok_iff.mpr ⟨houtcome, h.live, r.pots, hpots, rfl⟩, ?_⟩
  have hagrees : Agrees { market with
      finalMatchedBackTotal := r.pots.matchedBack
      finalMatchedDoubtTotal := r.pots.matchedDoubt
      finalForfeitedTotal := 0
      settlementProcessedPositionCount := 0
      settlementOutcome := outcome
      settlementEvidenceHash := hash
      state := if market.positionCount = 0 then .settled else .settling } win r := by
    constructor
    · cases win <;> simp [Pots.stakesFor, hback, hdoubt, Market.activeTotal]
    · intro side hside
      cases win <;> cases side <;>
        simp_all [Pots.stakesFor, Market.losingStakes]
  refine ⟨⟨winningSide_ok_iff.mpr hwin, matched_le_of_computePots hpots, ?_, rfl, rfl, h.count,
    h.fresh, ?_⟩, hagrees⟩
  · simp only [← UInt64.toNat_inj, h.count]
    rfl
  · rw [hagrees.sum_forfeitOf key, ← href.forfeited]
    exact r.forfeitedPot.toNat_lt

/-- After the last call a handled position claims its credit. -/
theorem Handled.settledClaimAmount {m' : Market} {handled : List UserPosition} {p p' : UserPosition}
    {key : Pubkey → UInt64} {c : PositionCredit} (h : Handled m₀ win p p')
    (hm : Progress m₀ win calls m' handled) (hagrees : Agrees m₀ win r)
    (hwin : winningSide m₀.settlementOutcome = .ok win)
    (hforfeited : m'.finalForfeitedTotal = r.forfeitedPot) (hp : p.Balanced)
    (hc : settledCredit win (r.pots.stakesFor win).1 (r.pots.stakesFor win).2.1
      (r.pots.stakesFor win).2.2 r.forfeitedPot (p.input key) = .ok c)
    (hfits : c.paidOut < 2 ^ 64) :
    ∃ amount, settledClaimAmount m' p' = .ok amount ∧
      amount.toNat = c.refund.toNat + c.payout.toNat := by
  obtain ⟨amount, hamount⟩ := exists_toNat_eq hfits
  have houtcome : winningSide m'.settlementOutcome = .ok win := by rw [hm.market]; exact hwin
  have hwinning : m'.activeTotal win = (r.pots.stakesFor win).1 := by
    rw [hm.market]
    exact hagrees.winning
  have hbase := h.base
  refine ⟨amount, (settledClaimAmount_ok_iff houtcome).mpr ?_, hamount⟩
  rw [hamount, PositionCredit.paidOut, Market.winningsOf, h.side, h.active, hforfeited, hwinning]
  unfold UserPosition.Balanced at hp
  unfold Market.forfeitOf at hbase
  by_cases hside : p.side = win
  · obtain ⟨_, hrefund, hpayout⟩ := settledCredit_winner (p := p.input key) hside hc
    simp only [UserPosition.input] at hrefund hpayout
    rw [if_pos hside] at hbase ⊢
    omega
  · obtain ⟨_, hrefund, hpayout⟩ := settledCredit_loser (p := p.input key) hside hc
    rw [if_neg hside, hagrees.losing p.side hside] at hbase
    simp only [UserPosition.input, SettlementInput.paid] at hrefund hbase
    rw [if_neg hside]
    omega

/-- Staged settlement refines the reference settlement: whenever the reference
settles the positions, so do the stages, whatever the order of the calls; the
market is settled by the last call and not before, and every position is
entitled to its credit of the reference. -/
theorem staged_refines_reference {market : Market} {positions : List UserPosition}
    {outcome : SettlementOutcome} {key : Pubkey → UInt64} {r : SettlementResult}
    (houtcome : outcome = .claimWon ∨ outcome = .claimLost) (hready : Ready market positions)
    (href : settlePositions (positions.map (UserPosition.input key)) outcome market.ratioMilli =
      .ok r)
    (hash : Bytes 32) {calls : List (UserPosition × UInt64)}
    (horder : (calls.map Prod.fst).Perm positions) :
    ∃ market' handled, stagedSettlement market outcome hash calls = .ok (market', handled) ∧
      market'.state = .settled ∧
      (∀ pre post, calls = pre ++ post → post ≠ [] → ∃ m done,
        stagedSettlement market outcome hash pre = .ok (m, done) ∧ m.state = .settling) ∧
      market'.finalForfeitedTotal = r.forfeitedPot ∧
      handled.map (·.owner) = calls.map (·.1.owner) ∧
      List.Forall₂ (fun p c => ∃ p' ∈ handled, p'.owner = p.owner ∧
        ∃ amount, settledClaimAmount market' p' = .ok amount ∧
          amount.toNat = c.refund.toNat + c.payout.toNat) positions r.credits := by
  obtain ⟨win, hwin⟩ : ∃ win, winningSideOf outcome = .ok win := by
    rcases houtcome with rfl | rfl
    · exact ⟨.back, rfl⟩
    · exact ⟨.doubt, rfl⟩
  have hs := settlePositions_decided hwin href
  obtain ⟨m₀, hbegin, hbegun, hagrees⟩ := hready.begins hwin hs hash
  have hstaged : ∀ calls, stagedSettlement market outcome hash calls =
      calls.foldlM stage (m₀, []) := by
    intro calls
    unfold stagedSettlement
    rw [hbegin, ok_bind]
  have hlength : m₀.positionCount.toNat = calls.length := by
    rw [hbegun.count, ← horder.length_eq, List.length_map]
  obtain ⟨m', handled, hrun, hp⟩ := hbegun.exists_progress horder (List.append_nil calls).symm
  have hforfeited : m'.finalForfeitedTotal = r.forfeitedPot := by
    rw [← UInt64.toNat_inj, hp.forfeited, sum_calls horder (m₀.forfeitOf win),
      hagrees.sum_forfeitOf key, hs.forfeited]
  refine ⟨m', handled, (hstaged calls).trans hrun, ?_, ?_, hforfeited, ?_, ?_⟩
  · rw [hp.state, if_pos hlength.symm]
  · intro pre post hsplit hpost
    obtain ⟨m, done, hpre, hprogress⟩ := hbegun.exists_progress horder hsplit
    refine ⟨m, done, (hstaged pre).trans hpre, ?_⟩
    have hlt : 0 < post.length := List.length_pos_iff.mpr hpost
    rw [hprogress.state, hlength, hsplit, List.length_append, if_neg (by omega)]
  · exact (map_eq_map_of_forall₂ hp.handled fun _ _ h => h.owner.symm).symm
  · refine forall₂_imp_mem (List.forall₂_map_left_iff.mp hs.credits) ?_
    intro p hpmem c hcmem hc
    obtain ⟨call, hcall, rfl⟩ := List.mem_map.mp (horder.mem_iff.mpr hpmem)
    obtain ⟨p', hp'mem, hp'⟩ := exists_of_forall₂ hp.handled hcall
    have hfits : c.paidOut < 2 ^ 64 := by
      have hle := List.single_le_sum (by simp) _
        (List.mem_map_of_mem (f := PositionCredit.paidOut) hcmem)
      have hdust := hs.dust
      have hescrowed := hs.escrowed
      omega
    exact ⟨p', hp'mem, hp'.owner, hp'.settledClaimAmount hp hagrees hbegun.wins hforfeited
      (hready.fresh _ hpmem).2.2 hc hfits⟩

/-- The sample's two positions, settled in the opposite order. -/
theorem staged_refines_reference_sample :
    ∃ (market : Market) (positions : List UserPosition) (r : SettlementResult),
      positions.length = 2 ∧
      settlePositions (positions.map (UserPosition.input Sample.userKey)) .claimWon
        market.ratioMilli = .ok r ∧
      ∃ market' handled, stagedSettlement market .claimWon Sample.evidence
          (positions.reverse.map fun p => (p, 100)) = .ok (market', handled) ∧
        market'.state = .settled ∧ market'.finalForfeitedTotal = r.forfeitedPot := by
  obtain ⟨_, _, L, _, hready, hlength, href⟩ := Sample.exists_life
    (P := fun _ L => Ready L.market (L.positions.entries.map Sigma.snd) ∧
      (L.positions.entries.map Sigma.snd).length = 2 ∧
      (settlePositions ((L.positions.entries.map Sigma.snd).map
        (UserPosition.input Sample.userKey)) .claimWon L.market.ratioMilli).isOk) 5
    (by decide +kernel)
  obtain ⟨r, hr⟩ := isOk_iff.mp href
  have horder : (((L.positions.entries.map Sigma.snd).reverse.map fun p =>
      (p, (100 : UInt64))).map Prod.fst).Perm (L.positions.entries.map Sigma.snd) := by
    rw [List.map_map, Function.comp_def, List.map_id']
    exact List.reverse_perm _
  obtain ⟨market', handled, hrun, hsettled, _, hforfeited, _, _⟩ := staged_refines_reference
    (.inl rfl) hready hr Sample.evidence horder
  exact ⟨_, _, r, hlength, hr, market', handled, hrun, hsettled, hforfeited⟩

end CalledIt.Escrow
