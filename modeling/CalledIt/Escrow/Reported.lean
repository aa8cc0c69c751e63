import CalledIt.Escrow.Ledger

/-!
# CalledIt.Escrow.Reported

What an event says of the market.

`Reports` lists what is true of an event's fields, of the ledger before the instruction and of
the one after; `reports_of_execute` proves it for every instruction.  Who reads the events sees
the market through these facts only.
-/

namespace CalledIt.Escrow

open Lib

/-- A lot is there, and the event tells its amount. -/
def ReportsLot (rt : Runtime) (L : Ledger) (market position owner : Pubkey)
    (nonce amount : UInt64) : Prop :=
  market = L.marketKey ∧ position = (rt.positionAddress L.marketKey owner).1 ∧
    ∃ lot, L.lots.lookup (owner, nonce) = some lot ∧ lot.amount = amount

def Reports (rt : Runtime) (L L' : Ledger) : Event → Prop
  | .marketInitialized _ => False
  | .marketFrozen e => e.market = L.marketKey ∧ e.eventEpoch = L'.market.eventEpoch
  | .marketUnfrozen e => e.market = L.marketKey ∧ e.eventEpoch = L'.market.eventEpoch
  | .positionPlaced e =>
      e.market = L.marketKey ∧ e.position = (rt.positionAddress L.marketKey e.owner).1 ∧
        e.asset = L.market.asset ∧ e.amount ≠ 0
  | .positionActivated e => ReportsLot rt L e.market e.position e.owner e.nonce e.amount
  | .positionInvalidated e => ReportsLot rt L e.market e.position e.owner e.nonce e.amount
  | .marketSettlementStarted _ => L'.market.state = .settling
  | .positionEntitlementCalculated _ => L'.market.state = .settling
  | .marketSettled e =>
      e.market = L.marketKey ∧ e.outcome = L'.market.settlementOutcome ∧
        e.outcome ≠ .unresolved ∧ e.outcome ≠ .void ∧ L'.market.state = .settled
  | .marketVoided e => e.market = L.marketKey
  | .positionClaimed e => e.market = L.marketKey ∧ e.asset = L.market.asset
  | .positionLotsClosed _ => True
  | .positionClosed _ => True
  | .marketClosed e => e.market = L.marketKey ∧ e.asset = L.market.asset

variable {accounts : AttestedAccounts} {owner : Pubkey}

section

variable {rt : Runtime} {clock : Clock} {L L' : Ledger} {event : Event}

theorem reports_of_freezeMarket {accounts : FreezeMarketAccounts} {args : FreezeMarketArgs}
    (h : freezeMarket L accounts args = .ok (L', event)) : Reports rt L L' event := by
  unfold freezeMarket at h
  simp only [bind_ok_iff, pure_ok_iff, Prod.mk.injEq] at h
  obtain ⟨_, _, _, _, _, _, _, _, _, _, rfl, rfl⟩ := h
  exact ⟨rfl, rfl⟩

theorem reports_of_unfreezeMarket {args : UnfreezeMarketArgs}
    (h : unfreezeMarket rt clock L accounts args = .ok (L', event)) : Reports rt L L' event := by
  unfold unfreezeMarket at h
  simp only [bind_ok_iff, pure_ok_iff, Prod.mk.injEq] at h
  obtain ⟨_, _, _, _, _, _, _, _, _, _, _, _, _, _, _, _, _, _, rfl, rfl⟩ := h
  exact ⟨rfl, rfl⟩

theorem validatePlace_amount {m : Market} {p : UserPosition} {accounts : PlacePositionAccounts}
    {args : PlacePositionArgs} {u : Unit}
    (h : validatePlace rt clock m p accounts args = .ok u) : args.amount ≠ 0 := by
  unfold validatePlace validatePositionAmount at h
  simp only [bind_ok_iff, require_ok_iff] at h
  obtain ⟨_, _, _, _, _, _, _, _, _, _, _, _, _, _, _, _, _, _, _, hpositive, _⟩ := h
  exact UInt64.pos_iff_ne_zero.mp hpositive

theorem reports_of_placePosition {accounts : PlacePositionAccounts} {args : PlacePositionArgs}
    (h : placePosition rt clock L accounts args = .ok (L', event)) : Reports rt L L' event := by
  unfold placePosition at h
  simp only [bind_ok_iff, require_ok_iff, Prod.exists, pure_ok_iff, Prod.mk.injEq] at h
  obtain ⟨m, hm, _, _, _, _, _, hvalid, _, _, _, _, _, _, _, m', _, hdeposit, rfl, rfl⟩ := h
  obtain ⟨_, rfl⟩ := loadMarket_ok hm
  have hterms := (applyPositionDeposit_ok hdeposit).1.terms
  exact ⟨rfl, rfl, hterms.asset, validatePlace_amount hvalid⟩

theorem reports_of_activatePositionLot {args : ActivatePositionLotArgs}
    (h : activatePositionLot rt clock L owner args = .ok (L', event)) :
    Reports rt L L' event := by
  obtain ⟨nonce, expectedEventEpoch⟩ := args
  unfold activatePositionLot at h
  simp only [bind_ok_iff, Prod.exists, pure_ok_iff, Prod.mk.injEq] at h
  obtain ⟨m, hm, p, hp, lot, hlot, _, _, _, _, _, _, t, ht, _, _, m', p', hmove, rfl, rfl⟩ := h
  have howner : p'.owner = owner :=
    (movePendingToActive_ok hmove).1.holder.owner.trans (loadPosition_ok hp).2
  obtain ⟨hstored, _, hnonce⟩ := loadLot_ok hlot
  rw [(loadPosition_ok hp).2] at hstored
  subst howner hnonce
  exact ⟨rfl, rfl, lot, hstored, rfl⟩

theorem reports_of_invalidatePositionLot {args : InvalidatePositionLotArgs}
    (h : invalidatePositionLot rt clock L accounts owner args = .ok (L', event)) :
    Reports rt L L' event := by
  obtain ⟨nonce, evidenceHash, invalidatedEventEpoch, decidingSequence, issuedAt, expiresAt⟩ := args
  unfold invalidatePositionLot at h
  simp only [bind_ok_iff, Prod.exists, pure_ok_iff, Prod.mk.injEq] at h
  obtain ⟨m, hm, _, _, p, hp, lot, hlot, _, _, _, _, _, _, _, _, _, _, m', p', hmove, rfl, rfl⟩ := h
  have howner : p'.owner = owner :=
    (makeLotRefundable_ok hmove).1.holder.owner.trans (loadPosition_ok hp).2
  obtain ⟨hstored, _, hnonce⟩ := loadLot_ok hlot
  rw [(loadPosition_ok hp).2] at hstored
  subst howner hnonce
  exact ⟨rfl, rfl, lot, hstored, rfl⟩

theorem winningSide_ok {outcome : SettlementOutcome} {side : PositionSide}
    (h : winningSide outcome = .ok side) : outcome ≠ .unresolved ∧ outcome ≠ .void := by
  cases outcome <;> simp_all [winningSide]

theorem reports_of_settleMarket {args : SettleMarketArgs}
    (h : settleMarket rt clock L accounts args = .ok (L', event)) : Reports rt L L' event := by
  unfold settleMarket at h
  simp only [bind_ok_iff, pure_ok_iff, Prod.mk.injEq] at h
  obtain ⟨m, _, _, _, _, _, _, _, _, _, _, _, _, _, m', hbegin, rfl, rfl⟩ := h
  obtain ⟨houtcome, _, pots, _, rfl⟩ := beginSettlement_ok_iff.mp hbegin
  have hdecided : args.outcome ≠ .unresolved ∧ args.outcome ≠ .void := by
    rcases houtcome with h | h <;> simp [h]
  by_cases hcount : m.positionCount = 0
  · simp [hcount, Reports, settledEvent, hdecided]
  · simp [hcount, Reports]

theorem reports_of_calculatePositionEntitlement
    (h : calculatePositionEntitlement rt clock L owner = .ok (L', event)) :
    Reports rt L L' event := by
  unfold calculatePositionEntitlement at h
  simp only [bind_ok_iff, Prod.exists, pure_ok_iff, Prod.mk.injEq] at h
  obtain ⟨m, _, p, _, m', p', calculation, hcalc, rfl, rfl⟩ := h
  obtain ⟨winner, hentitled⟩ := calculateEntitlement_ok hcalc
  obtain ⟨hunresolved, hvoid⟩ := winningSide_ok hentitled.wins
  have houtcome : m'.settlementOutcome = m.settlementOutcome := by rw [hentitled.market]
  have hfinal : calculation.finalized =
      decide (m'.settlementProcessedPositionCount = m.positionCount) := by
    unfold calculateEntitlement at hcalc
    simp only [bind_ok_iff, Prod.exists, pure_ok_iff, Prod.mk.injEq] at hcalc
    obtain ⟨_, _, _, _, _, _, _, _, _, _, _, _, _, _, _, _, _, _, _, _, _, rfl, _, rfl⟩ := hcalc
    rfl
  by_cases hlast : m'.settlementProcessedPositionCount = m.positionCount
  · have hsettled : m'.state = .settled := by simp [hentitled.state, hlast]
    simpa [hfinal, hlast, Reports, settledEvent, houtcome, hunresolved, hvoid] using hsettled
  · simpa [hfinal, hlast, Reports] using hentitled.state

theorem reports_of_processClaim {accounts : ClaimPositionAccounts}
    (h : processClaim rt L accounts = .ok (L', event)) : Reports rt L L' event := by
  unfold processClaim at h
  simp only [bind_ok_iff, Prod.exists, pure_ok_iff, Prod.mk.injEq] at h
  obtain ⟨m, hm, p, _, _, _, _, _, _, _, m', p', amount, hprepare, vault', _, rfl, rfl⟩ := h
  obtain ⟨_, rfl⟩ := loadMarket_ok hm
  obtain ⟨_, _, _, _, _, hmarket, _⟩ := prepareClaim_ok hprepare
  refine ⟨rfl, ?_⟩
  change m'.asset = _
  rw [hmarket]

theorem reports_of_closeMarket {accounts : CloseMarketAccounts}
    (h : closeMarket rt L accounts = .ok (L', event)) : Reports rt L L' event := by
  unfold closeMarket at h
  simp only [bind_ok_iff, pure_ok_iff, Prod.mk.injEq] at h
  obtain ⟨m, hm, _, _, _, _, _, _, _, _, rfl, rfl⟩ := h
  obtain ⟨_, rfl⟩ := loadMarket_ok hm
  exact ⟨rfl, rfl⟩

/-- **Every event tells the truth about its market.** -/
theorem reports_of_execute {c : Call} (h : execute rt clock L c = .ok (L', event)) :
    Reports rt L L' event := by
  cases c with
  | freezeMarket => exact reports_of_freezeMarket h
  | unfreezeMarket => exact reports_of_unfreezeMarket h
  | placePosition => exact reports_of_placePosition h
  | activatePositionLot => exact reports_of_activatePositionLot h
  | invalidatePositionLot => exact reports_of_invalidatePositionLot h
  | settleMarket => exact reports_of_settleMarket h
  | calculatePositionEntitlement => exact reports_of_calculatePositionEntitlement h
  | voidMarket =>
      simp only [execute, voidMarket, bind_ok_iff, pure_ok_iff, Prod.mk.injEq] at h
      obtain ⟨_, _, _, _, _, _, _, _, _, _, _, _, _, _, _, rfl⟩ := h
      exact rfl
  | timeoutVoid =>
      simp only [execute, timeoutVoid, bind_ok_iff, pure_ok_iff, Prod.mk.injEq] at h
      obtain ⟨_, _, _, _, _, _, _, rfl⟩ := h
      exact rfl
  | claimPosition => exact reports_of_processClaim h
  | claimPositionFor => exact reports_of_processClaim h
  | closePositionLots =>
      simp only [execute, closePositionLots, bind_ok_iff, Prod.exists, pure_ok_iff,
        Prod.mk.injEq] at h
      obtain ⟨_, _, _, _, _, _, _, _, _, _, _, _, _, _, _, _, rfl⟩ := h
      trivial
  | closePosition =>
      obtain ⟨_, _, _, rfl, _⟩ := closePosition_ok h
      trivial
  | closeMarket => exact reports_of_closeMarket h

end

end CalledIt.Escrow
