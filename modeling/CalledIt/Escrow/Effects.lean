import CalledIt.Escrow.Program

/-!
# CalledIt.Escrow.Effects

What a step of the program can do to a ledger.

`Effect` lists the possible changes with everything the instructions check
before making them; `effect_of_step` shows that every step is one of these.
The invariants of the development are all proved by cases on `Effect`, so an
instruction is taken apart here and nowhere else.
-/

namespace CalledIt.Escrow

open Lib

/-! ## the effects -/

/-- A deposit opens a new lot and books it. -/
structure Placed (rt : Runtime) (L : Ledger) (clock : Clock) (e : PositionPlaced)
    (p : UserPosition) (m' : Market) (p' : UserPosition) (lot : PositionLot)
    (vault' : AccountInfo) : Prop where
  opens : L.market.state = .open
  freshLot : L.lots.lookup (e.owner, e.nonce) = none
  /-- The position was there, or is started by this lot. -/
  base : (L.positions.lookup e.owner = some p ∧ p.version ≠ 0 ∧ p.side = e.side ∧
      p.claimed = false ∧ p.settlementProcessed = false ∧
      m'.positionCount = L.market.positionCount) ∨
    ((∀ q, L.positions.lookup e.owner = some q → q.version = 0) ∧
      (∃ bump slot, p = newPosition L.marketKey e.owner bump e.side slot) ∧
      m'.positionCount.toNat = L.market.positionCount.toNat + 1)
  nonce : p.nextLotNonce = e.nonce
  booked : Rebooked L.market p e.side (fun _ => 0) (inBucket lot.state e.amount.toNat) m' p'
  paid : p'.totalPaidAmount.toNat = p.totalPaidAmount.toNat + e.amount.toNat
  next : p'.nextLotNonce.toNat = p.nextLotNonce.toNat + 1
  lotKey : lot.owner = e.owner ∧ lot.nonce = e.nonce
  lotSide : lot.side = e.side
  lotAmount : lot.amount = e.amount
  placedAt : lot.placedTimestamp = clock.unixTimestamp
  observed : lot.observedEventEpoch = L.market.eventEpoch
  /-- Before kickoff a lot is active at once; from kickoff on it waits. -/
  window : (lot.state = .active ∧ clock.unixTimestamp < L.market.inPlayStartTimestamp ∧
      lot.activationTimestamp = none) ∨
    (lot.state = .pending ∧ L.market.inPlayStartTimestamp ≤ clock.unixTimestamp ∧
      ∃ t, lot.activationTimestamp = some t ∧
        t.toInt = clock.unixTimestamp.toInt + L.market.activationDelaySeconds.toNat)
  principal : vaultPrincipal rt L.market.asset vault' = L.principal rt + e.amount.toNat
  reserved : Reserved rt L.market.asset vault'

/-- A lot moves to another bucket. -/
structure Moved (L : Ledger) (owner : Pubkey) (nonce : UInt64) (p : UserPosition)
    (lot : PositionLot) (target : LotState) (m' : Market) (p' : UserPosition) : Prop where
  live : L.market.state.Live
  position : L.positions.lookup owner = some p
  stored : L.lots.lookup (owner, nonce) = some lot
  booked : Rebooked L.market p lot.side (inBucket lot.state lot.amount.toNat)
    (inBucket target lot.amount.toNat) m' p'
  paid : p'.totalPaidAmount = p.totalPaidAmount
  next : p'.nextLotNonce = p.nextLotNonce
  count : m'.positionCount = L.market.positionCount

/-- A terminal market pays a position. -/
structure Claimed (rt : Runtime) (L : Ledger) (e : PositionClaimed) (p : UserPosition)
    (m' : Market) (vault' : AccountInfo) : Prop where
  position : L.positions.lookup e.owner = some p
  unclaimed : p.claimed = false
  amount : claimAmount L.market p = .ok e.amount
  count : m'.claimedPositionCount.toNat = L.market.claimedPositionCount.toNat + 1
  market : m' = { L.market with claimedPositionCount := m'.claimedPositionCount }
  principal : vaultPrincipal rt L.market.asset vault' + e.amount.toNat = L.principal rt
  reserved : Reserved rt L.market.asset vault'

/-- A batch of lots is closed, from the newest down. -/
structure LotsClosed (L : Ledger) (e : PositionLotsClosed) (p p' : UserPosition)
    (lots' : Store (Pubkey × UInt64) PositionLot) : Prop where
  terminal : L.market.state.Terminal
  position : L.positions.lookup e.owner = some p
  claimed : p.claimed = true
  holder : p' = { p with nextLotNonce := p'.nextLotNonce }
  count : p'.nextLotNonce.toNat + e.nonces.length = p.nextLotNonce.toNat
  nonces : e.nonces.map UInt64.toNat =
    (List.range e.nonces.length).map fun i => p.nextLotNonce.toNat - 1 - i
  lots : ∀ k, lots'.lookup k =
    if k.1 = e.owner ∧ p'.nextLotNonce ≤ k.2 ∧ k.2 < p.nextLotNonce then none
    else L.lots.lookup k

inductive Effect (rt : Runtime) (L : Ledger) : Entry → Ledger → Prop
  | froze {clock : Clock} {e : EpochChanged} {epoch : UInt64} (opens : L.market.state = .open)
      (next : epoch.toNat = L.market.eventEpoch.toNat + 1) :
      Effect rt L (.emitted clock (.marketFrozen e))
        { L with market := { L.market with eventEpoch := epoch, state := .frozen } }
  | unfroze {clock : Clock} {e : EpochChanged} {epoch : UInt64}
      (frozen : L.market.state = .frozen)
      (next : epoch.toNat = L.market.eventEpoch.toNat + 1) :
      Effect rt L (.emitted clock (.marketUnfrozen e))
        { L with market := { L.market with eventEpoch := epoch, state := .open } }
  | placed {clock : Clock} {e : PositionPlaced} {p p' : UserPosition} {m' : Market}
      {lot : PositionLot} {vault' : AccountInfo} (h : Placed rt L clock e p m' p' lot vault') :
      Effect rt L (.emitted clock (.positionPlaced e))
        { L with
          market := m'
          positions := L.positions.insert e.owner p'
          lots := L.lots.insert (e.owner, e.nonce) lot
          vault := vault' }
  | activated {clock : Clock} {e : PositionActivated} {p p' : UserPosition} {m' : Market}
      {lot : PositionLot} {t : Int64} (h : Moved L e.owner e.nonce p lot .active m' p')
      (pending : lot.state = .pending)
      (observed : lot.observedEventEpoch = L.market.eventEpoch)
      (after : lot.activationTimestamp = some t) (elapsed : t ≤ clock.unixTimestamp) :
      Effect rt L (.emitted clock (.positionActivated e))
        { L with
          market := m'
          positions := L.positions.insert e.owner p'
          lots := L.lots.insert (e.owner, e.nonce) { lot with state := .active } }
  | invalidated {clock : Clock} {e : PositionInvalidated} {p p' : UserPosition} {m' : Market}
      {lot : PositionLot} (h : Moved L e.owner e.nonce p lot .voided m' p')
      (notVoided : lot.state ≠ .voided) (inPlay : lot.activationTimestamp.isSome)
      (behind : lot.observedEventEpoch < e.eventEpoch)
      (reached : e.eventEpoch ≤ L.market.eventEpoch) :
      Effect rt L (.emitted clock (.positionInvalidated e))
        { L with
          market := m'
          positions := L.positions.insert e.owner p'
          lots := L.lots.insert (e.owner, e.nonce)
            { lot with state := .voided, invalidationEvidenceHash := some e.evidenceHash } }
  | began {clock : Clock} {event : Event} {outcome : SettlementOutcome} {hash : Bytes 32}
      {m' : Market} (begins : beginSettlement L.market outcome hash = .ok m')
      (emits : (∃ e, event = .marketSettlementStarted e) ∨ ∃ e, event = .marketSettled e) :
      Effect rt L (.emitted clock event) { L with market := m' }
  | entitled {clock : Clock} {event : Event} {owner : Pubkey} {p p' : UserPosition} {m' : Market}
      {winner : PositionSide} (position : L.positions.lookup owner = some p)
      (h : Entitled L.market p winner clock.slot m' p')
      (emits : (∃ e, event = .positionEntitlementCalculated e) ∨ ∃ e, event = .marketSettled e) :
      Effect rt L (.emitted clock event)
        { L with market := m', positions := L.positions.insert owner p' }
  | voided {clock : Clock} {e : MarketVoided} {hash : Bytes 32} {m' : Market}
      (voids : transitionToVoid L.market hash = .ok m') :
      Effect rt L (.emitted clock (.marketVoided e)) { L with market := m' }
  | claimed {clock : Clock} {e : PositionClaimed} {p : UserPosition} {m' : Market}
      {vault' : AccountInfo} (h : Claimed rt L e p m' vault') :
      Effect rt L (.emitted clock (.positionClaimed e))
        { L with
          market := m'
          positions := L.positions.insert e.owner { p with claimed := true }
          vault := vault' }
  | lotsClosed {clock : Clock} {e : PositionLotsClosed} {p p' : UserPosition}
      {lots' : Store (Pubkey × UInt64) PositionLot} (h : LotsClosed L e p p' lots') :
      Effect rt L (.emitted clock (.positionLotsClosed e))
        { L with positions := L.positions.insert e.owner p', lots := lots' }
  | positionClosed {clock : Clock} {e : PositionClosed} {p : UserPosition} {count : UInt64}
      (terminal : L.market.state.Terminal) (position : L.positions.lookup e.owner = some p)
      (claimed : p.claimed = true) (noLots : p.nextLotNonce = 0)
      (next : count.toNat + 1 = L.market.settlementProcessedPositionCount.toNat) :
      Effect rt L (.emitted clock (.positionClosed e))
        { L with
          market := { L.market with settlementProcessedPositionCount := count }
          positions := L.positions.erase e.owner }
  | closed {clock : Clock} {e : MarketClosed} (terminal : L.market.state.Terminal)
      (allClaimed : L.market.claimedPositionCount = L.market.positionCount)
      (allClosed : L.market.settlementProcessedPositionCount = 0)
      (dust : e.dustAmount.toNat = L.principal rt) :
      Effect rt L (.emitted clock (.marketClosed e))
        { L with market := { L.market with state := .closed }, vault := L.vault.emptied }
  | received {amount : UInt64} {vault' : AccountInfo} (exists_ : L.market.state ≠ .closed)
      (adds : Reserved rt L.market.asset L.vault →
        vaultPrincipal rt L.market.asset vault' = L.principal rt + amount.toNat ∧
        Reserved rt L.market.asset vault') :
      Effect rt L (.received amount) { L with vault := vault' }

/-! ## the opening -/

/-- What `initialize_market` leaves behind: no positions, no lots, all counters
at zero, and a ratio that belongs to the quoted probability. -/
structure Fresh (rt : Runtime) (L : Ledger) : Prop where
  opens : L.market.state = .open
  positions : L.positions = ∅
  lots : L.lots = ∅
  epoch : L.market.eventEpoch = 0
  delay : L.market.activationDelaySeconds = positionActivationDelaySecondsV1
  ratio : ratioMilli L.market.probabilityPpm = .ok L.market.ratioMilli
  totals : ∀ s side, L.market.totalIn s side = 0
  positionCount : L.market.positionCount = 0
  claimedPositionCount : L.market.claimedPositionCount = 0
  verdict : L.market.verdict = .pending
  reserved : Reserved rt L.market.asset L.vault

variable {args : InitializeMarketArgs} {u : Unit}

theorem validateMarketTerms_delay {config : ProtocolConfig} {now : Int64}
    (h : validateMarketTerms config args now = .ok u) :
    args.activationDelaySeconds = positionActivationDelaySecondsV1 := by
  unfold validateMarketTerms at h
  simp only [bind_ok_iff, require_ok_iff] at h
  obtain ⟨_, _, _, hdelay, _⟩ := h
  exact hdelay

theorem canonicalMarketDocumentHash_ratio {rt : Runtime} {hash : Bytes 32}
    (h : canonicalMarketDocumentHash rt args = .ok hash) :
    ratioMilli args.probabilityPpm = .ok args.ratioMilli := by
  unfold canonicalMarketDocumentHash MarketDocumentV1.hash MarketDocumentV1.encode
    validateRatio at h
  simp only [mapError_ok_iff, bind_ok_iff, require_ok_iff, not_not] at h
  obtain ⟨_, ⟨_, ⟨ratio, hratio, hsame⟩, _⟩, _⟩ := h
  rw [hratio, hsame]

theorem initializeVault_reserved {rt : Runtime} {accounts : InitializeMarketAccounts}
    {key vaultKey : Pubkey} {bump : UInt8} {vault : AccountInfo}
    (h : initializeVault rt accounts args key = .ok (vaultKey, bump, vault)) :
    Reserved rt args.asset vault := by
  intro hsol
  unfold initializeVault at h
  simp only [hsol, initializeSolVault, bind_ok_iff, require_ok_iff, pure_ok_iff, ge_iff_le,
    Prod.mk.injEq] at h
  obtain ⟨_, _, _, _, _, _, _, _, _, _, _, hreserve, _, _, rfl⟩ := h
  exact UInt64.le_iff_toNat_le.mp hreserve

theorem fresh_of_opened {rt : Runtime} {L : Ledger} (h : Opened rt L) : Fresh rt L := by
  obtain ⟨clock, accounts, args, event, h⟩ := h
  unfold initializeMarket at h
  simp only [bind_ok_iff, Prod.exists, pure_ok_iff, Prod.mk.injEq] at h
  obtain ⟨_, _, _, _, _, _, _, hterms, _, _, _, _, _, _, hash, hhash, _, _, vaultKey, bump, vault,
    hvault, rfl, rfl⟩ := h
  refine ⟨rfl, rfl, rfl, rfl, validateMarketTerms_delay hterms,
    canonicalMarketDocumentHash_ratio hhash, ?_, rfl, rfl, rfl, initializeVault_reserved hvault⟩
  intro s side
  cases s <;> cases side <;> rfl

/-! ## every step is an effect -/

variable {owner : Pubkey} {p : UserPosition} {accounts : AttestedAccounts}

section

variable {rt : Runtime} {clock : Clock} {L L' : Ledger} {event : Event}

theorem loadMarket_ok {m : Market} (h : L.loadMarket = .ok m) :
    L.market.state ≠ .closed ∧ L.market = m := by
  unfold Ledger.loadMarket at h
  simp only [bind_ok_iff, require_ok_iff, pure_ok_iff] at h
  obtain ⟨_, hstate, hm⟩ := h
  exact ⟨hstate, hm⟩

theorem loadPosition_ok (h : L.loadPosition owner = .ok p) :
    L.positions.lookup owner = some p ∧ p.owner = owner := by
  unfold Ledger.loadPosition at h
  simp only [bind_ok_iff, require_ok_iff, okOr_ok_iff, pure_ok_iff] at h
  obtain ⟨q, hq, _, howner, _, _, rfl⟩ := h
  exact ⟨hq, howner⟩

theorem loadLot_ok {nonce : UInt64} {lot : PositionLot} (h : L.loadLot p nonce = .ok lot) :
    L.lots.lookup (p.owner, nonce) = some lot ∧ lot.owner = p.owner ∧ lot.nonce = nonce := by
  unfold Ledger.loadLot at h
  simp only [bind_ok_iff, require_ok_iff, okOr_ok_iff, pure_ok_iff] at h
  obtain ⟨q, hq, _, _, _, howner, _, hnonce, rfl⟩ := h
  exact ⟨hq, howner, hnonce⟩

theorem nextEventEpoch_ok {current expected next : UInt64}
    (h : nextEventEpoch current expected = .ok next) : next.toNat = current.toNat + 1 := by
  unfold nextEventEpoch at h
  simp only [bind_ok_iff, require_ok_iff, okOr_ok_iff, checkedAdd_eq_some] at h
  obtain ⟨_, _, hnext⟩ := h
  exact hnext.symm

theorem effect_of_freezeMarket {accounts : FreezeMarketAccounts} {args : FreezeMarketArgs}
    (h : freezeMarket L accounts args = .ok (L', event)) :
    Effect rt L (.emitted clock event) L' := by
  unfold freezeMarket at h
  simp only [bind_ok_iff, require_ok_iff, pure_ok_iff, Prod.mk.injEq] at h
  obtain ⟨_, _, m, hm, _, hopen, _, _, epoch, hepoch, rfl, rfl⟩ := h
  obtain ⟨_, rfl⟩ := loadMarket_ok hm
  exact .froze hopen (nextEventEpoch_ok hepoch)

theorem effect_of_unfreezeMarket {args : UnfreezeMarketArgs}
    (h : unfreezeMarket rt clock L accounts args = .ok (L', event)) :
    Effect rt L (.emitted clock event) L' := by
  unfold unfreezeMarket at h
  simp only [bind_ok_iff, require_ok_iff, pure_ok_iff, Prod.mk.injEq] at h
  obtain ⟨m, hm, _, _, _, hfrozen, _, _, _, _, _, _, epoch, hepoch, _, _, _, _, rfl, rfl⟩ := h
  obtain ⟨_, rfl⟩ := loadMarket_ok hm
  exact .unfroze hfrozen (nextEventEpoch_ok hepoch)

/-! ### positions -/

theorem validatePlace_open {m : Market} {accounts : PlacePositionAccounts}
    {args : PlacePositionArgs}
    (h : validatePlace rt clock m p accounts args = .ok u) : m.state = .open := by
  unfold validatePlace validatePositionWindow at h
  simp only [bind_ok_iff, require_ok_iff] at h
  obtain ⟨_, ⟨_, _, _, _, _, hopen, _⟩, _⟩ := h
  exact hopen

theorem transferPrincipal_ok {accounts : PlacePositionAccounts} {amount : UInt64}
    {vault' : AccountInfo} (h : transferPrincipal rt L accounts amount = .ok vault') :
    vaultPrincipal rt L.market.asset vault' = L.principal rt + amount.toNat ∧
    Reserved rt L.market.asset vault' := by
  unfold transferPrincipal at h
  unfold Ledger.principal
  cases hasset : L.market.asset with
  | sol =>
      simp only [hasset, transferSolPrincipal, systemTransfer, bind_ok_iff, require_ok_iff,
        okOr_ok_iff, checkedSub_eq_some, checkedAdd_eq_some, Prod.exists, pure_ok_iff,
        Prod.mk.injEq, ge_iff_le, UInt64.le_iff_toNat_le] at h
      obtain ⟨_, _, _, _, _, _, _, _, _, hreserve, _, _, _, lamports,
        ⟨_, _, balance, hbalance, rfl, rfl⟩, rfl⟩ := h
      constructor
      · change balance.toNat - _ = L.vault.lamports.toNat - _ + _
        omega
      · intro _
        change _ ≤ balance.toNat
        omega
  | usdc =>
      simp only [hasset, transferUsdcPrincipal, bind_ok_iff, okOr_ok_iff, Prod.exists,
        pure_ok_iff] at h
      obtain ⟨_, _, _, _, _, _, mint, _, _, _, _, _, _, _, _, _, vault, hvault, source, _, _, _,
        source', vault', htransfer, rfl⟩ := h
      have hdata := unpackToken_eq_some hvault
      have hamount := (transferChecked_ok htransfer).2
      constructor
      · simpa only [vaultPrincipal, hdata] using hamount
      · intro hsol
        contradiction

theorem classifyPlacement_ok {now start : Int64} {delay : UInt64} {pending : Bool}
    {after : Option Int64} (h : classifyPlacement now start delay = .ok (pending, after)) :
    (pending = false ∧ now < start ∧ after = none) ∨
    (pending = true ∧ start ≤ now ∧ ∃ t, after = some t ∧ t.toInt = now.toInt + delay.toNat) := by
  unfold classifyPlacement at h
  split at h
  · next hnow =>
    rw [Except.ok.injEq, Prod.mk.injEq] at h
    exact .inl ⟨h.1.symm, hnow, h.2.symm⟩
  · next hnow =>
    simp only [bind_ok_iff, okOr_ok_iff, pure_ok_iff, Prod.mk.injEq] at h
    obtain ⟨d, hd, t, ht, rfl, rfl⟩ := h
    refine .inr ⟨rfl, Int64.not_lt.mp hnow, t, rfl, ?_⟩
    rw [toInt_of_checkedAddI64 ht, toInt_of_tryFromU64 hd]

theorem initializeOrValidatePosition_ok {q : UserPosition} {key : Pubkey} {bump : UInt8}
    {args : PlacePositionArgs} {slot : UInt64}
    (h : initializeOrValidatePosition q key owner bump args slot = .ok p) :
    p.nextLotNonce = args.expectedLotNonce ∧
    ((q.version = 0 ∧ p = newPosition key owner bump args.side slot) ∨
      (q.version ≠ 0 ∧ p = q ∧ p.side = args.side ∧ p.claimed = false ∧
        p.settlementProcessed = false)) := by
  unfold initializeOrValidatePosition at h
  split at h
  · next hversion =>
    simp only [validateLotNonce, bind_ok_iff, require_ok_iff, pure_ok_iff] at h
    obtain ⟨_, _, _, hnonce, rfl⟩ := h
    exact ⟨hnonce, .inl ⟨hversion, rfl⟩⟩
  · next hversion =>
    simp only [validateExistingPosition, validateLotNonce, bind_ok_iff, require_ok_iff,
      pure_ok_iff, Bool.not_eq_true] at h
    obtain ⟨_, ⟨_, _, _, _, _, hside, _, hclaimed, hprocessed⟩, _, hnonce, rfl⟩ := h
    exact ⟨hnonce, .inr ⟨hversion, rfl, hside, hclaimed, hprocessed⟩⟩

theorem effect_of_placePosition {accounts : PlacePositionAccounts} {args : PlacePositionArgs}
    (h : placePosition rt clock L accounts args = .ok (L', event)) :
    Effect rt L (.emitted clock event) L' := by
  unfold placePosition at h
  simp only [bind_ok_iff, require_ok_iff, Prod.exists, pure_ok_iff, Prod.mk.injEq,
    Option.isNone_iff_eq_none] at h
  obtain ⟨m, hm, _, _, _, hfresh, _, hvalid, p, hp, vault', hvault, pending, after, hclass, m', p',
    hdeposit, rfl, rfl⟩ := h
  obtain ⟨_, rfl⟩ := loadMarket_ok hm
  obtain ⟨hbooked, hpaid, hnext, hcount⟩ := applyPositionDeposit_ok hdeposit
  obtain ⟨hprincipal, hreserved⟩ := transferPrincipal_ok hvault
  obtain ⟨hnonce, hbase⟩ := initializeOrValidatePosition_ok hp
  apply Effect.placed
  refine ⟨validatePlace_open hvalid, hfresh, ?_, hnonce, hbooked, hpaid, hnext, ⟨rfl, rfl⟩, rfl,
    rfl, rfl, hbooked.terms.eventEpoch, ?_, hprincipal, hreserved⟩
  · -- a version of zero is how the handler tells a fresh account
    rcases hbase with ⟨hversion, hnew⟩ | ⟨hversion, rfl, hside, hclaimed, hprocessed⟩
    · refine .inr ⟨?_, ⟨_, _, hnew⟩, ?_⟩
      · intro q hq
        rwa [hq, Option.getD_some] at hversion
      · simpa [hversion] using hcount
    · cases hlookup : L.positions.lookup accounts.owner.key with
      | none =>
          rw [hlookup] at hversion
          exact absurd rfl hversion
      | some q =>
          simp only [hlookup, Option.getD_some] at hversion hside hclaimed hprocessed hcount ⊢
          refine .inl ⟨trivial, hversion, hside, hclaimed, hprocessed, ?_⟩
          rw [← UInt64.toNat_inj]
          simpa [hversion] using hcount
  · rcases classifyPlacement_ok hclass with ⟨rfl, hbefore, rfl⟩ | ⟨rfl, hfrom, t, rfl, ht⟩
    · exact .inl ⟨rfl, hbefore, rfl⟩
    · exact .inr ⟨rfl, hfrom, t, rfl, ht⟩

theorem effect_of_activatePositionLot {args : ActivatePositionLotArgs}
    (h : activatePositionLot rt clock L owner args = .ok (L', event)) :
    Effect rt L (.emitted clock event) L' := by
  obtain ⟨nonce, expectedEventEpoch⟩ := args
  unfold activatePositionLot at h
  simp only [bind_ok_iff, require_ok_iff, okOr_ok_iff, Prod.exists, pure_ok_iff,
    Prod.mk.injEq] at h
  obtain ⟨m, hm, p, hp, lot, hlot, _, hlive, _, hpending, _, ⟨hobserved, hcurrent⟩, t, ht, _,
    helapsed, m', p', hmove, rfl, rfl⟩ := h
  obtain ⟨_, rfl⟩ := loadMarket_ok hm
  obtain ⟨hposition, howner⟩ := loadPosition_ok hp
  obtain ⟨hstored, _, hnonce⟩ := loadLot_ok hlot
  obtain ⟨hbooked, hpaid, hnext, hcount⟩ := movePendingToActive_ok hmove
  rw [howner] at hstored
  rw [← hpending] at hbooked
  have hmoved : Moved L owner nonce p lot .active m' p' :=
    ⟨hlive, hposition, hstored, hbooked, hpaid, hnext, hcount⟩
  have howner' : p'.owner = owner := hbooked.holder.owner.trans howner
  subst howner' hnonce
  exact .activated hmoved hpending (hobserved.trans hcurrent.symm) ht helapsed

theorem validateInvalidationCandidate_ok {lot : PositionLot} {current invalidated : UInt64}
    (h : validateInvalidationCandidate lot current invalidated = .ok u) :
    lot.activationTimestamp.isSome ∧ lot.observedEventEpoch < invalidated ∧
      invalidated ≤ current := by
  unfold validateInvalidationCandidate at h
  simp only [bind_ok_iff, require_ok_iff] at h
  obtain ⟨_, _, _, hsome, hbehind, hreached⟩ := h
  exact ⟨hsome, hbehind, hreached⟩

theorem effect_of_invalidatePositionLot {args : InvalidatePositionLotArgs}
    (h : invalidatePositionLot rt clock L accounts owner args = .ok (L', event)) :
    Effect rt L (.emitted clock event) L' := by
  obtain ⟨nonce, evidenceHash, invalidatedEventEpoch, decidingSequence, issuedAt, expiresAt⟩ := args
  unfold invalidatePositionLot at h
  simp only [bind_ok_iff, require_ok_iff, Prod.exists, pure_ok_iff,
    Prod.mk.injEq] at h
  obtain ⟨m, hm, _, _, p, hp, lot, hlot, _, hlive, _, hcandidate, _, _, _, _, _, _, m', p', hmove,
    rfl, rfl⟩ := h
  obtain ⟨_, rfl⟩ := loadMarket_ok hm
  obtain ⟨hposition, howner⟩ := loadPosition_ok hp
  obtain ⟨hstored, _, hnonce⟩ := loadLot_ok hlot
  obtain ⟨hinPlay, hbehind, hreached⟩ := validateInvalidationCandidate_ok hcandidate
  obtain ⟨hbooked, hstate, hpaid, hnext, hcount⟩ := makeLotRefundable_ok hmove
  rw [howner] at hstored
  have hmoved : Moved L owner nonce p lot .voided m' p' :=
    ⟨hlive, hposition, hstored, hbooked, hpaid, hnext, hcount⟩
  have howner' : p'.owner = owner := hbooked.holder.owner.trans howner
  subst howner' hnonce
  exact .invalidated hmoved hstate hinPlay hbehind hreached

/-! ### settlement -/

theorem effect_of_settleMarket {args : SettleMarketArgs}
    (h : settleMarket rt clock L accounts args = .ok (L', event)) :
    Effect rt L (.emitted clock event) L' := by
  unfold settleMarket at h
  simp only [bind_ok_iff, pure_ok_iff, Prod.mk.injEq] at h
  obtain ⟨m, hm, _, _, _, _, _, _, _, _, _, _, _, _, m', hbegin, rfl, rfl⟩ := h
  obtain ⟨_, rfl⟩ := loadMarket_ok hm
  apply Effect.began hbegin
  split
  · exact .inr ⟨_, rfl⟩
  · exact .inl ⟨_, rfl⟩

theorem effect_of_calculatePositionEntitlement
    (h : calculatePositionEntitlement rt clock L owner = .ok (L', event)) :
    Effect rt L (.emitted clock event) L' := by
  unfold calculatePositionEntitlement at h
  simp only [bind_ok_iff, Prod.exists, pure_ok_iff, Prod.mk.injEq] at h
  obtain ⟨m, hm, p, hp, m', p', calculation, hcalc, rfl, rfl⟩ := h
  obtain ⟨_, rfl⟩ := loadMarket_ok hm
  obtain ⟨winner, hentitled⟩ := calculateEntitlement_ok hcalc
  apply Effect.entitled (loadPosition_ok hp).1 hentitled
  split
  · exact .inr ⟨_, rfl⟩
  · exact .inl ⟨_, rfl⟩

theorem effect_of_voidMarket {args : VoidMarketArgs}
    (h : voidMarket rt clock L accounts args = .ok (L', event)) :
    Effect rt L (.emitted clock event) L' := by
  unfold voidMarket at h
  simp only [bind_ok_iff, pure_ok_iff, Prod.mk.injEq] at h
  obtain ⟨m, hm, _, _, _, _, _, _, _, _, _, _, m', hvoid, rfl, rfl⟩ := h
  obtain ⟨_, rfl⟩ := loadMarket_ok hm
  exact .voided hvoid

theorem effect_of_timeoutVoid (h : timeoutVoid clock L = .ok (L', event)) :
    Effect rt L (.emitted clock event) L' := by
  unfold timeoutVoid at h
  simp only [bind_ok_iff, pure_ok_iff, Prod.mk.injEq] at h
  obtain ⟨m, hm, _, _, m', hvoid, rfl, rfl⟩ := h
  obtain ⟨_, rfl⟩ := loadMarket_ok hm
  exact .voided hvoid

/-! ### claims -/

theorem processClaim_ok {accounts : ClaimPositionAccounts}
    (h : processClaim rt L accounts = .ok (L', event)) :
    ∃ e p m' vault', event = .positionClaimed e ∧ e.owner = accounts.owner.key ∧
      Claimed rt L e p m' vault' ∧
      L' = { L with
        market := m'
        positions := L.positions.insert e.owner { p with claimed := true }
        vault := vault' } := by
  unfold processClaim at h
  simp only [bind_ok_iff, require_ok_iff, okOr_ok_iff, Prod.exists, pure_ok_iff,
    Prod.mk.injEq] at h
  obtain ⟨m, hm, p, hposition, _, _, _, howner, _, _, m', p', amount, hprepare, vault', htransfer,
    rfl, rfl⟩ := h
  obtain ⟨_, rfl⟩ := loadMarket_ok hm
  obtain ⟨hunclaimed, _, hamount, _, hcount, hmarket, rfl⟩ := prepareClaim_ok hprepare
  obtain ⟨hprincipal, hreserved⟩ := transferClaim_ok htransfer
  have hasset : m'.asset = L.market.asset := by rw [hmarket]
  rw [hasset] at hprincipal hreserved
  rw [← howner] at hposition ⊢
  exact ⟨_, p, m', vault', rfl, rfl,
    ⟨hposition, hunclaimed, hamount, hcount, hmarket, hprincipal, hreserved⟩, rfl⟩

theorem effect_of_processClaim {accounts : ClaimPositionAccounts}
    (h : processClaim rt L accounts = .ok (L', event)) :
    Effect rt L (.emitted clock event) L' := by
  obtain ⟨e, p, m', vault', rfl, _, hclaimed, rfl⟩ := processClaim_ok h
  exact .claimed hclaimed

theorem terminal_of_requireTerminalMarket {state : MarketState}
    (h : requireTerminalMarket state = .ok u) : state.Terminal := by
  unfold requireTerminalMarket at h
  rw [require_ok_iff] at h
  exact h

theorem effect_of_closePositionLots {accounts : ClosePositionLotsAccounts}
    {args : ClosePositionLotsArgs}
    (h : closePositionLots rt L accounts owner args = .ok (L', event)) :
    Effect rt L (.emitted clock event) L' := by
  unfold closePositionLots validateLotCloseBatch at h
  simp only [bind_ok_iff, require_ok_iff, Prod.exists, pure_ok_iff, Prod.mk.injEq] at h
  obtain ⟨m, hm, p, hp, _, _, _, hterminal, _, hclaimed, _, ⟨_, ⟨_, hlength⟩, _⟩, p', lots', hclose,
    rfl, rfl⟩ := h
  obtain ⟨_, rfl⟩ := loadMarket_ok hm
  obtain ⟨hposition, howner⟩ := loadPosition_ok hp
  obtain ⟨hholder, hcount, hnonces, hlots⟩ := closeLots_ok hclose
  have hbatch : (args.nonces.zip accounts.remaining).length = args.nonces.length := by
    rw [List.length_zip, hlength, Nat.min_self]
  have hmap : (args.nonces.zip accounts.remaining).map (fun b => b.1.toNat) =
      args.nonces.map UInt64.toNat := by
    nth_rewrite 2 [← List.map_fst_zip (Nat.le_of_eq hlength)]
    rw [List.map_map]
    rfl
  rw [hbatch] at hcount hnonces
  rw [hmap] at hnonces
  have howner' : p'.owner = owner := by rw [hholder]; exact howner
  subst howner'
  rw [howner] at hlots
  exact .lotsClosed ⟨terminal_of_requireTerminalMarket hterminal, hposition, hclaimed, hholder,
    hcount, hnonces, hlots⟩

theorem closePosition_ok {accounts : ClosePositionAccounts}
    (h : closePosition rt L accounts owner = .ok (L', event)) :
    ∃ e p count, event = .positionClosed e ∧ e.owner = owner ∧ L.market.state.Terminal ∧
      L.positions.lookup owner = some p ∧ p.claimed = true ∧ p.nextLotNonce = 0 ∧
      count.toNat + 1 = L.market.settlementProcessedPositionCount.toNat ∧
      L' = { L with
        market := { L.market with settlementProcessedPositionCount := count }
        positions := L.positions.erase owner } := by
  unfold closePosition at h
  simp only [bind_ok_iff, require_ok_iff, okOr_ok_iff, checkedSub_eq_some, pure_ok_iff,
    Prod.mk.injEq] at h
  obtain ⟨m, hm, p, hp, _, _, _, hterminal, _, hclaimed, _, hnonce, _, _, count, hcount, rfl,
    rfl⟩ := h
  obtain ⟨_, rfl⟩ := loadMarket_ok hm
  obtain ⟨hposition, rfl⟩ := loadPosition_ok hp
  exact ⟨_, p, count, rfl, rfl, terminal_of_requireTerminalMarket hterminal, hposition, hclaimed,
    hnonce, hcount, rfl⟩

theorem effect_of_closePosition {accounts : ClosePositionAccounts}
    (h : closePosition rt L accounts owner = .ok (L', event)) :
    Effect rt L (.emitted clock event) L' := by
  obtain ⟨e, p, count, rfl, rfl, hterminal, hposition, hclaimed, hnonce, hcount, rfl⟩ :=
    closePosition_ok h
  exact .positionClosed hterminal hposition hclaimed hnonce hcount

theorem closeMarket_ok {accounts : CloseMarketAccounts}
    (h : closeMarket rt L accounts = .ok (L', event)) :
    ∃ e : MarketClosed, event = .marketClosed e ∧ L.market.state.Terminal ∧
      L.market.claimedPositionCount = L.market.positionCount ∧
      L.market.settlementProcessedPositionCount = 0 ∧ e.dustAmount.toNat = L.principal rt ∧
      L' = { L with
        market := { L.market with state := .closed }
        vault := L.vault.emptied } := by
  unfold closeMarket validateMarketClose at h
  simp only [bind_ok_iff, require_ok_iff, pure_ok_iff, Prod.mk.injEq] at h
  obtain ⟨m, hm, _, _, _, ⟨_, hterminal, _, hclaimed, hclosed⟩, _, _, dust, hdust, rfl, rfl⟩ := h
  obtain ⟨_, rfl⟩ := loadMarket_ok hm
  exact ⟨_, rfl, terminal_of_requireTerminalMarket hterminal, hclaimed, hclosed,
    closeVault_ok hdust, rfl⟩

theorem effect_of_closeMarket {accounts : CloseMarketAccounts}
    (h : closeMarket rt L accounts = .ok (L', event)) :
    Effect rt L (.emitted clock event) L' := by
  obtain ⟨e, rfl, hterminal, hclaimed, hclosed, hdust, rfl⟩ := closeMarket_ok h
  exact .closed hterminal hclaimed hclosed hdust

/-! ### all together -/

theorem effect_of_execute {c : Call} (h : execute rt clock L c = .ok (L', event)) :
    Effect rt L (.emitted clock event) L' := by
  cases c with
  | freezeMarket => exact effect_of_freezeMarket h
  | unfreezeMarket => exact effect_of_unfreezeMarket h
  | placePosition => exact effect_of_placePosition h
  | activatePositionLot => exact effect_of_activatePositionLot h
  | invalidatePositionLot => exact effect_of_invalidatePositionLot h
  | settleMarket => exact effect_of_settleMarket h
  | calculatePositionEntitlement => exact effect_of_calculatePositionEntitlement h
  | voidMarket => exact effect_of_voidMarket h
  | timeoutVoid => exact effect_of_timeoutVoid h
  | claimPosition => exact effect_of_processClaim h
  | claimPositionFor => exact effect_of_processClaim h
  | closePositionLots => exact effect_of_closePositionLots h
  | closePosition => exact effect_of_closePosition h
  | closeMarket => exact effect_of_closeMarket h

theorem effect_of_receive {amount : UInt64} (h : L.receive amount = some L') :
    Effect rt L (.received amount) L' := by
  unfold Ledger.receive at h
  split at h
  · contradiction
  · next hopen =>
    split at h
    · next hasset =>
      obtain ⟨lamports, hadd, rfl⟩ := Option.map_eq_some_iff.mp h
      rw [checkedAdd_eq_some] at hadd
      refine .received hopen fun hreserved => ⟨?_, fun _ => ?_⟩
      · have hle := hreserved hasset
        simp only [Ledger.principal, hasset, vaultPrincipal]
        omega
      · have hle := hreserved hasset
        change _ ≤ lamports.toNat
        omega
    · next hasset =>
      split at h
      · next t hdata =>
        obtain ⟨total, hadd, rfl⟩ := Option.map_eq_some_iff.mp h
        rw [checkedAdd_eq_some] at hadd
        refine .received hopen fun _ => ⟨?_, fun hsol => ?_⟩
        · simp only [Ledger.principal, hasset, vaultPrincipal, hdata]
          exact hadd.symm
        · rw [hasset] at hsol
          contradiction
      · contradiction

/-- **Every step of the program is one of the listed effects.** -/
theorem effect_of_step {entry : Entry} (h : Step rt L entry L') : Effect rt L entry L' := by
  cases h with
  | call hcall => exact effect_of_execute hcall
  | foreign hreceive => exact effect_of_receive hreceive

end

end CalledIt.Escrow
