import CalledIt.Indexer.Recorded
import CalledIt.Escrow.History

/-!
# CalledIt.Indexer.Linked

A linked market and its rows, while its events are indexed in order.

`Follows` ties the rows of a market to the ledger that the indexed events have led to.  Given it,
`indexEvent_iff` says which links let the next event be projected and recorded, and
`Follows.index` that indexing the event keeps the tie.
-/

namespace CalledIt.Indexer

open Lib Escrow

/-! ## the tie -/

/-- No row was written for the instruction. -/
structure Unused (db : ReadModel) (key : EventKey) : Prop where
  identity : db.identities key = none
  position : db.positionEvents key = none
  settlement : db.settlementEvents key = none
  claim : db.claimEvents key = none
  close : db.closeOf key = none

structure LinkOf (deployment : ProjectorDeployment) (L : Ledger) (link : EscrowMarketLink) :
    Prop where
  marketId : link.marketId = L.market.marketUuid
  marketPda : link.marketPda = L.marketKey
  asset : link.asset = L.market.asset
  cluster : link.cluster = deployment.cluster
  genesisHash : link.genesisHash = deployment.genesisHash
  programId : link.programId = deployment.programId
  finalized : link.finalized = true

def ProjectorDeployment.Valid (deployment : ProjectorDeployment) : Prop :=
  isClusterName deployment.cluster ∧ nonempty deployment.genesisHash ∧
    deployment.genesisHash.length ≤ 128 ∧ nonempty deployment.programId ∧
    deployment.programId.length ≤ 128

/-- The position is open and not paid, or will still be in a terminal market. -/
def Unpaid (L : Ledger) (owner : Pubkey) : Prop :=
  L.market.state.stage = 0 ∨ ∃ p, L.positions.lookup owner = some p ∧ p.claimed = false

/-- The rows of a market after the events up to the ledger. -/
structure Follows (deployment : ProjectorDeployment) (L : Ledger) (db : ReadModel)
    (link : EscrowMarketLinkRow) : Prop where
  valid : deployment.Valid
  market : (db.markets L.market.marketUuid).any (·.custodyMode = .escrow)
  pda : db.linkOfPda L.marketKey = some L.market.marketUuid
  linked : db.links L.market.marketUuid = some link
  same : LinkOf deployment L link.toEscrowMarketLink
  lots : L.market.state.Live → ∀ o n,
    ((db.lots (L.market.marketUuid, o, n)).isSome ↔ (L.lots.lookup (o, n)).isSome)
  settlement : L.market.state.stage = 0 → db.settlementOf L.market.marketUuid = none
  claims : ∀ o, Unpaid L o → db.claimOf (L.market.marketUuid, o) = none
  close : L.market.state.stage < 2 → db.closeEvents L.market.marketUuid = none

variable {s : IndexingState} {sides : Pubkey → Option PositionSide} {event : Event}
  {p : EscrowFinalizedProjection} {clock : Clock} {entry : Entry}

section

variable {rt : Runtime} {deployment : ProjectorDeployment} {L L' : Ledger} {db db' : ReadModel}
  {link : EscrowMarketLinkRow} {accounts : ChainAccounts} {place : ChainPlace}

/-! ## one event -/

/-- What was resolved is recorded, if it is something. -/
def RecordedAs (deployment : ProjectorDeployment) (db : ReadModel) (place : ChainPlace)
    (result : Option EscrowFinalizedProjection) (db' : ReadModel) : Prop :=
  match result with
  | none => db' = db
  | some p => recordProjection deployment db place p = .ok db'

theorem indexEvent_ok_iff {event : EscrowProgramEvent} :
    (∃ sides, indexEvent deployment accounts s place event = .ok ⟨db', sides⟩) ↔
      ∃ result, (projectProgramEvent deployment (s.projector deployment accounts) event).1 =
        .ok result ∧ RecordedAs deployment s.db place result db' := by
  unfold indexEvent RecordedAs
  rcases projectProgramEvent deployment (s.projector deployment accounts) event with
    ⟨result, projector⟩
  cases result with
  | error e => simp
  | ok result =>
      cases result with
      | none => simp [eq_comm]
      | some p => cases hrecord : recordProjection deployment s.db place p <;> simp [hrecord]

theorem Follows.getMarketLink (h : Follows deployment L db link) :
    escrowGetMarketLink deployment db L.marketKey = .found link.toEscrowMarketLink := by
  unfold escrowGetMarketLink
  have hvalid := h.valid
  unfold ProjectorDeployment.Valid at hvalid
  have hmarket := h.market
  rw [← h.same.marketId] at hmarket
  simp [hvalid, h.pda, h.linked, h.same.genesisHash, hmarket]

theorem Follows.current (h : Follows deployment L db link) :
    link.Current deployment L.marketKey ↔ link.projectionStale = false := by
  simp [EscrowMarketLink.Current, h.same.marketPda, h.same.cluster, h.same.genesisHash,
    h.same.programId, h.same.finalized]

/-- An event of the market is resolved by its link, if the link is not stale. -/
theorem Follows.projectEvent_eq (h : Follows deployment L db link)
    (hlinked : linkedMarket event = some L.marketKey) :
    projectEvent deployment (IndexingState.projector deployment accounts ⟨db, sides⟩) event =
      if link.projectionStale = false then
        projectKnown deployment (IndexingState.projector deployment accounts ⟨db, sides⟩)
          link.toEscrowMarketLink event
      else .error .historyUnavailable := by
  have hhistorical : historicalMarket deployment
      (IndexingState.projector deployment accounts ⟨db, sides⟩) L.marketKey =
      if link.projectionStale = false then .ok (some link.toEscrowMarketLink)
      else .error .historyUnavailable := by
    simp only [historicalMarket, IndexingState.projector, h.getMarketLink, h.current]
  cases event <;> simp only [linkedMarket, Option.some.injEq, reduceCtorEq] at hlinked
  all_goals
    simp only [projectEvent, linkedMarket, hlinked, hhistorical]
    split <;> simp [bind, Except.bind]

/-! ## what a recorder accepts -/

theorem identity_accepted (hunused : Unused db place.key) (identity : ChainIdentity) :
    assertChainIdentity db place identity = .ok
      { db with identities := Function.update db.identities place.key (some identity) } := by
  simp [assertChainIdentity, hunused.identity, require]

theorem numeric20_toNat (n : UInt64) : Numeric20 n.toNat := by
  have := n.toNat_lt
  unfold Numeric20
  omega

section

variable (h : Follows deployment L db link)

include h

section

variable (hplace : place.Valid)

include hplace

section

variable (hunused : Unused db place.key)

include hunused

/-- A placement is accepted: its lot is new. -/
theorem Follows.placed_accepted {input : PositionProjection}
    (hid : input.marketId = L.market.marketUuid) (hasset : input.asset = link.asset)
    (hamount : input.amountAtomic ≠ 0) (hkind : input.eventKind = .placed)
    (hlot : db.lots (.of input) = none) :
    ∃ db', recordPositionEvent deployment db place input = .ok db' := by
  have hvalid := h.valid
  unfold ProjectorDeployment.Valid at hvalid
  simp [recordPositionEvent, putPositionEvent, putPositionLot, identity_accepted hunused, require,
    okOr, hplace, hvalid, hid, h.linked, h.same.programId, hasset, hamount, PositionStateFits,
    hkind, numeric20_toNat, hunused.position, hlot]

/-- An activation or an invalidation is accepted where its lot is. -/
theorem Follows.moved_accepted {input : PositionProjection}
    (hid : input.marketId = L.market.marketUuid) (hasset : input.asset = link.asset)
    (hamount : input.amountAtomic ≠ 0) (hkind : input.eventKind ≠ .placed)
    (hfits : PositionStateFits input) (hlot : (db.lots (.of input)).isSome) :
    ∃ db', recordPositionEvent deployment db place input = .ok db' := by
  have hvalid := h.valid
  unfold ProjectorDeployment.Valid at hvalid
  obtain ⟨lot, hlot⟩ := Option.isSome_iff_exists.mp hlot
  cases hk : input.eventKind with
  | placed => exact absurd hk hkind
  | _ =>
      simp [recordPositionEvent, putPositionEvent, putPositionLot, identity_accepted hunused,
        require, okOr, hplace, hvalid, hid, h.linked, h.same.programId, hasset, hamount, hfits,
        numeric20_toNat, hunused.position, hlot, hk]

/-- A settlement is accepted once, whatever state the link has. -/
theorem Follows.settlement_accepted {input : SettlementProjection}
    (hid : input.marketId = L.market.marketUuid)
    (hdocument : input.documentHash = link.documentHash)
    (hepoch : input.oracleEpoch = link.oracleEpoch) (houtcome : input.outcome ≠ .unresolved)
    (hstage : L.market.state.stage = 0) :
    ∃ db', recordSettlementEvent deployment db place input = .ok db' := by
  have hvalid := h.valid
  unfold ProjectorDeployment.Valid at hvalid
  simp [recordSettlementEvent, identity_accepted hunused, require, okOr, hplace, hvalid, hid,
    h.linked, h.same.programId, hdocument, hepoch, houtcome, numeric20_toNat, hunused.settlement,
    h.settlement hstage]

/-- A claim is accepted if it pays something. -/
theorem Follows.claim_accepted_iff {input : ClaimProjection}
    (hid : input.marketId = L.market.marketUuid) (hasset : input.asset = link.asset)
    (hunpaid : Unpaid L input.ownerPubkey) :
    (∃ db', recordClaimEvent deployment db place input = .ok db') ↔ input.amountAtomic ≠ 0 := by
  have hvalid := h.valid
  unfold ProjectorDeployment.Valid at hvalid
  by_cases hamount : input.amountAtomic = 0
  · simp [recordClaimEvent, require, hamount]
  · simp [recordClaimEvent, identity_accepted hunused, require, okOr, hplace, hvalid, hid,
      h.linked, h.same.programId, hasset, hamount, numeric20_toNat, hunused.claim,
      h.claims _ hunpaid]

/-- A close is accepted if the link is terminal. -/
theorem Follows.close_accepted_iff {input : MarketClosedProjection}
    (hid : input.marketId = L.market.marketUuid) (hpda : input.marketPda = L.marketKey)
    (hdocument : input.documentHash = link.documentHash) (hasset : input.asset = link.asset)
    (hstale : link.projectionStale = false) (hstage : L.market.state.stage < 2) :
    (∃ db', recordMarketClosed deployment db place input = .ok db') ↔
      link.chainState ∈ [EscrowChainState.settled, .voided] := by
  have hvalid := h.valid
  unfold ProjectorDeployment.Valid at hvalid
  by_cases hstate : link.chainState = .settled ∨ link.chainState = .voided
  · simp [recordMarketClosed, putMarketClosed, identity_accepted hunused, require, okOr, hplace,
      hvalid, hid, h.linked, h.same.cluster, h.same.genesisHash, h.same.programId,
      h.same.marketPda, hpda, hdocument, hasset, h.same.finalized, hstale, numeric20_toNat,
      hunused.close, h.close hstage, hstate]
  · simp [recordMarketClosed, putMarketClosed, require, okOr, hplace,
      hvalid, hid, h.linked, h.same.cluster, h.same.genesisHash, h.same.programId,
      h.same.marketPda, hpda, hdocument, hasset, h.same.finalized, hstale, h.close hstage, hstate]

end

end

/-! ## the next event -/

/-- The side that an activation or an invalidation needs is found. -/
def FindsSide (deployment : ProjectorDeployment) (state : ProjectorState) : Event → Prop
  | .positionActivated e => HasSide deployment state e.market e.position e.owner
  | .positionInvalidated e => HasSide deployment state e.market e.position e.owner
  | _ => True

/-- What the link must be like for the event to be indexed. -/
def Admits (link : EscrowMarketLinkRow) : Event → Prop
  | .positionPlaced _ | .positionActivated _ | .positionInvalidated _ | .marketSettled _
  | .marketVoided _ => link.projectionStale = false
  | .positionClaimed e => link.projectionStale = false ∧ e.amount ≠ 0 ∧
      link.chainState ∈ [EscrowChainState.settled, .voided]
  | .marketClosed _ => link.projectionStale = false ∧
      link.chainState ∈ [EscrowChainState.settled, .voided]
  | .marketFrozen e => link.projectionStale = false ∧ EpochAllows link.toEscrowMarketLink .frozen e
  | .marketUnfrozen e => link.projectionStale = false ∧ EpochAllows link.toEscrowMarketLink .open e
  | _ => True

/-- The event is projected and recorded. -/
def Indexes (deployment : ProjectorDeployment) (accounts : ChainAccounts) (db : ReadModel)
    (sides : Pubkey → Option PositionSide) (place : ChainPlace) (event : Event) : Prop :=
  ∃ s, indexEvent deployment accounts ⟨db, sides⟩ place (.market event) = .ok s

/-- The link after the event. -/
def linkNext (link : EscrowMarketLinkRow) : Event → EscrowMarketLinkRow
  | .marketSettled e => settledLink link e.outcome
  | .marketVoided _ => settledLink link .void
  | .marketClosed _ => { link with chainState := .closed }
  | _ => link

theorem Follows.indexLinked_iff
    (hlinked : linkedMarket event = some L.marketKey) :
    Indexes deployment accounts db sides place event ↔
      link.projectionStale = false ∧ ∃ result db',
        projectKnown deployment (IndexingState.projector deployment accounts ⟨db, sides⟩)
          link.toEscrowMarketLink event = .ok result ∧
        RecordedAs deployment db place result db' := by
  have hsome : Indexes deployment accounts db sides place event ↔
      ∃ db' sides', indexEvent deployment accounts ⟨db, sides⟩ place (.market event) =
        .ok ⟨db', sides'⟩ := ⟨fun ⟨s, h⟩ => ⟨s.db, s.sides, h⟩, fun ⟨_, _, h⟩ => ⟨_, h⟩⟩
  simp only [hsome, indexEvent_ok_iff, projectProgramEvent, h.projectEvent_eq hlinked]
  by_cases hstale : link.projectionStale = false
  · simp only [hstale, if_true, true_and]
    exact exists_comm
  · simp [hstale]

/-- An event that is resolved to a projection. -/
theorem Follows.indexSome_iff
    (hlinked : linkedMarket event = some L.marketKey)
    (hproject : projectKnown deployment (IndexingState.projector deployment accounts ⟨db, sides⟩)
      link.toEscrowMarketLink event = .ok (some p)) :
    Indexes deployment accounts db sides place event ↔
      link.projectionStale = false ∧ ∃ db', recordProjection deployment db place p = .ok db' := by
  simp [h.indexLinked_iff hlinked, hproject, RecordedAs]

theorem Follows.epoch_admitted {chainState : EscrowChainState}
    {e : EpochChanged} (hlinked : linkedMarket event = some L.marketKey)
    (hevent : projectKnown deployment (IndexingState.projector deployment accounts ⟨db, sides⟩)
      link.toEscrowMarketLink event =
        projectKnown.projectEpoch link.toEscrowMarketLink chainState e) :
    Indexes deployment accounts db sides place event ↔
      link.projectionStale = false ∧ EpochAllows link.toEscrowMarketLink chainState e := by
  rw [h.indexLinked_iff hlinked, hevent, ← isOk_projectEpoch]
  refine and_congr_right fun _ => ⟨fun ⟨result, _, hresult, _⟩ => ⟨result, hresult⟩, ?_⟩
  rintro ⟨result, hresult⟩
  refine ⟨result, db, hresult, ?_⟩
  cases result with
  | none => exact rfl
  | some p =>
      unfold projectKnown.projectEpoch at hresult
      split at hresult
      · simp at hresult
      · split at hresult
        · split at hresult <;> simp at hresult
        · obtain rfl := Option.some.inj (Except.ok.inj hresult)
          exact rfl

theorem Follows.placed_admitted {e : PositionPlaced}
    (hstep : Step rt L (.emitted clock (.positionPlaced e)) L') (hplace : place.Valid)
    (hunused : Unused db place.key) :
    Indexes deployment accounts db sides place (.positionPlaced e) ↔
      link.projectionStale = false := by
  obtain ⟨hmarket, _, hasset, hamount⟩ := hstep.reports
  have hlinked : linkedMarket (.positionPlaced e) = some L.marketKey := congrArg some hmarket
  obtain ⟨hopen, hfresh⟩ := (effect_of_step hstep).fresh_of_placed
  have hlot : db.lots (link.marketId, e.owner, e.nonce) = none := by
    have hiff := h.lots (.inl hopen) e.owner e.nonce
    rw [h.same.marketId]
    simpa [hfresh] using hiff
  rw [h.indexSome_iff hlinked rfl]
  exact and_iff_left_of_imp fun _ => h.placed_accepted hplace hunused h.same.marketId
    (hasset.trans h.same.asset.symm) hamount rfl hlot

/-- The lot that an event moves is in its table, with an amount. -/
theorem Follows.lot_isSome (hlive : L.market.state.Live)
    (hfilled : L.LotsFilled) {market position owner : Pubkey} {nonce amount : UInt64}
    (hreports : ReportsLot rt L market position owner nonce amount) :
    (db.lots (link.marketId, owner, nonce)).isSome ∧ amount ≠ 0 := by
  obtain ⟨_, _, lot, hlot, rfl⟩ := hreports
  refine ⟨?_, hfilled hlot⟩
  rw [h.same.marketId, h.lots hlive, hlot]
  rfl

/-- An event that moves a lot, and needs the side of its position. -/
theorem Follows.moved_admitted (hfilled : L.LotsFilled)
    (hlive : L.market.state.Live) {position owner : Pubkey} {nonce amount : UInt64}
    (hreports : ReportsLot rt L L.marketKey position owner nonce amount) (hplace : place.Valid)
    (hunused : Unused db place.key)
    (hside : HasSide deployment (IndexingState.projector deployment accounts ⟨db, sides⟩)
      L.marketKey position owner)
    (hlinked : linkedMarket event = some L.marketKey) {input : PositionSide → PositionProjection}
    (hproject : projectKnown deployment (IndexingState.projector deployment accounts ⟨db, sides⟩)
      link.toEscrowMarketLink event = (do
        let side ← positionSide deployment
          (IndexingState.projector deployment accounts ⟨db, sides⟩) L.marketKey position owner
        .ok (some (.position (input side)))))
    (hinput : ∀ side, (input side).asset = link.asset ∧ (input side).amountAtomic = amount ∧
      (input side).eventKind ≠ .placed ∧ PositionStateFits (input side) ∧
        LotKey.of (input side) = (link.marketId, owner, nonce)) :
    Indexes deployment accounts db sides place event ↔ link.projectionStale = false := by
  obtain ⟨hlot, hamount⟩ := h.lot_isSome hlive hfilled hreports
  obtain ⟨side, hside⟩ := isOk_positionSide.mpr hside
  obtain ⟨hasset, hsame, hkind, hfits, hkey⟩ := hinput side
  rw [hside, Lib.ok_bind] at hproject
  rw [h.indexSome_iff hlinked hproject]
  exact and_iff_left_of_imp fun _ => h.moved_accepted hplace hunused
    ((congrArg Prod.fst hkey).trans h.same.marketId) hasset (hsame ▸ hamount) hkind hfits
    (hkey ▸ hlot)

theorem Follows.settled_admitted {e : MarketSettled}
    (hstep : Step rt L (.emitted clock (.marketSettled e)) L') (hplace : place.Valid)
    (hunused : Unused db place.key) :
    Indexes deployment accounts db sides place (.marketSettled e) ↔
      link.projectionStale = false := by
  obtain ⟨hmarket, _, houtcome, _, _⟩ := hstep.reports
  have hlinked : linkedMarket (.marketSettled e) = some L.marketKey := congrArg some hmarket
  have hproject : projectKnown deployment
      (IndexingState.projector deployment accounts ⟨db, sides⟩) link.toEscrowMarketLink
      (.marketSettled e) = .ok (some (.settlement
        { marketId := link.marketId, outcome := e.outcome, evidenceHash := e.evidenceHash,
          documentHash := link.documentHash, oracleEpoch := link.oracleEpoch })) := by
    simp [projectKnown, houtcome]
  rw [h.indexSome_iff hlinked hproject]
  exact and_iff_left_of_imp fun _ => h.settlement_accepted hplace hunused h.same.marketId rfl rfl
    houtcome (effect_of_step hstep).stage_of_settled

theorem Follows.voided_admitted {e : MarketVoided}
    (hstep : Step rt L (.emitted clock (.marketVoided e)) L') (hplace : place.Valid)
    (hunused : Unused db place.key) :
    Indexes deployment accounts db sides place (.marketVoided e) ↔
      link.projectionStale = false := by
  have hlinked : linkedMarket (.marketVoided e) = some L.marketKey := congrArg some hstep.reports
  rw [h.indexSome_iff hlinked rfl]
  exact and_iff_left_of_imp fun _ => h.settlement_accepted hplace hunused h.same.marketId rfl rfl
    (by simp) (effect_of_step hstep).stage_of_voided.1

theorem Follows.claimed_admitted {e : PositionClaimed}
    (hstep : Step rt L (.emitted clock (.positionClaimed e)) L') (hplace : place.Valid)
    (hunused : Unused db place.key) :
    Indexes deployment accounts db sides place (.positionClaimed e) ↔
      link.projectionStale = false ∧ e.amount ≠ 0 ∧
        link.chainState ∈ [EscrowChainState.settled, .voided] := by
  obtain ⟨hmarket, hasset⟩ := hstep.reports
  have hlinked : linkedMarket (.positionClaimed e) = some L.marketKey := congrArg some hmarket
  have hasset' : link.asset = e.asset := by rw [hasset, h.same.asset]
  by_cases hstate : link.chainState = .settled ∨ link.chainState = .voided
  · have hproject : projectKnown deployment
        (IndexingState.projector deployment accounts ⟨db, sides⟩) link.toEscrowMarketLink
        (.positionClaimed e) = .ok (some (.claim
          { marketId := link.marketId, ownerPubkey := e.owner,
            destinationPubkey := e.destination, asset := e.asset, amountAtomic := e.amount,
            claimKind := if link.chainState = .voided then .refund else .payout })) := by
      rcases hstate with hstate | hstate <;> simp [projectKnown, hasset', hstate]
    have hunpaid : Unpaid L e.owner := .inr (effect_of_step hstep).unclaimed_of_claimed
    rw [h.indexSome_iff hlinked hproject]
    refine and_congr_right fun _ => ?_
    refine (h.claim_accepted_iff hplace hunused h.same.marketId hasset'.symm hunpaid).trans ?_
    simp [hstate]
  · have hneither := not_or.mp hstate
    rw [h.indexLinked_iff hlinked]
    simp [projectKnown, hasset', hneither]

theorem Follows.closed_admitted {e : MarketClosed}
    (hstep : Step rt L (.emitted clock (.marketClosed e)) L') (hplace : place.Valid)
    (hunused : Unused db place.key) :
    Indexes deployment accounts db sides place (.marketClosed e) ↔ link.projectionStale = false ∧
        link.chainState ∈ [EscrowChainState.settled, .voided] := by
  obtain ⟨hmarket, hasset⟩ := hstep.reports
  have hlinked : linkedMarket (.marketClosed e) = some L.marketKey := congrArg some hmarket
  have hasset' : link.asset = e.asset := by rw [hasset, h.same.asset]
  have hstage : L.market.state.stage < 2 := by
    rw [(effect_of_step hstep).stage_of_closed.1]
    omega
  have hproject : projectKnown deployment
      (IndexingState.projector deployment accounts ⟨db, sides⟩) link.toEscrowMarketLink
      (.marketClosed e) = .ok (some (.marketClosed
        { marketId := link.marketId, marketPda := e.market, documentHash := link.documentHash,
          asset := e.asset, dustAmountAtomic := e.dustAmount })) := by
    simp [projectKnown, hasset']
  rw [h.indexSome_iff hlinked hproject]
  exact and_congr_right fun hstale => h.close_accepted_iff hplace hunused h.same.marketId hmarket
    rfl hasset'.symm hstale hstage

/-- **Which links let the next event of the market be projected and recorded.** -/
theorem Follows.indexEvent_iff (hfilled : L.LotsFilled)
    (hstep : Step rt L (.emitted clock event) L') (hplace : place.Valid)
    (hunused : Unused db place.key)
    (hside : FindsSide deployment (IndexingState.projector deployment accounts ⟨db, sides⟩) event) :
    Indexes deployment accounts db sides place event ↔ Admits link event := by
  have hreports := hstep.reports
  cases event with
  | marketInitialized e => exact absurd hreports id
  | marketSettlementStarted e | positionEntitlementCalculated e | positionLotsClosed e
  | positionClosed e =>
      simp [Indexes, indexEvent, projectProgramEvent, projectEvent, linkedMarket, Admits]
  | marketFrozen e => exact h.epoch_admitted (congrArg some hreports.1) rfl
  | marketUnfrozen e => exact h.epoch_admitted (congrArg some hreports.1) rfl
  | positionPlaced e => exact h.placed_admitted hstep hplace hunused
  | positionActivated e =>
      obtain ⟨hmarket, hreports⟩ := hreports
      exact h.moved_admitted hfilled (effect_of_step hstep).live_of_activated ⟨rfl, hreports⟩ hplace
        hunused (hmarket ▸ hside) (congrArg some hmarket) (by rw [← hmarket]; rfl)
        fun side => ⟨rfl, rfl, by simp, by simp [PositionStateFits], rfl⟩
  | positionInvalidated e =>
      obtain ⟨hmarket, hreports⟩ := hreports
      exact h.moved_admitted hfilled (effect_of_step hstep).live_of_invalidated ⟨rfl, hreports⟩
        hplace hunused (hmarket ▸ hside) (congrArg some hmarket) (by rw [← hmarket]; rfl)
        fun side => ⟨rfl, rfl, by simp, by simp [PositionStateFits], rfl⟩
  | marketSettled e => exact h.settled_admitted hstep hplace hunused
  | marketVoided e => exact h.voided_admitted hstep hplace hunused
  | positionClaimed e => exact h.claimed_admitted hstep hplace hunused
  | marketClosed e => exact h.closed_admitted hstep hplace hunused

/-! ## keeping the tie -/

/-- Writes that leave the rows of the market alone, up to its link. -/
theorem Follows.frame {link' : EscrowMarketLinkRow}
    (hmarkets : db'.markets = db.markets)
    (hpda : db'.linkOfPda L.marketKey = some L.market.marketUuid)
    (hlink : db'.links L.market.marketUuid = some link')
    (hsame : LinkOf deployment L link'.toEscrowMarketLink)
    (hlots : ∀ o n, (db'.lots (L.market.marketUuid, o, n)).isSome ↔
      (db.lots (L.market.marketUuid, o, n)).isSome)
    (hsettlement : db'.settlementOf L.market.marketUuid = db.settlementOf L.market.marketUuid)
    (hclaims : ∀ o, db'.claimOf (L.market.marketUuid, o) = db.claimOf (L.market.marketUuid, o))
    (hclose : db'.closeEvents L.market.marketUuid = db.closeEvents L.market.marketUuid) :
    Follows deployment L db' link' where
  valid := h.valid
  market := by rw [hmarkets]; exact h.market
  pda := hpda
  linked := hlink
  same := hsame
  lots hlive o n := (hlots o n).trans (h.lots hlive o n)
  settlement hstage := hsettlement.trans (h.settlement hstage)
  claims o hunpaid := (hclaims o).trans (h.claims o hunpaid)
  close hstage := hclose.trans (h.close hstage)

end

/-- What the writes for an entry do to the rows of its market. -/
structure RowsStep (L : Ledger) (entry : Entry) (L' : Ledger) (db db' : ReadModel) : Prop where
  markets : db'.markets = db.markets
  pda : db'.linkOfPda L.marketKey = some L.market.marketUuid
  lots : ∀ o n, (db'.lots (L.market.marketUuid, o, n)).isSome ↔
    (db.lots (L.market.marketUuid, o, n)).isSome ∨ entry.places (o, n)
  settlement : db'.settlementOf L.market.marketUuid = db.settlementOf L.market.marketUuid ∨
    0 < L'.market.state.stage
  claims : ∀ o, db'.claimOf (L.market.marketUuid, o) = db.claimOf (L.market.marketUuid, o) ∨
    entry.pays o
  close : db'.closeEvents L.market.marketUuid = db.closeEvents L.market.marketUuid ∨
    L'.market.state.stage = 2

theorem Unpaid.before (heffect : Effect rt L entry L') {owner : Pubkey}
    (h : Unpaid L' owner) : ¬ entry.pays owner ∧ Unpaid L owner := by
  have hstage := heffect.next.stage_le
  rcases h with hlive | ⟨p', hposition, hunclaimed⟩
  · refine ⟨fun hpays => ?_, .inl (by omega)⟩
    have := heffect.stage_of_pays hpays
    omega
  · exact heffect.unpaid hposition hunclaimed

theorem Follows.step (h : Follows deployment L db link) (heffect : Effect rt L entry L')
    (hrows : RowsStep L entry L' db db') {link' : EscrowMarketLinkRow}
    (hlink : db'.links L.market.marketUuid = some link')
    (hsame : LinkOf deployment L link'.toEscrowMarketLink) : Follows deployment L' db' link' := by
  obtain ⟨hkey, huuid, hasset⟩ := heffect.sameMarket
  have hstage := heffect.next.stage_le
  refine ⟨h.valid, ?_, ?_, ?_, ?_, ?_, ?_, ?_, ?_⟩
  · rw [huuid, hrows.markets]
    exact h.market
  · rw [hkey, huuid]
    exact hrows.pda
  · rw [huuid]
    exact hlink
  · exact { hsame with
      marketId := hsame.marketId.trans huuid.symm
      marketPda := hsame.marketPda.trans hkey.symm
      asset := hsame.asset.trans hasset.symm }
  · intro hlive o n
    have hbefore := (heffect.verdict_of_live hlive).1
    rw [huuid, hrows.lots, h.lots hbefore, heffect.lots_isSome_iff hbefore]
  · intro hzero
    rw [huuid]
    rcases hrows.settlement with hkept | hdone
    · exact hkept.trans (h.settlement (by omega))
    · omega
  · intro o hunpaid
    obtain ⟨hpays, hbefore⟩ := hunpaid.before heffect
    rw [huuid]
    rcases hrows.claims o with hkept | hpaid
    · exact hkept.trans (h.claims o hbefore)
    · exact absurd hpaid hpays
  · intro hopen
    rw [huuid]
    rcases hrows.close with hkept | hclosed
    · exact hkept.trans (h.close (by omega))
    · omega

/-- An entry with nothing to record. -/
theorem Follows.skip (h : Follows deployment L db link) (heffect : Effect rt L entry L')
    (hplaces : ∀ key, entry.places key = false) :
    Follows deployment L' db link := by
  refine h.step heffect ⟨rfl, h.pda, ?_, .inl rfl, fun _ => .inl rfl, .inl rfl⟩ h.linked h.same
  simp [hplaces]

theorem Follows.indexLinked_ok (h : Follows deployment L db link)
    (hlinked : linkedMarket event = some L.marketKey)
    (hindex : indexEvent deployment accounts ⟨db, sides⟩ place (.market event) = .ok s) :
    ∃ result, projectKnown deployment (IndexingState.projector deployment accounts ⟨db, sides⟩)
      link.toEscrowMarketLink event = .ok result ∧ RecordedAs deployment db place result s.db := by
  obtain ⟨result, hresult, hrecorded⟩ := indexEvent_ok_iff.mp ⟨s.sides, hindex⟩
  simp only [projectProgramEvent, h.projectEvent_eq hlinked] at hresult
  split at hresult
  · exact ⟨result, hresult, hrecorded⟩
  · simp at hresult

theorem LinkOf.linkAfter (h : LinkOf deployment L link.toEscrowMarketLink)
    (p : EscrowFinalizedProjection) (marketId : Bytes 16) :
    LinkOf deployment L (p.linkAfter marketId link).toEscrowMarketLink := by
  unfold EscrowFinalizedProjection.linkAfter
  split
  · split
    · exact { h with }
    · exact h
  · split
    · exact { h with }
    · exact h
  · exact h

/-- Recording a projection that says of the market what the entry says. -/
theorem Follows.record (h : Follows deployment L db link) (heffect : Effect rt L entry L')
    (hrecord : recordProjection deployment db place p = .ok db')
    (hplaces : ∀ o n, p.places (L.market.marketUuid, o, n) ↔ entry.places (o, n))
    (hsettles : p.settles L.market.marketUuid → 0 < L'.market.state.stage)
    (hpays : ∀ o, p.pays (L.market.marketUuid, o) → entry.pays o)
    (hcloses : p.closes L.market.marketUuid → L'.market.state.stage = 2) :
    Follows deployment L' db' (p.linkAfter L.market.marketUuid link) := by
  have hrows : RowsAfter p L.market.marketUuid L.marketKey db db' := rowsAfter_of_record hrecord
  refine h.step heffect ⟨hrows.markets, hrows.pda h.pda, ?_, hrows.settlement.imp_right hsettles,
    fun o => (hrows.claims o).imp_right (hpays o), hrows.close.imp_right hcloses⟩
    (hrows.link h.linked) (h.same.linkAfter p _)
  intro o n
  rw [hrows.lots o n, hplaces o n]

open EscrowFinalizedProjection

/-- Recording a projection of another market. -/
theorem Follows.other (h : Follows deployment L db link)
    (hrecord : recordProjection deployment db place p = .ok db')
    (hother : p.marketId ≠ L.market.marketUuid) : Follows deployment L db' link := by
  have hrows : RowsAfter p L.market.marketUuid L.marketKey db db' := rowsAfter_of_record hrecord
  obtain ⟨hplaces, hsettles, hpays, hcloses, hlink⟩ :
      (∀ o n, ¬ p.places (L.market.marketUuid, o, n)) ∧ ¬ p.settles L.market.marketUuid ∧
        (∀ o, ¬ p.pays (L.market.marketUuid, o)) ∧ ¬ p.closes L.market.marketUuid ∧
          p.linkAfter L.market.marketUuid link = link := by
    cases p <;> simp_all [places, settles, pays, closes, linkAfter, marketId, LotKey.of]
  refine h.frame hrows.markets (hrows.pda h.pda) (hlink ▸ hrows.link h.linked) h.same ?_
    (hrows.settlement.resolve_right hsettles)
    (fun o => (hrows.claims o).resolve_right (hpays o)) (hrows.close.resolve_right hcloses)
  intro o n
  rw [hrows.lots o n]
  exact or_iff_left (hplaces o n)

/-- A change of the epoch writes nothing. -/
theorem recordedAs_epoch {found : EscrowMarketLink} {chainState : EscrowChainState}
    {e : EpochChanged} {result : Option EscrowFinalizedProjection}
    (hresult : projectKnown.projectEpoch found chainState e = .ok result)
    (hrecorded : RecordedAs deployment db place result db') : db' = db := by
  unfold projectKnown.projectEpoch at hresult
  split at hresult
  · obtain rfl := Except.ok.inj hresult
    exact hrecorded
  · split at hresult
    · split at hresult
      · obtain rfl := Except.ok.inj hresult
        exact hrecorded
      · simp at hresult
    · obtain rfl := Except.ok.inj hresult
      exact (Except.ok.inj hrecorded).symm

/-- An event of the market that is read has a link to be resolved by. -/
theorem linkedMarket_of_reports (h : Reports rt L L' event) :
    linkedMarket event = none ∨ linkedMarket event = some L.marketKey := by
  cases event <;>
    first
    | exact .inl rfl
    | exact .inr (congrArg some h)
    | exact .inr (congrArg some h.1)

/-- **Indexing the next event of the market keeps the tie.** -/
theorem Follows.index (h : Follows deployment L db link)
    (hstep : Step rt L (.emitted clock event) L')
    (hindex : indexEvent deployment accounts ⟨db, sides⟩ place (.market event) = .ok s) :
    Follows deployment L' s.db (linkNext link event) := by
  have hreports := hstep.reports
  have heffect := effect_of_step hstep
  have hid := h.same.marketId
  rcases linkedMarket_of_reports hreports with hnone | hlinked
  · cases event with
    | marketInitialized => exact absurd hreports id
    | marketSettlementStarted | positionEntitlementCalculated | positionLotsClosed
    | positionClosed =>
        have hdb : s.db = db := by
          simp [indexEvent, projectProgramEvent, projectEvent, linkedMarket] at hindex
          simp [← hindex]
        rw [hdb]
        exact h.skip heffect fun _ => rfl
    | _ => simp [linkedMarket] at hnone
  obtain ⟨result, hresult, hrecorded⟩ := h.indexLinked_ok hlinked hindex
  cases event with
  | marketInitialized | marketSettlementStarted | positionEntitlementCalculated
  | positionLotsClosed | positionClosed => simp [linkedMarket] at hlinked
  | marketFrozen | marketUnfrozen =>
      rw [recordedAs_epoch hresult hrecorded]
      exact h.skip heffect fun _ => rfl
  | positionPlaced =>
      obtain rfl := Except.ok.inj hresult
      refine h.record heffect hrecorded ?_ False.elim (fun _ => id) False.elim
      simp [places, Entry.places, LotKey.of, hid]
  | positionActivated | positionInvalidated =>
      simp only [projectKnown, bind_ok_iff, Except.ok.injEq] at hresult
      obtain ⟨side, _, rfl⟩ := hresult
      refine h.record heffect hrecorded ?_ False.elim (fun _ => id) False.elim
      simp [places, Entry.places]
  | marketSettled =>
      obtain ⟨_, _, houtcome, _, hsettled⟩ := hreports
      simp only [projectKnown, houtcome, if_false, Except.ok.injEq] at hresult
      subst hresult
      have hfollows := h.record heffect hrecorded
        (by simp [places, Entry.places])
        (fun _ => by simp [hsettled, MarketState.stage]) (fun _ => id) False.elim
      exact Eq.mp (congrArg (Follows deployment L' s.db) (if_pos hid)) hfollows
  | marketVoided =>
      obtain rfl := Except.ok.inj hresult
      have hfollows := h.record heffect hrecorded
        (by simp [places, Entry.places])
        (fun _ => by simp [heffect.stage_of_voided.2, MarketState.stage]) (fun _ => id) False.elim
      exact Eq.mp (congrArg (Follows deployment L' s.db) (if_pos hid)) hfollows
  | positionClaimed =>
      simp only [projectKnown] at hresult
      split at hresult
      · simp at hresult
      · obtain rfl := Except.ok.inj hresult
        refine h.record heffect hrecorded ?_ False.elim ?_ False.elim
        · simp [places, Entry.places]
        · simp [pays, Entry.pays]
  | marketClosed =>
      simp only [projectKnown] at hresult
      split at hresult
      · simp at hresult
      · obtain rfl := Except.ok.inj hresult
        have hfollows := h.record heffect hrecorded
          (by simp [places, Entry.places]) False.elim (fun _ => id)
          (fun _ => by simp [heffect.stage_of_closed.2, MarketState.stage])
        exact Eq.mp (congrArg (Follows deployment L' s.db) (if_pos hid)) hfollows

end

end CalledIt.Indexer
