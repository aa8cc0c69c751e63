import CalledIt.Indexer.ReadModel

/-!
# CalledIt.Indexer.Recorded

What a recorder does to the rows of a market.

A projection can place a lot, settle, pay or close one market, and change that market's link
accordingly; `rowsAfter_of_record` says that a recorder changes nothing else.  The rows of a
market are therefore only written by the projections of its own events.
-/

namespace CalledIt.Indexer

open Lib Escrow

namespace EscrowFinalizedProjection

def marketId : EscrowFinalizedProjection → Bytes 16
  | .market value => value.marketId
  | .position value => value.marketId
  | .settlement value => value.marketId
  | .claim value => value.marketId
  | .marketClosed value => value.marketId
  | .marketState value => value.marketId

def places (p : EscrowFinalizedProjection) (key : LotKey) : Prop :=
  match p with
  | .position value => value.eventKind = .placed ∧ LotKey.of value = key
  | _ => False

def settles (p : EscrowFinalizedProjection) (marketId : Bytes 16) : Prop :=
  match p with
  | .settlement value => value.marketId = marketId
  | _ => False

def pays (p : EscrowFinalizedProjection) (key : Bytes 16 × Pubkey) : Prop :=
  match p with
  | .claim value => (value.marketId, value.ownerPubkey) = key
  | _ => False

def closes (p : EscrowFinalizedProjection) (marketId : Bytes 16) : Prop :=
  match p with
  | .marketClosed value => value.marketId = marketId
  | _ => False

/-- The link of a market after the projection. -/
def linkAfter (p : EscrowFinalizedProjection) (marketId : Bytes 16) (link : EscrowMarketLinkRow) :
    EscrowMarketLinkRow :=
  match p with
  | .settlement value => if value.marketId = marketId then settledLink link value.outcome else link
  | .marketClosed value =>
      if value.marketId = marketId then { link with chainState := .closed } else link
  | _ => link

end EscrowFinalizedProjection

open EscrowFinalizedProjection

/-- What a recorder does to the rows of a market. -/
structure RowsAfter (p : EscrowFinalizedProjection) (marketId : Bytes 16) (marketPda : Pubkey)
    (db db' : ReadModel) : Prop where
  markets : db'.markets = db.markets
  pda : db.linkOfPda marketPda = some marketId → db'.linkOfPda marketPda = some marketId
  link : ∀ {link}, db.links marketId = some link →
    db'.links marketId = some (p.linkAfter marketId link)
  lots : ∀ o n, (db'.lots (marketId, o, n)).isSome ↔
    (db.lots (marketId, o, n)).isSome ∨ p.places (marketId, o, n)
  settlement : db'.settlementOf marketId = db.settlementOf marketId ∨ p.settles marketId
  claims : ∀ o, db'.claimOf (marketId, o) = db.claimOf (marketId, o) ∨ p.pays (marketId, o)
  close : db'.closeEvents marketId = db.closeEvents marketId ∨ p.closes marketId

variable {input : PositionProjection}

section

variable {deployment : ProjectorDeployment} {db db' : ReadModel} {place : ChainPlace}
  {marketId : Bytes 16} {marketPda : Pubkey}

theorem assertChainIdentity_ok {identity : ChainIdentity}
    (h : assertChainIdentity db place identity = .ok db') :
    db' = { db with identities := Function.update db.identities place.key (some identity) } := by
  simp only [assertChainIdentity, bind_ok_iff, require_ok_iff, pure_ok_iff] at h
  obtain ⟨_, _, rfl⟩ := h
  rfl

theorem rowsAfter_of_market {input : MarketProjection}
    (h : upsertMarketLink deployment db place input = .ok db') :
    RowsAfter (.market input) marketId marketPda db db' := by
  simp only [upsertMarketLink, bind_ok_iff, require_ok_iff] at h
  obtain ⟨_, _, h⟩ := h
  split at h
  · obtain rfl := pure_ok_iff.mp h
    exact ⟨rfl, id, id, fun _ _ => by simp [places], .inl rfl, fun _ => .inl rfl, .inl rfl⟩
  · simp only [bind_ok_iff, require_ok_iff] at h
    obtain ⟨_, _, _, _, mid, hmid, _, _, h⟩ := h
    obtain rfl := assertChainIdentity_ok hmid
    simp only [putMarketLink] at h
    split at h
    · simp only [bind_ok_iff, require_ok_iff, pure_ok_iff] at h
      obtain ⟨_, _, rfl⟩ := h
      exact ⟨rfl, id, id, fun _ _ => by simp [places], .inl rfl, fun _ => .inl rfl, .inl rfl⟩
    · next hnone =>
      simp only [bind_ok_iff, require_ok_iff, pure_ok_iff] at h
      obtain ⟨_, ⟨hpda, _⟩, rfl⟩ := h
      refine ⟨rfl, ?_, ?_, fun _ _ => by simp [places], .inl rfl,
        fun _ => .inl rfl, .inl rfl⟩
      · intro hsome
        have hne : marketPda ≠ (newMarketLink deployment place input).marketPda := by
          rintro rfl
          simp [hpda] at hsome
        simpa [Function.update_of_ne hne] using hsome
      · intro link hlink
        have hne : marketId ≠ (newMarketLink deployment place input).marketId := by
          rintro rfl
          simp [hnone] at hlink
        simpa [Function.update_of_ne hne, linkAfter] using hlink

theorem lots_of_putPositionLot (h : putPositionLot db place input = .ok db') (key : LotKey) :
    (db'.lots key).isSome ↔ (db.lots key).isSome ∨
      (input.eventKind = .placed ∧ LotKey.of input = key) := by
  simp only [putPositionLot] at h
  split at h
  · next existing hlot hkind =>
    simp only [bind_ok_iff, require_ok_iff, pure_ok_iff] at h
    obtain ⟨_, _, rfl⟩ := h
    refine ⟨.inl, ?_⟩
    rintro (hsome | ⟨_, rfl⟩)
    · exact hsome
    · simp [hlot]
  · next hlot hkind =>
    obtain rfl := pure_ok_iff.mp h
    by_cases hkey : LotKey.of input = key
    · simp [← hkey, hkind]
    · simp [Function.update_of_ne (Ne.symm hkey), hkey]
  · contradiction
  · next existing _ hlot hkind =>
    obtain rfl := pure_ok_iff.mp h
    by_cases hkey : LotKey.of input = key
    · simp [← hkey, hlot]
    · simp [Function.update_of_ne (Ne.symm hkey), hkey]

/-- The end of `escrow_index_position_event` writes lots only. -/
theorem putPositionLot_ok
    (h : putPositionLot db place input = .ok db') : ∃ lots, db' = { db with lots } := by
  simp only [putPositionLot] at h
  split at h
  · simp only [bind_ok_iff, require_ok_iff, pure_ok_iff] at h
    obtain ⟨_, _, rfl⟩ := h
    exact ⟨_, rfl⟩
  · exact ⟨_, (pure_ok_iff.mp h).symm⟩
  · contradiction
  · exact ⟨_, (pure_ok_iff.mp h).symm⟩

theorem rowsAfter_of_position (h : recordPositionEvent deployment db place input = .ok db') :
    RowsAfter (.position input) marketId marketPda db db' := by
  simp only [recordPositionEvent, bind_ok_iff, require_ok_iff, okOr_ok_iff] at h
  obtain ⟨_, _, link, _, _, _, _, _, mid, hmid, _, _, last, hlast, hlot⟩ := h
  obtain rfl := assertChainIdentity_ok hmid
  simp only [putPositionEvent, bind_ok_iff, require_ok_iff, pure_ok_iff] at hlast
  obtain ⟨_, _, rfl⟩ := hlast
  have hlots := lots_of_putPositionLot hlot
  obtain ⟨lots, rfl⟩ := putPositionLot_ok hlot
  exact ⟨rfl, id, id, fun o n => hlots (marketId, o, n), .inl rfl, fun _ => .inl rfl, .inl rfl⟩

theorem rowsAfter_of_settlement {input : SettlementProjection}
    (h : recordSettlementEvent deployment db place input = .ok db') :
    RowsAfter (.settlement input) marketId marketPda db db' := by
  simp only [recordSettlementEvent, bind_ok_iff, require_ok_iff, okOr_ok_iff, pure_ok_iff] at h
  obtain ⟨_, _, link, hlink, _, _, _, _, _, _, mid, hmid, _, _, rfl⟩ := h
  obtain rfl := assertChainIdentity_ok hmid
  have hput : ∀ db : ReadModel, ∃ events settlementOf,
      putSettlementEvent deployment db place input =
        { db with settlementEvents := events, settlementOf } ∧
      ∀ id ≠ input.marketId, settlementOf id = db.settlementOf id := by
    intro db
    unfold putSettlementEvent
    split
    · exact ⟨_, _, rfl, fun _ _ => rfl⟩
    · exact ⟨_, _, rfl, fun id hid => Function.update_of_ne hid _ _⟩
  obtain ⟨events, settlementOf, hput, hsame⟩ := hput
    { db with identities := Function.update db.identities place.key _ }
  rw [hput]
  refine ⟨rfl, id, ?_, fun _ _ => by simp [places], ?_,
    fun _ => .inl rfl, .inl rfl⟩
  · intro link' hlink'
    by_cases hid : input.marketId = marketId
    · subst hid
      obtain rfl := Option.some.inj (hlink.symm.trans hlink')
      simp [linkAfter]
    · simpa [linkAfter, hid, Function.update_of_ne (Ne.symm hid)] using hlink'
  · by_cases hid : input.marketId = marketId
    · exact .inr hid
    · exact .inl (hsame marketId (Ne.symm hid))

theorem rowsAfter_of_claim {input : ClaimProjection}
    (h : recordClaimEvent deployment db place input = .ok db') :
    RowsAfter (.claim input) marketId marketPda db db' := by
  simp only [recordClaimEvent, bind_ok_iff, require_ok_iff, okOr_ok_iff, pure_ok_iff] at h
  obtain ⟨_, _, link, _, _, _, _, _, _, _, mid, hmid, _, _, rfl⟩ := h
  obtain rfl := assertChainIdentity_ok hmid
  unfold putClaimEvent
  split
  · exact ⟨rfl, id, id, fun _ _ => by simp [places], .inl rfl,
      fun _ => .inl rfl, .inl rfl⟩
  · refine ⟨rfl, id, id, fun _ _ => by simp [places], .inl rfl, ?_,
      .inl rfl⟩
    intro o
    by_cases hkey : (input.marketId, input.ownerPubkey) = (marketId, o)
    · exact .inr hkey
    · exact .inl (Function.update_of_ne (Ne.symm hkey) _ _)

theorem rowsAfter_of_marketClosed {input : MarketClosedProjection}
    (h : recordMarketClosed deployment db place input = .ok db') :
    RowsAfter (.marketClosed input) marketId marketPda db db' := by
  simp only [recordMarketClosed, putMarketClosed, bind_ok_iff, require_ok_iff, okOr_ok_iff] at h
  obtain ⟨_, _, link, hlink, _, _, _, _, _, _, _, _, h⟩ := h
  split at h
  · simp only [bind_ok_iff, require_ok_iff, pure_ok_iff] at h
    obtain ⟨_, _, _, hclosed, rfl⟩ := h
    refine ⟨rfl, id, ?_, fun _ _ => by simp [places], .inl rfl,
      fun _ => .inl rfl, .inl rfl⟩
    intro link' hlink'
    by_cases hid : input.marketId = marketId
    · subst hid
      obtain rfl := Option.some.inj (hlink.symm.trans hlink')
      simp [linkAfter, hlink', ← hclosed]
    · simpa [linkAfter, hid] using hlink'
  · simp only [bind_ok_iff, require_ok_iff, pure_ok_iff] at h
    obtain ⟨_, _, mid, hmid, _, _, _, _, rfl⟩ := h
    obtain rfl := assertChainIdentity_ok hmid
    refine ⟨rfl, id, ?_, fun _ _ => by simp [places], .inl rfl,
      fun _ => .inl rfl, ?_⟩
    · intro link' hlink'
      by_cases hid : input.marketId = marketId
      · subst hid
        obtain rfl := Option.some.inj (hlink.symm.trans hlink')
        simp [linkAfter]
      · simpa [linkAfter, hid, Function.update_of_ne (Ne.symm hid)] using hlink'
    · by_cases hid : input.marketId = marketId
      · exact .inr hid
      · exact .inl (Function.update_of_ne (Ne.symm hid) _ _)

/-- **A recorder writes the rows of the market of its projection, as the projection says.** -/
theorem rowsAfter_of_record {p : EscrowFinalizedProjection}
    (h : recordProjection deployment db place p = .ok db') :
    RowsAfter p marketId marketPda db db' := by
  cases p with
  | market input => exact rowsAfter_of_market h
  | position input => exact rowsAfter_of_position h
  | settlement input => exact rowsAfter_of_settlement h
  | claim input => exact rowsAfter_of_claim h
  | marketClosed input => exact rowsAfter_of_marketClosed h
  | marketState input =>
      obtain rfl := Except.ok.inj h
      exact ⟨rfl, id, id, fun _ _ => by simp [places], .inl rfl, fun _ => .inl rfl, .inl rfl⟩

end

end CalledIt.Indexer
