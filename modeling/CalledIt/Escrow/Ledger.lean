import CalledIt.Escrow.Replay
import CalledIt.Escrow.Effects

/-!
# CalledIt.Escrow.Ledger

The ledger invariant: three levels of books that always agree.

`WellFormed` holds in every reachable state and ties lots to positions;
`RolledUp` says that lots add up to positions and positions to the market's
totals, and holds until the market is settled or voided (afterwards accounts
are closed one by one).  `ledgerInv_of_life` is the run lemma behind every later
result.
-/

namespace CalledIt.Escrow

open Lib

/-! ## the invariant -/

/-- The amount a lot contributes to one bucket of one owner. -/
def lotWeight (owner : Pubkey) (s : LotState) (key : Pubkey × UInt64) (lot : PositionLot) : Nat :=
  if key.1 = owner ∧ lot.state = s then lot.amount.toNat else 0

/-- The amount a position contributes to one bucket of one side. -/
def sideWeight (s : LotState) (side : PositionSide) (_ : Pubkey) (p : UserPosition) : Nat :=
  if p.side = side then (p.amountIn s).toNat else 0

/-- The sum of an owner's lots of one state. -/
def Ledger.lotTotal (L : Ledger) (owner : Pubkey) (s : LotState) : Nat :=
  L.lots.total (lotWeight owner s)

/-- The number of an owner's lots. -/
def Ledger.lotCount (L : Ledger) (owner : Pubkey) : Nat :=
  (L.lots.keys.filter fun key => key.1 = owner).length

/-- The sum of one bucket over the positions of a side. -/
def Ledger.sideTotal (L : Ledger) (s : LotState) (side : PositionSide) : Nat :=
  L.positions.total (sideWeight s side)

/-- Lots belong to positions, and an owner's nonces have no gaps. -/
structure Ledger.WellFormed (L : Ledger) : Prop where
  version : ∀ {o p}, L.positions.lookup o = some p → p.version ≠ 0
  balanced : ∀ {o p}, L.positions.lookup o = some p → p.Balanced
  lotKey : ∀ {o n lot}, L.lots.lookup (o, n) = some lot → lot.owner = o ∧ lot.nonce = n
  lotOwner : ∀ {o n lot}, L.lots.lookup (o, n) = some lot →
    ∃ p, L.positions.lookup o = some p ∧ lot.side = p.side ∧ n.toNat < p.nextLotNonce.toNat
  nonces : ∀ {o p}, L.positions.lookup o = some p →
    ∀ n : UInt64, n.toNat < p.nextLotNonce.toNat → (L.lots.lookup (o, n)).isSome

/-- Lots add up to positions, positions to the market. -/
structure Ledger.RolledUp (L : Ledger) : Prop where
  amounts : ∀ {o p}, L.positions.lookup o = some p → ∀ s, (p.amountIn s).toNat = L.lotTotal o s
  totals : ∀ s side, s ≠ .voided → (L.market.totalIn s side).toNat = L.sideTotal s side
  count : L.market.positionCount.toNat = L.positions.size

/-- The market has had its terminal transition. -/
def MarketState.Done (state : MarketState) : Prop :=
  state = .settled ∨ state = .voided ∨ state = .closed

structure Ledger.Inv (L : Ledger) : Prop where
  wellFormed : L.WellFormed
  rolledUp : ¬ L.market.state.Done → L.RolledUp

theorem MarketState.Live.not_done {state : MarketState} (h : state.Live) : ¬ state.Done := by
  unfold MarketState.Done
  rcases h with h | h <;> simp [h]

theorem MarketState.Terminal.done {state : MarketState} (h : state.Terminal) : state.Done := by
  rcases h with h | h
  · exact .inl h
  · exact .inr (.inl h)

variable {L : Ledger} {o : Pubkey} {p : UserPosition}

/-- Without gaps, the next nonce counts the lots. -/
theorem Ledger.WellFormed.lotCount (h : L.WellFormed) (hp : L.positions.lookup o = some p) :
    L.lotCount o = p.nextLotNonce.toNat := by
  have hkeys : ∀ k, k ∈ L.lots.keys.filter (fun k => k.1 = o) →
      k.1 = o ∧ ∃ lot, L.lots.lookup k = some lot := by
    intro k hk
    obtain ⟨hmem, ho⟩ := List.mem_filter.mp hk
    exact ⟨of_decide_eq_true ho, Option.isSome_iff_exists.mp (AList.lookup_isSome.mpr hmem)⟩
  have hnodup : ((L.lots.keys.filter fun k => k.1 = o).map fun k => k.2.toNat).Nodup := by
    apply List.Nodup.map_on _ (L.lots.keys_nodup.filter _)
    intro k hk k' hk' heq
    exact Prod.ext ((hkeys k hk).1.trans (hkeys k' hk').1.symm) (UInt64.toNat_inj.mp heq)
  have hset : ((L.lots.keys.filter fun k => k.1 = o).map fun k => k.2.toNat).toFinset =
      Finset.range p.nextLotNonce.toNat := by
    ext n
    rw [List.mem_toFinset, List.mem_map, Finset.mem_range]
    constructor
    · rintro ⟨k, hk, rfl⟩
      obtain ⟨rfl, lot, hlot⟩ := hkeys k hk
      obtain ⟨q, hq, _, hn⟩ := h.lotOwner hlot
      obtain rfl := Option.some.inj (hp.symm.trans hq)
      exact hn
    · intro hn
      have hfit : (UInt64.ofNat n).toNat = n := by
        rw [UInt64.toNat_ofNat']
        exact Nat.mod_eq_of_lt (Nat.lt_trans hn p.nextLotNonce.toNat_lt)
      have hsome := h.nonces hp (UInt64.ofNat n) (by rw [hfit]; exact hn)
      refine ⟨(o, UInt64.ofNat n), List.mem_filter.mpr ⟨?_, decide_eq_true rfl⟩, hfit⟩
      exact AList.lookup_isSome.mp hsome
  have hcard := List.toFinset_card_of_nodup hnodup
  rw [hset, Finset.card_range, List.length_map] at hcard
  exact hcard.symm

/-! ## replacing one position -/

variable {L' : Ledger}

theorem Ledger.WellFormed.of_same (h : L.WellFormed) (hp : L'.positions = L.positions)
    (hl : L'.lots = L.lots) : L'.WellFormed := by
  obtain ⟨hversion, hbalanced, hkey, howner, hnonces⟩ := h
  rw [← hl] at hkey howner hnonces
  rw [← hp] at hversion hbalanced howner hnonces
  exact ⟨hversion, hbalanced, hkey, howner, hnonces⟩

variable {p' : UserPosition}

/-- A lot has its owner's position still, where the one that is put in suits the owner's lots. -/
theorem Ledger.WellFormed.lotOwner_insert (h : L.WellFormed)
    (hp : L'.positions = L.positions.insert o p') {o' : Pubkey} {n : UInt64} {lot : PositionLot}
    (hlot : L.lots.lookup (o', n) = some lot)
    (hsuits : ∀ q, L.positions.lookup o = some q → o' = o → lot.side = q.side →
      n.toNat < q.nextLotNonce.toNat → lot.side = p'.side ∧ n.toNat < p'.nextLotNonce.toNat) :
    ∃ q, L'.positions.lookup o' = some q ∧ lot.side = q.side ∧ n.toNat < q.nextLotNonce.toNat := by
  obtain ⟨q, hq, hs, hn⟩ := h.lotOwner hlot
  by_cases ho : o' = o
  · subst ho
    exact ⟨p', by rw [hp, AList.lookup_insert], hsuits q hq rfl hs hn⟩
  · exact ⟨q, by rw [hp, AList.lookup_insert_ne ho]; exact hq, hs, hn⟩

/-- A position that keeps its side, nonce and balance may be replaced. -/
theorem Ledger.WellFormed.replace (h : L.WellFormed) (hlookup : L.positions.lookup o = some p)
    (hp : L'.positions = L.positions.insert o p') (hl : L'.lots = L.lots)
    (hversion : p'.version = p.version) (hside : p'.side = p.side)
    (hnext : p'.nextLotNonce = p.nextLotNonce) (hbalanced : p'.Balanced) : L'.WellFormed := by
  refine ⟨?_, ?_, ?_, ?_, ?_⟩
  · rw [hp]
    exact Store.forall_insert h.version (hversion ▸ h.version hlookup)
  · rw [hp]
    exact Store.forall_insert h.balanced hbalanced
  · rw [hl]
    exact h.lotKey
  · intro o' n lot hlot
    rw [hl] at hlot
    refine h.lotOwner_insert hp hlot fun q hq _ hs hn => ?_
    obtain rfl := Option.some.inj (hlookup.symm.trans hq)
    exact ⟨hs.trans hside.symm, by rwa [hnext]⟩
  · intro o' q hq n hn
    rw [hl]
    rw [hp] at hq
    rcases Store.lookup_insert_iff.mp hq with ⟨rfl, rfl⟩ | ⟨_, hq⟩
    · rw [hnext] at hn
      exact h.nonces hlookup n hn
    · exact h.nonces hq n hn

theorem Ledger.RolledUp.of_same (h : L.RolledUp) (hp : L'.positions = L.positions)
    (hl : L'.lots = L.lots) (ht : ∀ s side, L'.market.totalIn s side = L.market.totalIn s side)
    (hc : L'.market.positionCount = L.market.positionCount) : L'.RolledUp := by
  obtain ⟨hamounts, htotals, hcount⟩ := h
  refine ⟨?_, ?_, ?_⟩
  · intro o p hlookup s
    rw [hp] at hlookup
    unfold Ledger.lotTotal
    rw [hl]
    exact hamounts hlookup s
  · intro s side hs
    unfold Ledger.sideTotal
    rw [hp, ht]
    exact htotals s side hs
  · rw [hc, hp]
    exact hcount

variable {m' : Market}

theorem Ledger.RolledUp.of_market (h : L.RolledUp)
    (ht : ∀ s side, m'.totalIn s side = L.market.totalIn s side)
    (hc : m'.positionCount = L.market.positionCount) :
    Ledger.RolledUp { L with market := m' } := h.of_same rfl rfl ht hc

/-- A replacement that keeps side and amounts changes no sum. -/
theorem Ledger.RolledUp.replace (h : L.RolledUp) (hlookup : L.positions.lookup o = some p)
    (hp : L'.positions = L.positions.insert o p') (hl : L'.lots = L.lots)
    (ht : ∀ s side, L'.market.totalIn s side = L.market.totalIn s side)
    (hc : L'.market.positionCount = L.market.positionCount) (hside : p'.side = p.side)
    (hamounts : ∀ s, p'.amountIn s = p.amountIn s) : L'.RolledUp := by
  refine ⟨?_, ?_, ?_⟩
  · intro o' q hq s
    unfold Ledger.lotTotal
    rw [hl]
    rw [hp] at hq
    rcases Store.lookup_insert_iff.mp hq with ⟨rfl, rfl⟩ | ⟨_, hq⟩
    · rw [hamounts]
      exact h.amounts hlookup s
    · exact h.amounts hq s
  · intro s side hs
    rw [ht, h.totals s side hs]
    unfold Ledger.sideTotal
    have hsum := Store.total_insert_of_lookup (sideWeight s side) p' hlookup
    have hweight : sideWeight s side o p' = sideWeight s side o p := by
      unfold sideWeight
      rw [hside, hamounts]
    rw [hp]
    omega
  · rw [hc, h.count, hp]
    have hsum := Store.total_insert_of_lookup (fun _ _ => 1) p' hlookup
    unfold Store.size
    omega

/-! ## booking a lot -/

/-- The position a booking starts from: the stored one, or an empty one for an
owner who has none. -/
def Ledger.Stands (L : Ledger) (o : Pubkey) (p : UserPosition) : Prop :=
  L.positions.lookup o = some p ∨
    (L.positions.lookup o = none ∧ (∀ s, p.amountIn s = 0) ∧ p.nextLotNonce = 0)

/-- An owner without a position has no lots. -/
theorem Ledger.WellFormed.lots_of_none (h : L.WellFormed) (hnone : L.positions.lookup o = none)
    (n : UInt64) : L.lots.lookup (o, n) = none := by
  cases hlot : L.lots.lookup (o, n) with
  | none => rfl
  | some lot =>
      obtain ⟨p, hp, _⟩ := h.lotOwner hlot
      rw [hnone] at hp
      contradiction

theorem Ledger.WellFormed.total_of_none (h : L.WellFormed) (hnone : L.positions.lookup o = none)
    {f : Pubkey × UInt64 → PositionLot → Nat}
    (hf : ∀ k lot, k.1 ≠ o → f k lot = 0) : L.lots.total f = 0 := by
  apply Store.total_eq_zero
  intro k lot hk
  apply hf
  rintro rfl
  rw [h.lots_of_none hnone k.2] at hk
  contradiction

theorem Ledger.Stands.amounts (h : L.Stands o p) (hw : L.WellFormed) (hr : L.RolledUp)
    (s : LotState) :
    (p.amountIn s).toNat = L.lotTotal o s := by
  rcases h with h | ⟨hnone, hzero, _⟩
  · exact hr.amounts h s
  · rw [hzero]
    unfold Ledger.lotTotal
    rw [hw.total_of_none hnone]
    · rfl
    · intro k lot hk
      unfold lotWeight
      rw [if_neg]
      exact fun hand => hk hand.1

theorem Ledger.Stands.sideTotal (h : L.Stands o p) (p' : UserPosition) (s : LotState)
    (side : PositionSide) :
    Store.total (sideWeight s side) (L.positions.insert o p') + sideWeight s side o p =
      L.sideTotal s side + sideWeight s side o p' := by
  unfold Ledger.sideTotal
  rcases h with h | ⟨hnone, hzero, _⟩
  · exact Store.total_insert_of_lookup _ p' h
  · rw [Store.total_insert_of_none _ p' hnone]
    have hweight : sideWeight s side o p = 0 := by
      unfold sideWeight
      rw [hzero]
      split <;> rfl
    omega

variable {side : PositionSide}

/-- The books still agree after a lot of `o` is booked on all three levels. -/
theorem Ledger.RolledUp.book (hw : L.WellFormed) (hr : L.RolledUp) {taken added : LotState → Nat}
    (hp : L.Stands o p) (hside : p.side = side)
    (hbook : Rebooked L.market p side taken added L'.market p')
    (hpositions : L'.positions = L.positions.insert o p')
    (hlots : ∀ s, L'.lotTotal o s + taken s = L.lotTotal o s + added s)
    (hothers : ∀ o' s, o' ≠ o → L'.lotTotal o' s = L.lotTotal o' s)
    (hcount : L'.market.positionCount.toNat = L'.positions.size) : L'.RolledUp := by
  refine ⟨?_, ?_, hcount⟩
  · intro o' q hq s
    rw [hpositions] at hq
    rcases Store.lookup_insert_iff.mp hq with ⟨rfl, rfl⟩ | ⟨hne, hq⟩
    · have hpos := hbook.amounts s
      have hlot := hlots s
      have hbefore := hp.amounts hw hr s
      omega
    · rw [hothers o' s hne]
      exact hr.amounts hq s
  · intro s side' hs
    have hsum := hp.sideTotal p' s side'
    have hbefore := hr.totals s side' hs
    have hsame : L'.sideTotal s side' =
        Store.total (sideWeight s side') (L.positions.insert o p') := by
      unfold Ledger.sideTotal
      rw [hpositions]
    have hside' : p'.side = side := hbook.holder.side.trans hside
    unfold sideWeight at hsum
    rw [hside, hside'] at hsum
    by_cases heq : side' = side
    · subst heq
      have hmarket := hbook.totals s hs
      have hpos := hbook.amounts s
      simp only [if_true] at hsum
      unfold sideWeight at hsame
      omega
    · rw [hbook.otherTotals s side' heq, hbefore, hsame]
      rw [if_neg (Ne.symm heq), if_neg (Ne.symm heq)] at hsum
      unfold sideWeight
      omega

theorem schemaVersionV1_ne_zero : schemaVersionV1 ≠ 0 := by decide

variable {rt : Runtime} {clock : Clock} {lot : PositionLot} {vault' : AccountInfo}

/-- Where a placed lot's position comes from. -/
theorem Placed.stands {e : PositionPlaced} (h : Placed rt L clock e p m' p' lot vault')
    (hw : L.WellFormed) :
    L.Stands e.owner p ∧ p.side = e.side ∧ p.version ≠ 0 ∧ p.Balanced := by
  rcases h.base with ⟨hlookup, hversion, hside, _⟩ | ⟨hnew, ⟨bump, slot, rfl⟩, _⟩
  · exact ⟨.inl hlookup, hside, hversion, hw.balanced hlookup⟩
  · have hnone : L.positions.lookup e.owner = none := by
      cases hlookup : L.positions.lookup e.owner with
      | none => rfl
      | some q => exact absurd (hnew q hlookup) (hw.version hlookup)
    refine ⟨.inr ⟨hnone, ?_, rfl⟩, rfl, schemaVersionV1_ne_zero, rfl⟩
    intro s
    cases s <;> rfl

variable {m : Market}

/-- A booking keeps the buckets in balance with what was paid. -/
theorem Rebooked.balanced {taken added : LotState → Nat} (h : Rebooked m p side taken added m' p')
    (hp : p.Balanced)
    (hpaid : p'.totalPaidAmount.toNat + (taken .active + taken .pending + taken .voided) =
      p.totalPaidAmount.toNat + (added .active + added .pending + added .voided)) :
    p'.Balanced := by
  have ha := h.amounts .active
  have hb := h.amounts .pending
  have hc := h.amounts .voided
  unfold UserPosition.Balanced at hp ⊢
  simp only [UserPosition.amountIn] at ha hb hc
  omega

theorem inBucket_sum (s : LotState) (a : Nat) :
    inBucket s a .active + inBucket s a .pending + inBucket s a .voided = a := by
  cases s <;> simp [inBucket]

theorem Placed.wellFormed {e : PositionPlaced} (h : Placed rt L clock e p m' p' lot vault')
    (hw : L.WellFormed) (hp : L'.positions = L.positions.insert e.owner p')
    (hl : L'.lots = L.lots.insert (e.owner, e.nonce) lot) : L'.WellFormed := by
  obtain ⟨hstands, hside, hversion, hbalanced⟩ := h.stands hw
  have hnonce : e.nonce.toNat = p.nextLotNonce.toNat := by rw [h.nonce]
  have hside' : p'.side = e.side := h.booked.holder.side.trans hside
  have hstored : L'.positions.lookup e.owner = some p' := by rw [hp, AList.lookup_insert]
  refine ⟨?_, ?_, ?_, ?_, ?_⟩
  · rw [hp]
    exact Store.forall_insert hw.version (h.booked.holder.version ▸ hversion)
  · rw [hp]
    refine Store.forall_insert hw.balanced (h.booked.balanced hbalanced ?_)
    have hsum := inBucket_sum lot.state e.amount.toNat
    have hpaid := h.paid
    omega
  · intro o n q hq
    rw [hl] at hq
    rcases Store.lookup_insert_iff.mp hq with ⟨hkey, rfl⟩ | ⟨_, hq⟩
    · obtain ⟨rfl, rfl⟩ := Prod.mk.inj hkey
      exact h.lotKey
    · exact hw.lotKey hq
  · intro o n q hq
    rw [hl] at hq
    have hnext := h.next
    rcases Store.lookup_insert_iff.mp hq with ⟨hkey, rfl⟩ | ⟨_, hq⟩
    · obtain ⟨rfl, rfl⟩ := Prod.mk.inj hkey
      exact ⟨p', hstored, h.lotSide.trans hside'.symm, by omega⟩
    · refine hw.lotOwner_insert hp hq fun r hr _ hs hn => ?_
      rcases hstands with hlookup | ⟨hnone, _⟩
      · obtain rfl := Option.some.inj (hlookup.symm.trans hr)
        exact ⟨hs.trans (hside.trans hside'.symm), by omega⟩
      · rw [hnone] at hr
        contradiction
  · intro o q hq n hn
    rw [hl]
    by_cases hkey : (o, n) = (e.owner, e.nonce)
    · rw [hkey, AList.lookup_insert]
      rfl
    · rw [AList.lookup_insert_ne hkey]
      rw [hp] at hq
      rcases Store.lookup_insert_iff.mp hq with ⟨rfl, rfl⟩ | ⟨_, hq⟩
      · have hne : n.toNat ≠ e.nonce.toNat := by
          intro heq
          exact hkey (by rw [UInt64.toNat_inj.mp heq])
        have hnext := h.next
        rcases hstands with hlookup | ⟨_, _, hzero⟩
        · exact hw.nonces hlookup n (by omega)
        · rw [hzero] at hnonce hnext
          have hz : (0 : UInt64).toNat = 0 := rfl
          omega
      · exact hw.nonces hq n hn

variable {lot' : PositionLot}

/-- A lot may change its state and evidence in place. -/
theorem Ledger.WellFormed.replaceLot (h : L.WellFormed) {key : Pubkey × UInt64}
    (hlookup : L.lots.lookup key = some lot) (hp : L'.positions = L.positions)
    (hl : L'.lots = L.lots.insert key lot') (hside : lot'.side = lot.side)
    (hkey : lot'.owner = lot.owner ∧ lot'.nonce = lot.nonce) :
    L'.WellFormed := by
  obtain ⟨hversion, hbalanced, hkeys, howner, hnonces⟩ := h
  rw [← hp] at hversion hbalanced howner hnonces
  refine ⟨hversion, hbalanced, ?_, ?_, ?_⟩
  · intro o n q hq
    rw [hl] at hq
    rcases Store.lookup_insert_iff.mp hq with ⟨rfl, rfl⟩ | ⟨_, hq⟩
    · rw [hkey.1, hkey.2]
      exact hkeys hlookup
    · exact hkeys hq
  · intro o n q hq
    rw [hl] at hq
    rcases Store.lookup_insert_iff.mp hq with ⟨rfl, rfl⟩ | ⟨_, hq⟩
    · rw [hside]
      exact howner hlookup
    · exact howner hq
  · intro o q hq n hn
    rw [hl]
    by_cases hkey : (o, n) = key
    · subst hkey
      rw [AList.lookup_insert]
      rfl
    · rw [AList.lookup_insert_ne hkey]
      exact hnonces hq n hn

variable {n : UInt64}

theorem Moved.wellFormed {target : LotState} (h : Moved L o n p lot target m' p')
    (hw : L.WellFormed) (hp : L'.positions = L.positions.insert o p')
    (hl : L'.lots = L.lots.insert (o, n) lot') (hside : lot'.side = lot.side)
    (hkey : lot'.owner = lot.owner ∧ lot'.nonce = lot.nonce) :
    L'.WellFormed := by
  have hbalanced : p'.Balanced := by
    apply h.booked.balanced (hw.balanced h.position)
    rw [inBucket_sum, inBucket_sum, h.paid]
  -- first the position, then the lot
  have hmid : Ledger.WellFormed { L with positions := L.positions.insert o p' } :=
    hw.replace h.position rfl rfl h.booked.holder.version h.booked.holder.side h.next hbalanced
  exact hmid.replaceLot h.stored hp hl hside hkey

theorem lotWeight_self (o : Pubkey) (n : UInt64) (lot : PositionLot) (s : LotState) :
    lotWeight o s (o, n) lot = inBucket lot.state lot.amount.toNat s := by
  unfold lotWeight inBucket
  simp only [true_and, eq_comm]

theorem lotWeight_of_ne {o' : Pubkey} (h : o' ≠ o) (n : UInt64) (lot : PositionLot)
    (s : LotState) : lotWeight o' s (o, n) lot = 0 := by
  unfold lotWeight
  rw [if_neg]
  exact fun hand => h hand.1.symm

theorem Placed.rolledUp {e : PositionPlaced} (h : Placed rt L clock e p m' p' lot vault')
    (hw : L.WellFormed) (hr : L.RolledUp) (hm : L'.market = m')
    (hp : L'.positions = L.positions.insert e.owner p')
    (hl : L'.lots = L.lots.insert (e.owner, e.nonce) lot) : L'.RolledUp := by
  obtain ⟨hstands, hside, _, _⟩ := h.stands hw
  have hsum : ∀ o s, L'.lotTotal o s = lotWeight o s (e.owner, e.nonce) lot + L.lotTotal o s := by
    intro o s
    unfold Ledger.lotTotal
    rw [hl]
    exact Store.total_insert_of_none _ lot h.freshLot
  subst hm
  apply Ledger.RolledUp.book hw hr hstands hside h.booked hp
  · intro s
    rw [hsum, lotWeight_self, h.lotAmount]
    omega
  · intro o s hne
    rw [hsum, lotWeight_of_ne hne, Nat.zero_add]
  · have hcount := hr.count
    rw [hp]
    unfold Store.size at hcount ⊢
    rcases h.base with ⟨hlookup, _, _, _, _, hsame⟩ | ⟨hnew, _, hnext⟩
    · have hsize := Store.total_insert_of_lookup (fun _ _ => 1) p' hlookup
      rw [hsame]
      omega
    · have hnone : L.positions.lookup e.owner = none := by
        cases hlookup : L.positions.lookup e.owner with
        | none => rfl
        | some q => exact absurd (hnew q hlookup) (hw.version hlookup)
      have hsize := Store.total_insert_of_none (fun _ _ => 1) p' hnone
      omega

theorem Moved.rolledUp {target : LotState} (h : Moved L o n p lot target m' p') (hw : L.WellFormed)
    (hr : L.RolledUp) (hm : L'.market = m') (hp : L'.positions = L.positions.insert o p')
    (hl : L'.lots = L.lots.insert (o, n) lot') (hstate : lot'.state = target)
    (hamount : lot'.amount = lot.amount) : L'.RolledUp := by
  have hsum : ∀ o' s, L'.lotTotal o' s + lotWeight o' s (o, n) lot =
      L.lotTotal o' s + lotWeight o' s (o, n) lot' := by
    intro o' s
    unfold Ledger.lotTotal
    rw [hl]
    exact Store.total_insert_of_lookup _ lot' h.stored
  have hside : p.side = lot.side := by
    obtain ⟨q, hq, hs, _⟩ := hw.lotOwner h.stored
    obtain rfl := Option.some.inj (h.position.symm.trans hq)
    exact hs.symm
  subst hm
  apply Ledger.RolledUp.book hw hr (.inl h.position) hside h.booked hp
  · intro s
    have hs := hsum o s
    rw [lotWeight_self, lotWeight_self, hstate, hamount] at hs
    exact hs
  · intro o' s hne
    have hs := hsum o' s
    rw [lotWeight_of_ne hne, lotWeight_of_ne hne] at hs
    exact hs
  · have hcount := hr.count
    have hsize := Store.total_insert_of_lookup (fun _ _ => 1) p' h.position
    rw [hp, h.count]
    unfold Store.size at hcount ⊢
    omega

/-! ## closing accounts -/

theorem LotsClosed.wellFormed {e : PositionLotsClosed} {lots' : Store (Pubkey × UInt64) PositionLot}
    (h : LotsClosed L e p p' lots') (hw : L.WellFormed)
    (hp : L'.positions = L.positions.insert e.owner p') (hl : L'.lots = lots') : L'.WellFormed := by
  obtain ⟨_, hlookup, _, hholder, hcount, _, hlots⟩ := h
  simp only [UInt64.le_iff_toNat_le, UInt64.lt_iff_toNat_lt] at hlots
  have hversion : p'.version = p.version := by rw [hholder]
  have hbalanced : p'.Balanced := by
    have hbefore := hw.balanced hlookup
    rw [hholder]
    exact hbefore
  refine ⟨?_, ?_, ?_, ?_, ?_⟩
  · rw [hp]
    exact Store.forall_insert hw.version (hversion ▸ hw.version hlookup)
  · rw [hp]
    exact Store.forall_insert hw.balanced hbalanced
  · intro o n lot hlot
    rw [hl, hlots] at hlot
    split at hlot
    · contradiction
    · exact hw.lotKey hlot
  · intro o n lot hlot
    rw [hl, hlots] at hlot
    split at hlot
    · contradiction
    · next hkept =>
      refine hw.lotOwner_insert hp hlot fun q hq ho hs hn => ?_
      obtain rfl := Option.some.inj (hlookup.symm.trans hq)
      refine ⟨by rw [hs, hholder], ?_⟩
      by_contra hge
      exact hkept ⟨ho, by simpa using hge, hn⟩
  · intro o q hq n hn
    rw [hl, hlots]
    rw [hp] at hq
    rcases Store.lookup_insert_iff.mp hq with ⟨rfl, rfl⟩ | ⟨hne, hq⟩
    · rw [if_neg (fun hand => absurd hand.2.1 (by simpa using hn))]
      exact hw.nonces hlookup n (by omega)
    · rw [if_neg (fun hand => hne hand.1)]
      exact hw.nonces hq n hn

/-- A position without lots may go. -/
theorem Ledger.WellFormed.erase (h : L.WellFormed) (hlookup : L.positions.lookup o = some p)
    (hnext : p.nextLotNonce = 0) (hp : L'.positions = L.positions.erase o)
    (hl : L'.lots = L.lots) : L'.WellFormed := by
  have hkept : ∀ {o' q}, L'.positions.lookup o' = some q → L.positions.lookup o' = some q := by
    intro o' q hq
    rw [hp] at hq
    exact (Store.lookup_erase_iff.mp hq).2
  refine ⟨fun hq => h.version (hkept hq), fun hq => h.balanced (hkept hq), ?_, ?_, ?_⟩
  · intro o' n lot hlot
    rw [hl] at hlot
    exact h.lotKey hlot
  · intro o' n lot hlot
    rw [hl] at hlot
    obtain ⟨q, hq, hs, hn⟩ := h.lotOwner hlot
    by_cases ho : o' = o
    · subst ho
      obtain rfl := Option.some.inj (hlookup.symm.trans hq)
      rw [hnext] at hn
      exact absurd hn (Nat.not_lt_zero _)
    · exact ⟨q, by rw [hp, AList.lookup_erase_ne ho]; exact hq, hs, hn⟩
  · intro o' q hq n hn
    rw [hl]
    exact h.nonces (hkept hq) n hn

/-! ## along a run -/

/-- What `beginSettlement` leaves alone. -/
theorem beginSettlement_keeps {outcome : SettlementOutcome} {hash : Bytes 32}
    (h : beginSettlement m outcome hash = .ok m') :
    (∀ s side, m'.totalIn s side = m.totalIn s side) ∧ m'.positionCount = m.positionCount := by
  obtain ⟨_, _, pots, _, rfl⟩ := beginSettlement_ok_iff.mp h
  refine ⟨?_, rfl⟩
  intro s side
  cases s <;> cases side <;> rfl

variable {winner : PositionSide} {slot : UInt64}

theorem Entitled.keeps (h : Entitled m p winner slot m' p') :
    (∀ s side, m'.totalIn s side = m.totalIn s side) ∧ m'.positionCount = m.positionCount := by
  rw [h.market]
  refine ⟨?_, rfl⟩
  intro s side
  cases s <;> cases side <;> rfl

/-- An entitlement changes neither the side nor the buckets of a position. -/
theorem Entitled.sameBuckets (h : Entitled m p winner slot m' p') :
    p'.version = p.version ∧ p'.side = p.side ∧ p'.nextLotNonce = p.nextLotNonce ∧
      p'.totalPaidAmount = p.totalPaidAmount ∧ ∀ s, p'.amountIn s = p.amountIn s := by
  rw [h.position]
  refine ⟨rfl, rfl, rfl, rfl, ?_⟩
  intro s
  cases s <;> rfl

theorem UserPosition.Balanced.of_same (h : p.Balanced)
    (hpaid : p'.totalPaidAmount = p.totalPaidAmount) (hs : ∀ s, p'.amountIn s = p.amountIn s) :
    p'.Balanced := by
  have ha := hs .active
  have hb := hs .pending
  have hc := hs .voided
  simp only [UserPosition.amountIn] at ha hb hc
  unfold UserPosition.Balanced at h ⊢
  rw [ha, hb, hc, hpaid]
  exact h

theorem Entitled.rolledUp (h : Entitled L.market p winner slot m' p')
    (hlookup : L.positions.lookup o = some p) (hr : L.RolledUp) :
    Ledger.RolledUp { L with market := m', positions := L.positions.insert o p' } := by
  obtain ⟨htotals, hcount⟩ := h.keeps
  obtain ⟨_, hside, _, _, hamounts⟩ := h.sameBuckets
  exact hr.replace hlookup rfl rfl htotals hcount hside hamounts

/-- **Every effect keeps the ledger invariant.** -/
theorem Effect.inv {entry : Entry} (h : Effect rt L entry L') (hinv : L.Inv) : L'.Inv := by
  obtain ⟨hw, hr⟩ := hinv
  cases h with
  | froze opens =>
      have hlive : L.market.state.Live := .inl opens
      refine ⟨hw.of_same rfl rfl, fun _ => (hr hlive.not_done).of_same rfl rfl ?_ rfl⟩
      intro s side
      cases s <;> cases side <;> rfl
  | unfroze frozen =>
      have hlive : L.market.state.Live := .inr frozen
      refine ⟨hw.of_same rfl rfl, fun _ => (hr hlive.not_done).of_same rfl rfl ?_ rfl⟩
      intro s side
      cases s <;> cases side <;> rfl
  | placed h =>
      have hlive : L.market.state.Live := .inl h.opens
      exact ⟨h.wellFormed hw rfl rfl, fun _ => h.rolledUp hw (hr hlive.not_done) rfl rfl rfl⟩
  | activated h =>
      exact ⟨h.wellFormed hw rfl rfl rfl ⟨rfl, rfl⟩,
        fun _ => h.rolledUp hw (hr h.live.not_done) rfl rfl rfl rfl rfl⟩
  | invalidated h =>
      exact ⟨h.wellFormed hw rfl rfl rfl ⟨rfl, rfl⟩,
        fun _ => h.rolledUp hw (hr h.live.not_done) rfl rfl rfl rfl rfl⟩
  | began begins =>
      obtain ⟨htotals, hcount⟩ := beginSettlement_keeps begins
      have hlive := (beginSettlement_ok_iff.mp begins).2.1
      exact ⟨hw.of_same rfl rfl, fun _ => (hr hlive.not_done).of_same rfl rfl htotals hcount⟩
  | entitled position h =>
      obtain ⟨hversion, hside, hnext, hpaid, hamounts⟩ := h.sameBuckets
      have hbalanced := h.balanced.of_same hpaid hamounts
      have hnot : ¬ L.market.state.Done := by simp [MarketState.Done, h.settling]
      exact ⟨hw.replace position rfl rfl hversion hside hnext hbalanced,
        fun _ => h.rolledUp position (hr hnot)⟩
  | voided voids =>
      obtain ⟨_, rfl⟩ := transitionToVoid_ok_iff.mp voids
      exact ⟨hw.of_same rfl rfl, fun hnot => absurd (.inr (.inl rfl)) hnot⟩
  | claimed h =>
      have hdone : L.market.state.Done := (terminal_of_claimAmount h.amount).done
      have hbalanced := hw.balanced h.position
      refine ⟨hw.replace h.position rfl rfl rfl rfl rfl hbalanced, ?_⟩
      intro hnot
      rw [h.market] at hnot
      exact absurd hdone hnot
  | lotsClosed h =>
      exact ⟨h.wellFormed hw rfl rfl, fun hnot => absurd h.terminal.done hnot⟩
  | positionClosed terminal position claimed noLots =>
      exact ⟨hw.erase position noLots rfl rfl, fun hnot => absurd terminal.done hnot⟩
  | closed => exact ⟨hw.of_same rfl rfl, fun hnot => absurd (.inr (.inr rfl)) hnot⟩
  | received =>
      exact ⟨hw.of_same rfl rfl, fun hnot => (hr hnot).of_same rfl rfl (fun _ _ => rfl) rfl⟩

theorem Fresh.inv (h : Fresh rt L) : L.Inv := by
  have hpositions : ∀ o, L.positions.lookup o = none := by
    intro o
    rw [h.positions]
    exact AList.lookup_empty o
  have hlots : ∀ k, L.lots.lookup k = none := by
    intro k
    rw [h.lots]
    exact AList.lookup_empty k
  refine ⟨⟨?_, ?_, ?_, ?_, ?_⟩, fun _ => ⟨?_, ?_, ?_⟩⟩
  · intro o p hp
    simp [hpositions] at hp
  · intro o p hp
    simp [hpositions] at hp
  · intro o n lot hlot
    simp [hlots] at hlot
  · intro o n lot hlot
    simp [hlots] at hlot
  · intro o p hp
    simp [hpositions] at hp
  · intro o p hp
    simp [hpositions] at hp
  · intro s side _
    rw [h.totals]
    unfold Ledger.sideTotal
    rw [h.positions]
    rfl
  · rw [h.positionCount, h.positions]
    rfl

/-- The ledger invariant holds throughout the life of a market. -/
theorem ledgerInv_of_life {opening : Ledger} {trace : List Entry}
    (h : Life rt opening trace L) : L.Inv :=
  h.run.invariant (fun hs hi => (effect_of_step hs).inv hi) (fresh_of_opened h.opened).inv

/-! ## the books of a live market -/

/-- A stored lot is covered by its position's bucket and by the market's total. -/
theorem Ledger.lot_covered (hw : L.WellFormed) (hr : L.RolledUp)
    (hp : L.positions.lookup o = some p) (hlot : L.lots.lookup (o, n) = some lot)
    (hs : lot.state ≠ .voided) :
    lot.amount.toNat ≤ (p.amountIn lot.state).toNat ∧
      lot.amount.toNat ≤ (L.market.totalIn lot.state lot.side).toNat := by
  obtain ⟨q, hq, hside, _⟩ := hw.lotOwner hlot
  obtain rfl := Option.some.inj (hp.symm.trans hq)
  have hweight : lotWeight o lot.state (o, n) lot = lot.amount.toNat := by
    rw [lotWeight_self, inBucket, if_pos rfl]
  have hposition : lot.amount.toNat ≤ (p.amountIn lot.state).toNat := by
    have hle := Store.le_total (lotWeight o lot.state) hlot
    rw [hr.amounts hp lot.state]
    unfold Ledger.lotTotal
    omega
  have hmarket : (p.amountIn lot.state).toNat ≤ (L.market.totalIn lot.state lot.side).toNat := by
    have hle := Store.le_total (sideWeight lot.state lot.side) hp
    rw [hr.totals lot.state lot.side hs]
    unfold Ledger.sideTotal
    rw [sideWeight, if_pos hside.symm] at hle
    exact hle
  exact ⟨hposition, Nat.le_trans hposition hmarket⟩

variable {e : ProgramError}

theorem subOrInvariant_ne_error {a b : UInt64} (h : b.toNat ≤ a.toNat) :
    subOrInvariant a b ≠ .error e := by
  unfold subOrInvariant
  rw [ne_eq, okOr_error_iff, checkedSub_eq_none]
  omega

theorem addOrOverflow_error {a b : UInt64}
    (h : addOrOverflow a b = .error e) : e = EscrowError.arithmeticOverflow := by
  unfold addOrOverflow at h
  rw [okOr_error_iff] at h
  exact h.2.symm

/-- With enough in the pending bucket, only an addition can fail. -/
theorem movePendingToActive_error {amount : UInt64} (hp : amount.toNat ≤ p.pendingAmount.toNat)
    (hm : amount.toNat ≤ (m.pendingTotal side).toNat)
    (h : movePendingToActive m p side amount slot = .error e) :
    e = EscrowError.arithmeticOverflow := by
  unfold movePendingToActive at h
  simp only [bind_error_iff, subOrInvariant_ne_error hp, subOrInvariant_ne_error hm, false_or,
    pure_ne_error, and_false, exists_const, or_false] at h
  rcases h with ⟨_, _, h | ⟨_, _, _, _, h⟩⟩
  · exact addOrOverflow_error h
  · exact addOrOverflow_error h

/-- With enough in the lot's bucket, only an addition can fail. -/
theorem makeLotRefundable_error {amount : UInt64} {state : LotState} (hs : state ≠ .voided)
    (hp : amount.toNat ≤ (p.amountIn state).toNat)
    (hm : amount.toNat ≤ (m.totalIn state side).toNat)
    (h : makeLotRefundable m p side amount state slot = .error e) :
    e = EscrowError.arithmeticOverflow := by
  have hout : ∀ e, takeOutOf m p side amount state ≠ .error e := by
    intro e
    cases state with
    | pending =>
        have hp : amount.toNat ≤ p.pendingAmount.toNat := hp
        have hm : amount.toNat ≤ (m.pendingTotal side).toNat := hm
        simp only [takeOutOf, ne_eq, bind_error_iff, subOrInvariant_ne_error hp,
          subOrInvariant_ne_error hm, pure_ne_error, and_false, exists_const, or_false,
          not_false_eq_true]
    | active =>
        have hp : amount.toNat ≤ p.activeAmount.toNat := hp
        have hm : amount.toNat ≤ (m.activeTotal side).toNat := hm
        simp only [takeOutOf, ne_eq, bind_error_iff, subOrInvariant_ne_error hp,
          subOrInvariant_ne_error hm, pure_ne_error, and_false, exists_const, or_false,
          not_false_eq_true]
    | voided => exact absurd rfl hs
  unfold makeLotRefundable at h
  simp only [bind_error_iff, hout, false_or, pure_ne_error, and_false, exists_const,
    or_false] at h
  obtain ⟨_, _, h⟩ := h
  exact addOrOverflow_error h

/-- **The books of a live market agree on every level**, so no subtraction of a
stored lot's amount can fail. -/
theorem live_books_agree {rt : Runtime} {opening L : Ledger} {trace : List Entry}
    (h : Life rt opening trace L) (hlive : L.market.state.Live) :
    (∀ side, (L.market.activeTotal side).toNat = L.sideTotal .active side ∧
      (L.market.pendingTotal side).toNat = L.sideTotal .pending side) ∧
    (∀ o p, L.positions.lookup o = some p →
      p.activeAmount.toNat = L.lotTotal o .active ∧
      p.pendingAmount.toNat = L.lotTotal o .pending ∧
      p.refundableAmount.toNat = L.lotTotal o .voided ∧
      p.activeAmount.toNat + p.pendingAmount.toNat + p.refundableAmount.toNat =
        p.totalPaidAmount.toNat ∧
      p.nextLotNonce.toNat = L.lotCount o ∧
      ∀ n, (L.lots.lookup (o, n)).isSome ↔ n < p.nextLotNonce) ∧
    (∀ o n lot, L.lots.lookup (o, n) = some lot → lot.owner = o ∧ lot.nonce = n ∧
      ∃ p, L.positions.lookup o = some p ∧ lot.side = p.side) ∧
    L.market.positionCount.toNat = L.positions.size ∧
    (∀ o p n lot slot, L.positions.lookup o = some p → L.lots.lookup (o, n) = some lot →
      (lot.state = .pending → movePendingToActive L.market p lot.side lot.amount slot ≠
        .error EscrowError.accountingInvariant) ∧
      (lot.state ≠ .voided → makeLotRefundable L.market p lot.side lot.amount lot.state slot ≠
        .error EscrowError.accountingInvariant)) := by
  obtain ⟨hw, hr⟩ := ledgerInv_of_life h
  have hr := hr hlive.not_done
  refine ⟨?_, ?_, ?_, hr.count, ?_⟩
  · intro side
    exact ⟨hr.totals .active side (by decide), hr.totals .pending side (by decide)⟩
  · intro o p hp
    refine ⟨hr.amounts hp .active, hr.amounts hp .pending, hr.amounts hp .voided, hw.balanced hp,
      (hw.lotCount hp).symm, ?_⟩
    intro n
    rw [UInt64.lt_iff_toNat_lt]
    constructor
    · intro hsome
      obtain ⟨lot, hlot⟩ := Option.isSome_iff_exists.mp hsome
      obtain ⟨q, hq, _, hn⟩ := hw.lotOwner hlot
      obtain rfl := Option.some.inj (hp.symm.trans hq)
      exact hn
    · exact hw.nonces hp n
  · intro o n lot hlot
    obtain ⟨howner, hnonce⟩ := hw.lotKey hlot
    obtain ⟨p, hp, hside, _⟩ := hw.lotOwner hlot
    exact ⟨howner, hnonce, p, hp, hside⟩
  · intro o p n lot slot hp hlot
    constructor
    · intro hs herror
      obtain ⟨hposition, hmarket⟩ := Ledger.lot_covered hw hr hp hlot (by simp [hs])
      rw [hs] at hposition hmarket
      have := movePendingToActive_error hposition hmarket herror
      contradiction
    · intro hs herror
      obtain ⟨hposition, hmarket⟩ := Ledger.lot_covered hw hr hp hlot hs
      have := makeLotRefundable_error hs hposition hmarket herror
      contradiction

/-- The books of the sample once it holds an active and a pending lot. -/
theorem live_books_agree_sample :
    ∃ opening trace L, Life Sample.runtime opening trace L ∧ L.market.state.Live ∧
      L.market.positionCount.toNat = 2 ∧ L.positions.size = 2 ∧
      L.market.pendingDoubtTotal.toNat = 2000000 ∧ L.sideTotal .pending .doubt = 2000000 := by
  obtain ⟨opening, trace, L, hlife, hlive, hcount, hpending⟩ := Sample.exists_life
    (P := fun _ L => L.market.state.Live ∧ L.market.positionCount = 2 ∧
      L.market.pendingDoubtTotal = 2000000) 2 (by decide +kernel)
  obtain ⟨htotals, _, _, hsize, _⟩ := live_books_agree hlife hlive
  have hside := (htotals .doubt).2
  change L.market.pendingDoubtTotal.toNat = _ at hside
  rw [hcount] at hsize
  rw [hpending] at hside
  exact ⟨opening, trace, L, hlife, hlive, by rw [hcount]; rfl, hsize.symm, by rw [hpending]; rfl,
    hside.symm⟩

end CalledIt.Escrow
