import CalledIt.Escrow.Market

/-!
# CalledIt.Escrow.Position

Placing, activating and invalidating position lots (`instructions/position.rs`).

A lot's amount is booked three times: in the lot, in its owner's aggregate
position and in the market's totals.  `applyPositionDeposit`,
`movePendingToActive` and `makeLotRefundable` update the last two by hand.
-/

namespace CalledIt.Escrow

open Lib

structure PlacePositionArgs where
  marketUuid : Bytes 16
  side : PositionSide
  amount : UInt64
  expectedAsset : Asset
  expectedRatioMilli : UInt32
  expectedMarketDocumentHash : Bytes 32
  expectedEventEpoch : UInt64
  expectedLotNonce : UInt64
  clientIntentHash : Bytes 32
  clientExpiryTimestamp : Int64

structure PlacePositionAccounts where
  config : ProtocolConfig
  owner : AccountInfo
  /-- The address supplied as the vault. -/
  vault : Pubkey
  assetSource : AccountInfo
  tokenMint : AccountInfo

structure ActivatePositionLotArgs where
  nonce : UInt64
  expectedEventEpoch : UInt64

structure InvalidatePositionLotArgs where
  nonce : UInt64
  evidenceHash : Bytes 32
  invalidatedEventEpoch : UInt64
  decidingSequence : UInt64
  issuedAt : Int64
  expiresAt : Int64

/-! ## market totals by side -/

namespace Market

def activeTotal (market : Market) : PositionSide → UInt64
  | .back => market.activeBackTotal
  | .doubt => market.activeDoubtTotal

def pendingTotal (market : Market) : PositionSide → UInt64
  | .back => market.pendingBackTotal
  | .doubt => market.pendingDoubtTotal

/-- A write through `active_total_mut`. -/
def setActiveTotal (market : Market) (side : PositionSide) (total : UInt64) : Market :=
  match side with
  | .back => { market with activeBackTotal := total }
  | .doubt => { market with activeDoubtTotal := total }

/-- A write through `pending_total_mut`. -/
def setPendingTotal (market : Market) (side : PositionSide) (total : UInt64) : Market :=
  match side with
  | .back => { market with pendingBackTotal := total }
  | .doubt => { market with pendingDoubtTotal := total }

end Market

/-! ## booking -/

/-- `checked_add` of the module. -/
def addOrOverflow (left right : UInt64) : Result UInt64 :=
  okOr (checkedAdd left right) EscrowError.arithmeticOverflow

/-- `checked_sub` of the module. -/
def subOrInvariant (left right : UInt64) : Result UInt64 :=
  okOr (checkedSub left right) EscrowError.accountingInvariant

/-- The deposit's bucket and the market total behind it. -/
def depositInto (market : Market) (position : UserPosition) (side : PositionSide)
    (amount : UInt64) (pending : Bool) : Result (Market × UserPosition) :=
  if pending then do
    let pendingAmount ← addOrOverflow position.pendingAmount amount
    let total ← addOrOverflow (market.pendingTotal side) amount
    return (market.setPendingTotal side total, { position with pendingAmount })
  else do
    let activeAmount ← addOrOverflow position.activeAmount amount
    let total ← addOrOverflow (market.activeTotal side) amount
    return (market.setActiveTotal side total, { position with activeAmount })

def applyPositionDeposit (market : Market) (position : UserPosition) (side : PositionSide)
    (amount : UInt64) (pending isNewPosition : Bool) (slot : UInt64) :
    Result (Market × UserPosition) := do
  let (market, position) ← depositInto market position side amount pending
  let totalPaidAmount ← addOrOverflow position.totalPaidAmount amount
  let nextLotNonce ← addOrOverflow position.nextLotNonce 1
  let position := { position with totalPaidAmount, nextLotNonce, updatedSlot := slot }
  if isNewPosition then
    let positionCount ← addOrOverflow market.positionCount 1
    return ({ market with positionCount }, position)
  else
    return (market, position)

def movePendingToActive (market : Market) (position : UserPosition) (side : PositionSide)
    (amount slot : UInt64) : Result (Market × UserPosition) := do
  let pendingAmount ← subOrInvariant position.pendingAmount amount
  let activeAmount ← addOrOverflow position.activeAmount amount
  let pending ← subOrInvariant (market.pendingTotal side) amount
  let active ← addOrOverflow (market.activeTotal side) amount
  return ((market.setPendingTotal side pending).setActiveTotal side active,
    { position with pendingAmount, activeAmount, updatedSlot := slot })

/-- Take an amount out of the bucket of a live lot. -/
def takeOutOf (market : Market) (position : UserPosition) (side : PositionSide)
    (amount : UInt64) (state : LotState) : Result (Market × UserPosition) :=
  match state with
  | .pending => do
      let pendingAmount ← subOrInvariant position.pendingAmount amount
      let pending ← subOrInvariant (market.pendingTotal side) amount
      return (market.setPendingTotal side pending, { position with pendingAmount })
  | .active => do
      let activeAmount ← subOrInvariant position.activeAmount amount
      let active ← subOrInvariant (market.activeTotal side) amount
      return (market.setActiveTotal side active, { position with activeAmount })
  | .voided => .error EscrowError.invalidLotState

def makeLotRefundable (market : Market) (position : UserPosition) (side : PositionSide)
    (amount : UInt64) (state : LotState) (slot : UInt64) : Result (Market × UserPosition) := do
  let (market, position) ← takeOutOf market position side amount state
  let refundableAmount ← addOrOverflow position.refundableAmount amount
  return (market, { position with refundableAmount, updatedSlot := slot })

/-! ## what a booking does

The states of a lot name the three buckets of a position, and two of them the
totals of a market.  A booking takes an amount out of some bucket and adds it to
another, on all levels alike. -/

/-- The bucket of a position that holds its lots of one state. -/
def UserPosition.amountIn (position : UserPosition) : LotState → UInt64
  | .pending => position.pendingAmount
  | .active => position.activeAmount
  | .voided => position.refundableAmount

/-- The market's total of a bucket; refundable amounts have none. -/
def Market.totalIn (market : Market) (state : LotState) (side : PositionSide) : UInt64 :=
  match state with
  | .pending => market.pendingTotal side
  | .active => market.activeTotal side
  | .voided => 0

/-- An amount in one bucket and nothing in the others. -/
def inBucket (state : LotState) (amount : Nat) (other : LotState) : Nat :=
  if other = state then amount else 0

/-- Only the running totals and the number of positions may differ. -/
def Market.SameTerms (m m' : Market) : Prop :=
  m' = { m with
    activeBackTotal := m'.activeBackTotal
    activeDoubtTotal := m'.activeDoubtTotal
    pendingBackTotal := m'.pendingBackTotal
    pendingDoubtTotal := m'.pendingDoubtTotal
    positionCount := m'.positionCount }

namespace Market.SameTerms

variable {m m' : Market}

section

variable (h : m.SameTerms m')

include h

theorem state : m'.state = m.state := by
  unfold SameTerms at h
  rw [h]

theorem asset : m'.asset = m.asset := by
  unfold SameTerms at h
  rw [h]

theorem inPlayStartTimestamp :
    m'.inPlayStartTimestamp = m.inPlayStartTimestamp := by
  unfold SameTerms at h
  rw [h]

theorem activationDelaySeconds :
    m'.activationDelaySeconds = m.activationDelaySeconds := by
  unfold SameTerms at h
  rw [h]

theorem eventEpoch : m'.eventEpoch = m.eventEpoch := by
  unfold SameTerms at h
  rw [h]

theorem claimedPositionCount :
    m'.claimedPositionCount = m.claimedPositionCount := by
  unfold SameTerms at h
  rw [h]

end

end Market.SameTerms

/-- Only the amounts, the nonce and the slot of the update may differ. -/
def UserPosition.SameHolder (p p' : UserPosition) : Prop :=
  p' = { p with
    activeAmount := p'.activeAmount
    pendingAmount := p'.pendingAmount
    refundableAmount := p'.refundableAmount
    totalPaidAmount := p'.totalPaidAmount
    nextLotNonce := p'.nextLotNonce
    updatedSlot := p'.updatedSlot }

namespace UserPosition.SameHolder

variable {p p' : UserPosition}

section

variable (h : p.SameHolder p')

include h

theorem version : p'.version = p.version := by
  unfold SameHolder at h
  rw [h]

theorem owner : p'.owner = p.owner := by
  unfold SameHolder at h
  rw [h]

theorem side : p'.side = p.side := by
  unfold SameHolder at h
  rw [h]

theorem settlementProcessed :
    p'.settlementProcessed = p.settlementProcessed := by
  unfold SameHolder at h
  rw [h]

theorem claimed : p'.claimed = p.claimed := by
  unfold SameHolder at h
  rw [h]

end

end UserPosition.SameHolder

/-- A booking on `side`: what it takes from and adds to each bucket. -/
structure Rebooked (m : Market) (p : UserPosition) (side : PositionSide)
    (taken added : LotState → Nat) (m' : Market) (p' : UserPosition) : Prop where
  amounts : ∀ s, (p'.amountIn s).toNat + taken s = (p.amountIn s).toNat + added s
  totals : ∀ s, s ≠ .voided →
    (m'.totalIn s side).toNat + taken s = (m.totalIn s side).toNat + added s
  otherTotals : ∀ s side', side' ≠ side → m'.totalIn s side' = m.totalIn s side'
  terms : m.SameTerms m'
  holder : p.SameHolder p'

@[simp] theorem Market.totalIn_setPendingTotal (m : Market) (side side' : PositionSide)
    (v : UInt64) (s : LotState) :
    (m.setPendingTotal side v).totalIn s side' =
      if s = .pending ∧ side' = side then v else m.totalIn s side' := by
  cases s <;> cases side <;> cases side' <;> rfl

@[simp] theorem Market.totalIn_setActiveTotal (m : Market) (side side' : PositionSide)
    (v : UInt64) (s : LotState) :
    (m.setActiveTotal side v).totalIn s side' =
      if s = .active ∧ side' = side then v else m.totalIn s side' := by
  cases s <;> cases side <;> cases side' <;> rfl

theorem Market.sameTerms_setPendingTotal (m : Market) (side : PositionSide) (v : UInt64) :
    m.SameTerms (m.setPendingTotal side v) := by
  cases side <;> rfl

theorem Market.sameTerms_setActiveTotal (m : Market) (side : PositionSide) (v : UInt64) :
    m.SameTerms (m.setActiveTotal side v) := by
  cases side <;> rfl

@[simp] theorem Market.positionCount_setPendingTotal (m : Market) (side : PositionSide)
    (v : UInt64) : (m.setPendingTotal side v).positionCount = m.positionCount := by
  cases side <;> rfl

@[simp] theorem Market.positionCount_setActiveTotal (m : Market) (side : PositionSide)
    (v : UInt64) : (m.setActiveTotal side v).positionCount = m.positionCount := by
  cases side <;> rfl

theorem Market.SameTerms.trans {m m' m'' : Market} (h : m.SameTerms m') (h' : m'.SameTerms m'') :
    m.SameTerms m'' := by
  unfold Market.SameTerms at h h' ⊢
  rw [h', h]

variable {side : PositionSide} {a : UInt64} {added : Nat}

/-- Booking the pending bucket. -/
theorem Rebooked.pending {m : Market} {p : UserPosition} {t : UInt64} {taken : Nat}
    (ha : a.toNat + taken = p.pendingAmount.toNat + added)
    (ht : t.toNat + taken = (m.pendingTotal side).toNat + added) :
    Rebooked m p side (inBucket .pending taken) (inBucket .pending added)
      (m.setPendingTotal side t) { p with pendingAmount := a } := by
  refine ⟨?_, ?_, ?_, m.sameTerms_setPendingTotal side t, rfl⟩
  · intro s
    cases s <;> simp [UserPosition.amountIn, inBucket, ha]
  · intro s hs
    rw [Market.totalIn_setPendingTotal]
    by_cases hp : s = .pending
    · subst hp
      simpa [inBucket, Market.totalIn] using ht
    · simp [inBucket, hp]
  · intro s side' hne
    simp [hne]

/-- Booking the active bucket. -/
theorem Rebooked.active {m : Market} {p : UserPosition} {t : UInt64} {taken : Nat}
    (ha : a.toNat + taken = p.activeAmount.toNat + added)
    (ht : t.toNat + taken = (m.activeTotal side).toNat + added) :
    Rebooked m p side (inBucket .active taken) (inBucket .active added)
      (m.setActiveTotal side t) { p with activeAmount := a } := by
  refine ⟨?_, ?_, ?_, m.sameTerms_setActiveTotal side t, rfl⟩
  · intro s
    cases s <;> simp [UserPosition.amountIn, inBucket, ha]
  · intro s hs
    rw [Market.totalIn_setActiveTotal]
    by_cases hp : s = .active
    · subst hp
      simpa [inBucket, Market.totalIn] using ht
    · simp [inBucket, hp]
  · intro s side' hne
    simp [hne]

/-- Booking the refundable bucket, which no market total mirrors. -/
theorem Rebooked.refundable (m : Market) {p : UserPosition} (side : PositionSide)
    (ha : a.toNat = p.refundableAmount.toNat + added) :
    Rebooked m p side (fun _ => 0) (inBucket .voided added) m { p with refundableAmount := a } := by
  refine ⟨?_, ?_, fun _ _ _ => rfl, rfl, rfl⟩
  · intro s
    cases s <;> simp [UserPosition.amountIn, inBucket, ha]
  · intro s hs
    simp [inBucket, hs]

/-- Bookings on one side compose. -/
theorem Rebooked.trans {m m' m'' : Market} {p p' p'' : UserPosition}
    {taken added taken' added' : LotState → Nat} (h : Rebooked m p side taken added m' p')
    (h' : Rebooked m' p' side taken' added' m'' p'') :
    Rebooked m p side (fun s => taken s + taken' s) (fun s => added s + added' s) m'' p'' := by
  refine ⟨?_, ?_, ?_, h.terms.trans h'.terms, ?_⟩
  · intro s
    have h1 := h.amounts s
    have h2 := h'.amounts s
    omega
  · intro s hs
    have h1 := h.totals s hs
    have h2 := h'.totals s hs
    omega
  · intro s side' hne
    rw [h'.otherTotals s side' hne, h.otherTotals s side' hne]
  · have h1 := h.holder
    have h2 := h'.holder
    unfold UserPosition.SameHolder at h1 h2 ⊢
    rw [h2, h1]

/-- The remaining writes of a booking touch no bucket. -/
theorem Rebooked.stamp {m m' : Market} {p p' : UserPosition} {taken added : LotState → Nat}
    (h : Rebooked m p side taken added m' p') (paid next slot count : UInt64) :
    Rebooked m p side taken added { m' with positionCount := count }
      { p' with totalPaidAmount := paid, nextLotNonce := next, updatedSlot := slot } := by
  refine ⟨?_, h.totals, h.otherTotals, ?_, ?_⟩
  · intro s
    have hs := h.amounts s
    cases s <;> exact hs
  · have ht := h.terms
    unfold Market.SameTerms at ht ⊢
    rw [ht]
  · have hh := h.holder
    unfold UserPosition.SameHolder at hh ⊢
    rw [hh]

@[simp] theorem inBucket_zero (s : LotState) : inBucket s 0 = fun _ => 0 := by
  funext t
  simp [inBucket]

variable {amount : UInt64}

theorem depositInto_ok {m m' : Market} {p p' : UserPosition} {pending : Bool}
    (h : depositInto m p side amount pending = .ok (m', p')) :
    Rebooked m p side (fun _ => 0)
      (inBucket (if pending then .pending else .active) amount.toNat) m' p' ∧
    p'.totalPaidAmount = p.totalPaidAmount ∧ p'.nextLotNonce = p.nextLotNonce ∧
    m'.positionCount = m.positionCount := by
  unfold depositInto at h
  cases pending with
  | true =>
      simp only [if_true, bind_ok_iff, addOrOverflow, okOr_ok_iff, checkedAdd_eq_some, pure_ok_iff,
        Prod.mk.injEq] at h
      obtain ⟨a, ha, t, ht, rfl, rfl⟩ := h
      have hbooked : Rebooked m p side (inBucket .pending 0) (inBucket .pending amount.toNat) _ _ :=
        Rebooked.pending ha.symm ht.symm
      rw [inBucket_zero] at hbooked
      exact ⟨hbooked, rfl, rfl, m.positionCount_setPendingTotal side t⟩
  | false =>
      simp only [Bool.false_eq_true, if_false, bind_ok_iff, addOrOverflow, okOr_ok_iff,
        checkedAdd_eq_some, pure_ok_iff, Prod.mk.injEq] at h
      obtain ⟨a, ha, t, ht, rfl, rfl⟩ := h
      have hbooked : Rebooked m p side (inBucket .active 0) (inBucket .active amount.toNat) _ _ :=
        Rebooked.active ha.symm ht.symm
      rw [inBucket_zero] at hbooked
      exact ⟨hbooked, rfl, rfl, m.positionCount_setActiveTotal side t⟩

variable {slot : UInt64}

theorem applyPositionDeposit_ok {m m' : Market} {p p' : UserPosition} {pending isNew : Bool}
    (h : applyPositionDeposit m p side amount pending isNew slot = .ok (m', p')) :
    Rebooked m p side (fun _ => 0)
      (inBucket (if pending then .pending else .active) amount.toNat) m' p' ∧
    p'.totalPaidAmount.toNat = p.totalPaidAmount.toNat + amount.toNat ∧
    p'.nextLotNonce.toNat = p.nextLotNonce.toNat + 1 ∧
    m'.positionCount.toNat = m.positionCount.toNat + if isNew then 1 else 0 := by
  unfold applyPositionDeposit at h
  simp only [bind_ok_iff, Prod.exists, addOrOverflow, okOr_ok_iff, checkedAdd_eq_some] at h
  obtain ⟨m₁, p₁, h₁, paid, hpaid, next, hnext, hlast⟩ := h
  obtain ⟨hbooked, hp₁, hn₁, hc₁⟩ := depositInto_ok h₁
  rw [hp₁] at hpaid
  rw [hn₁] at hnext
  cases isNew with
  | true =>
      simp only [if_true, bind_ok_iff, okOr_ok_iff, checkedAdd_eq_some, pure_ok_iff,
        Prod.mk.injEq] at hlast
      obtain ⟨count, hcount, rfl, rfl⟩ := hlast
      rw [hc₁] at hcount
      exact ⟨hbooked.stamp paid next slot count, hpaid.symm, hnext.symm, hcount.symm⟩
  | false =>
      simp only [Bool.false_eq_true, if_false, pure_ok_iff, Prod.mk.injEq] at hlast
      obtain ⟨rfl, rfl⟩ := hlast
      exact ⟨hbooked.stamp paid next slot m₁.positionCount, hpaid.symm, hnext.symm,
        congrArg UInt64.toNat hc₁⟩

@[simp] theorem Market.activeTotal_setPendingTotal (m : Market) (side side' : PositionSide)
    (v : UInt64) : (m.setPendingTotal side v).activeTotal side' = m.activeTotal side' := by
  cases side <;> rfl

theorem movePendingToActive_ok {m m' : Market} {p p' : UserPosition}
    (h : movePendingToActive m p side amount slot = .ok (m', p')) :
    Rebooked m p side (inBucket .pending amount.toNat) (inBucket .active amount.toNat) m' p' ∧
    p'.totalPaidAmount = p.totalPaidAmount ∧ p'.nextLotNonce = p.nextLotNonce ∧
    m'.positionCount = m.positionCount := by
  unfold movePendingToActive at h
  simp only [bind_ok_iff, addOrOverflow, subOrInvariant, okOr_ok_iff, checkedAdd_eq_some,
    checkedSub_eq_some, pure_ok_iff, Prod.mk.injEq] at h
  obtain ⟨pa, hpa, aa, haa, pt, hpt, at', hat, rfl, rfl⟩ := h
  have hout : Rebooked m p side (inBucket .pending amount.toNat) (inBucket .pending 0) _ _ :=
    Rebooked.pending hpa hpt
  have hin : Rebooked (m.setPendingTotal side pt) { p with pendingAmount := pa } side
      (inBucket .active 0) (inBucket .active amount.toNat) _ _ :=
    Rebooked.active haa.symm (by rw [Market.activeTotal_setPendingTotal]; exact hat.symm)
  have hboth := (hout.trans hin).stamp p.totalPaidAmount p.nextLotNonce slot m.positionCount
  simp only [inBucket_zero, Nat.add_zero, Nat.zero_add] at hboth
  refine ⟨?_, rfl, rfl, by simp⟩
  have hcount : ((m.setPendingTotal side pt).setActiveTotal side at').positionCount =
      m.positionCount := by simp
  rw [← hcount] at hboth
  exact hboth

theorem takeOutOf_ok {m m' : Market} {p p' : UserPosition} {state : LotState}
    (h : takeOutOf m p side amount state = .ok (m', p')) :
    Rebooked m p side (inBucket state amount.toNat) (fun _ => 0) m' p' ∧ state ≠ .voided ∧
    p'.totalPaidAmount = p.totalPaidAmount ∧ p'.nextLotNonce = p.nextLotNonce ∧
    m'.positionCount = m.positionCount := by
  unfold takeOutOf at h
  cases state with
  | pending =>
      simp only [bind_ok_iff, subOrInvariant, okOr_ok_iff, checkedSub_eq_some, pure_ok_iff,
        Prod.mk.injEq] at h
      obtain ⟨a, ha, t, ht, rfl, rfl⟩ := h
      have hbooked : Rebooked m p side (inBucket .pending amount.toNat) (inBucket .pending 0) _ _ :=
        Rebooked.pending ha ht
      rw [inBucket_zero] at hbooked
      exact ⟨hbooked, by decide, rfl, rfl, m.positionCount_setPendingTotal side t⟩
  | active =>
      simp only [bind_ok_iff, subOrInvariant, okOr_ok_iff, checkedSub_eq_some, pure_ok_iff,
        Prod.mk.injEq] at h
      obtain ⟨a, ha, t, ht, rfl, rfl⟩ := h
      have hbooked : Rebooked m p side (inBucket .active amount.toNat) (inBucket .active 0) _ _ :=
        Rebooked.active ha ht
      rw [inBucket_zero] at hbooked
      exact ⟨hbooked, by decide, rfl, rfl, m.positionCount_setActiveTotal side t⟩
  | voided => contradiction

theorem makeLotRefundable_ok {m m' : Market} {p p' : UserPosition} {state : LotState}
    (h : makeLotRefundable m p side amount state slot = .ok (m', p')) :
    Rebooked m p side (inBucket state amount.toNat) (inBucket .voided amount.toNat) m' p' ∧
    state ≠ .voided ∧ p'.totalPaidAmount = p.totalPaidAmount ∧
    p'.nextLotNonce = p.nextLotNonce ∧ m'.positionCount = m.positionCount := by
  unfold makeLotRefundable at h
  simp only [bind_ok_iff, Prod.exists, addOrOverflow, okOr_ok_iff, checkedAdd_eq_some, pure_ok_iff,
    Prod.mk.injEq] at h
  obtain ⟨m₁, p₁, h₁, r, hr, rfl, rfl⟩ := h
  obtain ⟨hout, hstate, hpaid, hnext, hcount⟩ := takeOutOf_ok h₁
  have hin : Rebooked m₁ p₁ side (fun _ => 0) (inBucket .voided amount.toNat) _ _ :=
    Rebooked.refundable m₁ side hr.symm
  have hboth := (hout.trans hin).stamp p₁.totalPaidAmount p₁.nextLotNonce slot m₁.positionCount
  simp only [Nat.add_zero, Nat.zero_add] at hboth
  exact ⟨hboth, hstate, hpaid, hnext, hcount⟩

/-! ## placing -/

def validateClientExpiry (now clientExpiry cutoff : Int64) : Result Unit := do
  require (now ≤ clientExpiry) EscrowError.clientIntentExpired
  require (clientExpiry ≤ cutoff) EscrowError.clientIntentExpired

def validatePositionWindow (paused : Bool) (state : MarketState) (now cutoff : Int64)
    (currentEventEpoch expectedEventEpoch : UInt64) : Result Unit := do
  require (¬ paused) EscrowError.protocolPaused
  require (state ≠ .frozen) EscrowError.marketFrozen
  require (state = .open) EscrowError.invalidMarketState
  require (now < cutoff) EscrowError.positionCutoffPassed
  require (currentEventEpoch = expectedEventEpoch) EscrowError.eventEpochMismatch

def validatePositionAmount (config : ProtocolConfig) (asset : Asset)
    (totalPaidAmount amount : UInt64) : Result Unit := do
  require (amount > 0) EscrowError.invalidPositionAmount
  let (minimum, maximum) := match asset with
    | .sol => (config.minSolPosition, config.maxSolPosition)
    | .usdc => (config.minUsdcPosition, config.maxUsdcPosition)
  require (amount ≥ minimum) EscrowError.invalidPositionAmount
  let cumulative ← okOr (checkedAdd totalPaidAmount amount) EscrowError.arithmeticOverflow
  require (cumulative ≤ maximum) EscrowError.invalidPositionAmount

def validateWalletKey (rt : Runtime) (owner : Pubkey) : Result Unit :=
  require (rt.validateEdwards owner) EscrowError.invalidUserSigner

def validatePlace (rt : Runtime) (clock : Clock) (market : Market) (position : UserPosition)
    (accounts : PlacePositionAccounts) (args : PlacePositionArgs) : Result Unit := do
  validatePositionWindow accounts.config.paused market.state clock.unixTimestamp
    market.positionCutoffTimestamp market.eventEpoch args.expectedEventEpoch
  validateClientExpiry clock.unixTimestamp args.clientExpiryTimestamp
    market.positionCutoffTimestamp
  require (args.expectedAsset = market.asset) EscrowError.assetMismatch
  require (args.expectedRatioMilli = market.ratioMilli) EscrowError.ratioMismatch
  require (args.expectedMarketDocumentHash = market.marketDocumentHash)
    EscrowError.marketDocumentHashMismatch
  require (accounts.vault = market.vault) EscrowError.invalidVault
  require (splTokenId = accounts.config.allowedTokenProgram) EscrowError.invalidTokenProgram
  require (accounts.owner.owner = systemProgramId ∧ accounts.owner.dataIsEmpty)
    EscrowError.invalidUserSigner
  validateWalletKey rt accounts.owner.key
  validatePositionAmount accounts.config market.asset position.totalPaidAmount args.amount

def validateExistingPosition (position : UserPosition) (marketKey userKey : Pubkey)
    (side : PositionSide) : Result Unit := do
  require (position.market = marketKey) EscrowError.configMismatch
  require (position.owner = userKey) EscrowError.invalidUserSigner
  require (position.side = side) EscrowError.oppositeSidePosition
  require (¬ position.claimed) EscrowError.alreadyClaimed
  require (¬ position.settlementProcessed) EscrowError.invalidMarketState

def validateLotNonce (position : UserPosition) (expectedLotNonce : UInt64) : Result Unit :=
  require (position.nextLotNonce = expectedLotNonce) EscrowError.lotNonceMismatch

/-- A freshly created, all-zero position account. -/
def blankPosition : UserPosition :=
  { version := 0
    bump := 0
    market := defaultPubkey
    owner := defaultPubkey
    side := .back
    activeAmount := 0
    pendingAmount := 0
    refundableAmount := 0
    settlementBaseEntitlement := 0
    settlementProcessed := false
    nextLotNonce := 0
    claimed := false
    totalPaidAmount := 0
    createdSlot := 0
    updatedSlot := 0 }

/-- The record a first placement writes. -/
def newPosition (marketKey userKey : Pubkey) (positionBump : UInt8) (side : PositionSide)
    (slot : UInt64) : UserPosition :=
  { version := schemaVersionV1
    bump := positionBump
    market := marketKey
    owner := userKey
    side
    activeAmount := 0
    pendingAmount := 0
    refundableAmount := 0
    settlementBaseEntitlement := 0
    settlementProcessed := false
    nextLotNonce := 0
    claimed := false
    totalPaidAmount := 0
    createdSlot := slot
    updatedSlot := slot }

def initializeOrValidatePosition (position : UserPosition) (marketKey userKey : Pubkey)
    (positionBump : UInt8) (args : PlacePositionArgs) (slot : UInt64) : Result UserPosition :=
  if position.version = 0 then do
    require (args.expectedLotNonce = 0) EscrowError.lotNonceMismatch
    let position := newPosition marketKey userKey positionBump args.side slot
    validateLotNonce position args.expectedLotNonce
    return position
  else do
    validateExistingPosition position marketKey userKey args.side
    validateLotNonce position args.expectedLotNonce
    return position

/-- The vault after the deposit. -/
def transferSolPrincipal (rt : Runtime) (ledger : Ledger) (accounts : PlacePositionAccounts)
    (amount : UInt64) : Result AccountInfo := do
  require (ledger.market.tokenMint = defaultPubkey) EscrowError.invalidMint
  let (expectedVault, bump) := rt.solVaultAddress ledger.marketKey
  require (accounts.vault = expectedVault) EscrowError.invalidVault
  require (bump = ledger.market.vaultBump) EscrowError.invalidVault
  require (ledger.vault.owner = programId) EscrowError.invalidVaultOwner
  require (ledger.vault.lamports ≥ rt.rentReserve) EscrowError.invalidVaultRentReserve
  require (accounts.assetSource.key = accounts.owner.key) EscrowError.invalidTokenAccount
  let (_, lamports) ← systemTransfer accounts.owner.lamports ledger.vault.lamports amount
  return { ledger.vault with lamports }

def validateUsdcTransferAccounts (vault source : TokenAccount) (market owner mint : Pubkey) :
    Result Unit := do
  require (vault.state = .initialized) EscrowError.invalidTokenAccount
  require (vault.owner = market) EscrowError.invalidTokenAccount
  require (vault.mint = mint) EscrowError.invalidMint
  require (source.state = .initialized) EscrowError.invalidTokenAccount
  require (source.owner = owner) EscrowError.invalidUserSigner
  require (source.mint = mint) EscrowError.invalidMint

def transferUsdcPrincipal (rt : Runtime) (ledger : Ledger) (accounts : PlacePositionAccounts)
    (amount : UInt64) : Result AccountInfo := do
  let market := ledger.market
  require (market.tokenMint = accounts.config.canonicalUsdcMint) EscrowError.invalidMint
  require (accounts.tokenMint.key = market.tokenMint) EscrowError.invalidMint
  require (accounts.tokenMint.owner = splTokenId) EscrowError.invalidTokenProgram
  let mint ← okOr accounts.tokenMint.unpackMint EscrowError.invalidMint
  validateUsdcMint mint
  require (accounts.vault = rt.usdcVaultAddress ledger.marketKey market.tokenMint)
    EscrowError.invalidVault
  require (ledger.vault.owner = splTokenId) EscrowError.invalidTokenProgram
  require (accounts.assetSource.owner = splTokenId) EscrowError.invalidTokenProgram
  let vault ← okOr ledger.vault.unpackToken EscrowError.invalidTokenAccount
  let source ← okOr accounts.assetSource.unpackToken EscrowError.invalidTokenAccount
  validateUsdcTransferAccounts vault source ledger.marketKey accounts.owner.key market.tokenMint
  let (_, vault) ← transferChecked source vault accounts.tokenMint.key mint accounts.owner.key
    amount usdcDecimals
  return { ledger.vault with data := .token vault }

def transferPrincipal (rt : Runtime) (ledger : Ledger) (accounts : PlacePositionAccounts)
    (amount : UInt64) : Result AccountInfo :=
  match ledger.market.asset with
  | .sol => transferSolPrincipal rt ledger accounts amount
  | .usdc => transferUsdcPrincipal rt ledger accounts amount

/-- Whether a placement starts pending, and from when it may be activated. -/
def classifyPlacement (now inPlayStartTimestamp : Int64) (activationDelaySeconds : UInt64) :
    Result (Bool × Option Int64) :=
  if now < inPlayStartTimestamp then
    .ok (false, none)
  else do
    let delay ← okOr (tryFromU64 activationDelaySeconds) EscrowError.arithmeticOverflow
    let activationAfter ← okOr (checkedAddI64 now delay) EscrowError.arithmeticOverflow
    return (true, some activationAfter)

def placePosition (rt : Runtime) (clock : Clock) (ledger : Ledger)
    (accounts : PlacePositionAccounts) (args : PlacePositionArgs) : Result (Ledger × Event) := do
  let market ← ledger.loadMarket
  require (ledger.marketKey = (rt.marketAddress args.marketUuid).1) .constraintSeeds
  let owner := accounts.owner.key
  -- `init_if_needed` of the position, `init` of the lot
  let position := (ledger.positions.lookup owner).getD blankPosition
  require (ledger.lots.lookup (owner, args.expectedLotNonce)).isNone .accountAlreadyInUse
  validatePlace rt clock market position accounts args
  let isNewPosition := position.version = 0
  let (positionKey, positionBump) := rt.positionAddress ledger.marketKey owner
  let (lotKey, lotBump) := rt.lotAddress ledger.marketKey owner args.expectedLotNonce
  let position ← initializeOrValidatePosition position ledger.marketKey owner positionBump args
    clock.slot
  let vault ← transferPrincipal rt ledger accounts args.amount
  let (pending, activationAfter) ← classifyPlacement clock.unixTimestamp
    market.inPlayStartTimestamp market.activationDelaySeconds
  let (market, position) ← applyPositionDeposit market position args.side args.amount pending
    isNewPosition clock.slot
  let lot : PositionLot :=
    { version := schemaVersionV1
      bump := lotBump
      market := ledger.marketKey
      owner
      nonce := args.expectedLotNonce
      side := args.side
      amount := args.amount
      placedTimestamp := clock.unixTimestamp
      placedSlot := clock.slot
      observedEventEpoch := market.eventEpoch
      state := if pending then .pending else .active
      activationTimestamp := activationAfter
      invalidationEvidenceHash := none }
  return (
    { ledger with
      market
      positions := ledger.positions.insert owner position
      lots := ledger.lots.insert (owner, args.expectedLotNonce) lot
      vault },
    .positionPlaced
      { market := ledger.marketKey
        position := positionKey
        lot := lotKey
        owner
        nonce := lot.nonce
        side := lot.side
        amount := lot.amount
        asset := market.asset
        pending
        eventEpoch := lot.observedEventEpoch
        activationAfter
        clientIntentHash := args.clientIntentHash })

/-! ## activating and invalidating -/

/-- `activate_position_lot` on the position of `owner`. -/
def activatePositionLot (rt : Runtime) (clock : Clock) (ledger : Ledger) (owner : Pubkey)
    (args : ActivatePositionLotArgs) : Result (Ledger × Event) := do
  let market ← ledger.loadMarket
  let position ← ledger.loadPosition owner
  let lot ← ledger.loadLot position args.nonce
  require (market.state = .open ∨ market.state = .frozen) EscrowError.invalidMarketState
  require (lot.state = .pending) EscrowError.lotNotPending
  require (lot.observedEventEpoch = args.expectedEventEpoch ∧
    market.eventEpoch = args.expectedEventEpoch) EscrowError.eventEpochMismatch
  let activationAfter ← okOr lot.activationTimestamp EscrowError.invalidLotState
  require (clock.unixTimestamp ≥ activationAfter) EscrowError.activationDelayNotElapsed
  let (market, position) ← movePendingToActive market position lot.side lot.amount clock.slot
  return (
    { ledger with
      market
      positions := ledger.positions.insert owner position
      lots := ledger.lots.insert (owner, args.nonce) { lot with state := .active } },
    .positionActivated
      { market := ledger.marketKey
        position := (rt.positionAddress ledger.marketKey owner).1
        lot := (rt.lotAddress ledger.marketKey owner args.nonce).1
        owner := position.owner
        nonce := lot.nonce
        amount := lot.amount
        eventEpoch := market.eventEpoch })

def validateInvalidationCandidate (lot : PositionLot)
    (currentEventEpoch invalidatedEventEpoch : UInt64) : Result Unit := do
  require (lot.state = .pending ∨ lot.state = .active) EscrowError.invalidLotState
  require lot.activationTimestamp.isSome EscrowError.invalidLotState
  require (invalidatedEventEpoch > lot.observedEventEpoch ∧
    currentEventEpoch ≥ invalidatedEventEpoch) EscrowError.eventEpochMismatch

/-- `invalidate_position_lot` on the position of `owner`. -/
def invalidatePositionLot (rt : Runtime) (clock : Clock) (ledger : Ledger)
    (accounts : AttestedAccounts) (owner : Pubkey) (args : InvalidatePositionLotArgs) :
    Result (Ledger × Event) := do
  let market ← ledger.loadMarket
  require (accounts.oracleSet.key = (rt.oracleSetAddress market.oracleSetEpoch).1) .constraintSeeds
  let position ← ledger.loadPosition owner
  let lot ← ledger.loadLot position args.nonce
  let lotKey := (rt.lotAddress ledger.marketKey owner args.nonce).1
  require (market.state = .open ∨ market.state = .frozen) EscrowError.invalidMarketState
  validateInvalidationCandidate lot market.eventEpoch args.invalidatedEventEpoch
  validatePinnedOracleSet rt accounts.oracleSet market.oracleSetEpoch
  let attestation : PositionInvalidationAttestationV1 :=
    { common := marketAttestationCommon accounts.config market ledger.marketKey args.issuedAt
        args.expiresAt args.evidenceHash
      positionLotPda := lotKey
      lotNonce := args.nonce
      observedEventEpoch := lot.observedEventEpoch
      invalidatedEventEpoch := args.invalidatedEventEpoch
      decidingSequence := args.decidingSequence }
  let message ← attestationMessage attestation.encode
  verifyThresholdSignatures accounts.oracleSet.oracleSet accounts.preceding message
    clock.unixTimestamp args.issuedAt args.expiresAt
  let (market, position) ← makeLotRefundable market position lot.side lot.amount lot.state
    clock.slot
  let lot := { lot with state := .voided, invalidationEvidenceHash := some args.evidenceHash }
  return (
    { ledger with
      market
      positions := ledger.positions.insert owner position
      lots := ledger.lots.insert (owner, args.nonce) lot },
    .positionInvalidated
      { market := ledger.marketKey
        position := (rt.positionAddress ledger.marketKey owner).1
        lot := lotKey
        owner := position.owner
        nonce := lot.nonce
        amount := lot.amount
        eventEpoch := args.invalidatedEventEpoch
        evidenceHash := args.evidenceHash })

end CalledIt.Escrow
