import CalledIt.Sdk.Codec

/-!
# CalledIt.Sdk.MathReference

The client's payout engine (`escrow-sdk/src/math-reference.ts`).

It is the reference the program's `math.rs` is tested against.  Amounts are
`bigint`s with explicit range checks and a truncating division; refunds are
collected in a list with at most one entry for each position, payouts in a map
keyed by owner, and neither holds an entry of zero.
-/

namespace CalledIt.Sdk

open Lib
open Escrow (PositionSide)

/-- `SettlementOutcome` of `domain.ts`. -/
inductive SettlementOutcome
  | claimWon
  | claimLost
  | void
  deriving DecidableEq, Repr

structure EscrowMathPosition where
  id : String
  owner : String
  side : PositionSide
  activeAmount : Int
  pendingAmount : Int
  refundableAmount : Int

structure EscrowPots where
  backAmount : Int
  doubtAmount : Int
  matchedBack : Int
  matchedDoubt : Int
  deriving DecidableEq, Repr

structure EscrowRefund where
  positionId : String
  owner : String
  amount : Int
  deriving DecidableEq, Repr

/-- A JavaScript `Map`, its entries in the order of their first insertion. -/
abbrev PayoutMap := List (String × Int)

structure EscrowSettlement where
  refunds : List EscrowRefund
  payouts : PayoutMap
  pots : EscrowPots
  totalDeposits : Int
  totalEntitlement : Int
  dust : Int
  deriving DecidableEq, Repr

/-! ## checked arithmetic -/

def scale : Int := 1000
def u128Max : Int := 2 ^ 128 - 1

def checkedAddU64 (left right : Int) (name : String) : JsResult Int := do
  require (¬ (left + right < 0 ∨ left + right > u64Max))
    (JsError.rangeError (name ++ " exceeds u64"))
  return left + right

def checkedMulU128 (left right : Int) (name : String) : JsResult Int := do
  require (¬ (left * right < 0 ∨ left * right > u128Max))
    (JsError.rangeError (name ++ " exceeds u128"))
  return left * right

def minBigint (left right : Int) : Int := if left < right then left else right

def assertRatio (ratioMilli : Int) : JsResult Unit := do
  let _ ← assertU64 ratioMilli "ratio milli"
  require (ratioMilli ≠ 0) (JsError.rangeError "ratio milli must be positive")

/-- Round the exact rational, half upward. -/
def ratioMilliFromProbabilityPpm (probabilityPpm : Int) : JsResult Int := do
  let probability ← assertInteger probabilityPpm "probability PPM" 1 999999
  let numerator := (1000000 - probability) * scale
  let rounded := (numerator + probability.tdiv 2).tdiv probability
  return if rounded < 1 then 1 else rounded

/-! ## positions -/

/-- The identifiers and owners met so far, and the deposits added up. -/
structure Validation where
  ids : List String
  owners : List String
  total : Int

/-- One pass of the loop of `validatePositions`. -/
def validatePosition (seen : Validation) (position : EscrowMathPosition) :
    JsResult Validation := do
  require (¬ (position.id.length = 0 ∨ position.id ∈ seen.ids))
    (JsError.error "position IDs must be nonempty and unique")
  require (¬ (position.owner.length = 0 ∨ position.owner ∈ seen.owners))
    (JsError.error "position owners must be nonempty and unique")
  let _ ← assertU64 position.activeAmount ("position " ++ position.id ++ " active amount")
  let _ ← assertU64 position.pendingAmount ("position " ++ position.id ++ " pending amount")
  let _ ← assertU64 position.refundableAmount
    ("position " ++ position.id ++ " refundable amount")
  let amount ← checkedAddU64 position.activeAmount position.pendingAmount "position amount"
  let positionTotal ← checkedAddU64 amount position.refundableAmount "position amount"
  require (positionTotal ≠ 0)
    (JsError.rangeError ("position " ++ position.id ++ " amount must be positive"))
  let total ← checkedAddU64 seen.total positionTotal "total deposits"
  return { ids := position.id :: seen.ids, owners := position.owner :: seen.owners, total }

def validatePositions (positions : List EscrowMathPosition) : JsResult Int := do
  let seen ← positions.foldlM validatePosition { ids := [], owners := [], total := 0 }
  return seen.total

/-! ## pots -/

/-- Back and doubt totals with one more position. -/
def addActive (totals : Int × Int) (position : EscrowMathPosition) : JsResult (Int × Int) :=
  if position.side = .back then do
    return (← checkedAddU64 totals.1 position.activeAmount "active back total", totals.2)
  else do
    return (totals.1, ← checkedAddU64 totals.2 position.activeAmount "active doubt total")

def computePots (positions : List EscrowMathPosition) (ratioMilli : Int) :
    JsResult EscrowPots := do
  let _ ← validatePositions positions
  assertRatio ratioMilli
  let (backAmount, doubtAmount) ← positions.foldlM addActive (0, 0)
  let matchedBack := minBigint backAmount
    ((← checkedMulU128 doubtAmount scale "matched back numerator").tdiv ratioMilli)
  let matchedDoubt := minBigint doubtAmount
    ((← checkedMulU128 matchedBack ratioMilli "matched doubt numerator").tdiv scale)
  return { backAmount, doubtAmount, matchedBack, matchedDoubt }

/-! ## settlement -/

/-- What a position gets back whatever it stood for; a void market returns the
active amount as well. -/
def restingRefund (outcome : SettlementOutcome) (position : EscrowMathPosition) :
    JsResult Int := do
  let nonActive ← checkedAddU64 position.pendingAmount position.refundableAmount
    "position refundable amount"
  if outcome = .void then
    checkedAddU64 nonActive position.activeAmount "void refund"
  else
    return nonActive

/-- One pass of the first loop: the refund is pushed unless it is zero. -/
def pushRefund (outcome : SettlementOutcome) (refunds : List EscrowRefund)
    (position : EscrowMathPosition) : JsResult (List EscrowRefund) := do
  let refund ← restingRefund outcome position
  return if refund > 0 then
      refunds ++ [{ positionId := position.id, owner := position.owner, amount := refund }]
    else
      refunds

/-- Add to the position's entry where there is one, else push a new one. -/
def mergeRefund (position : EscrowMathPosition) (refund : Int) :
    List EscrowRefund → JsResult (List EscrowRefund)
  | [] => return [{ positionId := position.id, owner := position.owner, amount := refund }]
  | item :: items =>
      if item.positionId = position.id then do
        let amount ← checkedAddU64 item.amount refund "position refund"
        return { item with amount } :: items
      else do
        return item :: (← mergeRefund position refund items)

/-- The floored share of a stake, by name of its numerator; nothing where there
is no stake to divide by. -/
def shareOf (stake pot total : Int) (name : String) : JsResult Int :=
  if total = 0 then
    return 0
  else do
    return (← checkedMulU128 stake pot name).tdiv total

/-- One pass of the loop over the losing positions: refunds and forfeited pot. -/
def settleLoser (winningSide : PositionSide) (matchedLosing losingStakes : Int)
    (state : List EscrowRefund × Int) (position : EscrowMathPosition) :
    JsResult (List EscrowRefund × Int) :=
  if position.side = winningSide then
    return state
  else do
    let forfeit ← shareOf position.activeAmount matchedLosing losingStakes
      "loser forfeit numerator"
    let forfeitedPot ← checkedAddU64 state.2 forfeit "forfeited pot"
    let refund := position.activeAmount - forfeit
    if refund > 0 then
      return (← mergeRefund position refund state.1, forfeitedPot)
    else
      return (state.1, forfeitedPot)

/-- `payouts.get(owner) ?? 0n`. -/
def PayoutMap.getD (payouts : PayoutMap) (owner : String) : Int := (payouts.lookup owner).getD 0

/-- `payouts.set(owner, payout)`. -/
def PayoutMap.set (owner : String) (payout : Int) : PayoutMap → PayoutMap
  | [] => [(owner, payout)]
  | (key, value) :: entries =>
      if key = owner then (key, payout) :: entries
      else (key, value) :: PayoutMap.set owner payout entries

/-- One pass of the loop over the winning positions. -/
def settleWinner (winningSide : PositionSide) (forfeitedPot winningStakes : Int)
    (payouts : PayoutMap) (position : EscrowMathPosition) : JsResult PayoutMap :=
  if position.side ≠ winningSide then
    return payouts
  else do
    let winnings ← shareOf position.activeAmount forfeitedPot winningStakes
      "winner payout numerator"
    let payout ← checkedAddU64 position.activeAmount winnings "position payout"
    if payout = 0 then
      return payouts
    else
      let owed ← checkedAddU64 (payouts.getD position.owner) payout "owner payout"
      return payouts.set position.owner owed

/-- Refunds and payouts of a settlement that names a winner. -/
def settleSides (positions : List EscrowMathPosition) (refunds : List EscrowRefund)
    (pots : EscrowPots) (winningSide : PositionSide) :
    JsResult (List EscrowRefund × PayoutMap) := do
  let backWins := winningSide = .back
  let winningStakes := if backWins then pots.backAmount else pots.doubtAmount
  let losingStakes := if backWins then pots.doubtAmount else pots.backAmount
  let matchedLosing := if backWins then pots.matchedDoubt else pots.matchedBack
  let (refunds, forfeitedPot) ← positions.foldlM
    (settleLoser winningSide matchedLosing losingStakes) (refunds, 0)
  let payouts ← positions.foldlM (settleWinner winningSide forfeitedPot winningStakes) []
  return (refunds, payouts)

/-- A `reduce` with checked additions. -/
def checkedTotal (amounts : List Int) (name : String) : JsResult Int :=
  amounts.foldlM (fun total amount => checkedAddU64 total amount name) 0

def settlePositions (positions : List EscrowMathPosition) (outcome : SettlementOutcome)
    (ratioMilli : Int) : JsResult EscrowSettlement := do
  let totalDeposits ← validatePositions positions
  let refunds ← positions.foldlM (pushRefund outcome) []
  assertRatio ratioMilli
  let pots ← if outcome = .void then
      pure { backAmount := 0, doubtAmount := 0, matchedBack := 0, matchedDoubt := 0 }
    else
      computePots positions ratioMilli
  let (refunds, payouts) ← if outcome = .void then
      pure (refunds, [])
    else
      settleSides positions refunds pots (if outcome = .claimWon then .back else .doubt)
  let refundTotal ← checkedTotal (refunds.map (·.amount)) "refund total"
  let payoutTotal ← checkedTotal (payouts.map (·.2)) "payout total"
  let totalEntitlement ← checkedAddU64 refundTotal payoutTotal "total entitlement"
  require (¬ totalEntitlement > totalDeposits)
    (JsError.error "settlement entitlements exceed deposits")
  return {
    refunds
    payouts
    pots
    totalDeposits
    totalEntitlement
    dust := totalDeposits - totalEntitlement }

/-! ## checked arithmetic, taken apart -/

variable {name : String}

theorem checkedAddU64_ok_iff {left right c : Int} :
    checkedAddU64 left right name = .ok c ↔ c = left + right ∧ 0 ≤ c ∧ c ≤ u64Max := by
  unfold checkedAddU64
  simp only [bind_ok_iff, require_ok_iff, pure_ok_iff]
  constructor
  · rintro ⟨_, hrange, rfl⟩
    omega
  · rintro ⟨rfl, hpos, hmax⟩
    exact ⟨(), by omega, rfl⟩

theorem checkedMulU128_ok {left right c : Int}
    (h : checkedMulU128 left right name = .ok c) : c = left * right := by
  unfold checkedMulU128 at h
  simp only [bind_ok_iff, require_ok_iff, pure_ok_iff] at h
  obtain ⟨_, _, rfl⟩ := h
  rfl

theorem shareOf_ok {stake pot total c : Int}
    (h : shareOf stake pot total name = .ok c) : c = (stake * pot).tdiv total := by
  unfold shareOf at h
  split at h
  · next hz =>
    rw [pure_ok_iff] at h
    rw [← h, hz, Int.tdiv_zero]
  · rw [bind_ok_iff] at h
    obtain ⟨product, hproduct, hc⟩ := h
    rw [pure_ok_iff] at hc
    rw [← hc, checkedMulU128_ok hproduct]

theorem checkedTotal_ok {amounts : List Int} {c : Int}
    (h : checkedTotal amounts name = .ok c) : c = amounts.sum := by
  have hsum := (foldlM_ok_sum (I := fun _ => True) (m := id) (w := id) ?_ trivial h).2
  · simpa using hsum
  intro total amount total' _ _ hadd
  exact ⟨trivial, (checkedAddU64_ok_iff.mp hadd).1⟩

/-! ## what the loops compute -/

/-- What the position paid in. -/
def EscrowMathPosition.paid (p : EscrowMathPosition) : Int :=
  p.activeAmount + p.pendingAmount + p.refundableAmount

/-- What the position never had at stake. -/
def EscrowMathPosition.idle (p : EscrowMathPosition) : Int :=
  p.pendingAmount + p.refundableAmount

variable {p : EscrowMathPosition}

theorem validatePosition_ok {seen seen' : Validation} (h : validatePosition seen p = .ok seen') :
    p.id ∉ seen.ids ∧ seen'.ids = p.id :: seen.ids ∧ seen'.total = seen.total + p.paid := by
  unfold validatePosition at h
  simp only [bind_ok_iff, require_ok_iff, checkedAddU64_ok_iff, pure_ok_iff] at h
  obtain ⟨_, hid, _, _, _, _, _, _, _, _, amount, ⟨rfl, _⟩, total, ⟨rfl, _⟩, _, _, sum, ⟨rfl, _⟩,
    rfl⟩ := h
  exact ⟨fun hmem => hid (.inr hmem), rfl, rfl⟩

theorem foldlM_validatePosition_ids {positions : List EscrowMathPosition} {seen seen' : Validation}
    (h : positions.foldlM validatePosition seen = .ok seen') :
    (positions.map (·.id)).Nodup ∧ ∀ p ∈ positions, p.id ∉ seen.ids := by
  induction positions generalizing seen with
  | nil => simp
  | cons p positions ih =>
      rw [List.foldlM_cons, bind_ok_iff] at h
      obtain ⟨next, hp, hrest⟩ := h
      obtain ⟨hfresh, hids, _⟩ := validatePosition_ok hp
      obtain ⟨hnodup, hout⟩ := ih hrest
      simp only [hids, List.mem_cons, not_or] at hout
      refine ⟨List.nodup_cons.mpr ⟨?_, hnodup⟩, ?_⟩
      · intro hmem
        obtain ⟨q, hq, hqp⟩ := List.mem_map.mp hmem
        exact (hout q hq).1 hqp
      · intro q hq
        rcases List.mem_cons.mp hq with rfl | hq
        · exact hfresh
        · exact (hout q hq).2

/-- Accepted positions have distinct identifiers, and their deposits are added
up. -/
theorem validatePositions_ok {positions : List EscrowMathPosition} {total : Int}
    (h : validatePositions positions = .ok total) :
    (positions.map (·.id)).Nodup ∧ total = (positions.map EscrowMathPosition.paid).sum := by
  unfold validatePositions at h
  simp only [bind_ok_iff, pure_ok_iff] at h
  obtain ⟨seen, hseen, rfl⟩ := h
  refine ⟨(foldlM_validatePosition_ids hseen).1, ?_⟩
  have hsum := (foldlM_ok_sum (I := fun _ => True) (m := Validation.total)
    (w := EscrowMathPosition.paid) ?_ trivial hseen).2
  · simpa using hsum
  intro seen p seen' _ _ hp
  exact ⟨trivial, (validatePosition_ok hp).2.2⟩

/-- The active stakes of a side. -/
def activeOn (side : PositionSide) (positions : List EscrowMathPosition) : Int :=
  (positions.map fun p => if p.side = side then p.activeAmount else 0).sum

theorem addActive_ok {totals totals' : Int × Int} (h : addActive totals p = .ok totals') :
    totals'.1 = totals.1 + (if p.side = .back then p.activeAmount else 0) ∧
      totals'.2 = totals.2 + (if p.side = .doubt then p.activeAmount else 0) := by
  unfold addActive at h
  cases hside : p.side with
  | back =>
      simp only [hside, if_true, bind_ok_iff, checkedAddU64_ok_iff, pure_ok_iff] at h
      obtain ⟨total, ⟨rfl, _⟩, rfl⟩ := h
      simp
  | doubt =>
      simp only [hside, reduceCtorEq, if_false, bind_ok_iff, checkedAddU64_ok_iff,
        pure_ok_iff] at h
      obtain ⟨total, ⟨rfl, _⟩, rfl⟩ := h
      simp

theorem foldlM_addActive_ok {positions : List EscrowMathPosition} {back doubt : Int}
    (h : positions.foldlM addActive (0, 0) = .ok (back, doubt)) :
    back = activeOn .back positions ∧ doubt = activeOn .doubt positions := by
  have hback := (foldlM_ok_sum (f := addActive) (I := fun _ => True) (m := Prod.fst)
    (fun _ _ _ _ _ hstep => ⟨trivial, (addActive_ok hstep).1⟩) trivial h).2
  have hdoubt := (foldlM_ok_sum (f := addActive) (I := fun _ => True) (m := Prod.snd)
    (fun _ _ _ _ _ hstep => ⟨trivial, (addActive_ok hstep).2⟩) trivial h).2
  rw [Int.zero_add] at hback hdoubt
  exact ⟨hback, hdoubt⟩

variable {ratio : Int}

theorem computePots_ok {positions : List EscrowMathPosition} {pots : EscrowPots}
    (h : computePots positions ratio = .ok pots) :
    pots.backAmount = activeOn .back positions ∧ pots.doubtAmount = activeOn .doubt positions ∧
    pots.matchedBack = minBigint pots.backAmount ((pots.doubtAmount * scale).tdiv ratio) ∧
    pots.matchedDoubt = minBigint pots.doubtAmount ((pots.matchedBack * ratio).tdiv scale) := by
  unfold computePots at h
  simp only [bind_ok_iff, Prod.exists, pure_ok_iff] at h
  obtain ⟨_, _, _, _, back, doubt, htotals, product, hproduct, product', hproduct', rfl⟩ := h
  obtain ⟨rfl, rfl⟩ := foldlM_addActive_ok htotals
  rw [checkedMulU128_ok hproduct] at hproduct' ⊢
  rw [checkedMulU128_ok hproduct']
  exact ⟨rfl, rfl, rfl, rfl⟩

/-! ## what an owner receives -/

section Owners

variable (c : String → Prop) [DecidablePred c]

/-- The refunds to the selected owners. -/
def refundsTo (refunds : List EscrowRefund) : Int :=
  (refunds.map fun item => if c item.owner then item.amount else 0).sum

/-- The payouts to the selected owners. -/
def payoutsTo (payouts : PayoutMap) : Int :=
  (payouts.map fun entry => if c entry.1 then entry.2 else 0).sum

end Owners

/-- Every refund is for the owner of the position it names. -/
def Drawn (positions : List EscrowMathPosition) (refunds : List EscrowRefund) : Prop :=
  ∀ item ∈ refunds, ∃ p ∈ positions, item.positionId = p.id ∧ item.owner = p.owner

variable {outcome : SettlementOutcome} {refund : Int}

theorem restingRefund_ok (h : restingRefund outcome p = .ok refund) :
    0 ≤ refund ∧ refund = if outcome = .void then p.paid else p.idle := by
  unfold restingRefund at h
  unfold EscrowMathPosition.paid EscrowMathPosition.idle
  simp only [bind_ok_iff, checkedAddU64_ok_iff] at h
  obtain ⟨nonActive, ⟨rfl, hpos, _⟩, hrefund⟩ := h
  split at hrefund
  · next hvoid =>
    obtain ⟨rfl, hpos, _⟩ := checkedAddU64_ok_iff.mp hrefund
    rw [if_pos hvoid]
    omega
  · next hvoid =>
    rw [if_neg hvoid, ← pure_ok_iff.mp hrefund]
    exact ⟨hpos, rfl⟩

variable {refunds refunds' : List EscrowRefund}

theorem mergeRefund_drawn {positions : List EscrowMathPosition} (hp : p ∈ positions)
    (h : mergeRefund p refund refunds = .ok refunds') (hd : Drawn positions refunds) :
    Drawn positions refunds' := by
  induction refunds generalizing refunds' with
  | nil =>
      rw [mergeRefund, pure_ok_iff] at h
      subst h
      intro item hitem
      rw [List.mem_singleton.mp hitem]
      exact ⟨p, hp, rfl, rfl⟩
  | cons item items ih =>
      obtain ⟨hitem, hitems⟩ := List.forall_mem_cons.mp hd
      unfold mergeRefund at h
      split at h
      · simp only [bind_ok_iff, checkedAddU64_ok_iff, pure_ok_iff] at h
        obtain ⟨amount, _, rfl⟩ := h
        exact List.forall_mem_cons.mpr ⟨hitem, hitems⟩
      · simp only [bind_ok_iff, pure_ok_iff] at h
        obtain ⟨items', hmerged, rfl⟩ := h
        exact List.forall_mem_cons.mpr ⟨hitem, ih hmerged hitems⟩

/-- A merged refund goes to the owner of its position. -/
theorem refundsTo_mergeRefund (c : String → Prop) [DecidablePred c]
    (h : mergeRefund p refund refunds = .ok refunds')
    (howner : ∀ item ∈ refunds, item.positionId = p.id → item.owner = p.owner) :
    refundsTo c refunds' = refundsTo c refunds + (if c p.owner then refund else 0) := by
  unfold refundsTo
  induction refunds generalizing refunds' with
  | nil =>
      rw [mergeRefund, pure_ok_iff] at h
      subst h
      simp
  | cons item items ih =>
      obtain ⟨hitem, hitems⟩ := List.forall_mem_cons.mp howner
      unfold mergeRefund at h
      split at h
      · next hid =>
        simp only [bind_ok_iff, checkedAddU64_ok_iff, pure_ok_iff] at h
        obtain ⟨amount, ⟨rfl, _⟩, rfl⟩ := h
        simp only [List.map_cons, List.sum_cons, hitem hid]
        split <;> omega
      · simp only [bind_ok_iff, pure_ok_iff] at h
        obtain ⟨items', hmerged, rfl⟩ := h
        simp only [List.map_cons, List.sum_cons]
        rw [ih hmerged hitems]
        omega

theorem pushRefund_ok (c : String → Prop) [DecidablePred c] {positions : List EscrowMathPosition}
    (hp : p ∈ positions) (hd : Drawn positions refunds)
    (h : pushRefund outcome refunds p = .ok refunds') :
    Drawn positions refunds' ∧ refundsTo c refunds' = refundsTo c refunds +
      (if c p.owner then if outcome = .void then p.paid else p.idle else 0) := by
  unfold pushRefund at h
  simp only [bind_ok_iff, pure_ok_iff] at h
  obtain ⟨refund, hrefund, rfl⟩ := h
  obtain ⟨hpos, heq⟩ := restingRefund_ok hrefund
  rw [← heq]
  split
  · refine ⟨?_, ?_⟩
    · intro item hitem
      rcases List.mem_append.mp hitem with hitem | hitem
      · exact hd item hitem
      · rw [List.mem_singleton.mp hitem]
        exact ⟨p, hp, rfl, rfl⟩
    · simp [refundsTo]
  · have hzero : refund = 0 := by omega
    simp [hd, hzero]

theorem eq_of_id_eq {positions : List EscrowMathPosition} (hids : (positions.map (·.id)).Nodup)
    {q : EscrowMathPosition} (hp : p ∈ positions) (hq : q ∈ positions) (h : p.id = q.id) :
    p = q := List.inj_on_of_nodup_map hids hp hq h

/-- One losing position: it forfeits its share and gets the rest of its stake
back. -/
theorem settleLoser_ok (c : String → Prop) [DecidablePred c] {win : PositionSide}
    {matchedLosing losingStakes : Int} {positions : List EscrowMathPosition}
    (hids : (positions.map (·.id)).Nodup) (hp : p ∈ positions)
    (hle : (p.activeAmount * matchedLosing).tdiv losingStakes ≤ p.activeAmount)
    {state state' : List EscrowRefund × Int} (hd : Drawn positions state.1)
    (h : settleLoser win matchedLosing losingStakes state p = .ok state') :
    Drawn positions state'.1 ∧
    refundsTo c state'.1 = refundsTo c state.1 + (if c p.owner then if p.side = win then 0
      else p.activeAmount - (p.activeAmount * matchedLosing).tdiv losingStakes else 0) ∧
    state'.2 = state.2 +
      (if p.side = win then 0 else (p.activeAmount * matchedLosing).tdiv losingStakes) := by
  unfold settleLoser at h
  by_cases hside : p.side = win
  · simp only [hside, if_true, pure_ok_iff] at h
    subst h
    simp [hside, hd]
  · simp only [hside, if_false, bind_ok_iff, checkedAddU64_ok_iff] at h ⊢
    obtain ⟨forfeit, hforfeit, pot, ⟨rfl, _⟩, h⟩ := h
    rw [← shareOf_ok hforfeit] at hle ⊢
    split at h
    · simp only [bind_ok_iff, pure_ok_iff] at h
      obtain ⟨refunds, hmerge, rfl⟩ := h
      refine ⟨mergeRefund_drawn hp hmerge hd, refundsTo_mergeRefund c hmerge ?_, rfl⟩
      intro item hitem hid
      obtain ⟨q, hq, hqid, hqowner⟩ := hd item hitem
      rw [hqowner, eq_of_id_eq hids hq hp (hqid.symm.trans hid)]
    · rw [pure_ok_iff] at h
      subst h
      have hzero : p.activeAmount - forfeit = 0 := by omega
      simp [hd, hzero]

/-! ## the payout map -/

theorem PayoutMap.keys_set (owner : String) (payout : Int) (payouts : PayoutMap)
    (h : (payouts.map Prod.fst).Nodup) : ((payouts.set owner payout).map Prod.fst).Nodup ∧
      ∀ key, key ∈ (payouts.set owner payout).map Prod.fst ↔
        key = owner ∨ key ∈ payouts.map Prod.fst := by
  induction payouts with
  | nil => simp [PayoutMap.set]
  | cons entry entries ih =>
      obtain ⟨key, value⟩ := entry
      obtain ⟨hfresh, hrest⟩ := List.nodup_cons.mp h
      unfold PayoutMap.set
      split
      · next hkey =>
        subst hkey
        exact ⟨h, by simp⟩
      · next hkey =>
        obtain ⟨hnodup, hmem⟩ := ih hrest
        refine ⟨List.nodup_cons.mpr ⟨?_, hnodup⟩, ?_⟩
        · rw [hmem]
          exact not_or.mpr ⟨hkey, hfresh⟩
        · intro k
          rw [List.map_cons, List.mem_cons, hmem, List.map_cons, List.mem_cons]
          exact or_left_comm

/-- Setting an owner's payout trades the old one for the new one. -/
theorem payoutsTo_set (c : String → Prop) [DecidablePred c] (owner : String) (payout : Int)
    (payouts : PayoutMap) :
    payoutsTo c (payouts.set owner payout) =
      payoutsTo c payouts + (if c owner then payout - payouts.getD owner else 0) := by
  induction payouts with
  | nil => simp [PayoutMap.set, PayoutMap.getD, payoutsTo]
  | cons entry entries ih =>
      obtain ⟨key, value⟩ := entry
      unfold PayoutMap.getD payoutsTo at ih ⊢
      unfold PayoutMap.set
      by_cases hkey : key = owner
      · subst hkey
        simp only [if_true, List.map_cons, List.sum_cons, List.lookup_cons_self, Option.getD_some]
        split <;> omega
      · have hne : (owner == key) = false := beq_false_of_ne (Ne.symm hkey)
        simp only [hkey, if_false, List.map_cons, List.sum_cons, List.lookup_cons, hne, ih]
        omega

variable {payouts : PayoutMap}

/-- The payout of an owner is the sum of its entries: there is at most one. -/
theorem payoutsTo_owner (owner : String)
    (h : (payouts.map Prod.fst).Nodup) : payoutsTo (· = owner) payouts = payouts.getD owner := by
  induction payouts with
  | nil => rfl
  | cons entry entries ih =>
      obtain ⟨key, value⟩ := entry
      obtain ⟨hfresh, hrest⟩ := List.nodup_cons.mp h
      have ih := ih hrest
      unfold PayoutMap.getD payoutsTo at ih ⊢
      rw [List.map_cons, List.sum_cons, ih]
      by_cases hkey : key = owner
      · subst hkey
        have hnone : entries.lookup key = none := by
          rw [List.lookup_eq_none_iff]
          intro entry hentry
          simp only [bne_iff_ne, ne_eq]
          rintro rfl
          exact hfresh (List.mem_map.mpr ⟨entry, hentry, rfl⟩)
        simp [hnone]
      · have hne : (owner == key) = false := beq_false_of_ne (Ne.symm hkey)
        simp [hkey, List.lookup_cons, hne]

theorem settleWinner_ok (c : String → Prop) [DecidablePred c] {win : PositionSide}
    {forfeitedPot winningStakes : Int} {payouts' : PayoutMap} (hkeys : (payouts.map Prod.fst).Nodup)
    (h : settleWinner win forfeitedPot winningStakes payouts p = .ok payouts') :
    (payouts'.map Prod.fst).Nodup ∧
    payoutsTo c payouts' = payoutsTo c payouts + (if c p.owner then if p.side = win then
      p.activeAmount + (p.activeAmount * forfeitedPot).tdiv winningStakes else 0 else 0) := by
  unfold settleWinner at h
  by_cases hside : p.side = win
  · simp only [hside, ne_eq, not_true_eq_false, if_false, if_true, bind_ok_iff,
      checkedAddU64_ok_iff] at h ⊢
    obtain ⟨winnings, hwinnings, payout, ⟨rfl, _⟩, h⟩ := h
    rw [← shareOf_ok hwinnings]
    split at h
    · next hzero =>
      rw [pure_ok_iff] at h
      subst h
      simp [hkeys, hzero]
    · simp only [bind_ok_iff, checkedAddU64_ok_iff, pure_ok_iff] at h
      obtain ⟨owed, ⟨rfl, _⟩, rfl⟩ := h
      refine ⟨(PayoutMap.keys_set _ _ _ hkeys).1, ?_⟩
      rw [payoutsTo_set, add_sub_cancel_left]
  · simp only [hside, ne_eq, not_false_eq_true, if_true, if_false, pure_ok_iff] at h ⊢
    subst h
    simp [hkeys]

/-! ## what a settlement pays -/

theorem foldlM_pushRefund_ok (c : String → Prop) [DecidablePred c]
    {positions : List EscrowMathPosition}
    (h : positions.foldlM (pushRefund outcome) [] = .ok refunds) :
    Drawn positions refunds ∧ refundsTo c refunds = (positions.map fun p =>
      if c p.owner then if outcome = .void then p.paid else p.idle else 0).sum := by
  have hstart : Drawn positions [] := by
    intro item hitem
    contradiction
  obtain ⟨hd, hsum⟩ := foldlM_ok_sum (f := pushRefund outcome) (m := refundsTo c)
    (fun _ _ _ hp hd hstep => pushRefund_ok c hp hd hstep) hstart h
  refine ⟨hd, ?_⟩
  rw [hsum]
  exact Int.zero_add _

section Sides

variable {positions : List EscrowMathPosition} {pots : EscrowPots} {win : PositionSide}

/-- Winning stakes, losing stakes and the matched part of the losing stakes. -/
def EscrowPots.stakesFor (pots : EscrowPots) (winningSide : PositionSide) : Int × Int × Int :=
  if winningSide = .back then (pots.backAmount, pots.doubtAmount, pots.matchedDoubt)
  else (pots.doubtAmount, pots.backAmount, pots.matchedBack)

/-- What a losing position gives up. -/
def EscrowPots.forfeitOf (pots : EscrowPots) (win : PositionSide) (p : EscrowMathPosition) : Int :=
  (p.activeAmount * (pots.stakesFor win).2.2).tdiv (pots.stakesFor win).2.1

/-- What the losing positions give up together. -/
def EscrowPots.forfeitedPot (pots : EscrowPots) (win : PositionSide)
    (positions : List EscrowMathPosition) : Int :=
  (positions.map fun p => if p.side = win then 0 else pots.forfeitOf win p).sum

def EscrowPots.refundOf (pots : EscrowPots) (win : PositionSide) (p : EscrowMathPosition) : Int :=
  p.idle + if p.side = win then 0 else p.activeAmount - pots.forfeitOf win p

def EscrowPots.payoutOf (pots : EscrowPots) (win : PositionSide)
    (positions : List EscrowMathPosition) (p : EscrowMathPosition) : Int :=
  if p.side = win then p.activeAmount +
    (p.activeAmount * pots.forfeitedPot win positions).tdiv (pots.stakesFor win).1
  else 0

theorem settleSides_ok (c : String → Prop) [DecidablePred c] (hids : (positions.map (·.id)).Nodup)
    (hle : ∀ p ∈ positions, pots.forfeitOf win p ≤ p.activeAmount) (hd : Drawn positions refunds)
    (h : settleSides positions refunds pots win = .ok (refunds', payouts)) :
    refundsTo c refunds' = refundsTo c refunds + (positions.map fun p => if c p.owner then
      if p.side = win then 0 else p.activeAmount - pots.forfeitOf win p else 0).sum ∧
    (payouts.map Prod.fst).Nodup ∧
    payoutsTo c payouts =
      (positions.map fun p => if c p.owner then pots.payoutOf win positions p else 0).sum := by
  have hstakes : settleSides positions refunds pots win = (do
      let (refunds, forfeitedPot) ← positions.foldlM
        (settleLoser win (pots.stakesFor win).2.2 (pots.stakesFor win).2.1) (refunds, 0)
      let payouts ← positions.foldlM (settleWinner win forfeitedPot (pots.stakesFor win).1) []
      return (refunds, payouts)) := by
    cases win <;> rfl
  rw [hstakes] at h
  simp only [bind_ok_iff, Prod.exists, pure_ok_iff, Prod.mk.injEq] at h
  obtain ⟨_, pot, hlosers, _, hwinners, rfl, rfl⟩ := h
  have hrefunds := (foldlM_ok_sum (I := fun state => Drawn positions state.1)
    (m := fun state => refundsTo c state.1) (fun _ p _ hp hd hstep =>
      have hok := settleLoser_ok c hids hp (hle p hp) hd hstep
      ⟨hok.1, hok.2.1⟩) hd hlosers).2
  have hpot := (foldlM_ok_sum (I := fun state => Drawn positions state.1) (m := Prod.snd)
    (fun _ p _ hp hd hstep =>
      have hok := settleLoser_ok c hids hp (hle p hp) hd hstep
      ⟨hok.1, hok.2.2⟩) hd hlosers).2
  obtain ⟨hkeys, hpayouts⟩ := foldlM_ok_sum (I := fun payouts => (payouts.map Prod.fst).Nodup)
    (m := payoutsTo c) (fun _ _ _ _ hkeys hstep => settleWinner_ok c hkeys hstep) .nil hwinners
  refine ⟨hrefunds, hkeys, ?_⟩
  rw [hpayouts, show pot = pots.forfeitedPot win positions from hpot.trans (Int.zero_add _)]
  exact Int.zero_add _

end Sides

/-- A settlement that pays each position `refund` and `payout`: refunds and
payouts are collected owner by owner, and what is left of the deposits is dust. -/
structure Pays (positions : List EscrowMathPosition) (refund payout : EscrowMathPosition → Int)
    (t : EscrowSettlement) : Prop where
  refunds : ∀ owner, refundsTo (· = owner) t.refunds =
    (positions.map fun p => if p.owner = owner then refund p else 0).sum
  payouts : ∀ owner, t.payouts.getD owner =
    (positions.map fun p => if p.owner = owner then payout p else 0).sum
  dust : t.dust + ((positions.map refund).sum + (positions.map payout).sum) =
    (positions.map EscrowMathPosition.paid).sum

variable {t : EscrowSettlement}

/-- The closing checks of a settlement, from what its lists hold. -/
theorem Pays.of_lists {positions : List EscrowMathPosition}
    {refund payout : EscrowMathPosition → Int} {refundTotal payoutTotal : Int}
    (hrefunds : ∀ (c : String → Prop) [DecidablePred c], refundsTo c t.refunds =
      (positions.map fun p => if c p.owner then refund p else 0).sum)
    (hkeys : (t.payouts.map Prod.fst).Nodup)
    (hpayouts : ∀ (c : String → Prop) [DecidablePred c], payoutsTo c t.payouts =
      (positions.map fun p => if c p.owner then payout p else 0).sum)
    (hrefundTotal : checkedTotal (t.refunds.map (·.amount)) "refund total" = .ok refundTotal)
    (hpayoutTotal : checkedTotal (t.payouts.map (·.2)) "payout total" = .ok payoutTotal)
    (hdust : t.dust = (positions.map EscrowMathPosition.paid).sum - (refundTotal + payoutTotal)) :
    Pays positions refund payout t := by
  have hall := hrefunds fun _ => True
  have hall' := hpayouts fun _ => True
  simp only [refundsTo, payoutsTo, if_true] at hall hall'
  refine ⟨fun owner => hrefunds (· = owner), ?_, ?_⟩
  · intro owner
    rw [← payoutsTo_owner owner hkeys]
    exact hpayouts (· = owner)
  · rw [hdust, checkedTotal_ok hrefundTotal, checkedTotal_ok hpayoutTotal, ← hall, ← hall']
    omega

theorem settlePositions_void {positions : List EscrowMathPosition}
    (h : settlePositions positions .void ratio = .ok t) :
    t.pots = ⟨0, 0, 0, 0⟩ ∧ Pays positions EscrowMathPosition.paid (fun _ => 0) t := by
  unfold settlePositions at h
  simp only [if_true, pure_bind, bind_ok_iff, checkedAddU64_ok_iff, pure_ok_iff] at h
  obtain ⟨deposits, hdeposits, refunds, hrefunds, _, _, refundTotal, hrefundTotal, payoutTotal,
    hpayoutTotal, total, ⟨rfl, _⟩, _, _, rfl⟩ := h
  refine ⟨rfl, Pays.of_lists ?_ List.nodup_nil ?_ hrefundTotal hpayoutTotal ?_⟩
  · intro c _
    exact (foldlM_pushRefund_ok c hrefunds).2
  · intro c _
    simp [payoutsTo]
  · rw [(validatePositions_ok hdeposits).2]

/-- The side an outcome pays. -/
def SettlementOutcome.winningSide (outcome : SettlementOutcome) : PositionSide :=
  if outcome = .claimWon then .back else .doubt

theorem settlePositions_decided {positions : List EscrowMathPosition} (houtcome : outcome ≠ .void)
    (h : settlePositions positions outcome ratio = .ok t) :
    computePots positions ratio = .ok t.pots ∧
    ((∀ p ∈ positions, t.pots.forfeitOf outcome.winningSide p ≤ p.activeAmount) →
      Pays positions (t.pots.refundOf outcome.winningSide)
        (t.pots.payoutOf outcome.winningSide positions) t) := by
  unfold settlePositions at h
  simp only [houtcome, if_false, bind_ok_iff, Prod.exists, checkedAddU64_ok_iff, pure_ok_iff] at h
  obtain ⟨deposits, hdeposits, resting, hresting, _, _, pots, hpots, refunds, payouts, hsides,
    refundTotal, hrefundTotal, payoutTotal, hpayoutTotal, total, ⟨rfl, _⟩, _, _, rfl⟩ := h
  refine ⟨hpots, ?_⟩
  intro hle
  obtain ⟨hids, hsum⟩ := validatePositions_ok hdeposits
  have hd := (foldlM_pushRefund_ok (fun _ => True) hresting).1
  refine Pays.of_lists ?_ (settleSides_ok (fun _ => True) hids hle hd hsides).2.1 ?_ hrefundTotal
    hpayoutTotal (by rw [hsum])
  · intro c _
    rw [(settleSides_ok c hids hle hd hsides).1, (foldlM_pushRefund_ok c hresting).2,
      ← List.sum_map_add]
    congr 1
    apply List.map_congr_left
    intro p _
    unfold EscrowPots.refundOf
    rw [if_neg houtcome]
    split
    · rfl
    · exact Int.add_zero 0
  · intro c _
    exact (settleSides_ok c hids hle hd hsides).2.2

end CalledIt.Sdk
