import CalledIt.Escrow.Outcome

/-!
# CalledIt.Escrow.Payout

What a market owes, phase by phase.

Before the terminal transition a market only fills up (`Ledger.Filling`).  While
it settles, processed positions have split what was paid in into a base and a
forfeit (`Ledger.Processing`).  Once it is terminal it owes each unclaimed
position a fixed amount, and all of these together never exceed what was paid in
(`Ledger.Paying`).  `payoutInv_of_life` is the run lemma.
-/

namespace CalledIt.Escrow

open Lib

/-! ## amounts in a trace -/

def Entry.deposit : Entry → Nat
  | .emitted _ (.positionPlaced e) => e.amount.toNat
  | _ => 0

def Entry.claim : Entry → Nat
  | .emitted _ (.positionClaimed e) => e.amount.toNat
  | _ => 0

/-- Everything ever paid in by `place_position`. -/
def deposits (trace : List Entry) : Nat := (trace.map Entry.deposit).sum

/-- Everything ever paid out by a claim. -/
def claims (trace : List Entry) : Nat := (trace.map Entry.claim).sum

@[simp] theorem deposits_snoc (trace : List Entry) (entry : Entry) :
    deposits (trace ++ [entry]) = deposits trace + entry.deposit := by
  simp [deposits]

@[simp] theorem claims_snoc (trace : List Entry) (entry : Entry) :
    claims (trace ++ [entry]) = claims trace + entry.claim := by
  simp [claims]

/-! ## the phases -/

/-- What a claim pays a position, over the naturals. -/
def Market.dueOf (m : Market) (p : UserPosition) : Nat :=
  match m.state, winningSide m.settlementOutcome with
  | .settled, .ok winner => p.settlementBaseEntitlement.toNat + m.winningsOf winner p
  | .voided, _ => p.totalPaidAmount.toNat
  | _, _ => 0

/-- What a position contributes to the sums below. -/
def owedWeight (m : Market) (_ : Pubkey) (p : UserPosition) : Nat :=
  if p.claimed then 0 else m.dueOf p

@[inherit_doc owedWeight]
def paidWeight (_ : Pubkey) (p : UserPosition) : Nat := p.totalPaidAmount.toNat

@[inherit_doc owedWeight]
def unclaimedWeight (_ : Pubkey) (p : UserPosition) : Nat := if p.claimed then 0 else 1

@[inherit_doc owedWeight]
def processedWeight (_ : Pubkey) (p : UserPosition) : Nat := if p.settlementProcessed then 1 else 0

@[inherit_doc owedWeight]
def forfeitWeight (m : Market) (winner : PositionSide) (_ : Pubkey) (p : UserPosition) : Nat :=
  if p.settlementProcessed then m.forfeitOf winner p else 0

/-- What the market still owes its unclaimed positions. -/
def Ledger.owed (L : Ledger) : Nat := L.positions.total (owedWeight L.market)

/-- What the stored positions have paid in. -/
def Ledger.paidTotal (L : Ledger) : Nat := L.positions.total paidWeight

/-- The number of positions still to be claimed. -/
def Ledger.unclaimed (L : Ledger) : Nat := L.positions.total unclaimedWeight

/-- Nothing was claimed, and everything paid in is accounted for. -/
structure Ledger.Filling (L : Ledger) (paidIn : Nat) : Prop where
  unclaimed : ∀ {o p}, L.positions.lookup o = some p → p.claimed = false
  noneClaimed : L.market.claimedPositionCount = 0
  paid : L.paidTotal = paidIn

/-- Nothing was processed yet. -/
def Ledger.Unprocessed (L : Ledger) : Prop :=
  ∀ {o p}, L.positions.lookup o = some p → p.settlementProcessed = false

/-- The processed positions have split what they paid into base and forfeit. -/
structure Ledger.Processing (L : Ledger) (winner : PositionSide) : Prop where
  matched : L.market.Matched
  wins : winningSide L.market.settlementOutcome = .ok winner
  count : L.market.settlementProcessedPositionCount.toNat =
    L.positions.total processedWeight
  forfeited : L.market.finalForfeitedTotal.toNat =
    L.positions.total (forfeitWeight L.market winner)
  base : ∀ {o p}, L.positions.lookup o = some p → p.settlementProcessed →
    p.settlementBaseEntitlement.toNat + L.market.forfeitOf winner p = p.totalPaidAmount.toNat

/-- A terminal market: its counters, and what it owes. -/
structure Ledger.Paying (L : Ledger) (claimed paidIn : Nat) : Prop where
  claims : L.market.claimedPositionCount.toNat + L.unclaimed = L.market.positionCount.toNat
  accounts : L.market.settlementProcessedPositionCount.toNat = L.positions.size
  owed : claimed + L.owed ≤ paidIn
  settled : L.market.state = .settled →
    (∃ winner, winningSide L.market.settlementOutcome = .ok winner) ∧
    ∀ {o p}, L.positions.lookup o = some p → p.settlementProcessed

/-! ## filling -/

variable {L L' : Ledger} {paidIn : Nat}

theorem Ledger.Filling.of_same (h : L.Filling paidIn) (hp : L'.positions = L.positions)
    (hc : L'.market.claimedPositionCount = L.market.claimedPositionCount) :
    L'.Filling paidIn := by
  obtain ⟨hunclaimed, hnone, hpaid⟩ := h
  refine ⟨?_, hc.trans hnone, ?_⟩
  · rw [hp]
    exact hunclaimed
  · unfold Ledger.paidTotal at hpaid ⊢
    rw [hp]
    exact hpaid

variable {o : Pubkey} {p p' : UserPosition}

theorem Ledger.Filling.replace (h : L.Filling paidIn) (hlookup : L.positions.lookup o = some p)
    (hp : L'.positions = L.positions.insert o p')
    (hc : L'.market.claimedPositionCount = L.market.claimedPositionCount)
    (hclaimed : p'.claimed = p.claimed) (hpaid : p'.totalPaidAmount = p.totalPaidAmount) :
    L'.Filling paidIn := by
  refine ⟨?_, hc.trans h.noneClaimed, ?_⟩
  · rw [hp]
    exact Store.forall_insert h.unclaimed (hclaimed.trans (h.unclaimed hlookup))
  · have hsum := Store.total_insert_of_lookup paidWeight p' hlookup
    have hbefore := h.paid
    unfold Ledger.paidTotal at hbefore ⊢
    simp only [paidWeight, hpaid] at hsum
    rw [hp]
    omega

variable {rt : Runtime} {m' : Market} {vault' : AccountInfo}

theorem Placed.filling {clock : Clock} {e : PositionPlaced} {lot : PositionLot}
    (h : Placed rt L clock e p m' p' lot vault') (hw : L.WellFormed) (hf : L.Filling paidIn)
    (hm : L'.market = m') (hp : L'.positions = L.positions.insert e.owner p') :
    L'.Filling (paidIn + e.amount.toNat) := by
  have hclaimed : p'.claimed = false := by
    rw [h.booked.holder.claimed]
    rcases h.base with ⟨_, _, _, hclaimed, _⟩ | ⟨_, ⟨_, _, rfl⟩, _⟩
    · exact hclaimed
    · rfl
  refine ⟨?_, ?_, ?_⟩
  · rw [hp]
    exact Store.forall_insert hf.unclaimed hclaimed
  · rw [hm, h.booked.terms.claimedPositionCount]
    exact hf.noneClaimed
  · have hbefore := hf.paid
    have hpaid := h.paid
    unfold Ledger.paidTotal at hbefore ⊢
    rw [hp]
    rcases (h.stands hw).1 with hlookup | ⟨hnone, _⟩
    · have hsum := Store.total_insert_of_lookup paidWeight p' hlookup
      simp only [paidWeight] at hsum
      omega
    · have hsum := Store.total_insert_of_none paidWeight p' hnone
      have hzero : p.totalPaidAmount.toNat = 0 := by
        rcases h.base with ⟨hlookup, _⟩ | ⟨_, ⟨_, _, rfl⟩, _⟩
        · rw [hnone] at hlookup
          contradiction
        · rfl
      simp only [paidWeight] at hsum
      omega

theorem Ledger.Unprocessed.insert (h : L.Unprocessed) (hp : L'.positions = L.positions.insert o p')
    (hprocessed : p'.settlementProcessed = false) : L'.Unprocessed := by
  unfold Ledger.Unprocessed
  rw [hp]
  exact Store.forall_insert h hprocessed

theorem Placed.unprocessed {clock : Clock} {e : PositionPlaced} {lot : PositionLot}
    (h : Placed rt L clock e p m' p' lot vault') : p'.settlementProcessed = false := by
  rw [h.booked.holder.settlementProcessed]
  rcases h.base with ⟨_, _, _, _, hprocessed, _⟩ | ⟨_, ⟨_, _, rfl⟩, _⟩
  · exact hprocessed
  · rfl

/-! ## processing -/

variable {outcome : SettlementOutcome}

theorem winningSide_of_outcome (h : outcome = .claimWon ∨ outcome = .claimLost) :
    ∃ winner, winningSide outcome = .ok winner := by
  rcases h with rfl | rfl
  · exact ⟨.back, rfl⟩
  · exact ⟨.doubt, rfl⟩

variable {hash : Bytes 32}

/-- A settlement starts with nothing processed. -/
theorem Ledger.Unprocessed.begin (h : L.Unprocessed)
    (begins : beginSettlement L.market outcome hash = .ok m') :
    ∃ winner, Ledger.Processing { L with market := m' } winner := by
  obtain ⟨houtcome, _, pots, hpots, rfl⟩ := beginSettlement_ok_iff.mp begins
  obtain ⟨winner, hwinner⟩ := winningSide_of_outcome houtcome
  refine ⟨winner, matched_le_of_computePots hpots, hwinner, ?_, ?_, ?_⟩
  · refine (Store.total_eq_zero ?_).symm
    intro o p hp
    simp [processedWeight, h hp]
  · refine (Store.total_eq_zero ?_).symm
    intro o p hp
    simp [forfeitWeight, h hp]
  · intro o p hp hprocessed
    rw [h hp] at hprocessed
    contradiction

variable {m : Market} {winner : PositionSide} {slot : UInt64}

/-- The forfeits are fixed once the settlement has begun. -/
theorem Entitled.forfeitOf_eq (h : Entitled m p winner slot m' p') (side : PositionSide)
    (q : UserPosition) : m'.forfeitOf side q = m.forfeitOf side q := by
  rw [h.market]
  rfl

theorem Entitled.forfeitOf_position (h : Entitled m p winner slot m' p') (side : PositionSide) :
    m.forfeitOf side p' = m.forfeitOf side p := by
  rw [h.position]
  rfl

theorem Entitled.processing {winner' : PositionSide} (h : Entitled L.market p winner' slot m' p')
    (hlookup : L.positions.lookup o = some p) (hp : L.Processing winner) (hm : L'.market = m')
    (hpositions : L'.positions = L.positions.insert o p') : L'.Processing winner := by
  obtain rfl : winner = winner' := by
    have heq := hp.wins.symm.trans h.wins
    exact Except.ok.inj heq
  have hdone : p'.settlementProcessed = true := by rw [h.position]
  have hnot : p.settlementProcessed = false := h.unprocessed
  subst hm
  refine ⟨?_, ?_, ?_, ?_, ?_⟩
  · rw [h.market]
    exact hp.matched
  · rw [h.market]
    exact hp.wins
  · have hsum := Store.total_insert_of_lookup processedWeight p' hlookup
    have hbefore := hp.count
    have hnext := h.processed
    have hone : processedWeight o p' = 1 := by simp [processedWeight, hdone]
    have hzero : processedWeight o p = 0 := by simp [processedWeight, hnot]
    rw [hpositions]
    omega
  · have hsum := Store.total_insert_of_lookup (forfeitWeight L.market winner) p' hlookup
    have hbefore := hp.forfeited
    have hnext := h.forfeited
    have hsame : forfeitWeight L'.market winner = forfeitWeight L.market winner := by
      funext o' q
      unfold forfeitWeight
      rw [h.forfeitOf_eq]
    have hweight : forfeitWeight L.market winner o p' = L.market.forfeitOf winner p := by
      unfold forfeitWeight
      rw [if_pos hdone, h.forfeitOf_position]
    have hzero : forfeitWeight L.market winner o p = 0 := by
      simp [forfeitWeight, hnot]
    rw [hpositions, hsame]
    omega
  · intro o' q hq hprocessed
    rw [h.forfeitOf_eq]
    rw [hpositions] at hq
    rcases Store.lookup_insert_iff.mp hq with ⟨_, rfl⟩ | ⟨_, hq⟩
    · rw [h.forfeitOf_position, h.base, h.sameBuckets.2.2.2.1]
    · exact hp.base hq hprocessed

/-! ## paying -/

/-- Winnings are shares of the forfeited total, so together they stay within. -/
theorem Ledger.RolledUp.winnings_le (hr : L.RolledUp) (winner : PositionSide) :
    L.positions.total (fun _ p => L.market.winningsOf winner p) ≤
      L.market.finalForfeitedTotal.toNat := by
  have hstakes : ((L.positions.entries.map fun e => sideWeight .active winner e.1 e.2).sum) =
      (L.market.activeTotal winner).toNat := (hr.totals .active winner (by decide)).symm
  have hshares := sum_share_le (m := L.market.finalForfeitedTotal.toNat) (Nat.le_of_eq hstakes)
  rw [List.map_map] at hshares
  unfold Store.total
  refine Nat.le_trans (Nat.le_of_eq ?_) hshares
  congr 1
  apply List.map_congr_left
  intro e _
  change L.market.winningsOf winner e.2 =
    share (sideWeight .active winner e.1 e.2) _ (L.market.activeTotal winner).toNat
  unfold Market.winningsOf sideWeight
  by_cases hside : e.2.side = winner
  · rw [if_pos hside, if_pos hside]
    rfl
  · rw [if_neg hside, if_neg hside]
    simp [share]

/-- While nothing is claimed, every position is still to be claimed. -/
theorem Ledger.Filling.claims (hf : L.Filling paidIn) (hr : L.RolledUp) :
    L.market.claimedPositionCount.toNat + L.unclaimed = L.market.positionCount.toNat := by
  have hunclaimed : L.unclaimed = L.positions.size := by
    apply Store.total_congr
    intro o p hlookup
    simp [unclaimedWeight, hf.unclaimed hlookup]
  rw [hunclaimed, hr.count, hf.noneClaimed]
  exact Nat.zero_add _

/-- When every position is processed, the market owes no more than was paid in. -/
theorem Ledger.Processing.paying (hp : L.Processing winner) (hf : L.Filling paidIn)
    (hr : L.RolledUp) (hall : L.market.settlementProcessedPositionCount = L.market.positionCount)
    (hstate : L.market.state = .settled) : L.Paying 0 paidIn := by
  have hcount : L.market.settlementProcessedPositionCount.toNat = L.positions.size := by
    rw [hall]
    exact hr.count
  have hprocessed : ∀ {o p}, L.positions.lookup o = some p → p.settlementProcessed = true := by
    intro o p hlookup
    have hmark := hp.count.symm.trans hcount
    exact Store.marked_of_total_eq_size (p := fun q : UserPosition => q.settlementProcessed = true)
      hmark hlookup
  refine ⟨hf.claims hr, hcount, ?_, fun _ => ⟨⟨winner, hp.wins⟩, hprocessed⟩⟩
  · -- base and winnings per position; bases and forfeits make up what was paid
    have howed : L.owed = L.positions.total fun _ p =>
        p.settlementBaseEntitlement.toNat + L.market.winningsOf winner p := by
      apply Store.total_congr
      intro o p hlookup
      simp [owedWeight, hf.unclaimed hlookup, Market.dueOf, hstate, hp.wins]
    have hpaid : L.paidTotal = L.positions.total fun o p =>
        p.settlementBaseEntitlement.toNat + forfeitWeight L.market winner o p := by
      apply Store.total_congr
      intro o p hlookup
      have hbase := hp.base hlookup (hprocessed hlookup)
      unfold paidWeight forfeitWeight
      rw [if_pos (hprocessed hlookup)]
      exact hbase.symm
    have hwinnings : L.positions.total (fun _ => L.market.winningsOf winner) ≤ _ :=
      hr.winnings_le winner
    have hforfeited := hp.forfeited
    have hbefore := hf.paid
    rw [Store.total_add] at howed hpaid
    omega

/-- A void market owes exactly what was paid in. -/
theorem Ledger.Filling.void (hf : L.Filling paidIn) (hr : L.RolledUp)
    (voids : transitionToVoid L.market hash = .ok m') :
    Ledger.Paying { L with market := m' } 0 paidIn := by
  obtain ⟨_, rfl⟩ := transitionToVoid_ok_iff.mp voids
  refine ⟨hf.claims hr, hr.count, ?_, ?_⟩
  · rw [Nat.zero_add, ← hf.paid]
    apply Nat.le_of_eq
    apply Store.total_congr
    intro o p hlookup
    simp [owedWeight, hf.unclaimed hlookup, Market.dueOf, paidWeight]
  · intro hsettled
    contradiction

variable {claimed : Nat}

/-- In a market that pays, a claim is for what is due. -/
theorem Ledger.Paying.claimAmount_iff (h : L.Paying claimed paidIn)
    (hstate : L.market.state.Terminal) (hp : L.positions.lookup o = some p) {amount : UInt64} :
    claimAmount L.market p = .ok amount ↔ amount.toNat = L.market.dueOf p := by
  unfold claimAmount Market.dueOf
  rcases hstate with hs | hs
  · obtain ⟨⟨winner, hwinner⟩, hprocessed⟩ := h.settled hs
    simp only [hs, hwinner, require_pos (hprocessed hp), ok_bind]
    exact settledClaimAmount_ok_iff hwinner
  · simp only [hs, Except.ok.injEq]
    rw [← UInt64.toNat_inj, eq_comm]

theorem Claimed.dueOf {e : PositionClaimed} (h : Claimed rt L e p m' vault') (q : UserPosition) :
    m'.dueOf q = L.market.dueOf q := by
  rw [h.market]
  rfl

theorem Claimed.paying {e : PositionClaimed} (h : Claimed rt L e p m' vault')
    (hpaying : L.Paying claimed paidIn) (hm : L'.market = m')
    (hp : L'.positions = L.positions.insert e.owner { p with claimed := true }) :
    L'.Paying (claimed + e.amount.toNat) paidIn := by
  have hterminal := terminal_of_claimAmount h.amount
  have hdue := (hpaying.claimAmount_iff hterminal h.position).mp h.amount
  have hopen : p.claimed = false := h.unclaimed
  subst hm
  refine ⟨?_, ?_, ?_, ?_⟩
  · have hsum := Store.total_insert_of_lookup unclaimedWeight { p with claimed := true } h.position
    have hone : unclaimedWeight e.owner p = 1 := by simp [unclaimedWeight, hopen]
    have hzero : unclaimedWeight e.owner { p with claimed := true } = 0 := rfl
    have hbefore := hpaying.claims
    have hnext := h.count
    have hcount : L'.market.positionCount = L.market.positionCount := by rw [h.market]
    unfold Ledger.unclaimed at hbefore ⊢
    rw [hp, hcount]
    omega
  · have hsum := Store.total_insert_of_lookup (fun _ _ => 1) { p with claimed := true } h.position
    have hbefore := hpaying.accounts
    have hcount : L'.market.settlementProcessedPositionCount =
        L.market.settlementProcessedPositionCount := by rw [h.market]
    unfold Store.size at hbefore ⊢
    rw [hp, hcount]
    omega
  · have hsum := Store.total_insert_of_lookup (owedWeight L.market) { p with claimed := true }
      h.position
    have hweight : owedWeight L'.market = owedWeight L.market := by
      funext o q
      unfold owedWeight
      rw [h.dueOf]
    have hbefore := hpaying.owed
    have hone : owedWeight L.market e.owner p = L.market.dueOf p := by simp [owedWeight, hopen]
    have hzero : owedWeight L.market e.owner { p with claimed := true } = 0 := rfl
    unfold Ledger.owed at hbefore ⊢
    rw [hp, hweight]
    omega
  · intro hsettled
    rw [h.market] at hsettled
    obtain ⟨hwinner, hprocessed⟩ := hpaying.settled hsettled
    refine ⟨by rw [h.market]; exact hwinner, ?_⟩
    rw [hp]
    exact Store.forall_insert (P := fun q : UserPosition => q.settlementProcessed = true)
      (v := { p with claimed := true }) hprocessed (hprocessed h.position :)

theorem LotsClosed.paying {e : PositionLotsClosed} {lots' : Store (Pubkey × UInt64) PositionLot}
    (h : LotsClosed L e p p' lots') (hpaying : L.Paying claimed paidIn) (hm : L'.market = L.market)
    (hp : L'.positions = L.positions.insert e.owner p') :
    L'.Paying claimed paidIn := by
  -- a claimed position stays claimed and processed
  have hflag : p'.claimed = p.claimed := by rw [h.holder]
  have hdone : p'.settlementProcessed = p.settlementProcessed := by rw [h.holder]
  have hpaid : p.claimed = true := h.claimed
  refine ⟨?_, ?_, ?_, ?_⟩
  · have hsum := Store.total_insert_of_lookup unclaimedWeight p' h.position
    have hweight : unclaimedWeight e.owner p' = unclaimedWeight e.owner p := by
      unfold unclaimedWeight
      rw [hflag]
    have hbefore := hpaying.claims
    unfold Ledger.unclaimed at hbefore ⊢
    rw [hp, hm]
    omega
  · have hsum := Store.total_insert_of_lookup (fun _ _ => 1) p' h.position
    have hbefore := hpaying.accounts
    unfold Store.size at hbefore ⊢
    rw [hp, hm]
    omega
  · have hsum := Store.total_insert_of_lookup (owedWeight L.market) p' h.position
    have hweight : owedWeight L.market e.owner p' = owedWeight L.market e.owner p := by
      unfold owedWeight
      rw [hflag, if_pos hpaid, if_pos hpaid]
    have hbefore := hpaying.owed
    unfold Ledger.owed at hbefore ⊢
    rw [hp, hm]
    omega
  · intro hsettled
    rw [hm] at hsettled ⊢
    obtain ⟨hwinner, hprocessed⟩ := hpaying.settled hsettled
    refine ⟨hwinner, ?_⟩
    rw [hp]
    exact Store.forall_insert (P := fun q : UserPosition => q.settlementProcessed = true)
      hprocessed (hdone.trans (hprocessed h.position))

/-- Closing a claimed position touches none of the sums. -/
theorem Ledger.Paying.erase (h : L.Paying claimed paidIn) (hlookup : L.positions.lookup o = some p)
    (hclaimed : p.claimed = true) {count : UInt64}
    (hcount : count.toNat + 1 = L.market.settlementProcessedPositionCount.toNat)
    (hm : L'.market = { L.market with settlementProcessedPositionCount := count })
    (hp : L'.positions = L.positions.erase o) : L'.Paying claimed paidIn := by
  refine ⟨?_, ?_, ?_, ?_⟩
  · have hsum := Store.total_erase unclaimedWeight hlookup
    have hzero : unclaimedWeight o p = 0 := by simp [unclaimedWeight, hclaimed]
    have hbefore := h.claims
    unfold Ledger.unclaimed at hbefore ⊢
    rw [hp, hm]
    change L.market.claimedPositionCount.toNat + _ = L.market.positionCount.toNat
    omega
  · have hsum := Store.total_erase (fun _ _ => 1) hlookup
    have hbefore := h.accounts
    unfold Store.size at hbefore ⊢
    rw [hp, hm]
    change count.toNat = _
    omega
  · have hsum := Store.total_erase (owedWeight L.market) hlookup
    have hzero : owedWeight L.market o p = 0 := by simp [owedWeight, hclaimed]
    have hbefore := h.owed
    unfold Ledger.owed at hbefore ⊢
    have hweight : owedWeight L'.market = owedWeight L.market := by
      rw [hm]
      rfl
    rw [hp, hweight]
    omega
  · intro hsettled
    rw [hm] at hsettled
    obtain ⟨hwinner, hprocessed⟩ := h.settled hsettled
    refine ⟨by rw [hm]; exact hwinner, ?_⟩
    intro o' q hq
    rw [hp] at hq
    exact hprocessed (Store.lookup_erase_iff.mp hq).2

/-! ## along a run -/

structure PayoutInv (trace : List Entry) (L : Ledger) : Prop where
  live : L.market.state.Live → L.Filling (deposits trace) ∧ L.Unprocessed
  settling : L.market.state = .settling →
    L.Filling (deposits trace) ∧ ∃ winner, L.Processing winner
  terminal : L.market.state.Terminal → L.Paying (claims trace) (deposits trace)
  unpaid : ¬ L.market.state.Done → claims trace = 0
  bounded : claims trace ≤ deposits trace

theorem MarketState.Live.ne_settling {state : MarketState} (h : state.Live) :
    state ≠ .settling := by
  rintro rfl
  exact absurd h (by decide)

variable {trace : List Entry}

/-- The invariant of a market that stays live. -/
theorem PayoutInv.of_live (hlive : L.market.state.Live) (hf : L.Filling (deposits trace))
    (hu : L.Unprocessed) (hclaims : claims trace = 0) :
    PayoutInv trace L := by
  refine ⟨fun _ => ⟨hf, hu⟩, fun hs => absurd hs hlive.ne_settling,
    fun ht => absurd hlive ht.not_live, fun _ => hclaims, ?_⟩
  rw [hclaims]
  exact Nat.zero_le _

/-- The invariant where a live market stays live. -/
theorem PayoutInv.stays {entry : Entry} (hpay : PayoutInv trace L) (hlive : L.market.state.Live)
    (hlive' : L'.market.state.Live) (hclaim : entry.claim = 0)
    (hf : L.Filling (deposits trace) → L'.Filling (deposits trace + entry.deposit))
    (hu : L.Unprocessed → L'.Unprocessed) : PayoutInv (trace ++ [entry]) L' := by
  refine .of_live hlive' ?_ (hu (hpay.live hlive).2) ?_
  · rw [deposits_snoc]
    exact hf (hpay.live hlive).1
  · rw [claims_snoc, hpay.unpaid hlive.not_done, hclaim]

/-- The invariant of a terminal market. -/
theorem PayoutInv.of_terminal (ht : L.market.state.Terminal)
    (hp : L.Paying (claims trace) (deposits trace)) : PayoutInv trace L := by
  refine ⟨fun hlive => absurd hlive ht.not_live, ?_, fun _ => hp, fun hnot => absurd ht.done hnot,
    ?_⟩
  · intro hs
    rw [hs] at ht
    rcases ht with ht | ht <;> contradiction
  · have howed := hp.owed
    omega

/-- The invariant when a settlement step leaves every position processed or not. -/
theorem PayoutInv.of_processing (hf : L.Filling (deposits trace)) (hp : L.Processing winner)
    (hr : L.RolledUp) (hclaims : claims trace = 0)
    (hstate : L.market.state = if L.market.settlementProcessedPositionCount =
      L.market.positionCount then .settled else .settling) : PayoutInv trace L := by
  split at hstate
  · next hall =>
    apply PayoutInv.of_terminal (.inl hstate)
    rw [hclaims]
    exact hp.paying hf hr hall hstate
  · refine ⟨?_, fun _ => ⟨hf, winner, hp⟩, ?_, fun _ => hclaims, ?_⟩
    · intro hlive
      exact absurd hstate hlive.ne_settling
    · intro ht
      rw [hstate] at ht
      rcases ht with ht | ht <;> contradiction
    · rw [hclaims]
      exact Nat.zero_le _

theorem beginSettlement_state (h : beginSettlement m outcome hash = .ok m') :
    m'.state = if m'.settlementProcessedPositionCount = m'.positionCount then .settled
      else .settling := by
  obtain ⟨_, _, pots, _, rfl⟩ := beginSettlement_ok_iff.mp h
  simp only [eq_comm]

theorem beginSettlement_claimedPositionCount (h : beginSettlement m outcome hash = .ok m') :
    m'.claimedPositionCount = m.claimedPositionCount := by
  obtain ⟨_, _, pots, _, rfl⟩ := beginSettlement_ok_iff.mp h
  rfl

theorem Moved.payoutInv {entry : Entry} {nonce : UInt64} {lot : PositionLot} {bucket : LotState}
    (h : Moved L o nonce p lot bucket m' p') (hpay : PayoutInv trace L) (hm : L'.market = m')
    (hp : L'.positions = L.positions.insert o p') (hdeposit : entry.deposit = 0)
    (hclaim : entry.claim = 0) : PayoutInv (trace ++ [entry]) L' := by
  have hholder := h.booked.holder
  refine hpay.stays h.live ?_ hclaim (fun hf => ?_) fun hu => hu.insert hp ?_
  · rw [hm, h.booked.terms.state]
    exact h.live
  · rw [hdeposit]
    exact hf.replace h.position hp (by rw [hm, h.booked.terms.claimedPositionCount])
      hholder.claimed h.paid
  · rw [hholder.settlementProcessed]
    exact hu h.position

/-- While a market settles nothing is paid in or out. -/
theorem PayoutInv.quiet (hpay : PayoutInv trace L) (hnot : ¬ L.market.state.Done) (entry : Entry)
    (hdeposit : entry.deposit = 0) (hclaim : entry.claim = 0) :
    deposits (trace ++ [entry]) = deposits trace ∧ claims (trace ++ [entry]) = 0 := by
  rw [deposits_snoc, claims_snoc, hpay.unpaid hnot, hdeposit, hclaim]
  exact ⟨rfl, rfl⟩

/-- **Every effect keeps the payout invariant.** -/
theorem Effect.payoutInv {entry : Entry} (h : Effect rt L entry L') (hinv : L.Inv)
    (hpay : PayoutInv trace L) :
    PayoutInv (trace ++ [entry]) L' := by
  obtain ⟨hw, hr⟩ := hinv
  cases h with
  | froze opens =>
      exact hpay.stays (.inl opens) (.inr rfl) rfl (fun hf => hf.of_same rfl rfl) fun hu => hu
  | unfroze frozen =>
      exact hpay.stays (.inr frozen) (.inl rfl) rfl (fun hf => hf.of_same rfl rfl) fun hu => hu
  | placed h =>
      have hlive : L.market.state.Live := .inl h.opens
      refine hpay.stays hlive ?_ rfl (fun hf => h.filling hw hf rfl rfl)
        fun hu => hu.insert rfl h.unprocessed
      rw [h.booked.terms.state]
      exact hlive
  | activated h | invalidated h => exact h.payoutInv hpay rfl rfl rfl rfl
  | @began clock event outcome hash m' begins emits =>
      obtain ⟨htotals, hcount⟩ := beginSettlement_keeps begins
      have hlive := (beginSettlement_ok_iff.mp begins).2.1
      obtain ⟨hf, hu⟩ := hpay.live hlive
      obtain ⟨winner, hp⟩ := hu.begin begins
      have hquiet := hpay.quiet hlive.not_done (.emitted clock event)
        (by obtain ⟨e, rfl⟩ | ⟨e, rfl⟩ := emits <;> rfl)
        (by obtain ⟨e, rfl⟩ | ⟨e, rfl⟩ := emits <;> rfl)
      have hrolled := (hr hlive.not_done).of_market htotals hcount
      refine .of_processing ?_ hp hrolled hquiet.2 (beginSettlement_state begins)
      rw [hquiet.1]
      exact hf.of_same rfl (beginSettlement_claimedPositionCount begins)
  | @entitled clock event o p p' m' winner position h emits =>
      obtain ⟨hf, winner', hp⟩ := hpay.settling h.settling
      have hnot : ¬ L.market.state.Done := by simp [MarketState.Done, h.settling]
      have hquiet := hpay.quiet hnot (.emitted clock event)
        (by obtain ⟨e, rfl⟩ | ⟨e, rfl⟩ := emits <;> rfl)
        (by obtain ⟨e, rfl⟩ | ⟨e, rfl⟩ := emits <;> rfl)
      have hrolled := h.rolledUp position (hr hnot)
      refine .of_processing ?_ (h.processing position hp rfl rfl) hrolled hquiet.2 ?_
      · rw [hquiet.1]
        exact hf.replace position rfl (by rw [h.market]) (by rw [h.position]) (by rw [h.position])
      · have hstate := h.state
        have hcount : m'.positionCount = L.market.positionCount := h.keeps.2
        rw [← hcount] at hstate
        exact hstate
  | voided voids =>
      have hlive := (transitionToVoid_ok_iff.mp voids).1
      obtain ⟨hf, _⟩ := hpay.live hlive
      have hpaying := hf.void (hr hlive.not_done) voids
      have hclaims := hpay.unpaid hlive.not_done
      obtain ⟨_, rfl⟩ := transitionToVoid_ok_iff.mp voids
      apply PayoutInv.of_terminal (.inr rfl)
      rw [deposits_snoc, claims_snoc, hclaims]
      exact hpaying
  | claimed h =>
      have hterminal := terminal_of_claimAmount h.amount
      refine .of_terminal ?_ ?_
      · rw [h.market]
        exact hterminal
      · rw [deposits_snoc, claims_snoc]
        exact h.paying (hpay.terminal hterminal) rfl rfl
  | lotsClosed h =>
      refine .of_terminal h.terminal ?_
      rw [deposits_snoc, claims_snoc]
      exact h.paying (hpay.terminal h.terminal) rfl rfl
  | positionClosed terminal position claimed noLots next =>
      refine .of_terminal terminal ?_
      rw [deposits_snoc, claims_snoc]
      exact (hpay.terminal terminal).erase position claimed next rfl rfl
  | closed terminal =>
      have hbounded := hpay.bounded
      refine ⟨?_, ?_, ?_, ?_, ?_⟩
      · intro hlive
        rcases hlive with hs | hs <;> contradiction
      · intro hs
        contradiction
      · intro ht
        rcases ht with ht | ht <;> contradiction
      · intro hnot
        exact absurd (.inr (.inr rfl)) hnot
      · rw [deposits_snoc, claims_snoc]
        exact hbounded
  | received =>
      obtain ⟨hlive, hsettling, hterminal, hunpaid, hbounded⟩ := hpay
      refine ⟨?_, ?_, ?_, ?_, ?_⟩
      · intro hs
        rw [deposits_snoc]
        exact ⟨(hlive hs).1.of_same rfl rfl, (hlive hs).2⟩
      · intro hs
        obtain ⟨hf, winner, hp⟩ := hsettling hs
        rw [deposits_snoc]
        exact ⟨hf.of_same rfl rfl, winner, hp.matched, hp.wins, hp.count, hp.forfeited, hp.base⟩
      · intro hs
        have hp := hterminal hs
        rw [deposits_snoc, claims_snoc]
        exact ⟨hp.claims, hp.accounts, hp.owed, hp.settled⟩
      · intro hs
        rw [claims_snoc, hunpaid hs]
        rfl
      · rw [deposits_snoc, claims_snoc]
        exact hbounded

theorem Fresh.payoutInv (h : Fresh rt L) : PayoutInv [] L := by
  have hpositions : ∀ {o p}, L.positions.lookup o = some p → False := by
    intro o p hp
    rw [h.positions] at hp
    contradiction
  refine .of_live (.inl h.opens) ⟨?_, h.claimedPositionCount, ?_⟩ ?_ rfl
  · intro o p hp
    exact (hpositions hp).elim
  · unfold Ledger.paidTotal
    rw [h.positions]
    rfl
  · intro o p hp
    exact (hpositions hp).elim

theorem payoutInv_of_life {opening : Ledger} (h : Life rt opening trace L) : PayoutInv trace L := by
  have hfresh := fresh_of_opened h.opened
  have hboth := h.run.invariant_trace (I := fun trace L => L.Inv ∧ PayoutInv trace L)
    (fun hs hi => ⟨(effect_of_step hs).inv hi.1, (effect_of_step hs).payoutInv hi.1 hi.2⟩)
    ⟨hfresh.inv, hfresh.payoutInv⟩
  exact hboth.2

end CalledIt.Escrow
