import CalledIt.Wager.Settling

/-!
# CalledIt.Wager.CreditRows

The entries that a settlement posts, as rows of the ledger.

They depend neither on the order in which the positions are read
(`settlementCredits_perm`) nor on pending positions having been voided in between
(`settlementCredits_voided`); no two of them have one key (`creditRows_nodup`).
-/

namespace CalledIt.Wager

open Lib
open Engine (PositionState SettlementOutcome)

/-! ## what a settlement posts -/

/-- The entries of a settlement. -/
def creditRows (asset : WagerAsset) (marketId : String) (outcome : SettlementOutcome)
    (positions : List WagerPositionRow) (credits : SettlementCredits) : List LedgerRow :=
  credits.refunds.map (fun refund => (refundCredit asset marketId refund).row) ++
    (payoutEntries outcome positions credits.payouts).map fun payout =>
      (payoutCredit asset marketId payout).row

def active (outcome : SettlementOutcome) (positions : List WagerPositionRow) :
    List WagerPositionRow :=
  positions.filter (!fullRefund outcome ·)

def fullRefunds (outcome : SettlementOutcome) (positions : List WagerPositionRow) : List Refund :=
  (positions.filter (fullRefund outcome)).map fun p => refundOf p p.stake

def pendingIds (outcome : SettlementOutcome) (positions : List WagerPositionRow) : List String :=
  ((positions.filter (fullRefund outcome)).filter (·.state = .pending)).map (·.id)

/-- A void market is no case of its own: nothing in it is active. -/
theorem settlementCredits_eq (positions : List WagerPositionRow) (outcome : SettlementOutcome)
    (probability : ℚ) :
    settlementCredits positions outcome probability =
      if positions.all (·.stake ≤ maxSafeInteger) then
        (computePots (active outcome positions) probability).map fun pots =>
          let settled := settleActive (active outcome positions) (winningSide outcome) pots
          { refunds := fullRefunds outcome positions ++ settled.1
            payouts := settled.2
            voidedPendingIds := pendingIds outcome positions
            pots }
      else none := by
  unfold settlementCredits
  refine if_congr Iff.rfl (congrArg (Option.map · _) (funext fun pots => ?_)) rfl
  split
  · next hvoid =>
      have hnone : positions.filter (!fullRefund outcome ·) = [] :=
        List.filter_eq_nil_iff.mpr fun p _ => by simp [fullRefund, hvoid]
      simp [active, fullRefunds, pendingIds, settleActive, hnone]
  · rfl

theorem wins_eq (outcome : SettlementOutcome) (positions : List WagerPositionRow) :
    wins outcome positions =
      (active outcome positions).filter (·.side = winningSide outcome) := by
  rw [wins, active, List.filter_filter]
  refine List.filter_congr fun p _ => ?_
  simp [Bool.and_comm]

/-- The settlement as its parts. -/
theorem settlementCredits_parts {positions : List WagerPositionRow} {outcome : SettlementOutcome}
    {probability : ℚ} {credits : SettlementCredits}
    (h : settlementCredits positions outcome probability = some credits) :
    positions.all (·.stake ≤ maxSafeInteger) = true ∧
      ∃ pots, computePots (active outcome positions) probability = some pots ∧
        credits.refunds = fullRefunds outcome positions ++
          (settleActive (active outcome positions) (winningSide outcome) pots).1 ∧
        credits.payouts = (settleActive (active outcome positions) (winningSide outcome) pots).2 ∧
        credits.voidedPendingIds = pendingIds outcome positions := by
  rw [settlementCredits_eq] at h
  split at h
  · next hall =>
      obtain ⟨pots, hpots, rfl⟩ := Option.map_eq_some_iff.mp h
      exact ⟨hall, pots, hpots, rfl, rfl, rfl⟩
  · cases h

/-! ## payouts -/

/-- A user's payout adds up the user's wins. -/
theorem lookup_foldl_addPayout (winners : List WagerPositionRow) (win : WagerPositionRow → Nat)
    (payouts : Store Nat Nat) (user : Nat) :
    (winners.foldl (fun payouts p => addPayout payouts p.userId (p.stake + win p))
        payouts).lookup user =
      if user ∈ winners.map (·.userId) then
        some ((payouts.lookup user).getD 0 +
          ((winners.filter (·.userId = user)).map fun p => p.stake + win p).sum)
      else payouts.lookup user := by
  induction winners generalizing payouts with
  | nil => simp
  | cons p winners ih =>
      rw [List.foldl_cons, ih]
      by_cases huser : p.userId = user
      · subst huser
        by_cases hrest : p.userId ∈ winners.map (·.userId)
        · simp [addPayout, hrest, Nat.add_assoc]
        · have hnone : winners.filter (·.userId = p.userId) = [] :=
            List.filter_eq_nil_iff.mpr fun q hq h =>
              hrest (List.mem_map.mpr ⟨q, hq, of_decide_eq_true h⟩)
          simp [addPayout, hrest, hnone]
      · have hother : (addPayout payouts p.userId (p.stake + win p)).lookup user =
            payouts.lookup user := AList.lookup_insert_ne (Ne.symm huser)
        simp only [hother, List.map_cons, List.mem_cons, Ne.symm huser, false_or,
          List.filter_cons, decide_eq_true_eq, huser, if_false]

/-- What the losers forfeit together. -/
def forfeited (active : List WagerPositionRow) (side : WagerPositionSide) (pots : Pots) : Nat :=
  ((active.filter (·.side ≠ side)).map (forfeit (pots.sides side).2.2 (pots.sides side).2.1)).sum

/-- What losers have back. -/
def unmatched (active : List WagerPositionRow) (side : WagerPositionSide) (pots : Pots) :
    List Refund :=
  ((active.filter (·.side ≠ side)).map fun p =>
    refundOf p (p.stake - forfeit (pots.sides side).2.2 (pots.sides side).2.1 p)).filter
      (0 < ·.lamports)

theorem settleActive_fst (active : List WagerPositionRow) (side : WagerPositionSide)
    (pots : Pots) : (settleActive active side pots).1 = unmatched active side pots := rfl

theorem lookup_settleActive (active : List WagerPositionRow) (side : WagerPositionSide)
    (pots : Pots) (user : Nat) :
    (settleActive active side pots).2.lookup user =
      if user ∈ (active.filter (·.side = side)).map (·.userId) then
        some (((active.filter (·.side = side)).filter (·.userId = user)).map fun p =>
          p.stake + share p.stake (forfeited active side pots) (pots.sides side).1).sum
      else none := by
  have hfold := lookup_foldl_addPayout (active.filter (·.side = side))
    (fun p => share p.stake (forfeited active side pots) (pots.sides side).1) ∅ user
  refine Eq.trans hfold ?_
  simp

section Permutations

variable {before after : List WagerPositionRow} (h : before.Perm after)
include h

theorem computePots_perm (probability : ℚ) :
    computePots before probability = computePots after probability := by
  have hside : ∀ side, sideStakes before side = sideStakes after side := fun side =>
    ((h.filter _).map _).sum_eq
  simp only [computePots, hside]

theorem unmatched_perm (side : WagerPositionSide) (pots : Pots) :
    (unmatched before side pots).Perm (unmatched after side pots) :=
  ((h.filter _).map _).filter _

theorem lookup_settleActive_perm (side : WagerPositionSide) (pots : Pots) (user : Nat) :
    (settleActive before side pots).2.lookup user =
      (settleActive after side pots).2.lookup user := by
  have hmem : user ∈ (before.filter (·.side = side)).map (·.userId) ↔
      user ∈ (after.filter (·.side = side)).map (·.userId) :=
    ((h.filter _).map _).mem_iff
  have hforfeited : forfeited before side pots = forfeited after side pots :=
    ((h.filter _).map _).sum_eq
  simp only [lookup_settleActive, hmem, hforfeited]
  congr 2
  exact ((((h.filter _).filter _).map _).sum_eq)

theorem payoutEntries_perm {outcome : SettlementOutcome} {payouts payouts' : Store Nat Nat}
    (hpayouts : ∀ user, payouts.lookup user = payouts'.lookup user) :
    (payoutEntries outcome before payouts).Perm (payoutEntries outcome after payouts') := by
  have husers : ((wins outcome before).map (·.userId)).reverse.dedup.reverse.Perm
      ((wins outcome after).map (·.userId)).reverse.dedup.reverse := by
    refine (List.reverse_perm _).trans (List.Perm.trans ?_ (List.reverse_perm _).symm)
    refine List.Perm.dedup ((List.reverse_perm _).trans (List.Perm.trans ?_
      (List.reverse_perm _).symm))
    exact (h.filter _).map _
  simp only [payoutEntries, hpayouts]
  exact husers.filterMap _

/-- The order in which positions are read does not matter. -/
theorem settlementCredits_perm {outcome : SettlementOutcome} {probability : ℚ}
    {credits : SettlementCredits}
    (hcredits : settlementCredits after outcome probability = some credits)
    (asset : WagerAsset) (marketId : String) :
    ∃ credits', settlementCredits before outcome probability = some credits' ∧
      (creditRows asset marketId outcome before credits').Perm
        (creditRows asset marketId outcome after credits) := by
  obtain ⟨hall, pots, hpots, hrefunds, hpayouts, -⟩ := settlementCredits_parts hcredits
  have hactive : (active outcome before).Perm (active outcome after) := h.filter _
  have hall' : before.all (·.stake ≤ maxSafeInteger) = true := by
    rw [List.all_eq_true] at hall ⊢
    exact fun p hp => hall p (h.mem_iff.mp hp)
  refine ⟨_, by rw [settlementCredits_eq, if_pos hall', computePots_perm hactive, hpots]; rfl, ?_⟩
  refine List.Perm.append (List.Perm.map _ ?_) (List.Perm.map _ ?_)
  · rw [hrefunds]
    exact ((h.filter _).map _).append (unmatched_perm hactive _ pots)
  · rw [hpayouts]
    exact payoutEntries_perm h (lookup_settleActive_perm hactive _ pots)

end Permutations

/-! ## voided positions -/

/-- A position before and after some of the pending ones were voided. -/
def Voided (before after : WagerPositionRow) : Prop :=
  after = before ∨ (before.state = .pending ∧ after = { before with state := .void })

def voidIn (ids : List String) (position : WagerPositionRow) : WagerPositionRow :=
  if position.id ∈ ids then { position with state := .void } else position

theorem Voided.fullRefund {before after : WagerPositionRow} (h : Voided before after)
    (outcome : SettlementOutcome) :
    Wager.fullRefund outcome after = Wager.fullRefund outcome before := by
  rcases h with rfl | ⟨hpending, rfl⟩
  · rfl
  · simp [Wager.fullRefund, hpending]

/-- A voided position is none of the active ones. -/
theorem Voided.eq_of_active {before after : WagerPositionRow} (h : Voided before after)
    {outcome : SettlementOutcome} (hactive : Wager.fullRefund outcome before = false) :
    after = before := by
  rcases h with rfl | ⟨hpending, -⟩
  · rfl
  · simp [Wager.fullRefund, hpending] at hactive

section Voided

variable {before after : List WagerPositionRow} (h : List.Forall₂ Voided before after)
include h

theorem all_voided (p : Nat → Bool) : after.all (p ·.stake) = before.all (p ·.stake) := by
  induction h with
  | nil => rfl
  | cons hone _ ih =>
      rcases hone with rfl | ⟨-, rfl⟩ <;> simp [ih]

theorem active_voided (outcome : SettlementOutcome) :
    active outcome after = active outcome before := by
  unfold active
  induction h with
  | nil => rfl
  | @cons b a bs as hone _ ih =>
      rw [List.filter_cons, List.filter_cons, hone.fullRefund outcome, ih]
      cases hactive : Wager.fullRefund outcome b with
      | true => rfl
      | false => rw [hone.eq_of_active hactive]

theorem fullRefunds_voided (outcome : SettlementOutcome) :
    fullRefunds outcome after = fullRefunds outcome before := by
  unfold fullRefunds
  induction h with
  | nil => rfl
  | @cons b a bs as hone _ ih =>
      have hrefund : refundOf a a.stake = refundOf b b.stake := by
        rcases hone with rfl | ⟨-, rfl⟩ <;> rfl
      rw [List.filter_cons, List.filter_cons, hone.fullRefund outcome]
      split
      · rw [List.map_cons, List.map_cons, ih, hrefund]
      · exact ih

/-- What is still pending was pending before. -/
theorem mem_of_pending {q : WagerPositionRow} (hq : q ∈ after) (hpending : q.state = .pending) :
    q ∈ before := by
  induction h with
  | nil => cases hq
  | @cons b a bs as hone _ ih =>
      rcases List.mem_cons.mp hq with rfl | hq
      · rcases hone with rfl | ⟨-, rfl⟩
        · exact List.mem_cons_self
        · cases hpending
      · exact List.mem_cons_of_mem _ (ih hq)

/-- Voiding positions that were pending is one more flip. -/
theorem voided_voidIn {ids : List String}
    (hids : ∀ p ∈ before, p.id ∈ ids → p.state = .pending) :
    List.Forall₂ Voided before (after.map (voidIn ids)) := by
  induction h with
  | nil => exact .nil
  | @cons b a bs as hone _ ih =>
      refine .cons ?_ (ih fun p hp => hids p (List.mem_cons_of_mem _ hp))
      have hb := hids b List.mem_cons_self
      unfold voidIn
      rcases hone with rfl | ⟨hpending, rfl⟩
      · split
        · next hmem => exact .inr ⟨hb hmem, rfl⟩
        · exact .inl rfl
      · refine .inr ⟨hpending, ?_⟩
        split <;> rfl

/-- The flips do not change what a settlement posts. -/
theorem settlementCredits_voided {outcome : SettlementOutcome} {probability : ℚ}
    {credits : SettlementCredits}
    (hcredits : settlementCredits after outcome probability = some credits)
    (asset : WagerAsset) (marketId : String) :
    ∃ credits', settlementCredits before outcome probability = some credits' ∧
      creditRows asset marketId outcome before credits' =
        creditRows asset marketId outcome after credits := by
  obtain ⟨hall, pots, hpots, hrefunds, hpayouts, -⟩ := settlementCredits_parts hcredits
  rw [active_voided h] at hpots hrefunds hpayouts
  rw [all_voided h fun stake => decide (stake ≤ maxSafeInteger)] at hall
  refine ⟨_, by rw [settlementCredits_eq, if_pos hall, hpots]; rfl, ?_⟩
  have hwins : wins outcome after = wins outcome before := by
    rw [wins_eq, wins_eq, active_voided h]
  simp only [creditRows, payoutEntries, hwins, hrefunds, hpayouts, fullRefunds_voided h]

end Voided

/-! ## keys -/

section Entries

variable {positions : List WagerPositionRow} {outcome : SettlementOutcome} {probability : ℚ}
  {credits : SettlementCredits}

theorem fullRefunds_ids (outcome : SettlementOutcome) (positions : List WagerPositionRow) :
    (fullRefunds outcome positions).map (·.positionId) =
      (positions.filter (fullRefund outcome)).map (·.id) := by
  rw [fullRefunds, List.map_map]
  rfl

theorem unmatched_ids_sublist (active : List WagerPositionRow) (side : WagerPositionSide)
    (pots : Pots) :
    ((unmatched active side pots).map (·.positionId)).Sublist (active.map (·.id)) := by
  have hall : ((active.filter (·.side ≠ side)).map fun p =>
      refundOf p (p.stake - forfeit (pots.sides side).2.2 (pots.sides side).2.1 p)).map
        (·.positionId) = (active.filter (·.side ≠ side)).map (·.id) := by
    rw [List.map_map]
    rfl
  refine ((List.filter_sublist).map _).trans ?_
  rw [hall]
  exact List.filter_sublist.map _

/-- Every user is listed once. -/
theorem payoutEntries_nodup (outcome : SettlementOutcome) (positions : List WagerPositionRow)
    (payouts : Store Nat Nat) :
    ((payoutEntries outcome positions payouts).map (·.1)).Nodup := by
  rw [payoutEntries, List.map_filterMap]
  refine List.Nodup.filterMap (fun u v w hu hv => ?_) (List.nodup_reverse.mpr (List.nodup_dedup _))
  simp only [Option.map_map, Option.mem_def, Option.map_eq_some_iff, Function.comp] at hu hv
  obtain ⟨-, -, rfl⟩ := hu
  obtain ⟨-, -, rfl⟩ := hv
  rfl

variable (hids : (positions.map (·.id)).Nodup)
  (h : settlementCredits positions outcome probability = some credits)
include h

/-- Refunds name positions of the market, and whose they are. -/
theorem mem_refunds {refund : Refund} (hmem : refund ∈ credits.refunds) :
    ∃ p ∈ positions, refund.positionId = p.id ∧ refund.userId = p.userId := by
  obtain ⟨-, pots, -, hrefunds, -, -⟩ := settlementCredits_parts h
  rw [hrefunds] at hmem
  rcases List.mem_append.mp hmem with hmem | hmem
  · obtain ⟨p, hp, rfl⟩ := List.mem_map.mp hmem
    exact ⟨p, List.mem_of_mem_filter hp, rfl, rfl⟩
  · obtain ⟨p, hp, rfl⟩ := List.mem_map.mp (List.mem_of_mem_filter hmem)
    exact ⟨p, List.mem_of_mem_filter (List.mem_of_mem_filter hp), rfl, rfl⟩

include hids in
/-- No position is refunded twice. -/
theorem refunds_nodup : (credits.refunds.map (·.positionId)).Nodup := by
  obtain ⟨-, pots, -, hrefunds, -, -⟩ := settlementCredits_parts h
  have hsplit : (((positions.filter (fullRefund outcome)).map (·.id)) ++
      (active outcome positions).map (·.id)).Perm (positions.map (·.id)) := by
    rw [← List.map_append]
    exact (List.filter_append_perm _ _).map _
  have hboth := (hsplit.nodup_iff).mpr hids
  rw [hrefunds, List.map_append, fullRefunds_ids]
  exact hboth.sublist ((List.Sublist.refl _).append (unmatched_ids_sublist _ _ pots))

/-- A payout in the map is one of a winner. -/
theorem mem_payoutEntries (user lamports : Nat) :
    (user, lamports) ∈ payoutEntries outcome positions credits.payouts ↔
      credits.payouts.lookup user = some lamports := by
  have husers : (user, lamports) ∈ payoutEntries outcome positions credits.payouts ↔
      user ∈ (wins outcome positions).map (·.userId) ∧
        credits.payouts.lookup user = some lamports := by
    simp only [payoutEntries, List.mem_filterMap, List.mem_reverse, List.mem_dedup,
      Option.map_eq_some_iff, Prod.mk.injEq]
    constructor
    · rintro ⟨u, hu, l, hl, rfl, rfl⟩
      exact ⟨hu, hl⟩
    · rintro ⟨hu, hl⟩
      exact ⟨user, hu, lamports, hl, rfl, rfl⟩
  rw [husers, and_iff_right_iff_imp]
  intro hlookup
  obtain ⟨-, pots, -, -, hpayouts, -⟩ := settlementCredits_parts h
  rw [hpayouts, lookup_settleActive, ← wins_eq] at hlookup
  by_contra hnone
  rw [if_neg hnone] at hlookup
  cases hlookup

/-- The listed payouts are those of the map. -/
theorem sum_payoutEntries :
    ((payoutEntries outcome positions credits.payouts).map (·.2)).sum =
      credits.payouts.total fun _ lamports => lamports := by
  have hperm : (payoutEntries outcome positions credits.payouts).Perm
      (credits.payouts.entries.map fun e => (e.1, e.2)) := by
    refine (List.perm_ext_iff_of_nodup (payoutEntries_nodup _ _ _).of_map ?_).mpr ?_
    · exact credits.payouts.nodupKeys.nodup.map fun _ _ h => by
        obtain ⟨h, h'⟩ := Prod.mk.inj h
        exact Sigma.ext h (heq_of_eq h')
    · rintro ⟨user, lamports⟩
      rw [mem_payoutEntries h, List.mem_map]
      constructor
      · exact fun hlookup => ⟨⟨user, lamports⟩, AList.mem_lookup_iff.mp hlookup, rfl⟩
      · rintro ⟨e, he, heq⟩
        obtain ⟨rfl, rfl⟩ := Prod.mk.inj heq
        exact AList.mem_lookup_iff.mpr he
  rw [(hperm.map _).sum_eq, List.map_map]
  rfl

include hids in
/-- No key is used twice. -/
theorem creditRows_nodup (asset : WagerAsset) (marketId : String) :
    ((creditRows asset marketId outcome positions credits).map (·.key)).Nodup := by
  have hrefunds : (credits.refunds.map fun r => LedgerKey.refund r.positionId).Nodup := by
    have hmap := (refunds_nodup hids h).map (f := LedgerKey.refund) fun _ _ h => by cases h; rfl
    rwa [List.map_map] at hmap
  have hpayouts : ((payoutEntries outcome positions credits.payouts).map fun p =>
      LedgerKey.payout marketId p.1).Nodup := by
    have hmap := (payoutEntries_nodup outcome positions credits.payouts).map
      (f := LedgerKey.payout marketId) fun _ _ h => by cases h; rfl
    rwa [List.map_map] at hmap
  rw [creditRows, List.map_append, List.map_map, List.map_map]
  refine List.nodup_append.mpr ⟨hrefunds, hpayouts, ?_⟩
  intro a ha b hb hab
  obtain ⟨r, -, rfl⟩ := List.mem_map.mp ha
  obtain ⟨p, -, rfl⟩ := List.mem_map.mp hb
  cases hab

/-- The entries add up to the credits. -/
theorem lamportsOf_creditRows (asset : WagerAsset) (marketId : String) :
    lamportsOf (creditRows asset marketId outcome positions credits) = credits.total := by
  rw [lamportsOf, creditRows, List.map_append, List.sum_append, List.map_map, List.map_map,
    SettlementCredits.total, ← sum_payoutEntries h]
  push_cast
  rw [List.map_map, List.map_map]
  rfl

end Entries

end CalledIt.Wager
