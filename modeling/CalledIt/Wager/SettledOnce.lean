import CalledIt.Wager.CreditRows

/-!
# CalledIt.Wager.SettledOnce

A settlement credits once, however many runs apply it and wherever they stop.

`Consistent` is what the tables hold of a market between any two calls, of any run:
the ledger has none but the market's entries under its keys, the positions are those
staked, some of the pending ones voided, and a marked market has all its entries.  Each
run keeps it on its own (`secured_applySettlement`), so all of them do together
(`settled_once`).
-/

namespace CalledIt.Wager

open Lib
open Engine (PositionState SettlementOutcome)

/-! ## a market and its entries -/

/-- A market whose outcome is recorded, with its positions as they were staked. -/
structure SettledMarket where
  id : String
  asset : WagerAsset
  outcome : SettlementOutcome
  probability : ℚ
  positions : List WagerPositionRow
  /-- The primary key. -/
  ids_nodup : (positions.map (·.id)).Nodup

namespace SettledMarket

def credits (market : SettledMarket) : Option SettlementCredits :=
  settlementCredits market.positions market.outcome market.probability

/-- The entries that the settlement has to post. -/
def entries (market : SettledMarket) : List LedgerRow :=
  match market.credits with
  | none => []
  | some credits => creditRows market.asset market.id market.outcome market.positions credits

/-- The key is one of the market's settlement. -/
def Owns (market : SettledMarket) : LedgerKey → Prop
  | .refund id => id ∈ market.positions.map (·.id)
  | .payout marketId _ => marketId = market.id
  | .other _ => False

end SettledMarket

/-! ## what holds between two calls -/

/-- The credits of the market in the ledger. -/
def creditsOf (tables : SettlementTables) (marketId : String) : List LedgerRow :=
  tables.ledger.filter fun r => r.marketId = some marketId ∧ (r.kind = .refund ∨ r.kind = .payout)

variable {credits : SettlementCredits} {row : LedgerRow}

namespace SettledMarket

variable (market : SettledMarket)

/-- A row of the ledger that no settlement of the market has written. -/
def Foreign (row : LedgerRow) : Prop :=
  ¬ market.Owns row.key ∧
    ¬ (row.marketId = some market.id ∧ (row.kind = .refund ∨ row.kind = .payout))

/-- What the tables hold of the market. -/
structure Consistent (tables : SettlementTables) : Prop where
  keys : (tables.ledger.map (·.key)).Nodup
  rows : ∀ r ∈ tables.ledger, r ∈ market.entries ∨ market.Foreign r
  positions : List.Forall₂ Voided market.positions (positionsOf tables market.id)
  currency : tables.currency market.id = some (.asset market.asset)
  outcome : tables.outcome market.id = some market.outcome
  probability : tables.probability market.id = some market.probability
  applied : market.id ∈ tables.applied →
    market.credits.isSome = true ∧ ∀ r ∈ market.entries, r ∈ tables.ledger

/-- The ledger only grows. -/
def Grows (s t : SettlementTables) : Prop := ∀ r ∈ s.ledger, r ∈ t.ledger

/-- What goes on beside the market's settlement: entries of others, their positions and
markets. -/
structure Elsewhere (s t : SettlementTables) : Prop where
  ledger : ∃ rows, t.ledger = s.ledger ++ rows ∧ ∀ r ∈ rows, market.Foreign r
  keys : (t.ledger.map (·.key)).Nodup
  positions : positionsOf t market.id = positionsOf s market.id
  currency : t.currency market.id = s.currency market.id
  outcome : t.outcome market.id = s.outcome market.id
  probability : t.probability market.id = s.probability market.id
  applied : market.id ∈ t.applied → market.id ∈ s.applied

/-- Before the first run: the positions as staked, nothing credited or marked. -/
structure Fresh (tables : SettlementTables) : Prop where
  keys : (tables.ledger.map (·.key)).Nodup
  rows : ∀ r ∈ tables.ledger, market.Foreign r
  positions : positionsOf tables market.id = market.positions
  currency : tables.currency market.id = some (.asset market.asset)
  outcome : tables.outcome market.id = some market.outcome
  probability : tables.probability market.id = some market.probability
  applied : market.id ∉ tables.applied

/-- The runs of the market's settlement. -/
def Settles (program : SettlementProgram PUnit) : Prop :=
  ∃ options, program = applySettlement market.id options

variable {market} {s t : SettlementTables}

theorem relies : Program.Relies Grows where
  refl _ _ h := h
  trans h h' r hr := h' r (h r hr)

theorem Fresh.consistent (h : market.Fresh s) : market.Consistent s where
  keys := h.keys
  rows r hr := .inr (h.rows r hr)
  positions := by
    rw [h.positions]
    exact List.forall₂_same.mpr fun p _ => .inl rfl
  currency := h.currency
  outcome := h.outcome
  probability := h.probability
  applied hmem := absurd hmem h.applied

theorem Elsewhere.consistent (h : market.Elsewhere s t) (hs : market.Consistent s) :
    market.Consistent t ∧ Grows s t := by
  obtain ⟨rows, hrows, hforeign⟩ := h.ledger
  have hgrows : Grows s t := fun r hr => hrows ▸ List.mem_append_left _ hr
  refine ⟨?_, hgrows⟩
  exact
    { keys := h.keys
      rows := fun r hr => by
        rw [hrows] at hr
        rcases List.mem_append.mp hr with hr | hr
        · exact hs.rows r hr
        · exact .inr (hforeign r hr)
      positions := h.positions ▸ hs.positions
      currency := h.currency.trans hs.currency
      outcome := h.outcome.trans hs.outcome
      probability := h.probability.trans hs.probability
      applied := fun hmem => by
        obtain ⟨hsome, hall⟩ := hs.applied (h.applied hmem)
        exact ⟨hsome, fun r hr => hgrows r (hall r hr)⟩ }

/-! ## one run -/

theorem mem_entries (h : market.credits = some credits) :
    market.entries = creditRows market.asset market.id market.outcome market.positions credits := by
  rw [entries, h]

theorem entries_nodup (market : SettledMarket) : (market.entries.map (·.key)).Nodup := by
  unfold entries
  cases h : market.credits with
  | none => exact List.nodup_nil
  | some credits => exact creditRows_nodup market.ids_nodup h _ _

/-- The market's entries are its own. -/
theorem owns_of_mem_entries (h : row ∈ market.entries) : market.Owns row.key := by
  unfold entries at h
  cases hcredits : market.credits with
  | none =>
      rw [hcredits] at h
      cases h
  | some credits =>
      rw [hcredits] at h
      rcases List.mem_append.mp h with h | h
      · obtain ⟨refund, hrefund, rfl⟩ := List.mem_map.mp h
        obtain ⟨p, hp, hid, -⟩ := mem_refunds hcredits hrefund
        exact List.mem_map.mpr ⟨p, hp, hid.symm⟩
      · obtain ⟨payout, -, rfl⟩ := List.mem_map.mp h
        rfl

/-- One entry of the market is posted, or was. -/
theorem Consistent.post {credit : Credit} {tables : WagerTables} {inserted : Bool}
    (hs : market.Consistent s) (hmem : credit.row ∈ market.entries)
    (h : Wager.postWagerLedger s.toWagerTables credit = some (tables, .posted inserted)) :
    market.Consistent { s with toWagerTables := tables } ∧
      Grows s { s with toWagerTables := tables } ∧ credit.row ∈ tables.ledger := by
  unfold Wager.postWagerLedger at h
  split at h
  · cases h
  split at h
  · next hany =>
      -- the row with this key is the entry itself
      obtain ⟨row, hrow, hkey⟩ := List.any_eq_true.mp hany
      have hkey : row.key = credit.row.key := of_decide_eq_true hkey
      have hown : row ∈ market.entries := by
        rcases hs.rows row hrow with hown | hforeign
        · exact hown
        · exact absurd (hkey ▸ owns_of_mem_entries hmem) hforeign.1
      obtain rfl : row = credit.row :=
        List.inj_on_of_nodup_map market.entries_nodup hown hmem hkey
      obtain ⟨rfl, -⟩ := Prod.mk.inj (Option.some.inj h)
      exact ⟨hs, fun _ h => h, hrow⟩
  · next hnew =>
      obtain ⟨rfl, -⟩ := Prod.mk.inj (Option.some.inj h)
      have hgrows : ∀ r ∈ s.ledger, r ∈ s.ledger ++ [credit.row] := fun r hr =>
        List.mem_append_left _ hr
      refine ⟨?_, hgrows, List.mem_append_right _ List.mem_cons_self⟩
      exact
        { hs with
          keys := by
            rw [List.map_append]
            refine List.nodup_append.mpr ⟨hs.keys, List.nodup_singleton _, ?_⟩
            intro a ha b hb hab
            obtain ⟨row, hrow, rfl⟩ := List.mem_map.mp ha
            obtain rfl := List.mem_singleton.mp hb
            exact hnew (List.any_eq_true.mpr ⟨row, hrow, decide_eq_true hab⟩)
          rows := fun r hr => by
            rcases List.mem_append.mp hr with hr | hr
            · exact hs.rows r hr
            · exact .inl (List.mem_singleton.mp hr ▸ hmem)
          applied := fun h => by
            obtain ⟨hsome, hall⟩ := hs.applied h
            exact ⟨hsome, fun r hr => hgrows r (hall r hr)⟩ }

/-- Pending positions are voided. -/
theorem Consistent.setPositionStates {ids : List String} (hs : market.Consistent s)
    (hids : ∀ p ∈ market.positions, p.id ∈ ids → p.state = .pending) :
    market.Consistent (Wager.setPositionStates s ids .void) := by
  have hpositions : positionsOf (Wager.setPositionStates s ids .void) market.id =
      (positionsOf s market.id).map (voidIn ids) := by
    simp only [positionsOf, Wager.setPositionStates, List.filter_map, List.map_map]
    have hfilter : (s.positions.filter ((fun p => decide (p.marketId = market.id)) ∘ fun p =>
        if p.id ∈ ids then { p with state := .void } else p)) =
          s.positions.filter (·.marketId = market.id) := by
      refine List.filter_congr fun p _ => ?_
      simp only [Function.comp]
      split <;> rfl
    rw [hfilter]
    refine List.map_congr_left fun p _ => ?_
    simp only [Function.comp, voidIn]
    split <;> rfl
  exact { hs with positions := hpositions ▸ voided_voidIn hs.positions hids }

/-- The market is marked, all entries being there. -/
theorem Consistent.insertSettlementApplied (hs : market.Consistent s)
    (hsome : market.credits.isSome = true) (hall : ∀ r ∈ market.entries, r ∈ s.ledger) :
    market.Consistent { s with applied := s.applied ++ [market.id] } :=
  { hs with applied := fun _ => ⟨hsome, hall⟩ }

end SettledMarket

variable {positions : List WagerPositionRow}

namespace SettledMarket

open Program

variable {market : SettledMarket} {s : SettlementTables} {α : Type}

/-- What the program returns, whatever the other runs do. -/
abbrev Secured (market : SettledMarket) (Q : α → SettlementTables → Prop)
    (p : SettlementProgram α) (s : SettlementTables) : Prop :=
  Guarantees SettlementCall.Answers market.Consistent Grows Q p s

/-- A call that only reads. -/
theorem secured_read {c : SettlementCall} {Q : c.Reply → SettlementTables → Prop}
    (h : ∀ t r u, market.Consistent t → c.Answers t r u → u = t ∧ Q r t) :
    market.Secured Q (Program.perform c : SettlementProgram c.Reply) s :=
  guarantees_perform fun t _ ht r u hanswers => by
    obtain ⟨rfl, hQ⟩ := h t r u ht hanswers
    exact ⟨ht, fun _ h => h, hQ⟩

theorem secured_bind {β : Type} {p : SettlementProgram α} {f : α → SettlementProgram β}
    {Q : α → SettlementTables → Prop} {Q' : β → SettlementTables → Prop}
    (hs : market.Consistent s) (h : market.Secured Q p s)
    (hf : ∀ a t, market.Consistent t → Q a t → market.Secured Q' (f a) t) :
    market.Secured Q' (p >>= f) s :=
  Guarantees.bind relies hs h fun a t _ ht hQ => hf a t ht hQ

/-- An entry of the market is in the ledger after its call. -/
theorem secured_post {credit : Credit} (hmem : credit.row ∈ market.entries) :
    market.Secured (fun _ t => credit.row ∈ t.ledger)
      (SettlementProgram.postWagerLedger credit) s := by
  intro t _ ht inserted u hanswers
  obtain ⟨-, tables, hpost, rfl⟩ := hanswers
  exact ht.post hmem hpost

theorem secured_posts {γ : Type} {credit : γ → Credit} {xs : List γ} (hs : market.Consistent s)
    (hmem : ∀ x ∈ xs, (credit x).row ∈ market.entries) :
    market.Secured (fun _ t => ∀ x ∈ xs, (credit x).row ∈ t.ledger)
      (xs.forM fun x => SettlementProgram.postWagerLedger (credit x)) s :=
  guarantees_forM (I := fun x t => (credit x).row ∈ t.ledger) relies
    (fun x _ _ hgrows h => hgrows (credit x).row h) (fun x hx _ => secured_post (hmem x hx)) hs

theorem secured_setPositionStates {ids : List String}
    (hids : ∀ p ∈ market.positions, p.id ∈ ids → p.state = .pending) :
    market.Secured (fun _ _ => True) (SettlementProgram.setPositionStates ids .void) s := by
  rintro t _ ht - u rfl
  exact ⟨ht.setPositionStates hids, fun _ h => h, trivial⟩

theorem secured_insertSettlementApplied (hsome : market.credits.isSome = true)
    (hall : ∀ r ∈ market.entries, r ∈ s.ledger) :
    market.Secured (fun _ _ => True) (SettlementProgram.insertSettlementApplied market.id) s := by
  rintro t hgrows ht - u rfl
  split
  · exact ⟨ht, fun _ h => h, trivial⟩
  · exact ⟨ht.insertSettlementApplied hsome fun r hr => hgrows r (hall r hr), fun _ h => h, trivial⟩

/-- Positions as some run reads them. -/
def Read (market : SettledMarket) (positions : List WagerPositionRow) : Prop :=
  ∃ rows, List.Forall₂ Voided market.positions rows ∧ rows.Perm positions

/-- However they are read, the same entries are posted. -/
theorem Read.creditRows_perm (h : market.Read positions)
    (hcredits : settlementCredits positions market.outcome market.probability = some credits) :
    market.credits.isSome = true ∧
      market.entries.Perm
        (creditRows market.asset market.id market.outcome positions credits) := by
  obtain ⟨rows, hvoided, hperm⟩ := h
  obtain ⟨middle, hmiddle, hrows⟩ := settlementCredits_perm hperm hcredits market.asset market.id
  obtain ⟨first, hfirst, heq⟩ := settlementCredits_voided hvoided hmiddle market.asset market.id
  refine ⟨Option.isSome_iff_exists.mpr ⟨first, hfirst⟩, ?_⟩
  rw [mem_entries hfirst, heq]
  exact hrows

theorem Read.pending (h : market.Read positions)
    (hcredits : settlementCredits positions market.outcome market.probability = some credits) :
    ∀ p ∈ market.positions, p.id ∈ credits.voidedPendingIds → p.state = .pending := by
  obtain ⟨rows, hvoided, hperm⟩ := h
  obtain ⟨-, pots, -, -, -, hids⟩ := settlementCredits_parts hcredits
  intro p hp hid
  rw [hids] at hid
  obtain ⟨q, hq, hqid⟩ := List.mem_map.mp hid
  obtain ⟨hq, hpending⟩ := List.mem_filter.mp hq
  have hmem : q ∈ market.positions :=
    mem_of_pending hvoided (hperm.mem_iff.mpr (List.mem_of_mem_filter hq))
      (of_decide_eq_true hpending)
  obtain rfl : q = p := List.inj_on_of_nodup_map market.ids_nodup hmem hp hqid
  exact of_decide_eq_true hpending

theorem secured_applyCredits (hread : market.Read positions)
    (hcredits : settlementCredits positions market.outcome market.probability = some credits)
    (hs : market.Consistent s) :
    market.Secured (fun _ _ => True)
      (applyCredits market.id market.asset market.outcome positions credits) s := by
  obtain ⟨hsome, hperm⟩ := hread.creditRows_perm hcredits
  have hrefunds : ∀ r ∈ credits.refunds, (refundCredit market.asset market.id r).row ∈
      market.entries := fun r hr =>
    hperm.mem_iff.mpr (List.mem_append_left _ (List.mem_map_of_mem hr))
  have hpayouts : ∀ p ∈ payoutEntries market.outcome positions credits.payouts,
      (payoutCredit market.asset market.id p).row ∈ market.entries := fun p hp =>
    hperm.mem_iff.mpr (List.mem_append_right _ (List.mem_map_of_mem hp))
  -- the marker comes last, when all rows are there
  have hmark : ∀ t, market.Consistent t →
      (∀ r ∈ credits.refunds, (refundCredit market.asset market.id r).row ∈ t.ledger) →
        market.Secured (fun _ _ => True)
          ((payoutEntries market.outcome positions credits.payouts).forM (fun payout =>
            SettlementProgram.postWagerLedger (payoutCredit market.asset market.id payout)) >>=
              fun _ => SettlementProgram.insertSettlementApplied market.id) t := by
    intro t ht hposted
    have hframe := (secured_posts ht hpayouts).frame
      (F := fun t => ∀ r ∈ credits.refunds, (refundCredit market.asset market.id r).row ∈ t.ledger)
      (fun hgrows h r hr => hgrows _ (h r hr)) hposted
    refine secured_bind ht hframe fun _ u _ hall => ?_
    refine secured_insertSettlementApplied hsome fun row hrow => ?_
    rcases List.mem_append.mp (hperm.mem_iff.mp hrow) with hrow | hrow
    · obtain ⟨r, hr, rfl⟩ := List.mem_map.mp hrow
      exact hall.2 r hr
    · obtain ⟨p, hp, rfl⟩ := List.mem_map.mp hrow
      exact hall.1 p hp
  unfold applyCredits
  refine secured_bind hs (secured_posts hs hrefunds) fun _ t ht hposted => ?_
  split
  · have hframe := (secured_setPositionStates (s := t) (hread.pending hcredits)).frame
      (F := fun t => ∀ r ∈ credits.refunds, (refundCredit market.asset market.id r).row ∈ t.ledger)
      (fun hgrows h r hr => hgrows _ (h r hr)) hposted
    exact secured_bind ht hframe fun _ u hu hall => hmark u hu hall.2
  · exact hmark t ht hposted

theorem secured_fullyBacked {options : WagerSettlementOptions} :
    market.Secured (fun _ _ => True) (fullyBacked options market.id positions) s := by
  unfold fullyBacked
  split
  · trivial
  split
  · trivial
  · rintro t - ht debited u ⟨-, rfl⟩
    exact ⟨ht, fun _ h => h, trivial⟩

/-- What a run reads of the market is what is recorded. -/
theorem secured_reads (market : SettledMarket) (s : SettlementTables) :
    market.Secured (fun a _ => ∀ asset ∈ a, asset = market.asset)
        (SettlementProgram.getMarketAsset market.id) s ∧
      market.Secured (fun o _ => o = some market.outcome)
        (SettlementProgram.getSettlementOutcome market.id) s ∧
      market.Secured (fun p _ => p = some market.probability)
        (SettlementProgram.getMarketProbability market.id) s ∧
      market.Secured (fun rows _ => market.Read rows)
        (SettlementProgram.positionsForMarket market.id) s := by
  refine ⟨secured_read fun t asset u ht h => ⟨h.2, fun a ha => ?_⟩,
    secured_read fun t outcome u ht h => ⟨h.2, h.1.trans ht.outcome⟩,
    secured_read fun t probability u ht h => ⟨h.2, h.1.trans ht.probability⟩,
    secured_read fun t rows u ht h => ⟨h.2, _, ht.positions, h.1⟩⟩
  have hcurrency := ht.currency.symm.trans h.1
  rw [Option.mem_def.mp ha] at hcurrency
  cases hcurrency
  rfl

/-- One run, among any others. -/
theorem secured_applySettlement (options : WagerSettlementOptions) (hs : market.Consistent s) :
    market.Secured (fun _ _ => True) (applySettlement market.id options) s := by
  refine secured_bind (Q := fun _ _ => True) hs
    (secured_read fun t r u _ h => ⟨h.2, trivial⟩) fun applied t ht _ => ?_
  split
  · trivial
  refine secured_bind ht (secured_reads market t).1 fun asset t ht hasset => ?_
  cases asset with
  | none => trivial
  | some asset =>
  obtain rfl := hasset asset rfl
  refine secured_bind ht (secured_reads market t).2.1 fun outcome t ht houtcome => ?_
  subst houtcome
  refine secured_bind ht (secured_reads market t).2.2.1 fun probability t ht hprobability => ?_
  subst hprobability
  refine secured_bind ht (secured_reads market t).2.2.2 fun positions t ht hread => ?_
  refine secured_bind ht secured_fullyBacked fun backed t ht _ => ?_
  split
  · cases hcredits : settlementCredits positions market.outcome market.probability with
    | none => trivial
    | some credits => exact secured_applyCredits hread hcredits ht
  · trivial

/-! ## all runs -/

/-- The market is credited once, within its stakes, and in full where it is marked. -/
structure Once (market : SettledMarket) (tables : SettlementTables) : Prop where
  /-- A credit refunds a position to its owner or pays a user. -/
  keyed : ∀ r ∈ creditsOf tables market.id,
    (r.kind = .refund ∧ ∃ p ∈ market.positions, r.key = .refund p.id ∧ r.userId = p.userId) ∨
      (r.kind = .payout ∧ r.key = .payout market.id r.userId)
  refunds : ∀ p ∈ market.positions,
    ((creditsOf tables market.id).filter (·.key = .refund p.id)).length ≤ 1
  payouts : ∀ user, ((creditsOf tables market.id).filter fun r =>
    r.kind = .payout ∧ r.userId = user).length ≤ 1
  bounded : lamportsOf (creditsOf tables market.id) ≤ stakes market.positions
  complete : market.id ∈ tables.applied →
    ∃ credits, settlementCredits market.positions market.outcome market.probability =
      some credits ∧ (creditsOf tables market.id).Perm
        (creditRows market.asset market.id market.outcome market.positions credits)

/-- An entry of the market is a credit of it. -/
theorem entry_cases (h : row ∈ market.entries) :
    row.marketId = some market.id ∧ 0 ≤ row.lamports ∧
      ((row.kind = .refund ∧ ∃ p ∈ market.positions, row.key = .refund p.id ∧
          row.userId = p.userId) ∨
        (row.kind = .payout ∧ row.key = .payout market.id row.userId)) := by
  unfold entries at h
  cases hcredits : market.credits with
  | none =>
      rw [hcredits] at h
      cases h
  | some credits =>
      rw [hcredits] at h
      rcases List.mem_append.mp h with h | h
      · obtain ⟨refund, hrefund, rfl⟩ := List.mem_map.mp h
        obtain ⟨p, hp, hid, huser⟩ := mem_refunds hcredits hrefund
        exact ⟨rfl, Int.natCast_nonneg _, .inl ⟨rfl, p, hp, congrArg LedgerKey.refund hid, huser⟩⟩
      · obtain ⟨payout, -, rfl⟩ := List.mem_map.mp h
        exact ⟨rfl, Int.natCast_nonneg _, .inr ⟨rfl, rfl⟩⟩

theorem Consistent.mem_creditsOf (hs : market.Consistent s) :
    row ∈ creditsOf s market.id ↔ row ∈ s.ledger ∧ row ∈ market.entries := by
  simp only [creditsOf, List.mem_filter, decide_eq_true_eq]
  refine and_congr_right fun hrow => ⟨fun hcredit => ?_, fun hentry => ?_⟩
  · exact (hs.rows row hrow).resolve_right fun hforeign => hforeign.2 hcredit
  · obtain ⟨hmarket, -, hkind⟩ := entry_cases hentry
    exact ⟨hmarket, hkind.imp And.left And.left⟩

theorem lamportsOf_entries_le (market : SettledMarket) :
    lamportsOf market.entries ≤ stakes market.positions := by
  unfold entries
  cases hcredits : market.credits with
  | none => exact Int.natCast_nonneg _
  | some credits =>
      rw [lamportsOf_creditRows hcredits]
      exact_mod_cast total_le_stakes hcredits

theorem Consistent.once (hs : market.Consistent s) : market.Once s := by
  have hkeys : ((creditsOf s market.id).map (·.key)).Nodup :=
    hs.keys.sublist (List.filter_sublist.map _)
  have hentries : ∀ r ∈ creditsOf s market.id, r ∈ market.entries := fun r hr =>
    (hs.mem_creditsOf.mp hr).2
  have hkeyed := fun r hr => (entry_cases (hentries r hr)).2.2
  refine ⟨hkeyed, fun p _ => ?_, fun user => ?_, ?_, fun happlied => ?_⟩
  · refine length_le_one (hkeys.sublist (List.filter_sublist.map _)) (.refund p.id) fun r hr => ?_
    exact of_decide_eq_true (List.mem_filter.mp hr).2
  · refine length_le_one (hkeys.sublist (List.filter_sublist.map _)) (.payout market.id user)
      fun r hr => ?_
    obtain ⟨hcredit, hpayout⟩ := List.mem_filter.mp hr
    obtain ⟨hkind, rfl⟩ : r.kind = .payout ∧ r.userId = user := of_decide_eq_true hpayout
    rcases hkeyed r hcredit with hrefund | hpayout
    · rw [hkind] at hrefund
      cases hrefund.1
    · exact hpayout.2
  · obtain ⟨rows, hperm, hsublist⟩ := hkeys.of_map.subperm hentries
    refine le_trans ?_ (lamportsOf_entries_le market)
    rw [lamportsOf, lamportsOf, ← (hperm.map _).sum_eq]
    refine (hsublist.map _).sum_le_sum fun x hx => ?_
    obtain ⟨r, hr, rfl⟩ := List.mem_map.mp hx
    exact (entry_cases hr).2.1
  · obtain ⟨hsome, hall⟩ := hs.applied happlied
    obtain ⟨credits, hcredits⟩ := Option.isSome_iff_exists.mp hsome
    refine ⟨credits, hcredits, ?_⟩
    rw [← mem_entries hcredits]
    refine (List.perm_ext_iff_of_nodup hkeys.of_map (entries_nodup market).of_map).mpr fun r => ?_
    rw [hs.mem_creditsOf]
    exact ⟨And.right, fun hr => ⟨hall r hr, hr⟩⟩

end SettledMarket

/-- In every state of every interleaving of runs, with whatever else is written, the
market is credited once, and in full where a run has marked it. -/
theorem settled_once (market : SettledMarket) {tables : SettlementTables}
    (hfresh : market.Fresh tables)
    {threads : Program.Threads SettlementCall SettlementCall.Reply PUnit SettlementTables}
    (hrun : Program.Runs SettlementCall.Answers market.Settles market.Elsewhere ⟨tables, []⟩
      threads) : market.Once threads.shared := by
  have hkeeps := hrun.keeps SettledMarket.relies
    (fun p hp s hs => by
      obtain ⟨options, rfl⟩ := hp
      exact SettledMarket.secured_applySettlement options hs)
    (fun s t hst hs => hst.consistent hs)
    ⟨hfresh.consistent, fun p hp => absurd hp List.not_mem_nil⟩
  exact hkeeps.invariant.once

/-! ## a run that stops -/

namespace Sample

/-- A winner, a loser and a pending position. -/
def settledMarket : SettledMarket where
  id := "m"
  asset := .sol
  outcome := .claimWon
  probability := 1 / 2
  positions :=
    [⟨"p1", 1, .back, .active, 10⟩, ⟨"p2", 2, .doubt, .active, 10⟩, ⟨"p3", 3, .back, .pending, 5⟩]
  ids_nodup := by decide

def settledTables : SettlementTables where
  ledger := []
  positions := settledMarket.positions.map fun p => { p with marketId := "m" }
  withdrawals := []
  grants := []
  budget := ⟨false, 10000000, 5000000000, 500, 0, 0⟩
  surroundings := ⟨fun _ => none, fun _ => none, fun _ => none, fun _ => none⟩
  currency := fun _ => some (.asset .sol)
  outcome := fun _ => some .claimWon
  probability := fun _ => some (1 / 2)
  applied := []

def refundRow : LedgerRow := (refundCredit .sol "m" ⟨"p3", 3, 5⟩).row

def payoutRow : LedgerRow := (payoutCredit .sol "m" (1, 20)).row

/-- After a run that stopped at its flip. -/
def settledHalfway : SettlementTables :=
  Wager.setPositionStates { settledTables with ledger := [refundRow] } ["p3"] .void

/-- After the next run, which read the position as void. -/
def settledWhole : SettlementTables :=
  { settledHalfway with ledger := [refundRow, payoutRow], applied := ["m"] }

def flippedPositions : List WagerPositionRow := settledMarket.positions.map (voidIn ["p3"])

/-- What both runs compute. -/
theorem credits_eq : ∀ positions ∈ [settledMarket.positions, flippedPositions],
    ∃ credits, settlementCredits positions .claimWon (1 / 2) = some credits ∧
      credits.refunds = [⟨"p3", 3, 5⟩] ∧
      payoutEntries .claimWon positions credits.payouts = [(1, 20)] ∧
      credits.voidedPendingIds = pendingIds .claimWon positions := by
  intro positions hpositions
  have hparts : (settlementCredits positions .claimWon (1 / 2)).map (fun credits =>
      (credits.refunds, payoutEntries .claimWon positions credits.payouts)) =
        some ([⟨"p3", 3, 5⟩], [(1, 20)]) := by
    revert positions
    decide +kernel
  obtain ⟨credits, hcredits, hparts⟩ := Option.map_eq_some_iff.mp hparts
  obtain ⟨hrefunds, hpayouts⟩ := Prod.mk.inj hparts
  obtain ⟨-, pots, -, -, -, hids⟩ := settlementCredits_parts hcredits
  exact ⟨credits, hcredits, hrefunds, hpayouts, hids⟩

/-- A run reads the market, whatever its state. -/
theorem crashes_read {s t : SettlementTables} (positions : List WagerPositionRow)
    (hs : s.applied = [] ∧ s.currency = settledTables.currency ∧
      s.outcome = settledTables.outcome ∧ s.probability = settledTables.probability)
    (hpositions : positionsOf s "m" = positions)
    (hcredits : settlementCredits positions .claimWon (1 / 2) = some credits)
    (hrun : Program.Crashes SettlementCall.Answers (fun _ _ _ => False)
      (applyCredits "m" .sol .claimWon positions credits) s t) :
    Program.Crashes SettlementCall.Answers (fun _ _ _ => False)
      (applySettlement "m" ⟨false, true⟩) s t := by
  obtain ⟨happlied, hcurrency, houtcome, hprobability⟩ := hs
  refine .after (r := false) ⟨by simp [happlied], rfl⟩ ?_
  refine .after (r := some WagerAsset.sol) ⟨by rw [hcurrency]; rfl, rfl⟩ ?_
  refine .after (r := some SettlementOutcome.claimWon) ⟨by rw [houtcome]; rfl, rfl⟩ ?_
  refine .after (r := some (1 / 2 : ℚ)) ⟨by rw [hprobability]; rfl, rfl⟩ ?_
  refine .after (r := positions) ⟨hpositions ▸ .refl _, rfl⟩ ?_
  have hsettle : settle ⟨false, true⟩ "m" .sol .claimWon (1 / 2) positions =
      applyCredits "m" .sol .claimWon positions credits := by
    show (match settlementCredits positions .claimWon (1 / 2) with
      | none => (pure PUnit.unit : SettlementProgram PUnit)
      | some credits => applyCredits "m" .sol .claimWon positions credits) = _
    rw [hcredits]
  show Program.Crashes _ _ (settle ⟨false, true⟩ "m" .sol .claimWon (1 / 2) positions) s t
  rwa [hsettle]

theorem crashes_halfway : Program.Crashes SettlementCall.Answers (fun _ _ _ => False)
    (applySettlement "m" ⟨false, true⟩) settledTables settledHalfway := by
  obtain ⟨credits, hcredits, hrefunds, hpayouts, hids⟩ := credits_eq _ List.mem_cons_self
  refine crashes_read settledMarket.positions ⟨rfl, rfl, rfl, rfl⟩ rfl hcredits ?_
  have hids : credits.voidedPendingIds = ["p3"] := hids
  unfold applyCredits
  rw [hrefunds, hids, hpayouts]
  refine .after (r := true) ⟨by decide, _, rfl, rfl⟩ ?_
  exact .after (r := ()) rfl (.before _ _)

theorem crashes_whole : Program.Crashes SettlementCall.Answers (fun _ _ _ => False)
    (applySettlement "m" ⟨false, true⟩) settledHalfway settledWhole := by
  obtain ⟨credits, hcredits, hrefunds, hpayouts, hids⟩ :=
    credits_eq flippedPositions (List.mem_cons_of_mem _ List.mem_cons_self)
  refine crashes_read flippedPositions ⟨rfl, rfl, rfl, rfl⟩ rfl hcredits ?_
  have hids : credits.voidedPendingIds = [] := hids
  unfold applyCredits
  rw [hrefunds, hids, hpayouts]
  refine .after (r := false) ⟨by decide, _, rfl, rfl⟩ ?_
  refine .after (r := true) ⟨by decide, _, rfl, rfl⟩ ?_
  exact .after (r := ()) rfl (.before _ _)

theorem fresh : settledMarket.Fresh settledTables where
  keys := List.nodup_nil
  rows _ hr := absurd hr List.not_mem_nil
  positions := rfl
  currency := rfl
  outcome := rfl
  probability := rfl
  applied := List.not_mem_nil

/-- A run stops at its flip; the next one posts what is missing. -/
theorem settled_after_crash : settledMarket.Once settledWhole ∧
    creditsOf settledWhole "m" = [refundRow, payoutRow] := by
  have hstarts : settledMarket.Settles (applySettlement "m" ⟨false, true⟩) := ⟨_, rfl⟩
  refine ⟨settled_once settledMarket fresh (?_ : Program.Runs _ _ _ _ ⟨settledWhole, []⟩), rfl⟩
  exact (crashes_halfway.runs hstarts []).trans (crashes_whole.runs hstarts [])

end Sample

end CalledIt.Wager
