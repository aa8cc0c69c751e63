import CalledIt.Indexer.FinalizedIndexer
import CalledIt.Lib.Keyset
import CalledIt.Lib.Transducer
import Mathlib.Data.List.Sort

/-!
# CalledIt.Relayer.Reconciliation

The sweep over the markets that are reconciled again and again
(`engine/src/escrow/periodic-reconciliation-runner.ts`), and the function that lists them
(`0033_escrow_unknown_finality.sql`).

A cycle asks for the links behind its cursor and offers each to admission.  A listing that
fails or that is refused leaves the cursor where it is; whatever admission and reconciling do,
the cursor goes on.  So a sweep visits every market (`sweep_visits_every_market`).
-/

namespace CalledIt.Relayer.Reconciliation

open Lib
open Escrow (Asset)
open Indexer (EscrowChainState)

/-! ## the listing -/

/-- A `uuid`, by its bits; its text is never empty. -/
abbrev Uuid := ℕ

/-- A row of `escrow_market_links`, with the custody of its market. -/
structure LinkRow where
  marketId : Uuid
  custodyMode : String
  marketCustodyMode : String
  custodyVersion : Int
  cluster : String
  genesisHash : String
  programId : String
  marketPda : String
  vaultPda : String
  asset : Asset
  commitment : String
  canonical : Bool
  chainState : EscrowChainState
  projectionStale : Bool
  marketPda_ne : marketPda ≠ ""
  vaultPda_ne : vaultPda ≠ ""

/-- `escrow_market_links`, with its primary key. -/
structure LinkTable where
  rows : List LinkRow
  key : (rows.map (·.marketId)).Nodup

structure Deployment where
  cluster : String
  genesisHash : String
  programId : String
  custodyVersion : Int

structure ReconciliationLink where
  marketId : Uuid
  custodyMode : String
  marketPda : String
  vaultPda : String
  asset : Asset
  revalidationRequired : Bool
  deriving DecidableEq, Repr

def LinkRow.link (row : LinkRow) : ReconciliationLink where
  marketId := row.marketId
  custodyMode := row.custodyMode
  marketPda := row.marketPda
  vaultPda := row.vaultPda
  asset := row.asset
  revalidationRequired := row.projectionStale

structure Page where
  links : List ReconciliationLink
  nextCursor : Option Uuid

/-- The rows that are swept. -/
def Eligible (deployment : Deployment) (row : LinkRow) : Prop :=
  row.cluster = deployment.cluster ∧ row.genesisHash = deployment.genesisHash ∧
    row.programId = deployment.programId ∧ row.custodyMode = "escrow" ∧
    row.marketCustodyMode = "escrow" ∧ row.custodyVersion = deployment.custodyVersion ∧
    row.commitment = "finalized" ∧ row.canonical ∧ row.chainState ≠ .closed

instance (deployment : Deployment) : DecidablePred (Eligible deployment) := fun row => by
  unfold Eligible
  infer_instance

def byMarketId (a b : LinkRow) : Prop := a.marketId ≤ b.marketId

instance : DecidableRel byMarketId := fun a b => inferInstanceAs (Decidable (a.marketId ≤ b.marketId))

instance : Std.Total byMarketId := ⟨fun a b => le_total a.marketId b.marketId⟩

instance : IsTrans LinkRow byMarketId := ⟨fun _ _ _ h h' => le_trans (α := ℕ) h h'⟩

def escrowListReconciliationLinks (table : LinkTable) (deployment : Deployment)
    (cursor : Option Uuid) (limit : ℕ) : Option Page :=
  if deployment.cluster ∉ ["localnet", "devnet", "mainnet-beta"] ∨
      ¬ (1 ≤ deployment.genesisHash.length ∧ deployment.genesisHash.length ≤ 128) ∨
      ¬ (1 ≤ deployment.programId.length ∧ deployment.programId.length ≤ 128) ∨
      deployment.custodyVersion ≤ 0 ∨ limit < 1 ∨ limit > 1000 then
    none
  else
    let rows := (table.rows.filter fun row =>
      Eligible deployment row ∧ cursor.all (· < row.marketId)).insertionSort byMarketId
    -- one more than the page, to see whether there is more
    let candidates := rows.take (limit + 1)
    let page := candidates.take limit
    some
      { links := page.map LinkRow.link
        nextCursor :=
          if limit < candidates.length then page.getLast?.map (·.marketId) else none }

/-! ## the runner -/

def validatePage (page : Page) (cursor : Option Uuid) (batchSize : ℕ) : Bool :=
  page.links.length ≤ batchSize ∧ ¬ (page.nextCursor ≠ none ∧ page.nextCursor = cursor) ∧
    (∀ link ∈ page.links, link.marketPda ≠ "" ∧ link.vaultPda ≠ "" ∧ link.custodyMode = "escrow") ∧
    (page.links.map (·.marketId)).Nodup

structure RunResult where
  attempted : ℕ
  succeeded : ℕ
  failed : ℕ
  sweepComplete : Bool
  deriving DecidableEq, Repr

def skippedResult : RunResult := ⟨0, 0, 0, false⟩

/-- What a cycle meets: the table as it is listed, if the call goes through; what admission says
of a link, where there is one, and whether its reconciling ends well; either may throw. -/
structure Ports where
  table : Option LinkTable
  admitLink : Option (ReconciliationLink → Option Bool)
  reconcile : ReconciliationLink → Option Unit

structure Options where
  deployment : Deployment
  batchSize : ℕ

/-- A cycle, with the links that it offered to admission if its listing was taken. -/
structure Cycle where
  cursor : Option Uuid
  offered : Option (List ReconciliationLink)
  result : RunResult

def cycle (options : Options) (cursor : Option Uuid) (ports : Ports) : Cycle :=
  let listed := ports.table.bind fun table =>
    escrowListReconciliationLinks table options.deployment cursor options.batchSize
  match listed.filter (validatePage · cursor options.batchSize) with
  | none => ⟨cursor, none, skippedResult⟩
  | some page =>
      let admitted := page.links.filter fun link =>
        ports.admitLink.all fun admitLink => admitLink link = some true
      let succeeded := admitted.countP fun link => (ports.reconcile link).isSome
      { cursor := page.nextCursor
        offered := some page.links
        result :=
          { attempted := admitted.length
            succeeded
            failed := admitted.length - succeeded
            sweepComplete := page.nextCursor.isNone } }

/-- The cycles of a runner, from the start of a sweep on. -/
def sweep (options : Options) (ports : List Ports) : Option Uuid × List Cycle :=
  execute (fun cursor ports =>
    ((cycle options cursor ports).cursor, [cycle options cursor ports])) none ports

/-! ## pages -/

variable {deployment : Deployment} {table : LinkTable} {cursor : Option Uuid} {limit : ℕ}
  {page : Page} {options : Options} {ports : Ports}

/-- A market with a link that is swept. -/
def Listed (deployment : Deployment) (table : LinkTable) (marketId : Uuid) : Prop :=
  ∃ row ∈ table.rows, row.marketId = marketId ∧ Eligible deployment row

def Page.marketIds (page : Page) : List Uuid := page.links.map (·.marketId)

/-- Rows in the order of their markets, no two of which are one. -/
theorem sorted_insertionSort {rows : List LinkRow} (h : (rows.map (·.marketId)).Nodup) :
    ((rows.insertionSort byMarketId).map (·.marketId)).Pairwise (· < ·) := by
  have hnodup : ((rows.insertionSort byMarketId).map (·.marketId)).Nodup :=
    ((List.perm_insertionSort byMarketId rows).map _).nodup_iff.mpr h
  have hsorted : ((rows.insertionSort byMarketId).map (·.marketId)).Pairwise (· ≤ ·) :=
    List.pairwise_map.mpr (List.pairwise_insertionSort byMarketId rows)
  exact (hsorted.and hnodup).imp fun ⟨hle, hne⟩ => lt_of_le_of_ne hle hne

section

variable (h : escrowListReconciliationLinks table deployment cursor limit = some page)

include h

/-- The rows behind the cursor, sorted. -/
theorem listing_eq : ∃ rows : List LinkRow, (rows.map (·.marketId)).Pairwise (· < ·) ∧
    (∀ row, row ∈ rows ↔
      row ∈ table.rows ∧ Eligible deployment row ∧ Behind cursor row.marketId) ∧ 1 ≤ limit ∧
    page.links = (rows.take limit).map LinkRow.link ∧ page.nextCursor =
      if limit < rows.length then (rows.take limit).getLast?.map (·.marketId) else none := by
  rw [escrowListReconciliationLinks, Option.ite_none_left_eq_some, Option.some.injEq] at h
  obtain ⟨hvalid, rfl⟩ := h
  refine ⟨(table.rows.filter fun row => Eligible deployment row ∧
      cursor.all (· < row.marketId)).insertionSort byMarketId,
    sorted_insertionSort (table.key.sublist (List.filter_sublist.map _)), fun row => ?_,
    by omega, ?_, ?_⟩
  · rw [List.mem_insertionSort, List.mem_filter, decide_eq_true_iff, Behind]
    cases cursor <;> simp
  · rw [List.take_take, Nat.min_eq_left (Nat.le_succ limit)]
  · rw [List.take_take, Nat.min_eq_left (Nat.le_succ limit), List.length_take]
    exact if_congr (by omega) rfl rfl

theorem listing_page :
    KeyPage (Listed deployment table) cursor page.marketIds page.nextCursor := by
  obtain ⟨rows, hkeys, hrows, hlimit, hlinks, hnext⟩ := listing_eq h
  have hmem : ∀ x, x ∈ rows.map (·.marketId) ↔ Listed deployment table x ∧ Behind cursor x := by
    intro x
    simp only [List.mem_map, hrows, Listed]
    grind
  have hids : page.marketIds = (rows.map (·.marketId)).take limit := by
    rw [Page.marketIds, hlinks, List.map_map, ← List.map_take]
    rfl
  have hcursor : page.nextCursor = if limit < (rows.map (·.marketId)).length then
      ((rows.map (·.marketId)).take limit).getLast? else none := by
    rw [hnext, List.length_map, ← List.map_take, List.getLast?_map]
  rw [hids, hcursor]
  exact keyPage_take hlimit hkeys hmem

theorem validatePage_listing : validatePage page cursor limit := by
  have hpage := listing_page h
  obtain ⟨rows, -, hrows, -, hlinks, -⟩ := listing_eq h
  rw [validatePage, decide_eq_true_iff]
  refine ⟨?_, ?_, fun link hlink => ?_, hpage.sorted.imp ne_of_lt⟩
  · rw [hlinks, List.length_map]
    exact List.length_take_le limit rows
  · rintro ⟨hsome, hsame⟩
    obtain ⟨m, hm⟩ := Option.ne_none_iff_exists'.mp hsome
    have hlast := List.mem_of_getLast? (hpage.last m hm)
    exact absurd ((hpage.behind m hlast).2 m (hsame ▸ hm)) (lt_irrefl m)
  · rw [hlinks] at hlink
    obtain ⟨row, hrow, rfl⟩ := List.mem_map.mp hlink
    obtain ⟨-, heligible, -⟩ := (hrows row).mp (List.mem_of_mem_take hrow)
    exact ⟨row.marketPda_ne, row.vaultPda_ne, heligible.2.2.2.1⟩

end

/-! ## sweeps -/

def Cycle.marketIds (c : Cycle) : List Uuid := (c.offered.getD []).map (·.marketId)

/-- The listing fails and the cursor stays, or a page is offered and the cursor is its next. -/
theorem cycle_cases (options : Options) (cursor : Option Uuid) (ports : Ports) :
    (ports.table.bind fun table =>
        escrowListReconciliationLinks table options.deployment cursor options.batchSize) = none ∧
        cycle options cursor ports = ⟨cursor, none, skippedResult⟩ ∨
      (cycle options cursor ports).offered.isSome ∧
        ((cycle options cursor ports).result.sweepComplete ↔
          (cycle options cursor ports).cursor = none) ∧
        ∃ table ∈ ports.table, KeyPage (Listed options.deployment table) cursor
          (cycle options cursor ports).marketIds (cycle options cursor ports).cursor := by
  rw [cycle]
  cases hlisted : ports.table.bind fun table =>
      escrowListReconciliationLinks table options.deployment cursor options.batchSize with
  | none => exact .inl ⟨rfl, rfl⟩
  | some page =>
      obtain ⟨table, htable, hpage⟩ := Option.bind_eq_some_iff.mp hlisted
      rw [Option.filter_some, if_pos (validatePage_listing hpage)]
      exact .inr ⟨rfl, Option.isNone_iff_eq_none, table, htable, listing_page hpage⟩

/-- The markets of a sweep that is not complete. -/
theorem sweep_swept {ports : List Ports} (member : Uuid → Prop)
    (hmember : ∀ x, member x → ∀ p ∈ ports, ∀ table ∈ p.table, Listed options.deployment table x)
    (hopen : ∀ c ∈ (sweep options ports).2, c.result.sweepComplete = false) :
    Swept member (sweep options ports).1 ((sweep options ports).2.flatMap Cycle.marketIds) ∧
      (sweep options ports).2.countP (·.offered.isSome) ≤
        ((sweep options ports).2.flatMap Cycle.marketIds).length := by
  induction ports using List.reverseRecOn with
  | nil => exact ⟨.start, Nat.zero_le _⟩
  | append_singleton before p ih =>
      rw [sweep, execute_concat, ← sweep] at hopen ⊢
      obtain ⟨hswept, hcount⟩ := ih
        (fun x hx p hp => hmember x hx p (List.mem_append_left _ hp))
        (fun c hc => hopen c (List.mem_append_left _ hc))
      have hopen := hopen _ (List.mem_append_right _ List.mem_cons_self)
      simp only [List.flatMap_append, List.flatMap_singleton, List.countP_append,
        List.length_append]
      rcases cycle_cases options (sweep options before).1 p with
        ⟨-, hfailed⟩ | ⟨hlisted, hcomplete, table, htable, hpage⟩
      · have hnone : (cycle options (sweep options before).1 p).marketIds = [] := by
          rw [hfailed]
          rfl
        rw [hnone, List.append_nil, hfailed]
        exact ⟨hswept, by simpa using hcount⟩
      · have hnext : (cycle options (sweep options before).1 p).cursor.isSome := by
          rw [Option.isSome_iff_ne_none]
          intro hnone
          rw [hcomplete.mpr hnone] at hopen
          cases hopen
        refine ⟨hswept.page hpage (fun x hx => hmember x hx p (by simp) table htable) hnext, ?_⟩
        obtain ⟨m, hm⟩ := Option.isSome_iff_exists.mp hnext
        have hpos := List.length_pos_of_mem (List.mem_of_getLast? (hpage.last m hm))
        rw [List.countP_singleton, if_pos hlisted]
        exact Nat.add_le_add hcount hpos

/-- Every market of a page has a link in the table that was listed. -/
theorem mem_sweep {ports : List Ports} {x : Uuid}
    (hx : x ∈ (sweep options ports).2.flatMap Cycle.marketIds) :
    ∃ p ∈ ports, ∃ table ∈ p.table, Listed options.deployment table x := by
  induction ports using List.reverseRecOn with
  | nil => simp [sweep] at hx
  | append_singleton before p ih =>
      rw [sweep, execute_concat, ← sweep, List.flatMap_append, List.mem_append] at hx
      rcases hx with hx | hx
      · obtain ⟨p, hp, hlisted⟩ := ih hx
        exact ⟨p, List.mem_append_left _ hp, hlisted⟩
      · rw [List.flatMap_singleton] at hx
        rcases cycle_cases options (sweep options before).1 p with
          ⟨-, hfailed⟩ | ⟨-, -, table, htable, hpage⟩
        · simp [hfailed, Cycle.marketIds] at hx
        · exact ⟨p, by simp, table, htable, (hpage.behind x hx).1⟩

/-- A listing that goes through is taken.  As long as a sweep is not complete it has had no more
listings than there are markets; its markets come in order; and when it is complete each market
that had a link throughout was offered once. -/
theorem sweep_visits_every_market (options : Options) (before : List Ports) (p : Ports)
    (hopen : ∀ c ∈ (sweep options before).2, c.result.sweepComplete = false) :
    (∀ table ∈ p.table, (escrowListReconciliationLinks table options.deployment
        (sweep options before).1 options.batchSize).isSome →
          ((cycle options (sweep options before).1 p).offered.isSome)) ∧
      (∀ markets : Finset Uuid, (∀ p ∈ before, ∀ table ∈ p.table, ∀ row ∈ table.rows,
          row.marketId ∈ markets) →
        (sweep options before).2.countP (·.offered.isSome) ≤ markets.card) ∧
      ((sweep options (before ++ [p])).2.flatMap Cycle.marketIds).Pairwise (· < ·) ∧
      ((cycle options (sweep options before).1 p).result.sweepComplete → ∀ x,
        (∀ q ∈ before ++ [p], ∀ table ∈ q.table, Listed options.deployment table x) →
          ((sweep options (before ++ [p])).2.flatMap Cycle.marketIds).count x = 1) := by
  have hmarketIds : (sweep options (before ++ [p])).2.flatMap Cycle.marketIds =
      (sweep options before).2.flatMap Cycle.marketIds ++
        (cycle options (sweep options before).1 p).marketIds := by
    rw [sweep, execute_concat, ← sweep, List.flatMap_append, List.flatMap_singleton]
  refine ⟨fun table htable hsome => ?_, fun markets hmarkets => ?_, ?_, fun hcomplete x hx => ?_⟩
  · rcases cycle_cases options (sweep options before).1 p with ⟨hnone, -⟩ | ⟨hlisted, -⟩
    · rw [Option.mem_def.mp htable, Option.bind_some] at hnone
      rw [hnone] at hsome
      cases hsome
    · exact hlisted
  · obtain ⟨hswept, hcount⟩ := sweep_swept (fun _ => False) (fun _ h => h.elim) hopen
    refine hcount.trans ?_
    rw [← List.toFinset_card_of_nodup (hswept.sorted.imp ne_of_lt)]
    refine Finset.card_le_card fun x hx => ?_
    obtain ⟨p, hp, table, htable, row, hrow, rfl, -⟩ := mem_sweep (List.mem_toFinset.mp hx)
    exact hmarkets p hp table htable row hrow
  · have hswept := (sweep_swept (fun _ => False) (fun _ h => h.elim) hopen).1
    rw [hmarketIds]
    rcases cycle_cases options (sweep options before).1 p with
      ⟨-, hfailed⟩ | ⟨-, -, table, -, hpage⟩
    · rw [hfailed]
      exact (List.append_nil _).symm ▸ hswept.sorted
    · exact hswept.append hpage
  · rcases cycle_cases options (sweep options before).1 p with
      ⟨-, hfailed⟩ | ⟨-, hnext, table, htable, hpage⟩
    · rw [hfailed] at hcomplete
      cases hcomplete
    · rw [hnext.mp hcomplete] at hpage
      obtain ⟨hswept, -⟩ := sweep_swept
        (fun x => ∀ q ∈ before ++ [p], ∀ table ∈ q.table, Listed options.deployment table x)
        (fun x hx q hq => hx q (List.mem_append_left _ hq)) hopen
      rw [hmarketIds]
      exact hswept.last hpage (fun x hx => hx p (by simp) table htable) hx

/-- Two markets with finalized links. -/
def tableOfTwo : LinkTable where
  rows := [7, 3].map fun marketId =>
    { marketId, custodyMode := "escrow", marketCustodyMode := "escrow", custodyVersion := 1,
      cluster := "devnet", genesisHash := "g", programId := "p", marketPda := "m", vaultPda := "v",
      asset := .sol, commitment := "finalized", canonical := true, chainState := .open,
      projectionStale := false, marketPda_ne := by decide, vaultPda_ne := by decide }
  key := by decide

/-- The second market is behind the first page; its reconciling throws. -/
theorem sweep_visits_every_market_two :
    ((sweep ⟨⟨"devnet", "g", "p", 1⟩, 1⟩
      [⟨tableOfTwo, none, fun _ => some ()⟩, ⟨tableOfTwo, none, fun _ => none⟩]).2.flatMap
        Cycle.marketIds).count 7 = 1 :=
  (sweep_visits_every_market ⟨⟨"devnet", "g", "p", 1⟩, 1⟩
    [⟨tableOfTwo, none, fun _ => some ()⟩] ⟨tableOfTwo, none, fun _ => none⟩ (by decide)).2.2.2
      (by decide) 7 (by
        have hlisted : Listed ⟨"devnet", "g", "p", 1⟩ tableOfTwo 7 :=
          ⟨_, List.mem_cons_self, rfl, by decide⟩
        simpa using hlisted)

end CalledIt.Relayer.Reconciliation
