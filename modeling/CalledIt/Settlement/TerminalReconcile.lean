import CalledIt.Settlement.ProofFencing

/-!
# CalledIt.Settlement.TerminalReconcile

How far the repair of terminal markets reaches.

A call looks at the first markets of all terminal ones, whether they lack a job or not, and
looks at the same ones the next time.  What it looks at it repairs at once, so the calls reach
a market that lacks a job exactly when fewer terminal markets than the limit come before it.
-/

namespace CalledIt.Settlement

open Lib

section

variable {α : Type} [LinearOrder α]

/-- An element of a sorted list is among the first ones as long as few are smaller. -/
theorem mem_take_iff {l : List α} (hl : l.Pairwise (· < ·)) {a : α} (ha : a ∈ l) (n : Nat) :
    a ∈ l.take n ↔ (l.filter (· < a)).length < n := by
  induction l generalizing n with
  | nil => simp at ha
  | cons b l ih =>
      obtain ⟨hb, hl⟩ := List.pairwise_cons.mp hl
      cases n with
      | zero => simp
      | succ n =>
          rw [List.take_succ_cons, List.mem_cons]
          rcases List.mem_cons.mp ha with rfl | ha
          · have hnone : l.filter (· < a) = [] := by
              rw [List.filter_eq_nil_iff]
              intro c hc
              simpa using (hb c hc).le
            simp [hnone]
          · have hba : b < a := hb a ha
            rw [List.filter_cons_of_pos (by simpa using hba), List.length_cons,
              Nat.add_lt_add_iff_right, ← ih hl ha n]
            simp [hba.ne']

theorem mem_take_sort_iff (s : Finset α) {a : α} (ha : a ∈ s) (n : Nat) :
    a ∈ (s.sort (· ≤ ·)).take n ↔ (s.filter (· < a)).card < n := by
  have hsorted : (s.sort (· ≤ ·)).Pairwise (· < ·) := s.sortedLT_sort.pairwise
  rw [mem_take_iff hsorted (by simpa using ha)]
  have hcard : ((s.sort (· ≤ ·)).filter (· < a)).length = (s.filter (· < a)).card := by
    rw [← List.toFinset_card_of_nodup ((s.sort_nodup _).filter _), List.toFinset_filter,
      Finset.sort_toFinset]
    simp
  rw [hcard]

end

section

variable {ι : Type} {db after : Database ι}

/-- No terminal market lacks a job. -/
def Converged (db : Database ι) : Prop := ∀ id ∈ db.terminalIds, Repaired (db.state id)

/-- Markets that are looked at are repaired; the others stay as they are, and so do the ones
that were in repair. -/
structure Looked (page : List ι) (db after : Database ι) : Prop where
  ids : after.ids = db.ids
  market : ∀ id, (after.state id).market = (db.state id).market
  repaired : ∀ id ∈ page, Repaired (after.state id)
  other : ∀ id ∉ page, after.state id = db.state id
  kept : ∀ id, Repaired (db.state id) → after.state id = db.state id

theorem Looked.terminalIds {page : List ι} (h : Looked page db after) :
    after.terminalIds = db.terminalIds := by
  ext id
  simp [Database.terminalIds, TerminalMarket, h.ids, h.market]

variable [LinearOrder ι]

theorem reconcileTurn_looked {policy : QueuePolicy} (hvalid : policy.Valid) (now delayMs : Int)
    (db : Database ι) (rows : List (ι × Reconciled)) (id : ι) :
    ∃ after rows', reconcileTurn policy now delayMs (db, rows) id = .ok (after, rows') ∧
      Looked [id] db after := by
  obtain ⟨s, row, hs, -, hrepaired, hmarket, hkept⟩ :=
    reconcileMarket_moves hvalid now delayMs (db.state id)
  refine ⟨{ db with state := Function.update db.state id s }, rows ++ [(id, row)],
    by rw [reconcileTurn, hs]; rfl, rfl, fun other => ?_, ?_, ?_, fun other h => ?_⟩
  · by_cases hother : other = id
    · subst hother
      simpa using hmarket
    · simp [hother]
  · simpa using hrepaired
  · intro other hother
    simp_all
  · by_cases hother : other = id
    · subst hother
      simpa using hkept h
    · simp [hother]

theorem foldlM_looked {policy : QueuePolicy} (hvalid : policy.Valid) (now delayMs : Int)
    (page : List ι) (db : Database ι) (rows : List (ι × Reconciled)) :
    ∃ after rows', page.foldlM (reconcileTurn policy now delayMs) (db, rows) =
      .ok (after, rows') ∧ Looked page db after := by
  induction page generalizing db rows with
  | nil => exact ⟨db, rows, rfl, rfl, fun _ => rfl, by simp, fun _ _ => rfl, fun _ _ => rfl⟩
  | cons id page ih =>
      obtain ⟨mid, rows', hmid, hfirst⟩ := reconcileTurn_looked hvalid now delayMs db rows id
      obtain ⟨after, rows'', hafter, hrest⟩ := ih mid rows'
      refine ⟨after, rows'', by rw [List.foldlM_cons, hmid, ok_bind, hafter], ?_⟩
      have hid : Repaired (mid.state id) := hfirst.repaired id (by simp)
      refine ⟨hrest.ids.trans hfirst.ids, fun other => ?_, fun other hother => ?_,
        fun other hother => ?_, fun other hother => ?_⟩
      · rw [hrest.market, hfirst.market]
      · rcases List.mem_cons.mp hother with rfl | hother
        · rwa [hrest.kept _ hid]
        · exact hrest.repaired other hother
      · obtain ⟨hne, hother⟩ := not_or.mp (mt List.mem_cons.mpr hother)
        rw [hrest.other _ hother, hfirst.other _ (by simpa using hne)]
      · have hmid := hfirst.kept other hother
        rw [hrest.kept other (by rwa [hmid]), hmid]

/-- One call, with arguments that it takes. -/
theorem reconcile_looked {input : ReconcileTerminalJobs} {now delayMs : Int} {limit : Nat}
    (h : input.arguments = some (now, limit, delayMs)) (db : Database ι) :
    ∃ after rows, settlementReconcileTerminalJobs input db = .ok (after, rows) ∧
      Looked (terminalPage limit db) db after := by
  unfold settlementReconcileTerminalJobs
  rw [h]
  exact foldlM_looked (policy_of_arguments h) now delayMs _ db []

theorem Looked.terminalPage {page : List ι} (h : Looked page db after) (limit : Nat) :
    terminalPage limit after = terminalPage limit db := by
  rw [Settlement.terminalPage, h.terminalIds, Settlement.terminalPage]

/-- What is left after some calls, each with its own arguments. -/
def afterRepairs (calls : Nat → ReconcileTerminalJobs) (db : Database ι) :
    Nat → Except QueueError (Database ι)
  | 0 => .ok db
  | n + 1 => do
      let db ← afterRepairs calls db n
      (settlementReconcileTerminalJobs (calls n) db).map Prod.fst

/-- Every call is one with this limit, and does something. -/
def WithLimit (calls : Nat → ReconcileTerminalJobs) (limit : Nat) : Prop :=
  ∀ n, ∃ now delayMs, (calls n).arguments = some (now, limit, delayMs)

variable {calls : Nat → ReconcileTerminalJobs} {limit : Nat}

/-- All calls together look at the markets that the first one looks at. -/
theorem afterRepairs_looked (hcalls : WithLimit calls limit) (db : Database ι) (n : Nat) :
    ∃ after, afterRepairs calls db n = .ok after ∧
      Looked (if n = 0 then [] else terminalPage limit db) db after := by
  induction n with
  | zero => exact ⟨db, rfl, rfl, fun _ => rfl, by simp, fun _ _ => rfl, fun _ _ => rfl⟩
  | succ n ih =>
      obtain ⟨mid, hmid, hbefore⟩ := ih
      obtain ⟨now, delayMs, harguments⟩ := hcalls n
      obtain ⟨after, rows, hafter, hlooked⟩ := reconcile_looked harguments mid
      rw [hbefore.terminalPage] at hlooked
      refine ⟨after, by rw [afterRepairs, hmid, ok_bind, hafter]; rfl, ?_⟩
      rw [if_neg (by simp)]
      refine ⟨hlooked.ids.trans hbefore.ids, fun id => ?_, hlooked.repaired, fun id hid => ?_,
        fun id hid => ?_⟩
      · rw [hlooked.market, hbefore.market]
      · rw [hlooked.other id hid, hbefore.other]
        split
        · simp
        · exact hid
      · have hmid := hbefore.kept id hid
        rw [hlooked.kept id (by rwa [hmid]), hmid]

/-- A market that is not looked at stays as it is for ever. -/
theorem afterRepairs_other (hcalls : WithLimit calls limit) {n : Nat}
    (hafter : afterRepairs calls db n = .ok after) {id : ι} (hid : id ∉ terminalPage limit db) :
    after.state id = db.state id ∧ after.terminalIds = db.terminalIds := by
  obtain ⟨after', hafter', hlooked⟩ := afterRepairs_looked hcalls db n
  obtain rfl := Except.ok.inj (hafter.symm.trans hafter')
  refine ⟨hlooked.other id ?_, hlooked.terminalIds⟩
  split
  · simp
  · exact hid

/-- The calls reach every market that lacks a job exactly when fewer terminal markets than
the limit come before it. -/
theorem terminal_jobs_converge_iff (hcalls : WithLimit calls limit) (db : Database ι) :
    (∃ n after, afterRepairs calls db n = .ok after ∧ Converged after) ↔
      ∀ id ∈ db.terminalIds, ¬ Repaired (db.state id) →
        (db.terminalIds.filter (· < id)).card < limit := by
  constructor
  · rintro ⟨n, after, hafter, hconverged⟩ id hid hlacks
    rw [← mem_take_sort_iff db.terminalIds hid limit]
    by_contra hunreached
    obtain ⟨hsame, hids⟩ := afterRepairs_other hcalls hafter hunreached
    exact hlacks (hsame ▸ hconverged id (hids ▸ hid))
  · intro hreach
    obtain ⟨after, hafter, hlooked⟩ := afterRepairs_looked hcalls db 1
    refine ⟨1, after, hafter, fun id hid => ?_⟩
    rw [hlooked.terminalIds] at hid
    by_cases hrepaired : Repaired (db.state id)
    · rwa [hlooked.kept id hrepaired]
    · exact hlooked.repaired id ((mem_take_sort_iff db.terminalIds hid limit).mpr
        (hreach id hid hrepaired))

end

namespace ReconcileSample

def call : ReconcileTerminalJobs := ⟨some 0, some 1, ⟨5, 1000, 1, 10⟩, some 0⟩

def voided : MarketState where
  market := some ⟨"sol", .voided, some .chainProven⟩
  settlement := some ⟨.void, none, [], .chainProven, none, 0⟩
  wagerApplied := true
  statProof := none
  jobs _ := none

/-- The first market has its jobs, the second one has none. -/
def database : Database Nat where
  ids := {1, 2}
  state id := if id = 1 then
      { voided with jobs := fun kind => some (pendingJob kind call.policy 0 0) }
    else voided

theorem withLimit : WithLimit (fun _ => call) 1 := fun _ => ⟨0, 0, rfl⟩

end ReconcileSample

open ReconcileSample in
/-- Two markets and a limit of one: the repair can do what it is for. -/
theorem first_market_reached :
    (∃ n after, afterRepairs (fun _ => call) { database with ids := {2} } n = .ok after ∧
      Converged after) ↔
      ∀ id ∈ Database.terminalIds { database with ids := {2} },
        ¬ Repaired (database.state id) →
          ((Database.terminalIds { database with ids := {2} }).filter (· < id)).card < 1 :=
  terminal_jobs_converge_iff withLimit { database with ids := {2} }

open ReconcileSample in
/-- With a limit of one the calls look at the first market for ever. -/
theorem second_market_never_reached :
    ¬ ∀ (db : Database Nat) (limit : Nat) (calls : Nat → ReconcileTerminalJobs),
      WithLimit calls limit →
        ∃ n after, afterRepairs calls db n = .ok after ∧ Converged after := by
  intro hclaim
  obtain ⟨n, after, hafter, hconverged⟩ := hclaim database 1 _ withLimit
  have hterminal : 2 ∈ database.terminalIds := by decide +kernel
  have hunreached : 2 ∉ terminalPage 1 database := by
    rw [terminalPage, mem_take_sort_iff _ hterminal]
    decide +kernel
  obtain ⟨hsame, hids⟩ := afterRepairs_other withLimit hafter hunreached
  have hrepaired := (hconverged 2 (hids ▸ hterminal)).1
  rw [hsame] at hrepaired
  exact absurd hrepaired (by decide +kernel)

end CalledIt.Settlement
