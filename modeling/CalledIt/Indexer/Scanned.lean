import CalledIt.Indexer.Indexed
import CalledIt.Lib.Trace

/-!
# CalledIt.Indexer.Scanned

What a scan returns, while the history grows.

Everything is relative to the history that the first page was read from: the signatures are
exactly those of it that the cursor has not passed (`traces_signaturesSince`), whatever is
added while the other pages are read.
-/

namespace CalledIt.Indexer

open Lib Lib.Program IndexProgram

variable {ρ : Type}

/-! ## the others -/

/-- What may happen to the chain.  No call of the indexer does anything to it. -/
structure ChainGrowth (world : IndexWorld ρ)
    (later : IndexTables ρ → IndexTables ρ → Prop) : Prop where
  refl : ∀ s, later s s
  trans : ∀ {s t u}, later s t → later t u → later s u
  call : ∀ {c : IndexCall} {s r t}, c.Answers world s r t → later s t
  history : ∀ {s t}, later s t → s.history <+: t.history
  wellOrdered : ∀ {s t}, later s t → WellOrdered s.history → WellOrdered t.history

/-- What the others do to the tables: nothing but to the rest. -/
structure Elsewhere (later : IndexTables ρ → IndexTables ρ → Prop) (s t : IndexTables ρ) :
    Prop where
  later : later s t
  cursor : t.cursor = s.cursor
  records : t.records = s.records
  skipped : t.skipped = s.skipped

/-! ## the log -/

abbrev IndexLog (ρ : Type) := List (IndexCall × IndexTables ρ)

/-- What the first page of signatures was read from. -/
def IndexLog.firstPage (log : IndexLog ρ) : Option (IndexTables ρ) :=
  log.findSome? fun
    | (.getSignaturesForAddress _ _ _, u) => some u
    | _ => none

/-- What the head was read from. -/
def IndexLog.head (log : IndexLog ρ) : Option (IndexTables ρ) :=
  log.findSome? fun
    | (.getSlot, u) => some u
    | _ => none

theorem IndexLog.firstPage_append (log : IndexLog ρ) (entry : IndexCall × IndexTables ρ) :
    IndexLog.firstPage (log ++ [entry]) = log.firstPage.or (IndexLog.firstPage [entry]) :=
  List.findSome?_append

theorem IndexLog.head_append (log : IndexLog ρ) (entry : IndexCall × IndexTables ρ) :
    IndexLog.head (log ++ [entry]) = log.head.or (IndexLog.head [entry]) :=
  List.findSome?_append

/-! ## what the cursor leaves of a page -/

variable {world : IndexWorld ρ} {programId : String} {start : Nat} {s t u : IndexTables ρ}
  {passed : List ConfirmedSignatureInfo}

theorem Indexed.elsewhere {later : IndexTables ρ → IndexTables ρ → Prop}
    (hgrowth : ChainGrowth world later) (h : Indexed world programId start s passed)
    (ht : Elsewhere later s t) : Indexed world programId start t passed :=
  h.grow (hgrowth.history ht.later) (hgrowth.wellOrdered ht.later h.wellOrdered) ht.cursor
    ht.records ht.skipped

/-- The history from the cursor on, with what is before it. -/
structure Behind (start : Nat) (old passed : List ConfirmedSignatureInfo) : Prop where
  upTo : UpTo ConfirmedSignatureInfo.signature (cursorPast start passed).signature old
  newer : newer start old = passed
  begun : passed = [] → old = []

theorem Indexed.exists_behind (h : Indexed world programId start s passed) :
    ∃ old, old <+: s.history ∧ Behind start old passed := by
  obtain ⟨older, hsplit, holder⟩ := h.wellOrdered.split start
  obtain ⟨more, hmore⟩ := h.passes
  rcases List.eq_nil_or_concat passed with rfl | ⟨before, last, rfl⟩
  · exact ⟨[], List.nil_prefix, rfl, rfl, fun _ => rfl⟩
  · rw [List.concat_eq_append] at hmore ⊢
    refine ⟨older ++ (before ++ [last]), ⟨more, ?_⟩, ?_, ?_, by simp⟩
    · rw [List.append_assoc, hmore]
      exact hsplit.symm
    · rw [cursorPast_append]
      exact ⟨older ++ before, last, by simp, rfl⟩
    · have hnew : ∀ info ∈ before ++ [last], start < info.slot := fun info hinfo =>
        (mem_newer.mp (hmore ▸ List.mem_append_left _ hinfo)).2
      have happend : Indexer.newer start (older ++ (before ++ [last])) =
          Indexer.newer start older ++ Indexer.newer start (before ++ [last]) :=
        List.filter_append _ _
      rw [happend, newer_of_le holder, newer_of_lt hnew, List.nil_append]

theorem sinceCursor_append (cursor : EscrowFinalizedCursor)
    (page page' : List ConfirmedSignatureInfo) :
    sinceCursor cursor (page ++ page') = sinceCursor cursor page ++ sinceCursor cursor page' :=
  List.filter_append _ _

/-- What is newer than the start: what was passed, what is below the pages, and the pages. -/
theorem Behind.newer_eq {history old gap raw : List ConfirmedSignatureInfo}
    (h : Behind start old passed) (hordered : WellOrdered history)
    (hhistory : history = old ++ gap ++ raw.reverse) :
    Indexer.newer start history = passed ++ Indexer.newer start gap ++
      (sinceCursor (cursorPast start passed) raw).reverse := by
  have hslots := hordered.slots
  rw [hhistory, List.append_assoc] at hslots
  obtain ⟨-, -, hold⟩ := List.pairwise_append.mp hslots
  have hkeeps : sinceCursor (cursorPast start passed) raw = Indexer.newer start raw := by
    refine List.filter_congr fun info hinfo => ?_
    rcases List.eq_nil_or_concat passed with rfl | ⟨before, last, rfl⟩
    · by_cases hslot : start < info.slot <;> simp [hslot] <;> omega
    · rw [List.concat_eq_append] at h ⊢
      have hlast : last ∈ Indexer.newer start old := by simp [h.newer]
      obtain ⟨hmem, hstart⟩ := mem_newer.mp hlast
      have hle := hold last hmem info (by simp [hinfo])
      have hnew : start < info.slot := by omega
      simp [hnew, hle]
  rw [hkeeps, hhistory, ← h.newer]
  simp only [Indexer.newer, List.filter_append, List.filter_reverse]

/-- The pages are what the cursor has not passed, once nothing new is below them. -/
theorem Behind.collected_eq {history old gap raw : List ConfirmedSignatureInfo}
    (h : Behind start old passed) (hordered : WellOrdered history)
    (hhistory : history = old ++ gap ++ raw.reverse)
    (hdone : gap = [] ∨ (cursorPast start passed).signature = none ∧
      ∃ last ∈ raw, last.slot ≤ (cursorPast start passed).slot) :
    passed ++ (sinceCursor (cursorPast start passed) raw).reverse = Indexer.newer start history := by
  have hslots := hordered.slots
  rw [hhistory, List.append_assoc] at hslots
  obtain ⟨-, hafter, -⟩ := List.pairwise_append.mp hslots
  have hgap : Indexer.newer start gap = [] := by
    rcases hdone with rfl | ⟨hnone, last, hlast, hslot⟩
    · rfl
    · refine newer_of_le fun info hinfo => ?_
      have hle := (List.pairwise_append.mp hafter).2.2 info hinfo last (by simp [hlast])
      rcases List.eq_nil_or_concat passed with rfl | ⟨before, last', rfl⟩
      · exact hle.trans hslot
      · rw [List.concat_eq_append, cursorPast_append] at hnone
        cases hnone
  rw [h.newer_eq hordered hhistory, hgap, List.append_nil]

/-! ## the pages -/

section Pages

variable (world programId start) (later : IndexTables ρ → IndexTables ρ → Prop)
  (passed : List ConfirmedSignatureInfo)

/-- What every crash of a run leaves: the cursor has not moved back. -/
def Onward (t : IndexTables ρ) : Prop :=
  ∃ passed', passed <+: passed' ∧ Indexed world programId start t passed'

/-- What a part of a run returns, when no crash on the way moves the cursor back. -/
abbrev Proceeds {α : Type} (P : α → IndexTables ρ × IndexLog ρ → Prop) (p : IndexProgram α)
    (s : IndexTables ρ × IndexLog ρ) : Prop :=
  Traces (IndexCall.Answers world) (Elsewhere later) (Onward world programId start passed) P p s

/-- The tables and the log of a scan whose first page was read from `u`. -/
structure Scanning (u : IndexTables ρ) (s : IndexTables ρ × IndexLog ρ) : Prop where
  indexed : Indexed world programId start s.1 passed
  first : Indexed world programId start u passed
  since : later u s.1
  page : s.2.firstPage = some u
  head : s.2.head = none

/-- The same before the first page. -/
structure Beginning (s : IndexTables ρ × IndexLog ρ) : Prop where
  indexed : Indexed world programId start s.1 passed
  page : s.2.firstPage = none
  head : s.2.head = none

/-- The signatures are what the cursor had not passed when the first page was read. -/
def Collected (signatures : List ConfirmedSignatureInfo) (s : IndexTables ρ × IndexLog ρ) : Prop :=
  ∃ u, Scanning world programId start later passed u s ∧
    passed ++ signatures.reverse = newer start u.history

/-- The pages so far are a stretch of what the first one was read from, down to `gap`. -/
def Reached (old gap raw : List ConfirmedSignatureInfo) (s : IndexTables ρ × IndexLog ρ) : Prop :=
  ∃ u, Scanning world programId start later passed u s ∧
    u.history = old ++ gap ++ raw.reverse ∧ Behind start old passed

/-- The next page goes on from the last one. -/
def PageFrom (raw : List ConfirmedSignatureInfo) (before : Option String)
    (s : IndexTables ρ × IndexLog ρ) : Prop :=
  match raw.getLast? with
  | none => before = none ∧ Beginning world programId start passed s
  | some last => before = some last.signature ∧
      ∃ old gap, Reached world programId start later passed old gap raw s

end Pages

variable {later : IndexTables ρ → IndexTables ρ → Prop} {log : IndexLog ρ}
  {raw : List ConfirmedSignatureInfo} {before : Option String} {S : IndexTables ρ × IndexLog ρ}

theorem Indexed.onward (h : Indexed world programId start s passed) :
    Onward world programId start passed s :=
  ⟨passed, List.prefix_rfl, h⟩

theorem PageFrom.onward (h : PageFrom world programId start later passed raw before S) :
    Onward world programId start passed S.1 := by
  unfold PageFrom at h
  split at h
  · exact h.2.indexed.onward
  · obtain ⟨-, _, _, _, hscanning, -⟩ := h
    exact hscanning.indexed.onward

/-- The scan goes on while the others do. -/
theorem Scanning.call {c : IndexCall} (hgrowth : ChainGrowth world later)
    (h : Scanning world programId start later passed u (s, log)) (ht : Elsewhere later s t)
    (hc : c ≠ .getSlot) : Scanning world programId start later passed u (t, log ++ [(c, t)]) where
  indexed := h.indexed.elsewhere hgrowth ht
  first := h.first
  since := hgrowth.trans h.since ht.later
  page := (log.firstPage_append (c, t)).trans (by rw [h.page]; rfl)
  head := by
    have hnone : IndexLog.head [(c, t)] = none := by cases c <;> simp_all [IndexLog.head]
    exact (log.head_append (c, t)).trans (by rw [h.head, hnone]; rfl)

theorem Beginning.call {c : IndexCall} (hgrowth : ChainGrowth world later)
    (h : Beginning world programId start passed S) (ht : Elsewhere later S.1 t)
    (hc : IndexLog.firstPage [(c, t)] = none ∧ IndexLog.head [(c, t)] = none) :
    Beginning world programId start passed (t, S.2 ++ [(c, t)]) where
  indexed := h.indexed.elsewhere hgrowth ht
  page := (IndexLog.firstPage_append S.2 (c, t)).trans (by rw [h.page, hc.1]; rfl)
  head := (IndexLog.head_append S.2 (c, t)).trans (by rw [h.head, hc.2]; rfl)

/-- A page, and whether anything is left below it. -/
theorem traces_page (hgrowth : ChainGrowth world later)
    (h : PageFrom world programId start later passed raw before S) :
    Proceeds world programId start later passed
      (fun page t => ∃ old gap, Reached world programId start later passed old gap (raw ++ page) t ∧
        (page.length < signaturePageLimit → gap = []))
      (getSignaturesForAddress before (cursorPast start passed).signature signaturePageLimit) S := by
  refine traces_perform h.onward fun t (page : List ConfirmedSignatureInfo) t'
    hothers hcall => ?_
  obtain ⟨hpage, rfl⟩ := hcall
  have hshort : ∀ {rest : List ConfirmedSignatureInfo},
      page = rest.reverse.take signaturePageLimit → page.length < signaturePageLimit →
        (rest.reverse.drop signaturePageLimit).reverse = [] := by
    rintro rest rfl hlength
    rw [List.length_take] at hlength
    rw [List.reverse_eq_nil_iff, List.drop_eq_nil_iff]
    omega
  have hstretch : ∀ {rest : List ConfirmedSignatureInfo},
      page = rest.reverse.take signaturePageLimit →
        rest = (rest.reverse.drop signaturePageLimit).reverse ++ page.reverse := by
    rintro rest rfl
    rw [← List.reverse_append, List.take_append_drop, List.reverse_reverse]
  unfold PageFrom at h
  split at h
  · next hraw =>
      obtain rfl := List.getLast?_eq_none_iff.mp hraw
      obtain ⟨rfl, hindexed, hlog, hhead⟩ := h
      have ht := hindexed.elsewhere hgrowth hothers
      obtain ⟨old, ⟨rest, hrest⟩, hbehind⟩ := ht.exists_behind
      have hnodup := ht.wellOrdered.signatures
      rw [← hrest] at hnodup hpage
      rw [pageBack_first _ hbehind.upTo hnodup] at hpage
      refine ⟨ht.onward, old, _, ⟨t', ⟨ht, ht, hgrowth.refl t', ?_, ?_⟩, ?_, hbehind⟩, hshort hpage⟩
      · rw [IndexLog.firstPage_append, hlog]
        rfl
      · rw [IndexLog.head_append, hhead]
        rfl
      · rw [List.nil_append, List.append_assoc, ← hstretch hpage, hrest]
  · next last hraw =>
      obtain ⟨rfl, old, gap, u, hscanning, hhistory, hbehind⟩ := h
      obtain ⟨init, rfl⟩ := List.getLast?_eq_some_iff.mp hraw
      have hnow := hscanning.call hgrowth hothers (c := .getSignaturesForAddress
        (some last.signature) (cursorPast start passed).signature signaturePageLimit) (by simp)
      obtain ⟨more, hmore⟩ := hgrowth.history hnow.since
      have hplace : t'.history = old ++ gap ++ last :: (init.reverse ++ more) := by
        rw [← hmore, hhistory]
        simp
      have hnodup := hnow.indexed.wellOrdered.signatures
      rw [hplace] at hnodup hpage
      rw [pageBack_next _ hbehind.upTo hnodup] at hpage
      refine ⟨hnow.indexed.onward, old, _, ⟨u, hnow, ?_, hbehind⟩, hshort hpage⟩
      conv_lhs => rw [hhistory, hstretch hpage]
      simp only [List.reverse_append, List.append_assoc]

/-- The signatures that a scan collects. -/
theorem traces_collectSignatures (hgrowth : ChainGrowth world later) (options : SourceOptions)
    (pages : Nat) (raw : List ConfirmedSignatureInfo)
    (h : PageFrom world programId start later passed raw before S) :
    Proceeds world programId start later passed
      (Collected world programId start later passed)
      (collectSignatures options (cursorPast start passed) pages
        (sinceCursor (cursorPast start passed) raw) before) S := by
  induction pages generalizing raw before S with
  | zero => exact traces_throw h.onward
  | succ pages ih =>
      refine traces_bind (traces_page hgrowth h) fun page t ht hpage => ?_
      obtain ⟨old, gap, ⟨u, hscanning, hhistory, hbehind⟩, hshort⟩ := hpage
      have hend : (gap = [] ∨ (cursorPast start passed).signature = none ∧
          ∃ last ∈ raw ++ page, last.slot ≤ (cursorPast start passed).slot) →
            Collected world programId start later passed
              (sinceCursor (cursorPast start passed) (raw ++ page)) t := fun hdone =>
        ⟨u, hscanning, hbehind.collected_eq hscanning.first.wellOrdered hhistory hdone⟩
      rw [← sinceCursor_append]
      dsimp only
      by_cases hbacklog : options.maximumBacklog <
          (sinceCursor (cursorPast start passed) (raw ++ page)).length
      · rw [if_pos hbacklog]
        exact traces_throw ht
      · rw [if_neg hbacklog]
        cases hlast : page.getLast? with
        | none =>
            obtain rfl := List.getLast?_eq_none_iff.mp hlast
            exact traces_pure ht (hend (.inl (hshort (by decide))))
        | some last =>
            dsimp only
            split
            · next hstop =>
                refine traces_pure ht (hend (hstop.imp hshort fun hslot => ?_))
                have hmem := List.mem_of_getLast? hlast
                exact ⟨hslot.1, last, List.mem_append_right _ hmem, hslot.2⟩
            · refine ih _ ?_
              unfold PageFrom
              rw [List.getLast?_append, hlast, Option.some_or]
              exact ⟨rfl, old, gap, u, hscanning, hhistory, hbehind⟩

/-- All that the cursor had not passed when the first page was read, oldest first. -/
theorem traces_signaturesSince (hgrowth : ChainGrowth world later) (options : SourceOptions)
    (h : Beginning world programId start passed S) :
    Proceeds world programId start later passed
      (fun signatures t => ∃ u, Scanning world programId start later passed u t ∧
        passed ++ signatures = newer start u.history)
      (signaturesSince options (cursorPast start passed)) S := by
  refine traces_bind (traces_collectSignatures hgrowth options _ [] ⟨rfl, h⟩) ?_
  rintro signatures t ht ⟨u, hscanning, hall⟩
  exact traces_pure ht ⟨u, hscanning, hall⟩

/-! ## the transactions -/

/-- A transaction of the page, with its events. -/
structure Reads (world : IndexWorld ρ) (source : SourceOptions) (info : ConfirmedSignatureInfo)
    (transaction : EscrowFinalizedTransaction) : Prop where
  signature : transaction.signature = info.signature
  slot : transaction.slot = info.slot
  genesisHash : transaction.genesisHash = source.genesisHash
  programId : transaction.programId = source.programId
  events : locatedEvents source.programId (world.transaction info.signature) =
    some transaction.events

variable {source : SourceOptions}

theorem traces_readTransactions (hgrowth : ChainGrowth world later)
    (infos : List ConfirmedSignatureInfo) (h : Scanning world programId start later passed u S) :
    Proceeds world programId start later passed
      (fun transactions t => Scanning world programId start later passed u t ∧
        List.Forall₂ (Reads world source) infos transactions)
      (readTransactions source infos) S := by
  induction infos generalizing S with
  | nil => exact traces_pure h.indexed.onward ⟨h, .nil⟩
  | cons info infos ih =>
      have hcall : Proceeds world programId start later passed
          (fun transaction t => Scanning world programId start later passed u t ∧
            ∀ found, transaction = some found → found = world.transaction info.signature)
          (getTransaction info.signature) S := by
        refine traces_perform h.indexed.onward fun t transaction t' hothers hcall => ?_
        obtain ⟨hfound, rfl⟩ := hcall
        have hnow := h.call hgrowth hothers (c := .getTransaction info.signature) (by simp)
        exact ⟨hnow.indexed.onward, hnow, hfound⟩
      refine traces_bind hcall fun transaction t ht ⟨hscanning, hfound⟩ => ?_
      cases transaction with
      | none => exact traces_throw ht
      | some transaction =>
          obtain rfl := hfound transaction rfl
          dsimp only
          cases hevents : locatedEvents source.programId (world.transaction info.signature) with
          | none => exact traces_throw ht
          | some events =>
              refine traces_bind (ih hscanning) fun more t' ht' ⟨hscanning', hmore⟩ => ?_
              exact traces_pure ht' ⟨hscanning', .cons ⟨rfl, rfl, rfl, rfl, hevents⟩ hmore⟩

/-! ## the scan -/

section Scan

variable (world programId start) (later : IndexTables ρ → IndexTables ρ → Prop)

/-- The tables and the log behind a scan: `u` is what its first page was read from, and `v`
what the head was. -/
structure Indexing (u v : IndexTables ρ) (passed : List ConfirmedSignatureInfo)
    (s : IndexTables ρ × IndexLog ρ) : Prop where
  indexed : Indexed world programId start s.1 passed
  page : s.2.firstPage = some u
  head : s.2.head = some v
  between : later u v
  since : later v s.1

/-- What a scan returns. -/
structure Found (source : SourceOptions) (limit : Nat) (passed : List ConfirmedSignatureInfo)
    (u v : IndexTables ρ) (signatures : List ConfirmedSignatureInfo) (found : EscrowFinalizedScan) :
    Prop where
  first : Indexed world programId start u passed
  waiting : passed ++ signatures = newer start u.history
  transactions : List.Forall₂ (Reads world source) (signatures.take limit) found.transactions
  scannedThroughSlot : found.scannedThroughSlot =
    if limit < signatures.length then
      (found.transactions.getLast?.map (·.slot)).getD (cursorPast start passed).slot
    else v.finalizedSlot

end Scan

theorem traces_getGenesisHash (hgrowth : ChainGrowth world later)
    (h : Beginning world programId start passed S) :
    Proceeds world programId start later passed
      (fun _ t => Beginning world programId start passed t) getGenesisHash S := by
  refine traces_perform h.indexed.onward fun t _ t' hothers hcall => ?_
  obtain rfl : t' = t := hcall
  have hnow := h.call hgrowth hothers (c := .getGenesisHash) ⟨rfl, rfl⟩
  exact ⟨hnow.indexed.onward, hnow⟩

theorem traces_getSlot (hgrowth : ChainGrowth world later)
    (h : Scanning world programId start later passed u S) :
    Proceeds world programId start later passed
      (fun slot t => ∃ v, Indexing world programId start later u v passed t ∧
        slot = v.finalizedSlot) getSlot S := by
  refine traces_perform h.indexed.onward fun v slot t hothers hcall => ?_
  obtain ⟨rfl, rfl⟩ := hcall
  have hnow := h.indexed.elsewhere hgrowth hothers
  refine ⟨hnow.onward, t, ⟨hnow, ?_, ?_, hgrowth.trans h.since hothers.later, hgrowth.refl t⟩, rfl⟩
  · rw [IndexLog.firstPage_append, h.page]
    rfl
  · rw [IndexLog.head_append, h.head]
    rfl

theorem traces_scan (hgrowth : ChainGrowth world later) (limit : Nat)
    (h : Beginning world programId start passed S) :
    Proceeds world programId start later passed
      (fun found t => ∃ u v signatures, Indexing world programId start later u v passed t ∧
        Found world programId start source limit passed u v signatures found)
      (scan source (cursorPast start passed) limit) S := by
  refine traces_bind (traces_getGenesisHash hgrowth h) fun genesisHash t ht hbegin => ?_
  split
  · exact traces_throw ht
  · refine traces_bind (traces_signaturesSince hgrowth source hbegin)
      fun signatures t ht ⟨u, hscanning, hsignatures⟩ => ?_
    refine traces_bind (traces_readTransactions hgrowth (signatures.take limit) hscanning)
      fun transactions t ht ⟨hscanning, hreads⟩ => ?_
    refine traces_bind (traces_getSlot hgrowth hscanning) fun slot t ht ⟨v, hindexing, hslot⟩ => ?_
    refine traces_pure ht ⟨u, v, signatures, hindexing, hscanning.first, hsignatures, hreads, ?_⟩
    rw [hslot]

end CalledIt.Indexer
