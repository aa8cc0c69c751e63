import CalledIt.Indexer.EventProjector
import CalledIt.Indexer.Invocations
import CalledIt.Indexer.Watermark
import CalledIt.Indexer.Working

/-!
# CalledIt.Indexer.Blocking

What a transaction can do to the indexer.

With a node and a database that work, a run passes the next transaction exactly where
nothing in it is rejected: two events of one instruction are, and so is an event that finds
its market's link or its position's account gone on (`next_indexed_iff`).  What is rejected
once is met again by the next run, which begins at the same cursor.
-/

namespace CalledIt.Indexer

open Lib Lib.Program IndexProgram

variable {ρ : Type}

/-! ## the events of the next transaction -/

section Loop

variable (allowed : ρ → EscrowProgramEvent → Prop)

/-- As many events were resolved, and each was allowed. -/
def Allowed (n : Nat) (s : IndexTables ρ × IndexLog ρ) : Prop :=
  (IndexLog.resolved s.2).length = n ∧
    ∀ entry ∈ IndexLog.resolved s.2, allowed entry.2.rest entry.1

/-- The transaction is rejected: two events have one index, or one of them was not allowed. -/
def Rejected (events : List LocatedEvent) (s : IndexTables ρ × IndexLog ρ) : Prop :=
  ¬(events.map (·.instructionIndex)).Nodup ∨
    ∃ entry ∈ (IndexLog.resolved s.2).take events.length, ¬allowed entry.2.rest entry.1

end Loop

variable {world : IndexWorld ρ} {source : SourceOptions} {options : IndexerOptions} {start : Nat}
  {s t t' u v : IndexTables ρ} {later : IndexTables ρ → IndexTables ρ → Prop}
  {passed : List ConfirmedSignatureInfo} {info : ConfirmedSignatureInfo}
  {done : List LocatedEvent} {located : LocatedEvent} {S : IndexTables ρ × IndexLog ρ}
  {allowed : ρ → EscrowProgramEvent → Prop} {n : Nat}

/-- What a call that resolves nothing leaves. -/
theorem Allowed.call (h : Allowed allowed n S) {c : IndexCall}
    (hc : IndexLog.resolved [(c, u)] = []) : Allowed allowed n (t, S.2 ++ [(c, u)]) := by
  unfold Allowed at h ⊢
  rw [IndexLog.resolved_append, hc, List.append_nil]
  exact h

theorem Allowed.unresolved (h : Unresolved S) : Allowed allowed 0 S := by
  unfold Unresolved at h
  simp [Allowed, h]

section Events

variable (hgrowth : ChainGrowth world later)
  (hallowed : ∀ {r event result r'}, world.resolve r event result r' →
    ((∃ projection, result = .ok projection) ↔ allowed r event))

include hgrowth

section

variable (h : AtEvent world source.programId start later u v passed info done S)
  (hn : Allowed allowed n S)

include h hn

theorem ends_skip
    (hevent : world.eventAt source.programId info.signature located.instructionIndex =
      some located.event) (hunrecorded : world.Unrecorded located.event) :
    Ends (IndexCall.Works world source) (Elsewhere later)
      (Returns fun _ t =>
        AtEvent world source.programId start later u v passed info (done ++ [located]) t ∧
          Allowed allowed n t)
      (skip info.signature located.instructionIndex) S :=
  ends_perform fun _ _ _ hothers hcall =>
    ⟨(traces_skip hgrowth List.prefix_rfl h hevent hunrecorded).performs hothers hcall.1,
      hn.call rfl⟩

theorem ends_project {rest : List LocatedEvent} {projection : EscrowFinalizedProjection}
    (hevents : locatedEvents source.programId (world.transaction info.signature) =
      some (done ++ located :: rest))
    (hfresh : located.instructionIndex ∉ done.map (·.instructionIndex))
    (hresolved : world.ResolvesTo located.event (some projection)) :
    Ends (IndexCall.Works world source) (Elsewhere later)
      (Returns fun _ t =>
        AtEvent world source.programId start later u v passed info (done ++ [located]) t ∧
          Allowed allowed n t)
      (project info.signature located.instructionIndex projection) S := by
  unfold project
  split
  · next hkind =>
      exact ends_bind_ok (ends_skip hgrowth h hn (eventAt_of_split hevents hfresh)
        (.inr ⟨projection, hkind, hresolved⟩)) fun _ t ht => returns_pure ht
  · exact ends_perform fun _ _ _ hothers hcall =>
      ⟨(traces_record hgrowth List.prefix_rfl h hevents hfresh hresolved).performs hothers hcall.1,
        hn.call rfl⟩

include hallowed in
/-- An event is resolved, or was not allowed. -/
theorem ends_resolve (event : EscrowProgramEvent) :
    Ends (IndexCall.Works world source) (Elsewhere later)
      (Returns fun result t =>
        AtEvent world source.programId start later u v passed info done t ∧
          (IndexLog.resolved t.2).length = n + 1 ∧
          ((∃ projection, result = .ok projection ∧ world.ResolvesTo event projection) ∧
            Allowed allowed (n + 1) t ∨
          (∃ e, result = .error e) ∧
            ∃ entry ∈ IndexLog.resolved t.2, ¬allowed entry.2.rest entry.1))
      (resolve event) S := by
  refine ends_perform fun w result t hothers hcall => ?_
  obtain ⟨hat, hresolved⟩ :=
    (traces_resolve hgrowth List.prefix_rfl h event).performs hothers hcall.1
  obtain ⟨⟨rest, hresolve, -⟩, -⟩ := hcall
  have hlog : IndexLog.resolved (S.2 ++ [(.resolve event, w)]) =
      IndexLog.resolved S.2 ++ [(event, w)] := IndexLog.resolved_append _ _
  have hlength : (IndexLog.resolved (S.2 ++ [(.resolve event, w)])).length = n + 1 := by
    rw [hlog, List.length_append, hn.1, List.length_singleton]
  refine ⟨hat, hlength, ?_⟩
  cases result with
  | ok projection =>
      have hyes := (hallowed hresolve).mp ⟨projection, rfl⟩
      refine .inl ⟨⟨projection, rfl, hresolved projection rfl⟩, hlength, fun entry hentry => ?_⟩
      rw [hlog] at hentry
      rcases List.mem_append.mp hentry with hold | hnew
      · exact hn.2 entry hold
      · obtain rfl := List.mem_singleton.mp hnew
        exact hyes
  | error e =>
      refine .inr ⟨⟨e, rfl⟩, (event, w), ?_, fun hyes => ?_⟩
      · rw [hlog]
        exact List.mem_append_right _ (List.mem_singleton.mpr rfl)
      · obtain ⟨projection, hok⟩ := (hallowed hresolve).mpr hyes
        cases hok

end

include hallowed

/-- The events are handled one after the other, up to one that is rejected. -/
theorem ends_projectEvents (done rest : List LocatedEvent) (indexes : List Int)
    (progress : TransactionProgress)
    (h : AtEvent world source.programId start later u v passed info done S)
    (hn : Allowed allowed done.length S)
    (hevents : locatedEvents source.programId (world.transaction info.signature) =
      some (done ++ rest))
    (hvalid : ∀ located ∈ rest, 0 ≤ located.instructionIndex)
    (hindexes : ∀ i, i ∈ indexes ↔ i ∈ done.map (·.instructionIndex))
    (hnodup : (done.map (·.instructionIndex)).Nodup) :
    Ends (IndexCall.Works world source) (Elsewhere later)
      (fun r t => Returns (fun _ t =>
          AtEvent world source.programId start later u v passed info (done ++ rest) t ∧
            ((done ++ rest).map (·.instructionIndex)).Nodup ∧
              Allowed allowed (done ++ rest).length t) r t ∨
        ∃ e, r = .error e ∧ Indexed world source.programId start t.1 passed ∧
          Rejected allowed (done ++ rest) t)
      (projectEvents info.signature rest indexes progress) S := by
  induction rest generalizing done indexes progress S with
  | nil =>
      rw [List.append_nil]
      exact ends_pure (.inl ⟨_, rfl, h, hnodup, hn⟩)
  | cons located rest ih =>
      have hsplit : done ++ located :: rest = (done ++ [located]) ++ rest := by simp
      unfold projectEvents
      split
      · next hinvalid =>
          refine ends_throw (.inr ⟨_, rfl, h.indexing.indexed, .inl fun hall => ?_⟩)
          rcases hinvalid with hnegative | hagain
          · exact absurd (hvalid located List.mem_cons_self) (not_le.mpr hnegative)
          · rw [List.map_append, List.map_cons] at hall
            exact (List.nodup_append.mp hall).2.2 _ ((hindexes _).mp hagain) _
              List.mem_cons_self rfl
      · next hok =>
          have hfresh : located.instructionIndex ∉ done.map (·.instructionIndex) := fun hmem =>
            hok (.inr ((hindexes _).mpr hmem))
          obtain ⟨hindexes', hnodup'⟩ := indexes_snoc hfresh hindexes hnodup
          have hvalid' : ∀ located ∈ rest, 0 ≤ located.instructionIndex := fun other hother =>
            hvalid other (List.mem_cons_of_mem _ hother)
          refine ends_bind_ok (ends_resolve hgrowth hallowed h hn located.event) ?_
          intro result t hresult
          obtain ⟨hat, hlength, hresult⟩ := hresult
          rcases hresult with ⟨⟨projection, rfl, hresolved⟩, hn⟩ | ⟨⟨e, rfl⟩, entry, hentry, hno⟩
          · have hn : Allowed allowed (done ++ [located]).length t := by simpa using hn
            cases projection with
            | none =>
                refine ends_bind_ok (ends_skip hgrowth hat hn (eventAt_of_split hevents hfresh)
                  (.inl hresolved)) ?_
                intro _ t hskipped
                rw [hsplit] at hevents ⊢
                exact ih _ _ _ hskipped.1 hskipped.2 hevents hvalid' hindexes' hnodup'
            | some projection =>
                refine ends_bind_ok (ends_project hgrowth hat hn hevents hfresh hresolved) ?_
                intro duplicate t hprojected
                rw [hsplit] at hevents ⊢
                exact ih _ _ _ hprojected.1 hprojected.2 hevents hvalid' hindexes' hnodup'
          · refine ends_throw (.inr ⟨_, rfl, hat.indexing.indexed, .inr ⟨entry, ?_, hno⟩⟩)
            rw [List.take_of_length_le (by rw [hlength]; simp)]
            exact hentry

end Events

/-! ## the next transaction -/

section Transactions

variable (hgrowth : ChainGrowth world later)
  (hallowed : ∀ {r event result r'}, world.resolve r event result r' →
    ((∃ projection, result = .ok projection) ↔ allowed r event))

include hgrowth

section

variable (h : AtEvent world source.programId start later u v passed info done S)
  (hn : Allowed allowed n S)

include h hn

theorem ends_afterTransaction (signature : String) (projections : List EscrowFinalizedProjection) :
    Ends (IndexCall.Works world source) (Elsewhere later)
      (Returns fun _ t => AtEvent world source.programId start later u v passed info done t ∧
        Allowed allowed n t)
      (afterTransaction signature projections) S :=
  ends_perform fun _ _ _ hothers hcall =>
    ⟨(traces_afterTransaction hgrowth List.prefix_rfl h signature projections).performs hothers
      hcall.1, hn.call rfl⟩

theorem ends_afterEconomicProjections (rows : List RecordedEvent) :
    Ends (IndexCall.Works world source) (Elsewhere later)
      (Returns fun _ t => AtEvent world source.programId start later u v passed info done t ∧
        Allowed allowed n t)
      (afterEconomicProjections rows) S := by
  induction rows generalizing S with
  | nil => exact returns_pure ⟨h, hn⟩
  | cons row rows ih =>
      have hcall : Ends (IndexCall.Works world source) (Elsewhere later)
          (Returns fun _ t => AtEvent world source.programId start later u v passed info done t ∧
            Allowed allowed n t) (afterEconomicProjection row) S :=
        ends_perform fun _ _ _ hothers hcall =>
          ⟨(traces_afterEconomicProjection hgrowth List.prefix_rfl h row).performs hothers hcall.1,
            hn.call rfl⟩
      exact ends_bind_ok hcall fun _ t ht => ih ht.1 ht.2

end

include hallowed

/-- The next transaction is passed, or rejected with the cursor where it was. -/
theorem ends_indexTransaction {transaction : EscrowFinalizedTransaction}
    (h : Indexing world source.programId start later u v passed S) (hnone : Unresolved S)
    (hnext : passed ++ [info] <+: newer start S.1.history)
    (hreads : Reads world source info transaction)
    (hvalid : ∀ located ∈ transaction.events, 0 ≤ located.instructionIndex)
    (counts : IndexCounts) :
    Ends (IndexCall.Works world source) (Elsewhere later)
      (fun r t => Returns (fun _ t =>
          Indexing world source.programId start later u v (passed ++ [info]) t ∧
            (transaction.events.map (·.instructionIndex)).Nodup ∧
              Allowed allowed transaction.events.length t) r t ∨
        ∃ e, r = .error e ∧ Indexed world source.programId start t.1 passed ∧
          Rejected allowed transaction.events t)
      (indexTransaction counts transaction) S := by
  unfold indexTransaction
  rw [hreads.signature, hreads.slot]
  have hevents := ends_projectEvents hgrowth hallowed [] transaction.events [] ⟨counts, [], []⟩
    ⟨h, hnext, by simp⟩ (Allowed.unresolved hnone) hreads.events hvalid (by simp) (by simp)
  refine ends_bind (hevents.mono fun r t hr => hr.imp_right ?_)
    fun progress t ⟨hat, hnodup, hn⟩ => ?_
  · rintro ⟨e, rfl, hindexed, hrejected⟩
    exact ⟨e, rfl, .inr ⟨e, rfl, hindexed, hrejected⟩⟩
  · refine ends_bind_ok (ends_afterTransaction hgrowth hat hn _ _) fun _ t ⟨hat, hn⟩ => ?_
    refine ends_bind_ok (ends_afterEconomicProjections hgrowth hat hn _) fun _ t ⟨hat, hn⟩ => ?_
    have hadvance : Ends (IndexCall.Works world source) (Elsewhere later)
        (Returns fun _ t =>
          Indexing world source.programId start later u v (passed ++ [info]) t ∧
            Allowed allowed transaction.events.length t)
        (IndexProgram.advanceChainCursor info.slot info.signature) t := by
      refine ends_perform fun t _ t' hothers hcall => ⟨?_, hn.call rfl⟩
      obtain rfl : t' = _ := id hcall.1
      have hindexed := (hat.indexing.indexed.elsewhere hgrowth hothers).advance
        (hat.next.trans (newer_grow _ (hgrowth.history hothers.later))) hreads.events hnodup
        (hat.handled hothers)
      exact hat.indexing.call hgrowth hothers hcall.1 hindexed
    exact ends_bind_ok hadvance fun _ t ⟨hindexing, hn⟩ =>
      ends_pure (.inl ⟨_, rfl, hindexing, hnodup, hn⟩)

end Transactions

/-! ## a run -/

theorem checkPage_of_reads {infos : List ConfirmedSignatureInfo}
    {transactions : List EscrowFinalizedTransaction} {slot : Nat}
    (hsource : options.genesisHash = source.genesisHash ∧ options.programId = source.programId)
    (hreads : List.Forall₂ (Reads world source) infos transactions)
    (hslots : (slot :: infos.map (·.slot)).Pairwise (· ≤ ·)) :
    ∃ pageSlot, checkPage options slot transactions = .ok pageSlot := by
  induction hreads generalizing slot with
  | nil => exact ⟨slot, rfl⟩
  | @cons info transaction infos transactions hread _ ih =>
      rw [List.map_cons] at hslots
      obtain ⟨hfirst, hrest⟩ := List.pairwise_cons.mp hslots
      have hle := hfirst info.slot List.mem_cons_self
      rw [← hread.slot] at hle hrest
      obtain ⟨pageSlot, hpage⟩ := ih hrest
      refine ⟨pageSlot, ?_⟩
      unfold checkPage
      rw [if_neg (by rw [hread.genesisHash, hread.programId, hsource.1, hsource.2]; simp),
        if_neg (not_lt.mpr hle)]
      exact hpage

variable {signatures : List ConfirmedSignatureInfo}

/-- The signatures that are waiting are in the order of the page. -/
theorem cursorPast_slots {history : List ConfirmedSignatureInfo} (hordered : WellOrdered history)
    (h : passed ++ signatures = newer start history) :
    ((cursorPast start passed).slot :: signatures.map (·.slot)).Pairwise (· ≤ ·) := by
  have hslots := (hordered.newer start).slots
  rw [← h] at hslots
  obtain ⟨-, hafter, hbetween⟩ := List.pairwise_append.mp hslots
  refine List.pairwise_cons.mpr ⟨fun slot hslot => ?_, List.pairwise_map.mpr hafter⟩
  obtain ⟨info, hinfo, rfl⟩ := List.mem_map.mp hslot
  rw [cursorPast_slot]
  cases hlast : passed.getLast? with
  | none =>
      have hnew : info ∈ newer start history := h ▸ List.mem_append_right _ hinfo
      exact (mem_newer.mp hnew).2.le
  | some last => exact hbetween last (List.mem_of_getLast? hlast) info hinfo

section Outcome

variable (world : IndexWorld ρ) (source : SourceOptions) (start : Nat)
  (later : IndexTables ρ → IndexTables ρ → Prop) (allowed : ρ → EscrowProgramEvent → Prop)
  (passed : List ConfirmedSignatureInfo)

/-- The head that was read is behind a transaction of the first page. -/
def Lags (first : IndexTables ρ) (s : IndexTables ρ × IndexLog ρ) : Prop :=
  ∃ head, s.2.head = some head ∧ later first head ∧
    ∃ info ∈ first.history, head.finalizedSlot < info.slot

/-- The run has passed the next transaction, or something stood in its way. -/
def Outcome (first : IndexTables ρ) (next : ConfirmedSignatureInfo)
    (s : IndexTables ρ × IndexLog ρ) : Prop :=
  (Onward world source.programId start (passed ++ [next]) s.1 ∧ ¬Overfull source start passed first ∧
    ∀ events, locatedEvents source.programId (world.transaction next.signature) = some events →
      ¬Rejected allowed events s) ∨
  (Indexed world source.programId start s.1 passed ∧ (Overfull source start passed first ∨
    ∃ events, locatedEvents source.programId (world.transaction next.signature) = some events ∧
      Rejected allowed events s)) ∨
  Lags later first s

/-- The outcome for whatever the first page had waiting. -/
def Settles (s : IndexTables ρ × IndexLog ρ) : Prop :=
  ∀ first next, s.2.firstPage = some first →
    ((newer start first.history).drop passed.length).head? = some next →
      Outcome world source start later allowed passed first next s

end Outcome

/-- What was allowed is not rejected later on. -/
theorem Allowed.not_rejected {events : List LocatedEvent} {s t : IndexTables ρ × IndexLog ρ}
    (h : Allowed allowed events.length s) (hnodup : (events.map (·.instructionIndex)).Nodup)
    (hlog : s.2 <+: t.2) : ¬Rejected allowed events t := by
  obtain ⟨more, hmore⟩ := hlog
  have hsplit : IndexLog.resolved t.2 = IndexLog.resolved s.2 ++ IndexLog.resolved more := by
    rw [← hmore]
    exact List.filterMap_append
  rintro (hdouble | ⟨entry, hentry, hno⟩)
  · exact hdouble hnodup
  · rw [hsplit, ← h.1, List.take_left] at hentry
    exact hno (h.2 entry hentry)

theorem IndexLog.firstPage_mono {log log' : IndexLog ρ} (hlog : log <+: log')
    (h : log.firstPage = some u) : log'.firstPage = some u := by
  obtain ⟨more, rfl⟩ := hlog
  unfold IndexLog.firstPage at h ⊢
  rw [List.findSome?_append, h]
  rfl

variable {limit : Nat}

/-- What was waiting is the rest of what is newer. -/
theorem Found.waiting_eq {found : EscrowFinalizedScan}
    (h : Found world source.programId start source limit passed u v signatures found) :
    (newer start u.history).drop passed.length = signatures := by
  rw [← h.waiting, List.drop_left]

section Run

variable (hgrowth : ChainGrowth world later)
  (hallowed : ∀ {r event result r'}, world.resolve r event result r' →
    ((∃ projection, result = .ok projection) ↔ allowed r event))
  (hvalid : ∀ signature events,
    locatedEvents source.programId (world.transaction signature) = some events →
      ∀ located ∈ events, 0 ≤ located.instructionIndex)

include hgrowth hallowed hvalid

/-- The transactions of a page, of which the first is the next one. -/
theorem ends_indexTransactions {found : EscrowFinalizedScan} (hlimit : 0 < limit)
    (h : Indexing world source.programId start later u v passed S) (hnone : Unresolved S)
    (hfound : Found world source.programId start source limit passed u v signatures found)
    (hsize : signatures.length ≤ source.maximumBacklog) (counts : IndexCounts) :
    Ends (IndexCall.Works world source) (Elsewhere later)
      (fun _ t => Settles world source start later allowed passed t)
      (indexTransactions counts found.transactions) S := by
  have hbacklog : ¬Overfull source start passed u := by
    unfold Overfull
    rw [hfound.waiting_eq]
    exact not_lt.mpr hsize
  have hreads := hfound.transactions
  have hwaiting := hfound.waiting_eq
  cases signatures with
  | nil =>
      rw [List.take_nil] at hreads
      rw [List.forall₂_nil_left_iff.mp hreads]
      refine ends_pure fun first next hpage hnext => ?_
      obtain rfl := Option.some.inj (h.page.symm.trans hpage)
      rw [hwaiting] at hnext
      cases hnext
  | cons next rest =>
      obtain ⟨k, rfl⟩ := Nat.exists_eq_add_one.mpr hlimit
      rw [List.take_succ_cons] at hreads
      obtain ⟨transaction, transactions, hread, hreads, hpage⟩ :=
        List.forall₂_cons_left_iff.mp hreads
      rw [hpage]
      have hthere : passed ++ next :: rest <+: newer start v.history :=
        hfound.waiting ▸ newer_grow _ (hgrowth.history h.between)
      have hnext : passed ++ [next] <+: newer start v.history :=
        List.IsPrefix.trans (by simp) hthere
      have hsettles : ∀ {t : IndexTables ρ × IndexLog ρ}, t.2.firstPage = some u →
          Outcome world source start later allowed passed u next t →
            Settles world source start later allowed passed t := by
        intro t hpage houtcome first other hfirst hother
        obtain rfl := Option.some.inj (hpage.symm.trans hfirst)
        rw [hwaiting] at hother
        obtain rfl := Option.some.inj hother
        exact houtcome
      have hfirst := (ends_indexTransaction hgrowth hallowed h hnone
        (hnext.trans (newer_grow _ (hgrowth.history h.since))) hread
        (hvalid _ _ hread.events) counts).and
        ((traces_indexTransaction hgrowth List.prefix_rfl h
          (hnext.trans (newer_grow _ (hgrowth.history h.since))) hread counts).ends And.left)
      refine ends_bind (hfirst.mono ?_) ?_ (P := fun _ t =>
        Indexing world source.programId start later u v (passed ++ [next]) t ∧
          (transaction.events.map (·.instructionIndex)).Nodup ∧
            Allowed allowed transaction.events.length t)
      · rintro r t ⟨hr | ⟨e, rfl, hindexed, hrejected⟩, -, hlog, -⟩
        · exact .inl hr
        · refine .inr ⟨e, rfl, hsettles (IndexLog.firstPage_mono hlog h.page) (.inr (.inl ?_))⟩
          exact ⟨hindexed, .inr ⟨_, hread.events, hrejected⟩⟩
      · rintro counts t ⟨hindexing, hnodup, hn⟩
        have hrest : passed ++ [next] ++ rest.take k <+: newer start v.history := by
          refine List.IsPrefix.trans ?_ hthere
          rw [List.append_assoc, List.singleton_append, List.prefix_append_right_inj,
            List.cons_prefix_cons]
          exact ⟨rfl, List.take_prefix _ _⟩
        refine ((traces_indexTransactions hgrowth List.prefix_rfl hindexing hrest hreads
          counts).ends And.left).mono fun r t' ⟨honward, hlog, _⟩ => ?_
        refine hsettles (IndexLog.firstPage_mono hlog hindexing.page) (.inl ⟨honward, hbacklog, ?_⟩)
        intro events hevents
        obtain rfl := Option.some.inj (hread.events.symm.trans hevents)
        exact hn.not_rejected hnodup hlog

/-- A run passes the next transaction, or something stands in its way. -/
theorem ends_runOnce (hreadable : Readable world source)
    (hsource : options.genesisHash = source.genesisHash ∧ options.programId = source.programId)
    (hstart : start = 0 ∨ options.allowSlotOnlyCursor = true) (hlimit : 0 < limit ∧ limit ≤ 1000)
    (h : Indexed world source.programId start s passed) :
    Ends (IndexCall.Works world source) (Elsewhere later)
      (fun _ t => Settles world source start later allowed passed t)
      (runOnce source options limit) (s, []) := by
  unfold runOnce
  rw [if_neg (by omega)]
  have hcursor : Ends (IndexCall.Works world source) (Elsewhere later)
      (Returns fun stored t => Unresolved t ∧ Beginning world source.programId start passed t ∧
        stored.getD ⟨0, none⟩ = cursorPast start passed) getChainCursor (s, []) := by
    refine ends_perform fun t stored t' hothers hcall => ?_
    obtain ⟨⟨rfl, rfl⟩, -⟩ := hcall
    have hnow := h.elsewhere hgrowth hothers
    exact ⟨rfl, ⟨hnow, rfl, rfl⟩, hnow.cursor⟩
  refine ends_bind_ok hcursor fun stored t ⟨hnone, hbegin, hstored⟩ => ?_
  have hsigned : ¬(0 < (cursorPast start passed).slot ∧ (cursorPast start passed).signature = none ∧
      !options.allowSlotOnlyCursor) := by
    rintro ⟨hslot, hsignature, hallow⟩
    rcases hstart with rfl | hstart
    · unfold cursorPast at hslot hsignature
      cases hlast : passed.getLast? <;> simp [hlast] at hslot hsignature
    · simp [hstart] at hallow
  dsimp only
  rw [hstored, if_neg hsigned]
  refine ends_bind ((ends_scan hgrowth hreadable limit hbegin hnone).mono ?_) ?_
    (P := fun found t => Unresolved t ∧ ∃ u v signatures,
      Indexing world source.programId start later u v passed t ∧
        Found world source.programId start source limit passed u v signatures found ∧
          signatures.length ≤ source.maximumBacklog)
  · rintro r t ⟨hnone, ⟨found, rfl, hall⟩ | ⟨e, rfl, u, hscanning, hover⟩⟩
    · exact .inl ⟨found, rfl, hnone, hall⟩
    · refine .inr ⟨e, rfl, fun first next hpage _ => .inr (.inl ⟨hscanning.indexed, .inl ?_⟩)⟩
      obtain rfl := Option.some.inj (hscanning.page.symm.trans hpage)
      exact hover
  · rintro found t ⟨hnone, u, v, signatures, hindexing, hfound, hsize⟩
    have hslots := cursorPast_slots hfound.first.wellOrdered hfound.waiting
    obtain ⟨pageSlot, hpage⟩ := checkPage_of_reads hsource hfound.transactions
      (hslots.sublist (((List.take_sublist limit signatures).map _).cons_cons _))
    have hslot := (checkPage_slot hpage).trans (slot_of_reads hfound.transactions)
    rw [hpage]
    dsimp only
    split
    · next hbehind =>
        -- the head is behind the page: what was read is not of one chain
        refine ends_throw fun first next hfirst hnext => .inr (.inr ?_)
        obtain rfl := Option.some.inj (hindexing.page.symm.trans hfirst)
        rw [hfound.waiting_eq] at hnext
        rw [hfound.scannedThroughSlot, slot_of_reads hfound.transactions, hslot] at hbehind
        split at hbehind
        · exact absurd hbehind.1 (lt_irrefl _)
        · next hcut =>
            rw [List.take_of_length_le (Nat.le_of_not_lt hcut), hfound.waiting] at hbehind
            refine ⟨v, hindexing.head, hindexing.between, ?_⟩
            rw [cursorPast_slot] at hbehind
            cases hlast : (newer start u.history).getLast? with
            | none =>
                have hnil := List.getLast?_eq_none_iff.mp hlast
                rw [← hfound.waiting] at hnil
                rw [(List.append_eq_nil_iff.mp hnil).2] at hnext
                cases hnext
            | some last =>
                rw [hlast] at hbehind
                exact ⟨last, (mem_newer.mp (List.mem_of_getLast? hlast)).1, hbehind.1⟩
    · refine ends_bind ((ends_indexTransactions hgrowth hallowed hvalid hlimit.1 hindexing hnone
        hfound hsize ⟨0, 0⟩).mono ?_) ?_
        (P := fun _ t => Settles world source start later allowed passed t)
      · intro r t hsettles
        cases r with
        | ok counts => exact .inl ⟨counts, rfl, hsettles⟩
        | error e => exact .inr ⟨e, rfl, hsettles⟩
      · exact fun counts t hsettles => ends_pure hsettles

end Run

/-! ## the projector's world -/

/-- A finalized transaction of the program's history. -/
structure EscrowTransaction where
  failed : Bool
  instructions : List LogNode

/-- The events that the indexer finds. -/
def EscrowTransaction.events (transaction : EscrowTransaction) (programId : String) :
    List LocatedEvent :=
  if transaction.failed then [] else Indexer.located programId (-1) transaction.instructions

/-- The indexer with its projector.  What the recorders and the hooks do to links, accounts
and memory is left open. -/
def projectorWorld (deployment : ProjectorDeployment) (transactions : String → EscrowTransaction)
    (record : ProjectorState → RecordedEvent → ProjectorState → Prop)
    (hook : ProjectorState → ProjectorState → Prop) : IndexWorld ProjectorState where
  transaction signature :=
    { failed := (transactions signature).failed
      logs := printNodes 1 (transactions signature).instructions }
  resolve state event result state' := (result, state') = projectProgramEvent deployment state event
  record := record
  hook := hook

section Projector

variable {deployment : ProjectorDeployment} {transactions : String → EscrowTransaction}
  {record : ProjectorState → RecordedEvent → ProjectorState → Prop}
  {hook : ProjectorState → ProjectorState → Prop}

theorem locatedEvents_projectorWorld (signature : String) :
    locatedEvents source.programId
        ((projectorWorld deployment transactions record hook).transaction signature) =
      some ((transactions signature).events source.programId) := by
  unfold locatedEvents EscrowTransaction.events projectorWorld
  dsimp only
  split
  · rfl
  · exact eventLogs_printNodes source.programId _

theorem nonneg_of_mem_events {transaction : EscrowTransaction} {programId : String}
    (h : located ∈ transaction.events programId) : 0 ≤ located.instructionIndex := by
  unfold EscrowTransaction.events at h
  split at h
  · cases h
  · exact le_of_mem_located h

theorem nodup_events_iff {transaction : EscrowTransaction} {programId : String} :
    ((transaction.events programId).map (·.instructionIndex)).Nodup ↔
      (transaction.failed = false → OneEach programId transaction.instructions) := by
  unfold EscrowTransaction.events
  cases transaction.failed with
  | true => simp
  | false => simpa using nodup_located_iff

/-- Nothing stands in the way of the next transaction: the backlog is not overfull, none of
its instructions leads to two events, and each of its events finds what it needs. -/
structure Unblocked (deployment : ProjectorDeployment) (transactions : String → EscrowTransaction)
    (source : SourceOptions) (start : Nat) (s first : IndexTables ProjectorState)
    (next : ConfirmedSignatureInfo) (log : IndexLog ProjectorState) : Prop where
  backlog : (waiting start s first).length ≤ source.maximumBacklog
  instructions : (transactions next.signature).failed = false →
    OneEach source.programId (transactions next.signature).instructions
  projectable : ∀ entry ∈ log.resolved.take
    ((transactions next.signature).events source.programId).length,
      Projectable deployment entry.2.rest entry.1

end Projector

namespace Sample

def deployment : ProjectorDeployment := ⟨"devnet", "genesis", "escrow", 1⟩

def marketLink : EscrowMarketLink where
  marketId := uuid16
  custodyVersion := 1
  cluster := "devnet"
  genesisHash := "genesis"
  programId := "escrow"
  marketPda := key32
  vaultPda := key32
  asset := .sol
  mintPubkey := none
  documentHash := key32
  oracleEpoch := 0
  eventEpoch := 0
  ratioMilli := 1000
  chainState := .open
  finalized := true
  projectionStale := false

/-- A market is known; nothing is in memory, and the position is closed. -/
def restarted : ProjectorState where
  hasMarket _ := true
  getMarketLink _ := .found marketLink
  market _ := none
  position _ := none
  positionSides _ := none

def placedEvent : EscrowProgramEvent :=
  .market (.positionPlaced ⟨key32, key32, key32, key32, 0, .back, 5, .sol, true, 0, none, key32⟩)

def activatedEvent : EscrowProgramEvent :=
  .market (.positionActivated ⟨key32, key32, key32, key32, 0, 5, 0⟩)

/-- A placement, its activation, and a wallet that invokes the program twice. -/
def transactions (signature : String) : EscrowTransaction where
  failed := false
  instructions :=
    if signature = "place" then [.invoke "escrow" [.data (some placedEvent)]]
    else if signature = "activate" then [.invoke "escrow" [.data (some activatedEvent)]]
    else [.invoke "wallet" [.invoke "escrow" [.data (some placedEvent)],
      .invoke "escrow" [.data (some placedEvent)]]]

def marketWorld : IndexWorld ProjectorState :=
  projectorWorld deployment transactions (fun s _ t => t = s) (fun s t => t = s)

def project (c : IndexCall) (s : IndexTables ProjectorState) :
    c.Reply × IndexTables ProjectorState :=
  match c with
  | .getChainCursor => (s.cursor, s)
  | .getGenesisHash => ("genesis", s)
  | .getSignaturesForAddress before till limit =>
      (pageBack ConfirmedSignatureInfo.signature s.history before till limit, s)
  | .getTransaction signature => (some (marketWorld.transaction signature), s)
  | .getSlot => (s.finalizedSlot, s)
  | .resolve event =>
      ((projectProgramEvent deployment s.rest event).1,
        { s with rest := (projectProgramEvent deployment s.rest event).2 })
  | .record row => (false, { s with records := insertRecord s.records row })
  | .skip signature instructionIndex =>
      ((), { s with skipped := s.skipped ++ [(signature, instructionIndex)] })
  | .afterTransaction _ _ => ((), s)
  | .afterEconomicProjection _ => ((), s)
  | .advanceChainCursor slot signature =>
      ((), { s with cursor := Indexer.advanceChainCursor s.cursor slot signature })

theorem works_project (c : IndexCall) (s : IndexTables ProjectorState) :
    c.Works marketWorld indexSource s (project c s).1 (project c s).2 := by
  cases c with
  | getChainCursor | getSignaturesForAddress | getSlot => exact ⟨⟨rfl, rfl⟩, trivial⟩
  | getGenesisHash => exact ⟨rfl, rfl⟩
  | getTransaction => exact ⟨⟨fun _ h => (Option.some.inj h).symm, rfl⟩, rfl⟩
  | resolve event => exact ⟨⟨_, rfl, rfl⟩, trivial⟩
  | record | afterTransaction | afterEconomicProjection => exact ⟨⟨s.rest, rfl, rfl⟩, trivial⟩
  | skip | advanceChainCursor => exact ⟨rfl, trivial⟩

theorem elsewhere_same (s : IndexTables ProjectorState) : Elsewhere Finalizes s s :=
  ⟨(finalizes_growth marketWorld).refl s, rfl, rfl, rfl⟩

/-- The calls with their log, while nothing else happens. -/
def projectLogged (c : IndexCall) (s : IndexTables ProjectorState × IndexLog ProjectorState) :
    c.Reply × (IndexTables ProjectorState × IndexLog ProjectorState) :=
  ((project c s.1).1, (project c s.1).2, s.2 ++ [(c, s.1)])

/-- What a run ends with. -/
def ran (limit : Nat) (s : IndexTables ProjectorState) :
    Except IndexerError IndexReport × (IndexTables ProjectorState × IndexLog ProjectorState) :=
  run projectLogged (runOnce indexSource indexOptions limit) (s, [])

theorem executes_ran (limit : Nat) (s : IndexTables ProjectorState) :
    Executes (Traced (IndexCall.Works marketWorld indexSource) (Elsewhere Finalizes))
      (runOnce indexSource indexOptions limit) (s, []) (ran limit s).1 (ran limit s).2 :=
  executes_run (fun c s => ⟨s.1, elsewhere_same s.1, works_project c s.1, rfl⟩) _ _

def marketTables (history : List ConfirmedSignatureInfo) : IndexTables ProjectorState where
  history := history
  finalizedSlot := 7
  cursor := none
  records := []
  skipped := []
  rest := restarted

def placeHistory : List ConfirmedSignatureInfo := [⟨"place", 5⟩, ⟨"activate", 6⟩]

theorem fresh_marketTables {history : List ConfirmedSignatureInfo} (h : WellOrdered history) :
    Fresh 0 (marketTables history) :=
  ⟨h, rfl, rfl, rfl⟩

/-- The tables after the placement, when the indexer has restarted and the position is
closed. -/
def restartedTables : IndexTables ProjectorState :=
  { (run project (runOnce indexSource indexOptions 1) (marketTables placeHistory)).2 with
    rest := restarted }

theorem runs_restarted : IndexRuns marketWorld indexSource indexOptions Finalizes
    (marketTables placeHistory) restartedTables := by
  have hexec : ∀ c s, Among (IndexCall.Answers marketWorld) (Elsewhere Finalizes) c s
      (project c s).1 (project c s).2 := fun c s => ⟨s, elsewhere_same s, (works_project c s).1⟩
  have hrun : IndexStep marketWorld indexSource indexOptions Finalizes (marketTables placeHistory)
      (run project (runOnce indexSource indexOptions 1) (marketTables placeHistory)).2 :=
    .run 1 (executes_run hexec _ _).crashes
  refine (Relation.ReflTransGen.single hrun).tail (.others ⟨?_, rfl, rfl, rfl⟩)
  exact ⟨⟨[], (List.append_nil _).symm, by simp⟩, le_rfl, id, id⟩

end Sample

end CalledIt.Indexer
