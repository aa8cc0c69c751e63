import CalledIt.Indexer.Scanned

/-!
# CalledIt.Indexer.IndexRun

A run of the indexer, stopped anywhere or not.

The transactions of the scan are indexed one by one.  Each call keeps `Indexed`, whether or
not the run gets any further, and a run that returns has taken what it found waiting
(`traces_runOnce`).
-/

namespace CalledIt.Indexer

open Lib Lib.Program IndexProgram

variable {ρ : Type}

/-! ## the events of a transaction -/

theorem readLine_sorted {programId : String} {state state' : LogState} {line : LogLine}
    (h : readLine programId state line = some state')
    (hsorted : (state.events.map (·.instructionIndex) ++ [state.topLevelInstruction]).Pairwise
      (· ≤ ·)) :
    (state'.events.map (·.instructionIndex) ++ [state'.topLevelInstruction]).Pairwise (· ≤ ·) := by
  obtain ⟨hevents, -, hlast⟩ := List.pairwise_append.mp hsorted
  cases line with
  | invoke program depth =>
      simp only [readLine] at h
      split at h
      · cases h
      · obtain rfl := Option.some.inj h
        refine List.pairwise_append.mpr ⟨hevents, by simp, fun i hi j hj => ?_⟩
        obtain rfl := List.mem_singleton.mp hj
        have hle := hlast i hi _ (List.mem_singleton.mpr rfl)
        dsimp only
        split <;> omega
  | completion program =>
      simp only [readLine] at h
      split at h <;> (obtain rfl := Option.some.inj h; exact hsorted)
  | data event =>
      simp only [readLine] at h
      split at h
      · obtain rfl := Option.some.inj h
        cases event with
        | none => simpa using hsorted
        | some event =>
            simp only [Option.toList_some, List.map_cons, List.map_nil, List.map_append]
            refine List.pairwise_append.mpr ⟨hsorted, by simp, fun i hi j hj => ?_⟩
            obtain rfl := List.mem_singleton.mp hj
            rcases List.mem_append.mp hi with hi | hi
            · exact hlast i hi _ (List.mem_singleton.mpr rfl)
            · exact (List.mem_singleton.mp hi).le
      · obtain rfl := Option.some.inj h
        exact hsorted
  | other =>
      obtain rfl := Option.some.inj h
      exact hsorted

/-- The instruction indexes of a log never fall. -/
theorem eventLogs_sorted {programId : String} {logs : List LogLine} {events : List LocatedEvent}
    (h : eventLogs programId logs = some events) :
    (events.map (·.instructionIndex)).Pairwise (· ≤ ·) := by
  obtain ⟨final, hfinal, rfl⟩ := Option.map_eq_some_iff.mp h
  have hrun : ∀ (logs : List LogLine) (state : LogState),
      (state.events.map (·.instructionIndex) ++ [state.topLevelInstruction]).Pairwise (· ≤ ·) →
        logs.foldlM (readLine programId) state = some final →
          (final.events.map (·.instructionIndex) ++ [final.topLevelInstruction]).Pairwise
            (· ≤ ·) := by
    intro logs
    induction logs with
    | nil =>
        intro state hsorted hdone
        obtain rfl := Option.some.inj hdone
        exact hsorted
    | cons line logs ih =>
        intro state hsorted hdone
        rw [List.foldlM_cons] at hdone
        obtain ⟨state', hline, hrest⟩ := Option.bind_eq_some_iff.mp hdone
        exact ih state' (readLine_sorted hline hsorted) hrest
  exact (List.pairwise_append.mp (hrun logs ⟨[], -1, []⟩ (by simp) hfinal)).1

/-! ## one event -/

section Events

variable (world : IndexWorld ρ) (programId : String) (start : Nat)
  (later : IndexTables ρ → IndexTables ρ → Prop)

/-- A run at an event of the next transaction, with those before it handled. -/
structure AtEvent (u v : IndexTables ρ) (passed : List ConfirmedSignatureInfo)
    (info : ConfirmedSignatureInfo) (done : List LocatedEvent)
    (s : IndexTables ρ × IndexLog ρ) : Prop where
  indexing : Indexing world programId start later u v passed s
  next : passed ++ [info] <+: newer start s.1.history
  done : ∀ located ∈ done, s.1.Handled info.signature located.instructionIndex

end Events

variable {world : IndexWorld ρ} {programId : String} {start : Nat}
  {later : IndexTables ρ → IndexTables ρ → Prop} {s t t' u v : IndexTables ρ}
  {passed before : List ConfirmedSignatureInfo} {info : ConfirmedSignatureInfo}
  {done : List LocatedEvent} {located : LocatedEvent} {log : IndexLog ρ}
  {S : IndexTables ρ × IndexLog ρ}

theorem Indexing.onward (h : Indexing world programId start later u v passed S)
    (hbefore : before <+: passed) : Onward world programId start before S.1 :=
  ⟨passed, hbefore, h.indexed⟩

variable {c : IndexCall}

theorem Indexing.call {r : c.Reply} {passed' : List ConfirmedSignatureInfo}
    (hgrowth : ChainGrowth world later) (h : Indexing world programId start later u v passed S)
    (hothers : Elsewhere later S.1 t) (hcall : c.Answers world t r t')
    (hindexed : Indexed world programId start t' passed') :
    Indexing world programId start later u v passed' (t', S.2 ++ [(c, t)]) where
  indexed := hindexed
  page := (IndexLog.firstPage_append S.2 (c, t)).trans (by rw [h.page]; rfl)
  head := (IndexLog.head_append S.2 (c, t)).trans (by rw [h.head]; rfl)
  between := h.between
  since := hgrowth.trans h.since (hgrowth.trans hothers.later (hgrowth.call hcall))

variable {rest : List LocatedEvent}

theorem eventAt_of_split {signature : String}
    (hevents : locatedEvents programId (world.transaction signature) =
      some (done ++ located :: rest))
    (hfresh : located.instructionIndex ∉ done.map (·.instructionIndex)) :
    world.eventAt programId signature located.instructionIndex = some located.event := by
  have hdone : done.find? (·.instructionIndex = located.instructionIndex) = none :=
    List.find?_eq_none.mpr fun other hother hsame =>
      hfresh (List.mem_map.mpr ⟨other, hother, by simpa using hsame⟩)
  simp [IndexWorld.eventAt, hevents, List.find?_append, hdone]

/-- The indexes of the events so far, with one more. -/
theorem indexes_snoc {indexes : List Int}
    (hfresh : located.instructionIndex ∉ done.map (·.instructionIndex))
    (hindexes : ∀ i, i ∈ indexes ↔ i ∈ done.map (·.instructionIndex))
    (hnodup : (done.map (·.instructionIndex)).Nodup) :
    (∀ i, i ∈ located.instructionIndex :: indexes ↔
      i ∈ (done ++ [located]).map (·.instructionIndex)) ∧
        ((done ++ [located]).map (·.instructionIndex)).Nodup := by
  refine ⟨fun i => by simp [hindexes, or_comm], ?_⟩
  rw [List.map_append, List.map_singleton]
  refine List.nodup_append.mpr ⟨hnodup, by simp, fun i hi j hj hsame => ?_⟩
  obtain rfl := List.mem_singleton.mp hj
  exact hfresh (hsame ▸ hi)

theorem handled_insertRecord {row : RecordedEvent} {rest : ρ} :
    { s with records := insertRecord s.records row, rest }.Handled row.signature
      row.instructionIndex := by
  refine .inl ?_
  show row.key ∈ (insertRecord s.records row).map RecordedEvent.key
  unfold insertRecord
  split
  · next hold =>
      obtain ⟨r, hr, hkey⟩ := List.any_eq_true.mp hold
      obtain ⟨hsignature, hindex⟩ := of_decide_eq_true hkey
      exact List.mem_map.mpr ⟨r, hr, Prod.ext hsignature hindex⟩
  · exact List.mem_map_of_mem (List.mem_append_right _ (List.mem_singleton.mpr rfl))

theorem insertRecord_subset (records : List RecordedEvent) (row : RecordedEvent) :
    records ⊆ insertRecord records row := by
  unfold insertRecord
  split
  · exact List.Subset.refl _
  · exact List.subset_append_left _ _

theorem AtEvent.call {r : c.Reply} {done' : List LocatedEvent} (hgrowth : ChainGrowth world later)
    (h : AtEvent world programId start later u v passed info done S)
    (hothers : Elsewhere later S.1 t) (hcall : c.Answers world t r t')
    (hindexed : Indexed world programId start t' passed)
    (hdone : ∀ located ∈ done', t'.Handled info.signature located.instructionIndex) :
    AtEvent world programId start later u v passed info done' (t', S.2 ++ [(c, t)]) where
  indexing := h.indexing.call hgrowth hothers hcall hindexed
  next := by
    have hhistory := hgrowth.history (hgrowth.trans hothers.later (hgrowth.call hcall))
    exact h.next.trans (newer_grow _ hhistory)
  done := hdone

/-- What was handled stays so, whatever the others do. -/
theorem AtEvent.handled (h : AtEvent world programId start later u v passed info done S)
    (hothers : Elsewhere later S.1 t) :
    ∀ located ∈ done, t.Handled info.signature located.instructionIndex := fun located hlocated =>
  (h.done located hlocated).mono (by simp [hothers.records]) (by simp [hothers.skipped])

section Calls

variable (hgrowth : ChainGrowth world later) (hbefore : before <+: passed)
  (h : AtEvent world programId start later u v passed info done S)
include hgrowth hbefore h

/-- One call at an event: what it leaves is still indexed, with `done'` handled. -/
theorem AtEvent.perform {done' : List LocatedEvent}
    (hcall : ∀ t r t', Elsewhere later S.1 t → c.Answers world t r t' →
      Indexed world programId start t passed → Indexed world programId start t' passed ∧
        ∀ located ∈ done', t'.Handled info.signature located.instructionIndex) :
    Proceeds world programId start later before
      (fun _ t => AtEvent world programId start later u v passed info done' t)
      (liftM (Program.perform c : Program IndexCall IndexCall.Reply _)) S := by
  refine traces_perform (h.indexing.onward hbefore) fun t r t' hothers hanswer => ?_
  obtain ⟨hindexed, hdone⟩ := hcall t r t' hothers hanswer
    (h.indexing.indexed.elsewhere hgrowth hothers)
  exact ⟨⟨passed, hbefore, hindexed⟩, h.call hgrowth hothers hanswer hindexed hdone⟩

theorem traces_resolve (event : EscrowProgramEvent) :
    Proceeds world programId start later before
      (fun result t => AtEvent world programId start later u v passed info done t ∧
        ∀ projection, result = .ok projection → world.ResolvesTo event projection)
      (resolve event) S := by
  refine traces_perform (h.indexing.onward hbefore) fun t result t' hothers hcall => ?_
  obtain ⟨rest, hresolve, rfl⟩ := id hcall
  have hindexed := (h.indexing.indexed.elsewhere hgrowth hothers).grow
    (t := { t with rest }) List.prefix_rfl
    (h.indexing.indexed.elsewhere hgrowth hothers).wellOrdered rfl rfl rfl
  refine ⟨⟨passed, hbefore, hindexed⟩, h.call hgrowth hothers hcall hindexed ?_, ?_⟩
  · exact h.handled (t := t) hothers
  · rintro projection rfl
    exact ⟨t.rest, rest, hresolve⟩

theorem traces_skip
    (hevent : world.eventAt programId info.signature located.instructionIndex = some located.event)
    (hunrecorded : world.Unrecorded located.event) :
    Proceeds world programId start later before
      (fun _ t => AtEvent world programId start later u v passed info (done ++ [located]) t)
      (skip info.signature located.instructionIndex) S := by
  refine h.perform hgrowth hbefore fun t _ t' hothers hcall hnow => ?_
  obtain rfl : t' = _ := id hcall
  refine ⟨hnow.skip hevent hunrecorded, List.forall_mem_append.mpr ⟨fun other hother => ?_, ?_⟩⟩
  · exact (h.handled hothers other hother).mono (List.Subset.refl _) (List.subset_append_left _ _)
  · exact List.forall_mem_singleton.mpr
      (.inr (List.mem_append_right _ (List.mem_singleton.mpr rfl)))

section

variable {projection : EscrowFinalizedProjection}
  (hevents : locatedEvents programId (world.transaction info.signature) =
    some (done ++ located :: rest))
  (hfresh : located.instructionIndex ∉ done.map (·.instructionIndex))
  (hresolved : world.ResolvesTo located.event (some projection))
include hevents hfresh hresolved

theorem traces_record :
    Proceeds world programId start later before
      (fun _ t => AtEvent world programId start later u v passed info (done ++ [located]) t)
      (record ⟨info.signature, located.instructionIndex, projection⟩) S := by
  refine h.perform hgrowth hbefore fun t _ t' hothers hcall hnow => ?_
  obtain ⟨others, -, rfl⟩ := id hcall
  have hnext := h.next.trans (newer_grow _ (hgrowth.history hothers.later))
  -- the indexes never fall, so what comes before this event was handled
  have hearlier : ∀ events,
      locatedEvents programId (world.transaction info.signature) = some events →
        ∀ other ∈ events, other.instructionIndex < located.instructionIndex →
          t.Handled info.signature other.instructionIndex := by
    intro events hsame other hother hlt
    obtain rfl := Option.some.inj (hevents.symm.trans hsame)
    have hsorted := eventLogs_sorted hevents
    rw [List.map_append, List.map_cons] at hsorted
    have hafter := (List.pairwise_cons.mp (List.pairwise_append.mp hsorted).2.1).1
    rcases List.mem_append.mp hother with hother | hother
    · exact h.handled hothers other hother
    · rcases List.mem_cons.mp hother with rfl | hother
      · exact absurd hlt (lt_irrefl _)
      · exact absurd (hafter _ (List.mem_map_of_mem hother)) (not_le.mpr hlt)
  refine ⟨hnow.record hnext rfl (eventAt_of_split hevents hfresh) hresolved hearlier others,
    List.forall_mem_append.mpr ⟨fun other hother => ?_, ?_⟩⟩
  · exact (h.handled hothers other hother).mono (insertRecord_subset _ _) (List.Subset.refl _)
  · exact List.forall_mem_singleton.mpr handled_insertRecord

theorem traces_project :
    Proceeds world programId start later before
      (fun _ t => AtEvent world programId start later u v passed info (done ++ [located]) t)
      (project info.signature located.instructionIndex projection) S := by
  unfold project
  split
  · next hkind =>
      have hunrecorded : world.Unrecorded located.event := .inr ⟨projection, hkind, hresolved⟩
      refine traces_bind (traces_skip hgrowth hbefore h (eventAt_of_split hevents hfresh)
        hunrecorded) fun _ t ht hskipped => ?_
      exact traces_pure ht hskipped
  · exact traces_record hgrowth hbefore h hevents hfresh hresolved

end

variable (done rest) in
/-- The events of a transaction, one after the other. -/
theorem traces_projectEvents {indexes : List Int} {progress : TransactionProgress}
    (hevents : locatedEvents programId (world.transaction info.signature) = some (done ++ rest))
    (hindexes : ∀ i, i ∈ indexes ↔ i ∈ done.map (·.instructionIndex))
    (hnodup : (done.map (·.instructionIndex)).Nodup) :
    Proceeds world programId start later before
      (fun _ t => AtEvent world programId start later u v passed info (done ++ rest) t ∧
        ((done ++ rest).map (·.instructionIndex)).Nodup)
      (projectEvents info.signature rest indexes progress) S := by
  induction rest generalizing done indexes progress S with
  | nil =>
      rw [List.append_nil]
      exact traces_pure (h.indexing.onward hbefore) ⟨h, hnodup⟩
  | cons located rest ih =>
      unfold projectEvents
      split
      · exact traces_throw (h.indexing.onward hbefore)
      · next hvalid =>
          have hfresh : located.instructionIndex ∉ done.map (·.instructionIndex) := fun hmem =>
            hvalid (.inr ((hindexes _).mpr hmem))
          have hsplit : done ++ located :: rest = (done ++ [located]) ++ rest := by simp
          obtain ⟨hindexes', hnodup'⟩ := indexes_snoc hfresh hindexes hnodup
          rw [hsplit] at hevents ⊢
          refine traces_bind (traces_resolve hgrowth hbefore h located.event)
            fun result t ht ⟨hat, hresult⟩ => ?_
          rw [← hsplit] at hevents
          cases result with
          | error e => exact traces_throw ht
          | ok projection =>
              have hresolved := hresult projection rfl
              cases projection with
              | none =>
                  refine traces_bind (traces_skip hgrowth hbefore hat
                    (eventAt_of_split hevents hfresh) (.inl hresolved)) fun _ t _ hskipped => ?_
                  exact ih _ hskipped (hsplit ▸ hevents) hindexes' hnodup'
              | some projection =>
                  refine traces_bind (traces_project hgrowth hbefore hat hevents hfresh hresolved)
                    fun duplicate t _ hprojected => ?_
                  exact ih _ hprojected (hsplit ▸ hevents) hindexes' hnodup'

/-! ## the transactions of a page -/

/-- A hook leaves the indexer's tables alone. -/
theorem AtEvent.hook
    (hc : ∀ {s r t}, c.Answers world s r t → ∃ rest, t = { s with rest }) :
    Proceeds world programId start later before
      (fun _ t => AtEvent world programId start later u v passed info done t)
      (liftM (Program.perform c : Program IndexCall IndexCall.Reply _)) S := by
  refine h.perform hgrowth hbefore fun t _ t' hothers hcall hnow => ?_
  obtain ⟨rest, rfl⟩ := hc hcall
  exact ⟨hnow.grow List.prefix_rfl hnow.wellOrdered rfl rfl rfl, h.handled (t := t) hothers⟩

theorem traces_afterTransaction (signature : String) (projections : List EscrowFinalizedProjection) :
    Proceeds world programId start later before
      (fun _ t => AtEvent world programId start later u v passed info done t)
      (afterTransaction signature projections) S :=
  h.hook hgrowth hbefore fun ⟨rest, _, ht⟩ => ⟨rest, ht⟩

theorem traces_afterEconomicProjection (row : RecordedEvent) :
    Proceeds world programId start later before
      (fun _ t => AtEvent world programId start later u v passed info done t)
      (afterEconomicProjection row) S :=
  h.hook hgrowth hbefore fun ⟨rest, _, ht⟩ => ⟨rest, ht⟩

theorem traces_afterEconomicProjections (rows : List RecordedEvent) :
    Proceeds world programId start later before
      (fun _ t => AtEvent world programId start later u v passed info done t)
      (afterEconomicProjections rows) S := by
  induction rows generalizing S with
  | nil => exact traces_pure (h.indexing.onward hbefore) h
  | cons row rows ih =>
      exact traces_bind (traces_afterEconomicProjection hgrowth hbefore h row) fun _ t _ ht => ih ht

end Calls

variable {source : SourceOptions}

/-- A transaction, and the cursor behind it. -/
theorem traces_indexTransaction {transaction : EscrowFinalizedTransaction}
    (hgrowth : ChainGrowth world later) (hbefore : before <+: passed)
    (h : Indexing world source.programId start later u v passed S)
    (hnext : passed ++ [info] <+: newer start S.1.history)
    (hreads : Reads world source info transaction) (counts : IndexCounts) :
    Proceeds world source.programId start later before
      (fun _ t => Indexing world source.programId start later u v (passed ++ [info]) t)
      (indexTransaction counts transaction) S := by
  unfold indexTransaction
  rw [hreads.signature, hreads.slot]
  refine traces_bind (traces_projectEvents [] transaction.events hgrowth hbefore
    ⟨h, hnext, by simp⟩ hreads.events (by simp) (by simp)) fun progress t _ ⟨hat, hnodup⟩ => ?_
  refine traces_bind (traces_afterTransaction hgrowth hbefore hat _ _) fun _ t _ hat => ?_
  refine traces_bind (traces_afterEconomicProjections hgrowth hbefore hat _) fun _ t ht hat => ?_
  have hadvance : Proceeds world source.programId start later before
      (fun _ t => Indexing world source.programId start later u v (passed ++ [info]) t)
      (IndexProgram.advanceChainCursor info.slot info.signature) t := by
    refine traces_perform ht fun t _ t' hothers hcall => ?_
    obtain rfl : t' = _ := id hcall
    have hindexed := (hat.indexing.indexed.elsewhere hgrowth hothers).advance
      (hat.next.trans (newer_grow _ (hgrowth.history hothers.later))) hreads.events hnodup
      (hat.handled hothers)
    have hnow := hat.indexing.call hgrowth hothers hcall hindexed
    exact ⟨hnow.onward (hbefore.trans (List.prefix_append _ _)), hnow⟩
  exact traces_bind hadvance fun _ t ht hnow => traces_pure ht hnow

variable {transactions : List EscrowFinalizedTransaction}

theorem traces_indexTransactions {infos : List ConfirmedSignatureInfo}
    (hgrowth : ChainGrowth world later) (hbefore : before <+: passed)
    (h : Indexing world source.programId start later u v passed S)
    (hnext : passed ++ infos <+: newer start v.history)
    (hreads : List.Forall₂ (Reads world source) infos transactions) (counts : IndexCounts) :
    Proceeds world source.programId start later before
      (fun _ t => Indexing world source.programId start later u v (passed ++ infos) t)
      (indexTransactions counts transactions) S := by
  induction hreads generalizing passed S counts with
  | nil =>
      rw [List.append_nil]
      exact traces_pure (h.onward hbefore) h
  | @cons info transaction infos transactions hread _ ih =>
      have hfirst : passed ++ [info] <+: newer start v.history :=
        List.IsPrefix.trans (by simp) hnext
      have hthere := hfirst.trans (newer_grow _ (hgrowth.history h.since))
      refine traces_bind (traces_indexTransaction hgrowth hbefore h hthere hread counts)
        fun counts t _ hindexing => ?_
      rw [List.append_cons] at hnext ⊢
      exact ih (hbefore.trans (List.prefix_append _ _)) hindexing hnext counts

/-! ## a run -/

theorem checkPage_slot {options : IndexerOptions} {slot pageSlot : Nat}
    (h : checkPage options slot transactions = .ok pageSlot) :
    pageSlot = (transactions.getLast?.map (·.slot)).getD slot := by
  induction transactions generalizing slot with
  | nil => exact (Except.ok.inj h).symm
  | cons transaction rest ih =>
      unfold checkPage at h
      split at h
      · cases h
      · split at h
        · cases h
        · rw [ih h, List.getLast?_cons]
          cases rest.getLast? <;> rfl

theorem slot_of_reads {infos : List ConfirmedSignatureInfo}
    (h : List.Forall₂ (Reads world source) infos transactions) :
    (transactions.getLast?.map (·.slot)).getD (cursorPast start passed).slot =
      (cursorPast start (passed ++ infos)).slot := by
  have hslots : transactions.map (·.slot) = infos.map (·.slot) := by
    induction h with
    | nil => rfl
    | cons hread _ ih => rw [List.map_cons, List.map_cons, hread.slot, ih]
  rw [← List.getLast?_map, hslots, List.getLast?_map]
  simp only [cursorPast, List.getLast?_append]
  cases infos.getLast? <;> rfl

/-- What a run that returns has done: it took as many of the signatures that were waiting as
it may, and its watermark is the head that it read, or the cursor that it leaves. -/
def Ran (world : IndexWorld ρ) (programId : String) (start : Nat)
    (later : IndexTables ρ → IndexTables ρ → Prop) (limit : Nat)
    (passed : List ConfirmedSignatureInfo) (report : IndexReport)
    (s : IndexTables ρ × IndexLog ρ) : Prop :=
  0 < limit ∧ ∃ u v signatures, Indexing world programId start later u v (passed ++ signatures.take limit) s ∧
    Indexed world programId start u passed ∧ passed ++ signatures = newer start u.history ∧
      report.watermark =
        let pageSlot := (cursorPast start (passed ++ signatures.take limit)).slot
        if limit < signatures.length then pageSlot else max v.finalizedSlot pageSlot

/-- A run, stopped anywhere or not. -/
theorem traces_runOnce (hgrowth : ChainGrowth world later) (source : SourceOptions)
    (options : IndexerOptions) (limit : Nat)
    (h : Indexed world source.programId start s passed) :
    Proceeds world source.programId start later passed
      (Ran world source.programId start later limit passed) (runOnce source options limit)
      (s, []) := by
  unfold runOnce
  split
  · exact traces_throw h.onward
  · next hlimit =>
    have hcursor : Proceeds world source.programId start later passed
        (fun stored t => Beginning world source.programId start passed t ∧
          stored.getD ⟨0, none⟩ = cursorPast start passed) getChainCursor (s, []) := by
      refine traces_perform h.onward fun t stored t' hothers hcall => ?_
      obtain ⟨rfl, rfl⟩ := hcall
      have hnow := h.elsewhere hgrowth hothers
      exact ⟨hnow.onward, ⟨hnow, rfl, rfl⟩, hnow.cursor⟩
    refine traces_bind hcursor fun stored t ht ⟨hbegin, hstored⟩ => ?_
    dsimp only
    rw [hstored]
    split
    · exact traces_throw ht
    · refine traces_bind (traces_scan hgrowth limit hbegin)
        fun found t ht ⟨u, v, signatures, hindexing, hfound⟩ => ?_
      cases hpage : checkPage options (cursorPast start passed).slot found.transactions with
      | error e => exact traces_throw ht
      | ok pageSlot =>
          dsimp only
          split
          · exact traces_throw ht
          · have hslot := (checkPage_slot hpage).trans (slot_of_reads hfound.transactions)
            have hthere : passed ++ signatures.take limit <+: newer start v.history := by
              have hwaiting : passed ++ signatures <+: newer start v.history :=
                hfound.waiting ▸ newer_grow _ (hgrowth.history hindexing.between)
              exact List.IsPrefix.trans
                ((List.prefix_append_right_inj passed).mpr (List.take_prefix _ _)) hwaiting
            refine traces_bind (traces_indexTransactions hgrowth List.prefix_rfl hindexing hthere
              hfound.transactions ⟨0, 0⟩) fun counts t ht hindexing => ?_
            refine traces_pure ht ⟨by omega, u, v, signatures, hindexing, hfound.first, hfound.waiting, ?_⟩
            show max found.scannedThroughSlot pageSlot = _
            rw [hfound.scannedThroughSlot, slot_of_reads hfound.transactions, hslot]
            dsimp only
            split
            · exact max_self _
            · rfl

end CalledIt.Indexer
