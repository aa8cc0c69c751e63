import CalledIt.Indexer.IndexRun

/-!
# CalledIt.Indexer.ExactlyOnce

Every event is recorded once, in order.

`ExactlyOnce` holds after any sequence of runs, each stopped anywhere, while the history
grows, and the cursor only moves on (`indexed_exactly_once`).  What has no recorder is
skipped, though, and so is what is not after the slot that the indexer began at.
-/

namespace CalledIt.Indexer

open Lib Lib.Program Escrow

variable {ρ : Type}

/-! ## runs -/

section Runs

variable (world : IndexWorld ρ) (source : SourceOptions) (options : IndexerOptions)
  (later : IndexTables ρ → IndexTables ρ → Prop)

/-- A run of the indexer that stops at some call, or something that the others do. -/
inductive IndexStep : IndexTables ρ → IndexTables ρ → Prop
  | run (limit : Nat) {s t : IndexTables ρ} :
      Crashes (Among (IndexCall.Answers world) (Elsewhere later)) (fun _ _ _ => False)
        (runOnce source options limit) s t → IndexStep s t
  | others {s t : IndexTables ρ} : Elsewhere later s t → IndexStep s t

abbrev IndexRuns : IndexTables ρ → IndexTables ρ → Prop :=
  Relation.ReflTransGen (IndexStep world source options later)

end Runs

/-- The history has grown at its end. -/
structure Appends (s t : IndexTables ρ) : Prop where
  history : s.history <+: t.history
  wellOrdered : WellOrdered s.history → WellOrdered t.history

/-- The indexer before its first run: nothing is recorded, and its cursor has no signature. -/
structure Fresh (start : Nat) (s : IndexTables ρ) : Prop where
  wellOrdered : WellOrdered s.history
  cursor : s.cursor.getD ⟨0, none⟩ = ⟨start, none⟩
  records : s.records = []
  skipped : s.skipped = []

/-- The part of a history up to a signature. -/
def upToSignature (history : List ConfirmedSignatureInfo) (signature : String) :
    List ConfirmedSignatureInfo :=
  (history.reverse.dropWhile (·.signature ≠ signature)).reverse

/-- The transactions that the cursor has passed. -/
def IndexTables.projected (start : Nat) (s : IndexTables ρ) : List ConfirmedSignatureInfo :=
  match s.cursor with
  | some ⟨_, some signature⟩ => newer start (upToSignature s.history signature)
  | _ => []

/-- Everything up to the cursor is recorded or has no recorder, and nothing is twice. -/
structure ExactlyOnce (world : IndexWorld ρ) (programId : String) (start : Nat)
    (s : IndexTables ρ) : Prop where
  projected : s.projected start <+: newer start s.history
  cursor : s.cursor.getD ⟨0, none⟩ = cursorPast start (s.projected start)
  complete : ∀ info ∈ s.projected start, ∃ events,
    locatedEvents programId (world.transaction info.signature) = some events ∧
      ∀ located ∈ events,
        (∃ row ∈ s.records, row.key = (info.signature, located.instructionIndex) ∧
          world.ResolvesTo located.event (some row.projection)) ∨
        (info.signature, located.instructionIndex) ∈ s.skipped ∧ world.Unrecorded located.event
  once : (s.records.map RecordedEvent.key).Nodup
  ordered : s.records.Pairwise (InOrder s.history s.skipped)

variable {world : IndexWorld ρ} {source : SourceOptions} {options : IndexerOptions}
  {later : IndexTables ρ → IndexTables ρ → Prop} {programId : String} {start : Nat}
  {s t u : IndexTables ρ} {passed : List ConfirmedSignatureInfo}

/-- No call of the indexer does anything to the chain. -/
theorem IndexCall.Answers.chain {c : IndexCall} {r : c.Reply} (h : c.Answers world s r t) :
    t.history = s.history ∧ t.finalizedSlot = s.finalizedSlot := by
  cases c with
  | getChainCursor | getSignaturesForAddress | getTransaction | getSlot =>
      obtain ⟨-, rfl⟩ := h
      exact ⟨rfl, rfl⟩
  | resolve | record | afterTransaction | afterEconomicProjection =>
      obtain ⟨rest, -, rfl⟩ := h
      exact ⟨rfl, rfl⟩
  | getGenesisHash | skip | advanceChainCursor =>
      obtain rfl : t = _ := h
      exact ⟨rfl, rfl⟩

theorem appends_growth (world : IndexWorld ρ) : ChainGrowth world (Appends (ρ := ρ)) where
  refl s := ⟨List.prefix_rfl, id⟩
  trans h h' := ⟨h.history.trans h'.history, fun hordered =>
    h'.wellOrdered (h.wellOrdered hordered)⟩
  call h := by
    obtain ⟨hhistory, -⟩ := h.chain
    exact ⟨hhistory ▸ List.prefix_rfl, fun hordered => hhistory ▸ hordered⟩
  history h := h.history
  wellOrdered h := h.wellOrdered

theorem Indexed.projected_eq (h : Indexed world programId start s passed) :
    s.projected start = passed := by
  obtain ⟨old, ⟨rest, hrest⟩, hbehind⟩ := h.exists_behind
  have hcursor := h.cursor
  unfold IndexTables.projected
  rcases List.eq_nil_or_concat passed with rfl | ⟨before, last, rfl⟩
  · split
    · next hsome =>
        rw [hsome] at hcursor
        cases hcursor
    · rfl
  · rw [List.concat_eq_append] at hbehind hcursor ⊢
    have hupTo := hbehind.upTo
    rw [cursorPast_append] at hupTo hcursor
    obtain ⟨older, final, rfl, hfinal⟩ := hupTo
    have hstored : s.cursor = some ⟨last.slot, some last.signature⟩ := by
      cases hrow : s.cursor with
      | none =>
          rw [hrow] at hcursor
          simp at hcursor
      | some row =>
          rw [hrow] at hcursor
          exact congrArg some hcursor
    have hnodup := h.wellOrdered.signatures
    rw [← hrest, List.append_assoc, List.map_append, List.singleton_append, List.map_cons] at hnodup
    have hfresh := (List.nodup_cons.mp (List.nodup_append.mp hnodup).2.1).1
    have hafter : ∀ info ∈ rest.reverse, decide (info.signature ≠ last.signature) = true :=
      fun info hinfo => decide_eq_true fun hsame =>
        hfresh (hfinal ▸ hsame ▸ List.mem_map_of_mem (List.mem_reverse.mp hinfo))
    rw [hstored]
    show newer start (upToSignature s.history last.signature) = _
    have hupTo : upToSignature s.history last.signature = older ++ [final] := by
      rw [← hrest]
      unfold upToSignature
      rw [List.reverse_append, List.reverse_append, List.dropWhile_append_of_pos hafter,
        List.reverse_singleton, List.singleton_append,
        List.dropWhile_cons_of_neg (by simp [hfinal])]
      simp
    rw [hupTo, hbehind.newer]

theorem eventAt_of_mem {signature : String} {events : List LocatedEvent} {located : LocatedEvent}
    (hevents : locatedEvents programId (world.transaction signature) = some events)
    (hnodup : (events.map (·.instructionIndex)).Nodup) (hlocated : located ∈ events) :
    world.eventAt programId signature located.instructionIndex = some located.event := by
  obtain ⟨done, rest, rfl⟩ := List.append_of_mem hlocated
  refine eventAt_of_split hevents fun hmem => ?_
  rw [List.map_append, List.map_cons] at hnodup
  exact (List.nodup_append.mp hnodup).2.2 _ hmem _ List.mem_cons_self rfl

theorem Indexed.exactlyOnce (h : Indexed world programId start s passed) :
    ExactlyOnce world programId start s where
  projected := h.projected_eq.symm ▸ h.passes
  cursor := h.projected_eq.symm ▸ h.cursor
  complete := by
    intro info hinfo
    rw [h.projected_eq] at hinfo
    obtain ⟨events, hevents, hnodup, hdone⟩ := h.handled info hinfo
    refine ⟨events, hevents, fun located hlocated => ?_⟩
    have hevent := eventAt_of_mem hevents hnodup hlocated
    rcases hdone located hlocated with hrow | hskip
    · obtain ⟨row, hrow, hkey⟩ := List.mem_map.mp hrow
      obtain ⟨hsignature, hindex⟩ := Prod.mk.inj hkey
      obtain ⟨event, hfound, hresolved⟩ := h.faithful row hrow
      rw [hsignature, hindex, hevent] at hfound
      obtain rfl := Option.some.inj hfound
      exact .inl ⟨row, hrow, hkey, hresolved⟩
    · obtain ⟨event, hfound, hunrecorded⟩ := h.skips _ _ hskip
      rw [hevent] at hfound
      obtain rfl := Option.some.inj hfound
      exact .inr ⟨hskip, hunrecorded⟩
  once := h.once
  ordered := h.ordered

/-! ## every run -/

theorem IndexStep.indexed (hgrowth : ChainGrowth world later)
    (h : Indexed world source.programId start s passed)
    (hstep : IndexStep world source options later s t) :
    ∃ passed', passed <+: passed' ∧ Indexed world source.programId start t passed' := by
  cases hstep with
  | run limit hrun => exact (traces_runOnce hgrowth source options limit h).crashes hrun
  | others hothers => exact ⟨passed, List.prefix_rfl, h.elsewhere hgrowth hothers⟩

theorem IndexRuns.indexed (hgrowth : ChainGrowth world later)
    (h : Indexed world source.programId start s passed)
    (hruns : IndexRuns world source options later s t) :
    ∃ passed', passed <+: passed' ∧ Indexed world source.programId start t passed' := by
  induction hruns with
  | refl => exact ⟨passed, List.prefix_rfl, h⟩
  | tail _ hstep ih =>
      obtain ⟨passed', hbefore, hindexed⟩ := ih
      obtain ⟨passed'', hbefore', hindexed'⟩ := hstep.indexed hgrowth hindexed
      exact ⟨passed'', hbefore.trans hbefore', hindexed'⟩

theorem Fresh.indexed (h : Fresh start s) : Indexed world programId start s [] :=
  indexed_start h.wellOrdered h.cursor h.records h.skipped

/-- Whatever runs there were, each stopped anywhere: everything up to the cursor is recorded
once and in order, and the cursor only moves on. -/
theorem indexed_exactly_once (hfresh : Fresh start s)
    (hruns : IndexRuns world source options Appends s t)
    (hmore : IndexRuns world source options Appends t u) :
    ExactlyOnce world source.programId start u ∧ t.projected start <+: u.projected start := by
  obtain ⟨passed, -, ht⟩ := IndexRuns.indexed (appends_growth world) hfresh.indexed hruns
  obtain ⟨passed', hbefore, hu⟩ := IndexRuns.indexed (appends_growth world) ht hmore
  refine ⟨hu.exactlyOnce, ?_⟩
  rw [ht.projected_eq, hu.projected_eq]
  exact hbefore

namespace Sample

def key32 : Pubkey := ⟨List.replicate 32 0, rfl⟩

def uuid16 : Bytes 16 := ⟨List.replicate 16 0, rfl⟩

def initialized : EscrowProgramEvent :=
  .market (.marketInitialized ⟨key32, uuid16, 1, .sol, 1000, key32, key32, key32, key32, 0, 0, 0, 0⟩)

def closed : EscrowProgramEvent := .market (.marketClosed ⟨key32, 0, .sol⟩)

/-- A market is resolved once its row is known; another one is known from the start. -/
def resolution (known : Bool) : EscrowProgramEvent → Option EscrowFinalizedProjection
  | .protocol => none
  | .market (.marketInitialized _) =>
      if known then some (.market ⟨uuid16, 1, key32, key32, .sol, none, key32, 0, 0, 1000⟩) else none
  | .market _ => some (.marketClosed ⟨uuid16, key32, key32, .sol, 0⟩)

/-- A pause of the protocol, and a transaction of two instructions. -/
def indexWorld : IndexWorld Bool where
  transaction signature :=
    { failed := false
      logs :=
        if signature = "pause" then
          [.invoke "escrow" 1, .data (some .protocol), .completion "escrow"]
        else
          [.invoke "escrow" 1, .data (some initialized), .completion "escrow",
           .invoke "escrow" 1, .data (some closed), .completion "escrow"] }
  resolve known event result known' := result = .ok (resolution known event) ∧ known' = known
  record known _ known' := known' = known
  hook known known' := known' = known

def indexSource : SourceOptions := ⟨"genesis", "escrow", 10000⟩

def indexOptions : IndexerOptions := ⟨"genesis", "escrow", false⟩

def answer : (c : IndexCall) → IndexTables Bool → c.Reply × IndexTables Bool
  | .getChainCursor, s => (s.cursor, s)
  | .getGenesisHash, s => ("genesis", s)
  | .getSignaturesForAddress before till limit, s =>
      (pageBack ConfirmedSignatureInfo.signature s.history before till limit, s)
  | .getTransaction signature, s => (some (indexWorld.transaction signature), s)
  | .getSlot, s => (s.finalizedSlot, s)
  | .resolve event, s => (.ok (resolution s.rest event), s)
  | .record row, s => (false, { s with records := insertRecord s.records row })
  | .skip signature instructionIndex, s =>
      ((), { s with skipped := s.skipped ++ [(signature, instructionIndex)] })
  | .afterTransaction _ _, s => ((), s)
  | .afterEconomicProjection _, s => ((), s)
  | .advanceChainCursor slot signature, s =>
      ((), { s with cursor := Indexer.advanceChainCursor s.cursor slot signature })

theorem answers_answer (c : IndexCall) (s : IndexTables Bool) :
    c.Answers indexWorld s (answer c s).1 (answer c s).2 := by
  cases c with
  | getChainCursor | getSignaturesForAddress | getSlot => exact ⟨rfl, rfl⟩
  | getTransaction => exact ⟨fun _ h => (Option.some.inj h).symm, rfl⟩
  | resolve event => exact ⟨s.rest, ⟨rfl, rfl⟩, rfl⟩
  | record | afterTransaction | afterEconomicProjection => exact ⟨s.rest, rfl, rfl⟩
  | getGenesisHash | skip | advanceChainCursor => rfl

theorem elsewhere_answer (c : IndexCall) (s : IndexTables Bool) :
    Among (IndexCall.Answers indexWorld) (Elsewhere Appends) c s (answer c s).1 (answer c s).2 :=
  ⟨s, ⟨(appends_growth indexWorld).refl s, rfl, rfl, rfl⟩, answers_answer c s⟩

def freshTables : IndexTables Bool where
  history := [⟨"pause", 5⟩, ⟨"pair", 6⟩]
  finalizedSlot := 7
  cursor := none
  records := []
  skipped := []
  rest := false

theorem fresh_freshTables : Fresh 0 freshTables where
  wellOrdered := ⟨by decide, by decide⟩
  cursor := rfl
  records := rfl
  skipped := rfl

/-- A run stops after it has recorded the second event of the pair. -/
def halfway : IndexTables Bool :=
  (advance answer 14 (runOnce indexSource indexOptions 10) freshTables).2

/-- The market is known by the next run. -/
def indexedTables : IndexTables Bool :=
  (run answer (runOnce indexSource indexOptions 10) { halfway with rest := true }).2

theorem runs_halfway :
    IndexRuns indexWorld indexSource indexOptions Appends freshTables halfway :=
  .single (.run 10 (crashes_after elsewhere_answer 14 _ _))

theorem runs_indexed : IndexRuns indexWorld indexSource indexOptions Appends halfway
    indexedTables := by
  have hknown : Elsewhere Appends halfway { halfway with rest := true } :=
    ⟨⟨List.prefix_rfl, id⟩, rfl, rfl, rfl⟩
  exact (Relation.ReflTransGen.single (.others hknown)).tail
    (.run 10 (executes_run elsewhere_answer _ _).crashes)

/-- Both transactions are passed, and both events of the pair have a row. -/
theorem indexed_pair : ExactlyOnce indexWorld "escrow" 0 indexedTables ∧
    halfway.projected 0 = [⟨"pause", 5⟩] ∧
      indexedTables.projected 0 = [⟨"pause", 5⟩, ⟨"pair", 6⟩] := by
  have hall := indexed_exactly_once fresh_freshTables runs_halfway runs_indexed
  exact ⟨hall.1, by decide +kernel, by decide +kernel⟩

/-- The cursor passes an event of the protocol, which has no row, and the first event of the
pair comes after the second. -/
theorem pause_unrecorded : ∃ t,
    IndexRuns indexWorld indexSource indexOptions Appends freshTables t ∧
      t.projected 0 = [⟨"pause", 5⟩, ⟨"pair", 6⟩] ∧
      (locatedEvents "escrow" (indexWorld.transaction "pause")).map (·.map (·.instructionIndex)) =
        some [0] ∧
      t.records.map RecordedEvent.key = [("pair", 1), ("pair", 0)] :=
  ⟨indexedTables, runs_halfway.trans runs_indexed, by decide +kernel, by decide +kernel,
    by decide +kernel⟩

end Sample

end CalledIt.Indexer
