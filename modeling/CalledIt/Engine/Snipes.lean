import CalledIt.Engine.Deciding

/-!
# CalledIt.Engine.Snipes

Taps placed after the moment that decides a market.

The guards void a tap placed after the on-pitch moment of a goal or a red card, but
any confirmed event can decide a market.  `late_taps_iff` says exactly when no
tap placed after the deciding moment ends up active.
-/

namespace CalledIt.Engine

open Lib

/-! ## one event a sequence number -/

theorem lastSeq_marketRun (state : MarketState) (inputs : List MarketInput) :
    (scratchOf state).lastSeq ≤ (scratchOf (marketRun state inputs).1).lastSeq :=
  execute_invariant (I := fun s => (scratchOf state).lastSeq ≤ (scratchOf s).lastSeq)
    (fun s input h => h.trans (lastSeq_marketStep s input)) le_rfl inputs

variable {start : MarketState} {pre : List MarketInput}

/-- A score event that is processed later has a higher sequence number. -/
theorem seq_lt_of_processed {rest : List MarketInput} {first second : MatchEvent}
    (hscore : first.kind ≠ .oddsSuspension) (htaken : ignored (marketRun start pre).1 first = false)
    (hscore' : second.kind ≠ .oddsSuspension)
    (htaken' : ignored (marketRun start (pre ++ .event first :: rest)).1 second = false) :
    first.seq < second.seq := by
  have hcursor : (scratchOf (reduceMarket (marketRun start pre).1 first).state).lastSeq =
      first.seq := by
    rw [lastSeq_of_taken htaken, advance, if_neg hscore]
  have hlater := lastSeq_marketRun (reduceMarket (marketRun start pre).1 first).state rest
  rw [hcursor, ← marketRun_append] at hlater
  simp only [ignored, decide_eq_false_iff_not, not_or, not_and, not_le] at htaken'
  exact hlater.trans_lt (htaken'.2.2.2 hscore')

variable {event : MatchEvent}

/-- Two processed score events of a run with one sequence number are one event. -/
theorem processed_unique {pre' mid mid' : List MarketInput} {event' : MatchEvent}
    (heq : pre ++ .event event :: mid = pre' ++ .event event' :: mid')
    (hscore : event.kind ≠ .oddsSuspension) (htaken : ignored (marketRun start pre).1 event = false)
    (hscore' : event'.kind ≠ .oddsSuspension)
    (htaken' : ignored (marketRun start pre').1 event' = false) (hseq : event.seq = event'.seq) :
    pre = pre' ∧ event = event' ∧ mid = mid' := by
  rcases List.append_eq_append_iff.mp heq with ⟨between, rfl, hrest⟩ | ⟨between, rfl, hrest⟩
  · cases between with
    | nil =>
        simp only [List.nil_append, List.cons.injEq, MarketInput.event.injEq] at hrest
        exact ⟨by simp, hrest.1, hrest.2⟩
    | cons input between =>
        simp only [List.cons_append, List.cons.injEq] at hrest
        obtain ⟨rfl, -⟩ := hrest
        exact absurd hseq (seq_lt_of_processed hscore htaken hscore' htaken').ne
  · cases between with
    | nil =>
        simp only [List.nil_append, List.cons.injEq, MarketInput.event.injEq] at hrest
        exact ⟨by simp, hrest.1.symm, hrest.2.symm⟩
    | cons input between =>
        simp only [List.cons_append, List.cons.injEq] at hrest
        obtain ⟨rfl, -⟩ := hrest
        exact absurd hseq.symm (seq_lt_of_processed hscore' htaken' hscore htaken).ne

/-! ## live markets stay live -/

theorem isReplay_marketStep (state : MarketState) (input : MarketInput) :
    (marketStep state input).1.isReplay = state.isReplay := by
  cases input with
  | tick nowMs =>
      simp only [marketStep, checkDebounce, maturePositions, settleNow]
      split_ifs <;> (try split) <;> rfl
  | event event =>
      refine reduceMarket_cases (P := (·.state.isReplay = state.isReplay)) (fun _ => rfl)
        (fun _ _ => ?_) (fun _ _ _ => rfl) fun _ => ?_
      · unfold reducePendingLineup
        dsimp only
        split_ifs <;> rfl
      · refine (congrArg (·.2.1) (frame_settlementStage _ event)).trans ?_
        unfold cutoffStage applyCutoff
        split_ifs <;> rfl

theorem isReplay_marketRun (state : MarketState) (inputs : List MarketInput) :
    (marketRun state inputs).1.isReplay = state.isReplay :=
  execute_invariant (I := fun s : MarketState => s.isReplay = state.isReplay)
    (fun s input h => (isReplay_marketStep s input).trans h) rfl inputs

/-! ## one position through the guards -/

/-- The event is a price-moving moment before the tap. -/
def snipes (event : MatchEvent) (p : Position) : Bool :=
  isPriceMoving event ∧ p.placedAtMs > event.tsMs

/-- What the guards of a live market make of one position. -/
def guarded (event : MatchEvent) (p : Position) : Position :=
  if p.state = .pending then
    if snipes event p then { p with state := .void }
    else if event.receivedAtMs ≥ p.placedAtMs + pendingTapWindowMs then { p with state := .active }
    else p
  else p

theorem applyPositionGuards_eq (positions : List Position) (event : MatchEvent) :
    (applyPositionGuards positions event false).1 = positions.map (guarded event) := by
  simp only [applyPositionGuards, movePending, List.map_map, Bool.false_eq_true, if_false]
  refine List.map_congr_left fun p _ => ?_
  simp only [Function.comp, guarded, snipes]
  by_cases hpending : p.state = .pending <;> by_cases hsniped : isPriceMoving event = true ∧
    p.placedAtMs > event.tsMs <;> simp [hpending, hsniped]

/-- The closing input voids the tap, if it is still pending. -/
def snipedBy : MarketInput → Position → Bool
  | .event e, p => snipes e p
  | .tick _, _ => false

/-- What the closing input makes of one position before it activates the rest. -/
def closed : MarketInput → Position → Position
  | .event e, p => guarded e p
  | .tick nowMs, p => if maturedAt nowMs p then { p with state := .active } else p

variable {state : MarketState}

theorem closingPositions_eq (hids : UniqueIds state.positions) (hlive : state.isReplay = false)
    (input : MarketInput) :
    closingPositions state input = state.positions.map (closed input) := by
  cases input with
  | event event => simp only [closingPositions, hlive, applyPositionGuards_eq]; rfl
  | tick nowMs =>
      simp only [closingPositions, maturePositions]
      split
      · next hnone =>
        refine ((List.map_congr_left fun p hp => ?_).trans (List.map_id _)).symm
        have hnot := List.filter_eq_nil_iff.mp hnone p hp
        simp [closed, hnot]
      · exact activateById_filter hids _

variable {p : Position}

/-- A pending tap that reaches the closing input is voided if it is sniped there,
and active otherwise. -/
theorem closed_of_pending (input : MarketInput) (h : p.state = .pending) :
    (snipedBy input p = true → (closed input p).state = .void) ∧
      (snipedBy input p = false → (closed input p).state = .pending ∨
        (closed input p).state = .active) := by
  cases input with
  | event event =>
      simp only [snipedBy, closed, guarded, h, if_true]
      constructor
      · intro hsniped
        simp [hsniped]
      · intro hsniped
        simp only [hsniped, Bool.false_eq_true, if_false]
        split
        · exact .inr rfl
        · exact .inl h
  | tick nowMs =>
      simp only [snipedBy, closed, Bool.false_eq_true, false_implies, true_and, forall_const]
      split
      · exact .inr rfl
      · exact .inl h

/-- The guards and the clock leave a position alone that is not pending. -/
theorem closed_of_moved (input : MarketInput) (h : p.state ≠ .pending) :
    closed input p = p := by
  cases input with
  | event event => simp [closed, guarded, h]
  | tick nowMs => simp [closed, maturedAt, h]

/-! ## from the deciding event to the closing input -/

theorem positions_signalStage (stage : Stage) (event : MatchEvent) :
    (signalStage stage event).state.positions = stage.state.positions := by
  have hrule : StageRule event (·.state.positions = stage.state.positions)
      (·.state.positions = stage.state.positions) :=
    { hold := fun h _ => by unfold applyHold; dsimp only; split <;> exact h
      resolution := fun h => by unfold applyResolution; split_ifs <;> exact h
      void := fun h _ => h
      arm := fun h _ _ _ _ => h
      reprice := fun h => by unfold applyReprice; split <;> exact h }
  exact hrule.signal rfl

/-- The event that arms a candidate only guards the positions. -/
theorem positions_of_decides {candidate : PendingSettlement} (h : Decides state event candidate)
    (hlive : state.isReplay = false) :
    (reduceMarket state event).state.positions = state.positions.map (guarded event) := by
  have hpositions : (cutoffStage state event).state.positions =
      state.positions.map (guarded event) := by
    rw [← applyPositionGuards_eq, ← hlive]
    unfold cutoffStage applyCutoff ledgerStage
    dsimp only
    split_ifs <;> rfl
  have hpending := h.pending
  rw [h.staged.reduceMarket_eq, settlementStage, h.hold] at hpending ⊢
  simp only [Bool.false_eq_true, if_false] at hpending ⊢
  split at hpending
  · rw [positions_signalStage, hpositions]
  · split at hpending
    · next hreversal =>
      rw [if_pos hreversal, positions_signalStage]
      exact hpositions
    · next prior hprior _ => simp [settleNow, hprior] at hpending

/-- While a candidate waits, taps mature and nothing else. -/
theorem Waits.positions {armed : MarketState} {inputs : List MarketInput} (h : Waits armed inputs)
    (hids : UniqueIds armed.positions) (hp : p ∈ armed.positions) :
    p ∈ (marketRun armed inputs).1.positions ∨
      p.state = .pending ∧ { p with state := .active } ∈ (marketRun armed inputs).1.positions := by
  have hmoves := moves_marketRun hids inputs
  have himage : p.replay (moves (marketRun armed inputs).2) ∈
      (marketRun armed inputs).1.positions := by
    rw [hmoves.replayed]
    exact List.mem_map_of_mem hp
  rcases hmoves.movesOnce hids hp with hsame | ⟨hpending, hactive | hvoid⟩
  · exact .inl (hsame ▸ himage)
  · exact .inr ⟨hpending, hactive ▸ himage⟩
  · exfalso
    unfold Position.replay at hvoid
    split at hvoid
    · next state hlookup =>
      obtain rfl : state = .void := congrArg Position.state hvoid
      obtain ⟨effect, heffect, hmove⟩ := List.mem_flatMap.mp (mem_of_lookup hlookup)
      obtain ⟨ids, rfl⟩ := h.effects effect heffect
      simp [MarketEffect.moves] at hmove
    · rw [hvoid] at hpending
      contradiction

/-- What becomes of a position when the market is closed. -/
theorem mem_of_settled (hids : UniqueIds state.positions) (hlive : state.isReplay = false)
    {input : MarketInput} {outcome : SettlementOutcome} {decidingSeq : Nat}
    {evidenceSeqs : List Nat}
    (h : .settle outcome decidingSeq evidenceSeqs ∈ (marketStep state input).2)
    (hp : p ∈ state.positions) :
    ∃ q ∈ (marketStep state input).1.positions, q.id = p.id ∧
      (q.state = .active ↔
        p.state = .active ∨ p.state = .pending ∧ snipedBy input p = false) := by
  obtain ⟨-, hpositions⟩ := settle_of_marketStep h
  have hclosed : (closed input p).id = p.id := by
    cases input with
    | event event =>
        simp only [closed, guarded]
        split_ifs <;> rfl
    | tick nowMs =>
        simp only [closed]
        split_ifs <;> rfl
  rw [hpositions, closingPositions_eq hids hlive]
  simp only [activateRemainingPending, movePending, List.map_map]
  refine ⟨_, List.mem_map_of_mem hp, ?_⟩
  simp only [Function.comp, and_true]
  cases hstate : p.state with
  | pending =>
      obtain ⟨hvoid, hactive⟩ := closed_of_pending input hstate
      cases hsniped : snipedBy input p with
      | true => simp [hvoid hsniped, hclosed]
      | false =>
          rcases hactive hsniped with hclosing | hclosing
          · simp [hclosing, hclosed]
          · simp [hclosing, hclosed]
  | active => simp [closed_of_moved input (show p.state ≠ .pending by simp [hstate]), hstate]
  | void => simp [closed_of_moved input (show p.state ≠ .pending by simp [hstate]), hstate]

/-- An event that arms a candidate is of the score feed. -/
theorem Decides.score {candidate : PendingSettlement}
    (h : Decides state event candidate) : event.kind ≠ .oddsSuspension := by
  intro hkind
  have hhold := h.hold
  simp [isHoldSignal, hkind, h.armed.confirmed] at hhold

/-- The processed event that a settle effect names is the one that decided the
market, and the candidate has waited since. -/
theorem decides_of_settle (hstart : Starting start) {mid : List MarketInput} {last : MarketInput}
    (hscore : event.kind ≠ .oddsSuspension) (htaken : ignored (marketRun start pre).1 event = false)
    {outcome : SettlementOutcome} {evidenceSeqs : List Nat}
    (hsettle : .settle outcome event.seq evidenceSeqs ∈
      (marketStep (marketRun start (pre ++ .event event :: mid)).1 last).2) :
    (∃ candidate, Decides (marketRun start pre).1 event candidate) ∧
      Waits (reduceMarket (marketRun start pre).1 event).state mid := by
  obtain ⟨⟨candidate, hpending, -, hseq, -⟩, -⟩ := settle_of_marketStep hsettle
  obtain ⟨pre', event', mid', heq, hdecides, hwaits⟩ := exists_deciding hstart _ hpending
  have hsame : event.seq = event'.seq := by rw [← hdecides.armed.sequence, hseq]
  obtain ⟨rfl, rfl, rfl⟩ := processed_unique heq hscore htaken hdecides.score
    hdecides.staged.taken hsame
  exact ⟨⟨candidate, hdecides⟩, hwaits⟩

/-- No tap that was pending when the deciding event was processed and placed after
its moment ends up active, exactly when that event was a goal or a red card, or each
such tap is voided by the goal or red card that closes the market. -/
theorem late_taps_iff {start : MarketState} (hstart : Starting start)
    (hlive : start.isReplay = false) (hids : UniqueIds start.positions)
    (pre : List MarketInput) (event : MatchEvent) (mid : List MarketInput) (last : MarketInput)
    (hscore : event.kind ≠ .oddsSuspension)
    (htaken : ignored (marketRun start pre).1 event = false)
    {outcome : SettlementOutcome} {evidenceSeqs : List Nat}
    (hsettle : .settle outcome event.seq evidenceSeqs ∈
      (marketStep (marketRun start (pre ++ .event event :: mid)).1 last).2) :
    (∀ p ∈ (marketRun start pre).1.positions, p.state = .pending →
        ∀ q ∈ (marketStep (marketRun start (pre ++ .event event :: mid)).1 last).1.positions,
          q.id = p.id → q.state = .active → p.placedAtMs ≤ event.tsMs) ↔
      (isPriceMoving event = true ∨
        ∀ p ∈ (marketRun start pre).1.positions, p.state = .pending → event.tsMs < p.placedAtMs →
          p ∈ (marketRun start (pre ++ .event event :: mid)).1.positions ∧
            snipedBy last p = true) := by
  obtain ⟨⟨candidate, hdecides⟩, hwaits⟩ := decides_of_settle hstart hscore htaken hsettle
  rw [marketRun_append] at hsettle ⊢
  set before := (marketRun start pre).1 with hbefore
  set armed := (reduceMarket before event).state with harmed
  set waiting := (marketRun armed mid).1 with hwaiting
  have hidsBefore : UniqueIds before.positions := (moves_marketRun hids pre).uniqueIds hids
  have hidsArmed : UniqueIds armed.positions :=
    (moves_marketStep hidsBefore (.event event)).uniqueIds hidsBefore
  have hidsWaiting : UniqueIds waiting.positions :=
    (moves_marketRun hidsArmed mid).uniqueIds hidsArmed
  have hidsFinal : UniqueIds (marketStep waiting last).1.positions :=
    (moves_marketStep hidsWaiting last).uniqueIds hidsWaiting
  have hliveBefore : before.isReplay = false := (isReplay_marketRun start pre).trans hlive
  have hliveWaiting : waiting.isReplay = false :=
    (isReplay_marketRun armed mid).trans ((isReplay_marketStep before (.event event)).trans
      hliveBefore)
  have hguarded : ∀ p ∈ before.positions, guarded event p ∈ armed.positions := by
    intro p hp
    rw [harmed, positions_of_decides hdecides hliveBefore]
    exact List.mem_map_of_mem hp
  -- the final state of a tap, from its state before the closing input
  have hclose := fun p hp => mem_of_settled hidsWaiting hliveWaiting hsettle (p := p) hp
  constructor
  · intro h
    by_cases hmoving : isPriceMoving event = true
    · exact .inl hmoving
    refine .inr fun p hp hpending hlate => ?_
    have hlost : ∀ x ∈ waiting.positions, x.id = p.id →
        ¬ (x.state = .active ∨ x.state = .pending ∧ snipedBy last x = false) := by
      intro x hx hid hactive
      obtain ⟨q, hq, hqid, hiff⟩ := hclose x hx
      exact absurd (h p hp hpending q hq (hqid.trans hid) (hiff.mpr hactive)) (not_le.mpr hlate)
    have hsnipes : snipes event p = false := by simp [snipes, hmoving]
    have hmem := hguarded p hp
    simp only [guarded, hpending, if_true, hsnipes, Bool.false_eq_true, if_false] at hmem
    split at hmem
    · rcases hwaits.positions hidsArmed hmem with hmem | ⟨hstate, -⟩
      · exact absurd (.inl rfl) (hlost _ hmem rfl)
      · contradiction
    · rcases hwaits.positions hidsArmed hmem with hmem | ⟨-, hmem⟩
      · refine ⟨hmem, ?_⟩
        by_contra hsniped
        exact hlost p hmem rfl (.inr ⟨hpending, by simpa using hsniped⟩)
      · exact absurd (.inl rfl) (hlost _ hmem rfl)
  · intro h p hp hpending q hq hqid hactive
    by_contra hlate
    rw [not_le] at hlate
    have hlost : ∃ x ∈ waiting.positions, x.id = p.id ∧
        ¬ (x.state = .active ∨ x.state = .pending ∧ snipedBy last x = false) := by
      rcases h with hmoving | h
      · have hsnipes : snipes event p = true := by simp [snipes, hmoving, hlate]
        have hmem := hguarded p hp
        simp only [guarded, hpending, if_true, hsnipes] at hmem
        rcases hwaits.positions hidsArmed hmem with hmem | ⟨hstate, -⟩
        · exact ⟨_, hmem, rfl, by simp⟩
        · contradiction
      · obtain ⟨hmem, hsniped⟩ := h p hp hpending hlate
        exact ⟨p, hmem, rfl, by simp [hpending, hsniped]⟩
    obtain ⟨x, hx, hid, hnot⟩ := hlost
    obtain ⟨q', hq', hqid', hiff⟩ := hclose x hx
    obtain rfl := hidsFinal.eq hq' hq (by rw [hqid', hid, hqid])
    exact hnot (hiff.mp hactive)

private def lateTap : Position := ⟨"late", 1500, .pending⟩

/-- A goal that decides the market voids the tap placed after it. -/
theorem goal_voids_late_tap :
    Starting (Sample.market Sample.twoGoals [lateTap]) ∧
    ∀ p ∈ (Sample.market Sample.twoGoals [lateTap]).positions, p.state = .pending →
      ∀ q ∈ (marketStep (marketRun (Sample.market Sample.twoGoals [lateTap])
        [.event (Sample.feedEvent .goal 1 .h1 2)]).1 (.tick 100000)).1.positions,
        q.id = p.id → q.state = .active → p.placedAtMs ≤ 1000 := by
  have hstart : Starting (Sample.market Sample.twoGoals [lateTap]) :=
    ⟨.inl (by decide), by decide, by decide, by decide⟩
  exact ⟨hstart, (late_taps_iff hstart (by decide) (by unfold UniqueIds; decide) []
    (Sample.feedEvent .goal 1 .h1 2) [] (.tick 100000) (by decide) (by decide)
    (show MarketEffect.settle .claimWon 1 [1] ∈ _ by decide +kernel)).mpr (.inl (by decide))⟩

/-- Full time decides the market, and the tap placed after it is active at the
end. -/
theorem full_time_activates_late_tap :
    let start := Sample.market Sample.twoGoals [lateTap]
    let fullTime := Sample.feedEvent .phaseChange 1 .f 2
    let final := marketStep (marketRun start [.event fullTime]).1 (.tick 100000)
    Starting start ∧ start.isReplay = false ∧ ignored start fullTime = false ∧
      .settle .claimWon fullTime.seq [1] ∈ final.2 ∧
      lateTap ∈ start.positions ∧ lateTap.state = .pending ∧
      { lateTap with state := .active } ∈ final.1.positions ∧
      ¬ lateTap.placedAtMs ≤ fullTime.tsMs :=
  ⟨⟨.inl (by decide), by decide, by decide, by decide⟩, by decide, by decide, by decide +kernel,
    by decide, by decide, by decide +kernel, by decide⟩

end CalledIt.Engine
