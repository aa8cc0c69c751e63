import CalledIt.Engine.Reduce

/-!
# CalledIt.Engine.Steps

What one event can do to a market, said once.

An event that is not ignored, finds no market waiting for its lineup and does not
void the market runs through all stages (`Staged`).  Such an event moves the goal
ledger by `trackGoals` and nothing else does (`goals_reduceAll`), and a
candidate that a step leaves behind was armed by that very event
(`armed_of_pending`).
-/

namespace CalledIt.Engine

/-! ## staged events -/

/-- The event is reduced through all stages. -/
structure Staged (state : MarketState) (event : MatchEvent) : Prop where
  taken : ignored state event = false
  lineup : state.status ≠ .pendingLineup
  phase : event.phase ∉ voidPhases
  covered : event.kind ≠ .coverageWarning

variable {state : MarketState} {event : MatchEvent}

theorem reduceMarket_of_ignored (h : ignored state event = true) :
    reduceMarket state event = { state, effects := [] } := by
  unfold reduceMarket
  rw [if_pos h]

/-- A phase or a warning that voids the market. -/
theorem reduceMarket_of_void (htaken : ignored state event = false)
    (hlineup : state.status ≠ .pendingLineup)
    (hvoid : event.phase ∈ voidPhases ∨ event.kind = .coverageWarning) :
    reduceMarket state event =
      voidMarket { state with scratch := some (advance (scratchOf state) event) }
        (phaseVoidReason event.phase) [] := by
  unfold reduceMarket
  rw [htaken]
  simp only [Bool.false_eq_true, if_false, hlineup, hvoid, if_true]

/-- The stage after the cutoff, where the settlement stages start. -/
def cutoffStage (state : MarketState) (event : MatchEvent) : Stage :=
  applyCutoff (ledgerStage state event (advance (scratchOf state) event)) event

theorem Staged.reduceMarket_eq (h : Staged state event) :
    reduceMarket state event = settlementStage (cutoffStage state event) event := by
  unfold reduceMarket
  rw [h.taken]
  simp only [Bool.false_eq_true, if_false, h.lineup, h.phase, h.covered, or_self]
  rfl

/-- The ways to reduce an event. -/
theorem reduceMarket_cases {P : ReduceResult → Prop}
    (hignored : ignored state event = true → P { state, effects := [] })
    (hlineup : ignored state event = false → state.status = .pendingLineup →
      P (reducePendingLineup state event (advance (scratchOf state) event)))
    (hvoid : ignored state event = false → state.status ≠ .pendingLineup →
      event.phase ∈ voidPhases ∨ event.kind = .coverageWarning →
      P (voidMarket { state with scratch := some (advance (scratchOf state) event) }
        (phaseVoidReason event.phase) []))
    (hstaged : Staged state event → P (settlementStage (cutoffStage state event) event)) :
    P (reduceMarket state event) := by
  cases htaken : ignored state event with
  | true =>
      rw [reduceMarket_of_ignored htaken]
      exact hignored htaken
  | false =>
      by_cases hstatus : state.status = .pendingLineup
      · rw [reduceMarket, htaken]
        simpa only [Bool.false_eq_true, if_false, hstatus, if_true] using hlineup htaken hstatus
      · by_cases hphase : event.phase ∈ voidPhases ∨ event.kind = .coverageWarning
        · rw [reduceMarket_of_void htaken hstatus hphase]
          exact hvoid htaken hstatus hphase
        · obtain ⟨hphase, hcovered⟩ := not_or.mp hphase
          have h : Staged state event := ⟨htaken, hstatus, hphase, hcovered⟩
          rw [h.reduceMarket_eq]
          exact hstaged h

/-- The cursor is the only part of the scratch that an event always moves. -/
@[simp] theorem cutoffReached_advance (scratch : ReducerScratch) (event : MatchEvent) :
    (advance scratch event).cutoffReached = scratch.cutoffReached := by
  unfold advance
  split <;> rfl

@[simp] theorem spec_cutoffStage (state : MarketState) (event : MatchEvent) :
    (cutoffStage state event).state.spec = state.spec := by
  rw [cutoffStage, spec_applyCutoff]
  rfl

/-! ## waiting for the lineup -/

variable {stage : Stage}

/-- No stage waits for the lineup again. -/
theorem status_settlementStage (h : stage.state.status ≠ .pendingLineup) :
    (settlementStage stage event).state.status ≠ .pendingLineup := by
  have hrule : StageRule event (·.state.status ≠ .pendingLineup)
      (·.state.status ≠ .pendingLineup) :=
    { hold := fun h _ => by unfold applyHold; dsimp only; split; exacts [by simp [Stage.result], h]
      resolution := fun h => by unfold applyResolution; split_ifs <;> first | exact h | simp
      void := fun _ _ => by simp [Stage.void, voidMarket]
      arm := fun _ _ _ _ _ => by simp [armCandidate, Stage.result]
      reprice := fun h => by unfold applyReprice; split <;> exact h }
  refine hrule.settlement (fun _ => h) (fun _ => by simp [cancelCandidate, Stage.result]) ?_
    fun pending hpending => by simp [settleNow, hpending]
  dsimp only [dropCandidate]
  split <;> simp

/-- A market waits for the lineup only from the start. -/
theorem status_reduceMarket (h : (reduceMarket state event).state.status = .pendingLineup) :
    state.status = .pendingLineup := by
  by_contra hstatus
  revert h
  refine reduceMarket_cases (P := fun r => r.state.status ≠ .pendingLineup) (fun _ => hstatus)
    (fun _ h => absurd h hstatus) (fun _ _ _ => by simp [voidMarket]) fun _ => ?_
  apply status_settlementStage
  unfold cutoffStage applyCutoff
  split_ifs
  · simp
  · exact hstatus
  · exact hstatus

theorem Reachable.player_of_pendingLineup {row : MarketState} (h : Reachable row state)
    (hrow : Fresh row) (hstatus : state.status = .pendingLineup) :
    row.spec.claimType = .playerScoresN := by
  induction h with
  | row =>
    rcases hrow.status with hopen | hlineup
    · rw [hopen] at hstatus
      contradiction
    · exact hlineup.2
  | @step state positions event h ih =>
    have hbefore : ({ state with positions } : MarketState).status = .pendingLineup :=
      status_reduceMarket hstatus
    exact ih hbefore

/-! ## voided markets -/

/-- A stage that voids the market says so. -/
theorem void_mem_settlementStage (hbefore : stage.state.status ≠ .voided) :
    (settlementStage stage event).state.status = .voided →
      ∃ reason, .void reason ∈ (settlementStage stage event).effects := by
  have hrule : StageRule event (·.state.status ≠ .voided)
      (fun r => r.state.status = .voided → ∃ reason, .void reason ∈ r.effects) :=
    { hold := fun hst _ h => by
        unfold applyHold at h
        dsimp only at h
        split at h
        · cases h
        · exact absurd h hst
      resolution := fun h => by unfold applyResolution; split_ifs <;> first | exact h | simp
      void := fun _ _ _ => ⟨_, List.mem_append_right _ (List.mem_singleton.mpr rfl)⟩
      arm := fun _ _ _ _ _ h => by cases h
      reprice := fun hst h => by unfold applyReprice at h; split at h <;> exact absurd h hst }
  refine hrule.settlement (fun _ => hbefore) (fun _ h => by cases h) ?_
    fun pending hpending h => by simp [settleNow, hpending] at h
  dsimp only [dropCandidate]
  split <;> simp

/-- An event that voids a market emits the void. -/
theorem void_mem_of_voided (hlineup : state.status ≠ .pendingLineup)
    (hbefore : state.status ≠ .voided) (h : (reduceMarket state event).state.status = .voided) :
    ∃ reason, .void reason ∈ (reduceMarket state event).effects := by
  by_cases hstaged : Staged state event
  · rw [hstaged.reduceMarket_eq] at h ⊢
    refine void_mem_settlementStage ?_ h
    unfold cutoffStage applyCutoff
    split_ifs
    · simp
    · exact hbefore
    · exact hbefore
  · revert h
    refine reduceMarket_cases (P := fun r => r.state.status = .voided →
      ∃ reason, .void reason ∈ r.effects) (fun _ h => absurd h hbefore)
      (fun _ h => absurd h hlineup) (fun _ _ _ _ => ⟨_, List.mem_singleton.mpr rfl⟩)
      fun h => absurd h hstaged

/-! ## the ledger -/

section Ledger

/-- The cursor and the standing goals. -/
def ReducerScratch.ledger (scratch : ReducerScratch) : Nat × List StandingGoal :=
  (scratch.lastSeq, scratch.goals)

@[simp] theorem ledger_applyCutoff (stage : Stage) (event : MatchEvent) :
    (applyCutoff stage event).scratch.ledger = stage.scratch.ledger := by
  unfold applyCutoff
  split_ifs <;> rfl

@[simp] theorem ledger_applyResolution (stage : Stage) (event : MatchEvent) :
    (applyResolution stage event).scratch.ledger = stage.scratch.ledger := by
  unfold applyResolution
  split_ifs <;> rfl

@[simp] theorem ledger_settlementStage (stage : Stage) (event : MatchEvent) :
    (scratchOf (settlementStage stage event).state).ledger = stage.scratch.ledger :=
  congrArg (·.2.2.2) (frame_settlementStage stage event)

end Ledger

instance (state : MarketState) (event : MatchEvent) : Decidable (Staged state event) :=
  decidable_of_iff (ignored state event = false ∧ state.status ≠ .pendingLineup ∧
    event.phase ∉ voidPhases ∧ event.kind ≠ .coverageWarning)
    ⟨fun h => ⟨h.1, h.2.1, h.2.2.1, h.2.2.2⟩, fun h => ⟨h.1, h.2, h.3, h.4⟩⟩

@[simp] theorem goals_advance (scratch : ReducerScratch) (event : MatchEvent) :
    (advance scratch event).goals = scratch.goals := by
  unfold advance
  split <;> rfl

/-- A staged event enters the ledger. -/
theorem ledger_of_staged (h : Staged state event) :
    (scratchOf (reduceMarket state event).state).ledger =
      ((advance (scratchOf state) event).lastSeq, trackGoals (scratchOf state).goals event) := by
  rw [h.reduceMarket_eq, ledger_settlementStage, cutoffStage, ledger_applyCutoff]
  exact congrArg (fun goals => (_, trackGoals goals event)) (goals_advance _ _)

theorem goals_of_not_staged (h : ¬ Staged state event) :
    (scratchOf (reduceMarket state event).state).goals = (scratchOf state).goals := by
  refine reduceMarket_cases (P := fun r => (scratchOf r.state).goals = (scratchOf state).goals)
    (fun _ => rfl) (fun _ _ => ?_) (fun _ _ _ => goals_advance _ _) fun hstaged => absurd hstaged h
  unfold reducePendingLineup
  dsimp only
  split_ifs <;> exact goals_advance _ _

/-- The events of a run that reach the ledger. -/
def trackedEvents (state : MarketState) : List MatchEvent → List MatchEvent
  | [] => []
  | event :: events =>
      let rest := trackedEvents (reduceMarket state event).state events
      if Staged state event then event :: rest else rest

theorem goals_reduceAll (state : MarketState) (events : List MatchEvent) :
    (scratchOf (reduceAll state events)).goals =
      (trackedEvents state events).foldl trackGoals (scratchOf state).goals := by
  induction events generalizing state with
  | nil => rfl
  | cons event events ih =>
      have hrun : reduceAll state (event :: events) =
          reduceAll (reduceMarket state event).state events := rfl
      rw [hrun, ih, trackedEvents]
      split
      · next h =>
        have hgoals : (scratchOf (reduceMarket state event).state).goals =
            trackGoals (scratchOf state).goals event := congrArg Prod.snd (ledger_of_staged h)
        rw [List.foldl_cons, hgoals]
      · next h => rw [goals_of_not_staged h]

theorem reduceAll_append (state : MarketState) (events : List MatchEvent) (event : MatchEvent) :
    reduceAll state (events ++ [event]) = (reduceMarket (reduceAll state events) event).state := by
  rw [reduceAll, List.foldl_append]
  rfl

variable {events : List MatchEvent}

theorem trackedEvents_append (h : Staged (reduceAll state events) event) :
    trackedEvents state (events ++ [event]) = trackedEvents state events ++ [event] := by
  induction events generalizing state with
  | nil =>
      have hfirst : Staged state event := h
      simp [trackedEvents, hfirst]
  | cons first events ih =>
      rw [List.cons_append, trackedEvents, trackedEvents, ih h]
      split <;> rfl

/-! ## runs of score events -/

/-- A stretch of one fixture's score feed, in order. -/
structure ScoreStream (fixtureId : Nat) (events : List MatchEvent) : Prop where
  ordered : events.IsChain (·.seq < ·.seq)
  fixture : ∀ event ∈ events, event.fixtureId = fixtureId
  score : ∀ event ∈ events, event.kind ≠ .oddsSuspension

theorem ScoreStream.tail {fixtureId : Nat}
    (h : ScoreStream fixtureId (event :: events)) : ScoreStream fixtureId events :=
  ⟨h.ordered.of_cons, fun x hx => h.fixture x (List.mem_cons_of_mem _ hx),
    fun x hx => h.score x (List.mem_cons_of_mem _ hx)⟩

theorem ScoreStream.pairwise {fixtureId : Nat}
    (h : ScoreStream fixtureId events) : events.Pairwise (·.seq < ·.seq) :=
  List.isChain_iff_pairwise.mp h.ordered

def MarketStatus.isTerminal (status : MarketStatus) : Bool := status = .settled ∨ status = .voided

theorem reduceMarket_of_terminal (h : state.status.isTerminal = true)
    (event : MatchEvent) : (reduceMarket state event).state = state := by
  have hignored : ignored state event = true := by
    simp only [MarketStatus.isTerminal, decide_eq_true_eq] at h
    unfold ignored
    rcases h with h | h <;> simp [h]
  rw [reduceMarket_of_ignored hignored]

theorem reduceAll_of_terminal (h : state.status.isTerminal = true)
    (events : List MatchEvent) : reduceAll state events = state := by
  induction events with
  | nil => rfl
  | cons event events ih =>
      have hrun : reduceAll state (event :: events) =
          reduceAll (reduceMarket state event).state events := rfl
      rw [hrun, reduceMarket_of_terminal h event, ih]

/-- A live market takes every later score event that does not end it. -/
theorem staged_of_live (hlive : state.status.isTerminal = false)
    (hlineup : state.status ≠ .pendingLineup) (hfixture : event.fixtureId = state.spec.fixtureId)
    (hseq : (scratchOf state).lastSeq < event.seq)
    (hnext : (reduceMarket state event).state.status.isTerminal = false) :
    Staged state event := by
  have htaken : ignored state event = false := by
    simp only [MarketStatus.isTerminal, decide_eq_false_iff_not, not_or] at hlive
    unfold ignored
    simp [hlive, hfixture, hseq]
  by_contra hstaged
  have hvoid : event.phase ∈ voidPhases ∨ event.kind = .coverageWarning := by
    by_contra h
    push Not at h
    exact hstaged ⟨htaken, hlineup, h.1, h.2⟩
  rw [reduceMarket_of_void htaken hlineup hvoid] at hnext
  contradiction

theorem fixtureId_reduceMarket (state : MarketState) (event : MatchEvent) :
    (reduceMarket state event).state.spec.fixtureId = state.spec.fixtureId := by
  obtain ⟨p, hp⟩ := sameClaim_reduceMarket state event
  rw [hp]

/-- A staged score event takes the cursor. -/
theorem lastSeq_of_staged (h : Staged state event) (hscore : event.kind ≠ .oddsSuspension) :
    (scratchOf (reduceMarket state event).state).lastSeq = event.seq := by
  have hledger : (scratchOf (reduceMarket state event).state).lastSeq =
      (advance (scratchOf state) event).lastSeq := congrArg Prod.fst (ledger_of_staged h)
  rw [hledger, advance, if_neg hscore]

/-- From the first tracked event on, a run that ends live tracks everything. -/
theorem trackedEvents_of_live (hstream : ScoreStream state.spec.fixtureId events)
    (hlineup : state.status ≠ .pendingLineup)
    (hseq : ∀ event ∈ events, (scratchOf state).lastSeq < event.seq)
    (hend : (reduceAll state events).status.isTerminal = false) :
    trackedEvents state events = events := by
  induction events generalizing state with
  | nil => rfl
  | cons event events ih =>
      have hrun : reduceAll state (event :: events) =
          reduceAll (reduceMarket state event).state events := rfl
      rw [hrun] at hend
      have hnext : (reduceMarket state event).state.status.isTerminal = false := by
        by_contra hterminal
        rw [Bool.not_eq_false] at hterminal
        rw [reduceAll_of_terminal hterminal] at hend
        rw [hend] at hterminal
        contradiction
      have hlive : state.status.isTerminal = false := by
        by_contra hterminal
        rw [Bool.not_eq_false] at hterminal
        rw [reduceMarket_of_terminal hterminal] at hnext
        rw [hnext] at hterminal
        contradiction
      have hstaged : Staged state event :=
        staged_of_live hlive hlineup (hstream.fixture event List.mem_cons_self)
          (hseq event List.mem_cons_self) hnext
      have hcursor := lastSeq_of_staged hstaged (hstream.score event List.mem_cons_self)
      have htail : ScoreStream (reduceMarket state event).state.spec.fixtureId events := by
        rw [fixtureId_reduceMarket]
        exact hstream.tail
      have hlater := (List.pairwise_cons.mp hstream.pairwise).1
      rw [trackedEvents, if_pos hstaged,
        ih htail (fun h => hlineup (status_reduceMarket h)) (by rw [hcursor]; exact hlater) hend]

/-- What a run that ends live does not track comes before everything it tracks. -/
theorem exists_untracked (hstream : ScoreStream state.spec.fixtureId events)
    (hend : (reduceAll state events).status.isTerminal = false) :
    ∃ untracked, events = untracked ++ trackedEvents state events := by
  induction events generalizing state with
  | nil => exact ⟨[], rfl⟩
  | cons event events ih =>
      have hrun : reduceAll state (event :: events) =
          reduceAll (reduceMarket state event).state events := rfl
      rw [hrun] at hend
      have htail : ScoreStream (reduceMarket state event).state.spec.fixtureId events := by
        rw [fixtureId_reduceMarket]
        exact hstream.tail
      by_cases hstaged : Staged state event
      · have hcursor := lastSeq_of_staged hstaged (hstream.score event List.mem_cons_self)
        have hlater := (List.pairwise_cons.mp hstream.pairwise).1
        refine ⟨[], ?_⟩
        rw [List.nil_append, trackedEvents, if_pos hstaged, trackedEvents_of_live htail
          (fun h => hstaged.lineup (status_reduceMarket h)) (by rw [hcursor]; exact hlater) hend]
      · obtain ⟨untracked, heq⟩ := ih htail hend
        refine ⟨event :: untracked, ?_⟩
        rw [trackedEvents, if_neg hstaged, List.cons_append, ← heq]

/-! ## candidates -/

/-- The candidate is the event's own, on this ledger. -/
structure ArmedAt (scratch : ReducerScratch) (spec : MarketSpec) (event : MatchEvent)
    (pending : PendingSettlement) : Prop where
  confirmed : event.confirmed = true
  outcome : outcomeAt scratch spec event = some pending.outcome
  sequence : pending.decidingSeq = event.seq
  evidence : pending.evidenceSeqs = buildEvidence scratch spec event.seq

variable {pending : PendingSettlement}

theorem armed_of_settlementStage :
    (settlementStage stage event).state.pendingSettlement = some pending →
      ArmedAt (scratchOf (settlementStage stage event).state) stage.state.spec event pending := by
  have hnot {st : Stage} (hnone : st.state.pendingSettlement = none)
      (h : st.state.pendingSettlement = some pending) {p : Prop} : p := by simp [hnone] at h
  have hrule : StageRule event
      (fun st => st.state.pendingSettlement = none ∧ st.state.spec = stage.state.spec)
      (fun r => r.state.pendingSettlement = some pending →
        ArmedAt (scratchOf r.state) stage.state.spec event pending) :=
    { hold := fun hst _ h => by
        unfold applyHold at h
        dsimp only at h
        split at h <;> exact hnot hst.1 h
      resolution := fun hst => by
        rw [spec_applyResolution]
        unfold applyResolution
        split_ifs <;> exact hst
      void := fun _ _ h => by cases h
      arm := fun hst hconfirmed _ houtcome _ h => by
        obtain rfl := Option.some.inj h
        rw [← hst.2]
        exact ⟨hconfirmed, houtcome, rfl, rfl⟩
      reprice := fun hst h => by unfold applyReprice at h; split at h <;> exact hnot hst.1 h }
  exact hrule.settlement (fun hnone => ⟨hnone, rfl⟩) (fun _ h => by cases h) ⟨rfl, rfl⟩
    fun prior hprior h => by simp [settleNow, hprior] at h

/-- A candidate that a step leaves behind was armed by its event. -/
theorem armed_of_pending (hstaged : Staged state event)
    (h : (reduceMarket state event).state.pendingSettlement = some pending) :
    ArmedAt (scratchOf (reduceMarket state event).state) state.spec event pending := by
  rw [hstaged.reduceMarket_eq] at h ⊢
  have harmed := armed_of_settlementStage h
  rwa [spec_cutoffStage] at harmed

/-- The event brings a candidate that was not there before. -/
structure Arms (state : MarketState) (event : MatchEvent) (pending : PendingSettlement) :
    Prop where
  after : (reduceMarket state event).state.pendingSettlement = some pending
  before : state.pendingSettlement ≠ some pending

theorem Arms.staged (h : Arms state event pending) : Staged state event := by
  obtain ⟨hafter, hbefore⟩ := h
  revert hafter
  refine reduceMarket_cases (P := fun r => r.state.pendingSettlement = some pending →
    Staged state event) (fun _ h => absurd h hbefore) (fun _ _ => ?_) (fun _ _ _ h => by cases h)
    fun hstaged _ => hstaged
  unfold reducePendingLineup
  dsimp only
  split_ifs
  · exact fun h => by cases h
  · exact fun h => absurd h hbefore
  · exact fun h => by cases h
  · exact fun h => absurd h hbefore

end CalledIt.Engine
