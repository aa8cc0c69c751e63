import CalledIt.Engine.Runs

/-!
# CalledIt.Engine.Invariant

The coupled fields of a market: its status, the settlement candidate, the freeze
reason, the cutoff flag and the cursor.

`Coherent` says how they fit together.  Each stage of the reducer keeps it, hence
every step does, and so it holds in every state of every run
(`marketRun_coherent`).
-/

namespace CalledIt.Engine

open Lib

/-! ## the invariant -/

structure Coherent (status : MarketStatus) (pending : Option PendingSettlement)
    (freezeReason : Option FreezeReason) (cutoffReached : Bool) : Prop where
  settling : status = .settling ↔ pending.isSome = true
  unfrozen : status = .open → freezeReason = none
  frozen : status = .frozen → freezeReason.isSome = true
  cutoff : cutoffReached = true → status ≠ .open
  doubt : status = .settling → freezeReason ≠ some .var ∧ freezeReason ≠ some .possibleEvent
  outcome : ∀ candidate ∈ pending, candidate.outcome ≠ .void
  lineup : status = .pendingLineup → freezeReason = none ∧ cutoffReached = false

def MarketState.Coherent (state : MarketState) : Prop :=
  Engine.Coherent state.status state.pendingSettlement (scratchOf state).freezeReason
    (scratchOf state).cutoffReached

def Stage.Coherent (stage : Stage) : Prop :=
  Engine.Coherent stage.state.status stage.state.pendingSettlement stage.scratch.freezeReason
    stage.scratch.cutoffReached

/-- A stage that runs the settlement stages: past the lineup, and not over. -/
def Stage.Live (stage : Stage) : Prop :=
  stage.state.status = .open ∨ stage.state.status = .frozen ∨ stage.state.status = .settling

variable {state : MarketState}

/-- A market that waits for its lineup has no candidate. -/
theorem MarketState.Coherent.pending_of_lineup (h : state.Coherent)
    (hlineup : state.status = .pendingLineup) : state.pendingSettlement = none := by
  have hnot : ¬ state.pendingSettlement.isSome = true := fun hsome =>
    absurd (h.settling.mpr hsome) (by simp [hlineup])
  simpa using hnot

theorem Starting.coherent (h : Starting state) : state.Coherent := by
  obtain ⟨hstatus, hpending, hreason, hcutoff⟩ := h
  constructor <;> rcases hstatus with hstatus | hstatus <;> simp [*]

theorem coherent_voided {pending : Option PendingSettlement} (hpending : pending = none)
    (freezeReason : Option FreezeReason) (cutoffReached : Bool) :
    Coherent .voided pending freezeReason cutoffReached := by
  constructor <;> simp [hpending]

theorem coherent_settled {pending : Option PendingSettlement} (hpending : pending = none)
    (freezeReason : Option FreezeReason) (cutoffReached : Bool) :
    Coherent .settled pending freezeReason cutoffReached := by
  constructor <;> simp [hpending]

/-! ## the stages keep it -/

variable {stage : Stage}

theorem coherent_applyCutoff (event : MatchEvent) (h : stage.Coherent) (hlive : stage.Live) :
    (applyCutoff stage event).Coherent ∧ (applyCutoff stage event).Live := by
  obtain ⟨hsettling, hopen, hfrozen, hcutoff, hdoubt, houtcome, hlineup⟩ := h
  unfold applyCutoff Stage.Live at *
  split_ifs <;> refine ⟨⟨?_, ?_, ?_, ?_, ?_, ?_, ?_⟩, ?_⟩ <;> grind

variable {event : MatchEvent}

theorem coherent_applyHold (h : stage.Coherent) (hnone : stage.state.pendingSettlement = none)
    (hlive : stage.Live) :
    (applyHold stage event).result.state.Coherent := by
  obtain ⟨hsettling, hopen, hfrozen, hcutoff, hdoubt, houtcome, hlineup⟩ := h
  unfold applyHold Stage.Live at *
  dsimp only
  split_ifs <;> constructor <;> grind [Stage.result, scratchOf]

theorem coherent_applyResolution (event : MatchEvent) (h : stage.Coherent) (hlive : stage.Live) :
    (applyResolution stage event).Coherent ∧ (applyResolution stage event).Live ∧
      (applyResolution stage event).state.pendingSettlement = stage.state.pendingSettlement := by
  obtain ⟨hsettling, hopen, hfrozen, hcutoff, hdoubt, houtcome, hlineup⟩ := h
  unfold applyResolution Stage.Live at *
  split_ifs <;> refine ⟨⟨?_, ?_, ?_, ?_, ?_, ?_, ?_⟩, ?_, rfl⟩ <;> grind

theorem coherent_applyReprice (event : MatchEvent) (h : stage.Coherent) :
    (applyReprice stage event).result.state.Coherent := by
  unfold applyReprice
  split_ifs <;> exact h

/-- A decided outcome is armed only where nothing is in doubt. -/
theorem coherent_armCandidate {outcome : SettlementOutcome}
    (hdoubt : stage.scratch.underDoubt = false) (hvoid : outcome ≠ .void) :
    (armCandidate stage event outcome).result.state.Coherent := by
  unfold ReducerScratch.underDoubt at hdoubt
  constructor <;> simp_all [armCandidate, Stage.result, scratchOf]

theorem coherent_cancelCandidate (stage : Stage) (event : MatchEvent) :
    (cancelCandidate stage event).result.state.Coherent := by
  constructor <;> simp [cancelCandidate, Stage.result, scratchOf]

theorem coherent_dropCandidate (stage : Stage) :
    (dropCandidate stage).Coherent ∧ (dropCandidate stage).Live := by
  unfold dropCandidate Stage.Live
  cases hcutoff : stage.scratch.cutoffReached
  · exact ⟨by constructor <;> simp [hcutoff], by simp⟩
  · exact ⟨by constructor <;> simp [hcutoff], by simp⟩

theorem coherent_settleNow {effects : List MarketEffect}
    (h : state.Coherent) : (settleNow state effects).state.Coherent := by
  unfold settleNow
  split
  · exact h
  · exact coherent_settled rfl _ _

theorem coherent_settlementStage (event : MatchEvent) (h : stage.Coherent)
    (hlive : stage.Live) : (settlementStage stage event).state.Coherent := by
  have hrule : StageRule event
      (fun st => st.Coherent ∧ st.Live ∧ st.state.pendingSettlement = none) (·.state.Coherent) :=
    { hold := fun h _ => coherent_applyHold h.1 h.2.2 h.2.1
      resolution := fun h => by
        obtain ⟨hcoherent, hlive, hsame⟩ := coherent_applyResolution event h.1 h.2.1
        exact ⟨hcoherent, hlive, hsame.trans h.2.2⟩
      void := fun _ _ => coherent_voided rfl _ _
      arm := fun _ _ hdoubt _ hvoid => coherent_armCandidate hdoubt hvoid
      reprice := fun h => coherent_applyReprice event h.1 }
  obtain ⟨hdrop, hdropLive⟩ := coherent_dropCandidate stage
  exact hrule.settlement (fun hnone => ⟨h, hlive, hnone⟩)
    (fun _ => coherent_cancelCandidate stage event) ⟨hdrop, hdropLive, rfl⟩
    fun _ _ => coherent_settleNow h

/-! ## the steps keep it -/

theorem freezeReason_advance (scratch : ReducerScratch) (event : MatchEvent) :
    (advance scratch event).freezeReason = scratch.freezeReason := by
  unfold advance
  split <;> rfl

theorem coherent_advance (event : MatchEvent) (h : state.Coherent) :
    ({ state with scratch := some (advance (scratchOf state) event) } : MarketState).Coherent := by
  unfold MarketState.Coherent scratchOf at *
  simpa [freezeReason_advance] using h

theorem coherent_reducePendingLineup (event : MatchEvent) (h : state.Coherent)
    (hlineup : state.status = .pendingLineup) :
    (reducePendingLineup state event (advance (scratchOf state) event)).state.Coherent := by
  have hadvance := coherent_advance event h
  obtain ⟨hsettling, -, -, -, -, -, hwaiting⟩ := hadvance
  obtain ⟨hreason, hcutoff⟩ := hwaiting hlineup
  have hpending : state.pendingSettlement = none := h.pending_of_lineup hlineup
  unfold reducePendingLineup
  dsimp only
  split_ifs
  · exact coherent_voided rfl _ _
  · constructor <;> simp_all [scratchOf]
  · exact coherent_voided rfl _ _
  · exact coherent_advance event h

/-- The statuses in which an event runs through the stages. -/
theorem live_of_taken (htaken : ignored state event = false)
    (hlineup : state.status ≠ .pendingLineup) :
    state.status = .open ∨ state.status = .frozen ∨ state.status = .settling := by
  unfold ignored at htaken
  cases hstatus : state.status <;> simp_all

theorem coherent_reduceMarket (event : MatchEvent) (h : state.Coherent) :
    (reduceMarket state event).state.Coherent := by
  refine reduceMarket_cases (P := (·.state.Coherent)) (fun _ => h)
    (fun _ hlineup => coherent_reducePendingLineup event h hlineup)
    (fun _ _ _ => coherent_voided rfl _ _) fun hstaged => ?_
  have hledger : (ledgerStage state event (advance (scratchOf state) event)).Coherent :=
    coherent_advance event h
  obtain ⟨hcutoff, hlive⟩ :=
    coherent_applyCutoff event hledger (live_of_taken hstaged.taken hstaged.lineup)
  exact coherent_settlementStage event hcutoff hlive

/-- A tick moves positions and settles; it touches nothing else. -/
theorem coherent_checkDebounce (nowMs : Int) (h : state.Coherent) :
    (checkDebounce state nowMs).state.Coherent := by
  have hmature : (maturePositions state nowMs).state.Coherent := by
    unfold maturePositions
    dsimp only
    split_ifs <;> exact h
  unfold checkDebounce
  split
  · exact h
  · dsimp only
    split
    · exact coherent_settleNow hmature
    · exact hmature

theorem coherent_marketStep (state : MarketState) (input : MarketInput) (h : state.Coherent) :
    (marketStep state input).1.Coherent := by
  cases input with
  | event event => exact coherent_reduceMarket event h
  | tick nowMs => exact coherent_checkDebounce nowMs h

theorem marketRun_coherent (h : state.Coherent) (inputs : List MarketInput) :
    (marketRun state inputs).1.Coherent :=
  execute_invariant coherent_marketStep h inputs

/-! ## the cursor -/

/-- A processed event moves the cursor, whatever else it does. -/
theorem lastSeq_of_taken (htaken : ignored state event = false) :
    (scratchOf (reduceMarket state event).state).lastSeq =
      (advance (scratchOf state) event).lastSeq := by
  refine reduceMarket_cases (P := fun r => (scratchOf r.state).lastSeq =
    (advance (scratchOf state) event).lastSeq) (fun h => by simp [h] at htaken) (fun _ _ => ?_)
    (fun _ _ _ => rfl) fun hstaged => ?_
  · unfold reducePendingLineup
    dsimp only
    split_ifs <;> rfl
  · rw [← hstaged.reduceMarket_eq]
    exact congrArg Prod.fst (ledger_of_staged hstaged)

theorem lastSeq_le_advance (htaken : ignored state event = false) :
    (scratchOf state).lastSeq ≤ (advance (scratchOf state) event).lastSeq := by
  unfold advance
  split
  · exact le_rfl
  · next hscore =>
    simp only [ignored, hscore, ne_eq, not_false_eq_true, true_and, decide_eq_false_iff_not,
      not_or, not_le] at htaken
    exact htaken.2.2.2.le

@[simp] theorem scratchOf_settleNow (state : MarketState) (effects : List MarketEffect) :
    scratchOf (settleNow state effects).state = scratchOf state := by
  unfold settleNow
  split <;> rfl

@[simp] theorem scratchOf_checkDebounce (state : MarketState) (nowMs : Int) :
    scratchOf (checkDebounce state nowMs).state = scratchOf state := by
  have hmature : scratchOf (maturePositions state nowMs).state = scratchOf state := by
    unfold maturePositions
    dsimp only
    split_ifs <;> rfl
  unfold checkDebounce
  split
  · rfl
  · dsimp only
    split
    · rw [scratchOf_settleNow, hmature]
    · exact hmature

theorem lastSeq_marketStep (state : MarketState) (input : MarketInput) :
    (scratchOf state).lastSeq ≤ (scratchOf (marketStep state input).1).lastSeq := by
  cases input with
  | event event =>
      cases htaken : ignored state event with
      | true => simp [marketStep, reduceMarket_of_ignored htaken]
      | false =>
          simp only [marketStep, lastSeq_of_taken htaken]
          exact lastSeq_le_advance htaken
  | tick nowMs => simp [marketStep]

/-! ## every run -/

/-- In every state of a run the coupled fields fit together, and no input moves the
cursor back. -/
theorem reducer_invariant {start : MarketState} (hstart : Starting start)
    (inputs : List MarketInput) (state : MarketState)
    (hstate : state = (marketRun start inputs).1) :
    (state.status = .settling ↔ state.pendingSettlement ≠ none) ∧
      (state.status = .open → (scratchOf state).freezeReason = none) ∧
      (state.status = .frozen → (scratchOf state).freezeReason ≠ none) ∧
      ((scratchOf state).cutoffReached = true → state.status ≠ .open) ∧
      (state.status = .settling → (scratchOf state).freezeReason ≠ some .var ∧
        (scratchOf state).freezeReason ≠ some .possibleEvent) ∧
      (∀ candidate ∈ state.pendingSettlement, candidate.outcome ≠ .void) ∧
      ∀ input, (scratchOf state).lastSeq ≤ (scratchOf (marketStep state input).1).lastSeq := by
  subst hstate
  have h := marketRun_coherent hstart.coherent inputs
  refine ⟨?_, h.unfrozen, ?_, h.cutoff, h.doubt, h.outcome, lastSeq_marketStep _⟩
  · rw [h.settling, Option.isSome_iff_ne_none]
  · exact fun hfrozen => Option.isSome_iff_ne_none.mp (h.frozen hfrozen)

/-- A second goal arms the candidate of a market that has just been created. -/
theorem reducer_invariant_second_goal :
    let inputs := [.event (Sample.feedEvent .goal 1 .h1 1), .event (Sample.feedEvent .goal 2 .h1 2)]
    let state := (marketRun (Sample.market Sample.twoGoals []) inputs).1
    state.status = .settling ∧ state.pendingSettlement ≠ none := by
  have hstart : Starting (Sample.market Sample.twoGoals []) :=
    ⟨.inl (by decide), by decide, by decide, by decide⟩
  have hstatus : (marketRun (Sample.market Sample.twoGoals [])
      [.event (Sample.feedEvent .goal 1 .h1 1), .event (Sample.feedEvent .goal 2 .h1 2)]).1.status =
        .settling := by decide +kernel
  exact ⟨hstatus, (reducer_invariant hstart _ _ rfl).1.mp hstatus⟩

end CalledIt.Engine
