import CalledIt.Engine.Runs

/-!
# CalledIt.Engine.Complement

Two markets on complementary claims: at least `t`, and at most `u`, where every
integer meets one of the two and not both.

`MarketState.under` turns a market on the first claim into the same market on the
second, with the outcome of its candidate turned around.  Each stage of the reducer
commutes with it, and so do the clock tick and whole runs (`tradingRun_under`).
-/

namespace CalledIt.Engine

open Lib

/-! ## trading runs -/

/-- What a market meets: events, clock ticks, and position rows read again with the
taps placed since. -/
inductive TradingInput
  | market (input : MarketInput)
  | positions (positions : List Position)

def tradingStep (state : MarketState) : TradingInput → MarketState × List MarketEffect
  | .market input => marketStep state input
  | .positions positions => ({ state with positions }, [])

def tradingRun (state : MarketState) (inputs : List TradingInput) :
    MarketState × List MarketEffect :=
  execute tradingStep state inputs

/-! ## turning a market around -/

def SettlementOutcome.opposite : SettlementOutcome → SettlementOutcome
  | claimWon => claimLost
  | claimLost => claimWon
  | void => void

def PendingSettlement.opposite (pending : PendingSettlement) : PendingSettlement :=
  { pending with outcome := pending.outcome.opposite }

def MarketEffect.opposite : MarketEffect → MarketEffect
  | settle outcome decidingSeq evidenceSeqs => settle outcome.opposite decidingSeq evidenceSeqs
  | effect => effect

@[simp] theorem SettlementOutcome.opposite_opposite (outcome : SettlementOutcome) :
    outcome.opposite.opposite = outcome := by
  cases outcome <;> rfl

@[simp] theorem MarketEffect.opposite_opposite (effect : MarketEffect) :
    effect.opposite.opposite = effect := by
  cases effect <;> simp [MarketEffect.opposite]

/-- At most `u` in place of at least the threshold. -/
def MarketSpec.under (u : ℚ) (spec : MarketSpec) : MarketSpec :=
  { spec with comparator := .lte, threshold := u }

def MarketState.under (u : ℚ) (state : MarketState) : MarketState :=
  { state with
    spec := state.spec.under u
    pendingSettlement := state.pendingSettlement.map (·.opposite) }

def ReduceResult.under (u : ℚ) (result : ReduceResult) : ReduceResult :=
  { state := result.state.under u, effects := result.effects.map (·.opposite) }

def Stage.under (u : ℚ) (stage : Stage) : Stage :=
  { stage with state := stage.state.under u, effects := stage.effects.map (·.opposite) }

/-- Every integer meets one of the two bounds, and none both. -/
def SplitsIntegers (t u : ℚ) : Prop :=
  ¬ ∃ n : ℤ, ((n : ℚ) ≥ t ∧ (n : ℚ) ≤ u) ∨ (¬ (n : ℚ) ≥ t ∧ ¬ (n : ℚ) ≤ u)

/-- A claim on a tally of at least its threshold, which `u` complements. -/
structure MarketSpec.Complemented (u : ℚ) (spec : MarketSpec) : Prop where
  claimType : spec.claimType ∈ [ClaimType.totalsOu, .teamScoresN, .playerScoresN]
  comparator : spec.comparator = .gte
  splits : SplitsIntegers spec.threshold u

/-! ## the settlement predicate -/

theorem SplitsIntegers.gt_iff {t u : ℚ} (h : SplitsIntegers t u) (n : Nat) :
    (n : ℚ) > u ↔ (n : ℚ) ≥ t := by
  have hone : ¬ (((n : ℚ) ≥ t ∧ (n : ℚ) ≤ u) ∨ (¬ (n : ℚ) ≥ t ∧ ¬ (n : ℚ) ≤ u)) := by
    intro hn
    exact h ⟨n, by exact_mod_cast hn⟩
  rw [gt_iff_lt, ← not_le]
  tauto

theorem compareTally_opposite {t u : ℚ} (h : SplitsIntegers t u) (value : Nat) (complete : Bool) :
    compareTally value .lte u complete =
      (compareTally value .gte t complete).map (·.opposite) := by
  simp only [compareTally, h.gt_iff value]
  split_ifs <;> rfl

theorem evaluateSpec_under {u : ℚ} {spec : MarketSpec} (h : spec.Complemented u)
    (score : ScoreState) (phase : GamePhase) (playerGoals : Option Nat) :
    evaluateSpec (spec.under u) score phase playerGoals =
      (evaluateSpec spec score phase playerGoals).map (·.opposite) := by
  obtain ⟨hclaim, hgte, hsplits⟩ := h
  have hcompare : ∀ value, compareTally value .lte u (isPeriodComplete spec.period phase) =
      (compareTally value spec.comparator spec.threshold
        (isPeriodComplete spec.period phase)).map (·.opposite) := fun value => by
    rw [hgte]
    exact compareTally_opposite hsplits value _
  unfold evaluateSpec
  split
  · rfl
  · simp only [List.mem_cons, List.not_mem_nil, or_false] at hclaim
    rcases hclaim with hclaim | hclaim | hclaim <;>
      simp only [MarketSpec.under, hclaim, Option.bind_eq_bind, hcompare, Option.map_bind,
        Function.comp_def]

/-! ## the stages -/

variable {stage : Stage}

section Stages

variable {u : ℚ}

theorem applyCutoff_under (stage : Stage) (event : MatchEvent) :
    applyCutoff (stage.under u) event = (applyCutoff stage event).under u := by
  have htrigger : cutoffTriggered (stage.under u).state.spec event =
      cutoffTriggered stage.state.spec event := rfl
  have hscratch : (stage.under u).scratch = stage.scratch := rfl
  have hstatus : (stage.under u).state.status = stage.state.status := rfl
  unfold applyCutoff
  rw [htrigger, hscratch, hstatus]
  split_ifs
  · simp [Stage.under, MarketState.under, MarketEffect.opposite]
  · rfl
  · rfl

theorem cancelCandidate_under (stage : Stage) (event : MatchEvent) :
    cancelCandidate (stage.under u) event = (cancelCandidate stage event).under u := by
  simp [cancelCandidate, Stage.under, MarketState.under, MarketEffect.opposite]

theorem dropCandidate_under (stage : Stage) :
    dropCandidate (stage.under u) = (dropCandidate stage).under u := rfl

theorem applyHold_under (stage : Stage) (event : MatchEvent) :
    applyHold (stage.under u) event = (applyHold stage event).under u := by
  have hstatus : (stage.under u).state.status = stage.state.status := rfl
  simp only [applyHold, hstatus]
  split_ifs
  · simp [Stage.under, MarketState.under, MarketEffect.opposite]
  · rfl

theorem applyResolution_under (stage : Stage) (event : MatchEvent) :
    applyResolution (stage.under u) event = (applyResolution stage event).under u := by
  have hscratch : (stage.under u).scratch = stage.scratch := rfl
  have hstatus : (stage.under u).state.status = stage.state.status := rfl
  unfold applyResolution
  rw [hscratch, hstatus]
  split_ifs
  · rfl
  · simp [Stage.under, MarketState.under, MarketEffect.opposite]
  · rfl
  · rfl

theorem applyReprice_under (stage : Stage) (event : MatchEvent) :
    applyReprice (stage.under u) event = (applyReprice stage event).under u := by
  have hstatus : (stage.under u).state.status = stage.state.status := rfl
  unfold applyReprice
  rw [hstatus]
  split_ifs
  · simp [Stage.under, MarketEffect.opposite]
  · rfl

theorem voidMarket_under (state : MarketState) (reason : String) (effects : List MarketEffect) :
    voidMarket (state.under u) reason (effects.map (·.opposite)) =
      (voidMarket state reason effects).under u := by
  simp [voidMarket, ReduceResult.under, MarketState.under, MarketEffect.opposite]

theorem void_under (stage : Stage) (reason : String) :
    (stage.under u).void reason = (stage.void reason).under u :=
  voidMarket_under { stage.state with scratch := some stage.scratch } reason stage.effects

theorem opposite_movePending (positions : List Position) (p : Position → Bool)
    (target : PositionState) {effect : List String → MarketEffect}
    (h : ∀ ids, (effect ids).opposite = effect ids) :
    (movePending positions p target effect).2.map (·.opposite) =
      (movePending positions p target effect).2 := by
  simp only [movePending]
  split_ifs
  · rfl
  · simp [h]

theorem settleNow_under (state : MarketState) (effects : List MarketEffect) :
    settleNow (state.under u) (effects.map (·.opposite)) = (settleNow state effects).under u := by
  have hactivated : (activateRemainingPending state.positions).2.map (·.opposite) =
      (activateRemainingPending state.positions).2 :=
    opposite_movePending _ _ _ fun _ => rfl
  cases hpending : state.pendingSettlement with
  | none => simp [settleNow, ReduceResult.under, MarketState.under, hpending]
  | some pending =>
      simp only [settleNow, ReduceResult.under, MarketState.under, hpending, Option.map_some,
        List.map_append, hactivated]
      rfl

theorem outcomeAt_under {spec : MarketSpec} (h : spec.Complemented u) (scratch : ReducerScratch)
    (event : MatchEvent) :
    outcomeAt scratch (spec.under u) event =
      (outcomeAt scratch spec event).map (·.opposite) :=
  evaluateSpec_under h event.score event.phase _

theorem evaluateStage_under (h : stage.state.spec.Complemented u) (event : MatchEvent) :
    evaluateStage (stage.under u) event = (evaluateStage stage event).under u := by
  have houtcome : outcomeAt (stage.under u).scratch (stage.under u).state.spec event =
      (outcomeAt stage.scratch stage.state.spec event).map (·.opposite) :=
    outcomeAt_under h stage.scratch event
  have hreprice : (applyReprice (stage.under u) event).result =
      (applyReprice stage event).result.under u := by
    rw [applyReprice_under]
    rfl
  have hdoubt : (stage.under u).scratch = stage.scratch := rfl
  unfold evaluateStage
  rw [houtcome, hreprice, hdoubt]
  split
  · cases outcomeAt stage.scratch stage.state.spec event with
    | none =>
        dsimp only [Option.map_none]
        split
        · exact void_under stage _
        · rfl
    | some outcome =>
        cases outcome with
        | claimWon => rfl
        | claimLost => rfl
        | void => exact void_under stage _
  · rfl

theorem signalStage_under (h : stage.state.spec.Complemented u) (event : MatchEvent) :
    signalStage (stage.under u) event = (signalStage stage event).under u := by
  unfold signalStage
  split
  · rw [applyHold_under]
    rfl
  · rw [applyResolution_under]
    exact evaluateStage_under (by rwa [spec_applyResolution]) event

theorem settlementStage_under (h : stage.state.spec.Complemented u) (event : MatchEvent) :
    settlementStage (stage.under u) event = (settlementStage stage event).under u := by
  have hpending : (stage.under u).state.pendingSettlement =
      stage.state.pendingSettlement.map (·.opposite) := rfl
  unfold settlementStage
  rw [hpending]
  cases stage.state.pendingSettlement with
  | none => exact signalStage_under h event
  | some pending =>
      dsimp only [Option.map_some]
      split
      · rw [cancelCandidate_under]
        rfl
      · split
        · have hdropped : (dropCandidate stage).state.spec.Complemented u := h
          rw [dropCandidate_under]
          exact signalStage_under hdropped event
        · exact settleNow_under { stage.state with scratch := some stage.scratch } stage.effects

theorem ledgerStage_under (state : MarketState) (event : MatchEvent) (scratch : ReducerScratch) :
    ledgerStage (state.under u) event scratch = (ledgerStage state event scratch).under u := by
  have heffects : (applyPositionGuards state.positions event state.isReplay).2.map (·.opposite) =
      (applyPositionGuards state.positions event state.isReplay).2 := by
    simp only [applyPositionGuards, List.map_append]
    rw [opposite_movePending _ _ _ fun _ => rfl, opposite_movePending _ _ _ fun _ => rfl]
  simp only [Stage.under, ledgerStage, heffects]
  rfl

theorem reducePendingLineup_under {state : MarketState} (event : MatchEvent)
    (scratch : ReducerScratch) :
    reducePendingLineup (state.under u) event scratch =
      (reducePendingLineup state event scratch).under u := by
  have hactivated : (activateRemainingPending state.positions).2.map (·.opposite) =
      (activateRemainingPending state.positions).2 :=
    opposite_movePending _ _ _ fun _ => rfl
  have hnames : namesPlayer (state.under u).spec event = namesPlayer state.spec event := rfl
  unfold reducePendingLineup
  rw [hnames]
  dsimp only
  split_ifs
  · exact voidMarket_under { state with scratch := some scratch } _ []
  · simp only [ReduceResult.under, List.map_append, hactivated]
    rfl
  · exact voidMarket_under { state with scratch := some scratch } _ []
  · rfl

end Stages

/-! ## runs -/

section Runs

variable {u : ℚ} {state : MarketState}

theorem reduceMarket_under (h : state.spec.Complemented u) (event : MatchEvent) :
    reduceMarket (state.under u) event = (reduceMarket state event).under u := by
  have hignored : ignored (state.under u) event = ignored state event := rfl
  have hscratch : scratchOf (state.under u) = scratchOf state := rfl
  have hstatus : (state.under u).status = state.status := rfl
  unfold reduceMarket
  rw [hignored, hscratch, hstatus]
  dsimp only
  split
  · rfl
  · split
    · exact reducePendingLineup_under event _
    · split
      · exact voidMarket_under { state with scratch := some (advance (scratchOf state) event) } _ []
      · rw [ledgerStage_under, applyCutoff_under]
        exact settlementStage_under (by rw [spec_applyCutoff]; exact h) event

theorem maturePositions_under (nowMs : Int) :
    maturePositions (state.under u) nowMs = (maturePositions state nowMs).under u := by
  have hpositions : (state.under u).positions = state.positions := rfl
  simp only [maturePositions, hpositions]
  split_ifs <;> rfl

theorem debounceElapsed_under (nowMs : Int) :
    debounceElapsed (state.under u) nowMs = debounceElapsed state nowMs := by
  have hpending : (state.under u).pendingSettlement =
      state.pendingSettlement.map (·.opposite) := rfl
  rw [debounceElapsed, debounceElapsed, hpending]
  cases state.pendingSettlement <;> rfl

theorem checkDebounce_under (nowMs : Int) :
    checkDebounce (state.under u) nowMs = (checkDebounce state nowMs).under u := by
  have hstatus : (state.under u).status = state.status := rfl
  have hmatured : (maturePositions (state.under u) nowMs).state =
      (maturePositions state nowMs).state.under u := by rw [maturePositions_under]; rfl
  unfold checkDebounce
  rw [hstatus]
  split
  · rfl
  · dsimp only
    rw [hmatured, debounceElapsed_under, maturePositions_under]
    split
    · exact settleNow_under _ _
    · rfl

/-- A step keeps the claim complemented: only the side of its player may change. -/
theorem complemented_of_sameClaim {a b : MarketSpec} (h : a.Complemented u)
    (hsame : SameClaim a b) : b.Complemented u := by
  obtain ⟨participant, rfl⟩ := hsame
  exact ⟨h.claimType, h.comparator, h.splits⟩

theorem complemented_tradingStep (h : state.spec.Complemented u) (input : TradingInput) :
    (tradingStep state input).1.spec.Complemented u := by
  rcases input with (event | nowMs) | positions
  · exact complemented_of_sameClaim h (sameClaim_reduceMarket state event)
  · have hspec : (checkDebounce state nowMs).state.spec = state.spec := by
      unfold checkDebounce maturePositions settleNow
      dsimp only
      split_ifs <;> (try split) <;> rfl
    show (checkDebounce state nowMs).state.spec.Complemented u
    rwa [hspec]
  · exact h

theorem tradingStep_under (h : state.spec.Complemented u) (input : TradingInput) :
    tradingStep (state.under u) input =
      ((tradingStep state input).1.under u, (tradingStep state input).2.map (·.opposite)) := by
  rcases input with (event | nowMs) | positions
  · simp only [tradingStep, marketStep, reduceMarket_under h event]
    rfl
  · simp only [tradingStep, marketStep, checkDebounce_under nowMs]
    rfl
  · rfl

/-- The two markets run in step. -/
theorem tradingRun_under (h : state.spec.Complemented u) (inputs : List TradingInput) :
    tradingRun (state.under u) inputs =
      ((tradingRun state inputs).1.under u, (tradingRun state inputs).2.map (·.opposite)) := by
  unfold tradingRun
  induction inputs generalizing state with
  | nil => rfl
  | cons input inputs ih =>
      simp only [execute_cons, tradingStep_under h input, ih (complemented_tradingStep h input),
        List.map_append]

end Runs

/-! ## complementary claims -/

/-- Two claims on one tally that differ only in comparator and threshold, at least
`t` and at most `u`, where every integer meets one of them and none both. -/
structure Complementary (a b : MarketSpec) : Prop where
  claimType : a.claimType ∈ [ClaimType.totalsOu, .teamScoresN, .playerScoresN]
  comparators : a.comparator = .gte ∧ b.comparator = .lte
  others : b = { a with comparator := b.comparator, threshold := b.threshold }
  splits : SplitsIntegers a.threshold b.threshold

/-- What two markets have in common, and how they end. -/
structure Opposed (a b : MarketState × List MarketEffect) : Prop where
  status : b.1.status = a.1.status
  positions : b.1.positions = a.1.positions
  scratch : b.1.scratch = a.1.scratch
  candidate : b.1.pendingSettlement = a.1.pendingSettlement.map (·.opposite)
  effects : b.2 = a.2.map (·.opposite)
  won : ∀ decidingSeq evidenceSeqs, .settle .claimWon decidingSeq evidenceSeqs ∈ a.2 ↔
    .settle .claimLost decidingSeq evidenceSeqs ∈ b.2
  lost : ∀ decidingSeq evidenceSeqs, .settle .claimLost decidingSeq evidenceSeqs ∈ a.2 ↔
    .settle .claimWon decidingSeq evidenceSeqs ∈ b.2
  void : ∀ reason, .void reason ∈ a.2 ↔ .void reason ∈ b.2

theorem mem_map_opposite (effects : List MarketEffect) (effect : MarketEffect) :
    effect ∈ effects.map (·.opposite) ↔ effect.opposite ∈ effects := by
  refine List.mem_map.trans ⟨?_, fun h => ⟨effect.opposite, h, effect.opposite_opposite⟩⟩
  rintro ⟨other, hmem, rfl⟩
  rwa [MarketEffect.opposite_opposite]

/-- Markets on complementary claims that start from the same row, over the same
events, ticks and taps: every prefix leaves them in the same status with the same
freezes and positions, with candidates at the same time on the same evidence, and
one is won exactly when the other is lost. -/
theorem complementary_settle_oppositely {a b : MarketSpec} (h : Complementary a b)
    (row : MarketState) (hrow : row.pendingSettlement = none) (inputs : List TradingInput) :
    Opposed (tradingRun { row with spec := a } inputs)
      (tradingRun { row with spec := b } inputs) := by
  have hspec : b = a.under b.threshold := by
    rw [MarketSpec.under, ← h.comparators.2]
    exact h.others
  have hstart : { row with spec := b } =
      MarketState.under b.threshold { row with spec := a } := by
    simp only [MarketState.under, hrow, ← hspec]
    rfl
  have hcomplemented : ({ row with spec := a } : MarketState).spec.Complemented b.threshold :=
    ⟨h.claimType, h.comparators.1, h.splits⟩
  rw [hstart, tradingRun_under hcomplemented inputs]
  refine ⟨rfl, rfl, rfl, rfl, rfl, ?_, ?_, ?_⟩ <;> intros <;>
    rw [mem_map_opposite] <;> rfl

/-- Two goals or more, and one at most. -/
theorem two_or_more_opposes_one_at_most :
    let atMostOne := { Sample.twoGoals with comparator := .lte, threshold := 1 }
    let inputs := [.market (.event (Sample.feedEvent .goal 1 .h1 2)), .market (.tick 200000)]
    Opposed (tradingRun { Sample.market Sample.twoGoals [] with spec := Sample.twoGoals } inputs)
      (tradingRun { Sample.market Sample.twoGoals [] with spec := atMostOne } inputs) := by
  have hsplits : SplitsIntegers 2 1 := by
    rintro ⟨n, hn⟩
    have hn' : (n ≥ 2 ∧ n ≤ 1) ∨ (¬ n ≥ 2 ∧ ¬ n ≤ 1) := by exact_mod_cast hn
    omega
  exact complementary_settle_oppositely ⟨by decide, ⟨rfl, rfl⟩, rfl, hsplits⟩ _ rfl _

end CalledIt.Engine
