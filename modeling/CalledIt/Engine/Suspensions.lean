import CalledIt.Engine.Delivery

/-!
# CalledIt.Engine.Suspensions

Two runs of one market: over a stream, and over the stream without its odds
suspensions.

A suspension moves positions, may trigger the cutoff and locks or unlocks calls.
None of this reaches the settlement stages, which read the claim, the candidate,
the ledger and the doubt (`Stage.Alike`).  What does reach them is excluded by
`Harmless`: a suspension voids the market by its phase, cancels or confirms a
candidate, and takes the place of a doubt.  Along runs of harmless suspensions the
market ends the same way without them (`suspensions_harmless`).
-/

namespace CalledIt.Engine

open Lib

/-! ## how a market ends -/

inductive Ending
  | settled (outcome : SettlementOutcome)
  | voided
  deriving DecidableEq, Repr

def MarketEffect.ending : MarketEffect → Option Ending
  | settle outcome _ _ => some (.settled outcome)
  | void _ => some .voided
  | _ => none

/-- The settlements and voids among the effects. -/
def endings (effects : List MarketEffect) : List Ending := effects.filterMap (·.ending)

@[simp] theorem endings_nil : endings [] = [] := rfl

@[simp] theorem endings_append (as bs : List MarketEffect) :
    endings (as ++ bs) = endings as ++ endings bs := by
  simp [endings]

@[simp] theorem endings_freeze (reason : FreezeReason) : endings [.freeze reason] = [] := rfl

@[simp] theorem endings_unfreeze : endings [.unfreeze] = [] := rfl

@[simp] theorem endings_repriceHint : endings [.repriceHint] = [] := rfl

theorem endings_movePending {positions : List Position} {p : Position → Bool}
    {target : PositionState} {effect : List String → MarketEffect}
    (h : ∀ ids, (effect ids).ending = none) :
    endings (movePending positions p target effect).2 = [] := by
  unfold movePending
  dsimp only
  split <;> simp [endings, h]

@[simp] theorem endings_activateRemainingPending (positions : List Position) :
    endings (activateRemainingPending positions).2 = [] :=
  endings_movePending fun _ => rfl

@[simp] theorem endings_applyPositionGuards (positions : List Position) (event : MatchEvent)
    (isReplay : Bool) : endings (applyPositionGuards positions event isReplay).2 = [] := by
  simp only [applyPositionGuards, endings_append, List.append_eq_nil_iff]
  exact ⟨endings_movePending fun _ => rfl, endings_movePending fun _ => rfl⟩

/-! ## what the settlement stages read -/

/-- The doubt that holds up a settlement. -/
def ReducerScratch.doubt (scratch : ReducerScratch) : Option FreezeReason :=
  scratch.freezeReason.filter fun reason => reason = .var ∨ reason = .possibleEvent

theorem ReducerScratch.underDoubt_iff (scratch : ReducerScratch) :
    scratch.underDoubt = scratch.doubt.isSome := by
  unfold underDoubt doubt
  cases hreason : scratch.freezeReason with
  | none => rfl
  | some reason => cases reason <;> rfl

theorem ReducerScratch.doubt_eq_possibleEvent (scratch : ReducerScratch) :
    scratch.doubt = some .possibleEvent ↔ scratch.freezeReason = some .possibleEvent := by
  unfold doubt
  cases hreason : scratch.freezeReason with
  | none => simp
  | some reason => cases reason <;> simp [Option.filter]

/-- Two stages that the settlement stages cannot tell apart. -/
structure Stage.Alike (a b : Stage) : Prop where
  spec : a.state.spec = b.state.spec
  pending : a.state.pendingSettlement = b.state.pendingSettlement
  lastSeq : a.scratch.lastSeq = b.scratch.lastSeq
  goals : a.scratch.goals = b.scratch.goals
  doubt : a.scratch.doubt = b.scratch.doubt
  live : a.Live ∧ b.Live
  endings : endings a.effects = [] ∧ endings b.effects = []

/-- The stage an event starts from. -/
def MarketState.stage (state : MarketState) : Stage := ⟨state, scratchOf state, []⟩

/-- Two markets that are both over, or that no later event tells apart. -/
def MarketState.Alike (s t : MarketState) : Prop :=
  s.status.isTerminal = true ∧ t.status.isTerminal = true ∨ s.stage.Alike t.stage

/-- The same ending, if any, and alike from here on. -/
def ReduceResult.Alike (r r' : ReduceResult) : Prop :=
  r.state.Alike r'.state ∧ Engine.endings r.effects = Engine.endings r'.effects

variable {stage : Stage} {event : MatchEvent}

section Stages

variable {a b : Stage}

theorem Stage.Alike.result (h : a.Alike b) : a.result.Alike b.result := by
  obtain ⟨ha, hb⟩ := h.endings
  refine ⟨.inr ⟨h.spec, h.pending, h.lastSeq, h.goals, h.doubt, h.live, rfl, rfl⟩, ?_⟩
  exact ha.trans hb.symm

theorem Stage.Alike.void (h : a.Alike b) (reason : String) :
    (a.void reason).Alike (b.void reason) := by
  obtain ⟨ha, hb⟩ := h.endings
  exact ⟨.inl ⟨rfl, rfl⟩, by simp [Stage.void, voidMarket, ha, hb]⟩

/-- The cutoff freezes an open market, where there is no doubt. -/
theorem doubt_applyCutoff (h : stage.Coherent) (event : MatchEvent) :
    (applyCutoff stage event).scratch.doubt = stage.scratch.doubt := by
  unfold applyCutoff
  split_ifs with _ hopen
  · simp [ReducerScratch.doubt, h.unfrozen hopen]
  · rfl
  · rfl

theorem pendingSettlement_applyCutoff (stage : Stage) (event : MatchEvent) :
    (applyCutoff stage event).state.pendingSettlement = stage.state.pendingSettlement := by
  unfold applyCutoff
  split_ifs <;> rfl

theorem endings_applyCutoff (stage : Stage) (event : MatchEvent) :
    endings (applyCutoff stage event).effects = endings stage.effects := by
  unfold applyCutoff
  split_ifs
  · simp
  · rfl
  · rfl

theorem live_applyCutoff (h : stage.Live) (event : MatchEvent) :
    (applyCutoff stage event).Live := by
  unfold applyCutoff
  split_ifs
  · exact .inr (.inl rfl)
  · exact h
  · exact h

theorem alike_applyCutoff (h : a.Alike b) (ha : a.Coherent) (hb : b.Coherent)
    (event : MatchEvent) : (applyCutoff a event).Alike (applyCutoff b event) := by
  have hledgerA := ledger_applyCutoff a event
  have hledgerB := ledger_applyCutoff b event
  simp only [ReducerScratch.ledger, Prod.mk.injEq] at hledgerA hledgerB
  refine ⟨?_, ?_, ?_, ?_, ?_, ?_, ?_⟩
  · simpa using h.spec
  · simpa [pendingSettlement_applyCutoff] using h.pending
  · rw [hledgerA.1, hledgerB.1, h.lastSeq]
  · rw [hledgerA.2, hledgerB.2, h.goals]
  · rw [doubt_applyCutoff ha, doubt_applyCutoff hb, h.doubt]
  · exact ⟨live_applyCutoff h.live.1 event, live_applyCutoff h.live.2 event⟩
  · simpa [endings_applyCutoff] using h.endings

theorem alike_applyHold (h : a.Alike b) (event : MatchEvent) :
    (applyHold a event).Alike (applyHold b event) := by
  obtain ⟨hspec, hpending, hseq, hgoals, hdoubt, ⟨hliveA, hliveB⟩, hendA, hendB⟩ := h
  have hfrozen : ∀ stage : Stage, stage.Live → (applyHold stage event).Live := by
    intro stage hlive
    unfold applyHold
    dsimp only
    split
    · exact .inr (.inl rfl)
    · exact hlive
  have hquiet : ∀ stage : Stage, endings stage.effects = [] →
      endings (applyHold stage event).effects = [] := by
    intro stage hend
    unfold applyHold
    dsimp only
    split <;> simp [hend]
  refine ⟨?_, ?_, ?_, ?_, ?_, ⟨hfrozen a hliveA, hfrozen b hliveB⟩, hquiet a hendA, hquiet b hendB⟩
  all_goals
    unfold applyHold
    dsimp only
    split_ifs <;> first | assumption | rfl

/-- For a score event it is the doubt that decides what the event answers. -/
theorem resolves_of_doubt {s t : ReducerScratch} (h : s.doubt = t.doubt)
    (hscore : event.kind ≠ .oddsSuspension) : resolves s event = resolves t event := by
  have hunder : s.underDoubt = t.underDoubt := by
    rw [s.underDoubt_iff, t.underDoubt_iff, h]
  have hpossible : s.freezeReason = some .possibleEvent ↔ t.freezeReason = some .possibleEvent := by
    rw [← s.doubt_eq_possibleEvent, ← t.doubt_eq_possibleEvent, h]
  simp only [resolves, hunder, hpossible, hscore, false_and, or_false]

theorem live_applyResolution (h : stage.Live) (event : MatchEvent) :
    (applyResolution stage event).Live := by
  unfold applyResolution
  split_ifs
  · exact h
  · exact .inl rfl
  · exact h
  · exact h

theorem endings_applyResolution (stage : Stage) (event : MatchEvent) :
    endings (applyResolution stage event).effects = endings stage.effects := by
  unfold applyResolution
  split_ifs <;> simp

theorem doubt_applyResolution (stage : Stage) (event : MatchEvent) :
    (applyResolution stage event).scratch.doubt =
      if resolves stage.scratch event then none else stage.scratch.doubt := by
  unfold applyResolution
  split_ifs <;> rfl

theorem pendingSettlement_applyResolution (stage : Stage) (event : MatchEvent) :
    (applyResolution stage event).state.pendingSettlement = stage.state.pendingSettlement := by
  unfold applyResolution
  split_ifs <;> rfl

section

variable (h : a.Alike b)

include h

theorem alike_applyResolution (hscore : event.kind ≠ .oddsSuspension) :
    (applyResolution a event).Alike (applyResolution b event) := by
  have hledgerA := ledger_applyResolution a event
  have hledgerB := ledger_applyResolution b event
  simp only [ReducerScratch.ledger, Prod.mk.injEq] at hledgerA hledgerB
  refine ⟨?_, ?_, ?_, ?_, ?_, ?_, ?_⟩
  · simpa using h.spec
  · simpa [pendingSettlement_applyResolution] using h.pending
  · rw [hledgerA.1, hledgerB.1, h.lastSeq]
  · rw [hledgerA.2, hledgerB.2, h.goals]
  · rw [doubt_applyResolution, doubt_applyResolution, resolves_of_doubt h.doubt hscore, h.doubt]
  · exact ⟨live_applyResolution h.live.1 event, live_applyResolution h.live.2 event⟩
  · simpa [endings_applyResolution] using h.endings

theorem alike_applyReprice (event : MatchEvent) :
    (applyReprice a event).Alike (applyReprice b event) := by
  have hstate : ∀ stage : Stage, (applyReprice stage event).state = stage.state ∧
      (applyReprice stage event).scratch = stage.scratch ∧
      endings (applyReprice stage event).effects = endings stage.effects := by
    intro stage
    unfold applyReprice
    split <;> simp
  obtain ⟨hstateA, hscratchA, hendA⟩ := hstate a
  obtain ⟨hstateB, hscratchB, hendB⟩ := hstate b
  refine ⟨?_, ?_, ?_, ?_, ?_, ?_, ?_⟩
  · rw [hstateA, hstateB, h.spec]
  · rw [hstateA, hstateB, h.pending]
  · rw [hscratchA, hscratchB, h.lastSeq]
  · rw [hscratchA, hscratchB, h.goals]
  · rw [hscratchA, hscratchB, h.doubt]
  · simpa [Stage.Live, hstateA, hstateB] using h.live
  · simpa [hendA, hendB] using h.endings

theorem alike_armCandidate (event : MatchEvent) (outcome : SettlementOutcome) :
    (armCandidate a event outcome).Alike (armCandidate b event outcome) := by
  refine ⟨h.spec, ?_, h.lastSeq, h.goals, h.doubt, ⟨.inr (.inr rfl), .inr (.inr rfl)⟩, h.endings⟩
  simp [armCandidate, buildEvidence, h.goals, h.spec]

theorem alike_evaluateStage (event : MatchEvent) :
    (evaluateStage a event).Alike (evaluateStage b event) := by
  have hunder : a.scratch.underDoubt = b.scratch.underDoubt := by
    rw [ReducerScratch.underDoubt_iff, ReducerScratch.underDoubt_iff, h.doubt]
  have houtcome : outcomeAt a.scratch a.state.spec event =
      outcomeAt b.scratch b.state.spec event := by
    simp [outcomeAt, playerGoalCount, h.spec, h.goals]
  unfold evaluateStage
  rw [hunder, houtcome]
  split
  · split
    · exact h.void _
    · next outcome _ _ => exact (alike_armCandidate h event outcome).result
    · split
      · exact h.void _
      · exact (alike_applyReprice h event).result
  · exact (alike_applyReprice h event).result

theorem alike_signalStage (hscore : event.kind ≠ .oddsSuspension) :
    (signalStage a event).Alike (signalStage b event) := by
  unfold signalStage
  split
  · exact (alike_applyHold h event).result
  · exact alike_evaluateStage (alike_applyResolution h hscore) event

theorem alike_dropCandidate : (dropCandidate a).Alike (dropCandidate b) := by
  have hlive : ∀ stage : Stage, (dropCandidate stage).Live := by
    intro stage
    unfold dropCandidate
    dsimp only
    split
    · exact .inr (.inl rfl)
    · exact .inl rfl
  have hdoubt : ∀ stage : Stage, (dropCandidate stage).scratch.doubt = none := by
    intro stage
    unfold dropCandidate ReducerScratch.doubt
    dsimp only
    split <;> rfl
  exact ⟨h.spec, rfl, h.lastSeq, h.goals, by rw [hdoubt, hdoubt], ⟨hlive a, hlive b⟩, h.endings⟩

theorem alike_settlementStage (hscore : event.kind ≠ .oddsSuspension) :
    (settlementStage a event).Alike (settlementStage b event) := by
  obtain ⟨hendA, hendB⟩ := h.endings
  unfold settlementStage
  rw [h.pending]
  split
  · exact alike_signalStage h hscore
  · next pending hpending =>
    split
    · refine ⟨.inr ⟨h.spec, rfl, h.lastSeq, h.goals, rfl, ?_, rfl, rfl⟩, ?_⟩
      · exact ⟨.inr (.inl rfl), .inr (.inl rfl)⟩
      · simp [cancelCandidate, Stage.result, hendA, hendB]
    · split
      · exact alike_signalStage (alike_dropCandidate h) hscore
      · refine ⟨.inl ?_, ?_⟩
        · simp [settleNow, h.pending, hpending, MarketStatus.isTerminal]
        · simp [settleNow, h.pending, hpending, hendA, hendB]

end

end Stages

/-! ## the steps -/

variable {state : MarketState}

theorem live_iff :
    state.stage.Live ↔ state.status.isTerminal = false ∧ state.status ≠ .pendingLineup := by
  simp only [Stage.Live, MarketState.stage, MarketStatus.isTerminal]
  cases state.status <;> simp

variable {s t : MarketState}

theorem ignored_of_alike (h : s.stage.Alike t.stage) (event : MatchEvent) :
    ignored s event = ignored t event := by
  have hs := (live_iff.mp h.live.1).1
  have ht := (live_iff.mp h.live.2).1
  have hspec : s.spec = t.spec := h.spec
  have hseq : (scratchOf s).lastSeq = (scratchOf t).lastSeq := h.lastSeq
  simp only [MarketStatus.isTerminal, decide_eq_false_iff_not, not_or] at hs ht
  simp [ignored, hs, ht, hspec, hseq]

theorem doubt_advance (scratch : ReducerScratch) (event : MatchEvent) :
    (advance scratch event).doubt = scratch.doubt := by
  unfold advance
  split <;> rfl

theorem alike_ledgerStage (h : s.stage.Alike t.stage) (event : MatchEvent) :
    (ledgerStage s event (advance (scratchOf s) event)).Alike
      (ledgerStage t event (advance (scratchOf t) event)) := by
  have hgoals : (scratchOf s).goals = (scratchOf t).goals := h.goals
  have hdoubt : (scratchOf s).doubt = (scratchOf t).doubt := h.doubt
  have hseq : (scratchOf s).lastSeq = (scratchOf t).lastSeq := h.lastSeq
  refine ⟨h.spec, h.pending, ?_, ?_, ?_, h.live, ?_⟩
  · simp only [ledgerStage, advance]
    split
    · exact hseq
    · rfl
  · simp [ledgerStage, hgoals]
  · exact (doubt_advance _ event).trans (hdoubt.trans (doubt_advance _ event).symm)
  · simp [ledgerStage]

theorem alike_reduceMarket (h : s.Alike t) (hs : s.Coherent) (ht : t.Coherent)
    (hscore : event.kind ≠ .oddsSuspension) :
    (reduceMarket s event).Alike (reduceMarket t event) := by
  rcases h with ⟨hoverS, hoverT⟩ | h
  · rw [reduceMarket_of_over (over_of_isTerminal hoverS),
      reduceMarket_of_over (over_of_isTerminal hoverT)]
    exact ⟨.inl ⟨hoverS, hoverT⟩, rfl⟩
  have hlineupS := (live_iff.mp h.live.1).2
  have hlineupT := (live_iff.mp h.live.2).2
  have hsame := ignored_of_alike h event
  cases htaken : ignored s event with
  | true =>
      rw [reduceMarket_of_ignored htaken, reduceMarket_of_ignored (hsame.symm.trans htaken)]
      exact ⟨.inr h, rfl⟩
  | false =>
      have htakenT := hsame.symm.trans htaken
      by_cases hvoid : event.phase ∈ voidPhases ∨ event.kind = .coverageWarning
      · rw [reduceMarket_of_void htaken hlineupS hvoid, reduceMarket_of_void htakenT hlineupT hvoid]
        exact ⟨.inl ⟨rfl, rfl⟩, rfl⟩
      · push Not at hvoid
        have hstagedS : Staged s event := ⟨htaken, hlineupS, hvoid.1, hvoid.2⟩
        have hstagedT : Staged t event := ⟨htakenT, hlineupT, hvoid.1, hvoid.2⟩
        rw [hstagedS.reduceMarket_eq, hstagedT.reduceMarket_eq]
        exact alike_settlementStage (alike_applyCutoff (alike_ledgerStage h event)
          (coherent_advance event hs) (coherent_advance event ht) event) hscore

/-- A tick matures positions, which nothing here depends on, and settles by the
candidate's own clock. -/
theorem alike_checkDebounce (h : s.Alike t) (nowMs : Int) :
    (checkDebounce s nowMs).Alike (checkDebounce t nowMs) := by
  rcases h with ⟨hoverS, hoverT⟩ | h
  · simp only [checkDebounce, over_of_isTerminal hoverS, over_of_isTerminal hoverT, if_true]
    exact ⟨.inl ⟨hoverS, hoverT⟩, rfl⟩
  have hmature : ∀ state : MarketState, ∃ positions,
      (maturePositions state nowMs).state = { state with positions } ∧
      endings (maturePositions state nowMs).effects = [] := by
    intro state
    unfold maturePositions
    dsimp only
    split
    · exact ⟨state.positions, rfl, rfl⟩
    · exact ⟨_, rfl, rfl⟩
  have hover : ∀ state : MarketState, state.stage.Live →
      ¬ (state.status = .settled ∨ state.status = .voided) := by
    intro state hlive hover
    simpa [MarketStatus.isTerminal, hover] using (live_iff.mp hlive).1
  obtain ⟨positionsS, hstateS, hendS⟩ := hmature s
  obtain ⟨positionsT, hstateT, hendT⟩ := hmature t
  have hpending : s.pendingSettlement = t.pendingSettlement := h.pending
  simp only [checkDebounce, hover s h.live.1, hover t h.live.2, if_false, hstateS, hstateT,
    debounceElapsed, hpending]
  cases hcandidate : t.pendingSettlement with
  | none =>
      simp only [Bool.false_eq_true, if_false]
      refine ⟨.inr ?_, hendS.trans hendT.symm⟩
      rw [hstateS, hstateT]
      exact ⟨h.spec, h.pending, h.lastSeq, h.goals, h.doubt, h.live, rfl, rfl⟩
  | some candidate =>
      dsimp only
      split
      · refine ⟨.inl ?_, ?_⟩
        · simp [settleNow, MarketStatus.isTerminal]
        · simp [settleNow, hendS, hendT]
      · refine ⟨.inr ?_, hendS.trans hendT.symm⟩
        rw [hstateS, hstateT]
        exact ⟨h.spec, h.pending, h.lastSeq, h.goals, h.doubt, h.live, rfl, rfl⟩

/-! ## the suspensions -/

/-- A suspension that does not touch what the settlement stages read: if it is
processed, its phase does not void the market, no candidate is pending, and it does
not take the place of a doubt. -/
def Harmless (state : MarketState) : MarketInput → Prop
  | .tick _ => True
  | .event event => event.kind = .oddsSuspension → ignored state event = false →
      event.phase ∉ voidPhases ∧ state.pendingSettlement = none ∧
        (event.confirmed = true → (scratchOf state).underDoubt = false)

theorem trackGoals_of_suspension (h : event.kind = .oddsSuspension)
    (goals : List StandingGoal) : trackGoals goals event = goals := by
  unfold trackGoals
  simp only [h, reduceCtorEq, false_and, if_false]
  split <;> rfl

theorem Stage.Alike.trans {a b c : Stage} (hab : a.Alike b) (hbc : b.Alike c) : a.Alike c :=
  ⟨hab.spec.trans hbc.spec, hab.pending.trans hbc.pending, hab.lastSeq.trans hbc.lastSeq,
    hab.goals.trans hbc.goals, hab.doubt.trans hbc.doubt, ⟨hab.live.1, hbc.live.2⟩,
    hab.endings.1, hbc.endings.2⟩

/-- Up to the settlement stages a suspension only moves positions and the cutoff. -/
theorem alike_cutoffStage_of_suspension (hcoherent : state.Coherent) (hlive : state.stage.Live)
    (hkind : event.kind = .oddsSuspension) :
    (cutoffStage state event).Alike state.stage := by
  have hadvance : advance (scratchOf state) event = scratchOf state := by
    rw [advance, if_pos hkind]
  have hledger : (ledgerStage state event (scratchOf state)).Alike state.stage := by
    refine ⟨rfl, rfl, rfl, ?_, rfl, ⟨hlive, hlive⟩, ?_, rfl⟩
    · exact trackGoals_of_suspension hkind _
    · simp [ledgerStage]
  have hstage : (ledgerStage state event (scratchOf state)).Coherent := hcoherent
  have hbounds := ledger_applyCutoff (ledgerStage state event (scratchOf state)) event
  simp only [ReducerScratch.ledger, Prod.mk.injEq] at hbounds
  rw [cutoffStage, hadvance]
  refine ⟨?_, ?_, ?_, ?_, ?_, ?_, ?_⟩
  · rw [spec_applyCutoff, hledger.spec]
  · rw [pendingSettlement_applyCutoff, hledger.pending]
  · rw [hbounds.1, hledger.lastSeq]
  · rw [hbounds.2, hledger.goals]
  · rw [doubt_applyCutoff hstage, hledger.doubt]
  · exact ⟨live_applyCutoff hledger.live.1 event, hlive⟩
  · exact ⟨by rw [endings_applyCutoff, hledger.endings.1], rfl⟩

/-- A suspension locks calls where nothing is in doubt. -/
theorem alike_applyHold_of_suspension {a b : Stage} (h : a.Alike b)
    (hkind : event.kind = .oddsSuspension) (hdoubt : a.scratch.underDoubt = false) :
    (applyHold a event).Alike b := by
  have hnone : a.scratch.doubt = none := by
    rw [ReducerScratch.underDoubt_iff] at hdoubt
    simpa using hdoubt
  have hreason : holdReasonFor event = .oddsSuspension := by simp [holdReasonFor, hkind]
  obtain ⟨hspec, hpending, hseq, hgoals, hsame, hlive, hend⟩ := h
  unfold applyHold
  simp only [hreason]
  split
  · refine ⟨hspec, hpending, hseq, hgoals, ?_, ⟨.inr (.inl rfl), hlive.2⟩, ?_, hend.2⟩
    · exact (hnone.symm.trans hsame : none = b.scratch.doubt)
    · simpa using hend.1
  · refine ⟨hspec, hpending, hseq, hgoals, ?_, hlive, hend⟩
    exact (hnone.symm.trans hsame : none = b.scratch.doubt)

/-- A lifted suspension answers a suspension only. -/
theorem alike_applyResolution_of_suspension {a b : Stage} (h : a.Alike b)
    (hkind : event.kind = .oddsSuspension) (hlifted : event.confirmed = false) :
    (applyResolution a event).Alike b := by
  have hdoubt : (applyResolution a event).scratch.doubt = a.scratch.doubt := by
    rw [doubt_applyResolution]
    split
    · next hresolves =>
      have hreason : a.scratch.freezeReason = some .oddsSuspension := by
        simpa [resolves, hkind, hlifted, isReversal] using hresolves
      simp [ReducerScratch.doubt, hreason, Option.filter]
    · rfl
  have hledger := ledger_applyResolution a event
  simp only [ReducerScratch.ledger, Prod.mk.injEq] at hledger
  refine ⟨?_, ?_, ?_, ?_, hdoubt.trans h.doubt, ?_, ?_⟩
  · rw [spec_applyResolution, h.spec]
  · rw [pendingSettlement_applyResolution, h.pending]
  · rw [hledger.1, h.lastSeq]
  · rw [hledger.2, h.goals]
  · exact ⟨live_applyResolution h.live.1 event, h.live.2⟩
  · exact ⟨by rw [endings_applyResolution, h.endings.1], h.endings.2⟩

theorem alike_of_suspension (hcoherent : state.Coherent) (hlive : state.stage.Live)
    (hkind : event.kind = .oddsSuspension) (hharmless : Harmless state (.event event)) :
    (reduceMarket state event).state.stage.Alike state.stage ∧
      endings (reduceMarket state event).effects = [] := by
  cases htaken : ignored state event with
  | true =>
      rw [reduceMarket_of_ignored htaken]
      exact ⟨⟨rfl, rfl, rfl, rfl, rfl, ⟨hlive, hlive⟩, rfl, rfl⟩, rfl⟩
  | false =>
      obtain ⟨hphase, hpending, hdoubt⟩ := hharmless hkind htaken
      have hstaged : Staged state event :=
        ⟨htaken, (live_iff.mp hlive).2, hphase, by simp [hkind]⟩
      have hcutoff := alike_cutoffStage_of_suspension hcoherent hlive hkind
      have hnone : (cutoffStage state event).state.pendingSettlement = none :=
        hcutoff.pending.trans hpending
      have hclear : (cutoffStage state event).scratch.underDoubt =
          (scratchOf state).underDoubt := by
        rw [ReducerScratch.underDoubt_iff, ReducerScratch.underDoubt_iff, hcutoff.doubt]
        rfl
      rw [hstaged.reduceMarket_eq, settlementStage, hnone]
      simp only [signalStage]
      cases hconfirmed : event.confirmed with
      | true =>
          have hhold : isHoldSignal event = true := by simp [isHoldSignal, hkind, hconfirmed]
          have hheld := alike_applyHold_of_suspension hcutoff hkind
            (hclear.trans (hdoubt hconfirmed))
          rw [if_pos hhold]
          exact ⟨⟨hheld.spec, hheld.pending, hheld.lastSeq, hheld.goals, hheld.doubt, hheld.live,
            rfl, rfl⟩, hheld.endings.1⟩
      | false =>
          have hhold : isHoldSignal event = false := by simp [isHoldSignal, hkind, hconfirmed]
          have hprice : isPriceMoving event = false := by simp [isPriceMoving, hconfirmed]
          have hlifted := alike_applyResolution_of_suspension hcutoff hkind hconfirmed
          simp only [hhold, Bool.false_eq_true, if_false, evaluateStage, hconfirmed, false_and,
            applyReprice, hprice, and_false]
          exact ⟨⟨hlifted.spec, hlifted.pending, hlifted.lastSeq, hlifted.goals, hlifted.doubt,
            hlifted.live, rfl, rfl⟩, hlifted.endings.1⟩

/-! ## every run -/

def MarketInput.isSuspension : MarketInput → Bool
  | .tick _ => false
  | .event e => e.kind = .oddsSuspension

/-- Alike, with the coupled fields of both in order. -/
structure InStep (s t : MarketState) : Prop where
  alike : s.Alike t
  left : s.Coherent
  right : t.Coherent

theorem inStep_keep (s t : MarketState) (input : MarketInput) (h : InStep s t)
    (hkeep : input.isSuspension = false) :
    InStep (marketStep s input).1 (marketStep t input).1 ∧
      endings (marketStep s input).2 = endings (marketStep t input).2 := by
  have hstep : (marketStep s input).1.Alike (marketStep t input).1 ∧
      endings (marketStep s input).2 = endings (marketStep t input).2 := by
    cases input with
    | event event =>
        exact alike_reduceMarket h.alike h.left h.right
          (by simpa [MarketInput.isSuspension] using hkeep)
    | tick nowMs => exact alike_checkDebounce h.alike nowMs
  exact ⟨⟨hstep.1, coherent_marketStep s input h.left, coherent_marketStep t input h.right⟩,
    hstep.2⟩

theorem inStep_drop (s t : MarketState) (input : MarketInput) (h : InStep s t)
    (hharmless : Harmless s input) (hdrop : input.isSuspension = true) :
    InStep (marketStep s input).1 t ∧ endings (marketStep s input).2 = [] := by
  cases input with
  | tick nowMs => simp [MarketInput.isSuspension] at hdrop
  | event event =>
      rcases h.alike with ⟨hoverS, hoverT⟩ | halike
      · rw [marketStep_of_over (over_of_isTerminal hoverS)]
        exact ⟨h, rfl⟩
      · obtain ⟨hsame, hend⟩ := alike_of_suspension h.left halike.live.1
          (by simpa [MarketInput.isSuspension] using hdrop) hharmless
        exact ⟨⟨.inr (hsame.trans halike), coherent_marketStep s (.event event) h.left, h.right⟩,
          hend⟩

theorem filter_suspensions (events : List MatchEvent) :
    (events.map MarketInput.event).filter (fun input => !input.isSuspension) =
      (events.filter (·.kind ≠ .oddsSuspension)).map .event := by
  rw [List.filter_map]
  congr 1
  refine List.filter_congr fun event _ => ?_
  simp [MarketInput.isSuspension]

/-- Removing the odds suspensions from a stream does not change how an open market
ends, whenever the clock is checked after it, as long as each of them that is
processed is harmless. -/
theorem suspensions_harmless {start : MarketState} (hstart : Starting start)
    (hopen : start.status = .open) (events : List MatchEvent) (nowMs : Int)
    (hharmless : Along marketStep Harmless start (events.map .event)) :
    endings (marketRun start (events.map .event ++ [.tick nowMs])).2 =
      endings (marketRun start ((events.filter (·.kind ≠ .oddsSuspension)).map .event ++
        [.tick nowMs])).2 := by
  have hlive : start.stage.Live := .inl hopen
  have hsame : InStep start start :=
    ⟨.inr ⟨rfl, rfl, rfl, rfl, rfl, ⟨hlive, hlive⟩, rfl, rfl⟩, hstart.coherent, hstart.coherent⟩
  obtain ⟨hfinal, hstream⟩ := execute_simulation (f := MarketEffect.ending)
    (fun s t input h _ hkeep => inStep_keep s t input h hkeep) inStep_drop hsame hharmless
  rw [filter_suspensions] at hfinal hstream
  have htick := (inStep_keep _ _ (.tick nowMs) hfinal rfl).2
  simp only [marketRun, execute_concat, endings_append]
  exact congrArg₂ _ hstream htick

private def brief : MatchEvent := Sample.feedEvent .oddsSuspension 50 .h1 0

/-- A suspension before the deciding goal. -/
theorem suspension_before_goal :
    let goal := Sample.feedEvent .goal 1 .h1 2
    endings (marketRun (Sample.market Sample.twoGoals [])
        [.event brief, .event goal, .tick 200000]).2 =
      endings (marketRun (Sample.market Sample.twoGoals []) [.event goal, .tick 200000]).2 :=
  suspensions_harmless ⟨.inl (by decide), by decide, by decide, by decide⟩ (by decide)
    [brief, Sample.feedEvent .goal 1 .h1 2] 200000
    ⟨fun _ _ => by decide, fun hkind => absurd hkind (by decide), trivial⟩

/-- Full time decides the claim; a suspension within the window cancels the
candidate, and nothing brings it back. -/
theorem suspension_cancels_full_time :
    let start := Sample.market Sample.twoGoals []
    let fullTime := Sample.feedEvent .phaseChange 1 .f 2
    let suspension := Sample.feedEvent .oddsSuspension 50 .f 2
    Starting start ∧ start.status = .open ∧
      (∀ event ∈ [fullTime, suspension], event.receivedAtMs + settlementDebounceMs ≤ 200000) ∧
      endings (marketRun start [.event fullTime, .event suspension, .tick 200000]).2 = [] ∧
      endings (marketRun start [.event fullTime, .tick 200000]).2 = [.settled .claimWon] :=
  ⟨⟨.inl (by decide), by decide, by decide, by decide⟩, by decide, by decide, by decide +kernel,
    by decide +kernel⟩

end CalledIt.Engine
