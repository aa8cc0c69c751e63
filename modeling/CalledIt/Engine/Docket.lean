import CalledIt.Engine.Evidence
import CalledIt.Engine.Results

/-!
# CalledIt.Engine.Docket

What decides how a market ends.

A docket keeps the goals of a market, its candidate and whether a VAR check is open,
and nothing else of it: no status, no cutoff, no doubt about a possible event, no
positions.  The reducer refines it (`hears_reduceMarket`): two markets with the same
docket end alike.
-/

namespace CalledIt.Engine

/-! ## dockets -/

/-- How a market ends, and by which event. -/
structure Ruling where
  outcome : SettlementOutcome
  decidingSeq : Nat
  deriving DecidableEq, Repr

def PendingSettlement.ruling (pending : PendingSettlement) : Ruling :=
  ⟨pending.outcome, pending.decidingSeq⟩

structure Docket where
  lastSeq : Nat
  goals : List StandingGoal
  candidate : Option Ruling
  review : Bool
  deriving DecidableEq

namespace Docket

def start (spec : MarketSpec) : Docket where
  lastSeq := (initialScratch spec).lastSeq
  goals := []
  candidate := none
  review := false

/-- The outcome at an event, by the goals of the docket. -/
def outcome (spec : MarketSpec) (docket : Docket) (event : MatchEvent) : Option SettlementOutcome :=
  outcomeAt { lastSeq := 0, goals := docket.goals, freezeReason := none, cutoffReached := false }
    spec event

/-- A confirmed event may decide the claim, unless a check is open. -/
def judge (spec : MarketSpec) (docket : Docket) (event : MatchEvent) : Docket × Option Ruling :=
  if event.confirmed ∧ !docket.review then
    match docket.outcome spec event with
    | some .void => (docket, some ⟨.void, event.seq⟩)
    | some outcome => ({ docket with candidate := some ⟨outcome, event.seq⟩ }, none)
    | none =>
        if event.phase ∈ terminalPhases then (docket, some ⟨.void, event.seq⟩)
        else (docket, none)
  else (docket, none)

/-- Doubt takes a candidate back, a reversal has the event judged afresh, and anything
else confirms it. -/
def weigh (spec : MarketSpec) (docket : Docket) (event : MatchEvent) : Docket × Option Ruling :=
  if isHoldSignal event then
    ({ docket with candidate := none, review := event.kind = .varCheck }, none)
  else
    match docket.candidate with
    | none =>
        judge spec
          { docket with
            review := docket.review ∧ ¬ (event.kind = .varEnd ∨ isReversal event) } event
    | some ruling =>
        if isReversal event then
          judge spec { docket with candidate := none, review := false } event
        else (docket, some ruling)

def step (spec : MarketSpec) (docket : Docket) (event : MatchEvent) : Docket × Option Ruling :=
  if event.seq ≤ docket.lastSeq then (docket, none)
  else if event.phase ∈ voidPhases ∨ event.kind = .coverageWarning then
    (docket, some ⟨.void, event.seq⟩)
  else
    weigh spec
      { docket with lastSeq := event.seq, goals := trackGoals docket.goals event } event

/-- Up to the event that ends the market. -/
def run (spec : MarketSpec) (docket : Docket) : List MatchEvent → Docket × Option Ruling
  | [] => (docket, none)
  | event :: events =>
      match step spec docket event with
      | (docket, none) => run spec docket events
      | (docket, some ruling) => (docket, some ruling)

end Docket

namespace Docket

variable {spec : MarketSpec} {docket : Docket} {event : MatchEvent}

theorem weigh_of_hold (h : isHoldSignal event = true) :
    docket.weigh spec event =
      ({ docket with candidate := none, review := event.kind = .varCheck }, none) := by
  simp [weigh, h]

theorem weigh_of_none (h : isHoldSignal event = false) (hnone : docket.candidate = none) :
    docket.weigh spec event = judge spec
      { docket with review := docket.review ∧ ¬ (event.kind = .varEnd ∨ isReversal event) }
      event := by
  unfold weigh
  rw [if_neg (by simp [h])]
  split
  · rfl
  · next ruling hsome =>
    rw [hnone] at hsome
    cases hsome

theorem weigh_of_candidate (h : isHoldSignal event = false) {ruling : Ruling}
    (hsome : docket.candidate = some ruling) :
    docket.weigh spec event =
      if isReversal event then judge spec { docket with candidate := none, review := false } event
      else (docket, some ruling) := by
  unfold weigh
  rw [if_neg (by simp [h])]
  split
  · next hnone =>
    rw [hsome] at hnone
    cases hnone
  · next other hother =>
    rw [hsome] at hother
    cases hother
    rfl

end Docket

/-! ## the docket of a market -/

def docketOf (scratch : ReducerScratch) (pending : Option PendingSettlement) : Docket where
  lastSeq := scratch.lastSeq
  goals := scratch.goals
  candidate := pending.map (·.ruling)
  review := scratch.freezeReason = some .var

def MarketState.docket (state : MarketState) : Docket :=
  docketOf (scratchOf state) state.pendingSettlement

def Stage.docket (stage : Stage) : Docket :=
  docketOf stage.scratch stage.state.pendingSettlement

/-- The ruling that an effect carries out at an event. -/
def MarketEffect.ruling (seq : Nat) : MarketEffect → Option Ruling
  | settle outcome decidingSeq _ => some ⟨outcome, decidingSeq⟩
  | void _ => some ⟨.void, seq⟩
  | _ => none

/-- `terminalEffect`. -/
def terminalEffect (effects : List MarketEffect) : Option MarketEffect :=
  effects.find? (·.isTerminal)

def rulingOf (seq : Nat) (effects : List MarketEffect) : Option Ruling :=
  (terminalEffect effects).bind (·.ruling seq)

variable {effects : List MarketEffect}

theorem terminalEffect_append (h : Unended effects) (more : List MarketEffect) :
    terminalEffect (effects ++ more) = terminalEffect more := by
  have hnone : effects.find? (·.isTerminal) = none :=
    List.find?_eq_none.mpr fun effect heffect => by simp [h effect heffect]
  simp [terminalEffect, List.find?_append, hnone]

theorem rulingOf_append (h : Unended effects) (seq : Nat)
    (more : List MarketEffect) : rulingOf seq (effects ++ more) = rulingOf seq more := by
  rw [rulingOf, terminalEffect_append h]
  rfl

theorem rulingOf_unended (h : Unended effects) (seq : Nat) :
    rulingOf seq effects = none := by
  simpa [rulingOf, terminalEffect] using rulingOf_append h seq []

/-! ## the reducer refines the docket -/

/-- A market past its lineup and not over, that is not open under a doubt. -/
structure Heard (status : MarketStatus) (scratch : ReducerScratch) : Prop where
  live : status.isTerminal = false
  lineup : status ≠ .pendingLineup
  unfrozen : status = .open → scratch.freezeReason = none

def MarketState.Heard (state : MarketState) : Prop := Engine.Heard state.status (scratchOf state)

def Stage.Heard (stage : Stage) : Prop := Engine.Heard stage.state.status stage.scratch

/-- The result of an event is what becomes of the docket. -/
structure Hears (spec : MarketSpec) (event : MatchEvent) (result : ReduceResult)
    (next : Docket × Option Ruling) : Prop where
  ruling : rulingOf event.seq result.effects = next.2
  heard : next.2 = none → result.state.Heard
  docket : next.2 = none → result.state.docket = next.1
  claim : next.2 = none → result.state.spec = spec
  due : ∀ pending ∈ result.state.pendingSettlement,
    pending.debounceUntilMs = event.receivedAtMs + settlementDebounceMs

/-- A VAR check is the only doubt that the docket keeps. -/
theorem docketOf_hold {event : MatchEvent} (scratch : ReducerScratch)
    (pending : Option PendingSettlement) (hscore : event.kind ≠ .oddsSuspension) :
    docketOf { scratch with freezeReason := some (holdReasonFor event) } none =
      { docketOf scratch pending with candidate := none, review := event.kind = .varCheck } := by
  have hreason : (some (holdReasonFor event) = some FreezeReason.var) =
      (event.kind = .varCheck) := by
    unfold holdReasonFor
    split <;> simp_all
  simp [docketOf, hreason]

section Stages

variable {stage : Stage} {event : MatchEvent} (h : Unended stage.effects)

include h

theorem hears_void (spec : MarketSpec) (reason : String) (docket : Docket) :
    Hears spec event (stage.void reason) (docket, some ⟨.void, event.seq⟩) where
  ruling := rulingOf_append h _ _
  heard := fun hnone => by cases hnone
  docket := fun hnone => by cases hnone
  claim := fun hnone => by cases hnone
  due := fun _ hpending => by cases hpending

theorem hears_applyReprice (hheard : stage.Heard)
    (hdue : ∀ pending ∈ stage.state.pendingSettlement,
      pending.debounceUntilMs = event.receivedAtMs + settlementDebounceMs) :
    Hears stage.state.spec event (applyReprice stage event).result (stage.docket, none) := by
  unfold applyReprice
  split
  · exact ⟨rulingOf_unended (h.append (unended_singleton rfl)) _, fun _ => hheard, fun _ => rfl,
      fun _ => rfl, hdue⟩
  · exact ⟨rulingOf_unended h _, fun _ => hheard, fun _ => rfl, fun _ => rfl, hdue⟩

theorem hears_armCandidate (outcome : SettlementOutcome) :
    Hears stage.state.spec event (armCandidate stage event outcome).result
      ({ stage.docket with candidate := some ⟨outcome, event.seq⟩ }, none) where
  ruling := rulingOf_unended h _
  heard := fun _ => ⟨rfl, by simp [armCandidate, Stage.result], fun hopen => by cases hopen⟩
  docket := fun _ => rfl
  claim := fun _ => rfl
  due := by
    intro pending hpending
    obtain rfl := Option.some.inj hpending
    rfl

theorem hears_evaluateStage (hheard : stage.Heard)
    (hnone : stage.state.pendingSettlement = none)
    (hdoubt : event.confirmed = true → stage.scratch.underDoubt = stage.docket.review) :
    Hears stage.state.spec event (evaluateStage stage event)
      (stage.docket.judge stage.state.spec event) := by
  have hdue : ∀ pending ∈ stage.state.pendingSettlement,
      pending.debounceUntilMs = event.receivedAtMs + settlementDebounceMs := by
    simp [hnone]
  have houtcome : stage.docket.outcome stage.state.spec event =
      outcomeAt stage.scratch stage.state.spec event := rfl
  unfold evaluateStage Docket.judge
  rw [houtcome]
  by_cases hconfirmed : event.confirmed = true
  · rw [hdoubt hconfirmed]
    split
    · cases outcomeAt stage.scratch stage.state.spec event with
      | none =>
          dsimp only
          split
          · exact hears_void h _ _ _
          · exact hears_applyReprice h hheard hdue
      | some outcome =>
          cases outcome with
          | void => exact hears_void h _ _ _
          | claimWon => exact hears_armCandidate h _
          | claimLost => exact hears_armCandidate h _
    · exact hears_applyReprice h hheard hdue
  · simp only [hconfirmed, Bool.false_eq_true, false_and, if_false]
    exact hears_applyReprice h hheard hdue

theorem hears_applyHold (hheard : stage.Heard) (hnone : stage.state.pendingSettlement = none)
    (hscore : event.kind ≠ .oddsSuspension) :
    Hears stage.state.spec event (applyHold stage event).result
      ({ stage.docket with candidate := none, review := event.kind = .varCheck }, none) := by
  have hdocket := docketOf_hold stage.scratch stage.state.pendingSettlement hscore
  unfold applyHold
  dsimp only
  split
  · refine ⟨rulingOf_unended (h.append (unended_singleton rfl)) _,
      fun _ => ⟨rfl, by simp [Stage.result], fun hopen => by cases hopen⟩, fun _ => ?_,
      fun _ => rfl, by simp [Stage.result, hnone]⟩
    simpa [MarketState.docket, Stage.docket, Stage.result, scratchOf, hnone] using hdocket
  · next hopen =>
    refine ⟨rulingOf_unended h _,
      fun _ => ⟨hheard.live, hheard.lineup, fun h => absurd h hopen⟩, fun _ => ?_, fun _ => rfl,
      by simp [Stage.result, hnone]⟩
    simpa [MarketState.docket, Stage.docket, Stage.result, scratchOf, hnone] using hdocket

theorem hears_cancelCandidate (hscore : event.kind ≠ .oddsSuspension) :
    Hears stage.state.spec event (cancelCandidate stage event).result
      ({ stage.docket with candidate := none, review := event.kind = .varCheck }, none) where
  ruling := rulingOf_unended (h.append (unended_singleton rfl)) _
  heard := fun _ => ⟨rfl, by simp [cancelCandidate, Stage.result], fun hopen => by cases hopen⟩
  docket := fun _ => docketOf_hold stage.scratch stage.state.pendingSettlement hscore
  claim := fun _ => rfl
  due := fun _ hpending => by cases hpending

theorem hears_settleNow {pending : PendingSettlement}
    (hpending : stage.state.pendingSettlement = some pending) :
    Hears stage.state.spec event
      (settleNow { stage.state with scratch := some stage.scratch } stage.effects)
      (stage.docket, some pending.ruling) := by
  have hactivated : Unended (activateRemainingPending stage.state.positions).2 :=
    unended_movePending fun _ => rfl
  unfold settleNow
  simp only [hpending]
  exact
    { ruling := rulingOf_append (h.append hactivated) _ _
      heard := fun hnone => by cases hnone
      docket := fun hnone => by cases hnone
      claim := fun hnone => by cases hnone
      due := fun _ hdue => by cases hdue }

end Stages

theorem reviewOf_resolved {scratch : ReducerScratch} {event : MatchEvent}
    (hscore : event.kind ≠ .oddsSuspension) (hresolves : resolves scratch event = false) :
    (scratch.freezeReason = some .var → event.kind ≠ .varEnd ∧ isReversal event = false) ∧
      (event.confirmed = true →
        scratch.underDoubt = decide (scratch.freezeReason = some .var)) := by
  unfold resolves at hresolves
  unfold ReducerScratch.underDoubt at hresolves ⊢
  cases hreason : scratch.freezeReason with
  | none => simp
  | some reason => cases reason <;> simp_all

/-- What an answered doubt leaves on the docket. -/
theorem docket_applyResolution {stage : Stage} {event : MatchEvent} (hheard : stage.Heard)
    (hscore : event.kind ≠ .oddsSuspension) :
    (applyResolution stage event).Heard ∧
      (applyResolution stage event).docket = { stage.docket with
        review := stage.docket.review ∧ ¬ (event.kind = .varEnd ∨ isReversal event) } ∧
      (event.confirmed = true → (applyResolution stage event).scratch.underDoubt =
        (applyResolution stage event).docket.review) := by
  cases hresolves : resolves stage.scratch event with
  | false =>
      obtain ⟨hreview, hdoubt⟩ := reviewOf_resolved hscore hresolves
      have hsame : applyResolution stage event = stage := by simp [applyResolution, hresolves]
      rw [hsame]
      refine ⟨hheard, ?_, hdoubt⟩
      simpa [Stage.docket, docketOf] using hreview
  | true =>
      have hanswers : stage.scratch.freezeReason = some .var → event.kind ≠ .varEnd →
          isReversal event = true := by
        intro hvar hend
        simp only [resolves, ReducerScratch.underDoubt, hvar] at hresolves
        simp_all
      have hreview : stage.docket.review ∧ ¬ (event.kind = .varEnd ∨ isReversal event) ↔ False := by
        simpa [Stage.docket, docketOf] using hanswers
      unfold applyResolution
      rw [if_pos hresolves]
      split_ifs with hcutoff hfrozen
      · refine ⟨⟨hheard.live, hheard.lineup, fun hopen => ?_⟩, ?_, fun _ => rfl⟩
        · have hnone := hheard.unfrozen hopen
          simp [resolves, ReducerScratch.underDoubt, hnone] at hresolves
        · simp only [hreview]
          rfl
      · refine ⟨⟨rfl, by simp, fun _ => rfl⟩, ?_, fun _ => rfl⟩
        simp only [hreview]
        rfl
      · refine ⟨⟨hheard.live, hheard.lineup, fun _ => rfl⟩, ?_, fun _ => rfl⟩
        simp only [hreview]
        rfl

theorem unended_applyResolution {stage : Stage} (h : Unended stage.effects) (event : MatchEvent) :
    Unended (applyResolution stage event).effects ∧
      (applyResolution stage event).state.pendingSettlement = stage.state.pendingSettlement ∧
      (applyResolution stage event).state.spec = stage.state.spec := by
  unfold applyResolution
  split_ifs
  · exact ⟨h, rfl, rfl⟩
  · exact ⟨h.append (unended_singleton rfl), rfl, rfl⟩
  · exact ⟨h, rfl, rfl⟩
  · exact ⟨h, rfl, rfl⟩

theorem hears_signalStage {stage : Stage} {event : MatchEvent} (h : Unended stage.effects)
    (hheard : stage.Heard) (hnone : stage.state.pendingSettlement = none)
    (hscore : event.kind ≠ .oddsSuspension) :
    Hears stage.state.spec event (signalStage stage event)
      (stage.docket.weigh stage.state.spec event) := by
  unfold signalStage
  cases hhold : isHoldSignal event with
  | true =>
      rw [Docket.weigh_of_hold hhold]
      exact hears_applyHold h hheard hnone hscore
  | false =>
      have hcandidate : stage.docket.candidate = none := by simp [Stage.docket, docketOf, hnone]
      obtain ⟨hafter, hdocket, hdoubt⟩ := docket_applyResolution hheard hscore
      obtain ⟨heffects, hpending, hspec⟩ := unended_applyResolution h event
      rw [Docket.weigh_of_none hhold hcandidate, ← hspec]
      exact hdocket ▸ hears_evaluateStage heffects hafter (hpending.trans hnone) hdoubt

theorem heard_dropCandidate (stage : Stage) : (dropCandidate stage).Heard := by
  unfold dropCandidate
  cases stage.scratch.cutoffReached with
  | true => exact ⟨rfl, by simp, by simp⟩
  | false => exact ⟨rfl, by simp, by simp⟩

theorem docket_dropCandidate (stage : Stage) :
    (dropCandidate stage).docket = { stage.docket with candidate := none, review := false } := by
  cases hcutoff : stage.scratch.cutoffReached <;>
    simp [dropCandidate, Stage.docket, docketOf, hcutoff]

theorem settlementStage_of_candidate {stage : Stage} {event : MatchEvent}
    {pending : PendingSettlement} (h : stage.state.pendingSettlement = some pending) :
    settlementStage stage event =
      if isHoldSignal event then (cancelCandidate stage event).result
      else if isReversal event then signalStage (dropCandidate stage) event
      else settleNow { stage.state with scratch := some stage.scratch } stage.effects := by
  unfold settlementStage
  split
  · next hnone =>
    rw [h] at hnone
    cases hnone
  · rfl

theorem hears_settlementStage {stage : Stage} {event : MatchEvent} (h : Unended stage.effects)
    (hheard : stage.Heard) (hscore : event.kind ≠ .oddsSuspension) :
    Hears stage.state.spec event (settlementStage stage event)
      (stage.docket.weigh stage.state.spec event) := by
  cases hpending : stage.state.pendingSettlement with
  | none =>
      have hstage : settlementStage stage event = signalStage stage event := by
        simp [settlementStage, hpending]
      rw [hstage]
      exact hears_signalStage h hheard hpending hscore
  | some pending =>
      have hcandidate : stage.docket.candidate = some pending.ruling := by
        simp [Stage.docket, docketOf, hpending]
      rw [settlementStage_of_candidate hpending]
      cases hhold : isHoldSignal event with
      | true =>
          rw [Docket.weigh_of_hold hhold]
          exact hears_cancelCandidate h hscore
      | false =>
          rw [Docket.weigh_of_candidate hhold hcandidate]
          cases hreversal : isReversal event with
          | true =>
              have hdropped : Hears (dropCandidate stage).state.spec event
                  (signalStage (dropCandidate stage) event)
                  ((dropCandidate stage).docket.weigh (dropCandidate stage).state.spec event) :=
                hears_signalStage h (heard_dropCandidate stage) rfl hscore
              have hspec : (dropCandidate stage).state.spec = stage.state.spec := rfl
              rw [docket_dropCandidate, Docket.weigh_of_none hhold rfl, hspec] at hdropped
              simpa using hdropped
          | false => exact hears_settleNow h hpending

variable {state : MarketState}

theorem docket_cutoffStage {event : MatchEvent} (hheard : state.Heard)
    (hscore : event.kind ≠ .oddsSuspension) :
    (cutoffStage state event).Heard ∧ Unended (cutoffStage state event).effects ∧
      (cutoffStage state event).docket = { state.docket with
        lastSeq := event.seq, goals := trackGoals state.docket.goals event } := by
  have hguards : Unended (ledgerStage state event (advance (scratchOf state) event)).effects :=
    (unended_movePending fun _ => rfl).append (unended_movePending fun _ => rfl)
  unfold cutoffStage applyCutoff
  split_ifs with hcutoff hopen
  · have hnone := hheard.unfrozen hopen
    refine ⟨⟨rfl, by simp, fun h => by cases h⟩, hguards.append (unended_singleton rfl), ?_⟩
    simp [Stage.docket, MarketState.docket, docketOf, ledgerStage, advance, hscore, hnone]
  · refine ⟨⟨hheard.live, hheard.lineup, fun h => absurd h hopen⟩, hguards, ?_⟩
    simp [Stage.docket, MarketState.docket, docketOf, ledgerStage, advance, hscore]
  · refine ⟨⟨hheard.live, hheard.lineup, fun h => ?_⟩, hguards, ?_⟩
    · simpa [ledgerStage, advance, hscore] using hheard.unfrozen h
    · simp [Stage.docket, MarketState.docket, docketOf, ledgerStage, advance, hscore]

theorem hears_reduceMarket {event : MatchEvent} (hheard : state.Heard)
    (hfixture : event.fixtureId = state.spec.fixtureId) (hscore : event.kind ≠ .oddsSuspension)
    (hseq : state.docket.lastSeq < event.seq) :
    Hears state.spec event (reduceMarket state event) (state.docket.step state.spec event) := by
  have htaken : ignored state event = false := by
    have hlive := hheard.live
    simp only [MarketStatus.isTerminal, decide_eq_false_iff_not, not_or] at hlive
    have hcursor : (scratchOf state).lastSeq < event.seq := hseq
    simp [ignored, hlive, hfixture, hcursor]
  unfold Docket.step
  rw [if_neg (Nat.not_le.mpr hseq)]
  by_cases hvoid : event.phase ∈ voidPhases ∨ event.kind = .coverageWarning
  · rw [reduceMarket_of_void htaken hheard.lineup hvoid, if_pos hvoid]
    exact
      { ruling := rfl
        heard := fun hnone => by cases hnone
        docket := fun hnone => by cases hnone
        claim := fun hnone => by cases hnone
        due := fun _ hdue => by cases hdue }
  · have hstaged : Staged state event :=
      ⟨htaken, hheard.lineup, fun h => hvoid (.inl h), fun h => hvoid (.inr h)⟩
    obtain ⟨hcutoff, hunended, hdocket⟩ := docket_cutoffStage hheard hscore
    rw [hstaged.reduceMarket_eq, if_neg hvoid, ← hdocket, ← spec_cutoffStage state event]
    exact hears_settlementStage hunended hcutoff hscore

/-- An event at or before the cursor changes neither market nor docket. -/
theorem reduceMarket_of_seq_le {event : MatchEvent} (hscore : event.kind ≠ .oddsSuspension)
    (hseq : event.seq ≤ state.docket.lastSeq) :
    reduceMarket state event = { state, effects := [] } := by
  refine reduceMarket_of_ignored ?_
  have hcursor : event.seq ≤ (scratchOf state).lastSeq := hseq
  simp [ignored, hscore, hcursor]

end CalledIt.Engine
