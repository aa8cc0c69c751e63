import Mathlib.Data.List.Induction
import CalledIt.Engine.Delivery

/-!
# CalledIt.Engine.Deciding

The event that decides a market, and the input that closes it.

A candidate that a run has left behind was armed by one event of the run, and
nothing has been processed since: ticks have activated taps, and that is all
(`exists_deciding`).  A settle effect is the candidate's, emitted by the tick that
finds its window over or by the next event (`settle_of_marketStep`).
-/

namespace CalledIt.Engine

open Lib

/-! ## the closing input -/

/-- Not a settlement. -/
def Unsettled (effect : MarketEffect) : Prop :=
  ∀ outcome decidingSeq evidenceSeqs, effect ≠ .settle outcome decidingSeq evidenceSeqs

theorem Quiet.unsettled {effect : MarketEffect} (h : Quiet effect) : Unsettled effect := h.1

section Unsettled

variable {stage : Stage} {event : MatchEvent}

theorem unsettled_append {effects : List MarketEffect} (h : ∀ o ∈ effects, Unsettled o)
    {effect : MarketEffect} (heffect : Unsettled effect) :
    ∀ o ∈ effects ++ [effect], Unsettled o := by
  intro o ho
  obtain ho | ho := List.mem_append.mp ho
  · exact h o ho
  · obtain rfl := List.mem_singleton.mp ho
    exact heffect

theorem unsettled_signalStage (h : ∀ o ∈ stage.effects, Unsettled o) :
    ∀ o ∈ (signalStage stage event).effects, Unsettled o := by
  have hrule : StageRule event (fun st => ∀ o ∈ st.effects, Unsettled o)
      (fun r => ∀ o ∈ r.effects, Unsettled o) :=
    { hold := fun h _ => by
        unfold applyHold
        dsimp only
        split
        · exact unsettled_append h (by simp [Unsettled])
        · exact h
      resolution := fun h => by
        unfold applyResolution
        split_ifs
        · exact h
        · exact unsettled_append h (by simp [Unsettled])
        · exact h
        · exact h
      void := fun h _ => unsettled_append h (by simp [Unsettled])
      arm := fun h _ _ _ _ => h
      reprice := fun h => by
        unfold applyReprice
        split
        · exact unsettled_append h (by simp [Unsettled])
        · exact h }
  exact hrule.signal h

end Unsettled

/-- A market that is settled on its candidate, from the given positions. -/
def settledFrom (state : MarketState) (positions : List Position)
    (scratch : Option ReducerScratch) :
    MarketState :=
  { state with
    positions := (activateRemainingPending positions).1
    status := .settled
    pendingSettlement := none
    scratch }

variable {state : MarketState} {outcome : SettlementOutcome} {decidingSeq : Nat}
  {evidenceSeqs : List Nat}

/-- An event settles the candidate it finds, after the position guards. -/
theorem settle_of_reduceMarket {event : MatchEvent}
    (h : .settle outcome decidingSeq evidenceSeqs ∈ (reduceMarket state event).effects) :
    Staged state event ∧ isHoldSignal event = false ∧ isReversal event = false ∧
      (∃ candidate, state.pendingSettlement = some candidate ∧ candidate.outcome = outcome ∧
        candidate.decidingSeq = decidingSeq ∧ candidate.evidenceSeqs = evidenceSeqs) ∧
      (reduceMarket state event).state = settledFrom state
        (applyPositionGuards state.positions event state.isReplay).1
        (some (cutoffStage state event).scratch) := by
  have hstaged : Staged state event := by
    revert h
    refine reduceMarket_cases (P := fun r => .settle outcome decidingSeq evidenceSeqs ∈ r.effects →
      Staged state event) (fun _ h => by simp at h) (fun _ _ h => ?_)
      (fun _ _ _ h => by simp [voidMarket] at h) fun hstaged _ => hstaged
    unfold reducePendingLineup voidMarket at h
    dsimp only at h
    split_ifs at h
    · simp at h
    · obtain h | h := List.mem_append.mp h
      · simp at h
      · exact absurd rfl ((quiet_movePending (by simp [Quiet]) _ h).1 _ _ _)
    · simp at h
    · simp at h
  have hquiet : ∀ o ∈ (cutoffStage state event).effects, Unsettled o := fun o ho =>
    (quiet_cutoffStage state event o ho).unsettled
  have hpositions : (cutoffStage state event).state.positions =
      (applyPositionGuards state.positions event state.isReplay).1 := by
    unfold cutoffStage applyCutoff ledgerStage
    dsimp only
    split_ifs <;> rfl
  rw [hstaged.reduceMarket_eq, settlementStage, pendingSettlement_cutoffStage] at h ⊢
  split at h
  · exact absurd rfl (unsettled_signalStage hquiet _ h _ _ _)
  next candidate hcandidate =>
  split at h
  · exact absurd rfl (unsettled_append hquiet (by simp [Unsettled]) _ h _ _ _)
  next hhold =>
  split at h
  · have hdropped : ∀ o ∈ (dropCandidate (cutoffStage state event)).effects, Unsettled o := hquiet
    exact absurd rfl (unsettled_signalStage hdropped _ h _ _ _)
  next hreversal =>
  rw [Bool.not_eq_true] at hhold hreversal
  have hpending : (cutoffStage state event).state.pendingSettlement = some candidate :=
    (pendingSettlement_cutoffStage state event).trans hcandidate
  simp only [settleNow, hpending, List.mem_append, List.mem_singleton, MarketEffect.settle.injEq]
    at h
  refine ⟨hstaged, hhold, hreversal, ⟨candidate, hcandidate, ?_⟩, ?_⟩
  · rcases h with (h | h) | ⟨rfl, rfl, rfl⟩
    · exact absurd rfl (hquiet _ h _ _ _)
    · exact absurd rfl ((quiet_movePending (by simp [Quiet]) _ h).1 _ _ _)
    · exact ⟨rfl, rfl, rfl⟩
  · simp only [hhold, hreversal, Bool.false_eq_true, if_false, settleNow, hpending, settledFrom,
      hpositions]
    unfold cutoffStage applyCutoff ledgerStage
    dsimp only
    split_ifs <;> rfl

/-- A tick settles the candidate whose window is over, after taps have matured. -/
theorem settle_of_checkDebounce {nowMs : Int}
    (h : .settle outcome decidingSeq evidenceSeqs ∈ (checkDebounce state nowMs).effects) :
    (∃ candidate, state.pendingSettlement = some candidate ∧ candidate.outcome = outcome ∧
        candidate.decidingSeq = decidingSeq ∧ candidate.evidenceSeqs = evidenceSeqs) ∧
      (checkDebounce state nowMs).state = settledFrom state
        (maturePositions state nowMs).state.positions state.scratch := by
  have hmatured : ∀ o ∈ (maturePositions state nowMs).effects, Unsettled o := by
    unfold maturePositions
    dsimp only
    split_ifs <;> simp [Unsettled]
  have hstate : (maturePositions state nowMs).state =
      { state with positions := (maturePositions state nowMs).state.positions } := by
    unfold maturePositions
    dsimp only
    split_ifs <;> rfl
  have hpending : (maturePositions state nowMs).state.pendingSettlement =
      state.pendingSettlement := by
    rw [hstate]
  unfold checkDebounce at h ⊢
  split at h
  · simp at h
  next hlive =>
  rw [if_neg hlive]
  dsimp only at h ⊢
  split at h
  · next helapsed =>
    rw [if_pos helapsed]
    unfold settleNow at h ⊢
    rw [hpending] at h ⊢
    split at h
    · exact absurd rfl (hmatured _ h _ _ _)
    · next candidate hcandidate =>
      simp only [List.mem_append, List.mem_singleton, MarketEffect.settle.injEq] at h
      refine ⟨⟨candidate, hcandidate, ?_⟩, ?_⟩
      · rcases h with (h | h) | ⟨rfl, rfl, rfl⟩
        · exact absurd rfl (hmatured _ h _ _ _)
        · exact absurd rfl ((quiet_movePending (by simp [Quiet]) _ h).1 _ _ _)
        · exact ⟨rfl, rfl, rfl⟩
      · rw [hstate]
        rfl
  · exact absurd rfl (hmatured _ h _ _ _)

/-- The positions from which the closing input activates what is still pending. -/
def closingPositions (state : MarketState) : MarketInput → List Position
  | .event e => (applyPositionGuards state.positions e state.isReplay).1
  | .tick nowMs => (maturePositions state nowMs).state.positions

variable {input : MarketInput}

theorem settle_of_marketStep
    (h : .settle outcome decidingSeq evidenceSeqs ∈ (marketStep state input).2) :
    (∃ candidate, state.pendingSettlement = some candidate ∧ candidate.outcome = outcome ∧
        candidate.decidingSeq = decidingSeq ∧ candidate.evidenceSeqs = evidenceSeqs) ∧
      (marketStep state input).1.positions =
        (activateRemainingPending (closingPositions state input)).1 := by
  cases input with
  | event event =>
      obtain ⟨-, -, -, hcandidate, hstate⟩ := settle_of_reduceMarket h
      exact ⟨hcandidate, congrArg MarketState.positions hstate⟩
  | tick nowMs =>
      obtain ⟨hcandidate, hstate⟩ := settle_of_checkDebounce h
      exact ⟨hcandidate, congrArg MarketState.positions hstate⟩

/-! ## the deciding event -/

/-- Between two states of a run nothing has happened but taps that matured. -/
structure Waits (armed : MarketState) (inputs : List MarketInput) : Prop where
  state : ∃ positions, (marketRun armed inputs).1 = { armed with positions }
  effects : ∀ effect ∈ (marketRun armed inputs).2, ∃ ids, effect = .activatePositions ids

/-- The event arms the candidate. -/
structure Decides (state : MarketState) (event : MatchEvent) (candidate : PendingSettlement) :
    Prop where
  staged : Staged state event
  hold : isHoldSignal event = false
  pending : (reduceMarket state event).state.pendingSettlement = some candidate
  armed : ArmedAt (scratchOf (reduceMarket state event).state) state.spec event candidate

/-- A hold signal leaves no candidate. -/
theorem pending_of_hold {event : MatchEvent} (hstaged : Staged state event)
    (hhold : isHoldSignal event = true) :
    (reduceMarket state event).state.pendingSettlement = none := by
  rw [hstaged.reduceMarket_eq, settlementStage]
  split
  · next hnone =>
    simp only [signalStage, hhold, if_true, applyHold]
    split_ifs <;> exact hnone
  · simp [hhold, cancelCandidate, Stage.result]

/-- An input that leaves a candidate behind waits with the one it found, or arms its
own. -/
theorem decides_of_pending (hcoherent : state.Coherent) {candidate : PendingSettlement}
    (h : (marketStep state input).1.pendingSettlement = some candidate) :
    state.pendingSettlement = some candidate ∧ Waits state [input] ∨
      ∃ event, input = .event event ∧ Decides state event candidate := by
  cases input with
  | tick nowMs =>
      left
      have hmatured : ∃ positions, (maturePositions state nowMs).state = { state with positions } ∧
          ∀ effect ∈ (maturePositions state nowMs).effects,
            ∃ ids, effect = .activatePositions ids := by
        unfold maturePositions
        dsimp only
        split_ifs
        · exact ⟨state.positions, rfl, by simp⟩
        · exact ⟨_, rfl, by simp⟩
      obtain ⟨positions, hstate, heffects⟩ := hmatured
      simp only [marketStep, checkDebounce] at h
      split at h
      · next hover =>
        refine ⟨h, ⟨state.positions, ?_⟩, ?_⟩
        · simp [marketRun, marketStep_of_over hover]
        · simp [marketRun, marketStep_of_over hover]
      next hlive =>
      split at h
      · unfold settleNow at h
        split at h
        · next hnone => simp [hnone] at h
        · simp at h
      · next hopen =>
        have hstep : marketStep state (.tick nowMs) =
            ((maturePositions state nowMs).state, (maturePositions state nowMs).effects) := by
          simp only [marketStep, checkDebounce, if_neg hlive, if_neg hopen]
        rw [hstate] at h
        refine ⟨h, ⟨positions, ?_⟩, ?_⟩
        · simp [marketRun, hstep, hstate]
        · simpa [marketRun, hstep] using heffects
  | event event =>
      simp only [marketStep] at h
      cases htaken : ignored state event with
      | true =>
          left
          have hsame := reduceMarket_of_ignored htaken
          rw [hsame] at h
          refine ⟨h, ⟨state.positions, ?_⟩, ?_⟩
          · simp [marketRun, marketStep, hsame]
          · simp [marketRun, marketStep, hsame]
      | false =>
          right
          have hlineup : state.status ≠ .pendingLineup := by
            intro hlineup
            have hnone := hcoherent.pending_of_lineup hlineup
            rw [reduceMarket_of_waiting htaken hlineup] at h
            unfold reducePendingLineup voidMarket at h
            dsimp only at h
            split_ifs at h <;> simp [hnone] at h
          have hvoid : ¬ (event.phase ∈ voidPhases ∨ event.kind = .coverageWarning) := by
            intro hvoid
            rw [reduceMarket_of_void htaken hlineup hvoid] at h
            simp [voidMarket] at h
          push Not at hvoid
          have hstaged : Staged state event := ⟨htaken, hlineup, hvoid.1, hvoid.2⟩
          have hhold : isHoldSignal event = false := by
            by_contra hhold
            rw [pending_of_hold hstaged (by simpa using hhold)] at h
            contradiction
          exact ⟨event, rfl, hstaged, hhold, h, armed_of_pending hstaged h⟩

theorem Waits.nil (state : MarketState) : Waits state [] :=
  ⟨⟨state.positions, rfl⟩, by simp [marketRun]⟩

theorem Waits.concat {armed : MarketState} {inputs : List MarketInput} (h : Waits armed inputs)
    (hinput : Waits (marketRun armed inputs).1 [input]) :
    Waits armed (inputs ++ [input]) := by
  obtain ⟨positions, hstate⟩ := h.state
  obtain ⟨positions', hstate'⟩ := hinput.state
  have hrun : marketRun armed (inputs ++ [input]) =
      ((marketRun (marketRun armed inputs).1 [input]).1,
        (marketRun armed inputs).2 ++ (marketRun (marketRun armed inputs).1 [input]).2) :=
    execute_append armed inputs [input]
  refine ⟨⟨positions', ?_⟩, ?_⟩
  · rw [hrun, hstate', hstate]
  · intro effect heffect
    rw [hrun] at heffect
    obtain heffect | heffect := List.mem_append.mp heffect
    · exact h.effects effect heffect
    · exact hinput.effects effect heffect

/-- The candidate of a run was armed by one of its events, and since then nothing has
been processed. -/
theorem exists_deciding {start : MarketState} (hstart : Starting start)
    (inputs : List MarketInput) {candidate : PendingSettlement}
    (h : (marketRun start inputs).1.pendingSettlement = some candidate) :
    ∃ pre event mid, inputs = pre ++ .event event :: mid ∧
      Decides (marketRun start pre).1 event candidate ∧
      Waits (reduceMarket (marketRun start pre).1 event).state mid := by
  induction inputs using List.reverseRecOn with
  | nil =>
      have hnone : (marketRun start []).1.pendingSettlement = none := hstart.pending
      rw [hnone] at h
      contradiction
  | append_singleton inputs input ih =>
      have hrun : (marketRun start (inputs ++ [input])).1 =
          (marketStep (marketRun start inputs).1 input).1 := by
        simp [marketRun, execute_concat]
      rw [hrun] at h
      rcases decides_of_pending (marketRun_coherent hstart.coherent inputs) h with
        ⟨hpending, hwaits⟩ | ⟨event, rfl, hdecides⟩
      · obtain ⟨pre, event, mid, rfl, hdecides, hmid⟩ := ih hpending
        refine ⟨pre, event, mid ++ [input], by simp, hdecides, hmid.concat ?_⟩
        rwa [← marketRun_append]
      · exact ⟨inputs, event, [], rfl, hdecides, .nil _⟩

end CalledIt.Engine
