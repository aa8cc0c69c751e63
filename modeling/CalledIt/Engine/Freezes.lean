import CalledIt.Engine.Invariant

/-!
# CalledIt.Engine.Freezes

What keeps a market frozen over a run: a staking cutoff, and an open VAR check.

The cutoff is a flag that nothing clears, so a market that has processed a cutoff
event never opens again (`cutoff_permanent_iff`); a market that waits for its
lineup does not look at the cutoff, and opens in spite of it unless the event
voids it.

An open VAR check is remembered in the freeze reason only.  It holds as long as no
other hold signal overwrites it (`var_check_holds`).
-/

namespace CalledIt.Engine

open Lib

/-! ## terminal states -/

variable {state : MarketState}

section

variable (h : state.status = .settled ∨ state.status = .voided)

include h

theorem reduceMarket_of_over
    (event : MatchEvent) :
    reduceMarket state event = { state, effects := [] } := by
  refine reduceMarket_of_ignored ?_
  unfold ignored
  rcases h with h | h <;> simp [h]

/-- After it is settled or voided, a market answers nothing any more. -/
theorem marketStep_of_over
    (input : MarketInput) :
    marketStep state input = (state, []) := by
  cases input with
  | event event => simp [marketStep, reduceMarket_of_over h event]
  | tick nowMs => simp [marketStep, checkDebounce, h]

theorem marketRun_of_over
    (inputs : List MarketInput) :
    marketRun state inputs = (state, []) :=
  execute_of_constant (marketStep_of_over h) inputs

end

/-! ## the cutoff flag -/

theorem cutoffReached_settlementStage (stage : Stage) (event : MatchEvent) :
    (scratchOf (settlementStage stage event).state).cutoffReached =
      stage.scratch.cutoffReached :=
  congrArg (·.2.2.1) (frame_settlementStage stage event)

variable {event : MatchEvent}

theorem cutoffReached_of_staged (h : Staged state event) :
    (scratchOf (reduceMarket state event).state).cutoffReached =
      ((scratchOf state).cutoffReached || cutoffTriggered state.spec event) := by
  have hledger : (ledgerStage state event (advance (scratchOf state) event)).scratch.cutoffReached =
      (scratchOf state).cutoffReached := cutoffReached_advance _ _
  rw [h.reduceMarket_eq, cutoffReached_settlementStage, cutoffStage]
  unfold applyCutoff
  split_ifs <;> simp_all [ledgerStage]

/-- Nothing clears the flag. -/
theorem cutoffReached_marketStep (h : (scratchOf state).cutoffReached = true)
    (input : MarketInput) :
    (scratchOf (marketStep state input).1).cutoffReached = true := by
  cases input with
  | tick nowMs => simpa [marketStep] using h
  | event event =>
      simp only [marketStep]
      by_cases hstaged : Staged state event
      · rw [cutoffReached_of_staged hstaged, h, Bool.true_or]
      · have hadvance : (advance (scratchOf state) event).cutoffReached = true := by simpa using h
        refine reduceMarket_cases (P := fun r => (scratchOf r.state).cutoffReached = true)
          (fun _ => h) (fun _ _ => ?_) (fun _ _ _ => hadvance) fun h => absurd h hstaged
        unfold reducePendingLineup
        dsimp only
        split_ifs <;> exact hadvance

/-- A coherent market with the flag set does not open again. -/
theorem not_open_of_cutoffReached (h : state.Coherent)
    (hcutoff : (scratchOf state).cutoffReached = true) (inputs : List MarketInput) :
    (marketRun state inputs).1.status ≠ .open := by
  have hkeep : (marketRun state inputs).1.Coherent ∧
      (scratchOf (marketRun state inputs).1).cutoffReached = true :=
    execute_invariant (I := fun s => s.Coherent ∧ (scratchOf s).cutoffReached = true)
      (fun s input hs => ⟨coherent_marketStep s input hs.1, cutoffReached_marketStep hs.2 input⟩)
      ⟨h, hcutoff⟩ inputs
  exact hkeep.1.cutoff hkeep.2

/-! ## cutoffs before the lineup -/

/-- The event voids a market that waits for its lineup. -/
def VoidsWaiting (spec : MarketSpec) (event : MatchEvent) : Prop :=
  event.phase ∈ voidPhases ∨ event.kind = .coverageWarning ∨
    event.phase ∈ inplayPhases ∧ namesPlayer spec event = false

theorem reduceMarket_of_waiting (htaken : ignored state event = false)
    (hlineup : state.status = .pendingLineup) :
    reduceMarket state event =
      reducePendingLineup state event (advance (scratchOf state) event) := by
  unfold reduceMarket
  rw [htaken]
  simp [hlineup]

theorem voided_of_voidsWaiting (htaken : ignored state event = false)
    (hlineup : state.status = .pendingLineup)
    (h : VoidsWaiting state.spec event) : (reduceMarket state event).state.status = .voided := by
  rw [reduceMarket_of_waiting htaken hlineup, reducePendingLineup]
  dsimp only
  split_ifs with hvoid hnames hinplay
  · rfl
  · rcases h with h | h | h
    · exact absurd (.inl h) hvoid
    · exact absurd (.inr h) hvoid
    · exact absurd hnames (by simp [h.2])
  · rfl
  · rcases h with h | h | h
    · exact absurd (.inl h) hvoid
    · exact absurd (.inr h) hvoid
    · exact absurd h.1 hinplay

/-- Otherwise the market opens at once, or goes on waiting. -/
theorem open_or_waiting (htaken : ignored state event = false)
    (hlineup : state.status = .pendingLineup) (h : ¬ VoidsWaiting state.spec event) :
    (reduceMarket state event).state.status = .open ∨
      (reduceMarket state event).state.status = .pendingLineup ∧
        (reduceMarket state event).state.spec = state.spec := by
  simp only [VoidsWaiting, not_or, not_and, Bool.not_eq_false] at h
  rw [reduceMarket_of_waiting htaken hlineup, reducePendingLineup]
  dsimp only
  split_ifs with hvoid hnames hinplay
  · rcases hvoid with hvoid | hvoid
    · exact absurd hvoid h.1
    · exact absurd hvoid h.2.1
  · exact .inl rfl
  · exact absurd (h.2.2 hinplay) hnames
  · exact .inr ⟨hlineup, rfl⟩

/-- A market that waits for the lineup of a player opens when the lineup names the
player. -/
theorem exists_opening_lineup (hlineup : state.status = .pendingLineup) {playerId : Nat}
    (hplayer : state.spec.entityRef.playerId = some playerId) :
    ∃ event, (reduceMarket state event).state.status = .open := by
  let event : MatchEvent :=
    { kind := .lineup
      fixtureId := state.spec.fixtureId
      seq := (scratchOf state).lastSeq + 1
      tsMs := 0
      receivedAtMs := 0
      confirmed := true
      phase := .ns
      minute := none
      score := ⟨⟨0, 0, 0, 0⟩, ⟨0, 0, 0, 0⟩, none, none⟩
      detail := some ⟨none, some (some playerId), none, none, none⟩ }
  have htaken : ignored state event = false := by simp [ignored, hlineup, event]
  have hnames : namesPlayer state.spec event = true := by
    cases hentity : state.spec.entityRef with
    | team participant name => simp [hentity, EntityRef.playerId] at hplayer
    | player normativeId name participant =>
        simp only [hentity, EntityRef.playerId, Option.some.injEq] at hplayer
        simp [namesPlayer, hentity, event, hplayer, MatchEvent.playerNormativeId]
  have hphase : ¬ (event.phase ∈ voidPhases ∨ event.kind = .coverageWarning) := by
    simp [event, voidPhases]
  refine ⟨event, ?_⟩
  rw [reduceMarket_of_waiting htaken hlineup, reducePendingLineup]
  simp only [if_neg hphase, hnames, if_true]

theorem playerId_bindEntity (entityRef : EntityRef) (participant : Option Participant) :
    (bindEntity entityRef participant).playerId = entityRef.playerId := by
  cases entityRef <;> cases participant <;> rfl

theorem sameClaim_marketStep (state : MarketState) (input : MarketInput) :
    SameClaim state.spec (marketStep state input).1.spec := by
  cases input with
  | event event => exact sameClaim_reduceMarket state event
  | tick nowMs =>
      have hspec : (checkDebounce state nowMs).state.spec = state.spec := by
        unfold checkDebounce maturePositions settleNow
        dsimp only
        split_ifs <;> (try split) <;> rfl
      simp only [marketStep, hspec]
      exact .refl _

theorem sameClaim_marketRun (state : MarketState) (inputs : List MarketInput) :
    SameClaim state.spec (marketRun state inputs).1.spec :=
  execute_invariant (I := fun s => SameClaim state.spec s.spec)
    (fun s input h => h.trans (sameClaim_marketStep s input)) (.refl _) inputs

theorem marketRun_append (state : MarketState) (inputs : List MarketInput) (event : MatchEvent)
    (post : List MarketInput) :
    (marketRun state (inputs ++ .event event :: post)).1 =
      (marketRun (reduceMarket (marketRun state inputs).1 event).state post).1 := by
  simp [marketRun, execute_append, marketStep]

/-- No input makes a market wait for its lineup again. -/
theorem pendingLineup_of_marketStep {input : MarketInput}
    (h : (marketStep state input).1.status = .pendingLineup) : state.status = .pendingLineup := by
  cases input with
  | event event => exact status_reduceMarket h
  | tick nowMs =>
      by_contra hstatus
      simp only [marketStep, checkDebounce, maturePositions, settleNow] at h
      split_ifs at h <;> first | exact hstatus h | (split at h <;> simp_all)

theorem pendingLineup_of_marketRun {inputs : List MarketInput}
    (h : (marketRun state inputs).1.status = .pendingLineup) : state.status = .pendingLineup := by
  by_contra hstatus
  have hkeep : (marketRun state inputs).1.status ≠ .pendingLineup :=
    execute_invariant (I := fun s : MarketState => s.status ≠ .pendingLineup)
      (fun s input hs hnext => hs (pendingLineup_of_marketStep hnext)) hstatus inputs
  exact hkeep h

/-- Without a candidate a tick leaves the status alone. -/
theorem status_checkDebounce (nowMs : Int) (h : state.pendingSettlement = none) :
    (checkDebounce state nowMs).state.status = state.status := by
  simp only [checkDebounce, maturePositions, debounceElapsed]
  split_ifs <;> simp_all

/-- A market that waits for a lineup without a player to be named in it. -/
structure Unnamed (state : MarketState) : Prop where
  player : state.spec.entityRef.playerId = none
  pending : state.pendingSettlement = none
  status : state.status = .pendingLineup ∨ state.status = .voided

/-- Such a market waits until it is voided. -/
theorem unnamed_marketStep (state : MarketState) (input : MarketInput) (h : Unnamed state) :
    Unnamed (marketStep state input).1 := by
  obtain ⟨hplayer, hpending, hlineup | hvoided⟩ := h
  · obtain ⟨participant, hspec⟩ := sameClaim_marketStep state input
    have hunbound : (marketStep state input).1.spec.entityRef.playerId = none := by
      rw [hspec, playerId_bindEntity, hplayer]
    cases input with
    | tick nowMs =>
        refine ⟨hunbound, ?_, .inl ?_⟩
        · simp only [marketStep, checkDebounce, maturePositions, debounceElapsed]
          split_ifs <;> simp_all
        · simp only [marketStep, status_checkDebounce nowMs hpending, hlineup]
    | event event =>
        simp only [marketStep] at hunbound ⊢
        cases htaken : ignored state event with
        | true =>
            rw [reduceMarket_of_ignored htaken]
            exact ⟨hplayer, hpending, .inl hlineup⟩
        | false =>
            have hnames : namesPlayer state.spec event = false := by
              cases hentity : state.spec.entityRef <;> simp_all [namesPlayer, EntityRef.playerId]
            rw [reduceMarket_of_waiting htaken hlineup] at hunbound ⊢
            refine ⟨hunbound, ?_, ?_⟩
            · simp only [reducePendingLineup, hnames, Bool.false_eq_true, if_false]
              split_ifs <;> first | rfl | exact hpending
            · simp only [reducePendingLineup, hnames, Bool.false_eq_true, if_false]
              split_ifs
              · exact .inr rfl
              · exact .inr rfl
              · exact .inl hlineup
  · rw [marketStep_of_over (.inr hvoided)]
    exact ⟨hplayer, hpending, .inr hvoided⟩

/-- Once a cutoff event has been processed no later state is open, exactly when the
market was not waiting for a player's lineup or the event voids it. -/
theorem cutoff_permanent_iff {start : MarketState} (hstart : Starting start)
    (pre : List MarketInput) (event : MatchEvent)
    (htaken : ignored (marketRun start pre).1 event = false)
    (hcutoff : cutoffTriggered (marketRun start pre).1.spec event = true) :
    (∀ post, (marketRun start (pre ++ .event event :: post)).1.status ≠ .open) ↔
      ((marketRun start pre).1.status = .pendingLineup ∧
          (marketRun start pre).1.spec.entityRef.playerId ≠ none →
        VoidsWaiting (marketRun start pre).1.spec event) := by
  have hcoherent := marketRun_coherent hstart.coherent pre
  constructor
  · -- a market that keeps waiting is opened by the lineup
    rintro h ⟨hlineup, hplayer⟩
    by_contra hvoids
    rcases open_or_waiting htaken hlineup hvoids with hopen | ⟨hwaiting, hspec⟩
    · exact h [] (by rw [marketRun_append]; exact hopen)
    · obtain ⟨playerId, hid⟩ := Option.ne_none_iff_exists'.mp hplayer
      obtain ⟨lineup, hopen⟩ := exists_opening_lineup hwaiting (by rw [hspec]; exact hid)
      exact h [.event lineup] (by rw [marketRun_append]; exact hopen)
  · intro h post
    rw [marketRun_append]
    by_cases hlineup : (marketRun start pre).1.status = .pendingLineup
    · by_cases hplayer : (marketRun start pre).1.spec.entityRef.playerId = none
      · have hnone : (marketRun start pre).1.pendingSettlement = none :=
          hcoherent.pending_of_lineup hlineup
        have hunnamed : Unnamed (marketRun (reduceMarket (marketRun start pre).1 event).state
            post).1 :=
          execute_invariant unnamed_marketStep
            (unnamed_marketStep _ (.event event) ⟨hplayer, hnone, .inl hlineup⟩) post
        rcases hunnamed.status with hstatus | hstatus <;> simp [hstatus]
      · have hvoided := voided_of_voidsWaiting htaken hlineup (h ⟨hlineup, hplayer⟩)
        rw [marketRun_of_over (.inr hvoided), hvoided]
        simp
    · by_cases hvoid : event.phase ∈ voidPhases ∨ event.kind = .coverageWarning
      · have hvoided : (reduceMarket (marketRun start pre).1 event).state.status = .voided := by
          rw [reduceMarket_of_void htaken hlineup hvoid]
          rfl
        rw [marketRun_of_over (.inr hvoided), hvoided]
        simp
      · push Not at hvoid
        have hstaged : Staged (marketRun start pre).1 event :=
          ⟨htaken, hlineup, hvoid.1, hvoid.2⟩
        refine not_open_of_cutoffReached (coherent_reduceMarket event hcoherent) ?_ post
        rw [cutoffReached_of_staged hstaged, hcutoff, Bool.or_true]

private def playerClaim : MarketSpec :=
  { Sample.twoGoals with
    claimType := .playerScoresN
    entityRef := .player 9 "nine" none
    trustTier := .oracleResolved }

private def waitingMarket : MarketState := createMarketFromClaim playerClaim .ns false

private def lateLineup : MatchEvent :=
  { Sample.feedEvent .lineup 2 .h1 0 with
    detail := some ⟨some .one, some (some 9), none, none, none⟩ }

/-- A market that kicks off without the lineup is voided for good. -/
theorem kickoff_without_lineup :
    Starting waitingMarket ∧ ∀ post, (marketRun waitingMarket ([] ++
      .event (Sample.feedEvent .phaseChange 2 .h1 0) :: post)).1.status ≠ .open := by
  have hstart : Starting waitingMarket := (fresh_createMarketFromClaim _ _ _).starting
  exact ⟨hstart, (cutoff_permanent_iff hstart [] (Sample.feedEvent .phaseChange 2 .h1 0)
    (by decide) (by decide)).mpr fun _ => .inr (.inr ⟨by decide, by decide⟩)⟩

/-- A lineup that arrives after kickoff is a cutoff event, and opens the market. -/
theorem late_lineup_opens :
    Starting waitingMarket ∧ ignored waitingMarket lateLineup = false ∧
      cutoffTriggered waitingMarket.spec lateLineup = true ∧
      (marketRun waitingMarket [.event lateLineup]).1.status = .open :=
  ⟨(fresh_createMarketFromClaim _ _ _).starting, by decide, by decide, by decide +kernel⟩

/-! ## an open VAR check -/

/-- An effect that neither settles the market nor opens it again. -/
def Quiet (effect : MarketEffect) : Prop :=
  (∀ outcome decidingSeq evidenceSeqs, effect ≠ .settle outcome decidingSeq evidenceSeqs) ∧
    effect ≠ .unfreeze

theorem quiet_movePending {positions : List Position} {p : Position → Bool}
    {target : PositionState} {effect : List String → MarketEffect} (h : ∀ ids, Quiet (effect ids)) :
    ∀ o ∈ (movePending positions p target effect).2, Quiet o := by
  unfold movePending
  dsimp only
  split_ifs <;> simp [h]

theorem quiet_applyPositionGuards (positions : List Position) (event : MatchEvent)
    (isReplay : Bool) : ∀ o ∈ (applyPositionGuards positions event isReplay).2, Quiet o := by
  intro o ho
  obtain ho | ho := List.mem_append.mp ho
  · exact quiet_movePending (by simp [Quiet]) o ho
  · exact quiet_movePending (by simp [Quiet]) o ho

/-- A VAR check stands: the market is frozen for it, or voided. -/
structure UnderReview (state : MarketState) : Prop where
  pending : state.pendingSettlement = none
  status : state.status = .voided ∨
    state.status = .frozen ∧ (scratchOf state).freezeReason = some .var

/-- The event, if it is processed, neither answers the check nor raises another
doubt in its place. -/
def LeavesReview (state : MarketState) : MarketInput → Prop
  | .tick _ => True
  | .event event => ignored state event = false →
      event.kind ≠ .varEnd ∧ isReversal event = false ∧
        (isHoldSignal event = true → event.kind = .varCheck)

/-- The stage before the settlement stages: positions and the cutoff. -/
theorem quiet_cutoffStage (state : MarketState) (event : MatchEvent) :
    ∀ o ∈ (cutoffStage state event).effects, Quiet o := by
  have hguards := quiet_applyPositionGuards state.positions event state.isReplay
  unfold cutoffStage applyCutoff ledgerStage
  dsimp only
  split_ifs
  · intro o ho
    obtain ho | ho := List.mem_append.mp ho
    · exact hguards o ho
    · obtain rfl := List.mem_singleton.mp ho
      simp [Quiet]
  · exact hguards
  · exact hguards

theorem pendingSettlement_cutoffStage (state : MarketState) (event : MatchEvent) :
    (cutoffStage state event).state.pendingSettlement = state.pendingSettlement := by
  unfold cutoffStage applyCutoff
  split_ifs <;> rfl

/-- A frozen market stays frozen for its reason up to the settlement stages. -/
theorem cutoffStage_of_frozen (event : MatchEvent) (h : state.status = .frozen) :
    (cutoffStage state event).state.status = .frozen ∧
      (cutoffStage state event).scratch.freezeReason = (scratchOf state).freezeReason := by
  have hreason := freezeReason_advance (scratchOf state) event
  unfold cutoffStage applyCutoff ledgerStage
  dsimp only
  split_ifs <;> simp_all

theorem underReview_step (h : UnderReview state) (hstaged : Staged state event)
    (hleaves : LeavesReview state (.event event)) :
    UnderReview (reduceMarket state event).state ∧
      ∀ o ∈ (reduceMarket state event).effects, Quiet o := by
  obtain ⟨hend, hreversal, hhold⟩ := hleaves hstaged.taken
  obtain hvoided | ⟨hfrozen, hreason⟩ := h.status
  · exact absurd hstaged.taken (by simp [ignored, hvoided])
  obtain ⟨hfrozen, hkept⟩ := cutoffStage_of_frozen event hfrozen
  have hvar : (cutoffStage state event).scratch.freezeReason = some .var := hkept.trans hreason
  have hquiet := quiet_cutoffStage state event
  have hnone : (cutoffStage state event).state.pendingSettlement = none := by
    rw [pendingSettlement_cutoffStage, h.pending]
  rw [hstaged.reduceMarket_eq, settlementStage, hnone]
  simp only [signalStage]
  split
  · next hsignal =>
    have hvarCheck := hhold hsignal
    simp only [applyHold, hfrozen, reduceCtorEq, if_false]
    refine ⟨⟨hnone, .inr ⟨hfrozen, ?_⟩⟩, hquiet⟩
    simp [Stage.result, scratchOf, holdReasonFor, hvarCheck]
  · have hresolves : resolves (cutoffStage state event).scratch event = false := by
      simp [resolves, hend, hvar, hreversal]
    have hdoubt : (cutoffStage state event).scratch.underDoubt = true := by
      simp [ReducerScratch.underDoubt, hvar]
    simp only [applyResolution, hresolves, Bool.false_eq_true, if_false, evaluateStage, hdoubt,
      Bool.not_true, and_false, applyReprice, hfrozen, reduceCtorEq, false_and]
    exact ⟨⟨hnone, .inr ⟨hfrozen, hvar⟩⟩, hquiet⟩

/-- A market that is voided is under review for good. -/
theorem underReview_void (htaken : ignored state event = false)
    (hlineup : state.status ≠ .pendingLineup)
    (hvoid : event.phase ∈ voidPhases ∨ event.kind = .coverageWarning) :
    UnderReview (reduceMarket state event).state ∧
      ∀ o ∈ (reduceMarket state event).effects, Quiet o := by
  rw [reduceMarket_of_void htaken hlineup hvoid]
  exact ⟨⟨rfl, .inl rfl⟩, by simp [voidMarket, Quiet]⟩

theorem underReview_reduceMarket (h : UnderReview state)
    (hleaves : LeavesReview state (.event event)) :
    UnderReview (reduceMarket state event).state ∧
      ∀ o ∈ (reduceMarket state event).effects, Quiet o := by
  have hlineup : state.status ≠ .pendingLineup := by
    rcases h.status with hstatus | hstatus <;> simp [hstatus]
  refine reduceMarket_cases (P := fun r => UnderReview r.state ∧ ∀ o ∈ r.effects, Quiet o)
    (fun _ => ⟨h, by simp⟩) (fun _ hwaiting => absurd hwaiting hlineup) (fun _ _ _ => ?_)
    fun hstaged => ?_
  · exact ⟨⟨rfl, .inl rfl⟩, by simp [voidMarket, Quiet]⟩
  · rw [← hstaged.reduceMarket_eq]
    exact underReview_step h hstaged hleaves

/-- Without a candidate a tick only matures positions. -/
theorem underReview_checkDebounce (h : UnderReview state) (nowMs : Int) :
    UnderReview (checkDebounce state nowMs).state ∧
      ∀ o ∈ (checkDebounce state nowMs).effects, Quiet o := by
  have hmature : UnderReview (maturePositions state nowMs).state ∧
      ∀ o ∈ (maturePositions state nowMs).effects, Quiet o := by
    unfold maturePositions
    dsimp only
    split_ifs
    · exact ⟨h, by simp⟩
    · exact ⟨⟨h.pending, h.status⟩, by simp [Quiet]⟩
  have hopen : debounceElapsed (maturePositions state nowMs).state nowMs = false := by
    simp [debounceElapsed, hmature.1.pending]
  unfold checkDebounce
  split
  · exact ⟨h, by simp⟩
  · simpa [hopen] using hmature

theorem underReview_marketStep (state : MarketState) (input : MarketInput) (h : UnderReview state)
    (hleaves : LeavesReview state input) :
    UnderReview (marketStep state input).1 ∧ ∀ o ∈ (marketStep state input).2, Quiet o := by
  cases input with
  | event event => exact underReview_reduceMarket h hleaves
  | tick nowMs => exact underReview_checkDebounce h nowMs

/-- A processed VAR check freezes the market for it. -/
theorem underReview_varCheck (h : state.Coherent) (hlineup : state.status ≠ .pendingLineup)
    (htaken : ignored state event = false) (hkind : event.kind = .varCheck) :
    UnderReview (reduceMarket state event).state ∧
      ∀ o ∈ (reduceMarket state event).effects, Quiet o := by
  by_cases hvoid : event.phase ∈ voidPhases ∨ event.kind = .coverageWarning
  · exact underReview_void htaken hlineup hvoid
  push Not at hvoid
  have hstaged : Staged state event := ⟨htaken, hlineup, hvoid.1, hvoid.2⟩
  have hhold : isHoldSignal event = true := by simp [isHoldSignal, hkind]
  have hreason : holdReasonFor event = .var := by simp [holdReasonFor, hkind]
  have hquiet := quiet_cutoffStage state event
  have hfreeze : Quiet (.freeze .var) := by simp [Quiet]
  have happend : ∀ o ∈ (cutoffStage state event).effects ++ [.freeze .var], Quiet o := by
    intro o ho
    obtain ho | ho := List.mem_append.mp ho
    · exact hquiet o ho
    · obtain rfl := List.mem_singleton.mp ho
      exact hfreeze
  have hledger : (ledgerStage state event (advance (scratchOf state) event)).Coherent :=
    coherent_advance event h
  obtain ⟨hcoherent, hlive⟩ := coherent_applyCutoff event hledger (live_of_taken htaken hlineup)
  rw [hstaged.reduceMarket_eq, settlementStage]
  split
  · -- without a candidate the market is open or frozen
    next hnone =>
    have hnotSettling : (cutoffStage state event).state.status ≠ .settling := fun hsettling =>
      absurd (hcoherent.settling.mp hsettling) (by
        rw [← cutoffStage, hnone]
        simp)
    simp only [signalStage, hhold, if_true, applyHold, hreason]
    split_ifs with hopen
    · exact ⟨⟨hnone, .inr ⟨rfl, rfl⟩⟩, happend⟩
    · have hfrozen : (cutoffStage state event).state.status = .frozen := by
        rcases hlive with hstatus | hstatus | hstatus
        · exact absurd hstatus hopen
        · exact hstatus
        · exact absurd hstatus hnotSettling
      exact ⟨⟨hnone, .inr ⟨hfrozen, rfl⟩⟩, hquiet⟩
  · simp only [hhold, if_true, cancelCandidate, hreason]
    exact ⟨⟨rfl, .inr ⟨rfl, rfl⟩⟩, happend⟩

/-- From a processed VAR check on, and until it is answered, no candidate is armed,
nothing is settled and the market is not opened, as long as no other hold signal
is processed. -/
theorem var_check_holds {start : MarketState} (hstart : Starting start)
    (hopen : start.status = .open) (pre : List MarketInput) (event : MatchEvent)
    (htaken : ignored (marketRun start pre).1 event = false) (hkind : event.kind = .varCheck)
    (post : List MarketInput)
    (hleaves : Along marketStep LeavesReview (marketStep (marketRun start pre).1 (.event event)).1
      post) :
    (marketRun start (pre ++ .event event :: post)).1.pendingSettlement = none ∧
      (marketRun start (pre ++ .event event :: post)).1.status ≠ .open ∧
      ∀ effect ∈ (marketRun (marketRun start pre).1 (.event event :: post)).2, Quiet effect := by
  have hlineup : (marketRun start pre).1.status ≠ .pendingLineup := fun h => by
    have hwaiting := pendingLineup_of_marketRun h
    rw [hopen] at hwaiting
    contradiction
  obtain ⟨hreview, hquiet⟩ := underReview_varCheck (marketRun_coherent hstart.coherent pre) hlineup
    htaken hkind
  obtain ⟨hfinal, hrest⟩ := execute_safe underReview_marketStep hreview hleaves
  rw [marketRun_append]
  refine ⟨hfinal.pending, ?_, fun effect heffect => ?_⟩
  · have hstatus : (marketRun (reduceMarket (marketRun start pre).1 event).state post).1.status ≠
        .open := by
      rcases hfinal.status with hstatus | hstatus
      · exact fun h => absurd (hstatus.symm.trans h) (by simp)
      · exact fun h => absurd (hstatus.1.symm.trans h) (by simp)
    exact hstatus
  · obtain heffect | heffect := List.mem_append.mp heffect
    · exact hquiet effect heffect
    · exact hrest effect heffect

private theorem sample_starting : Starting (Sample.market Sample.twoGoals []) :=
  ⟨.inl (by decide), by decide, by decide, by decide⟩

/-- A second goal during a VAR check does not arm a candidate. -/
theorem goal_during_review :
    (marketRun (Sample.market Sample.twoGoals [])
      ([] ++ .event (Sample.feedEvent .varCheck 1 .h1 1) ::
      [.event (Sample.feedEvent .goal 2 .h1 2), .tick 1000000])).1.pendingSettlement = none :=
  (var_check_holds sample_starting (by decide) [] (Sample.feedEvent .varCheck 1 .h1 1) (by decide)
    (by decide) [.event (Sample.feedEvent .goal 2 .h1 2), .tick 1000000]
    ⟨fun _ => by decide, trivial, trivial⟩).1

/-- An odds suspension during a VAR check hides it, and the next goal arms a
candidate although the check was never answered. -/
theorem review_hidden_by_suspension :
    let start := Sample.market Sample.twoGoals []
    let check := Sample.feedEvent .varCheck 1 .h1 1
    let suspension := Sample.feedEvent .oddsSuspension 900000 .h1 1
    let goal := Sample.feedEvent .goal 2 .h1 2
    Starting start ∧ start.status = .open ∧ ignored start check = false ∧
      check.kind = .varCheck ∧
      (∀ event ∈ [suspension, goal], event.kind ≠ .varEnd ∧ isReversal event = false) ∧
      (marketRun start [.event check, .event suspension, .event goal]).1.pendingSettlement.isSome =
        true :=
  ⟨sample_starting, by decide, by decide, by decide, by decide, by decide +kernel⟩

end CalledIt.Engine
