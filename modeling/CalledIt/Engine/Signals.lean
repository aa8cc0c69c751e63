import CalledIt.Engine.Steps
import CalledIt.Engine.Scheduler
import CalledIt.Signer.Verifier

/-!
# CalledIt.Engine.Signals

Which freezes, unfreezes and voids of the engine a signer accepts.

The policy is written three times: the reducer decides when to emit an effect,
the scheduler gives a void its reason, and the signer checks the event again with
predicates of its own.  They agree on every event but two
(`signals_agree_iff`): a cutoff that a late phase alone triggers is no freeze
signal to the signer, and a market voided because the lineup never named its
player has no void reason there.
-/

namespace CalledIt.Engine

open Escrow (VoidReason)

/-! ## effects of the stages -/

variable {positions : List Position} {x : MarketEffect}

theorem mem_movePending {p : Position → Bool} {target : PositionState}
    {effect : List String → MarketEffect}
    (h : x ∈ (movePending positions p target effect).2) : ∃ ids, x = effect ids := by
  unfold movePending at h
  dsimp only at h
  split at h
  · simp at h
  · exact ⟨_, List.mem_singleton.mp h⟩

/-- The effects a signer is asked about. -/
def MarketEffect.isSignal : MarketEffect → Bool
  | .freeze _ | .unfreeze | .void _ => true
  | _ => false

variable {event : MatchEvent}

theorem isSignal_guards {isReplay : Bool}
    (h : x ∈ (applyPositionGuards positions event isReplay).2) :
    x.isSignal = false := by
  simp only [applyPositionGuards, List.mem_append] at h
  rcases h with h | h
  · obtain ⟨ids, rfl⟩ := mem_movePending h
    rfl
  · obtain ⟨ids, rfl⟩ := mem_movePending h
    rfl

theorem isSignal_activate
    (h : x ∈ (activateRemainingPending positions).2) : x.isSignal = false := by
  obtain ⟨ids, rfl⟩ := mem_movePending h
  rfl

variable {stage : Stage}

/-- Why a stage may emit a signal. -/
inductive Justified (spec : MarketSpec) (event : MatchEvent) : MarketEffect → Prop
  | freeze {reason : FreezeReason} (hold : isHoldSignal event = true) :
      Justified spec event (.freeze reason)
  | unfreeze {scratch : ReducerScratch} (resolved : resolves scratch event = true) :
      Justified spec event .unfreeze
  | void {reason : String} {scratch : ReducerScratch} (terminal : event.phase ∈ terminalPhases)
      (undecided : outcomeAt scratch spec event = none) : Justified spec event (.void reason)

theorem mem_settlementStage (hphase : event.phase ∉ voidPhases) :
    ∀ x ∈ (settlementStage stage event).effects, x.isSignal →
      x ∈ stage.effects ∨ Justified stage.state.spec event x := by
  let Fine (effects : List MarketEffect) : Prop :=
    ∀ x ∈ effects, x.isSignal → x ∈ stage.effects ∨ Justified stage.state.spec event x
  have hsnoc {effects : List MarketEffect} {effect : MarketEffect} (h : Fine effects)
      (heffect : effect.isSignal → Justified stage.state.spec event effect) :
      Fine (effects ++ [effect]) := by
    intro x hx hsignal
    rcases List.mem_append.mp hx with hx | hx
    · exact h x hx hsignal
    · obtain rfl := List.mem_singleton.mp hx
      exact .inr (heffect hsignal)
  have hbase : Fine stage.effects := fun x hx _ => .inl hx
  have hrule : StageRule event (fun st => st.state.spec = stage.state.spec ∧ Fine st.effects)
      (fun r => Fine r.effects) :=
    { hold := fun h hhold => by
        unfold applyHold
        dsimp only
        split
        · exact hsnoc h.2 fun _ => .freeze hhold
        · exact h.2
      resolution := fun h => by
        refine ⟨(spec_applyResolution _ event).trans h.1, ?_⟩
        unfold applyResolution
        split_ifs with hresolves
        · exact h.2
        · exact hsnoc h.2 fun _ => .unfreeze hresolves
        · exact h.2
        · exact h.2
      void := fun h hwhy => hsnoc h.2 fun _ => by
        rcases hwhy with hvoid | ⟨hnone, hterminal⟩
        · exact absurd hvoid (evaluateSpec_ne_void hphase)
        · exact .void hterminal (h.1 ▸ hnone)
      arm := fun h _ _ _ _ => h.2
      reprice := fun h => by
        unfold applyReprice
        split
        · exact hsnoc h.2 fun hsignal => by cases hsignal
        · exact h.2 }
  refine hrule.settlement (fun _ => ⟨rfl, hbase⟩) (fun hhold => hsnoc hbase fun _ => .freeze hhold)
    ⟨rfl, hbase⟩ fun pending hpending => ?_
  simp only [settleNow, hpending]
  refine hsnoc (fun x hx hsignal => ?_) fun hsignal => by cases hsignal
  rcases List.mem_append.mp hx with hx | hx
  · exact .inl hx
  · rw [isSignal_activate hx] at hsignal
    contradiction

/-- No later stage takes an effect back. -/
theorem subset_settlementStage (stage : Stage) (event : MatchEvent) :
    stage.effects ⊆ (settlementStage stage event).effects := by
  have hsnoc {effects : List MarketEffect} (effect : MarketEffect) (h : stage.effects ⊆ effects) :
      stage.effects ⊆ effects ++ [effect] := List.Subset.trans h (List.subset_append_left _ _)
  have hrule : StageRule event (stage.effects ⊆ ·.effects) (stage.effects ⊆ ·.effects) :=
    { hold := fun h _ => by unfold applyHold; dsimp only; split; exacts [hsnoc _ h, h]
      resolution := fun h => by
        unfold applyResolution
        split_ifs
        exacts [h, hsnoc _ h, h, h]
      void := fun h _ => hsnoc _ h
      arm := fun h _ _ _ _ => h
      reprice := fun h => by unfold applyReprice; split; exacts [hsnoc _ h, h] }
  refine hrule.settlement (fun _ => List.Subset.refl _) (fun _ => hsnoc _ (List.Subset.refl _))
    (List.Subset.refl _) fun pending hpending => ?_
  simp only [settleNow, hpending, List.append_assoc]
  exact List.subset_append_left _ _

/-! ## signals of the reducer -/

/-- A claim's entity is a player exactly when the claim is about a player's
goals, as every compiled claim's is. -/
def MarketSpec.WellFormed (spec : MarketSpec) : Prop :=
  spec.claimType = .playerScoresN ↔ spec.entityRef.playerId.isSome = true

/-- The signer accepts every signal of a step. -/
structure SignalsAgree (spec : MarketSpec) (goals : List StandingGoal) (state : MarketState)
    (event : MatchEvent) : Prop where
  freeze : ∀ reason, .freeze reason ∈ (reduceMarket state event).effects →
    Signer.freezeSignal spec event = true
  unfreeze : .unfreeze ∈ (reduceMarket state event).effects →
    Signer.unfreezeSignal event = true
  void : ∀ reason, .void reason ∈ (reduceMarket state event).effects →
    Signer.voidReason event (Signer.claimedOutcome spec event goals) =
      some (Scheduler.voidReason event)

/-- A late phase alone closes staking: the minute is missing or early, the claim
is on no player, and the event itself is nothing to freeze for. -/
structure LatePhaseCutoff (state : MarketState) (event : MatchEvent) : Prop where
  taken : ignored state event = false
  status : state.status = .open
  first : (scratchOf state).cutoffReached = false
  covered : event.kind ≠ .coverageWarning
  late : event.phase ∈ lateCutoffPhases
  minute : minuteReached event = false
  claim : state.spec.claimType ≠ .playerScoresN
  still : isPriceMoving event = false
  held : isHoldSignal event = false

/-- Play goes on without the lineup having named the player. -/
structure LineupMissed (state : MarketState) (event : MatchEvent) : Prop where
  taken : ignored state event = false
  status : state.status = .pendingLineup
  covered : event.kind ≠ .coverageWarning
  inplay : event.phase ∈ inplayPhases
  unnamed : namesPlayer state.spec event = false

/-! ### the signer's predicates -/

theorem priceMoving_eq (event : MatchEvent) : Signer.priceMoving event = isPriceMoving event := by
  unfold Signer.priceMoving isPriceMoving
  cases event.confirmed <;> cases event.kind <;> simp

theorem minuteFrom85_eq (event : MatchEvent) :
    Signer.minuteFrom85 event = minuteReached event := by
  unfold Signer.minuteFrom85 minuteReached
  rfl

variable {spec : MarketSpec}

/-- The signer's freeze signal, in the reducer's predicates. -/
theorem freezeSignal_iff :
    Signer.freezeSignal spec event = true ↔
      isPriceMoving event = true ∨ isHoldSignal event = true ∨ minuteReached event = true ∨
      (spec.claimType = .playerScoresN ∧ event.phase ≠ .ns) := by
  unfold Signer.freezeSignal isHoldSignal
  rw [priceMoving_eq, minuteFrom85_eq]
  simp only [decide_eq_true_eq]
  tauto

theorem unfreezeSignal_of_resolves {scratch : ReducerScratch}
    (h : resolves scratch event = true) : Signer.unfreezeSignal event = true := by
  unfold resolves isReversal at h
  unfold Signer.unfreezeSignal
  simp only [decide_eq_true_eq] at h ⊢
  tauto

theorem voidReason_of_voided (outcome : Option SettlementOutcome)
    (h : event.phase ∈ voidPhases ∨ event.kind = .coverageWarning) :
    Signer.voidReason event outcome = some (Scheduler.voidReason event) := by
  unfold Signer.voidReason Scheduler.voidReason
  split_ifs with hcan habd hcov hpost hundecided
  · rfl
  · rfl
  · rfl
  · rfl
  · rfl
  · -- the four void phases are the four cases above
    push Not at hcov
    rcases h with h | h
    · revert h hcan habd hcov hpost
      cases event.phase <;> simp [voidPhases]
    · exact absurd h hcov.2

theorem voidReason_of_undecided (hphase : event.phase ∈ inplayPhases)
    (hcovered : event.kind ≠ .coverageWarning) (outcome : Option SettlementOutcome) :
    Signer.voidReason event outcome = some (Scheduler.voidReason event) ↔
      event.phase ∈ terminalPhases ∧ outcome = none := by
  have hnot : event.phase ≠ .can ∧ event.phase ≠ .abd ∧ event.phase ≠ .covLost ∧
      event.phase ≠ .post := by
    revert hphase
    cases event.phase <;> simp [inplayPhases]
  have hreason : Scheduler.voidReason event = .undecidable := by
    simp [Scheduler.voidReason, hnot, hcovered]
  rw [hreason]
  simp only [Signer.voidReason, hnot, hcovered, if_false, or_self]
  split <;> simp_all

/-! ### one step -/

variable {state : MarketState}

/-- The one signal that the cutoff adds. -/
theorem mem_cutoffStage (hsignal : x.isSignal = true) :
    x ∈ (cutoffStage state event).effects ↔
      x = .freeze .cutoff ∧ state.status = .open ∧ (scratchOf state).cutoffReached = false ∧
        cutoffTriggered state.spec event = true := by
  have hguards : x ∉ (ledgerStage state event (advance (scratchOf state) event)).effects := by
    intro hx
    rw [isSignal_guards hx] at hsignal
    contradiction
  have hreached :
      (ledgerStage state event (advance (scratchOf state) event)).scratch.cutoffReached =
      (scratchOf state).cutoffReached := cutoffReached_advance _ _
  have hspec : (ledgerStage state event (advance (scratchOf state) event)).state.spec =
      state.spec := rfl
  have hstatus : (ledgerStage state event (advance (scratchOf state) event)).state.status =
      state.status := rfl
  unfold cutoffStage applyCutoff
  rw [hreached, hspec, hstatus]
  split
  · next htriggered =>
    rw [Bool.not_eq_true'] at htriggered
    split
    · next hopen =>
      rw [List.mem_append, List.mem_singleton, or_iff_right hguards]
      exact ⟨fun h => ⟨h, hopen, htriggered.2, htriggered.1⟩, fun h => h.1⟩
    · next hopen => exact ⟨fun h => absurd h hguards, fun h => absurd h.2.1 hopen⟩
  · next htriggered =>
    refine ⟨fun h => absurd h hguards, fun h => absurd ⟨h.2.2.2, ?_⟩ htriggered⟩
    rw [h.2.2.1]
    rfl

/-- A cutoff is a freeze signal unless a late phase alone triggers it. -/
theorem freezeSignal_of_cutoff (h : Staged state event) (hopen : state.status = .open)
    (hfirst : (scratchOf state).cutoffReached = false)
    (htriggered : cutoffTriggered state.spec event = true)
    (hclaim : spec.claimType = state.spec.claimType)
    (hlate : ¬ LatePhaseCutoff state event) : Signer.freezeSignal spec event = true := by
  rw [freezeSignal_iff, hclaim]
  by_contra hnone
  push Not at hnone
  obtain ⟨hstill, hheld, hminute, hplayer⟩ := hnone
  unfold cutoffTriggered at htriggered
  rw [if_neg hminute] at htriggered
  by_cases hphase : event.phase ∈ lateCutoffPhases
  · have hns : event.phase ≠ .ns := by
      rintro heq
      rw [heq] at hphase
      contradiction
    exact hlate ⟨h.taken, hopen, hfirst, h.covered, hphase, by simpa using hminute,
      fun hp => hns (hplayer hp), by simpa using hstill, by simpa using hheld⟩
  · rw [if_neg hphase, decide_eq_true_eq] at htriggered
    have hns := hplayer htriggered.1
    rw [hns] at htriggered
    exact absurd htriggered.2 (by decide)

/-- An outcome that stays open for the reducer stays open for the signer. -/
theorem claimedOutcome_of_undecided (hwell : spec.WellFormed) (hsame : SameClaim spec state.spec)
    (hterminal : event.phase ∈ terminalPhases) {scratch : ReducerScratch}
    (hnone : outcomeAt scratch state.spec event = none) (goals : List StandingGoal) :
    Signer.claimedOutcome spec event goals = none := by
  have hclaim : state.spec.claimType = spec.claimType := by
    obtain ⟨p, hp⟩ := hsame
    rw [hp]
  by_cases hplayer : spec.claimType = .playerScoresN
  · rw [outcomeAt, hclaim, if_pos hplayer] at hnone
    have hsome := isSome_evaluateSpec_player (hclaim.trans hplayer) event.score hterminal
      (playerGoalCount scratch state.spec)
    rw [hnone] at hsome
    contradiction
  · cases hentity : spec.entityRef with
    | player id name p =>
        exact absurd (hwell.mpr (by rw [hentity]; rfl)) hplayer
    | team p name =>
        rw [outcomeAt, hclaim, if_neg hplayer, hsame.eq_of_team hentity] at hnone
        have hgoals : Signer.playerGoals spec goals = none := by
          unfold Signer.playerGoals
          split
          · next h _ => exact absurd h hplayer
          · rfl
        rw [Signer.claimedOutcome, hgoals]
        exact hnone

/-- At the end of a match the signer decides every player's claim. -/
theorem claimedOutcome_ne_none (hwell : spec.WellFormed) (hclaim : spec.claimType = .playerScoresN)
    (hterminal : event.phase ∈ terminalPhases) (goals : List StandingGoal) :
    Signer.claimedOutcome spec event goals ≠ none := by
  have hid := hwell.mp hclaim
  cases hentity : spec.entityRef with
  | team p name =>
    rw [hentity] at hid
    contradiction
  | player id name p =>
    intro hnone
    simp only [Signer.claimedOutcome, Signer.playerGoals, hclaim, hentity] at hnone
    have hsome := isSome_evaluateSpec_player hclaim event.score hterminal
      (goals.filter fun goal => goal.playerNormativeId = some id ∧ !goal.ownGoal ∧
        goal.phase ≠ .pe ∧
        (spec.period = .ft ∨ goal.phase = .h1 ∨ goal.phase = .ht ∨ goal.phase = .h2)).length
    rw [hnone] at hsome
    contradiction

/-- Without a signal there is nothing to reject. -/
theorem signalsAgree_of_none {goals : List StandingGoal}
    (h : ∀ x ∈ (reduceMarket state event).effects, x.isSignal = false) :
    SignalsAgree spec goals state event where
  freeze _ hx := absurd (h _ hx) (by simp [MarketEffect.isSignal])
  unfreeze hx := absurd (h _ hx) (by simp [MarketEffect.isSignal])
  void _ hx := absurd (h _ hx) (by simp [MarketEffect.isSignal])

theorem signalsAgree_of_void {goals : List StandingGoal} {reason : String}
    (h : (reduceMarket state event).effects = [.void reason]) :
    SignalsAgree spec goals state event ↔
      Signer.voidReason event (Signer.claimedOutcome spec event goals) =
        some (Scheduler.voidReason event) := by
  constructor
  · intro hagree
    exact hagree.void reason (by simp [h])
  · intro hreason
    refine ⟨?_, ?_, ?_⟩
    · intro r hr
      simp [h] at hr
    · intro hr
      simp [h] at hr
    · intro r hr
      exact hreason

/-- The signer agrees with every void of a market that has its lineup. -/
theorem voidReason_of_void_effect (hwell : spec.WellFormed) (hsame : SameClaim spec state.spec)
    (hlineup : state.status ≠ .pendingLineup) {reason : String}
    (h : .void reason ∈ (reduceMarket state event).effects) (goals : List StandingGoal) :
    Signer.voidReason event (Signer.claimedOutcome spec event goals) =
      some (Scheduler.voidReason event) := by
  by_cases hvoid : event.phase ∈ voidPhases ∨ event.kind = .coverageWarning
  · exact voidReason_of_voided _ hvoid
  · push Not at hvoid
    have htaken : ignored state event = false := by
      by_contra hignored
      rw [Bool.not_eq_false] at hignored
      rw [reduceMarket_of_ignored hignored] at h
      cases h
    have hstaged : Staged state event := ⟨htaken, hlineup, hvoid.1, hvoid.2⟩
    rw [hstaged.reduceMarket_eq] at h
    have hmem := mem_settlementStage hvoid.1 _ h rfl
    rw [spec_cutoffStage] at hmem
    rcases hmem with hcutoff | hjust
    · exact absurd ((mem_cutoffStage rfl).mp hcutoff).1 (by simp)
    · cases hjust with
      | void terminal undecided =>
        have hinplay : event.phase ∈ inplayPhases := by
          revert terminal
          cases event.phase <;> decide
        rw [voidReason_of_undecided hinplay hvoid.2]
        exact ⟨terminal, claimedOutcome_of_undecided hwell hsame terminal undecided goals⟩

theorem signals_staged {row : MarketState} (hwell : row.spec.WellFormed)
    (hsame : SameClaim row.spec state.spec) (h : Staged state event) (goals : List StandingGoal) :
    SignalsAgree row.spec goals state event ↔ ¬ LatePhaseCutoff state event := by
  have hclaim : row.spec.claimType = state.spec.claimType := by
    obtain ⟨p, hp⟩ := hsame
    rw [hp]
  have hmem : ∀ x ∈ (reduceMarket state event).effects, x.isSignal = true →
      x ∈ (cutoffStage state event).effects ∨ Justified state.spec event x := by
    intro x hx hsignal
    rw [h.reduceMarket_eq] at hx
    have hx := mem_settlementStage h.phase _ hx hsignal
    rwa [spec_cutoffStage] at hx
  constructor
  · rintro hagree hlate
    have hcutoff : .freeze .cutoff ∈ (cutoffStage state event).effects := by
      refine (mem_cutoffStage rfl).mpr ⟨rfl, hlate.status, hlate.first, ?_⟩
      simp [cutoffTriggered, hlate.late]
    have hfreeze := hagree.freeze .cutoff
      (by rw [h.reduceMarket_eq]; exact subset_settlementStage _ _ hcutoff)
    rw [freezeSignal_iff, hclaim] at hfreeze
    rcases hfreeze with hmove | hhold | hminute | hplayer
    · rw [hlate.still] at hmove
      contradiction
    · rw [hlate.held] at hhold
      contradiction
    · rw [hlate.minute] at hminute
      contradiction
    · exact hlate.claim hplayer.1
  · intro hlate
    refine ⟨?_, ?_, ?_⟩
    · intro reason hx
      rcases hmem _ hx rfl with hcutoff | hjust
      · obtain ⟨-, hopen, hfirst, htriggered⟩ := (mem_cutoffStage rfl).mp hcutoff
        exact freezeSignal_of_cutoff h hopen hfirst htriggered hclaim hlate
      · cases hjust with
        | freeze hold => exact freezeSignal_iff.mpr (.inr (.inl hold))
    · intro hx
      rcases hmem _ hx rfl with hcutoff | hjust
      · exact absurd ((mem_cutoffStage rfl).mp hcutoff).1 (by simp)
      · cases hjust with
        | unfreeze resolved => exact unfreezeSignal_of_resolves resolved
    · intro reason hx
      exact voidReason_of_void_effect hwell hsame h.lineup hx goals

theorem signals_pendingLineup {row : MarketState} (hwell : row.spec.WellFormed)
    (hclaim : row.spec.claimType = .playerScoresN) (htaken : ignored state event = false)
    (hstatus : state.status = .pendingLineup) (goals : List StandingGoal) :
    SignalsAgree row.spec goals state event ↔ ¬ LineupMissed state event := by
  have heq : reduceMarket state event =
      reducePendingLineup state event (advance (scratchOf state) event) := by
    unfold reduceMarket
    rw [htaken]
    simp only [Bool.false_eq_true, if_false, hstatus, if_true]
  unfold reducePendingLineup at heq
  dsimp only at heq
  split at heq
  · next hvoid =>
    rw [signalsAgree_of_void (by rw [heq]; rfl)]
    refine iff_of_true (voidReason_of_voided _ hvoid) fun hmissed => ?_
    rcases hvoid with hphase | hcovered
    · have hinplay := hmissed.inplay
      revert hphase hinplay
      cases event.phase <;> decide
    · exact hmissed.covered hcovered
  · next hvoid =>
    push Not at hvoid
    split at heq
    · next hnames =>
      refine iff_of_true (signalsAgree_of_none ?_) fun hmissed => ?_
      · intro x hx
        rw [heq] at hx
        rcases List.mem_append.mp hx with hx | hx
        · rw [List.mem_singleton.mp hx]
          rfl
        · exact isSignal_activate hx
      · rw [hmissed.unnamed] at hnames
        contradiction
    · next hnames =>
      split at heq
      · next hinplay =>
        rw [signalsAgree_of_void (by rw [heq]; rfl), voidReason_of_undecided hinplay hvoid.2]
        refine iff_of_false ?_ fun hmissed => hmissed ⟨htaken, hstatus, hvoid.2, hinplay, ?_⟩
        · rintro ⟨hterminal, hnone⟩
          exact claimedOutcome_ne_none hwell hclaim hterminal goals hnone
        · simpa using hnames
      · next hinplay =>
        refine iff_of_true (signalsAgree_of_none ?_) fun hmissed => hinplay hmissed.inplay
        intro x hx
        rw [heq] at hx
        cases hx

/-- The signer accepts every freeze, unfreeze and void of a reachable state,
except a cutoff that a late phase alone triggers and the void of a player whom
the lineup never named. -/
theorem signals_agree_iff {row state : MarketState} (hrow : Fresh row)
    (hwell : row.spec.WellFormed) (h : Reachable row state) (event : MatchEvent)
    (goals : List StandingGoal) :
    SignalsAgree row.spec goals state event ↔
      ¬ LatePhaseCutoff state event ∧ ¬ LineupMissed state event := by
  by_cases htaken : ignored state event = true
  · have heq : (reduceMarket state event).effects = [] := by
      rw [reduceMarket_of_ignored htaken]
    refine iff_of_true (signalsAgree_of_none (by simp [heq])) ⟨fun hlate => ?_, fun hmissed => ?_⟩
    · rw [hlate.taken] at htaken
      contradiction
    · rw [hmissed.taken] at htaken
      contradiction
  · rw [Bool.not_eq_true] at htaken
    by_cases hstatus : state.status = .pendingLineup
    · rw [signals_pendingLineup hwell (h.player_of_pendingLineup hrow hstatus) htaken hstatus goals]
      refine (and_iff_right fun hlate => ?_).symm
      rw [hlate.status] at hstatus
      contradiction
    · have hmissed : ¬ LineupMissed state event := fun hmissed => hstatus hmissed.status
      rw [and_iff_left hmissed]
      by_cases hvoid : event.phase ∈ voidPhases ∨ event.kind = .coverageWarning
      · have heq : (reduceMarket state event).effects = [.void (phaseVoidReason event.phase)] := by
          rw [reduceMarket_of_void htaken hstatus hvoid]
          rfl
        rw [signalsAgree_of_void heq]
        refine iff_of_true (voidReason_of_voided _ hvoid) fun hlate => ?_
        rcases hvoid with hphase | hcovered
        · have hlatePhase := hlate.late
          revert hphase hlatePhase
          cases event.phase <;> decide
        · exact hlate.covered hcovered
      · push Not at hvoid
        exact signals_staged hwell h.sameClaim ⟨htaken, hstatus, hvoid.1, hvoid.2⟩ goals

section Sample

/-- At least three goals in the match, open for staking. -/
private def totalsRow : MarketState :=
  createMarketFromClaim
    { claimType := .totalsOu
      fixtureId := 7
      entityRef := .team .one "home"
      comparator := .gte
      threshold := 3
      period := .ft
      anchor := none
      trustTier := .chainProven } .ns false

/-- The feed moves to a phase and gives no minute. -/
private def phaseEvent (phase : GamePhase) : MatchEvent where
  kind := .phaseChange
  fixtureId := 7
  seq := 4
  tsMs := 1000
  receivedAtMs := 2000
  confirmed := true
  phase
  minute := none
  score := ⟨⟨1, 0, 0, 0⟩, ⟨1, 0, 0, 0⟩, none, none⟩
  detail := none

private theorem totalsRow_wellFormed : totalsRow.spec.WellFormed := by
  constructor <;> intro h <;> cases h

theorem signals_agree_half_time :
    SignalsAgree totalsRow.spec [] totalsRow (phaseEvent .ht) := by
  refine (signals_agree_iff (fresh_createMarketFromClaim _ _ _) totalsRow_wellFormed .row
    (phaseEvent .ht) []).mpr ⟨?_, ?_⟩
  · rintro h
    exact absurd h.late (by decide)
  · rintro h
    exact absurd h.status (by decide)

/-- Extra time starts, the feed sends no minute: the reducer closes staking and
the signer sees nothing to freeze for. -/
theorem cutoff_of_extra_time_rejected :
    ¬ ∀ (row state : MarketState) (event : MatchEvent) (goals : List StandingGoal),
      Fresh row → row.spec.WellFormed → Reachable row state →
        SignalsAgree row.spec goals state event := by
  intro hagree
  have h := hagree totalsRow totalsRow (phaseEvent .et1) []
    (fresh_createMarketFromClaim _ _ _) totalsRow_wellFormed .row
  have haccepted := h.freeze .cutoff (by decide +kernel)
  revert haccepted
  decide

end Sample

end CalledIt.Engine
