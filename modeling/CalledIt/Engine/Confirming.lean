import CalledIt.Engine.Deciding

/-!
# CalledIt.Engine.Confirming

The event that confirms a candidate is not asked what it says itself: the market is
settled on the outcome at the deciding event.

The two agree, or the confirming event leaves the claim open, as long as the
tallies the claim counts do not fall, and stand still once its period is complete
(`evaluateSpec_steady`, `confirmed_outcome`).
-/

namespace CalledIt.Engine

open Lib

/-! ## steady tallies -/

/-- The tallies a claim is decided by, missing where the feed does not say. -/
def tallies (spec : MarketSpec) (score : ScoreState) (phase : GamePhase)
    (playerGoals : Option Nat) : List (Option Nat) :=
  let goals := fun participant => goalsForPeriod score participant spec.period phase
  match spec.claimType with
  | .matchWinner | .comeback | .btts => [goals .one, goals .two]
  | .totalsOu => [do return (← goals .one) + (← goals .two)]
  | .teamScoresN => [do goals (← spec.entityRef.participant)]
  | .playerScoresN => [playerGoals]

/-- A tally that does not fall, and stands still if the period is complete. -/
def Steady (complete : Bool) (before after : Option Nat) : Prop :=
  ∀ m ∈ before, ∀ n ∈ after, m ≤ n ∧ (complete = true → n = m)

variable {outcome : SettlementOutcome}

/-- A decided tally stays decided the same way, or is open again. -/
theorem compareTally_steady {comparator : Comparator} {threshold : ℚ} {m n : Nat}
    {complete complete' : Bool} (h : compareTally m comparator threshold complete = some outcome)
    (hle : m ≤ n) (hsame : complete = true → n = m) :
    compareTally n comparator threshold complete' = none ∨
      compareTally n comparator threshold complete' = some outcome := by
  have hcast : (m : ℚ) ≤ n := by exact_mod_cast hle
  cases complete with
  | true =>
      obtain rfl := hsame rfl
      unfold compareTally at h ⊢
      cases comparator <;> cases complete' <;> simp_all <;> split_ifs at h ⊢ <;> simp_all
  | false =>
      unfold compareTally at h ⊢
      cases comparator with
      | gte =>
          simp only [Bool.false_eq_true, if_false] at h
          split at h
          · next hm =>
            right
            dsimp only
            rw [if_pos (ge_iff_le.mpr (hm.le.trans hcast)), h]
          · contradiction
      | lte =>
          simp only [Bool.false_eq_true, if_false] at h
          split at h
          · next hm =>
            right
            dsimp only
            rw [if_pos (gt_iff_lt.mpr (lt_of_lt_of_le hm hcast)), h]
          · contradiction
      | eq =>
          simp only [Bool.not_false, if_true] at h
          split at h
          · next hm =>
            right
            dsimp only
            rw [if_pos (gt_iff_lt.mpr (lt_of_lt_of_le hm hcast)), h]
          · contradiction

variable {phase phase' : GamePhase}

/-- Level sides are open again only where penalties may still decide. -/
theorem compareGoals_phase {period : Period} {mine theirs : Nat}
    (h : compareGoals period phase mine theirs = some outcome) :
    compareGoals period phase' mine theirs = none ∨
      compareGoals period phase' mine theirs = some outcome := by
  unfold compareGoals at h ⊢
  split_ifs at h ⊢ <;> simp_all

theorem bttsOutcome_steady {g1 g2 h1 h2 : Option Nat} {complete complete' : Bool}
    (h : bttsOutcome g1 g2 complete = some outcome) (hsteady1 : Steady complete g1 h1)
    (hsteady2 : Steady complete g2 h2) :
    bttsOutcome h1 h2 complete' = none ∨ bttsOutcome h1 h2 complete' = some outcome := by
  unfold bttsOutcome at h ⊢
  cases g1 with
  | none => simp at h
  | some a =>
  cases g2 with
  | none => simp at h
  | some b =>
  cases h1 with
  | none => simp
  | some c =>
  cases h2 with
  | none => simp
  | some d =>
      obtain ⟨hac, hca⟩ := hsteady1 a rfl c rfl
      obtain ⟨hbd, hdb⟩ := hsteady2 b rfl d rfl
      dsimp only at h ⊢
      split at h
      · next hboth =>
        right
        rw [if_pos ⟨hboth.1.trans hac, hboth.2.trans hbd⟩, h]
      · next hnot =>
        cases complete with
        | false => simp at h
        | true =>
            obtain rfl := hca rfl
            obtain rfl := hdb rfl
            rw [if_neg hnot]
            cases complete' with
            | false => simp
            | true => exact .inr (by simpa using h)

variable {spec : MarketSpec}

theorem winnerOutcome_steady {score score' : ScoreState}
    (h : winnerOutcome spec score phase = some outcome)
    (hsteady : ∀ participant, Steady (isPeriodComplete spec.period phase)
      (goalsForPeriod score participant spec.period phase)
      (goalsForPeriod score' participant spec.period phase')) :
    winnerOutcome spec score' phase' = none ∨ winnerOutcome spec score' phase' = some outcome := by
  unfold winnerOutcome at h ⊢
  split at h
  · contradiction
  next hcomplete =>
  simp only [Bool.not_eq_true, Bool.not_eq_false'] at hcomplete
  simp only [Option.bind_eq_bind, Option.bind_eq_some_iff] at h
  obtain ⟨mine, hmine, gMine, hgMine, gTheirs, hgTheirs, hcompare⟩ := h
  split
  · exact .inl rfl
  · simp only [hmine, Option.bind_eq_bind, Option.bind_some]
    cases hgMine' : goalsForPeriod score' mine spec.period phase' with
    | none => exact .inl rfl
    | some gMine' =>
    cases hgTheirs' : goalsForPeriod score' mine.other spec.period phase' with
    | none => exact .inl rfl
    | some gTheirs' =>
        obtain rfl := (hsteady mine gMine hgMine gMine' hgMine').2 hcomplete
        obtain rfl := (hsteady mine.other gTheirs hgTheirs gTheirs' hgTheirs').2 hcomplete
        simp only [Option.bind_some]
        exact compareGoals_phase hcompare

/-- A claim that is decided at one event is decided the same way at another, or open
there, if its tallies are steady. -/
theorem evaluateSpec_steady {score score' : ScoreState} {playerGoals playerGoals' : Option Nat}
    (hphase : phase ∉ voidPhases) (hphase' : phase' ∉ voidPhases)
    (h : evaluateSpec spec score phase playerGoals = some outcome)
    (hsteady : List.Forall₂ (Steady (isPeriodComplete spec.period phase))
      (tallies spec score phase playerGoals) (tallies spec score' phase' playerGoals')) :
    evaluateSpec spec score' phase' playerGoals' = none ∨
      evaluateSpec spec score' phase' playerGoals' = some outcome := by
  have hwinner : List.Forall₂ (Steady (isPeriodComplete spec.period phase))
      [goalsForPeriod score .one spec.period phase, goalsForPeriod score .two spec.period phase]
      [goalsForPeriod score' .one spec.period phase',
        goalsForPeriod score' .two spec.period phase'] →
      winnerOutcome spec score phase = some outcome →
      winnerOutcome spec score' phase' = none ∨
        winnerOutcome spec score' phase' = some outcome := by
    intro hboth hdecided
    simp only [List.forall₂_cons, List.forall₂_nil_left_iff, and_true] at hboth
    refine winnerOutcome_steady hdecided fun participant => ?_
    cases participant
    · exact hboth.1
    · exact hboth.2
  -- a claim on one tally, wherever the tally comes from
  have htally : ∀ before after : Option Nat,
      Steady (isPeriodComplete spec.period phase) before after →
      (before.bind fun m => compareTally m spec.comparator spec.threshold
        (isPeriodComplete spec.period phase)) = some outcome →
      (after.bind fun n => compareTally n spec.comparator spec.threshold
        (isPeriodComplete spec.period phase')) = none ∨
      (after.bind fun n => compareTally n spec.comparator spec.threshold
        (isPeriodComplete spec.period phase')) = some outcome := by
    intro before after hsteady hdecided
    obtain ⟨m, rfl, hdecided⟩ := Option.bind_eq_some_iff.mp hdecided
    cases after with
    | none => exact .inl rfl
    | some n =>
        obtain ⟨hle, hsame⟩ := hsteady m rfl n rfl
        exact compareTally_steady hdecided hle hsame
  unfold evaluateSpec at h ⊢
  rw [if_neg hphase] at h
  rw [if_neg hphase']
  unfold tallies at hsteady
  cases hclaim : spec.claimType <;> simp only [hclaim] at h hsteady ⊢
  · exact hwinner hsteady h
  · simp only [List.forall₂_cons, List.forall₂_nil_left_iff, and_true] at hsteady
    have hagree := htally _ _ hsteady
    simp only [Option.bind_eq_bind, Option.pure_def, Option.bind_assoc, Option.bind_some]
      at hagree h ⊢
    exact hagree h
  · simp only [List.forall₂_cons, List.forall₂_nil_left_iff, and_true] at hsteady
    have hagree := htally _ _ hsteady
    simp only [Option.bind_eq_bind, Option.bind_assoc] at hagree h ⊢
    exact hagree h
  · simp only [List.forall₂_cons, List.forall₂_nil_left_iff, and_true] at hsteady
    exact bttsOutcome_steady h hsteady.1 hsteady.2
  · simp only [List.forall₂_cons, List.forall₂_nil_left_iff, and_true] at hsteady
    exact htally _ _ hsteady h
  · exact hwinner hsteady h

/-! ## every run -/

/-- The tallies at an event, with the ledger's tally for a player claim. -/
def talliesAt (scratch : ReducerScratch) (spec : MarketSpec) (event : MatchEvent) :
    List (Option Nat) :=
  tallies spec event.score event.phase
    (if spec.claimType = .playerScoresN then some (playerGoalCount scratch spec) else none)

theorem outcomeAt_steady {scratch scratch' : ReducerScratch} {event event' : MatchEvent}
    (hphase : event.phase ∉ voidPhases) (hphase' : event'.phase ∉ voidPhases)
    (h : outcomeAt scratch spec event = some outcome)
    (hsteady : List.Forall₂ (Steady (isPeriodComplete spec.period event.phase))
      (talliesAt scratch spec event) (talliesAt scratch' spec event')) :
    outcomeAt scratch' spec event' = none ∨ outcomeAt scratch' spec event' = some outcome :=
  evaluateSpec_steady hphase hphase' h hsteady

/-- An event that settles a market settles it on the outcome at its deciding event.
At the confirming event itself the claim is open, or decided the same way, if its
tallies are steady from the one to the other. -/
theorem confirmed_outcome {start : MarketState} (hstart : Starting start)
    (inputs : List MarketInput) (state : MarketState) (hstate : state = (marketRun start inputs).1)
    (event : MatchEvent) {outcome : SettlementOutcome} {decidingSeq : Nat}
    {evidenceSeqs : List Nat}
    (hsettle : .settle outcome decidingSeq evidenceSeqs ∈ (reduceMarket state event).effects) :
    ∃ pre deciding mid, inputs = pre ++ .event deciding :: mid ∧
      ignored (marketRun start pre).1 deciding = false ∧ deciding.seq = decidingSeq ∧
      outcomeAt (scratchOf state) state.spec deciding = some outcome ∧
      (List.Forall₂ (Steady (isPeriodComplete state.spec.period deciding.phase))
          (talliesAt (scratchOf state) state.spec deciding)
          (talliesAt (scratchOf (reduceMarket state event).state) state.spec event) →
        outcomeAt (scratchOf (reduceMarket state event).state) state.spec event = none ∨
          outcomeAt (scratchOf (reduceMarket state event).state) state.spec event =
            some outcome) := by
  obtain ⟨hstaged, -, -, ⟨candidate, hpending, houtcome, hseq, -⟩, -⟩ :=
    settle_of_reduceMarket hsettle
  rw [hstate] at hpending
  obtain ⟨pre, deciding, mid, hinputs, hdecides, hwaits⟩ := exists_deciding hstart inputs hpending
  obtain ⟨positions, hwaiting⟩ := hwaits.state
  have hsame :
      state = { (reduceMarket (marketRun start pre).1 deciding).state with positions } := by
    rw [hstate, hinputs, marketRun_append, hwaiting]
  have hspec : state.spec = (marketRun start pre).1.spec := by
    rw [hsame, hdecides.staged.reduceMarket_eq, spec_settlementStage, spec_cutoffStage]
  have hscratch : scratchOf state =
      scratchOf (reduceMarket (marketRun start pre).1 deciding).state := by
    rw [hsame]
    rfl
  have hdecided : outcomeAt (scratchOf state) state.spec deciding = some outcome := by
    rw [hscratch, hspec, hdecides.armed.outcome, houtcome]
  exact ⟨pre, deciding, mid, hinputs, hdecides.staged.taken,
    by rw [← hdecides.armed.sequence, hseq], hdecided,
    fun hsteady => outcomeAt_steady hdecides.staged.phase hstaged.phase hdecided hsteady⟩

/-- The event after the second goal settles the market on that goal. -/
theorem confirmed_outcome_second_goal :
    ∃ pre deciding mid, [.event (Sample.feedEvent .goal 1 .h1 2)] = pre ++ .event deciding :: mid ∧
      ignored (marketRun (Sample.market Sample.twoGoals []) pre).1 deciding = false ∧
      deciding.seq = 1 := by
  obtain ⟨pre, deciding, mid, hinputs, htaken, hseq, -⟩ :=
    confirmed_outcome (show Starting (Sample.market Sample.twoGoals []) from
      ⟨.inl (by decide), by decide, by decide, by decide⟩)
      [.event (Sample.feedEvent .goal 1 .h1 2)] _ rfl (Sample.feedEvent .statUpdate 2 .h1 2)
      (show MarketEffect.settle .claimWon 1 [1] ∈ _ by decide +kernel)
  exact ⟨pre, deciding, mid, hinputs, htaken, hseq⟩

/-- Full time with one goal decides against two goals; the late goal that follows
confirms that, although the claim is won at it. -/
theorem late_goal_confirms_lost :
    let start := Sample.market Sample.twoGoals []
    let state := (marketRun start [.event (Sample.feedEvent .phaseChange 1 .f 1)]).1
    let goal := Sample.feedEvent .goal 2 .f 2
    Starting start ∧ state.status = .settling ∧ isHoldSignal goal = false ∧
      isReversal goal = false ∧ goal.confirmed = true ∧
      .settle .claimLost 1 [1] ∈ (reduceMarket state goal).effects ∧
      outcomeAt (scratchOf (reduceMarket state goal).state) state.spec goal = some .claimWon :=
  ⟨⟨.inl (by decide), by decide, by decide, by decide⟩, by decide +kernel, by decide, by decide,
    by decide, by decide +kernel, by decide +kernel⟩

end CalledIt.Engine
