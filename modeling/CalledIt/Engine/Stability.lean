import CalledIt.Engine.Winnable
import Mathlib.Logic.Relation

/-!
# CalledIt.Engine.Stability

What becomes of a decision along a match.

A reading shows how far play has come, or hides it while play is interrupted.  A claim about
the whole match is decided by tallies that only grow.  A claim about regulation is decided as
the tally at its end decides it (`evaluate_regulation`), unless an interruption of extra time
lets the goals scored since then cross its threshold: the predicate takes such an interruption
for one of regulation (`stable_iff`).
-/

namespace CalledIt.Engine

/-! ## courses -/

/-- What play goes on to. -/
def nextStages : GamePhase → List GamePhase
  | .ns => [.h1]
  | .h1 => [.ht]
  | .ht => [.h2]
  | .h2 => [.f, .et1]
  | .et1 => [.htet]
  | .htet => [.et2]
  | .et2 => [.fet, .pe]
  | .pe => [.fpe]
  | _ => []

/-- Play has gone on from the one to the other, or not at all. -/
def Later : GamePhase → GamePhase → Prop := Relation.ReflTransGen fun a b => b ∈ nextStages a

structure Reading where
  stage : GamePhase
  interrupted : Bool
  score : ScoreState
  /-- The tally that the caller keeps for the period of the claim. -/
  playerGoals : Option Nat

namespace Reading

/-- An interruption does not say at what stage it comes. -/
def phase (r : Reading) : GamePhase := if r.interrupted then .int else r.stage

def goals (r : Reading) (participant : Participant) : Nat := (r.score.team participant).goals

end Reading

/-- The tallies at the end of regulation. -/
structure Regulation where
  goals : Participant → Nat
  playerGoals : Nat

/-- A reading of a match with these tallies at the end of regulation.  From then on the feed
splits them out, or does not. -/
structure Legal (R : Regulation) (r : Reading) : Prop where
  stage : Later .ns r.stage
  interruption : r.interrupted = true → r.stage ∉ terminalPhases
  before : r.stage ∉ regulationCompletePhases →
    ∀ participant, r.goals participant ≤ R.goals participant
  after : r.stage ∈ regulationCompletePhases → ∀ participant,
    R.goals participant ≤ r.goals participant ∧
      (r.score.goals90 participant = none ∨
        r.score.goals90 participant = some (R.goals participant))
  ended : r.stage = .f → ∀ participant, r.goals participant = R.goals participant

/-- The player's goals in regulation, as the caller counts them. -/
structure Counted (R : Regulation) (r : Reading) : Prop where
  before : ∀ n ∈ r.playerGoals, n ≤ R.playerGoals
  after : r.stage ∈ regulationCompletePhases → ∀ n ∈ r.playerGoals, n = R.playerGoals

/-- The match goes on: no tally falls, and none grows once it has ended. -/
structure ReadAfter (r r' : Reading) : Prop where
  stage : Later r.stage r'.stage
  goals : ∀ participant, r.goals participant ≤ r'.goals participant
  playerGoals : ∀ n ∈ r.playerGoals, ∀ n' ∈ r'.playerGoals, n ≤ n'
  ended : r.stage ∈ terminalPhases → (∀ participant, r'.goals participant = r.goals participant) ∧
    ∀ n ∈ r.playerGoals, ∀ n' ∈ r'.playerGoals, n' = n

structure Course (period : Period) (R : Regulation) (readings : List Reading) : Prop where
  legal : ∀ r ∈ readings, Legal R r
  counted : period = .ft90 → ∀ r ∈ readings, Counted R r
  order : readings.Pairwise ReadAfter

/-! ## decisions -/

def evaluate (spec : MarketSpec) (r : Reading) : Option SettlementOutcome :=
  evaluateSpec spec r.score r.phase r.playerGoals

/-- What the predicate says of a match that ends with these tallies. -/
def regulationOutcome (spec : MarketSpec) (R : Regulation) : Option SettlementOutcome :=
  evaluateSpec spec (finalScore (R.goals .one) (R.goals .two)) .f (some R.playerGoals)

/-- Won stays won and lost stays lost. -/
def Stable (spec : MarketSpec) (readings : List Reading) : Prop :=
  readings.Pairwise fun r r' => ∀ outcome, outcome = .claimWon ∨ outcome = .claimLost →
    evaluate spec r = some outcome →
      evaluate spec r' = some outcome ∨ evaluate spec r' = none

/-- Goals after regulation decide no claim about regulation. -/
def DecidedInRegulation (spec : MarketSpec) (R : Regulation) (readings : List Reading) : Prop :=
  spec.period = .ft90 → ∀ r ∈ readings, r.stage ∈ regulationCompletePhases →
    ∀ outcome, evaluate spec r = some outcome → regulationOutcome spec R = some outcome

/-! ## goals that cross a threshold -/

/-- From one tally to the other, a claim becomes decided otherwise. -/
def Crosses (comparator : Comparator) (threshold : ℚ) (before now : Nat) : Prop :=
  match comparator with
  | .gte => (before : ℚ) < threshold ∧ threshold ≤ now
  | .lte => (before : ℚ) ≤ threshold ∧ threshold < now
  | .eq => (before : ℚ) = threshold ∧ threshold < now

/-- The goals since regulation bring the live tally where regulation did not. -/
def Carried (spec : MarketSpec) (R : Regulation) (r : Reading) : Prop :=
  match spec.claimType with
  | .totalsOu => Crosses spec.comparator spec.threshold (R.goals .one + R.goals .two)
      (r.goals .one + r.goals .two)
  | .teamScoresN => ∃ participant, spec.entityRef.participant = some participant ∧
      Crosses spec.comparator spec.threshold (R.goals participant) (r.goals participant)
  | .btts => (1 ≤ r.goals .one ∧ 1 ≤ r.goals .two) ∧ ¬ (1 ≤ R.goals .one ∧ 1 ≤ R.goals .two)
  | .matchWinner | .comeback | .playerScoresN => False

/-- An interruption of extra time or of the shootout. -/
def InterruptedLate (r : Reading) : Prop :=
  r.interrupted = true ∧ r.stage ∈ beyondRegulationPhases

variable {comparator : Comparator} {threshold : ℚ} {before now : Nat}

theorem lt_of_crosses (h : Crosses comparator threshold before now) : before < now := by
  have hlt : (before : ℚ) < now := by
    cases comparator with
    | gte => exact h.1.trans_le h.2
    | lte => exact h.1.trans_lt h.2
    | eq => exact h.1.trans_lt h.2
  exact_mod_cast hlt

theorem not_carried_of_le {spec : MarketSpec} {R : Regulation} {r : Reading}
    (h : ∀ participant, r.goals participant ≤ R.goals participant) : ¬ Carried spec R r := by
  unfold Carried
  intro hcarried
  cases hclaim : spec.claimType with
  | matchWinner | comeback | playerScoresN => simp [hclaim] at hcarried
  | totalsOu =>
      simp only [hclaim] at hcarried
      exact (lt_of_crosses hcarried).not_ge (Nat.add_le_add (h .one) (h .two))
  | teamScoresN =>
      simp only [hclaim] at hcarried
      obtain ⟨participant, -, hcrosses⟩ := hcarried
      exact (lt_of_crosses hcrosses).not_ge (h participant)
  | btts =>
      simp only [hclaim] at hcarried
      exact hcarried.2 ⟨hcarried.1.1.trans (h .one), hcarried.1.2.trans (h .two)⟩

/-- An open tally is decided as the final one, but where it crosses the threshold. -/
theorem crosses_iff :
    Crosses comparator threshold before now ↔
      ∃ outcome, compareTally now comparator threshold false = some outcome ∧
        compareTally before comparator threshold true ≠ some outcome := by
  cases comparator with
  | gte =>
      unfold Crosses compareTally
      by_cases hnow : (now : ℚ) ≥ threshold <;> by_cases hbefore : (before : ℚ) ≥ threshold <;>
        simp [hnow, hbefore]
      all_goals grind
  | lte =>
      unfold Crosses compareTally
      by_cases hnow : (now : ℚ) > threshold <;> by_cases hbefore : (before : ℚ) > threshold <;>
        simp [hnow, hbefore]
      all_goals grind
  | eq =>
      unfold Crosses compareTally
      by_cases hnow : (now : ℚ) > threshold <;> by_cases hbefore : (before : ℚ) > threshold <;>
        by_cases hsame : (before : ℚ) = threshold <;> simp [hnow, hbefore, hsame]

theorem compareTally_final (h : ¬ Crosses comparator threshold before now)
    {outcome : SettlementOutcome}
    (hnow : compareTally now comparator threshold false = some outcome) :
    compareTally before comparator threshold true = some outcome := by
  by_contra hother
  exact h (crosses_iff.mpr ⟨outcome, hnow, hother⟩)

/-- A tally that is decided early stays so as it grows. -/
theorem compareTally_mono {n n' : Nat} (hle : n ≤ n') {outcome : SettlementOutcome}
    (h : compareTally n comparator threshold false = some outcome) (complete : Bool) :
    compareTally n' comparator threshold complete = some outcome := by
  have hcast : (n : ℚ) ≤ n' := by exact_mod_cast hle
  unfold compareTally at h ⊢
  cases comparator with
  | gte =>
      by_cases hn : (n : ℚ) ≥ threshold
      · simpa [hn, le_trans hn hcast] using h
      · simp [hn] at h
  | lte =>
      by_cases hn : (n : ℚ) > threshold
      · simpa [hn, lt_of_lt_of_le hn hcast] using h
      · simp [hn] at h
  | eq =>
      by_cases hn : (n : ℚ) > threshold
      · simpa [hn, lt_of_lt_of_le hn hcast] using h
      · simp [hn] at h

theorem bttsOutcome_eq_some {g1 g2 : Nat} {outcome : SettlementOutcome}
    (h : bttsOutcome (some g1) (some g2) false = some outcome) :
    outcome = .claimWon ∧ 1 ≤ g1 ∧ 1 ≤ g2 := by
  unfold bttsOutcome at h
  by_cases hboth : g1 ≥ 1 ∧ g2 ≥ 1
  · simp only [hboth, and_self, if_true, Option.some.injEq] at h
    exact ⟨h.symm, hboth⟩
  · simp [hboth] at h

theorem bttsOutcome_of_le {g1 g2 : Nat} (h1 : 1 ≤ g1) (h2 : 1 ≤ g2) (complete : Bool) :
    bttsOutcome (some g1) (some g2) complete = some .claimWon := by
  simp [bttsOutcome, h1, h2]

/-! ## readings -/

variable {stage : GamePhase}

section Readings

variable {spec : MarketSpec} {R : Regulation} {r r' : Reading}

theorem mem_course_of_later (h : Later .ns stage) :
    stage ∈ [.ns, .h1, .ht, .h2, .f, .et1, .htet, .et2, .fet, .pe, .fpe] := by
  induction h with
  | refl => decide
  | tail _ hnext ih =>
      revert hnext ih
      rename_i a b _
      cases a <;> cases b <;> decide

/-- Nothing comes after the end. -/
theorem Later.eq_of_terminal {a b : GamePhase} (h : Later a b) (ha : a ∈ terminalPhases) :
    b = a := by
  induction h with
  | refl => rfl
  | tail _ hnext ih =>
      rw [ih] at hnext
      revert ha hnext
      cases a <;> simp [terminalPhases, nextStages]

theorem Legal.not_void (h : Legal R r) : r.phase ∉ voidPhases := by
  have hstage := mem_course_of_later h.stage
  unfold Reading.phase
  split
  · decide
  · revert hstage
    cases r.stage <;> decide

theorem complete_ft90 (r : Reading) : isPeriodComplete .ft90 r.phase = true ↔
    r.interrupted = false ∧ r.stage ∈ regulationCompletePhases := by
  unfold Reading.phase
  cases r.interrupted <;> simp [isPeriodComplete, regulationCompletePhases]

theorem Legal.complete_ft (h : Legal R r) :
    isPeriodComplete .ft r.phase = true ↔ r.stage ∈ terminalPhases := by
  have hint := h.interruption
  unfold Reading.phase
  cases hi : r.interrupted with
  | false => simp [isPeriodComplete]
  | true => simpa [isPeriodComplete, terminalPhases] using hint hi

/-- With regulation over, the tally is that of its end, or is not known. -/
theorem Legal.tally_complete (h : Legal R r) (hcomplete : isPeriodComplete .ft90 r.phase = true)
    {participant : Participant} {v : Nat}
    (hv : goalsForPeriod r.score participant .ft90 r.phase = some v) :
    v = R.goals participant := by
  obtain ⟨hplay, hstage⟩ := (complete_ft90 r).mp hcomplete
  obtain ⟨-, hsplit⟩ := h.after hstage participant
  have hphase : r.phase = r.stage := by simp [Reading.phase, hplay]
  unfold goalsForPeriod at hv
  rw [hphase] at hv
  dsimp only at hv
  split at hv
  · next hended =>
    have hgoals : (r.score.team participant).goals = R.goals participant :=
      h.ended hended participant
    rcases hsplit with hsplit | hsplit <;> simp_all
  · next hended =>
    have hbeyond : r.stage ∈ beyondRegulationPhases := by
      revert hstage hended
      cases r.stage <;> decide
    rw [if_pos hbeyond] at hv
    rcases hsplit with hsplit | hsplit <;> simp_all

/-- Before, and in an interruption, it is the live one. -/
theorem tally_open (hopen : isPeriodComplete .ft90 r.phase = false) (participant : Participant) :
    goalsForPeriod r.score participant .ft90 r.phase = some (r.goals participant) := by
  have hnot : r.phase ≠ .f ∧ r.phase ∉ beyondRegulationPhases := by
    revert hopen
    cases r.phase <;> decide
  simp only [goalsForPeriod, hnot.1, hnot.2, if_false]
  rfl

end Readings

/-! ## the predicate on tallies -/

/-- What the predicate says outside the void phases, of the tallies that it reads. -/
def outcomeOf (spec : MarketSpec) (phase : GamePhase) (complete : Bool)
    (tally : Participant → Option Nat) (playerGoals : Option Nat) : Option SettlementOutcome :=
  match spec.claimType with
  | .matchWinner | .comeback =>
      if !complete then none
      else do
        let mine ← spec.entityRef.participant
        let gMine ← tally mine
        let gTheirs ← tally mine.other
        compareGoals spec.period phase gMine gTheirs
  | .totalsOu => do
      let g1 ← tally .one
      let g2 ← tally .two
      compareTally (g1 + g2) spec.comparator spec.threshold complete
  | .teamScoresN => do
      let participant ← spec.entityRef.participant
      let g ← tally participant
      compareTally g spec.comparator spec.threshold complete
  | .btts => bttsOutcome (tally .one) (tally .two) complete
  | .playerScoresN => do
      compareTally (← playerGoals) spec.comparator spec.threshold complete

theorem evaluateSpec_eq_outcomeOf {phase : GamePhase} (h : phase ∉ voidPhases) (spec : MarketSpec)
    (score : ScoreState) (playerGoals : Option Nat) :
    evaluateSpec spec score phase playerGoals =
      outcomeOf spec phase (isPeriodComplete spec.period phase)
        (goalsForPeriod score · spec.period phase) playerGoals := by
  unfold evaluateSpec outcomeOf
  rw [if_neg h]
  cases spec.claimType <;> rfl

section Tallies

variable {spec : MarketSpec} {R : Regulation} {phase : GamePhase}
  {tally : Participant → Option Nat} {playerGoals : Option Nat} {outcome : SettlementOutcome}

theorem regulationOutcome_eq (hperiod : spec.period = .ft90) (R : Regulation) :
    regulationOutcome spec R = outcomeOf spec .f true (some ∘ R.goals) (some R.playerGoals) := by
  have htally : (goalsForPeriod (finalScore (R.goals .one) (R.goals .two)) · .ft90 .f) =
      some ∘ R.goals := by
    funext participant
    cases participant <;> rfl
  rw [regulationOutcome, evaluateSpec_eq_outcomeOf (by decide), hperiod, htally,
    isPeriodComplete_f]

/-- The tallies of the end of regulation decide alike in every later phase. -/
theorem outcomeOf_complete (hperiod : spec.period = .ft90)
    (htally : ∀ participant v, tally participant = some v → v = R.goals participant)
    (hplayer : ∀ n ∈ playerGoals, n = R.playerGoals)
    (h : outcomeOf spec phase true tally playerGoals = some outcome) :
    outcomeOf spec .f true (some ∘ R.goals) (some R.playerGoals) = some outcome := by
  have hphase : ∀ g g', compareGoals spec.period phase g g' =
      compareGoals spec.period .f g g' := fun g g' => by simp [compareGoals, hperiod]
  have hcopy : ∀ participant v, tally participant = some v →
      (some ∘ R.goals) participant = some v := fun participant v hv => by
    rw [htally participant v hv]
    rfl
  unfold outcomeOf at h ⊢
  cases hclaim : spec.claimType with
  | matchWinner | comeback =>
      simp only [hclaim, Bool.not_true, Bool.false_eq_true, if_false, Option.bind_eq_bind,
        Option.bind_eq_some_iff, hphase] at h ⊢
      obtain ⟨mine, hmine, g, hg, g', hg', h⟩ := h
      exact ⟨mine, hmine, g, hcopy _ _ hg, g', hcopy _ _ hg', h⟩
  | totalsOu =>
      simp only [hclaim, Option.bind_eq_bind, Option.bind_eq_some_iff] at h ⊢
      obtain ⟨g1, hg1, g2, hg2, h⟩ := h
      exact ⟨g1, hcopy _ _ hg1, g2, hcopy _ _ hg2, h⟩
  | teamScoresN =>
      simp only [hclaim, Option.bind_eq_bind, Option.bind_eq_some_iff] at h ⊢
      obtain ⟨participant, hparticipant, g, hg, h⟩ := h
      exact ⟨participant, hparticipant, g, hcopy _ _ hg, h⟩
  | btts =>
      simp only [hclaim] at h ⊢
      cases hg1 : tally .one with
      | none => simp [hg1, bttsOutcome] at h
      | some g1 =>
          cases hg2 : tally .two with
          | none => simp [hg1, hg2, bttsOutcome] at h
          | some g2 => rwa [hcopy _ _ hg1, hcopy _ _ hg2, ← hg1, ← hg2]
  | playerScoresN =>
      simp only [hclaim, Option.bind_eq_bind, Option.bind_eq_some_iff] at h ⊢
      obtain ⟨n, hn, h⟩ := h
      exact ⟨n, by rw [hplayer n hn], h⟩

variable {r : Reading}

/-- An open tally decides as the one of the end does, unless it has been carried across. -/
theorem outcomeOf_open (hcarried : ¬ Carried spec R r)
    (hplayer : ∀ n ∈ playerGoals, n ≤ R.playerGoals)
    (h : outcomeOf spec phase false (some ∘ r.goals) playerGoals = some outcome) :
    outcomeOf spec .f true (some ∘ R.goals) (some R.playerGoals) = some outcome := by
  unfold outcomeOf at h ⊢
  unfold Carried at hcarried
  cases hclaim : spec.claimType with
  | matchWinner | comeback => simp [hclaim] at h
  | totalsOu =>
      simp only [hclaim] at h hcarried ⊢
      exact compareTally_final hcarried h
  | teamScoresN =>
      simp only [hclaim, Option.bind_eq_bind, Option.bind_eq_some_iff, Function.comp_apply,
        Option.some.injEq, exists_eq_left'] at h hcarried ⊢
      obtain ⟨participant, hparticipant, h⟩ := h
      exact ⟨participant, hparticipant,
        compareTally_final (fun hcrosses => hcarried ⟨participant, hparticipant, hcrosses⟩) h⟩
  | btts =>
      simp only [hclaim, Function.comp_apply] at h hcarried ⊢
      obtain ⟨rfl, h1, h2⟩ := bttsOutcome_eq_some h
      obtain ⟨hR1, hR2⟩ := not_not.mp fun hnot => hcarried ⟨⟨h1, h2⟩, hnot⟩
      exact bttsOutcome_of_le hR1 hR2 true
  | playerScoresN =>
      simp only [hclaim, Option.bind_eq_bind, Option.bind_eq_some_iff, Option.bind_some] at h ⊢
      obtain ⟨n, hn, h⟩ := h
      exact compareTally_mono (hplayer n hn) h true

/-- Where it has been, the open tally decides otherwise. -/
theorem exists_outcome_of_carried (h : Carried spec R r) (phase : GamePhase)
    (playerGoals : Option Nat) :
    ∃ outcome, outcomeOf spec phase false (some ∘ r.goals) playerGoals = some outcome ∧
      outcomeOf spec .f true (some ∘ R.goals) (some R.playerGoals) ≠ some outcome := by
  unfold outcomeOf
  unfold Carried at h
  cases hclaim : spec.claimType with
  | matchWinner | comeback | playerScoresN => simp [hclaim] at h
  | totalsOu =>
      simp only [hclaim] at h ⊢
      exact crosses_iff.mp h
  | teamScoresN =>
      simp only [hclaim] at h ⊢
      obtain ⟨participant, hparticipant, hcrosses⟩ := h
      rw [hparticipant]
      exact crosses_iff.mp hcrosses
  | btts =>
      simp only [hclaim, Function.comp_apply] at h ⊢
      refine ⟨.claimWon, bttsOutcome_of_le h.1.1 h.1.2 false, ?_⟩
      simpa [bttsOutcome] using h.2

/-- Tallies that grow keep an early decision. -/
theorem outcomeOf_mono {r' : Reading} {phase' : GamePhase} {playerGoals' : Option Nat}
    (hgoals : ∀ participant, r.goals participant ≤ r'.goals participant)
    (hplayer : ∀ n ∈ playerGoals, ∀ n' ∈ playerGoals', n ≤ n')
    (h : outcomeOf spec phase false (some ∘ r.goals) playerGoals = some outcome) (complete : Bool) :
    outcomeOf spec phase' complete (some ∘ r'.goals) playerGoals' = some outcome ∨
      outcomeOf spec phase' complete (some ∘ r'.goals) playerGoals' = none := by
  unfold outcomeOf at h ⊢
  cases hclaim : spec.claimType with
  | matchWinner | comeback => simp [hclaim] at h
  | totalsOu =>
      simp only [hclaim] at h ⊢
      exact .inl (compareTally_mono (Nat.add_le_add (hgoals .one) (hgoals .two)) h complete)
  | teamScoresN =>
      simp only [hclaim, Option.bind_eq_bind] at h ⊢
      obtain ⟨participant, hparticipant, h⟩ := Option.bind_eq_some_iff.mp h
      rw [hparticipant]
      exact .inl (compareTally_mono (hgoals participant) h complete)
  | btts =>
      simp only [hclaim, Function.comp_apply] at h ⊢
      obtain ⟨rfl, h1, h2⟩ := bttsOutcome_eq_some h
      exact .inl (bttsOutcome_of_le (h1.trans (hgoals .one)) (h2.trans (hgoals .two)) complete)
  | playerScoresN =>
      simp only [hclaim, Option.bind_eq_bind] at h ⊢
      obtain ⟨n, hn, h⟩ := Option.bind_eq_some_iff.mp h
      cases hn' : playerGoals' with
      | none => exact .inr rfl
      | some n' => exact .inl (compareTally_mono (hplayer n hn n' hn') h complete)

/-- Tallies that stay as they are decide alike. -/
theorem outcomeOf_same {complete : Bool} {playerGoals' : Option Nat}
    (hplayer : ∀ n ∈ playerGoals, ∀ n' ∈ playerGoals', n' = n)
    (h : outcomeOf spec phase complete tally playerGoals = some outcome) :
    outcomeOf spec phase complete tally playerGoals' = some outcome ∨
      outcomeOf spec phase complete tally playerGoals' = none := by
  unfold outcomeOf at h ⊢
  cases hclaim : spec.claimType with
  | matchWinner | comeback | totalsOu | teamScoresN | btts =>
      simp only [hclaim] at h ⊢
      exact .inl h
  | playerScoresN =>
      simp only [hclaim, Option.bind_eq_bind] at h ⊢
      obtain ⟨n, hn, h⟩ := Option.bind_eq_some_iff.mp h
      cases hn' : playerGoals' with
      | none => exact .inr rfl
      | some n' => exact .inl (by rw [hplayer n hn n' hn']; exact h)

end Tallies

/-! ## stability -/

section Stability

variable {spec : MarketSpec} {R : Regulation} {r r' : Reading} {readings : List Reading}
  {outcome : SettlementOutcome}

/-- Every decision about regulation is the one of its end, but for a late interruption. -/
theorem evaluate_regulation (hperiod : spec.period = .ft90) (h : Legal R r) (hcounted : Counted R r)
    (hcarried : InterruptedLate r → ¬ Carried spec R r)
    (hdecided : evaluate spec r = some outcome) : regulationOutcome spec R = some outcome := by
  rw [regulationOutcome_eq hperiod]
  rw [evaluate, evaluateSpec_eq_outcomeOf h.not_void, hperiod] at hdecided
  cases hcomplete : isPeriodComplete .ft90 r.phase with
  | true =>
      rw [hcomplete] at hdecided
      exact outcomeOf_complete hperiod (fun _ _ => h.tally_complete hcomplete)
        (hcounted.after ((complete_ft90 r).mp hcomplete).2) hdecided
  | false =>
      have htally : (goalsForPeriod r.score · .ft90 r.phase) = some ∘ r.goals :=
        funext (tally_open hcomplete)
      rw [hcomplete, htally] at hdecided
      refine outcomeOf_open (fun hcross => ?_) hcounted.before hdecided
      by_cases hstage : r.stage ∈ regulationCompletePhases
      · have hinterrupted : r.interrupted = true := by
          by_contra hplay
          rw [(complete_ft90 r).mpr ⟨by simpa using hplay, hstage⟩] at hcomplete
          cases hcomplete
        have hterminal := h.interruption hinterrupted
        refine hcarried ⟨hinterrupted, ?_⟩ hcross
        revert hstage hterminal
        cases r.stage <;> decide
      · exact not_carried_of_le (h.before hstage) hcross

/-- In a late interruption, goals that carry the tally across decide otherwise. -/
theorem evaluate_of_carried (hperiod : spec.period = .ft90) (h : Legal R r)
    (hlate : InterruptedLate r) (hcarried : Carried spec R r) :
    ∃ outcome, evaluate spec r = some outcome ∧ regulationOutcome spec R ≠ some outcome := by
  have hopen : isPeriodComplete .ft90 r.phase = false := by
    by_contra hcomplete
    have hplay := ((complete_ft90 r).mp (by simpa using hcomplete)).1
    rw [hlate.1] at hplay
    cases hplay
  have htally : (goalsForPeriod r.score · .ft90 r.phase) = some ∘ r.goals :=
    funext (tally_open hopen)
  rw [regulationOutcome_eq hperiod, evaluate, evaluateSpec_eq_outcomeOf h.not_void, hperiod, hopen,
    htally]
  exact exists_outcome_of_carried hcarried r.phase r.playerGoals

/-- A claim about the whole match is decided once. -/
theorem evaluate_follows (hperiod : spec.period = .ft) (h : Legal R r) (h' : Legal R r')
    (hfollows : ReadAfter r r') (hdecided : evaluate spec r = some outcome) :
    evaluate spec r' = some outcome ∨ evaluate spec r' = none := by
  have htally : ∀ r : Reading, (goalsForPeriod r.score · .ft r.phase) = some ∘ r.goals :=
    fun _ => rfl
  rw [evaluate, evaluateSpec_eq_outcomeOf h.not_void, hperiod, htally] at hdecided
  rw [evaluate, evaluateSpec_eq_outcomeOf h'.not_void, hperiod, htally]
  cases hcomplete : isPeriodComplete .ft r.phase with
  | false =>
      rw [hcomplete] at hdecided
      exact outcomeOf_mono hfollows.goals hfollows.playerGoals hdecided _
  | true =>
      -- the match has ended, and the later reading is one of the same end
      have hterminal := h.complete_ft.mp hcomplete
      obtain ⟨hgoals, hplayer⟩ := hfollows.ended hterminal
      have hstage : r'.stage = r.stage := hfollows.stage.eq_of_terminal hterminal
      have hsame : r'.phase = r.phase := by
        have hplay : r.interrupted = false := by
          by_contra hi
          exact h.interruption (by simpa using hi) hterminal
        have hplay' : r'.interrupted = false := by
          by_contra hi
          exact h'.interruption (by simpa using hi) (by rwa [hstage])
        simp [Reading.phase, hplay, hplay', hstage]
      have hcopy : r'.goals = r.goals := funext hgoals
      rw [hsame, hcopy]
      exact outcomeOf_same hplayer hdecided

/-- Decisions are stable along a match, and regulation decides what is about regulation,
exactly when no late interruption shows a tally that goals since then carried across. -/
theorem stable_iff (h : Course spec.period R readings) :
    (Stable spec readings ∧ DecidedInRegulation spec R readings) ↔
      (spec.period = .ft90 → ∀ r ∈ readings, InterruptedLate r → ¬ Carried spec R r) := by
  constructor
  · rintro ⟨-, hdecided⟩ hperiod r hr hlate hcarried
    obtain ⟨outcome, houtcome, hother⟩ := evaluate_of_carried hperiod (h.legal r hr) hlate hcarried
    have hstage : r.stage ∈ regulationCompletePhases := by
      have hbeyond := hlate.2
      revert hbeyond
      cases r.stage <;> decide
    exact hother (hdecided hperiod r hr hstage outcome houtcome)
  · intro hnone
    have hregulation : spec.period = .ft90 → ∀ r ∈ readings, ∀ outcome,
        evaluate spec r = some outcome → regulationOutcome spec R = some outcome :=
      fun hperiod r hr outcome => evaluate_regulation hperiod (h.legal r hr)
        (h.counted hperiod r hr) (hnone hperiod r hr)
    refine ⟨?_, fun hperiod r hr _ => hregulation hperiod r hr⟩
    refine h.order.imp_of_mem fun {r r'} hr hr' hfollows outcome _ hdecided => ?_
    cases hperiod : spec.period with
    | ft => exact evaluate_follows hperiod (h.legal r hr) (h.legal r' hr') hfollows hdecided
    | ft90 =>
        cases hlater : evaluate spec r' with
        | none => exact .inr rfl
        | some outcome' =>
            have hsame := hregulation hperiod r hr outcome hdecided
            rw [hregulation hperiod r' hr' outcome' hlater] at hsame
            exact .inl hsame

end Stability

namespace Sample

/-- Two goals or more, in regulation. -/
def twoInRegulation : MarketSpec where
  claimType := .totalsOu
  fixtureId := 17
  entityRef := .team .one "Reds"
  comparator := .gte
  threshold := 2
  period := .ft90
  anchor := none
  trustTier := .chainProven

/-- One goal in regulation. -/
def oneInRegulation : Regulation where
  goals
    | .one => 1
    | .two => 0
  playerGoals := 0

def reading (stage : GamePhase) (interrupted : Bool) (p1 : Nat) (split : Option (Nat × Nat)) :
    Reading where
  stage
  interrupted
  score := ⟨⟨p1, 0, 0, 0⟩, ⟨0, 0, 0, 0⟩, split.map (·.1), split.map (·.2)⟩
  playerGoals := none

/-- The match stays at one goal until extra time, and goes on to its end. -/
def lateGoal : List Reading :=
  [reading .h2 true 1 none, reading .et1 false 1 (some (1, 0)), reading .et1 true 1 none,
    reading .fet false 2 none]

/-- A second goal in extra time, with the split and then in an interruption. -/
def carriedGoal : List Reading :=
  [reading .et1 false 2 (some (1, 0)), reading .et1 true 2 none]

theorem later_ns : Later .ns .h2 ∧ Later .ns .et1 ∧ Later .h2 .et1 ∧ Later .et1 .fet := by
  have hkickoff : Later .ns .h2 :=
    ((Relation.ReflTransGen.single (b := .h1) (by decide)).tail (c := .ht) (by decide)).tail
      (by decide)
  have hextra : Later .h2 .et1 := .single (by decide)
  have hend : Later .et1 .fet :=
    ((Relation.ReflTransGen.single (b := .htet) (by decide)).tail (c := .et2) (by decide)).tail
      (by decide)
  exact ⟨hkickoff, hkickoff.trans hextra, hextra, hend⟩

theorem follows_reading {stage' : GamePhase} {interrupted interrupted' : Bool} {p1 p1' : Nat}
    {split split' : Option (Nat × Nat)} (hstage : Later stage stage') (hgoals : p1 ≤ p1')
    (hplay : stage ∉ terminalPhases) :
    ReadAfter (reading stage interrupted p1 split) (reading stage' interrupted' p1' split') where
  stage := hstage
  goals participant := by
    cases participant
    · exact hgoals
    · exact Nat.le_refl 0
  playerGoals := by simp [reading]
  ended h := absurd h hplay

theorem counted_reading (stage : GamePhase) (interrupted : Bool) (p1 : Nat)
    (split : Option (Nat × Nat)) : Counted oneInRegulation (reading stage interrupted p1 split) where
  before := by simp [reading]
  after := by simp [reading]

theorem legal_before : Legal oneInRegulation (reading .h2 true 1 none) where
  stage := later_ns.1
  interruption _ := by decide
  before _ participant := by cases participant <;> decide
  after h := absurd h (by decide)
  ended h := absurd h (by decide)

theorem legal_after {interrupted : Bool} {p1 : Nat} {split : Option (Nat × Nat)}
    (hlater : Later .et1 stage) (hp1 : 1 ≤ p1)
    (hstage : stage ∈ regulationCompletePhases ∧ stage ≠ .f)
    (hplay : interrupted = true → stage ∉ terminalPhases)
    (hsplit : split = none ∨ split = some (1, 0)) :
    Legal oneInRegulation (reading stage interrupted p1 split) where
  stage := later_ns.2.1.trans hlater
  interruption := hplay
  before h := absurd hstage.1 h
  after _ participant := by
    obtain rfl | rfl := hsplit <;> cases participant <;>
      simp [reading, oneInRegulation, Reading.goals, ScoreState.team, ScoreState.goals90, hp1]
  ended h := absurd h hstage.2

theorem course_lateGoal : Course .ft90 oneInRegulation lateGoal where
  legal := by
    simp only [lateGoal, List.mem_cons, List.not_mem_nil, or_false, forall_eq_or_imp, forall_eq]
    exact ⟨legal_before,
      legal_after .refl (by decide) (by decide) (by decide) (.inr rfl),
      legal_after .refl (by decide) (by decide) (by decide) (.inl rfl),
      legal_after later_ns.2.2.2 (by decide) (by decide) (by decide) (.inl rfl)⟩
  counted _ r hr := by
    simp only [lateGoal, List.mem_cons, List.not_mem_nil, or_false] at hr
    obtain rfl | rfl | rfl | rfl := hr <;> exact counted_reading _ _ _ _
  order := by
    obtain ⟨-, -, hextra, hend⟩ := later_ns
    simp only [lateGoal, List.pairwise_cons, List.mem_cons, List.not_mem_nil, or_false,
      forall_eq_or_imp, forall_eq, List.Pairwise.nil, and_true, false_imp_iff, implies_true]
    exact ⟨⟨follows_reading hextra (by decide) (by decide),
        follows_reading hextra (by decide) (by decide),
        follows_reading (hextra.trans hend) (by decide) (by decide)⟩,
      ⟨follows_reading .refl (by decide) (by decide),
        follows_reading hend (by decide) (by decide)⟩,
      follows_reading hend (by decide) (by decide)⟩

theorem course_carriedGoal : Course .ft90 oneInRegulation carriedGoal where
  legal := by
    simp only [carriedGoal, List.mem_cons, List.not_mem_nil, or_false, forall_eq_or_imp, forall_eq]
    exact ⟨legal_after .refl (by decide) (by decide) (by decide) (.inr rfl),
      legal_after .refl (by decide) (by decide) (by decide) (.inl rfl)⟩
  counted _ r hr := by
    simp only [carriedGoal, List.mem_cons, List.not_mem_nil, or_false] at hr
    obtain rfl | rfl := hr <;> exact counted_reading _ _ _ _
  order := by
    simp only [carriedGoal, List.pairwise_cons, List.mem_cons, List.not_mem_nil, or_false,
      forall_eq, List.Pairwise.nil, and_true, false_imp_iff, implies_true]
    exact follows_reading .refl (by decide) (by decide)

end Sample

/-- With its interruptions before the late goal, the claim is lost once and for all. -/
theorem stable_iff_sample :
    Stable Sample.twoInRegulation Sample.lateGoal ∧
      DecidedInRegulation Sample.twoInRegulation Sample.oneInRegulation Sample.lateGoal := by
  refine (stable_iff Sample.course_lateGoal).mpr fun _ r hr hlate => ?_
  simp only [Sample.lateGoal, List.mem_cons, List.not_mem_nil, or_false] at hr
  obtain rfl | rfl | rfl | rfl := hr
  · exact absurd hlate.2 (by decide)
  · exact absurd hlate.1 (by decide)
  · exact not_carried_of_le fun participant => by cases participant <;> decide
  · exact absurd hlate.1 (by decide)

/-- Lost at one goal when extra time begins, and won in its interruption. -/
theorem lost_and_won :
    Course Sample.twoInRegulation.period Sample.oneInRegulation Sample.carriedGoal ∧
      ¬ Stable Sample.twoInRegulation Sample.carriedGoal := by
  refine ⟨Sample.course_carriedGoal, fun hstable => ?_⟩
  have hlost : evaluate Sample.twoInRegulation (Sample.reading .et1 false 2 (some (1, 0))) =
      some .claimLost := by decide +kernel
  have hwon : evaluate Sample.twoInRegulation (Sample.reading .et1 true 2 none) = some .claimWon := by
    decide +kernel
  have hboth := List.rel_of_pairwise_cons hstable (List.mem_singleton.mpr rfl) .claimLost
    (.inr rfl) hlost
  rw [hwon] at hboth
  simp at hboth

end CalledIt.Engine
