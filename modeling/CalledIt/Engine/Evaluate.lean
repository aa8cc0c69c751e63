import Mathlib.Data.Rat.Defs
import Mathlib.Algebra.Order.Ring.Unbundled.Rat
import Mathlib.Tactic.Common

/-!
# CalledIt.Engine.Evaluate

The domain of the market engine (`market-engine/src/types.ts`) and its
settlement predicate (`evaluate.ts`).

A number of the feed that counts something (goals, cards, sequence numbers) is a
`Nat`; a claim's threshold may be a half-goal line and is a rational.
-/

namespace CalledIt.Engine

/-! ## claims -/

inductive ClaimType
  | matchWinner
  | totalsOu
  | teamScoresN
  | btts
  | playerScoresN
  | comeback
  deriving DecidableEq, Repr

/-- Full time with extra time and penalties, or regulation only. -/
inductive Period
  | ft
  | ft90
  deriving DecidableEq, Repr

inductive Participant
  | one
  | two
  deriving DecidableEq, Repr

/-- A player's side is bound at lineup time. -/
inductive EntityRef
  | team (participant : Participant) (name : String)
  | player (normativeId : Nat) (name : String) (participant : Option Participant)
  deriving DecidableEq, Repr

def EntityRef.participant : EntityRef → Option Participant
  | team participant _ => some participant
  | player _ _ participant => participant

inductive Comparator
  | gte
  | lte
  | eq
  deriving DecidableEq, Repr

structure ClaimAnchor where
  seq : Nat
  scoreP1 : ℚ
  scoreP2 : ℚ
  deriving DecidableEq

inductive TrustTier
  | chainProven
  | oracleResolved
  deriving DecidableEq, Repr

structure MarketSpec where
  claimType : ClaimType
  fixtureId : Nat
  entityRef : EntityRef
  comparator : Comparator
  threshold : ℚ
  period : Period
  anchor : Option ClaimAnchor
  trustTier : TrustTier
  deriving DecidableEq

/-! ## feed events -/

inductive GamePhase
  | ns | h1 | ht | h2 | f
  | et1 | htet | et2 | fet
  | pe | fpe
  | int | abd | can | post | covLost
  deriving DecidableEq, Repr

def terminalPhases : List GamePhase := [.f, .fet, .fpe]
def voidPhases : List GamePhase := [.abd, .can, .post, .covLost]

structure TeamStats where
  goals : Nat
  yellowCards : Nat
  redCards : Nat
  corners : Nat
  deriving DecidableEq, Repr

/-- The regulation tallies are missing when the feed does not split them out. -/
structure ScoreState where
  p1 : TeamStats
  p2 : TeamStats
  p1Goals90 : Option Nat
  p2Goals90 : Option Nat
  deriving DecidableEq, Repr

inductive MatchEventKind
  | goal
  | goalAmended
  | goalDiscarded
  | card
  | varCheck
  | varEnd
  | phaseChange
  | lineup
  | possibleEvent
  | oddsSuspension
  | coverageWarning
  | statUpdate
  | other
  deriving DecidableEq, Repr

inductive GoalType
  | head
  | shot
  | ownGoal
  | penalty
  | other
  deriving DecidableEq, Repr

inductive CardColor
  | yellow
  | red
  deriving DecidableEq, Repr

/-- An absent property is `none`; the player's identifier may also be there and
be `null`. -/
structure EventDetail where
  participant : Option Participant
  playerNormativeId : Option (Option Nat)
  goalType : Option GoalType
  card : Option CardColor
  reversesSeq : Option Nat
  deriving DecidableEq, Repr

structure MatchEvent where
  kind : MatchEventKind
  fixtureId : Nat
  seq : Nat
  tsMs : Int
  receivedAtMs : Int
  confirmed : Bool
  phase : GamePhase
  minute : Option Int
  score : ScoreState
  detail : Option EventDetail
  deriving DecidableEq, Repr

namespace MatchEvent

/-- `event.detail?.participant`. -/
def participant (event : MatchEvent) : Option Participant := event.detail.bind (·.participant)

/-- `event.detail?.playerNormativeId`. -/
def playerNormativeId (event : MatchEvent) : Option (Option Nat) :=
  event.detail.bind (·.playerNormativeId)

/-- `event.detail?.goalType`. -/
def goalType (event : MatchEvent) : Option GoalType := event.detail.bind (·.goalType)

/-- `event.detail?.card`. -/
def card (event : MatchEvent) : Option CardColor := event.detail.bind (·.card)

/-- `event.detail?.reversesSeq`. -/
def reversesSeq (event : MatchEvent) : Option Nat := event.detail.bind (·.reversesSeq)

end MatchEvent

inductive SettlementOutcome
  | claimWon
  | claimLost
  | void
  deriving DecidableEq, Repr

/-! ## the settlement predicate -/

/-- Phases in which the 90-minute regulation period has fully elapsed. -/
def regulationCompletePhases : List GamePhase := [.f, .et1, .htet, .et2, .pe, .fet, .fpe]

/-- Phases beyond regulation, where only the split tallies may be used. -/
def beyondRegulationPhases : List GamePhase := [.et1, .htet, .et2, .pe, .fet, .fpe]

def isPeriodComplete : Period → GamePhase → Bool
  | .ft90, phase => phase ∈ regulationCompletePhases
  | .ft, phase => phase ∈ terminalPhases

def ScoreState.team (score : ScoreState) : Participant → TeamStats
  | .one => score.p1
  | .two => score.p2

def ScoreState.goals90 (score : ScoreState) : Participant → Option Nat
  | .one => score.p1Goals90
  | .two => score.p2Goals90

def goalsForPeriod (score : ScoreState) (participant : Participant) (period : Period)
    (phase : GamePhase) : Option Nat :=
  match period with
  | .ft => some (score.team participant).goals
  | .ft90 =>
      if phase = .f then
        -- ended at 90: all goals are regulation goals
        some ((score.goals90 participant).getD (score.team participant).goals)
      else if phase ∈ beyondRegulationPhases then
        score.goals90 participant
      else
        some (score.team participant).goals

def compareTally (value : Nat) (comparator : Comparator) (threshold : ℚ)
    (periodComplete : Bool) : Option SettlementOutcome :=
  match comparator with
  | .gte =>
      if (value : ℚ) ≥ threshold then some .claimWon
      else if periodComplete then some .claimLost else none
  | .lte =>
      if (value : ℚ) > threshold then some .claimLost
      else if periodComplete then some .claimWon else none
  | .eq =>
      if (value : ℚ) > threshold then some .claimLost
      else if !periodComplete then none
      else if (value : ℚ) = threshold then some .claimWon else some .claimLost

def Participant.other : Participant → Participant
  | .one => .two
  | .two => .one

/-- `winnerOutcome` after the goals of both sides are known. -/
def compareGoals (period : Period) (phase : GamePhase) (mine theirs : Nat) :
    Option SettlementOutcome :=
  if mine > theirs then some .claimWon
  else if mine < theirs then some .claimLost
  else if period = .ft90 then some .claimLost
  else if phase = .f then some .claimLost
  -- level after extra time or penalties: the tallies do not say who advances
  else none

def winnerOutcome (spec : MarketSpec) (score : ScoreState) (phase : GamePhase) :
    Option SettlementOutcome :=
  if !isPeriodComplete spec.period phase then
    none
  else do
    let mine ← spec.entityRef.participant
    let gMine ← goalsForPeriod score mine spec.period phase
    let gTheirs ← goalsForPeriod score mine.other spec.period phase
    compareGoals spec.period phase gMine gTheirs

def bttsOutcome (g1 g2 : Option Nat) (complete : Bool) : Option SettlementOutcome :=
  match g1, g2 with
  | some g1, some g2 =>
      if g1 ≥ 1 ∧ g2 ≥ 1 then some .claimWon
      else if !complete then none
      else some .claimLost
  | _, _ => none

/-- Whether the claim is won, lost, void or not yet decidable.  The goals of a
player are the caller's tally. -/
def evaluateSpec (spec : MarketSpec) (score : ScoreState) (phase : GamePhase)
    (playerGoals : Option Nat) : Option SettlementOutcome :=
  if phase ∈ voidPhases then
    some .void
  else
    let complete := isPeriodComplete spec.period phase
    match spec.claimType with
    | .matchWinner | .comeback => winnerOutcome spec score phase
    | .totalsOu => do
        let g1 ← goalsForPeriod score .one spec.period phase
        let g2 ← goalsForPeriod score .two spec.period phase
        compareTally (g1 + g2) spec.comparator spec.threshold complete
    | .teamScoresN => do
        let participant ← spec.entityRef.participant
        let g ← goalsForPeriod score participant spec.period phase
        compareTally g spec.comparator spec.threshold complete
    | .btts =>
        bttsOutcome (goalsForPeriod score .one spec.period phase)
          (goalsForPeriod score .two spec.period phase) complete
    | .playerScoresN => do
        compareTally (← playerGoals) spec.comparator spec.threshold complete

/-! ## what the predicate answers -/

theorem compareTally_ne_void (value : Nat) (comparator : Comparator) (threshold : ℚ)
    (complete : Bool) : compareTally value comparator threshold complete ≠ some .void := by
  unfold compareTally
  cases comparator <;> dsimp only <;> split_ifs <;> simp

/-- A finished period leaves no tally undecided. -/
theorem isSome_compareTally (value : Nat) (comparator : Comparator) (threshold : ℚ) :
    (compareTally value comparator threshold true).isSome = true := by
  unfold compareTally
  cases comparator <;> dsimp only <;> split_ifs <;> simp_all

theorem compareGoals_ne_void (period : Period) (phase : GamePhase) (mine theirs : Nat) :
    compareGoals period phase mine theirs ≠ some .void := by
  unfold compareGoals
  split_ifs <;> simp

theorem winnerOutcome_ne_void (spec : MarketSpec) (score : ScoreState) (phase : GamePhase) :
    winnerOutcome spec score phase ≠ some .void := by
  unfold winnerOutcome
  split
  · simp
  · intro h
    simp only [Option.bind_eq_bind, Option.bind_eq_some_iff] at h
    obtain ⟨_, _, _, _, _, _, h⟩ := h
    exact compareGoals_ne_void _ _ _ _ h

theorem bttsOutcome_ne_void (g1 g2 : Option Nat) (complete : Bool) :
    bttsOutcome g1 g2 complete ≠ some .void := by
  unfold bttsOutcome
  split
  · split_ifs <;> simp
  · simp

variable {phase : GamePhase}

/-- Only the phase voids a claim. -/
theorem evaluateSpec_ne_void {spec : MarketSpec} {score : ScoreState} {playerGoals : Option Nat}
    (h : phase ∉ voidPhases) :
    evaluateSpec spec score phase playerGoals ≠ some .void := by
  unfold evaluateSpec
  rw [if_neg h]
  cases spec.claimType <;> intro hvoid <;>
    simp only [Option.bind_eq_bind, Option.bind_eq_some_iff] at hvoid
  · exact winnerOutcome_ne_void _ _ _ hvoid
  · obtain ⟨_, _, _, _, hvoid⟩ := hvoid
    exact compareTally_ne_void _ _ _ _ hvoid
  · obtain ⟨_, _, _, _, hvoid⟩ := hvoid
    exact compareTally_ne_void _ _ _ _ hvoid
  · exact bttsOutcome_ne_void _ _ _ hvoid
  · obtain ⟨_, _, hvoid⟩ := hvoid
    exact compareTally_ne_void _ _ _ _ hvoid
  · exact winnerOutcome_ne_void _ _ _ hvoid

theorem isPeriodComplete_of_terminal (period : Period)
    (h : phase ∈ terminalPhases) : isPeriodComplete period phase = true := by
  revert h
  cases period <;> cases phase <;> decide

/-- At the end of a match a player's claim is decided by the tally. -/
theorem isSome_evaluateSpec_player {spec : MarketSpec} (hclaim : spec.claimType = .playerScoresN)
    (score : ScoreState) (h : phase ∈ terminalPhases) (n : Nat) :
    (evaluateSpec spec score phase (some n)).isSome = true := by
  unfold evaluateSpec
  split
  · rfl
  · simp only [hclaim, isPeriodComplete_of_terminal spec.period h, Option.bind_eq_bind,
      Option.bind_some]
    exact isSome_compareTally _ _ _

end CalledIt.Engine
