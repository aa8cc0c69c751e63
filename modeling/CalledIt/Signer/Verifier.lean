import CalledIt.Engine.Reduce
import CalledIt.Sdk.Evidence
import CalledIt.Sdk.Attestations

/-!
# CalledIt.Signer.Verifier

How a signer checks an attestation against its own view of the feed
(`oracle-signer/src/verifier.ts`).

The signer folds the feed snapshot itself and asks the engine's settlement
predicate twice, at the deciding event and at the latest one.  A snapshot is the
list of normalized events in the order of their sequence numbers.
-/

namespace CalledIt.Signer

open Lib
open Engine (MarketSpec MatchEvent StandingGoal SettlementOutcome evaluateSpec terminalPhases)
open Escrow (Bytes VoidReason)
open Sdk (JsError JsResult ScoreV1 SettlementAttestationV1 VoidAttestationV1 phaseText
  normalizedEscrowEvidenceHashV2 escrowEvidenceSequenceCommitmentV2 settlementEvidenceHashV2)

/-- Largest integer a JavaScript number holds exactly. -/
def maxSafeInteger : Int := 2 ^ 53 - 1

def safeNumber (value : Int) (name : String) : JsResult Nat := do
  require (¬ (value > maxSafeInteger ∨ value < 0)) (JsError.error ("invalid " ++ name))
  return value.toNat

/-! ## standing goals -/

/-- The goal that an amendment names, with what the amendment says of it. -/
def reattribute (event : MatchEvent) (goal : StandingGoal) : StandingGoal :=
  { goal with
    participant := if event.participant.isSome then event.participant else goal.participant
    playerNormativeId := event.playerNormativeId.getD goal.playerNormativeId
    ownGoal := event.goalType = some .ownGoal }

def standingGoalsStep (goals : List StandingGoal) (event : MatchEvent) : List StandingGoal :=
  if event.kind = .goal ∧ event.confirmed then
    goals ++ [.ofEvent event]
  else
    match event.reversesSeq with
    | none => goals
    | some reversed =>
        let index := goals.findIdx (·.seq = reversed)
        if event.kind = .goalDiscarded ∧ index < goals.length then
          goals.eraseIdx index
        else if event.kind = .goalAmended ∧ index < goals.length then
          goals.modify index (reattribute event)
        else goals

def standingGoals (events : List MatchEvent) (throughSequence : Nat) : List StandingGoal :=
  (events.takeWhile (·.seq ≤ throughSequence)).foldl standingGoalsStep []

def playerGoals (spec : MarketSpec) (goals : List StandingGoal) : Option Nat :=
  match spec.claimType, spec.entityRef with
  | .playerScoresN, .player playerId _ _ =>
      some (goals.filter fun goal =>
        goal.playerNormativeId = some playerId ∧ !goal.ownGoal ∧ goal.phase ≠ .pe ∧
          (spec.period = .ft ∨ goal.phase = .h1 ∨ goal.phase = .ht ∨ goal.phase = .h2)).length
  | _, _ => none

/-- Goals that are evidence for the spec. -/
def evidenceGoal (spec : MarketSpec) (goal : StandingGoal) : Bool :=
  match spec.claimType, spec.entityRef with
  | .teamScoresN, entityRef => goal.participant = entityRef.participant
  | .playerScoresN, .player playerId _ _ =>
      goal.playerNormativeId = some playerId ∧ !goal.ownGoal
  | _, _ => true

def evidenceSequences (spec : MarketSpec) (goals : List StandingGoal) (decidingSequence : Nat) :
    List Nat :=
  Engine.sortedSeqs ((goals.filter (evidenceGoal spec)).map (·.seq) ++ [decidingSequence])

/-! ## scores, outcomes and signals -/

def score (event : MatchEvent) : ScoreV1 := ⟨event.score.p1.goals, event.score.p2.goals⟩

def regulationScore (event : MatchEvent) : Option ScoreV1 :=
  match event.score.p1Goals90, event.score.p2Goals90 with
  | some home, some away => some ⟨home, away⟩
  | _, _ => if event.phase = .f then some (score event) else none

def claimedOutcome (spec : MarketSpec) (event : MatchEvent) (goals : List StandingGoal) :
    Option SettlementOutcome :=
  evaluateSpec spec event.score event.phase (playerGoals spec goals)

def priceMoving (event : MatchEvent) : Bool :=
  event.confirmed ∧ (event.kind = .goal ∨ (event.kind = .card ∧ event.card = some .red))

def minuteFrom85 (event : MatchEvent) : Bool :=
  match event.minute with
  | some minute => minute ≥ 85
  | none => false

def freezeSignal (spec : MarketSpec) (event : MatchEvent) : Bool :=
  priceMoving event ∨ event.kind = .varCheck ∨ event.kind = .possibleEvent ∨
    (event.kind = .goal ∧ !event.confirmed) ∨
    (event.kind = .oddsSuspension ∧ event.confirmed) ∨
    minuteFrom85 event ∨
    (spec.claimType = .playerScoresN ∧ event.phase ≠ .ns)

def unfreezeSignal (event : MatchEvent) : Bool :=
  event.kind = .varEnd ∨ event.kind = .goalAmended ∨ event.kind = .goalDiscarded ∨
    (event.kind = .oddsSuspension ∧ !event.confirmed) ∨ event.confirmed

def voidReason (event : MatchEvent) (outcome : Option SettlementOutcome) : Option VoidReason :=
  if event.phase = .can then some .cancelled
  else if event.phase = .abd then some .abandoned
  else if event.phase = .covLost ∨ event.kind = .coverageWarning then some .coverageLoss
  else if event.phase = .post then some .undecidable
  else if event.phase ∈ terminalPhases ∧ outcome = none then some .undecidable
  else none

/-- The attestation's outcome as the engine names it. -/
def claimedBy : Sdk.ClaimOutcome → SettlementOutcome
  | .claimWon => .claimWon
  | .claimLost => .claimLost

/-! ## terminal attestations -/

section Verify

variable (sha256 : List UInt8 → Bytes 32)

/-- The ordering check of `verify`, which hands over a snapshot with a latest
event. -/
def latestEvent (events : List MatchEvent) : JsResult MatchEvent := do
  require (events ≠ [] ∧ events.IsChain (·.seq < ·.seq))
    (JsError.error "oracle evidence ordering mismatch")
  okOr events.getLast? (.error "oracle evidence ordering mismatch")

def verifySettlement (attestation : SettlementAttestationV1) (spec : MarketSpec)
    (events : List MatchEvent) : JsResult Unit := do
  let latest ← latestEvent events
  require (latest.phase ∈ terminalPhases)
    (JsError.error "settlement fixture phase is not terminal")
  let decidingSequence ← safeNumber attestation.decidingSequence "deciding sequence"
  let deciding ← okOr (events.find? (·.seq = decidingSequence))
    (.error "settlement deciding evidence is missing")
  require (¬ latest.seq < deciding.seq)
    (JsError.error "settlement deciding evidence is missing")
  require (normalizedEscrowEvidenceHashV2 sha256 latest = attestation.normalizedEvidenceRoot)
    (JsError.error "settlement terminal evidence is not latest")
  let decidingGoals := standingGoals events decidingSequence
  let commitment := escrowEvidenceSequenceCommitmentV2 sha256 spec.fixtureId
    (evidenceSequences spec decidingGoals decidingSequence)
  let evidenceHash := settlementEvidenceHashV2 sha256 commitment attestation.normalizedEvidenceRoot
  require (¬ (claimedOutcome spec deciding decidingGoals ≠ some (claimedBy attestation.outcome) ∨
      commitment ≠ attestation.evidenceSequenceCommitment ∨
      evidenceHash ≠ attestation.evidenceHash ∨
      attestation.terminalPhase ≠ phaseText latest.phase ∨
      attestation.regulationScore ≠ regulationScore latest ∨
      attestation.fullMatchScore ≠ some (score latest)))
    (JsError.error "settlement attestation mismatch")
  require (claimedOutcome spec latest (standingGoals events latest.seq) =
      some (claimedBy attestation.outcome))
    (JsError.error "settlement was reversed by later evidence")

def verifyVoid (attestation : VoidAttestationV1) (spec : MarketSpec)
    (events : List MatchEvent) : JsResult Unit := do
  let latest ← latestEvent events
  let sequence ← safeNumber attestation.decidingSequence "deciding sequence"
  let event ← okOr (events.find? (·.seq = sequence)) (.error "void evidence is missing")
  require (normalizedEscrowEvidenceHashV2 sha256 event = attestation.evidenceHash)
    (JsError.error "void evidence is missing")
  require (voidReason event (claimedOutcome spec event (standingGoals events sequence)) =
      some attestation.reason)
    (JsError.error "void reason mismatch")
  require (voidReason latest (claimedOutcome spec latest (standingGoals events latest.seq)) =
      some attestation.reason)
    (JsError.error "void was reversed by later evidence")

end Verify

end CalledIt.Signer
