import CalledIt.Lib.Codec
import CalledIt.Engine.Evaluate
import CalledIt.Escrow.State

/-!
# CalledIt.Sdk.Evidence

What an attestation commits to (`escrow-sdk/src/evidence.ts`): the provider's
event, the sequence numbers that are evidence, and the two together.

The hash covers an event as the provider sent it: neither the time of receipt nor
a player's name is part of it.  SHA-256 is a parameter.
-/

namespace CalledIt.Sdk

open Lib
open Engine (MatchEvent MatchEventKind GamePhase GoalType CardColor Participant)
open Escrow (Bytes utf8)

/-! ## texts -/

def kindText : MatchEventKind → String
  | .goal => "goal"
  | .goalAmended => "goal_amended"
  | .goalDiscarded => "goal_discarded"
  | .card => "card"
  | .varCheck => "var_check"
  | .varEnd => "var_end"
  | .phaseChange => "phase_change"
  | .lineup => "lineup"
  | .possibleEvent => "possible_event"
  | .oddsSuspension => "odds_suspension"
  | .coverageWarning => "coverage_warning"
  | .statUpdate => "stat_update"
  | .other => "other"

def phaseText : GamePhase → String
  | .ns => "NS"
  | .h1 => "H1"
  | .ht => "HT"
  | .h2 => "H2"
  | .f => "F"
  | .et1 => "ET1"
  | .htet => "HTET"
  | .et2 => "ET2"
  | .fet => "FET"
  | .pe => "PE"
  | .fpe => "FPE"
  | .int => "INT"
  | .abd => "ABD"
  | .can => "CAN"
  | .post => "POST"
  | .covLost => "COV_LOST"

def goalTypeText : GoalType → String
  | .head => "head"
  | .shot => "shot"
  | .ownGoal => "own_goal"
  | .penalty => "penalty"
  | .other => "other"

def cardText : CardColor → String
  | .yellow => "yellow"
  | .red => "red"

def participantNumber : Participant → Nat
  | .one => 1
  | .two => 2

/-- `JSON.stringify` of a plain text. -/
def jsonText (text : String) : String := "\"" ++ text ++ "\""

/-- `JSON.stringify` of a value or `null`. -/
def jsonOption (text : α → String) : Option α → String
  | some value => text value
  | none => "null"

/-- `JSON.stringify` of an array of values already in text form. -/
def jsonArray (items : List String) : String := "[" ++ ",".intercalate items ++ "]"

/-! ## digests -/

variable (sha256 : List UInt8 → Bytes 32)

/-- The domain and its terminator, then every value behind its length. -/
def digest (domain : String) (values : List (List UInt8)) : List UInt8 :=
  (sha256 (utf8 domain ++ [0] ++ values.flatMap fun value =>
    leBytes 4 value.length ++ value)).toList

theorem length_digest {sha256 : List UInt8 → Bytes 32} (domain : String)
    (values : List (List UInt8)) : (digest sha256 domain values).length = 32 := by
  unfold digest
  exact List.Vector.toList_length _

def providerEvidence (event : MatchEvent) : String :=
  jsonArray
    [ jsonText (kindText event.kind), toString event.fixtureId, toString event.seq,
      toString event.tsMs, toString event.confirmed, jsonText (phaseText event.phase),
      jsonOption toString event.minute,
      toString event.score.p1.goals, toString event.score.p1.yellowCards,
      toString event.score.p1.redCards, toString event.score.p1.corners,
      toString event.score.p2.goals, toString event.score.p2.yellowCards,
      toString event.score.p2.redCards, toString event.score.p2.corners,
      jsonOption toString event.score.p1Goals90, jsonOption toString event.score.p2Goals90,
      jsonOption (fun p => toString (participantNumber p)) event.participant,
      jsonOption toString (event.playerNormativeId.getD none),
      jsonOption (fun t => jsonText (goalTypeText t)) event.goalType,
      jsonOption (fun c => jsonText (cardText c)) event.card,
      jsonOption toString event.reversesSeq ]

def normalizedEscrowEvidenceHashV2 (event : MatchEvent) : List UInt8 :=
  digest sha256 "calledit.escrow.normalized-feed-event.v2" [utf8 (providerEvidence event)]

def escrowEvidenceSequenceCommitmentV2 (fixtureId : Nat) (evidenceSequences : List Nat) :
    List UInt8 :=
  digest sha256 "calledit.escrow.evidence-sequences.v2"
    [utf8 (toString fixtureId), utf8 (jsonArray (evidenceSequences.map toString))]

def settlementEvidenceHashV2 (evidenceSequenceCommitment normalizedEvidenceRoot : List UInt8) :
    List UInt8 :=
  digest sha256 "calledit.escrow.settlement-evidence.v2"
    [evidenceSequenceCommitment, normalizedEvidenceRoot]

end CalledIt.Sdk
