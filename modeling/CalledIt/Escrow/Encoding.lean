import CalledIt.Lib.Codec
import CalledIt.Escrow.Math

/-!
# CalledIt.Escrow.Encoding

Canonical V1 document and attestation encodings (`encoding.rs`).

The formats are written by hand, field after field, onto a `CanonicalWriter`:
a length-prefixed domain string and a version byte, then the fields in their
documented order, little-endian and at their exact widths.
-/

namespace CalledIt.Escrow

open Lib

inductive EncodingError
  | invalidProbability
  | ratioMismatch
  | nonzeroFee
  | invalidActivationDelay
  | invalidDeadlineOrder
  | invalidValidityWindow
  | invalidEventEpoch
  | invalidOutcome
  | emptyTerminalPhase
  | stringTooLong
  deriving DecidableEq, Repr

abbrev EncodingResult := Except EncodingError

structure MarketDocumentV1 where
  marketUuid : Bytes 16
  fixtureId : UInt64
  claimSpecificationHash : Bytes 32
  displayTermsHash : Bytes 32
  asset : Asset
  probabilityPpm : UInt32
  ratioMilli : UInt32
  oddsMessageHash : Bytes 32
  oddsTimestamp : Int64
  inPlayStartTimestamp : Int64
  activationDelaySeconds : UInt64
  positionCutoff : Int64
  resolutionDeadline : Int64
  feeBps : UInt16
  oracleSetEpoch : UInt64
  replayFlag : Bool

structure AttestationCommonV1 where
  clusterGenesisHash : Bytes 32
  escrowProgramId : Bytes 32
  marketPda : Bytes 32
  marketDocumentHash : Bytes 32
  fixtureId : UInt64
  oracleSetEpoch : UInt64
  issuedAt : Int64
  expiresAt : Int64
  evidenceHash : Bytes 32

structure QuoteAttestationV1 where
  common : AttestationCommonV1
  probabilityPpm : UInt32
  ratioMilli : UInt32
  oddsTimestamp : Int64

inductive FeedEventKind
  | freeze
  | unfreeze
  | priceMoving
  deriving DecidableEq, Repr

structure FeedEventAttestationV1 where
  common : AttestationCommonV1
  eventKind : FeedEventKind
  eventEpoch : UInt64
  decidingSequence : UInt64
  observedAt : Int64

structure PositionInvalidationAttestationV1 where
  common : AttestationCommonV1
  positionLotPda : Bytes 32
  lotNonce : UInt64
  observedEventEpoch : UInt64
  invalidatedEventEpoch : UInt64
  decidingSequence : UInt64

structure ScoreV1 where
  home : UInt16
  away : UInt16
  deriving DecidableEq, Repr

structure SettlementAttestationV1 where
  common : AttestationCommonV1
  outcome : SettlementOutcome
  decidingSequence : UInt64
  terminalPhase : String
  regulationScore : Option ScoreV1
  fullMatchScore : Option ScoreV1
  evidenceSequenceCommitment : Bytes 32
  normalizedEvidenceRoot : Bytes 32

inductive VoidReason
  | cancelled
  | abandoned
  | coverageLoss
  | undecidable
  deriving DecidableEq, Repr

structure VoidAttestationV1 where
  common : AttestationCommonV1
  reason : VoidReason
  decidingSequence : UInt64

/-! ## the writer -/

structure CanonicalWriter where
  bytes : List UInt8

namespace CanonicalWriter

def fixed (writer : CanonicalWriter) (bytes : List UInt8) : CanonicalWriter :=
  ⟨writer.bytes ++ bytes⟩

def u8 (writer : CanonicalWriter) (value : UInt8) : CanonicalWriter := ⟨writer.bytes ++ [value]⟩

def bool (writer : CanonicalWriter) (value : Bool) : CanonicalWriter :=
  writer.u8 (if value then 1 else 0)

def u16 (writer : CanonicalWriter) (value : UInt16) : CanonicalWriter :=
  writer.fixed (leBytes 2 value.toNat)

def u32 (writer : CanonicalWriter) (value : UInt32) : CanonicalWriter :=
  writer.fixed (leBytes 4 value.toNat)

def u64 (writer : CanonicalWriter) (value : UInt64) : CanonicalWriter :=
  writer.fixed (leBytes 8 value.toNat)

/-- Two's complement, little-endian. -/
def i64 (writer : CanonicalWriter) (value : Int64) : CanonicalWriter :=
  writer.fixed (leBytes 8 value.toUInt64.toNat)

def string16 (writer : CanonicalWriter) (value : String) (maximumBytes : Nat) :
    EncodingResult CanonicalWriter :=
  let bytes := utf8 value
  if bytes.length > maximumBytes ∨ bytes.length > 65535 then
    .error .stringTooLong
  else
    .ok ((writer.u16 (UInt16.ofNat bytes.length)).fixed bytes)

def optionalScore (writer : CanonicalWriter) (score : Option ScoreV1) : CanonicalWriter :=
  let writer := writer.bool score.isSome
  match score with
  | some score => (writer.u16 score.home).u16 score.away
  | none => writer

def forDomain (domain : String) : EncodingResult CanonicalWriter := do
  let writer ← string16 ⟨[]⟩ domain 96
  return writer.u8 schemaVersionV1

def finish (writer : CanonicalWriter) : List UInt8 := writer.bytes

end CanonicalWriter

def writerForAttestation (domain : String) (common : AttestationCommonV1) :
    EncodingResult CanonicalWriter := do
  require (¬ common.expiresAt ≤ common.issuedAt) EncodingError.invalidValidityWindow
  let writer ← CanonicalWriter.forDomain domain
  return writer
    |>.fixed common.clusterGenesisHash.toList
    |>.fixed common.escrowProgramId.toList
    |>.fixed common.marketPda.toList
    |>.fixed common.marketDocumentHash.toList
    |>.u64 common.fixtureId
    |>.u64 common.oracleSetEpoch
    |>.i64 common.issuedAt
    |>.i64 common.expiresAt
    |>.fixed common.evidenceHash.toList

def assetTag : Asset → UInt8
  | .sol => 0
  | .usdc => 1

/-! ## the formats -/

/-- The ratio a document quotes must be the one its probability implies. -/
def validateRatio (probabilityPpm ratio : UInt32) : EncodingResult Unit := do
  let expectedRatio ← (ratioMilli probabilityPpm).mapError fun _ => EncodingError.invalidProbability
  require (¬ ratio ≠ expectedRatio) EncodingError.ratioMismatch

def MarketDocumentV1.encode (d : MarketDocumentV1) : EncodingResult (List UInt8) := do
  validateRatio d.probabilityPpm d.ratioMilli
  require (¬ d.feeBps ≠ feeBpsV1) EncodingError.nonzeroFee
  require (¬ d.activationDelaySeconds ≠ positionActivationDelaySecondsV1)
    EncodingError.invalidActivationDelay
  require (¬ (d.positionCutoff ≤ d.oddsTimestamp ∨ d.positionCutoff ≤ d.inPlayStartTimestamp ∨
    d.resolutionDeadline ≤ d.positionCutoff)) EncodingError.invalidDeadlineOrder
  let writer ← CanonicalWriter.forDomain marketDocumentDomainV1
  return (writer
    |>.fixed d.marketUuid.toList
    |>.u64 d.fixtureId
    |>.fixed d.claimSpecificationHash.toList
    |>.fixed d.displayTermsHash.toList
    |>.u8 (assetTag d.asset)
    |>.u32 d.probabilityPpm
    |>.u32 d.ratioMilli
    |>.fixed d.oddsMessageHash.toList
    |>.i64 d.oddsTimestamp
    |>.i64 d.inPlayStartTimestamp
    |>.u64 d.activationDelaySeconds
    |>.i64 d.positionCutoff
    |>.i64 d.resolutionDeadline
    |>.u16 d.feeBps
    |>.u64 d.oracleSetEpoch
    |>.bool d.replayFlag).finish

/-- `MarketDocumentV1::hash`, over the runtime's SHA-256. -/
def MarketDocumentV1.hash (sha256 : List UInt8 → Bytes 32) (d : MarketDocumentV1) :
    EncodingResult (Bytes 32) := do
  return sha256 (← d.encode)

def QuoteAttestationV1.encode (a : QuoteAttestationV1) : EncodingResult (List UInt8) := do
  validateRatio a.probabilityPpm a.ratioMilli
  let writer ← writerForAttestation quoteAttestationDomainV1 a.common
  return (writer
    |>.u32 a.probabilityPpm
    |>.u32 a.ratioMilli
    |>.i64 a.oddsTimestamp).finish

def FeedEventKind.tag : FeedEventKind → UInt8
  | .freeze => 0
  | .unfreeze => 1
  | .priceMoving => 2

def FeedEventAttestationV1.encode (a : FeedEventAttestationV1) : EncodingResult (List UInt8) := do
  let writer ← writerForAttestation feedEventAttestationDomainV1 a.common
  return (writer
    |>.u8 a.eventKind.tag
    |>.u64 a.eventEpoch
    |>.u64 a.decidingSequence
    |>.i64 a.observedAt).finish

def PositionInvalidationAttestationV1.encode (a : PositionInvalidationAttestationV1) :
    EncodingResult (List UInt8) := do
  require (¬ a.invalidatedEventEpoch ≤ a.observedEventEpoch) EncodingError.invalidEventEpoch
  let writer ← writerForAttestation positionInvalidationDomainV1 a.common
  return (writer
    |>.fixed a.positionLotPda.toList
    |>.u64 a.lotNonce
    |>.u64 a.observedEventEpoch
    |>.u64 a.invalidatedEventEpoch
    |>.u64 a.decidingSequence).finish

/-- Only a won or a lost claim has a settlement tag. -/
def outcomeTag : SettlementOutcome → EncodingResult UInt8
  | .claimWon => .ok 0
  | .claimLost => .ok 1
  | .unresolved | .void => .error .invalidOutcome

def SettlementAttestationV1.encode (a : SettlementAttestationV1) :
    EncodingResult (List UInt8) := do
  require (¬ a.terminalPhase = "") EncodingError.emptyTerminalPhase
  let tag ← outcomeTag a.outcome
  let writer ← writerForAttestation settlementAttestationDomainV1 a.common
  let writer ← (writer |>.u8 tag |>.u64 a.decidingSequence).string16 a.terminalPhase 32
  return (writer
    |>.optionalScore a.regulationScore
    |>.optionalScore a.fullMatchScore
    |>.fixed a.evidenceSequenceCommitment.toList
    |>.fixed a.normalizedEvidenceRoot.toList).finish

def VoidReason.tag : VoidReason → UInt8
  | .cancelled => 0
  | .abandoned => 1
  | .coverageLoss => 2
  | .undecidable => 3

def VoidAttestationV1.encode (a : VoidAttestationV1) : EncodingResult (List UInt8) := do
  let writer ← writerForAttestation voidAttestationDomainV1 a.common
  return (writer
    |>.u8 a.reason.tag
    |>.u64 a.decidingSequence).finish

end CalledIt.Escrow
