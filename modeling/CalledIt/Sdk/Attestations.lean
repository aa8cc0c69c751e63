import CalledIt.Sdk.MathReference
import CalledIt.Escrow.Encoding

/-!
# CalledIt.Sdk.Attestations

The client's documents and attestations (`escrow-sdk/src/domain.ts`,
`escrow-sdk/src/attestations.ts`).

They are the formats of `Escrow.Encoding` written a second time: the oracle
signers and the engine encode with these, the program with its own.  The kinds
and reasons are the program's enumerations, and the tags are the client's.
-/

namespace CalledIt.Sdk

open Lib
open Escrow (Asset FeedEventKind VoidReason)

structure MarketDocumentV1 where
  marketUuid : String
  fixtureId : Int
  claimSpecificationHash : List UInt8
  displayTermsHash : List UInt8
  asset : Asset
  probabilityPpm : Int
  ratioMilli : Int
  oddsMessageHash : List UInt8
  oddsTimestamp : Int
  inPlayStartTimestamp : Int
  activationDelaySeconds : Int
  positionCutoff : Int
  resolutionDeadline : Int
  feeBps : Int
  oracleSetEpoch : Int
  replayFlag : Bool

structure AttestationCommonV1 where
  clusterGenesisHash : List UInt8
  escrowProgramId : List UInt8
  marketPda : List UInt8
  marketDocumentHash : List UInt8
  fixtureId : Int
  oracleSetEpoch : Int
  issuedAt : Int
  expiresAt : Int
  evidenceHash : List UInt8
  deriving DecidableEq

structure QuoteAttestationV1 extends AttestationCommonV1 where
  probabilityPpm : Int
  ratioMilli : Int
  oddsTimestamp : Int

structure FeedEventAttestationV1 extends AttestationCommonV1 where
  eventKind : FeedEventKind
  eventEpoch : Int
  decidingSequence : Int
  observedAt : Int

structure PositionInvalidationAttestationV1 extends AttestationCommonV1 where
  positionLotPda : List UInt8
  lotNonce : Int
  observedEventEpoch : Int
  invalidatedEventEpoch : Int
  decidingSequence : Int

structure ScoreV1 where
  home : Int
  away : Int
  deriving DecidableEq, Repr

/-- `Exclude<SettlementOutcome, 'void'>`. -/
inductive ClaimOutcome
  | claimWon
  | claimLost
  deriving DecidableEq, Repr

structure SettlementAttestationV1 extends AttestationCommonV1 where
  outcome : ClaimOutcome
  decidingSequence : Int
  terminalPhase : String
  regulationScore : Option ScoreV1
  fullMatchScore : Option ScoreV1
  evidenceSequenceCommitment : List UInt8
  normalizedEvidenceRoot : List UInt8

structure VoidAttestationV1 extends AttestationCommonV1 where
  reason : VoidReason
  decidingSequence : Int

/-! ## the market document -/

def marketDocumentDomainV1 : String := "calledit.escrow.market.v1"

def positionActivationDelaySecondsV1 : Int := 150

def assetTag : Asset → Int
  | .sol => 0
  | .usdc => 1

def encodeMarketDocumentV1 (document : MarketDocumentV1) : JsResult (List UInt8) := do
  let expectedRatio ← ratioMilliFromProbabilityPpm document.probabilityPpm
  require (¬ document.ratioMilli ≠ expectedRatio) (JsError.error
    ("market ratio " ++ toString document.ratioMilli ++ " does not match probability PPM "
      ++ toString document.probabilityPpm ++ " (" ++ toString expectedRatio ++ ")"))
  require (¬ document.feeBps ≠ 0) (JsError.error "V1 market fee must be zero basis points")
  require (¬ document.activationDelaySeconds ≠ positionActivationDelaySecondsV1) (JsError.error
    ("V1 activation delay must be " ++ toString positionActivationDelaySecondsV1 ++ " seconds"))
  require (¬ document.oddsTimestamp ≥ document.positionCutoff)
    (JsError.error "odds timestamp must be earlier than the position cutoff")
  require (¬ document.inPlayStartTimestamp ≥ document.positionCutoff)
    (JsError.error "position cutoff must be later than the in-play start")
  require (¬ document.resolutionDeadline ≤ document.positionCutoff)
    (JsError.error "resolution deadline must be later than the position cutoff")
  let writer ← writeDomain ⟨[]⟩ marketDocumentDomainV1
  let writer ← writer.fixed (← uuidToBytes document.marketUuid) 16 "market UUID"
  let writer ← writer.u64 document.fixtureId "fixture ID"
  let writer ← writer.fixed document.claimSpecificationHash 32 "claim specification hash"
  let writer ← writer.fixed document.displayTermsHash 32 "display terms hash"
  let writer ← writer.u8 (assetTag document.asset) "asset"
  let writer ← writer.u32 (← assertInteger document.probabilityPpm "probability PPM" 1 999999)
    "probability PPM"
  let writer ← writer.u32 document.ratioMilli "ratio milli"
  let writer ← writer.fixed document.oddsMessageHash 32 "odds message hash"
  let writer ← writer.i64 document.oddsTimestamp "odds timestamp"
  let writer ← writer.i64 document.inPlayStartTimestamp "in-play start timestamp"
  let writer ← writer.u64 document.activationDelaySeconds "activation delay seconds"
  let writer ← writer.i64 document.positionCutoff "position cutoff"
  let writer ← writer.i64 document.resolutionDeadline "resolution deadline"
  let writer ← writer.u16 document.feeBps "fee basis points"
  let writer ← writer.u64 document.oracleSetEpoch "oracle-set epoch"
  let writer ← writer.bool document.replayFlag "replay flag"
  return writer.finish

/-! ## the attestations -/

namespace AttestationDomainsV1

def quote : String := "calledit.escrow.attestation.quote.v1"
def feedEvent : String := "calledit.escrow.attestation.feed-event.v1"
def positionInvalidation : String := "calledit.escrow.attestation.position-invalidation.v1"
def settlement : String := "calledit.escrow.attestation.settlement.v1"
def void : String := "calledit.escrow.attestation.void.v1"

end AttestationDomainsV1

def eventKindTag : FeedEventKind → Int
  | .freeze => 0
  | .unfreeze => 1
  | .priceMoving => 2

def outcomeTag : ClaimOutcome → Int
  | .claimWon => 0
  | .claimLost => 1

def voidReasonTag : VoidReason → Int
  | .cancelled => 0
  | .abandoned => 1
  | .coverageLoss => 2
  | .undecidable => 3

def writerFor (domain : String) (common : AttestationCommonV1) : JsResult CanonicalWriter := do
  require (¬ common.expiresAt ≤ common.issuedAt)
    (JsError.error "attestation expiry must be later than its issue timestamp")
  let writer ← writeDomain ⟨[]⟩ domain
  let writer ← writer.fixed common.clusterGenesisHash 32 "cluster genesis hash"
  let writer ← writer.fixed common.escrowProgramId 32 "escrow program ID"
  let writer ← writer.fixed common.marketPda 32 "market PDA"
  let writer ← writer.fixed common.marketDocumentHash 32 "market document hash"
  let writer ← writer.u64 common.fixtureId "fixture ID"
  let writer ← writer.u64 common.oracleSetEpoch "oracle-set epoch"
  let writer ← writer.i64 common.issuedAt "issued timestamp"
  let writer ← writer.i64 common.expiresAt "expiry timestamp"
  writer.fixed common.evidenceHash 32 "evidence hash"

def writeOptionalScore (writer : CanonicalWriter) (score : Option ScoreV1) (name : String) :
    JsResult CanonicalWriter := do
  let writer ← writer.bool score.isSome (name ++ " present")
  match score with
  | none => return writer
  | some score =>
      let writer ← writer.u16 (← assertInteger score.home (name ++ " home") 0 0xffff)
        (name ++ " home")
      writer.u16 (← assertInteger score.away (name ++ " away") 0 0xffff) (name ++ " away")

def encodeQuoteAttestationV1 (attestation : QuoteAttestationV1) : JsResult (List UInt8) := do
  let expectedRatio ← ratioMilliFromProbabilityPpm attestation.probabilityPpm
  require (¬ attestation.ratioMilli ≠ expectedRatio)
    (JsError.error ("quote attestation ratio must equal " ++ toString expectedRatio))
  let writer ← writerFor AttestationDomainsV1.quote attestation.toAttestationCommonV1
  let writer ← writer.u32 (← assertInteger attestation.probabilityPpm "probability PPM" 1 999999)
    "probability PPM"
  let writer ← writer.u32 attestation.ratioMilli "ratio milli"
  let writer ← writer.i64 attestation.oddsTimestamp "odds timestamp"
  return writer.finish

def encodeFeedEventAttestationV1 (attestation : FeedEventAttestationV1) :
    JsResult (List UInt8) := do
  let writer ← writerFor AttestationDomainsV1.feedEvent attestation.toAttestationCommonV1
  let writer ← writer.u8 (eventKindTag attestation.eventKind) "event kind"
  let writer ← writer.u64 attestation.eventEpoch "event epoch"
  let writer ← writer.u64 attestation.decidingSequence "deciding sequence"
  let writer ← writer.i64 attestation.observedAt "observed timestamp"
  return writer.finish

def encodePositionInvalidationAttestationV1 (attestation : PositionInvalidationAttestationV1) :
    JsResult (List UInt8) := do
  require (¬ attestation.invalidatedEventEpoch ≤ attestation.observedEventEpoch)
    (JsError.error "invalidation event epoch must be later than the observed event epoch")
  let writer ← writerFor AttestationDomainsV1.positionInvalidation attestation.toAttestationCommonV1
  let writer ← writer.fixed attestation.positionLotPda 32 "position lot PDA"
  let writer ← writer.u64 attestation.lotNonce "lot nonce"
  let writer ← writer.u64 attestation.observedEventEpoch "observed event epoch"
  let writer ← writer.u64 attestation.invalidatedEventEpoch "invalidated event epoch"
  let writer ← writer.u64 attestation.decidingSequence "deciding sequence"
  return writer.finish

/-- The phase is checked for emptiness after it has been written. -/
def encodeSettlementAttestationV1 (attestation : SettlementAttestationV1) :
    JsResult (List UInt8) := do
  let writer ← writerFor AttestationDomainsV1.settlement attestation.toAttestationCommonV1
  let writer ← writer.u8 (outcomeTag attestation.outcome) "settlement outcome"
  let writer ← writer.u64 attestation.decidingSequence "deciding sequence"
  let writer ← writer.string16 attestation.terminalPhase "terminal phase" 32
  require (¬ attestation.terminalPhase.length = 0)
    (JsError.error "terminal phase must not be empty")
  let writer ← writeOptionalScore writer attestation.regulationScore "regulation score"
  let writer ← writeOptionalScore writer attestation.fullMatchScore "full-match score"
  let writer ← writer.fixed attestation.evidenceSequenceCommitment 32
    "evidence sequence commitment"
  let writer ← writer.fixed attestation.normalizedEvidenceRoot 32 "normalized evidence root"
  return writer.finish

def encodeVoidAttestationV1 (attestation : VoidAttestationV1) : JsResult (List UInt8) := do
  let writer ← writerFor AttestationDomainsV1.void attestation.toAttestationCommonV1
  let writer ← writer.u8 (voidReasonTag attestation.reason) "void reason"
  let writer ← writer.u64 attestation.decidingSequence "deciding sequence"
  return writer.finish

end CalledIt.Sdk
