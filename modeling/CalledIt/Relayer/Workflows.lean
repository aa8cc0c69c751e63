import CalledIt.Indexer.FinalizedIndexer
import CalledIt.Lib.Texts
import CalledIt.Relayer.JobQueue
import CalledIt.Relayer.JobState

/-!
# CalledIt.Relayer.Workflows

The services that put work on the relayer's queue (`control-workflows.ts`,
`recovery-workflows.ts`, `position-activation-service.ts` of `engine/src/escrow`).

A service takes a request, checks it against the market's link and, for an activation,
against the chain, and makes a job of it: a payload and an idempotency key.  A clock gives a
number of microseconds.
-/

namespace CalledIt.Relayer

open Lib
open Indexer (EscrowChainState)
open Jobs (lower)
open Sdk (FeedEventAttestationV1 PositionInvalidationAttestationV1 SettlementAttestationV1
  VoidAttestationV1 AttestationCommonV1 ScoreV1 ClaimOutcome)
open Signer (hexText eventKindText)
open Wager (maxSafeInteger)

/-! ## what the services share -/

def RelayerJobKind.text : RelayerJobKind → String
  | marketInitialization => "market_initialization"
  | freeze => "freeze"
  | unfreeze => "unfreeze"
  | positionPlacement => "position_placement"
  | positionActivation => "position_activation"
  | positionInvalidation => "position_invalidation"
  | settlementSubmission => "settlement_submission"
  | timeoutMonitoring => "timeout_monitoring"
  | autoClaim => "auto_claim"
  | accountClose => "account_close"

def assetText : Escrow.Asset → String
  | .sol => "sol"
  | .usdc => "usdc"

def chainStateText : EscrowChainState → String
  | .open => "open"
  | .frozen => "frozen"
  | .settled => "settled"
  | .voided => "voided"
  | .closed => "closed"

def marketStateText : Escrow.MarketState → String
  | .opening => "opening"
  | .open => "open"
  | .frozen => "frozen"
  | .settling => "settling"
  | .settled => "settled"
  | .voided => "voided"
  | .closed => "closed"

structure AttestationSignature where
  publicKey : List UInt8
  signature : List UInt8
  deriving DecidableEq

/-- A market link, with what is read of it; `EscrowPlacementMarketLinkResult` where it is
found. -/
structure MarketLink where
  marketId : String
  custodyMode : String
  custodyVersion : Int
  cluster : String
  genesisHash : String
  programId : String
  marketPda : String
  vaultPda : String
  asset : Escrow.Asset
  mintPubkey : Option String
  documentHashHex : String
  oracleEpoch : Int
  eventEpoch : Int
  ratioMilli : Int
  chainState : EscrowChainState
  finalized : Bool
  projectionStale : Bool
  deriving DecidableEq

inductive EscrowReadinessReport
  | ready
  | notReady (reasons : List String)

/-- The libraries under the services; `none` is a throw. -/
structure EscrowLibraries where
  deriveMarketPda : String → String → Option String
  deriveUserPositionPda : String → String → String → Option String
  derivePositionLotPda : String → String → String → Int → Option String
  base58Decode : String → Option (List UInt8)
  sha256Hex : String → String

/-- What is thrown; a service has no other errors than its own and those of a library. -/
inductive ServiceError
  | type (message : String)
  | recovery (code : String)
  | activation (code : String)
  | library
  deriving DecidableEq, Repr

/-! ## payloads -/

/-- A value in the JSON of a payload. -/
inductive Written
  | null
  | number (n : Int)
  | text (s : String)
  | texts (values : List String)
  | score (home away : Int)
  deriving DecidableEq, Repr

structure WrittenSignature where
  publicKeyHex : String
  signatureBase64 : String
  deriving DecidableEq, Repr

/-- The members of an object, in the order of the source. -/
abbrev Members := List (String × Written)

/-- The JSON of a payload: its members beside `attestation` and `signatures`, and these two. -/
structure ServicePayload where
  members : Members
  attestation : Option Members
  signatures : Option (List WrittenSignature)
  deriving DecidableEq, Repr

/-- A `bigint`. -/
def decimal (n : Int) : Written := .text (toString n)

/-- A `Uint8Array`. -/
def hex (bytes : List UInt8) : Written := .text (hexText bytes)

def orNull {α : Type} (write : α → Written) : Option α → Written
  | none => .null
  | some value => write value

def serializeCommon (value : AttestationCommonV1) : Members :=
  [("clusterGenesisHash", hex value.clusterGenesisHash),
    ("escrowProgramId", hex value.escrowProgramId), ("marketPda", hex value.marketPda),
    ("marketDocumentHash", hex value.marketDocumentHash), ("fixtureId", decimal value.fixtureId),
    ("oracleSetEpoch", decimal value.oracleSetEpoch), ("issuedAt", decimal value.issuedAt),
    ("expiresAt", decimal value.expiresAt), ("evidenceHash", hex value.evidenceHash)]

def serializeFeedEvent (value : FeedEventAttestationV1) : Members :=
  serializeCommon value.toAttestationCommonV1 ++
    [("eventKind", .text (eventKindText value.eventKind)),
      ("eventEpoch", decimal value.eventEpoch),
      ("decidingSequence", decimal value.decidingSequence),
      ("observedAt", decimal value.observedAt)]

def serializeInvalidation (value : PositionInvalidationAttestationV1) : Members :=
  serializeCommon value.toAttestationCommonV1 ++
    [("positionLotPda", hex value.positionLotPda), ("lotNonce", decimal value.lotNonce),
      ("observedEventEpoch", decimal value.observedEventEpoch),
      ("invalidatedEventEpoch", decimal value.invalidatedEventEpoch),
      ("decidingSequence", decimal value.decidingSequence)]

def claimOutcomeText : ClaimOutcome → String
  | .claimWon => "claim_won"
  | .claimLost => "claim_lost"

def voidReasonText : Escrow.VoidReason → String
  | .cancelled => "cancelled"
  | .abandoned => "abandoned"
  | .coverageLoss => "coverage_loss"
  | .undecidable => "undecidable"

def serializeScore (value : ScoreV1) : Written := .score value.home value.away

def serializeSettlement (value : SettlementAttestationV1) : Members :=
  serializeCommon value.toAttestationCommonV1 ++
    [("outcome", .text (claimOutcomeText value.outcome)),
      ("decidingSequence", decimal value.decidingSequence),
      ("terminalPhase", .text value.terminalPhase),
      ("regulationScore", orNull serializeScore value.regulationScore),
      ("fullMatchScore", orNull serializeScore value.fullMatchScore),
      ("evidenceSequenceCommitment", hex value.evidenceSequenceCommitment),
      ("normalizedEvidenceRoot", hex value.normalizedEvidenceRoot)]

def serializeVoid (value : VoidAttestationV1) : Members :=
  serializeCommon value.toAttestationCommonV1 ++
    [("reason", .text (voidReasonText value.reason)),
      ("decidingSequence", decimal value.decidingSequence)]

def serializeSignature (value : AttestationSignature) : WrittenSignature where
  publicKeyHex := hexText value.publicKey
  signatureBase64 := String.ofList (base64 value.signature)

/-- Every signature has its length, and no two are of one signer. -/
def SignaturesFit (signatures : List AttestationSignature) : Prop :=
  (∀ signature ∈ signatures,
    signature.publicKey.length = 32 ∧ signature.signature.length = 64) ∧
    (signatures.map fun signature => hexText signature.publicKey).Nodup

instance (signatures : List AttestationSignature) : Decidable (SignaturesFit signatures) :=
  inferInstanceAs (Decidable (_ ∧ _))

/-- An attestation is about the market of the link. -/
def AttestsLink (genesis program market : List UInt8) (link : MarketLink)
    (value : AttestationCommonV1) : Prop :=
  hexText value.clusterGenesisHash = hexText genesis ∧
    hexText value.escrowProgramId = hexText program ∧
    hexText value.marketPda = hexText market ∧
    hexText value.marketDocumentHash = lower link.documentHashHex ∧
    value.oracleSetEpoch = link.oracleEpoch

instance (genesis program market : List UInt8) (link : MarketLink) (value : AttestationCommonV1) :
    Decidable (AttestsLink genesis program market link value) :=
  inferInstanceAs (Decidable (_ ∧ _))

/-- What a service asks of the queue, or the reasons why it does not. -/
inductive Enqueued
  | blocked (reasons : List String)
  | job (input : EnqueueRelayerJob ServicePayload)

/-- `leaseMs` is left to the client of the database. -/
def relayerJob (kind : RelayerJobKind) (idempotencyKey cluster programId : String)
    (custodyVersion : Int) (marketId : String) (ownerPubkey : Option String)
    (payload : ServicePayload) (dueAt now : Int) : EnqueueRelayerJob ServicePayload where
  kind := kind
  idempotencyKey := idempotencyKey
  cluster := cluster
  programId := programId
  custodyMode := "escrow"
  custodyVersion := custodyVersion
  marketId := some marketId
  ownerPubkey := ownerPubkey
  payload := payload
  dueAt := dueAt
  maxAttempts := 12
  leaseMs := 60000
  now := now

/-- What all three services ask of the link of a request. -/
def LinkFits (cluster genesisHash programId : String) (custodyVersion : Int) (marketPda : String)
    (link : MarketLink) : Prop :=
  link.custodyMode = "escrow" ∧ link.custodyVersion = custodyVersion ∧ link.cluster = cluster ∧
    link.genesisHash = genesisHash ∧ link.programId = programId ∧ link.marketPda = marketPda ∧
    link.finalized = true ∧ link.projectionStale = false

instance (cluster genesisHash programId : String) (custodyVersion : Int) (marketPda : String)
    (link : MarketLink) :
    Decidable (LinkFits cluster genesisHash programId custodyVersion marketPda link) :=
  inferInstanceAs (Decidable (_ ∧ _))

/-! ## control -/

structure EscrowControlDeployment where
  cluster : String
  genesisHash : String
  programId : String
  custodyVersion : Int
  feedOperatorAuthority : String

inductive EscrowControlRequest
  | freezeMarket (marketPda : String) (expectedEventEpoch : Int)
      (attestation : FeedEventAttestationV1) (signatures : List AttestationSignature)
  | unfreezeMarket (marketPda : String) (attestation : FeedEventAttestationV1)
      (signatures : List AttestationSignature)
  | invalidatePositionLot (marketPda owner : String) (lotNonce : Int) (positionLotPda : String)
      (attestation : PositionInvalidationAttestationV1) (signatures : List AttestationSignature)

namespace EscrowControlRequest

def operation : EscrowControlRequest → String
  | freezeMarket .. => "freeze_market"
  | unfreezeMarket .. => "unfreeze_market"
  | invalidatePositionLot .. => "invalidate_position_lot"

def marketPda : EscrowControlRequest → String
  | freezeMarket market _ _ _ => market
  | unfreezeMarket market _ _ => market
  | invalidatePositionLot market _ _ _ _ _ => market

def common : EscrowControlRequest → AttestationCommonV1
  | freezeMarket _ _ attestation _ => attestation.toAttestationCommonV1
  | unfreezeMarket _ attestation _ => attestation.toAttestationCommonV1
  | invalidatePositionLot _ _ _ _ attestation _ => attestation.toAttestationCommonV1

def signatures : EscrowControlRequest → List AttestationSignature
  | freezeMarket _ _ _ signatures => signatures
  | unfreezeMarket _ _ signatures => signatures
  | invalidatePositionLot _ _ _ _ _ signatures => signatures

def kind : EscrowControlRequest → RelayerJobKind
  | freezeMarket .. => .freeze
  | unfreezeMarket .. => .unfreeze
  | invalidatePositionLot .. => .positionInvalidation

def owner : EscrowControlRequest → Option String
  | invalidatePositionLot _ owner _ _ _ _ => some owner
  | _ => none

/-- `serializeAttestation`. -/
def serializeAttestation : EscrowControlRequest → Members
  | freezeMarket _ _ attestation _ => serializeFeedEvent attestation
  | unfreezeMarket _ attestation _ => serializeFeedEvent attestation
  | invalidatePositionLot _ _ _ _ attestation _ => serializeInvalidation attestation

/-- The members of one operation only. -/
def ownMembers : EscrowControlRequest → Members
  | freezeMarket _ expectedEventEpoch _ _ => [("expectedEventEpoch", decimal expectedEventEpoch)]
  | unfreezeMarket .. => []
  | invalidatePositionLot _ owner lotNonce positionLotPda _ _ =>
      [("owner", .text owner), ("lotNonce", decimal lotNonce),
        ("positionLotPda", .text positionLotPda)]

def discriminator : EscrowControlRequest → String
  | invalidatePositionLot _ owner lotNonce _ _ _ => owner ++ ":" ++ toString lotNonce
  | freezeMarket _ _ attestation _ => hexText attestation.evidenceHash
  | unfreezeMarket _ attestation _ => hexText attestation.evidenceHash

end EscrowControlRequest

namespace EscrowControl

section

variable (libraries : EscrowLibraries) (deployment : EscrowControlDeployment)

def requireLink (link : Option MarketLink) (request : EscrowControlRequest) :
    Except ServiceError MarketLink := do
  let mismatch := ServiceError.type "escrow control market identity mismatch"
  let link ← okOr link mismatch
  require (LinkFits deployment.cluster deployment.genesisHash deployment.programId
    deployment.custodyVersion request.marketPda link) mismatch
  let derived ← okOr (libraries.deriveMarketPda deployment.programId link.marketId)
    ServiceError.library
  require (derived = request.marketPda ∧ link.chainState ≠ .closed) mismatch
  return link

/-- What is asked of one operation only. -/
def ownChecks (request : EscrowControlRequest) : Except ServiceError Unit :=
  match request with
  | .freezeMarket _ expectedEventEpoch attestation _ =>
      require (attestation.eventKind = .freeze ∧ attestation.eventEpoch = expectedEventEpoch + 1)
        (ServiceError.type "escrow freeze epoch mismatch")
  | .unfreezeMarket _ attestation _ =>
      require (attestation.eventKind = .unfreeze)
        (ServiceError.type "escrow unfreeze attestation mismatch")
  | .invalidatePositionLot _ _ lotNonce positionLotPda attestation _ => do
      let mismatch := ServiceError.type "escrow invalidation lot mismatch"
      require (attestation.lotNonce = lotNonce) mismatch
      let lot ← okOr (libraries.base58Decode positionLotPda) ServiceError.library
      require (hexText attestation.positionLotPda = hexText lot) mismatch

def validateAttestation (request : EscrowControlRequest) (link : MarketLink) :
    Except ServiceError Unit := do
  let genesis ← okOr (libraries.base58Decode deployment.genesisHash) ServiceError.library
  let program ← okOr (libraries.base58Decode deployment.programId) ServiceError.library
  let market ← okOr (libraries.base58Decode link.marketPda) ServiceError.library
  require (AttestsLink genesis program market link request.common ∧
    2 ≤ request.signatures.length ∧ SignaturesFit request.signatures)
    (ServiceError.type "escrow control attestation mismatch")
  ownChecks libraries request

def payload (request : EscrowControlRequest) (link : MarketLink) : ServicePayload where
  members :=
    [("schemaVersion", .number 1), ("operation", .text request.operation),
      ("marketId", .text link.marketId), ("marketPda", .text link.marketPda),
      ("documentHashHex", .text link.documentHashHex), ("oracleEpoch", decimal link.oracleEpoch),
      ("feedOperatorAuthority", .text deployment.feedOperatorAuthority)] ++ request.ownMembers
  attestation := some request.serializeAttestation
  signatures := some (request.signatures.map serializeSignature)

def idempotencyKey (request : EscrowControlRequest) (link : MarketLink) : String :=
  "escrow:v1:" ++ request.kind.text ++ ":" ++ link.marketPda ++ ":" ++ request.discriminator

def enqueue (readiness : EscrowReadinessReport) (link : Option MarketLink) (now : Int)
    (request : EscrowControlRequest) : Except ServiceError Enqueued :=
  match readiness with
  | .notReady reasons => .ok (.blocked reasons)
  | .ready => do
      let link ← requireLink libraries deployment link request
      validateAttestation libraries deployment request link
      return .job (relayerJob request.kind (idempotencyKey request link) deployment.cluster
        deployment.programId deployment.custodyVersion link.marketId request.owner
        (payload deployment request link) now now)

end

end EscrowControl

/-! ## recovery -/

structure EscrowRecoveryDeployment where
  cluster : String
  genesisHash : String
  programId : String
  custodyVersion : Int

def maxClosePositionLotsPerTransaction : Nat := 8

inductive EscrowRecoveryRequest
  | settleMarket (marketPda : String) (attestation : SettlementAttestationV1)
      (signatures : List AttestationSignature)
  | voidMarket (marketPda : String) (attestation : VoidAttestationV1)
      (signatures : List AttestationSignature)
  | timeoutVoid (marketPda : String)
  | calculatePositionEntitlement (marketPda owner : String)
  | claimPositionFor (marketPda owner : String)
  | closePositionLots (marketPda owner : String) (lotNonces : List Int)
  | closePosition (marketPda owner : String)
  | closeMarket (marketPda : String)

namespace EscrowRecoveryRequest

def operation : EscrowRecoveryRequest → String
  | settleMarket .. => "settle_market"
  | voidMarket .. => "void_market"
  | timeoutVoid .. => "timeout_void"
  | calculatePositionEntitlement .. => "calculate_position_entitlement"
  | claimPositionFor .. => "claim_position_for"
  | closePositionLots .. => "close_position_lots"
  | closePosition .. => "close_position"
  | closeMarket .. => "close_market"

def marketPda : EscrowRecoveryRequest → String
  | settleMarket market _ _ => market
  | voidMarket market _ _ => market
  | timeoutVoid market => market
  | calculatePositionEntitlement market _ => market
  | claimPositionFor market _ => market
  | closePositionLots market _ _ => market
  | closePosition market _ => market
  | closeMarket market => market

def jobKind : EscrowRecoveryRequest → RelayerJobKind
  | settleMarket .. | voidMarket .. => .settlementSubmission
  | timeoutVoid .. => .timeoutMonitoring
  | calculatePositionEntitlement .. | claimPositionFor .. => .autoClaim
  | closePositionLots .. | closePosition .. | closeMarket .. => .accountClose

def owner : EscrowRecoveryRequest → Option String
  | calculatePositionEntitlement _ owner => some owner
  | claimPositionFor _ owner => some owner
  | closePositionLots _ owner _ => some owner
  | closePosition _ owner => some owner
  | settleMarket .. | voidMarket .. | timeoutVoid .. | closeMarket .. => none

/-- The attestation of a terminal submission, with its signatures. -/
def attested : EscrowRecoveryRequest → Option (AttestationCommonV1 × List AttestationSignature)
  | settleMarket _ attestation signatures => some (attestation.toAttestationCommonV1, signatures)
  | voidMarket _ attestation signatures => some (attestation.toAttestationCommonV1, signatures)
  | _ => none

end EscrowRecoveryRequest

/-- Each nonce is not negative, and one less than the one before it. -/
def descending : List Int → Bool
  | [] => true
  | [nonce] => 0 ≤ nonce
  | nonce :: next :: rest => 0 ≤ nonce && nonce = next + 1 && descending (next :: rest)

namespace EscrowRecovery

section

variable (libraries : EscrowLibraries) (deployment : EscrowRecoveryDeployment)

def requireLink (link : Option MarketLink) (marketPda : String) :
    Except ServiceError MarketLink := do
  let mismatch := ServiceError.recovery "market_identity_mismatch"
  let link ← okOr link mismatch
  require (LinkFits deployment.cluster deployment.genesisHash deployment.programId
    deployment.custodyVersion marketPda link) mismatch
  let derived ← okOr (libraries.deriveMarketPda deployment.programId link.marketId)
    ServiceError.library
  require (derived = marketPda) mismatch
  return link

def assertAttestation (attestation : AttestationCommonV1)
    (signatures : List AttestationSignature) (link : MarketLink) : Except ServiceError Unit := do
  let genesis ← okOr (libraries.base58Decode deployment.genesisHash) ServiceError.library
  let program ← okOr (libraries.base58Decode deployment.programId) ServiceError.library
  let market ← okOr (libraries.base58Decode link.marketPda) ServiceError.library
  require (genesis.length = 32 ∧ AttestsLink genesis program market link attestation ∧
    0 < signatures.length ∧ SignaturesFit signatures)
    (ServiceError.recovery "attestation_mismatch")

def assertAttested (request : EscrowRecoveryRequest) (link : MarketLink) :
    Except ServiceError Unit :=
  match request.attested with
  | some (attestation, signatures) =>
      assertAttestation libraries deployment attestation signatures link
  | none => .ok ()

def common (request : EscrowRecoveryRequest) (link : MarketLink) : Members :=
  [("schemaVersion", .number 1), ("operation", .text request.operation),
    ("marketId", .text link.marketId), ("marketPda", .text link.marketPda),
    ("documentHashHex", .text link.documentHashHex), ("oracleEpoch", decimal link.oracleEpoch),
    ("asset", .text (assetText link.asset)), ("mintPubkey", orNull Written.text link.mintPubkey)]

def payload (request : EscrowRecoveryRequest) (link : MarketLink) :
    Except ServiceError ServicePayload :=
  let common := common request link
  match request with
  | .settleMarket _ attestation signatures =>
      .ok ⟨common, some (serializeSettlement attestation),
        some (signatures.map serializeSignature)⟩
  | .voidMarket _ attestation signatures =>
      .ok ⟨common, some (serializeVoid attestation), some (signatures.map serializeSignature)⟩
  | .closePositionLots _ owner lotNonces => do
      require (lotNonces ≠ [] ∧ lotNonces.length ≤ maxClosePositionLotsPerTransaction ∧
        descending lotNonces) (ServiceError.recovery "invalid_request")
      return ⟨common ++ [("owner", .text owner), ("lotNonces", .texts (lotNonces.map toString))],
        none, none⟩
  | .calculatePositionEntitlement _ owner => .ok ⟨common ++ [("owner", .text owner)], none, none⟩
  | .claimPositionFor _ owner => .ok ⟨common ++ [("owner", .text owner)], none, none⟩
  | .closePosition _ owner => .ok ⟨common ++ [("owner", .text owner)], none, none⟩
  | .timeoutVoid _ => .ok ⟨common, none, none⟩
  | .closeMarket _ => .ok ⟨common, none, none⟩

/-- Evidence identifies the decision, the expiry a signed envelope that can be renewed. -/
def discriminator (request : EscrowRecoveryRequest) (link : MarketLink) : String :=
  match request with
  | .settleMarket _ attestation _ =>
      hexText attestation.evidenceHash ++ ":" ++ toString attestation.expiresAt
  | .voidMarket _ attestation _ =>
      hexText attestation.evidenceHash ++ ":" ++ toString attestation.expiresAt
  | .closePositionLots _ owner lotNonces =>
      owner ++ ":" ++ libraries.sha256Hex (",".intercalate (lotNonces.map toString))
  | .calculatePositionEntitlement _ owner => owner
  | .claimPositionFor _ owner => owner
  | .closePosition _ owner => owner
  | .timeoutVoid _ => link.marketPda
  | .closeMarket _ => link.marketPda

def idempotencyKey (request : EscrowRecoveryRequest) (link : MarketLink) : String :=
  "escrow:v1:" ++ request.jobKind.text ++ ":" ++ request.operation ++ ":" ++ link.marketPda ++
    ":" ++ discriminator libraries request link

/-- Why a request waits.  A terminal submission does not wait for the indexer. -/
def blockedBy (request : EscrowRecoveryRequest) : EscrowReadinessReport → Option (List String)
  | .ready => none
  | .notReady reasons =>
      if request.attested.isSome ∧
          reasons.all (fun reason =>
            reason = "indexer_unavailable" ∨ reason = "indexer_lagging") then
        none
      else some reasons

def enqueue (readiness : EscrowReadinessReport) (link : Option MarketLink) (now : Int)
    (request : EscrowRecoveryRequest) : Except ServiceError Enqueued :=
  match blockedBy request readiness with
  | some reasons => .ok (.blocked reasons)
  | none => do
      let link ← requireLink libraries deployment link request.marketPda
      require (link.chainState ≠ .closed) (ServiceError.recovery "market_unavailable")
      assertAttested libraries deployment request link
      let payload ← payload request link
      return .job (relayerJob request.jobKind (idempotencyKey libraries request link)
        deployment.cluster deployment.programId deployment.custodyVersion link.marketId
        request.owner payload now now)

end

end EscrowRecovery

/-! ## activation -/

structure EscrowPositionActivationDeployment where
  cluster : String
  genesisHash : String
  programId : String
  custodyVersion : Int
  relayerFeePayer : String

structure ScheduleEscrowPositionActivationInput where
  marketPda : String
  owner : String
  lotNonce : Int
  expectedEventEpoch : Int

/-- An account as it is read, with its address. -/
structure DecodedAccount (α : Type) where
  address : String
  ownerProgramId : String
  value : α

structure MarketAccount where
  marketUuid : String
  marketDocumentHash : List UInt8
  ratioMilli : Int
  asset : Escrow.Asset
  tokenMint : Option String
  state : Escrow.MarketState
  oracleSetEpoch : Int
  eventEpoch : Int
  pendingBackTotal : Int
  pendingDoubtTotal : Int
  vault : String

structure UserPositionAccount where
  market : String
  owner : String
  side : Escrow.PositionSide
  pendingAmount : Int
  nextLotNonce : Int
  claimed : Bool

structure PositionLotAccount where
  market : String
  owner : String
  nonce : Int
  side : Escrow.PositionSide
  amount : Int
  observedEventEpoch : Int
  state : Escrow.LotState
  activationTimestamp : Option Int
  invalidationEvidenceHash : Option (List UInt8)

/-- What the service is told of the chain, and when. -/
structure ActivationView where
  readiness : EscrowReadinessReport
  genesisHash : String
  link : Option MarketLink
  market : Option (DecodedAccount MarketAccount)
  position : Option (DecodedAccount UserPositionAccount)
  lot : Option (DecodedAccount PositionLotAccount)
  now : Int

inductive Scheduled
  | blocked (reasons : List String)
  | alreadyActive
  | job (input : EnqueueRelayerJob ServicePayload)

namespace EscrowActivation

def exactAccount {α : Type} (account : Option (DecodedAccount α)) (address programId : String)
    (code : String) : Except ServiceError α := do
  let account ← okOr account (ServiceError.activation code)
  require (account.address = address ∧ account.ownerProgramId = programId)
    (ServiceError.activation code)
  return account.value

/-- A date is at most so many milliseconds. -/
def maxDate : Int := 8640000000000000

def activationDueAt (timestamp : Int) : Except ServiceError Int := do
  require (0 ≤ timestamp ∧ timestamp * 1000 ≤ maxSafeInteger ∧ timestamp * 1000 ≤ maxDate)
    (ServiceError.activation "lot_identity_mismatch")
  return timestamp * 1000000

section

variable (libraries : EscrowLibraries) (deployment : EscrowPositionActivationDeployment)

def requireLink (link : Option MarketLink) (marketPda : String) :
    Except ServiceError MarketLink := do
  let mismatch := ServiceError.activation "market_identity_mismatch"
  let link ← okOr link mismatch
  require (LinkFits deployment.cluster deployment.genesisHash deployment.programId
    deployment.custodyVersion marketPda link) mismatch
  let derived ← okOr (libraries.deriveMarketPda deployment.programId link.marketId)
    ServiceError.library
  require (derived = marketPda) mismatch
  return link

/-- The market on the chain is the one of the link. -/
def requireMarket (view : ActivationView) (link : MarketLink)
    (input : ScheduleEscrowPositionActivationInput) : Except ServiceError MarketAccount := do
  require view.market.isSome (ServiceError.activation "market_unavailable")
  let market ← exactAccount view.market input.marketPda deployment.programId
    "market_identity_mismatch"
  require (market.marketUuid = link.marketId ∧
    hexText market.marketDocumentHash = lower link.documentHashHex ∧
    market.oracleSetEpoch = link.oracleEpoch ∧ market.asset = link.asset ∧
    market.tokenMint = link.mintPubkey ∧ market.vault = link.vaultPda ∧
    market.ratioMilli = link.ratioMilli ∧
    marketStateText market.state = chainStateText link.chainState)
    (ServiceError.activation "market_identity_mismatch")
  require (market.state = .open ∨ market.state = .frozen)
    (ServiceError.activation "market_unavailable")
  require (market.eventEpoch = input.expectedEventEpoch ∧
    link.eventEpoch = input.expectedEventEpoch) (ServiceError.activation "stale_epoch")
  return market

/-- The lot is a lot of the position, observed at the epoch of the request. -/
def requireLot (view : ActivationView) (market : MarketAccount)
    (input : ScheduleEscrowPositionActivationInput) (positionPda lotPda : String) :
    Except ServiceError (PositionLotAccount × Int) := do
  let position ← exactAccount view.position positionPda deployment.programId
    "position_identity_mismatch"
  let lot ← exactAccount view.lot lotPda deployment.programId "lot_identity_mismatch"
  require (position.market = input.marketPda ∧ position.owner = input.owner ∧
    position.claimed = false ∧ input.lotNonce < position.nextLotNonce)
    (ServiceError.activation "position_identity_mismatch")
  let mismatch := ServiceError.activation "lot_identity_mismatch"
  let activationTimestamp ← okOr lot.activationTimestamp mismatch
  require (lot.market = input.marketPda ∧ lot.owner = input.owner ∧ lot.nonce = input.lotNonce ∧
    lot.side = position.side ∧ 0 < lot.amount ∧
    lot.observedEventEpoch = input.expectedEventEpoch ∧ lot.amount ≤ position.pendingAmount)
    mismatch
  let marketPending :=
    if lot.side = .back then market.pendingBackTotal else market.pendingDoubtTotal
  require (lot.amount ≤ marketPending) mismatch
  require (lot.state ≠ .voided ∧ lot.invalidationEvidenceHash = none)
    (ServiceError.activation "lot_invalidated")
  return (lot, activationTimestamp)

def payload (link : MarketLink) (input : ScheduleEscrowPositionActivationInput)
    (positionPda lotPda : String) (activationTimestamp : Int) : ServicePayload where
  members :=
    [("schemaVersion", .number 1), ("operation", .text "activate_position_lot"),
      ("cluster", .text deployment.cluster), ("genesisHash", .text deployment.genesisHash),
      ("programId", .text deployment.programId),
      ("custodyVersion", .number deployment.custodyVersion),
      ("relayerFeePayer", .text deployment.relayerFeePayer), ("marketId", .text link.marketId),
      ("marketPda", .text input.marketPda),
      ("documentHashHex", .text (lower link.documentHashHex)),
      ("positionPda", .text positionPda), ("positionLotPda", .text lotPda),
      ("owner", .text input.owner), ("lotNonce", decimal input.lotNonce),
      ("expectedEventEpoch", decimal input.expectedEventEpoch),
      ("activationTimestamp", decimal activationTimestamp)]
  attestation := none
  signatures := none

def identity (input : ScheduleEscrowPositionActivationInput) : EscrowRelayerJobIdentity where
  programId := deployment.programId
  marketPda := input.marketPda
  subject := .positionActivation input.owner input.lotNonce input.expectedEventEpoch

/-- A lot that is neither active nor voided is pending. -/
def schedule (view : ActivationView) (input : ScheduleEscrowPositionActivationInput) :
    Except ServiceError Scheduled := do
  let invalidRequest := ServiceError.activation "invalid_request"
  require (0 ≤ input.lotNonce ∧ 0 ≤ input.expectedEventEpoch) invalidRequest
  let positionPda ← okOr (libraries.deriveUserPositionPda deployment.programId input.marketPda
    input.owner) invalidRequest
  let lotPda ← okOr (libraries.derivePositionLotPda deployment.programId input.marketPda
    input.owner input.lotNonce) invalidRequest
  match view.readiness with
  | .notReady reasons => return .blocked reasons
  | .ready => do
      require (view.genesisHash = deployment.genesisHash)
        (ServiceError.activation "deployment_mismatch")
      let link ← requireLink libraries deployment view.link input.marketPda
      let market ← requireMarket deployment view link input
      let (lot, activationTimestamp) ← requireLot deployment view market input positionPda lotPda
      match lot.state with
      | .active => return .alreadyActive
      | .pending | .voided => do
          let key ← okOr (createEscrowJobIdempotencyKey (identity deployment input))
            ServiceError.library
          let dueAt ← activationDueAt activationTimestamp
          return .job (relayerJob .positionActivation key deployment.cluster deployment.programId
            deployment.custodyVersion link.marketId (some input.owner)
            (payload deployment link input positionPda lotPda activationTimestamp) dueAt view.now)

end

end EscrowActivation

end CalledIt.Relayer
