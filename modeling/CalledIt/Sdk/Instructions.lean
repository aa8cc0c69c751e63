import CalledIt.Sdk.Attestations
import CalledIt.Escrow.Arguments

/-!
# CalledIt.Sdk.Instructions

The client's instruction encoder (`escrow-sdk/src/borsh.ts`,
`escrow-sdk/src/instruction-codec.ts`).

The arguments of each instruction are written by hand onto a `BorshWriter`.  A
request is modelled with the fields that become arguments; the accounts it also
names are put into the transaction by other code.  Hashing, base58 and address
derivation come from `InstructionLibraries`.
-/

namespace CalledIt.Sdk

open Lib
open Escrow (Bytes Pubkey Asset PositionSide VoidReason defaultPubkey utf8)

/-- `PublicKey | string`. -/
inductive PublicKeyInput
  | key (key : Pubkey)
  | text (value : String)

/-- What the encoder uses of `@solana/web3.js` and `@noble/hashes`. -/
structure InstructionLibraries where
  /-- `new PublicKey(text)`. -/
  newPublicKey : String → JsResult Pubkey
  /-- `PublicKey.findProgramAddressSync`. -/
  findProgramAddressSync : List (List UInt8) → Pubkey → JsResult (Pubkey × UInt8)
  sha256 : List UInt8 → Bytes 32

namespace InstructionLibraries

variable (lib : InstructionLibraries)

def publicKey : PublicKeyInput → JsResult Pubkey
  | .key key => .ok key
  | .text value => lib.newPublicKey value

def hashMarketDocumentV1 (document : MarketDocumentV1) : JsResult (List UInt8) := do
  return (lib.sha256 (← encodeMarketDocumentV1 document)).toList

def derive (programId : Pubkey) (seeds : List (List UInt8)) : JsResult Pubkey := do
  return (← lib.findProgramAddressSync seeds programId).1

def deriveProtocolConfigPda (programId : Pubkey) : JsResult Pubkey :=
  lib.derive programId [utf8 "config"]

def deriveOracleSetPda (programId : Pubkey) (epoch : Int) : JsResult Pubkey := do
  let writer ← CanonicalWriter.u64 ⟨[]⟩ epoch "oracle-set epoch"
  lib.derive programId [utf8 "oracle-set", writer.finish]

/-- A market in SOL has no mint: `PublicKey.default`. -/
def tokenMint (asset : Asset) (canonicalUsdcMint : PublicKeyInput) : JsResult Pubkey :=
  if asset = .usdc then lib.publicKey canonicalUsdcMint else .ok defaultPubkey

end InstructionLibraries

/-! ## the writer -/

/-- The chunks written so far, concatenated. -/
structure BorshWriter where
  chunks : List UInt8

namespace BorshWriter

def bytes (writer : BorshWriter) (value : List UInt8) : BorshWriter := ⟨writer.chunks ++ value⟩

def fixed (writer : BorshWriter) (value : List UInt8) (length : Nat) (name : String) :
    JsResult BorshWriter := do
  return writer.bytes (← assertLength value length name)

def publicKey (lib : InstructionLibraries) (writer : BorshWriter) (value : PublicKeyInput) :
    JsResult BorshWriter := do
  return writer.bytes (← lib.publicKey value).toList

def u8 (writer : BorshWriter) (value : Int) (name : String) : JsResult BorshWriter := do
  return writer.bytes (leBytes 1 (← assertInteger value name 0 0xff).toNat)

def bool (writer : BorshWriter) (value : Bool) (name : String) : JsResult BorshWriter :=
  writer.u8 (if value then 1 else 0) name

def u16 (writer : BorshWriter) (value : Int) (name : String) : JsResult BorshWriter := do
  return writer.bytes (leBytes 2 (← assertInteger value name 0 0xffff).toNat)

def u32 (writer : BorshWriter) (value : Int) (name : String) : JsResult BorshWriter := do
  return writer.bytes (leBytes 4 (← assertInteger value name 0 u32Max).toNat)

def u64 (writer : BorshWriter) (value : Int) (name : String) : JsResult BorshWriter := do
  return writer.bytes (leBytes 8 (← assertU64 value name).toNat)

/-- `setBigInt64`: two's complement. -/
def i64 (writer : BorshWriter) (value : Int) (name : String) : JsResult BorshWriter := do
  return writer.bytes (leBytes 8 ((← assertI64 value name) % 2 ^ 64).toNat)

def string (writer : BorshWriter) (value : String) (name : String) : JsResult BorshWriter := do
  let bytes := utf8 value
  let writer ← writer.u32 bytes.length (name ++ " length")
  return writer.bytes bytes

def optionU64 (writer : BorshWriter) (value : Option Int) (name : String) :
    JsResult BorshWriter := do
  let writer ← writer.bool value.isSome (name ++ " present")
  match value with
  | none => return writer
  | some value => writer.u64 value name

def publicKeyVector (lib : InstructionLibraries) (writer : BorshWriter)
    (values : List PublicKeyInput) (name : String) : JsResult BorshWriter := do
  let writer ← writer.u32 values.length (name ++ " length")
  values.foldlM (fun writer value => writer.publicKey lib value) writer

def u64Vector (writer : BorshWriter) (values : List Int) (name : String) :
    JsResult BorshWriter := do
  let writer ← writer.u32 values.length (name ++ " length")
  values.foldlM (fun writer value => writer.u64 value name) writer

def finish (writer : BorshWriter) : List UInt8 := writer.chunks

end BorshWriter

/-! ## the requests -/

structure InitializeConfigInstruction where
  configAuthority : PublicKeyInput
  pauseAuthority : PublicKeyInput
  marketCreationAuthority : PublicKeyInput
  feedOperatorAuthority : PublicKeyInput
  relayerFeePayer : PublicKeyInput
  clusterGenesisHash : List UInt8
  canonicalUsdcMint : PublicKeyInput
  residualRecipient : PublicKeyInput
  minimumSolPosition : Int
  maximumSolPosition : Int
  minimumUsdcPosition : Int
  maximumUsdcPosition : Int
  maximumMarketDurationSeconds : Int
  maximumResolutionDelaySeconds : Int
  allowedTokenProgram : PublicKeyInput

structure RotateOracleSetInstruction where
  epoch : Int
  signers : List PublicKeyInput
  signatureThreshold : Int
  activationSlot : Int
  retirementSlot : Option Int

structure RotateConfigInstruction where
  configAuthority : PublicKeyInput
  pauseAuthority : PublicKeyInput
  marketCreationAuthority : PublicKeyInput
  feedOperatorAuthority : PublicKeyInput
  relayerFeePayer : PublicKeyInput
  residualRecipient : PublicKeyInput
  minimumSolPosition : Int
  maximumSolPosition : Int
  minimumUsdcPosition : Int
  maximumUsdcPosition : Int
  maximumMarketDurationSeconds : Int
  maximumResolutionDelaySeconds : Int

structure InitializeMarketInstruction where
  canonicalUsdcMint : PublicKeyInput
  expectedClusterGenesisHash : List UInt8
  document : MarketDocumentV1
  documentHash : List UInt8

structure FreezeMarketInstruction where
  expectedEventEpoch : Int
  evidenceHash : List UInt8

structure PlacePositionInstruction where
  marketUuid : String
  side : PositionSide
  amount : Int
  expectedAsset : Asset
  expectedRatioMilli : Int
  expectedMarketDocumentHash : List UInt8
  expectedEventEpoch : Int
  expectedLotNonce : Int
  clientIntentHash : List UInt8
  clientExpiryTimestamp : Int

structure ActivatePositionLotInstruction where
  lotNonce : Int
  expectedEventEpoch : Int

structure InvalidatePositionLotInstruction where
  lotNonce : Int
  attestation : PositionInvalidationAttestationV1

inductive EscrowInstructionRequest
  | initializeConfig (request : InitializeConfigInstruction)
  | rotateConfig (request : RotateConfigInstruction)
  | rotateOracleSet (request : RotateOracleSetInstruction)
  | setPause (paused : Bool)
  | initializeMarket (request : InitializeMarketInstruction)
  | freezeMarket (request : FreezeMarketInstruction)
  | unfreezeMarket (attestation : FeedEventAttestationV1)
  | placePosition (request : PlacePositionInstruction)
  | activatePositionLot (request : ActivatePositionLotInstruction)
  | invalidatePositionLot (request : InvalidatePositionLotInstruction)
  | settleMarket (attestation : SettlementAttestationV1)
  | calculatePositionEntitlement
  | voidMarket (attestation : VoidAttestationV1)
  | timeoutVoid
  | claimPosition
  | claimPositionFor
  | closePositionLots (lotNonces : List Int)
  | closePosition
  | closeMarket

def EscrowInstructionRequest.kind : EscrowInstructionRequest → Escrow.InstructionKind
  | initializeConfig _ => .initializeConfig
  | rotateConfig _ => .rotateConfig
  | rotateOracleSet _ => .rotateOracleSet
  | setPause _ => .setPause
  | initializeMarket _ => .initializeMarket
  | freezeMarket _ => .freezeMarket
  | unfreezeMarket _ => .unfreezeMarket
  | placePosition _ => .placePosition
  | activatePositionLot _ => .activatePositionLot
  | invalidatePositionLot _ => .invalidatePositionLot
  | settleMarket _ => .settleMarket
  | calculatePositionEntitlement => .calculatePositionEntitlement
  | voidMarket _ => .voidMarket
  | timeoutVoid => .timeoutVoid
  | claimPosition => .claimPosition
  | claimPositionFor => .claimPositionFor
  | closePositionLots _ => .closePositionLots
  | closePosition => .closePosition
  | closeMarket => .closeMarket

/-- `ESCROW_INSTRUCTION_DISCRIMINATORS`. -/
def discriminator : Escrow.InstructionKind → Bytes 8
  | .initializeConfig => ⟨[208, 127, 21, 1, 194, 190, 196, 70], rfl⟩
  | .rotateConfig => ⟨[14, 194, 225, 236, 162, 78, 30, 83], rfl⟩
  | .rotateOracleSet => ⟨[16, 16, 37, 165, 158, 79, 145, 13], rfl⟩
  | .setPause => ⟨[63, 32, 154, 2, 56, 103, 79, 45], rfl⟩
  | .initializeMarket => ⟨[35, 35, 189, 193, 155, 48, 170, 203], rfl⟩
  | .freezeMarket => ⟨[184, 154, 237, 98, 127, 82, 217, 180], rfl⟩
  | .unfreezeMarket => ⟨[27, 123, 237, 162, 61, 82, 42, 234], rfl⟩
  | .placePosition => ⟨[218, 31, 90, 75, 101, 209, 5, 253], rfl⟩
  | .activatePositionLot => ⟨[103, 117, 132, 237, 19, 177, 249, 210], rfl⟩
  | .invalidatePositionLot => ⟨[218, 95, 132, 244, 150, 115, 16, 73], rfl⟩
  | .settleMarket => ⟨[193, 153, 95, 216, 166, 6, 144, 217], rfl⟩
  | .calculatePositionEntitlement => ⟨[68, 120, 118, 224, 91, 52, 41, 225], rfl⟩
  | .voidMarket => ⟨[243, 175, 46, 124, 95, 101, 39, 69], rfl⟩
  | .timeoutVoid => ⟨[12, 211, 235, 186, 179, 108, 98, 208], rfl⟩
  | .claimPosition => ⟨[168, 90, 89, 44, 203, 246, 210, 46], rfl⟩
  | .claimPositionFor => ⟨[78, 128, 143, 121, 217, 191, 221, 71], rfl⟩
  | .closePositionLots => ⟨[148, 137, 14, 114, 167, 75, 97, 152], rfl⟩
  | .closePosition => ⟨[123, 134, 81, 0, 49, 68, 98, 98], rfl⟩
  | .closeMarket => ⟨[88, 154, 248, 186, 48, 14, 123, 244], rfl⟩

/-! ## the encoder -/

def sideTag : PositionSide → Int
  | .back => 0
  | .doubt => 1

def optionalScore (writer : BorshWriter) (score : Option ScoreV1) (name : String) :
    JsResult BorshWriter := do
  let writer ← writer.bool score.isSome (name ++ " present")
  match score with
  | none => return writer
  | some score =>
      let writer ← writer.u16 score.home (name ++ " home")
      writer.u16 score.away (name ++ " away")

section

variable (lib : InstructionLibraries)

def encodeInitializeConfig (request : InitializeConfigInstruction) : JsResult (List UInt8) := do
  let writer ← BorshWriter.fixed ⟨[]⟩ request.clusterGenesisHash 32 "cluster genesis hash"
  let writer ← writer.publicKey lib request.configAuthority
  let writer ← writer.publicKey lib request.pauseAuthority
  let writer ← writer.publicKey lib request.marketCreationAuthority
  let writer ← writer.publicKey lib request.feedOperatorAuthority
  let writer ← writer.publicKey lib request.relayerFeePayer
  let writer ← writer.publicKey lib request.residualRecipient
  let writer ← writer.publicKey lib request.canonicalUsdcMint
  let writer ← writer.publicKey lib request.allowedTokenProgram
  let writer ← writer.u64 request.maximumSolPosition "maximum SOL position"
  let writer ← writer.u64 request.maximumUsdcPosition "maximum USDC position"
  let writer ← writer.u64 request.minimumSolPosition "minimum SOL position"
  let writer ← writer.u64 request.minimumUsdcPosition "minimum USDC position"
  let writer ← writer.u64 request.maximumMarketDurationSeconds "maximum market duration"
  let writer ← writer.u64 request.maximumResolutionDelaySeconds "maximum resolution delay"
  return writer.finish

def encodeRotateConfig (request : RotateConfigInstruction) : JsResult (List UInt8) := do
  let writer ← BorshWriter.publicKey lib ⟨[]⟩ request.configAuthority
  let writer ← writer.publicKey lib request.pauseAuthority
  let writer ← writer.publicKey lib request.marketCreationAuthority
  let writer ← writer.publicKey lib request.feedOperatorAuthority
  let writer ← writer.publicKey lib request.relayerFeePayer
  let writer ← writer.publicKey lib request.residualRecipient
  let writer ← writer.u64 request.maximumSolPosition "maximum SOL position"
  let writer ← writer.u64 request.maximumUsdcPosition "maximum USDC position"
  let writer ← writer.u64 request.minimumSolPosition "minimum SOL position"
  let writer ← writer.u64 request.minimumUsdcPosition "minimum USDC position"
  let writer ← writer.u64 request.maximumMarketDurationSeconds "maximum market duration"
  let writer ← writer.u64 request.maximumResolutionDelaySeconds "maximum resolution delay"
  return writer.finish

def encodeRotateOracleSet (request : RotateOracleSetInstruction) : JsResult (List UInt8) := do
  let writer ← BorshWriter.u64 ⟨[]⟩ request.epoch "oracle-set epoch"
  let writer ← writer.publicKeyVector lib request.signers "oracle signers"
  let writer ← writer.u8 request.signatureThreshold "signature threshold"
  let writer ← writer.u64 request.activationSlot "activation slot"
  let writer ← writer.optionU64 request.retirementSlot "retirement slot"
  return writer.finish

def encodeSetPause (paused : Bool) : JsResult (List UInt8) := do
  let writer ← BorshWriter.bool ⟨[]⟩ paused "paused"
  return writer.finish

def encodeInitializeMarket (request : InitializeMarketInstruction) (programId : Pubkey) :
    JsResult (List UInt8) := do
  let document := request.document
  let hash ← lib.hashMarketDocumentV1 document
  require (¬ bytesToHex hash ≠ bytesToHex request.documentHash)
    (JsError.error "market document hash does not match the canonical document")
  let tokenMint ← lib.tokenMint document.asset request.canonicalUsdcMint
  let writer ← BorshWriter.fixed ⟨[]⟩ request.expectedClusterGenesisHash 32
    "expected cluster genesis hash"
  let writer ← writer.publicKey lib (.key programId)
  let writer ← writer.publicKey lib (.key (← lib.deriveProtocolConfigPda programId))
  let writer ← writer.publicKey lib
    (.key (← lib.deriveOracleSetPda programId document.oracleSetEpoch))
  let writer ← writer.fixed (← uuidToBytes document.marketUuid) 16 "market UUID"
  let writer ← writer.u64 document.fixtureId "fixture ID"
  let writer ← writer.fixed document.claimSpecificationHash 32 "claim specification hash"
  let writer ← writer.fixed document.displayTermsHash 32 "display terms hash"
  let writer ← writer.fixed document.oddsMessageHash 32 "odds source message hash"
  let writer ← writer.fixed request.documentHash 32 "market document hash"
  let writer ← writer.i64 document.oddsTimestamp "quote timestamp"
  let writer ← writer.u32 document.probabilityPpm "probability PPM"
  let writer ← writer.u32 document.ratioMilli "ratio milli"
  let writer ← writer.u8 (assetTag document.asset) "asset"
  let writer ← writer.publicKey lib (.key tokenMint)
  let writer ← writer.u16 document.feeBps "fee basis points"
  let writer ← writer.bool document.replayFlag "replay"
  let writer ← writer.i64 document.inPlayStartTimestamp "in-play start timestamp"
  let writer ← writer.u64 document.activationDelaySeconds "activation delay seconds"
  let writer ← writer.i64 document.positionCutoff "position cutoff timestamp"
  let writer ← writer.i64 document.resolutionDeadline "resolution deadline"
  let writer ← writer.u64 document.oracleSetEpoch "oracle-set epoch"
  return writer.finish

def encodeFreezeMarket (request : FreezeMarketInstruction) : JsResult (List UInt8) := do
  let writer ← BorshWriter.u64 ⟨[]⟩ request.expectedEventEpoch "expected event epoch"
  let writer ← writer.fixed request.evidenceHash 32 "evidence hash"
  return writer.finish

/-- The attestation names the epoch that unfreezing leads to. -/
def encodeUnfreezeMarket (attestation : FeedEventAttestationV1) : JsResult (List UInt8) := do
  let writer ← BorshWriter.u64 ⟨[]⟩ (attestation.eventEpoch - 1) "expected event epoch"
  let writer ← writer.u64 attestation.decidingSequence "deciding sequence"
  let writer ← writer.i64 attestation.observedAt "observed timestamp"
  let writer ← writer.i64 attestation.issuedAt "issued timestamp"
  let writer ← writer.i64 attestation.expiresAt "expiry timestamp"
  let writer ← writer.fixed attestation.evidenceHash 32 "evidence hash"
  return writer.finish

def encodePlacePosition (request : PlacePositionInstruction) : JsResult (List UInt8) := do
  let writer ← BorshWriter.fixed ⟨[]⟩ (← uuidToBytes request.marketUuid) 16 "market UUID"
  let writer ← writer.u8 (sideTag request.side) "position side"
  let writer ← writer.u64 request.amount "position amount"
  let writer ← writer.u8 (assetTag request.expectedAsset) "expected asset"
  let writer ← writer.u32 request.expectedRatioMilli "expected ratio milli"
  let writer ← writer.fixed request.expectedMarketDocumentHash 32 "expected market document hash"
  let writer ← writer.u64 request.expectedEventEpoch "expected event epoch"
  let writer ← writer.u64 request.expectedLotNonce "expected lot nonce"
  let writer ← writer.fixed request.clientIntentHash 32 "client intent hash"
  let writer ← writer.i64 request.clientExpiryTimestamp "client expiry timestamp"
  return writer.finish

def encodeActivatePositionLot (request : ActivatePositionLotInstruction) :
    JsResult (List UInt8) := do
  let writer ← BorshWriter.u64 ⟨[]⟩ request.lotNonce "lot nonce"
  let writer ← writer.u64 request.expectedEventEpoch "expected event epoch"
  return writer.finish

def encodeInvalidatePositionLot (request : InvalidatePositionLotInstruction) :
    JsResult (List UInt8) := do
  let writer ← BorshWriter.u64 ⟨[]⟩ request.lotNonce "lot nonce"
  let writer ← writer.fixed request.attestation.evidenceHash 32 "evidence hash"
  let writer ← writer.u64 request.attestation.invalidatedEventEpoch "invalidated event epoch"
  let writer ← writer.u64 request.attestation.decidingSequence "deciding sequence"
  let writer ← writer.i64 request.attestation.issuedAt "issued timestamp"
  let writer ← writer.i64 request.attestation.expiresAt "expiry timestamp"
  return writer.finish

/-- The attestation is encoded for its checks only, and its tags are not those of
the arguments. -/
def encodeSettleMarket (attestation : SettlementAttestationV1) : JsResult (List UInt8) := do
  let _ ← encodeSettlementAttestationV1 attestation
  let writer ← BorshWriter.u8 ⟨[]⟩ (if attestation.outcome = .claimWon then 1 else 2)
    "settlement outcome"
  let writer ← writer.u64 attestation.decidingSequence "deciding sequence"
  let writer ← writer.string attestation.terminalPhase "terminal phase"
  let writer ← optionalScore writer attestation.regulationScore "regulation score"
  let writer ← optionalScore writer attestation.fullMatchScore "full-match score"
  let writer ← writer.fixed attestation.evidenceSequenceCommitment 32
    "evidence sequence commitment"
  let writer ← writer.fixed attestation.normalizedEvidenceRoot 32 "normalized evidence root"
  let writer ← writer.i64 attestation.issuedAt "issued timestamp"
  let writer ← writer.i64 attestation.expiresAt "expiry timestamp"
  let writer ← writer.fixed attestation.evidenceHash 32 "evidence hash"
  return writer.finish

def encodeVoidMarket (attestation : VoidAttestationV1) : JsResult (List UInt8) := do
  let _ ← encodeVoidAttestationV1 attestation
  let writer ← BorshWriter.u8 ⟨[]⟩ (voidReasonTag attestation.reason) "void reason"
  let writer ← writer.u64 attestation.decidingSequence "deciding sequence"
  let writer ← writer.i64 attestation.issuedAt "issued timestamp"
  let writer ← writer.i64 attestation.expiresAt "expiry timestamp"
  let writer ← writer.fixed attestation.evidenceHash 32 "evidence hash"
  return writer.finish

def encodeClosePositionLots (lotNonces : List Int) : JsResult (List UInt8) := do
  let writer ← BorshWriter.u64Vector ⟨[]⟩ lotNonces "lot nonces"
  return writer.finish

def encodeRequestArgs (request : EscrowInstructionRequest) (programId : Pubkey) :
    JsResult (List UInt8) :=
  match request with
  | .initializeConfig request => encodeInitializeConfig lib request
  | .rotateConfig request => encodeRotateConfig lib request
  | .rotateOracleSet request => encodeRotateOracleSet lib request
  | .setPause paused => encodeSetPause paused
  | .initializeMarket request => encodeInitializeMarket lib request programId
  | .freezeMarket request => encodeFreezeMarket request
  | .unfreezeMarket attestation => encodeUnfreezeMarket attestation
  | .placePosition request => encodePlacePosition request
  | .activatePositionLot request => encodeActivatePositionLot request
  | .invalidatePositionLot request => encodeInvalidatePositionLot request
  | .settleMarket attestation => encodeSettleMarket attestation
  | .voidMarket attestation => encodeVoidMarket attestation
  | .closePositionLots lotNonces => encodeClosePositionLots lotNonces
  | .calculatePositionEntitlement | .timeoutVoid | .claimPosition | .claimPositionFor
  | .closePosition | .closeMarket => return []

def encodeEscrowInstructionData (request : EscrowInstructionRequest) (programId : Pubkey) :
    JsResult (List UInt8) := do
  let args ← encodeRequestArgs lib request programId
  return (discriminator request.kind).toList ++ args

end

end CalledIt.Sdk
