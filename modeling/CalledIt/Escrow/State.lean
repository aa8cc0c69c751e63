import Mathlib.Data.Vector.Basic
import CalledIt.Lib.Checked

/-!
# CalledIt.Escrow.State

Constants, account layouts and error codes of the escrow program
(`constants.rs`, `state/mod.rs`, `errors.rs`).

Fixed-width integers are Lean's `UIntN`/`Int64`; a public key or a hash is a
byte vector of its exact length, so a value of the wrong width cannot be
written down.  The account-space constants and the message texts of the error
codes are read by no modelled function and are left out.
-/

namespace CalledIt.Escrow

/-- Exactly `n` bytes. -/
abbrev Bytes (n : Nat) := List.Vector UInt8 n

/-- An account address. -/
abbrev Pubkey := Bytes 32

/-- `Pubkey::default()`, which is also the system program's address. -/
def defaultPubkey : Pubkey := List.Vector.replicate 32 0

/-- The all-zero 32-byte hash. -/
def zeroHash : Bytes 32 := List.Vector.replicate 32 0

/-- The UTF-8 bytes of a string. -/
def utf8 (s : String) : List UInt8 := s.toUTF8.data.toList

/-! ## constants.rs -/

def schemaVersionV1 : UInt8 := 1
def multiplierScale : UInt64 := 1000
/-- Anti-snipe window: 60s assumed feed delay plus 90s debounce. -/
def positionActivationDelaySecondsV1 : UInt64 := 150
def probabilityPpmScale : UInt32 := 1000000
def feeBpsV1 : UInt16 := 0
def usdcDecimals : UInt8 := 6

def configSeed : List UInt8 := utf8 "config"
def oracleSetSeed : List UInt8 := utf8 "oracle-set"
def marketSeed : List UInt8 := utf8 "market"
def positionSeed : List UInt8 := utf8 "position"
def lotSeed : List UInt8 := utf8 "lot"
def solVaultSeed : List UInt8 := utf8 "vault"

def oracleSignerCountV1 : Nat := 3
def oracleThresholdV1 : UInt8 := 2

def marketDocumentDomainV1 : String := "calledit.escrow.market.v1"
def quoteAttestationDomainV1 : String := "calledit.escrow.attestation.quote.v1"
def feedEventAttestationDomainV1 : String := "calledit.escrow.attestation.feed-event.v1"
def positionInvalidationDomainV1 : String :=
  "calledit.escrow.attestation.position-invalidation.v1"
def settlementAttestationDomainV1 : String := "calledit.escrow.attestation.settlement.v1"
def voidAttestationDomainV1 : String := "calledit.escrow.attestation.void.v1"
def positionIntentDomainV1 : String := "calledit.escrow.position-intent.v1"

/-! ## program addresses

`declare_id!` of `lib.rs` and the addresses of the programs it calls, decoded
from base58. -/

def programId : Pubkey :=
  ⟨[250, 93, 88, 81, 174, 44, 98, 29, 249, 113, 160, 187, 99, 69, 9, 13, 83, 11, 135, 222, 252,
    193, 230, 236, 246, 40, 45, 32, 116, 214, 50, 39], rfl⟩

def splTokenId : Pubkey :=
  ⟨[6, 221, 246, 225, 215, 101, 161, 147, 217, 203, 225, 70, 206, 235, 121, 172, 28, 180, 133,
    237, 95, 91, 55, 145, 58, 140, 245, 133, 126, 255, 0, 169], rfl⟩

def ed25519ProgramId : Pubkey :=
  ⟨[3, 125, 70, 214, 124, 147, 251, 190, 18, 249, 66, 143, 131, 141, 64, 255, 5, 112, 116, 73, 39,
    244, 138, 100, 252, 202, 112, 68, 128, 0, 0, 0], rfl⟩

def systemProgramId : Pubkey := defaultPubkey

/-! ## state/mod.rs -/

inductive Asset
  | sol
  | usdc
  deriving DecidableEq, Repr

inductive MarketState
  | opening
  | open
  | frozen
  | settling
  | settled
  | voided
  | closed
  deriving DecidableEq, Repr

inductive PositionSide
  | back
  | doubt
  deriving DecidableEq, Repr

inductive LotState
  | pending
  | active
  | voided
  deriving DecidableEq, Repr

inductive SettlementOutcome
  | unresolved
  | claimWon
  | claimLost
  | void
  deriving DecidableEq, Repr

structure ProtocolConfig where
  version : UInt8
  bump : UInt8
  paused : Bool
  configAuthority : Pubkey
  pauseAuthority : Pubkey
  marketCreationAuthority : Pubkey
  feedOperatorAuthority : Pubkey
  oracleSet : Pubkey
  relayerFeePayer : Pubkey
  residualRecipient : Pubkey
  clusterGenesisHash : Bytes 32
  /-- The one canonical classic SPL USDC mint for the cluster. -/
  canonicalUsdcMint : Pubkey
  allowedTokenProgram : Pubkey
  maxSolPosition : UInt64
  maxUsdcPosition : UInt64
  minSolPosition : UInt64
  minUsdcPosition : UInt64
  maxMarketDurationSeconds : UInt64
  maxResolutionDelaySeconds : UInt64

structure OracleSet where
  version : UInt8
  bump : UInt8
  epoch : UInt64
  signers : List Pubkey
  threshold : UInt8
  activationSlot : UInt64
  retirementSlot : Option UInt64

structure Market where
  version : UInt8
  bump : UInt8
  marketUuid : Bytes 16
  fixtureId : UInt64
  claimSpecHash : Bytes 32
  displayTermsHash : Bytes 32
  oddsSourceMessageHash : Bytes 32
  marketDocumentHash : Bytes 32
  quoteTimestamp : Int64
  probabilityPpm : UInt32
  ratioMilli : UInt32
  asset : Asset
  tokenMint : Pubkey
  feeBps : UInt16
  state : MarketState
  replay : Bool
  residualRecipient : Pubkey
  createdTimestamp : Int64
  /-- Immutable kickoff boundary: placements at or after it start pending. -/
  inPlayStartTimestamp : Int64
  activationDelaySeconds : UInt64
  positionCutoffTimestamp : Int64
  resolutionDeadline : Int64
  oracleSetEpoch : UInt64
  eventEpoch : UInt64
  activeBackTotal : UInt64
  activeDoubtTotal : UInt64
  pendingBackTotal : UInt64
  pendingDoubtTotal : UInt64
  finalMatchedBackTotal : UInt64
  finalMatchedDoubtTotal : UInt64
  /-- Sum of the per-owner losing forfeits after floor division. -/
  finalForfeitedTotal : UInt64
  /-- Processed positions while settling; unclosed positions once terminal. -/
  settlementProcessedPositionCount : UInt64
  settlementOutcome : SettlementOutcome
  settlementEvidenceHash : Bytes 32
  positionCount : UInt64
  claimedPositionCount : UInt64
  vault : Pubkey
  vaultBump : UInt8

structure UserPosition where
  version : UInt8
  bump : UInt8
  market : Pubkey
  owner : Pubkey
  side : PositionSide
  activeAmount : UInt64
  pendingAmount : UInt64
  refundableAmount : UInt64
  settlementBaseEntitlement : UInt64
  settlementProcessed : Bool
  nextLotNonce : UInt64
  claimed : Bool
  totalPaidAmount : UInt64
  createdSlot : UInt64
  updatedSlot : UInt64

structure PositionLot where
  version : UInt8
  bump : UInt8
  market : Pubkey
  owner : Pubkey
  nonce : UInt64
  side : PositionSide
  amount : UInt64
  placedTimestamp : Int64
  placedSlot : UInt64
  observedEventEpoch : UInt64
  state : LotState
  activationTimestamp : Option Int64
  invalidationEvidenceHash : Option (Bytes 32)

/-! ## errors.rs -/

inductive EscrowError
  | unauthorized
  | protocolPaused
  | invalidAuthority
  | invalidConfig
  | genesisHashMismatch
  | programIdMismatch
  | configMismatch
  | pauseStateUnchanged
  | invalidOracleSet
  | oracleEpochNotIncreasing
  | invalidOracleSigner
  | invalidOracleThreshold
  | oracleSetInactive
  | invalidProbability
  | ratioMismatch
  | invalidFeeBps
  | assetMismatch
  | invalidMint
  | invalidTokenProgram
  | invalidVault
  | invalidVaultOwner
  | invalidVaultRentReserve
  | invalidMintDecimals
  | invalidTokenAccount
  | invalidUserSigner
  | invalidMarketState
  | marketFrozen
  | replayMarketNoFunds
  | positionCutoffPassed
  | marketDurationExceeded
  | resolutionDelayExceeded
  | invalidMarketTimestamps
  | marketDocumentHashMismatch
  | invalidPositionAmount
  | oppositeSidePosition
  | lotNonceMismatch
  | eventEpochMismatch
  | lotNotPending
  | invalidLotState
  | activationDelayNotElapsed
  | clientIntentExpired
  | arithmeticOverflow
  | invalidAttestationDomain
  | attestationExpired
  | signatureThresholdNotMet
  | invalidEd25519Instruction
  | alreadySettled
  | conflictingSettlement
  | invalidSettlementOutcome
  | settlementInProgress
  | entitlementAlreadyCalculated
  | entitlementNotCalculated
  | alreadyVoided
  | timeoutNotReached
  | positionNotClaimable
  | invalidClaimDestination
  | alreadyClaimed
  | outstandingClaims
  | vaultUnderfunded
  | accountingInvariant
  | invalidRentRecipient
  | invalidResidualRecipient
  | lotCloseOrderMismatch
  | outstandingLots
  | outstandingPositions
  | terminalState
  | invalidTerminalPhase
  deriving DecidableEq, Repr

/-- Why an instruction fails: a code of this program, an account check of the
framework, a called program, or a Rust panic. -/
inductive ProgramError
  | escrow (e : EscrowError)
  /-- The account does not exist (or was closed). -/
  | accountNotInitialized
  /-- `init` on an address that already holds an account. -/
  | accountAlreadyInUse
  /-- The supplied account is not the one its seeds derive. -/
  | constraintSeeds
  /-- A transfer the called program refuses for lack of funds. -/
  | insufficientFunds
  /-- A transfer the called program refuses because a balance would overflow. -/
  | balanceOverflow
  /-- A token instruction on a frozen account. -/
  | tokenAccountFrozen
  /-- A token instruction whose mint, decimals or authority does not match. -/
  | tokenMismatch
  /-- The associated-token program refuses an account of the wrong owner or mint. -/
  | illegalOwner
  /-- A Rust index out of bounds. -/
  | panicked
  deriving DecidableEq, Repr

instance : Coe EscrowError ProgramError := ⟨.escrow⟩

/-- Anchor's `Result`. -/
abbrev Result := Except ProgramError

end CalledIt.Escrow
