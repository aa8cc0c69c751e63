import CalledIt.Escrow.Attestations
import CalledIt.Escrow.Events

/-!
# CalledIt.Escrow.Market

Creating, freezing and unfreezing a market (`instructions/market.rs`).
-/

namespace CalledIt.Escrow

open Lib

structure InitializeMarketArgs where
  expectedClusterGenesisHash : Bytes 32
  expectedProgramId : Pubkey
  expectedConfig : Pubkey
  expectedOracleSet : Pubkey
  marketUuid : Bytes 16
  fixtureId : UInt64
  claimSpecHash : Bytes 32
  displayTermsHash : Bytes 32
  oddsSourceMessageHash : Bytes 32
  marketDocumentHash : Bytes 32
  quoteTimestamp : Int64
  probabilityPpm : UInt32
  ratioMilli : UInt32
  asset : Asset
  tokenMint : Pubkey
  feeBps : UInt16
  replay : Bool
  inPlayStartTimestamp : Int64
  activationDelaySeconds : UInt64
  positionCutoffTimestamp : Int64
  resolutionDeadline : Int64
  oracleSetEpoch : UInt64

structure InitializeMarketAccounts where
  config : ProtocolConfig
  oracleSet : OracleSetAccount
  marketCreationAuthority : Pubkey
  payer : AccountInfo
  vault : AccountInfo
  tokenMint : AccountInfo

structure FreezeMarketArgs where
  expectedEventEpoch : UInt64
  evidenceHash : Bytes 32

structure FreezeMarketAccounts where
  config : ProtocolConfig
  feedOperatorAuthority : Pubkey

structure UnfreezeMarketArgs where
  expectedEventEpoch : UInt64
  decidingSequence : UInt64
  observedAt : Int64
  issuedAt : Int64
  expiresAt : Int64
  evidenceHash : Bytes 32

/-- The accounts of an instruction that checks an attestation: the
configuration, the oracle set and the instructions sysvar. -/
structure AttestedAccounts where
  config : ProtocolConfig
  oracleSet : OracleSetAccount
  preceding : List Instruction

/-! ## creation -/

def validateUsdcMint (mint : Mint) : Result Unit := do
  require mint.isInitialized EscrowError.invalidMint
  require (mint.decimals = usdcDecimals) EscrowError.invalidMintDecimals

def validateMarketDomain (rt : Runtime) (accounts : InitializeMarketAccounts)
    (args : InitializeMarketArgs) : Result Unit := do
  require (¬ accounts.config.paused) EscrowError.protocolPaused
  require (args.expectedClusterGenesisHash = accounts.config.clusterGenesisHash)
    EscrowError.genesisHashMismatch
  require (args.expectedProgramId = programId) EscrowError.programIdMismatch
  require (args.expectedConfig = rt.configAddress.1) EscrowError.configMismatch
  require (args.expectedOracleSet = accounts.oracleSet.key) EscrowError.invalidOracleSet
  require (splTokenId = accounts.config.allowedTokenProgram) EscrowError.invalidTokenProgram

def validateMarketTerms (config : ProtocolConfig) (args : InitializeMarketArgs) (now : Int64) :
    Result Unit := do
  require (args.feeBps = feeBpsV1) EscrowError.invalidFeeBps
  require (args.activationDelaySeconds = positionActivationDelaySecondsV1)
    EscrowError.invalidConfig
  require (args.quoteTimestamp ≤ now ∧ now < args.positionCutoffTimestamp)
    EscrowError.invalidMarketTimestamps
  let duration ← okOr ((checkedSubI64 args.positionCutoffTimestamp now).bind tryFromI64)
    EscrowError.invalidMarketTimestamps
  require (duration ≤ config.maxMarketDurationSeconds) EscrowError.marketDurationExceeded
  let resolutionDelay ← okOr
    ((checkedSubI64 args.resolutionDeadline args.positionCutoffTimestamp).bind tryFromI64)
    EscrowError.invalidMarketTimestamps
  require (resolutionDelay ≤ config.maxResolutionDelaySeconds) EscrowError.resolutionDelayExceeded

def canonicalMarketDocumentHash (rt : Runtime) (args : InitializeMarketArgs) :
    Result (Bytes 32) :=
  let document : MarketDocumentV1 :=
    { marketUuid := args.marketUuid
      fixtureId := args.fixtureId
      claimSpecificationHash := args.claimSpecHash
      displayTermsHash := args.displayTermsHash
      asset := args.asset
      probabilityPpm := args.probabilityPpm
      ratioMilli := args.ratioMilli
      oddsMessageHash := args.oddsSourceMessageHash
      oddsTimestamp := args.quoteTimestamp
      inPlayStartTimestamp := args.inPlayStartTimestamp
      activationDelaySeconds := args.activationDelaySeconds
      positionCutoff := args.positionCutoffTimestamp
      resolutionDeadline := args.resolutionDeadline
      feeBps := args.feeBps
      oracleSetEpoch := args.oracleSetEpoch
      replayFlag := args.replay }
  (document.hash rt.sha256).mapError fun
    | .invalidProbability => EscrowError.invalidProbability
    | .ratioMismatch => EscrowError.ratioMismatch
    | .nonzeroFee => EscrowError.invalidFeeBps
    | .invalidActivationDelay => EscrowError.invalidConfig
    | _ => EscrowError.invalidMarketTimestamps

/-- The vault's address, its bump and the created account. -/
def initializeSolVault (rt : Runtime) (accounts : InitializeMarketAccounts)
    (args : InitializeMarketArgs) (marketKey : Pubkey) :
    Result (Pubkey × UInt8 × AccountInfo) := do
  require (args.tokenMint = defaultPubkey) EscrowError.invalidMint
  let (expectedVault, vaultBump) := rt.solVaultAddress marketKey
  require (accounts.vault.key = expectedVault) EscrowError.invalidVault
  -- `system_program::create_account`
  require (accounts.vault.lamports = 0 ∧ accounts.vault.owner = systemProgramId ∧
    accounts.vault.dataIsEmpty) .accountAlreadyInUse
  require (accounts.payer.lamports ≥ rt.rentReserve) .insufficientFunds
  let vault := { accounts.vault with owner := programId, lamports := rt.rentReserve }
  require (vault.owner = programId) EscrowError.invalidVaultOwner
  require (vault.lamports ≥ rt.rentReserve) EscrowError.invalidVaultRentReserve
  return (expectedVault, vaultBump, vault)

def initializeUsdcVault (rt : Runtime) (accounts : InitializeMarketAccounts)
    (args : InitializeMarketArgs) (marketKey : Pubkey) :
    Result (Pubkey × UInt8 × AccountInfo) := do
  require (args.tokenMint = accounts.config.canonicalUsdcMint) EscrowError.invalidMint
  require (accounts.tokenMint.key = args.tokenMint) EscrowError.invalidMint
  require (accounts.tokenMint.owner = splTokenId) EscrowError.invalidTokenProgram
  let mint ← okOr accounts.tokenMint.unpackMint EscrowError.invalidMint
  validateUsdcMint mint
  let expectedVault := rt.usdcVaultAddress marketKey args.tokenMint
  require (accounts.vault.key = expectedVault) EscrowError.invalidVault
  let vault ← createIdempotent accounts.vault marketKey accounts.tokenMint.key
  let token ← okOr vault.unpackToken EscrowError.invalidTokenAccount
  require (token.mint = args.tokenMint) EscrowError.invalidMint
  require (token.owner = marketKey) EscrowError.invalidTokenAccount
  return (expectedVault, 0, vault)

def initializeVault (rt : Runtime) (accounts : InitializeMarketAccounts)
    (args : InitializeMarketArgs) (marketKey : Pubkey) :
    Result (Pubkey × UInt8 × AccountInfo) :=
  match args.asset with
  | .sol => initializeSolVault rt accounts args marketKey
  | .usdc => initializeUsdcVault rt accounts args marketKey

/-- `oracle_set` is live at the slot: activated and not yet retired. -/
def oracleSetLive (oracleSet : OracleSet) (slot : UInt64) : Bool :=
  oracleSet.activationSlot ≤ slot &&
    oracleSet.retirementSlot.all fun retirement => slot < retirement

/-- The market record that `initialize_market` writes. -/
def newMarket (args : InitializeMarketArgs) (bump : UInt8) (documentHash : Bytes 32)
    (residualRecipient : Pubkey) (now : Int64) (vault : Pubkey) (vaultBump : UInt8) : Market :=
  { version := schemaVersionV1
    bump
    marketUuid := args.marketUuid
    fixtureId := args.fixtureId
    claimSpecHash := args.claimSpecHash
    displayTermsHash := args.displayTermsHash
    oddsSourceMessageHash := args.oddsSourceMessageHash
    marketDocumentHash := documentHash
    quoteTimestamp := args.quoteTimestamp
    probabilityPpm := args.probabilityPpm
    ratioMilli := args.ratioMilli
    asset := args.asset
    tokenMint := args.tokenMint
    feeBps := args.feeBps
    state := .open
    replay := args.replay
    residualRecipient
    createdTimestamp := now
    inPlayStartTimestamp := args.inPlayStartTimestamp
    activationDelaySeconds := args.activationDelaySeconds
    positionCutoffTimestamp := args.positionCutoffTimestamp
    resolutionDeadline := args.resolutionDeadline
    oracleSetEpoch := args.oracleSetEpoch
    eventEpoch := 0
    activeBackTotal := 0
    activeDoubtTotal := 0
    pendingBackTotal := 0
    pendingDoubtTotal := 0
    finalMatchedBackTotal := 0
    finalMatchedDoubtTotal := 0
    finalForfeitedTotal := 0
    settlementProcessedPositionCount := 0
    settlementOutcome := .unresolved
    settlementEvidenceHash := zeroHash
    positionCount := 0
    claimedPositionCount := 0
    vault
    vaultBump }

def initializeMarket (rt : Runtime) (clock : Clock) (accounts : InitializeMarketAccounts)
    (args : InitializeMarketArgs) : Result (Ledger × Event) := do
  require (accounts.marketCreationAuthority = accounts.config.marketCreationAuthority)
    EscrowError.invalidAuthority
  require (accounts.oracleSet.key = (rt.oracleSetAddress args.oracleSetEpoch).1) .constraintSeeds
  let (marketKey, marketBump) := rt.marketAddress args.marketUuid
  validateMarketDomain rt accounts args
  validateMarketTerms accounts.config args clock.unixTimestamp
  validatePinnedOracleSet rt accounts.oracleSet args.oracleSetEpoch
  require (accounts.config.oracleSet = accounts.oracleSet.key) EscrowError.invalidOracleSet
  require (oracleSetLive accounts.oracleSet.oracleSet clock.slot) EscrowError.oracleSetInactive
  let documentHash ← canonicalMarketDocumentHash rt args
  require (documentHash = args.marketDocumentHash) EscrowError.marketDocumentHashMismatch
  let (vaultKey, vaultBump, vault) ← initializeVault rt accounts args marketKey
  let market := newMarket args marketBump documentHash accounts.config.residualRecipient
    clock.unixTimestamp vaultKey vaultBump
  return (
    { marketKey, market, positions := ∅, lots := ∅, vault },
    .marketInitialized
      { market := marketKey
        marketUuid := market.marketUuid
        fixtureId := market.fixtureId
        asset := market.asset
        ratioMilli := market.ratioMilli
        marketDocumentHash := market.marketDocumentHash
        residualRecipient := market.residualRecipient
        oracleSet := accounts.oracleSet.key
        vault := market.vault
        inPlayStartTimestamp := market.inPlayStartTimestamp
        activationDelaySeconds := market.activationDelaySeconds
        positionCutoffTimestamp := market.positionCutoffTimestamp
        resolutionDeadline := market.resolutionDeadline })

/-! ## freezing -/

def nextEventEpoch (current expected : UInt64) : Result UInt64 := do
  require (current = expected) EscrowError.eventEpochMismatch
  okOr (checkedAdd current 1) EscrowError.arithmeticOverflow

def freezeMarket (ledger : Ledger) (accounts : FreezeMarketAccounts) (args : FreezeMarketArgs) :
    Result (Ledger × Event) := do
  require (accounts.feedOperatorAuthority = accounts.config.feedOperatorAuthority)
    EscrowError.invalidAuthority
  let market ← ledger.loadMarket
  require (market.state = .open) EscrowError.invalidMarketState
  require (market.eventEpoch = args.expectedEventEpoch) EscrowError.eventEpochMismatch
  let eventEpoch ← nextEventEpoch market.eventEpoch args.expectedEventEpoch
  return (
    { ledger with market := { market with eventEpoch, state := .frozen } },
    .marketFrozen
      { market := ledger.marketKey, eventEpoch, evidenceHash := args.evidenceHash })

def marketAttestationCommon (config : ProtocolConfig) (market : Market) (marketKey : Pubkey)
    (issuedAt expiresAt : Int64) (evidenceHash : Bytes 32) : AttestationCommonV1 :=
  { clusterGenesisHash := config.clusterGenesisHash
    escrowProgramId := programId
    marketPda := marketKey
    marketDocumentHash := market.marketDocumentHash
    fixtureId := market.fixtureId
    oracleSetEpoch := market.oracleSetEpoch
    issuedAt
    expiresAt
    evidenceHash }

/-- The bytes of an attestation; whatever makes it unencodable is reported as
an invalid domain. -/
def attestationMessage (encoded : EncodingResult (List UInt8)) : Result (List UInt8) :=
  encoded.mapError fun _ => EscrowError.invalidAttestationDomain

def unfreezeMarket (rt : Runtime) (clock : Clock) (ledger : Ledger) (accounts : AttestedAccounts)
    (args : UnfreezeMarketArgs) : Result (Ledger × Event) := do
  let market ← ledger.loadMarket
  require (accounts.oracleSet.key = (rt.oracleSetAddress market.oracleSetEpoch).1) .constraintSeeds
  require (market.state = .frozen) EscrowError.invalidMarketState
  require (market.eventEpoch = args.expectedEventEpoch) EscrowError.eventEpochMismatch
  require (args.observedAt ≤ args.issuedAt) EscrowError.invalidAttestationDomain
  validatePinnedOracleSet rt accounts.oracleSet market.oracleSetEpoch
  let nextEpoch ← nextEventEpoch market.eventEpoch args.expectedEventEpoch
  let attestation : FeedEventAttestationV1 :=
    { common := marketAttestationCommon accounts.config market ledger.marketKey args.issuedAt
        args.expiresAt args.evidenceHash
      eventKind := .unfreeze
      eventEpoch := nextEpoch
      decidingSequence := args.decidingSequence
      observedAt := args.observedAt }
  let message ← attestationMessage attestation.encode
  verifyThresholdSignatures accounts.oracleSet.oracleSet accounts.preceding message
    clock.unixTimestamp args.issuedAt args.expiresAt
  return (
    { ledger with market := { market with eventEpoch := nextEpoch, state := .open } },
    .marketUnfrozen
      { market := ledger.marketKey, eventEpoch := nextEpoch, evidenceHash := args.evidenceHash })

end CalledIt.Escrow
