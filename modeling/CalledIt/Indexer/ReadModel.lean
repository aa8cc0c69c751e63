import CalledIt.Indexer.EventProjector
import Mathlib.Logic.Function.Basic

/-!
# CalledIt.Indexer.ReadModel

The tables that finalized events are recorded in, and their recorders
(`db/src/escrow-db.ts`, `0024_escrow.sql`, `0026_escrow_release_blockers.sql`,
`0031_escrow_shared_devnet_indexing.sql`).

A recorder checks its input, and then one function of the database writes the row of the event
and what follows from it, or raises and writes nothing.  The tables hold the rows of one
deployment, and every event is of a finalized transaction: what the functions do with rows that
are only confirmed does not happen.  A unique index is a table of its own.
-/

namespace CalledIt.Indexer

open Lib Escrow

/-! ## rows -/

/-- Where an event stands: its instruction, and what is known of its transaction. -/
structure ChainPlace where
  signature : String
  instructionIndex : Int
  slot : Nat
  blockTime : Option Int
  deriving DecidableEq, Repr

/-- The key of the tables of events. -/
abbrev EventKey : Type := String × Int

def ChainPlace.key (place : ChainPlace) : EventKey := (place.signature, place.instructionIndex)

inductive CustodyMode
  | legacy
  | escrow
  deriving DecidableEq, Repr

/-- A row of `markets`; `rep` has no asset. -/
structure TrackedMarket where
  custodyMode : CustodyMode
  currency : Option Asset
  deriving DecidableEq

/-- A row of `escrow_chain_event_identities`. -/
structure ChainIdentity where
  cluster : String
  programId : String
  eventKind : ProjectionKind
  slot : Nat
  deriving DecidableEq

/-- A row of `escrow_market_links`. -/
structure EscrowMarketLinkRow extends EscrowMarketLink where
  initialized : EventKey
  initializeSlot : Nat

/-- A row of one of the tables of events. -/
structure EventRow (α : Type) where
  value : α
  programId : String
  slot : Nat
  deriving DecidableEq

deriving instance DecidableEq for PositionProjection, SettlementProjection, ClaimProjection,
  MarketClosedProjection

/-- A row of `escrow_market_close_events`. -/
structure MarketCloseEvent where
  key : EventKey
  value : MarketClosedProjection
  cluster : String
  genesisHash : String
  programId : String
  slot : Nat
  blockTime : Option Int
  deriving DecidableEq

/-- The market, the owner and the nonce. -/
abbrev LotKey : Type := Bytes 16 × Pubkey × UInt64

/-- A row of `escrow_position_lots`. -/
structure EscrowPositionLot where
  positionPda : Pubkey
  side : PositionSide
  asset : Asset
  amountAtomic : UInt64
  eventEpoch : UInt64
  placed : EventKey
  state : EscrowPositionState
  latest : EventKey
  latestSlot : Nat
  deriving DecidableEq

structure ReadModel where
  markets : Bytes 16 → Option TrackedMarket
  identities : EventKey → Option ChainIdentity
  links : Bytes 16 → Option EscrowMarketLinkRow
  linkOfPda : Pubkey → Option (Bytes 16)
  linkOfKey : EventKey → Option (Bytes 16)
  positionEvents : EventKey → Option (EventRow PositionProjection)
  lots : LotKey → Option EscrowPositionLot
  settlementEvents : EventKey → Option (EventRow SettlementProjection)
  settlementOf : Bytes 16 → Option EventKey
  claimEvents : EventKey → Option (EventRow ClaimProjection)
  claimOf : Bytes 16 × Pubkey → Option EventKey
  closeEvents : Bytes 16 → Option MarketCloseEvent
  closeOf : EventKey → Option (Bytes 16)

/-- What a recorder refuses, and what the functions raise. -/
inductive ReadModelError
  | invalidInput
  | marketRequired
  | marketAssetMismatch
  | chainIdentityConflict
  | marketLinkConflict
  | positionMarketMismatch
  | positionStateMismatch
  | positionEventConflict
  | positionLotConflict
  | positionLotMissing
  | settlementMarketMismatch
  | settlementEventConflict
  | settlementAlreadyFinalized
  | claimMarketMismatch
  | claimEventConflict
  | claimAlreadyFinalized
  | marketClosedMarketMissing
  | marketClosedDeploymentMismatch
  | marketClosedDocumentMismatch
  | marketClosedAssetMismatch
  | marketClosedProjectionInvalid
  | marketClosedIdentityConflict
  | marketClosedStateConflict
  | marketClosedTerminalStateRequired
  | checkViolation
  | uniqueViolation
  deriving DecidableEq, Repr

/-! ## input -/

/-- `value.trim() !== ''`. -/
def nonempty (value : String) : Bool := value.toList.any fun c => !c.isWhitespace

/-- What every recorder asks of the place of an event, and the ranges of its columns. -/
def ChainPlace.Valid (place : ChainPlace) : Prop :=
  nonempty place.signature ∧ 0 ≤ place.instructionIndex ∧ place.instructionIndex < 2 ^ 31 ∧
    place.slot < 2 ^ 63

instance (place : ChainPlace) : Decidable place.Valid := inferInstanceAs (Decidable (_ ∧ _))

def isClusterName (cluster : String) : Bool :=
  cluster = "localnet" ∨ cluster = "devnet" ∨ cluster = "mainnet-beta"

/-- A column `numeric(20, 0)` holds the number. -/
def Numeric20 (n : Nat) : Prop := n < 10 ^ 20

instance (n : Nat) : Decidable (Numeric20 n) := inferInstanceAs (Decidable (_ < _))

def ValidMarketLink (deployment : ProjectorDeployment) (input : MarketProjection) : Prop :=
  0 < input.custodyVersion ∧ isClusterName deployment.cluster ∧ nonempty deployment.genesisHash ∧
    nonempty deployment.programId ∧ (input.mintPubkey.isSome ↔ input.asset = .usdc) ∧
    0 < input.ratioMilli

instance (deployment : ProjectorDeployment) (input : MarketProjection) :
    Decidable (ValidMarketLink deployment input) :=
  inferInstanceAs (Decidable (_ ∧ _))

/-! ## recorders -/

section

variable (deployment : ProjectorDeployment) (db : ReadModel) (place : ChainPlace)

/-- `escrow_assert_chain_identity`. -/
def assertChainIdentity (identity : ChainIdentity) : Except ReadModelError ReadModel := do
  require ((db.identities place.key).all (· = identity)) ReadModelError.chainIdentityConflict
  return { db with identities := Function.update db.identities place.key (some identity) }

def newMarketLink (input : MarketProjection) : EscrowMarketLinkRow where
  marketId := input.marketId
  custodyVersion := input.custodyVersion
  cluster := deployment.cluster
  genesisHash := deployment.genesisHash
  programId := deployment.programId
  marketPda := input.marketPda
  vaultPda := input.vaultPda
  asset := input.asset
  mintPubkey := input.mintPubkey
  documentHash := input.documentHash
  oracleEpoch := input.oracleEpoch
  eventEpoch := input.eventEpoch
  ratioMilli := input.ratioMilli
  chainState := .open
  finalized := true
  projectionStale := false
  initialized := place.key
  initializeSlot := place.slot

/-- The link that is there is the one of the input. -/
def SameMarketLink (existing link : EscrowMarketLinkRow) : Prop :=
  existing.custodyVersion = link.custodyVersion ∧ existing.cluster = link.cluster ∧
    existing.genesisHash = link.genesisHash ∧ existing.programId = link.programId ∧
    existing.marketPda = link.marketPda ∧ existing.vaultPda = link.vaultPda ∧
    existing.asset = link.asset ∧ existing.mintPubkey = link.mintPubkey ∧
    existing.documentHash = link.documentHash ∧ existing.initialized = link.initialized ∧
    existing.initializeSlot = link.initializeSlot ∧ existing.oracleEpoch = link.oracleEpoch ∧
    existing.eventEpoch = link.eventEpoch ∧ existing.ratioMilli = link.ratioMilli

instance (existing link : EscrowMarketLinkRow) : Decidable (SameMarketLink existing link) :=
  inferInstanceAs (Decidable (_ ∧ _))

/-- The end of `escrow_index_tracked_market_link`. -/
def putMarketLink (link : EscrowMarketLinkRow) : Except ReadModelError ReadModel :=
  match db.links link.marketId with
  | some existing => do
      require (SameMarketLink existing link) ReadModelError.marketLinkConflict
      return db
  | none => do
      require (db.linkOfPda link.marketPda = none ∧ db.linkOfKey link.initialized = none)
        ReadModelError.uniqueViolation
      return { db with
        links := Function.update db.links link.marketId (some link)
        linkOfPda := Function.update db.linkOfPda link.marketPda (some link.marketId)
        linkOfKey := Function.update db.linkOfKey link.initialized (some link.marketId) }

def upsertMarketLink (input : MarketProjection) : Except ReadModelError ReadModel := do
  require (place.Valid ∧ ValidMarketLink deployment input) ReadModelError.invalidInput
  match db.markets input.marketId with
  | none => return db
  | some market => do
      require (market.custodyMode = .escrow) ReadModelError.marketRequired
      require (market.currency = some input.asset) ReadModelError.marketAssetMismatch
      let db ← assertChainIdentity db place
        ⟨deployment.cluster, deployment.programId, .market, place.slot⟩
      require (Numeric20 input.oracleEpoch.toNat ∧ Numeric20 input.eventEpoch.toNat ∧
        Numeric20 input.ratioMilli) ReadModelError.checkViolation
      putMarketLink db (newMarketLink deployment place input)

def PositionStateFits (input : PositionProjection) : Prop :=
  (input.eventKind = .activated → input.state = .active) ∧
    (input.eventKind = .invalidated → input.state = .invalidated)

instance (input : PositionProjection) : Decidable (PositionStateFits input) :=
  inferInstanceAs (Decidable (_ ∧ _))

def putPositionEvent (input : PositionProjection) : Except ReadModelError ReadModel := do
  let row : EventRow PositionProjection := ⟨input, deployment.programId, place.slot⟩
  require ((db.positionEvents place.key).all (· = row)) ReadModelError.positionEventConflict
  return { db with positionEvents := Function.update db.positionEvents place.key (some row) }

def LotKey.of (input : PositionProjection) : LotKey :=
  (input.marketId, input.ownerPubkey, input.lotNonce)

def placedLot (input : PositionProjection) : EscrowPositionLot where
  positionPda := input.positionPda
  side := input.side
  asset := input.asset
  amountAtomic := input.amountAtomic
  eventEpoch := input.eventEpoch
  placed := place.key
  state := input.state
  latest := place.key
  latestSlot := place.slot

/-- The lot that is there was placed by the same event. -/
def SamePlacement (existing lot : EscrowPositionLot) : Prop :=
  existing.positionPda = lot.positionPda ∧ existing.side = lot.side ∧ existing.asset = lot.asset ∧
    existing.amountAtomic = lot.amountAtomic ∧ existing.eventEpoch = lot.eventEpoch ∧
    existing.placed = lot.placed

instance (existing lot : EscrowPositionLot) : Decidable (SamePlacement existing lot) :=
  inferInstanceAs (Decidable (_ ∧ _))

def movedLot (lot : EscrowPositionLot) (state : EscrowPositionState) : EscrowPositionLot :=
  { lot with state, latest := place.key, latestSlot := place.slot }

/-- The end of `escrow_index_position_event`. -/
def putPositionLot (input : PositionProjection) : Except ReadModelError ReadModel :=
  match db.lots (.of input), input.eventKind with
  | some existing, .placed => do
      require (SamePlacement existing (placedLot place input)) ReadModelError.positionLotConflict
      return db
  | none, .placed =>
      return { db with lots := Function.update db.lots (.of input) (some (placedLot place input)) }
  | none, _ => .error .positionLotMissing
  | some existing, _ =>
      return { db with
        lots := Function.update db.lots (.of input) (some (movedLot place existing input.state)) }

def recordPositionEvent (input : PositionProjection) : Except ReadModelError ReadModel := do
  require (place.Valid ∧ nonempty deployment.programId ∧ input.amountAtomic ≠ 0)
    ReadModelError.invalidInput
  let link ← okOr (db.links input.marketId) ReadModelError.positionMarketMismatch
  require (link.programId = deployment.programId ∧ link.asset = input.asset)
    ReadModelError.positionMarketMismatch
  require (PositionStateFits input) ReadModelError.positionStateMismatch
  let db ← assertChainIdentity db place
    ⟨link.cluster, deployment.programId, .position, place.slot⟩
  require (Numeric20 input.lotNonce.toNat ∧ Numeric20 input.amountAtomic.toNat ∧
    Numeric20 input.eventEpoch.toNat) ReadModelError.checkViolation
  let db ← putPositionEvent deployment db place input
  putPositionLot db place input

/-- The insert of `escrow_index_settlement_event`; a row that is there stays. -/
def putSettlementEvent (input : SettlementProjection) : ReadModel :=
  if (db.settlementEvents place.key).isSome then db
  else
    { db with
      settlementEvents := Function.update db.settlementEvents place.key
        (some ⟨input, deployment.programId, place.slot⟩)
      settlementOf := Function.update db.settlementOf input.marketId (some place.key) }

/-- The state of the link that an outcome makes. -/
def terminalState (outcome : SettlementOutcome) : EscrowChainState :=
  if outcome = .void then .voided else .settled

def settledLink (link : EscrowMarketLinkRow) (outcome : SettlementOutcome) : EscrowMarketLinkRow :=
  { link with chainState := terminalState outcome, projectionStale := false }

def recordSettlementEvent (input : SettlementProjection) : Except ReadModelError ReadModel := do
  require (place.Valid ∧ nonempty deployment.programId) ReadModelError.invalidInput
  let link ← okOr (db.links input.marketId) ReadModelError.settlementMarketMismatch
  require (link.programId = deployment.programId ∧ link.documentHash = input.documentHash ∧
    link.oracleEpoch = input.oracleEpoch) ReadModelError.settlementMarketMismatch
  let existing := db.settlementEvents place.key
  require (existing.all (· = ⟨input, deployment.programId, place.slot⟩))
    ReadModelError.settlementEventConflict
  require (existing.isSome ∨ (db.settlementOf input.marketId).isNone)
    ReadModelError.settlementAlreadyFinalized
  let db ← assertChainIdentity db place
    ⟨link.cluster, deployment.programId, .settlement, place.slot⟩
  require (input.outcome ≠ .unresolved ∧ Numeric20 input.oracleEpoch.toNat)
    ReadModelError.checkViolation
  let db := putSettlementEvent deployment db place input
  return { db with
    links := Function.update db.links input.marketId (some (settledLink link input.outcome)) }

/-- The insert of `escrow_index_claim_event`; a row that is there stays. -/
def putClaimEvent (input : ClaimProjection) : ReadModel :=
  if (db.claimEvents place.key).isSome then db
  else
    { db with
      claimEvents := Function.update db.claimEvents place.key
        (some ⟨input, deployment.programId, place.slot⟩)
      claimOf := Function.update db.claimOf (input.marketId, input.ownerPubkey)
        (some place.key) }

def recordClaimEvent (input : ClaimProjection) : Except ReadModelError ReadModel := do
  require (place.Valid ∧ nonempty deployment.programId ∧ input.amountAtomic ≠ 0)
    ReadModelError.invalidInput
  let link ← okOr (db.links input.marketId) ReadModelError.claimMarketMismatch
  require (link.programId = deployment.programId ∧ link.asset = input.asset)
    ReadModelError.claimMarketMismatch
  let existing := db.claimEvents place.key
  require (existing.all (· = ⟨input, deployment.programId, place.slot⟩))
    ReadModelError.claimEventConflict
  require (existing.isSome ∨ (db.claimOf (input.marketId, input.ownerPubkey)).isNone)
    ReadModelError.claimAlreadyFinalized
  let db ← assertChainIdentity db place ⟨link.cluster, deployment.programId, .claim, place.slot⟩
  require (Numeric20 input.amountAtomic.toNat) ReadModelError.checkViolation
  return putClaimEvent deployment db place input

def closeEvent (input : MarketClosedProjection) : MarketCloseEvent where
  key := place.key
  value := input
  cluster := deployment.cluster
  genesisHash := deployment.genesisHash
  programId := deployment.programId
  slot := place.slot
  blockTime := place.blockTime

/-- The end of `escrow_index_market_closed`. -/
def putMarketClosed (link : EscrowMarketLinkRow) (input : MarketClosedProjection) :
    Except ReadModelError ReadModel :=
  match db.closeEvents input.marketId with
  | some existing => do
      require (existing = closeEvent deployment place input)
        ReadModelError.marketClosedIdentityConflict
      require (link.chainState = .closed) ReadModelError.marketClosedStateConflict
      return db
  | none => do
      require (link.chainState = .settled ∨ link.chainState = .voided)
        ReadModelError.marketClosedTerminalStateRequired
      let db ← assertChainIdentity db place
        ⟨deployment.cluster, deployment.programId, .marketClosed, place.slot⟩
      require (Numeric20 input.dustAmountAtomic.toNat) ReadModelError.checkViolation
      require (db.closeOf place.key = none) ReadModelError.uniqueViolation
      return { db with
        closeEvents := Function.update db.closeEvents input.marketId
          (some (closeEvent deployment place input))
        closeOf := Function.update db.closeOf place.key (some input.marketId)
        links := Function.update db.links input.marketId
          (some { link with chainState := .closed }) }

def recordMarketClosed (input : MarketClosedProjection) : Except ReadModelError ReadModel := do
  require (place.Valid ∧ isClusterName deployment.cluster ∧ nonempty deployment.genesisHash ∧
    deployment.genesisHash.length ≤ 128 ∧ nonempty deployment.programId ∧
    deployment.programId.length ≤ 128) ReadModelError.invalidInput
  let link ← okOr (db.links input.marketId) ReadModelError.marketClosedMarketMissing
  require (link.cluster = deployment.cluster ∧ link.genesisHash = deployment.genesisHash ∧
    link.programId = deployment.programId ∧ link.marketPda = input.marketPda)
    ReadModelError.marketClosedDeploymentMismatch
  require (link.documentHash = input.documentHash) ReadModelError.marketClosedDocumentMismatch
  require (link.asset = input.asset) ReadModelError.marketClosedAssetMismatch
  require (link.finalized = true ∧ link.projectionStale = false)
    ReadModelError.marketClosedProjectionInvalid
  putMarketClosed deployment db place link input

/-- `project` of the indexer; a change of a market's epoch is not recorded. -/
def recordProjection : EscrowFinalizedProjection → Except ReadModelError ReadModel
  | .market input => upsertMarketLink deployment db place input
  | .position input => recordPositionEvent deployment db place input
  | .settlement input => recordSettlementEvent deployment db place input
  | .claim input => recordClaimEvent deployment db place input
  | .marketClosed input => recordMarketClosed deployment db place input
  | .marketState _ => .ok db

/-! ## what the projector reads of it -/

/-- `escrow_get_market_link`. -/
def escrowGetMarketLink (marketPda : Pubkey) : MarketLinkResult :=
  if ¬ (isClusterName deployment.cluster ∧ nonempty deployment.genesisHash ∧
      deployment.genesisHash.length ≤ 128 ∧ nonempty deployment.programId ∧
      deployment.programId.length ≤ 128) then .rejected
  else
    match (db.linkOfPda marketPda).bind db.links with
    | none => .notFound
    | some link =>
        if link.genesisHash = deployment.genesisHash ∧
            (db.markets link.marketId).any (·.custodyMode = .escrow) then
          .found link.toEscrowMarketLink
        else .rejected

end

/-- The accounts that are on the chain when they are read. -/
structure ChainAccounts where
  market : Pubkey → Option (DecodedEscrowAccount Market)
  position : Pubkey → Option (DecodedEscrowAccount UserPosition)

/-- The tables, and the sides that the projector has in memory. -/
structure IndexingState where
  db : ReadModel
  sides : Pubkey → Option PositionSide

def IndexingState.projector (deployment : ProjectorDeployment) (accounts : ChainAccounts)
    (s : IndexingState) : ProjectorState where
  hasMarket := fun marketId => (s.db.markets marketId).isSome
  getMarketLink := escrowGetMarketLink deployment s.db
  market := accounts.market
  position := accounts.position
  positionSides := s.sides

inductive IndexingError
  | invalidPage
  | projection (error : ProjectionError)
  | recording (error : ReadModelError)
  deriving DecidableEq, Repr

/-- An event is resolved, and recorded if there is something to record. -/
def indexEvent (deployment : ProjectorDeployment) (accounts : ChainAccounts) (s : IndexingState)
    (place : ChainPlace) (event : EscrowProgramEvent) : Except IndexingError IndexingState :=
  let (result, projector) := projectProgramEvent deployment (s.projector deployment accounts) event
  match result with
  | .error e => .error (.projection e)
  | .ok none => .ok { s with sides := projector.positionSides }
  | .ok (some projection) =>
      match recordProjection deployment s.db place projection with
      | .error e => .error (.recording e)
      | .ok db => .ok { db, sides := projector.positionSides }

end CalledIt.Indexer
