import CalledIt.Escrow.Encoding

/-!
# CalledIt.Escrow.Events

The events the market instructions emit (`events.rs`).
-/

namespace CalledIt.Escrow

structure MarketInitialized where
  market : Pubkey
  marketUuid : Bytes 16
  fixtureId : UInt64
  asset : Asset
  ratioMilli : UInt32
  marketDocumentHash : Bytes 32
  residualRecipient : Pubkey
  oracleSet : Pubkey
  vault : Pubkey
  inPlayStartTimestamp : Int64
  activationDelaySeconds : UInt64
  positionCutoffTimestamp : Int64
  resolutionDeadline : Int64

/-- `MarketFrozen` and `MarketUnfrozen`. -/
structure EpochChanged where
  market : Pubkey
  eventEpoch : UInt64
  evidenceHash : Bytes 32

structure PositionPlaced where
  market : Pubkey
  position : Pubkey
  lot : Pubkey
  owner : Pubkey
  nonce : UInt64
  side : PositionSide
  amount : UInt64
  asset : Asset
  pending : Bool
  eventEpoch : UInt64
  activationAfter : Option Int64
  clientIntentHash : Bytes 32

structure PositionActivated where
  market : Pubkey
  position : Pubkey
  lot : Pubkey
  owner : Pubkey
  nonce : UInt64
  amount : UInt64
  eventEpoch : UInt64

structure PositionInvalidated where
  market : Pubkey
  position : Pubkey
  lot : Pubkey
  owner : Pubkey
  nonce : UInt64
  amount : UInt64
  eventEpoch : UInt64
  evidenceHash : Bytes 32

structure MarketSettled where
  market : Pubkey
  outcome : SettlementOutcome
  matchedBack : UInt64
  matchedDoubt : UInt64
  forfeitedTotal : UInt64
  evidenceHash : Bytes 32
  finalPosition : Option Pubkey
  finalOwner : Option Pubkey
  finalBaseEntitlement : Option UInt64
  finalForfeitedAmount : Option UInt64

structure MarketSettlementStarted where
  market : Pubkey
  outcome : SettlementOutcome
  matchedBack : UInt64
  matchedDoubt : UInt64
  positionCount : UInt64
  evidenceHash : Bytes 32

structure PositionEntitlementCalculated where
  market : Pubkey
  position : Pubkey
  owner : Pubkey
  baseEntitlement : UInt64
  forfeitedAmount : UInt64
  processedPositionCount : UInt64

structure MarketVoided where
  market : Pubkey
  evidenceHash : Bytes 32
  timedOut : Bool
  reason : Option VoidReason
  decidingSequence : Option UInt64

structure PositionClaimed where
  market : Pubkey
  position : Pubkey
  owner : Pubkey
  amount : UInt64
  asset : Asset
  destination : Pubkey

structure MarketClosed where
  market : Pubkey
  dustAmount : UInt64
  asset : Asset

structure PositionLotsClosed where
  market : Pubkey
  position : Pubkey
  owner : Pubkey
  nonces : List UInt64
  rentRecipient : Pubkey

structure PositionClosed where
  market : Pubkey
  position : Pubkey
  owner : Pubkey
  rentRecipient : Pubkey

inductive Event
  | marketInitialized (e : MarketInitialized)
  | marketFrozen (e : EpochChanged)
  | marketUnfrozen (e : EpochChanged)
  | positionPlaced (e : PositionPlaced)
  | positionActivated (e : PositionActivated)
  | positionInvalidated (e : PositionInvalidated)
  | marketSettlementStarted (e : MarketSettlementStarted)
  | positionEntitlementCalculated (e : PositionEntitlementCalculated)
  | marketSettled (e : MarketSettled)
  | marketVoided (e : MarketVoided)
  | positionClaimed (e : PositionClaimed)
  | positionLotsClosed (e : PositionLotsClosed)
  | positionClosed (e : PositionClosed)
  | marketClosed (e : MarketClosed)

end CalledIt.Escrow
