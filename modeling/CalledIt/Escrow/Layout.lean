import CalledIt.Lib.Strict
import CalledIt.Escrow.Arguments

/-!
# CalledIt.Escrow.Layout

The accounts and the events of the program as bytes (`state/mod.rs`, `events.rs`).

An account structure and an event derive their layout from their definitions, like the
arguments of the instructions.  An oracle set holds as many signers as its account has room
for, and a transaction names at most 256 accounts, of which every closed lot is one; the two
vectors carry these bounds.  What a layout reads is what was written, and nothing else.
-/

namespace CalledIt.Escrow

open Lib

/-! ## the remaining events -/

structure ProtocolConfigInitialized where
  config : Pubkey
  configAuthority : Pubkey
  pauseAuthority : Pubkey
  marketCreationAuthority : Pubkey
  residualRecipient : Pubkey
  clusterGenesisHash : Bytes 32
  canonicalUsdcMint : Pubkey
  allowedTokenProgram : Pubkey

structure ProtocolConfigRotated where
  config : Pubkey
  configAuthority : Pubkey
  pauseAuthority : Pubkey
  marketCreationAuthority : Pubkey
  feedOperatorAuthority : Pubkey
  relayerFeePayer : Pubkey
  residualRecipient : Pubkey

structure OracleSetRotated where
  oracleSet : Pubkey
  epoch : UInt64
  threshold : UInt8
  activationSlot : UInt64

structure ProtocolPauseChanged where
  paused : Bool
  authority : Pubkey

/-! ## enumerations -/

def MarketState.tags : Tags MarketState where
  tag
    | opening => 0
    | .open => 1
    | frozen => 2
    | settling => 3
    | settled => 4
    | voided => 5
    | closed => 6
  ofTag
    | 0 => some opening
    | 1 => some .open
    | 2 => some frozen
    | 3 => some settling
    | 4 => some settled
    | 5 => some voided
    | 6 => some closed
    | _ => none
  ofTag_tag state := by cases state <;> rfl

def LotState.tags : Tags LotState where
  tag
    | pending => 0
    | active => 1
    | voided => 2
  ofTag
    | 0 => some pending
    | 1 => some active
    | 2 => some voided
    | _ => none
  ofTag_tag state := by cases state <;> rfl

instance : Borsh MarketState where
  serialize state := [MarketState.tags.tag state]
  deserialize := MarketState.tags.read

instance : LawfulBorsh MarketState := ⟨MarketState.tags.reads⟩

instance : Borsh LotState where
  serialize state := [LotState.tags.tag state]
  deserialize := LotState.tags.read

instance : LawfulBorsh LotState := ⟨LotState.tags.reads⟩

instance : StrictBorsh Asset where
  spells := Tags.spells (fun _ => rfl) fun t a h => by
    simp only [Asset.tags] at h ⊢
    split at h <;> cases h <;> rfl

instance : StrictBorsh PositionSide where
  spells := Tags.spells (fun _ => rfl) fun t a h => by
    simp only [PositionSide.tags] at h ⊢
    split at h <;> cases h <;> rfl

instance : StrictBorsh SettlementOutcome where
  spells := Tags.spells (fun _ => rfl) fun t a h => by
    simp only [SettlementOutcome.tags] at h ⊢
    split at h <;> cases h <;> rfl

instance : StrictBorsh VoidReason where
  spells := Tags.spells (fun _ => rfl) fun t a h => by
    simp only [VoidReason.tags] at h ⊢
    split at h <;> cases h <;> rfl

instance : StrictBorsh MarketState where
  spells := Tags.spells (fun _ => rfl) fun t a h => by
    simp only [MarketState.tags] at h ⊢
    split at h <;> cases h <;> rfl

instance : StrictBorsh LotState where
  spells := Tags.spells (fun _ => rfl) fun t a h => by
    simp only [LotState.tags] at h ⊢
    split at h <;> cases h <;> rfl

/-! ## accounts -/

instance : Borsh ProtocolConfig where
  serialize config :=
    [serialize config.version, serialize config.bump, serialize config.paused,
      serialize config.configAuthority, serialize config.pauseAuthority,
      serialize config.marketCreationAuthority, serialize config.feedOperatorAuthority,
      serialize config.oracleSet, serialize config.relayerFeePayer,
      serialize config.residualRecipient, serialize config.clusterGenesisHash,
      serialize config.canonicalUsdcMint, serialize config.allowedTokenProgram,
      serialize config.maxSolPosition, serialize config.maxUsdcPosition,
      serialize config.minSolPosition, serialize config.minUsdcPosition,
      serialize config.maxMarketDurationSeconds, serialize config.maxResolutionDelaySeconds].flatten
  deserialize := do
    return {
      version := ← deserialize
      bump := ← deserialize
      paused := ← deserialize
      configAuthority := ← deserialize
      pauseAuthority := ← deserialize
      marketCreationAuthority := ← deserialize
      feedOperatorAuthority := ← deserialize
      oracleSet := ← deserialize
      relayerFeePayer := ← deserialize
      residualRecipient := ← deserialize
      clusterGenesisHash := ← deserialize
      canonicalUsdcMint := ← deserialize
      allowedTokenProgram := ← deserialize
      maxSolPosition := ← deserialize
      maxUsdcPosition := ← deserialize
      minSolPosition := ← deserialize
      minUsdcPosition := ← deserialize
      maxMarketDurationSeconds := ← deserialize
      maxResolutionDelaySeconds := ← deserialize }

instance : ExactBorsh ProtocolConfig where
  law := by
    refine ⟨_, ?_, fun _ => rfl⟩
    iterate 19 refine .field fun _ => ?_
    exact .pure fun e => by cases e; simp [and_assoc]

instance : Borsh Market where
  serialize market :=
    [serialize market.version, serialize market.bump, serialize market.marketUuid,
      serialize market.fixtureId, serialize market.claimSpecHash,
      serialize market.displayTermsHash, serialize market.oddsSourceMessageHash,
      serialize market.marketDocumentHash, serialize market.quoteTimestamp,
      serialize market.probabilityPpm, serialize market.ratioMilli, serialize market.asset,
      serialize market.tokenMint, serialize market.feeBps, serialize market.state,
      serialize market.replay, serialize market.residualRecipient,
      serialize market.createdTimestamp, serialize market.inPlayStartTimestamp,
      serialize market.activationDelaySeconds, serialize market.positionCutoffTimestamp,
      serialize market.resolutionDeadline, serialize market.oracleSetEpoch,
      serialize market.eventEpoch, serialize market.activeBackTotal,
      serialize market.activeDoubtTotal, serialize market.pendingBackTotal,
      serialize market.pendingDoubtTotal, serialize market.finalMatchedBackTotal,
      serialize market.finalMatchedDoubtTotal, serialize market.finalForfeitedTotal,
      serialize market.settlementProcessedPositionCount, serialize market.settlementOutcome,
      serialize market.settlementEvidenceHash, serialize market.positionCount,
      serialize market.claimedPositionCount, serialize market.vault, serialize market.vaultBump].flatten
  deserialize := do
    return {
      version := ← deserialize
      bump := ← deserialize
      marketUuid := ← deserialize
      fixtureId := ← deserialize
      claimSpecHash := ← deserialize
      displayTermsHash := ← deserialize
      oddsSourceMessageHash := ← deserialize
      marketDocumentHash := ← deserialize
      quoteTimestamp := ← deserialize
      probabilityPpm := ← deserialize
      ratioMilli := ← deserialize
      asset := ← deserialize
      tokenMint := ← deserialize
      feeBps := ← deserialize
      state := ← deserialize
      replay := ← deserialize
      residualRecipient := ← deserialize
      createdTimestamp := ← deserialize
      inPlayStartTimestamp := ← deserialize
      activationDelaySeconds := ← deserialize
      positionCutoffTimestamp := ← deserialize
      resolutionDeadline := ← deserialize
      oracleSetEpoch := ← deserialize
      eventEpoch := ← deserialize
      activeBackTotal := ← deserialize
      activeDoubtTotal := ← deserialize
      pendingBackTotal := ← deserialize
      pendingDoubtTotal := ← deserialize
      finalMatchedBackTotal := ← deserialize
      finalMatchedDoubtTotal := ← deserialize
      finalForfeitedTotal := ← deserialize
      settlementProcessedPositionCount := ← deserialize
      settlementOutcome := ← deserialize
      settlementEvidenceHash := ← deserialize
      positionCount := ← deserialize
      claimedPositionCount := ← deserialize
      vault := ← deserialize
      vaultBump := ← deserialize }

instance : ExactBorsh Market where
  law := by
    refine ⟨_, ?_, fun _ => rfl⟩
    iterate 38 refine .field fun _ => ?_
    exact .pure fun e => by cases e; simp [and_assoc]

instance : Borsh UserPosition where
  serialize position :=
    [serialize position.version, serialize position.bump, serialize position.market,
      serialize position.owner, serialize position.side, serialize position.activeAmount,
      serialize position.pendingAmount, serialize position.refundableAmount,
      serialize position.settlementBaseEntitlement, serialize position.settlementProcessed,
      serialize position.nextLotNonce, serialize position.claimed,
      serialize position.totalPaidAmount, serialize position.createdSlot,
      serialize position.updatedSlot].flatten
  deserialize := do
    return {
      version := ← deserialize
      bump := ← deserialize
      market := ← deserialize
      owner := ← deserialize
      side := ← deserialize
      activeAmount := ← deserialize
      pendingAmount := ← deserialize
      refundableAmount := ← deserialize
      settlementBaseEntitlement := ← deserialize
      settlementProcessed := ← deserialize
      nextLotNonce := ← deserialize
      claimed := ← deserialize
      totalPaidAmount := ← deserialize
      createdSlot := ← deserialize
      updatedSlot := ← deserialize }

instance : ExactBorsh UserPosition where
  law := by
    refine ⟨_, ?_, fun _ => rfl⟩
    iterate 15 refine .field fun _ => ?_
    exact .pure fun e => by cases e; simp [and_assoc]

instance : Borsh PositionLot where
  serialize lot :=
    [serialize lot.version, serialize lot.bump, serialize lot.market, serialize lot.owner,
      serialize lot.nonce, serialize lot.side, serialize lot.amount, serialize lot.placedTimestamp,
      serialize lot.placedSlot, serialize lot.observedEventEpoch, serialize lot.state,
      serialize lot.activationTimestamp, serialize lot.invalidationEvidenceHash].flatten
  deserialize := do
    return {
      version := ← deserialize
      bump := ← deserialize
      market := ← deserialize
      owner := ← deserialize
      nonce := ← deserialize
      side := ← deserialize
      amount := ← deserialize
      placedTimestamp := ← deserialize
      placedSlot := ← deserialize
      observedEventEpoch := ← deserialize
      state := ← deserialize
      activationTimestamp := ← deserialize
      invalidationEvidenceHash := ← deserialize }

instance : ExactBorsh PositionLot where
  law := by
    refine ⟨_, ?_, fun _ => rfl⟩
    iterate 13 refine .field fun _ => ?_
    exact .pure fun e => by cases e; simp [and_assoc]

/-- An oracle set with no more signers than its account has room for. -/
abbrev StoredOracleSet := { set : OracleSet // set.signers.length ≤ oracleSignerCountV1 }

instance : Borsh StoredOracleSet where
  serialize set :=
    [serialize set.val.version, serialize set.val.bump, serialize set.val.epoch,
      serialize (⟨set.val.signers, set.property⟩ : BoundedVec Pubkey oracleSignerCountV1),
      serialize set.val.threshold, serialize set.val.activationSlot,
      serialize set.val.retirementSlot].flatten
  deserialize := do
    let version ← deserialize
    let bump ← deserialize
    let epoch ← deserialize
    let signers : BoundedVec Pubkey oracleSignerCountV1 ← deserialize
    let threshold ← deserialize
    let activationSlot ← deserialize
    let retirementSlot ← deserialize
    return ⟨{ version, bump, epoch, signers := signers.val, threshold, activationSlot, retirementSlot }, signers.property⟩

instance : LawfulBorsh (BoundedVec Pubkey oracleSignerCountV1) := ⟨parses_boundedVec (by decide)⟩

instance : ExactBorsh StoredOracleSet where
  law := by
    refine ⟨_, ?_, fun _ => rfl⟩
    iterate 7 refine .field fun _ => ?_
    exact .pure fun ⟨set, _⟩ => by cases set; simp [and_assoc, Subtype.ext_iff]

/-! ## events -/

instance : Borsh ProtocolConfigInitialized where
  serialize e :=
    [serialize e.config, serialize e.configAuthority, serialize e.pauseAuthority,
      serialize e.marketCreationAuthority, serialize e.residualRecipient,
      serialize e.clusterGenesisHash, serialize e.canonicalUsdcMint,
      serialize e.allowedTokenProgram].flatten
  deserialize := do
    return {
      config := ← deserialize
      configAuthority := ← deserialize
      pauseAuthority := ← deserialize
      marketCreationAuthority := ← deserialize
      residualRecipient := ← deserialize
      clusterGenesisHash := ← deserialize
      canonicalUsdcMint := ← deserialize
      allowedTokenProgram := ← deserialize }

instance : ExactBorsh ProtocolConfigInitialized where
  law := by
    refine ⟨_, ?_, fun _ => rfl⟩
    iterate 8 refine .field fun _ => ?_
    exact .pure fun e => by cases e; simp [and_assoc]

instance : Borsh ProtocolConfigRotated where
  serialize e :=
    [serialize e.config, serialize e.configAuthority, serialize e.pauseAuthority,
      serialize e.marketCreationAuthority, serialize e.feedOperatorAuthority,
      serialize e.relayerFeePayer, serialize e.residualRecipient].flatten
  deserialize := do
    return {
      config := ← deserialize
      configAuthority := ← deserialize
      pauseAuthority := ← deserialize
      marketCreationAuthority := ← deserialize
      feedOperatorAuthority := ← deserialize
      relayerFeePayer := ← deserialize
      residualRecipient := ← deserialize }

instance : ExactBorsh ProtocolConfigRotated where
  law := by
    refine ⟨_, ?_, fun _ => rfl⟩
    iterate 7 refine .field fun _ => ?_
    exact .pure fun e => by cases e; simp [and_assoc]

instance : Borsh OracleSetRotated where
  serialize e :=
    [serialize e.oracleSet, serialize e.epoch, serialize e.threshold, serialize e.activationSlot].flatten
  deserialize := do
    return {
      oracleSet := ← deserialize
      epoch := ← deserialize
      threshold := ← deserialize
      activationSlot := ← deserialize }

instance : ExactBorsh OracleSetRotated where
  law := by
    refine ⟨_, ?_, fun _ => rfl⟩
    iterate 4 refine .field fun _ => ?_
    exact .pure fun e => by cases e; simp [and_assoc]

instance : Borsh ProtocolPauseChanged where
  serialize e :=
    [serialize e.paused, serialize e.authority].flatten
  deserialize := do
    return {
      paused := ← deserialize
      authority := ← deserialize }

instance : ExactBorsh ProtocolPauseChanged where
  law := by
    refine ⟨_, ?_, fun _ => rfl⟩
    iterate 2 refine .field fun _ => ?_
    exact .pure fun e => by cases e; simp

instance : Borsh MarketInitialized where
  serialize e :=
    [serialize e.market, serialize e.marketUuid, serialize e.fixtureId, serialize e.asset,
      serialize e.ratioMilli, serialize e.marketDocumentHash, serialize e.residualRecipient,
      serialize e.oracleSet, serialize e.vault, serialize e.inPlayStartTimestamp,
      serialize e.activationDelaySeconds, serialize e.positionCutoffTimestamp,
      serialize e.resolutionDeadline].flatten
  deserialize := do
    return {
      market := ← deserialize
      marketUuid := ← deserialize
      fixtureId := ← deserialize
      asset := ← deserialize
      ratioMilli := ← deserialize
      marketDocumentHash := ← deserialize
      residualRecipient := ← deserialize
      oracleSet := ← deserialize
      vault := ← deserialize
      inPlayStartTimestamp := ← deserialize
      activationDelaySeconds := ← deserialize
      positionCutoffTimestamp := ← deserialize
      resolutionDeadline := ← deserialize }

instance : ExactBorsh MarketInitialized where
  law := by
    refine ⟨_, ?_, fun _ => rfl⟩
    iterate 13 refine .field fun _ => ?_
    exact .pure fun e => by cases e; simp [and_assoc]

instance : Borsh EpochChanged where
  serialize e :=
    [serialize e.market, serialize e.eventEpoch, serialize e.evidenceHash].flatten
  deserialize := do
    return {
      market := ← deserialize
      eventEpoch := ← deserialize
      evidenceHash := ← deserialize }

instance : ExactBorsh EpochChanged where
  law := by
    refine ⟨_, ?_, fun _ => rfl⟩
    iterate 3 refine .field fun _ => ?_
    exact .pure fun e => by cases e; simp [and_assoc]

instance : Borsh PositionPlaced where
  serialize e :=
    [serialize e.market, serialize e.position, serialize e.lot, serialize e.owner,
      serialize e.nonce, serialize e.side, serialize e.amount, serialize e.asset,
      serialize e.pending, serialize e.eventEpoch, serialize e.activationAfter,
      serialize e.clientIntentHash].flatten
  deserialize := do
    return {
      market := ← deserialize
      position := ← deserialize
      lot := ← deserialize
      owner := ← deserialize
      nonce := ← deserialize
      side := ← deserialize
      amount := ← deserialize
      asset := ← deserialize
      pending := ← deserialize
      eventEpoch := ← deserialize
      activationAfter := ← deserialize
      clientIntentHash := ← deserialize }

instance : ExactBorsh PositionPlaced where
  law := by
    refine ⟨_, ?_, fun _ => rfl⟩
    iterate 12 refine .field fun _ => ?_
    exact .pure fun e => by cases e; simp [and_assoc]

instance : Borsh PositionActivated where
  serialize e :=
    [serialize e.market, serialize e.position, serialize e.lot, serialize e.owner,
      serialize e.nonce, serialize e.amount, serialize e.eventEpoch].flatten
  deserialize := do
    return {
      market := ← deserialize
      position := ← deserialize
      lot := ← deserialize
      owner := ← deserialize
      nonce := ← deserialize
      amount := ← deserialize
      eventEpoch := ← deserialize }

instance : ExactBorsh PositionActivated where
  law := by
    refine ⟨_, ?_, fun _ => rfl⟩
    iterate 7 refine .field fun _ => ?_
    exact .pure fun e => by cases e; simp [and_assoc]

instance : Borsh PositionInvalidated where
  serialize e :=
    [serialize e.market, serialize e.position, serialize e.lot, serialize e.owner,
      serialize e.nonce, serialize e.amount, serialize e.eventEpoch, serialize e.evidenceHash].flatten
  deserialize := do
    return {
      market := ← deserialize
      position := ← deserialize
      lot := ← deserialize
      owner := ← deserialize
      nonce := ← deserialize
      amount := ← deserialize
      eventEpoch := ← deserialize
      evidenceHash := ← deserialize }

instance : ExactBorsh PositionInvalidated where
  law := by
    refine ⟨_, ?_, fun _ => rfl⟩
    iterate 8 refine .field fun _ => ?_
    exact .pure fun e => by cases e; simp [and_assoc]

instance : Borsh MarketSettlementStarted where
  serialize e :=
    [serialize e.market, serialize e.outcome, serialize e.matchedBack, serialize e.matchedDoubt,
      serialize e.positionCount, serialize e.evidenceHash].flatten
  deserialize := do
    return {
      market := ← deserialize
      outcome := ← deserialize
      matchedBack := ← deserialize
      matchedDoubt := ← deserialize
      positionCount := ← deserialize
      evidenceHash := ← deserialize }

instance : ExactBorsh MarketSettlementStarted where
  law := by
    refine ⟨_, ?_, fun _ => rfl⟩
    iterate 6 refine .field fun _ => ?_
    exact .pure fun e => by cases e; simp [and_assoc]

instance : Borsh PositionEntitlementCalculated where
  serialize e :=
    [serialize e.market, serialize e.position, serialize e.owner, serialize e.baseEntitlement,
      serialize e.forfeitedAmount, serialize e.processedPositionCount].flatten
  deserialize := do
    return {
      market := ← deserialize
      position := ← deserialize
      owner := ← deserialize
      baseEntitlement := ← deserialize
      forfeitedAmount := ← deserialize
      processedPositionCount := ← deserialize }

instance : ExactBorsh PositionEntitlementCalculated where
  law := by
    refine ⟨_, ?_, fun _ => rfl⟩
    iterate 6 refine .field fun _ => ?_
    exact .pure fun e => by cases e; simp [and_assoc]

instance : Borsh MarketSettled where
  serialize e :=
    [serialize e.market, serialize e.outcome, serialize e.matchedBack, serialize e.matchedDoubt,
      serialize e.forfeitedTotal, serialize e.evidenceHash, serialize e.finalPosition,
      serialize e.finalOwner, serialize e.finalBaseEntitlement, serialize e.finalForfeitedAmount].flatten
  deserialize := do
    return {
      market := ← deserialize
      outcome := ← deserialize
      matchedBack := ← deserialize
      matchedDoubt := ← deserialize
      forfeitedTotal := ← deserialize
      evidenceHash := ← deserialize
      finalPosition := ← deserialize
      finalOwner := ← deserialize
      finalBaseEntitlement := ← deserialize
      finalForfeitedAmount := ← deserialize }

instance : ExactBorsh MarketSettled where
  law := by
    refine ⟨_, ?_, fun _ => rfl⟩
    iterate 10 refine .field fun _ => ?_
    exact .pure fun e => by cases e; simp [and_assoc]

instance : Borsh MarketVoided where
  serialize e :=
    [serialize e.market, serialize e.evidenceHash, serialize e.timedOut, serialize e.reason,
      serialize e.decidingSequence].flatten
  deserialize := do
    return {
      market := ← deserialize
      evidenceHash := ← deserialize
      timedOut := ← deserialize
      reason := ← deserialize
      decidingSequence := ← deserialize }

instance : ExactBorsh MarketVoided where
  law := by
    refine ⟨_, ?_, fun _ => rfl⟩
    iterate 5 refine .field fun _ => ?_
    exact .pure fun e => by cases e; simp [and_assoc]

instance : Borsh PositionClaimed where
  serialize e :=
    [serialize e.market, serialize e.position, serialize e.owner, serialize e.amount,
      serialize e.asset, serialize e.destination].flatten
  deserialize := do
    return {
      market := ← deserialize
      position := ← deserialize
      owner := ← deserialize
      amount := ← deserialize
      asset := ← deserialize
      destination := ← deserialize }

instance : ExactBorsh PositionClaimed where
  law := by
    refine ⟨_, ?_, fun _ => rfl⟩
    iterate 6 refine .field fun _ => ?_
    exact .pure fun e => by cases e; simp [and_assoc]

/-- The lots of one transaction. -/
abbrev EmittedLotsClosed := { e : PositionLotsClosed // e.nonces.length ≤ 256 }

instance : Borsh EmittedLotsClosed where
  serialize e :=
    [serialize e.val.market, serialize e.val.position, serialize e.val.owner,
      serialize (⟨e.val.nonces, e.property⟩ : BoundedVec UInt64 256), serialize e.val.rentRecipient].flatten
  deserialize := do
    let market ← deserialize
    let position ← deserialize
    let owner ← deserialize
    let nonces : BoundedVec UInt64 256 ← deserialize
    let rentRecipient ← deserialize
    return ⟨{ market, position, owner, nonces := nonces.val, rentRecipient }, nonces.property⟩

instance : LawfulBorsh (BoundedVec UInt64 256) := ⟨parses_boundedVec (by decide)⟩

instance : ExactBorsh EmittedLotsClosed where
  law := by
    refine ⟨_, ?_, fun _ => rfl⟩
    iterate 5 refine .field fun _ => ?_
    exact .pure fun ⟨e, _⟩ => by cases e; simp [and_assoc, Subtype.ext_iff]

instance : Borsh PositionClosed where
  serialize e :=
    [serialize e.market, serialize e.position, serialize e.owner, serialize e.rentRecipient].flatten
  deserialize := do
    return {
      market := ← deserialize
      position := ← deserialize
      owner := ← deserialize
      rentRecipient := ← deserialize }

instance : ExactBorsh PositionClosed where
  law := by
    refine ⟨_, ?_, fun _ => rfl⟩
    iterate 4 refine .field fun _ => ?_
    exact .pure fun e => by cases e; simp [and_assoc]

instance : Borsh MarketClosed where
  serialize e :=
    [serialize e.market, serialize e.dustAmount, serialize e.asset].flatten
  deserialize := do
    return {
      market := ← deserialize
      dustAmount := ← deserialize
      asset := ← deserialize }

instance : ExactBorsh MarketClosed where
  law := by
    refine ⟨_, ?_, fun _ => rfl⟩
    iterate 3 refine .field fun _ => ?_
    exact .pure fun e => by cases e; simp [and_assoc]

/-- The events of the program. -/
inductive ProgramEvent
  | protocolConfigInitialized (e : ProtocolConfigInitialized)
  | protocolConfigRotated (e : ProtocolConfigRotated)
  | oracleSetRotated (e : OracleSetRotated)
  | protocolPauseChanged (e : ProtocolPauseChanged)
  | marketInitialized (e : MarketInitialized)
  | marketFrozen (e : EpochChanged)
  | marketUnfrozen (e : EpochChanged)
  | positionPlaced (e : PositionPlaced)
  | positionActivated (e : PositionActivated)
  | positionInvalidated (e : PositionInvalidated)
  | marketSettlementStarted (e : MarketSettlementStarted)
  | positionEntitlementCalculated (e : PositionEntitlementCalculated)
  | marketSettled (e : MarketSettled)
  | marketVoided (e : MarketVoided)
  | positionClaimed (e : PositionClaimed)
  | positionLotsClosed (e : EmittedLotsClosed)
  | positionClosed (e : PositionClosed)
  | marketClosed (e : MarketClosed)

/-- The fields of an event, which stand behind its discriminator. -/
def ProgramEvent.payload : ProgramEvent → List UInt8
  | .protocolConfigInitialized e => serialize e
  | .protocolConfigRotated e => serialize e
  | .oracleSetRotated e => serialize e
  | .protocolPauseChanged e => serialize e
  | .marketInitialized e => serialize e
  | .marketFrozen e => serialize e
  | .marketUnfrozen e => serialize e
  | .positionPlaced e => serialize e
  | .positionActivated e => serialize e
  | .positionInvalidated e => serialize e
  | .marketSettlementStarted e => serialize e
  | .positionEntitlementCalculated e => serialize e
  | .marketSettled e => serialize e
  | .marketVoided e => serialize e
  | .positionClaimed e => serialize e
  | .positionLotsClosed e => serialize e
  | .positionClosed e => serialize e
  | .marketClosed e => serialize e

end CalledIt.Escrow
