import CalledIt.Lib.Borsh
import CalledIt.Escrow.Admin
import CalledIt.Escrow.Claims

/-!
# CalledIt.Escrow.Arguments

The arguments of the program's instructions as bytes (`instructions/mod.rs`).

Every argument structure derives its layout from its definition: the fields in
their order, an enumeration by the index of its variant.  An instruction that has
no arguments has an empty layout.
-/

namespace CalledIt.Escrow

open Lib

/-! ## the remaining structures -/

structure InitializeConfigArgs where
  clusterGenesisHash : Bytes 32
  configAuthority : Pubkey
  pauseAuthority : Pubkey
  marketCreationAuthority : Pubkey
  feedOperatorAuthority : Pubkey
  relayerFeePayer : Pubkey
  residualRecipient : Pubkey
  canonicalUsdcMint : Pubkey
  allowedTokenProgram : Pubkey
  maxSolPosition : UInt64
  maxUsdcPosition : UInt64
  minSolPosition : UInt64
  minUsdcPosition : UInt64
  maxMarketDurationSeconds : UInt64
  maxResolutionDelaySeconds : UInt64

structure RotateConfigArgs where
  configAuthority : Pubkey
  pauseAuthority : Pubkey
  marketCreationAuthority : Pubkey
  feedOperatorAuthority : Pubkey
  relayerFeePayer : Pubkey
  residualRecipient : Pubkey
  maxSolPosition : UInt64
  maxUsdcPosition : UInt64
  minSolPosition : UInt64
  minUsdcPosition : UInt64
  maxMarketDurationSeconds : UInt64
  maxResolutionDelaySeconds : UInt64

structure SetPauseArgs where
  paused : Bool

/-! ## enumerations -/

def Asset.tags : Tags Asset where
  tag
    | sol => 0
    | usdc => 1
  ofTag
    | 0 => some sol
    | 1 => some usdc
    | _ => none
  ofTag_tag asset := by cases asset <;> rfl

def PositionSide.tags : Tags PositionSide where
  tag
    | back => 0
    | doubt => 1
  ofTag
    | 0 => some back
    | 1 => some doubt
    | _ => none
  ofTag_tag side := by cases side <;> rfl

def SettlementOutcome.tags : Tags SettlementOutcome where
  tag
    | unresolved => 0
    | claimWon => 1
    | claimLost => 2
    | void => 3
  ofTag
    | 0 => some unresolved
    | 1 => some claimWon
    | 2 => some claimLost
    | 3 => some void
    | _ => none
  ofTag_tag outcome := by cases outcome <;> rfl

def VoidReason.tags : Tags VoidReason where
  tag
    | cancelled => 0
    | abandoned => 1
    | coverageLoss => 2
    | undecidable => 3
  ofTag
    | 0 => some cancelled
    | 1 => some abandoned
    | 2 => some coverageLoss
    | 3 => some undecidable
    | _ => none
  ofTag_tag reason := by cases reason <;> rfl

instance : Borsh Asset where
  serialize asset := [Asset.tags.tag asset]
  deserialize := Asset.tags.read

instance : LawfulBorsh Asset := ⟨Asset.tags.reads⟩

instance : Borsh PositionSide where
  serialize side := [PositionSide.tags.tag side]
  deserialize := PositionSide.tags.read

instance : LawfulBorsh PositionSide := ⟨PositionSide.tags.reads⟩

instance : Borsh SettlementOutcome where
  serialize outcome := [SettlementOutcome.tags.tag outcome]
  deserialize := SettlementOutcome.tags.read

instance : LawfulBorsh SettlementOutcome := ⟨SettlementOutcome.tags.reads⟩

instance : Borsh VoidReason where
  serialize reason := [VoidReason.tags.tag reason]
  deserialize := VoidReason.tags.read

instance : LawfulBorsh VoidReason := ⟨VoidReason.tags.reads⟩

/-! ## structures -/

instance : Borsh ScoreV1 where
  serialize score := [serialize score.home, serialize score.away].flatten
  deserialize := do
    return {
      home := ← deserialize
      away := ← deserialize }

instance : LawfulBorsh ScoreV1 where
  reads score := by
    iterate 2 refine (LawfulBorsh.reads _).field ?_
    exact Parses.done score

instance : Borsh InitializeConfigArgs where
  serialize args := [serialize args.clusterGenesisHash, serialize args.configAuthority,
    serialize args.pauseAuthority, serialize args.marketCreationAuthority,
    serialize args.feedOperatorAuthority, serialize args.relayerFeePayer,
    serialize args.residualRecipient, serialize args.canonicalUsdcMint,
    serialize args.allowedTokenProgram, serialize args.maxSolPosition,
    serialize args.maxUsdcPosition, serialize args.minSolPosition, serialize args.minUsdcPosition,
    serialize args.maxMarketDurationSeconds, serialize args.maxResolutionDelaySeconds].flatten
  deserialize := do
    return {
      clusterGenesisHash := ← deserialize
      configAuthority := ← deserialize
      pauseAuthority := ← deserialize
      marketCreationAuthority := ← deserialize
      feedOperatorAuthority := ← deserialize
      relayerFeePayer := ← deserialize
      residualRecipient := ← deserialize
      canonicalUsdcMint := ← deserialize
      allowedTokenProgram := ← deserialize
      maxSolPosition := ← deserialize
      maxUsdcPosition := ← deserialize
      minSolPosition := ← deserialize
      minUsdcPosition := ← deserialize
      maxMarketDurationSeconds := ← deserialize
      maxResolutionDelaySeconds := ← deserialize }

instance : LawfulBorsh InitializeConfigArgs where
  reads args := by
    iterate 15 refine (LawfulBorsh.reads _).field ?_
    exact Parses.done args

instance : Borsh RotateConfigArgs where
  serialize args := [serialize args.configAuthority, serialize args.pauseAuthority,
    serialize args.marketCreationAuthority, serialize args.feedOperatorAuthority,
    serialize args.relayerFeePayer, serialize args.residualRecipient,
    serialize args.maxSolPosition, serialize args.maxUsdcPosition, serialize args.minSolPosition,
    serialize args.minUsdcPosition, serialize args.maxMarketDurationSeconds,
    serialize args.maxResolutionDelaySeconds].flatten
  deserialize := do
    return {
      configAuthority := ← deserialize
      pauseAuthority := ← deserialize
      marketCreationAuthority := ← deserialize
      feedOperatorAuthority := ← deserialize
      relayerFeePayer := ← deserialize
      residualRecipient := ← deserialize
      maxSolPosition := ← deserialize
      maxUsdcPosition := ← deserialize
      minSolPosition := ← deserialize
      minUsdcPosition := ← deserialize
      maxMarketDurationSeconds := ← deserialize
      maxResolutionDelaySeconds := ← deserialize }

instance : LawfulBorsh RotateConfigArgs where
  reads args := by
    iterate 12 refine (LawfulBorsh.reads _).field ?_
    exact Parses.done args

instance : Borsh RotateOracleSetArgs where
  serialize args := [serialize args.epoch, serialize args.signers, serialize args.threshold,
    serialize args.activationSlot, serialize args.retirementSlot].flatten
  deserialize := do
    return {
      epoch := ← deserialize
      signers := ← deserialize
      threshold := ← deserialize
      activationSlot := ← deserialize
      retirementSlot := ← deserialize }

instance : Borsh SetPauseArgs where
  serialize args := [serialize args.paused].flatten
  deserialize := do
    return {
      paused := ← deserialize }

instance : LawfulBorsh SetPauseArgs where
  reads args := by
    refine (LawfulBorsh.reads _).field ?_
    exact Parses.done args

instance : Borsh InitializeMarketArgs where
  serialize args := [serialize args.expectedClusterGenesisHash, serialize args.expectedProgramId,
    serialize args.expectedConfig, serialize args.expectedOracleSet, serialize args.marketUuid,
    serialize args.fixtureId, serialize args.claimSpecHash, serialize args.displayTermsHash,
    serialize args.oddsSourceMessageHash, serialize args.marketDocumentHash,
    serialize args.quoteTimestamp, serialize args.probabilityPpm, serialize args.ratioMilli,
    serialize args.asset, serialize args.tokenMint, serialize args.feeBps, serialize args.replay,
    serialize args.inPlayStartTimestamp, serialize args.activationDelaySeconds,
    serialize args.positionCutoffTimestamp, serialize args.resolutionDeadline,
    serialize args.oracleSetEpoch].flatten
  deserialize := do
    return {
      expectedClusterGenesisHash := ← deserialize
      expectedProgramId := ← deserialize
      expectedConfig := ← deserialize
      expectedOracleSet := ← deserialize
      marketUuid := ← deserialize
      fixtureId := ← deserialize
      claimSpecHash := ← deserialize
      displayTermsHash := ← deserialize
      oddsSourceMessageHash := ← deserialize
      marketDocumentHash := ← deserialize
      quoteTimestamp := ← deserialize
      probabilityPpm := ← deserialize
      ratioMilli := ← deserialize
      asset := ← deserialize
      tokenMint := ← deserialize
      feeBps := ← deserialize
      replay := ← deserialize
      inPlayStartTimestamp := ← deserialize
      activationDelaySeconds := ← deserialize
      positionCutoffTimestamp := ← deserialize
      resolutionDeadline := ← deserialize
      oracleSetEpoch := ← deserialize }

instance : LawfulBorsh InitializeMarketArgs where
  reads args := by
    iterate 22 refine (LawfulBorsh.reads _).field ?_
    exact Parses.done args

instance : Borsh FreezeMarketArgs where
  serialize args := [serialize args.expectedEventEpoch, serialize args.evidenceHash].flatten
  deserialize := do
    return {
      expectedEventEpoch := ← deserialize
      evidenceHash := ← deserialize }

instance : LawfulBorsh FreezeMarketArgs where
  reads args := by
    iterate 2 refine (LawfulBorsh.reads _).field ?_
    exact Parses.done args

instance : Borsh UnfreezeMarketArgs where
  serialize args := [serialize args.expectedEventEpoch, serialize args.decidingSequence,
    serialize args.observedAt, serialize args.issuedAt, serialize args.expiresAt,
    serialize args.evidenceHash].flatten
  deserialize := do
    return {
      expectedEventEpoch := ← deserialize
      decidingSequence := ← deserialize
      observedAt := ← deserialize
      issuedAt := ← deserialize
      expiresAt := ← deserialize
      evidenceHash := ← deserialize }

instance : LawfulBorsh UnfreezeMarketArgs where
  reads args := by
    iterate 6 refine (LawfulBorsh.reads _).field ?_
    exact Parses.done args

instance : Borsh PlacePositionArgs where
  serialize args := [serialize args.marketUuid, serialize args.side, serialize args.amount,
    serialize args.expectedAsset, serialize args.expectedRatioMilli,
    serialize args.expectedMarketDocumentHash, serialize args.expectedEventEpoch,
    serialize args.expectedLotNonce, serialize args.clientIntentHash,
    serialize args.clientExpiryTimestamp].flatten
  deserialize := do
    return {
      marketUuid := ← deserialize
      side := ← deserialize
      amount := ← deserialize
      expectedAsset := ← deserialize
      expectedRatioMilli := ← deserialize
      expectedMarketDocumentHash := ← deserialize
      expectedEventEpoch := ← deserialize
      expectedLotNonce := ← deserialize
      clientIntentHash := ← deserialize
      clientExpiryTimestamp := ← deserialize }

instance : LawfulBorsh PlacePositionArgs where
  reads args := by
    iterate 10 refine (LawfulBorsh.reads _).field ?_
    exact Parses.done args

instance : Borsh ActivatePositionLotArgs where
  serialize args := [serialize args.nonce, serialize args.expectedEventEpoch].flatten
  deserialize := do
    return {
      nonce := ← deserialize
      expectedEventEpoch := ← deserialize }

instance : LawfulBorsh ActivatePositionLotArgs where
  reads args := by
    iterate 2 refine (LawfulBorsh.reads _).field ?_
    exact Parses.done args

instance : Borsh InvalidatePositionLotArgs where
  serialize args := [serialize args.nonce, serialize args.evidenceHash,
    serialize args.invalidatedEventEpoch, serialize args.decidingSequence,
    serialize args.issuedAt, serialize args.expiresAt].flatten
  deserialize := do
    return {
      nonce := ← deserialize
      evidenceHash := ← deserialize
      invalidatedEventEpoch := ← deserialize
      decidingSequence := ← deserialize
      issuedAt := ← deserialize
      expiresAt := ← deserialize }

instance : LawfulBorsh InvalidatePositionLotArgs where
  reads args := by
    iterate 6 refine (LawfulBorsh.reads _).field ?_
    exact Parses.done args

instance : Borsh SettleMarketArgs where
  serialize args := [serialize args.outcome, serialize args.decidingSequence,
    serialize args.terminalPhase, serialize args.regulationScore, serialize args.fullMatchScore,
    serialize args.evidenceSequenceCommitment, serialize args.normalizedEvidenceRoot,
    serialize args.issuedAt, serialize args.expiresAt, serialize args.evidenceHash].flatten
  deserialize := do
    return {
      outcome := ← deserialize
      decidingSequence := ← deserialize
      terminalPhase := ← deserialize
      regulationScore := ← deserialize
      fullMatchScore := ← deserialize
      evidenceSequenceCommitment := ← deserialize
      normalizedEvidenceRoot := ← deserialize
      issuedAt := ← deserialize
      expiresAt := ← deserialize
      evidenceHash := ← deserialize }

instance : Borsh VoidMarketArgs where
  serialize args := [serialize args.reason, serialize args.decidingSequence,
    serialize args.issuedAt, serialize args.expiresAt, serialize args.evidenceHash].flatten
  deserialize := do
    return {
      reason := ← deserialize
      decidingSequence := ← deserialize
      issuedAt := ← deserialize
      expiresAt := ← deserialize
      evidenceHash := ← deserialize }

instance : LawfulBorsh VoidMarketArgs where
  reads args := by
    iterate 5 refine (LawfulBorsh.reads _).field ?_
    exact Parses.done args

instance : Borsh ClosePositionLotsArgs where
  serialize args := [serialize args.nonces].flatten
  deserialize := do
    return {
      nonces := ← deserialize }

/-! ## all instructions -/

inductive InstructionKind
  | initializeConfig
  | rotateConfig
  | rotateOracleSet
  | setPause
  | initializeMarket
  | freezeMarket
  | unfreezeMarket
  | placePosition
  | activatePositionLot
  | invalidatePositionLot
  | settleMarket
  | calculatePositionEntitlement
  | voidMarket
  | timeoutVoid
  | claimPosition
  | claimPositionFor
  | closePositionLots
  | closePosition
  | closeMarket
  deriving DecidableEq, Repr

/-- What a handler receives. -/
inductive InstructionArgs
  | initializeConfig (args : InitializeConfigArgs)
  | rotateConfig (args : RotateConfigArgs)
  | rotateOracleSet (args : RotateOracleSetArgs)
  | setPause (args : SetPauseArgs)
  | initializeMarket (args : InitializeMarketArgs)
  | freezeMarket (args : FreezeMarketArgs)
  | unfreezeMarket (args : UnfreezeMarketArgs)
  | placePosition (args : PlacePositionArgs)
  | activatePositionLot (args : ActivatePositionLotArgs)
  | invalidatePositionLot (args : InvalidatePositionLotArgs)
  | settleMarket (args : SettleMarketArgs)
  | calculatePositionEntitlement
  | voidMarket (args : VoidMarketArgs)
  | timeoutVoid
  | claimPosition
  | claimPositionFor
  | closePositionLots (args : ClosePositionLotsArgs)
  | closePosition
  | closeMarket

namespace InstructionArgs

def kind : InstructionArgs → InstructionKind
  | initializeConfig _ => .initializeConfig
  | rotateConfig _ => .rotateConfig
  | rotateOracleSet _ => .rotateOracleSet
  | setPause _ => .setPause
  | initializeMarket _ => .initializeMarket
  | freezeMarket _ => .freezeMarket
  | unfreezeMarket _ => .unfreezeMarket
  | placePosition _ => .placePosition
  | activatePositionLot _ => .activatePositionLot
  | invalidatePositionLot _ => .invalidatePositionLot
  | settleMarket _ => .settleMarket
  | calculatePositionEntitlement => .calculatePositionEntitlement
  | voidMarket _ => .voidMarket
  | timeoutVoid => .timeoutVoid
  | claimPosition => .claimPosition
  | claimPositionFor => .claimPositionFor
  | closePositionLots _ => .closePositionLots
  | closePosition => .closePosition
  | closeMarket => .closeMarket

def serialize : InstructionArgs → List UInt8
  | initializeConfig args => Borsh.serialize args
  | rotateConfig args => Borsh.serialize args
  | rotateOracleSet args => Borsh.serialize args
  | setPause args => Borsh.serialize args
  | initializeMarket args => Borsh.serialize args
  | freezeMarket args => Borsh.serialize args
  | unfreezeMarket args => Borsh.serialize args
  | placePosition args => Borsh.serialize args
  | activatePositionLot args => Borsh.serialize args
  | invalidatePositionLot args => Borsh.serialize args
  | settleMarket args => Borsh.serialize args
  | voidMarket args => Borsh.serialize args
  | closePositionLots args => Borsh.serialize args
  | calculatePositionEntitlement | timeoutVoid | claimPosition | claimPositionFor
  | closePosition | closeMarket => []

/-- The lengths that Borsh can write. -/
def Fits : InstructionArgs → Prop
  | rotateOracleSet args => args.signers.length < 2 ^ 32
  | settleMarket args => (utf8 args.terminalPhase).length < 2 ^ 32
  | closePositionLots args => args.nonces.length < 2 ^ 32
  | _ => True

end InstructionArgs

/-- The arguments of the instruction that a discriminator has selected. -/
def InstructionKind.deserializeArgs : InstructionKind → Reader InstructionArgs
  | initializeConfig => do return .initializeConfig (← deserialize)
  | rotateConfig => do return .rotateConfig (← deserialize)
  | rotateOracleSet => do return .rotateOracleSet (← deserialize)
  | setPause => do return .setPause (← deserialize)
  | initializeMarket => do return .initializeMarket (← deserialize)
  | freezeMarket => do return .freezeMarket (← deserialize)
  | unfreezeMarket => do return .unfreezeMarket (← deserialize)
  | placePosition => do return .placePosition (← deserialize)
  | activatePositionLot => do return .activatePositionLot (← deserialize)
  | invalidatePositionLot => do return .invalidatePositionLot (← deserialize)
  | settleMarket => do return .settleMarket (← deserialize)
  | calculatePositionEntitlement => return .calculatePositionEntitlement
  | voidMarket => do return .voidMarket (← deserialize)
  | timeoutVoid => return .timeoutVoid
  | claimPosition => return .claimPosition
  | claimPositionFor => return .claimPositionFor
  | closePositionLots => do return .closePositionLots (← deserialize)
  | closePosition => return .closePosition
  | closeMarket => return .closeMarket

theorem parses_rotateOracleSetArgs {args : RotateOracleSetArgs}
    (h : args.signers.length < 2 ^ 32) : Parses deserialize (serialize args) args := by
  refine (LawfulBorsh.reads _).field ?_
  refine (parses_list h).field ?_
  iterate 3 refine (LawfulBorsh.reads _).field ?_
  exact Parses.done args

theorem parses_settleMarketArgs {args : SettleMarketArgs}
    (h : (utf8 args.terminalPhase).length < 2 ^ 32) :
    Parses deserialize (serialize args) args := by
  iterate 2 refine (LawfulBorsh.reads _).field ?_
  refine (parses_string h).field ?_
  iterate 7 refine (LawfulBorsh.reads _).field ?_
  exact Parses.done args

theorem parses_closePositionLotsArgs {args : ClosePositionLotsArgs}
    (h : args.nonces.length < 2 ^ 32) : Parses deserialize (serialize args) args := by
  refine (parses_list h).field ?_
  exact Parses.done args

/-- The arguments of every instruction read back from their bytes. -/
theorem parses_instructionArgs {args : InstructionArgs} (h : args.Fits) :
    Parses args.kind.deserializeArgs args.serialize args := by
  cases args with
  | rotateOracleSet args => exact (parses_rotateOracleSetArgs h).yields rfl
  | settleMarket args => exact (parses_settleMarketArgs h).yields rfl
  | closePositionLots args => exact (parses_closePositionLotsArgs h).yields rfl
  | calculatePositionEntitlement | timeoutVoid | claimPosition | claimPositionFor
  | closePosition | closeMarket => exact Parses.pure _
  | initializeConfig args | rotateConfig args | setPause args | initializeMarket args
  | freezeMarket args | unfreezeMarket args | placePosition args | activatePositionLot args
  | invalidatePositionLot args | voidMarket args => exact (LawfulBorsh.reads args).yields rfl

end CalledIt.Escrow
