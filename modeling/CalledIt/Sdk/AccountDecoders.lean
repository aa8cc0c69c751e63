import CalledIt.Sdk.BorshReader

/-!
# CalledIt.Sdk.AccountDecoders

The accounts of the program as the client decodes them
(`escrow-sdk/src/account-decoders.ts`, `accounts.ts`).

An account is its discriminator, its fields and any number of zero bytes.  The decoders read
the fields in the order of the program, so they mirror the program's own readers; hence a
decoder inverts the layout (`Inverts`): it returns every value that was written, and what it
returns is the view of the only value that the bytes encode.  The discriminators are the ones
of `schema.ts`.
-/

namespace CalledIt.Sdk

open Lib
open BorshReader
open Escrow (Bytes Pubkey Asset PositionSide MarketState LotState VoidReason defaultPubkey
  zeroHash StoredOracleSet)

/-! ## the accounts of the client -/

structure ProtocolConfigAccount where
  version : Int
  bump : Int
  paused : Bool
  configAuthority : String
  pauseAuthority : String
  marketCreationAuthority : String
  feedOperatorAuthority : String
  oracleSet : String
  relayerFeePayer : String
  residualRecipient : String
  clusterGenesisHash : List UInt8
  canonicalUsdcMint : String
  allowedTokenProgram : String
  maximumSolPosition : Int
  maximumUsdcPosition : Int
  minimumSolPosition : Int
  minimumUsdcPosition : Int
  maximumMarketDurationSeconds : Int
  maximumResolutionDelaySeconds : Int
  deriving DecidableEq, Repr

structure OracleSetAccount where
  version : Int
  bump : Int
  epoch : Int
  signers : List String
  signatureThreshold : Int
  activationSlot : Int
  retirementSlot : Option Int
  deriving DecidableEq, Repr

structure MarketAccount where
  version : Int
  bump : Int
  marketUuid : String
  fixtureId : Int
  claimSpecificationHash : List UInt8
  displayTermsHash : List UInt8
  oddsMessageHash : List UInt8
  marketDocumentHash : List UInt8
  quoteTimestamp : Int
  probabilityPpm : Int
  ratioMilli : Int
  asset : Asset
  tokenMint : Option String
  feeBps : Int
  state : MarketState
  replay : Bool
  residualRecipient : String
  createdTimestamp : Int
  inPlayStartTimestamp : Int
  activationDelaySeconds : Int
  positionCutoffTimestamp : Int
  resolutionDeadline : Int
  oracleSetEpoch : Int
  eventEpoch : Int
  activeBackTotal : Int
  activeDoubtTotal : Int
  pendingBackTotal : Int
  pendingDoubtTotal : Int
  finalMatchedBackTotal : Int
  finalMatchedDoubtTotal : Int
  finalForfeitedTotal : Int
  settlementProcessedPositionCount : Int
  settlementOutcome : Option SettlementOutcome
  settlementEvidenceHash : Option (List UInt8)
  positionCount : Int
  claimedPositionCount : Int
  vault : String
  vaultBump : Int
  deriving DecidableEq, Repr

structure UserPositionAccount where
  version : Int
  bump : Int
  market : String
  owner : String
  side : PositionSide
  activeAmount : Int
  pendingAmount : Int
  refundableAmount : Int
  settlementBaseEntitlement : Int
  settlementProcessed : Bool
  nextLotNonce : Int
  claimed : Bool
  totalPaidAmount : Int
  createdSlot : Int
  updatedSlot : Int
  deriving DecidableEq, Repr

structure PositionLotAccount where
  version : Int
  bump : Int
  market : String
  owner : String
  nonce : Int
  side : PositionSide
  amount : Int
  placedTimestamp : Int
  placedSlot : Int
  observedEventEpoch : Int
  state : LotState
  activationTimestamp : Option Int
  invalidationEvidenceHash : Option (List UInt8)
  deriving DecidableEq, Repr

/-! ## the decoders -/

/-- The names of `ESCROW_ACCOUNT_DISCRIMINATORS`. -/
inductive AccountName
  | protocolConfig
  | oracleSet
  | market
  | userPosition
  | positionLot
  deriving DecidableEq, Repr

def AccountName.text : AccountName → String
  | protocolConfig => "ProtocolConfig"
  | oracleSet => "OracleSet"
  | market => "Market"
  | userPosition => "UserPosition"
  | positionLot => "PositionLot"

def escrowAccountDiscriminators : AccountName → List UInt8
  | .protocolConfig => [207, 91, 250, 28, 152, 179, 215, 209]
  | .oracleSet => [128, 26, 73, 134, 218, 90, 126, 42]
  | .market => [219, 190, 213, 55, 0, 227, 198, 154]
  | .userPosition => [251, 248, 209, 245, 83, 234, 17, 27]
  | .positionLot => [111, 185, 82, 98, 173, 94, 132, 16]

def discriminatorHex (name : AccountName) : List Char :=
  bytesToHex (escrowAccountDiscriminators name)

def accountReader (name : AccountName) : BorshReader Unit := do
  let actual ← fixed 8 (name.text ++ " discriminator")
  if bytesToHex actual ≠ discriminatorHex name then
    throw (.typeError ("invalid " ++ name.text ++ " account discriminator"))
  else return ()

def asset : BorshReader Asset := variant "asset" "invalid asset tag " [.sol, .usdc]

def side : BorshReader PositionSide :=
  variant "position side" "invalid position side tag " [.back, .doubt]

def marketState : BorshReader MarketState :=
  variant "market state" "invalid market state tag "
    [.opening, .open, .frozen, .settling, .settled, .voided, .closed]

def lotState : BorshReader LotState :=
  variant "lot state" "invalid lot state tag " [.pending, .active, .voided]

def settlementOutcome : BorshReader (Option SettlementOutcome) :=
  variant "settlement outcome" "invalid settlement outcome tag " settlementOutcomes

abbrev optionalHash : String → BorshReader (Option (List UInt8)) := option (fixed 32)

/-- The address of the system program stands for no mint. -/
def tokenMint : BorshReader (Option String) := do
  let value ← publicKey "token mint"
  return if value = "11111111111111111111111111111111" then none else some value

def nullableHash (name : String) : BorshReader (Option (List UInt8)) := do
  let value ← fixed 32 name
  return if value.all (· = 0) then none else some value

/-- What the decoders have in common. -/
def decodeAccount (name : AccountName) (body : BorshReader β) (data : List UInt8) :
    Except DecodeError β :=
  StateT.run' (do
    accountReader name
    let result ← body
    finishZeroPadded name.text
    return result) data

def decodeProtocolConfigAccount : List UInt8 → Except DecodeError ProtocolConfigAccount :=
  decodeAccount .protocolConfig do
    return {
      version := ← u8 "version"
      bump := ← u8 "bump"
      paused := ← bool "paused"
      configAuthority := ← publicKey "config authority"
      pauseAuthority := ← publicKey "pause authority"
      marketCreationAuthority := ← publicKey "market creation authority"
      feedOperatorAuthority := ← publicKey "feed operator authority"
      oracleSet := ← publicKey "oracle set"
      relayerFeePayer := ← publicKey "relayer fee payer"
      residualRecipient := ← publicKey "residual recipient"
      clusterGenesisHash := ← fixed 32 "cluster genesis hash"
      canonicalUsdcMint := ← publicKey "canonical USDC mint"
      allowedTokenProgram := ← publicKey "allowed token program"
      maximumSolPosition := ← u64 "maximum SOL position"
      maximumUsdcPosition := ← u64 "maximum USDC position"
      minimumSolPosition := ← u64 "minimum SOL position"
      minimumUsdcPosition := ← u64 "minimum USDC position"
      maximumMarketDurationSeconds := ← u64 "maximum market duration"
      maximumResolutionDelaySeconds := ← u64 "maximum resolution delay" }

def decodeOracleSetAccount : List UInt8 → Except DecodeError OracleSetAccount :=
  decodeAccount .oracleSet do
    return {
      version := ← u8 "version"
      bump := ← u8 "bump"
      epoch := ← u64 "epoch"
      signers := ← publicKeyVector "signers" 3
      signatureThreshold := ← u8 "signature threshold"
      activationSlot := ← u64 "activation slot"
      retirementSlot := ← optionU64 "retirement slot" }

def decodeMarketAccount : List UInt8 → Except DecodeError MarketAccount :=
  decodeAccount .market do
    return {
      version := ← u8 "version"
      bump := ← u8 "bump"
      marketUuid := uuid (← fixed 16 "market UUID")
      fixtureId := ← u64 "fixture ID"
      claimSpecificationHash := ← fixed 32 "claim specification hash"
      displayTermsHash := ← fixed 32 "display terms hash"
      oddsMessageHash := ← fixed 32 "odds source message hash"
      marketDocumentHash := ← fixed 32 "market document hash"
      quoteTimestamp := ← i64 "quote timestamp"
      probabilityPpm := ← u32 "probability PPM"
      ratioMilli := ← u32 "ratio milli"
      asset := ← asset
      tokenMint := ← tokenMint
      feeBps := ← u16 "fee basis points"
      state := ← marketState
      replay := ← bool "replay"
      residualRecipient := ← publicKey "residual recipient"
      createdTimestamp := ← i64 "created timestamp"
      inPlayStartTimestamp := ← i64 "in-play start timestamp"
      activationDelaySeconds := ← u64 "activation delay seconds"
      positionCutoffTimestamp := ← i64 "position cutoff"
      resolutionDeadline := ← i64 "resolution deadline"
      oracleSetEpoch := ← u64 "oracle-set epoch"
      eventEpoch := ← u64 "event epoch"
      activeBackTotal := ← u64 "active back total"
      activeDoubtTotal := ← u64 "active doubt total"
      pendingBackTotal := ← u64 "pending back total"
      pendingDoubtTotal := ← u64 "pending doubt total"
      finalMatchedBackTotal := ← u64 "final matched back total"
      finalMatchedDoubtTotal := ← u64 "final matched doubt total"
      finalForfeitedTotal := ← u64 "final forfeited total"
      settlementProcessedPositionCount := ← u64 "settlement processed position count"
      settlementOutcome := ← settlementOutcome
      settlementEvidenceHash := ← nullableHash "settlement evidence hash"
      positionCount := ← u64 "position count"
      claimedPositionCount := ← u64 "claimed position count"
      vault := ← publicKey "vault"
      vaultBump := ← u8 "vault bump" }

def decodeUserPositionAccount : List UInt8 → Except DecodeError UserPositionAccount :=
  decodeAccount .userPosition do
    return {
      version := ← u8 "version"
      bump := ← u8 "bump"
      market := ← publicKey "market"
      owner := ← publicKey "owner"
      side := ← side
      activeAmount := ← u64 "active amount"
      pendingAmount := ← u64 "pending amount"
      refundableAmount := ← u64 "refundable amount"
      settlementBaseEntitlement := ← u64 "settlement base entitlement"
      settlementProcessed := ← bool "settlement processed"
      nextLotNonce := ← u64 "next lot nonce"
      claimed := ← bool "claimed"
      totalPaidAmount := ← u64 "total paid amount"
      createdSlot := ← u64 "created slot"
      updatedSlot := ← u64 "updated slot" }

def decodePositionLotAccount : List UInt8 → Except DecodeError PositionLotAccount :=
  decodeAccount .positionLot do
    return {
      version := ← u8 "version"
      bump := ← u8 "bump"
      market := ← publicKey "market"
      owner := ← publicKey "owner"
      nonce := ← u64 "nonce"
      side := ← side
      amount := ← u64 "amount"
      placedTimestamp := ← i64 "placed timestamp"
      placedSlot := ← u64 "placed slot"
      observedEventEpoch := ← u64 "observed event epoch"
      state := ← lotState
      activationTimestamp := ← optionalI64 "activation timestamp"
      invalidationEvidenceHash := ← optionalHash "invalidation evidence hash" }

/-! ## what the client sees of an account -/

def mintView (mint : Pubkey) : Option String :=
  if mint = defaultPubkey then none else some (address mint)

def hashView (hash : Bytes 32) : Option (List UInt8) :=
  if hash = zeroHash then none else some hash.toList

def protocolConfigAccount (config : Escrow.ProtocolConfig) : ProtocolConfigAccount where
  version := config.version.toNat
  bump := config.bump.toNat
  paused := config.paused
  configAuthority := address config.configAuthority
  pauseAuthority := address config.pauseAuthority
  marketCreationAuthority := address config.marketCreationAuthority
  feedOperatorAuthority := address config.feedOperatorAuthority
  oracleSet := address config.oracleSet
  relayerFeePayer := address config.relayerFeePayer
  residualRecipient := address config.residualRecipient
  clusterGenesisHash := config.clusterGenesisHash.toList
  canonicalUsdcMint := address config.canonicalUsdcMint
  allowedTokenProgram := address config.allowedTokenProgram
  maximumSolPosition := config.maxSolPosition.toNat
  maximumUsdcPosition := config.maxUsdcPosition.toNat
  minimumSolPosition := config.minSolPosition.toNat
  minimumUsdcPosition := config.minUsdcPosition.toNat
  maximumMarketDurationSeconds := config.maxMarketDurationSeconds.toNat
  maximumResolutionDelaySeconds := config.maxResolutionDelaySeconds.toNat

def oracleSetAccount (set : Escrow.OracleSet) : OracleSetAccount where
  version := set.version.toNat
  bump := set.bump.toNat
  epoch := set.epoch.toNat
  signers := set.signers.map address
  signatureThreshold := set.threshold.toNat
  activationSlot := set.activationSlot.toNat
  retirementSlot := set.retirementSlot.map fun v => (v.toNat : Int)

def marketAccount (market : Escrow.Market) : MarketAccount where
  version := market.version.toNat
  bump := market.bump.toNat
  marketUuid := uuid market.marketUuid.toList
  fixtureId := market.fixtureId.toNat
  claimSpecificationHash := market.claimSpecHash.toList
  displayTermsHash := market.displayTermsHash.toList
  oddsMessageHash := market.oddsSourceMessageHash.toList
  marketDocumentHash := market.marketDocumentHash.toList
  quoteTimestamp := market.quoteTimestamp.toInt
  probabilityPpm := market.probabilityPpm.toNat
  ratioMilli := market.ratioMilli.toNat
  asset := market.asset
  tokenMint := mintView market.tokenMint
  feeBps := market.feeBps.toNat
  state := market.state
  replay := market.replay
  residualRecipient := address market.residualRecipient
  createdTimestamp := market.createdTimestamp.toInt
  inPlayStartTimestamp := market.inPlayStartTimestamp.toInt
  activationDelaySeconds := market.activationDelaySeconds.toNat
  positionCutoffTimestamp := market.positionCutoffTimestamp.toInt
  resolutionDeadline := market.resolutionDeadline.toInt
  oracleSetEpoch := market.oracleSetEpoch.toNat
  eventEpoch := market.eventEpoch.toNat
  activeBackTotal := market.activeBackTotal.toNat
  activeDoubtTotal := market.activeDoubtTotal.toNat
  pendingBackTotal := market.pendingBackTotal.toNat
  pendingDoubtTotal := market.pendingDoubtTotal.toNat
  finalMatchedBackTotal := market.finalMatchedBackTotal.toNat
  finalMatchedDoubtTotal := market.finalMatchedDoubtTotal.toNat
  finalForfeitedTotal := market.finalForfeitedTotal.toNat
  settlementProcessedPositionCount := market.settlementProcessedPositionCount.toNat
  settlementOutcome := outcomeView market.settlementOutcome
  settlementEvidenceHash := hashView market.settlementEvidenceHash
  positionCount := market.positionCount.toNat
  claimedPositionCount := market.claimedPositionCount.toNat
  vault := address market.vault
  vaultBump := market.vaultBump.toNat

def userPositionAccount (position : Escrow.UserPosition) : UserPositionAccount where
  version := position.version.toNat
  bump := position.bump.toNat
  market := address position.market
  owner := address position.owner
  side := position.side
  activeAmount := position.activeAmount.toNat
  pendingAmount := position.pendingAmount.toNat
  refundableAmount := position.refundableAmount.toNat
  settlementBaseEntitlement := position.settlementBaseEntitlement.toNat
  settlementProcessed := position.settlementProcessed
  nextLotNonce := position.nextLotNonce.toNat
  claimed := position.claimed
  totalPaidAmount := position.totalPaidAmount.toNat
  createdSlot := position.createdSlot.toNat
  updatedSlot := position.updatedSlot.toNat

def positionLotAccount (lot : Escrow.PositionLot) : PositionLotAccount where
  version := lot.version.toNat
  bump := lot.bump.toNat
  market := address lot.market
  owner := address lot.owner
  nonce := lot.nonce.toNat
  side := lot.side
  amount := lot.amount.toNat
  placedTimestamp := lot.placedTimestamp.toInt
  placedSlot := lot.placedSlot.toNat
  observedEventEpoch := lot.observedEventEpoch.toNat
  state := lot.state
  activationTimestamp := lot.activationTimestamp.map Int64.toInt
  invalidationEvidenceHash := lot.invalidationEvidenceHash.map List.Vector.toList

/-! ## reading and writing -/

instance : Viewed asset Asset id where
  mirrors := mirrors_variant _ _ (by decide +kernel)

instance : Viewed side PositionSide id where
  mirrors := mirrors_variant _ _ (by decide +kernel)

instance : Viewed marketState MarketState id where
  mirrors := mirrors_variant _ _ (by decide +kernel)

instance : Viewed lotState LotState id where
  mirrors := mirrors_variant _ _ (by decide +kernel)

instance : Viewed settlementOutcome Escrow.SettlementOutcome outcomeView where
  mirrors := mirrors_variant _ _ (by decide +kernel)

theorem address_eq_iff {key : Pubkey} :
    address key = "11111111111111111111111111111111" ↔ key = defaultPubkey := by
  have hones : "11111111111111111111111111111111" =
      String.ofList (List.replicate key.toList.length '1') := by
    rw [key.toList_length]
    decide
  rw [address, hones, toBase58_eq_ones_iff, key.toList_length]
  constructor
  · intro h
    exact List.Vector.eq _ _ h
  · rintro rfl
    rfl

instance : Viewed tokenMint Pubkey mintView where
  mirrors := (Viewed.mirrors (α := Pubkey)).through fun key => by
    simp only [mintView, address_eq_iff]

theorem all_zero_iff {hash : Bytes 32} : hash.toList.all (· = 0) = true ↔ hash = zeroHash := by
  have hzero : hash = zeroHash ↔ hash.toList = List.replicate 32 0 :=
    ⟨fun h => h ▸ rfl, fun h => List.Vector.eq _ _ h⟩
  rw [hzero, List.eq_replicate_iff]
  simp

instance (name : String) : Viewed (nullableHash name) (Bytes 32) hashView where
  mirrors := (mirrors_fixed 32 name).through fun hash => by
    simp only [hashView, all_zero_iff]

/-- The bytes of an account: its discriminator, its fields and what is left of its space. -/
def AccountBytes [Borsh α] (name : AccountName) (a : α) (data : List UInt8) : Prop :=
  ∃ n, data = escrowAccountDiscriminators name ++ (serialize a ++ List.replicate n 0)

variable {name : AccountName}

theorem run_accountReader_iff {bytes rest : List UInt8} :
    (accountReader name).run bytes = .ok ((), rest) ↔
      bytes = escrowAccountDiscriminators name ++ rest := by
  have hlength : (escrowAccountDiscriminators name).length = 8 := by cases name <;> rfl
  rw [accountReader, run_taker_bind_iff]
  constructor
  · rintro ⟨actual, mid, hfixed, hcheck⟩
    obtain ⟨-, rfl⟩ := run_fixed_iff.mp hfixed
    by_cases hsame : bytesToHex actual = discriminatorHex name
    · rw [if_neg (not_not.mpr hsame)] at hcheck
      obtain ⟨-, rfl⟩ := run_taker_pure_iff.mp hcheck
      rw [bytesToHex_inj hsame]
    · rw [if_pos hsame, run_throw] at hcheck
      cases hcheck
  · rintro rfl
    have hsame : bytesToHex (escrowAccountDiscriminators name) = discriminatorHex name := rfl
    refine ⟨_, _, run_fixed_iff.mpr ⟨hlength, rfl⟩, ?_⟩
    rw [if_neg (not_not.mpr hsame)]
    rfl

theorem run_finishZeroPadded_iff {name : String} {bytes rest : List UInt8} :
    (finishZeroPadded name).run bytes = .ok ((), rest) ↔
      rest = [] ∧ bytes = List.replicate bytes.length 0 := by
  simp only [finishZeroPadded, StateT.run]
  constructor
  · intro h
    split at h
    · simp at h
    next hzero =>
      obtain ⟨-, rfl⟩ := Prod.mk.inj (Except.ok.inj h)
      rw [List.eq_replicate_iff]
      simpa using hzero
  · rintro ⟨rfl, hzero⟩
    rw [if_neg]
    rw [hzero]
    simp

/-- What a decoder does with its reader of the fields. -/
theorem decodeAccount_iff {body : BorshReader β} {data : List UInt8} {b : β} :
    decodeAccount name body data = .ok b ↔ ∃ fields n,
      data = escrowAccountDiscriminators name ++ fields ∧
        body.run fields = .ok (b, List.replicate n 0) := by
  rw [decodeAccount, run'_ok_iff]
  simp only [run_taker_bind_iff, run_taker_pure_iff]
  constructor
  · rintro ⟨rest, ⟨⟩, fields, hreader, result, left, hbody, ⟨⟩, last, hfinish, rfl, rfl⟩
    obtain ⟨-, hzero⟩ := run_finishZeroPadded_iff.mp hfinish
    exact ⟨fields, left.length, run_accountReader_iff.mp hreader, hzero ▸ hbody⟩
  · rintro ⟨fields, n, hdata, hbody⟩
    refine ⟨[], (), fields, run_accountReader_iff.mpr hdata, b, _, hbody, (), [], ?_, rfl, rfl⟩
    exact run_finishZeroPadded_iff.mpr ⟨rfl, by simp⟩

theorem inverts_account [Borsh α] [LawfulBorsh α] [StrictBorsh α] {body : BorshReader β}
    {view : α → β} (h : Mirrors body (deserialize : Reader α) view) :
    Inverts (decodeAccount name body) (AccountBytes name) view where
  decodes a data hdata := by
    obtain ⟨n, rfl⟩ := hdata
    exact decodeAccount_iff.mpr ⟨_, n, rfl, h.reads a _⟩
  unique data b hdecode := by
    obtain ⟨fields, n, rfl, hbody⟩ := decodeAccount_iff.mp hdecode
    obtain ⟨a, hview, rfl⟩ := h.takes hbody
    refine ⟨a, ⟨hview, n, rfl⟩, fun a' ha' => ?_⟩
    obtain ⟨-, n', hdata⟩ := ha'
    exact (serialize_prefixCode trivial trivial (List.append_cancel_left hdata)).1.symm

theorem inverts_protocolConfig :
    Inverts decodeProtocolConfigAccount (AccountBytes .protocolConfig) protocolConfigAccount := by
  apply inverts_account
  iterate 19 refine mirrors_field fun _ => ?_
  exact .pure rfl

instance : Viewed (publicKeyVector "signers" 3) (BoundedVec Pubkey Escrow.oracleSignerCountV1)
    (fun keys => keys.val.map address) :=
  inferInstanceAs (Viewed (vector publicKey "signers" 3) (BoundedVec Pubkey 3) _)

theorem inverts_oracleSet :
    Inverts decodeOracleSetAccount (AccountBytes .oracleSet)
      fun set : StoredOracleSet => oracleSetAccount set.val := by
  apply inverts_account
  iterate 7 refine mirrors_field fun _ => ?_
  exact .pure rfl

theorem inverts_market :
    Inverts decodeMarketAccount (AccountBytes .market) marketAccount := by
  apply inverts_account
  iterate 38 refine mirrors_field fun _ => ?_
  exact .pure rfl

theorem inverts_userPosition :
    Inverts decodeUserPositionAccount (AccountBytes .userPosition) userPositionAccount := by
  apply inverts_account
  iterate 15 refine mirrors_field fun _ => ?_
  exact .pure rfl

theorem inverts_positionLot :
    Inverts decodePositionLotAccount (AccountBytes .positionLot) positionLotAccount := by
  apply inverts_account
  iterate 13 refine mirrors_field fun _ => ?_
  exact .pure rfl

end CalledIt.Sdk
