import CalledIt.Sdk.Encoders
import CalledIt.Sdk.Instructions

/-!
# CalledIt.Sdk.InstructionData

What the client writes is what the program reads.

Each method of the writer that accepts its value appends the Borsh bytes of one
value of the program (`u64_ok_iff` and its kin).  Field by field this turns an
accepted request into arguments of the program with the same values (`Same…`)
and the data into their bytes (`encodeRequestArgs_ok`), and those read back.
-/

namespace CalledIt.Sdk

open Lib
open Escrow (Bytes Pubkey Asset PositionSide VoidReason defaultPubkey utf8 InstructionArgs)

/-! ## the writer -/

variable {v v' : Int} {w' : BorshWriter} {bs : List UInt8} {n : Nat} {lib : InstructionLibraries}
  {s : String}

namespace BorshWriter

@[simp] theorem finish_bytes (w : BorshWriter) (bs : List UInt8) :
    (w.bytes bs).finish = w.finish ++ bs := rfl

@[simp] theorem finish_nil : (⟨[]⟩ : BorshWriter).finish = [] := rfl

variable {name : String}

theorem require_range_iff {lo hi : Int} {error : JsError} :
    (require (¬ (v < lo ∨ v > hi)) error >>= fun _ => pure v) = .ok v' ↔
      v' = v ∧ lo ≤ v ∧ v ≤ hi := by
  simp only [bind_ok_iff, require_ok_iff, pure_ok_iff]
  constructor
  · rintro ⟨_, hrange, rfl⟩
    omega
  · rintro ⟨rfl, hlow, hhigh⟩
    exact ⟨(), by omega, rfl⟩

theorem assertInteger_ok_iff {lo hi : Int} :
    assertInteger v name lo hi = .ok v' ↔ v' = v ∧ lo ≤ v ∧ v ≤ hi := require_range_iff

theorem assertU64_ok_iff : assertU64 v name = .ok v' ↔ v' = v ∧ 0 ≤ v ∧ v ≤ u64Max :=
  require_range_iff

theorem assertI64_ok_iff : assertI64 v name = .ok v' ↔ v' = v ∧ i64Min ≤ v ∧ v ≤ i64Max :=
  require_range_iff

variable {w : BorshWriter}

/-- A range check passes for the values of the type alone. -/
theorem exists_of_range {P : Int → Prop} {toInt : α → Int} (f : Int → List UInt8)
    (hP : ∀ v, P v ↔ ∃ a, v = toInt a) [Borsh α] (hf : ∀ a, f (toInt a) = serialize a) :
    (∃ v', (v' = v ∧ P v) ∧ w.bytes (f v') = w') ↔
      ∃ a : α, v = toInt a ∧ w' = w.bytes (serialize a) := by
  constructor
  · rintro ⟨_, ⟨rfl, hv⟩, rfl⟩
    obtain ⟨a, rfl⟩ := (hP _).mp hv
    exact ⟨a, rfl, by rw [hf]⟩
  · rintro ⟨a, rfl, rfl⟩
    exact ⟨_, ⟨rfl, (hP _).mpr ⟨a, rfl⟩⟩, by rw [hf]⟩

theorem u8_ok_iff :
    w.u8 v name = .ok w' ↔ ∃ u : UInt8, v = u.toNat ∧ w' = w.bytes (serialize u) := by
  simp only [u8, bind_ok_iff, assertInteger_ok_iff, pure_ok_iff]
  refine exists_of_range (P := fun v => 0 ≤ v ∧ v ≤ 0xff)
    (fun v => leBytes 1 v.toNat) (fun v => ⟨fun h => ⟨UInt8.ofNat v.toNat, ?_⟩, ?_⟩) fun u => ?_
  · rw [UInt8.toNat_ofNat', Nat.mod_eq_of_lt (by omega)]
    omega
  · rintro ⟨u, rfl⟩
    have hu := u.toNat_lt
    omega
  · simp [leBytes, serialize]

theorem u16_ok_iff :
    w.u16 v name = .ok w' ↔ ∃ u : UInt16, v = u.toNat ∧ w' = w.bytes (serialize u) := by
  simp only [u16, bind_ok_iff, assertInteger_ok_iff, pure_ok_iff]
  refine exists_of_range (P := fun v => 0 ≤ v ∧ v ≤ 0xffff)
    (fun v => leBytes 2 v.toNat) (fun v => ⟨exists_uint16, ?_⟩) fun u => rfl
  rintro ⟨u, rfl⟩
  have hu := u.toNat_lt
  omega

theorem u32_ok_iff :
    w.u32 v name = .ok w' ↔ ∃ u : UInt32, v = u.toNat ∧ w' = w.bytes (serialize u) := by
  simp only [u32, bind_ok_iff, assertInteger_ok_iff, pure_ok_iff]
  refine exists_of_range (P := fun v => 0 ≤ v ∧ v ≤ u32Max)
    (fun v => leBytes 4 v.toNat) (fun v => ⟨fun h => ⟨UInt32.ofNat v.toNat, ?_⟩, ?_⟩) fun u => rfl
  · unfold u32Max at h
    rw [UInt32.toNat_ofNat', Nat.mod_eq_of_lt (by omega)]
    omega
  · rintro ⟨u, rfl⟩
    have hu := u.toNat_lt
    unfold u32Max
    omega

theorem u64_ok_iff :
    w.u64 v name = .ok w' ↔ ∃ u : UInt64, v = u.toNat ∧ w' = w.bytes (serialize u) := by
  simp only [u64, bind_ok_iff, assertU64_ok_iff, pure_ok_iff]
  refine exists_of_range (P := fun v => 0 ≤ v ∧ v ≤ u64Max)
    (fun v => leBytes 8 v.toNat) (fun v => ⟨fun h => exists_uint64 ?_, ?_⟩) fun u => rfl
  · unfold u64Max at h
    omega
  · rintro ⟨u, rfl⟩
    have hu := u.toNat_lt
    unfold u64Max
    omega

theorem i64_ok_iff :
    w.i64 v name = .ok w' ↔ ∃ i : Int64, v = i.toInt ∧ w' = w.bytes (serialize i) := by
  simp only [i64, bind_ok_iff, assertI64_ok_iff, pure_ok_iff]
  refine exists_of_range (P := fun v => i64Min ≤ v ∧ v ≤ i64Max)
    (fun v => leBytes 8 (v % 2 ^ 64).toNat) (fun v => ⟨exists_int64, ?_⟩) fun i => ?_
  · rintro ⟨i, rfl⟩
    exact ⟨i.le_toInt, by have hi := i.toInt_lt; unfold i64Max; omega⟩
  · rw [CanonicalWriter.toNat_toInt_emod]
    rfl

theorem bool_ok_iff {v : Bool} :
    w.bool v name = .ok w' ↔ w' = w.bytes (serialize v) := by
  have htag : (if v then 1 else 0 : Int) = ((boolTags.tag v).toNat : Int) := by
    cases v <;> rfl
  simp only [bool, u8_ok_iff, htag, Int.natCast_inj, UInt8.toNat_inj, exists_eq_left']
  rfl

theorem fixed_ok_iff :
    w.fixed bs n name = .ok w' ↔ ∃ b : Bytes n, bs = b.toList ∧ w' = w.bytes (serialize b) := by
  simp only [fixed, assertLength, bind_ok_iff, require_ok_iff, pure_ok_iff]
  constructor
  · rintro ⟨_, ⟨_, hlen, rfl⟩, rfl⟩
    exact ⟨⟨bs, hlen⟩, rfl, rfl⟩
  · rintro ⟨b, rfl, rfl⟩
    exact ⟨b.toList, ⟨(), b.toList_length, rfl⟩, rfl⟩

theorem publicKey_ok_iff {v : PublicKeyInput} :
    w.publicKey lib v = .ok w' ↔
      ∃ key, lib.publicKey v = .ok key ∧ w' = w.bytes (serialize key) := by
  simp only [publicKey, bind_ok_iff, pure_ok_iff]
  exact exists_congr fun key => and_congr_right fun _ => eq_comm

theorem serialize_string_eq {u : UInt32} (h : (utf8 s).length = u.toNat) :
    serialize s = serialize u ++ utf8 s := by
  rw [serialize_string]
  change leBytes 4 (utf8 s).length ++ utf8 s = leBytes 4 u.toNat ++ utf8 s
  rw [h]

theorem string_ok_iff :
    w.string s name = .ok w' ↔ (utf8 s).length < 2 ^ 32 ∧ w' = w.bytes (serialize s) := by
  simp only [string, bind_ok_iff, pure_ok_iff, u32_ok_iff, Int.natCast_inj]
  constructor
  · rintro ⟨_, ⟨u, hu, rfl⟩, rfl⟩
    have hlt := u.toNat_lt
    refine ⟨by omega, ?_⟩
    rw [serialize_string_eq hu]
    simp [bytes]
  · rintro ⟨hlen, rfl⟩
    have hu : (utf8 s).length = (UInt32.ofNat (utf8 s).length).toNat := by
      rw [UInt32.toNat_ofNat', Nat.mod_eq_of_lt hlen]
    refine ⟨_, ⟨_, hu, rfl⟩, ?_⟩
    rw [serialize_string_eq hu]
    simp [bytes]

theorem optionU64_ok_iff {v : Option Int} :
    w.optionU64 v name = .ok w' ↔
      ∃ u : Option UInt64, v = u.map (fun u => (u.toNat : Int)) ∧ w' = w.bytes (serialize u) := by
  simp only [optionU64, bind_ok_iff, bool_ok_iff, exists_eq_left]
  cases v with
  | none =>
      simp only [pure_ok_iff]
      constructor
      · rintro rfl
        exact ⟨none, rfl, rfl⟩
      · rintro ⟨_ | u, hu, rfl⟩
        · rfl
        · contradiction
  | some v =>
      simp only [u64_ok_iff]
      constructor
      · rintro ⟨u, rfl, rfl⟩
        refine ⟨some u, rfl, ?_⟩
        simp [bytes, serialize]
      · rintro ⟨_ | u, hu, rfl⟩
        · contradiction
        · refine ⟨u, Option.some.inj hu, ?_⟩
          simp [bytes, serialize]

/-- Values written one after another. -/
theorem foldlM_ok_iff [Borsh α] {step : BorshWriter → β → JsResult BorshWriter} {R : β → α → Prop}
    (hstep : ∀ w w' v, step w v = .ok w' ↔ ∃ a, R v a ∧ w' = w.bytes (serialize a)) {vs : List β} :
    vs.foldlM step w = .ok w' ↔
      ∃ as, List.Forall₂ R vs as ∧ w' = w.bytes (as.flatMap serialize) := by
  induction vs generalizing w with
  | nil =>
      simp only [List.foldlM_nil, pure_ok_iff, List.forall₂_nil_left_iff, exists_eq_left,
        List.flatMap_nil, bytes, List.append_nil]
      exact eq_comm
  | cons v vs ih =>
      simp only [List.foldlM_cons, bind_ok_iff, hstep, ih]
      constructor
      · rintro ⟨_, ⟨a, ha, rfl⟩, as, has, rfl⟩
        exact ⟨a :: as, .cons ha has, by simp [bytes]⟩
      · rintro ⟨_, has, rfl⟩
        cases has with
        | cons ha has => exact ⟨_, ⟨_, ha, rfl⟩, _, has, by simp [bytes]⟩

theorem vector_ok_iff [Borsh α] (step : BorshWriter → β → JsResult BorshWriter) {R : β → α → Prop}
    (hstep : ∀ w w' v, step w v = .ok w' ↔ ∃ a, R v a ∧ w' = w.bytes (serialize a)) {vs : List β} :
    (w.u32 vs.length name >>= fun writer => vs.foldlM step writer) = .ok w' ↔
      ∃ as, (List.Forall₂ R vs as ∧ as.length < 2 ^ 32) ∧ w' = w.bytes (serialize as) := by
  have hword : ∀ {as : List α} {u : UInt32}, as.length = u.toNat →
      serialize as = serialize u ++ as.flatMap serialize := by
    intro as u h
    change leBytes 4 as.length ++ _ = leBytes 4 u.toNat ++ _
    rw [h]
  simp only [bind_ok_iff, u32_ok_iff, foldlM_ok_iff hstep, Int.natCast_inj]
  constructor
  · rintro ⟨_, ⟨u, hu, rfl⟩, as, has, rfl⟩
    have hlt := u.toNat_lt
    have hlen := has.length_eq
    refine ⟨as, ⟨has, by omega⟩, ?_⟩
    rw [hword (hlen.symm.trans hu)]
    simp [bytes]
  · rintro ⟨as, ⟨has, hlt⟩, rfl⟩
    have hlen := has.length_eq
    have hu : vs.length = (UInt32.ofNat vs.length).toNat := by
      rw [UInt32.toNat_ofNat', Nat.mod_eq_of_lt (by omega)]
    refine ⟨_, ⟨_, hu, rfl⟩, as, has, ?_⟩
    rw [hword (hlen.symm.trans hu)]
    simp [bytes]

theorem u64Vector_ok_iff {vs : List Int} :
    w.u64Vector vs name = .ok w' ↔ ∃ us : List UInt64,
      (List.Forall₂ (fun v u => v = u.toNat) vs us ∧ us.length < 2 ^ 32) ∧
        w' = w.bytes (serialize us) :=
  vector_ok_iff (fun w v => w.u64 v name) fun _ _ _ => u64_ok_iff

theorem publicKeyVector_ok_iff {vs : List PublicKeyInput} :
    w.publicKeyVector lib vs name = .ok w' ↔ ∃ keys : List Pubkey,
      (List.Forall₂ (fun v key => lib.publicKey v = .ok key) vs keys ∧ keys.length < 2 ^ 32) ∧
        w' = w.bytes (serialize keys) :=
  vector_ok_iff (fun w v => w.publicKey lib v) fun _ _ _ => publicKey_ok_iff

end BorshWriter

open BorshWriter

/-! ## the same values -/

structure SameInitializeConfig (lib : InstructionLibraries) (request : InitializeConfigInstruction)
    (args : Escrow.InitializeConfigArgs) : Prop where
  clusterGenesisHash : request.clusterGenesisHash = args.clusterGenesisHash.toList
  configAuthority : lib.publicKey request.configAuthority = .ok args.configAuthority
  pauseAuthority : lib.publicKey request.pauseAuthority = .ok args.pauseAuthority
  marketCreationAuthority : lib.publicKey request.marketCreationAuthority =
    .ok args.marketCreationAuthority
  feedOperatorAuthority : lib.publicKey request.feedOperatorAuthority =
    .ok args.feedOperatorAuthority
  relayerFeePayer : lib.publicKey request.relayerFeePayer = .ok args.relayerFeePayer
  residualRecipient : lib.publicKey request.residualRecipient = .ok args.residualRecipient
  canonicalUsdcMint : lib.publicKey request.canonicalUsdcMint = .ok args.canonicalUsdcMint
  allowedTokenProgram : lib.publicKey request.allowedTokenProgram = .ok args.allowedTokenProgram
  maxSolPosition : request.maximumSolPosition = args.maxSolPosition.toNat
  maxUsdcPosition : request.maximumUsdcPosition = args.maxUsdcPosition.toNat
  minSolPosition : request.minimumSolPosition = args.minSolPosition.toNat
  minUsdcPosition : request.minimumUsdcPosition = args.minUsdcPosition.toNat
  maxMarketDurationSeconds : request.maximumMarketDurationSeconds =
    args.maxMarketDurationSeconds.toNat
  maxResolutionDelaySeconds : request.maximumResolutionDelaySeconds =
    args.maxResolutionDelaySeconds.toNat

structure SameRotateConfig (lib : InstructionLibraries) (request : RotateConfigInstruction)
    (args : Escrow.RotateConfigArgs) : Prop where
  configAuthority : lib.publicKey request.configAuthority = .ok args.configAuthority
  pauseAuthority : lib.publicKey request.pauseAuthority = .ok args.pauseAuthority
  marketCreationAuthority : lib.publicKey request.marketCreationAuthority =
    .ok args.marketCreationAuthority
  feedOperatorAuthority : lib.publicKey request.feedOperatorAuthority =
    .ok args.feedOperatorAuthority
  relayerFeePayer : lib.publicKey request.relayerFeePayer = .ok args.relayerFeePayer
  residualRecipient : lib.publicKey request.residualRecipient = .ok args.residualRecipient
  maxSolPosition : request.maximumSolPosition = args.maxSolPosition.toNat
  maxUsdcPosition : request.maximumUsdcPosition = args.maxUsdcPosition.toNat
  minSolPosition : request.minimumSolPosition = args.minSolPosition.toNat
  minUsdcPosition : request.minimumUsdcPosition = args.minUsdcPosition.toNat
  maxMarketDurationSeconds : request.maximumMarketDurationSeconds =
    args.maxMarketDurationSeconds.toNat
  maxResolutionDelaySeconds : request.maximumResolutionDelaySeconds =
    args.maxResolutionDelaySeconds.toNat

structure SameRotateOracleSet (lib : InstructionLibraries) (request : RotateOracleSetInstruction)
    (args : Escrow.RotateOracleSetArgs) : Prop where
  epoch : request.epoch = args.epoch.toNat
  signers : List.Forall₂ (fun signer key => lib.publicKey signer = .ok key) request.signers
    args.signers
  threshold : request.signatureThreshold = args.threshold.toNat
  activationSlot : request.activationSlot = args.activationSlot.toNat
  retirementSlot : request.retirementSlot =
    args.retirementSlot.map fun slot => (slot.toNat : Int)

structure SameSetPause (paused : Bool) (args : Escrow.SetPauseArgs) : Prop where
  paused : paused = args.paused

structure SameInitializeMarket (lib : InstructionLibraries) (programId : Pubkey)
    (request : InitializeMarketInstruction) (args : Escrow.InitializeMarketArgs) : Prop where
  expectedClusterGenesisHash : request.expectedClusterGenesisHash =
    args.expectedClusterGenesisHash.toList
  expectedProgramId : programId = args.expectedProgramId
  expectedConfig : lib.deriveProtocolConfigPda programId = .ok args.expectedConfig
  expectedOracleSet : lib.deriveOracleSetPda programId request.document.oracleSetEpoch =
    .ok args.expectedOracleSet
  marketUuid : UuidText request.document.marketUuid args.marketUuid.toList
  fixtureId : request.document.fixtureId = args.fixtureId.toNat
  claimSpecHash : request.document.claimSpecificationHash = args.claimSpecHash.toList
  displayTermsHash : request.document.displayTermsHash = args.displayTermsHash.toList
  oddsSourceMessageHash : request.document.oddsMessageHash = args.oddsSourceMessageHash.toList
  marketDocumentHash : request.documentHash = args.marketDocumentHash.toList
  quoteTimestamp : request.document.oddsTimestamp = args.quoteTimestamp.toInt
  probabilityPpm : request.document.probabilityPpm = args.probabilityPpm.toNat
  ratioMilli : request.document.ratioMilli = args.ratioMilli.toNat
  asset : request.document.asset = args.asset
  tokenMint : lib.tokenMint args.asset request.canonicalUsdcMint = .ok args.tokenMint
  feeBps : request.document.feeBps = args.feeBps.toNat
  replay : request.document.replayFlag = args.replay
  inPlayStartTimestamp : request.document.inPlayStartTimestamp = args.inPlayStartTimestamp.toInt
  activationDelaySeconds : request.document.activationDelaySeconds =
    args.activationDelaySeconds.toNat
  positionCutoffTimestamp : request.document.positionCutoff = args.positionCutoffTimestamp.toInt
  resolutionDeadline : request.document.resolutionDeadline = args.resolutionDeadline.toInt
  oracleSetEpoch : request.document.oracleSetEpoch = args.oracleSetEpoch.toNat

structure SameFreezeMarket (request : FreezeMarketInstruction) (args : Escrow.FreezeMarketArgs) :
    Prop where
  expectedEventEpoch : request.expectedEventEpoch = args.expectedEventEpoch.toNat
  evidenceHash : request.evidenceHash = args.evidenceHash.toList

structure SameUnfreezeMarket (attestation : FeedEventAttestationV1)
    (args : Escrow.UnfreezeMarketArgs) : Prop where
  expectedEventEpoch : attestation.eventEpoch = args.expectedEventEpoch.toNat + 1
  decidingSequence : attestation.decidingSequence = args.decidingSequence.toNat
  observedAt : attestation.observedAt = args.observedAt.toInt
  issuedAt : attestation.issuedAt = args.issuedAt.toInt
  expiresAt : attestation.expiresAt = args.expiresAt.toInt
  evidenceHash : attestation.evidenceHash = args.evidenceHash.toList

structure SamePlacePosition (request : PlacePositionInstruction) (args : Escrow.PlacePositionArgs) :
    Prop where
  marketUuid : UuidText request.marketUuid args.marketUuid.toList
  side : request.side = args.side
  amount : request.amount = args.amount.toNat
  expectedAsset : request.expectedAsset = args.expectedAsset
  expectedRatioMilli : request.expectedRatioMilli = args.expectedRatioMilli.toNat
  expectedMarketDocumentHash : request.expectedMarketDocumentHash =
    args.expectedMarketDocumentHash.toList
  expectedEventEpoch : request.expectedEventEpoch = args.expectedEventEpoch.toNat
  expectedLotNonce : request.expectedLotNonce = args.expectedLotNonce.toNat
  clientIntentHash : request.clientIntentHash = args.clientIntentHash.toList
  clientExpiryTimestamp : request.clientExpiryTimestamp = args.clientExpiryTimestamp.toInt

structure SameActivatePositionLot (request : ActivatePositionLotInstruction)
    (args : Escrow.ActivatePositionLotArgs) : Prop where
  nonce : request.lotNonce = args.nonce.toNat
  expectedEventEpoch : request.expectedEventEpoch = args.expectedEventEpoch.toNat

structure SameInvalidatePositionLot (request : InvalidatePositionLotInstruction)
    (args : Escrow.InvalidatePositionLotArgs) : Prop where
  nonce : request.lotNonce = args.nonce.toNat
  evidenceHash : request.attestation.evidenceHash = args.evidenceHash.toList
  invalidatedEventEpoch : request.attestation.invalidatedEventEpoch =
    args.invalidatedEventEpoch.toNat
  decidingSequence : request.attestation.decidingSequence = args.decidingSequence.toNat
  issuedAt : request.attestation.issuedAt = args.issuedAt.toInt
  expiresAt : request.attestation.expiresAt = args.expiresAt.toInt

structure SameSettleMarket (attestation : SettlementAttestationV1)
    (args : Escrow.SettleMarketArgs) : Prop where
  outcome : attestation.outcome.onChain = args.outcome
  decidingSequence : attestation.decidingSequence = args.decidingSequence.toNat
  terminalPhase : attestation.terminalPhase = args.terminalPhase
  regulationScore : attestation.regulationScore = args.regulationScore.map .ofProgram
  fullMatchScore : attestation.fullMatchScore = args.fullMatchScore.map .ofProgram
  evidenceSequenceCommitment : attestation.evidenceSequenceCommitment =
    args.evidenceSequenceCommitment.toList
  normalizedEvidenceRoot : attestation.normalizedEvidenceRoot = args.normalizedEvidenceRoot.toList
  issuedAt : attestation.issuedAt = args.issuedAt.toInt
  expiresAt : attestation.expiresAt = args.expiresAt.toInt
  evidenceHash : attestation.evidenceHash = args.evidenceHash.toList

structure SameVoidMarket (attestation : VoidAttestationV1) (args : Escrow.VoidMarketArgs) :
    Prop where
  reason : attestation.reason = args.reason
  decidingSequence : attestation.decidingSequence = args.decidingSequence.toNat
  issuedAt : attestation.issuedAt = args.issuedAt.toInt
  expiresAt : attestation.expiresAt = args.expiresAt.toInt
  evidenceHash : attestation.evidenceHash = args.evidenceHash.toList

structure SameClosePositionLots (lotNonces : List Int) (args : Escrow.ClosePositionLotsArgs) :
    Prop where
  nonces : List.Forall₂ (fun nonce u => nonce = u.toNat) lotNonces args.nonces

/-! ## the market identifier and the scores -/

theorem hexRun_eq_some {text rest : List Char} (h : hexRun n text = some rest) :
    ∃ ds, text = ds ++ rest ∧ ds.length = n ∧ ∀ x ∈ ds, isHexDigit x := by
  induction n generalizing text with
  | zero => exact ⟨[], by simpa [hexRun] using h, rfl, by simp⟩
  | succ n ih =>
      cases text with
      | nil => simp [hexRun] at h
      | cons c text =>
          simp only [hexRun] at h
          split at h
          · next hc =>
            obtain ⟨ds, rfl, rfl, hds⟩ := ih h
            exact ⟨c :: ds, rfl, rfl, List.forall_mem_cons.mpr ⟨hc, hds⟩⟩
          · contradiction

theorem dash_eq_some {text rest : List Char} (h : dash text = some rest) : text = '-' :: rest := by
  cases text with
  | nil => simp [dash] at h
  | cons c text =>
      simp only [dash, Option.ite_none_right_eq_some, Option.some.injEq] at h
      rw [h.1, h.2]

/-- What is read as an identifier spells it. -/
theorem UuidText.of_uuidToBytes {text : String} {uuid : List UInt8}
    (h : uuidToBytes text = .ok uuid) : UuidText text uuid := by
  have hpattern : uuidPattern text.toList := by
    simp only [uuidToBytes, bind_ok_iff, require_ok_iff] at h
    exact h.choose_spec.1
  simp only [uuidPattern, Option.bind_eq_bind, decide_eq_true_eq,
    Option.bind_eq_some_iff] at hpattern
  obtain ⟨r1, h1, t1, hd1, r2, h2, t2, hd2, r3, h3, t3, hd3, r4, h4, t4, hd4, h5⟩ := hpattern
  obtain ⟨a, ha, hla, hxa⟩ := hexRun_eq_some h1
  obtain ⟨b, hb, hlb, hxb⟩ := hexRun_eq_some h2
  obtain ⟨c, hc, hlc, hxc⟩ := hexRun_eq_some h3
  obtain ⟨d, hd, hld, hxd⟩ := hexRun_eq_some h4
  obtain ⟨e, he, hle, hxe⟩ := hexRun_eq_some h5
  have hspelled : UuidText text (hexPairs (a ++ b ++ c ++ d ++ e)) := by
    refine ⟨⟨a, b, c, d, e, ?_, ⟨hla, hlb, hlc, hld, hle⟩, ?_, rfl⟩⟩
    · rw [ha, dash_eq_some hd1, hb, dash_eq_some hd2, hc, dash_eq_some hd3, hd, dash_eq_some hd4,
        he, List.append_nil]
    · intro x hx
      simp only [List.mem_append] at hx
      rcases hx with (((hx | hx) | hx) | hx) | hx
      · exact hxa x hx
      · exact hxb x hx
      · exact hxc x hx
      · exact hxd x hx
      · exact hxe x hx
  have huuid := hspelled.uuidToBytes_eq
  rw [h, Except.ok.injEq] at huuid
  rwa [huuid]

theorem optionalScore_ok_iff {w : BorshWriter} {score : Option ScoreV1} {name : String} :
    optionalScore w score name = .ok w' ↔
      ∃ score' : Option Escrow.ScoreV1, score = score'.map .ofProgram ∧
        w' = w.bytes (serialize score') := by
  simp only [optionalScore, bind_ok_iff, bool_ok_iff, exists_eq_left]
  cases score with
  | none =>
      simp only [pure_ok_iff]
      constructor
      · rintro rfl
        exact ⟨none, rfl, rfl⟩
      · rintro ⟨_ | score', hscore, rfl⟩
        · rfl
        · contradiction
  | some score =>
      simp only [bind_ok_iff, u16_ok_iff]
      constructor
      · rintro ⟨_, ⟨home, hhome, rfl⟩, away, haway, rfl⟩
        refine ⟨some ⟨home, away⟩, ?_, ?_⟩
        · simp only [Option.map_some, ScoreV1.ofProgram, ← hhome, ← haway]
        · simp [bytes, serialize]
      · rintro ⟨_ | score', hscore, rfl⟩
        · contradiction
        · rw [Option.map_some, Option.some.injEq] at hscore
          subst hscore
          refine ⟨_, ⟨score'.home, rfl, rfl⟩, score'.away, rfl, ?_⟩
          simp [bytes, serialize]

/-! ## tags -/

/-- The tag of an enumeration as the client writes it. -/
theorem u8_tag_iff (tags : Tags α) (toInt : α → Int) (h : ∀ a, toInt a = (tags.tag a).toNat)
    {w : BorshWriter} {a : α} {name : String} :
    w.u8 (toInt a) name = .ok w' ↔ w' = w.bytes [tags.tag a] := by
  rw [h, u8_ok_iff]
  simp only [Int.natCast_inj, UInt8.toNat_inj, exists_eq_left']
  rfl

theorem u8_assetTag_iff {w : BorshWriter} {asset : Asset} {name : String} :
    w.u8 (assetTag asset) name = .ok w' ↔ w' = w.bytes (serialize asset) :=
  u8_tag_iff Escrow.Asset.tags assetTag fun asset => by cases asset <;> rfl

theorem u8_sideTag_iff {w : BorshWriter} {side : PositionSide} {name : String} :
    w.u8 (sideTag side) name = .ok w' ↔ w' = w.bytes (serialize side) :=
  u8_tag_iff Escrow.PositionSide.tags sideTag fun side => by cases side <;> rfl

theorem u8_voidReasonTag_iff {w : BorshWriter} {reason : VoidReason} {name : String} :
    w.u8 (voidReasonTag reason) name = .ok w' ↔ w' = w.bytes (serialize reason) :=
  u8_tag_iff Escrow.VoidReason.tags voidReasonTag fun reason => by cases reason <;> rfl

/-- The outcomes a client can settle with, at their indices in the program. -/
def ClaimOutcome.tags : Tags ClaimOutcome where
  tag outcome := Escrow.SettlementOutcome.tags.tag outcome.onChain
  ofTag
    | 1 => some claimWon
    | 2 => some claimLost
    | _ => none
  ofTag_tag outcome := by cases outcome <;> rfl

theorem u8_outcome_iff {w : BorshWriter} {outcome : ClaimOutcome} {name : String} :
    w.u8 (if outcome = .claimWon then 1 else 2) name = .ok w' ↔
      w' = w.bytes (serialize outcome.onChain) :=
  u8_tag_iff ClaimOutcome.tags (fun outcome => if outcome = .claimWon then 1 else 2)
    fun outcome => by cases outcome <;> rfl

/-! ## every instruction -/

/-- A write that is accepted goes on behind the bytes of a value. -/
theorem exists_write_iff {w : α → β} {P : α → Prop} {Q : β → Prop} :
    (∃ w', (∃ a, P a ∧ w' = w a) ∧ Q w') ↔ ∃ a, P a ∧ Q (w a) := by
  constructor
  · rintro ⟨_, ⟨a, ha, rfl⟩, hQ⟩
    exact ⟨a, ha, hQ⟩
  · rintro ⟨a, ha, hQ⟩
    exact ⟨_, ⟨a, ha, rfl⟩, hQ⟩

variable {data : List UInt8}

theorem encodeInitializeConfig_ok {request : InitializeConfigInstruction}
    (h : encodeInitializeConfig lib request = .ok data) :
    ∃ args, SameInitializeConfig lib request args ∧ data = serialize args := by
  simp only [encodeInitializeConfig, bind_ok_iff, fixed_ok_iff, publicKey_ok_iff, u64_ok_iff,
    exists_write_iff, pure_ok_iff] at h
  obtain ⟨genesis, hgenesis, config, hconfig, pause, hpause,
    creation, hcreation, feed, hfeed, payer, hpayer,
    residual, hresidual, mint, hmint, token, htoken,
    maxSol, hmaxSol, maxUsdc, hmaxUsdc, minSol, hminSol,
    minUsdc, hminUsdc, duration, hduration, delay, hdelay, rfl⟩ := h
  refine ⟨⟨genesis, config, pause, creation, feed, payer, residual, mint, token, maxSol, maxUsdc,
    minSol, minUsdc, duration, delay⟩,
    ⟨hgenesis, hconfig, hpause, hcreation, hfeed, hpayer, hresidual, hmint, htoken, hmaxSol,
      hmaxUsdc, hminSol, hminUsdc, hduration, hdelay⟩, ?_⟩
  change _ = List.flatten _
  simp

theorem encodeRotateConfig_ok {request : RotateConfigInstruction}
    (h : encodeRotateConfig lib request = .ok data) :
    ∃ args, SameRotateConfig lib request args ∧ data = serialize args := by
  simp only [encodeRotateConfig, bind_ok_iff, publicKey_ok_iff, u64_ok_iff, exists_write_iff,
    pure_ok_iff] at h
  obtain ⟨config, hconfig, pause, hpause, creation, hcreation,
    feed, hfeed, payer, hpayer, residual, hresidual,
    maxSol, hmaxSol, maxUsdc, hmaxUsdc, minSol, hminSol,
    minUsdc, hminUsdc, duration, hduration, delay, hdelay, rfl⟩ := h
  refine ⟨⟨config, pause, creation, feed, payer, residual, maxSol, maxUsdc, minSol, minUsdc,
    duration, delay⟩,
    ⟨hconfig, hpause, hcreation, hfeed, hpayer, hresidual, hmaxSol, hmaxUsdc, hminSol, hminUsdc,
      hduration, hdelay⟩, ?_⟩
  change _ = List.flatten _
  simp

theorem encodeRotateOracleSet_ok {request : RotateOracleSetInstruction}
    (h : encodeRotateOracleSet lib request = .ok data) :
    ∃ args, args.signers.length < 2 ^ 32 ∧ SameRotateOracleSet lib request args ∧
      data = serialize args := by
  simp only [encodeRotateOracleSet, bind_ok_iff, publicKeyVector_ok_iff, u8_ok_iff, u64_ok_iff,
    optionU64_ok_iff, exists_write_iff, pure_ok_iff] at h
  obtain ⟨epoch, hepoch, signers, ⟨hsigners, hlength⟩,
    threshold, hthreshold, activation, hactivation,
    retirement, hretirement, rfl⟩ := h
  refine ⟨⟨epoch, signers, threshold, activation, retirement⟩, hlength,
    ⟨hepoch, hsigners, hthreshold, hactivation, hretirement⟩, ?_⟩
  change _ = List.flatten _
  simp

theorem encodeSetPause_ok {paused : Bool} (h : encodeSetPause paused = .ok data) :
    ∃ args, SameSetPause paused args ∧ data = serialize args := by
  simp only [encodeSetPause, bind_ok_iff, bool_ok_iff, exists_eq_left, pure_ok_iff] at h
  subst h
  refine ⟨⟨paused⟩, ⟨rfl⟩, ?_⟩
  change _ = List.flatten _
  simp

variable {programId : Pubkey}

theorem encodeInitializeMarket_ok {request : InitializeMarketInstruction}
    (h : encodeInitializeMarket lib request programId = .ok data) :
    ∃ args, SameInitializeMarket lib programId request args ∧ data = serialize args := by
  simp only [encodeInitializeMarket, bind_ok_iff, fixed_ok_iff, publicKey_ok_iff, u64_ok_iff,
    i64_ok_iff, u32_ok_iff, u16_ok_iff, u8_assetTag_iff, bool_ok_iff, exists_write_iff,
    exists_eq_left, pure_ok_iff, InstructionLibraries.publicKey, Except.ok.injEq,
    exists_eq_left'] at h
  obtain ⟨_, _, _, _, mint, hmint, genesis, hgenesis, config, hconfig, oracles, horacles,
    _, huuid, uuid, rfl, fixture, hfixture, spec, hspec, terms, hterms, odds, hodds, hash, hhash,
    quoted, hquoted, ppm, hppm, ratio, hratio, fee, hfee, start, hstart, delay, hdelay,
    cutoff, hcutoff, deadline, hdeadline, epoch, hepoch, rfl⟩ := h
  refine ⟨⟨genesis, programId, config, oracles, uuid, fixture, spec, terms, odds, hash, quoted,
    ppm, ratio, request.document.asset, mint, fee, request.document.replayFlag, start, delay,
    cutoff, deadline, epoch⟩,
    ⟨hgenesis, rfl, hconfig, horacles, .of_uuidToBytes huuid, hfixture, hspec, hterms, hodds,
      hhash, hquoted, hppm, hratio, rfl, hmint, hfee, rfl, hstart, hdelay, hcutoff, hdeadline,
      hepoch⟩, ?_⟩
  change _ = List.flatten _
  simp

theorem encodeFreezeMarket_ok {request : FreezeMarketInstruction}
    (h : encodeFreezeMarket request = .ok data) :
    ∃ args, SameFreezeMarket request args ∧ data = serialize args := by
  simp only [encodeFreezeMarket, bind_ok_iff, u64_ok_iff, fixed_ok_iff, exists_write_iff,
    pure_ok_iff] at h
  obtain ⟨epoch, hepoch, hash, hhash, rfl⟩ := h
  refine ⟨⟨epoch, hash⟩, ⟨hepoch, hhash⟩, ?_⟩
  change _ = List.flatten _
  simp

theorem encodeUnfreezeMarket_ok {attestation : FeedEventAttestationV1}
    (h : encodeUnfreezeMarket attestation = .ok data) :
    ∃ args, SameUnfreezeMarket attestation args ∧ data = serialize args := by
  simp only [encodeUnfreezeMarket, bind_ok_iff, u64_ok_iff, i64_ok_iff, fixed_ok_iff,
    exists_write_iff, pure_ok_iff] at h
  obtain ⟨epoch, hepoch, sequence, hsequence, observed, hobserved, issued, hissued,
    expires, hexpires, evidence, hevidence, rfl⟩ := h
  refine ⟨⟨epoch, sequence, observed, issued, expires, evidence⟩,
    ⟨Int.sub_eq_iff_eq_add.mp hepoch, hsequence, hobserved, hissued, hexpires, hevidence⟩, ?_⟩
  change _ = List.flatten _
  simp

theorem encodePlacePosition_ok {request : PlacePositionInstruction}
    (h : encodePlacePosition request = .ok data) :
    ∃ args, SamePlacePosition request args ∧ data = serialize args := by
  simp only [encodePlacePosition, bind_ok_iff, fixed_ok_iff, u8_sideTag_iff, u64_ok_iff,
    u8_assetTag_iff, u32_ok_iff, i64_ok_iff, exists_write_iff, exists_eq_left, pure_ok_iff] at h
  obtain ⟨_, huuid, uuid, rfl, amount, hamount, ratio, hratio, document, hdocument,
    epoch, hepoch, nonce, hnonce, intent, hintent, expiry, hexpiry, rfl⟩ := h
  refine ⟨⟨uuid, request.side, amount, request.expectedAsset, ratio, document, epoch, nonce, intent,
    expiry⟩,
    ⟨.of_uuidToBytes huuid, rfl, hamount, rfl, hratio, hdocument, hepoch, hnonce, hintent,
      hexpiry⟩, ?_⟩
  change _ = List.flatten _
  simp

theorem encodeActivatePositionLot_ok {request : ActivatePositionLotInstruction}
    (h : encodeActivatePositionLot request = .ok data) :
    ∃ args, SameActivatePositionLot request args ∧ data = serialize args := by
  simp only [encodeActivatePositionLot, bind_ok_iff, u64_ok_iff, exists_write_iff,
    pure_ok_iff] at h
  obtain ⟨nonce, hnonce, epoch, hepoch, rfl⟩ := h
  refine ⟨⟨nonce, epoch⟩, ⟨hnonce, hepoch⟩, ?_⟩
  change _ = List.flatten _
  simp

theorem encodeInvalidatePositionLot_ok {request : InvalidatePositionLotInstruction}
    (h : encodeInvalidatePositionLot request = .ok data) :
    ∃ args, SameInvalidatePositionLot request args ∧ data = serialize args := by
  simp only [encodeInvalidatePositionLot, bind_ok_iff, u64_ok_iff, fixed_ok_iff, i64_ok_iff,
    exists_write_iff, pure_ok_iff] at h
  obtain ⟨nonce, hnonce, evidence, hevidence, epoch, hepoch, sequence, hsequence,
    issued, hissued, expires, hexpires, rfl⟩ := h
  refine ⟨⟨nonce, evidence, epoch, sequence, issued, expires⟩,
    ⟨hnonce, hevidence, hepoch, hsequence, hissued, hexpires⟩, ?_⟩
  change _ = List.flatten _
  simp

theorem encodeSettleMarket_ok {attestation : SettlementAttestationV1}
    (h : encodeSettleMarket attestation = .ok data) :
    ∃ args, (utf8 args.terminalPhase).length < 2 ^ 32 ∧ SameSettleMarket attestation args ∧
      data = serialize args := by
  simp only [encodeSettleMarket, bind_ok_iff, u8_outcome_iff, u64_ok_iff, string_ok_iff,
    optionalScore_ok_iff, fixed_ok_iff, i64_ok_iff, exists_write_iff, and_assoc, exists_and_left,
    exists_eq_left, pure_ok_iff] at h
  obtain ⟨_, _, sequence, hsequence, hlength, regulation, hregulation, full, hfull,
    commitment, hcommitment, root, hroot, issued, hissued, expires, hexpires,
    evidence, hevidence, rfl⟩ := h
  refine ⟨⟨attestation.outcome.onChain, sequence, attestation.terminalPhase, regulation, full,
    commitment, root, issued, expires, evidence⟩, hlength,
    ⟨rfl, hsequence, rfl, hregulation, hfull, hcommitment, hroot, hissued, hexpires,
      hevidence⟩, ?_⟩
  change _ = List.flatten _
  simp

theorem encodeVoidMarket_ok {attestation : VoidAttestationV1}
    (h : encodeVoidMarket attestation = .ok data) :
    ∃ args, SameVoidMarket attestation args ∧ data = serialize args := by
  simp only [encodeVoidMarket, bind_ok_iff, u8_voidReasonTag_iff, u64_ok_iff, i64_ok_iff,
    fixed_ok_iff, exists_write_iff, exists_eq_left, pure_ok_iff] at h
  obtain ⟨_, _, sequence, hsequence, issued, hissued, expires, hexpires, evidence, hevidence,
    rfl⟩ := h
  refine ⟨⟨attestation.reason, sequence, issued, expires, evidence⟩,
    ⟨rfl, hsequence, hissued, hexpires, hevidence⟩, ?_⟩
  change _ = List.flatten _
  simp

theorem encodeClosePositionLots_ok {lotNonces : List Int}
    (h : encodeClosePositionLots lotNonces = .ok data) :
    ∃ args, args.nonces.length < 2 ^ 32 ∧ SameClosePositionLots lotNonces args ∧
      data = serialize args := by
  simp only [encodeClosePositionLots, bind_ok_iff, u64Vector_ok_iff, exists_write_iff,
    pure_ok_iff] at h
  obtain ⟨nonces, ⟨hnonces, hlength⟩, rfl⟩ := h
  refine ⟨⟨nonces⟩, hlength, ⟨hnonces⟩, ?_⟩
  change _ = List.flatten _
  simp

/-! ## the data of an instruction -/

/-- Arguments of the program with the values of the request. -/
inductive SameArgs (lib : InstructionLibraries) (programId : Pubkey) :
    EscrowInstructionRequest → InstructionArgs → Prop
  | initializeConfig {request args} (h : SameInitializeConfig lib request args) :
      SameArgs lib programId (.initializeConfig request) (.initializeConfig args)
  | rotateConfig {request args} (h : SameRotateConfig lib request args) :
      SameArgs lib programId (.rotateConfig request) (.rotateConfig args)
  | rotateOracleSet {request args} (h : SameRotateOracleSet lib request args) :
      SameArgs lib programId (.rotateOracleSet request) (.rotateOracleSet args)
  | setPause {paused args} (h : SameSetPause paused args) :
      SameArgs lib programId (.setPause paused) (.setPause args)
  | initializeMarket {request args} (h : SameInitializeMarket lib programId request args) :
      SameArgs lib programId (.initializeMarket request) (.initializeMarket args)
  | freezeMarket {request args} (h : SameFreezeMarket request args) :
      SameArgs lib programId (.freezeMarket request) (.freezeMarket args)
  | unfreezeMarket {attestation args} (h : SameUnfreezeMarket attestation args) :
      SameArgs lib programId (.unfreezeMarket attestation) (.unfreezeMarket args)
  | placePosition {request args} (h : SamePlacePosition request args) :
      SameArgs lib programId (.placePosition request) (.placePosition args)
  | activatePositionLot {request args} (h : SameActivatePositionLot request args) :
      SameArgs lib programId (.activatePositionLot request) (.activatePositionLot args)
  | invalidatePositionLot {request args} (h : SameInvalidatePositionLot request args) :
      SameArgs lib programId (.invalidatePositionLot request) (.invalidatePositionLot args)
  | settleMarket {attestation args} (h : SameSettleMarket attestation args) :
      SameArgs lib programId (.settleMarket attestation) (.settleMarket args)
  | voidMarket {attestation args} (h : SameVoidMarket attestation args) :
      SameArgs lib programId (.voidMarket attestation) (.voidMarket args)
  | closePositionLots {lotNonces args} (h : SameClosePositionLots lotNonces args) :
      SameArgs lib programId (.closePositionLots lotNonces) (.closePositionLots args)
  | calculatePositionEntitlement :
      SameArgs lib programId .calculatePositionEntitlement .calculatePositionEntitlement
  | timeoutVoid : SameArgs lib programId .timeoutVoid .timeoutVoid
  | claimPosition : SameArgs lib programId .claimPosition .claimPosition
  | claimPositionFor : SameArgs lib programId .claimPositionFor .claimPositionFor
  | closePosition : SameArgs lib programId .closePosition .closePosition
  | closeMarket : SameArgs lib programId .closeMarket .closeMarket

theorem SameArgs.kind_eq {request : EscrowInstructionRequest} {args : InstructionArgs}
    (h : SameArgs lib programId request args) : args.kind = request.kind := by
  cases h <;> rfl

/-- What the encoder accepts are the bytes of arguments with the same values. -/
theorem encodeRequestArgs_ok {request : EscrowInstructionRequest}
    (h : encodeRequestArgs lib request programId = .ok data) :
    ∃ args : InstructionArgs, SameArgs lib programId request args ∧ args.Fits ∧
      data = args.serialize := by
  cases request with
  | initializeConfig request =>
      obtain ⟨args, hsame, rfl⟩ := encodeInitializeConfig_ok h
      exact ⟨.initializeConfig args, .initializeConfig hsame, trivial, rfl⟩
  | rotateConfig request =>
      obtain ⟨args, hsame, rfl⟩ := encodeRotateConfig_ok h
      exact ⟨.rotateConfig args, .rotateConfig hsame, trivial, rfl⟩
  | rotateOracleSet request =>
      obtain ⟨args, hfits, hsame, rfl⟩ := encodeRotateOracleSet_ok h
      exact ⟨.rotateOracleSet args, .rotateOracleSet hsame, hfits, rfl⟩
  | setPause paused =>
      obtain ⟨args, hsame, rfl⟩ := encodeSetPause_ok h
      exact ⟨.setPause args, .setPause hsame, trivial, rfl⟩
  | initializeMarket request =>
      obtain ⟨args, hsame, rfl⟩ := encodeInitializeMarket_ok h
      exact ⟨.initializeMarket args, .initializeMarket hsame, trivial, rfl⟩
  | freezeMarket request =>
      obtain ⟨args, hsame, rfl⟩ := encodeFreezeMarket_ok h
      exact ⟨.freezeMarket args, .freezeMarket hsame, trivial, rfl⟩
  | unfreezeMarket attestation =>
      obtain ⟨args, hsame, rfl⟩ := encodeUnfreezeMarket_ok h
      exact ⟨.unfreezeMarket args, .unfreezeMarket hsame, trivial, rfl⟩
  | placePosition request =>
      obtain ⟨args, hsame, rfl⟩ := encodePlacePosition_ok h
      exact ⟨.placePosition args, .placePosition hsame, trivial, rfl⟩
  | activatePositionLot request =>
      obtain ⟨args, hsame, rfl⟩ := encodeActivatePositionLot_ok h
      exact ⟨.activatePositionLot args, .activatePositionLot hsame, trivial, rfl⟩
  | invalidatePositionLot request =>
      obtain ⟨args, hsame, rfl⟩ := encodeInvalidatePositionLot_ok h
      exact ⟨.invalidatePositionLot args, .invalidatePositionLot hsame, trivial, rfl⟩
  | settleMarket attestation =>
      obtain ⟨args, hfits, hsame, rfl⟩ := encodeSettleMarket_ok h
      exact ⟨.settleMarket args, .settleMarket hsame, hfits, rfl⟩
  | voidMarket attestation =>
      obtain ⟨args, hsame, rfl⟩ := encodeVoidMarket_ok h
      exact ⟨.voidMarket args, .voidMarket hsame, trivial, rfl⟩
  | closePositionLots lotNonces =>
      obtain ⟨args, hfits, hsame, rfl⟩ := encodeClosePositionLots_ok h
      exact ⟨.closePositionLots args, .closePositionLots hsame, hfits, rfl⟩
  | calculatePositionEntitlement =>
      exact ⟨.calculatePositionEntitlement, .calculatePositionEntitlement, trivial,
        (pure_ok_iff.mp h).symm⟩
  | timeoutVoid => exact ⟨.timeoutVoid, .timeoutVoid, trivial, (pure_ok_iff.mp h).symm⟩
  | claimPosition => exact ⟨.claimPosition, .claimPosition, trivial, (pure_ok_iff.mp h).symm⟩
  | claimPositionFor =>
      exact ⟨.claimPositionFor, .claimPositionFor, trivial, (pure_ok_iff.mp h).symm⟩
  | closePosition => exact ⟨.closePosition, .closePosition, trivial, (pure_ok_iff.mp h).symm⟩
  | closeMarket => exact ⟨.closeMarket, .closeMarket, trivial, (pure_ok_iff.mp h).symm⟩

/-- **One instruction on both sides**: behind the discriminator stand the Borsh
bytes of arguments with the values of the request, and the program reads these
arguments back and nothing is left. -/
theorem instruction_data_reads_back {lib : InstructionLibraries} {programId : Pubkey}
    {request : EscrowInstructionRequest} {data : List UInt8}
    (h : encodeEscrowInstructionData lib request programId = .ok data) :
    ∃ args : InstructionArgs, SameArgs lib programId request args ∧
      data = (discriminator request.kind).toList ++ args.serialize ∧
      request.kind.deserializeArgs.run (data.drop 8) = some (args, []) := by
  simp only [encodeEscrowInstructionData, bind_ok_iff, pure_ok_iff] at h
  obtain ⟨_, hargs, rfl⟩ := h
  obtain ⟨args, hsame, hfits, rfl⟩ := encodeRequestArgs_ok hargs
  refine ⟨args, hsame, rfl, ?_⟩
  rw [List.drop_left' (discriminator request.kind).toList_length, ← hsame.kind_eq]
  exact (Escrow.parses_instructionArgs hfits).run_nil

/-- A lost claim after extra time: 2 among the arguments, 1 in the attestation. -/
theorem settlement_data_reads_back :
    let lib : InstructionLibraries :=
      { newPublicKey := fun _ => .error (.error "Invalid public key input")
        findProgramAddressSync := fun _ programId => .ok (programId, 255)
        sha256 := fun _ => Escrow.zeroHash }
    let attestation : SettlementAttestationV1 :=
      { clusterGenesisHash := List.replicate 32 1
        escrowProgramId := List.replicate 32 2
        marketPda := List.replicate 32 3
        marketDocumentHash := List.replicate 32 4
        fixtureId := 42
        oracleSetEpoch := 7
        issuedAt := 100
        expiresAt := 200
        evidenceHash := List.replicate 32 5
        outcome := .claimLost
        decidingSequence := 900
        terminalPhase := "AET"
        regulationScore := some ⟨1, 1⟩
        fullMatchScore := some ⟨1, 2⟩
        evidenceSequenceCommitment := List.replicate 32 6
        normalizedEvidenceRoot := List.replicate 32 7 }
    let request := EscrowInstructionRequest.settleMarket attestation
    ∃ data, encodeEscrowInstructionData lib request Escrow.programId = .ok data ∧
      data.getD 8 0 = 2 ∧
      ∃ args : InstructionArgs, SameArgs lib Escrow.programId request args ∧
        data = (discriminator request.kind).toList ++ args.serialize ∧
        request.kind.deserializeArgs.run (data.drop 8) = some (args, []) := by
  intro lib attestation request
  obtain ⟨data, hdata⟩ := isOk_iff.mp
    (by decide +kernel : (encodeEscrowInstructionData lib request Escrow.programId).isOk = true)
  have htag : (encodeEscrowInstructionData lib request Escrow.programId).toOption.map
      (fun data => data.getD 8 0) = some 2 := by
    decide +kernel
  rw [hdata] at htag
  exact ⟨data, hdata, Option.some.inj htag, instruction_data_reads_back hdata⟩

end CalledIt.Sdk
