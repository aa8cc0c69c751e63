import CalledIt.Sdk.AccountDecoders

/-!
# CalledIt.Sdk.EventDecoders

The events of the program as the client decodes them (`escrow-sdk/src/events.ts`).

An event is its discriminator and its fields, and nothing after them.  Every kind has its
own fields, which the client reads in the order of the program (`decode_reads`); the
discriminator tells the kinds apart, so the decoder inverts the layout of all of them.
-/

namespace CalledIt.Sdk

open Lib
open BorshReader
open Escrow (Bytes Pubkey Asset PositionSide VoidReason ProgramEvent)

inductive EscrowProgramEvent
  | protocolConfigInitialized
      (config configAuthority pauseAuthority marketCreationAuthority residualRecipient : String)
      (clusterGenesisHash : List UInt8) (canonicalUsdcMint allowedTokenProgram : String)
  | protocolConfigRotated
      (config configAuthority pauseAuthority marketCreationAuthority feedOperatorAuthority
        relayerFeePayer residualRecipient : String)
  | oracleSetRotated (oracleSet : String) (epoch threshold activationSlot : Int)
  | protocolPauseChanged (paused : Bool) (authority : String)
  | marketInitialized (market marketUuid : String) (fixtureId : Int) (asset : Asset)
      (ratioMilli : Int) (marketDocumentHash : List UInt8)
      (residualRecipient oracleSet vault : String)
      (inPlayStartTimestamp activationDelaySeconds positionCutoffTimestamp resolutionDeadline : Int)
  | marketFrozen (market : String) (eventEpoch : Int) (evidenceHash : List UInt8)
  | marketUnfrozen (market : String) (eventEpoch : Int) (evidenceHash : List UInt8)
  | positionPlaced (market position lot owner : String) (nonce : Int) (side : PositionSide)
      (amount : Int) (asset : Asset) (pending : Bool) (eventEpoch : Int)
      (activationAfter : Option Int) (clientIntentHash : List UInt8)
  | positionActivated (market position lot owner : String) (nonce amount eventEpoch : Int)
  | positionInvalidated (market position lot owner : String) (nonce amount eventEpoch : Int)
      (evidenceHash : List UInt8)
  | marketSettlementStarted (market : String) (outcome : Option SettlementOutcome)
      (matchedBack matchedDoubt positionCount : Int) (evidenceHash : List UInt8)
  | positionEntitlementCalculated (market position owner : String)
      (baseEntitlement forfeitedAmount processedPositionCount : Int)
  | marketSettled (market : String) (outcome : Option SettlementOutcome)
      (matchedBack matchedDoubt forfeitedTotal : Int) (evidenceHash : List UInt8)
      (finalPosition finalOwner : Option String)
      (finalBaseEntitlement finalForfeitedAmount : Option Int)
  | marketVoided (market : String) (evidenceHash : List UInt8) (timedOut : Bool)
      (reason : Option VoidReason) (decidingSequence : Option Int)
  | positionClaimed (market position owner : String) (amount : Int) (asset : Asset)
      (destination : String)
  | positionLotsClosed (market position owner : String) (nonces : List Int)
      (rentRecipient : String)
  | positionClosed (market position owner rentRecipient : String)
  | marketClosed (market : String) (dustAmount : Int) (asset : Asset)
  deriving DecidableEq, Repr

inductive EventKind
  | protocolConfigInitialized
  | protocolConfigRotated
  | oracleSetRotated
  | protocolPauseChanged
  | marketInitialized
  | marketFrozen
  | marketUnfrozen
  | positionPlaced
  | positionActivated
  | positionInvalidated
  | marketSettlementStarted
  | positionEntitlementCalculated
  | marketSettled
  | marketVoided
  | positionClaimed
  | positionLotsClosed
  | positionClosed
  | marketClosed
  deriving DecidableEq, Repr

def EventKind.text : EventKind → String
  | protocolConfigInitialized => "ProtocolConfigInitialized"
  | protocolConfigRotated => "ProtocolConfigRotated"
  | oracleSetRotated => "OracleSetRotated"
  | protocolPauseChanged => "ProtocolPauseChanged"
  | marketInitialized => "MarketInitialized"
  | marketFrozen => "MarketFrozen"
  | marketUnfrozen => "MarketUnfrozen"
  | positionPlaced => "PositionPlaced"
  | positionActivated => "PositionActivated"
  | positionInvalidated => "PositionInvalidated"
  | marketSettlementStarted => "MarketSettlementStarted"
  | positionEntitlementCalculated => "PositionEntitlementCalculated"
  | marketSettled => "MarketSettled"
  | marketVoided => "MarketVoided"
  | positionClaimed => "PositionClaimed"
  | positionLotsClosed => "PositionLotsClosed"
  | positionClosed => "PositionClosed"
  | marketClosed => "MarketClosed"

def escrowEventDiscriminators : EventKind → List UInt8
  | .protocolConfigInitialized => [243, 69, 27, 238, 111, 169, 87, 231]
  | .protocolConfigRotated => [109, 27, 20, 186, 107, 198, 14, 44]
  | .oracleSetRotated => [126, 245, 16, 82, 133, 143, 187, 15]
  | .protocolPauseChanged => [67, 33, 235, 73, 71, 124, 172, 110]
  | .marketInitialized => [134, 160, 122, 87, 50, 3, 255, 81]
  | .marketFrozen => [162, 36, 213, 206, 25, 118, 210, 158]
  | .marketUnfrozen => [158, 104, 197, 243, 10, 245, 181, 51]
  | .positionPlaced => [98, 254, 173, 163, 231, 220, 66, 210]
  | .positionActivated => [107, 62, 74, 102, 27, 211, 70, 149]
  | .positionInvalidated => [214, 165, 186, 120, 136, 141, 216, 202]
  | .marketSettlementStarted => [57, 114, 235, 229, 240, 159, 32, 143]
  | .positionEntitlementCalculated => [237, 117, 56, 238, 241, 136, 79, 53]
  | .marketSettled => [237, 212, 22, 175, 201, 117, 215, 99]
  | .marketVoided => [217, 12, 138, 39, 108, 75, 89, 26]
  | .positionClaimed => [149, 250, 141, 45, 210, 198, 94, 148]
  | .positionLotsClosed => [253, 103, 46, 41, 67, 37, 226, 166]
  | .positionClosed => [157, 163, 227, 228, 13, 97, 138, 121]
  | .marketClosed => [86, 91, 119, 43, 94, 0, 217, 113]

/-- `EVENT_KINDS` -/
def eventKinds : List EventKind :=
  [.protocolConfigInitialized, .protocolConfigRotated, .oracleSetRotated, .protocolPauseChanged,
   .marketInitialized, .marketFrozen, .marketUnfrozen, .positionPlaced, .positionActivated,
   .positionInvalidated, .marketSettlementStarted, .positionEntitlementCalculated, .marketSettled,
   .marketVoided, .positionClaimed, .positionLotsClosed, .positionClosed, .marketClosed]

def eventKind (discriminator : List UInt8) : Except DecodeError EventKind :=
  let actual := bytesToHex discriminator
  match eventKinds.find? fun kind => actual = bytesToHex (escrowEventDiscriminators kind) with
  | some kind => .ok kind
  | none => .error (.typeError "unknown escrow event discriminator")

namespace Events

def asset : BorshReader Asset := variant "asset" "invalid event asset tag " [.sol, .usdc]

def side : BorshReader PositionSide :=
  variant "position side" "invalid event position side tag " [.back, .doubt]

def outcome : BorshReader (Option SettlementOutcome) :=
  variant "settlement outcome" "invalid event settlement outcome tag " settlementOutcomes

def marketUuid : BorshReader String := do
  return uuid (← fixed 16 "market UUID")

abbrev optionalPublicKey : String → BorshReader (Option String) := option publicKey

def voidReason : BorshReader VoidReason :=
  variant "void reason" "invalid void reason tag "
    [.cancelled, .abandoned, .coverageLoss, .undecidable]

def optionalVoidReason : BorshReader (Option VoidReason) :=
  option (fun _ => voidReason) "void reason"

def decode : EventKind → BorshReader EscrowProgramEvent
  | .protocolConfigInitialized => do
      return .protocolConfigInitialized (← publicKey "config") (← publicKey "config authority")
        (← publicKey "pause authority") (← publicKey "market creation authority")
        (← publicKey "residual recipient") (← fixed 32 "cluster genesis hash")
        (← publicKey "canonical USDC mint") (← publicKey "allowed token program")
  | .protocolConfigRotated => do
      return .protocolConfigRotated (← publicKey "config") (← publicKey "config authority")
        (← publicKey "pause authority") (← publicKey "market creation authority")
        (← publicKey "feed operator authority") (← publicKey "relayer fee payer")
        (← publicKey "residual recipient")
  | .oracleSetRotated => do
      return .oracleSetRotated (← publicKey "oracle set") (← u64 "epoch") (← u8 "threshold")
        (← u64 "activation slot")
  | .protocolPauseChanged => do
      return .protocolPauseChanged (← bool "paused") (← publicKey "authority")
  | .marketInitialized => do
      return .marketInitialized (← publicKey "market") (← marketUuid) (← u64 "fixture ID")
        (← asset) (← u32 "ratio milli") (← fixed 32 "market document hash")
        (← publicKey "residual recipient") (← publicKey "oracle set") (← publicKey "vault")
        (← i64 "in-play start timestamp") (← u64 "activation delay seconds")
        (← i64 "position cutoff timestamp") (← i64 "resolution deadline")
  | .marketFrozen => do
      return .marketFrozen (← publicKey "market") (← u64 "event epoch")
        (← fixed 32 "evidence hash")
  | .marketUnfrozen => do
      return .marketUnfrozen (← publicKey "market") (← u64 "event epoch")
        (← fixed 32 "evidence hash")
  | .positionPlaced => do
      return .positionPlaced (← publicKey "market") (← publicKey "position") (← publicKey "lot")
        (← publicKey "owner") (← u64 "nonce") (← side) (← u64 "amount") (← asset)
        (← bool "pending") (← u64 "event epoch") (← optionalI64 "activation after")
        (← fixed 32 "client intent hash")
  | .positionActivated => do
      return .positionActivated (← publicKey "market") (← publicKey "position")
        (← publicKey "lot") (← publicKey "owner") (← u64 "nonce") (← u64 "amount")
        (← u64 "event epoch")
  | .positionInvalidated => do
      return .positionInvalidated (← publicKey "market") (← publicKey "position")
        (← publicKey "lot") (← publicKey "owner") (← u64 "nonce") (← u64 "amount")
        (← u64 "event epoch") (← fixed 32 "evidence hash")
  | .marketSettlementStarted => do
      return .marketSettlementStarted (← publicKey "market") (← outcome) (← u64 "matched back")
        (← u64 "matched doubt") (← u64 "position count") (← fixed 32 "evidence hash")
  | .positionEntitlementCalculated => do
      return .positionEntitlementCalculated (← publicKey "market") (← publicKey "position")
        (← publicKey "owner") (← u64 "base entitlement") (← u64 "forfeited amount")
        (← u64 "processed position count")
  | .marketSettled => do
      return .marketSettled (← publicKey "market") (← outcome) (← u64 "matched back")
        (← u64 "matched doubt") (← u64 "forfeited total") (← fixed 32 "evidence hash")
        (← optionalPublicKey "final position") (← optionalPublicKey "final owner")
        (← optionU64 "final base entitlement") (← optionU64 "final forfeited amount")
  | .marketVoided => do
      return .marketVoided (← publicKey "market") (← fixed 32 "evidence hash")
        (← bool "timed out") (← optionalVoidReason) (← optionU64 "deciding sequence")
  | .positionClaimed => do
      return .positionClaimed (← publicKey "market") (← publicKey "position")
        (← publicKey "owner") (← u64 "amount") (← asset) (← publicKey "destination")
  | .positionLotsClosed => do
      return .positionLotsClosed (← publicKey "market") (← publicKey "position")
        (← publicKey "owner") (← u64Vector "nonces" 256) (← publicKey "rent recipient")
  | .positionClosed => do
      return .positionClosed (← publicKey "market") (← publicKey "position") (← publicKey "owner")
        (← publicKey "rent recipient")
  | .marketClosed => do
      return .marketClosed (← publicKey "market") (← u64 "dust amount") (← asset)

end Events

def decodeEscrowEvent : List UInt8 → Except DecodeError EscrowProgramEvent :=
  StateT.run' do
    let kind ← eventKind (← fixed 8 "event discriminator")
    let event ← Events.decode kind
    finish kind.text
    return event

/-! ## what the client sees of an event -/

def eventKindOf : ProgramEvent → EventKind
  | .protocolConfigInitialized _ => .protocolConfigInitialized
  | .protocolConfigRotated _ => .protocolConfigRotated
  | .oracleSetRotated _ => .oracleSetRotated
  | .protocolPauseChanged _ => .protocolPauseChanged
  | .marketInitialized _ => .marketInitialized
  | .marketFrozen _ => .marketFrozen
  | .marketUnfrozen _ => .marketUnfrozen
  | .positionPlaced _ => .positionPlaced
  | .positionActivated _ => .positionActivated
  | .positionInvalidated _ => .positionInvalidated
  | .marketSettlementStarted _ => .marketSettlementStarted
  | .positionEntitlementCalculated _ => .positionEntitlementCalculated
  | .marketSettled _ => .marketSettled
  | .marketVoided _ => .marketVoided
  | .positionClaimed _ => .positionClaimed
  | .positionLotsClosed _ => .positionLotsClosed
  | .positionClosed _ => .positionClosed
  | .marketClosed _ => .marketClosed

def programEvent : ProgramEvent → EscrowProgramEvent
  | .protocolConfigInitialized e =>
      .protocolConfigInitialized (address e.config) (address e.configAuthority)
        (address e.pauseAuthority) (address e.marketCreationAuthority)
        (address e.residualRecipient) e.clusterGenesisHash.toList (address e.canonicalUsdcMint)
        (address e.allowedTokenProgram)
  | .protocolConfigRotated e =>
      .protocolConfigRotated (address e.config) (address e.configAuthority)
        (address e.pauseAuthority) (address e.marketCreationAuthority)
        (address e.feedOperatorAuthority) (address e.relayerFeePayer)
        (address e.residualRecipient)
  | .oracleSetRotated e =>
      .oracleSetRotated (address e.oracleSet) e.epoch.toNat e.threshold.toNat
        e.activationSlot.toNat
  | .protocolPauseChanged e =>
      .protocolPauseChanged e.paused (address e.authority)
  | .marketInitialized e =>
      .marketInitialized (address e.market) (uuid e.marketUuid.toList) e.fixtureId.toNat e.asset
        e.ratioMilli.toNat e.marketDocumentHash.toList (address e.residualRecipient)
        (address e.oracleSet) (address e.vault) e.inPlayStartTimestamp.toInt
        e.activationDelaySeconds.toNat e.positionCutoffTimestamp.toInt e.resolutionDeadline.toInt
  | .marketFrozen e =>
      .marketFrozen (address e.market) e.eventEpoch.toNat e.evidenceHash.toList
  | .marketUnfrozen e =>
      .marketUnfrozen (address e.market) e.eventEpoch.toNat e.evidenceHash.toList
  | .positionPlaced e =>
      .positionPlaced (address e.market) (address e.position) (address e.lot) (address e.owner)
        e.nonce.toNat e.side e.amount.toNat e.asset e.pending e.eventEpoch.toNat
        (e.activationAfter.map Int64.toInt) e.clientIntentHash.toList
  | .positionActivated e =>
      .positionActivated (address e.market) (address e.position) (address e.lot) (address e.owner)
        e.nonce.toNat e.amount.toNat e.eventEpoch.toNat
  | .positionInvalidated e =>
      .positionInvalidated (address e.market) (address e.position) (address e.lot)
        (address e.owner) e.nonce.toNat e.amount.toNat e.eventEpoch.toNat e.evidenceHash.toList
  | .marketSettlementStarted e =>
      .marketSettlementStarted (address e.market) (outcomeView e.outcome) e.matchedBack.toNat
        e.matchedDoubt.toNat e.positionCount.toNat e.evidenceHash.toList
  | .positionEntitlementCalculated e =>
      .positionEntitlementCalculated (address e.market) (address e.position) (address e.owner)
        e.baseEntitlement.toNat e.forfeitedAmount.toNat e.processedPositionCount.toNat
  | .marketSettled e =>
      .marketSettled (address e.market) (outcomeView e.outcome) e.matchedBack.toNat
        e.matchedDoubt.toNat e.forfeitedTotal.toNat e.evidenceHash.toList
        (e.finalPosition.map address) (e.finalOwner.map address)
        (e.finalBaseEntitlement.map fun v => (v.toNat : Int))
        (e.finalForfeitedAmount.map fun v => (v.toNat : Int))
  | .marketVoided e =>
      .marketVoided (address e.market) e.evidenceHash.toList e.timedOut e.reason
        (e.decidingSequence.map fun v => (v.toNat : Int))
  | .positionClaimed e =>
      .positionClaimed (address e.market) (address e.position) (address e.owner) e.amount.toNat
        e.asset (address e.destination)
  | .positionLotsClosed e =>
      .positionLotsClosed (address e.val.market) (address e.val.position) (address e.val.owner)
        (e.val.nonces.map fun v => (v.toNat : Int)) (address e.val.rentRecipient)
  | .positionClosed e =>
      .positionClosed (address e.market) (address e.position) (address e.owner)
        (address e.rentRecipient)
  | .marketClosed e =>
      .marketClosed (address e.market) e.dustAmount.toNat e.asset

/-! ## reading and writing -/

namespace Events

instance : Viewed asset Asset id where
  mirrors := mirrors_variant _ _ (by decide +kernel)

instance : Viewed side PositionSide id where
  mirrors := mirrors_variant _ _ (by decide +kernel)

instance : Viewed outcome Escrow.SettlementOutcome outcomeView where
  mirrors := mirrors_variant _ _ (by decide +kernel)

instance : Viewed voidReason VoidReason id where
  mirrors := mirrors_variant _ _ (by decide +kernel)

instance : Viewed optionalVoidReason (Option VoidReason) id where
  mirrors := by
    have h : Viewed (option (fun _ => voidReason) "void reason") (Option VoidReason)
      (Option.map id) := inferInstance
    rw [Option.map_id] at h
    exact h.mirrors

instance : Viewed marketUuid (Bytes 16) (fun bytes => uuid bytes.toList) where
  mirrors := (mirrors_fixed 16 "market UUID").through fun _ => rfl

end Events

/-- The bytes of an event. -/
def EventBytes (e : ProgramEvent) (data : List UInt8) : Prop :=
  data = escrowEventDiscriminators (eventKindOf e) ++ e.payload

/-- The reader of a kind takes the fields of its events, and nothing else. -/
structure KindReads (kind : EventKind) : Prop where
  reads : ∀ e, eventKindOf e = kind → ∀ rest,
    (Events.decode kind).run (e.payload ++ rest) = .ok (programEvent e, rest)
  takes : ∀ bytes b rest, (Events.decode kind).run bytes = .ok (b, rest) →
    ∃ e, eventKindOf e = kind ∧ programEvent e = b ∧ bytes = e.payload ++ rest
  inj : ∀ e e', eventKindOf e = kind → eventKindOf e' = kind → e.payload = e'.payload → e = e'

variable {kind : EventKind}

theorem kindReads_of_mirrors [Borsh α] [LawfulBorsh α] [StrictBorsh α] (mk : α → ProgramEvent)
    (h : Mirrors (Events.decode kind) (deserialize : Reader α) fun a => programEvent (mk a))
    (hkind : ∀ e, eventKindOf e = kind ↔ ∃ a, e = mk a := by rintro ⟨⟩ <;> simp [eventKindOf])
    (hpayload : ∀ a, (mk a).payload = serialize a := by intro a; rfl) : KindReads kind where
  reads e he rest := by
    obtain ⟨a, rfl⟩ := (hkind e).mp he
    rw [hpayload]
    exact h.reads a rest
  takes bytes b rest hrun := by
    obtain ⟨a, rfl, rfl⟩ := h.takes hrun
    exact ⟨mk a, (hkind _).mpr ⟨a, rfl⟩, rfl, by rw [hpayload]⟩
  inj e e' he he' heq := by
    obtain ⟨a, rfl⟩ := (hkind e).mp he
    obtain ⟨a', rfl⟩ := (hkind e').mp he'
    rw [hpayload, hpayload] at heq
    have happend : serialize a ++ [] = serialize a' ++ [] := by rw [heq]
    rw [(serialize_prefixCode trivial trivial happend).1]

theorem decode_reads (kind : EventKind) : KindReads kind := by
  cases kind with
  | protocolConfigInitialized =>
      refine kindReads_of_mirrors .protocolConfigInitialized ?_
      iterate 8 refine mirrors_field fun _ => ?_
      exact .pure rfl
  | protocolConfigRotated =>
      refine kindReads_of_mirrors .protocolConfigRotated ?_
      iterate 7 refine mirrors_field fun _ => ?_
      exact .pure rfl
  | oracleSetRotated =>
      refine kindReads_of_mirrors .oracleSetRotated ?_
      iterate 4 refine mirrors_field fun _ => ?_
      exact .pure rfl
  | protocolPauseChanged =>
      refine kindReads_of_mirrors .protocolPauseChanged ?_
      iterate 2 refine mirrors_field fun _ => ?_
      exact .pure rfl
  | marketInitialized =>
      refine kindReads_of_mirrors .marketInitialized ?_
      iterate 13 refine mirrors_field fun _ => ?_
      exact .pure rfl
  | marketFrozen =>
      refine kindReads_of_mirrors .marketFrozen ?_
      iterate 3 refine mirrors_field fun _ => ?_
      exact .pure rfl
  | marketUnfrozen =>
      refine kindReads_of_mirrors .marketUnfrozen ?_
      iterate 3 refine mirrors_field fun _ => ?_
      exact .pure rfl
  | positionPlaced =>
      refine kindReads_of_mirrors .positionPlaced ?_
      iterate 12 refine mirrors_field fun _ => ?_
      exact .pure rfl
  | positionActivated =>
      refine kindReads_of_mirrors .positionActivated ?_
      iterate 7 refine mirrors_field fun _ => ?_
      exact .pure rfl
  | positionInvalidated =>
      refine kindReads_of_mirrors .positionInvalidated ?_
      iterate 8 refine mirrors_field fun _ => ?_
      exact .pure rfl
  | marketSettlementStarted =>
      refine kindReads_of_mirrors .marketSettlementStarted ?_
      iterate 6 refine mirrors_field fun _ => ?_
      exact .pure rfl
  | positionEntitlementCalculated =>
      refine kindReads_of_mirrors .positionEntitlementCalculated ?_
      iterate 6 refine mirrors_field fun _ => ?_
      exact .pure rfl
  | marketSettled =>
      refine kindReads_of_mirrors .marketSettled ?_
      iterate 10 refine mirrors_field fun _ => ?_
      exact .pure rfl
  | marketVoided =>
      refine kindReads_of_mirrors .marketVoided ?_
      iterate 5 refine mirrors_field fun _ => ?_
      exact .pure rfl
  | positionClaimed =>
      refine kindReads_of_mirrors .positionClaimed ?_
      iterate 6 refine mirrors_field fun _ => ?_
      exact .pure rfl
  | positionLotsClosed =>
      refine kindReads_of_mirrors .positionLotsClosed ?_
      iterate 5 refine mirrors_field fun _ => ?_
      exact .pure rfl
  | positionClosed =>
      refine kindReads_of_mirrors .positionClosed ?_
      iterate 4 refine mirrors_field fun _ => ?_
      exact .pure rfl
  | marketClosed =>
      refine kindReads_of_mirrors .marketClosed ?_
      iterate 3 refine mirrors_field fun _ => ?_
      exact .pure rfl

theorem length_escrowEventDiscriminators (kind : EventKind) :
    (escrowEventDiscriminators kind).length = 8 := by
  cases kind <;> rfl

theorem eventKind_iff {discriminator : List UInt8} :
    eventKind discriminator = .ok kind ↔ discriminator = escrowEventDiscriminators kind := by
  constructor
  · intro h
    unfold eventKind at h
    dsimp only at h
    split at h
    next found hfound =>
      obtain rfl := Except.ok.inj h
      have hsame := List.find?_some hfound
      exact bytesToHex_inj (by simpa using hsame)
    · cases h
  · rintro rfl
    cases kind <;> decide +kernel

theorem run_lifted_iff {discriminator bytes rest : List UInt8} :
    (eventKind discriminator : BorshReader EventKind).run bytes = .ok (kind, rest) ↔
      eventKind discriminator = .ok kind ∧ bytes = rest := by
  rw [StateT.run_monadLift, bind_ok_iff]
  simp [pure_ok_iff]

theorem run_finish_iff {name : String} {bytes rest : List UInt8} :
    (finish name).run bytes = .ok ((), rest) ↔ bytes = [] ∧ rest = [] := by
  cases bytes with
  | nil =>
      constructor
      · intro h
        exact ⟨rfl, (Prod.mk.inj (Except.ok.inj h)).2.symm⟩
      · rintro ⟨-, rfl⟩
        rfl
  | cons b bytes => simp [finish, StateT.run]

theorem decodeEscrowEvent_iff {data : List UInt8} {b : EscrowProgramEvent} :
    decodeEscrowEvent data = .ok b ↔ ∃ kind fields,
      data = escrowEventDiscriminators kind ++ fields ∧
        (Events.decode kind).run fields = .ok (b, []) := by
  rw [decodeEscrowEvent, run'_ok_iff]
  simp only [run_taker_bind_iff, run_taker_pure_iff]
  constructor
  · rintro ⟨rest, discriminator, fields, hfixed, kind, mid, hkind, event, left, hevent, ⟨⟩, last,
      hfinish, rfl, rfl⟩
    obtain ⟨-, rfl⟩ := run_fixed_iff.mp hfixed
    obtain ⟨hknown, rfl⟩ := run_lifted_iff.mp hkind
    obtain ⟨rfl, -⟩ := run_finish_iff.mp hfinish
    exact ⟨kind, fields, by rw [eventKind_iff.mp hknown], hevent⟩
  · rintro ⟨kind, fields, rfl, hevent⟩
    refine ⟨[], _, fields, run_fixed_iff.mpr ⟨length_escrowEventDiscriminators kind, rfl⟩, kind,
      fields, run_lifted_iff.mpr ⟨eventKind_iff.mpr rfl, rfl⟩, b, [], hevent, (), [], ?_, rfl, rfl⟩
    exact run_finish_iff.mpr ⟨rfl, rfl⟩

/-- The bytes of an event tell its kind. -/
theorem eventKind_of_append {kind' : EventKind} {fields fields' : List UInt8}
    (h : escrowEventDiscriminators kind ++ fields = escrowEventDiscriminators kind' ++ fields') :
    kind = kind' ∧ fields = fields' := by
  have hlength : (escrowEventDiscriminators kind).length =
      (escrowEventDiscriminators kind').length := by
    rw [length_escrowEventDiscriminators, length_escrowEventDiscriminators]
  obtain ⟨hdiscriminator, hfields⟩ := List.append_inj h hlength
  have hkind := eventKind_iff.mpr hdiscriminator
  rw [eventKind_iff.mpr rfl] at hkind
  exact ⟨Except.ok.inj hkind, hfields⟩

theorem inverts_event : Inverts decodeEscrowEvent EventBytes programEvent where
  decodes e data hdata := by
    have hreads := (decode_reads (eventKindOf e)).reads e rfl []
    rw [List.append_nil] at hreads
    exact decodeEscrowEvent_iff.mpr ⟨_, _, hdata, hreads⟩
  unique data b hdecode := by
    obtain ⟨kind, fields, rfl, hfields⟩ := decodeEscrowEvent_iff.mp hdecode
    obtain ⟨e, rfl, hview, rfl⟩ := (decode_reads kind).takes _ _ _ hfields
    refine ⟨e, ⟨hview, by rw [EventBytes, List.append_nil]⟩, fun e' he' => ?_⟩
    obtain ⟨-, hbytes⟩ := he'
    rw [EventBytes, List.append_nil] at hbytes
    obtain ⟨hkind, hpayload⟩ := eventKind_of_append hbytes
    exact ((decode_reads _).inj e e' rfl hkind.symm hpayload).symm

/-- **The decoders invert the encodings of the program**: of every account and of every
event. -/
theorem escrow_decoders_invert :
    Inverts decodeProtocolConfigAccount (AccountBytes .protocolConfig) protocolConfigAccount ∧
    Inverts decodeOracleSetAccount (AccountBytes .oracleSet)
      (fun set : Escrow.StoredOracleSet => oracleSetAccount set.val) ∧
    Inverts decodeMarketAccount (AccountBytes .market) marketAccount ∧
    Inverts decodeUserPositionAccount (AccountBytes .userPosition) userPositionAccount ∧
    Inverts decodePositionLotAccount (AccountBytes .positionLot) positionLotAccount ∧
    Inverts decodeEscrowEvent EventBytes programEvent :=
  ⟨inverts_protocolConfig, inverts_oracleSet, inverts_market, inverts_userPosition,
    inverts_positionLot, inverts_event⟩

end CalledIt.Sdk
