import CalledIt.Relayer.Stranded
import CalledIt.Relayer.Workflows
import Mathlib.Data.Bool.AllAny

/-!
# CalledIt.Relayer.Captured

What an idempotency key of the services stands for.

Keys of two services, of two operations or of two markets are never the same.  Of the rest of
a request a key has only a part, and the queue compares the whole payload: a request with the
key of a job that was made before is taken when it repeats what the key leaves out
(`Repeats`), and then the job starts again when it is recovery work and nothing is stored of
the transaction before (`keys_capture`).
-/

namespace CalledIt.Relayer.Captured

open Lib Jobs
open Sdk (FeedEventAttestationV1 PositionInvalidationAttestationV1 SettlementAttestationV1
  VoidAttestationV1 AttestationCommonV1 ScoreV1 ClaimOutcome)
open Signer (hexText hexText_inj eventKindText)

/-! ## the services -/

/-- The services of one deployment. -/
structure Services where
  libraries : EscrowLibraries
  control : EscrowControlDeployment
  recovery : EscrowRecoveryDeployment
  activation : EscrowPositionActivationDeployment

/-- A request to one of the services, with what the service reads on the way. -/
inductive ServiceCall
  | control (readiness : EscrowReadinessReport) (link : Option MarketLink) (now : Int)
      (request : EscrowControlRequest)
  | recovery (readiness : EscrowReadinessReport) (link : Option MarketLink) (now : Int)
      (request : EscrowRecoveryRequest)
  | activation (view : ActivationView) (input : ScheduleEscrowPositionActivationInput)

/-- The job that is asked of the queue. -/
def Services.asks (services : Services) :
    ServiceCall → Option (EnqueueRelayerJob ServicePayload)
  | .control readiness link now request =>
      match EscrowControl.enqueue services.libraries services.control readiness link now
        request with
      | .ok (.job input) => some input
      | _ => none
  | .recovery readiness link now request =>
      match EscrowRecovery.enqueue services.libraries services.recovery readiness link now
        request with
      | .ok (.job input) => some input
      | _ => none
  | .activation view input =>
      match EscrowActivation.schedule services.libraries services.activation view input with
      | .ok (.job input) => some input
      | _ => none

/-! ## what a key leaves out -/

/-- Two control requests of one key say the same beside it. -/
def ControlRepeats (link link' : MarketLink) : EscrowControlRequest → EscrowControlRequest → Prop
  | .freezeMarket _ _ attestation signatures, .freezeMarket _ _ attestation' signatures' =>
      link.marketId = link'.marketId ∧ link.documentHashHex = link'.documentHashHex ∧
        attestation = attestation' ∧ signatures = signatures'
  | .unfreezeMarket _ attestation signatures, .unfreezeMarket _ attestation' signatures' =>
      link.marketId = link'.marketId ∧ link.documentHashHex = link'.documentHashHex ∧
        attestation = attestation' ∧ signatures = signatures'
  | .invalidatePositionLot _ _ _ lot attestation signatures,
      .invalidatePositionLot _ _ _ lot' attestation' signatures' =>
      link.marketId = link'.marketId ∧ link.documentHashHex = link'.documentHashHex ∧
        lot = lot' ∧ attestation = attestation' ∧ signatures = signatures'
  | _, _ => False

/-- The links say the same of the market's terms. -/
def SameTerms (link link' : MarketLink) : Prop :=
  link.marketId = link'.marketId ∧ link.documentHashHex = link'.documentHashHex ∧
    link.oracleEpoch = link'.oracleEpoch ∧ link.asset = link'.asset ∧
    link.mintPubkey = link'.mintPubkey

/-- Two recovery requests of one key say the same beside it. -/
def RecoveryRepeats (link link' : MarketLink) :
    EscrowRecoveryRequest → EscrowRecoveryRequest → Prop
  | .settleMarket _ attestation signatures, .settleMarket _ attestation' signatures' =>
      SameTerms link link' ∧ attestation = attestation' ∧ signatures = signatures'
  | .voidMarket _ attestation signatures, .voidMarket _ attestation' signatures' =>
      SameTerms link link' ∧ attestation = attestation' ∧ signatures = signatures'
  | .closePositionLots _ _ lotNonces, .closePositionLots _ _ lotNonces' =>
      SameTerms link link' ∧ lotNonces = lotNonces'
  | .timeoutVoid _, .timeoutVoid _ => SameTerms link link'
  | .calculatePositionEntitlement _ _, .calculatePositionEntitlement _ _ => SameTerms link link'
  | .claimPositionFor _ _, .claimPositionFor _ _ => SameTerms link link'
  | .closePosition _ _, .closePosition _ _ => SameTerms link link'
  | .closeMarket _, .closeMarket _ => SameTerms link link'
  | _, _ => False

/-- When the lot that the service read becomes active. -/
def ActivationView.dueAt (view : ActivationView) : Option Int :=
  view.lot.bind fun lot => lot.value.activationTimestamp

/-- The second request repeats what the key of the first one leaves out. -/
def Repeats : ServiceCall → ServiceCall → Prop
  | .control _ (some link) _ request, .control _ (some link') _ request' =>
      ControlRepeats link link' request request'
  | .recovery _ (some link) _ request, .recovery _ (some link') _ request' =>
      RecoveryRepeats link link' request request'
  | .activation view _, .activation view' _ =>
      ActivationView.dueAt view = ActivationView.dueAt view' ∧
        ∃ link ∈ view.link, ∃ link' ∈ view'.link, link.marketId = link'.marketId ∧
          lower link.documentHashHex = lower link'.documentHashHex
  | _, _ => False

/-! ## payloads -/

@[simp] theorem decimal_inj {m n : Int} : decimal m = decimal n ↔ m = n := by
  simp only [decimal, Written.text.injEq]
  exact ⟨toString_int_inj, congrArg _⟩

@[simp] theorem hex_inj {a b : List UInt8} : hex a = hex b ↔ a = b := by
  simp only [hex, Written.text.injEq]
  exact ⟨hexText_inj, congrArg _⟩

theorem eventKindText_inj {a b : Escrow.FeedEventKind} :
    eventKindText a = eventKindText b ↔ a = b := by
  cases a <;> cases b <;> simp [eventKindText]

theorem claimOutcomeText_inj {a b : ClaimOutcome} :
    claimOutcomeText a = claimOutcomeText b ↔ a = b := by
  cases a <;> cases b <;> simp [claimOutcomeText]

theorem voidReasonText_inj {a b : Escrow.VoidReason} :
    voidReasonText a = voidReasonText b ↔ a = b := by
  cases a <;> cases b <;> simp [voidReasonText]

theorem assetText_inj {a b : Escrow.Asset} : assetText a = assetText b ↔ a = b := by
  cases a <;> cases b <;> simp [assetText]

theorem orNull_text_inj {a b : Option String} :
    orNull Written.text a = orNull Written.text b ↔ a = b := by
  cases a <;> cases b <;> simp [orNull]

theorem orNull_score_inj {a b : Option ScoreV1} :
    orNull serializeScore a = orNull serializeScore b ↔ a = b := by
  cases a with
  | none => cases b <;> simp [orNull, serializeScore]
  | some a =>
      cases b with
      | none => simp [orNull, serializeScore]
      | some b =>
          cases a
          cases b
          simp [orNull, serializeScore]

theorem serializeCommon_inj {a b : AttestationCommonV1} {rest rest' : Members} :
    serializeCommon a ++ rest = serializeCommon b ++ rest' ↔ a = b ∧ rest = rest' := by
  obtain ⟨⟩ := a
  obtain ⟨⟩ := b
  simp [serializeCommon, and_assoc]

theorem serializeFeedEvent_inj {a b : FeedEventAttestationV1} :
    serializeFeedEvent a = serializeFeedEvent b ↔ a = b := by
  obtain ⟨⟩ := a
  obtain ⟨⟩ := b
  simp [serializeFeedEvent, serializeCommon_inj, eventKindText_inj]

theorem serializeInvalidation_inj {a b : PositionInvalidationAttestationV1} :
    serializeInvalidation a = serializeInvalidation b ↔ a = b := by
  obtain ⟨⟩ := a
  obtain ⟨⟩ := b
  simp [serializeInvalidation, serializeCommon_inj]

theorem serializeSettlement_inj {a b : SettlementAttestationV1} :
    serializeSettlement a = serializeSettlement b ↔ a = b := by
  obtain ⟨⟩ := a
  obtain ⟨⟩ := b
  simp [serializeSettlement, serializeCommon_inj, claimOutcomeText_inj, orNull_score_inj]

theorem serializeVoid_inj {a b : VoidAttestationV1} :
    serializeVoid a = serializeVoid b ↔ a = b := by
  obtain ⟨⟩ := a
  obtain ⟨⟩ := b
  simp [serializeVoid, serializeCommon_inj, voidReasonText_inj]

theorem serializeSignatures_inj {a b : List AttestationSignature} :
    a.map serializeSignature = b.map serializeSignature ↔ a = b := by
  refine List.map_inj_right fun signature signature' h => ?_
  obtain ⟨hkey, hsignature⟩ := WrittenSignature.mk.inj h
  obtain ⟨publicKey, bytes⟩ := signature
  obtain ⟨publicKey', bytes'⟩ := signature'
  rw [show publicKey = publicKey' from hexText_inj hkey,
    show bytes = bytes' from base64_inj (String.ofList_injective hsignature)]

theorem decimals_inj {a b : List Int} : a.map toString = b.map toString ↔ a = b :=
  List.map_inj_right fun _ _ => toString_int_inj

/-! ## what a service asks for -/

variable {readiness : EscrowReadinessReport}

section

variable {services : Services} {input : EnqueueRelayerJob ServicePayload}

/-- The link that a request is taken with. -/
structure Linked (libraries : EscrowLibraries) (programId marketPda : String) (link : MarketLink) :
    Prop where
  market : link.marketPda = marketPda
  derived : libraries.deriveMarketPda programId link.marketId = some marketPda

theorem asks_control {link : Option MarketLink} {now : Int} {request : EscrowControlRequest}
    (h : services.asks (.control readiness link now request) = some input) :
    ∃ found, link = some found ∧
      Linked services.libraries services.control.programId request.marketPda found ∧
      request.common.oracleSetEpoch = found.oracleEpoch ∧
      EscrowControl.ownChecks services.libraries request = .ok () ∧
      input = relayerJob request.kind (EscrowControl.idempotencyKey request found)
        services.control.cluster services.control.programId services.control.custodyVersion
        found.marketId request.owner (EscrowControl.payload services.control request found)
        now now := by
  simp only [Services.asks] at h
  split at h
  next job henqueue =>
    obtain rfl := Option.some.inj h
    cases readiness with
    | notReady => simp [EscrowControl.enqueue] at henqueue
    | ready =>
        simp only [EscrowControl.enqueue, EscrowControl.requireLink,
          EscrowControl.validateAttestation, bind_ok_iff, okOr_ok_iff, require_ok_iff,
          pure_ok_iff] at henqueue
        obtain ⟨_, ⟨found, hlink, _, hfits, _, hderived, _, ⟨rfl, -⟩, rfl⟩, _,
          ⟨_, -, _, -, _, -, _, hattests, hown⟩, hjob⟩ := henqueue
        obtain ⟨hlinked, -, -⟩ := hattests
        exact ⟨found, hlink, ⟨hfits.2.2.2.2.2.1, hderived⟩, hlinked.2.2.2.2, hown,
          (Enqueued.job.inj hjob).symm⟩
  next => simp at h

theorem asks_recovery {link : Option MarketLink} {now : Int} {request : EscrowRecoveryRequest}
    (h : services.asks (.recovery readiness link now request) = some input) :
    ∃ found payload, link = some found ∧
      Linked services.libraries services.recovery.programId request.marketPda found ∧
      EscrowRecovery.payload request found = .ok payload ∧
      input = relayerJob request.jobKind
        (EscrowRecovery.idempotencyKey services.libraries request found)
        services.recovery.cluster services.recovery.programId services.recovery.custodyVersion
        found.marketId request.owner payload now now := by
  simp only [Services.asks] at h
  split at h
  next job henqueue =>
    obtain rfl := Option.some.inj h
    simp only [EscrowRecovery.enqueue] at henqueue
    split at henqueue
    · simp at henqueue
    · simp only [EscrowRecovery.requireLink, bind_ok_iff, okOr_ok_iff, require_ok_iff,
        pure_ok_iff] at henqueue
      obtain ⟨_, ⟨found, hlink, _, hfits, _, hderived, _, rfl, rfl⟩, _, -, _, -, payload,
        hpayload, hjob⟩ := henqueue
      exact ⟨found, payload, hlink, ⟨hfits.2.2.2.2.2.1, hderived⟩, hpayload,
        (Enqueued.job.inj hjob).symm⟩
  next => simp at h

theorem asks_activation {view : ActivationView} {request : ScheduleEscrowPositionActivationInput}
    (h : services.asks (.activation view request) = some input) :
    ∃ found positionPda lotPda activationTimestamp key dueAt, view.link = some found ∧
      services.libraries.deriveUserPositionPda services.activation.programId request.marketPda
        request.owner = some positionPda ∧
      services.libraries.derivePositionLotPda services.activation.programId request.marketPda
        request.owner request.lotNonce = some lotPda ∧
      ActivationView.dueAt view = some activationTimestamp ∧
      createEscrowJobIdempotencyKey (EscrowActivation.identity services.activation request) =
        some key ∧
      input = relayerJob .positionActivation key services.activation.cluster
        services.activation.programId services.activation.custodyVersion found.marketId
        (some request.owner) (EscrowActivation.payload services.activation found request
          positionPda lotPda activationTimestamp) dueAt view.now := by
  simp only [Services.asks] at h
  split at h
  next job henqueue =>
    obtain rfl := Option.some.inj h
    simp only [EscrowActivation.schedule, bind_ok_iff, okOr_ok_iff, require_ok_iff] at henqueue
    obtain ⟨_, -, positionPda, hposition, lotPda, hlot, hjob⟩ := henqueue
    split at hjob
    · simp at hjob
    simp only [EscrowActivation.requireLink, EscrowActivation.requireLot,
      EscrowActivation.exactAccount, bind_ok_iff, okOr_ok_iff, require_ok_iff,
      pure_ok_iff] at hjob
    obtain ⟨_, -, _, ⟨found, hlink, _, -, _, -, _, -, rfl⟩, market, -, ⟨_, _⟩,
      ⟨_, -, _, ⟨account, haccount, _, -, rfl⟩, _, -, timestamp, htimestamp, _, -, _, -, _, -,
        hpair⟩, hjob⟩ := hjob
    obtain ⟨rfl, rfl⟩ := Prod.mk.inj hpair
    have hdue : ActivationView.dueAt view = some timestamp := by
      rw [ActivationView.dueAt, haccount, Option.bind_some, htimestamp]
    split at hjob
    · simp at hjob
    all_goals
      simp only [bind_ok_iff, okOr_ok_iff, pure_ok_iff] at hjob
      obtain ⟨key, hkey, dueAt, -, hjob⟩ := hjob
      exact ⟨found, positionPda, lotPda, timestamp, key, dueAt, hlink, hposition, hlot, hdue, hkey,
        (Scheduled.job.inj hjob).symm⟩
  next => simp at h

end

/-! ## keys -/

theorem kindText_inj {a b : RelayerJobKind} (h : a.text = b.text) : a = b := by
  cases a <;> cases b <;> first | rfl | exact absurd h (by decide)

theorem colon_kindText (kind : RelayerJobKind) : ':' ∉ kind.text.toList := by
  cases kind <;> decide

theorem colon_operation (request : EscrowRecoveryRequest) : ':' ∉ request.operation.toList := by
  cases request <;> simp [EscrowRecoveryRequest.operation]

theorem colon_decimal (n : Int) : ':' ∉ (toString n).toList := by
  intro h
  rcases mem_toString_int h with h | h
  · exact absurd h (by decide)
  · exact absurd h (by decide)

theorem toList_controlKey (request : EscrowControlRequest) (link : MarketLink) :
    (EscrowControl.idempotencyKey request link).toList =
      "escrow:v1:".toList ++ (request.kind.text.toList ++ ':' ::
        (link.marketPda.toList ++ ':' :: request.discriminator.toList)) := by
  change ("escrow:v1:" ++ request.kind.text ++ ":" ++ link.marketPda ++ ":" ++
    request.discriminator).toList = _
  simp

theorem toList_recoveryKey (libraries : EscrowLibraries) (request : EscrowRecoveryRequest)
    (link : MarketLink) :
    (EscrowRecovery.idempotencyKey libraries request link).toList =
      "escrow:v1:".toList ++ (request.jobKind.text.toList ++ ':' ::
        (request.operation.toList ++ ':' :: (link.marketPda.toList ++ ':' ::
          (EscrowRecovery.discriminator libraries request link).toList))) := by
  change ("escrow:v1:" ++ request.jobKind.text ++ ":" ++ request.operation ++ ":" ++
    link.marketPda ++ ":" ++ EscrowRecovery.discriminator libraries request link).toList = _
  simp

/-- A key begins with the kind of its job. -/
theorem kind_of_key {services : Services} {call : ServiceCall}
    {input : EnqueueRelayerJob ServicePayload} (h : services.asks call = some input) :
    ∃ rest, input.idempotencyKey.toList =
      "escrow:v1:".toList ++ (input.kind.text.toList ++ ':' :: rest) := by
  cases call with
  | control readiness link now request =>
      obtain ⟨found, -, -, -, -, rfl⟩ := asks_control h
      exact ⟨_, toList_controlKey request found⟩
  | recovery readiness link now request =>
      obtain ⟨found, payload, -, -, -, rfl⟩ := asks_recovery h
      exact ⟨_, toList_recoveryKey services.libraries request found⟩
  | activation view request =>
      obtain ⟨found, positionPda, lotPda, timestamp, key, dueAt, -, -, -, -, hkey, rfl⟩ :=
        asks_activation h
      simp only [createEscrowJobIdempotencyKey, Option.bind_eq_bind, Option.bind_eq_some_iff,
        Option.some.injEq] at hkey
      obtain ⟨_, -, segments, -, rfl⟩ := hkey
      refine ⟨(":".intercalate segments).toList, ?_⟩
      simp only [relayerJob, String.toList_append, List.append_assoc]
      rfl

theorem kind_eq_of_key {services : Services} {call call' : ServiceCall}
    {input input' : EnqueueRelayerJob ServicePayload} (h : services.asks call = some input)
    (h' : services.asks call' = some input')
    (hkey : input.idempotencyKey = input'.idempotencyKey) : input.kind = input'.kind := by
  obtain ⟨rest, hrest⟩ := kind_of_key h
  obtain ⟨rest', hrest'⟩ := kind_of_key h'
  have hlists := List.append_cancel_left (hrest.symm.trans ((congrArg _ hkey).trans hrest'))
  exact kindText_inj (String.toList_inj.mp
    (split_first_inj hlists (colon_kindText _) (colon_kindText _)).1)

/-- Addresses are written in base 58 and digests in hexadecimal. -/
structure Alphanumeric (libraries : EscrowLibraries) : Prop where
  addresses : ∀ program market address,
    libraries.deriveMarketPda program market = some address → ∀ c ∈ address.toList, c.isAlphanum
  digests : ∀ text, ∀ c ∈ (libraries.sha256Hex text).toList, c.isAlphanum

variable {text : String}

theorem colon_of_alphanum (h : ∀ c ∈ text.toList, c.isAlphanum) :
    ':' ∉ text.toList :=
  fun hmem => absurd (h _ hmem) (by decide)

theorem Linked.colon {libraries : EscrowLibraries} {programId marketPda : String}
    {link : MarketLink} (h : Linked libraries programId marketPda link)
    (halphanumeric : Alphanumeric libraries) : ':' ∉ link.marketPda.toList := by
  rw [h.market]
  exact colon_of_alphanum (halphanumeric.addresses _ _ _ h.derived)

variable {request' : EscrowControlRequest}

theorem control_key {request : EscrowControlRequest} {link link' : MarketLink}
    (h : EscrowControl.idempotencyKey request link = EscrowControl.idempotencyKey request' link')
    (hcolon : ':' ∉ link.marketPda.toList) (hcolon' : ':' ∉ link'.marketPda.toList) :
    link.marketPda = link'.marketPda ∧ request.discriminator = request'.discriminator := by
  have hlists := List.append_cancel_left ((toList_controlKey request link).symm.trans
    ((congrArg _ h).trans (toList_controlKey request' link')))
  have hrest := (split_first_inj hlists (colon_kindText _) (colon_kindText _)).2
  obtain ⟨hmarket, hdiscriminator⟩ := split_first_inj hrest hcolon hcolon'
  exact ⟨String.toList_inj.mp hmarket, String.toList_inj.mp hdiscriminator⟩

theorem recovery_key {libraries : EscrowLibraries} {request request' : EscrowRecoveryRequest}
    {link link' : MarketLink}
    (h : EscrowRecovery.idempotencyKey libraries request link =
      EscrowRecovery.idempotencyKey libraries request' link')
    (hcolon : ':' ∉ link.marketPda.toList) (hcolon' : ':' ∉ link'.marketPda.toList) :
    request.operation = request'.operation ∧ link.marketPda = link'.marketPda ∧
      EscrowRecovery.discriminator libraries request link =
        EscrowRecovery.discriminator libraries request' link' := by
  have hlists := List.append_cancel_left ((toList_recoveryKey libraries request link).symm.trans
    ((congrArg _ h).trans (toList_recoveryKey libraries request' link')))
  have hrest := (split_first_inj hlists (colon_kindText _) (colon_kindText _)).2
  obtain ⟨hoperation, hrest⟩ :=
    split_first_inj hrest (colon_operation request) (colon_operation request')
  obtain ⟨hmarket, hdiscriminator⟩ := split_first_inj hrest hcolon hcolon'
  exact ⟨String.toList_inj.mp hoperation, String.toList_inj.mp hmarket,
    String.toList_inj.mp hdiscriminator⟩

/-- A text that ends behind a colon is read back from its end. -/
theorem colon_last_inj {a b a' b' : String} (h : a ++ ":" ++ b = a' ++ ":" ++ b')
    (hb : ':' ∉ b.toList) (hb' : ':' ∉ b'.toList) : a = a' ∧ b = b' := by
  have hlists : a.toList ++ ':' :: b.toList = a'.toList ++ ':' :: b'.toList := by
    simpa using congrArg String.toList h
  obtain ⟨hleft, hright⟩ := split_last_inj hlists hb hb'
  exact ⟨String.toList_inj.mp hleft, String.toList_inj.mp hright⟩

def segment (value : String) : List Char := (toString value.length ++ "." ++ value).toList

/-- A segment says how long it is. -/
theorem segment_inj {value value' : String} {rest rest' : List Char}
    (h : segment value ++ ':' :: rest = segment value' ++ ':' :: rest') :
    value = value' ∧ rest = rest' := by
  have hdot : ∀ n : Nat, '.' ∉ Nat.toDigits 10 n := fun n hmem =>
    absurd (mem_toDigits_isDigit hmem) (by decide)
  have hlist : ∀ (value : String) (rest : List Char),
      segment value ++ ':' :: rest =
        Nat.toDigits 10 value.length ++ '.' :: (value.toList ++ ':' :: rest) := by
    intro value rest
    simp [segment]
  rw [hlist, hlist] at h
  obtain ⟨hlength, hrest⟩ := split_first_inj h (hdot _) (hdot _)
  have hlengths : value.toList.length = value'.toList.length := toDigits_inj hlength
  obtain ⟨hvalue, hrest⟩ := List.append_inj hrest hlengths
  exact ⟨String.toList_inj.mp hvalue, (List.cons.inj hrest).2⟩

theorem canonicalSegment_eq {value : String} (h : canonicalSegment value = some text) :
    text.toList = segment value := by
  simp only [canonicalSegment, Option.ite_none_right_eq_some, Option.some.injEq] at h
  rw [← h.2, segment]

theorem repr_inj_iff {m n : Int} : m.repr = n.repr ↔ m = n :=
  ⟨toString_int_inj, congrArg _⟩

theorem nonNegative_eq_iff {value : Int} :
    nonNegative value = some text ↔ 0 ≤ value ∧ text = toString value := by
  rw [nonNegative, Option.ite_none_left_eq_some, Option.some.injEq, Int.not_lt, eq_comm]

theorem outcomeText_inj_iff {a b : JobOutcome} : a.text = b.text ↔ a = b := by
  cases a <;> cases b <;> simp [JobOutcome.text]

theorem jobKindText_inj {a b : EscrowRelayerJobKind} (h : a.text = b.text) : a = b := by
  cases a <;> cases b <;> first | rfl | exact absurd h (by decide)

theorem colon_jobKindText (kind : EscrowRelayerJobKind) : ':' ∉ kind.text.toList := by
  cases kind <;> decide

/-- Segments with a colon behind each. -/
def closed (values : List String) : List Char := values.flatMap fun value => segment value ++ [':']

theorem closed_inj {values values' : List String} (h : closed values = closed values') :
    values = values' := by
  induction values generalizing values' with
  | nil => cases values' <;> simp_all [closed]
  | cons value values ih =>
      cases values' with
      | nil => simp [closed] at h
      | cons value' values' =>
          rw [closed, closed, List.flatMap_cons, List.flatMap_cons, List.append_assoc,
            List.append_assoc] at h
          obtain ⟨rfl, hrest⟩ := segment_inj h
          rw [ih hrest]

theorem toList_intercalate {values segments : List String} (hne : values ≠ [])
    (h : values.mapM canonicalSegment = some segments) :
    (":".intercalate segments).toList ++ [':'] = closed values := by
  induction values generalizing segments with
  | nil => exact absurd rfl hne
  | cons value values ih =>
      simp only [List.mapM_cons, Option.bind_eq_bind, Option.bind_eq_some_iff, Option.pure_def,
        Option.some.injEq] at h
      obtain ⟨text, htext, segments, hsegments, rfl⟩ := h
      rw [closed, List.flatMap_cons, ← canonicalSegment_eq htext, ← closed]
      cases values with
      | nil =>
          obtain rfl : segments = [] := by simpa using hsegments.symm
          simp [closed]
      | cons value' values =>
          have hne : segments ≠ [] := by
            rintro rfl
            simp [Option.bind_eq_some_iff] at hsegments
          rw [← ih (by simp) hsegments, String.intercalate_cons_of_ne_nil hne]
          simp

theorem identitySegments_ne_nil {identity : EscrowRelayerJobIdentity} {values : List String}
    (h : identitySegments identity = some values) : values ≠ [] := by
  rintro rfl
  obtain ⟨programId, marketPda, subject⟩ := identity
  cases subject <;> simp [identitySegments, Option.bind_eq_some_iff] at h

theorem toList_key {identity : EscrowRelayerJobIdentity} {key : String}
    (h : createEscrowJobIdempotencyKey identity = some key) :
    ∃ values, identitySegments identity = some values ∧ key.toList ++ [':'] =
      "escrow:v1:".toList ++ (identity.subject.kind.text.toList ++ ':' :: closed values) := by
  simp only [createEscrowJobIdempotencyKey, Option.bind_eq_bind, Option.bind_eq_some_iff,
    Option.some.injEq] at h
  obtain ⟨values, hvalues, segments, hsegments, rfl⟩ := h
  refine ⟨values, hvalues, ?_⟩
  rw [← toList_intercalate (identitySegments_ne_nil hvalues) hsegments]
  simp

theorem identity_eq {a b : EscrowRelayerJobIdentity} {values : List String}
    (hkind : a.subject.kind = b.subject.kind) (h : identitySegments a = some values)
    (h' : identitySegments b = some values) : a = b := by
  obtain ⟨programId, marketPda, subject⟩ := a
  obtain ⟨programId', marketPda', subject'⟩ := b
  cases subject <;> cases subject' <;> simp only [JobSubject.kind, reduceCtorEq] at hkind <;>
    simp [identitySegments, Option.bind_eq_some_iff, nonNegative_eq_iff] at h h' <;>
    grind [repr_inj_iff, outcomeText_inj_iff]

/-- The key of a job stands for its identity. -/
theorem key_inj {a b : EscrowRelayerJobIdentity} {key : String}
    (h : createEscrowJobIdempotencyKey a = some key)
    (h' : createEscrowJobIdempotencyKey b = some key) : a = b := by
  obtain ⟨values, hvalues, hkey⟩ := toList_key h
  obtain ⟨values', hvalues', hkey'⟩ := toList_key h'
  obtain ⟨hkind, hclosed⟩ := split_first_inj (List.append_cancel_left (hkey.symm.trans hkey'))
    (colon_jobKindText _) (colon_jobKindText _)
  obtain rfl := closed_inj hclosed
  exact identity_eq (jobKindText_inj (String.toList_inj.mp hkind)) hvalues hvalues'

/-- No two jobs have a key in common. -/
theorem idempotencyKey_identifies {a b : EscrowRelayerJobIdentity} {key : String}
    (h : createEscrowJobIdempotencyKey a = some key)
    (h' : createEscrowJobIdempotencyKey b = some key) :
    a.subject.kind = b.subject.kind ∧ a.programId = b.programId ∧ a.marketPda = b.marketPda ∧
      a.subject = b.subject := by
  obtain rfl := key_inj h h'
  exact ⟨rfl, rfl, rfl, rfl⟩

theorem idempotencyKey_identifies_freeze :
    createEscrowJobIdempotencyKey ⟨"1:2", "3.4", .freeze 5⟩ =
        some "escrow:v1:freeze:3.1:2:3.3.4:1.5" ∧
      EscrowRelayerJobKind.freeze = .freeze ∧ "1:2" = "1:2" ∧ "3.4" = "3.4" ∧
        JobSubject.freeze 5 = .freeze 5 := by
  have hkey : createEscrowJobIdempotencyKey ⟨"1:2", "3.4", .freeze 5⟩ =
      some "escrow:v1:freeze:3.1:2:3.3.4:1.5" := by decide +kernel
  exact ⟨hkey, idempotencyKey_identifies hkey hkey⟩

theorem activation_key {deployment : EscrowPositionActivationDeployment}
    {request request' : ScheduleEscrowPositionActivationInput} {key : String}
    (h : createEscrowJobIdempotencyKey (EscrowActivation.identity deployment request) = some key)
    (h' : createEscrowJobIdempotencyKey (EscrowActivation.identity deployment request') =
      some key) :
    request = request' := by
  have hidentity := key_inj h h'
  simp only [EscrowActivation.identity, EscrowRelayerJobIdentity.mk.injEq,
    JobSubject.positionActivation.injEq] at hidentity
  obtain ⟨-, hmarket, howner, hnonce, hepoch⟩ := hidentity
  obtain ⟨marketPda, owner, lotNonce, expectedEventEpoch⟩ := request
  obtain ⟨marketPda', owner', lotNonce', expectedEventEpoch'⟩ := request'
  simp_all

/-! ## two requests of one key -/

variable {now' : Int}

section

variable {services : Services} {input input' : EnqueueRelayerJob ServicePayload}

/-- The second job is the one that the first was made for. -/
def SameJob (input input' : EnqueueRelayerJob ServicePayload) : Prop :=
  SameRequest (created input "") input'

variable {now : Int}

theorem sameJob_relayerJob {kind kind' : RelayerJobKind} {key key' cluster programId : String}
    {custodyVersion : Int} {marketId marketId' : String} {owner owner' : Option String}
    {payload payload' : ServicePayload} {dueAt dueAt' : Int} :
    SameJob (relayerJob kind key cluster programId custodyVersion marketId owner payload dueAt now)
        (relayerJob kind' key' cluster programId custodyVersion marketId' owner' payload' dueAt'
          now') ↔
      kind = kind' ∧ marketId = marketId' ∧ owner = owner' ∧ payload = payload' := by
  simp [SameJob, SameRequest, created, relayerJob]

theorem control_payload_iff {deployment : EscrowControlDeployment} {request : EscrowControlRequest}
    {link link' : MarketLink} :
    EscrowControl.payload deployment request link = EscrowControl.payload deployment request' link' ↔
      request.operation = request'.operation ∧ link.marketId = link'.marketId ∧
        link.marketPda = link'.marketPda ∧ link.documentHashHex = link'.documentHashHex ∧
        link.oracleEpoch = link'.oracleEpoch ∧ request.ownMembers = request'.ownMembers ∧
        request.serializeAttestation = request'.serializeAttestation ∧
        request.signatures = request'.signatures := by
  simp [EscrowControl.payload, serializeSignatures_inj, and_assoc]

theorem control_same_iff {readiness' : EscrowReadinessReport} {link link' : Option MarketLink}
    {request : EscrowControlRequest} (halphanumeric : Alphanumeric services.libraries)
    (h : services.asks (.control readiness link now request) = some input)
    (h' : services.asks (.control readiness' link' now' request') = some input')
    (hkey : input.idempotencyKey = input'.idempotencyKey) :
    SameJob input input' ↔
      Repeats (.control readiness link now request) (.control readiness' link' now' request') := by
  have hkind := kind_eq_of_key h h' hkey
  obtain ⟨found, rfl, hlinked, hepoch, hchecks, rfl⟩ := asks_control h
  obtain ⟨found', rfl, hlinked', hepoch', hchecks', rfl⟩ := asks_control h'
  obtain ⟨hmarket, hdiscriminator⟩ :=
    control_key hkey (hlinked.colon halphanumeric) (hlinked'.colon halphanumeric)
  rw [sameJob_relayerJob, control_payload_iff]
  simp only [hmarket, true_and]
  cases request <;> cases request' <;> cases hkind
  case freezeMarket.freezeMarket _ expected attestation _ _ expected' attestation' _ =>
    simp only [EscrowControl.ownChecks, require_ok_iff] at hchecks hchecks'
    constructor
    · rintro ⟨-, hid, -, -, -, hdocument, -, -, hattestation, hsignatures⟩
      exact ⟨hid, hdocument, serializeFeedEvent_inj.mp hattestation, hsignatures⟩
    · rintro ⟨hid, hdocument, hattestation, hsignatures⟩
      obtain rfl : attestation = attestation' := hattestation
      obtain rfl : expected = expected' := by omega
      exact ⟨rfl, hid, rfl, rfl, hid, hdocument, hepoch.symm.trans hepoch', rfl, rfl, hsignatures⟩
  case unfreezeMarket.unfreezeMarket _ attestation _ _ attestation' _ =>
    constructor
    · rintro ⟨-, hid, -, -, -, hdocument, -, -, hattestation, hsignatures⟩
      exact ⟨hid, hdocument, serializeFeedEvent_inj.mp hattestation, hsignatures⟩
    · rintro ⟨hid, hdocument, hattestation, hsignatures⟩
      obtain rfl : attestation = attestation' := hattestation
      exact ⟨rfl, hid, rfl, rfl, hid, hdocument, hepoch.symm.trans hepoch', rfl, rfl, hsignatures⟩
  case invalidatePositionLot.invalidatePositionLot _ _ lotNonce lot attestation _ _ _ lotNonce'
      lot' attestation' _ =>
    obtain ⟨rfl, hnonce⟩ :=
      colon_last_inj hdiscriminator (colon_decimal lotNonce) (colon_decimal lotNonce')
    obtain rfl := toString_int_inj hnonce
    constructor
    · rintro ⟨-, hid, -, -, -, hdocument, -, hown, hattestation, hsignatures⟩
      have hlot : lot = lot' := by simpa [EscrowControlRequest.ownMembers] using hown
      exact ⟨hid, hdocument, hlot, serializeInvalidation_inj.mp hattestation, hsignatures⟩
    · rintro ⟨hid, hdocument, hlot, hattestation, hsignatures⟩
      obtain rfl : attestation = attestation' := hattestation
      obtain rfl : lot = lot' := hlot
      exact ⟨rfl, hid, rfl, rfl, hid, hdocument, hepoch.symm.trans hepoch', rfl, rfl, hsignatures⟩

variable {request : EscrowRecoveryRequest}

theorem common_inj {request' : EscrowRecoveryRequest} {link link' : MarketLink}
    {own own' : Members} :
    EscrowRecovery.common request link ++ own = EscrowRecovery.common request' link' ++ own' ↔
      request.operation = request'.operation ∧ link.marketPda = link'.marketPda ∧
        SameTerms link link' ∧ own = own' := by
  simp only [EscrowRecovery.common, List.cons_append, List.nil_append, List.cons.injEq,
    Prod.mk.injEq, Written.text.injEq, decimal_inj, assetText_inj, orNull_text_inj, true_and,
    SameTerms]
  tauto

theorem common_inj' {request request' : EscrowRecoveryRequest} {link link' : MarketLink} :
    EscrowRecovery.common request link = EscrowRecovery.common request' link' ↔
      request.operation = request'.operation ∧ link.marketPda = link'.marketPda ∧
        SameTerms link link' := by
  simpa using @common_inj request request' link link' [] []

/-- Requests that say nothing beside their key repeat each other as long as the link does. -/
theorem plain_iff {request' : EscrowRecoveryRequest} {link link' : MarketLink} (own : Members)
    (hkind : request.jobKind = request'.jobKind) (howner : request.owner = request'.owner)
    (hoperation : request.operation = request'.operation)
    (hmarket : link.marketPda = link'.marketPda) :
    (request.jobKind = request'.jobKind ∧ link.marketId = link'.marketId ∧
      request.owner = request'.owner ∧
      (⟨EscrowRecovery.common request link ++ own, none, none⟩ : ServicePayload) =
        ⟨EscrowRecovery.common request' link' ++ own, none, none⟩) ↔ SameTerms link link' := by
  simp only [hkind, howner, ServicePayload.mk.injEq, common_inj, hoperation, hmarket, true_and,
    and_true]
  exact ⟨fun h => h.2, fun h => ⟨h.1, h⟩⟩

/-- So do requests that name the owner in the key. -/
theorem plain_iff_of_owner {request' : EscrowRecoveryRequest} {link link' : MarketLink}
    {owner owner' : String} (hkind : request.jobKind = request'.jobKind)
    (howner : request.owner = some owner ∧ request'.owner = some owner')
    (hsame : owner = owner') (hoperation : request.operation = request'.operation)
    (hmarket : link.marketPda = link'.marketPda) :
    (request.jobKind = request'.jobKind ∧ link.marketId = link'.marketId ∧
      request.owner = request'.owner ∧
      (⟨EscrowRecovery.common request link ++ [("owner", .text owner)], none, none⟩ :
          ServicePayload) =
        ⟨EscrowRecovery.common request' link' ++ [("owner", .text owner')], none, none⟩) ↔
      SameTerms link link' := by
  subst hsame
  exact plain_iff _ hkind (howner.1.trans howner.2.symm) hoperation hmarket

theorem recovery_same_iff {readiness' : EscrowReadinessReport} {link link' : Option MarketLink}
    {request' : EscrowRecoveryRequest} (halphanumeric : Alphanumeric services.libraries)
    (h : services.asks (.recovery readiness link now request) = some input)
    (h' : services.asks (.recovery readiness' link' now' request') = some input')
    (hkey : input.idempotencyKey = input'.idempotencyKey) :
    SameJob input input' ↔
      Repeats (.recovery readiness link now request) (.recovery readiness' link' now' request') := by
  obtain ⟨found, payload, rfl, hlinked, hpayload, rfl⟩ := asks_recovery h
  obtain ⟨found', payload', rfl, hlinked', hpayload', rfl⟩ := asks_recovery h'
  obtain ⟨hoperation, hmarket, hdiscriminator⟩ :=
    recovery_key hkey (hlinked.colon halphanumeric) (hlinked'.colon halphanumeric)
  have hid : SameTerms found found' → found.marketId = found'.marketId := fun h => h.1
  rw [sameJob_relayerJob]
  -- a key tells the operation, so the two requests are of one kind
  cases request <;> cases request' <;>
    try (simp [EscrowRecoveryRequest.operation] at hoperation; done)
  case settleMarket.settleMarket | voidMarket.voidMarket =>
    obtain rfl := Except.ok.inj hpayload
    obtain rfl := Except.ok.inj hpayload'
    simp only [Repeats, RecoveryRepeats, EscrowRecoveryRequest.jobKind,
      EscrowRecoveryRequest.owner, ServicePayload.mk.injEq, Option.some.injEq, common_inj',
      hoperation, hmarket, serializeSettlement_inj, serializeVoid_inj, serializeSignatures_inj,
      true_and]
    exact ⟨fun h => h.2, fun h => ⟨hid h.1, h⟩⟩
  case closePositionLots.closePositionLots =>
    obtain ⟨rfl, -⟩ := colon_last_inj hdiscriminator
      (colon_of_alphanum (halphanumeric.digests _)) (colon_of_alphanum (halphanumeric.digests _))
    simp only [EscrowRecovery.payload, bind_ok_iff, pure_ok_iff] at hpayload hpayload'
    obtain ⟨_, -, rfl⟩ := hpayload
    obtain ⟨_, -, rfl⟩ := hpayload'
    simp only [Repeats, RecoveryRepeats, EscrowRecoveryRequest.jobKind,
      EscrowRecoveryRequest.owner, ServicePayload.mk.injEq, common_inj, List.cons.injEq,
      Prod.mk.injEq, Written.texts.injEq, decimals_inj, hoperation, hmarket, true_and, and_true]
    exact ⟨fun h => h.2, fun h => ⟨hid h.1, h⟩⟩
  case timeoutVoid.timeoutVoid | closeMarket.closeMarket =>
    obtain rfl := Except.ok.inj hpayload
    obtain rfl := Except.ok.inj hpayload'
    exact plain_iff [] rfl rfl hoperation hmarket
  all_goals
    obtain rfl := Except.ok.inj hpayload
    obtain rfl := Except.ok.inj hpayload'
    exact plain_iff_of_owner rfl ⟨rfl, rfl⟩ hdiscriminator hoperation hmarket

theorem activation_same_iff {view view' : ActivationView}
    {request request' : ScheduleEscrowPositionActivationInput}
    (h : services.asks (.activation view request) = some input)
    (h' : services.asks (.activation view' request') = some input')
    (hkey : input.idempotencyKey = input'.idempotencyKey) :
    SameJob input input' ↔ Repeats (.activation view request) (.activation view' request') := by
  obtain ⟨found, position, lot, timestamp, key, dueAt, hlink, hposition, hlot, hdue, hk, rfl⟩ :=
    asks_activation h
  obtain ⟨found', position', lot', timestamp', key', dueAt', hlink', hposition', hlot', hdue', hk',
    rfl⟩ := asks_activation h'
  obtain rfl : key = key' := hkey
  obtain rfl := activation_key hk hk'
  obtain rfl := Option.some.inj (hposition.symm.trans hposition')
  obtain rfl := Option.some.inj (hlot.symm.trans hlot')
  rw [sameJob_relayerJob]
  simp only [Repeats, hdue, hdue', hlink, hlink', Option.mem_def, Option.some.injEq,
    exists_eq_left']
  simp only [EscrowActivation.payload, ServicePayload.mk.injEq, List.cons.injEq, Prod.mk.injEq,
    Written.text.injEq, decimal_inj, true_and, and_true]
  tauto

theorem kind_ne_jobKind (request : EscrowControlRequest) (request' : EscrowRecoveryRequest) :
    request.kind ≠ request'.jobKind := by
  cases request <;> cases request' <;>
    simp [EscrowControlRequest.kind, EscrowRecoveryRequest.jobKind]

theorem kind_ne_activation (request : EscrowControlRequest) :
    request.kind ≠ .positionActivation := by
  cases request <;> simp [EscrowControlRequest.kind]

theorem jobKind_ne_activation (request : EscrowRecoveryRequest) :
    request.jobKind ≠ .positionActivation := by
  cases request <;> simp [EscrowRecoveryRequest.jobKind]

variable {call : ServiceCall}

/-- What a service asks for is of its own kinds. -/
theorem kind_of_asks (h : services.asks call = some input) :
    input.kind = match call with
      | .control _ _ _ request => request.kind
      | .recovery _ _ _ request => request.jobKind
      | .activation _ _ => .positionActivation := by
  cases call with
  | control =>
      obtain ⟨_, -, -, -, -, rfl⟩ := asks_control h
      rfl
  | recovery =>
      obtain ⟨_, _, -, -, -, rfl⟩ := asks_recovery h
      rfl
  | activation =>
      obtain ⟨_, _, _, _, _, _, -, -, -, -, -, rfl⟩ := asks_activation h
      rfl

inductive Service
  | control
  | recovery
  | activation
  deriving DecidableEq

def ServiceCall.service : ServiceCall → Service
  | control .. => .control
  | recovery .. => .recovery
  | activation .. => .activation

variable {call' : ServiceCall}

/-- A key is of one service. -/
theorem service_of_key (h : services.asks call = some input)
    (h' : services.asks call' = some input')
    (hkey : input.idempotencyKey = input'.idempotencyKey) : call.service = call'.service := by
  have hkind := kind_eq_of_key h h' hkey
  rw [kind_of_asks h, kind_of_asks h'] at hkind
  cases call <;> cases call' <;>
    first
    | rfl
    | exact absurd hkind (kind_ne_jobKind _ _)
    | exact absurd hkind (kind_ne_activation _)
    | exact absurd hkind (jobKind_ne_activation _)
    | exact absurd hkind.symm (kind_ne_jobKind _ _)
    | exact absurd hkind.symm (kind_ne_activation _)
    | exact absurd hkind.symm (jobKind_ne_activation _)

/-- Two requests of one key ask for the same job when the second repeats the first. -/
theorem same_iff (halphanumeric : Alphanumeric services.libraries)
    (h : services.asks call = some input) (h' : services.asks call' = some input')
    (hkey : input.idempotencyKey = input'.idempotencyKey) :
    SameJob input input' ↔ Repeats call call' := by
  have hservice := service_of_key h h' hkey
  cases call <;> cases call' <;> cases hservice
  case control.control => exact control_same_iff halphanumeric h h' hkey
  case recovery.recovery => exact recovery_same_iff halphanumeric h h' hkey
  case activation.activation => exact activation_same_iff h h' hkey

/-- The custody version that a service writes. -/
def Services.custodyVersion (services : Services) : Service → Int
  | .control => services.control.custodyVersion
  | .recovery => services.recovery.custodyVersion
  | .activation => services.activation.custodyVersion

theorem policyValid_asks (h : services.asks call = some input) :
    PolicyValid input ↔ 0 < services.custodyVersion call.service := by
  cases call with
  | control =>
      obtain ⟨_, -, -, -, -, rfl⟩ := asks_control h
      simp [PolicyValid, relayerJob, Services.custodyVersion, ServiceCall.service]
  | recovery =>
      obtain ⟨_, _, -, -, -, rfl⟩ := asks_recovery h
      simp [PolicyValid, relayerJob, Services.custodyVersion, ServiceCall.service]
  | activation =>
      obtain ⟨_, _, _, _, _, _, -, -, -, -, -, rfl⟩ := asks_activation h
      simp [PolicyValid, relayerJob, Services.custodyVersion, ServiceCall.service]

theorem policyValid_of_key (h : services.asks call = some input)
    (h' : services.asks call' = some input') (hkey : input.idempotencyKey = input'.idempotencyKey)
    (hvalid : PolicyValid input) :
    PolicyValid input' := by
  rw [policyValid_asks h', ← service_of_key h h' hkey, ← policyValid_asks h]
  exact hvalid

end

/-! ## the row of a key -/

section

variable {π : Type}

theorem sameRequest_moves {job job' : RelayerJob π} {call : Call π} (h : Jobs.Moves job call job')
    (input : EnqueueRelayerJob π) : SameRequest job' input ↔ SameRequest job input := by
  cases h <;> exact Iff.rfl

variable [DecidableEq π]

/-- A row goes on being the row of the request that it was made for. -/
theorem row_of_runs {key : String} {slot after : Slot π} {calls : List (Call π)}
    (h : Runs key slot calls after) (hs : slot.Sound) {job : RelayerJob π}
    (hrow : slot.row = some job) :
    after.Sound ∧ ∃ job', after.row = some job' ∧
      ∀ input, SameRequest job' input ↔ SameRequest job input := by
  induction h with
  | refl => exact ⟨hs, job, hrow, fun _ => Iff.rfl⟩
  | snoc _ hstep ih =>
      obtain ⟨hsound, job', hrow', hsame⟩ := ih
      obtain ⟨job'', hrow'', hmoves⟩ := hstep.moves hrow'
      exact ⟨hsound.step hstep, job'', hrow'', fun input =>
        (sameRequest_moves hmoves input).trans (hsame input)⟩

theorem enqueue_new {input : EnqueueRelayerJob π} (id : String) (hvalid : PolicyValid input) :
    escrowRelayerEnqueue true id none input = .ok (created input id) := by
  rw [escrowRelayerEnqueue, require_pos hvalid]
  rfl

theorem conflict_iff {job : RelayerJob π} {input : EnqueueRelayerJob π} (hvalid : PolicyValid input)
    (admitted : Bool) (id : String) :
    escrowRelayerEnqueue admitted id (some job) input = .error .idempotencyConflict ↔
      ¬ SameRequest job input := by
  simp only [escrowRelayerEnqueue, require_pos hvalid, ok_bind, bind_error_iff,
    require_error_iff, pure_ne_error, and_false, exists_false, or_false, and_true]

/-- A job that is over can be taken up again: it is recovery work of which nothing is stored,
and its lease has run out, or there is a transaction to look after. -/
def Revivable (job : RelayerJob π) (now : Int) : Prop :=
  (rearmable job.kind ∧ job.rawTransaction = none ∧
      (job.state = .leased → job.leaseExpiresAt.any (· ≤ now))) ∨
    (job.state ≠ .dead ∧ job.rawTransaction.isSome)

theorem revived_iff {job : RelayerJob π} (hs : Sound job) (hcomplete : job.state ≠ .complete)
    (hover : job.state = .dead ∨ job.attempts ≥ job.maxAttempts) {input : EnqueueRelayerJob π}
    (hvalid : PolicyValid input) (admitted : Bool) (id : String) :
    (∃ job', escrowRelayerEnqueue admitted id (some job) input = .ok job' ∧ Selectable job') ↔
      SameRequest job input ∧ Revivable job input.now := by
  simp only [escrowRelayerEnqueue, require_pos hvalid, ok_bind, bind_ok_iff, require_ok_iff,
    pure_ok_iff]
  constructor
  · rintro ⟨job', ⟨_, hsame, rfl⟩, hselect⟩
    refine ⟨hsame, ?_⟩
    by_cases hrearms : Rearms job input.now
    · obtain ⟨hkind, -, -, -, -, -, hlease, hraw, -⟩ := hrearms
      exact .inl ⟨hkind, hraw, fun hstate => hlease.resolve_left (not_not.mpr hstate)⟩
    · rw [if_neg hrearms] at hselect
      obtain ⟨now, -, hattempts, hstate⟩ := hselect 0
      have hdead : job.state ≠ .dead := by
        intro hdead
        simp [hdead] at hstate
      have hmax := hover.resolve_left hdead
      exact .inr ⟨hdead, (hattempts.resolve_left (by omega)).1⟩
  · rintro ⟨hsame, ⟨hkind, hraw, hlease⟩ | ⟨hdead, hraw⟩⟩
    · have hrearms := hs.rearms hcomplete hover hraw hkind hlease
      refine ⟨_, ⟨(), hsame, rfl⟩, ?_⟩
      rw [if_pos hrearms]
      exact hs.selectable_rearmed input.dueAt input.now
    · have hrearms : ¬ Rearms job input.now := by
        rintro ⟨-, -, -, -, -, -, -, hnone, -⟩
        simp [hnone] at hraw
      refine ⟨_, ⟨(), hsame, rfl⟩, ?_⟩
      rw [if_neg hrearms]
      exact hs.selectable hcomplete hdead fun hexhausted => by simp [hexhausted.2] at hraw

end

/-- **What a key captures**: where two requests of the services have one key, the second is
refused as a conflict, at any time after the first has made the row, unless it repeats what the
key leaves out; and asking again for a job that died or used up its attempts leaves one that a
lease may take when the request repeats the first and the job is recovery work of which nothing
is stored, or has a transaction to look after. -/
theorem keys_capture {services : Services} (halphanumeric : Alphanumeric services.libraries)
    {call call' : ServiceCall} {input input' : EnqueueRelayerJob ServicePayload}
    (h : services.asks call = some input) (h' : services.asks call' = some input')
    (hkey : input.idempotencyKey = input'.idempotencyKey) {admitted : Bool} {id : String}
    {made : RelayerJob ServicePayload}
    (hmade : escrowRelayerEnqueue admitted id none input = .ok made)
    {calls : List (Call ServicePayload)} {slot : Slot ServicePayload}
    (hruns : Runs input.idempotencyKey { row := some made, tokens := [] } calls slot) :
    ∃ job, slot.row = some job ∧
      (∀ admitted id, escrowRelayerEnqueue admitted id (some job) input' =
        .error .idempotencyConflict ↔ ¬ Repeats call call') ∧
      (job.state ≠ .complete → job.state = .dead ∨ job.attempts ≥ job.maxAttempts →
        ∀ admitted id,
          (∃ job', escrowRelayerEnqueue admitted id (some job) input' = .ok job' ∧
            Selectable job') ↔ Repeats call call' ∧ Revivable job input'.now) := by
  simp only [escrowRelayerEnqueue, bind_ok_iff, require_ok_iff, pure_ok_iff] at hmade
  obtain ⟨_, hvalid, _, -, rfl⟩ := hmade
  have hvalid' := policyValid_of_key h h' hkey hvalid
  have hmade : ({ row := some (created input id), tokens := [] } : Slot ServicePayload).Sound := by
    constructor
    · intro job hrow
      obtain rfl := Option.some.inj hrow
      exact sound_created hvalid
    · intro job token hrow htoken
      obtain rfl := Option.some.inj hrow
      simp [created] at htoken
  obtain ⟨hsound, job, hrow, hsame⟩ := row_of_runs hruns hmade rfl
  have hrepeats : SameRequest job input' ↔ Repeats call call' :=
    (hsame input').trans (same_iff halphanumeric h h' hkey)
  refine ⟨job, hrow, fun admitted id => ?_, fun hcomplete hover admitted id => ?_⟩
  · rw [conflict_iff hvalid', hrepeats]
  · rw [revived_iff (hsound.row job hrow) hcomplete hover hvalid', hrepeats]

namespace Sample

def zeroKey : String := String.ofList (List.replicate 32 '1')

def marketAddress : String := "GZmct2gG5ftyP7HTQGVJYEf5zypNFH9qd5SNMB1WCFFG"

def marketBytes : List UInt8 :=
  [231, 68, 87, 24, 121, 169, 37, 68, 29, 84, 206, 152, 22, 109, 155, 131, 49, 125, 238, 59, 117,
    47, 215, 215, 52, 35, 100, 38, 119, 221, 53, 59]

/-- What the libraries answer about one market of the program at the zero key. -/
def libraries : EscrowLibraries where
  deriveMarketPda program market :=
    if program = zeroKey ∧ market = "00000000-0000-4000-8000-000000000001" then some marketAddress
    else none
  deriveUserPositionPda _ _ _ := none
  derivePositionLotPda _ _ _ _ := none
  base58Decode text :=
    if text = zeroKey then some (List.replicate 32 0)
    else if text = marketAddress then some marketBytes else none
  sha256Hex _ := ""

theorem alphanumeric_libraries : Alphanumeric libraries where
  addresses program market address h := by
    simp only [libraries, Option.ite_none_right_eq_some, Option.some.injEq] at h
    rw [← h.2]
    exact List.all_iff_forall_prop.mp (by decide +kernel)
  digests text c h := by simp [libraries] at h

def services : Services where
  libraries := libraries
  control := { cluster := "devnet", genesisHash := zeroKey, programId := zeroKey,
               custodyVersion := 1, feedOperatorAuthority := zeroKey }
  recovery := { cluster := "devnet", genesisHash := zeroKey, programId := zeroKey,
                custodyVersion := 1 }
  activation := { cluster := "devnet", genesisHash := zeroKey, programId := zeroKey,
                  custodyVersion := 1, relayerFeePayer := zeroKey }

def link : MarketLink where
  marketId := "00000000-0000-4000-8000-000000000001"
  custodyMode := "escrow"
  custodyVersion := 1
  cluster := "devnet"
  genesisHash := zeroKey
  programId := zeroKey
  marketPda := marketAddress
  vaultPda := zeroKey
  asset := .sol
  mintPubkey := none
  documentHashHex := hexText (List.replicate 32 171)
  oracleEpoch := 3
  eventEpoch := 5
  ratioMilli := 1500
  chainState := .open
  finalized := true
  projectionStale := false

def signatures : List AttestationSignature :=
  [⟨List.replicate 32 1, List.replicate 64 0⟩, ⟨List.replicate 32 2, List.replicate 64 0⟩]

/-- An attestation that is issued at a time and lasts five minutes. -/
def common (issuedAt : Int) : AttestationCommonV1 where
  clusterGenesisHash := List.replicate 32 0
  escrowProgramId := List.replicate 32 0
  marketPda := marketBytes
  marketDocumentHash := List.replicate 32 171
  fixtureId := 77
  oracleSetEpoch := 3
  issuedAt := issuedAt
  expiresAt := issuedAt + 300
  evidenceHash := List.replicate 32 7

/-- One event, attested at one time or another. -/
def freeze (issuedAt : Int) : ServiceCall :=
  .control .ready (some link) 0 (.freezeMarket marketAddress 5
    { common issuedAt with eventKind := .freeze, eventEpoch := 6, decidingSequence := 88,
                           observedAt := 100 } signatures)

def voids : ServiceCall :=
  .recovery .ready (some link) 0 (.voidMarket marketAddress
    { common 100 with reason := .abandoned, decidingSequence := 91 } signatures)

def lease : RelayerLease := ⟨"worker", "token"⟩

def prepared : PreparedTransaction where
  rawTransaction := "raw"
  expectedSignature := "signature"
  lastValidBlockHeight := 100
  transactionMessageHashHex := String.ofList (List.replicate 64 'a')

/-- A job whose transaction lands and fails. -/
def failing : List (Call ServicePayload) :=
  [.lease "worker" "token" 0, .recordSigned lease 0 prepared, .markSubmitted lease 0 "signature",
    .deadLetter lease "signature_failed" 1000000]

/-- The row of a job that is asked for, after its transaction has failed. -/
def failed (input : EnqueueRelayerJob ServicePayload) : RelayerJob ServicePayload :=
  (Call.deadLetter lease "signature_failed" 1000000).run
    ((Call.markSubmitted lease 0 "signature").run
      ((Call.recordSigned lease 0 prepared).run
        (escrowRelayerLease "worker" "token" 0 (created input "job"))))

theorem runs_failing (key : String) (input : EnqueueRelayerJob ServicePayload)
    (hdue : input.dueAt = 0) (hmax : input.maxAttempts = 12) :
    Runs key { row := some (created input "job"), tokens := [] } failing
      { row := some (failed input), tokens := ["token"] } := by
  have hcandidate : Candidate (created input "job") 0 := by
    simp [Candidate, created, hdue, hmax]
  have leased : Runs key ⟨some (created input "job"), []⟩ [.lease "worker" "token" 0]
      ⟨some (escrowRelayerLease "worker" "token" 0 (created input "job")), ["token"]⟩ :=
    .single (.lease "worker" "token" 0 rfl hcandidate (by decide) (by simp))
  have signed := Run.snoc leased (.called (.recordSigned lease 0 prepared) rfl)
  have submitted := Run.snoc signed (.called (.markSubmitted lease 0 "signature") rfl)
  exact Run.snoc submitted (.called (.deadLetter lease "signature_failed" 1000000) rfl)

end Sample

open Captured.Sample in
/-- A void whose transaction landed and failed is dead, and asking for it again changes
nothing. -/
theorem failed_void_stays_dead :
    ∃ input job, services.asks voids = some input ∧
      Runs input.idempotencyKey ⟨some (created input "job"), []⟩ failing ⟨some job, ["token"]⟩ ∧
      job.state = .dead ∧ ∀ admitted id, ¬ ∃ job',
        escrowRelayerEnqueue admitted id (some job) input = .ok job' ∧ Selectable job' := by
  obtain ⟨input, hasks⟩ := Option.isSome_iff_exists.mp
    (show (services.asks voids).isSome by decide +kernel)
  obtain ⟨found, payload, -, -, -, hinput⟩ := asks_recovery hasks
  have hmade := enqueue_new "job" ((policyValid_asks hasks).mpr (by decide))
  have hruns := runs_failing input.idempotencyKey input (by rw [hinput]; rfl) (by rw [hinput]; rfl)
  obtain ⟨job, hrow, -, hrevived⟩ :=
    keys_capture alphanumeric_libraries hasks hasks rfl hmade hruns
  obtain rfl := Option.some.inj hrow
  refine ⟨input, _, hasks, hruns, rfl, fun admitted id hselect => ?_⟩
  have hdead : (failed input).state = .dead := rfl
  obtain ⟨-, hrevivable⟩ := (hrevived (by simp [hdead]) (.inl hdead) admitted id).mp hselect
  have hstored : (failed input).rawTransaction = some "raw" := rfl
  simp [Revivable, hdead, hstored] at hrevivable

open Captured.Sample in
/-- A freeze that is attested again, with another lifetime, has the key of the first and is
refused. -/
theorem reattested_freeze_conflicts :
    ∃ input input' made, services.asks (freeze 100) = some input ∧
      services.asks (freeze 700) = some input' ∧ input.idempotencyKey = input'.idempotencyKey ∧
      escrowRelayerEnqueue true "job" none input = .ok made ∧
      ∀ admitted id, escrowRelayerEnqueue admitted id (some made) input' =
        .error .idempotencyConflict := by
  obtain ⟨input, hasks⟩ := Option.isSome_iff_exists.mp
    (show (services.asks (freeze 100)).isSome by decide +kernel)
  obtain ⟨input', hasks'⟩ := Option.isSome_iff_exists.mp
    (show (services.asks (freeze 700)).isSome by decide +kernel)
  have hkeys : (services.asks (freeze 100)).map (·.idempotencyKey) =
      (services.asks (freeze 700)).map (·.idempotencyKey) := by decide +kernel
  have hkey : input.idempotencyKey = input'.idempotencyKey := by
    simpa [hasks, hasks'] using hkeys
  have hmade := enqueue_new "job" ((policyValid_asks hasks).mpr (by decide))
  refine ⟨input, input', _, hasks, hasks', hkey, hmade, fun admitted id => ?_⟩
  rw [conflict_iff ((policyValid_asks hasks').mpr (by decide))]
  intro hsame
  have hrepeats := (same_iff alphanumeric_libraries hasks hasks' hkey).mp hsame
  simp [Repeats, freeze, ControlRepeats, common] at hrepeats

end CalledIt.Relayer.Captured
