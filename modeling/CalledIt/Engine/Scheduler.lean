import CalledIt.Engine.Reduce
import CalledIt.Sdk.Attestations
import CalledIt.Sdk.Evidence

/-!
# CalledIt.Engine.Scheduler

From feed events to attestation requests
(`apps/engine/src/escrow/event-workflow-scheduler.ts`,
`event-attestations.ts`).

The scheduler reduces every event of a live market, loads the market's state on
chain when the reduction matters to it, and enqueues the attestations that the
effects call for.  What it reads from outside (the database's positions, the
market's context, its position lots) is a parameter of the step, one value for
each event.
-/

namespace CalledIt.Engine.Scheduler

open Lib
open Escrow (Bytes VoidReason FeedEventKind)
open Sdk (JsError JsResult AttestationCommonV1 FeedEventAttestationV1
  PositionInvalidationAttestationV1 SettlementAttestationV1 VoidAttestationV1 ClaimOutcome
  phaseText normalizedEscrowEvidenceHashV2 escrowEvidenceSequenceCommitmentV2
  settlementEvidenceHashV2)

/-! ## attestations of an event -/

/-- `EscrowAttestationMarketBinding`, its addresses decoded. -/
structure MarketBinding where
  marketPda : List UInt8
  marketDocumentHash : List UInt8
  fixtureId : Int
  oracleSetEpoch : Int
  eventEpoch : Int

/-- `EscrowAttestationDeploymentBinding` with the lifetime of an attestation. -/
structure Deployment where
  genesis : List UInt8
  program : List UInt8
  ttlSeconds : Int

section Builders

variable (sha256 : List UInt8 → Bytes 32) (deployment : Deployment) (market : MarketBinding)

def common (event : MatchEvent) (evidenceHash : List UInt8) : JsResult AttestationCommonV1 := do
  require (¬ (deployment.genesis.length ≠ 32 ∨ deployment.program.length ≠ 32 ∨
      market.marketPda.length ≠ 32 ∨ market.fixtureId ≠ event.fixtureId ∨
      deployment.ttlSeconds ≤ 0))
    (JsError.error "escrow attestation binding mismatch")
  let issuedAt := event.receivedAtMs / 1000
  return {
    clusterGenesisHash := deployment.genesis
    escrowProgramId := deployment.program
    marketPda := market.marketPda
    marketDocumentHash := market.marketDocumentHash
    fixtureId := market.fixtureId
    oracleSetEpoch := market.oracleSetEpoch
    issuedAt
    expiresAt := issuedAt + deployment.ttlSeconds
    evidenceHash }

def buildEscrowFeedEventAttestation (event : MatchEvent) (eventKind : FeedEventKind) :
    JsResult FeedEventAttestationV1 := do
  let base ← common deployment market event (normalizedEscrowEvidenceHashV2 sha256 event)
  return { base with
    eventKind
    eventEpoch := market.eventEpoch + 1
    decidingSequence := event.seq
    observedAt := event.tsMs / 1000 }

/-- An open or active lot of a position (`EscrowWorkflowPositionLot`). -/
structure PositionLot where
  positionLotPda : List UInt8
  lotNonce : Int
  placedTimestamp : Int
  observedEventEpoch : Int
  activationTimestamp : Option Int

def buildEscrowPositionInvalidationAttestation (event : MatchEvent) (lot : PositionLot)
    (invalidatedEventEpoch : Int) : JsResult PositionInvalidationAttestationV1 := do
  let base ← common deployment market event (normalizedEscrowEvidenceHashV2 sha256 event)
  return { base with
    positionLotPda := lot.positionLotPda
    lotNonce := lot.lotNonce
    observedEventEpoch := lot.observedEventEpoch
    invalidatedEventEpoch
    decidingSequence := event.seq }

def buildEscrowSettlementAttestation (event : MatchEvent) (outcome : ClaimOutcome)
    (decidingSequence : Nat) (evidenceSequences : List Nat) : JsResult SettlementAttestationV1 := do
  let evidenceSequenceCommitment :=
    escrowEvidenceSequenceCommitmentV2 sha256 event.fixtureId evidenceSequences
  let normalizedEvidenceRoot := normalizedEscrowEvidenceHashV2 sha256 event
  let base ← common deployment market event
    (settlementEvidenceHashV2 sha256 evidenceSequenceCommitment normalizedEvidenceRoot)
  return { base with
    outcome
    decidingSequence
    terminalPhase := phaseText event.phase
    regulationScore := match event.score.p1Goals90, event.score.p2Goals90 with
      | some home, some away => some ⟨home, away⟩
      | _, _ =>
          if event.phase = .f then some ⟨event.score.p1.goals, event.score.p2.goals⟩ else none
    fullMatchScore := some ⟨event.score.p1.goals, event.score.p2.goals⟩
    evidenceSequenceCommitment
    normalizedEvidenceRoot }

def buildEscrowVoidAttestation (event : MatchEvent) (reason : VoidReason)
    (decidingSequence : Nat) : JsResult VoidAttestationV1 := do
  let base ← common deployment market event (normalizedEscrowEvidenceHashV2 sha256 event)
  return { base with
    reason
    decidingSequence }

end Builders

/-! ## requests -/

/-- `EscrowUnsignedWorkflowRequest`. -/
inductive WorkflowRequest
  | freezeMarket (attestation : FeedEventAttestationV1)
  | unfreezeMarket (attestation : FeedEventAttestationV1)
  | invalidatePositionLot (attestation : PositionInvalidationAttestationV1)
  | settleMarket (attestation : SettlementAttestationV1)
  | voidMarket (attestation : VoidAttestationV1)

inductive ChainState
  | open
  | frozen
  deriving DecidableEq, Repr

/-- What `loadMarket` and `positionLots` answer for a live market. -/
structure WorkflowContext where
  binding : MarketBinding
  chainState : ChainState
  lots : List PositionLot

def isPriceMoving (event : MatchEvent) : Bool :=
  event.confirmed ∧ (event.kind = .goal ∨ (event.kind = .card ∧ event.card = some .red))

def voidReason (event : MatchEvent) : VoidReason :=
  if event.phase = .can then .cancelled
  else if event.phase = .abd then .abandoned
  else if event.phase = .covLost ∨ event.kind = .coverageWarning then .coverageLoss
  else .undecidable

/-- The claim's outcome, when the effect is not itself a void. -/
def claimOutcome : SettlementOutcome → Option ClaimOutcome
  | .claimWon => some .claimWon
  | .claimLost => some .claimLost
  | .void => none

section Step

variable (sha256 : List UInt8 → Bytes 32) (deployment : Deployment)

/-- A lot placed after a price-moving moment that it has not observed. -/
def snipes (event : MatchEvent) (invalidatedEventEpoch : Int) (lot : PositionLot) : Bool :=
  ¬ (lot.activationTimestamp = none ∨ lot.observedEventEpoch ≥ invalidatedEventEpoch ∨
    lot.placedTimestamp * 1000 ≤ event.tsMs)

def freezeRequest (context : WorkflowContext) (event : MatchEvent) : JsResult WorkflowRequest := do
  return .freezeMarket (← buildEscrowFeedEventAttestation sha256 deployment context.binding event
    .freeze)

def invalidationRequest (context : WorkflowContext) (event : MatchEvent)
    (invalidatedEventEpoch : Int) (lot : PositionLot) : JsResult WorkflowRequest := do
  return .invalidatePositionLot (← buildEscrowPositionInvalidationAttestation sha256 deployment
    context.binding event lot invalidatedEventEpoch)

/-- A price-moving event freezes an open market and invalidates the lots that it
snipes. -/
def protectPriceMovingLots (context : WorkflowContext) (event : MatchEvent) :
    JsResult (List WorkflowRequest) :=
  if !isPriceMoving event then
    .ok []
  else if context.chainState = .open then do
    let invalidatedEventEpoch := context.binding.eventEpoch + 1
    let freeze ← freezeRequest sha256 deployment context event
    let invalidations ← (context.lots.filter (snipes event invalidatedEventEpoch)).mapM
      (invalidationRequest sha256 deployment context event invalidatedEventEpoch)
    return freeze :: invalidations
  else
    let invalidatedEventEpoch := context.binding.eventEpoch
    (context.lots.filter (snipes event invalidatedEventEpoch)).mapM
      (invalidationRequest sha256 deployment context event invalidatedEventEpoch)

/-- The terminal request for an outcome reached at `decidingSeq`. -/
def terminalRequest (context : WorkflowContext) (event : MatchEvent)
    (outcome : SettlementOutcome) (decidingSeq : Nat) (evidenceSeqs : List Nat) :
    JsResult WorkflowRequest :=
  match claimOutcome outcome with
  | none => do
      return .voidMarket (← buildEscrowVoidAttestation sha256 deployment context.binding event
        .undecidable decidingSeq)
  | some outcome => do
      return .settleMarket (← buildEscrowSettlementAttestation sha256 deployment context.binding
        event outcome decidingSeq evidenceSeqs)

def applyEffect (context : WorkflowContext) (event : MatchEvent) (effect : MarketEffect) :
    JsResult (List WorkflowRequest) :=
  match effect with
  | .freeze _ =>
      if context.chainState = .open ∧ !isPriceMoving event then do
        return [← freezeRequest sha256 deployment context event]
      else .ok []
  | .unfreeze =>
      if context.chainState = .frozen then do
        return [.unfreezeMarket (← buildEscrowFeedEventAttestation sha256 deployment
          context.binding event .unfreeze)]
      else .ok []
  | .settle outcome decidingSeq evidenceSeqs => do
      return [← terminalRequest sha256 deployment context event outcome decidingSeq evidenceSeqs]
  | .void _ => do
      return [.voidMarket (← buildEscrowVoidAttestation sha256 deployment context.binding event
        (voidReason event) event.seq)]
  | .voidPositions _ | .activatePositions _ | .activateMarket | .repriceHint => .ok []

/-- A candidate that was not there before. -/
def newPending (previous current : Option PendingSettlement) : Option PendingSettlement :=
  match previous, current with
  | none, current => current
  | some previous, some current =>
      if previous.decidingSeq ≠ current.decidingSeq ∨
        previous.debounceUntilMs ≠ current.debounceUntilMs then some current else none
  | some _, none => none

def persistNewPending (context : WorkflowContext) (event : MatchEvent)
    (previous current : Option PendingSettlement) : JsResult (List WorkflowRequest) :=
  match newPending previous current with
  | none => .ok []
  | some pending => do
      return [← terminalRequest sha256 deployment context event pending.outcome
        pending.decidingSeq pending.evidenceSeqs]

def isWorkflowEffect : MarketEffect → Bool
  | .freeze _ | .unfreeze | .settle _ _ _ | .void _ => true
  | _ => false

def requiresWorkflowContext (effects : List MarketEffect) (event : MatchEvent)
    (previous current : Option PendingSettlement) : Bool :=
  isPriceMoving event ∨ (newPending previous current).isSome ∨ effects.any isWorkflowEffect

/-- The requests of one reduced event. -/
def requestsFor (context : WorkflowContext) (event : MatchEvent) (before : MarketState)
    (result : ReduceResult) : JsResult (List WorkflowRequest) := do
  let protection ← protectPriceMovingLots sha256 deployment context event
  let effects ← result.effects.mapM (applyEffect sha256 deployment context event)
  let candidate ← persistNewPending sha256 deployment context event before.pendingSettlement
    result.state.pendingSettlement
  return protection ++ effects.flatten ++ candidate

/-! ## one market -/

/-- What the scheduler keeps for a market, and the requests it has enqueued. -/
structure SchedulerState where
  cached : Option MarketState
  watermark : Option Nat
  requests : List WorkflowRequest

/-- An event with what the scheduler reads while handling it. -/
structure Delivery where
  event : MatchEvent
  positions : List Position
  context : WorkflowContext

/-- The cached state, or the market's row, with the database's positions. -/
def hydrate (row : MarketState) (s : SchedulerState) (positions : List Position) : MarketState :=
  { s.cached.getD row with positions }

/-- `event.seq <= (eventWatermarks.get(market.id) ?? -1)`. -/
def belowWatermark (s : SchedulerState) (event : MatchEvent) : Bool :=
  match s.watermark with
  | some watermark => event.seq ≤ watermark
  | none => false

/-- `reduce`, inside the `try` of `run`: when a builder throws, the event leaves
no trace in the scheduler's maps. -/
def reduce (row : MarketState) (s : SchedulerState) (d : Delivery) : SchedulerState :=
  let usesScoreSequence := d.event.kind ≠ .oddsSuspension
  if usesScoreSequence ∧ belowWatermark s d.event then
    s
  else
    let state := hydrate row s d.positions
    if ignored state d.event then
      s
    else
      let result := reduceMarket state d.event
      let requests :=
        if requiresWorkflowContext result.effects d.event state.pendingSettlement
          result.state.pendingSettlement then
          requestsFor sha256 deployment d.context d.event state result
        else .ok []
      match requests with
      | .error _ => s
      | .ok requests =>
          { cached := some result.state
            watermark := if usesScoreSequence then some d.event.seq else s.watermark
            requests := s.requests ++ requests }

def initial : SchedulerState := ⟨none, none, []⟩

/-- The deliveries of a live stream, one by one. -/
def runAll (row : MarketState) (deliveries : List Delivery) : SchedulerState :=
  deliveries.foldl (reduce sha256 deployment row) initial

end Step

end CalledIt.Engine.Scheduler
