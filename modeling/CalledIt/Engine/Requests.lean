import CalledIt.Engine.Payload

/-!
# CalledIt.Engine.Requests

The requests of one step of the scheduler.

With a market context that holds what it should (`ValidContext`) no builder
throws, so a step always reaches its end (`exists_requestsFor`).  The terminal
effects of a reduced event, and a candidate it arms, each leave their request
behind.
-/

namespace CalledIt.Engine.Scheduler

open Lib
open Escrow (Bytes VoidReason FeedEventKind)
open Sdk (JsResult AttestationCommonV1 SettlementAttestationV1 VoidAttestationV1 ClaimOutcome
  phaseText normalizedEscrowEvidenceHashV2 escrowEvidenceSequenceCommitmentV2
  settlementEvidenceHashV2)

variable (sha256 : List UInt8 → Bytes 32) {deployment : Deployment}

/-- What `loadMarket` answers for the market of a fixture: addresses of 32 bytes, a
document hash, the market's own fixture. -/
structure ValidContext (deployment : Deployment) (fixtureId : Nat) (context : WorkflowContext) :
    Prop where
  genesis : deployment.genesis.length = 32
  program : deployment.program.length = 32
  ttl : 0 < deployment.ttlSeconds
  marketPda : context.binding.marketPda.length = 32
  documentHash : context.binding.marketDocumentHash.length = 32
  fixture : context.binding.fixtureId = fixtureId
  oracleSetEpoch : 0 ≤ context.binding.oracleSetEpoch

/-! ## builders -/

/-- The fields that all attestations of an event share. -/
def commonFields (deployment : Deployment) (market : MarketBinding) (event : MatchEvent)
    (evidenceHash : List UInt8) : AttestationCommonV1 where
  clusterGenesisHash := deployment.genesis
  escrowProgramId := deployment.program
  marketPda := market.marketPda
  marketDocumentHash := market.marketDocumentHash
  fixtureId := market.fixtureId
  oracleSetEpoch := market.oracleSetEpoch
  issuedAt := event.receivedAtMs / 1000
  expiresAt := event.receivedAtMs / 1000 + deployment.ttlSeconds
  evidenceHash

theorem common_eq {context : WorkflowContext} {event : MatchEvent}
    (h : ValidContext deployment event.fixtureId context) (evidenceHash : List UInt8) :
    common deployment context.binding event evidenceHash =
      .ok (commonFields deployment context.binding event evidenceHash) := by
  rw [common, require_pos, ok_bind]
  · rfl
  · have httl := h.ttl
    simp [h.genesis, h.program, h.marketPda, h.fixture, httl]

theorem storable_commonFields {context : WorkflowContext} {event : MatchEvent}
    (h : ValidContext deployment event.fixtureId context) {evidenceHash : List UInt8}
    (hhash : evidenceHash.length = 32) :
    Payload.Storable (commonFields deployment context.binding event evidenceHash) where
  clusterGenesisHash := h.genesis
  escrowProgramId := h.program
  marketPda := h.marketPda
  marketDocumentHash := h.documentHash
  fixtureId := by
    have hfixture := h.fixture
    simp only [commonFields]
    omega
  oracleSetEpoch := h.oracleSetEpoch
  evidenceHash := hhash

/-- The settlement that the scheduler attests at an event. -/
def settlementAt (sha256 : List UInt8 → Bytes 32) (deployment : Deployment)
    (market : MarketBinding) (event : MatchEvent) (outcome : ClaimOutcome) (decidingSequence : Nat)
    (evidenceSequences : List Nat) : SettlementAttestationV1 :=
  let commitment := escrowEvidenceSequenceCommitmentV2 sha256 event.fixtureId evidenceSequences
  let root := normalizedEscrowEvidenceHashV2 sha256 event
  { commonFields deployment market event (settlementEvidenceHashV2 sha256 commitment root) with
    outcome
    decidingSequence
    terminalPhase := phaseText event.phase
    regulationScore := match event.score.p1Goals90, event.score.p2Goals90 with
      | some home, some away => some ⟨home, away⟩
      | _, _ =>
          if event.phase = .f then some ⟨event.score.p1.goals, event.score.p2.goals⟩ else none
    fullMatchScore := some ⟨event.score.p1.goals, event.score.p2.goals⟩
    evidenceSequenceCommitment := commitment
    normalizedEvidenceRoot := root }

def voidAt (sha256 : List UInt8 → Bytes 32) (deployment : Deployment) (market : MarketBinding)
    (event : MatchEvent) (reason : VoidReason) (decidingSequence : Nat) : VoidAttestationV1 :=
  { commonFields deployment market event (normalizedEscrowEvidenceHashV2 sha256 event) with
    reason
    decidingSequence }

section Valid

variable {context : WorkflowContext} {event : MatchEvent}
  (h : ValidContext deployment event.fixtureId context)

include h

theorem buildEscrowSettlementAttestation_eq (outcome : ClaimOutcome) (decidingSequence : Nat)
    (evidenceSequences : List Nat) :
    buildEscrowSettlementAttestation sha256 deployment context.binding event outcome
      decidingSequence evidenceSequences =
      .ok (settlementAt sha256 deployment context.binding event outcome decidingSequence
        evidenceSequences) := by
  rw [buildEscrowSettlementAttestation, common_eq h, ok_bind]
  rfl

theorem buildEscrowVoidAttestation_eq (reason : VoidReason) (decidingSequence : Nat) :
    buildEscrowVoidAttestation sha256 deployment context.binding event reason decidingSequence =
      .ok (voidAt sha256 deployment context.binding event reason decidingSequence) := by
  rw [buildEscrowVoidAttestation, common_eq h, ok_bind]
  rfl

theorem exists_freezeRequest :
    ∃ request, freezeRequest sha256 deployment context event = .ok request := by
  rw [freezeRequest, buildEscrowFeedEventAttestation, common_eq h]
  exact ⟨_, rfl⟩

theorem exists_invalidationRequest (invalidatedEventEpoch : Int) (lot : PositionLot) :
    ∃ request, invalidationRequest sha256 deployment context event invalidatedEventEpoch lot =
      .ok request := by
  rw [invalidationRequest, buildEscrowPositionInvalidationAttestation, common_eq h]
  exact ⟨_, rfl⟩

theorem terminalRequest_void (decidingSeq : Nat) (evidenceSeqs : List Nat) :
    terminalRequest sha256 deployment context event .void decidingSeq evidenceSeqs =
      .ok (.voidMarket (voidAt sha256 deployment context.binding event .undecidable
        decidingSeq)) := by
  rw [terminalRequest, claimOutcome]
  dsimp only
  rw [buildEscrowVoidAttestation_eq sha256 h, ok_bind]
  rfl

theorem terminalRequest_settle {outcome : SettlementOutcome} {claimed : ClaimOutcome}
    (hclaimed : claimOutcome outcome = some claimed) (decidingSeq : Nat)
    (evidenceSeqs : List Nat) :
    terminalRequest sha256 deployment context event outcome decidingSeq evidenceSeqs =
      .ok (.settleMarket (settlementAt sha256 deployment context.binding event claimed decidingSeq
        evidenceSeqs)) := by
  rw [terminalRequest, hclaimed]
  dsimp only
  rw [buildEscrowSettlementAttestation_eq sha256 h, ok_bind]
  rfl

theorem exists_terminalRequest (outcome : SettlementOutcome) (decidingSeq : Nat)
    (evidenceSeqs : List Nat) :
    ∃ request, terminalRequest sha256 deployment context event outcome decidingSeq evidenceSeqs =
      .ok request := by
  cases outcome with
  | void => exact ⟨_, terminalRequest_void sha256 h decidingSeq evidenceSeqs⟩
  | claimWon => exact ⟨_, terminalRequest_settle sha256 h rfl decidingSeq evidenceSeqs⟩
  | claimLost => exact ⟨_, terminalRequest_settle sha256 h rfl decidingSeq evidenceSeqs⟩

/-! ## one step -/

theorem exists_applyEffect (effect : MarketEffect) :
    ∃ requests, applyEffect sha256 deployment context event effect = .ok requests := by
  cases effect with
  | freeze reason =>
      obtain ⟨request, hrequest⟩ := exists_freezeRequest sha256 h
      rw [applyEffect, hrequest]
      split
      · exact ⟨_, rfl⟩
      · exact ⟨_, rfl⟩
  | unfreeze =>
      rw [applyEffect, buildEscrowFeedEventAttestation, common_eq h]
      split
      · exact ⟨_, rfl⟩
      · exact ⟨_, rfl⟩
  | settle outcome decidingSeq evidenceSeqs =>
      obtain ⟨request, hrequest⟩ := exists_terminalRequest sha256 h outcome decidingSeq evidenceSeqs
      rw [applyEffect, hrequest]
      exact ⟨_, rfl⟩
  | void reason =>
      rw [applyEffect, buildEscrowVoidAttestation_eq sha256 h]
      exact ⟨_, rfl⟩
  | voidPositions ids => exact ⟨[], rfl⟩
  | activatePositions ids => exact ⟨[], rfl⟩
  | activateMarket => exact ⟨[], rfl⟩
  | repriceHint => exact ⟨[], rfl⟩

theorem exists_protectPriceMovingLots :
    ∃ requests, protectPriceMovingLots sha256 deployment context event = .ok requests := by
  have hlots : ∀ epoch, ∃ requests, (context.lots.filter (snipes event epoch)).mapM
      (invalidationRequest sha256 deployment context event epoch) = .ok requests := fun epoch =>
    exists_mapM_ok fun lot _ => exists_invalidationRequest sha256 h epoch lot
  unfold protectPriceMovingLots
  split
  · exact ⟨[], rfl⟩
  · split
    · obtain ⟨freeze, hfreeze⟩ := exists_freezeRequest sha256 h
      obtain ⟨invalidations, hinvalidations⟩ := hlots (context.binding.eventEpoch + 1)
      dsimp only
      rw [hfreeze, ok_bind, hinvalidations]
      exact ⟨_, rfl⟩
    · exact hlots _

theorem exists_persistNewPending (previous current : Option PendingSettlement) :
    ∃ requests, persistNewPending sha256 deployment context event previous current =
      .ok requests := by
  unfold persistNewPending
  split
  · exact ⟨[], rfl⟩
  · next pending _ =>
    obtain ⟨request, hrequest⟩ := exists_terminalRequest sha256 h pending.outcome
      pending.decidingSeq pending.evidenceSeqs
    rw [hrequest]
    exact ⟨_, rfl⟩

/-- No builder throws: the requests of a step are those of its protection, of its
effects and of its candidate. -/
theorem exists_requestsFor (before : MarketState) (result : ReduceResult) :
    ∃ protection effects candidate,
      requestsFor sha256 deployment context event before result =
        .ok (protection ++ effects.flatten ++ candidate) ∧
      result.effects.mapM (applyEffect sha256 deployment context event) = .ok effects ∧
      persistNewPending sha256 deployment context event before.pendingSettlement
        result.state.pendingSettlement = .ok candidate := by
  obtain ⟨protection, hprotection⟩ := exists_protectPriceMovingLots sha256 h
  have hmap : ∃ bs, result.effects.mapM (applyEffect sha256 deployment context event) = .ok bs :=
    exists_mapM_ok fun effect _ => exists_applyEffect sha256 h effect
  obtain ⟨effects, heffects⟩ := hmap
  obtain ⟨candidate, hcandidate⟩ := exists_persistNewPending sha256 h before.pendingSettlement
    result.state.pendingSettlement
  refine ⟨protection, effects, candidate, ?_, heffects, hcandidate⟩
  rw [requestsFor, hprotection, ok_bind, heffects, ok_bind, hcandidate]
  rfl

/-- Every effect's requests are among those of the step. -/
theorem mem_requestsFor_of_effect {before : MarketState} {result : ReduceResult}
    {requests : List WorkflowRequest}
    (hrequests : requestsFor sha256 deployment context event before result = .ok requests)
    {effect : MarketEffect} (heffect : effect ∈ result.effects) {request : WorkflowRequest}
    (hrequest : applyEffect sha256 deployment context event effect = .ok [request]) :
    request ∈ requests := by
  obtain ⟨protection, effects, candidate, heq, heffects, -⟩ :=
    exists_requestsFor sha256 h before result
  rw [hrequests] at heq
  rw [Except.ok.inj heq]
  obtain ⟨found, hfound, happly⟩ := exists_of_forall₂ (mapM_ok_iff_forall₂.mp heffects) heffect
  rw [hrequest] at happly
  refine List.mem_append_left _ (List.mem_append_right _ (List.mem_flatten.mpr ⟨found, hfound, ?_⟩))
  rw [← Except.ok.inj happly]
  exact List.mem_singleton.mpr rfl

/-- So is the request of a new candidate. -/
theorem mem_requestsFor_of_pending {before : MarketState} {result : ReduceResult}
    {requests : List WorkflowRequest}
    (hrequests : requestsFor sha256 deployment context event before result = .ok requests)
    {pending : PendingSettlement}
    (hnew : newPending before.pendingSettlement result.state.pendingSettlement = some pending)
    {request : WorkflowRequest}
    (hrequest : terminalRequest sha256 deployment context event pending.outcome
      pending.decidingSeq pending.evidenceSeqs = .ok request) : request ∈ requests := by
  obtain ⟨protection, effects, candidate, heq, -, hcandidate⟩ :=
    exists_requestsFor sha256 h before result
  rw [hrequests] at heq
  rw [Except.ok.inj heq]
  unfold persistNewPending at hcandidate
  rw [hnew] at hcandidate
  dsimp only at hcandidate
  rw [hrequest, ok_bind, pure_ok_iff] at hcandidate
  refine List.mem_append_right _ ?_
  rw [← hcandidate]
  exact List.mem_singleton.mpr rfl

end Valid

end CalledIt.Engine.Scheduler
