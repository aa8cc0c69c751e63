import CalledIt.Signer.Verifier
import CalledIt.Txline.NormalizeScores

/-!
# CalledIt.Signer.Decisions

What the acceptance of a terminal attestation means, and that a snapshot of the
feed leaves one decision at most (`decisions_unique`).

Both verifiers end with a test at the latest event, and that test alone fixes the
outcome or the reason.  A settlement needs a decided outcome in a terminal phase;
a void needs a phase or a kind that decides nothing.  The two exclude each other
because the normalizer gives a coverage warning the phase of a lost coverage.
-/

namespace CalledIt.Signer

open Lib
open Engine (MarketSpec MatchEvent SettlementOutcome evaluateSpec terminalPhases)
open Escrow (Bytes VoidReason)
open Sdk (SettlementAttestationV1 VoidAttestationV1 phaseText normalizedEscrowEvidenceHashV2
  escrowEvidenceSequenceCommitmentV2 settlementEvidenceHashV2)

variable {sha256 : List UInt8 → Bytes 32}

/-! ## acceptance -/

/-- A snapshot in order, with its latest event. -/
structure Latest (events : List MatchEvent) (latest : MatchEvent) : Prop where
  ordered : events.IsChain (·.seq < ·.seq)
  last : events.getLast? = some latest

variable {events : List MatchEvent}

theorem latestEvent_ok_iff {latest : MatchEvent} :
    latestEvent events = .ok latest ↔ Latest events latest := by
  unfold latestEvent
  simp only [bind_ok_iff, require_ok_iff, okOr_ok_iff, exists_const]
  constructor
  · rintro ⟨⟨-, hchain⟩, hlast⟩
    exact ⟨hchain, hlast⟩
  · rintro ⟨hchain, hlast⟩
    refine ⟨⟨?_, hchain⟩, hlast⟩
    rintro rfl
    simp at hlast

theorem Latest.eq {a b : MatchEvent} (ha : Latest events a) (hb : Latest events b) : a = b :=
  Option.some.inj (ha.last.symm.trans hb.last)

theorem Latest.mem {latest : MatchEvent} (h : Latest events latest) :
    latest ∈ events :=
  List.mem_of_getLast? h.last

theorem safeNumber_ok_iff {value : Int} {name : String} {n : Nat} :
    safeNumber value name = .ok n ↔ value = n ∧ (n : Int) ≤ maxSafeInteger := by
  unfold safeNumber
  simp only [bind_ok_iff, require_ok_iff, pure_ok_iff, exists_const]
  constructor
  · rintro ⟨hrange, rfl⟩
    omega
  · rintro ⟨rfl, hmax⟩
    omega

/-- The event with the deciding sequence number. -/
structure Deciding (events : List MatchEvent) (decidingSequence : Int) (deciding : MatchEvent) :
    Prop where
  sequence : decidingSequence = deciding.seq
  safe : (deciding.seq : Int) ≤ maxSafeInteger
  found : events.find? (·.seq = deciding.seq) = some deciding

variable {event : MatchEvent}

theorem Deciding.of_find {value : Int} {name : String} {n : Nat}
    (hsafe : safeNumber value name = .ok n) (hfound : events.find? (·.seq = n) = some event) :
    n = event.seq ∧ Deciding events value event := by
  obtain ⟨rfl, hmax⟩ := safeNumber_ok_iff.mp hsafe
  have hseq : event.seq = n := by simpa using List.find?_some hfound
  subst hseq
  exact ⟨rfl, rfl, hmax, hfound⟩

theorem deciding_of_pairwise {before after : List MatchEvent}
    (hordered : (before ++ event :: after).Pairwise (·.seq < ·.seq))
    (hsafe : (event.seq : Int) ≤ maxSafeInteger) :
    Deciding (before ++ event :: after) event.seq event := by
  refine ⟨rfl, hsafe, ?_⟩
  have hbefore : before.find? (·.seq = event.seq) = none := by
    refine List.find?_eq_none.mpr fun x hx => ?_
    have hlt := (List.pairwise_append.mp hordered).2.2 x hx event List.mem_cons_self
    simp [Nat.ne_of_lt hlt]
  rw [List.find?_append, hbefore]
  simp

/-- Everything that an accepted settlement says about the snapshot. -/
structure SettlementAccepted (sha256 : List UInt8 → Bytes 32)
    (attestation : SettlementAttestationV1) (spec : MarketSpec) (events : List MatchEvent)
    (latest deciding : MatchEvent) : Prop where
  snapshot : Latest events latest
  terminal : latest.phase ∈ terminalPhases
  named : Deciding events attestation.decidingSequence deciding
  order : deciding.seq ≤ latest.seq
  root : normalizedEscrowEvidenceHashV2 sha256 latest = attestation.normalizedEvidenceRoot
  outcome : claimedOutcome spec deciding (standingGoals events deciding.seq) =
    some (claimedBy attestation.outcome)
  commitment : escrowEvidenceSequenceCommitmentV2 sha256 spec.fixtureId
    (evidenceSequences spec (standingGoals events deciding.seq) deciding.seq) =
      attestation.evidenceSequenceCommitment
  evidence : settlementEvidenceHashV2 sha256 attestation.evidenceSequenceCommitment
    attestation.normalizedEvidenceRoot = attestation.evidenceHash
  phase : attestation.terminalPhase = phaseText latest.phase
  regulation : attestation.regulationScore = regulationScore latest
  score : attestation.fullMatchScore = some (Signer.score latest)
  standing : claimedOutcome spec latest (standingGoals events latest.seq) =
    some (claimedBy attestation.outcome)

theorem verifySettlement_ok_iff {attestation : SettlementAttestationV1} {spec : MarketSpec} :
    verifySettlement sha256 attestation spec events = .ok () ↔
      ∃ latest deciding,
        SettlementAccepted sha256 attestation spec events latest deciding := by
  unfold verifySettlement
  simp only [bind_ok_iff, require_ok_iff, okOr_ok_iff, exists_const, latestEvent_ok_iff,
    not_or, not_not, ne_eq, not_lt]
  constructor
  · rintro ⟨latest, hlatest, hterminal, n, hsafe, deciding, hfound, horder, hroot,
      ⟨houtcome, hcommitment, hevidence, hphase, hregulation, hscore⟩, hstanding⟩
    obtain ⟨rfl, hdeciding⟩ := Deciding.of_find hsafe hfound
    rw [hcommitment] at hevidence
    exact ⟨latest, deciding, hlatest, hterminal, hdeciding, horder, hroot, houtcome, hcommitment,
      hevidence, hphase, hregulation, hscore, hstanding⟩
  · rintro ⟨latest, deciding, h⟩
    refine ⟨latest, h.snapshot, h.terminal, deciding.seq,
      safeNumber_ok_iff.mpr ⟨h.named.sequence, h.named.safe⟩, deciding, h.named.found,
      h.order, h.root, ⟨h.outcome, h.commitment, ?_, h.phase, h.regulation, h.score⟩, h.standing⟩
    rw [h.commitment]
    exact h.evidence

/-- Everything that an accepted void says about the snapshot. -/
structure VoidAccepted (sha256 : List UInt8 → Bytes 32) (attestation : VoidAttestationV1)
    (spec : MarketSpec) (events : List MatchEvent) (latest event : MatchEvent) : Prop where
  snapshot : Latest events latest
  named : Deciding events attestation.decidingSequence event
  evidence : normalizedEscrowEvidenceHashV2 sha256 event = attestation.evidenceHash
  reason : voidReason event (claimedOutcome spec event (standingGoals events event.seq)) =
    some attestation.reason
  standing : voidReason latest (claimedOutcome spec latest (standingGoals events latest.seq)) =
    some attestation.reason

theorem verifyVoid_ok_iff {attestation : VoidAttestationV1} {spec : MarketSpec} :
    verifyVoid sha256 attestation spec events = .ok () ↔
      ∃ latest event, VoidAccepted sha256 attestation spec events latest event := by
  unfold verifyVoid
  simp only [bind_ok_iff, require_ok_iff, okOr_ok_iff, exists_const, latestEvent_ok_iff]
  constructor
  · rintro ⟨latest, hlatest, n, hsafe, event, hfound, hevidence, hreason, hstanding⟩
    obtain ⟨rfl, hdeciding⟩ := Deciding.of_find hsafe hfound
    exact ⟨latest, event, hlatest, hdeciding, hevidence, hreason, hstanding⟩
  · rintro ⟨latest, event, h⟩
    exact ⟨latest, h.snapshot, event.seq,
      safeNumber_ok_iff.mpr ⟨h.named.sequence, h.named.safe⟩, event, h.named.found,
      h.evidence, h.reason, h.standing⟩

/-! ## one decision -/

theorem claimedBy_inj {a b : Sdk.ClaimOutcome} (h : claimedBy a = claimedBy b) : a = b := by
  cases a <;> cases b <;> first | rfl | cases h

/-- A decided outcome in a terminal phase is no reason to void. -/
theorem voidReason_of_decided (hterminal : event.phase ∈ terminalPhases)
    (hkind : event.kind = .coverageWarning → event.phase = .covLost)
    {outcome : SettlementOutcome} : voidReason event (some outcome) = none := by
  have hphase : event.phase ≠ .can ∧ event.phase ≠ .abd ∧ event.phase ≠ .covLost ∧
      event.phase ≠ .post := by
    revert hterminal
    cases event.phase <;> simp [terminalPhases]
  have hcovered : event.kind ≠ .coverageWarning := fun h => hphase.2.2.1 (hkind h)
  simp [voidReason, hphase, hcovered]

/-- What the terminal attestations that a signer accepts on one snapshot have in
common. -/
structure OneDecision (sha256 : List UInt8 → Bytes 32) (spec : MarketSpec)
    (events : List MatchEvent) : Prop where
  outcome : ∀ a b, verifySettlement sha256 a spec events = .ok () →
    verifySettlement sha256 b spec events = .ok () → a.outcome = b.outcome
  reason : ∀ a b, verifyVoid sha256 a spec events = .ok () →
    verifyVoid sha256 b spec events = .ok () → a.reason = b.reason
  exclusive : ∀ a b, verifySettlement sha256 a spec events = .ok () →
    verifyVoid sha256 b spec events ≠ .ok ()
  sound : ∀ a, verifySettlement sha256 a spec events = .ok () →
    ∃ latest deciding, events.getLast? = some latest ∧ deciding ∈ events ∧
      a.decidingSequence = deciding.seq ∧ latest.phase ∈ terminalPhases ∧
      evaluateSpec spec deciding.score deciding.phase
        (playerGoals spec (standingGoals events deciding.seq)) = some (claimedBy a.outcome) ∧
      evaluateSpec spec latest.score latest.phase
        (playerGoals spec (standingGoals events latest.seq)) = some (claimedBy a.outcome)

/-- On a snapshot of the feed a signer accepts settlements of one outcome only,
voids of one reason only, and never both. -/
theorem decisions_unique (sha256 : List UInt8 → Bytes 32) (spec : MarketSpec)
    (maps : Txline.FeedMaps) (receivedAtMs : Int) (records : List Txline.ScoresRecord) :
    OneDecision sha256 spec (Txline.normalizeScores maps receivedAtMs records) where
  outcome a b ha hb := by
    obtain ⟨latest, _, ha⟩ := verifySettlement_ok_iff.mp ha
    obtain ⟨latest', _, hb⟩ := verifySettlement_ok_iff.mp hb
    obtain rfl := ha.snapshot.eq hb.snapshot
    exact claimedBy_inj (Option.some.inj (ha.standing.symm.trans hb.standing))
  reason a b ha hb := by
    obtain ⟨latest, _, ha⟩ := verifyVoid_ok_iff.mp ha
    obtain ⟨latest', _, hb⟩ := verifyVoid_ok_iff.mp hb
    obtain rfl := ha.snapshot.eq hb.snapshot
    exact Option.some.inj (ha.standing.symm.trans hb.standing)
  exclusive a b ha hb := by
    obtain ⟨latest, _, ha⟩ := verifySettlement_ok_iff.mp ha
    obtain ⟨latest', _, hb⟩ := verifyVoid_ok_iff.mp hb
    obtain rfl := ha.snapshot.eq hb.snapshot
    have hstanding := hb.standing
    rw [ha.standing, voidReason_of_decided ha.terminal
      (Txline.phase_of_coverageWarning ha.snapshot.mem)] at hstanding
    contradiction
  sound a ha := by
    obtain ⟨latest, deciding, ha⟩ := verifySettlement_ok_iff.mp ha
    exact ⟨latest, deciding, ha.snapshot.last, List.mem_of_find?_eq_some ha.named.found,
      ha.named.sequence, ha.terminal, ha.outcome, ha.standing⟩

end CalledIt.Signer
