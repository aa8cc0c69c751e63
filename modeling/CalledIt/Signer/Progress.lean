import CalledIt.Signer.Decisions
import CalledIt.Signer.Quorum

/-!
# CalledIt.Signer.Progress

When the signers of a finished match can still settle it.

A journal holds the decision with the evidence root it was taken on, and a verifier
accepts the root of the latest event only.  A signer that has decided therefore
signs again on the same latest event, and is lost to every other until the feed
comes back to it.  Two signers can settle the current snapshot exactly when neither
of them has decided anything else (`settlement_signable_iff`); three that decided on
three snapshots cannot, and wait for the timeout (`corrections_wedge`).
-/

namespace CalledIt.Signer

open Lib
open Engine (MarketSpec MatchEvent StandingGoal SettlementOutcome terminalPhases)
open Escrow (Bytes Pubkey OracleSet AcceptedOracleSet)
open Sdk (JsError JsResult ScoreV1 SettlementAttestationV1 AttestationCommonV1 ClaimOutcome
  phaseText normalizedEscrowEvidenceHashV2 escrowEvidenceSequenceCommitmentV2
  settlementEvidenceHashV2)

/-! ## one market's requests -/

/-- What every attestation of a market repeats: the deployment of the signer and the
account it loads. -/
structure Binding where
  clusterGenesisHash : Bytes 32
  escrowProgramId : Bytes 32
  marketPda : Bytes 32
  marketDocumentHash : Bytes 32
  fixtureId : UInt64
  oracleSetEpoch : UInt64

/-- The common fields of a market's attestation. -/
def Binding.common (binding : Binding) (issuedAt expiresAt : Int) (evidenceHash : List UInt8) :
    AttestationCommonV1 where
  clusterGenesisHash := binding.clusterGenesisHash.toList
  escrowProgramId := binding.escrowProgramId.toList
  marketPda := binding.marketPda.toList
  marketDocumentHash := binding.marketDocumentHash.toList
  fixtureId := binding.fixtureId.toNat
  oracleSetEpoch := binding.oracleSetEpoch.toNat
  issuedAt
  expiresAt
  evidenceHash

section Verify

variable (sha256 : List UInt8 → Bytes 32) (control : VerifiedAttestation → JsResult Unit)

/-- `verify` for the requests of one market, its clock, the market's state and the
specification's text left out.  The requests that end nothing read the market's
lots too; their checks are the parameter `control`. -/
def verify (binding : Binding) (spec : MarketSpec) (events : List MatchEvent)
    (request : VerifiedAttestation) (_claimSpecificationJson : String) : JsResult Unit := do
  let common := request.common
  require (¬ (common.clusterGenesisHash ≠ binding.clusterGenesisHash.toList ∨
      common.escrowProgramId ≠ binding.escrowProgramId.toList ∨
      common.oracleSetEpoch ≠ binding.oracleSetEpoch.toNat))
    (JsError.error "oracle attestation deployment mismatch")
  require (¬ (common.marketPda ≠ binding.marketPda.toList ∨
      common.fixtureId ≠ binding.fixtureId.toNat ∨
      common.marketDocumentHash ≠ binding.marketDocumentHash.toList))
    (JsError.error "oracle market binding mismatch")
  match request with
  | .settlement attestation => verifySettlement sha256 attestation spec events
  | .void attestation => verifyVoid sha256 attestation spec events
  | .feedEvent _ | .positionInvalidation _ => control request

end Verify

variable {sha256 : List UInt8 → Bytes 32} {control : VerifiedAttestation → JsResult Unit}
  {binding : Binding} {spec : MarketSpec} {events : List MatchEvent}

/-- A request of the market, by its common fields. -/
def Binding.Binds (binding : Binding) (common : AttestationCommonV1) : Prop :=
  common = binding.common common.issuedAt common.expiresAt common.evidenceHash

theorem binds_of_verify {request : VerifiedAttestation} {json : String}
    (h : verify sha256 control binding spec events request json = .ok ()) :
    binding.Binds request.common := by
  simp only [verify, bind_ok_iff, require_ok_iff, not_or, not_not, ne_eq] at h
  obtain ⟨_, ⟨hgenesis, hprogram, hepoch⟩, _, ⟨hmarket, hfixture, hdocument⟩, -⟩ := h
  unfold Binding.Binds Binding.common
  rw [← hgenesis, ← hprogram, ← hepoch, ← hmarket, ← hfixture, ← hdocument]

theorem verify_settlement_iff {attestation : SettlementAttestationV1} {json : String} :
    verify sha256 control binding spec events (.settlement attestation) json = .ok () ↔
      binding.Binds attestation.toAttestationCommonV1 ∧
        ∃ latest deciding,
          SettlementAccepted sha256 attestation spec events latest deciding := by
  rw [← verifySettlement_ok_iff]
  constructor
  · intro h
    refine ⟨binds_of_verify h, ?_⟩
    simp only [verify, bind_ok_iff, require_ok_iff] at h
    obtain ⟨_, _, _, _, hverify⟩ := h
    exact hverify
  · rintro ⟨hbinds, hverify⟩
    have hcommon : (VerifiedAttestation.settlement attestation).common =
        binding.common attestation.issuedAt attestation.expiresAt attestation.evidenceHash := hbinds
    simp only [verify, hcommon, Binding.common, hverify]
    simp [require]

/-- The terminal key of the market. -/
def Binding.key (binding : Binding) : String :=
  "terminal:v2:" ++ hexText binding.marketPda.toList ++ ":" ++
    toString (binding.oracleSetEpoch.toNat : Int)

theorem journalKey_of_binds {request : VerifiedAttestation}
    (hbinds : binding.Binds request.common) (hterminal : request.isTerminal = true) :
    journalKey request = binding.key := by
  have hmarket : request.common.marketPda = binding.marketPda.toList := by rw [hbinds]; rfl
  have hepoch : request.common.oracleSetEpoch = binding.oracleSetEpoch.toNat := by rw [hbinds]; rfl
  cases request with
  | settlement a => rw [journalKey, Binding.key, hmarket, hepoch]
  | void a => rw [journalKey, Binding.key, hmarket, hepoch]
  | feedEvent a => cases hterminal
  | positionInvalidation a => cases hterminal

/-! ## the settlement of a snapshot -/

/-- A settlement of a snapshot: what it decides depends on the latest event and on
the deciding one only. -/
def settlementOf (sha256 : List UInt8 → Bytes 32) (binding : Binding) (spec : MarketSpec)
    (events : List MatchEvent) (latest deciding : MatchEvent) (outcome : ClaimOutcome)
    (issuedAt expiresAt : Int) : SettlementAttestationV1 :=
  let commitment := escrowEvidenceSequenceCommitmentV2 sha256 spec.fixtureId
    (evidenceSequences spec (standingGoals events deciding.seq) deciding.seq)
  let root := normalizedEscrowEvidenceHashV2 sha256 latest
  { binding.common issuedAt expiresAt (settlementEvidenceHashV2 sha256 commitment root) with
    outcome
    decidingSequence := deciding.seq
    terminalPhase := phaseText latest.phase
    regulationScore := regulationScore latest
    fullMatchScore := some (score latest)
    evidenceSequenceCommitment := commitment
    normalizedEvidenceRoot := root }

/-- The event settles the snapshot: the outcome there is the one that stands at the
end of the match. -/
structure Settles (spec : MarketSpec) (events : List MatchEvent) (latest deciding : MatchEvent)
    (outcome : ClaimOutcome) : Prop where
  snapshot : Latest events latest
  terminal : latest.phase ∈ terminalPhases
  member : deciding ∈ events
  safe : (deciding.seq : Int) ≤ maxSafeInteger
  decided : claimedOutcome spec deciding (standingGoals events deciding.seq) =
    some (claimedBy outcome)
  standing : claimedOutcome spec latest (standingGoals events latest.seq) =
    some (claimedBy outcome)

theorem Latest.seq_le {latest event : MatchEvent} (h : Latest events latest)
    (hmem : event ∈ events) : event.seq ≤ latest.seq := by
  obtain ⟨before, rfl⟩ := List.getLast?_eq_some_iff.mp h.last
  have hordered := h.ordered.pairwise
  obtain hbefore | rfl : event ∈ before ∨ event = latest := by simpa using hmem
  · exact Nat.le_of_lt ((List.pairwise_append.mp hordered).2.2 event hbefore latest (by simp))
  · exact Nat.le_refl _

theorem Settles.deciding {latest deciding : MatchEvent} {outcome : ClaimOutcome}
    (h : Settles spec events latest deciding outcome) :
    Deciding events deciding.seq deciding := by
  obtain ⟨before, after, rfl⟩ := List.append_of_mem h.member
  exact deciding_of_pairwise h.snapshot.ordered.pairwise h.safe

theorem accepted_of_settles {latest deciding : MatchEvent} {outcome : ClaimOutcome}
    (h : Settles spec events latest deciding outcome) (issuedAt expiresAt : Int) :
    SettlementAccepted sha256 (settlementOf sha256 binding spec events latest deciding outcome
      issuedAt expiresAt) spec events latest deciding where
  snapshot := h.snapshot
  terminal := h.terminal
  named := h.deciding
  order := h.snapshot.seq_le h.member
  root := rfl
  outcome := h.decided
  commitment := rfl
  evidence := rfl
  phase := rfl
  regulation := rfl
  score := rfl
  standing := h.standing

/-- A signer that accepts a settlement of the market accepts this one. -/
theorem eq_settlementOf {attestation : SettlementAttestationV1} {latest deciding : MatchEvent}
    (hbinds : binding.Binds attestation.toAttestationCommonV1)
    (h : SettlementAccepted sha256 attestation spec events latest deciding) :
    Settles spec events latest deciding attestation.outcome ∧
      attestation = settlementOf sha256 binding spec events latest deciding attestation.outcome
        attestation.issuedAt attestation.expiresAt := by
  refine ⟨⟨h.snapshot, h.terminal, List.mem_of_find?_eq_some h.named.found, h.named.safe,
    h.outcome, h.standing⟩, ?_⟩
  obtain ⟨common, outcome, sequence, phase, regulation, full, commitment, root⟩ := attestation
  obtain rfl : sequence = deciding.seq := h.named.sequence
  obtain rfl : phase = phaseText latest.phase := h.phase
  obtain rfl : regulation = regulationScore latest := h.regulation
  obtain rfl : full = some (score latest) := h.score
  obtain rfl : _ = root := h.root
  obtain rfl : _ = commitment := h.commitment
  have hevidence : _ = common.evidenceHash := h.evidence
  have hcommon : common = binding.common common.issuedAt common.expiresAt common.evidenceHash :=
    hbinds
  rw [← hevidence] at hcommon
  exact congrArg (SettlementAttestationV1.mk · outcome deciding.seq _ _ _ _ _) hcommon

/-! ## its bytes -/

def InRange (score : ScoreV1) : Prop :=
  (0 ≤ score.home ∧ score.home ≤ 0xffff) ∧ 0 ≤ score.away ∧ score.away ≤ 0xffff

/-- An attestation has room for the scores of the event. -/
structure ScoresFit (latest : MatchEvent) : Prop where
  full : InRange (score latest)
  regulation : ∀ s, regulationScore latest = some s → InRange s

theorem exists_ofProgram_iff {score : Option ScoreV1} :
    (∃ score' : Option Escrow.ScoreV1, score = score'.map .ofProgram) ↔
      ∀ s, score = some s → InRange s := by
  constructor
  · rintro ⟨score', rfl⟩ s hs
    obtain ⟨⟨home, away⟩, rfl, rfl⟩ := Option.map_eq_some_iff.mp hs
    have hhome := home.toNat_lt
    have haway := away.toNat_lt
    simp only [InRange, ScoreV1.ofProgram]
    omega
  · intro h
    cases score with
    | none => exact ⟨none, rfl⟩
    | some s =>
        obtain ⟨hhome, haway⟩ := h s rfl
        obtain ⟨home, hhome⟩ := Sdk.exists_uint16 hhome
        obtain ⟨away, haway⟩ := Sdk.exists_uint16 haway
        refine ⟨some ⟨home, away⟩, ?_⟩
        simp only [Option.map_some, ScoreV1.ofProgram, ← hhome, ← haway]

theorem exists_ofProgram_scores {latest : MatchEvent} (h : ScoresFit latest) :
    (∃ s : Option Escrow.ScoreV1, regulationScore latest = s.map .ofProgram) ∧
      ∃ s : Option Escrow.ScoreV1, some (score latest) = s.map .ofProgram := by
  refine ⟨exists_ofProgram_iff.mpr h.regulation, exists_ofProgram_iff.mpr fun s hs => ?_⟩
  rw [← Option.some.inj hs]
  exact h.full

theorem utf8_phaseText (phase : Engine.GamePhase) :
    phaseText phase ≠ "" ∧ (Escrow.utf8 (phaseText phase)).length ≤ 32 := by
  cases phase <;> decide

/-- The scores decide whether a settlement has bytes. -/
theorem exists_encode_iff (sha256 : List UInt8 → Bytes 32) (binding : Binding)
    {latest deciding : MatchEvent} {outcome : ClaimOutcome}
    (hsettles : Settles spec events latest deciding outcome) {issuedAt expiresAt : Int64}
    (hlife : issuedAt < expiresAt) :
    (∃ bytes, (VerifiedAttestation.settlement (settlementOf sha256 binding spec events latest
      deciding outcome issuedAt.toInt expiresAt.toInt)).encode = .ok bytes) ↔
      ScoresFit latest := by
  constructor
  · rintro ⟨bytes, hbytes⟩
    obtain ⟨a, ha, -⟩ := SettlementAttestationV1.exists_ofProgram hbytes
    have hregulation := congrArg SettlementAttestationV1.regulationScore ha
    have hfull := congrArg SettlementAttestationV1.fullMatchScore ha
    exact ⟨exists_ofProgram_iff.mp ⟨_, hfull⟩ _ rfl, exists_ofProgram_iff.mp ⟨_, hregulation⟩⟩
  · intro hfit
    obtain ⟨⟨regulation, hregulation⟩, full, hfull⟩ := exists_ofProgram_scores hfit
    obtain ⟨sequence, hsequence⟩ : ∃ u : UInt64, (deciding.seq : Int) = u.toNat := by
      have hsafe := hsettles.safe
      unfold maxSafeInteger at hsafe
      exact Sdk.exists_uint64 (by omega)
    obtain ⟨hphase, hlength⟩ := utf8_phaseText latest.phase
    generalize hattestation : settlementOf sha256 binding spec events latest deciding outcome
      issuedAt.toInt expiresAt.toInt = attestation
    have hlengths : attestation.evidenceHash.length = 32 ∧
        attestation.evidenceSequenceCommitment.length = 32 ∧
        attestation.normalizedEvidenceRoot.length = 32 := by
      rw [← hattestation]
      exact ⟨Sdk.length_digest _ _, Sdk.length_digest _ _, Sdk.length_digest _ _⟩
    obtain ⟨evidence, hevidence⟩ := Sdk.exists_bytes hlengths.1
    obtain ⟨commitment, hcommitment⟩ := Sdk.exists_bytes hlengths.2.1
    obtain ⟨root, hroot⟩ := Sdk.exists_bytes hlengths.2.2
    -- the same settlement with the program's own types
    have hprogram : ∃ a, attestation = .ofProgram outcome a ∧ outcome.onChain = a.outcome ∧
        a.common.issuedAt = issuedAt ∧ a.common.expiresAt = expiresAt ∧
        a.terminalPhase = phaseText latest.phase := by
      refine ⟨⟨⟨binding.clusterGenesisHash, binding.escrowProgramId, binding.marketPda,
        binding.marketDocumentHash, binding.fixtureId, binding.oracleSetEpoch, issuedAt, expiresAt,
        evidence⟩, outcome.onChain, sequence, phaseText latest.phase, regulation, full, commitment,
        root⟩, ?_, rfl, rfl, rfl, rfl⟩
      simp only [SettlementAttestationV1.ofProgram, AttestationCommonV1.ofProgram, ← hevidence,
        ← hcommitment, ← hroot, ← hregulation, ← hfull, ← hsequence]
      rw [← hattestation]
      rfl
    obtain ⟨a, rfl, houtcome, hissued, hexpires, hnamed⟩ := hprogram
    have hdecided : a.outcome.Decided := by
      rw [← houtcome]
      cases outcome
      · exact .inl rfl
      · exact .inr rfl
    rw [← hissued, ← hexpires] at hlife
    rw [← hnamed] at hphase hlength
    obtain ⟨bytes, hbytes⟩ := Escrow.SettlementAttestationV1.exists_encode hdecided hlife hphase
      hlength
    exact ⟨bytes, (Sdk.encodeSettlementAttestationV1_iff houtcome).mpr hbytes⟩

/-! ## what a journal takes -/

variable {sha256Hex : List UInt8 → String} {history : List OracleSigningEnvelope}
  {journal : Journal}

/-- Every entry of a journal is a request of the history. -/
def Explained (sha256Hex : List UInt8 → String) (history : List OracleSigningEnvelope)
    (journal : Journal) : Prop :=
  ∀ key hash, journal.lookup key = some hash → ∃ envelope ∈ history,
    journalKey envelope.request = key ∧ journaledHash sha256Hex envelope = .ok hash

theorem explained_step {journal' : Journal} {envelope : OracleSigningEnvelope}
    (hstep : Signs sha256Hex journal envelope journal')
    (h : Explained sha256Hex history journal) :
    Explained sha256Hex (history ++ [envelope]) journal' := by
  obtain ⟨_, _, hsign⟩ := hstep
  obtain ⟨-, -, hash, hhash, hrecord⟩ := sign_ok_iff.mp hsign
  have hold : Explained sha256Hex (history ++ [envelope]) journal := by
    intro key hash' hlookup
    obtain ⟨e, he, hkey⟩ := h key hash' hlookup
    exact ⟨e, by simp [he], hkey⟩
  obtain ⟨-, rfl⟩ | ⟨-, rfl⟩ := Journal.record_ok_iff.mp hrecord
  · exact hold
  · intro key hash' hlookup
    by_cases hkey : key = journalKey envelope.request
    · rw [hkey, AList.lookup_insert, Option.some.injEq] at hlookup
      exact ⟨envelope, by simp, hkey.symm, by rw [hhash, hlookup]⟩
    · rw [AList.lookup_insert_ne hkey] at hlookup
      exact hold key hash' hlookup

theorem explained_run (hrun : Run (Signs sha256Hex) ∅ history journal) :
    Explained sha256Hex history journal := by
  have hempty : Explained sha256Hex [] ∅ := fun _ _ h => by simp at h
  simpa using hrun.invariant_trace (I := Explained sha256Hex) explained_step hempty

/-- The keys of the other requests start otherwise. -/
theorem isTerminal_of_journalKey {request : VerifiedAttestation}
    (h : journalKey request = binding.key) : request.isTerminal = true := by
  have hfirst := congrArg (fun key => key.toList.head?) h
  cases request with
  | settlement a => rfl
  | void a => rfl
  | feedEvent a => simp [journalKey, Binding.key] at hfirst
  | positionInvalidation a => simp [journalKey, Binding.key] at hfirst

/-- The market's key takes a hash when everything decided so far has it. -/
theorem record_key_iff (hrun : Run (Signs sha256Hex) ∅ history journal)
    (hbound : ∀ envelope ∈ history, binding.Binds envelope.request.common) {hash : String} :
    (∃ journal', journal.record binding.key hash = .ok journal') ↔
      ∀ envelope ∈ history, envelope.request.isTerminal = true →
        journaledHash sha256Hex envelope = .ok hash := by
  constructor
  · intro hrecord envelope hmem hterminal
    obtain ⟨-, prior, hprior, hlookup⟩ := remembers_run hrun envelope hmem
    rw [journalKey_of_binds (hbound envelope hmem) hterminal] at hlookup
    rw [(Journal.record_isOk_iff hlookup).mp hrecord, hprior]
  · intro h
    cases hlookup : journal.lookup binding.key with
    | none => exact ⟨_, Journal.record_ok_iff.mpr (.inr ⟨hlookup, rfl⟩)⟩
    | some prior =>
        obtain ⟨envelope, hmem, hkey, hprior⟩ := explained_run hrun _ _ hlookup
        have hhash := h envelope hmem (isTerminal_of_journalKey hkey)
        rw [hprior, Except.ok.injEq] at hhash
        exact (Journal.record_isOk_iff hlookup).mpr hhash.symm

/-- Every terminal request of the history carries this decision. -/
def OnlyDecided (history : List OracleSigningEnvelope) (decision : SettlementAttestationV1) :
    Prop :=
  ∀ envelope ∈ history, envelope.request.isTerminal = true →
    envelope.request.withLifetime 0 1 = .settlement decision

theorem onlyDecided_iff (hsha : Function.Injective sha256Hex)
    {decision : SettlementAttestationV1} {bytes : List UInt8}
    (hdecision : (VerifiedAttestation.settlement decision).encode = .ok bytes) :
    OnlyDecided history decision ↔
      ∀ envelope ∈ history, envelope.request.isTerminal = true →
        journaledHash sha256Hex envelope = .ok (sha256Hex bytes) := by
  refine forall_congr' fun envelope => forall_congr' fun _ => forall_congr' fun hterminal => ?_
  rw [journaledHash_of_terminal hterminal]
  constructor
  · intro h
    rw [h, hdecision]
    rfl
  · intro h
    obtain ⟨bytes', hbytes', hhash⟩ := map_ok_iff.mp h
    rw [hsha hhash] at hbytes'
    exact VerifiedAttestation.encode_inj hbytes' hdecision

/-- A signer signs a settlement of the snapshot unless it has decided otherwise. -/
theorem sign_settlementOf_iff (control : VerifiedAttestation → JsResult Unit)
    (hsha : Function.Injective sha256Hex)
    (hrun : Run (Signs sha256Hex) ∅ history journal)
    (hbound : ∀ envelope ∈ history, binding.Binds envelope.request.common)
    {latest deciding : MatchEvent} {outcome : ClaimOutcome}
    (hsettles : Settles spec events latest deciding outcome) (hfit : ScoresFit latest)
    {envelope : OracleSigningEnvelope} {issuedAt expiresAt : Int}
    (hrequest : envelope.request = .settlement (settlementOf sha256 binding spec events latest
      deciding outcome issuedAt expiresAt)) {bytes : List UInt8}
    (hparse : parseOracleSigningEnvelope sha256Hex envelope = .ok bytes) :
    (∃ journal', sign sha256Hex (verify sha256 control binding spec events) journal envelope =
      .ok (journal', bytes)) ↔
      OnlyDecided history
        (settlementOf sha256 binding spec events latest deciding outcome 0 1) := by
  obtain ⟨decision, hdecision⟩ : ∃ decision, (VerifiedAttestation.settlement (settlementOf sha256
      binding spec events latest deciding outcome 0 1)).encode = .ok decision :=
    (exists_encode_iff sha256 binding hsettles (show (0 : Int64) < 1 by decide)).mpr hfit
  have hverify : verify sha256 control binding spec events envelope.request
      envelope.claimSpecificationJson = .ok () := by
    rw [hrequest]
    exact verify_settlement_iff.mpr ⟨rfl, latest, deciding, accepted_of_settles hsettles _ _⟩
  have hkey : journalKey envelope.request = binding.key := by
    rw [hrequest]
    exact journalKey_of_binds rfl rfl
  have hhash : journaledHash sha256Hex envelope = .ok (sha256Hex decision) := by
    rw [journaledHash_of_terminal (by rw [hrequest]; rfl), hrequest]
    exact congrArg (Except.map sha256Hex) hdecision
  rw [onlyDecided_iff hsha hdecision, ← record_key_iff hrun hbound]
  refine exists_congr fun journal' => ?_
  rw [sign_ok_iff, hkey, hhash]
  constructor
  · rintro ⟨-, -, hash, hsame, hrecord⟩
    rwa [Except.ok.inj hsame]
  · intro hrecord
    exact ⟨hparse, hverify, _, rfl, hrecord⟩

/-! ## three signers and a feed -/

/-- The current snapshot of the feed and the signers. -/
structure Joint where
  events : List MatchEvent
  oracles : Oracles

inductive JointEvent
  | feed (events : List MatchEvent)
  | signer (event : SignerEvent)

/-- The latest event of a finished match, with the outcome that stands there. -/
structure Finished (spec : MarketSpec) (outcome : ClaimOutcome) (events : List MatchEvent)
    (latest : MatchEvent) : Prop where
  snapshot : Latest events latest
  terminal : latest.phase ∈ terminalPhases
  standing : claimedOutcome spec latest (standingGoals events latest.seq) =
    some (claimedBy outcome)

/-- The latest event of a finished match settles it by itself. -/
theorem Finished.settles {latest : MatchEvent} {outcome : ClaimOutcome}
    (h : Finished spec outcome events latest) (hsafe : (latest.seq : Int) ≤ maxSafeInteger) :
    Settles spec events latest latest outcome :=
  ⟨h.snapshot, h.terminal, h.snapshot.mem, hsafe, h.standing, h.standing⟩

section Joint

variable (sha256 : List UInt8 → Bytes 32) (sha256Hex : List UInt8 → String)
  (control : VerifiedAttestation → JsResult Unit) (binding : Binding) (spec : MarketSpec)
  (outcome : ClaimOutcome)

/-- The feed is corrected in whatever way leaves the match finished with the same
outcome; a signer records what it has verified on the current snapshot, and fails
and restarts as it likes. -/
inductive Joint.Step : Joint → JointEvent → Joint → Prop
  | feed {s : Joint} {events : List MatchEvent} {latest : MatchEvent} :
      Finished spec outcome events latest → Step s (.feed events) { s with events }
  | signer {s : Joint} {e : SignerEvent} {oracles : Oracles} :
      Oracles.Step sha256Hex s.oracles e oracles →
      (∀ who envelope, e = .record who envelope →
        verify sha256 control binding spec s.events envelope.request
          envelope.claimSpecificationJson = .ok ()) →
      Step s (.signer e) { s with oracles }

/-- Two of the signers would sign one settlement of the current snapshot. -/
def CanSettle (oracleSet : OracleSet) (s : Joint) (issuedAt expiresAt : Int64) : Prop :=
  ∃ one ∈ oracleSet.signers, ∃ two ∈ oracleSet.signers, one ≠ two ∧
    ∃ (attestation : SettlementAttestationV1) (envelope : OracleSigningEnvelope)
      (bytes : List UInt8),
      envelope.request = .settlement attestation ∧
      attestation.issuedAt = issuedAt.toInt ∧ attestation.expiresAt = expiresAt.toInt ∧
      ∀ who ∈ [one, two], ∃ journal,
        sign sha256Hex (verify sha256 control binding spec s.events) (s.oracles who).journal
          envelope = .ok (journal, bytes)

end Joint

/-- The request that a step records at this signer. -/
def recordedBy (who : Pubkey) : JointEvent → Option OracleSigningEnvelope
  | .signer (.record key envelope) => if key = who then some envelope else none
  | _ => none

/-- What a signer has recorded, in order. -/
def recordedAt (who : Pubkey) (trace : List JointEvent) : List OracleSigningEnvelope :=
  trace.filterMap (recordedBy who)

/-- Two of the signers have recorded nothing that decides otherwise than one
settlement of the current snapshot. -/
def Agreed (sha256 : List UInt8 → Bytes 32) (binding : Binding) (spec : MarketSpec)
    (oracleSet : OracleSet) (trace : List JointEvent) (events : List MatchEvent) : Prop :=
  ∃ one ∈ oracleSet.signers, ∃ two ∈ oracleSet.signers, one ≠ two ∧
    ∃ latest deciding outcome, Settles spec events latest deciding outcome ∧
      ScoresFit latest ∧ ∀ who ∈ [one, two], OnlyDecided (recordedAt who trace)
        (settlementOf sha256 binding spec events latest deciding outcome 0 1)

variable {outcome : ClaimOutcome} {trace : List JointEvent} {s t : Joint}

theorem recordedAt_concat (who : Pubkey) (trace : List JointEvent) (e : JointEvent) :
    recordedAt who (trace ++ [e]) = recordedAt who trace ++ (recordedBy who e).toList := by
  rw [recordedAt, List.filterMap_append]
  cases h : recordedBy who e <;> simp [recordedAt, h]

/-- What a run keeps: each journal is the one of the signer's own records, these are
requests of the market, and the match stays finished. -/
structure Kept (sha256Hex : List UInt8 → String) (binding : Binding) (spec : MarketSpec)
    (outcome : ClaimOutcome) (trace : List JointEvent) (s : Joint) : Prop where
  journaled : ∀ who, Run (Signs sha256Hex) ∅ (recordedAt who trace) (s.oracles who).journal
  bound : ∀ who, ∀ envelope ∈ recordedAt who trace, binding.Binds envelope.request.common
  finished : ∃ latest, Finished spec outcome s.events latest

/-- Only a record touches a journal, and only its own signer's. -/
theorem journaled_step {oracles oracles' : Oracles} {e : SignerEvent}
    (hstep : Oracles.Step sha256Hex oracles e oracles') {who : Pubkey}
    (h : Run (Signs sha256Hex) ∅ history (oracles who).journal) :
    Run (Signs sha256Hex) ∅ (history ++ (recordedBy who (.signer e)).toList)
      (oracles' who).journal := by
  cases hstep with
  | record hsign =>
      next key envelope verify journal bytes =>
      by_cases hkey : key = who
      · subst hkey
        simp only [recordedBy, Function.update_self]
        exact .snoc h ⟨verify, bytes, hsign⟩
      · simpa [recordedBy, hkey, Function.update_of_ne (Ne.symm hkey)] using h
  | reject _ => simpa [recordedBy] using h
  | sign _ =>
      next key bytes _ =>
      by_cases hkey : key = who
      · subst hkey
        simpa [recordedBy] using h
      · simpa [recordedBy, Function.update_of_ne (Ne.symm hkey)] using h
  | restart =>
      next key =>
      by_cases hkey : key = who
      · subst hkey
        simpa [recordedBy] using h
      · simpa [recordedBy, Function.update_of_ne (Ne.symm hkey)] using h

theorem kept_step {e : JointEvent}
    (hstep : Joint.Step sha256 sha256Hex control binding spec outcome s e t)
    (h : Kept sha256Hex binding spec outcome trace s) :
    Kept sha256Hex binding spec outcome (trace ++ [e]) t := by
  cases hstep with
  | feed hfinished =>
      next events latest =>
      have hsame : ∀ who, recordedAt who (trace ++ [.feed events]) = recordedAt who trace := by
        intro who
        rw [recordedAt_concat]
        exact List.append_nil _
      exact ⟨fun who => by rw [hsame]; exact h.journaled who,
        fun who => by rw [hsame]; exact h.bound who, _, hfinished⟩
  | signer hsigner hverify =>
      next e oracles =>
      refine ⟨fun who => ?_, fun who envelope hmem => ?_, h.finished⟩
      · rw [recordedAt_concat]
        exact journaled_step hsigner (h.journaled who)
      · rw [recordedAt_concat, List.mem_append] at hmem
        obtain hold | hnew := hmem
        · exact h.bound who envelope hold
        · cases e with
          | record key recorded =>
              simp only [recordedBy, Option.mem_toList, Option.ite_none_right_eq_some,
                Option.some.injEq] at hnew
              obtain ⟨-, rfl⟩ := hnew
              exact binds_of_verify (hverify key recorded rfl)
          | reject key recorded => simp [recordedBy] at hnew
          | sign key bytes => simp [recordedBy] at hnew
          | restart key => simp [recordedBy] at hnew

theorem kept_run {latest : MatchEvent} (hstart : Finished spec outcome events latest)
    (hrun : Run (Joint.Step sha256 sha256Hex control binding spec outcome)
      ⟨events, .initial⟩ trace s) : Kept sha256Hex binding spec outcome trace s := by
  have hinitial : Kept sha256Hex binding spec outcome [] ⟨events, .initial⟩ :=
    ⟨fun _ => .refl _, fun _ _ h => by simp [recordedAt] at h, latest, hstart⟩
  simpa using hrun.invariant_trace (I := Kept sha256Hex binding spec outcome) kept_step hinitial

/-! ## progress -/

theorem canSettle_iff_agreed (hsha : Function.Injective sha256Hex) {oracleSet : OracleSet}
    (hkept : Kept sha256Hex binding spec outcome trace s) {issuedAt expiresAt : Int64}
    (hlife : issuedAt < expiresAt) :
    CanSettle sha256 sha256Hex control binding spec oracleSet s issuedAt expiresAt ↔
      Agreed sha256 binding spec oracleSet trace s.events := by
  constructor
  · rintro ⟨one, hone, two, htwo, hne, attestation, envelope, bytes, hrequest, hissued, hexpires,
      hsigns⟩
    obtain ⟨_, hsign⟩ := hsigns one (by simp)
    obtain ⟨hparse, hverify, -⟩ := sign_ok_iff.mp hsign
    have hencode := (parseOracleSigningEnvelope_ok hparse).1
    rw [hrequest] at hverify hencode
    obtain ⟨hbinds, latest, deciding, haccepted⟩ := verify_settlement_iff.mp hverify
    obtain ⟨hsettles, hattestation⟩ := eq_settlementOf hbinds haccepted
    rw [hissued, hexpires] at hattestation
    rw [hattestation] at hrequest hencode
    have hfit := (exists_encode_iff sha256 binding hsettles hlife).mp ⟨bytes, hencode⟩
    refine ⟨one, hone, two, htwo, hne, latest, deciding, _, hsettles, hfit, fun who hwho => ?_⟩
    exact (sign_settlementOf_iff control hsha (hkept.journaled who) (hkept.bound who) hsettles hfit
      hrequest hparse).mp (hsigns who hwho)
  · rintro ⟨one, hone, two, htwo, hne, latest, deciding, decided, hsettles, hfit, honly⟩
    obtain ⟨bytes, hencode⟩ := (exists_encode_iff sha256 binding hsettles hlife).mpr hfit
    refine ⟨one, hone, two, htwo, hne, settlementOf sha256 binding spec s.events latest deciding
      decided issuedAt.toInt expiresAt.toInt, envelopeOf sha256Hex _ bytes, bytes, rfl, rfl, rfl,
      fun who hwho => ?_⟩
    exact (sign_settlementOf_iff control hsha (hkept.journaled who) (hkept.bound who) hsettles hfit
      rfl (parse_envelopeOf hencode)).mpr (honly who hwho)

/-- Of three, two have the property when at most one has not. -/
theorem exists_pair_of_at_most_one {l : List α} (hcount : l.length = 3) (hdistinct : l.Nodup)
    {P : α → Prop} (h : ∀ a ∈ l, ∀ b ∈ l, ¬ P a → ¬ P b → a = b) :
    ∃ a ∈ l, ∃ b ∈ l, a ≠ b ∧ P a ∧ P b := by
  obtain ⟨x, y, z, rfl⟩ := List.length_eq_three.mp hcount
  simp only [List.nodup_cons, List.mem_cons, List.not_mem_nil, or_false, not_or] at hdistinct
  simp only [List.mem_cons, List.not_mem_nil, or_false] at h ⊢
  by_cases hx : P x
  · by_cases hy : P y
    · exact ⟨x, by simp, y, by simp, hdistinct.1.1, hx, hy⟩
    · refine ⟨x, by simp, z, by simp, hdistinct.1.2, hx, ?_⟩
      by_contra hz
      exact hdistinct.2.1 (h y (by simp) z (by simp) hy hz)
  · refine ⟨y, by simp, z, by simp, hdistinct.2.1, ?_, ?_⟩
    · by_contra hy
      exact hdistinct.1.1 (h x (by simp) y (by simp) hx hy)
    · by_contra hz
      exact hdistinct.1.2 (h x (by simp) z (by simp) hx hz)

/-- The signer has recorded nothing that ends the market. -/
def Undecided (history : List OracleSigningEnvelope) : Prop :=
  ∀ envelope ∈ history, envelope.request.isTerminal = false

theorem Undecided.onlyDecided (h : Undecided history) (decision : SettlementAttestationV1) :
    OnlyDecided history decision := by
  intro envelope hmem hterminal
  rw [h envelope hmem] at hterminal
  contradiction

/-- **Progress of the signers**: in every run over the corrections of a finished
match, two signers can sign one settlement of the current snapshot exactly when two
of them have recorded no other decision; so they always can while at most one signer
has decided and the latest event fits an attestation. -/
theorem settlement_signable_iff (hsha : Function.Injective sha256Hex) {oracleSet : OracleSet}
    (hset : AcceptedOracleSet oracleSet) {first : MatchEvent}
    (hstart : Finished spec outcome events first)
    (hrun : Run (Joint.Step sha256 sha256Hex control binding spec outcome)
      ⟨events, .initial⟩ trace s) {issuedAt expiresAt : Int64} (hlife : issuedAt < expiresAt) :
    (CanSettle sha256 sha256Hex control binding spec oracleSet s issuedAt expiresAt ↔
      Agreed sha256 binding spec oracleSet trace s.events) ∧
    ((∀ latest ∈ s.events.getLast?, ScoresFit latest ∧ (latest.seq : Int) ≤ maxSafeInteger) →
      (∀ one ∈ oracleSet.signers, ∀ two ∈ oracleSet.signers,
        ¬ Undecided (recordedAt one trace) → ¬ Undecided (recordedAt two trace) → one = two) →
      CanSettle sha256 sha256Hex control binding spec oracleSet s issuedAt expiresAt) := by
  have hkept := kept_run hstart hrun
  refine ⟨canSettle_iff_agreed hsha hkept hlife, fun hlatest hone => ?_⟩
  obtain ⟨latest, hfinished⟩ := hkept.finished
  obtain ⟨hfit, hsafe⟩ := hlatest latest hfinished.snapshot.last
  obtain ⟨one, honeMem, two, htwoMem, hne, hfree, hfree'⟩ :=
    exists_pair_of_at_most_one hset.count hset.distinct hone
  refine (canSettle_iff_agreed hsha hkept hlife).mpr
    ⟨one, honeMem, two, htwoMem, hne, latest, latest, outcome, hfinished.settles hsafe, hfit,
      fun who hwho => ?_⟩
  obtain rfl | rfl : who = one ∨ who = two := by simpa using hwho
  · exact hfree.onlyDecided _
  · exact hfree'.onlyDecided _

/-! ## corrections -/

/-- A signer with an empty journal takes a settlement of the snapshot and signs it. -/
theorem exists_run_signs (sha256 : List UInt8 → Bytes 32)
    (control : VerifiedAttestation → JsResult Unit) (binding : Binding) (outcome : ClaimOutcome)
    (hsha : Function.Injective sha256Hex) (s : Joint) (who : Pubkey)
    (hempty : (s.oracles who).journal = ∅) {latest deciding : MatchEvent} {decided : ClaimOutcome}
    (hsettles : Settles spec s.events latest deciding decided) (hfit : ScoresFit latest) :
    ∃ envelope bytes journal,
      envelope.request = .settlement (settlementOf sha256 binding spec s.events latest deciding
        decided 100 400) ∧
      envelope.request.encode = .ok bytes ∧
      Run (Joint.Step sha256 sha256Hex control binding spec outcome) s
        [.signer (.record who envelope), .signer (.sign who bytes)]
        ⟨s.events, Function.update s.oracles who
          ⟨journal, (s.oracles who).recorded, bytes :: (s.oracles who).signed⟩⟩ := by
  obtain ⟨bytes, hencode⟩ := (exists_encode_iff sha256 binding hsettles
    (show (100 : Int64) < 400 by decide)).mpr hfit
  have hrun : Run (Signs sha256Hex) ∅ [] (s.oracles who).journal := by
    rw [hempty]
    exact .refl _
  obtain ⟨journal, hsign⟩ := (sign_settlementOf_iff control hsha hrun (by simp)
    hsettles hfit rfl (parse_envelopeOf hencode)).mpr (by simp [OnlyDecided])
  refine ⟨envelopeOf sha256Hex _ bytes, bytes, journal, rfl, hencode, ?_⟩
  let recorded : Oracles := Function.update s.oracles who
    { s.oracles who with journal, recorded := bytes :: (s.oracles who).recorded }
  have hrecord : Joint.Step sha256 sha256Hex control binding spec outcome s
      (.signer (.record who _)) ⟨s.events, recorded⟩ :=
    .signer (.record hsign) fun _ _ h => by
      cases h
      exact (sign_ok_iff.mp hsign).2.1
  have hstep : Oracles.Step sha256Hex recorded (.sign who bytes) _ := .sign (by simp [recorded])
  have hsigned : Joint.Step sha256 sha256Hex control binding spec outcome ⟨s.events, recorded⟩
      (.signer (.sign who bytes)) _ := .signer hstep fun _ _ h => by cases h
  simpa [recorded] using (Run.single hrecord).append (.single hsigned)

section Sample

/-- The home side scores. -/
private def homeScoresSpec : MarketSpec :=
  { claimType := .teamScoresN
    fixtureId := 7
    entityRef := .team .one "home"
    comparator := .gte
    threshold := 1
    period := .ft
    anchor := none
    trustTier := .chainProven }

private def homeScoresBinding : Binding :=
  { clusterGenesisHash := List.Vector.replicate 32 1
    escrowProgramId := List.Vector.replicate 32 2
    marketPda := List.Vector.replicate 32 3
    marketDocumentHash := List.Vector.replicate 32 4
    fixtureId := 7
    oracleSetEpoch := 1 }

/-- Full time, with so many goals of the home side. -/
private def fullTime (seq goals : Nat) : MatchEvent :=
  { kind := .phaseChange
    fixtureId := 7
    seq
    tsMs := 1000
    receivedAtMs := 2000
    confirmed := true
    phase := .f
    minute := none
    score := ⟨⟨goals, 0, 0, 0⟩, ⟨0, 0, 0, 0⟩, some goals, some 0⟩
    detail := none }

/-- The match ends 1–0, is corrected to 2–0 and to 3–0. -/
private def corrections : Nat → List MatchEvent
  | 0 => [fullTime 10 1]
  | 1 => [fullTime 10 1, fullTime 11 2]
  | _ => [fullTime 10 1, fullTime 11 2, fullTime 12 3]

private theorem fullTime_fits {seq goals : Nat} (h : goals ≤ 0xffff) :
    ScoresFit (fullTime seq goals) := by
  have hrange : InRange ⟨goals, 0⟩ := by
    simp only [InRange]
    omega
  refine ⟨hrange, fun s hs => ?_⟩
  rw [← Option.some.inj hs]
  exact hrange

private theorem finished_corrections {n : Nat} (h : n < 3) :
    Finished homeScoresSpec .claimWon (corrections n) (fullTime (10 + n) (1 + n)) := by
  obtain rfl | rfl | rfl : n = 0 ∨ n = 1 ∨ n = 2 := by omega
  · exact ⟨⟨by decide, rfl⟩, by decide, by decide⟩
  · exact ⟨⟨by decide, rfl⟩, by decide, by decide⟩
  · exact ⟨⟨by decide, rfl⟩, by decide, by decide⟩

private theorem settles_corrections {n : Nat} (h : n < 3) :
    Settles homeScoresSpec (corrections n) (fullTime (10 + n) (1 + n))
      (fullTime (10 + n) (1 + n)) .claimWon := by
  refine (finished_corrections h).settles ?_
  simp only [fullTime, maxSafeInteger]
  omega

/-- What is decided includes the score. -/
private theorem score_of_onlyDecided {envelope : OracleSigningEnvelope}
    {a b : SettlementAttestationV1} (hrequest : envelope.request = .settlement a)
    (h : OnlyDecided [envelope] b) : a.fullMatchScore = b.fullMatchScore := by
  have hdecision := h envelope (by simp) (by rw [hrequest]; rfl)
  rw [hrequest] at hdecision
  have hsame : { a with issuedAt := 0, expiresAt := 1 } = b :=
    VerifiedAttestation.settlement.inj hdecision
  have hscore := congrArg SettlementAttestationV1.fullMatchScore hsame
  exact hscore

private def firstKey : Pubkey := List.Vector.replicate 32 1

private def secondKey : Pubkey := List.Vector.replicate 32 2

private theorem sampleSet_accepted : AcceptedOracleSet (Escrow.sampleArgs.oracleSet 1) :=
  Escrow.acceptedOracleSet_of_validate 1 (show Escrow.validateOracleSet Escrow.sampleArgs 0 = .ok ()
    from rfl)

private def noControl (_ : VerifiedAttestation) : JsResult Unit := .ok ()

/-- One signer has settled 1–0; after the correction to 2–0 the other two can settle. -/
theorem one_decided_signable :
    Function.Injective hexText ∧ ∀ sha256 : List UInt8 → Bytes 32, ∃ trace s,
      Run (Joint.Step sha256 hexText noControl homeScoresBinding homeScoresSpec .claimWon)
        ⟨corrections 0, .initial⟩ trace s ∧
      s.events = corrections 1 ∧ ¬ Undecided (recordedAt firstKey trace) ∧
      CanSettle sha256 hexText noControl homeScoresBinding homeScoresSpec
        (Escrow.sampleArgs.oracleSet 1) s 700 1000 := by
  have hsha : Function.Injective hexText := fun _ _ h => hexText_inj h
  refine ⟨hsha, fun sha256 => ?_⟩
  have hfinished := finished_corrections (show 0 < 3 by decide)
  obtain ⟨envelope, bytes, journal, hrequest, -, hrun⟩ := exists_run_signs sha256 noControl
    homeScoresBinding .claimWon hsha ⟨corrections 0, .initial⟩ firstKey rfl
    (settles_corrections (show 0 < 3 by decide)) (fullTime_fits (by decide))
  have hcorrected := hrun.append (.single (.feed (finished_corrections (show 1 < 3 by decide))))
  refine ⟨_, _, hcorrected, rfl, ?_, ?_⟩
  · intro h
    have hterminal := h envelope (by simp [recordedAt, recordedBy])
    rw [hrequest] at hterminal
    contradiction
  · refine (settlement_signable_iff hsha sampleSet_accepted hfinished hcorrected
      (by decide)).2 ?_ ?_
    · intro latest hlatest
      obtain rfl : fullTime 11 2 = latest := Option.some.inj hlatest
      exact ⟨fullTime_fits (by decide), by decide⟩
    · -- whoever has recorded anything is the first signer
      have hfirst : ∀ who, ¬ Undecided (recordedAt who [.signer (.record firstKey envelope),
          .signer (.sign firstKey bytes), .feed (corrections 1)]) → firstKey = who := by
        intro who hdecided
        by_contra hne
        exact hdecided (by simp [Undecided, recordedAt, recordedBy, hne])
      intro one _ two _ hone htwo
      exact (hfirst one hone).symm.trans (hfirst two htwo)

/-- The two signers after the first settled 1–0 and the second 2–0. -/
private def settledApart (bytes bytes' : List UInt8) (journal journal' : Journal) : Oracles :=
  Function.update (Function.update Oracles.initial firstKey ⟨journal, [], [bytes]⟩) secondKey
    ⟨journal', [], [bytes']⟩

private theorem signed_settledApart {bytes bytes' signed : List UInt8} {journal journal' : Journal}
    {key : Pubkey} (h : signed ∈ (settledApart bytes bytes' journal journal' key).signed) :
    (key = firstKey ∧ signed = bytes) ∨ (key = secondKey ∧ signed = bytes') := by
  unfold settledApart at h
  by_cases hsecond : key = secondKey
  · subst hsecond
    exact .inr ⟨rfl, by simpa using h⟩
  · rw [Function.update_of_ne hsecond] at h
    by_cases hfirst : key = firstKey
    · subst hfirst
      exact .inl ⟨rfl, by simpa using h⟩
    · rw [Function.update_of_ne hfirst] at h
      simp [Oracles.initial] at h

private theorem exists_run_settledApart (sha256 : List UInt8 → Bytes 32)
    (hsha : Function.Injective sha256Hex) :
    ∃ envelope envelope' bytes bytes' journal journal',
      envelope.request = .settlement (settlementOf sha256 homeScoresBinding homeScoresSpec
        (corrections 0) (fullTime 10 1) (fullTime 10 1) .claimWon 100 400) ∧
      envelope.request.encode = .ok bytes ∧
      envelope'.request = .settlement (settlementOf sha256 homeScoresBinding homeScoresSpec
        (corrections 1) (fullTime 11 2) (fullTime 11 2) .claimWon 100 400) ∧
      envelope'.request.encode = .ok bytes' ∧
      Run (Joint.Step sha256 sha256Hex noControl homeScoresBinding homeScoresSpec .claimWon)
        ⟨corrections 0, .initial⟩
        [.signer (.record firstKey envelope), .signer (.sign firstKey bytes),
          .feed (corrections 1), .signer (.record secondKey envelope'),
          .signer (.sign secondKey bytes'), .feed (corrections 2)]
        ⟨corrections 2, settledApart bytes bytes' journal journal'⟩ := by
  obtain ⟨envelope, bytes, journal, hrequest, hencode, hrun⟩ := exists_run_signs sha256 noControl
    homeScoresBinding .claimWon hsha ⟨corrections 0, .initial⟩ firstKey rfl
    (settles_corrections (show 0 < 3 by decide)) (fullTime_fits (by decide))
  have hcorrected := hrun.append (.single (.feed (finished_corrections (show 1 < 3 by decide))))
  have hempty : (Function.update Oracles.initial firstKey ⟨journal, [], [bytes]⟩
      secondKey).journal = ∅ := by
    rw [Function.update_of_ne (by decide)]
    rfl
  obtain ⟨envelope', bytes', journal', hrequest', hencode', hrun'⟩ := exists_run_signs sha256
    noControl homeScoresBinding .claimWon hsha ⟨corrections 1, _⟩ secondKey hempty
    (settles_corrections (show 1 < 3 by decide)) (fullTime_fits (by decide))
  have hagain := (hcorrected.append hrun').append
    (.single (.feed (finished_corrections (show 2 < 3 by decide))))
  refine ⟨envelope, envelope', bytes, bytes', journal, journal', hrequest, hencode, hrequest',
    hencode', ?_⟩
  have hother : Function.update Oracles.initial firstKey ⟨journal, [], [bytes]⟩ secondKey =
      ⟨∅, [], []⟩ := Function.update_of_ne (by decide) _ _
  rw [settledApart]
  simpa [hother] using hagain

/-- The first signer has settled 1–0 and the second 2–0 when the match is corrected to
3–0: no attestation has two signatures, and only the third signer can settle. -/
theorem corrections_wedge :
    ¬ ∀ (sha256 : List UInt8 → Bytes 32) (sha256Hex : List UInt8 → String)
      (control : VerifiedAttestation → JsResult Unit) (binding : Binding) (spec : MarketSpec)
      (outcome : ClaimOutcome) (oracleSet : OracleSet) (events : List MatchEvent)
      (first : MatchEvent) (trace : List JointEvent) (s : Joint), Function.Injective sha256Hex →
      AcceptedOracleSet oracleSet → Finished spec outcome events first →
      Run (Joint.Step sha256 sha256Hex control binding spec outcome) ⟨events, .initial⟩ trace s →
      (∀ bytes, ¬ SignedByTwo oracleSet s.oracles bytes) →
      ∃ issuedAt expiresAt, issuedAt < expiresAt ∧
        CanSettle sha256 sha256Hex control binding spec oracleSet s issuedAt expiresAt := by
  intro hclaim
  have hsha : Function.Injective hexText := fun _ _ h => hexText_inj h
  -- the evidence hash does not matter here
  have sha256 : List UInt8 → Bytes 32 := fun _ => List.Vector.replicate 32 0
  obtain ⟨envelope, envelope', bytes, bytes', journal, journal', hrequest, hencode, hrequest',
    hencode', hrun⟩ := exists_run_settledApart sha256 hsha
  have hfinished := finished_corrections (show 0 < 3 by decide)
  have hbytes : bytes ≠ bytes' := by
    rintro rfl
    have hsame := VerifiedAttestation.encode_inj hencode hencode'
    rw [hrequest, hrequest'] at hsame
    have hscore : some (score (fullTime 10 1)) = some (score (fullTime 11 2)) :=
      congrArg SettlementAttestationV1.fullMatchScore (VerifiedAttestation.settlement.inj hsame)
    revert hscore
    decide
  have hsigned : ∀ signed, ¬ SignedByTwo (Escrow.sampleArgs.oracleSet 1)
      (settledApart bytes bytes' journal journal') signed := by
    rintro signed ⟨a, -, b, -, hne, ha, hb⟩
    obtain ⟨rfl, rfl⟩ | ⟨rfl, rfl⟩ := signed_settledApart ha
    · obtain ⟨rfl, -⟩ | ⟨-, h⟩ := signed_settledApart hb
      · exact hne rfl
      · exact hbytes h
    · obtain ⟨-, h⟩ | ⟨rfl, -⟩ := signed_settledApart hb
      · exact hbytes h.symm
      · exact hne rfl
  obtain ⟨issuedAt, expiresAt, hlife, hcan⟩ := hclaim sha256 hexText noControl homeScoresBinding
    homeScoresSpec .claimWon (Escrow.sampleArgs.oracleSet 1) _ _ _ _ hsha sampleSet_accepted
    hfinished hrun hsigned
  obtain ⟨one, hone, two, htwo, hpair, latest, deciding, decided, hsettles, -, honly⟩ :=
    (canSettle_iff_agreed hsha (kept_run hfinished hrun) hlife).mp hcan
  obtain rfl : latest = fullTime 12 3 :=
    hsettles.snapshot.eq (finished_corrections (show 2 < 3 by decide)).snapshot
  -- each of the two has decided on another score
  have hdecided : ∀ who ∈ [one, two], who ≠ firstKey ∧ who ≠ secondKey := by
    intro who hwho
    constructor
    · rintro rfl
      have honlyFirst := honly firstKey hwho
      simp [recordedAt, recordedBy] at honlyFirst
      have hscore : some (score (fullTime 10 1)) = some (score (fullTime 12 3)) :=
        score_of_onlyDecided hrequest honlyFirst
      revert hscore
      decide
    · rintro rfl
      have honlySecond := honly secondKey hwho
      simp [recordedAt, recordedBy, show firstKey ≠ secondKey by decide] at honlySecond
      have hscore : some (score (fullTime 11 2)) = some (score (fullTime 12 3)) :=
        score_of_onlyDecided hrequest' honlySecond
      revert hscore
      decide
  have hlast : ∀ who ∈ [one, two], who ∈ (Escrow.sampleArgs.oracleSet 1).signers →
      who = List.Vector.replicate 32 3 := by
    intro who hwho hmem
    have hmem' : who ∈ [firstKey, secondKey, List.Vector.replicate 32 3] := hmem
    have hthree : who = firstKey ∨ who = secondKey ∨ who = List.Vector.replicate 32 3 := by
      simpa only [List.mem_cons, List.not_mem_nil, or_false] using hmem'
    exact (hthree.resolve_left (hdecided who hwho).1).resolve_left (hdecided who hwho).2
  exact hpair ((hlast one (by simp) hone).trans (hlast two (by simp) htwo).symm)

end Sample

end CalledIt.Signer
