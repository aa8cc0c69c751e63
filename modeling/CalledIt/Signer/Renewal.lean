import CalledIt.Lib.Run
import CalledIt.Signer.Contracts

/-!
# CalledIt.Signer.Renewal

Which attestations a signer signs again with a new lifetime.

An attestation that expired before it landed is asked for once more, with later
`issuedAt` and `expiresAt` and nothing else changed.  Its journal key is the old
one, so the journal takes it exactly when the journaled hash is the old one too:
for a terminal request always, for a control request only when the lifetime is
in fact the same (`renewable_iff`).
-/

namespace CalledIt.Signer

open Lib
open Sdk (JsResult)

variable {sha256Hex : List UInt8 → String}

variable {journal journal' : Journal} {key hash : String}

namespace Journal

theorem record_ok_iff :
    journal.record key hash = .ok journal' ↔
      (journal.lookup key = some hash ∧ journal' = journal) ∨
      (journal.lookup key = none ∧ journal' = journal.insert key hash) := by
  unfold record
  cases journal.lookup key with
  | none => simp [eq_comm]
  | some prior =>
      by_cases hprior : prior = hash
      · simp [hprior, eq_comm]
      · simp [hprior]

/-- After a record the key holds the recorded hash. -/
theorem lookup_of_record
    (h : journal.record key hash = .ok journal') : journal'.lookup key = some hash := by
  obtain ⟨hlookup, rfl⟩ | ⟨-, rfl⟩ := record_ok_iff.mp h
  · exact hlookup
  · exact AList.lookup_insert journal

/-- Write-once: a record changes no decision that is there. -/
theorem lookup_mono (h : journal.record key hash = .ok journal') {key' hash' : String}
    (hold : journal.lookup key' = some hash') : journal'.lookup key' = some hash' := by
  obtain ⟨-, rfl⟩ | ⟨hnone, rfl⟩ := record_ok_iff.mp h
  · exact hold
  · have hne : key' ≠ key := by
      rintro rfl
      rw [hnone] at hold
      contradiction
    rwa [AList.lookup_insert_ne hne]

/-- A decided key takes its own hash again and no other. -/
theorem record_isOk_iff {prior : String} (h : journal.lookup key = some prior) :
    (∃ journal', journal.record key hash = .ok journal') ↔ hash = prior := by
  simp only [record_ok_iff, h, Option.some.injEq]
  constructor
  · rintro ⟨_, ⟨rfl, -⟩ | ⟨hnone, -⟩⟩
    · rfl
    · contradiction
  · rintro rfl
    exact ⟨journal, .inl ⟨rfl, rfl⟩⟩

theorem record_refused {prior : String} (h : journal.lookup key = some prior) (hne : hash ≠ prior) :
    journal.record key hash = .error (.error "oracle signer refused equivocation") := by
  simp only [record, h]
  rw [if_pos (Ne.symm hne)]

end Journal

/-! ## requests with a new lifetime -/

variable {request : VerifiedAttestation}

namespace VerifiedAttestation

@[simp] theorem isTerminal_withLifetime (request : VerifiedAttestation) (i e : Int) :
    (request.withLifetime i e).isTerminal = request.isTerminal := by
  cases request <;> rfl

@[simp] theorem withLifetime_withLifetime (request : VerifiedAttestation) (i e i' e' : Int) :
    (request.withLifetime i e).withLifetime i' e' = request.withLifetime i' e' := by
  cases request <;> rfl

@[simp] theorem common_withLifetime (request : VerifiedAttestation) (i e : Int) :
    (request.withLifetime i e).common =
      { request.common with issuedAt := i, expiresAt := e } := by
  cases request <;> rfl

/-- A lifetime put back where it was. -/
theorem withLifetime_eq_self_iff {i e : Int} :
    request.withLifetime i e = request ↔
      i = request.common.issuedAt ∧ e = request.common.expiresAt := by
  constructor
  · intro h
    have hcommon := congrArg common h
    rw [common_withLifetime] at hcommon
    exact ⟨congrArg (·.issuedAt) hcommon, congrArg (·.expiresAt) hcommon⟩
  · rintro ⟨rfl, rfl⟩
    cases request <;> rfl

end VerifiedAttestation

/-- The lifetime is no part of any key. -/
@[simp] theorem journalKey_withLifetime (request : VerifiedAttestation) (i e : Int) :
    journalKey (request.withLifetime i e) = journalKey request := by
  cases request <;> rfl

/-! ## what is journaled -/

variable {envelope : OracleSigningEnvelope} {bytes : List UInt8}

theorem parseOracleSigningEnvelope_ok
    (h : parseOracleSigningEnvelope sha256Hex envelope = .ok bytes) :
    envelope.request.encode = .ok bytes ∧ envelope.canonicalSha256Hex = sha256Hex bytes := by
  simp only [parseOracleSigningEnvelope, bind_ok_iff, require_ok_iff, pure_ok_iff, not_or,
    not_not] at h
  obtain ⟨_, hencode, _, ⟨_, hsha, _⟩, rfl⟩ := h
  exact ⟨hencode, hsha.symm⟩

theorem journaledHash_of_terminal (h : envelope.request.isTerminal = true) :
    journaledHash sha256Hex envelope =
      (envelope.request.withLifetime 0 1).encode.map sha256Hex := by
  unfold journaledHash terminalSemanticDecisionHash canonicalDecision
  cases hrequest : envelope.request with
  | feedEvent a => simp [hrequest, VerifiedAttestation.isTerminal] at h
  | positionInvalidation a => simp [hrequest, VerifiedAttestation.isTerminal] at h
  | settlement a => rfl
  | void a => rfl

theorem journaledHash_of_control (h : envelope.request.isTerminal = false) :
    journaledHash sha256Hex envelope = .ok envelope.canonicalSha256Hex := by
  unfold journaledHash
  cases hrequest : envelope.request with
  | feedEvent a => rfl
  | positionInvalidation a => rfl
  | settlement a => simp [hrequest, VerifiedAttestation.isTerminal] at h
  | void a => simp [hrequest, VerifiedAttestation.isTerminal] at h

/-! ## histories of one signer -/

/-- The signer took the envelope: whatever its verifier knew at the time, it
accepted the request, and the journal did too. -/
def Signs (sha256Hex : List UInt8 → String) (journal : Journal)
    (envelope : OracleSigningEnvelope) (journal' : Journal) : Prop :=
  ∃ verify bytes, sign sha256Hex verify journal envelope = .ok (journal', bytes)

theorem sign_ok_iff {verify : VerifiedAttestation → String → JsResult Unit} :
    sign sha256Hex verify journal envelope = .ok (journal', bytes) ↔
      parseOracleSigningEnvelope sha256Hex envelope = .ok bytes ∧
      verify envelope.request envelope.claimSpecificationJson = .ok () ∧
      ∃ hash, journaledHash sha256Hex envelope = .ok hash ∧
        journal.record (journalKey envelope.request) hash = .ok journal' := by
  simp only [sign, bind_ok_iff, pure_ok_iff, Prod.mk.injEq]
  constructor
  · rintro ⟨_, hparse, _, hverify, hash, hhash, _, hrecord, rfl, rfl⟩
    exact ⟨hparse, hverify, hash, hhash, hrecord⟩
  · rintro ⟨hparse, hverify, hash, hhash, hrecord⟩
    exact ⟨bytes, hparse, (), hverify, hash, hhash, journal', hrecord, rfl, rfl⟩

/-- Every envelope of a history is well formed and its hash still stands. -/
def Remembers (sha256Hex : List UInt8 → String) (history : List OracleSigningEnvelope)
    (journal : Journal) : Prop :=
  ∀ envelope ∈ history, (∃ bytes, parseOracleSigningEnvelope sha256Hex envelope = .ok bytes) ∧
    ∃ hash, journaledHash sha256Hex envelope = .ok hash ∧
      journal.lookup (journalKey envelope.request) = some hash

variable {history : List OracleSigningEnvelope}

theorem remembers_step (hstep : Signs sha256Hex journal envelope journal')
    (h : Remembers sha256Hex history journal) :
    Remembers sha256Hex (history ++ [envelope]) journal' := by
  obtain ⟨verify, bytes, hsign⟩ := hstep
  obtain ⟨hparse, -, hash, hhash, hrecord⟩ := sign_ok_iff.mp hsign
  intro e he
  obtain hold | rfl : e ∈ history ∨ e = envelope := by simpa using he
  · obtain ⟨hwell, hash', hhash', hlookup⟩ := h e hold
    exact ⟨hwell, hash', hhash', Journal.lookup_mono hrecord hlookup⟩
  · exact ⟨⟨bytes, hparse⟩, hash, hhash, Journal.lookup_of_record hrecord⟩

theorem remembers_run
    (hrun : Run (Signs sha256Hex) ∅ history journal) : Remembers sha256Hex history journal := by
  have hempty : Remembers sha256Hex [] ∅ := fun _ h => absurd h (by simp)
  simpa using hrun.invariant_trace (I := Remembers sha256Hex) remembers_step hempty

/-! ## renewal -/

/-- The renewal is journaled as its original was, and the journal takes it. -/
def Renews (sha256Hex : List UInt8 → String) (journal : Journal)
    (original renewal : OracleSigningEnvelope) : Prop :=
  journalKey renewal.request = journalKey original.request ∧
  journaledHash sha256Hex renewal = journaledHash sha256Hex original ∧
  ∃ hash journal', journaledHash sha256Hex renewal = .ok hash ∧
    journal.record (journalKey renewal.request) hash = .ok journal'

/-- Only the hash can differ, and the journal decides by the hash. -/
theorem renews_iff_hash (hrun : Run (Signs sha256Hex) ∅ history journal)
    {original renewal : OracleSigningEnvelope} (horiginal : original ∈ history)
    {issuedAt expiresAt : Int}
    (hrenewal : renewal.request = original.request.withLifetime issuedAt expiresAt) :
    Renews sha256Hex journal original renewal ↔
      journaledHash sha256Hex renewal = journaledHash sha256Hex original := by
  obtain ⟨-, hash, hhash, hlookup⟩ := remembers_run hrun original horiginal
  have hkey : journalKey renewal.request = journalKey original.request := by
    rw [hrenewal, journalKey_withLifetime]
  constructor
  · exact fun h => h.2.1
  · intro hsame
    rw [← hkey] at hlookup
    obtain ⟨journal', hrecord⟩ := (Journal.record_isOk_iff hlookup).mpr rfl
    exact ⟨hkey, hsame, hash, journal', hsame.trans hhash, hrecord⟩

/-- **Renewal**: in every journal history, a request signed before is signed
again with another lifetime exactly when it is terminal, or when the lifetime is
no other.  The two canonical encodings are assumed not to collide. -/
theorem renewable_iff {history : List OracleSigningEnvelope} {journal : Journal}
    (hrun : Run (Signs sha256Hex) ∅ history journal) {original renewal : OracleSigningEnvelope}
    (horiginal : original ∈ history) {issuedAt expiresAt : Int}
    (hrenewal : renewal.request = original.request.withLifetime issuedAt expiresAt)
    {bytes : List UInt8} (hparse : parseOracleSigningEnvelope sha256Hex renewal = .ok bytes)
    (hsha : ∀ bytes', original.request.encode = .ok bytes' →
      sha256Hex bytes = sha256Hex bytes' → bytes = bytes') :
    Renews sha256Hex journal original renewal ↔
      original.request.isTerminal = true ∨
      (issuedAt = original.request.common.issuedAt ∧
        expiresAt = original.request.common.expiresAt) := by
  obtain ⟨⟨bytes', hparse'⟩, -⟩ := remembers_run hrun original horiginal
  obtain ⟨hencode, hbinding⟩ := parseOracleSigningEnvelope_ok hparse
  obtain ⟨hencode', hbinding'⟩ := parseOracleSigningEnvelope_ok hparse'
  rw [renews_iff_hash hrun horiginal hrenewal]
  have hterminal : renewal.request.isTerminal = original.request.isTerminal := by
    rw [hrenewal, VerifiedAttestation.isTerminal_withLifetime]
  cases hkind : original.request.isTerminal with
  | true =>
      rw [journaledHash_of_terminal hkind, journaledHash_of_terminal (hterminal.trans hkind),
        hrenewal, VerifiedAttestation.withLifetime_withLifetime]
      simp
  | false =>
      rw [journaledHash_of_control hkind, journaledHash_of_control (hterminal.trans hkind),
        hbinding, hbinding', ← VerifiedAttestation.withLifetime_eq_self_iff, ← hrenewal]
      simp only [Except.ok.injEq, Bool.false_eq_true, false_or]
      constructor
      · intro hhash
        rw [hsha bytes' hencode' hhash] at hencode
        exact VerifiedAttestation.encode_inj hencode hencode'
      · intro hrequest
        rw [hrequest, hencode', Except.ok.injEq] at hencode
        rw [hencode]

/-- A request with all its bindings in place. -/
def envelopeOf (sha256Hex : List UInt8 → String) (request : VerifiedAttestation)
    (bytes : List UInt8) : OracleSigningEnvelope :=
  { request
    canonicalBytes := bytes
    canonicalSha256Hex := sha256Hex bytes
    clusterGenesisHashHex := hexText request.common.clusterGenesisHash
    programIdHex := hexText request.common.escrowProgramId
    marketPdaHex := hexText request.common.marketPda
    marketDocumentHashHex := hexText request.common.marketDocumentHash
    oracleSetEpoch := toString request.common.oracleSetEpoch
    evidenceHashHex := hexText request.common.evidenceHash
    claimSpecificationJson := "{}" }

theorem parse_envelopeOf (h : request.encode = .ok bytes) :
    parseOracleSigningEnvelope sha256Hex (envelopeOf sha256Hex request bytes) = .ok bytes := by
  simp [parseOracleSigningEnvelope, envelopeOf, h, require, pure, Except.pure]

/-- A first request is always journaled. -/
theorem signs_first (h : request.encode = .ok bytes)
    (hhash : journaledHash sha256Hex (envelopeOf sha256Hex request bytes) = .ok hash) :
    Run (Signs sha256Hex) ∅ [envelopeOf sha256Hex request bytes]
      ((∅ : Journal).insert (journalKey request) hash) := by
  have hrecord : Journal.record ∅ (journalKey request) hash =
      .ok ((∅ : Journal).insert (journalKey request) hash) :=
    Journal.record_ok_iff.mpr (.inr ⟨rfl, rfl⟩)
  exact .single ⟨fun _ _ => .ok (), bytes,
    sign_ok_iff.mpr ⟨parse_envelopeOf h, rfl, hash, hhash, hrecord⟩⟩

def sampleCommon (issuedAt expiresAt : Int) : Sdk.AttestationCommonV1 where
  clusterGenesisHash := List.replicate 32 1
  escrowProgramId := List.replicate 32 2
  marketPda := List.replicate 32 3
  marketDocumentHash := List.replicate 32 4
  fixtureId := 42
  oracleSetEpoch := 9
  issuedAt
  expiresAt
  evidenceHash := List.replicate 32 5

/-- A market is frozen at event epoch 6, on the event with sequence 88. -/
def sampleFreeze : VerifiedAttestation :=
  .feedEvent { sampleCommon 100 400 with
    eventKind := .freeze, eventEpoch := 6, decidingSequence := 88, observedAt := 100 }

@[inherit_doc sampleFreeze]
def sampleVoid : VerifiedAttestation :=
  .void { sampleCommon 100 400 with reason := .abandoned, decidingSequence := 91 }

/-- A void that expired is signed again ten minutes later. -/
theorem renewable_iff_void :
    ∃ bytes bytes', sampleVoid.encode = .ok bytes ∧
      (sampleVoid.withLifetime 700 1000).encode = .ok bytes' ∧
      ∃ journal, Run (Signs hexText) ∅ [envelopeOf hexText sampleVoid bytes] journal ∧
        Renews hexText journal (envelopeOf hexText sampleVoid bytes)
          (envelopeOf hexText (sampleVoid.withLifetime 700 1000) bytes') := by
  obtain ⟨bytes, hbytes⟩ := isOk_iff.mp (show sampleVoid.encode.isOk = true by decide +kernel)
  obtain ⟨bytes', hbytes'⟩ := isOk_iff.mp
    (show (sampleVoid.withLifetime 700 1000).encode.isOk = true by decide +kernel)
  obtain ⟨decision, hdecision⟩ := isOk_iff.mp
    (show (sampleVoid.withLifetime 0 1).encode.isOk = true by decide +kernel)
  have hhash : journaledHash hexText (envelopeOf hexText sampleVoid bytes) =
      .ok (hexText decision) := by
    rw [journaledHash_of_terminal rfl]
    exact congrArg (Except.map hexText) hdecision
  have hrun := signs_first hbytes hhash
  exact ⟨bytes, bytes', hbytes, hbytes', _, hrun,
    (renewable_iff hrun (List.mem_singleton_self _) rfl (parse_envelopeOf hbytes')
      fun _ _ h => hexText_inj h).mpr (.inl rfl)⟩

/-- A freeze that expired is refused ten minutes later, unless SHA-256 collides
on the two requests. -/
theorem freeze_not_renewable :
    ∃ bytes bytes', sampleFreeze.encode = .ok bytes ∧
      (sampleFreeze.withLifetime 700 1000).encode = .ok bytes' ∧
      ∀ sha256Hex : List UInt8 → String, sha256Hex bytes' ≠ sha256Hex bytes →
        ∃ journal, Run (Signs sha256Hex) ∅ [envelopeOf sha256Hex sampleFreeze bytes] journal ∧
          sign sha256Hex (fun _ _ => .ok ()) journal
              (envelopeOf sha256Hex (sampleFreeze.withLifetime 700 1000) bytes') =
            .error (.error "oracle signer refused equivocation") ∧
          ¬ Renews sha256Hex journal (envelopeOf sha256Hex sampleFreeze bytes)
            (envelopeOf sha256Hex (sampleFreeze.withLifetime 700 1000) bytes') := by
  obtain ⟨bytes, hbytes⟩ := isOk_iff.mp (show sampleFreeze.encode.isOk = true by decide +kernel)
  obtain ⟨bytes', hbytes'⟩ := isOk_iff.mp
    (show (sampleFreeze.withLifetime 700 1000).encode.isOk = true by decide +kernel)
  refine ⟨bytes, bytes', hbytes, hbytes', fun sha256Hex hne => ?_⟩
  have hhash : journaledHash sha256Hex (envelopeOf sha256Hex sampleFreeze bytes) =
      .ok (sha256Hex bytes) := journaledHash_of_control rfl
  have hhash' : journaledHash sha256Hex
      (envelopeOf sha256Hex (sampleFreeze.withLifetime 700 1000) bytes') =
      .ok (sha256Hex bytes') := journaledHash_of_control rfl
  refine ⟨_, signs_first hbytes hhash, ?_, fun h => hne ?_⟩
  · have hrefused := Journal.record_refused
      (AList.lookup_insert (a := journalKey sampleFreeze) (b := sha256Hex bytes) ∅) hne
    simp only [sign, parse_envelopeOf hbytes', ok_bind, hhash']
    exact congrArg (· >>= _) hrefused
  · have hsame := h.2.1
    rwa [hhash, hhash', Except.ok.injEq] at hsame

end CalledIt.Signer
