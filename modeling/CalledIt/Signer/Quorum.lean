import CalledIt.Escrow.Attestations
import CalledIt.Signer.Renewal

/-!
# CalledIt.Signer.Quorum

Three signers, each remembering what it decided, cannot put two decisions on
chain.

Each signer is a service of its own: it records a request in its journal and
afterwards signs the canonical bytes, and between the two anything may happen,
at this signer or at another.  A journal takes one terminal decision for a market
and oracle-set epoch, whatever the lifetime of the attestation that carries it;
two pairs of three signers have a signer in common; so two attestations that both
pass `verify_threshold_signatures` carry the same decision
(`one_terminal_decision`).
-/

namespace CalledIt.Signer

open Lib
open Sdk (JsResult SameDocument)
open Escrow (Pubkey OracleSet AcceptedOracleSet Instruction Occurs verifyThresholdSignatures)

/-! ## the services -/

/-- One signer: its journal, the bytes whose record returned and whose signature
is still to be made, and the signatures it has made. -/
structure SignerState where
  journal : Journal
  recorded : List (List UInt8)
  signed : List (List UInt8)

/-- All signers, by public key. -/
abbrev Oracles := Pubkey → SignerState

def Oracles.initial : Oracles := fun _ => ⟨∅, [], []⟩

inductive SignerEvent
  | record (who : Pubkey) (envelope : OracleSigningEnvelope)
  | reject (who : Pubkey) (envelope : OracleSigningEnvelope)
  | sign (who : Pubkey) (bytes : List UInt8)
  | restart (who : Pubkey)

section Services

variable (sha256Hex : List UInt8 → String)

/-- The steps of the services.  A verifier reads feeds and accounts that change,
so it may answer anything at any time; a restart loses what was in flight and
keeps the journal. -/
inductive Oracles.Step : Oracles → SignerEvent → Oracles → Prop
  | record {s : Oracles} {who : Pubkey} {envelope : OracleSigningEnvelope}
      {verify : VerifiedAttestation → String → JsResult Unit} {journal : Journal}
      {bytes : List UInt8} :
      Signer.sign sha256Hex verify (s who).journal envelope = .ok (journal, bytes) →
      Step s (.record who envelope) (Function.update s who
        { s who with journal, recorded := bytes :: (s who).recorded })
  | reject {s : Oracles} {who : Pubkey} {envelope : OracleSigningEnvelope}
      {verify : VerifiedAttestation → String → JsResult Unit} {e : Sdk.JsError} :
      Signer.sign sha256Hex verify (s who).journal envelope = .error e →
      Step s (.reject who envelope) s
  | sign {s : Oracles} {who : Pubkey} {bytes : List UInt8} :
      bytes ∈ (s who).recorded →
      Step s (.sign who bytes) (Function.update s who
        { s who with
          recorded := (s who).recorded.erase bytes
          signed := bytes :: (s who).signed })
  | restart {s : Oracles} {who : Pubkey} :
      Step s (.restart who) (Function.update s who { s who with recorded := [] })

end Services

variable {sha256Hex : List UInt8 → String}

/-! ## what a signature is backed by -/

/-- A request with these bytes is journaled. -/
def Backed (sha256Hex : List UInt8 → String) (journal : Journal) (bytes : List UInt8) : Prop :=
  ∃ envelope : OracleSigningEnvelope, envelope.request.encode = .ok bytes ∧
    ∃ hash, journaledHash sha256Hex envelope = .ok hash ∧
      journal.lookup (journalKey envelope.request) = some hash

/-- Whatever a signer has signed or is about to sign is journaled. -/
def SignerState.AllBacked (sha256Hex : List UInt8 → String) (signer : SignerState) : Prop :=
  ∀ bytes, bytes ∈ signer.recorded ∨ bytes ∈ signer.signed →
    Backed sha256Hex signer.journal bytes

variable {journal : Journal} {bytes : List UInt8}

theorem Backed.mono {journal' : Journal} {key hash : String}
    (h : journal.record key hash = .ok journal')
    (hbacked : Backed sha256Hex journal bytes) : Backed sha256Hex journal' bytes := by
  obtain ⟨envelope, hencode, hash', hhash, hlookup⟩ := hbacked
  exact ⟨envelope, hencode, hash', hhash, Journal.lookup_mono h hlookup⟩

variable {verify : VerifiedAttestation → String → JsResult Unit} {envelope : OracleSigningEnvelope}

theorem allBacked_record {signer : SignerState} (h : signer.AllBacked sha256Hex)
    (hsign : Signer.sign sha256Hex verify signer.journal envelope = .ok (journal, bytes)) :
    SignerState.AllBacked sha256Hex
      { signer with journal, recorded := bytes :: signer.recorded } := by
  obtain ⟨hparse, -, hash, hhash, hrecord⟩ := sign_ok_iff.mp hsign
  intro other hother
  obtain rfl | hold : other = bytes ∨ (other ∈ signer.recorded ∨ other ∈ signer.signed) := by
    simpa [or_assoc] using hother
  · exact ⟨envelope, (parseOracleSigningEnvelope_ok hparse).1, hash, hhash,
      Journal.lookup_of_record hrecord⟩
  · exact (h other hold).mono hrecord

theorem allBacked_sign {signer : SignerState} (h : signer.AllBacked sha256Hex)
    (hbytes : bytes ∈ signer.recorded) :
    SignerState.AllBacked sha256Hex
      { signer with
        recorded := signer.recorded.erase bytes
        signed := bytes :: signer.signed } := by
  intro other hother
  apply h
  simp only [List.mem_cons] at hother
  obtain hrecorded | rfl | hsigned := hother
  · exact .inl (List.mem_of_mem_erase hrecorded)
  · exact .inl hbytes
  · exact .inr hsigned

variable {s : Oracles}

theorem allBacked_step {t : Oracles} {e : SignerEvent} (hstep : Oracles.Step sha256Hex s e t)
    (h : ∀ key, (s key).AllBacked sha256Hex) (key : Pubkey) : (t key).AllBacked sha256Hex := by
  -- only the signer that takes the step changes
  have hframe : ∀ {who : Pubkey} {signer : SignerState}, signer.AllBacked sha256Hex →
      (Function.update s who signer key).AllBacked sha256Hex := by
    intro who signer hsigner
    by_cases hkey : key = who
    · rw [hkey, Function.update_self]
      exact hsigner
    · rw [Function.update_of_ne hkey]
      exact h key
  cases hstep with
  | record hsign => exact hframe (allBacked_record (h _) hsign)
  | reject _ => exact h key
  | sign hbytes => exact hframe (allBacked_sign (h _) hbytes)
  | restart => exact hframe fun bytes hbytes => h _ bytes (.inr (by simpa using hbytes))

theorem allBacked_run {trace : List SignerEvent}
    (hrun : Run (Oracles.Step sha256Hex) .initial trace s) (key : Pubkey) :
    (s key).AllBacked sha256Hex := by
  have hinitial : ∀ key, (Oracles.initial key).AllBacked sha256Hex := by
    intro _ bytes hbytes
    simp [Oracles.initial] at hbytes
  exact hrun.invariant (I := fun s => ∀ key, (s key).AllBacked sha256Hex)
    (fun hstep h => allBacked_step hstep h) hinitial key

/-! ## terminal decisions -/

/-- An attestation that ends a market, as the program decodes it. -/
inductive TerminalAttestation
  | settlement (a : Escrow.SettlementAttestationV1)
  | void (a : Escrow.VoidAttestationV1)

variable {a b : TerminalAttestation} {request : VerifiedAttestation}

namespace TerminalAttestation

def common : TerminalAttestation → Escrow.AttestationCommonV1
  | settlement a => a.common
  | void a => a.common

def document : TerminalAttestation → Escrow.Document
  | settlement a => .settlement a
  | void a => .void a

/-- The attestation with its lifetime blanked out: everything it decides. -/
def decision : TerminalAttestation → TerminalAttestation
  | settlement a => .settlement { a with common := { a.common with issuedAt := 0, expiresAt := 1 } }
  | void a => .void { a with common := { a.common with issuedAt := 0, expiresAt := 1 } }

theorem document_inj (h : a.document = b.document) : a = b := by
  cases a <;> cases b <;> cases h <;> rfl

/-- A request with the bytes of a terminal attestation is that attestation. -/
theorem sameDocument_of_bytes (ha : a.document.encode = some bytes)
    (hrequest : request.encode = .ok bytes) : SameDocument request.document a.document := by
  obtain ⟨d, hd⟩ := VerifiedAttestation.exists_document hrequest
  rwa [Escrow.Document.eq_of_encode ha (hd.encode_iff.mp hrequest)]

section

variable (h : SameDocument request.document a.document)

include h

theorem isTerminal_of_same : request.isTerminal = true := by
  cases request <;> cases a <;> first | rfl | cases h

theorem journalKey_of_same :
    journalKey request = "terminal:v2:" ++ hexText a.common.marketPda.toList ++ ":" ++
      toString (a.common.oracleSetEpoch.toNat : Int) := by
  cases request <;> cases a <;> cases h <;> rfl

/-- Blanking the lifetime is the same on both sides. -/
theorem sameDocument_decision :
    SameDocument (request.withLifetime 0 1).document a.decision.document := by
  cases request <;> cases a <;> cases h
  · next a _ hdecided =>
      exact .settlement
        (a := { a with common := { a.common with issuedAt := 0, expiresAt := 1 } }) hdecided
  · next a => exact .void { a with common := { a.common with issuedAt := 0, expiresAt := 1 } }

end

end TerminalAttestation

open TerminalAttestation

/-- One signer backs one decision for a market and an epoch. -/
theorem decision_eq_of_backed (hsha : Function.Injective sha256Hex) {bytesA bytesB : List UInt8}
    (ha : a.document.encode = some bytesA) (hb : b.document.encode = some bytesB)
    (hmarket : a.common.marketPda = b.common.marketPda)
    (hepoch : a.common.oracleSetEpoch = b.common.oracleSetEpoch)
    (hbackedA : Backed sha256Hex journal bytesA) (hbackedB : Backed sha256Hex journal bytesB) :
    a.decision = b.decision := by
  obtain ⟨x, hx, hashA, hhashA, hlookupA⟩ := hbackedA
  obtain ⟨y, hy, hashB, hhashB, hlookupB⟩ := hbackedB
  have hsameA := sameDocument_of_bytes ha hx
  have hsameB := sameDocument_of_bytes hb hy
  have hkey : journalKey x.request = journalKey y.request := by
    rw [journalKey_of_same hsameA, journalKey_of_same hsameB, hmarket, hepoch]
  have hhash : hashA = hashB := by
    rw [hkey, hlookupB, Option.some.injEq] at hlookupA
    exact hlookupA.symm
  rw [journaledHash_of_terminal (isTerminal_of_same hsameA)] at hhashA
  rw [journaledHash_of_terminal (isTerminal_of_same hsameB)] at hhashB
  -- both decisions were encoded and hashed; the hash gives the bytes, the bytes the document
  obtain ⟨decisionA, hdecisionA, rfl⟩ := map_ok_iff.mp hhashA
  obtain ⟨decisionB, hdecisionB, rfl⟩ := map_ok_iff.mp hhashB
  have hbytes := hsha hhash
  have hA := (sameDocument_decision hsameA).encode_iff.mp hdecisionA
  have hB := (sameDocument_decision hsameB).encode_iff.mp hdecisionB
  rw [hbytes] at hA
  exact document_inj (Escrow.Document.eq_of_encode hA hB)

/-! ## quorums -/

/-- Two distinct pinned signers have signed the bytes. -/
def SignedByTwo (oracleSet : OracleSet) (s : Oracles) (bytes : List UInt8) : Prop :=
  ∃ a ∈ oracleSet.signers, ∃ b ∈ oracleSet.signers,
    a ≠ b ∧ bytes ∈ (s a).signed ∧ bytes ∈ (s b).signed

/-- Two pairs out of three have a member in common. -/
theorem exists_common_of_pairs {l : List α} (hcount : l.length = 3) {a b c d : α} (ha : a ∈ l)
    (hb : b ∈ l) (hc : c ∈ l) (hd : d ∈ l) (hab : a ≠ b) (hcd : c ≠ d) :
    a = c ∨ a = d ∨ b = c ∨ b = d := by
  obtain ⟨x, y, z, rfl⟩ := List.length_eq_three.mp hcount
  simp only [List.mem_cons, List.not_mem_nil, or_false] at ha hb hc hd
  grind

variable {oracleSet : OracleSet}

theorem exists_common_signer (hset : AcceptedOracleSet oracleSet) {bytes' : List UInt8}
    (h : SignedByTwo oracleSet s bytes) (h' : SignedByTwo oracleSet s bytes') :
    ∃ key, bytes ∈ (s key).signed ∧ bytes' ∈ (s key).signed := by
  obtain ⟨a, ha, b, hb, hab, hsa, hsb⟩ := h
  obtain ⟨c, hc, d, hd, hcd, hsc, hsd⟩ := h'
  obtain rfl | rfl | rfl | rfl := exists_common_of_pairs hset.count ha hb hc hd hab hcd
  · exact ⟨a, hsa, hsc⟩
  · exact ⟨a, hsa, hsd⟩
  · exact ⟨b, hsb, hsc⟩
  · exact ⟨b, hsb, hsd⟩

/-- No signature of a pinned key in these instructions is forged. -/
def Unforged (oracleSet : OracleSet) (s : Oracles) (preceding : List Instruction)
    (message : List UInt8) : Prop :=
  ∀ key ∈ oracleSet.signers, Occurs message preceding key → message ∈ (s key).signed

/-- A transaction the program accepts for an attestation. -/
def AcceptedOnChain (oracleSet : OracleSet) (s : Oracles) (attestation : TerminalAttestation) :
    Prop :=
  ∃ bytes preceding now, attestation.document.encode = some bytes ∧
    Unforged oracleSet s preceding bytes ∧
    verifyThresholdSignatures oracleSet preceding bytes now attestation.common.issuedAt
      attestation.common.expiresAt = .ok ()

theorem signedByTwo_of_accepted (hset : AcceptedOracleSet oracleSet)
    {attestation : TerminalAttestation} (h : AcceptedOnChain oracleSet s attestation) :
    ∃ bytes, attestation.document.encode = some bytes ∧ SignedByTwo oracleSet s bytes := by
  obtain ⟨bytes, preceding, now, hencode, hunforged, hverify⟩ := h
  obtain ⟨-, -, -, -, a, ha, b, hb, hne, hoccA, hoccB⟩ :=
    (Escrow.verifyThresholdSignatures_ok_iff hset).mp hverify
  exact ⟨bytes, hencode, a, ha, b, hb, hne, hunforged a ha hoccA, hunforged b hb hoccB⟩

theorem decision_eq_of_signed (hsha : Function.Injective sha256Hex)
    (hset : AcceptedOracleSet oracleSet) {trace : List SignerEvent}
    (hrun : Run (Oracles.Step sha256Hex) .initial trace s) {bytesA bytesB : List UInt8}
    (ha : a.document.encode = some bytesA) (hb : b.document.encode = some bytesB)
    (hmarket : a.common.marketPda = b.common.marketPda)
    (hepoch : a.common.oracleSetEpoch = b.common.oracleSetEpoch)
    (hsignedA : SignedByTwo oracleSet s bytesA) (hsignedB : SignedByTwo oracleSet s bytesB) :
    a.decision = b.decision := by
  obtain ⟨key, hkeyA, hkeyB⟩ := exists_common_signer hset hsignedA hsignedB
  have hbacked := allBacked_run hrun key
  exact decision_eq_of_backed hsha ha hb hmarket hepoch (hbacked bytesA (.inr hkeyA))
    (hbacked bytesB (.inr hkeyB))

/-- **One terminal decision**: in every interleaving of the signers' steps, two
terminal attestations of one market and oracle-set epoch that two pinned signers
each have signed decide the same, and so do two that pass the program's
signature check. -/
theorem one_terminal_decision (hsha : Function.Injective sha256Hex) {oracleSet : OracleSet}
    (hset : AcceptedOracleSet oracleSet) {trace : List SignerEvent} {s : Oracles}
    (hrun : Run (Oracles.Step sha256Hex) .initial trace s) {a b : TerminalAttestation}
    (hmarket : a.common.marketPda = b.common.marketPda)
    (hepoch : a.common.oracleSetEpoch = b.common.oracleSetEpoch) :
    (∀ bytesA bytesB, a.document.encode = some bytesA → b.document.encode = some bytesB →
      SignedByTwo oracleSet s bytesA → SignedByTwo oracleSet s bytesB →
      a.decision = b.decision) ∧
    (AcceptedOnChain oracleSet s a → AcceptedOnChain oracleSet s b →
      a.decision = b.decision) := by
  refine ⟨fun _ _ ha hb hsignedA hsignedB =>
    decision_eq_of_signed hsha hset hrun ha hb hmarket hepoch hsignedA hsignedB, ?_⟩
  intro hacceptedA hacceptedB
  obtain ⟨_, ha, hsignedA⟩ := signedByTwo_of_accepted hset hacceptedA
  obtain ⟨_, hb, hsignedB⟩ := signedByTwo_of_accepted hset hacceptedB
  exact decision_eq_of_signed hsha hset hrun ha hb hmarket hepoch hsignedA hsignedB

/-- A request taken by a signer and signed at once. -/
theorem run_record_sign {who : Pubkey}
    (h : Signer.sign sha256Hex verify (s who).journal envelope = .ok (journal, bytes)) :
    Run (Oracles.Step sha256Hex) s [.record who envelope, .sign who bytes]
      (Function.update s who
        { journal, recorded := (s who).recorded, signed := bytes :: (s who).signed }) := by
  refine (Run.single (.record h)).append (.single ?_)
  have hsign : Oracles.Step sha256Hex
      (Function.update s who { s who with journal, recorded := bytes :: (s who).recorded })
      (.sign who bytes) _ := .sign (by simp)
  simpa using hsign

/-- Two signers sign one request and then another that their journals take too. -/
theorem exists_run_two_signers {one two : Pubkey} (hne : two ≠ one)
    {envelope' : OracleSigningEnvelope} {bytes' : List UInt8}
    (h : sign sha256Hex verify ∅ envelope = .ok (journal, bytes))
    (h' : sign sha256Hex verify journal envelope' = .ok (journal, bytes')) :
    ∃ trace s, Run (Oracles.Step sha256Hex) .initial trace s ∧
      ∀ key ∈ [one, two], bytes ∈ (s key).signed ∧ bytes' ∈ (s key).signed := by
  let s1 := Function.update Oracles.initial one ⟨journal, [], [bytes]⟩
  let s2 := Function.update s1 two ⟨journal, [], [bytes]⟩
  let s3 := Function.update s2 one ⟨journal, [], [bytes', bytes]⟩
  let s4 := Function.update s3 two ⟨journal, [], [bytes', bytes]⟩
  have h1 : s1 two = ⟨∅, [], []⟩ := Function.update_of_ne hne _ _
  have h2 : s2 one = ⟨journal, [], [bytes]⟩ := by
    simp only [s2, s1, Function.update_of_ne hne.symm, Function.update_self]
  have h3 : s3 two = ⟨journal, [], [bytes]⟩ := by
    simp only [s3, s2, Function.update_of_ne hne, Function.update_self]
  have r1 : Run (Oracles.Step sha256Hex) Oracles.initial _ s1 := run_record_sign h
  have r2 : Run (Oracles.Step sha256Hex) s1 [.record two envelope, .sign two bytes] s2 := by
    have hsign : sign sha256Hex verify (s1 two).journal envelope = .ok (journal, bytes) := by
      rwa [h1]
    have r := run_record_sign hsign
    rwa [h1] at r
  have r3 : Run (Oracles.Step sha256Hex) s2 [.record one envelope', .sign one bytes'] s3 := by
    have hsign : sign sha256Hex verify (s2 one).journal envelope' = .ok (journal, bytes') := by
      rwa [h2]
    have r := run_record_sign hsign
    rwa [h2] at r
  have r4 : Run (Oracles.Step sha256Hex) s3 [.record two envelope', .sign two bytes'] s4 := by
    have hsign : sign sha256Hex verify (s3 two).journal envelope' = .ok (journal, bytes') := by
      rwa [h3]
    have r := run_record_sign hsign
    rwa [h3] at r
  refine ⟨_, s4, ((r1.append r2).append r3).append r4, ?_⟩
  intro key hkey
  obtain rfl | rfl : key = one ∨ key = two := by simpa using hkey
  · simp only [s4, s3, Function.update_of_ne hne.symm, Function.update_self]
    simp
  · simp only [s4, Function.update_self]
    simp

/-- A claim that was lost after extra time. -/
def sampleSettlement (issuedAt expiresAt : Int64) : Escrow.SettlementAttestationV1 where
  common :=
    { clusterGenesisHash := List.Vector.replicate 32 1
      escrowProgramId := List.Vector.replicate 32 2
      marketPda := List.Vector.replicate 32 3
      marketDocumentHash := List.Vector.replicate 32 4
      fixtureId := 42
      oracleSetEpoch := 7
      issuedAt
      expiresAt
      evidenceHash := List.Vector.replicate 32 5 }
  outcome := .claimLost
  decidingSequence := 9
  terminalPhase := "FET"
  regulationScore := some ⟨1, 1⟩
  fullMatchScore := some ⟨1, 2⟩
  evidenceSequenceCommitment := List.Vector.replicate 32 6
  normalizedEvidenceRoot := List.Vector.replicate 32 5

@[inherit_doc sampleSettlement]
def sampleRequest (issuedAt expiresAt : Int64) : VerifiedAttestation :=
  .settlement (.ofProgram .claimLost (sampleSettlement issuedAt expiresAt))

/-- Two signers sign a settlement and, after it expired, sign it again. -/
theorem one_terminal_decision_renewed :
    let first := TerminalAttestation.settlement (sampleSettlement 100 400)
    let again := TerminalAttestation.settlement (sampleSettlement 700 1000)
    ∃ trace s bytesA bytesB, Run (Oracles.Step hexText) .initial trace s ∧
      first.document.encode = some bytesA ∧ again.document.encode = some bytesB ∧
      bytesA ≠ bytesB ∧
      SignedByTwo (Escrow.sampleArgs.oracleSet 1) s bytesA ∧
      SignedByTwo (Escrow.sampleArgs.oracleSet 1) s bytesB ∧
      first.decision = again.decision := by
  intro first again
  obtain ⟨bytesA, hA⟩ := Option.isSome_iff_exists.mp
    (show first.document.encode.isSome = true by decide +kernel)
  obtain ⟨bytesB, hB⟩ := Option.isSome_iff_exists.mp
    (show again.document.encode.isSome = true by decide +kernel)
  have hne : first.document.encode ≠ again.document.encode := by decide +kernel
  have hsame : ∀ i e, SameDocument (sampleRequest i e).document
      (TerminalAttestation.settlement (sampleSettlement i e)).document :=
    fun _ _ => .settlement rfl
  have hrequestA : (sampleRequest 100 400).encode = .ok bytesA := (hsame _ _).encode_iff.mpr hA
  have hrequestB : (sampleRequest 700 1000).encode = .ok bytesB := (hsame _ _).encode_iff.mpr hB
  obtain ⟨decision, hdecision⟩ := isOk_iff.mp
    (show ((sampleRequest 100 400).withLifetime 0 1).encode.isOk = true by decide +kernel)
  -- every record ends in the journal that holds the one decision
  let journal : Journal := (∅ : Journal).insert (journalKey (sampleRequest 100 400))
    (hexText decision)
  have hhash : ∀ i e bytes, journaledHash hexText (envelopeOf hexText (sampleRequest i e) bytes) =
      .ok (hexText decision) := by
    intro i e bytes
    rw [journaledHash_of_terminal rfl]
    exact congrArg (Except.map hexText) hdecision
  have hfirst : sign hexText (fun _ _ => .ok ()) ∅ (envelopeOf hexText (sampleRequest 100 400)
      bytesA) = .ok (journal, bytesA) :=
    sign_ok_iff.mpr ⟨parse_envelopeOf hrequestA, rfl, _, hhash _ _ _,
      Journal.record_ok_iff.mpr (.inr ⟨rfl, rfl⟩)⟩
  have hagain : sign hexText (fun _ _ => .ok ()) journal (envelopeOf hexText
      (sampleRequest 700 1000) bytesB) = .ok (journal, bytesB) :=
    sign_ok_iff.mpr ⟨parse_envelopeOf hrequestB, rfl, _, hhash _ _ _,
      Journal.record_ok_iff.mpr (.inl ⟨AList.lookup_insert _, rfl⟩)⟩
  let one : Pubkey := List.Vector.replicate 32 1
  let two : Pubkey := List.Vector.replicate 32 2
  have hdistinct : two ≠ one := by decide
  obtain ⟨trace, s, hrun, hsigned⟩ := exists_run_two_signers hdistinct hfirst hagain
  have hone := hsigned one (by simp)
  have htwo := hsigned two (by simp)
  have hsignedA : SignedByTwo (Escrow.sampleArgs.oracleSet 1) s bytesA :=
    ⟨one, by decide, two, by decide, hdistinct.symm, hone.1, htwo.1⟩
  have hsignedB : SignedByTwo (Escrow.sampleArgs.oracleSet 1) s bytesB :=
    ⟨one, by decide, two, by decide, hdistinct.symm, hone.2, htwo.2⟩
  have hvalid : Escrow.validateOracleSet Escrow.sampleArgs 0 = .ok () := rfl
  have hset := Escrow.acceptedOracleSet_of_validate 1 hvalid
  refine ⟨trace, s, bytesA, bytesB, hrun, hA, hB, fun h => hne (by rw [hA, hB, h]), hsignedA,
    hsignedB, ?_⟩
  have hmarket : first.common.marketPda = again.common.marketPda := rfl
  have hepoch : first.common.oracleSetEpoch = again.common.oracleSetEpoch := rfl
  have hsha : Function.Injective hexText := fun _ _ h => hexText_inj h
  exact (one_terminal_decision hsha hset hrun hmarket hepoch).1 bytesA bytesB hA hB hsignedA
    hsignedB

end CalledIt.Signer
