import CalledIt.Lib.Store
import CalledIt.Sdk.Encoders

/-!
# CalledIt.Signer.Contracts

What an oracle signer is asked to sign, and under which key it remembers having
signed it (`oracle-signer/src/contracts.ts`, the `/sign` path of `server.ts`).

The schema of the request body only reads text into these values; everything it
bounds is bounded again by the encoders.  SHA-256 with its hexadecimal digest is
the parameter `sha256Hex`.
-/

namespace CalledIt.Signer

open Lib
open Sdk (JsError JsResult AttestationCommonV1 FeedEventAttestationV1
  PositionInvalidationAttestationV1 SettlementAttestationV1 VoidAttestationV1 CanonicalDocument
  SameDocument bytesToHex)

inductive VerifiedAttestation
  | feedEvent (attestation : FeedEventAttestationV1)
  | positionInvalidation (attestation : PositionInvalidationAttestationV1)
  | settlement (attestation : SettlementAttestationV1)
  | void (attestation : VoidAttestationV1)

namespace VerifiedAttestation

def common : VerifiedAttestation → AttestationCommonV1
  | feedEvent a => a.toAttestationCommonV1
  | positionInvalidation a => a.toAttestationCommonV1
  | settlement a => a.toAttestationCommonV1
  | void a => a.toAttestationCommonV1

def document : VerifiedAttestation → CanonicalDocument
  | feedEvent a => .feedEvent a
  | positionInvalidation a => .positionInvalidation a
  | settlement a => .settlement a
  | void a => .void a

def encode (request : VerifiedAttestation) : JsResult (List UInt8) := request.document.encode

/-- `{ ...request.attestation, issuedAt, expiresAt }`. -/
def withLifetime (issuedAt expiresAt : Int) : VerifiedAttestation → VerifiedAttestation
  | feedEvent a => .feedEvent { a with issuedAt, expiresAt }
  | positionInvalidation a => .positionInvalidation { a with issuedAt, expiresAt }
  | settlement a => .settlement { a with issuedAt, expiresAt }
  | void a => .void { a with issuedAt, expiresAt }

/-- Settlements and voids end a market; the other kinds control it. -/
def isTerminal : VerifiedAttestation → Bool
  | settlement _ | void _ => true
  | feedEvent _ | positionInvalidation _ => false

end VerifiedAttestation

def hexText (bytes : List UInt8) : String := String.ofList (bytesToHex bytes)

theorem hexText_inj {a b : List UInt8} (h : hexText a = hexText b) : a = b := by
  have hlist : Sdk.bytesToHex a = Sdk.bytesToHex b := by
    simpa [hexText] using congrArg String.toList h
  rw [← Sdk.hexPairs_bytesToHex a, hlist, Sdk.hexPairs_bytesToHex]

def eventKindText : Escrow.FeedEventKind → String
  | .freeze => "freeze"
  | .unfreeze => "unfreeze"
  | .priceMoving => "price_moving"

/-- The decision a signature commits its signer to. -/
def journalKey (request : VerifiedAttestation) : String :=
  let market := hexText request.common.marketPda
  let epoch := request.common.oracleSetEpoch
  match request with
  | .settlement _ | .void _ => "terminal:v2:" ++ market ++ ":" ++ toString epoch
  | .feedEvent a =>
      "feed:" ++ market ++ ":" ++ toString a.eventEpoch ++ ":" ++ eventKindText a.eventKind
  | .positionInvalidation a =>
      "lot:" ++ market ++ ":" ++ hexText a.positionLotPda ++ ":" ++
        toString a.invalidatedEventEpoch

/-- `kind` and `attestationJson`, restored, with the flat bindings beside them.
The canonical bytes are compared as base64 texts, which are equal when the bytes
are. -/
structure OracleSigningEnvelope where
  request : VerifiedAttestation
  canonicalBytes : List UInt8
  canonicalSha256Hex : String
  clusterGenesisHashHex : String
  programIdHex : String
  marketPdaHex : String
  marketDocumentHashHex : String
  oracleSetEpoch : String
  evidenceHashHex : String
  claimSpecificationJson : String

/-- Write-once decisions: what `OracleSignatureJournal` is to the server. -/
abbrev Journal := Store String String

/-- `recordSerially`, its files left out. -/
def Journal.record (journal : Journal) (key canonicalSha256Hex : String) : JsResult Journal :=
  match journal.lookup key with
  | some prior =>
      if prior ≠ canonicalSha256Hex then .error (.error "oracle signer refused equivocation")
      else .ok journal
  | none => .ok (journal.insert key canonicalSha256Hex)

section Server

variable (sha256Hex : List UInt8 → String)

/-- The canonical bytes of the request, when every binding matches. -/
def parseOracleSigningEnvelope (envelope : OracleSigningEnvelope) : JsResult (List UInt8) := do
  let canonicalBytes ← envelope.request.encode
  let common := envelope.request.common
  require (¬ (canonicalBytes ≠ envelope.canonicalBytes ∨
      sha256Hex canonicalBytes ≠ envelope.canonicalSha256Hex ∨
      hexText common.clusterGenesisHash ≠ envelope.clusterGenesisHashHex ∨
      hexText common.escrowProgramId ≠ envelope.programIdHex ∨
      hexText common.marketPda ≠ envelope.marketPdaHex ∨
      hexText common.marketDocumentHash ≠ envelope.marketDocumentHashHex ∨
      toString common.oracleSetEpoch ≠ envelope.oracleSetEpoch ∨
      hexText common.evidenceHash ≠ envelope.evidenceHashHex))
    (JsError.error "oracle signing envelope binding mismatch")
  return canonicalBytes

/-- A terminal decision is encoded with a fixed lifetime. -/
def canonicalDecision (request : VerifiedAttestation) : JsResult (List UInt8) :=
  match request with
  | .settlement _ | .void _ => (request.withLifetime 0 1).encode
  | .feedEvent _ | .positionInvalidation _ =>
      .error (.error "terminal semantic decision hash requires a terminal attestation")

def terminalSemanticDecisionHash (request : VerifiedAttestation) : JsResult String := do
  return sha256Hex (← canonicalDecision request)

/-- The hash the server journals: the decision of a terminal request, the exact
bytes of any other. -/
def journaledHash (envelope : OracleSigningEnvelope) : JsResult String :=
  match envelope.request with
  | .settlement _ | .void _ => terminalSemanticDecisionHash sha256Hex envelope.request
  | .feedEvent _ | .positionInvalidation _ => .ok envelope.canonicalSha256Hex

/-- `/sign` up to the signature: the journal afterwards and the bytes to sign. -/
def sign (verify : VerifiedAttestation → String → JsResult Unit) (journal : Journal)
    (envelope : OracleSigningEnvelope) : JsResult (Journal × List UInt8) := do
  let canonicalBytes ← parseOracleSigningEnvelope sha256Hex envelope
  verify envelope.request envelope.claimSpecificationJson
  let hash ← journaledHash sha256Hex envelope
  let journal ← journal.record (journalKey envelope.request) hash
  return (journal, canonicalBytes)

end Server

/-! ## canonical bytes -/

namespace VerifiedAttestation

/-- Whatever a signer can sign, the program can hold. -/
theorem exists_document {request : VerifiedAttestation} {bytes : List UInt8}
    (h : request.encode = .ok bytes) : ∃ d, SameDocument request.document d := by
  cases request with
  | feedEvent a =>
      obtain ⟨a', rfl⟩ := FeedEventAttestationV1.exists_ofProgram h
      exact ⟨_, .feedEvent a'⟩
  | positionInvalidation a =>
      obtain ⟨a', rfl⟩ := PositionInvalidationAttestationV1.exists_ofProgram h
      exact ⟨_, .positionInvalidation a'⟩
  | settlement a =>
      obtain ⟨a', ha, hdecided⟩ := SettlementAttestationV1.exists_ofProgram h
      rw [ha]
      exact ⟨_, .settlement hdecided⟩
  | void a =>
      obtain ⟨a', rfl⟩ := VoidAttestationV1.exists_ofProgram h
      exact ⟨_, .void a'⟩

theorem onChain_inj {a b : Sdk.ClaimOutcome} (h : a.onChain = b.onChain) : a = b := by
  cases a <;> cases b <;> first | rfl | cases h

theorem eq_of_sameDocument {a b : VerifiedAttestation} {d : Escrow.Document}
    (ha : SameDocument a.document d) (hb : SameDocument b.document d) : a = b := by
  cases a <;> simp only [document] at ha <;> cases ha <;>
    cases b <;> simp only [document] at hb <;> cases hb <;> try rfl
  next ha _ hb => rw [onChain_inj (ha.trans hb.symm)]

/-- Equal bytes are the same request, its kind included. -/
theorem encode_inj {a b : VerifiedAttestation} {bytes : List UInt8} (ha : a.encode = .ok bytes)
    (hb : b.encode = .ok bytes) : a = b := by
  obtain ⟨d, hd⟩ := exists_document ha
  obtain ⟨d', hd'⟩ := exists_document hb
  have heq := Escrow.Document.eq_of_encode (hd.encode_iff.mp ha) (hd'.encode_iff.mp hb)
  rw [← heq] at hd'
  exact eq_of_sameDocument hd hd'

end VerifiedAttestation

end CalledIt.Signer
