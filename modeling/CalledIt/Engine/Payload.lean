import CalledIt.Engine.Scheduler
import CalledIt.Signer.Contracts

/-!
# CalledIt.Engine.Payload

What becomes of a request between the scheduler and a signer
(`attestation-request-payload.ts`, `control-payload.ts`, `recovery-payload.ts`).

A request is stored as JSON: its integers as decimal text, its bytes as
hexadecimal text.  Before it is sent to the signers every field is checked
against its pattern and read back.  An attestation whose fields pass comes back
as it was (`restoreSettlement_eq`, `restoreVoid_eq`).
-/

namespace CalledIt.Engine.Payload

open Lib
open Escrow (FeedEventKind VoidReason)
open Sdk (JsError JsResult AttestationCommonV1 FeedEventAttestationV1
  PositionInvalidationAttestationV1 SettlementAttestationV1 VoidAttestationV1 ScoreV1 bytesToHex
  hexToBytes isHexDigit)
open Scheduler (WorkflowRequest)

/-! ## texts of a record -/

/-- `item.toString()` of a bigint. -/
def decimalText : Int → List Char
  | .ofNat n => Nat.toDigits 10 n
  | .negSucc n => '-' :: Nat.toDigits 10 (n + 1)

/-- `/^\d+$/`. -/
def isDigits (text : List Char) : Bool := text ≠ [] ∧ text.all Char.isDigit

/-- `BigInt(text)` of a text that one of the patterns admits. -/
def bigInt : List Char → Int
  | '-' :: digits => - (Nat.ofDigitChars 10 digits 0 : Int)
  | digits => Nat.ofDigitChars 10 digits 0

def schemaError : JsError := .error "Invalid"

/-- A field under `/^\d+$/`. -/
def restoreUnsigned (text : List Char) : JsResult Int := do
  require (isDigits text) schemaError
  return bigInt text

def dropSign : List Char → List Char
  | '-' :: digits => digits
  | digits => digits

/-- A field under `/^-?\d+$/`. -/
def restoreSigned (text : List Char) : JsResult Int := do
  require (isDigits (dropSign text)) schemaError
  return bigInt text

/-- A field under `/^[0-9a-fA-F]{64}$/`. -/
def restoreHash (text : List Char) : JsResult (List UInt8) := do
  require (text.length = 64 ∧ text.all isHexDigit) schemaError
  hexToBytes text

/-! ## restoring an attestation -/

/-- `restoreCommon` on the record of an attestation. -/
def restoreCommon (a : AttestationCommonV1) : JsResult AttestationCommonV1 := do
  let clusterGenesisHash ← restoreHash (bytesToHex a.clusterGenesisHash)
  let escrowProgramId ← restoreHash (bytesToHex a.escrowProgramId)
  let marketPda ← restoreHash (bytesToHex a.marketPda)
  let marketDocumentHash ← restoreHash (bytesToHex a.marketDocumentHash)
  let fixtureId ← restoreUnsigned (decimalText a.fixtureId)
  let oracleSetEpoch ← restoreUnsigned (decimalText a.oracleSetEpoch)
  let issuedAt ← restoreSigned (decimalText a.issuedAt)
  let expiresAt ← restoreSigned (decimalText a.expiresAt)
  let evidenceHash ← restoreHash (bytesToHex a.evidenceHash)
  return {
    clusterGenesisHash, escrowProgramId, marketPda, marketDocumentHash, fixtureId, oracleSetEpoch,
    issuedAt, expiresAt, evidenceHash }

def restoreFeedAttestation (a : FeedEventAttestationV1) : JsResult FeedEventAttestationV1 := do
  let common ← restoreCommon a.toAttestationCommonV1
  let eventEpoch ← restoreUnsigned (decimalText a.eventEpoch)
  let decidingSequence ← restoreUnsigned (decimalText a.decidingSequence)
  let observedAt ← restoreSigned (decimalText a.observedAt)
  return { common with eventKind := a.eventKind, eventEpoch, decidingSequence, observedAt }

def restoreInvalidationAttestation (a : PositionInvalidationAttestationV1) :
    JsResult PositionInvalidationAttestationV1 := do
  let common ← restoreCommon a.toAttestationCommonV1
  let positionLotPda ← restoreHash (bytesToHex a.positionLotPda)
  let lotNonce ← restoreUnsigned (decimalText a.lotNonce)
  let observedEventEpoch ← restoreUnsigned (decimalText a.observedEventEpoch)
  let invalidatedEventEpoch ← restoreUnsigned (decimalText a.invalidatedEventEpoch)
  let decidingSequence ← restoreUnsigned (decimalText a.decidingSequence)
  return { common with
    positionLotPda, lotNonce, observedEventEpoch, invalidatedEventEpoch, decidingSequence }

/-- `z.number().int().nonnegative()` on both sides. -/
def validScore (score : ScoreV1) : Bool := 0 ≤ score.home ∧ 0 ≤ score.away

def terminalPhaseTexts : List String := ["F", "FET", "FPE"]

def restoreSettlement (a : SettlementAttestationV1) : JsResult SettlementAttestationV1 := do
  let common ← restoreCommon a.toAttestationCommonV1
  let decidingSequence ← restoreUnsigned (decimalText a.decidingSequence)
  require (a.terminalPhase ∈ terminalPhaseTexts) schemaError
  require (a.regulationScore.all validScore) schemaError
  require (a.fullMatchScore.all validScore) schemaError
  let evidenceSequenceCommitment ← restoreHash (bytesToHex a.evidenceSequenceCommitment)
  let normalizedEvidenceRoot ← restoreHash (bytesToHex a.normalizedEvidenceRoot)
  return { common with
    outcome := a.outcome
    decidingSequence
    terminalPhase := a.terminalPhase
    regulationScore := a.regulationScore
    fullMatchScore := a.fullMatchScore
    evidenceSequenceCommitment
    normalizedEvidenceRoot }

def restoreVoid (a : VoidAttestationV1) : JsResult VoidAttestationV1 := do
  let common ← restoreCommon a.toAttestationCommonV1
  let decidingSequence ← restoreUnsigned (decimalText a.decidingSequence)
  return { common with reason := a.reason, decidingSequence }

/-- What the worker sends to the signers for a stored request. -/
def attestationSigningRequest : WorkflowRequest → JsResult Signer.VerifiedAttestation
  | .freezeMarket a | .unfreezeMarket a => return .feedEvent (← restoreFeedAttestation a)
  | .invalidatePositionLot a =>
      return .positionInvalidation (← restoreInvalidationAttestation a)
  | .settleMarket a => return .settlement (← restoreSettlement a)
  | .voidMarket a => return .void (← restoreVoid a)

/-! ## round trips -/

theorem isDigits_toDigits (n : Nat) : isDigits (Nat.toDigits 10 n) = true := by
  simp only [isDigits, decide_eq_true_eq]
  refine ⟨Nat.toDigits_ne_nil, List.all_eq_true.mpr fun c hc => ?_⟩
  exact Nat.isDigit_of_mem_toDigits (by decide) (by decide) hc

/-- The sign is no digit. -/
theorem bigInt_of_isDigits {text : List Char} (h : isDigits text = true) :
    bigInt text = Nat.ofDigitChars 10 text 0 := by
  unfold bigInt
  split
  · simp [isDigits] at h
  · rfl

theorem dropSign_of_isDigits {text : List Char} (h : isDigits text = true) :
    dropSign text = text := by
  unfold dropSign
  split
  · simp [isDigits] at h
  · rfl

theorem restoreUnsigned_decimalText {n : Int} (h : 0 ≤ n) :
    restoreUnsigned (decimalText n) = .ok n := by
  obtain ⟨m, rfl⟩ := Int.eq_ofNat_of_zero_le h
  have hdigits := isDigits_toDigits m
  have htext : decimalText (m : Int) = Nat.toDigits 10 m := rfl
  rw [restoreUnsigned, htext, require_pos hdigits, ok_bind, bigInt_of_isDigits hdigits,
    Nat.ofDigitChars_ten_toDigits]
  rfl

theorem restoreSigned_decimalText (n : Int) : restoreSigned (decimalText n) = .ok n := by
  cases n with
  | ofNat m =>
      have hdigits := isDigits_toDigits m
      have htext : decimalText (Int.ofNat m) = Nat.toDigits 10 m := rfl
      rw [restoreSigned, htext, dropSign_of_isDigits hdigits, require_pos hdigits, ok_bind,
        bigInt_of_isDigits hdigits, Nat.ofDigitChars_ten_toDigits]
      rfl
  | negSucc m =>
      have hdigits := isDigits_toDigits (m + 1)
      have htext : decimalText (Int.negSucc m) = '-' :: Nat.toDigits 10 (m + 1) := rfl
      have hdrop : dropSign ('-' :: Nat.toDigits 10 (m + 1)) = Nat.toDigits 10 (m + 1) := rfl
      have hvalue : bigInt ('-' :: Nat.toDigits 10 (m + 1)) =
          -(Nat.ofDigitChars 10 (Nat.toDigits 10 (m + 1)) 0 : Int) := rfl
      rw [restoreSigned, htext, hdrop, require_pos hdigits, ok_bind, hvalue,
        Nat.ofDigitChars_ten_toDigits]
      rfl

theorem restoreHash_bytesToHex {bytes : List UInt8} (h : bytes.length = 32) :
    restoreHash (bytesToHex bytes) = .ok bytes := by
  have hlength := Sdk.length_bytesToHex bytes
  have hhex := Sdk.isHexDigit_bytesToHex bytes
  have hpattern : (bytesToHex bytes).length = 64 ∧ (bytesToHex bytes).all isHexDigit = true :=
    ⟨by omega, List.all_eq_true.mpr hhex⟩
  rw [restoreHash, require_pos hpattern, ok_bind, hexToBytes, require_pos, ok_bind,
    Sdk.hexPairs_bytesToHex]
  · rfl
  · rintro (hodd | hbad)
    · omega
    · obtain ⟨c, hc, hnot⟩ := List.any_eq_true.mp hbad
      simp [hhex c hc] at hnot

/-- Fields that a stored record gives back. -/
structure Storable (a : AttestationCommonV1) : Prop where
  clusterGenesisHash : a.clusterGenesisHash.length = 32
  escrowProgramId : a.escrowProgramId.length = 32
  marketPda : a.marketPda.length = 32
  marketDocumentHash : a.marketDocumentHash.length = 32
  fixtureId : 0 ≤ a.fixtureId
  oracleSetEpoch : 0 ≤ a.oracleSetEpoch
  evidenceHash : a.evidenceHash.length = 32

theorem restoreCommon_eq {a : AttestationCommonV1} (h : Storable a) :
    restoreCommon a = .ok a := by
  rw [restoreCommon, restoreHash_bytesToHex h.clusterGenesisHash,
    restoreHash_bytesToHex h.escrowProgramId, restoreHash_bytesToHex h.marketPda,
    restoreHash_bytesToHex h.marketDocumentHash, restoreUnsigned_decimalText h.fixtureId,
    restoreUnsigned_decimalText h.oracleSetEpoch, restoreSigned_decimalText,
    restoreSigned_decimalText, restoreHash_bytesToHex h.evidenceHash]
  rfl

theorem restoreSettlement_eq {a : SettlementAttestationV1}
    (hcommon : Storable a.toAttestationCommonV1) (hsequence : 0 ≤ a.decidingSequence)
    (hphase : a.terminalPhase ∈ terminalPhaseTexts)
    (hregulation : a.regulationScore.all validScore = true)
    (hscore : a.fullMatchScore.all validScore = true)
    (hcommitment : a.evidenceSequenceCommitment.length = 32)
    (hroot : a.normalizedEvidenceRoot.length = 32) : restoreSettlement a = .ok a := by
  rw [restoreSettlement, restoreCommon_eq hcommon, restoreUnsigned_decimalText hsequence,
    require_pos hphase, require_pos hregulation, require_pos hscore,
    restoreHash_bytesToHex hcommitment, restoreHash_bytesToHex hroot]
  rfl

theorem restoreVoid_eq {a : VoidAttestationV1} (hcommon : Storable a.toAttestationCommonV1)
    (hsequence : 0 ≤ a.decidingSequence) : restoreVoid a = .ok a := by
  rw [restoreVoid, restoreCommon_eq hcommon, restoreUnsigned_decimalText hsequence]
  rfl

/-- A settlement of an unfinished match is not sent to a signer. -/
theorem terminalPhase_of_restored {a b : SettlementAttestationV1}
    (h : restoreSettlement a = .ok b) : a.terminalPhase ∈ terminalPhaseTexts := by
  unfold restoreSettlement at h
  simp only [bind_ok_iff, require_ok_iff] at h
  obtain ⟨_, _, _, _, _, hphase, _⟩ := h
  exact hphase

end CalledIt.Engine.Payload
