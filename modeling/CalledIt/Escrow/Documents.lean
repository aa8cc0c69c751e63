import CalledIt.Escrow.Encoding
import CalledIt.Sdk.Codec

/-!
# CalledIt.Escrow.Documents

Every canonical format is an unambiguous word, and the formats are kept apart
by their domain strings.

Each format is `domainBytes` followed by its `fields`.  The domain string is
length-prefixed, so it can be read off any document without knowing its kind;
the fields of each kind form a prefix code.  Together: two documents of any
kinds with equal bytes are the same document (`document_of_bytes`).
-/

namespace CalledIt.Escrow

open Lib

/-! ## fields as prefix codes -/

variable {s t : List UInt8}

theorem uint16_append_inj {a b : UInt16}
    (h : leBytes 2 a.toNat ++ s = leBytes 2 b.toNat ++ t) : a = b ∧ s = t := by
  obtain ⟨hab, hst⟩ := leBytes_prefixCode 2 a.toNat_lt b.toNat_lt h
  exact ⟨UInt16.toNat_inj.mp hab, hst⟩

theorem uint32_append_inj {a b : UInt32}
    (h : leBytes 4 a.toNat ++ s = leBytes 4 b.toNat ++ t) : a = b ∧ s = t := by
  obtain ⟨hab, hst⟩ := leBytes_prefixCode 4 a.toNat_lt b.toNat_lt h
  exact ⟨UInt32.toNat_inj.mp hab, hst⟩

theorem uint64_append_inj {a b : UInt64}
    (h : leBytes 8 a.toNat ++ s = leBytes 8 b.toNat ++ t) : a = b ∧ s = t := by
  obtain ⟨hab, hst⟩ := leBytes_prefixCode 8 a.toNat_lt b.toNat_lt h
  exact ⟨UInt64.toNat_inj.mp hab, hst⟩

theorem int64_append_inj {a b : Int64}
    (h : leBytes 8 a.toUInt64.toNat ++ s = leBytes 8 b.toUInt64.toNat ++ t) : a = b ∧ s = t := by
  obtain ⟨hab, hst⟩ := uint64_append_inj h
  refine ⟨?_, hst⟩
  rw [← a.toInt64_toUInt64, hab, b.toInt64_toUInt64]

theorem bytes_append_inj {n : Nat} {a b : Bytes n}
    (h : a.toList ++ s = b.toList ++ t) : a = b ∧ s = t :=
  vector_prefixCode n trivial trivial h

theorem utf8_inj {a b : String} (h : utf8 a = utf8 b) : a = b := by
  unfold utf8 at h
  have hdata : a.toUTF8.data = b.toUTF8.data := Array.toList_inj.mp h
  exact String.toByteArray_inj.mp (ByteArray.ext hdata)

/-- A string behind its 16-bit length. -/
def string16Bytes (s : String) : List UInt8 := leBytes 2 (utf8 s).length ++ utf8 s

theorem string16Bytes_prefixCode :
    PrefixCode (fun s : String => (utf8 s).length < 256 ^ 2) string16Bytes :=
  (leBytes_prefixCode 2).lengthPrefixed.comap fun _ _ h => utf8_inj h

/-- An optional score behind its presence byte. -/
def optionalScoreBytes : Option ScoreV1 → List UInt8 :=
  flaggedCode 0 1 fun score => leBytes 2 score.home.toNat ++ leBytes 2 score.away.toNat

theorem optionalScoreBytes_prefixCode : PrefixCode.Total optionalScoreBytes := by
  have hscore : PrefixCode.Total (fun score : ScoreV1 =>
      leBytes 2 score.home.toNat ++ leBytes 2 score.away.toNat) := by
    rintro ⟨home, away⟩ ⟨home', away'⟩ s t _ _ h
    simp only [List.append_assoc] at h
    obtain ⟨e1, h⟩ := uint16_append_inj h
    obtain ⟨e2, h⟩ := uint16_append_inj h
    rw [e1, e2]
    exact ⟨rfl, h⟩
  exact PrefixCode.flagged hscore (by decide)

/-! ## the writer appends fields -/

variable {w : CanonicalWriter}

namespace CanonicalWriter

@[simp] theorem bytes_fixed (w : CanonicalWriter) (bs : List UInt8) :
    (w.fixed bs).bytes = w.bytes ++ bs := rfl

@[simp] theorem bytes_u8 (w : CanonicalWriter) (v : UInt8) :
    (w.u8 v).bytes = w.bytes ++ [v] := rfl

@[simp] theorem bytes_bool (w : CanonicalWriter) (v : Bool) :
    (w.bool v).bytes = w.bytes ++ [if v then 1 else 0] := rfl

@[simp] theorem bytes_u16 (w : CanonicalWriter) (v : UInt16) :
    (w.u16 v).bytes = w.bytes ++ leBytes 2 v.toNat := rfl

@[simp] theorem bytes_u32 (w : CanonicalWriter) (v : UInt32) :
    (w.u32 v).bytes = w.bytes ++ leBytes 4 v.toNat := rfl

@[simp] theorem bytes_u64 (w : CanonicalWriter) (v : UInt64) :
    (w.u64 v).bytes = w.bytes ++ leBytes 8 v.toNat := rfl

@[simp] theorem bytes_i64 (w : CanonicalWriter) (v : Int64) :
    (w.i64 v).bytes = w.bytes ++ leBytes 8 v.toUInt64.toNat := rfl

@[simp] theorem bytes_optionalScore (w : CanonicalWriter) (o : Option ScoreV1) :
    (w.optionalScore o).bytes = w.bytes ++ optionalScoreBytes o := by
  cases o <;> simp [optionalScore, optionalScoreBytes, flaggedCode]

theorem string16_ok {w' : CanonicalWriter} {s : String} {n : Nat} (h : w.string16 s n = .ok w') :
    (utf8 s).length ≤ n ∧ (utf8 s).length ≤ 65535 ∧ w'.bytes = w.bytes ++ string16Bytes s := by
  simp only [string16] at h
  split at h
  · contradiction
  · next hlen =>
    obtain rfl := Except.ok.inj h
    have hle : (utf8 s).length ≤ n ∧ (utf8 s).length ≤ 65535 := by omega
    refine ⟨hle.1, hle.2, ?_⟩
    have hmod : (UInt16.ofNat (utf8 s).length).toNat = (utf8 s).length := by
      rw [UInt16.toNat_ofNat']
      exact Nat.mod_eq_of_lt (by omega)
    rw [bytes_fixed, bytes_u16, hmod, string16Bytes, List.append_assoc]

/-- What every document starts with. -/
def domainBytes (domain : String) : List UInt8 := string16Bytes domain ++ [1]

theorem forDomain_ok {domain : String} (h : forDomain domain = .ok w) :
    w.bytes = domainBytes domain := by
  simp only [forDomain, bind_ok_iff, pure_ok_iff] at h
  obtain ⟨w', hw', rfl⟩ := h
  simp [domainBytes, (string16_ok hw').2.2, schemaVersionV1]

end CanonicalWriter

open CanonicalWriter (domainBytes)

/-! ## the fields of each format -/

def AttestationCommonV1.fields (c : AttestationCommonV1) : List UInt8 :=
  c.clusterGenesisHash.toList ++ (c.escrowProgramId.toList ++ (c.marketPda.toList ++
    (c.marketDocumentHash.toList ++ (leBytes 8 c.fixtureId.toNat ++
      (leBytes 8 c.oracleSetEpoch.toNat ++ (leBytes 8 c.issuedAt.toUInt64.toNat ++
        (leBytes 8 c.expiresAt.toUInt64.toNat ++ c.evidenceHash.toList)))))))

theorem AttestationCommonV1.fields_prefixCode :
    PrefixCode.Total AttestationCommonV1.fields := by
  rintro ⟨⟩ ⟨⟩ s t _ _ h
  simp only [fields, List.append_assoc] at h
  obtain ⟨e1, h⟩ := bytes_append_inj h
  obtain ⟨e2, h⟩ := bytes_append_inj h
  obtain ⟨e3, h⟩ := bytes_append_inj h
  obtain ⟨e4, h⟩ := bytes_append_inj h
  obtain ⟨e5, h⟩ := uint64_append_inj h
  obtain ⟨e6, h⟩ := uint64_append_inj h
  obtain ⟨e7, h⟩ := int64_append_inj h
  obtain ⟨e8, h⟩ := int64_append_inj h
  obtain ⟨e9, h⟩ := bytes_append_inj h
  rw [e1, e2, e3, e4, e5, e6, e7, e8, e9]
  exact ⟨rfl, h⟩

theorem writerForAttestation_ok {domain : String} {c : AttestationCommonV1}
    (h : writerForAttestation domain c = .ok w) :
    w.bytes = domainBytes domain ++ c.fields := by
  simp only [writerForAttestation, bind_ok_iff, require_ok_iff, pure_ok_iff] at h
  obtain ⟨_, _, w', hw', rfl⟩ := h
  simp [AttestationCommonV1.fields, CanonicalWriter.forDomain_ok hw']

def MarketDocumentV1.fields (d : MarketDocumentV1) : List UInt8 :=
  d.marketUuid.toList ++ (leBytes 8 d.fixtureId.toNat ++ (d.claimSpecificationHash.toList ++
    (d.displayTermsHash.toList ++ (assetTag d.asset :: (leBytes 4 d.probabilityPpm.toNat ++
      (leBytes 4 d.ratioMilli.toNat ++ (d.oddsMessageHash.toList ++
        (leBytes 8 d.oddsTimestamp.toUInt64.toNat ++
          (leBytes 8 d.inPlayStartTimestamp.toUInt64.toNat ++
            (leBytes 8 d.activationDelaySeconds.toNat ++
              (leBytes 8 d.positionCutoff.toUInt64.toNat ++
                (leBytes 8 d.resolutionDeadline.toUInt64.toNat ++ (leBytes 2 d.feeBps.toNat ++
                  (leBytes 8 d.oracleSetEpoch.toNat ++
                    [if d.replayFlag then 1 else 0]))))))))))))))

theorem assetTag_inj {a b : Asset} (h : assetTag a = assetTag b) : a = b := by
  cases a <;> cases b <;> first | rfl | contradiction

theorem boolTag_inj {a b : Bool} (h : (if a then (1 : UInt8) else 0) = if b then 1 else 0) :
    a = b := by
  cases a <;> cases b <;> first | rfl | contradiction

theorem MarketDocumentV1.fields_inj {a b : MarketDocumentV1} (h : a.fields = b.fields) :
    a = b := by
  cases a
  cases b
  simp only [fields] at h
  obtain ⟨e1, h⟩ := bytes_append_inj h
  obtain ⟨e2, h⟩ := uint64_append_inj h
  obtain ⟨e3, h⟩ := bytes_append_inj h
  obtain ⟨e4, h⟩ := bytes_append_inj h
  obtain ⟨hasset, h⟩ := List.cons.inj h
  obtain ⟨e5, h⟩ := uint32_append_inj h
  obtain ⟨e6, h⟩ := uint32_append_inj h
  obtain ⟨e7, h⟩ := bytes_append_inj h
  obtain ⟨e8, h⟩ := int64_append_inj h
  obtain ⟨e9, h⟩ := int64_append_inj h
  obtain ⟨e10, h⟩ := uint64_append_inj h
  obtain ⟨e11, h⟩ := int64_append_inj h
  obtain ⟨e12, h⟩ := int64_append_inj h
  obtain ⟨e13, h⟩ := uint16_append_inj h
  obtain ⟨e14, h⟩ := uint64_append_inj h
  have hreplay := boolTag_inj (List.singleton_inj.mp h)
  rw [e1, e2, e3, e4, assetTag_inj hasset, e5, e6, e7, e8, e9, e10, e11, e12, e13, e14, hreplay]

variable {bytes : List UInt8}

theorem MarketDocumentV1.encode_ok {d : MarketDocumentV1} (h : d.encode = .ok bytes) :
    bytes = domainBytes marketDocumentDomainV1 ++ d.fields := by
  simp only [encode, bind_ok_iff, require_ok_iff, pure_ok_iff] at h
  obtain ⟨_, _, _, _, _, _, _, _, w, hw, rfl⟩ := h
  simp [fields, CanonicalWriter.finish, CanonicalWriter.forDomain_ok hw]

def QuoteAttestationV1.fields (a : QuoteAttestationV1) : List UInt8 :=
  a.common.fields ++ (leBytes 4 a.probabilityPpm.toNat ++ (leBytes 4 a.ratioMilli.toNat ++
    leBytes 8 a.oddsTimestamp.toUInt64.toNat))

theorem QuoteAttestationV1.fields_inj {a b : QuoteAttestationV1} (h : a.fields = b.fields) :
    a = b := by
  cases a
  cases b
  simp only [fields] at h
  obtain ⟨e1, h⟩ := AttestationCommonV1.fields_prefixCode trivial trivial h
  obtain ⟨e2, h⟩ := uint32_append_inj h
  obtain ⟨e3, h⟩ := uint32_append_inj h
  obtain ⟨e4, _⟩ := int64_append_inj (congrArg (· ++ []) h)
  rw [e1, e2, e3, e4]

theorem QuoteAttestationV1.encode_ok {a : QuoteAttestationV1} (h : a.encode = .ok bytes) :
    bytes = domainBytes quoteAttestationDomainV1 ++ a.fields := by
  simp only [encode, bind_ok_iff, pure_ok_iff] at h
  obtain ⟨_, _, w, hw, rfl⟩ := h
  simp [fields, CanonicalWriter.finish, writerForAttestation_ok hw]

def FeedEventAttestationV1.fields (a : FeedEventAttestationV1) : List UInt8 :=
  a.common.fields ++ (a.eventKind.tag :: (leBytes 8 a.eventEpoch.toNat ++
    (leBytes 8 a.decidingSequence.toNat ++ leBytes 8 a.observedAt.toUInt64.toNat)))

theorem FeedEventKind.tag_inj {a b : FeedEventKind} (h : a.tag = b.tag) : a = b := by
  cases a <;> cases b <;> first | rfl | contradiction

theorem FeedEventAttestationV1.fields_inj {a b : FeedEventAttestationV1}
    (h : a.fields = b.fields) : a = b := by
  cases a
  cases b
  simp only [fields] at h
  obtain ⟨e1, h⟩ := AttestationCommonV1.fields_prefixCode trivial trivial h
  obtain ⟨hkind, h⟩ := List.cons.inj h
  obtain ⟨e2, h⟩ := uint64_append_inj h
  obtain ⟨e3, h⟩ := uint64_append_inj h
  obtain ⟨e4, _⟩ := int64_append_inj (congrArg (· ++ []) h)
  rw [e1, FeedEventKind.tag_inj hkind, e2, e3, e4]

theorem FeedEventAttestationV1.encode_ok {a : FeedEventAttestationV1} (h : a.encode = .ok bytes) :
    bytes = domainBytes feedEventAttestationDomainV1 ++ a.fields := by
  simp only [encode, bind_ok_iff, pure_ok_iff] at h
  obtain ⟨w, hw, rfl⟩ := h
  simp [fields, CanonicalWriter.finish, writerForAttestation_ok hw]

def PositionInvalidationAttestationV1.fields (a : PositionInvalidationAttestationV1) :
    List UInt8 :=
  a.common.fields ++ (a.positionLotPda.toList ++ (leBytes 8 a.lotNonce.toNat ++
    (leBytes 8 a.observedEventEpoch.toNat ++ (leBytes 8 a.invalidatedEventEpoch.toNat ++
      leBytes 8 a.decidingSequence.toNat))))

theorem PositionInvalidationAttestationV1.fields_inj {a b : PositionInvalidationAttestationV1}
    (h : a.fields = b.fields) : a = b := by
  cases a
  cases b
  simp only [fields] at h
  obtain ⟨e1, h⟩ := AttestationCommonV1.fields_prefixCode trivial trivial h
  obtain ⟨e2, h⟩ := bytes_append_inj h
  obtain ⟨e3, h⟩ := uint64_append_inj h
  obtain ⟨e4, h⟩ := uint64_append_inj h
  obtain ⟨e5, h⟩ := uint64_append_inj h
  obtain ⟨e6, _⟩ := uint64_append_inj (congrArg (· ++ []) h)
  rw [e1, e2, e3, e4, e5, e6]

theorem PositionInvalidationAttestationV1.encode_ok {a : PositionInvalidationAttestationV1}
    (h : a.encode = .ok bytes) :
    bytes = domainBytes positionInvalidationDomainV1 ++ a.fields := by
  simp only [encode, bind_ok_iff, require_ok_iff, pure_ok_iff] at h
  obtain ⟨_, _, w, hw, rfl⟩ := h
  simp [fields, CanonicalWriter.finish, writerForAttestation_ok hw]

/-- The tag byte of an outcome that has one. -/
def SettlementOutcome.tag : SettlementOutcome → UInt8
  | .claimLost => 1
  | _ => 0

/-- A settlement names a won or a lost claim. -/
def SettlementOutcome.Decided (o : SettlementOutcome) : Prop := o = .claimWon ∨ o = .claimLost

theorem outcomeTag_ok {o : SettlementOutcome} {tag : UInt8} (h : outcomeTag o = .ok tag) :
    o.Decided ∧ tag = o.tag := by
  cases o <;> simp_all [outcomeTag, SettlementOutcome.Decided, SettlementOutcome.tag]

theorem SettlementOutcome.tag_inj {a b : SettlementOutcome} (ha : a.Decided) (hb : b.Decided)
    (h : a.tag = b.tag) : a = b := by
  cases ha with
  | inl ha => cases hb with
    | inl hb => rw [ha, hb]
    | inr hb => subst ha hb; contradiction
  | inr ha => cases hb with
    | inl hb => subst ha hb; contradiction
    | inr hb => rw [ha, hb]

def SettlementAttestationV1.fields (a : SettlementAttestationV1) : List UInt8 :=
  a.common.fields ++ (a.outcome.tag :: (leBytes 8 a.decidingSequence.toNat ++
    (string16Bytes a.terminalPhase ++ (optionalScoreBytes a.regulationScore ++
      (optionalScoreBytes a.fullMatchScore ++ (a.evidenceSequenceCommitment.toList ++
        a.normalizedEvidenceRoot.toList))))))

/-- What an encoded settlement satisfies besides its layout. -/
structure SettlementAttestationV1.Encodable (a : SettlementAttestationV1) : Prop where
  outcome : a.outcome.Decided
  phase : (utf8 a.terminalPhase).length < 256 ^ 2

variable {a : SettlementAttestationV1}

theorem SettlementAttestationV1.fields_inj {b : SettlementAttestationV1} (ha : a.Encodable)
    (hb : b.Encodable) (h : a.fields = b.fields) : a = b := by
  cases a
  cases b
  simp only [fields] at h
  obtain ⟨e1, h⟩ := AttestationCommonV1.fields_prefixCode trivial trivial h
  obtain ⟨houtcome, h⟩ := List.cons.inj h
  obtain ⟨e2, h⟩ := uint64_append_inj h
  -- the phase carries its own length, so the scores start at a known place
  obtain ⟨e3, h⟩ := string16Bytes_prefixCode ha.phase hb.phase h
  obtain ⟨e4, h⟩ := optionalScoreBytes_prefixCode trivial trivial h
  obtain ⟨e5, h⟩ := optionalScoreBytes_prefixCode trivial trivial h
  obtain ⟨e6, h⟩ := bytes_append_inj h
  obtain ⟨e7, _⟩ := bytes_append_inj (congrArg (· ++ []) h)
  have e8 := SettlementOutcome.tag_inj ha.outcome hb.outcome houtcome
  simp only at e8 e3
  rw [e1, e8, e2, e3, e4, e5, e6, e7]

theorem SettlementAttestationV1.encode_ok (h : a.encode = .ok bytes) :
    a.Encodable ∧ bytes = domainBytes settlementAttestationDomainV1 ++ a.fields := by
  simp only [encode, bind_ok_iff, require_ok_iff, pure_ok_iff] at h
  obtain ⟨_, _, tag, htag, w, hw, w', hw', rfl⟩ := h
  obtain ⟨hdecided, rfl⟩ := outcomeTag_ok htag
  obtain ⟨_, hlen, hbytes⟩ := CanonicalWriter.string16_ok hw'
  refine ⟨⟨hdecided, by omega⟩, ?_⟩
  simp [fields, CanonicalWriter.finish, hbytes, writerForAttestation_ok hw]

/-- A settlement that is valid for a while and names a phase has its bytes. -/
theorem SettlementAttestationV1.exists_encode (houtcome : a.outcome.Decided)
    (hlife : a.common.issuedAt < a.common.expiresAt) (hphase : a.terminalPhase ≠ "")
    (hlength : (utf8 a.terminalPhase).length ≤ 32) :
    ∃ bytes, a.encode = .ok bytes := by
  have htag : outcomeTag a.outcome = .ok a.outcome.tag := by
    rcases houtcome with h | h <;> rw [h] <;> rfl
  have hwriter : ∃ w, writerForAttestation settlementAttestationDomainV1 a.common = .ok w := by
    simp only [writerForAttestation, require, Int64.not_le.mpr hlife]
    exact ⟨_, rfl⟩
  obtain ⟨w, hw⟩ := hwriter
  have hstring : ∃ w', (w |>.u8 a.outcome.tag |>.u64 a.decidingSequence).string16
      a.terminalPhase 32 = .ok w' := by
    simp only [CanonicalWriter.string16]
    rw [if_neg (by omega)]
    exact ⟨_, rfl⟩
  obtain ⟨w', hw'⟩ := hstring
  simp only [encode, bind_ok_iff, require_ok_iff, pure_ok_iff]
  exact ⟨_, (), hphase, _, htag, w, hw, w', hw', rfl⟩

def VoidAttestationV1.fields (a : VoidAttestationV1) : List UInt8 :=
  a.common.fields ++ (a.reason.tag :: leBytes 8 a.decidingSequence.toNat)

theorem VoidReason.tag_inj {a b : VoidReason} (h : a.tag = b.tag) : a = b := by
  cases a <;> cases b <;> first | rfl | contradiction

theorem VoidAttestationV1.fields_inj {a b : VoidAttestationV1} (h : a.fields = b.fields) :
    a = b := by
  cases a
  cases b
  simp only [fields] at h
  obtain ⟨e1, h⟩ := AttestationCommonV1.fields_prefixCode trivial trivial h
  obtain ⟨hreason, h⟩ := List.cons.inj h
  obtain ⟨e2, _⟩ := uint64_append_inj (congrArg (· ++ []) h)
  rw [e1, VoidReason.tag_inj hreason, e2]

theorem VoidAttestationV1.encode_ok {a : VoidAttestationV1} (h : a.encode = .ok bytes) :
    bytes = domainBytes voidAttestationDomainV1 ++ a.fields := by
  simp only [encode, bind_ok_iff, pure_ok_iff] at h
  obtain ⟨w, hw, rfl⟩ := h
  simp [fields, CanonicalWriter.finish, writerForAttestation_ok hw]

/-! ## the client's signing intent -/

end CalledIt.Escrow

namespace CalledIt.Sdk

open Lib
open Escrow (bytes_append_inj string16Bytes)
open Escrow.CanonicalWriter (domainBytes)

theorem unsigned_append_inj {w : Nat} {a b : Int} {s t : List UInt8}
    (ha : 0 ≤ a ∧ a < 256 ^ w) (hb : 0 ≤ b ∧ b < 256 ^ w)
    (h : leBytes w a.toNat ++ s = leBytes w b.toNat ++ t) : a = b ∧ s = t := by
  have ha' : a.toNat < 256 ^ w := by zify; omega
  have hb' : b.toNat < 256 ^ w := by zify; omega
  obtain ⟨hab, hst⟩ := leBytes_prefixCode w ha' hb' h
  exact ⟨by omega, hst⟩

theorem signed_append_inj {a b : Int} {s t : List UInt8}
    (ha : i64Min ≤ a ∧ a ≤ i64Max) (hb : i64Min ≤ b ∧ b ≤ i64Max)
    (h : leBytes 8 (a % 2 ^ 64).toNat ++ s = leBytes 8 (b % 2 ^ 64).toNat ++ t) :
    a = b ∧ s = t := by
  obtain ⟨hab, hst⟩ := unsigned_append_inj (by omega) (by omega) h
  unfold i64Min i64Max at ha hb
  exact ⟨by omega, hst⟩

variable {w w' : CanonicalWriter} {name : String} {v : Int}

namespace CanonicalWriter

theorem fixed_ok {bs : List UInt8} {n : Nat}
    (h : w.fixed bs n name = .ok w') : bs.length = n ∧ w'.chunks = w.chunks ++ bs := by
  simp only [fixed, assertLength, bind_ok_iff, require_ok_iff, pure_ok_iff] at h
  obtain ⟨_, ⟨_, hlen, rfl⟩, rfl⟩ := h
  exact ⟨hlen, rfl⟩

theorem assertInteger_ok {v' lo hi : Int}
    (h : assertInteger v name lo hi = .ok v') : (lo ≤ v ∧ v ≤ hi) ∧ v' = v := by
  simp only [assertInteger, bind_ok_iff, require_ok_iff, pure_ok_iff] at h
  obtain ⟨_, hr, rfl⟩ := h
  exact ⟨by omega, rfl⟩

theorem u8_ok (h : w.u8 v name = .ok w') :
    (0 ≤ v ∧ v < 256 ^ 1) ∧ w'.chunks = w.chunks ++ leBytes 1 v.toNat := by
  simp only [u8, bind_ok_iff, pure_ok_iff] at h
  obtain ⟨v', hv, rfl⟩ := h
  obtain ⟨hr, rfl⟩ := assertInteger_ok hv
  unfold u8Max at hr
  exact ⟨by omega, rfl⟩

theorem u16_ok (h : w.u16 v name = .ok w') :
    w'.chunks = w.chunks ++ leBytes 2 v.toNat := by
  simp only [u16, bind_ok_iff, pure_ok_iff] at h
  obtain ⟨v', hv, rfl⟩ := h
  rw [(assertInteger_ok hv).2]
  rfl

theorem u32_ok (h : w.u32 v name = .ok w') :
    (0 ≤ v ∧ v < 256 ^ 4) ∧ w'.chunks = w.chunks ++ leBytes 4 v.toNat := by
  simp only [u32, bind_ok_iff, pure_ok_iff] at h
  obtain ⟨v', hv, rfl⟩ := h
  obtain ⟨hr, rfl⟩ := assertInteger_ok hv
  unfold u32Max at hr
  exact ⟨by omega, rfl⟩

theorem u64_ok (h : w.u64 v name = .ok w') :
    (0 ≤ v ∧ v < 256 ^ 8) ∧ w'.chunks = w.chunks ++ leBytes 8 v.toNat := by
  simp only [u64, assertU64, bind_ok_iff, require_ok_iff, pure_ok_iff] at h
  obtain ⟨v', ⟨_, hr, rfl⟩, rfl⟩ := h
  unfold u64Max at hr
  exact ⟨by omega, rfl⟩

theorem i64_ok (h : w.i64 v name = .ok w') :
    (i64Min ≤ v ∧ v ≤ i64Max) ∧ w'.chunks = w.chunks ++ leBytes 8 (v % 2 ^ 64).toNat := by
  simp only [i64, assertI64, bind_ok_iff, require_ok_iff, pure_ok_iff] at h
  obtain ⟨v', ⟨_, hr, rfl⟩, rfl⟩ := h
  exact ⟨by omega, rfl⟩

theorem string16_ok {s : String} {n : Nat}
    (h : w.string16 s name n = .ok w') : w'.chunks = w.chunks ++ string16Bytes s := by
  simp only [string16, boundedUtf8, bind_ok_iff, require_ok_iff, pure_ok_iff] at h
  obtain ⟨_, ⟨_, _, rfl⟩, w'', hw'', rfl⟩ := h
  simp [bytes, u16_ok hw'', string16Bytes]

theorem writeDomain_ok {domain : String}
    (h : writeDomain ⟨[]⟩ domain = .ok w) : w.chunks = domainBytes domain := by
  simp only [writeDomain, bind_ok_iff] at h
  obtain ⟨w', hw', hw⟩ := h
  rw [(u8_ok hw).2, string16_ok hw', domainBytes]
  rfl

end CanonicalWriter

/-- One byte per two-valued field. -/
def sideByte (side : Escrow.PositionSide) : Int := if side = .back then 0 else 1

def assetByte (asset : Escrow.Asset) : Int := if asset = .sol then 0 else 1

theorem sideByte_inj {a b : Escrow.PositionSide} (h : sideByte a = sideByte b) : a = b := by
  cases a <;> cases b <;> simp_all [sideByte]

theorem assetByte_inj {a b : Escrow.Asset} (h : assetByte a = assetByte b) : a = b := by
  cases a <;> cases b <;> simp_all [assetByte]

def PositionIntentV1.fields (i : PositionIntentV1) : List UInt8 :=
  i.escrowProgramId.toList ++ (i.marketPda.toList ++ (i.marketDocumentHash ++
    (i.userWallet.toList ++ (leBytes 1 (sideByte i.side).toNat ++ (leBytes 8 i.amount.toNat ++
      (leBytes 1 (assetByte i.asset).toNat ++ (leBytes 4 i.expectedRatioMilli.toNat ++
        (leBytes 8 i.expectedEventEpoch.toNat ++ (leBytes 8 i.expectedLotNonce.toNat ++
          leBytes 8 (i.expiresAt % 2 ^ 64).toNat)))))))))

/-- What the writer's checks establish of an encoded intent. -/
structure PositionIntentV1.Encodable (i : PositionIntentV1) : Prop where
  hash : i.marketDocumentHash.length = 32
  side : 0 ≤ sideByte i.side ∧ sideByte i.side < 256 ^ 1
  amount : 0 ≤ i.amount ∧ i.amount < 256 ^ 8
  asset : 0 ≤ assetByte i.asset ∧ assetByte i.asset < 256 ^ 1
  ratio : 0 ≤ i.expectedRatioMilli ∧ i.expectedRatioMilli < 256 ^ 4
  epoch : 0 ≤ i.expectedEventEpoch ∧ i.expectedEventEpoch < 256 ^ 8
  nonce : 0 ≤ i.expectedLotNonce ∧ i.expectedLotNonce < 256 ^ 8
  expiry : i64Min ≤ i.expiresAt ∧ i.expiresAt ≤ i64Max

theorem PositionIntentV1.fields_inj {a b : PositionIntentV1} (ha : a.Encodable)
    (hb : b.Encodable) (h : a.fields = b.fields) : a = b := by
  obtain ⟨haHash, haSide, haAmount, haAsset, haRatio, haEpoch, haNonce, haExpiry⟩ := ha
  obtain ⟨hbHash, hbSide, hbAmount, hbAsset, hbRatio, hbEpoch, hbNonce, hbExpiry⟩ := hb
  cases a
  cases b
  simp only [fields] at h
  obtain ⟨e1, h⟩ := bytes_append_inj h
  obtain ⟨e2, h⟩ := bytes_append_inj h
  obtain ⟨e3, h⟩ := List.append_inj h (haHash.trans hbHash.symm)
  obtain ⟨e4, h⟩ := bytes_append_inj h
  obtain ⟨e5, h⟩ := unsigned_append_inj haSide hbSide h
  obtain ⟨e6, h⟩ := unsigned_append_inj haAmount hbAmount h
  obtain ⟨e7, h⟩ := unsigned_append_inj haAsset hbAsset h
  obtain ⟨e8, h⟩ := unsigned_append_inj haRatio hbRatio h
  obtain ⟨e9, h⟩ := unsigned_append_inj haEpoch hbEpoch h
  obtain ⟨e10, h⟩ := unsigned_append_inj haNonce hbNonce h
  obtain ⟨e11, _⟩ := signed_append_inj haExpiry hbExpiry (congrArg (· ++ []) h)
  have e5' := sideByte_inj e5
  have e7' := assetByte_inj e7
  simp only at e3 e5' e6 e7' e8 e9 e10 e11
  rw [e1, e2, e3, e4, e5', e6, e7', e8, e9, e10, e11]

theorem encodePositionIntentV1_ok {i : PositionIntentV1} {bytes : List UInt8}
    (h : encodePositionIntentV1 i = .ok bytes) :
    i.Encodable ∧ bytes = domainBytes Escrow.positionIntentDomainV1 ++ i.fields := by
  simp only [encodePositionIntentV1, bind_ok_iff, pure_ok_iff] at h
  obtain ⟨w0, h0, w1, h1, w2, h2, w3, h3, w4, h4, w5, h5, w6, h6, w7, h7, w8, h8, w9, h9, w10,
    h10, w11, h11, rfl⟩ := h
  obtain ⟨_, c1⟩ := CanonicalWriter.fixed_ok h1
  obtain ⟨_, c2⟩ := CanonicalWriter.fixed_ok h2
  obtain ⟨r3, c3⟩ := CanonicalWriter.fixed_ok h3
  obtain ⟨_, c4⟩ := CanonicalWriter.fixed_ok h4
  obtain ⟨r5, c5⟩ := CanonicalWriter.u8_ok h5
  obtain ⟨r6, c6⟩ := CanonicalWriter.u64_ok h6
  obtain ⟨r7, c7⟩ := CanonicalWriter.u8_ok h7
  obtain ⟨r8, c8⟩ := CanonicalWriter.u32_ok h8
  obtain ⟨r9, c9⟩ := CanonicalWriter.u64_ok h9
  obtain ⟨r10, c10⟩ := CanonicalWriter.u64_ok h10
  obtain ⟨r11, c11⟩ := CanonicalWriter.i64_ok h11
  refine ⟨⟨r3, r5, r6, r7, r8, r9, r10, r11⟩, ?_⟩
  rw [CanonicalWriter.finish, c11, c10, c9, c8, c7, c6, c5, c4, c3, c2, c1,
    CanonicalWriter.writeDomain_ok h0]
  simp only [PositionIntentV1.fields, sideByte, assetByte, List.append_assoc]

end CalledIt.Sdk

namespace CalledIt.Escrow

open Lib
open CanonicalWriter (domainBytes)

/-! ## domain separation -/

/-- The kinds of canonical documents. -/
inductive DocumentKind
  | market
  | quote
  | feedEvent
  | positionInvalidation
  | settlement
  | void
  | positionIntent
  deriving DecidableEq, Repr

def DocumentKind.domain : DocumentKind → String
  | market => marketDocumentDomainV1
  | quote => quoteAttestationDomainV1
  | feedEvent => feedEventAttestationDomainV1
  | positionInvalidation => positionInvalidationDomainV1
  | settlement => settlementAttestationDomainV1
  | void => voidAttestationDomainV1
  | positionIntent => positionIntentDomainV1

theorem DocumentKind.domain_inj {a b : DocumentKind} (h : a.domain = b.domain) : a = b := by
  revert a b
  intro a b
  cases a <;> cases b <;> decide

theorem DocumentKind.length_utf8_domain (k : DocumentKind) :
    (utf8 k.domain).length < 256 ^ 2 := by
  cases k <;> decide

/-- A canonical document of any kind. -/
inductive Document
  | market (d : MarketDocumentV1)
  | quote (a : QuoteAttestationV1)
  | feedEvent (a : FeedEventAttestationV1)
  | positionInvalidation (a : PositionInvalidationAttestationV1)
  | settlement (a : SettlementAttestationV1)
  | void (a : VoidAttestationV1)
  | positionIntent (i : Sdk.PositionIntentV1)

namespace Document

/-- The bytes of a document, when its encoder accepts it. -/
def encode : Document → Option (List UInt8)
  | market d => d.encode.toOption
  | quote a => a.encode.toOption
  | feedEvent a => a.encode.toOption
  | positionInvalidation a => a.encode.toOption
  | settlement a => a.encode.toOption
  | void a => a.encode.toOption
  | positionIntent i => (Sdk.encodePositionIntentV1 i).toOption

def kind : Document → DocumentKind
  | market _ => .market
  | quote _ => .quote
  | feedEvent _ => .feedEvent
  | positionInvalidation _ => .positionInvalidation
  | settlement _ => .settlement
  | void _ => .void
  | positionIntent _ => .positionIntent

def fields : Document → List UInt8
  | market d => d.fields
  | quote a => a.fields
  | feedEvent a => a.fields
  | positionInvalidation a => a.fields
  | settlement a => a.fields
  | void a => a.fields
  | positionIntent i => i.fields

/-- The side conditions that an accepting encoder has checked. -/
def Encodable : Document → Prop
  | settlement a => a.Encodable
  | positionIntent i => i.Encodable
  | _ => True

theorem toOption_eq_some {m : Except ε α} {a : α} : m.toOption = some a ↔ m = .ok a := by
  cases m <;> simp [Except.toOption]

theorem encode_some {d : Document} {bytes : List UInt8} (h : d.encode = some bytes) :
    d.Encodable ∧ bytes = domainBytes d.kind.domain ++ d.fields := by
  cases d with
  | market d => exact ⟨trivial, MarketDocumentV1.encode_ok (toOption_eq_some.mp h)⟩
  | quote a => exact ⟨trivial, QuoteAttestationV1.encode_ok (toOption_eq_some.mp h)⟩
  | feedEvent a => exact ⟨trivial, FeedEventAttestationV1.encode_ok (toOption_eq_some.mp h)⟩
  | positionInvalidation a =>
      exact ⟨trivial, PositionInvalidationAttestationV1.encode_ok (toOption_eq_some.mp h)⟩
  | settlement a => exact SettlementAttestationV1.encode_ok (toOption_eq_some.mp h)
  | void a => exact ⟨trivial, VoidAttestationV1.encode_ok (toOption_eq_some.mp h)⟩
  | positionIntent i => exact Sdk.encodePositionIntentV1_ok (toOption_eq_some.mp h)

theorem domainBytes_inj {a b : DocumentKind} {s t : List UInt8}
    (h : domainBytes a.domain ++ s = domainBytes b.domain ++ t) : a = b ∧ s = t := by
  simp only [domainBytes, List.append_assoc] at h
  obtain ⟨hdomain, h⟩ :=
    string16Bytes_prefixCode a.length_utf8_domain b.length_utf8_domain h
  exact ⟨DocumentKind.domain_inj hdomain, List.append_cancel_left h⟩

/-- Within one kind the fields determine the document. -/
theorem eq_of_fields {a b : Document} (ha : a.Encodable) (hb : b.Encodable)
    (hk : a.kind = b.kind) (hf : a.fields = b.fields) : a = b := by
  cases a <;> cases b <;> try contradiction
  · exact congrArg market (MarketDocumentV1.fields_inj hf)
  · exact congrArg quote (QuoteAttestationV1.fields_inj hf)
  · exact congrArg feedEvent (FeedEventAttestationV1.fields_inj hf)
  · exact congrArg positionInvalidation (PositionInvalidationAttestationV1.fields_inj hf)
  · exact congrArg settlement (SettlementAttestationV1.fields_inj ha hb hf)
  · exact congrArg void (VoidAttestationV1.fields_inj hf)
  · exact congrArg positionIntent (Sdk.PositionIntentV1.fields_inj ha hb hf)

/-- The bytes give the kind first and then the fields. -/
theorem eq_of_encode {a b : Document} {bytes : List UInt8} (ha : a.encode = some bytes)
    (hb : b.encode = some bytes) : a = b := by
  obtain ⟨hea, hba⟩ := encode_some ha
  obtain ⟨heb, hbb⟩ := encode_some hb
  obtain ⟨hkind, hfields⟩ := domainBytes_inj (hba.symm.trans hbb)
  exact eq_of_fields hea heb hkind hfields

/-- **Injectivity and domain separation**: equal bytes come from the same kind
of document with the same value in every field. -/
theorem document_of_bytes {a b : Document} {bytes : List UInt8} (ha : a.encode = some bytes)
    (hb : b.encode = some bytes) : a = b :=
  eq_of_encode ha hb

/-- A final score of 2–1 after regulation, as the feed reports it. -/
theorem settlement_document_of_bytes :
    let common : AttestationCommonV1 :=
      { clusterGenesisHash := List.Vector.replicate 32 1
        escrowProgramId := programId
        marketPda := List.Vector.replicate 32 2
        marketDocumentHash := List.Vector.replicate 32 3
        fixtureId := 42
        oracleSetEpoch := 7
        issuedAt := 100
        expiresAt := 160
        evidenceHash := List.Vector.replicate 32 4 }
    let attestation : SettlementAttestationV1 :=
      { common
        outcome := .claimWon
        decidingSequence := 9
        terminalPhase := "FET"
        regulationScore := some ⟨1, 1⟩
        fullMatchScore := some ⟨2, 1⟩
        evidenceSequenceCommitment := List.Vector.replicate 32 5
        normalizedEvidenceRoot := List.Vector.replicate 32 6 }
    ∃ bytes, (settlement attestation).encode = some bytes ∧
      ∀ b : Document, b.encode = some bytes → b = settlement attestation :=
  ⟨_, rfl, fun _ hb => document_of_bytes hb rfl⟩

end Document

end CalledIt.Escrow
