import CalledIt.Sdk.Agreement
import CalledIt.Sdk.Attestations
import CalledIt.Escrow.Documents

/-!
# CalledIt.Sdk.Encoders

The client's encoders and the program's write the same bytes.

A document the two sides share is the program's value seen from the client
(`toSdk`): integers of a fixed width as `bigint`s, byte arrays as lists, the
market identifier as its text.  The client's writer then mirrors the program's
field by field (`mirror`), so what is left to compare is what each encoder checks
before and between the fields.
-/

namespace CalledIt.Sdk

open Lib

/-! ## the writers -/

/-- The client's writer with the program's bytes in it. -/
def mirror (w : Escrow.CanonicalWriter) : CanonicalWriter := ⟨w.bytes⟩

@[simp] theorem finish_mirror (w : Escrow.CanonicalWriter) : (mirror w).finish = w.finish := rfl

variable {v : Int} {n : Nat} {x : CanonicalWriter} {domain : String}

namespace CanonicalWriter

theorem assertInteger_of_mem {lo hi : Int} (hlo : lo ≤ v) (hhi : v ≤ hi) (name : String) :
    assertInteger v name lo hi = .ok v := by
  unfold assertInteger
  rw [require_pos (by omega)]
  rfl

section

variable (w : Escrow.CanonicalWriter)

include w

@[simp] theorem fixed_mirror (bs : Escrow.Bytes n) (name : String) :
    (mirror w).fixed bs.toList n name = .ok (mirror (w.fixed bs.toList)) := by
  simp [fixed, assertLength, require, mirror, bytes, Escrow.CanonicalWriter.fixed]

@[simp] theorem u8_mirror (v : UInt8) (name : String) :
    (mirror w).u8 v.toNat name = .ok (mirror (w.u8 v)) := by
  have hv := v.toNat_lt
  have hbyte : leBytes 1 v.toNat = [v] := by simp [leBytes]
  simp only [u8, u8Max]
  rw [assertInteger_of_mem (by omega) (by omega)]
  simp [mirror, bytes, Escrow.CanonicalWriter.u8, hbyte]

@[simp] theorem bool_mirror (v : Bool) (name : String) :
    (mirror w).bool v name = .ok (mirror (w.bool v)) := by
  cases v
  · exact u8_mirror w 0 name
  · exact u8_mirror w 1 name

@[simp] theorem u16_mirror (v : UInt16) (name : String) :
    (mirror w).u16 v.toNat name = .ok (mirror (w.u16 v)) := by
  have hv := v.toNat_lt
  simp only [u16, u16Max]
  rw [assertInteger_of_mem (by omega) (by omega)]
  rfl

@[simp] theorem u32_mirror (v : UInt32) (name : String) :
    (mirror w).u32 v.toNat name = .ok (mirror (w.u32 v)) := by
  have hv := v.toNat_lt
  simp only [u32, u32Max]
  rw [assertInteger_of_mem (by omega) (by omega)]
  rfl

@[simp] theorem u64_mirror (v : UInt64) (name : String) :
    (mirror w).u64 v.toNat name = .ok (mirror (w.u64 v)) := by
  have hv := v.toNat_lt
  have hrange : ¬ ((v.toNat : Int) < 0 ∨ (v.toNat : Int) > u64Max) := by
    unfold u64Max
    omega
  simp only [u64, assertU64]
  rw [require_pos hrange]
  rfl

end

/-- Two's complement, whichever way it is computed. -/
theorem toNat_toInt_emod (v : Int64) : (v.toInt % 2 ^ 64).toNat = v.toUInt64.toNat := by
  have hbits : v.toInt = (v.toBitVec.toNat : Int).bmod (2 ^ 64) := v.toBitVec.toInt_eq_toNat_bmod
  have hv := v.toBitVec.isLt
  have hcast : (2 : Int) ^ 64 = ((2 ^ 64 : Nat) : Int) := rfl
  rw [hbits, hcast, Int.bmod_emod, ← Int.natCast_mod, Int.toNat_natCast, Nat.mod_eq_of_lt hv]
  rfl

@[simp] theorem i64_mirror (w : Escrow.CanonicalWriter) (v : Int64) (name : String) :
    (mirror w).i64 v.toInt name = .ok (mirror (w.i64 v)) := by
  have hlow := v.le_toInt
  have hhigh := v.toInt_lt
  have hrange : ¬ (v.toInt < i64Min ∨ v.toInt > i64Max) := by
    unfold i64Min i64Max
    omega
  simp only [i64, assertI64]
  rw [require_pos hrange]
  simp [mirror, bytes, Escrow.CanonicalWriter.i64, Escrow.CanonicalWriter.fixed,
    ← toNat_toInt_emod]

/-- The two length checks on a string are the same. -/
theorem string16_mirror {w : Escrow.CanonicalWriter} {s name : String} :
    (mirror w).string16 s name n = .ok x ↔ ∃ w', w.string16 s n = .ok w' ∧ x = mirror w' := by
  simp only [string16, boundedUtf8, Escrow.CanonicalWriter.string16]
  by_cases hlen : (Escrow.utf8 s).length > n ∨ (Escrow.utf8 s).length > 65535
  · have hmin : ¬ (Escrow.utf8 s).length ≤ min n 65535 := by omega
    simp [hlen, hmin, bind_ok_iff]
  · have hmin : (Escrow.utf8 s).length ≤ min n 65535 := by omega
    have hcast : ((Escrow.utf8 s).length : Int) =
        (UInt16.ofNat (Escrow.utf8 s).length).toNat := by
      rw [UInt16.toNat_ofNat', Nat.mod_eq_of_lt (by omega)]
    rw [if_neg hlen, require_pos hmin]
    simp only [ok_bind, pure_bind, hcast, u16_mirror, pure_ok_iff, Except.ok.injEq,
      exists_eq_left']
    exact eq_comm

theorem writeDomain_mirror :
    writeDomain ⟨[]⟩ domain = .ok x ↔
      ∃ w, Escrow.CanonicalWriter.forDomain domain = .ok w ∧ x = mirror w := by
  have hempty : (⟨[]⟩ : CanonicalWriter) = mirror ⟨[]⟩ := rfl
  simp only [writeDomain, Escrow.CanonicalWriter.forDomain, bind_ok_iff, hempty, string16_mirror,
    pure_ok_iff]
  constructor
  · rintro ⟨_, ⟨w, hw, rfl⟩, h⟩
    rw [show (1 : Int) = (Escrow.schemaVersionV1.toNat : Int) from rfl, u8_mirror] at h
    exact ⟨_, ⟨w, hw, rfl⟩, (Except.ok.inj h).symm⟩
  · rintro ⟨_, ⟨w, hw, rfl⟩, rfl⟩
    exact ⟨_, ⟨w, hw, rfl⟩, u8_mirror w Escrow.schemaVersionV1 _⟩

end CanonicalWriter

open CanonicalWriter

/-! ## the market identifier -/

/-- `text` spells the sixteen bytes in hexadecimal, in groups of 8, 4, 4, 4 and
12 digits of either case. -/
structure UuidText (text : String) (uuid : List UInt8) : Prop where
  groups : ∃ a b c d e : List Char,
    text.toList = a ++ '-' :: (b ++ '-' :: (c ++ '-' :: (d ++ '-' :: e))) ∧
    (a.length = 8 ∧ b.length = 4 ∧ c.length = 4 ∧ d.length = 4 ∧ e.length = 12) ∧
    (∀ x ∈ a ++ b ++ c ++ d ++ e, isHexDigit x) ∧ hexPairs (a ++ b ++ c ++ d ++ e) = uuid

theorem hexRun_append {ds rest : List Char} (h : ∀ x ∈ ds, isHexDigit x) :
    hexRun ds.length (ds ++ rest) = some rest := by
  induction ds with
  | nil => rfl
  | cons d ds ih =>
      simp only [List.length_cons, List.cons_append, hexRun, h d (by simp), if_true]
      exact ih fun x hx => h x (by simp [hx])

theorem toNat_lt_of_isHexDigit {c : Char} (h : isHexDigit c) : c.toNat < 128 := by
  have hle : c ≤ 'f' := by
    unfold isHexDigit hexDigit at h
    split at h
    · next hc => exact Char.le_trans hc.2 (by decide)
    · split at h
      · next hc => exact hc.2
      · split at h
        · next hc => exact Char.le_trans hc.2 (by decide)
        · contradiction
  exact Nat.lt_of_le_of_lt (UInt32.le_iff_toNat_le.mp hle) (by decide)

/-- Lower case does not change a digit's value, and no digit is a dash. -/
theorem hexDigit_toLower {c : Char} (h : isHexDigit c) :
    hexDigit c.toLower = hexDigit c ∧ isHexDigit c.toLower ∧ c ≠ '-' := by
  have hall : ∀ n < 128, isHexDigit (Char.ofNat n) → hexDigit (Char.ofNat n).toLower =
      hexDigit (Char.ofNat n) ∧ isHexDigit (Char.ofNat n).toLower ∧ Char.ofNat n ≠ '-' := by
    decide +kernel
  have hc := hall c.toNat (toNat_lt_of_isHexDigit h)
  rw [Char.ofNat_toNat] at hc
  exact hc h

theorem hexPairs_toLower {ds : List Char} (h : ∀ x ∈ ds, isHexDigit x) :
    hexPairs (ds.map Char.toLower) = hexPairs ds := by
  induction ds using hexPairs.induct with
  | case1 high low rest ih =>
      have hrest : ∀ x ∈ rest, isHexDigit x := fun x hx => h x (by simp [hx])
      simp only [List.map_cons, hexPairs, ih hrest, (hexDigit_toLower (h high (by simp))).1,
        (hexDigit_toLower (h low (by simp))).1]
  | case2 ds hds =>
      cases ds with
      | nil => rfl
      | cons d ds =>
          cases ds with
          | nil => rfl
          | cons d' ds => exact absurd rfl (hds d d' ds)

/-- The sixteen digits the client writes. -/
theorem hexDigit_hexAlphabet (h : n < 16) :
    hexDigit (hexAlphabet.getD n '0') = some n := by
  have hall : ∀ n < 16, hexDigit (hexAlphabet.getD n '0') = some n := by decide
  exact hall n h

theorem length_bytesToHex (bs : List UInt8) : (bytesToHex bs).length = 2 * bs.length := by
  induction bs with
  | nil => rfl
  | cons b bs ih =>
      simp only [bytesToHex, List.flatMap_cons, List.length_append, List.length_cons,
        List.length_nil] at ih ⊢
      omega

theorem isHexDigit_bytesToHex (bs : List UInt8) : ∀ x ∈ bytesToHex bs, isHexDigit x := by
  intro x hx
  obtain ⟨b, -, hb⟩ := List.mem_flatMap.mp hx
  have hlt := b.toNat_lt
  simp only [List.mem_cons, List.not_mem_nil, or_false] at hb
  unfold isHexDigit
  rcases hb with rfl | rfl
  · rw [hexDigit_hexAlphabet (by omega)]
    rfl
  · rw [hexDigit_hexAlphabet (by omega)]
    rfl

/-- Written digits read back as the bytes. -/
theorem hexPairs_bytesToHex (bs : List UInt8) : hexPairs (bytesToHex bs) = bs := by
  induction bs with
  | nil => rfl
  | cons b bs ih =>
      have hlt := b.toNat_lt
      have hbyte : b.toNat / 16 * 16 + b.toNat % 16 = b.toNat := by omega
      rw [bytesToHex] at ih ⊢
      simp only [List.flatMap_cons, List.cons_append, List.nil_append, hexPairs, ih]
      rw [hexDigit_hexAlphabet (by omega), hexDigit_hexAlphabet (by omega), Option.getD_some,
        Option.getD_some, hbyte, UInt8.ofNat_toNat]

/-- A well-spelled identifier is read back as its bytes. -/
theorem UuidText.uuidToBytes_eq {text : String} {uuid : List UInt8} (h : UuidText text uuid) :
    uuidToBytes text = .ok uuid := by
  obtain ⟨a, b, c, d, e, htext, ⟨ha, hb, hc, hd, he⟩, hhex, huuid⟩ := h.groups
  have hpattern : uuidPattern text.toList := by
    have hrun : ∀ (ds rest : List Char) (n : Nat), ds.length = n →
        (∀ x ∈ ds, x ∈ a ++ b ++ c ++ d ++ e) → hexRun n (ds ++ rest) = some rest := by
      rintro ds rest n rfl hds
      exact hexRun_append fun x hx => hhex x (hds x hx)
    have hlast : hexRun 12 e = some [] := by
      simpa using hrun e [] 12 he (by simp +contextual)
    simp only [uuidPattern, htext, Option.bind_eq_bind]
    rw [hrun a _ 8 ha (by simp +contextual), Option.bind_some]
    simp only [dash, if_true, Option.bind_some]
    rw [hrun b _ 4 hb (by simp +contextual), Option.bind_some]
    simp only [if_true, Option.bind_some]
    rw [hrun c _ 4 hc (by simp +contextual), Option.bind_some]
    simp only [if_true, Option.bind_some]
    rw [hrun d _ 4 hd (by simp +contextual), Option.bind_some]
    simp only [if_true, Option.bind_some]
    rw [hlast]
    rfl
  have hdigits : text.toList.filter (· ≠ '-') = a ++ b ++ c ++ d ++ e := by
    have hkeep : ∀ ds : List Char, (∀ x ∈ ds, x ∈ a ++ b ++ c ++ d ++ e) →
        ds.filter (· ≠ '-') = ds := by
      intro ds hds
      refine List.filter_eq_self.mpr fun x hx => ?_
      simpa using (hexDigit_toLower (hhex x (hds x hx))).2.2
    rw [htext]
    simp only [List.filter_append, List.filter_cons, ne_eq, not_true_eq_false, decide_false,
      Bool.false_eq_true, if_false]
    rw [hkeep a (by simp +contextual), hkeep b (by simp +contextual),
      hkeep c (by simp +contextual), hkeep d (by simp +contextual),
      hkeep e (by simp +contextual)]
    simp only [List.append_assoc]
  have hok : ¬ (((a ++ b ++ c ++ d ++ e).map Char.toLower).length % 2 ≠ 0 ∨
      ((a ++ b ++ c ++ d ++ e).map Char.toLower).any (fun x => !isHexDigit x)) := by
    rw [List.length_map, List.any_map, not_or]
    refine ⟨by simp [ha, hb, hc, hd, he], ?_⟩
    rw [List.any_eq_true]
    rintro ⟨x, hx, hnot⟩
    simp [(hexDigit_toLower (hhex x hx)).2.1] at hnot
  unfold uuidToBytes hexToBytes
  rw [require_pos hpattern, hdigits, ok_bind, require_pos hok, ok_bind, hexPairs_toLower hhex,
    huuid]
  rfl

/-! ## the shared documents -/

/-- The program's values as the client holds them. -/
def AttestationCommonV1.ofProgram (c : Escrow.AttestationCommonV1) : AttestationCommonV1 where
  clusterGenesisHash := c.clusterGenesisHash.toList
  escrowProgramId := c.escrowProgramId.toList
  marketPda := c.marketPda.toList
  marketDocumentHash := c.marketDocumentHash.toList
  fixtureId := c.fixtureId.toNat
  oracleSetEpoch := c.oracleSetEpoch.toNat
  issuedAt := c.issuedAt.toInt
  expiresAt := c.expiresAt.toInt
  evidenceHash := c.evidenceHash.toList

/-- The identifier is the only field the client spells differently. -/
def MarketDocumentV1.ofProgram (text : String) (d : Escrow.MarketDocumentV1) :
    MarketDocumentV1 where
  marketUuid := text
  fixtureId := d.fixtureId.toNat
  claimSpecificationHash := d.claimSpecificationHash.toList
  displayTermsHash := d.displayTermsHash.toList
  asset := d.asset
  probabilityPpm := d.probabilityPpm.toNat
  ratioMilli := d.ratioMilli.toNat
  oddsMessageHash := d.oddsMessageHash.toList
  oddsTimestamp := d.oddsTimestamp.toInt
  inPlayStartTimestamp := d.inPlayStartTimestamp.toInt
  activationDelaySeconds := d.activationDelaySeconds.toNat
  positionCutoff := d.positionCutoff.toInt
  resolutionDeadline := d.resolutionDeadline.toInt
  feeBps := d.feeBps.toNat
  oracleSetEpoch := d.oracleSetEpoch.toNat
  replayFlag := d.replayFlag

def QuoteAttestationV1.ofProgram (a : Escrow.QuoteAttestationV1) : QuoteAttestationV1 where
  toAttestationCommonV1 := .ofProgram a.common
  probabilityPpm := a.probabilityPpm.toNat
  ratioMilli := a.ratioMilli.toNat
  oddsTimestamp := a.oddsTimestamp.toInt

def FeedEventAttestationV1.ofProgram (a : Escrow.FeedEventAttestationV1) :
    FeedEventAttestationV1 where
  toAttestationCommonV1 := .ofProgram a.common
  eventKind := a.eventKind
  eventEpoch := a.eventEpoch.toNat
  decidingSequence := a.decidingSequence.toNat
  observedAt := a.observedAt.toInt

def PositionInvalidationAttestationV1.ofProgram (a : Escrow.PositionInvalidationAttestationV1) :
    PositionInvalidationAttestationV1 where
  toAttestationCommonV1 := .ofProgram a.common
  positionLotPda := a.positionLotPda.toList
  lotNonce := a.lotNonce.toNat
  observedEventEpoch := a.observedEventEpoch.toNat
  invalidatedEventEpoch := a.invalidatedEventEpoch.toNat
  decidingSequence := a.decidingSequence.toNat

def ScoreV1.ofProgram (s : Escrow.ScoreV1) : ScoreV1 := ⟨s.home.toNat, s.away.toNat⟩

def ClaimOutcome.onChain : ClaimOutcome → Escrow.SettlementOutcome
  | .claimWon => .claimWon
  | .claimLost => .claimLost

/-- The client has a settlement for a won and for a lost claim only. -/
def SettlementAttestationV1.ofProgram (outcome : ClaimOutcome)
    (a : Escrow.SettlementAttestationV1) : SettlementAttestationV1 where
  toAttestationCommonV1 := .ofProgram a.common
  outcome := outcome
  decidingSequence := a.decidingSequence.toNat
  terminalPhase := a.terminalPhase
  regulationScore := a.regulationScore.map .ofProgram
  fullMatchScore := a.fullMatchScore.map .ofProgram
  evidenceSequenceCommitment := a.evidenceSequenceCommitment.toList
  normalizedEvidenceRoot := a.normalizedEvidenceRoot.toList

def VoidAttestationV1.ofProgram (a : Escrow.VoidAttestationV1) : VoidAttestationV1 where
  toAttestationCommonV1 := .ofProgram a.common
  reason := a.reason
  decidingSequence := a.decidingSequence.toNat

/-! ## the checks -/

theorem writerFor_mirror {c : Escrow.AttestationCommonV1} :
    writerFor domain (.ofProgram c) = .ok x ↔
      ∃ w, Escrow.writerForAttestation domain c = .ok w ∧ x = mirror w := by
  have hwindow : c.expiresAt.toInt ≤ c.issuedAt.toInt ↔ c.expiresAt ≤ c.issuedAt :=
    Int64.le_iff_toInt_le.symm
  simp only [writerFor, AttestationCommonV1.ofProgram, Escrow.writerForAttestation, hwindow,
    bind_ok_iff, require_ok_iff, writeDomain_mirror, pure_ok_iff]
  constructor
  · rintro ⟨_, hlater, _, ⟨w, hw, rfl⟩, h⟩
    simp only [fixed_mirror, u64_mirror, i64_mirror, Except.ok.injEq, exists_eq_left'] at h
    exact ⟨_, ⟨(), hlater, w, hw, rfl⟩, h.symm⟩
  · rintro ⟨_, ⟨_, hlater, w, hw, rfl⟩, rfl⟩
    refine ⟨(), hlater, mirror w, ⟨w, hw, rfl⟩, ?_⟩
    simp only [fixed_mirror, u64_mirror, i64_mirror, Except.ok.injEq, exists_eq_left']

variable {bytes : List UInt8}

/-- After the common fields the two encoders go on from the same bytes. -/
theorem bind_writerFor_iff {c : Escrow.AttestationCommonV1}
    {k : CanonicalWriter → JsResult (List UInt8)}
    {k' : Escrow.CanonicalWriter → Escrow.EncodingResult (List UInt8)}
    (h : ∀ w, k (mirror w) = .ok bytes ↔ k' w = .ok bytes) :
    (writerFor domain (.ofProgram c) >>= k) = .ok bytes ↔
      (Escrow.writerForAttestation domain c >>= k') = .ok bytes := by
  simp only [bind_ok_iff, writerFor_mirror]
  constructor
  · rintro ⟨_, ⟨w, hw, rfl⟩, hk⟩
    exact ⟨w, hw, (h w).mp hk⟩
  · rintro ⟨w, hw, hk⟩
    exact ⟨mirror w, ⟨w, hw, rfl⟩, (h w).mpr hk⟩

/-- The client and the program accept the same ratios. -/
theorem validateRatio_ok_iff {ppm ratio : UInt32} :
    Escrow.validateRatio ppm ratio = .ok () ↔
      ∃ expected, ratioMilliFromProbabilityPpm ppm.toNat = .ok expected ∧
        (ratio.toNat : Int) = expected := by
  simp only [Escrow.validateRatio, bind_ok_iff, mapError_ok_iff, Escrow.ratioMilli_ok_iff,
    require_ok_iff, not_not]
  constructor
  · rintro ⟨_, ⟨⟨hlow, hhigh⟩, hratio⟩, rfl⟩
    exact ⟨_, ratioMilliFromProbabilityPpm_eq hlow hhigh, by rw [hratio]⟩
  · rintro ⟨expected, h, hratio⟩
    have hrange : 1 ≤ ppm.toNat ∧ ppm.toNat ≤ 999999 := by
      simp only [ratioMilliFromProbabilityPpm, bind_ok_iff] at h
      obtain ⟨_, hinteger, -⟩ := h
      have hppm := (assertInteger_ok hinteger).1
      omega
    rw [ratioMilliFromProbabilityPpm_eq hrange.1 hrange.2, Except.ok.injEq] at h
    exact ⟨ratio, ⟨hrange, by omega⟩, rfl⟩

/-- A ratio that was derived has a probability in range. -/
theorem assertInteger_of_validateRatio {ppm ratio : UInt32}
    (h : Escrow.validateRatio ppm ratio = .ok ()) (name : String) :
    assertInteger ppm.toNat name 1 999999 = .ok (ppm.toNat : Int) := by
  simp only [Escrow.validateRatio, bind_ok_iff, mapError_ok_iff, Escrow.ratioMilli_ok_iff] at h
  obtain ⟨_, ⟨hrange, -⟩, -⟩ := h
  exact assertInteger_of_mem (by omega) (by omega) name

theorem writeOptionalScore_mirror (w : Escrow.CanonicalWriter) (score : Option Escrow.ScoreV1)
    (name : String) :
    writeOptionalScore (mirror w) (score.map .ofProgram) name =
      .ok (mirror (w.optionalScore score)) := by
  cases score with
  | none => simp [writeOptionalScore, Escrow.CanonicalWriter.optionalScore, pure, Except.pure]
  | some score =>
      have hhome := score.home.toNat_lt
      have haway := score.away.toNat_lt
      simp only [writeOptionalScore, Option.map_some, Option.isSome_some, bool_mirror, ok_bind,
        ScoreV1.ofProgram, Escrow.CanonicalWriter.optionalScore]
      rw [assertInteger_of_mem (by omega) (by omega), assertInteger_of_mem (by omega) (by omega)]
      simp only [ok_bind, u16_mirror]

/-! ## the formats -/

theorem assetTag_eq (asset : Escrow.Asset) :
    assetTag asset = ((Escrow.assetTag asset).toNat : Int) := by
  cases asset <;> rfl

theorem eventKindTag_eq (kind : Escrow.FeedEventKind) :
    eventKindTag kind = (kind.tag.toNat : Int) := by
  cases kind <;> rfl

theorem voidReasonTag_eq (reason : Escrow.VoidReason) :
    voidReasonTag reason = (reason.tag.toNat : Int) := by
  cases reason <;> rfl

theorem encodeMarketDocumentV1_iff {text : String} {d : Escrow.MarketDocumentV1}
    (h : UuidText text d.marketUuid.toList) :
    encodeMarketDocumentV1 (.ofProgram text d) = .ok bytes ↔ d.encode = .ok bytes := by
  have hfee : (d.feeBps.toNat : Int) = 0 ↔ d.feeBps = Escrow.feeBpsV1 := by
    rw [← UInt16.toNat_inj, Int.natCast_eq_zero]
    rfl
  have hdelay : (d.activationDelaySeconds.toNat : Int) = positionActivationDelaySecondsV1 ↔
      d.activationDelaySeconds = Escrow.positionActivationDelaySecondsV1 := by
    rw [← UInt64.toNat_inj, show positionActivationDelaySecondsV1 =
      (Escrow.positionActivationDelaySecondsV1.toNat : Int) from rfl, Int.natCast_inj]
  simp only [encodeMarketDocumentV1, MarketDocumentV1.ofProgram, Escrow.MarketDocumentV1.encode,
    bind_ok_iff, require_ok_iff, not_not, not_or, hfee, hdelay, ge_iff_le,
    ← Int64.le_iff_toInt_le, h.uuidToBytes_eq, writeDomain_mirror, pure_ok_iff]
  constructor
  · rintro ⟨expected, hexpected, _, hratio, _, hf, _, hd, _, hodds, _, hstart, _, hend,
      _, ⟨w, hw, rfl⟩, hbytes⟩
    have hvalid := validateRatio_ok_iff.mpr ⟨expected, hexpected, hratio⟩
    refine ⟨(), hvalid, (), hf, (), hd, (), ⟨hodds, hstart, hend⟩, w, hw, ?_⟩
    simpa only [assertInteger_of_validateRatio hvalid, assetTag_eq, fixed_mirror, u8_mirror,
      u16_mirror, u32_mirror, u64_mirror, i64_mirror, bool_mirror, Except.ok.injEq,
      exists_eq_left', finish_mirror] using hbytes
  · rintro ⟨_, hvalid, _, hf, _, hd, _, ⟨hodds, hstart, hend⟩, w, hw, hbytes⟩
    obtain ⟨expected, hexpected, hratio⟩ := validateRatio_ok_iff.mp hvalid
    refine ⟨expected, hexpected, (), hratio, (), hf, (), hd, (), hodds, (), hstart, (), hend,
      mirror w, ⟨w, hw, rfl⟩, ?_⟩
    simpa only [assertInteger_of_validateRatio hvalid, assetTag_eq, fixed_mirror, u8_mirror,
      u16_mirror, u32_mirror, u64_mirror, i64_mirror, bool_mirror, Except.ok.injEq,
      exists_eq_left', finish_mirror] using hbytes

theorem encodeQuoteAttestationV1_iff {a : Escrow.QuoteAttestationV1} :
    encodeQuoteAttestationV1 (.ofProgram a) = .ok bytes ↔ a.encode = .ok bytes := by
  unfold encodeQuoteAttestationV1 Escrow.QuoteAttestationV1.encode
  by_cases hvalid : Escrow.validateRatio a.probabilityPpm a.ratioMilli = .ok ()
  · obtain ⟨expected, hexpected, hratio⟩ := validateRatio_ok_iff.mp hvalid
    have hppm : ratioMilliFromProbabilityPpm (QuoteAttestationV1.ofProgram a).probabilityPpm =
        .ok expected := hexpected
    have hsame : ¬ (QuoteAttestationV1.ofProgram a).ratioMilli ≠ expected := not_not.mpr hratio
    rw [hvalid, hppm, ok_bind, ok_bind, require_pos hsame, ok_bind]
    refine bind_writerFor_iff fun w => ?_
    simp only [QuoteAttestationV1.ofProgram, assertInteger_of_validateRatio hvalid, u32_mirror,
      i64_mirror, ok_bind, finish_mirror, pure_ok_iff]
  · simp only [bind_ok_iff, require_ok_iff, not_not, hvalid, false_and, exists_false, iff_false]
    rintro ⟨expected, hexpected, _, hratio, -⟩
    exact hvalid (validateRatio_ok_iff.mpr ⟨expected, hexpected, hratio⟩)

theorem encodeFeedEventAttestationV1_iff {a : Escrow.FeedEventAttestationV1} :
    encodeFeedEventAttestationV1 (.ofProgram a) = .ok bytes ↔ a.encode = .ok bytes := by
  refine bind_writerFor_iff fun w => ?_
  simp only [FeedEventAttestationV1.ofProgram, eventKindTag_eq, u8_mirror, u64_mirror, i64_mirror,
    ok_bind, finish_mirror, pure_ok_iff]

theorem encodePositionInvalidationAttestationV1_iff {a : Escrow.PositionInvalidationAttestationV1} :
    encodePositionInvalidationAttestationV1 (.ofProgram a) = .ok bytes ↔
      a.encode = .ok bytes := by
  have hepoch : (PositionInvalidationAttestationV1.ofProgram a).invalidatedEventEpoch ≤
      (PositionInvalidationAttestationV1.ofProgram a).observedEventEpoch ↔
      a.invalidatedEventEpoch ≤ a.observedEventEpoch := by
    simp only [PositionInvalidationAttestationV1.ofProgram]
    rw [Int.ofNat_le, UInt64.le_iff_toNat_le]
  unfold encodePositionInvalidationAttestationV1 Escrow.PositionInvalidationAttestationV1.encode
  by_cases hlater : a.invalidatedEventEpoch ≤ a.observedEventEpoch
  · simp [bind_ok_iff, hepoch, hlater]
  · rw [require_pos hlater, require_pos (mt hepoch.mp hlater), ok_bind, ok_bind]
    refine bind_writerFor_iff fun w => ?_
    simp only [PositionInvalidationAttestationV1.ofProgram, fixed_mirror, u64_mirror, ok_bind,
      finish_mirror, pure_ok_iff]

/-- The client looks at the phase after writing it, the program before. -/
theorem encodeSettlementAttestationV1_iff {outcome : ClaimOutcome}
    {a : Escrow.SettlementAttestationV1} (h : outcome.onChain = a.outcome) :
    encodeSettlementAttestationV1 (.ofProgram outcome a) = .ok bytes ↔ a.encode = .ok bytes := by
  obtain ⟨tag, htag, hclient⟩ : ∃ tag, Escrow.outcomeTag a.outcome = .ok tag ∧
      outcomeTag outcome = (tag.toNat : Int) := by
    rw [← h]
    cases outcome
    · exact ⟨0, rfl, rfl⟩
    · exact ⟨1, rfl, rfl⟩
  have hempty : (SettlementAttestationV1.ofProgram outcome a).terminalPhase.length = 0 ↔
      a.terminalPhase = "" := by
    rw [← String.length_toList, List.length_eq_zero_iff, String.toList_eq_nil_iff]
    rfl
  unfold encodeSettlementAttestationV1 Escrow.SettlementAttestationV1.encode
  by_cases hphase : a.terminalPhase = ""
  · simp only [bind_ok_iff, require_ok_iff, hempty, hphase, not_true_eq_false, false_and,
      exists_false, and_false]
  · rw [require_pos hphase, require_pos (mt hempty.mp hphase), htag, ok_bind, ok_bind]
    refine bind_writerFor_iff fun w => ?_
    simp only [SettlementAttestationV1.ofProgram, hclient, u8_mirror, u64_mirror, ok_bind,
      bind_ok_iff, string16_mirror]
    constructor
    · rintro ⟨_, ⟨w', hw', rfl⟩, hbytes⟩
      refine ⟨w', hw', ?_⟩
      simpa only [writeOptionalScore_mirror, fixed_mirror, Except.ok.injEq, exists_eq_left',
        finish_mirror, pure_ok_iff] using hbytes
    · rintro ⟨w', hw', hbytes⟩
      refine ⟨mirror w', ⟨w', hw', rfl⟩, ?_⟩
      simpa only [writeOptionalScore_mirror, fixed_mirror, Except.ok.injEq, exists_eq_left',
        finish_mirror, pure_ok_iff] using hbytes

theorem encodeVoidAttestationV1_iff {a : Escrow.VoidAttestationV1} :
    encodeVoidAttestationV1 (.ofProgram a) = .ok bytes ↔ a.encode = .ok bytes := by
  refine bind_writerFor_iff fun w => ?_
  simp only [VoidAttestationV1.ofProgram, voidReasonTag_eq, u8_mirror, u64_mirror, ok_bind,
    finish_mirror, pure_ok_iff]

/-! ## every shared document -/

/-- A document or an attestation of the client. -/
inductive CanonicalDocument
  | market (d : MarketDocumentV1)
  | quote (a : QuoteAttestationV1)
  | feedEvent (a : FeedEventAttestationV1)
  | positionInvalidation (a : PositionInvalidationAttestationV1)
  | settlement (a : SettlementAttestationV1)
  | void (a : VoidAttestationV1)

def CanonicalDocument.encode : CanonicalDocument → JsResult (List UInt8)
  | market d => encodeMarketDocumentV1 d
  | quote a => encodeQuoteAttestationV1 a
  | feedEvent a => encodeFeedEventAttestationV1 a
  | positionInvalidation a => encodePositionInvalidationAttestationV1 a
  | settlement a => encodeSettlementAttestationV1 a
  | void a => encodeVoidAttestationV1 a

/-- The same document on the two sides: equal field by field, the identifier up
to its spelling. -/
inductive SameDocument : CanonicalDocument → Escrow.Document → Prop
  | market {text : String} {d : Escrow.MarketDocumentV1}
      (spelled : UuidText text d.marketUuid.toList) :
      SameDocument (.market (.ofProgram text d)) (.market d)
  | quote (a : Escrow.QuoteAttestationV1) : SameDocument (.quote (.ofProgram a)) (.quote a)
  | feedEvent (a : Escrow.FeedEventAttestationV1) :
      SameDocument (.feedEvent (.ofProgram a)) (.feedEvent a)
  | positionInvalidation (a : Escrow.PositionInvalidationAttestationV1) :
      SameDocument (.positionInvalidation (.ofProgram a)) (.positionInvalidation a)
  | settlement {outcome : ClaimOutcome} {a : Escrow.SettlementAttestationV1}
      (decided : outcome.onChain = a.outcome) :
      SameDocument (.settlement (.ofProgram outcome a)) (.settlement a)
  | void (a : Escrow.VoidAttestationV1) : SameDocument (.void (.ofProgram a)) (.void a)

/-- Format by format. -/
theorem SameDocument.encode_iff {x : CanonicalDocument} {d : Escrow.Document}
    (h : SameDocument x d) :
    x.encode = .ok bytes ↔ d.encode = some bytes := by
  cases h with
  | market spelled =>
      exact (encodeMarketDocumentV1_iff spelled).trans Escrow.Document.toOption_eq_some.symm
  | quote a => exact encodeQuoteAttestationV1_iff.trans Escrow.Document.toOption_eq_some.symm
  | feedEvent a =>
      exact encodeFeedEventAttestationV1_iff.trans Escrow.Document.toOption_eq_some.symm
  | positionInvalidation a =>
      exact encodePositionInvalidationAttestationV1_iff.trans
        Escrow.Document.toOption_eq_some.symm
  | settlement decided =>
      exact (encodeSettlementAttestationV1_iff decided).trans
        Escrow.Document.toOption_eq_some.symm
  | void a => exact encodeVoidAttestationV1_iff.trans Escrow.Document.toOption_eq_some.symm

/-- **One format, two encoders**: a document both sides can hold is accepted by
both encoders or by neither, and accepted with the same bytes. -/
theorem encoders_agree {x : CanonicalDocument} {d : Escrow.Document} (h : SameDocument x d) :
    d.encode = x.encode.toOption := by
  apply Option.ext
  intro bytes
  rw [Escrow.Document.toOption_eq_some, h.encode_iff]

/-- A document of the test vectors' shape, its identifier in mixed case. -/
theorem market_encoders_agree :
    let document : Escrow.MarketDocumentV1 :=
      { marketUuid :=
          ⟨[0, 17, 34, 51, 68, 85, 102, 119, 136, 153, 170, 187, 204, 221, 238, 255], rfl⟩
        fixtureId := 42
        claimSpecificationHash := List.Vector.replicate 32 1
        displayTermsHash := List.Vector.replicate 32 2
        asset := .usdc
        probabilityPpm := 400000
        ratioMilli := 1500
        oddsMessageHash := List.Vector.replicate 32 3
        oddsTimestamp := 100
        inPlayStartTimestamp := 90
        activationDelaySeconds := 150
        positionCutoff := 200
        resolutionDeadline := 300
        feeBps := 0
        oracleSetEpoch := 7
        replayFlag := true }
    let text := "00112233-4455-6677-8899-AAbbCCddeeFF"
    UuidText text document.marketUuid.toList ∧
      (Escrow.Document.market document).encode =
        (encodeMarketDocumentV1 (.ofProgram text document)).toOption ∧
      (Escrow.Document.market document).encode.isSome := by
  intro document text
  have hspelled : UuidText text document.marketUuid.toList :=
    ⟨⟨"00112233".toList, "4455".toList, "6677".toList, "8899".toList, "AAbbCCddeeFF".toList,
      by decide +kernel, by decide +kernel, List.all_eq_true.mp (by decide +kernel),
      by decide +kernel⟩⟩
  exact ⟨hspelled, encoders_agree (.market hspelled), by decide +kernel⟩

/-! ## accepted attestations -/

/- The client's encoders check every width, so an attestation one of them accepts
is the image of a value of the program. -/

theorem exists_bytes {bs : List UInt8} (h : bs.length = n) :
    ∃ b : Escrow.Bytes n, bs = b.toList :=
  ⟨⟨bs, h⟩, rfl⟩

theorem exists_uint64 (h : 0 ≤ v ∧ v < 256 ^ 8) : ∃ u : UInt64, v = u.toNat := by
  refine ⟨UInt64.ofNat v.toNat, ?_⟩
  rw [UInt64.toNat_ofNat', Nat.mod_eq_of_lt (by omega)]
  omega

theorem exists_uint16 (h : 0 ≤ v ∧ v ≤ 0xffff) : ∃ u : UInt16, v = u.toNat := by
  refine ⟨UInt16.ofNat v.toNat, ?_⟩
  rw [UInt16.toNat_ofNat', Nat.mod_eq_of_lt (by omega)]
  omega

theorem exists_int64 (h : i64Min ≤ v ∧ v ≤ i64Max) : ∃ i : Int64, v = i.toInt := by
  unfold i64Min i64Max at h
  exact ⟨Int64.ofInt v, (Int64.toInt_ofInt_of_le (by omega) (by omega)).symm⟩

theorem AttestationCommonV1.exists_ofProgram {c : AttestationCommonV1} {w : CanonicalWriter}
    (h : writerFor domain c = .ok w) :
    ∃ c', c = .ofProgram c' := by
  simp only [writerFor, bind_ok_iff, require_ok_iff] at h
  obtain ⟨_, _, w0, _, w1, h1, w2, h2, w3, h3, w4, h4, w5, h5, w6, h6, w7, h7, w8, h8, h9⟩ := h
  obtain ⟨genesis, hgenesis⟩ := exists_bytes (fixed_ok h1).1
  obtain ⟨program, hprogram⟩ := exists_bytes (fixed_ok h2).1
  obtain ⟨market, hmarket⟩ := exists_bytes (fixed_ok h3).1
  obtain ⟨document, hdocument⟩ := exists_bytes (fixed_ok h4).1
  obtain ⟨fixture, hfixture⟩ := exists_uint64 (u64_ok h5).1
  obtain ⟨epoch, hepoch⟩ := exists_uint64 (u64_ok h6).1
  obtain ⟨issued, hissued⟩ := exists_int64 (i64_ok h7).1
  obtain ⟨expires, hexpires⟩ := exists_int64 (i64_ok h8).1
  obtain ⟨evidence, hevidence⟩ := exists_bytes (fixed_ok h9).1
  refine ⟨⟨genesis, program, market, document, fixture, epoch, issued, expires, evidence⟩, ?_⟩
  simp only [AttestationCommonV1.ofProgram, ← hgenesis, ← hprogram, ← hmarket, ← hdocument,
    ← hfixture, ← hepoch, ← hissued, ← hexpires, ← hevidence]

theorem FeedEventAttestationV1.exists_ofProgram {a : FeedEventAttestationV1}
    (h : encodeFeedEventAttestationV1 a = .ok bytes) : ∃ a', a = .ofProgram a' := by
  simp only [encodeFeedEventAttestationV1, bind_ok_iff] at h
  obtain ⟨w0, h0, w1, _, w2, h2, w3, h3, w4, h4, _⟩ := h
  obtain ⟨common, hcommon⟩ := AttestationCommonV1.exists_ofProgram h0
  obtain ⟨epoch, hepoch⟩ := exists_uint64 (u64_ok h2).1
  obtain ⟨sequence, hsequence⟩ := exists_uint64 (u64_ok h3).1
  obtain ⟨observed, hobserved⟩ := exists_int64 (i64_ok h4).1
  refine ⟨⟨common, a.eventKind, epoch, sequence, observed⟩, ?_⟩
  simp only [FeedEventAttestationV1.ofProgram, ← hcommon, ← hepoch, ← hsequence, ← hobserved]

theorem PositionInvalidationAttestationV1.exists_ofProgram {a : PositionInvalidationAttestationV1}
    (h : encodePositionInvalidationAttestationV1 a = .ok bytes) : ∃ a', a = .ofProgram a' := by
  simp only [encodePositionInvalidationAttestationV1, bind_ok_iff] at h
  obtain ⟨_, _, w0, h0, w1, h1, w2, h2, w3, h3, w4, h4, w5, h5, _⟩ := h
  obtain ⟨common, hcommon⟩ := AttestationCommonV1.exists_ofProgram h0
  obtain ⟨lot, hlot⟩ := exists_bytes (fixed_ok h1).1
  obtain ⟨nonce, hnonce⟩ := exists_uint64 (u64_ok h2).1
  obtain ⟨observed, hobserved⟩ := exists_uint64 (u64_ok h3).1
  obtain ⟨invalidated, hinvalidated⟩ := exists_uint64 (u64_ok h4).1
  obtain ⟨sequence, hsequence⟩ := exists_uint64 (u64_ok h5).1
  refine ⟨⟨common, lot, nonce, observed, invalidated, sequence⟩, ?_⟩
  simp only [PositionInvalidationAttestationV1.ofProgram, ← hcommon, ← hlot, ← hnonce,
    ← hobserved, ← hinvalidated, ← hsequence]

theorem ScoreV1.exists_ofProgram {w w' : CanonicalWriter} {score : Option ScoreV1} {name : String}
    (h : writeOptionalScore w score name = .ok w') :
    ∃ score' : Option Escrow.ScoreV1, score = score'.map .ofProgram := by
  cases score with
  | none => exact ⟨none, rfl⟩
  | some score =>
      simp only [writeOptionalScore, bind_ok_iff] at h
      obtain ⟨_, _, _, hhome, _, _, _, haway, _⟩ := h
      obtain ⟨home, hhome⟩ := exists_uint16 (assertInteger_ok hhome).1
      obtain ⟨away, haway⟩ := exists_uint16 (assertInteger_ok haway).1
      refine ⟨some ⟨home, away⟩, ?_⟩
      simp only [Option.map_some, ScoreV1.ofProgram, ← hhome, ← haway]

theorem SettlementAttestationV1.exists_ofProgram {a : SettlementAttestationV1}
    (h : encodeSettlementAttestationV1 a = .ok bytes) :
    ∃ a', a = .ofProgram a.outcome a' ∧ a.outcome.onChain = a'.outcome := by
  simp only [encodeSettlementAttestationV1, bind_ok_iff] at h
  obtain ⟨w0, h0, w1, _, w2, h2, w3, _, _, _, w4, h4, w5, h5, w6, h6, w7, h7, _⟩ := h
  obtain ⟨common, hcommon⟩ := AttestationCommonV1.exists_ofProgram h0
  obtain ⟨sequence, hsequence⟩ := exists_uint64 (u64_ok h2).1
  obtain ⟨regulation, hregulation⟩ := ScoreV1.exists_ofProgram h4
  obtain ⟨full, hfull⟩ := ScoreV1.exists_ofProgram h5
  obtain ⟨commitment, hcommitment⟩ := exists_bytes (fixed_ok h6).1
  obtain ⟨root, hroot⟩ := exists_bytes (fixed_ok h7).1
  refine ⟨⟨common, a.outcome.onChain, sequence, a.terminalPhase, regulation, full, commitment,
    root⟩, ?_, rfl⟩
  simp only [SettlementAttestationV1.ofProgram, ← hcommon, ← hsequence, ← hregulation, ← hfull,
    ← hcommitment, ← hroot]

theorem VoidAttestationV1.exists_ofProgram {a : VoidAttestationV1}
    (h : encodeVoidAttestationV1 a = .ok bytes) : ∃ a', a = .ofProgram a' := by
  simp only [encodeVoidAttestationV1, bind_ok_iff] at h
  obtain ⟨w0, h0, w1, _, w2, h2, _⟩ := h
  obtain ⟨common, hcommon⟩ := AttestationCommonV1.exists_ofProgram h0
  obtain ⟨sequence, hsequence⟩ := exists_uint64 (u64_ok h2).1
  refine ⟨⟨common, a.reason, sequence⟩, ?_⟩
  simp only [VoidAttestationV1.ofProgram, ← hcommon, ← hsequence]

end CalledIt.Sdk
