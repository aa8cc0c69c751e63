import Mathlib.Data.Finset.Card
import CalledIt.Lib.Codec
import CalledIt.Escrow.Admin
import CalledIt.Escrow.Runtime

/-!
# CalledIt.Escrow.Attestations

Threshold signatures of a pinned oracle set (`instructions/attestations.rs`).

The program does not verify signatures itself: it reads the Ed25519 precompile
instructions that precede it in the transaction.  The runtime has verified
every descriptor of those, so what is left is to parse them and to count which
pinned signers occur.

`ParsesTo` states the instruction layout without reference to the parser, and
`parseVerifiedEd25519Instruction_ok_iff` shows that the parser accepts exactly
this layout.  `Tally` is the loop state of the counter; `Tally.Counts` ties it
to the keys recorded so far.
-/

namespace CalledIt.Escrow

open Lib

/-- An instruction of the enclosing transaction. -/
structure Instruction where
  programId : Pubkey
  data : List UInt8

def ed25519HeaderBytes : Nat := 2
def ed25519SignatureOffsetsBytes : Nat := 14
def ed25519SignatureBytes : Nat := 64
def ed25519PublicKeyBytes : Nat := 32
def selfInstructionIndex : UInt16 := 65535

/-- An oracle set account together with its address. -/
structure OracleSetAccount where
  key : Pubkey
  oracleSet : OracleSet

def validatePinnedOracleSet (rt : Runtime) (account : OracleSetAccount) (expectedEpoch : UInt64) :
    Result Unit := do
  let (expectedKey, expectedBump) := rt.oracleSetAddress expectedEpoch
  require (account.key = expectedKey) EscrowError.invalidOracleSet
  require (account.oracleSet.version = schemaVersionV1 ∧
      account.oracleSet.bump = expectedBump ∧
      account.oracleSet.epoch = expectedEpoch ∧
      account.oracleSet.signers.length = oracleSignerCountV1 ∧
      account.oracleSet.threshold = oracleThresholdV1)
    EscrowError.invalidOracleSet

/-! ## reading the data -/

/-- `usize::checked_add`; a `usize` of the on-chain program has 64 bits. -/
def checkedAddUsize (a b : Nat) : Option Nat := if a + b < 2 ^ 64 then some (a + b) else none

/-- `usize::checked_mul`. -/
def checkedMulUsize (a b : Nat) : Option Nat := if a * b < 2 ^ 64 then some (a * b) else none

/-- `data.get(start..stop)`. -/
def getRange (data : List UInt8) (start stop : Nat) : Option (List UInt8) :=
  if start ≤ stop ∧ stop ≤ data.length then some ((data.drop start).take (stop - start)) else none

/-- `data[index]`, which panics outside the slice. -/
def indexOrPanic (data : List α) (i : Nat) : Result α := okOr data[i]? .panicked

def checkedSlice (data : List UInt8) (offset length : Nat) : Result (List UInt8) := do
  let stop ← okOr (checkedAddUsize offset length)
    EscrowError.invalidEd25519Instruction
  okOr (getRange data offset stop) EscrowError.invalidEd25519Instruction

/-- `<[u8; n]>::try_from`. -/
def tryIntoArray (n : Nat) (bytes : List UInt8) : Result (Bytes n) :=
  if h : bytes.length = n then .ok ⟨bytes, h⟩
  else .error EscrowError.invalidEd25519Instruction

/-- `u16::from_le_bytes`. -/
def u16FromLeBytes (bytes : Bytes 2) : UInt16 :=
  UInt16.ofNat (bytes.head.toNat + 256 * bytes.tail.head.toNat)

def readU16 (data : List UInt8) (offset : Nat) : Result UInt16 := do
  let bytes ← checkedSlice data offset 2
  return u16FromLeBytes (← tryIntoArray 2 bytes)

/-- One round of the parser's loop: the key of the signature described at
position `signatureIndex`. -/
def verifiedPublicKey (data expectedMessage : List UInt8) (signatureIndex : Nat) :
    Result (Bytes 32) := do
  let descriptor ← okOr
    ((checkedMulUsize signatureIndex ed25519SignatureOffsetsBytes).bind
      (checkedAddUsize ed25519HeaderBytes))
    EscrowError.invalidEd25519Instruction
  let signatureOffset ← readU16 data descriptor
  let signatureInstructionIndex ← readU16 data (descriptor + 2)
  let publicKeyOffset ← readU16 data (descriptor + 4)
  let publicKeyInstructionIndex ← readU16 data (descriptor + 6)
  let messageOffset ← readU16 data (descriptor + 8)
  let messageSize ← readU16 data (descriptor + 10)
  let messageInstructionIndex ← readU16 data (descriptor + 12)
  require (signatureInstructionIndex = selfInstructionIndex ∧
      publicKeyInstructionIndex = selfInstructionIndex ∧
      messageInstructionIndex = selfInstructionIndex)
    EscrowError.invalidEd25519Instruction
  let _ ← checkedSlice data signatureOffset.toNat ed25519SignatureBytes
  let publicKey ← checkedSlice data publicKeyOffset.toNat ed25519PublicKeyBytes
  let message ← checkedSlice data messageOffset.toNat messageSize.toNat
  require (message = expectedMessage) EscrowError.invalidAttestationDomain
  tryIntoArray 32 publicKey

def parseVerifiedEd25519Instruction (data expectedMessage : List UInt8) :
    Result (List (Bytes 32)) := do
  let first ← okOr data.head? EscrowError.invalidEd25519Instruction
  let signatureCount := first.toNat
  let offsetsEnd ← okOr
    ((checkedMulUsize signatureCount ed25519SignatureOffsetsBytes).bind
      (checkedAddUsize ed25519HeaderBytes))
    EscrowError.invalidEd25519Instruction
  -- `data[1]` is only read once the length is known to reach past it
  require (signatureCount > 0 ∧ signatureCount ≤ oracleSignerCountV1 ∧
    data.length ≥ offsetsEnd) EscrowError.invalidEd25519Instruction
  require ((← indexOrPanic data 1) = 0) EscrowError.invalidEd25519Instruction
  (List.range signatureCount).mapM (verifiedPublicKey data expectedMessage)

/-! ## counting signers -/

/-- The loop state of the counter. -/
structure Tally where
  matched : List Bool
  matchedCount : UInt64

def Tally.empty : Tally :=
  { matched := List.replicate oracleSignerCountV1 false, matchedCount := 0 }

/-- Mark the pinned signer that a public key belongs to, if any. -/
def Tally.record (signers : List Pubkey) (tally : Tally) (publicKey : Bytes 32) : Result Tally :=
  match signers.idxOf? publicKey with
  | none => .ok tally
  | some signerIndex => do
      if (← indexOrPanic tally.matched signerIndex) then
        return tally
      else
        let matchedCount ← okOr (checkedAdd tally.matchedCount 1)
          EscrowError.arithmeticOverflow
        return { matched := tally.matched.set signerIndex true, matchedCount }

/-- One round of the loop over the preceding instructions. -/
def Tally.scan (signers : List Pubkey) (message : List UInt8) (tally : Tally)
    (instruction : Instruction) : Result Tally :=
  if instruction.programId ≠ ed25519ProgramId then
    .ok tally
  else do
    let publicKeys ← parseVerifiedEd25519Instruction instruction.data message
    publicKeys.foldlM (Tally.record signers) tally

/-- The instructions sysvar is given by the instructions before the current
one, in order. -/
def verifyThresholdSignatures (oracleSet : OracleSet) (preceding : List Instruction)
    (message : List UInt8) (now issuedAt expiresAt : Int64) : Result Unit := do
  require (issuedAt ≤ now) EscrowError.attestationExpired
  require (now ≤ expiresAt) EscrowError.attestationExpired
  require (expiresAt > issuedAt) EscrowError.attestationExpired
  let tally ← preceding.foldlM (Tally.scan oracleSet.signers message) Tally.empty
  require (tally.matchedCount ≥ oracleSet.threshold.toUInt64)
    EscrowError.signatureThresholdNotMet

/-! ## the accepted layout -/

/-- A little-endian `u16` at an offset. -/
def U16At (data : List UInt8) (offset : Nat) (value : UInt16) : Prop :=
  Window data offset (leBytes 2 value.toNat)

/-- Where a signature's three parts lie. -/
structure Descriptor where
  signatureOffset : UInt16
  publicKeyOffset : UInt16
  messageOffset : UInt16
  messageSize : UInt16

/-- The `i`-th descriptor of the header, with all three parts in the same
instruction. -/
structure DescribedAt (data : List UInt8) (i : Nat) (d : Descriptor) : Prop where
  signatureOffset : U16At data (2 + i * 14) d.signatureOffset
  signatureInstruction : U16At data (2 + i * 14 + 2) selfInstructionIndex
  publicKeyOffset : U16At data (2 + i * 14 + 4) d.publicKeyOffset
  publicKeyInstruction : U16At data (2 + i * 14 + 6) selfInstructionIndex
  messageOffset : U16At data (2 + i * 14 + 8) d.messageOffset
  messageSize : U16At data (2 + i * 14 + 10) d.messageSize
  messageInstruction : U16At data (2 + i * 14 + 12) selfInstructionIndex

/-- The described parts lie inside the data, and sign exactly `message`. -/
structure SignedBy (data message : List UInt8) (d : Descriptor) (key : Bytes 32) : Prop where
  signature : ∃ s, Window data d.signatureOffset.toNat s ∧ s.length = 64
  publicKey : Window data d.publicKeyOffset.toNat key.toList
  signed : Window data d.messageOffset.toNat message
  signedSize : message.length = d.messageSize.toNat

/-- One to three self-contained signatures over exactly `message`, by `keys`. -/
structure ParsesTo (data message : List UInt8) (keys : List (Bytes 32)) : Prop where
  nonempty : 0 < keys.length
  atMost : keys.length ≤ 3
  header : Window data 0 [UInt8.ofNat keys.length, 0]
  signatures : ∀ i key, keys[i]? = some key →
    ∃ d, DescribedAt data i d ∧ SignedBy data message d key

/-! ## the parser accepts exactly this layout -/

variable {data : List UInt8}

theorem checkedSlice_ok_iff {w : List UInt8} {offset length : Nat}
    (hfit : offset + length < 2 ^ 64) :
    checkedSlice data offset length = .ok w ↔ Window data offset w ∧ w.length = length := by
  unfold checkedSlice checkedAddUsize getRange
  rw [if_pos hfit]
  simp only [okOr, ok_bind, Nat.le_add_right, true_and, Nat.add_sub_cancel_left]
  rw [Window.iff_take_drop]
  by_cases hlen : offset + length ≤ data.length
  · rw [if_pos hlen, Except.ok.injEq]
    have htake : ((data.drop offset).take length).length = length := by
      rw [List.length_take, List.length_drop]
      omega
    constructor
    · rintro rfl
      rw [htake]
      exact ⟨⟨hlen, rfl⟩, rfl⟩
    · rintro ⟨⟨_, hw⟩, rfl⟩
      exact hw
  · rw [if_neg hlen]
    simp only [reduceCtorEq, false_iff]
    rintro ⟨⟨hle, _⟩, rfl⟩
    exact hlen hle

theorem tryIntoArray_ok_iff {n : Nat} {bytes : List UInt8} {v : Bytes n} :
    tryIntoArray n bytes = .ok v ↔ bytes = v.toList := by
  unfold tryIntoArray
  split
  · next h =>
    constructor
    · intro hv
      rw [← Except.ok.inj hv]
      rfl
    · intro hv
      exact congrArg Except.ok (List.Vector.eq _ _ hv)
  · next h =>
    simp only [reduceCtorEq, false_iff]
    intro hv
    exact h (hv ▸ v.toList_length)

/-- Reading two bytes back is the inverse of writing them. -/
theorem u16FromLeBytes_eq_iff {bytes : Bytes 2} {value : UInt16} :
    u16FromLeBytes bytes = value ↔ bytes.toList = leBytes 2 value.toNat := by
  obtain ⟨bytes, hlen⟩ := bytes
  match bytes, hlen with
  | [lo, hi], _ =>
      have hlo := lo.toNat_lt
      have hhi := hi.toNat_lt
      have hval := value.toNat_lt
      change UInt16.ofNat (lo.toNat + 256 * hi.toNat) = value ↔
        [lo, hi] = [UInt8.ofNat (value.toNat % 256), UInt8.ofNat (value.toNat / 256 % 256)]
      simp only [List.cons.injEq, and_true, ← UInt16.toNat_inj, ← UInt8.toNat_inj,
        UInt16.toNat_ofNat', UInt8.toNat_ofNat']
      omega

theorem readU16_ok_iff {offset : Nat} {value : UInt16} (hfit : offset + 2 < 2 ^ 64) :
    readU16 data offset = .ok value ↔ U16At data offset value := by
  unfold readU16 U16At
  simp only [bind_ok_iff, checkedSlice_ok_iff hfit, tryIntoArray_ok_iff, pure_ok_iff,
    u16FromLeBytes_eq_iff]
  constructor
  · rintro ⟨_, ⟨hw, _⟩, v, rfl, hv⟩
    rw [← hv]
    exact hw
  · intro hw
    have hlen : (leBytes 2 value.toNat).length = 2 := length_leBytes 2 _
    exact ⟨_, ⟨hw, hlen⟩, ⟨_, hlen⟩, rfl, rfl⟩

variable {i : Nat}

/-- The position of a descriptor, which no `u8` count takes out of `usize`. -/
theorem descriptor_eq (hi : i < 256) :
    (checkedMulUsize i ed25519SignatureOffsetsBytes).bind (checkedAddUsize ed25519HeaderBytes) =
      some (2 + i * 14) := by
  have hmul : checkedMulUsize i ed25519SignatureOffsetsBytes = some (i * 14) :=
    if_pos (show i * 14 < 2 ^ 64 by omega)
  have hadd : checkedAddUsize ed25519HeaderBytes (i * 14) = some (2 + i * 14) :=
    if_pos (show 2 + i * 14 < 2 ^ 64 by omega)
  rw [hmul, Option.bind_some, hadd]

variable {message : List UInt8} {key : Bytes 32}

theorem verifiedPublicKey_ok_iff (hi : i < 3) :
    verifiedPublicKey data message i = .ok key ↔
      ∃ d, DescribedAt data i d ∧ SignedBy data message d key := by
  unfold verifiedPublicKey
  rw [descriptor_eq (by omega)]
  simp only [bind_ok_iff, okOr_ok_iff, require_ok_iff, Option.some.injEq, exists_eq_left',
    tryIntoArray_ok_iff, ed25519SignatureBytes, ed25519PublicKeyBytes]
  constructor
  · rintro ⟨so, hso, si, hsi, ko, hko, ki, hki, mo, hmo, ms, hms, mi, hmi, _, ⟨rfl, rfl, rfl⟩,
      sig, hsig, pk, hpk, m, hm, _, rfl, rfl⟩
    rw [readU16_ok_iff (by omega)] at hso hsi hko hki hmo hms hmi
    have hsb := so.toNat_lt
    have hkb := ko.toNat_lt
    have hmb := mo.toNat_lt
    have hmsb := ms.toNat_lt
    rw [checkedSlice_ok_iff (by omega)] at hsig hpk hm
    exact ⟨⟨so, ko, mo, ms⟩, ⟨hso, hsi, hko, hki, hmo, hms, hmi⟩,
      ⟨sig, hsig⟩, hpk.1, hm.1, hm.2⟩
  · rintro ⟨d, hd, ⟨sig, hsig⟩, hkey, hmsg, hsize⟩
    have hsb := d.signatureOffset.toNat_lt
    have hkb := d.publicKeyOffset.toNat_lt
    have hmb := d.messageOffset.toNat_lt
    have hmsb := d.messageSize.toNat_lt
    refine ⟨_, (readU16_ok_iff (by omega)).mpr hd.signatureOffset,
      _, (readU16_ok_iff (by omega)).mpr hd.signatureInstruction,
      _, (readU16_ok_iff (by omega)).mpr hd.publicKeyOffset,
      _, (readU16_ok_iff (by omega)).mpr hd.publicKeyInstruction,
      _, (readU16_ok_iff (by omega)).mpr hd.messageOffset,
      _, (readU16_ok_iff (by omega)).mpr hd.messageSize,
      _, (readU16_ok_iff (by omega)).mpr hd.messageInstruction, (), ⟨rfl, rfl, rfl⟩,
      sig, (checkedSlice_ok_iff (by omega)).mpr hsig,
      key.toList, (checkedSlice_ok_iff (by omega)).mpr ⟨hkey, key.toList_length⟩,
      message, (checkedSlice_ok_iff (by omega)).mpr ⟨hmsg, hsize⟩, (), rfl, rfl⟩

theorem indexOrPanic_ok_iff {data : List α} {a : α} :
    indexOrPanic data i = .ok a ↔ data[i]? = some a := okOr_ok_iff

variable {keys : List (Bytes 32)}

theorem parseVerifiedEd25519Instruction_ok_iff :
    parseVerifiedEd25519Instruction data message = .ok keys ↔ ParsesTo data message keys := by
  unfold parseVerifiedEd25519Instruction
  simp only [bind_ok_iff, okOr_ok_iff, require_ok_iff, indexOrPanic_ok_iff, mapM_range_ok_iff]
  constructor
  · rintro ⟨first, hfirst, stop, hstop, _, ⟨hpos, hmax, hlen⟩, second, hsecond, _, rfl, hcount, h⟩
    rw [descriptor_eq first.toNat_lt, Option.some.injEq] at hstop
    have hthree : first.toNat ≤ 3 := hmax
    refine ⟨by omega, by omega, ?_, ?_⟩
    · obtain ⟨rest, rfl⟩ := List.head?_eq_some_iff.mp hfirst
      obtain ⟨rest, rfl⟩ := List.head?_eq_some_iff.mp ((List.head?_eq_getElem? ..).trans hsecond)
      refine ⟨[], rest, ?_, rfl⟩
      rw [hcount, UInt8.ofNat_toNat]
      rfl
    · intro i key hkey
      have hi := (List.getElem?_eq_some_iff.mp hkey).1
      exact (verifiedPublicKey_ok_iff (by omega)).mp (h i key hkey)
  · rintro ⟨hpos, hmax, hheader, h⟩
    -- the last descriptor ends where the header does
    have hend : 2 + keys.length * 14 ≤ data.length := by
      obtain ⟨d, hd, _⟩ := h (keys.length - 1) _ (List.getElem?_eq_getElem (by omega))
      have hle := hd.messageInstruction.le_length
      rw [length_leBytes] at hle
      omega
    obtain ⟨pre, rest, rfl, hpre⟩ := hheader
    obtain rfl := List.length_eq_zero_iff.mp hpre
    have hcount : (UInt8.ofNat keys.length).toNat = keys.length := by
      rw [UInt8.toNat_ofNat']
      omega
    refine ⟨UInt8.ofNat keys.length, rfl, 2 + keys.length * 14, ?_, (),
      ⟨by omega, ?_, hend⟩, 0, rfl, (), rfl, hcount.symm, ?_⟩
    · rw [hcount]
      exact descriptor_eq (by omega)
    · rw [hcount]
      exact hmax
    · intro i key hkey
      have hi := (List.getElem?_eq_some_iff.mp hkey).1
      exact (verifiedPublicKey_ok_iff (by omega)).mpr (h i key hkey)

/-! ## no panic -/

/-- The computation does not run into a Rust panic. -/
def NoPanic (m : Result α) : Prop := Avoids (· = .panicked) m

namespace NoPanic

theorem ne_panicked {m : Result α} (h : NoPanic m) : m ≠ .error .panicked := by
  intro he
  exact h _ he rfl

theorem require (c : Prop) [Decidable c] (e : EscrowError) :
    NoPanic (Lib.require c (e : ProgramError)) := Avoids.require fun _ => nofun

theorem okOr (o : Option α) (e : EscrowError) : NoPanic (Lib.okOr o (e : ProgramError)) :=
  Avoids.okOr fun _ => nofun

theorem indexOrPanic {data : List α} (hi : i < data.length) :
    NoPanic (indexOrPanic data i) := by
  apply Avoids.okOr
  intro hnone
  rw [List.getElem?_eq_getElem hi] at hnone
  contradiction

end NoPanic

theorem checkedSlice_noPanic (data : List UInt8) (offset length : Nat) :
    NoPanic (checkedSlice data offset length) :=
  (NoPanic.okOr _ _).bind fun _ _ => NoPanic.okOr _ _

theorem tryIntoArray_noPanic (n : Nat) (bytes : List UInt8) : NoPanic (tryIntoArray n bytes) := by
  unfold tryIntoArray
  split
  · exact Avoids.ok _
  · intro e h
    injection h with he
    rw [← he]
    exact nofun

theorem readU16_noPanic (data : List UInt8) (offset : Nat) : NoPanic (readU16 data offset) :=
  (checkedSlice_noPanic _ _ _).bind fun _ _ =>
    (tryIntoArray_noPanic _ _).bind fun _ _ => Avoids.ok _

theorem verifiedPublicKey_noPanic (data message : List UInt8) (i : Nat) :
    NoPanic (verifiedPublicKey data message i) := by
  unfold verifiedPublicKey
  refine (NoPanic.okOr _ _).bind fun _ _ => ?_
  iterate 7 refine (readU16_noPanic _ _).bind fun _ _ => ?_
  refine (NoPanic.require _ _).bind fun _ _ => ?_
  iterate 3 refine (checkedSlice_noPanic _ _ _).bind fun _ _ => ?_
  exact (NoPanic.require _ _).bind fun _ _ => tryIntoArray_noPanic _ _

/-- Parsing stays inside the data: it never indexes past the end. -/
theorem parseVerifiedEd25519Instruction_noPanic (data message : List UInt8) :
    NoPanic (parseVerifiedEd25519Instruction data message) := by
  unfold parseVerifiedEd25519Instruction
  refine (NoPanic.okOr _ _).bind fun first _ => ?_
  refine (NoPanic.okOr _ _).bind fun stop hstop => ?_
  refine (NoPanic.require _ _).bind fun _ hlen => ?_
  rw [okOr_ok_iff, descriptor_eq first.toNat_lt, Option.some.injEq] at hstop
  have hlen := (require_ok_iff.mp hlen).2.2
  refine (NoPanic.indexOrPanic (by omega)).bind fun _ _ => ?_
  exact (NoPanic.require _ _).bind fun _ _ => Avoids.mapM (verifiedPublicKey_noPanic _ _) _

/-! ## counting -/

/-- The keys of all preceding Ed25519 instructions, in order. -/
def parsedKeys (message : List UInt8) : List Instruction → Result (List (Bytes 32))
  | [] => .ok []
  | instruction :: rest =>
      if instruction.programId ≠ ed25519ProgramId then
        parsedKeys message rest
      else do
        let publicKeys ← parseVerifiedEd25519Instruction instruction.data message
        return publicKeys ++ (← parsedKeys message rest)

/-- The counter after recording `keys`: a mark for each pinned signer among
them, and the number of marks. -/
structure Tally.Counts (signers : List Pubkey) (keys : List (Bytes 32)) (tally : Tally) :
    Prop where
  matched : tally.matched = signers.map fun s => decide (s ∈ keys)
  count : tally.matchedCount.toNat = tally.matched.count true

variable {signers : List Pubkey}

theorem Tally.empty_counts (hlen : signers.length = 3) :
    Tally.empty.Counts signers [] := by
  constructor
  · simp [Tally.empty, oracleSignerCountV1, hlen, List.map_const']
  · rfl

/-- Recording a key that is not pinned, or pinned and marked already, changes
no mark. -/
theorem marks_append_of_imp (h : key ∈ signers → key ∈ keys) :
    (signers.map fun s => decide (s ∈ keys ++ [key])) = signers.map fun s => decide (s ∈ keys) := by
  apply List.map_congr_left
  intro s hs
  have hiff : s ∈ keys ++ [key] ↔ s ∈ keys := by
    rw [List.mem_append, List.mem_singleton]
    constructor
    · rintro (hk | rfl)
      · exact hk
      · exact h hs
    · exact .inl
  rw [decide_eq_decide.mpr hiff]

/-- Recording a pinned key sets the mark at its place. -/
theorem marks_set (hnodup : signers.Nodup) (hi : i < signers.length) (keys : List (Bytes 32)) :
    (signers.map fun s => decide (s ∈ keys)).set i true =
      signers.map fun s => decide (s ∈ keys ++ [signers[i]]) := by
  apply List.ext_getElem
  · rw [List.length_set, List.length_map, List.length_map]
  · intro j hj hj'
    rw [List.length_map] at hj'
    rw [List.getElem_set, List.getElem_map]
    by_cases hij : i = j
    · subst hij
      simp
    · have hne : signers[j] ≠ signers[i] := by
        intro heq
        exact hij ((hnodup.getElem_inj_iff).mp heq).symm
      simp [hij, hne]

variable {tally : Tally}

/-- Recording one more key always succeeds. -/
theorem Tally.record_counts (hlen : signers.length = 3) (hnodup : signers.Nodup)
    (h : tally.Counts signers keys) (key : Bytes 32) :
    ∃ tally', tally.record signers key = .ok tally' ∧ tally'.Counts signers (keys ++ [key]) := by
  unfold Tally.record
  cases hidx : signers.idxOf? key with
  | none =>
      have hout : key ∉ signers := List.idxOf?_eq_none_iff.mp hidx
      refine ⟨tally, rfl, ?_, h.count⟩
      rw [marks_append_of_imp fun hin => absurd hin hout, h.matched]
  | some i =>
      obtain ⟨hi, hkey, _⟩ := List.idxOf?_eq_some_iff.mp hidx
      have hget : tally.matched[i]? = some (decide (key ∈ keys)) := by
        rw [h.matched, List.getElem?_map, List.getElem?_eq_getElem hi, Option.map_some, hkey]
      simp only [indexOrPanic_ok_iff.mpr hget, ok_bind]
      by_cases hin : key ∈ keys
      · rw [decide_eq_true hin, if_pos rfl]
        refine ⟨tally, rfl, ?_, h.count⟩
        rw [marks_append_of_imp fun _ => hin, h.matched]
      · rw [decide_eq_false hin, if_neg (by decide)]
        have hlt : i < tally.matched.length := by
          rw [h.matched, List.length_map]
          exact hi
        have hle : tally.matched.count true ≤ 3 := by
          rw [← hlen, ← List.length_map (fun s => decide (s ∈ keys)), ← h.matched]
          exact List.count_le_length
        have hcount := h.count
        have hadd : checkedAdd tally.matchedCount 1 = some (tally.matchedCount + 1) := by
          rw [checkedAdd_eq_some, UInt64.toNat_add]
          change _ + 1 = (_ + 1) % _
          omega
        rw [hadd]
        refine ⟨_, rfl, ?_, ?_⟩
        · change tally.matched.set i true = _
          rw [h.matched, marks_set hnodup hi, hkey]
        · change (tally.matchedCount + 1).toNat = (tally.matched.set i true).count true
          rw [List.count_set hlt, ← checkedAdd_eq_some.mp hadd, hcount]
          have hmark : tally.matched[i] = false := by
            have hsome := List.getElem?_eq_getElem hlt
            rw [hget, decide_eq_false hin, Option.some.injEq] at hsome
            exact hsome.symm
          rw [hmark]
          rfl

theorem Tally.foldlM_record_counts (hlen : signers.length = 3) (hnodup : signers.Nodup)
    (ks : List (Bytes 32)) (h : tally.Counts signers keys) :
    ∃ tally', ks.foldlM (Tally.record signers) tally = .ok tally' ∧
      tally'.Counts signers (keys ++ ks) := by
  induction ks generalizing keys tally with
  | nil => exact ⟨tally, rfl, by rwa [List.append_nil]⟩
  | cons k ks ih =>
      obtain ⟨mid, hmid, hcounts⟩ := Tally.record_counts hlen hnodup h k
      obtain ⟨tally', hfold, hcounts'⟩ := ih hcounts
      refine ⟨tally', ?_, ?_⟩
      · rw [List.foldlM_cons, hmid, ok_bind, hfold]
      · rwa [List.append_assoc] at hcounts'

/-- The scan parses everything first and counts afterwards. -/
theorem Tally.foldlM_scan (hlen : signers.length = 3) (hnodup : signers.Nodup)
    (message : List UInt8) (preceding : List Instruction) (h : tally.Counts signers keys) :
    preceding.foldlM (Tally.scan signers message) tally =
      (parsedKeys message preceding >>= fun ks => ks.foldlM (Tally.record signers) tally) := by
  induction preceding generalizing keys tally with
  | nil => rfl
  | cons ins rest ih =>
      rw [List.foldlM_cons, parsedKeys, Tally.scan]
      by_cases hed : ins.programId ≠ ed25519ProgramId
      · rw [if_pos hed, if_pos hed, ok_bind, ih h]
      · rw [if_neg hed, if_neg hed]
        cases hparse : parseVerifiedEd25519Instruction ins.data message with
        | error e => rfl
        | ok ks =>
            obtain ⟨mid, hmid, hcounts⟩ := Tally.foldlM_record_counts hlen hnodup ks h
            rw [ok_bind, hmid, ok_bind, ih hcounts, ok_bind]
            cases parsedKeys message rest with
            | error e => rfl
            | ok ks' =>
                change _ = (ks ++ ks').foldlM _ tally
                rw [List.foldlM_append, hmid]
                rfl

/-! ## soundness and completeness of the threshold -/

/-- Every preceding Ed25519 instruction holds self-contained signatures over
the message. -/
def EachParses (message : List UInt8) (preceding : List Instruction) : Prop :=
  ∀ ins ∈ preceding, ins.programId = ed25519ProgramId → ∃ keys, ParsesTo ins.data message keys

/-- The key signs the message in one of the preceding Ed25519 instructions. -/
def Occurs (message : List UInt8) (preceding : List Instruction) (key : Bytes 32) : Prop :=
  ∃ ins ∈ preceding, ins.programId = ed25519ProgramId ∧
    ∃ keys, ParsesTo ins.data message keys ∧ key ∈ keys

/-- Two distinct pinned signers sign the message. -/
def ThresholdMet (oracleSet : OracleSet) (message : List UInt8) (preceding : List Instruction) :
    Prop :=
  ∃ a ∈ oracleSet.signers, ∃ b ∈ oracleSet.signers,
    a ≠ b ∧ Occurs message preceding a ∧ Occurs message preceding b

variable {preceding : List Instruction}

theorem parsedKeys_ok (h : parsedKeys message preceding = .ok keys) :
    EachParses message preceding ∧ ∀ key, key ∈ keys ↔ Occurs message preceding key := by
  induction preceding generalizing keys with
  | nil =>
      obtain rfl := Except.ok.inj h
      simp [EachParses, Occurs]
  | cons ins rest ih =>
      rw [parsedKeys] at h
      by_cases hed : ins.programId = ed25519ProgramId
      · rw [if_neg (not_not.mpr hed)] at h
        simp only [bind_ok_iff, pure_ok_iff, parseVerifiedEd25519Instruction_ok_iff] at h
        obtain ⟨ks, hks, ks', hks', rfl⟩ := h
        obtain ⟨heach, hocc⟩ := ih hks'
        constructor
        · intro x hx hxed
          rcases List.mem_cons.mp hx with rfl | hx
          · exact ⟨ks, hks⟩
          · exact heach x hx hxed
        · intro key
          rw [List.mem_append, hocc key]
          constructor
          · rintro (hk | ⟨x, hx, hrest⟩)
            · exact ⟨ins, List.mem_cons_self, hed, ks, hks, hk⟩
            · exact ⟨x, List.mem_cons_of_mem _ hx, hrest⟩
          · rintro ⟨x, hx, hxed, kx, hkx, hin⟩
            rcases List.mem_cons.mp hx with rfl | hx
            · have heq : kx = ks := by
                rw [← parseVerifiedEd25519Instruction_ok_iff] at hks hkx
                exact Except.ok.inj (hkx.symm.trans hks)
              exact .inl (heq ▸ hin)
            · exact .inr ⟨x, hx, hxed, kx, hkx, hin⟩
      · rw [if_pos hed] at h
        obtain ⟨heach, hocc⟩ := ih h
        constructor
        · intro x hx hxed
          rcases List.mem_cons.mp hx with rfl | hx
          · exact absurd hxed hed
          · exact heach x hx hxed
        · intro key
          rw [hocc key]
          constructor
          · rintro ⟨x, hx, hrest⟩
            exact ⟨x, List.mem_cons_of_mem _ hx, hrest⟩
          · rintro ⟨x, hx, hxed, hrest⟩
            rcases List.mem_cons.mp hx with rfl | hx
            · exact absurd hxed hed
            · exact ⟨x, hx, hxed, hrest⟩

theorem exists_parsedKeys
    (h : EachParses message preceding) : ∃ keys, parsedKeys message preceding = .ok keys := by
  induction preceding with
  | nil => exact ⟨[], rfl⟩
  | cons ins rest ih =>
      obtain ⟨ks', hks'⟩ := ih fun x hx => h x (List.mem_cons_of_mem _ hx)
      rw [parsedKeys]
      by_cases hed : ins.programId = ed25519ProgramId
      · obtain ⟨ks, hks⟩ := h ins List.mem_cons_self hed
        rw [if_neg (not_not.mpr hed), parseVerifiedEd25519Instruction_ok_iff.mpr hks, hks']
        exact ⟨ks ++ ks', rfl⟩
      · rw [if_pos hed]
        exact ⟨ks', hks'⟩

theorem parsedKeys_noPanic (message : List UInt8) (preceding : List Instruction) :
    NoPanic (parsedKeys message preceding) := by
  induction preceding with
  | nil => exact Avoids.ok []
  | cons ins rest ih =>
      rw [parsedKeys]
      split
      · exact ih
      · exact (parseVerifiedEd25519Instruction_noPanic _ _).bind fun _ _ =>
          ih.bind fun _ _ => Avoids.ok _

theorem lawfulBEq_pubkey : LawfulBEq Pubkey := inferInstance

attribute [local instance] lawfulBEq_pubkey in
/-- The pinned signers among the keys. -/
def pinned (oracleSet : OracleSet) (keys : List (Bytes 32)) : List Pubkey :=
  oracleSet.signers.filter fun s => decide (s ∈ keys)

variable {oracleSet : OracleSet}

theorem Tally.Counts.count_eq (h : tally.Counts oracleSet.signers keys) :
    tally.matchedCount.toNat = (pinned oracleSet keys).length := by
  rw [h.count, h.matched, pinned, ← List.countP_eq_length_filter, List.count_eq_countP,
    List.countP_map]
  congr 1
  funext s
  simp

section

variable (hset : AcceptedOracleSet oracleSet)

include hset

theorem two_le_pinned_iff :
    2 ≤ (pinned oracleSet keys).length ↔
      ∃ a ∈ oracleSet.signers, ∃ b ∈ oracleSet.signers, a ≠ b ∧ a ∈ keys ∧ b ∈ keys := by
  have hnodup : (pinned oracleSet keys).Nodup := hset.distinct.filter _
  rw [← List.toFinset_card_of_nodup hnodup]
  change 1 < _ ↔ _
  rw [Finset.one_lt_card]
  simp only [List.mem_toFinset, pinned, List.mem_filter, decide_eq_true_eq]
  constructor
  · rintro ⟨a, ⟨ha, hka⟩, b, ⟨hb, hkb⟩, hne⟩
    exact ⟨a, ha, b, hb, hne, hka, hkb⟩
  · rintro ⟨a, ha, b, hb, hne, hka, hkb⟩
    exact ⟨a, ⟨ha, hka⟩, b, ⟨hb, hkb⟩, hne⟩

/-- What is verified, without the loop: the times, then the parse, then the
number of pinned signers. -/
theorem verifyThresholdSignatures_eq
    (preceding : List Instruction) (message : List UInt8) (now issuedAt expiresAt : Int64) :
    verifyThresholdSignatures oracleSet preceding message now issuedAt expiresAt = (do
      require (issuedAt ≤ now) EscrowError.attestationExpired
      require (now ≤ expiresAt) EscrowError.attestationExpired
      require (expiresAt > issuedAt) EscrowError.attestationExpired
      let keys ← parsedKeys message preceding
      require (2 ≤ (pinned oracleSet keys).length) EscrowError.signatureThresholdNotMet) := by
  have hscan := Tally.foldlM_scan hset.count hset.distinct message preceding
    (Tally.empty_counts hset.count)
  unfold verifyThresholdSignatures
  rw [hscan]
  cases parsedKeys message preceding with
  | error e => rfl
  | ok keys =>
      obtain ⟨tally, htally, hcounts⟩ := Tally.foldlM_record_counts hset.count hset.distinct keys
        (Tally.empty_counts hset.count)
      rw [List.nil_append] at hcounts
      have hiff : tally.matchedCount ≥ oracleSet.threshold.toUInt64 ↔
          2 ≤ (pinned oracleSet keys).length := by
        rw [← hcounts.count_eq, hset.threshold, ge_iff_le, UInt64.le_iff_toNat_le]
        rfl
      simp only [ok_bind, htally]
      unfold require
      simp only [hiff]

theorem verifyThresholdSignatures_ok_iff
    {now issuedAt expiresAt : Int64} :
    verifyThresholdSignatures oracleSet preceding message now issuedAt expiresAt = .ok () ↔
      issuedAt ≤ now ∧ now ≤ expiresAt ∧ issuedAt < expiresAt ∧
      EachParses message preceding ∧ ThresholdMet oracleSet message preceding := by
  rw [verifyThresholdSignatures_eq hset]
  simp only [bind_ok_iff, require_ok_iff, two_le_pinned_iff hset, gt_iff_lt]
  constructor
  · rintro ⟨_, hissued, _, hnow, _, hwindow, keys, hkeys, a, ha, b, hb, hne, hka, hkb⟩
    obtain ⟨heach, hocc⟩ := parsedKeys_ok hkeys
    exact ⟨hissued, hnow, hwindow, heach, a, ha, b, hb, hne, (hocc a).mp hka, (hocc b).mp hkb⟩
  · rintro ⟨hissued, hnow, hwindow, heach, a, ha, b, hb, hne, hka, hkb⟩
    obtain ⟨keys, hkeys⟩ := exists_parsedKeys heach
    have hocc := (parsedKeys_ok hkeys).2
    exact ⟨(), hissued, (), hnow, (), hwindow, keys, hkeys,
      a, ha, b, hb, hne, (hocc a).mpr hka, (hocc b).mpr hkb⟩

theorem verifyThresholdSignatures_noPanic
    (preceding : List Instruction) (message : List UInt8) (now issuedAt expiresAt : Int64) :
    NoPanic (verifyThresholdSignatures oracleSet preceding message now issuedAt expiresAt) := by
  rw [verifyThresholdSignatures_eq hset]
  iterate 3 refine (NoPanic.require _ _).bind fun _ _ => ?_
  exact (parsedKeys_noPanic _ _).bind fun _ _ => NoPanic.require _ _

end

variable {l l' : List Instruction}

theorem EachParses.of_subset (hsub : l' ⊆ l) (h : EachParses message l) : EachParses message l' :=
  fun ins hins => h ins (hsub hins)

theorem Occurs.mono (hsub : l' ⊆ l) (h : Occurs message l' key) : Occurs message l key := by
  obtain ⟨ins, hins, hrest⟩ := h
  exact ⟨ins, hsub hins, hrest⟩

/-- Once everything parses, the outcome depends on the set of keys alone. -/
theorem verifyThresholdSignatures_congr (hset : AcceptedOracleSet oracleSet)
    (hl : EachParses message l) (hl' : EachParses message l')
    (hocc : ∀ key, Occurs message l key ↔ Occurs message l' key) (now issuedAt expiresAt : Int64) :
    verifyThresholdSignatures oracleSet l message now issuedAt expiresAt =
      verifyThresholdSignatures oracleSet l' message now issuedAt expiresAt := by
  obtain ⟨ks, hks⟩ := exists_parsedKeys hl
  obtain ⟨ks', hks'⟩ := exists_parsedKeys hl'
  have hsame : pinned oracleSet ks = pinned oracleSet ks' := by
    apply List.filter_congr
    intro s _
    rw [decide_eq_decide, (parsedKeys_ok hks).2, (parsedKeys_ok hks').2]
    exact hocc s
  rw [verifyThresholdSignatures_eq hset, verifyThresholdSignatures_eq hset, hks, hks', ok_bind,
    ok_bind, hsame]

theorem parsedKeys_append (message : List UInt8) (l r : List Instruction) :
    parsedKeys message (l ++ r) = (do
      let keys ← parsedKeys message l
      return keys ++ (← parsedKeys message r)) := by
  induction l with
  | nil =>
      rw [List.nil_append, parsedKeys, ok_bind]
      cases parsedKeys message r <;> rfl
  | cons ins l ih =>
      rw [List.cons_append, parsedKeys, parsedKeys, ih]
      split
      · rfl
      · cases parseVerifiedEd25519Instruction ins.data message with
        | error e => rfl
        | ok ks =>
            cases parsedKeys message l with
            | error e => rfl
            | ok ks' =>
                cases parsedKeys message r with
                | error e => rfl
                | ok ks'' =>
                    change Except.ok (ks ++ (ks' ++ ks'')) = Except.ok (ks ++ ks' ++ ks'')
                    rw [List.append_assoc]

/-- Instructions that were seen before add nothing, whatever the outcome and
whatever follows them. -/
theorem verifyThresholdSignatures_append_seen (hset : AcceptedOracleSet oracleSet)
    {r : List Instruction} (hsub : r ⊆ l) (rest : List Instruction) (message : List UInt8)
    (now issuedAt expiresAt : Int64) :
    verifyThresholdSignatures oracleSet (l ++ r ++ rest) message now issuedAt expiresAt =
      verifyThresholdSignatures oracleSet (l ++ rest) message now issuedAt expiresAt := by
  cases hl : parsedKeys message l with
  | error e =>
      simp only [verifyThresholdSignatures_eq hset, parsedKeys_append, hl]
      rfl
  | ok keys =>
      have heach := (parsedKeys_ok hl).1
      cases hrest : parsedKeys message rest with
      | error e =>
          obtain ⟨keys', hr⟩ := exists_parsedKeys (heach.of_subset hsub)
          simp only [verifyThresholdSignatures_eq hset, parsedKeys_append, hl, hr, hrest]
          rfl
      | ok keys' =>
          have hall : EachParses message (l ++ rest) := by
            intro ins hins
            rcases List.mem_append.mp hins with hins | hins
            · exact heach ins hins
            · exact (parsedKeys_ok hrest).1 ins hins
          have hdown : l ++ r ++ rest ⊆ l ++ rest := by
            intro ins hins
            simp only [List.mem_append] at hins ⊢
            rcases hins with (hins | hins) | hins
            · exact .inl hins
            · exact .inl (hsub hins)
            · exact .inr hins
          have hup : l ++ rest ⊆ l ++ r ++ rest := by
            intro ins hins
            simp only [List.mem_append] at hins ⊢
            exact hins.imp .inl id
          apply verifyThresholdSignatures_congr hset (hall.of_subset hdown) hall
          intro key
          exact ⟨.mono hdown, .mono hup⟩

/-- **Threshold soundness and completeness** of every oracle set that
`rotate_oracle_set` accepts.  Acceptance depends on the set of preceding
instructions alone; as long as they all parse the exact outcome depends on the
set of their keys alone; a repeated instruction changes nothing; and no input
makes the parser or the counter index out of bounds. -/
theorem threshold_sound_complete {args : RotateOracleSetArgs} {slot : UInt64}
    (hargs : validateOracleSet args slot = .ok ()) (bump : UInt8) (message : List UInt8)
    (now issuedAt expiresAt : Int64) :
    let oracleSet := args.oracleSet bump
    let verify := fun preceding =>
      verifyThresholdSignatures oracleSet preceding message now issuedAt expiresAt
    (∀ preceding, verify preceding = .ok () ↔
      issuedAt ≤ now ∧ now ≤ expiresAt ∧ issuedAt < expiresAt ∧
      EachParses message preceding ∧ ThresholdMet oracleSet message preceding) ∧
    (∀ l l', (∀ ins, ins ∈ l ↔ ins ∈ l') → (verify l = .ok () ↔ verify l' = .ok ())) ∧
    (∀ l l', EachParses message l → EachParses message l' →
      (∀ key, Occurs message l key ↔ Occurs message l' key) → verify l = verify l') ∧
    (∀ l r rest, r ⊆ l → verify (l ++ r ++ rest) = verify (l ++ rest)) ∧
    (∀ preceding, verify preceding ≠ .error .panicked) ∧
    ∀ data, parseVerifiedEd25519Instruction data message ≠ .error .panicked := by
  intro oracleSet verify
  have hset : AcceptedOracleSet oracleSet := acceptedOracleSet_of_validate bump hargs
  refine ⟨fun preceding => verifyThresholdSignatures_ok_iff hset, ?_, ?_, ?_, ?_, ?_⟩
  · intro l l' hmem
    have hto : l ⊆ l' := fun ins => (hmem ins).mp
    have hfrom : l' ⊆ l := fun ins => (hmem ins).mpr
    have heach : EachParses message l ↔ EachParses message l' :=
      ⟨.of_subset hfrom, .of_subset hto⟩
    have hmet : ThresholdMet oracleSet message l ↔ ThresholdMet oracleSet message l' := by
      have hocc : ∀ key, Occurs message l key ↔ Occurs message l' key :=
        fun key => ⟨.mono hto, .mono hfrom⟩
      unfold ThresholdMet
      simp only [hocc]
    simp only [verify, verifyThresholdSignatures_ok_iff hset, heach, hmet]
  · intro l l' hl hl' hocc
    exact verifyThresholdSignatures_congr hset hl hl' hocc now issuedAt expiresAt
  · intro l r rest hsub
    exact verifyThresholdSignatures_append_seen hset hsub rest message now issuedAt expiresAt
  · intro preceding
    exact (verifyThresholdSignatures_noPanic hset preceding message now issuedAt
      expiresAt).ne_panicked
  · intro data
    exact (parseVerifiedEd25519Instruction_noPanic data message).ne_panicked

/-- Three pinned signers and an instruction with one signature, by `key` over
the one-byte message `text`. -/
def sampleArgs : RotateOracleSetArgs :=
  { epoch := 7
    signers := [List.Vector.replicate 32 1, List.Vector.replicate 32 2, List.Vector.replicate 32 3]
    threshold := 2
    activationSlot := 0
    retirementSlot := none }

@[inherit_doc sampleArgs]
def sampleInstruction (key text : UInt8) : Instruction :=
  { programId := ed25519ProgramId
    data := [1, 0, 48, 0, 255, 255, 16, 0, 255, 255, 112, 0, 1, 0, 255, 255] ++
      List.replicate 32 key ++ List.replicate 64 9 ++ [text] }

/-- Two signers reach the threshold, and still do when their instructions are
swapped and one is repeated. -/
theorem threshold_sound_complete_sample :
    validateOracleSet sampleArgs 0 = .ok () ∧
    verifyThresholdSignatures (sampleArgs.oracleSet 1)
      [sampleInstruction 1 120, sampleInstruction 2 120] [120] 10 5 20 = .ok () ∧
    verifyThresholdSignatures (sampleArgs.oracleSet 1)
      [sampleInstruction 2 120, sampleInstruction 1 120, sampleInstruction 2 120]
      [120] 10 5 20 = .ok () := by
  have hmem : ∀ (a b ins : Instruction), ins ∈ [a, b] ↔ ins ∈ [b, a, b] := by
    intro a b ins
    simp only [List.mem_cons, List.not_mem_nil, or_false]
    tauto
  have hargs : validateOracleSet sampleArgs 0 = .ok () := rfl
  have hok : verifyThresholdSignatures (sampleArgs.oracleSet 1)
      [sampleInstruction 1 120, sampleInstruction 2 120] [120] 10 5 20 = .ok () := by
    decide +kernel
  have hperm := (threshold_sound_complete hargs 1 [120] 10 5 20).2.1
  exact ⟨hargs, hok, (hperm _ _ (hmem _ _)).mp hok⟩

/-- With two unparsable instructions the first one's error is reported, so
swapping them changes it. -/
theorem threshold_error_order :
    let malformed : Instruction := { programId := ed25519ProgramId, data := [] }
    let foreign := sampleInstruction 1 121
    validateOracleSet sampleArgs 0 = .ok () ∧
    [malformed, foreign].Perm [foreign, malformed] ∧
    verifyThresholdSignatures (sampleArgs.oracleSet 1) [malformed, foreign] [120] 10 5 20 =
      .error EscrowError.invalidEd25519Instruction ∧
    verifyThresholdSignatures (sampleArgs.oracleSet 1) [foreign, malformed] [120] 10 5 20 =
      .error EscrowError.invalidAttestationDomain :=
  ⟨rfl, List.Perm.swap _ _ _, by decide +kernel, by decide +kernel⟩

end CalledIt.Escrow
