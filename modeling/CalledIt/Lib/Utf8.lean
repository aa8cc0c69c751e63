import CalledIt.Lib.Json

/-!
# CalledIt.Lib.Utf8

Texts as the bytes of a file.

`encode` writes a text in UTF-8, a lone surrogate as the replacement character.
`decode` reads any bytes: what is no UTF-8 becomes replacement characters, one for
every longest start of a character that goes on wrongly.

* `decode_encode` — a well-formed text reads back, whatever follows it;
* `decode_take_encode` — a text cut anywhere reads as a start of it, with one
  replacement character where a character was cut through.
-/

namespace Lib

variable {n q : ℕ} {t : Text} {c : UInt16}

namespace Utf8

open Json (isHighSurrogate isLowSurrogate)

def replacement : UInt16 := 0xFFFD

/-! ## code points -/

/-- A code point that is no surrogate. -/
def Scalar (n : ℕ) : Prop := n < 0x110000 ∧ ¬ (0xD800 ≤ n ∧ n < 0xE000)

def pointUnits (n : ℕ) : Text :=
  if n < 0x10000 then [UInt16.ofNat n]
  else [UInt16.ofNat (0xD800 + (n - 0x10000) / 0x400),
    UInt16.ofNat (0xDC00 + (n - 0x10000) % 0x400)]

def pointBytes (n : ℕ) : List UInt8 :=
  if n < 0x80 then [UInt8.ofNat n]
  else if n < 0x800 then [UInt8.ofNat (0xC0 + n / 64), UInt8.ofNat (0x80 + n % 64)]
  else if n < 0x10000 then
    [UInt8.ofNat (0xE0 + n / 4096), UInt8.ofNat (0x80 + n / 64 % 64), UInt8.ofNat (0x80 + n % 64)]
  else
    [UInt8.ofNat (0xF0 + n / 262144), UInt8.ofNat (0x80 + n / 4096 % 64),
      UInt8.ofNat (0x80 + n / 64 % 64), UInt8.ofNat (0x80 + n % 64)]

/-! ## writing -/

/-- The code point of a surrogate pair. -/
def pairPoint (high low : UInt16) : ℕ :=
  0x10000 + (high.toNat - 0xD800) * 0x400 + (low.toNat - 0xDC00)

def unitBytes (c : UInt16) : List UInt8 :=
  if isHighSurrogate c || isLowSurrogate c then pointBytes replacement.toNat else pointBytes c.toNat

def encode : Text → List UInt8
  | [] => []
  | [c] => unitBytes c
  | c :: d :: rest =>
      if isHighSurrogate c && isLowSurrogate d then pointBytes (pairPoint c d) ++ encode rest
      else unitBytes c ++ encode (d :: rest)

/-! ## reading -/

/-- A character begun: how many bytes are missing, the bounds of the next one and
the bits so far. -/
structure Pending where
  needed : ℕ
  lower : ℕ
  upper : ℕ
  point : ℕ

def firstByte (b : UInt8) : Text × Option Pending :=
  let n := b.toNat
  if n < 0x80 then ([UInt16.ofNat n], none)
  else if 0xC2 ≤ n ∧ n ≤ 0xDF then ([], some ⟨1, 0x80, 0xBF, n - 0xC0⟩)
  else if 0xE0 ≤ n ∧ n ≤ 0xEF then
    ([], some ⟨2, if n = 0xE0 then 0xA0 else 0x80, if n = 0xED then 0x9F else 0xBF, n - 0xE0⟩)
  else if 0xF0 ≤ n ∧ n ≤ 0xF4 then
    ([], some ⟨3, if n = 0xF0 then 0x90 else 0x80, if n = 0xF4 then 0x8F else 0xBF, n - 0xF0⟩)
  else ([replacement], none)

/-- A byte out of bounds ends the character and is read anew. -/
def nextByte (p : Pending) (b : UInt8) : Text × Option Pending :=
  if p.lower ≤ b.toNat ∧ b.toNat ≤ p.upper then
    let point := p.point * 64 + (b.toNat - 0x80)
    if p.needed = 1 then (pointUnits point, none) else ([], some ⟨p.needed - 1, 0x80, 0xBF, point⟩)
  else (replacement :: (firstByte b).1, (firstByte b).2)

def decodeFrom : Option Pending → List UInt8 → Text
  | none, [] => []
  | some _, [] => [replacement]
  | none, b :: bs => (firstByte b).1 ++ decodeFrom (firstByte b).2 bs
  | some p, b :: bs => (nextByte p b).1 ++ decodeFrom (nextByte p b).2 bs

def decode (bs : List UInt8) : Text := decodeFrom none bs

/-! ## one character -/

theorem toNat_ofNat_byte (h : n < 256) : (UInt8.ofNat n).toNat = n := by
  rw [UInt8.toNat_ofNat', Nat.mod_eq_of_lt (by omega)]

/-- A byte of the middle of a character. -/
theorem nextByte_middle {needed lower upper : ℕ} (point : ℕ) (hneeded : needed ≠ 1) (hn : n < 64)
    (hlower : lower ≤ 0x80 + n) (hupper : 0x80 + n ≤ upper) :
    nextByte ⟨needed, lower, upper, point⟩ (UInt8.ofNat (0x80 + n)) =
      ([], some ⟨needed - 1, 0x80, 0xBF, point * 64 + n⟩) := by
  have hbyte : (UInt8.ofNat (0x80 + n)).toNat = 0x80 + n := toNat_ofNat_byte (by omega)
  simp only [nextByte, hbyte]
  rw [if_pos ⟨hlower, hupper⟩, if_neg hneeded, Nat.add_sub_cancel_left]

theorem nextByte_last {lower upper : ℕ} (point : ℕ) (hn : n < 64) (hlower : lower ≤ 0x80 + n)
    (hupper : 0x80 + n ≤ upper) :
    nextByte ⟨1, lower, upper, point⟩ (UInt8.ofNat (0x80 + n)) =
      (pointUnits (point * 64 + n), none) := by
  have hbyte : (UInt8.ofNat (0x80 + n)).toNat = 0x80 + n := toNat_ofNat_byte (by omega)
  simp only [nextByte, hbyte]
  rw [if_pos ⟨hlower, hupper⟩, if_pos trivial, Nat.add_sub_cancel_left]

theorem firstByte_ascii (h : n < 0x80) :
    firstByte (UInt8.ofNat n) = ([UInt16.ofNat n], none) := by
  have hbyte : (UInt8.ofNat n).toNat = n := toNat_ofNat_byte (by omega)
  simp only [firstByte, hbyte]
  rw [if_pos h]

theorem firstByte_two (hlow : 2 ≤ q) (hhigh : q < 32) :
    firstByte (UInt8.ofNat (0xC0 + q)) = ([], some ⟨1, 0x80, 0xBF, q⟩) := by
  have hbyte : (UInt8.ofNat (0xC0 + q)).toNat = 0xC0 + q := toNat_ofNat_byte (by omega)
  simp only [firstByte, hbyte]
  rw [if_neg (by omega), if_pos (by omega), Nat.add_sub_cancel_left]

theorem firstByte_three (h : q < 16) :
    firstByte (UInt8.ofNat (0xE0 + q)) = ([], some ⟨2, if q = 0 then 0xA0 else 0x80,
      if q = 13 then 0x9F else 0xBF, q⟩) := by
  have hbyte : (UInt8.ofNat (0xE0 + q)).toNat = 0xE0 + q := toNat_ofNat_byte (by omega)
  simp only [firstByte, hbyte]
  rw [if_neg (by omega), if_neg (by omega), if_pos (by omega), Nat.add_sub_cancel_left]
  have hfirst : 0xE0 + q = 0xE0 ↔ q = 0 := by omega
  have hlast : 0xE0 + q = 0xED ↔ q = 13 := by omega
  simp only [hfirst, hlast]

theorem firstByte_four (h : q < 5) :
    firstByte (UInt8.ofNat (0xF0 + q)) = ([], some ⟨3, if q = 0 then 0x90 else 0x80,
      if q = 4 then 0x8F else 0xBF, q⟩) := by
  have hbyte : (UInt8.ofNat (0xF0 + q)).toNat = 0xF0 + q := toNat_ofNat_byte (by omega)
  simp only [firstByte, hbyte]
  rw [if_neg (by omega), if_neg (by omega), if_neg (by omega), if_pos (by omega),
    Nat.add_sub_cancel_left]
  have hfirst : 0xF0 + q = 0xF0 ↔ q = 0 := by omega
  have hlast : 0xF0 + q = 0xF4 ↔ q = 4 := by omega
  simp only [hfirst, hlast]

/-- A character reads back, and cut through it reads as one replacement. -/
structure Reads (n : ℕ) : Prop where
  whole : ∀ bs, decode (pointBytes n ++ bs) = pointUnits n ++ decode bs
  torn : ∀ k, 0 < k → k < (pointBytes n).length → decode ((pointBytes n).take k) = [replacement]

theorem reads_one (h : n < 0x80) : Reads n where
  whole bs := by
    simp [pointBytes, pointUnits, h, show n < 0x10000 by omega, decode, decodeFrom,
      firstByte_ascii h]
  torn k hpos hlt := by
    simp only [pointBytes, if_pos h, List.length_singleton] at hlt
    omega

/-- These bytes go on with a character up to this code point. -/
inductive Continues : Pending → List UInt8 → ℕ → Prop
  | last {lower upper point n : ℕ} (hn : n < 64) (hlower : lower ≤ 0x80 + n)
      (hupper : 0x80 + n ≤ upper) :
      Continues ⟨1, lower, upper, point⟩ [UInt8.ofNat (0x80 + n)] (point * 64 + n)
  | middle {needed lower upper point n m : ℕ} {bs : List UInt8} (hneeded : needed ≠ 1) (hn : n < 64)
      (hlower : lower ≤ 0x80 + n) (hupper : 0x80 + n ≤ upper) :
      Continues ⟨needed - 1, 0x80, 0xBF, point * 64 + n⟩ bs m →
      Continues ⟨needed, lower, upper, point⟩ (UInt8.ofNat (0x80 + n) :: bs) m

variable {p : Pending} {bs : List UInt8}

theorem Continues.whole (h : Continues p bs n) (rest : List UInt8) :
    decodeFrom (some p) (bs ++ rest) = pointUnits n ++ decode rest := by
  induction h with
  | last hn hlower hupper =>
      rw [List.singleton_append, decodeFrom, nextByte_last _ hn hlower hupper, decode]
  | middle hneeded hn hlower hupper _ ih =>
      rwa [List.cons_append, decodeFrom, nextByte_middle _ hneeded hn hlower hupper]

theorem Continues.torn (h : Continues p bs n) {k : ℕ} (hk : k < bs.length) :
    decodeFrom (some p) (bs.take k) = [replacement] := by
  induction h generalizing k with
  | last =>
      obtain rfl : k = 0 := by simpa using hk
      rfl
  | middle hneeded hn hlower hupper _ ih =>
      cases k with
      | zero => rfl
      | succ k =>
          rw [List.take_succ_cons, decodeFrom, nextByte_middle _ hneeded hn hlower hupper]
          exact ih (Nat.lt_of_succ_lt_succ hk)

theorem Continues.reads {b : UInt8} (h : Continues p bs n) (hbytes : pointBytes n = b :: bs)
    (hfirst : firstByte b = ([], some p)) : Reads n where
  whole rest := by simpa [hbytes, decode, decodeFrom, hfirst] using h.whole rest
  torn k hpos hlt := by
    obtain ⟨k, rfl⟩ := Nat.exists_eq_succ_of_ne_zero (by omega : k ≠ 0)
    rw [hbytes] at hlt ⊢
    simpa [decode, decodeFrom, hfirst] using h.torn (Nat.lt_of_succ_lt_succ hlt)

theorem reads_two (hlow : ¬ n < 0x80) (h : n < 0x800) : Reads n := by
  have hend : Continues ⟨1, 0x80, 0xBF, n / 64⟩ [UInt8.ofNat (0x80 + n % 64)]
      (n / 64 * 64 + n % 64) := .last (by omega) (by omega) (by omega)
  rw [Nat.div_add_mod'] at hend
  exact hend.reads (by rw [pointBytes, if_neg hlow, if_pos h]) (firstByte_two (by omega) (by omega))

theorem reads_three (hlow : ¬ n < 0x800) (h : n < 0x10000)
    (hscalar : ¬ (0xD800 ≤ n ∧ n < 0xE000)) : Reads n := by
  have hend : Continues ⟨1, 0x80, 0xBF, n / 4096 * 64 + n / 64 % 64⟩
      [UInt8.ofNat (0x80 + n % 64)] ((n / 4096 * 64 + n / 64 % 64) * 64 + n % 64) :=
    .last (by omega) (by omega) (by omega)
  rw [show (n / 4096 * 64 + n / 64 % 64) * 64 + n % 64 = n by omega] at hend
  refine (Continues.middle (by decide) (by omega) ?_ ?_ hend).reads
    (by rw [pointBytes, if_neg (by omega), if_neg hlow, if_pos h]) (firstByte_three (by omega))
  · split <;> omega
  · split <;> omega

theorem reads_four (hlow : ¬ n < 0x10000) (h : n < 0x110000) : Reads n := by
  have hend : Continues ⟨1, 0x80, 0xBF, (n / 262144 * 64 + n / 4096 % 64) * 64 + n / 64 % 64⟩
      [UInt8.ofNat (0x80 + n % 64)]
      (((n / 262144 * 64 + n / 4096 % 64) * 64 + n / 64 % 64) * 64 + n % 64) :=
    .last (by omega) (by omega) (by omega)
  rw [show ((n / 262144 * 64 + n / 4096 % 64) * 64 + n / 64 % 64) * 64 + n % 64 = n by omega]
    at hend
  have hthird : Continues ⟨2, 0x80, 0xBF, n / 262144 * 64 + n / 4096 % 64⟩ _ n :=
    .middle (by decide) (by omega) (by omega) (by omega) hend
  refine (Continues.middle (by decide) (by omega) ?_ ?_ hthird).reads
    (by rw [pointBytes, if_neg (by omega), if_neg (by omega), if_neg hlow])
    (firstByte_four (by omega))
  · split <;> omega
  · split <;> omega

theorem reads_of_scalar (h : Scalar n) : Reads n := by
  by_cases h1 : n < 0x80
  · exact reads_one h1
  · by_cases h2 : n < 0x800
    · exact reads_two h1 h2
    · by_cases h3 : n < 0x10000
      · exact reads_three h2 h3 h.2
      · exact reads_four h3 h.1

/-! ## texts -/

/-- A text whose surrogates come in pairs. -/
def WellFormed (t : Text) : Prop := ∃ ns : List ℕ, (∀ n ∈ ns, Scalar n) ∧ t = ns.flatMap pointUnits

theorem wellFormed_append {s : Text} (hs : WellFormed s) (ht : WellFormed t) :
    WellFormed (s ++ t) := by
  obtain ⟨ns, hns, rfl⟩ := hs
  obtain ⟨ms, hms, rfl⟩ := ht
  refine ⟨ns ++ ms, fun n hn => ?_, by simp⟩
  exact (List.mem_append.mp hn).elim (hns n) (hms n)

theorem wellFormed_nil : WellFormed [] := ⟨[], by simp, rfl⟩

theorem toNat_ofNat_unit (h : n < 0x10000) : (UInt16.ofNat n).toNat = n := by
  rw [UInt16.toNat_ofNat', Nat.mod_eq_of_lt (by omega)]

theorem isHighSurrogate_iff :
    isHighSurrogate c = true ↔ 0xD800 ≤ c.toNat ∧ c.toNat < 0xDC00 := by
  simp only [isHighSurrogate, Bool.and_eq_true, decide_eq_true_eq, UInt16.le_iff_toNat_le,
    UInt16.reduceToNat]
  omega

theorem isLowSurrogate_iff :
    isLowSurrogate c = true ↔ 0xDC00 ≤ c.toNat ∧ c.toNat < 0xE000 := by
  simp only [isLowSurrogate, Bool.and_eq_true, decide_eq_true_eq, UInt16.le_iff_toNat_le,
    UInt16.reduceToNat]
  omega

/-- A unit that is no surrogate is a text by itself. -/
theorem wellFormed_unit (hhigh : isHighSurrogate c = false)
    (hlow : isLowSurrogate c = false) : WellFormed [c] := by
  have hlt := c.toNat_lt
  rw [← Bool.not_eq_true, isHighSurrogate_iff] at hhigh
  rw [← Bool.not_eq_true, isLowSurrogate_iff] at hlow
  refine ⟨[c.toNat], fun n hn => ?_, ?_⟩
  · obtain rfl := List.mem_singleton.mp hn
    exact ⟨by omega, by omega⟩
  · simp [pointUnits, show c.toNat < 0x10000 by omega]

theorem pointUnits_pairPoint {d : UInt16} (hc : isHighSurrogate c = true)
    (hd : isLowSurrogate d = true) : pointUnits (pairPoint c d) = [c, d] := by
  rw [isHighSurrogate_iff] at hc
  rw [isLowSurrogate_iff] at hd
  have hlarge : ¬ pairPoint c d < 0x10000 := by
    unfold pairPoint
    omega
  have hhigh : 0xD800 + (pairPoint c d - 0x10000) / 0x400 = c.toNat := by
    unfold pairPoint
    omega
  have hlow : 0xDC00 + (pairPoint c d - 0x10000) % 0x400 = d.toNat := by
    unfold pairPoint
    omega
  rw [pointUnits, if_neg hlarge, hhigh, hlow, UInt16.ofNat_toNat, UInt16.ofNat_toNat]

theorem wellFormed_pair {d : UInt16} (hc : isHighSurrogate c = true)
    (hd : isLowSurrogate d = true) : WellFormed [c, d] := by
  refine ⟨[pairPoint c d], fun n hn => ?_, by simp [pointUnits_pairPoint hc hd]⟩
  rw [isHighSurrogate_iff] at hc
  rw [isLowSurrogate_iff] at hd
  have hpoint : n = 0x10000 + (c.toNat - 0xD800) * 0x400 + (d.toNat - 0xDC00) :=
    List.mem_singleton.mp hn
  exact ⟨by omega, by omega⟩

theorem encode_cons (h : isHighSurrogate c = false) (t : Text) :
    encode (c :: t) = unitBytes c ++ encode t := by
  cases t with
  | nil => simp [encode]
  | cons d rest => simp [encode, h]

theorem encode_pointUnits (h : Scalar n) (t : Text) :
    encode (pointUnits n ++ t) = pointBytes n ++ encode t := by
  by_cases hlarge : n < 0x10000
  · have hunit := toNat_ofNat_unit hlarge
    have hsurrogate : isHighSurrogate (UInt16.ofNat n) = false ∧
        isLowSurrogate (UInt16.ofNat n) = false := by
      rw [← Bool.not_eq_true, ← Bool.not_eq_true, isHighSurrogate_iff, isLowSurrogate_iff, hunit]
      have hscalar := h.2
      omega
    rw [pointUnits, if_pos hlarge, List.singleton_append, encode_cons hsurrogate.1, unitBytes,
      hsurrogate.1, hsurrogate.2, hunit]
    rfl
  · have hn := h.1
    have hhigh : (UInt16.ofNat (0xD800 + (n - 0x10000) / 0x400)).toNat =
        0xD800 + (n - 0x10000) / 0x400 := toNat_ofNat_unit (by omega)
    have hlow : (UInt16.ofNat (0xDC00 + (n - 0x10000) % 0x400)).toNat =
        0xDC00 + (n - 0x10000) % 0x400 := toNat_ofNat_unit (by omega)
    have hc := isHighSurrogate_iff.mpr (by rw [hhigh]; omega)
    have hd := isLowSurrogate_iff.mpr (by rw [hlow]; omega)
    have hpoint : pairPoint (UInt16.ofNat (0xD800 + (n - 0x10000) / 0x400))
        (UInt16.ofNat (0xDC00 + (n - 0x10000) % 0x400)) = n := by
      unfold pairPoint
      omega
    rw [pointUnits, if_neg hlarge, List.cons_append, List.cons_append, List.nil_append, encode, hc,
      hd, hpoint]
    rfl

theorem encode_points {ns : List ℕ} (h : ∀ n ∈ ns, Scalar n) :
    encode (ns.flatMap pointUnits) = ns.flatMap pointBytes := by
  induction ns with
  | nil => rfl
  | cons n ns ih =>
      rw [List.flatMap_cons, List.flatMap_cons, encode_pointUnits (h n (by simp)),
        ih fun m hm => h m (by simp [hm])]

theorem encode_append {s : Text} (hs : WellFormed s) :
    encode (s ++ t) = encode s ++ encode t := by
  obtain ⟨ns, hns, rfl⟩ := hs
  rw [encode_points hns]
  induction ns with
  | nil => rfl
  | cons n ns ih =>
      rw [List.flatMap_cons, List.flatMap_cons, List.append_assoc, List.append_assoc,
        encode_pointUnits (hns n (by simp)), ih fun m hm => hns m (by simp [hm])]

/-- A well-formed text reads back, whatever bytes follow. -/
theorem decode_encode (h : WellFormed t) (bs : List UInt8) :
    decode (encode t ++ bs) = t ++ decode bs := by
  obtain ⟨ns, hns, rfl⟩ := h
  rw [encode_points hns]
  induction ns with
  | nil => rfl
  | cons n ns ih =>
      rw [List.flatMap_cons, List.flatMap_cons, List.append_assoc, List.append_assoc,
        (reads_of_scalar (hns n (by simp))).whole, ih fun m hm => hns m (by simp [hm])]

theorem pointUnits_ne_nil (n : ℕ) : pointUnits n ≠ [] := by
  unfold pointUnits
  split <;> simp

/-- A text cut before its end reads as a proper start of it, and a replacement where
the cut went through a character. -/
theorem decode_take_encode (h : WellFormed t) {k : ℕ} (hk : k < (encode t).length) :
    ∃ s u, t = s ++ u ∧ u ≠ [] ∧
      (decode ((encode t).take k) = s ∨ decode ((encode t).take k) = s ++ [replacement]) := by
  obtain ⟨ns, hns, rfl⟩ := h
  rw [encode_points hns] at hk ⊢
  induction ns generalizing k with
  | nil => simp at hk
  | cons n ns ih =>
      have hreads := reads_of_scalar (hns n (by simp))
      rw [List.flatMap_cons] at hk ⊢
      rw [List.flatMap_cons, List.take_append]
      by_cases hcut : k < (pointBytes n).length
      · -- cut before or inside the first character
        refine ⟨[], _, rfl, by simp [pointUnits_ne_nil], ?_⟩
        rw [Nat.sub_eq_zero_of_le hcut.le, List.take_zero, List.append_nil]
        by_cases hzero : k = 0
        · exact .inl (by rw [hzero]; rfl)
        · exact .inr (hreads.torn k (by omega) hcut)
      · rw [List.length_append] at hk
        obtain ⟨s, u, hsplit, hne, hdecode⟩ := ih (k := k - (pointBytes n).length)
          (fun m hm => hns m (by simp [hm])) (by omega)
        refine ⟨pointUnits n ++ s, u, by rw [hsplit, List.append_assoc], hne, ?_⟩
        rw [List.take_of_length_le (Nat.not_lt.mp hcut), hreads.whole]
        rcases hdecode with hdecode | hdecode
        · exact .inl (by rw [hdecode])
        · exact .inr (by rw [hdecode, List.append_assoc])

/-- Bytes are never read as nothing. -/
theorem decode_eq_nil_iff {bs : List UInt8} : decode bs = [] ↔ bs = [] := by
  have hpending : ∀ (bs : List UInt8) (p : Pending), decodeFrom (some p) bs ≠ [] := by
    intro bs
    induction bs with
    | nil => simp [decodeFrom]
    | cons b bs ih =>
        intro p
        simp only [decodeFrom, nextByte]
        split_ifs
        · simp [pointUnits_ne_nil]
        · simpa using ih _
        · simp
  constructor
  · intro h
    cases bs with
    | nil => rfl
    | cons b bs =>
        exfalso
        simp only [decode, decodeFrom, firstByte] at h
        split_ifs at h
        all_goals simp [hpending] at h
  · rintro rfl
    rfl

end Utf8

end Lib
