import CalledIt.Lib.Base58
import CalledIt.Lib.Radix
import Mathlib.Data.Bool.AllAny

/-!
# CalledIt.Solana.Codecs

The base58 codec of addresses (`solana/src/codecs.ts`).

Both directions take the digits in one after another: the places of the accumulator, least
significant first, are multiplied and added to in place (`addDigit`).  It always holds the
digits of the number read so far (`addDigit_digits`), so a codec writes the number in the
other radix behind the zeros in front, and each undoes the other (`base58_bijective`).
-/

namespace CalledIt.Solana

open Lib Lib.Radix

/-- Every place takes the carry from the places below; the last carry is left. -/
def carryThrough (radix base : Nat) : Nat → List Nat → List Nat × Nat
  | carry, [] => ([], carry)
  | carry, place :: places =>
      let sum := carry + place * radix
      let rest := carryThrough radix base (sum / base) places
      (sum % base :: rest.1, rest.2)

/-- New places as long as there is a carry, which is no more than the fuel. -/
def pushCarry (base : Nat) : Nat → Nat → List Nat
  | 0, _ => []
  | fuel + 1, carry =>
      if 0 < carry then carry % base :: pushCarry base fuel (carry / base) else []

def addDigit (radix base : Nat) (accumulator : List Nat) (digit : Nat) : List Nat :=
  let places := carryThrough radix base digit accumulator
  places.1 ++ pushCarry base places.2 places.2

def decodeChars : List Nat → List Char → Except String (List Nat)
  | accumulator, [] => .ok accumulator
  | accumulator, char :: rest =>
      match base58Alphabet.idxOf? char with
      | none => .error ("invalid base58 character \"" ++ char.toString ++ "\"")
      | some digit => decodeChars (addDigit 58 256 accumulator digit) rest

def base58Decode (encoded : String) : Except String (List UInt8) := do
  let leadingZeros := (encoded.toList.takeWhile (· = '1')).length
  let accumulator ← decodeChars [] encoded.toList
  return List.replicate leadingZeros 0 ++ (accumulator.map UInt8.ofNat).reverse

def base58Encode (bytes : List UInt8) : String :=
  let digits := bytes.foldl (fun digits byte => addDigit 256 58 digits byte.toNat) []
  String.ofList (List.replicate (leadingZeros bytes) '1' ++ (digits.map base58Digit).reverse)

/-! ## the carry -/

variable {radix base : Nat}

theorem pushCarry_eq (hbase : 1 < base) {fuel carry : Nat} (h : carry ≤ fuel) :
    pushCarry base fuel carry = Nat.digits base carry := by
  induction fuel generalizing carry with
  | zero => simp [pushCarry, Nat.le_zero.mp h]
  | succ fuel ih =>
      rw [pushCarry]
      split
      · next hpos =>
        have hless := Nat.div_lt_self hpos hbase
        rw [Nat.digits_def' hbase hpos, ih (by omega)]
      · next hzero => simp [Nat.eq_zero_of_not_pos hzero]

/-- The places hold the digits of the product and the sum. -/
theorem addDigit_digits (hradix : 0 < radix) (hbase : 1 < base) (n digit : Nat) :
    addDigit radix base (Nat.digits base n) digit = Nat.digits base (digit + radix * n) := by
  induction n using Nat.strongRecOn generalizing digit with
  | ind n ih =>
      by_cases hn : n = 0
      · simp [hn, addDigit, carryThrough, pushCarry_eq hbase (Nat.le_refl digit)]
      · have hpos : 0 < n := Nat.pos_of_ne_zero hn
        have hsum : digit + radix * n =
            (digit + n % base * radix) + base * (radix * (n / base)) := by
          conv_lhs => rw [← Nat.mod_add_div n base]
          ring
        have hproduct : 0 < radix * n := Nat.mul_pos hradix hpos
        have hstep := ih (n / base) (Nat.div_lt_self hpos hbase) ((digit + n % base * radix) / base)
        rw [Nat.digits_def' hbase hpos, addDigit, carryThrough]
        rw [Nat.digits_def' hbase (n := digit + radix * n) (by omega)]
        rw [hsum, Nat.add_mul_mod_self_left, Nat.add_mul_div_left _ _ (by omega), ← hstep]
        rfl

theorem foldl_addDigit (hradix : 0 < radix) (hbase : 1 < base) (ds : List Nat) (n : Nat) :
    ds.foldl (addDigit radix base) (Nat.digits base n) =
      Nat.digits base (ds.foldl (fun n d => d + radix * n) n) := by
  induction ds generalizing n with
  | nil => rfl
  | cons d ds ih => rw [List.foldl_cons, addDigit_digits hradix hbase, ih, List.foldl_cons]

/-! ## what the codecs write -/

def charDigit (c : Char) : Nat := (base58Alphabet.idxOf? c).getD 0

theorem charDigit_spec : ∀ c ∈ base58Alphabet, base58Alphabet.idxOf? c = some (charDigit c) ∧
    charDigit c < 58 ∧ base58Digit (charDigit c) = c ∧ (charDigit c = 0 ↔ c = '1') :=
  List.all_iff_forall_prop.mp (by decide +kernel)

theorem base58Digit_spec :
    ∀ d < 58, base58Digit d ∈ base58Alphabet ∧ charDigit (base58Digit d) = d := by
  decide +kernel

theorem map_map_eq_self {f : α → β} {g : β → α} {xs : List α} (h : ∀ x ∈ xs, g (f x) = x) :
    (xs.map f).map g = xs := by
  rw [List.map_map]
  exact (List.map_congr_left (g := id) h).trans (List.map_id xs)

theorem bytes_read (bytes : List UInt8) : (bytes.map UInt8.toNat).map UInt8.ofNat = bytes :=
  map_map_eq_self fun _ _ => UInt8.ofNat_toNat

variable {bytes : List UInt8} {cs : List Char} {text : String}

def Base58 (cs : List Char) : Prop := ∀ c ∈ cs, c ∈ base58Alphabet

theorem base58Encode_eq (bytes : List UInt8) : base58Encode bytes =
    String.ofList ((convert 256 58 (bytes.map UInt8.toNat)).map base58Digit) := by
  have hdigits : bytes.foldl (fun digits byte => addDigit 256 58 digits byte.toNat) [] =
      Nat.digits 58 (valueOf 256 (bytes.map UInt8.toNat)) := by
    rw [← foldl_eq_valueOf, ← foldl_addDigit (by decide) (by decide), List.foldl_map,
      Nat.digits_zero]
  have hzeros : leadingZeros bytes = zeros (bytes.map UInt8.toNat) := by
    simp [leadingZeros, zeros, List.takeWhile_map, Function.comp_def, ← UInt8.toNat_inj]
  have hone : base58Digit 0 = '1' := rfl
  rw [base58Encode, hdigits, hzeros, convert, List.map_append, List.map_replicate, hone,
    List.map_reverse]

theorem decodeChars_ok (h : Base58 cs) (accumulator : List Nat) :
    decodeChars accumulator cs = .ok ((cs.map charDigit).foldl (addDigit 58 256) accumulator) := by
  induction cs generalizing accumulator with
  | nil => rfl
  | cons c cs ih =>
      rw [decodeChars, (charDigit_spec c (h c List.mem_cons_self)).1]
      exact ih (fun c hc => h c (List.mem_cons_of_mem _ hc)) _

theorem decodeChars_error {c : Char} (hc : c ∈ cs) (hout : c ∉ base58Alphabet)
    (accumulator : List Nat) : ∃ error, decodeChars accumulator cs = .error error := by
  induction cs generalizing accumulator with
  | nil => cases hc
  | cons c' cs ih =>
      rw [decodeChars]
      split
      · exact ⟨_, rfl⟩
      · next digit hdigit =>
        rcases List.mem_cons.mp hc with rfl | hc
        · rw [List.idxOf?_eq_none_iff.mpr hout] at hdigit
          cases hdigit
        · exact ih hc _

theorem zeros_charDigit (h : Base58 cs) :
    zeros (cs.map charDigit) = (cs.takeWhile (· = '1')).length := by
  induction cs with
  | nil => rfl
  | cons c cs ih =>
      have hzero := (charDigit_spec c (h c List.mem_cons_self)).2.2.2
      have hrest := ih fun c hc => h c (List.mem_cons_of_mem _ hc)
      by_cases hc : c = '1' <;> simp_all [zeros]

theorem base58Decode_eq (h : Base58 text.toList) : base58Decode text =
    .ok ((convert 58 256 (text.toList.map charDigit)).map UInt8.ofNat) := by
  rw [base58Decode, decodeChars_ok h, ← Nat.digits_zero 256, foldl_addDigit (by decide) (by decide),
    foldl_eq_valueOf, ← zeros_charDigit h, convert, List.map_append, List.map_replicate,
    List.map_reverse]
  rfl

/-- Decoding undoes encoding and encoding undoes decoding, and the texts that are refused are
those with a character outside of the alphabet. -/
theorem base58_bijective (bytes : List UInt8) (text : String) :
    base58Decode (base58Encode bytes) = .ok bytes ∧
      (Base58 text.toList → (base58Decode text).map base58Encode = .ok text) ∧
      ((∃ error, base58Decode text = .error error) ↔
        ∃ c ∈ text.toList, c ∉ base58Alphabet) := by
  refine ⟨?_, fun h => ?_, fun ⟨error, herror⟩ => ?_, fun ⟨c, hc, hout⟩ => ?_⟩
  · have hdigit : ∀ d ∈ convert 256 58 (bytes.map UInt8.toNat), base58Digit d ∈ base58Alphabet ∧
        charDigit (base58Digit d) = d := fun d hd => base58Digit_spec d (mem_convert (by decide) hd)
    have hread : ((convert 256 58 (bytes.map UInt8.toNat)).map base58Digit).map charDigit =
        convert 256 58 (bytes.map UInt8.toNat) := map_map_eq_self fun d hd => (hdigit d hd).2
    rw [base58Encode_eq, base58Decode_eq, String.toList_ofList, hread,
      convert_convert (by decide), bytes_read]
    · exact List.forall_mem_map.mpr fun byte _ => byte.toNat_lt
    · rw [String.toList_ofList]
      exact List.forall_mem_map.mpr fun d hd => (hdigit d hd).1
  · have hread : ((convert 58 256 (text.toList.map charDigit)).map UInt8.ofNat).map UInt8.toNat =
        convert 58 256 (text.toList.map charDigit) :=
      map_map_eq_self fun d hd => UInt8.toNat_ofNat_of_lt (mem_convert (by decide) hd)
    have htext : (text.toList.map charDigit).map base58Digit = text.toList :=
      map_map_eq_self fun c hc => (charDigit_spec c (h c hc)).2.2.1
    rw [base58Decode_eq h, Except.map, base58Encode_eq, hread, convert_convert (by decide), htext,
      String.ofList_toList]
    exact List.forall_mem_map.mpr fun c hc => (charDigit_spec c (h c hc)).2.1
  · by_contra hnone
    rw [base58Decode_eq (by simpa [Base58] using hnone)] at herror
    cases herror
  · obtain ⟨error, herror⟩ := decodeChars_error hc hout []
    exact ⟨error, by rw [base58Decode, herror]; rfl⟩

/-- For instance, behind two zero bytes. -/
theorem base58_bijective_zeros :
    base58Decode (base58Encode [0, 0, 7]) = .ok [0, 0, 7] ∧
      (base58Decode "118").map base58Encode = .ok "118" ∧
        ∃ error, base58Decode "110" = .error error :=
  ⟨(base58_bijective [0, 0, 7] "118").1,
    (base58_bijective [0, 0, 7] "118").2.1 (List.all_iff_forall_prop.mp (by decide)),
    (base58_bijective [0, 0, 7] "110").2.2.mpr ⟨'0', by decide, by decide⟩⟩

end CalledIt.Solana
