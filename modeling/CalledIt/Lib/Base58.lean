import CalledIt.Lib.Strict
import Mathlib.Data.Nat.Digits.Lemmas

/-!
# CalledIt.Lib.Base58

Base58 texts.

The bytes spell a number, most significant first, and the text spells it in the digits of
the alphabet; a zero byte in front is a digit of its own.  So only zero bytes give a text
that is all zeros.
-/

namespace Lib

def base58Alphabet : List Char :=
  "123456789ABCDEFGHJKLMNPQRSTUVWXYZabcdefghijkmnopqrstuvwxyz".toList

def base58Digit (d : Nat) : Char := base58Alphabet.getD d '1'

/-- The zero bytes in front. -/
def leadingZeros (bytes : List UInt8) : Nat := (bytes.takeWhile (· = 0)).length

def base58Chars (bytes : List UInt8) : List Char :=
  List.replicate (leadingZeros bytes) '1' ++
    ((Nat.digits 58 (ofLeBytes bytes.reverse)).reverse.map base58Digit)

def toBase58 (bytes : List UInt8) : String := String.ofList (base58Chars bytes)

theorem base58Digit_eq_one {d : Nat} (hd : d < 58) (h : base58Digit d = '1') : d = 0 := by
  have hall : ∀ d < 58, base58Digit d = '1' → d = 0 := by decide +kernel
  exact hall d hd h

variable {bytes : List UInt8}

theorem ofLeBytes_eq_zero_iff :
    ofLeBytes bytes = 0 ↔ ∀ b ∈ bytes, b = 0 := by
  induction bytes with
  | nil => simp [ofLeBytes]
  | cons b bytes ih =>
      have hb : b.toNat = 0 ↔ b = 0 := by rw [← UInt8.toNat_inj]; rfl
      rw [ofLeBytes, List.forall_mem_cons, ← ih, ← hb]
      omega

/-- A text of zeros alone spells zero bytes alone. -/
theorem zero_of_base58Chars (h : ∀ c ∈ base58Chars bytes, c = '1') :
    ∀ b ∈ bytes, b = 0 := by
  have hzero : ofLeBytes bytes.reverse = 0 := by
    by_contra hne
    have hdigits : Nat.digits 58 (ofLeBytes bytes.reverse) ≠ [] :=
      Nat.digits_ne_nil_iff_ne_zero.mpr hne
    have hlast := List.getLast_mem hdigits
    have hone : base58Digit ((Nat.digits 58 (ofLeBytes bytes.reverse)).getLast hdigits) = '1' :=
      h _ (List.mem_append_right _ (List.mem_map_of_mem (List.mem_reverse.mpr hlast)))
    exact Nat.getLast_digit_ne_zero 58 hne
      (base58Digit_eq_one (Nat.digits_lt_base (by omega) hlast) hone)
  intro b hb
  exact ofLeBytes_eq_zero_iff.mp hzero b (List.mem_reverse.mpr hb)

theorem base58Chars_replicate (n : Nat) :
    base58Chars (List.replicate n 0) = List.replicate n '1' := by
  have hzeros : leadingZeros (List.replicate n 0) = n := by
    simp [leadingZeros]
  have hvalue : ofLeBytes (List.replicate n (0 : UInt8)).reverse = 0 :=
    ofLeBytes_eq_zero_iff.mpr (by simp)
  rw [base58Chars, hzeros, hvalue]
  simp

/-- The text of zeros is the one of zero bytes. -/
theorem toBase58_eq_ones_iff :
    toBase58 bytes = String.ofList (List.replicate bytes.length '1') ↔
      bytes = List.replicate bytes.length 0 := by
  constructor
  · intro h
    rw [List.eq_replicate_iff]
    refine ⟨rfl, zero_of_base58Chars fun c hc => ?_⟩
    rw [toBase58, String.ofList_inj] at h
    rw [h] at hc
    exact (List.mem_replicate.mp hc).2
  · intro h
    conv_lhs => rw [h]
    rw [toBase58, base58Chars_replicate]

end Lib
