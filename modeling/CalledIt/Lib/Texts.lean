import Mathlib.Data.List.Basic
import Mathlib.Tactic.Common

/-!
# CalledIt.Lib.Texts

Texts that are read back.

A text made of parts with a separator between them is split at the separator again, where
one side is known to be without it (`split_first_inj`, `split_last_inj`).  The decimals of
an integer stand for it (`toString_int_inj`), and the base64 of bytes is read back
(`fromBase64_base64`).
-/

namespace Lib

/-! ## separators -/

variable {α : Type}

/-- A list splits at the first place of an entry in one way. -/
theorem split_first_inj {a a' d d' : List α} {c : α} (h : a ++ c :: d = a' ++ c :: d')
    (ha : c ∉ a) (ha' : c ∉ a') : a = a' ∧ d = d' := by
  induction a generalizing a' with
  | nil =>
      cases a' with
      | nil => simpa using h
      | cons b a' =>
          obtain ⟨rfl, -⟩ := List.cons.inj h
          exact absurd List.mem_cons_self ha'
  | cons b a ih =>
      cases a' with
      | nil =>
          obtain ⟨rfl, -⟩ := List.cons.inj h
          exact absurd List.mem_cons_self ha
      | cons b' a' =>
          obtain ⟨rfl, hrest⟩ := List.cons.inj h
          simp only [List.mem_cons, not_or] at ha ha'
          obtain ⟨rfl, rfl⟩ := ih hrest ha.2 ha'.2
          exact ⟨rfl, rfl⟩

/-- A list splits at the last place of an entry in one way. -/
theorem split_last_inj {a a' d d' : List α} {c : α} (h : a ++ c :: d = a' ++ c :: d')
    (hd : c ∉ d) (hd' : c ∉ d') : a = a' ∧ d = d' := by
  have hreverse : d.reverse ++ c :: a.reverse = d'.reverse ++ c :: a'.reverse := by
    simpa using congrArg List.reverse h
  obtain ⟨hright, hleft⟩ := split_first_inj hreverse (by simpa using hd) (by simpa using hd')
  exact ⟨List.reverse_injective hleft, List.reverse_injective hright⟩

/-! ## decimals -/

variable {n : Nat} {c : Char}

theorem mem_toDigits_isDigit (h : c ∈ Nat.toDigits 10 n) : c.isDigit :=
  Nat.isDigit_of_mem_toDigits (by decide) (by decide) h

theorem toDigits_inj {m : Nat} (h : Nat.toDigits 10 m = Nat.toDigits 10 n) : m = n := by
  have hvalue := congrArg (fun digits => Nat.ofDigitChars 10 digits 0) h
  simpa only [Nat.ofDigitChars_toDigits (b := 10) (by decide) (by decide)] using hvalue

theorem toList_toString_int (n : Int) : (toString n).toList =
    if n < 0 then '-' :: Nat.toDigits 10 n.natAbs else Nat.toDigits 10 n.natAbs := by
  cases n with
  | ofNat m => simp [toString, Int.repr]
  | negSucc m => simp [toString, Int.repr]

/-- A decimal is made of digits, behind a sign. -/
theorem mem_toString_int {n : Int} (h : c ∈ (toString n).toList) :
    c = '-' ∨ c.isDigit := by
  rw [toList_toString_int] at h
  split at h
  · exact (List.mem_cons.mp h).imp_right mem_toDigits_isDigit
  · exact .inr (mem_toDigits_isDigit h)

theorem toString_int_inj {m n : Int} (h : toString m = toString n) : m = n := by
  have hsign : ∀ k : Nat, '-' ∉ Nat.toDigits 10 k := fun k hmem =>
    absurd (mem_toDigits_isDigit hmem) (by decide)
  have hlist := congrArg String.toList h
  rw [toList_toString_int, toList_toString_int] at hlist
  split at hlist <;> split at hlist
  · have := toDigits_inj (List.cons.inj hlist).2
    omega
  · exact absurd (hlist ▸ List.mem_cons_self) (hsign _)
  · exact absurd (hlist ▸ List.mem_cons_self) (hsign _)
  · have := toDigits_inj hlist
    omega

/-! ## base64 -/

def base64Alphabet : List Char :=
  "ABCDEFGHIJKLMNOPQRSTUVWXYZabcdefghijklmnopqrstuvwxyz0123456789+/".toList

/-- The character of six bits. -/
def base64Char (bits : Nat) : Char := base64Alphabet.getD bits '='

/-- Three bytes are four characters; what is missing of the last three is filled up. -/
def base64 : List UInt8 → List Char
  | [] => []
  | [a] => [base64Char (a.toNat / 4), base64Char (a.toNat % 4 * 16), '=', '=']
  | [a, b] => [base64Char (a.toNat / 4), base64Char (a.toNat % 4 * 16 + b.toNat / 16),
      base64Char (b.toNat % 16 * 4), '=']
  | a :: b :: c :: rest =>
      base64Char (a.toNat / 4) :: base64Char (a.toNat % 4 * 16 + b.toNat / 16) ::
        base64Char (b.toNat % 16 * 4 + c.toNat / 64) :: base64Char (c.toNat % 64) :: base64 rest

/-- The six bits of a character of either alphabet; other characters have none. -/
def base64Bits (c : Char) : Option Nat :=
  if c = '-' then some 62
  else if c = '_' then some 63
  else base64Alphabet.findIdx? (· = c)

/-- Four characters are three bytes; bits that make no byte are lost. -/
def ofBase64Bits : List Nat → List UInt8
  | a :: b :: c :: d :: rest =>
      UInt8.ofNat (a * 4 + b / 16) :: UInt8.ofNat (b % 16 * 16 + c / 4) ::
        UInt8.ofNat (c % 4 * 64 + d) :: ofBase64Bits rest
  | [a, b, c] => [UInt8.ofNat (a * 4 + b / 16), UInt8.ofNat (b % 16 * 16 + c / 4)]
  | [a, b] => [UInt8.ofNat (a * 4 + b / 16)]
  | _ => []

def fromBase64 (text : List Char) : List UInt8 := ofBase64Bits (text.filterMap base64Bits)

theorem base64Bits_base64Char : ∀ n < 64, base64Bits (base64Char n) = some n := by decide +kernel

theorem base64Bits_pad : base64Bits '=' = none := by decide +kernel

theorem ofNat_eq_of_toNat {b : UInt8} (h : n = b.toNat) : UInt8.ofNat n = b := by
  rw [h, UInt8.ofNat_toNat]

theorem fromBase64_base64 (bytes : List UInt8) : fromBase64 (base64 bytes) = bytes := by
  unfold fromBase64
  induction bytes using base64.induct with
  | case1 => rfl
  | case2 a =>
      have ha := a.toNat_lt
      rw [base64]
      simp only [List.filterMap_cons, List.filterMap_nil, base64Bits_pad,
        base64Bits_base64Char (a.toNat / 4) (by omega),
        base64Bits_base64Char (a.toNat % 4 * 16) (by omega), ofBase64Bits]
      rw [ofNat_eq_of_toNat (b := a) (by omega)]
  | case3 a b =>
      have ha := a.toNat_lt
      have hb := b.toNat_lt
      rw [base64]
      simp only [List.filterMap_cons, List.filterMap_nil, base64Bits_pad,
        base64Bits_base64Char (a.toNat / 4) (by omega),
        base64Bits_base64Char (a.toNat % 4 * 16 + b.toNat / 16) (by omega),
        base64Bits_base64Char (b.toNat % 16 * 4) (by omega), ofBase64Bits]
      rw [ofNat_eq_of_toNat (b := a) (by omega), ofNat_eq_of_toNat (b := b) (by omega)]
  | case4 a b c rest ih =>
      have ha := a.toNat_lt
      have hb := b.toNat_lt
      have hc := c.toNat_lt
      rw [base64]
      simp only [List.filterMap_cons, base64Bits_base64Char (a.toNat / 4) (by omega),
        base64Bits_base64Char (a.toNat % 4 * 16 + b.toNat / 16) (by omega),
        base64Bits_base64Char (b.toNat % 16 * 4 + c.toNat / 64) (by omega),
        base64Bits_base64Char (c.toNat % 64) (by omega), ofBase64Bits, ih]
      rw [ofNat_eq_of_toNat (b := a) (by omega), ofNat_eq_of_toNat (b := b) (by omega),
        ofNat_eq_of_toNat (b := c) (by omega)]

/-- Four characters a group. -/
theorem length_base64 (bytes : List UInt8) : (base64 bytes).length = (bytes.length + 2) / 3 * 4 := by
  induction bytes using base64.induct with
  | case1 | case2 | case3 => simp [base64]
  | case4 a b c rest ih =>
      simp only [base64, List.length_cons, ih]
      omega

theorem base64Char_mem (hn : n < 64) : base64Char n ∈ base64Alphabet := by
  have hall : ∀ n < 64, base64Char n ∈ base64Alphabet := by decide +kernel
  exact hall n hn

theorem mem_base64 {bytes : List UInt8} (h : c ∈ base64 bytes) :
    c ∈ '=' :: base64Alphabet := by
  have hchar : ∀ {n : Nat}, n < 64 → base64Char n ∈ '=' :: base64Alphabet := fun hn =>
    List.mem_cons_of_mem _ (base64Char_mem hn)
  induction bytes using base64.induct with
  | case1 => cases h
  | case2 a =>
      have ha := a.toNat_lt
      simp only [base64, List.mem_cons, List.not_mem_nil, or_false] at h
      rcases h with rfl | rfl | rfl | rfl
      · exact hchar (by omega)
      · exact hchar (by omega)
      · exact List.mem_cons_self
      · exact List.mem_cons_self
  | case3 a b =>
      have ha := a.toNat_lt
      have hb := b.toNat_lt
      simp only [base64, List.mem_cons, List.not_mem_nil, or_false] at h
      rcases h with rfl | rfl | rfl | rfl
      · exact hchar (by omega)
      · exact hchar (by omega)
      · exact hchar (by omega)
      · exact List.mem_cons_self
  | case4 a b c rest ih =>
      have ha := a.toNat_lt
      have hb := b.toNat_lt
      have hc := c.toNat_lt
      simp only [base64, List.mem_cons] at h
      rcases h with rfl | rfl | rfl | rfl | h
      · exact hchar (by omega)
      · exact hchar (by omega)
      · exact hchar (by omega)
      · exact hchar (by omega)
      · exact ih h

/-- The bytes are read back, so no two texts are alike. -/
theorem base64_inj {bytes bytes' : List UInt8} (h : base64 bytes = base64 bytes') :
    bytes = bytes' := by
  rw [← fromBase64_base64 bytes, h, fromBase64_base64]

end Lib
