import Mathlib.Data.Int.Log
import Mathlib.Data.Nat.Digits.Lemmas
import Mathlib.Data.Nat.Prime.Basic
import Mathlib.Data.Rat.Floor
import Mathlib.Tactic.Linarith
import Mathlib.Tactic.NormNum
import Mathlib.Tactic.Ring

/-!
# CalledIt.Lib.Double

Binary64 numbers and their shortest decimal text.

A finite double is the rational it denotes.  `toDouble` is the conversion of a
rational to the nearest double, ties to the even significand; it is `none` where
the result overflows to an infinity.

`shortest` finds, for a positive double, the decimal `s * 10 ^ e` with the fewest
digits that reads back as the same double, nearest to it among those.  `numeral`
lays that decimal out the way a script engine prints a number: plain digits, a
decimal point, leading zeros, or an exponent.  The two facts the text rests on
are `shortest_reads` and `numeral_magnitude`.
-/

namespace Lib

/-! ## rounding -/

/-- The nearest integer, ties to even. -/
def roundHalfEven (q : ℚ) : ℤ :=
  if q - ⌊q⌋ < 1 / 2 then ⌊q⌋
  else if 1 / 2 < q - ⌊q⌋ then ⌊q⌋ + 1
  else if ⌊q⌋ % 2 = 0 then ⌊q⌋
  else ⌊q⌋ + 1

@[simp] theorem roundHalfEven_intCast (z : ℤ) : roundHalfEven z = z := by
  unfold roundHalfEven
  rw [Int.floor_intCast, sub_self, if_pos (by norm_num)]

/-- The exponent of the last significand bit: 53 bits, but none below the
smallest subnormal. -/
def lastBit (q : ℚ) : ℤ := max (Int.log 2 |q| - 52) (-1074)

/-- The double nearest to a rational, unless it overflows. -/
def toDouble (q : ℚ) : Option ℚ :=
  let d : ℚ := roundHalfEven (q / 2 ^ lastBit q) * 2 ^ lastBit q
  if |d| < 2 ^ 1024 then some d else none

/-- The rational is a finite double. -/
def IsDouble (q : ℚ) : Prop := toDouble q = some q

theorem isDouble_of_multiple {q : ℚ} {z : ℤ} (hz : q = z * 2 ^ lastBit q) (hq : |q| < 2 ^ 1024) :
    IsDouble q := by
  have hpow : (2 : ℚ) ^ lastBit q ≠ 0 := zpow_ne_zero _ two_ne_zero
  have hdiv : q / 2 ^ lastBit q = z := by rw [div_eq_iff hpow]; exact hz
  have hd : (roundHalfEven (q / 2 ^ lastBit q) : ℚ) * 2 ^ lastBit q = q := by
    rw [hdiv, roundHalfEven_intCast]
    exact hz.symm
  simp only [IsDouble, toDouble, hd]
  rw [if_pos hq]

variable {n : ℕ}

/-- The integers below `2 ^ 53` are doubles. -/
theorem isDouble_natCast (h : n < 2 ^ 53) : IsDouble (n : ℚ) := by
  have hlog : lastBit n ≤ 0 := by
    unfold lastBit
    have hn : Nat.log 2 n < 53 := Nat.log_lt_of_lt_pow' (by norm_num) h
    rw [Nat.abs_cast, Int.log_natCast]
    omega
  obtain ⟨j, hj⟩ := Int.eq_ofNat_of_zero_le (neg_nonneg.mpr hlog)
  have hbit : lastBit (n : ℚ) = -(j : ℤ) := by omega
  refine isDouble_of_multiple (z := (n : ℤ) * 2 ^ j) ?_ ?_
  · rw [hbit, zpow_neg, zpow_natCast]
    push_cast
    rw [mul_assoc, mul_inv_cancel₀ (by positivity), mul_one]
  · rw [Nat.abs_cast]
    have hlt : (n : ℚ) < 2 ^ 53 := by exact_mod_cast h
    exact hlt.trans (pow_lt_pow_right₀ one_lt_two (by omega))

theorem isDouble_zero : IsDouble 0 := by
  have h := isDouble_natCast (n := 0) (Nat.two_pow_pos 53)
  rwa [Nat.cast_zero] at h

/-! ## the shortest decimal -/

/-- The decimal `s * 10 ^ e` reads back as the double `x`. -/
def Reads (x : ℚ) (s : ℕ) (e : ℤ) : Prop := toDouble (s * 10 ^ e) = some x

instance (x : ℚ) (s : ℕ) (e : ℤ) : Decidable (Reads x s e) :=
  inferInstanceAs (Decidable (toDouble (s * 10 ^ e) = some x))

/-- The multiple of `10 ^ e` nearest to `x` among the two around it that read
back as `x`, ties to even. -/
def nearest (x : ℚ) (e : ℤ) : Option ℕ :=
  let u := x / 10 ^ e
  let lo := ⌊u⌋₊
  let hi := ⌈u⌉₊
  if Reads x lo e ∧ (Reads x hi e → u - lo < hi - u ∨ u - lo = hi - u ∧ lo % 2 = 0) then some lo
  else if Reads x hi e then some hi
  else none

variable {x : ℚ} {s : ℕ}

theorem reads_of_nearest {e : ℤ} (h : nearest x e = some s) : Reads x s e := by
  unfold nearest at h
  simp only at h
  split at h
  · rename_i hlo
    cases h
    exact hlo.1
  split at h
  · rename_i _ hhi
    cases h
    exact hhi
  · exact absurd h (by simp)

theorem nearest_isSome {e : ℤ} (hx : x = s * 10 ^ e) (hd : IsDouble x) :
    (nearest x e).isSome := by
  have hpow : (10 : ℚ) ^ e ≠ 0 := zpow_ne_zero _ (by norm_num)
  have hu : x / 10 ^ e = s := by rw [hx, mul_div_cancel_right₀ _ hpow]
  have hread : Reads x s e := by rw [Reads, ← hx]; exact hd
  unfold nearest
  simp only [hu, Nat.floor_natCast, Nat.ceil_natCast, hread]
  split <;> simp

/-- A decimal whose digits all rolled over, `10 ^ (k + 1)`, is written with one
digit less. -/
def rollOver (k s : ℕ) (e : ℤ) : ℕ × ℤ := if s = 10 ^ (k + 1) then (10 ^ k, e + 1) else (s, e)

theorem rollOver_value (k s : ℕ) (e : ℤ) :
    ((rollOver k s e).1 : ℚ) * 10 ^ (rollOver k s e).2 = s * 10 ^ e := by
  unfold rollOver
  split
  · rename_i hs
    rw [hs, zpow_add_one₀ (by norm_num)]
    push_cast
    ring
  · rfl

/-- The decimal with the fewest digits that reads back as `x`. -/
def shortest (x : ℚ) : Option (ℕ × ℤ) :=
  (List.range ((Int.log 10 x).toNat + Nat.log 2 x.den + 1)).findSome? fun k : ℕ =>
    (nearest x (Int.log 10 x - k)).map fun s => rollOver k s (Int.log 10 x - k)

theorem shortest_reads {p : ℕ × ℤ} (h : shortest x = some p) : Reads x p.1 p.2 := by
  obtain ⟨k, -, hk⟩ := List.exists_of_findSome?_eq_some h
  obtain ⟨s, hs, rfl⟩ := Option.map_eq_some_iff.mp hk
  have hread := reads_of_nearest hs
  rw [Reads] at hread ⊢
  rw [rollOver_value]
  exact hread

/-- A double's denominator is a power of two. -/
theorem IsDouble.den_eq (hd : IsDouble x) : ∃ i, x.den = 2 ^ i := by
  obtain ⟨z, b, rfl⟩ : ∃ (z b : ℤ), x = z * 2 ^ b := by
    simp only [IsDouble, toDouble] at hd
    split at hd
    · exact ⟨_, _, (Option.some.inj hd).symm⟩
    · exact absurd hd (by simp)
  obtain hb | hb := le_total 0 b
  · obtain ⟨m, rfl⟩ := Int.eq_ofNat_of_zero_le hb
    refine ⟨0, ?_⟩
    have hint : (z : ℚ) * 2 ^ (m : ℤ) = ((z * 2 ^ m : ℤ) : ℚ) := by push_cast; rfl
    rw [hint, Rat.den_intCast, pow_zero]
  · obtain ⟨m, hm⟩ := Int.eq_ofNat_of_zero_le (neg_nonneg.mpr hb)
    have hfrac : (z : ℚ) * 2 ^ b = (z : ℚ) / ((2 ^ m : ℤ) : ℚ) := by
      rw [show b = -(m : ℤ) by omega, zpow_neg, div_eq_mul_inv]
      push_cast
      rfl
    have hdvd := Rat.den_dvd z (2 ^ m)
    rw [Rat.divInt_eq_div, ← hfrac] at hdvd
    obtain ⟨i, -, hi⟩ := (Nat.dvd_prime_pow Nat.prime_two).mp (by exact_mod_cast hdvd)
    exact ⟨i, hi⟩

/-- Every positive double has a shortest decimal: all of its digits, if nothing
shorter does. -/
theorem exists_shortest (hx : 0 < x) (hd : IsDouble x) : ∃ p, shortest x = some p := by
  obtain ⟨i, hi⟩ := hd.den_eq
  obtain ⟨n, hn⟩ := Int.eq_ofNat_of_zero_le (Rat.num_pos.mpr hx).le
  -- with `i` places after the point the decimal is exact
  have hexact : x = ((n * 5 ^ i : ℕ) : ℚ) * 10 ^ (-(i : ℤ)) := by
    rw [← Rat.num_div_den x, hn, hi, zpow_neg, zpow_natCast,
      show (10 : ℚ) = 2 * 5 by norm_num, mul_pow]
    push_cast
    field_simp
  have hlog : -(i : ℤ) ≤ Int.log 10 x := by
    rw [← Int.zpow_le_iff_le_log (by norm_num) hx, hexact]
    have hpos : 0 < n * 5 ^ i := by
      have hnum := Rat.num_pos.mpr hx
      have : 0 < n := by omega
      positivity
    have hone : (1 : ℚ) ≤ ((n * 5 ^ i : ℕ) : ℚ) := by exact_mod_cast hpos
    exact le_mul_of_one_le_left (zpow_nonneg (by norm_num) _) hone
  obtain ⟨k, hk⟩ := Int.eq_ofNat_of_zero_le (show 0 ≤ Int.log 10 x + i by omega)
  rw [← Option.isSome_iff_exists]
  unfold shortest
  rw [List.findSome?_isSome_iff]
  refine ⟨k, ?_, ?_⟩
  · rw [List.mem_range, hi, Nat.log_pow one_lt_two]
    omega
  · rw [Option.isSome_map, show Int.log 10 x - k = -(i : ℤ) by omega]
    exact nearest_isSome hexact hd

/-! ## decimal digits -/

/-- The digits of a number, the most significant first. -/
def digits (n : ℕ) : List ℕ := (Nat.digits 10 n).reverse

/-- The number a row of digits denotes. -/
def ofDigits (ds : List ℕ) : ℕ := Nat.ofDigits 10 ds.reverse

@[simp] theorem ofDigits_digits (n : ℕ) : ofDigits (digits n) = n := by
  rw [ofDigits, digits, List.reverse_reverse, Nat.ofDigits_digits]

theorem ofDigits_append (ds es : List ℕ) :
    ofDigits (ds ++ es) = ofDigits es + 10 ^ es.length * ofDigits ds := by
  rw [ofDigits, List.reverse_append, Nat.ofDigits_append, List.length_reverse]
  rfl

@[simp] theorem ofDigits_replicate_zero (n : ℕ) : ofDigits (List.replicate n 0) = 0 := by
  rw [ofDigits, List.reverse_replicate, Nat.ofDigits_replicate_zero]

theorem digits_lt {d : ℕ} (h : d ∈ digits n) : d < 10 :=
  Nat.digits_lt_base (by norm_num) (List.mem_reverse.mp h)

theorem digits_ne_nil (h : n ≠ 0) : digits n ≠ [] := by
  rw [digits, Ne, List.reverse_eq_nil_iff]
  exact Nat.digits_ne_nil_iff_ne_zero.mpr h

theorem digits_head_ne_zero (h : n ≠ 0) (d : ℕ) (ds : List ℕ) (hds : digits n = d :: ds) :
    d ≠ 0 := by
  have hlast : Nat.digits 10 n = ds.reverse ++ [d] := by
    rw [← List.reverse_cons, ← hds, digits, List.reverse_reverse]
  have hne := Nat.getLast_digit_ne_zero 10 h
  simp only [hlast] at hne
  rwa [List.getLast_append_singleton] at hne

/-! ## numerals -/

/-- A decimal numeral: a sign, the digits before and after the point, and an
exponent of ten. -/
structure Numeral where
  negative : Bool
  whole : List ℕ
  fraction : List ℕ
  exponent : Option ℤ
  deriving DecidableEq, Repr

namespace Numeral

/-- The number a numeral denotes, without its sign. -/
def magnitude (t : Numeral) : ℚ :=
  ofDigits (t.whole ++ t.fraction) * 10 ^ (t.exponent.getD 0 - t.fraction.length)

/-- A numeral has digits before the point, and no needless leading zero. -/
structure Valid (t : Numeral) : Prop where
  whole_ne_nil : t.whole ≠ []
  leading : ∀ d ds, t.whole = d :: ds → d = 0 → ds = []
  whole_lt : ∀ d ∈ t.whole, d < 10
  fraction_lt : ∀ d ∈ t.fraction, d < 10

end Numeral

/-- The layout of the decimal `s * 10 ^ e` as a number's text, by the place `n` of
its point. -/
def numeral (s : ℕ) (e : ℤ) : Numeral :=
  let ds := digits s
  let n := ds.length + e
  if ds.length ≤ n ∧ n ≤ 21 then ⟨false, ds ++ List.replicate (n - ds.length).toNat 0, [], none⟩
  else if 0 < n ∧ n ≤ 21 then ⟨false, ds.take n.toNat, ds.drop n.toNat, none⟩
  else if -6 < n ∧ n ≤ 0 then ⟨false, [0], List.replicate (-n).toNat 0 ++ ds, none⟩
  else ⟨false, ds.take 1, ds.drop 1, some (n - 1)⟩

theorem numeral_magnitude (hs : s ≠ 0) (e : ℤ) : (numeral s e).magnitude = s * 10 ^ e := by
  have hlen : 0 < (digits s).length := List.length_pos_iff.mpr (digits_ne_nil hs)
  unfold numeral
  simp only
  split
  · -- every digit stands before the point, and zeros fill the places after them
    rename_i hn
    obtain ⟨m, hm⟩ := Int.eq_ofNat_of_zero_le (show 0 ≤ e by omega)
    simp only [Numeral.magnitude, List.append_nil, ofDigits_append, List.length_replicate,
      ofDigits_replicate_zero, ofDigits_digits, hm, Option.getD_none, List.length_nil]
    push_cast
    simp [mul_comm]
  split
  · rename_i _ hn
    have hdrop : ((digits s).drop (((digits s).length : ℤ) + e).toNat).length = (-e).toNat := by
      rw [List.length_drop]; omega
    have hexp : (0 : ℤ) - ((-e).toNat : ℤ) = e := by omega
    simp only [Numeral.magnitude, List.take_append_drop, ofDigits_digits, hdrop, Option.getD_none,
      hexp]
  split
  · rename_i _ _ hn
    have hexp : (0 : ℤ) - (((-((digits s).length + e)).toNat + (digits s).length : ℕ) : ℤ) = e := by
      omega
    have hzero : ofDigits [0] = 0 := rfl
    simp only [Numeral.magnitude, ofDigits_append, ofDigits_digits, ofDigits_replicate_zero, hzero,
      List.length_append, List.length_replicate, Option.getD_none, hexp]
    simp
  · have hexp : ((digits s).length + e - 1) - (((digits s).length - 1 : ℕ) : ℤ) = e := by omega
    simp only [Numeral.magnitude, List.take_append_drop, ofDigits_digits, List.length_drop,
      Option.getD_some, hexp]

theorem numeral_valid (hs : s ≠ 0) (e : ℤ) : (numeral s e).Valid := by
  obtain ⟨d, ds, hds⟩ := List.exists_cons_of_ne_nil (digits_ne_nil hs)
  have hd : d ≠ 0 := digits_head_ne_zero hs d ds hds
  have hlt : ∀ c ∈ digits s, c < 10 := fun c hc => digits_lt hc
  -- the first digit is not zero, so a whole part that starts with it is well formed
  have hlead : ∀ {xs : List ℕ} c cs, d :: xs = c :: cs → c = 0 → cs = [] := by
    intro xs c cs h hc
    rw [List.cons.injEq] at h
    exact absurd (h.1.trans hc) hd
  have hzeros : ∀ {k c : ℕ}, c ∈ List.replicate k 0 → c < 10 := by
    intro k c hc
    rw [List.eq_of_mem_replicate hc]
    omega
  unfold numeral
  simp only
  split
  · refine ⟨by simp [hds], ?_, ?_, by simp⟩
    · simp only [hds, List.cons_append]
      exact hlead
    · intro c hc
      rcases List.mem_append.mp hc with hc | hc
      · exact hlt c hc
      · exact hzeros hc
  split
  · rename_i _ hn
    obtain ⟨m, hm⟩ : ∃ m, (((digits s).length : ℤ) + e).toNat = m + 1 :=
      ⟨(((digits s).length : ℤ) + e).toNat - 1, by omega⟩
    have htake : (digits s).take (((digits s).length : ℤ) + e).toNat = d :: ds.take m := by
      rw [hm, hds, List.take_succ_cons]
    refine ⟨by rw [htake]; simp, ?_, fun c hc => hlt c (List.mem_of_mem_take hc),
      fun c hc => hlt c (List.mem_of_mem_drop hc)⟩
    simp only [htake]
    exact hlead
  split
  · refine ⟨by simp, by simp, by simp, ?_⟩
    intro c hc
    rcases List.mem_append.mp hc with hc | hc
    · exact hzeros hc
    · exact hlt c hc
  · refine ⟨by simp [hds], ?_, fun c hc => hlt c (List.mem_of_mem_take hc),
      fun c hc => hlt c (List.mem_of_mem_drop hc)⟩
    simp only [hds, List.take_succ_cons]
    exact hlead

end Lib
