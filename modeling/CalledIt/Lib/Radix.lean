import Mathlib.Data.Nat.Digits.Lemmas

/-!
# CalledIt.Lib.Radix

Digits in another radix.

A list of digits, most significant first, is a number behind some zeros.  `convert` writes the
number in the other radix and keeps the zeros, so it can be undone (`convert_convert`).
-/

namespace Lib.Radix

variable {b b' d n : Nat} {ds : List Nat}

/-- The zeros in front. -/
def zeros (ds : List Nat) : Nat := (ds.takeWhile (· = 0)).length

def valueOf (b : Nat) (ds : List Nat) : Nat := Nat.ofDigits b ds.reverse

def convert (b b' : Nat) (ds : List Nat) : List Nat :=
  List.replicate (zeros ds) 0 ++ (Nat.digits b' (valueOf b ds)).reverse

theorem foldl_eq_valueOf : ds.foldl (fun n d => d + b * n) 0 = valueOf b ds := by
  rw [valueOf, Nat.ofDigits_eq_foldr, List.foldr_reverse]
  rfl

theorem valueOf_zeros (n : Nat) : valueOf b (List.replicate n 0 ++ ds) = valueOf b ds := by
  rw [valueOf, List.reverse_append, List.reverse_replicate, Nat.ofDigits_append_replicate_zero,
    valueOf]

theorem zeros_zeros (n : Nat) : zeros (List.replicate n 0 ++ ds) = n + zeros ds := by
  rw [zeros, List.takeWhile_append_of_pos (by simp), List.length_append, List.length_replicate,
    zeros]

/-- A number is written without a zero in front. -/
theorem zeros_digits : zeros (Nat.digits b n).reverse = 0 := by
  by_cases hn : n = 0
  · simp [hn, zeros]
  · have hne : Nat.digits b n ≠ [] := Nat.digits_ne_nil_iff_ne_zero.mpr hn
    rw [← List.dropLast_append_getLast hne]
    simp [zeros, Nat.getLast_digit_ne_zero b hn]

theorem mem_convert (hb' : 1 < b') (h : d ∈ convert b b' ds) : d < b' := by
  rcases List.mem_append.mp h with h | h
  · rw [(List.mem_replicate.mp h).2]
    omega
  · exact Nat.digits_lt_base hb' (List.mem_reverse.mp h)

theorem convert_self (hb : 1 < b) (h : ∀ d ∈ ds, d < b) : convert b b ds = ds := by
  induction ds with
  | nil => simp [convert, zeros, valueOf]
  | cons d ds ih =>
      by_cases hd : d = 0
      · subst hd
        have hzeros : zeros (0 :: ds) = zeros ds + 1 := by simp [zeros]
        have hvalue : valueOf b (0 :: ds) = valueOf b ds := valueOf_zeros 1
        rw [convert, hzeros, hvalue, List.replicate_succ, List.cons_append, ← convert,
          ih fun d hd => h d (List.mem_cons_of_mem _ hd)]
      · have hzeros : zeros (d :: ds) = 0 := by simp [zeros, hd]
        rw [convert, hzeros, valueOf, Nat.digits_ofDigits b hb _
          (fun d hd => h d (List.mem_reverse.mp hd)) (by simp [hd])]
        simp

theorem convert_convert (hb : 1 < b) (h : ∀ d ∈ ds, d < b) :
    convert b' b (convert b b' ds) = ds := by
  have hvalue : valueOf b' (convert b b' ds) = valueOf b ds := by
    rw [convert, valueOf_zeros, valueOf, List.reverse_reverse, Nat.ofDigits_digits]
  have hzeros : zeros (convert b b' ds) = zeros ds := by
    rw [convert, zeros_zeros, zeros_digits, Nat.add_zero]
  rw [convert, hvalue, hzeros, ← convert, convert_self hb h]

end Lib.Radix
