import Mathlib.Algebra.BigOperators.Ring.Finset
import Mathlib.Algebra.Order.BigOperators.Group.List
import Mathlib.Tactic.Linarith
import CalledIt.Lib.Checked

/-!
# CalledIt.Lib.FloorSum

Pro-rata shares under floor division.

`share a m t` is the part of `m` that falls to a holder of `a` units out of
`t`, rounded down.  A share never exceeds the holder's stake when `m ≤ t`
(`share_le_stake`), never exceeds `m` when `a ≤ t` (`share_le_pot`), and all
shares together never exceed `m` (`sum_share_le`): rounding only ever leaves
dust behind, less than one unit for each holder (`lt_sum_share`).  The last section has the two rules for sums that the comparison of
two engines needs: over a selection, and over corresponding lists.
-/

namespace Lib

/-- The floor of `a * m / t`; zero for an empty denominator. -/
def share (a m t : Nat) : Nat := a * m / t

@[simp] theorem share_zero_total (a m : Nat) : share a m 0 = 0 := Nat.div_zero _

@[simp] theorem share_zero_stake (m t : Nat) : share 0 m t = 0 := by simp [share]

variable {m t : Nat}

theorem share_le_stake {a : Nat} (h : m ≤ t) : share a m t ≤ a := by
  apply Nat.div_le_of_le_mul
  calc
    a * m ≤ a * t := Nat.mul_le_mul_left a h
    _ = t * a := Nat.mul_comm a t

theorem share_le_pot {a : Nat} (h : a ≤ t) : share a m t ≤ m := by
  apply Nat.div_le_of_le_mul
  exact Nat.mul_le_mul_right m h

/-- Floors add up to at most the floor of the sum. -/
theorem share_add_le (a b m t : Nat) : share a m t + share b m t ≤ share (a + b) m t := by
  unfold share
  rw [Nat.add_mul]
  exact Nat.div_add_div_le_add_div

theorem sum_share_le_share (as : List Nat) (m t : Nat) :
    (as.map fun a => share a m t).sum ≤ share as.sum m t := by
  induction as with
  | nil => simp
  | cons a as ih =>
      simp only [List.map_cons, List.sum_cons]
      calc
        share a m t + (as.map fun a => share a m t).sum
            ≤ share a m t + share as.sum m t := Nat.add_le_add_left ih _
        _ ≤ share (a + as.sum) m t := share_add_le a as.sum m t

/-- The shares of holders whose stakes stay within `t` never exceed the pot. -/
theorem sum_share_le {as : List Nat} (h : as.sum ≤ t) :
    (as.map fun a => share a m t).sum ≤ m :=
  Nat.le_trans (sum_share_le_share as m t) (share_le_pot h)

/-! ## what rounding leaves -/

/-- Each holder of something loses less than one unit to rounding. -/
theorem sum_mul_add_le (as : List Nat) (m : Nat) (ht : 0 < t) :
    as.sum * m + as.countP (0 < ·) ≤
      t * ((as.map fun a => share a m t).sum + as.countP (0 < ·)) := by
  induction as with
  | nil => simp
  | cons a as ih =>
      have hshare : a * m < t * (share a m t + 1) := Nat.lt_mul_div_succ _ ht
      simp only [List.sum_cons, List.map_cons, List.countP_cons, Nat.mul_add, Nat.add_mul] at *
      by_cases ha : 0 < a
      · simp [ha]
        omega
      · simp [Nat.eq_zero_of_not_pos ha]
        omega

/-- The shares of all holders use the pot up, but for less than one unit for each holder
that has something. -/
theorem lt_sum_share (as : List Nat) (m : Nat) (ht : 0 < as.sum) :
    m < (as.map fun a => share a m as.sum).sum + as.countP (0 < ·) := by
  have hle := sum_mul_add_le as m ht
  have hpos : 0 < as.countP (0 < ·) := by
    obtain ⟨a, ha, hne⟩ : ∃ a ∈ as, a ≠ 0 := by
      by_contra hnone
      push Not at hnone
      exact ht.ne' (List.sum_eq_zero hnone)
    exact List.countP_pos_iff.mpr ⟨a, ha, by simpa using Nat.pos_of_ne_zero hne⟩
  refine Nat.lt_of_mul_lt_mul_left (a := as.sum) ?_
  omega

/-! ## sums over selections -/

/-- A sum over a selection is a sum with zeros for the rest. -/
theorem sum_filter_map (c : α → Prop) [DecidablePred c] (w : α → Nat) (as : List α) :
    ((as.filter fun a => c a).map w).sum = (as.map fun a => if c a then w a else 0).sum := by
  induction as with
  | nil => rfl
  | cons a as ih =>
      by_cases ha : c a
      · simp [ha, ih]
      · simp [ha, ih]

/-- Sums over lists related element by element, the second over the naturals. -/
theorem sum_eq_cast_sum {R : α → β → Prop} {as : List α} {bs : List β}
    (h : List.Forall₂ R as bs) {f : α → Int} {g : β → Nat}
    (hfg : ∀ a b, R a b → f a = g b) : (as.map f).sum = ((bs.map g).sum : Nat) := by
  rw [map_eq_map_of_forall₂ h hfg, Nat.cast_list_sum, List.map_map]
  rfl

end Lib
