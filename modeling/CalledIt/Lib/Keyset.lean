import Mathlib.Data.List.Nodup
import Mathlib.Order.Lattice

/-!
# CalledIt.Lib.Keyset

Sweeps of a set of keys in their order, page by page, while the set changes.

A page has the keys behind a cursor, up to the next cursor or to the end (`KeyPage`).  `Swept`
is what a sweep has at its cursor: keys in order, and every key up to the cursor that is in the
set throughout.  A page keeps it, and a page without a next cursor completes it (`Swept.page`).
-/

namespace Lib

variable {α : Type} [LinearOrder α] {keys found : List α} {cursor next : Option α} {x : α} {n : ℕ}
  {listed member : α → Prop}

def Behind (cursor : Option α) (x : α) : Prop := ∀ c ∈ cursor, c < x

/-- A page behind a cursor. -/
structure KeyPage (listed : α → Prop) (cursor : Option α) (found : List α) (next : Option α) :
    Prop where
  sorted : found.Pairwise (· < ·)
  behind : ∀ x ∈ found, listed x ∧ Behind cursor x
  last : ∀ m ∈ next, found.getLast? = some m
  all : ∀ x, listed x → Behind cursor x → (∀ m ∈ next, x ≤ m) → x ∈ found

/-- A page is cut off the sorted keys, and its last key is the next cursor if there are more. -/
theorem keyPage_take (hn : 1 ≤ n) (hkeys : keys.Pairwise (· < ·))
    (hmem : ∀ x, x ∈ keys ↔ listed x ∧ Behind cursor x) :
    KeyPage listed cursor (keys.take n)
      (if n < keys.length then (keys.take n).getLast? else none) where
  sorted := hkeys.sublist (List.take_sublist n keys)
  behind x hx := (hmem x).mp (List.mem_of_mem_take hx)
  last m hm := by
    split at hm
    · exact hm
    · cases hm
  all x hlisted hbehind hle := by
    have hx := (hmem x).mpr ⟨hlisted, hbehind⟩
    by_cases hmore : n < keys.length
    · rw [if_pos hmore] at hle
      obtain ⟨m, hm⟩ : ∃ m, (keys.take n).getLast? = some m :=
        Option.isSome_iff_exists.mp
        (List.getLast?_isSome.mpr (List.ne_nil_of_length_pos (by rw [List.length_take]; omega)))
      rw [← List.take_append_drop n keys] at hkeys hx
      rcases List.mem_append.mp hx with hx | hx
      · exact hx
      · exact absurd ((List.pairwise_append.mp hkeys).2.2 m (List.mem_of_getLast? hm) x hx)
          (not_lt.mpr (hle m hm))
    · rwa [List.take_of_length_le (not_lt.mp hmore)]

/-- What a sweep has seen of the keys that are in the set throughout. -/
structure Swept (member : α → Prop) (cursor : Option α) (keys : List α) : Prop where
  sorted : keys.Pairwise (· < ·)
  reached : ∀ x ∈ keys, ∃ c ∈ cursor, x ≤ c
  all : ∀ x, member x → ¬ Behind cursor x → x ∈ keys

theorem Swept.start : Swept member none ([] : List α) :=
  ⟨.nil, by simp, fun x _ h => absurd (by simp [Behind]) h⟩

theorem Swept.append (h : Swept member cursor keys) (hpage : KeyPage listed cursor found next) :
    (keys ++ found).Pairwise (· < ·) := by
  refine List.pairwise_append.mpr ⟨h.sorted, hpage.sorted, fun x hx y hy => ?_⟩
  obtain ⟨c, hc, hle⟩ := h.reached x hx
  exact hle.trans_lt ((hpage.behind y hy).2 c hc)

theorem Swept.page (h : Swept member cursor keys) (hpage : KeyPage listed cursor found next)
    (hlisted : ∀ x, member x → listed x) (hnext : next.isSome) :
    Swept member next (keys ++ found) := by
  obtain ⟨m, rfl⟩ := Option.isSome_iff_exists.mp hnext
  have hlast := hpage.last m rfl
  have hmem := List.mem_of_getLast? hlast
  refine ⟨h.append hpage, fun x hx => ⟨m, rfl, ?_⟩, fun x hmember hx => ?_⟩
  · obtain ⟨front, hfront⟩ := List.getLast?_eq_some_iff.mp hlast
    have hsorted := h.append hpage
    rw [hfront, ← List.append_assoc] at hsorted hx
    rcases List.mem_append.mp hx with hx | hx
    · exact ((List.pairwise_append.mp hsorted).2.2 x hx m List.mem_cons_self).le
    · exact (List.mem_singleton.mp hx).le
  · by_cases hb : Behind cursor x
    · exact List.mem_append_right _ (hpage.all x (hlisted x hmember) hb (by
        simpa [Behind] using hx))
    · exact List.mem_append_left _ (h.all x hmember hb)

/-- Behind the last page every key has been seen, and none twice. -/
theorem Swept.last (h : Swept member cursor keys) (hpage : KeyPage listed cursor found none)
    (hlisted : ∀ x, member x → listed x) (hx : member x) : (keys ++ found).count x = 1 := by
  apply List.count_eq_one_of_mem ((h.append hpage).imp ne_of_lt)
  by_cases hb : Behind cursor x
  · exact List.mem_append_right _ (hpage.all x (hlisted x hx) hb nofun)
  · exact List.mem_append_left _ (h.all x hx hb)

end Lib
