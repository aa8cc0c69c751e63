import Mathlib.Data.List.AList
import Mathlib.Algebra.Order.BigOperators.Group.List
import Mathlib.Tactic.Linarith

/-!
# CalledIt.Lib.Store

Finite keyed stores and totals over them.

A `Store K V` is an association list whose keys are distinct (`AList`); the
distinctness is part of the type.  `total f s` adds `f` over the entries.  The
laws say what one write does to a total: inserting at a key replaces the old
entry's contribution by the new one's (`total_insert_of_lookup`,
`total_insert_of_none`), erasing removes it (`total_erase`).
-/

namespace Lib

/-- A finite map with distinct keys. -/
abbrev Store (K V : Type) := AList (fun _ : K => V)

namespace Store

section Lookup

variable {K V : Type} [DecidableEq K]

theorem lookup_insert_iff {s : Store K V} {k k' : K} {v : V} {v' : V} :
    (s.insert k v).lookup k' = some v' ↔
      (k' = k ∧ v' = v) ∨ (k' ≠ k ∧ s.lookup k' = some v') := by
  by_cases h : k' = k
  · subst h
    simp [AList.lookup_insert, eq_comm]
  · simp [AList.lookup_insert_ne h, h]

/-- What holds of the new value and of the stored ones holds after an insert. -/
theorem forall_insert {P : V → Prop} {s : Store K V} {k : K} {v : V}
    (h : ∀ {k' v'}, s.lookup k' = some v' → P v') (hv : P v) {k' : K} {v' : V}
    (hlookup : (s.insert k v).lookup k' = some v') : P v' := by
  rcases lookup_insert_iff.mp hlookup with ⟨_, rfl⟩ | ⟨_, hold⟩
  · exact hv
  · exact h hold

theorem lookup_erase_iff {s : Store K V} {k k' : K} {v' : V} :
    (s.erase k).lookup k' = some v' ↔ k' ≠ k ∧ s.lookup k' = some v' := by
  by_cases h : k' = k
  · subst h
    simp [AList.lookup_erase]
  · simp [AList.lookup_erase_ne h, h]

end Lookup

section Total

variable {K V : Type}

/-- The sum of `f` over the entries of a store. -/
def total (f : K → V → Nat) (s : Store K V) : Nat :=
  (s.entries.map fun e => f e.1 e.2).sum

theorem total_add (f g : K → V → Nat) (s : Store K V) :
    total (fun k v => f k v + g k v) s = total f s + total g s := by
  unfold total
  exact List.sum_map_add

/-- Sums over two stores may be taken in either order. -/
theorem total_comm {K' V' : Type} (f : K → V → K' → V' → Nat) (s : Store K V) (s' : Store K' V') :
    total (fun k v => total (f k v) s') s =
      total (fun k' v' => total (fun k v => f k v k' v') s) s' := by
  unfold total
  induction s.entries with
  | nil => simp
  | cons e es ih =>
      simp only [List.map_cons, List.sum_cons]
      rw [ih, List.sum_map_add]

/-- The number of entries. -/
def size (s : Store K V) : Nat := total (fun _ _ => 1) s

variable [DecidableEq K]

theorem sum_kerase (f : K → V → Nat) (es : List (Sigma fun _ : K => V)) {k : K} {v : V}
    (h : es.dlookup k = some v) :
    (es.map fun e => f e.1 e.2).sum = f k v + ((es.kerase k).map fun e => f e.1 e.2).sum := by
  induction es with
  | nil => simp at h
  | cons e es ih =>
      obtain ⟨k', v'⟩ := e
      by_cases hk : k = k'
      · subst hk
        simp_all
      · rw [List.dlookup_cons_ne _ _ hk] at h
        rw [List.kerase_cons_ne hk]
        simp only [List.map_cons, List.sum_cons]
        rw [ih h]
        omega

/-- Erasing a key removes exactly its contribution. -/
theorem total_erase (f : K → V → Nat) {s : Store K V} {k : K} {v : V}
    (h : s.lookup k = some v) : total f s = f k v + total f (s.erase k) :=
  sum_kerase f s.entries h

theorem erase_of_none {s : Store K V} {k : K} (h : s.lookup k = none) : s.erase k = s := by
  apply AList.ext
  exact List.kerase_of_notMem_keys (AList.lookup_eq_none.mp h)

/-- The total after a write, in terms of the store without the key. -/
theorem total_insert (f : K → V → Nat) (s : Store K V) (k : K) (v : V) :
    total f (s.insert k v) = f k v + total f (s.erase k) := by
  rw [total, AList.entries_insert, List.map_cons, List.sum_cons]
  rfl

/-- Writing a fresh key adds its contribution. -/
theorem total_insert_of_none (f : K → V → Nat) {s : Store K V} {k : K} (v : V)
    (h : s.lookup k = none) : total f (s.insert k v) = f k v + total f s := by
  rw [total_insert, erase_of_none h]

/-- Overwriting a key trades the old contribution for the new one. -/
theorem total_insert_of_lookup (f : K → V → Nat) {s : Store K V} {k : K} {u : V} (v : V)
    (h : s.lookup k = some u) : total f (s.insert k v) + f k u = total f s + f k v := by
  rw [total_insert, total_erase f h]
  omega

/-- One entry contributes at most the total. -/
theorem le_total (f : K → V → Nat) {s : Store K V} {k : K} {v : V}
    (h : s.lookup k = some v) : f k v ≤ total f s := by
  rw [total_erase f h]
  omega

theorem lookup_of_mem {s : Store K V} {k : K} {v : V} (h : ⟨k, v⟩ ∈ s.entries) :
    s.lookup k = some v :=
  AList.mem_lookup_iff.mpr h

/-- Totals are compared entry by entry. -/
theorem total_congr {f g : K → V → Nat} {s : Store K V}
    (h : ∀ k v, s.lookup k = some v → f k v = g k v) : total f s = total g s := by
  unfold total
  congr 1
  exact List.map_congr_left fun e he => h e.1 e.2 (lookup_of_mem he)

theorem total_mono {f g : K → V → Nat} {s : Store K V}
    (h : ∀ k v, s.lookup k = some v → f k v ≤ g k v) : total f s ≤ total g s := by
  unfold total
  exact List.sum_le_sum fun e he => h e.1 e.2 (lookup_of_mem he)

/-- A total vanishes when every entry's contribution does. -/
theorem total_eq_zero {f : K → V → Nat} {s : Store K V}
    (h : ∀ k v, s.lookup k = some v → f k v = 0) : total f s = 0 := by
  rw [total_congr h]
  simp [total]

/-- A total that looks at one key only is that key's contribution. -/
theorem total_single (g : V → Nat) {s : Store K V} {k : K} {v : V} (h : s.lookup k = some v) :
    total (fun k' v' => if k' = k then g v' else 0) s = g v := by
  rw [total_erase _ h, if_pos rfl, total_eq_zero, Nat.add_zero]
  intro k' v' hk'
  exact if_neg (lookup_erase_iff.mp hk').1

/-- When a marker counts as many entries as there are, it marks every entry. -/
theorem marked_of_total_eq_size {p : V → Prop} [DecidablePred p] {s : Store K V}
    (h : total (fun _ v => if p v then 1 else 0) s = s.size) {k : K} {v : V}
    (hk : s.lookup k = some v) : p v := by
  by_contra hp
  have hsum := total_erase (fun _ v => if p v then 1 else 0) hk
  have hsize := total_erase (fun _ _ => 1) hk
  have hle : total (fun _ v => if p v then 1 else 0) (s.erase k) ≤
      total (fun _ _ => 1) (s.erase k) := by
    apply total_mono
    intro _ v' _
    split <;> omega
  unfold size at h
  rw [if_neg hp] at hsum
  omega

/-- A key is absent from an empty-sized store. -/
theorem lookup_of_size_zero {s : Store K V} (h : s.size = 0) (k : K) : s.lookup k = none := by
  cases hk : s.lookup k with
  | none => rfl
  | some v =>
      have hle := le_total (fun _ _ => 1) hk
      unfold size at h
      omega

end Total


end Store

end Lib
