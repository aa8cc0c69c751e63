import Mathlib.Algebra.Ring.Int.Defs
import Mathlib.Algebra.Ring.Nat
import Mathlib.Data.List.Forall2
import Mathlib.Data.List.Induction
import Mathlib.Tactic.Common

/-!
# CalledIt.Lib.Checked

Checked machine arithmetic and the error monad it lives in.

Fallible code is written in `Except ε`.  `require` and `okOr` are the two ways
such code fails; the lemmas `bind_ok_iff`, `require_ok_iff` and `okOr_ok_iff`
take a successful computation apart again, one step at a time.

The checked operations return `none` exactly when the mathematical result does
not fit the machine type, and each has one characterisation over `toNat` (or
`toInt`), so that later proofs only see arithmetic over `Nat` and `Int`.
-/

namespace Lib

/-! ## the error monad -/

/-- Fail with `e` unless the condition holds. -/
def require (c : Prop) [Decidable c] (e : ε) : Except ε Unit :=
  if c then .ok () else .error e

/-- Turn a missing result into the failure `e`. -/
def okOr (o : Option α) (e : ε) : Except ε α :=
  match o with
  | some a => .ok a
  | none => .error e

variable {m : Except ε α}

theorem isOk_iff : m.isOk = true ↔ ∃ a, m = .ok a := by
  cases m <;> simp [Except.isOk, Except.toBool]

variable {k : α → Except ε β}

theorem bind_ok_iff {b : β} :
    (m >>= k) = .ok b ↔ ∃ a, m = .ok a ∧ k a = .ok b := by
  cases m with
  | ok a => simp [bind, Except.bind]
  | error e => simp [bind, Except.bind]

variable {e : ε}

theorem bind_error_iff :
    (m >>= k) = .error e ↔ m = .error e ∨ ∃ a, m = .ok a ∧ k a = .error e := by
  cases m with
  | ok a => simp [bind, Except.bind]
  | error e' => simp [bind, Except.bind]

@[simp] theorem ok_bind (a : α) (k : α → Except ε β) : (Except.ok a >>= k) = k a := rfl

@[simp] theorem error_bind (e : ε) (k : α → Except ε β) :
    (Except.error e >>= k) = .error e := rfl

@[simp] theorem pure_ok_iff {a b : α} : (pure a : Except ε α) = .ok b ↔ a = b := by
  simp [pure, Except.pure]

@[simp] theorem pure_ne_error {a : α} : (pure a : Except ε α) ≠ .error e := by
  simp [pure, Except.pure]

@[simp] theorem require_ok_iff {c : Prop} [Decidable c] {u : Unit} :
    require c e = .ok u ↔ c := by
  unfold require
  split <;> simp_all

theorem require_pos {c : Prop} [Decidable c] (h : c) (e : ε) : require c e = .ok () := if_pos h

@[simp] theorem require_error_iff {c : Prop} [Decidable c] {e' : ε} :
    require c e = .error e' ↔ ¬ c ∧ e = e' := by
  unfold require
  split <;> simp_all

variable {o : Option α}

@[simp] theorem okOr_ok_iff {a : α} : okOr o e = .ok a ↔ o = some a := by
  cases o <;> simp [okOr]

@[simp] theorem okOr_error_iff {e' : ε} :
    okOr o e = .error e' ↔ o = none ∧ e = e' := by
  cases o <;> simp [okOr]

theorem map_ok_iff {f : α → β} {b : β} :
    m.map f = .ok b ↔ ∃ a, m = .ok a ∧ f a = b := by
  cases m <;> simp [Except.map]

/-- Rewriting the error of a computation leaves its successes alone. -/
@[simp] theorem mapError_ok_iff {g : ε → ε'} {a : α} :
    m.mapError g = .ok a ↔ m = .ok a := by
  cases m <;> simp [Except.mapError]

variable {R : α → β → Prop} {as : List α} {bs : List β}

/-- Lists related element by element: what follows for related members. -/
theorem forall₂_imp_mem {S : α → β → Prop} (h : List.Forall₂ R as bs)
    (hRS : ∀ a ∈ as, ∀ b ∈ bs, R a b → S a b) :
    List.Forall₂ S as bs := by
  rw [List.forall₂_iff_zip] at h ⊢
  refine ⟨h.1, fun {a b} hab => ?_⟩
  obtain ⟨ha, hb⟩ := List.of_mem_zip hab
  exact hRS a ha b hb (h.2 hab)

theorem map_eq_map_of_forall₂ (h : List.Forall₂ R as bs) {f : α → γ} {g : β → γ}
    (hfg : ∀ a b, R a b → f a = g b) :
    as.map f = bs.map g := by
  rw [← List.forall₂_eq_eq_eq, List.forall₂_map_left_iff, List.forall₂_map_right_iff]
  exact h.imp hfg

theorem exists_of_forall₂ (h : List.Forall₂ R as bs) {a : α} (ha : a ∈ as) : ∃ b ∈ bs, R a b := by
  induction h with
  | nil => simp at ha
  | @cons a' b' as bs hab _ ih =>
      rcases List.mem_cons.mp ha with rfl | ha
      · exact ⟨b', by simp, hab⟩
      · obtain ⟨b, hb, hR⟩ := ih ha
        exact ⟨b, by simp [hb], hR⟩

variable {f : α → Except ε β}

/-- A traversal succeeds exactly when it succeeds on every element, in order. -/
theorem mapM_ok_iff_forall₂ :
    as.mapM f = .ok bs ↔ List.Forall₂ (fun a b => f a = .ok b) as bs := by
  induction as generalizing bs with
  | nil => rw [List.mapM_nil, pure_ok_iff, List.forall₂_nil_left_iff, eq_comm]
  | cons a as ih =>
      rw [List.mapM_cons]
      simp only [bind_ok_iff, ih, pure_ok_iff]
      constructor
      · rintro ⟨b, hb, bs', hbs, rfl⟩
        exact .cons hb hbs
      · intro h
        cases h with
        | cons hb hbs => exact ⟨_, hb, _, hbs, rfl⟩

/-- A traversal by a function with one possible result for each element is a map. -/
theorem eq_map_of_mapM_ok {g : α → β} (hf : ∀ a ∈ as, ∀ b, f a = .ok b → b = g a)
    (h : as.mapM f = .ok bs) : bs = as.map g := by
  induction as generalizing bs with
  | nil => exact (pure_ok_iff.mp h).symm
  | cons a as ih =>
      rw [List.mapM_cons] at h
      simp only [bind_ok_iff, pure_ok_iff] at h
      obtain ⟨b, hb, bs', hbs, rfl⟩ := h
      rw [List.map_cons, hf a List.mem_cons_self b hb,
        ih (fun a' ha' => hf a' (List.mem_cons_of_mem _ ha')) hbs]

theorem exists_mapM_ok (h : ∀ a ∈ as, ∃ b, f a = .ok b) :
    ∃ bs, as.mapM f = .ok bs := by
  induction as with
  | nil => exact ⟨[], rfl⟩
  | cons a as ih =>
      obtain ⟨b, hb⟩ := h a List.mem_cons_self
      obtain ⟨bs, hbs⟩ := ih fun a' ha' => h a' (List.mem_cons_of_mem _ ha')
      refine ⟨b :: bs, ?_⟩
      rw [List.mapM_cons, hb, hbs]
      rfl

variable {n : Nat}

/-- A counted loop that collects its results. -/
theorem mapM_range_ok_iff {f : Nat → Except ε β} :
    (List.range n).mapM f = .ok bs ↔
      bs.length = n ∧ ∀ i b, bs[i]? = some b → f i = .ok b := by
  rw [mapM_ok_iff_forall₂, List.forall₂_iff_get]
  constructor
  · rintro ⟨hlen, h⟩
    refine ⟨by rw [← hlen, List.length_range], fun i b hb => ?_⟩
    obtain ⟨hi, rfl⟩ := List.getElem?_eq_some_iff.mp hb
    have hget := h i (by omega) hi
    rwa [List.get_eq_getElem, List.getElem_range] at hget
  · rintro ⟨hlen, h⟩
    refine ⟨by rw [hlen, List.length_range], fun i h1 h2 => ?_⟩
    rw [List.get_eq_getElem, List.getElem_range]
    exact h i _ (List.getElem?_eq_getElem h2)

/-! ## loops -/

/-- A loop that runs to its end: an invariant `I`, and a measure that each pass
raises by the weight of its element. -/
theorem foldlM_ok_sum [AddMonoid M] {f : β → α → Except ε β} {I : β → Prop} {m : β → M} {w : α → M}
    {s t : β} (hstep : ∀ s a s', a ∈ as → I s → f s a = .ok s' → I s' ∧ m s' = m s + w a) (hs : I s)
    (h : as.foldlM f s = .ok t) : I t ∧ m t = m s + (as.map w).sum := by
  induction as generalizing s with
  | nil =>
      rw [List.foldlM_nil, pure_ok_iff] at h
      subst h
      simp [hs]
  | cons a as ih =>
      rw [List.foldlM_cons, bind_ok_iff] at h
      obtain ⟨s', ha, hrest⟩ := h
      obtain ⟨hs', hm⟩ := hstep s a s' (List.mem_cons_self ..) hs ha
      obtain ⟨ht, hsum⟩ := ih (fun s a s' hmem => hstep s a s' (List.mem_cons_of_mem _ hmem))
        hs' hrest
      refine ⟨ht, ?_⟩
      rw [hsum, hm, List.map_cons, List.sum_cons, add_assoc]

/-- A loop whose every pass can be taken runs through each prefix of its list. -/
theorem exists_foldlM_ok {f : β → α → Except ε β} {P : List α → β → Prop} {s : β}
    (hstep : ∀ pre a post s, as = pre ++ a :: post → P pre s →
      ∃ s', f s a = .ok s' ∧ P (pre ++ [a]) s') (hs : P [] s) {pre post : List α}
    (has : as = pre ++ post) :
    ∃ t, pre.foldlM f s = .ok t ∧ P pre t := by
  -- the prefix grows at its end, so the induction is on its reverse
  induction pre using List.reverseRecOn generalizing post with
  | nil => exact ⟨s, rfl, hs⟩
  | append_singleton pre a ih =>
      rw [List.append_assoc, List.singleton_append] at has
      obtain ⟨t, ht, hP⟩ := ih has
      obtain ⟨t', ht', hP'⟩ := hstep pre a post t has hP
      refine ⟨t', ?_, hP'⟩
      rw [List.foldlM_append, ht, ok_bind, List.foldlM_cons, ht']
      rfl

/-! ## succeeding -/

/-- The computation succeeds, with such a result. -/
def Yields (Q : α → Prop) (m : Except ε α) : Prop := ∃ a, m = .ok a ∧ Q a

theorem Yields.ok {Q : α → Prop} {a : α} (h : Q a) : Yields Q (.ok a : Except ε α) := ⟨a, rfl, h⟩

theorem Yields.bind {P : α → Prop} {Q : β → Prop} (h : Yields P m)
    (hk : ∀ a, P a → Yields Q (k a)) : Yields Q (m >>= k) := by
  obtain ⟨a, rfl, ha⟩ := h
  exact hk a ha

theorem Yields.map {g : α → β} {Q : β → Prop} (h : Yields (Q <| g ·) m) : Yields Q (m.map g) := by
  obtain ⟨a, rfl, ha⟩ := h
  exact ⟨g a, rfl, ha⟩

/-! ## avoiding errors -/

/-- The computation never fails with one of the `bad` errors. -/
def Avoids (bad : ε → Prop) (m : Except ε α) : Prop := ∀ e, m = .error e → ¬ bad e

namespace Avoids

variable {bad : ε → Prop}

theorem ok (a : α) : Avoids bad (.ok a : Except ε α) := by
  intro e h
  contradiction

theorem bind (hm : Avoids bad m)
    (hk : ∀ a, m = .ok a → Avoids bad (k a)) : Avoids bad (m >>= k) := by
  intro e h
  rcases bind_error_iff.mp h with h | ⟨a, ha, h⟩
  · exact hm e h
  · exact hk a ha e h

/-- A check that holds, or whose error is harmless. -/
theorem require {c : Prop} [Decidable c] (h : ¬ c → ¬ bad e) :
    Avoids bad (require c e) := by
  intro e' he'
  obtain ⟨hc, rfl⟩ := require_error_iff.mp he'
  exact h hc

/-- A value that is there, or whose error is harmless. -/
theorem okOr (h : o = none → ¬ bad e) : Avoids bad (okOr o e) := by
  intro e' he'
  obtain ⟨ho, rfl⟩ := okOr_error_iff.mp he'
  exact h ho

theorem mapM (hf : ∀ a, Avoids bad (f a)) (as : List α) :
    Avoids bad (as.mapM f) := by
  induction as with
  | nil => exact ok []
  | cons a as ih =>
      rw [List.mapM_cons]
      exact (hf a).bind fun b _ => ih.bind fun bs _ => ok (b :: bs)

theorem foldlM {f : β → α → Except ε β} (hf : ∀ s a, Avoids bad (f s a)) (as : List α) (s : β) :
    Avoids bad (as.foldlM f s) := by
  induction as generalizing s with
  | nil => exact ok s
  | cons a as ih =>
      rw [List.foldlM_cons]
      exact (hf s a).bind fun s' _ => ih s'

end Avoids

/-! ## unsigned 64-bit -/

/-- Rust's `u64::checked_add`. -/
def checkedAdd (a b : UInt64) : Option UInt64 :=
  if a.toNat + b.toNat < 2 ^ 64 then some (a + b) else none

/-- Rust's `u64::checked_sub`. -/
def checkedSub (a b : UInt64) : Option UInt64 :=
  if b.toNat ≤ a.toNat then some (a - b) else none

/-- Rust's `u64::checked_mul`. -/
def checkedMul (a b : UInt64) : Option UInt64 :=
  if a.toNat * b.toNat < 2 ^ 64 then some (a * b) else none

/-- Rust's `u128::checked_mul` on widened operands. -/
def checkedMulU128 (a b : Nat) : Option Nat :=
  if a * b < 2 ^ 128 then some (a * b) else none

/-- Rust's `u64::try_from` on a wider unsigned value. -/
def tryFromNat (n : Nat) : Option UInt64 :=
  if n < 2 ^ 64 then some (UInt64.ofNat n) else none

variable {a b c : UInt64}

@[simp] theorem checkedAdd_eq_some :
    checkedAdd a b = some c ↔ a.toNat + b.toNat = c.toNat := by
  have hc := c.toNat_lt
  unfold checkedAdd
  split
  · next h =>
    rw [Option.some.injEq, ← UInt64.toNat_inj, UInt64.toNat_add, Nat.mod_eq_of_lt h]
  · next h =>
    constructor
    · intro hn; contradiction
    · intro hn; omega

@[simp] theorem checkedAdd_eq_none :
    checkedAdd a b = none ↔ 2 ^ 64 ≤ a.toNat + b.toNat := by
  unfold checkedAdd
  split <;> simp <;> omega

@[simp] theorem checkedSub_eq_some :
    checkedSub a b = some c ↔ c.toNat + b.toNat = a.toNat := by
  unfold checkedSub
  split
  · next h =>
    rw [Option.some.injEq, ← UInt64.toNat_inj,
      UInt64.toNat_sub_of_le a b (UInt64.le_iff_toNat_le.mpr h)]
    omega
  · next h =>
    constructor
    · intro hn; contradiction
    · intro hn; omega

@[simp] theorem checkedSub_eq_none :
    checkedSub a b = none ↔ a.toNat < b.toNat := by
  unfold checkedSub
  split <;> simp <;> omega

@[simp] theorem checkedMul_eq_some :
    checkedMul a b = some c ↔ a.toNat * b.toNat = c.toNat := by
  have hc := c.toNat_lt
  unfold checkedMul
  split
  · next h =>
    rw [Option.some.injEq, ← UInt64.toNat_inj, UInt64.toNat_mul, Nat.mod_eq_of_lt h]
  · next h =>
    constructor
    · intro hn; contradiction
    · intro hn; omega

/-- Two widened `u64`s never overflow a `u128` product. -/
theorem checkedMulU128_toNat (a b : UInt64) :
    checkedMulU128 a.toNat b.toNat = some (a.toNat * b.toNat) := by
  have hlt : a.toNat * b.toNat < 2 ^ 64 * 2 ^ 64 :=
    Nat.mul_lt_mul'' a.toNat_lt b.toNat_lt
  unfold checkedMulU128
  rw [if_pos (by omega)]

@[simp] theorem tryFromNat_eq_some :
    tryFromNat n = some c ↔ n = c.toNat := by
  have hc := c.toNat_lt
  unfold tryFromNat
  split
  · next h =>
    rw [Option.some.injEq, ← UInt64.toNat_inj, UInt64.toNat_ofNat', Nat.mod_eq_of_lt h]
  · next h =>
    constructor
    · intro hn; contradiction
    · intro hn; omega

@[simp] theorem tryFromNat_eq_none : tryFromNat n = none ↔ 2 ^ 64 ≤ n := by
  unfold tryFromNat
  split <;> simp <;> omega

/-- The total of a list of amounts, failing once a partial sum leaves `u64`. -/
def checkedSum (xs : List UInt64) : Option UInt64 :=
  xs.foldlM checkedAdd 0

theorem foldlM_checkedAdd_eq_some {xs : List UInt64} :
    xs.foldlM checkedAdd a = some c ↔ a.toNat + (xs.map UInt64.toNat).sum = c.toNat := by
  induction xs generalizing a with
  | nil => simp [UInt64.toNat_inj]
  | cons x xs ih =>
      rw [List.foldlM_cons, List.map_cons, List.sum_cons]
      cases hx : checkedAdd a x with
      | none =>
          have hbig := checkedAdd_eq_none.mp hx
          have hc := c.toNat_lt
          simp only [Option.bind_eq_bind, Option.bind_none]
          constructor
          · intro h; contradiction
          · intro h; omega
      | some s =>
          have hs := checkedAdd_eq_some.mp hx
          simp only [Option.bind_eq_bind, Option.bind_some]
          rw [ih]
          omega

@[simp] theorem checkedSum_eq_some {xs : List UInt64} :
    checkedSum xs = some c ↔ (xs.map UInt64.toNat).sum = c.toNat := by
  unfold checkedSum
  rw [foldlM_checkedAdd_eq_some]
  simp

/-! ## signed 64-bit -/

/-- Rust's `i64::checked_add`. -/
def checkedAddI64 (a b : Int64) : Option Int64 :=
  if -2 ^ 63 ≤ a.toInt + b.toInt ∧ a.toInt + b.toInt < 2 ^ 63 then some (a + b) else none

/-- Rust's `i64::checked_sub`. -/
def checkedSubI64 (a b : Int64) : Option Int64 :=
  if -2 ^ 63 ≤ a.toInt - b.toInt ∧ a.toInt - b.toInt < 2 ^ 63 then some (a - b) else none

/-- Rust's `i64::try_from` on a `u64`. -/
def tryFromU64 (a : UInt64) : Option Int64 :=
  if a.toNat < 2 ^ 63 then some a.toInt64 else none

/-- Rust's `u64::try_from` on an `i64`. -/
def tryFromI64 (a : Int64) : Option UInt64 :=
  if 0 ≤ a.toInt then some a.toUInt64 else none

theorem toInt_of_checkedAddI64 {a b c : Int64} (h : checkedAddI64 a b = some c) :
    c.toInt = a.toInt + b.toInt := by
  unfold checkedAddI64 at h
  split at h
  · next hr =>
    obtain rfl := Option.some.inj h
    rw [Int64.toInt_add, Int.bmod_eq_of_le (by omega) (by omega)]
  · contradiction

theorem toInt_of_tryFromU64 {c : Int64} (h : tryFromU64 a = some c) :
    c.toInt = a.toNat := by
  unfold tryFromU64 at h
  split at h
  · next hr =>
    obtain rfl := Option.some.inj h
    rw [Int64.toInt, UInt64.toBitVec_toInt64, BitVec.toInt_eq_toNat_of_lt]
    · rfl
    · rw [UInt64.toNat_toBitVec]; omega
  · contradiction

end Lib
