import Mathlib.Data.List.Basic
import Mathlib.Data.Vector.Basic
import Mathlib.Tactic.Common

/-!
# CalledIt.Lib.Codec

Unambiguous encodings.

`PrefixCode P f` says that among the values satisfying `P` an encoding can be
split off the front of a longer word in only one way: equal words give equal
values *and* equal remainders.  This is what lets a record written field after
field be read back from left to right, so a format is injective as soon as each
of its fields is a prefix code.

Fixed-width injective encodings are prefix codes (`PrefixCode.of_length`), a
length prefix makes any byte string one (`PrefixCode.lengthPrefixed`), and a
presence flag makes an optional field one (`PrefixCode.flagged`).

A format that is laid out by offsets is written into a buffer instead: writes that stand apart
from one another can all be read back (`window_spliceAll`).
-/

namespace Lib

/-- An optional value behind a presence flag. -/
def flaggedCode (no yes : γ) (f : α → List γ) : Option α → List γ
  | none => [no]
  | some a => yes :: f a

/-- Encodings of `P`-values can be split off a longer word in one way only. -/
def PrefixCode (P : α → Prop) (f : α → List γ) : Prop :=
  ∀ ⦃a b : α⦄ ⦃s t : List γ⦄, P a → P b → f a ++ s = f b ++ t → a = b ∧ s = t

/-- The same without a side condition. -/
abbrev PrefixCode.Total (f : α → List γ) : Prop := PrefixCode (fun _ => True) f

variable {f : α → List γ}

namespace PrefixCode

theorem of_length {P : α → Prop} {n : Nat} (hlen : ∀ a, (f a).length = n)
    (hinj : ∀ a b, P a → P b → f a = f b → a = b) : PrefixCode P f := by
  intro a b s t ha hb h
  obtain ⟨hab, hst⟩ := List.append_inj h (by rw [hlen, hlen])
  exact ⟨hinj a b ha hb hab, hst⟩

/-- Prefix codes stay prefix codes under an injective renaming of the values. -/
theorem comap {P : α → Prop} (hf : PrefixCode P f) {g : β → α}
    (hg : Function.Injective g) : PrefixCode (fun b => P (g b)) (fun b => f (g b)) := by
  intro a b s t ha hb h
  obtain ⟨hab, hst⟩ := hf ha hb h
  exact ⟨hg hab, hst⟩

/-- A word behind its own length. -/
theorem lengthPrefixed {N : Nat} {f : Nat → List γ} (hf : PrefixCode (· < N) f) :
    PrefixCode (fun w : List γ => w.length < N) (fun w => f w.length ++ w) := by
  intro v w s t hv hw h
  simp only [List.append_assoc] at h
  obtain ⟨hlen, hrest⟩ := hf hv hw h
  exact List.append_inj hrest hlen

theorem flagged (hf : PrefixCode.Total f) {no yes : γ} (hne : no ≠ yes) :
    PrefixCode.Total (flaggedCode no yes f) := by
  intro a b s t _ _ h
  cases a with
  | none =>
      cases b with
      | none => exact ⟨rfl, List.cons.inj h |>.2⟩
      | some b => exact absurd (List.cons.inj h).1 hne
  | some a =>
      cases b with
      | none => exact absurd (List.cons.inj h).1.symm hne
      | some b =>
          obtain ⟨hab, hst⟩ := hf trivial trivial (List.cons.inj h).2
          exact ⟨congrArg some hab, hst⟩

end PrefixCode

/-! ## little-endian integers -/

/-- The `w` low bytes of `n`, least significant first. -/
def leBytes : (w n : Nat) → List UInt8
  | 0, _ => []
  | w + 1, n => UInt8.ofNat (n % 256) :: leBytes w (n / 256)

@[simp] theorem length_leBytes (w n : Nat) : (leBytes w n).length = w := by
  induction w generalizing n with
  | zero => rfl
  | succ w ih => rw [leBytes, List.length_cons, ih]

theorem leBytes_inj {w m n : Nat} (hm : m < 256 ^ w) (hn : n < 256 ^ w)
    (h : leBytes w m = leBytes w n) : m = n := by
  induction w generalizing m n with
  | zero => omega
  | succ w ih =>
      rw [leBytes, leBytes, List.cons.injEq, ← UInt8.toNat_inj, UInt8.toNat_ofNat',
        UInt8.toNat_ofNat'] at h
      obtain ⟨hlow, hhigh⟩ := h
      rw [Nat.pow_succ] at hm hn
      have hdiv := ih (by omega) (by omega) hhigh
      omega

/-- Integers below `256 ^ w` in `w` bytes. -/
theorem leBytes_prefixCode (w : Nat) : PrefixCode (· < 256 ^ w) (leBytes w) :=
  PrefixCode.of_length (length_leBytes w) fun _ _ hm hn h => leBytes_inj hm hn h

/-! ## fixed byte strings -/

/-- Byte vectors of one length. -/
theorem vector_prefixCode (n : Nat) :
    PrefixCode.Total (fun v : List.Vector γ n => v.toList) :=
  PrefixCode.of_length (fun v => v.toList_length) fun _ _ _ _ h => List.Vector.eq _ _ h

/-! ## windows -/

/-- The word `w` stands in `data` at position `offset`. -/
def Window (data : List γ) (offset : Nat) (w : List γ) : Prop :=
  ∃ pre post, data = pre ++ w ++ post ∧ pre.length = offset

variable {data w : List γ} {offset : Nat}

namespace Window

theorem le_length (h : Window data offset w) :
    offset + w.length ≤ data.length := by
  obtain ⟨pre, post, rfl, rfl⟩ := h
  simp only [List.length_append]
  omega

/-- A window is what dropping and taking leaves. -/
theorem iff_take_drop :
    Window data offset w ↔
      offset + w.length ≤ data.length ∧ (data.drop offset).take w.length = w := by
  constructor
  · intro h
    refine ⟨h.le_length, ?_⟩
    obtain ⟨pre, post, rfl, rfl⟩ := h
    rw [List.append_assoc, List.drop_left, List.take_left]
  · rintro ⟨hle, hw⟩
    refine ⟨data.take offset, (data.drop offset).drop w.length, ?_, ?_⟩
    · have hrest := List.take_append_drop w.length (data.drop offset)
      rw [hw] at hrest
      rw [List.append_assoc, hrest, List.take_append_drop]
    · rw [List.length_take]
      omega

theorem iff_getElem? :
    Window data offset w ↔
      offset + w.length ≤ data.length ∧ ∀ i < w.length, data[offset + i]? = w[i]? := by
  rw [iff_take_drop]
  refine and_congr_right fun hle => ?_
  constructor
  · intro h i hi
    rw [← h]
    grind
  · intro h
    apply List.ext_getElem?
    grind

/-- Words of one length in one place are equal. -/
theorem eq_of_length {v : List γ} (hv : Window data offset v) (hw : Window data offset w)
    (hlen : v.length = w.length) : v = w := by
  rw [iff_take_drop] at hv hw
  rw [← hv.2, ← hw.2, hlen]

/-- Neighbouring windows are one. -/
theorem append {v : List γ} (hv : Window data offset v)
    (hw : Window data (offset + v.length) w) : Window data offset (v ++ w) := by
  rw [iff_getElem?] at hv hw ⊢
  grind

end Window

/-! ## writing into a buffer -/

/-- A buffer with `w` written over what stood at `offset`. -/
def splice (data : List γ) (offset : Nat) (w : List γ) : List γ :=
  data.take offset ++ w ++ data.drop (offset + w.length)

theorem length_splice (h : offset + w.length ≤ data.length) :
    (splice data offset w).length = data.length := by
  simp [splice]
  omega

theorem getElem?_splice (h : offset + w.length ≤ data.length)
    (i : Nat) : (splice data offset w)[i]? =
      if offset ≤ i ∧ i < offset + w.length then w[i - offset]? else data[i]? := by
  simp only [splice, List.append_assoc, List.getElem?_append, List.length_take,
    Nat.min_eq_left (show offset ≤ data.length by omega), List.getElem?_take, List.getElem?_drop]
  grind

/-- A write: its position, and what is written. -/
abbrev BufferWrite (γ : Type) := Nat × List γ

/-- The writes touch no common position. -/
def BufferWrite.Apart (v w : BufferWrite γ) : Prop :=
  v.1 + v.2.length ≤ w.1 ∨ w.1 + w.2.length ≤ v.1

theorem window_splice (h : offset + w.length ≤ data.length) :
    Window (splice data offset w) offset w :=
  ⟨data.take offset, data.drop (offset + w.length), rfl, by simp; omega⟩

/-- What stands apart from a write stays. -/
theorem Window.splice_of_apart {v w : BufferWrite γ} (hv : Window data v.1 v.2)
    (h : w.1 + w.2.length ≤ data.length) (hapart : v.Apart w) :
    Window (splice data w.1 w.2) v.1 v.2 := by
  rw [Window.iff_getElem?] at hv ⊢
  rw [length_splice h]
  refine ⟨hv.1, fun i hi => ?_⟩
  rw [getElem?_splice h, if_neg, hv.2 i hi]
  unfold BufferWrite.Apart at hapart
  omega

def spliceAll (data : List γ) (writes : List (BufferWrite γ)) : List γ :=
  writes.foldl (fun data w => splice data w.1 w.2) data

/-- Every write lies inside a buffer of the given length. -/
def Fits (length : Nat) (writes : List (BufferWrite γ)) : Prop :=
  ∀ w ∈ writes, w.1 + w.2.length ≤ length

variable {writes : List (BufferWrite γ)}

theorem length_spliceAll
    (h : Fits data.length writes) : (spliceAll data writes).length = data.length := by
  induction writes generalizing data with
  | nil => rfl
  | cons w writes ih =>
      have hlen := length_splice (h w List.mem_cons_self)
      have hrest : Fits (splice data w.1 w.2).length writes := by
        rw [hlen]
        exact fun v hv => h v (List.mem_cons_of_mem w hv)
      exact (ih hrest).trans hlen

theorem Window.spliceAll {v : BufferWrite γ} (hv : Window data v.1 v.2)
    (h : Fits data.length writes) (hapart : ∀ w ∈ writes, v.Apart w) :
    Window (spliceAll data writes) v.1 v.2 := by
  induction writes generalizing data with
  | nil => exact hv
  | cons w writes ih =>
      have hw := h w List.mem_cons_self
      refine ih (hv.splice_of_apart hw (hapart w List.mem_cons_self)) ?_
        fun w' hw' => hapart w' (List.mem_cons_of_mem w hw')
      rw [length_splice hw]
      exact fun w' hw' => h w' (List.mem_cons_of_mem w hw')

/-- Writes apart from one another all stand in the buffer at the end. -/
theorem window_spliceAll {w : BufferWrite γ} (h : Fits data.length writes)
    (hapart : writes.Pairwise BufferWrite.Apart) (hw : w ∈ writes) :
    Window (spliceAll data writes) w.1 w.2 := by
  induction writes generalizing data with
  | nil => cases hw
  | cons v writes ih =>
      have hv := h v List.mem_cons_self
      have hrest : Fits (splice data v.1 v.2).length writes := by
        rw [length_splice hv]
        exact fun w' hw' => h w' (List.mem_cons_of_mem v hw')
      obtain ⟨hfirst, hothers⟩ := List.pairwise_cons.mp hapart
      rcases List.mem_cons.mp hw with rfl | hw
      · exact (window_splice hv).spliceAll hrest hfirst
      · exact ih hrest hothers hw

end Lib
