import Mathlib.Data.List.Infix
import Mathlib.Tactic.Common

/-!
# CalledIt.Lib.Delimiter

Text that is cut at delimiters, as a regular expression of alternatives cuts it.

The leftmost place where one of the words stands is a match, of the first of them there.
`scan` cuts at every match and keeps what follows the last one.  Words that are `Stable`, none
of them a start of another and none inside another, can be looked for in a text that is still
growing: what has been cut off stays cut off (`scan_append`).
-/

namespace Lib

/-- The words that a text is cut at. -/
structure Delimiters (α : Type) where
  words : List (List α)
  nonempty : ∀ word ∈ words, word ≠ []

namespace Delimiters

section

variable {α : Type} [DecidableEq α] (d : Delimiters α)

/-- What follows the first of the words that the text begins with. -/
def matchAt (text : List α) : Option (List α) :=
  d.words.findSome? fun word => word.isPrefixOf? text

/-- What comes before the leftmost match, and what follows it. -/
def firstMatch : List α → Option (List α × List α)
  | [] => (d.matchAt []).map ([], ·)
  | c :: text =>
      match d.matchAt (c :: text) with
      | some rest => some ([], rest)
      | none => (firstMatch text).map fun m => (c :: m.1, m.2)

variable {d} {text rest : List α}

theorem matchAt_eq_some (h : d.matchAt text = some rest) :
    ∃ word ∈ d.words, text = word ++ rest := by
  obtain ⟨word, hword, hprefix⟩ := List.exists_of_findSome?_eq_some h
  exact ⟨word, hword, (List.isPrefixOf?_eq_some_iff_append_eq.mp hprefix).symm⟩

theorem matchAt_eq_none_iff : d.matchAt text = none ↔ ∀ word ∈ d.words, ¬ word <+: text := by
  rw [matchAt, List.findSome?_eq_none_iff]
  refine forall₂_congr fun word _ => ?_
  rw [Option.eq_none_iff_forall_ne_some]
  simp only [ne_eq, List.isPrefixOf?_eq_some_iff_append_eq, List.IsPrefix, not_exists]

theorem firstMatch_eq_some {before : List α} (h : d.firstMatch text = some (before, rest)) :
    ∃ word ∈ d.words, text = before ++ (word ++ rest) := by
  induction text generalizing before with
  | nil =>
      obtain ⟨rest', hmatch, heq⟩ := Option.map_eq_some_iff.mp h
      obtain ⟨rfl, rfl⟩ := Prod.mk.inj heq
      exact matchAt_eq_some hmatch
  | cons c text ih =>
      rw [firstMatch] at h
      split at h
      · next rest' hmatch =>
        obtain ⟨rfl, rfl⟩ := Prod.mk.inj (Option.some.inj h)
        exact matchAt_eq_some hmatch
      · obtain ⟨m, hm, heq⟩ := Option.map_eq_some_iff.mp h
        obtain ⟨rfl, rfl⟩ := Prod.mk.inj heq
        obtain ⟨word, hword, htext⟩ := ih hm
        exact ⟨word, hword, by rw [htext, List.cons_append]⟩

theorem length_of_firstMatch {m : List α × List α} (h : d.firstMatch text = some m) :
    m.2.length < text.length := by
  obtain ⟨word, hword, rfl⟩ := firstMatch_eq_some h
  have hpos := List.length_pos_iff.mpr (d.nonempty word hword)
  simp only [List.length_append]
  omega

variable (d)

/-- The pieces that matches end, and what is left. -/
def scan (text : List α) : List (List α) × List α :=
  match h : d.firstMatch text with
  | none => ([], text)
  | some m =>
      have := length_of_firstMatch h
      let more := scan m.2
      (m.1 :: more.1, more.2)
termination_by text.length

/-- All the pieces, as `split` gives them. -/
def split (text : List α) : List (List α) := (d.scan text).1 ++ [(d.scan text).2]

variable {d}

theorem scan_of_none (h : d.firstMatch text = none) : d.scan text = ([], text) := by
  rw [scan]
  split
  · rfl
  · next h' => rw [h] at h'; cases h'

theorem scan_of_some {m : List α × List α} (h : d.firstMatch text = some m) :
    d.scan text = (m.1 :: (d.scan m.2).1, (d.scan m.2).2) := by
  rw [scan]
  split
  · next h' => rw [h] at h'; cases h'
  · next m' h' =>
    rw [h] at h'
    cases h'
    rfl

theorem split_of_none (h : d.firstMatch text = none) : d.split text = [text] := by
  rw [split, scan_of_none h, List.nil_append]

theorem split_of_some {m : List α × List α} (h : d.firstMatch text = some m) :
    d.split text = m.1 :: d.split m.2 := by
  rw [split, scan_of_some h, List.cons_append, split]

/-- What is left has been cut at every match. -/
theorem scan_rest (text : List α) : d.scan (d.scan text).2 = ([], (d.scan text).2) := by
  induction hn : text.length using Nat.strong_induction_on generalizing text with
  | _ n ih =>
      cases h : d.firstMatch text with
      | none => rw [scan_of_none h, scan_of_none h]
      | some m =>
          have hlength := length_of_firstMatch h
          rw [scan_of_some h, ih m.2.length (by omega) m.2 rfl]

/-! ## looking past what begins no word -/

theorem firstMatch_cons (c : α) (h : d.matchAt (c :: text) = none) :
    d.firstMatch (c :: text) = (d.firstMatch text).map fun m => (c :: m.1, m.2) := by
  rw [firstMatch, h]

theorem firstMatch_of_matchAt (h : d.matchAt text = some rest) :
    d.firstMatch text = some ([], rest) := by
  cases text with
  | nil => rw [firstMatch, h, Option.map_some]
  | cons c text => rw [firstMatch, h]

/-- An entry that begins no word. -/
def Plain (d : Delimiters α) (c : α) : Prop := ∀ word ∈ d.words, word.head? ≠ some c

theorem matchAt_plain {c : α} (h : d.Plain c) : d.matchAt (c :: text) = none := by
  refine matchAt_eq_none_iff.mpr fun word hword hprefix => ?_
  cases word with
  | nil => exact d.nonempty [] hword rfl
  | cons b word =>
      obtain ⟨rfl, -⟩ := List.cons_prefix_cons.mp hprefix
      exact h _ hword rfl

theorem firstMatch_append_plain {skipped : List α} (h : ∀ c ∈ skipped, d.Plain c) :
    d.firstMatch (skipped ++ text) = (d.firstMatch text).map fun m => (skipped ++ m.1, m.2) := by
  induction skipped with
  | nil => simp
  | cons c skipped ih =>
      rw [List.cons_append, firstMatch_cons c (matchAt_plain (h c List.mem_cons_self)),
        ih fun b hb => h b (List.mem_cons_of_mem c hb), Option.map_map]
      rfl

/-! ## a text that grows -/

/-- No word begins with another, and none has another inside it. -/
structure Stable (d : Delimiters α) : Prop where
  unique : ∀ word ∈ d.words, ∀ word' ∈ d.words, word <+: word' → word = word'
  inside : ∀ word ∈ d.words, ∀ word' ∈ d.words, ¬ word' <:+: word.tail.dropLast

theorem matchAt_of_word (hd : d.Stable) {word : List α} (hword : word ∈ d.words)
    (rest : List α) : d.matchAt (word ++ rest) = some rest := by
  cases hmatch : d.matchAt (word ++ rest) with
  | none => exact absurd (List.prefix_append word rest) (matchAt_eq_none_iff.mp hmatch word hword)
  | some rest' =>
      obtain ⟨word', hword', heq⟩ := matchAt_eq_some hmatch
      have hsame : word = word' := by
        rcases List.prefix_or_prefix_of_prefix (List.prefix_append word rest)
          (heq ▸ List.prefix_append word' rest') with hprefix | hprefix
        · exact hd.unique word hword word' hword' hprefix
        · exact (hd.unique word' hword' word hword hprefix).symm
      subst hsame
      rw [List.append_cancel_left heq]

/-- A word that only begins before a match would have the match inside it. -/
theorem matchAt_append_of_later (hd : d.Stable) {c : α} {text : List α} {m : List α × List α}
    (hnone : d.matchAt (c :: text) = none) (hlater : d.firstMatch text = some m)
    (more : List α) : d.matchAt (c :: text ++ more) = none := by
  obtain ⟨inner, hinner, rfl⟩ := firstMatch_eq_some hlater
  refine matchAt_eq_none_iff.mpr fun word hword hprefix => ?_
  rcases List.prefix_or_prefix_of_prefix hprefix (List.prefix_append _ more) with hshort | hlong
  · exact matchAt_eq_none_iff.mp hnone word hword hshort
  · -- the word runs past the end of the text, so it is longer than all of it
    obtain ⟨beyond, rfl⟩ := hlong
    cases hbeyond : beyond.reverse with
    | nil =>
        obtain rfl := List.reverse_eq_nil_iff.mp hbeyond
        rw [List.append_nil] at hword
        exact matchAt_eq_none_iff.mp hnone _ hword (List.prefix_refl _)
    | cons last initial =>
        have hsplit : beyond = initial.reverse ++ [last] := by
          rw [← List.reverse_reverse beyond, hbeyond, List.reverse_cons]
        refine hd.inside _ hword inner hinner ⟨m.1, m.2 ++ initial.reverse, ?_⟩
        rw [hsplit, List.cons_append, List.tail_cons]
        simp only [← List.append_assoc, List.dropLast_concat]

/-- A match stays the leftmost one, whatever follows. -/
theorem firstMatch_append (hd : d.Stable) {m : List α × List α} (h : d.firstMatch text = some m)
    (more : List α) : d.firstMatch (text ++ more) = some (m.1, m.2 ++ more) := by
  induction text generalizing m with
  | nil =>
      have hlength := length_of_firstMatch h
      exact absurd hlength (Nat.not_lt_zero _)
  | cons c text ih =>
      cases hmatch : d.matchAt (c :: text) with
      | some rest =>
          rw [firstMatch_of_matchAt hmatch] at h
          obtain rfl := Option.some.inj h
          obtain ⟨word, hword, heq⟩ := matchAt_eq_some hmatch
          rw [heq, List.append_assoc]
          exact firstMatch_of_matchAt (matchAt_of_word hd hword _)
      | none =>
          rw [firstMatch_cons c hmatch] at h
          obtain ⟨m', hm', rfl⟩ := Option.map_eq_some_iff.mp h
          have hlater : d.matchAt (c :: (text ++ more)) = none :=
            matchAt_append_of_later hd hmatch hm' more
          rw [List.cons_append, firstMatch_cons c hlater, ih hm', Option.map_some]

/-- A text that comes in two parts is cut as a whole. -/
theorem scan_append (hd : d.Stable) (text more : List α) :
    d.scan (text ++ more) =
      ((d.scan text).1 ++ (d.scan ((d.scan text).2 ++ more)).1,
        (d.scan ((d.scan text).2 ++ more)).2) := by
  induction hn : text.length using Nat.strong_induction_on generalizing text with
  | _ n ih =>
      cases h : d.firstMatch text with
      | none => rw [scan_of_none h, List.nil_append]
      | some m =>
          have hlength := length_of_firstMatch h
          rw [scan_of_some (firstMatch_append hd h more), scan_of_some h,
            ih m.2.length (by omega) m.2 rfl, List.cons_append]

end

end Delimiters

end Lib
