import Mathlib.Data.List.Basic
import Mathlib.Data.List.Nodup

/-!
# CalledIt.Lib.Pages

Pages of a history that grows, newest first.

A history only ever has entries added at its end.  `pageBack` is one page of it: the
entries older than one key and newer than another, newest first, up to a limit.  A scan
takes page after page while the history grows, each from the oldest entry of the last.
`Paged` is what it has at any time: a stretch of the history without gaps; after a short
page the stretch reaches down to where the scan ends (`Complete`).
-/

namespace Lib

section Stretches

variable {α κ : Type} (key : α → κ)

/-- The part of a history up to `till`. -/
def UpTo (till : Option κ) (old : List α) : Prop :=
  match till with
  | none => old = []
  | some t => ∃ older last, old = older ++ [last] ∧ key last = t

/-- The scan has a stretch of the history. -/
def Paged (till : Option κ) (history collected : List α) : Prop :=
  ∃ old gap newer, history = old ++ gap ++ collected.reverse ++ newer ∧ UpTo key till old

/-- The scan has all that is newer than `till`, up to where it began. -/
def Complete (till : Option κ) (history collected : List α) : Prop :=
  ∃ old newer, history = old ++ collected.reverse ++ newer ∧ UpTo key till old

variable {key} {till : Option κ} {history history' collected : List α}

theorem Paged.grow (h : Paged key till history collected) (hgrows : history <+: history') :
    Paged key till history' collected := by
  obtain ⟨more, rfl⟩ := hgrows
  obtain ⟨old, gap, newer, rfl, hold⟩ := h
  exact ⟨old, gap, newer ++ more, by simp, hold⟩

theorem Complete.grow (h : Complete key till history collected) (hgrows : history <+: history') :
    Complete key till history' collected := by
  obtain ⟨more, rfl⟩ := hgrows
  obtain ⟨old, newer, rfl, hold⟩ := h
  exact ⟨old, newer ++ more, by simp, hold⟩

/-- A page of a stretch that goes down to `till`, and whether it went all the way. -/
theorem paged_take (old rest seen newer : List α) (limit : ℕ) (hold : UpTo key till old)
    (hhistory : history = old ++ rest ++ seen.reverse ++ newer) :
    Paged key till history (seen ++ rest.reverse.take limit) ∧
      ((rest.reverse.take limit).length < limit →
        Complete key till history (seen ++ rest.reverse.take limit)) := by
  have hrest : rest = (rest.reverse.drop limit).reverse ++ (rest.reverse.take limit).reverse := by
    rw [← List.reverse_append, List.take_append_drop, List.reverse_reverse]
  constructor
  · refine ⟨old, (rest.reverse.drop limit).reverse, newer, ?_, hold⟩
    rw [hhistory, List.reverse_append]
    conv_lhs => rw [hrest]
    simp only [List.append_assoc]
  · intro hshort
    have hall : rest.reverse.take limit = rest.reverse := by
      refine List.take_of_length_le ?_
      rw [List.length_take] at hshort
      omega
    refine ⟨old, newer, ?_, hold⟩
    rw [hall, hhistory, List.reverse_append, List.reverse_reverse]
    simp only [List.append_assoc]

end Stretches

section Pages

variable {α κ : Type} [DecidableEq κ] (key : α → κ)

/-- Up to `limit` entries older than `before` and newer than `till`, newest first. -/
def pageBack (history : List α) (before till : Option κ) (limit : ℕ) : List α :=
  let older :=
    match before with
    | none => history.reverse
    | some b => (history.reverse.dropWhile (key · ≠ b)).drop 1
  let newer :=
    match till with
    | none => older
    | some t => older.takeWhile (key · ≠ t)
  newer.take limit

variable {key} {till : Option κ} {history collected : List α}

theorem length_pageBack_le (history : List α) (before till : Option κ) (limit : ℕ) :
    (pageBack key history before till limit).length ≤ limit := by
  unfold pageBack
  exact List.length_take_le _ _

/-- A page ends before the entries up to `till`. -/
theorem take_newer {old : List α} (rest : List α) (limit : ℕ) (hold : UpTo key till old)
    (hnodup : ((old ++ rest).map key).Nodup) :
    (match till with
      | none => rest.reverse ++ old.reverse
      | some t => (rest.reverse ++ old.reverse).takeWhile (key · ≠ t)).take limit =
        rest.reverse.take limit := by
  cases till with
  | none =>
      obtain rfl : old = [] := hold
      simp
  | some t =>
      obtain ⟨older, last, rfl, rfl⟩ := hold
      have hnew : ∀ x ∈ rest.reverse, decide (key x ≠ key last) = true := fun x hx => by
        refine decide_eq_true fun heq => ?_
        rw [List.map_append] at hnodup
        refine (List.nodup_append.mp hnodup).2.2 (key last) ?_ (key x) ?_ heq.symm
        · exact List.mem_map_of_mem (List.mem_append_right _ List.mem_cons_self)
        · exact List.mem_map_of_mem (List.mem_reverse.mp hx)
      show ((rest.reverse ++ (older ++ [last]).reverse).takeWhile (key · ≠ key last)).take limit = _
      rw [List.takeWhile_append_of_pos hnew, List.reverse_append, List.reverse_singleton,
        List.singleton_append, List.takeWhile_cons_of_neg (by simp), List.append_nil]

/-- The first page is the newest entries. -/
theorem pageBack_first {old rest : List α} (limit : ℕ) (hold : UpTo key till old)
    (hnodup : ((old ++ rest).map key).Nodup) :
    pageBack key (old ++ rest) none till limit = rest.reverse.take limit := by
  have htake := take_newer rest limit hold hnodup
  simpa only [pageBack, List.reverse_append] using htake

/-- Every further page goes on below the oldest entry of the last. -/
theorem pageBack_next {old gap newer : List α} {x : α} (limit : ℕ) (hold : UpTo key till old)
    (hnodup : ((old ++ gap ++ x :: newer).map key).Nodup) :
    pageBack key (old ++ gap ++ x :: newer) (some (key x)) till limit = gap.reverse.take limit := by
  have hsplit : (old ++ gap ++ x :: newer).reverse =
      newer.reverse ++ x :: (gap.reverse ++ old.reverse) := by simp
  have hnew : ∀ y ∈ newer.reverse, decide (key y ≠ key x) = true := fun y hy => by
    refine decide_eq_true fun heq => ?_
    rw [List.map_append, List.map_cons] at hnodup
    have hcons := (List.nodup_append.mp hnodup).2.1
    exact (List.nodup_cons.mp hcons).1 (heq ▸ List.mem_map_of_mem (List.mem_reverse.mp hy))
  have hdrop : ((old ++ gap ++ x :: newer).reverse.dropWhile (key · ≠ key x)).drop 1 =
      gap.reverse ++ old.reverse := by
    rw [hsplit, List.dropWhile_append_of_pos hnew, List.dropWhile_cons_of_neg (by simp)]
    rfl
  have htake := take_newer gap limit hold
    (hnodup.sublist ((List.sublist_append_left _ _).map _))
  simp only [pageBack, hdrop]
  exact htake

/-- The scan after its first page. -/
theorem paged_first {old rest : List α} (limit : ℕ) (hold : UpTo key till old)
    (hnodup : ((old ++ rest).map key).Nodup) :
    Paged key till (old ++ rest) (pageBack key (old ++ rest) none till limit) ∧
      ((pageBack key (old ++ rest) none till limit).length < limit →
        Complete key till (old ++ rest) (pageBack key (old ++ rest) none till limit)) := by
  rw [pageBack_first limit hold hnodup]
  have hhistory : old ++ rest = old ++ rest ++ [].reverse ++ [] := by simp
  exact paged_take old rest [] [] limit hold hhistory

/-- The scan after one more page. -/
theorem Paged.next {oldest : α} (limit : ℕ) (h : Paged key till history (collected ++ [oldest]))
    (hnodup : (history.map key).Nodup) :
    Paged key till history
        (collected ++ [oldest] ++ pageBack key history (some (key oldest)) till limit) ∧
      ((pageBack key history (some (key oldest)) till limit).length < limit →
        Complete key till history
          (collected ++ [oldest] ++ pageBack key history (some (key oldest)) till limit)) := by
  obtain ⟨old, gap, newer, hhistory, hold⟩ := h
  have hplace : history = old ++ gap ++ oldest :: (collected.reverse ++ newer) := by
    rw [hhistory]
    simp
  have hpage : pageBack key history (some (key oldest)) till limit = gap.reverse.take limit := by
    rw [hplace] at hnodup ⊢
    exact pageBack_next limit hold hnodup
  rw [hpage]
  exact paged_take old gap _ newer limit hold hhistory

end Pages

end Lib
