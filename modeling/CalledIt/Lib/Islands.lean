import Mathlib.Data.List.Dedup
import Mathlib.Data.List.Induction
import Mathlib.Data.List.Sort
import Mathlib.Order.Lattice
import Mathlib.Tactic.Common

/-!
# CalledIt.Lib.Islands

Winning streaks, counted in two ways.

A query numbers each row by the losses up to it and groups the rows by that number: the wins of
a group are one streak (gaps and islands).  A loop goes through the rows in order and counts
up.  `streaksOf_map_won` says that both agree on rows in order, whatever order the query met
them in.  `map_eq_of_two_orders` says when two orders of the same rows show the same results.
-/

namespace Lib

/-! ## one after the other -/

structure Streaks where
  wins : Nat
  losses : Nat
  current : Nat
  best : Nat
  deriving DecidableEq, Repr

def Streaks.record (s : Streaks) (won : Bool) : Streaks :=
  if won then
    { s with wins := s.wins + 1, current := s.current + 1, best := max s.best (s.current + 1) }
  else { s with losses := s.losses + 1, current := 0 }

def streaksOf (results : List Bool) : Streaks := results.foldl Streaks.record ⟨0, 0, 0, 0⟩

theorem streaksOf_snoc (results : List Bool) (won : Bool) :
    streaksOf (results ++ [won]) = (streaksOf results).record won := by
  simp [streaksOf]

/-! ## gaps and islands -/

section

variable {α κ : Type} [LinearOrder κ] (key : α → κ) (won : α → Bool)

/-- The losses up to and including a row, in the order of the keys. -/
def lossGroup (rows : List α) (row : α) : Nat :=
  rows.countP fun row' => decide (key row' ≤ key row) && !won row'

/-- The wins of the rows that share a number of losses. -/
def streak (rows : List α) (group : Nat) : Nat :=
  rows.countP fun row => won row && decide (lossGroup key won rows row = group)

def lossGroups (rows : List α) : List Nat := (rows.map (lossGroup key won rows)).dedup

/-- The streak of the last group. -/
def currentStreak (rows : List α) : Nat :=
  (lossGroups key won rows).max?.elim 0 (streak key won rows)

def bestStreak (rows : List α) : Nat :=
  ((lossGroups key won rows).map (streak key won rows)).foldr max 0

section

variable {key won} {rows rows' : List α}

theorem lossGroup_perm (h : rows.Perm rows') :
    lossGroup key won rows = lossGroup key won rows' := by
  funext row
  exact h.countP_eq _

theorem streak_perm (h : rows.Perm rows') : streak key won rows = streak key won rows' := by
  funext group
  unfold streak
  rw [lossGroup_perm h]
  exact h.countP_eq _

theorem lossGroups_perm (h : rows.Perm rows') :
    (lossGroups key won rows).Perm (lossGroups key won rows') := by
  unfold lossGroups
  rw [lossGroup_perm h]
  exact (h.map _).dedup

theorem mem_lossGroups {group : Nat} :
    group ∈ lossGroups key won rows ↔ ∃ row ∈ rows, lossGroup key won rows row = group := by
  simp [lossGroups]

/-- The losses before a row are some of all the losses. -/
theorem lossGroup_le (row : α) : lossGroup key won rows row ≤ rows.countP fun row => !won row := by
  apply List.countP_mono_left
  intro row' _ h
  exact (Bool.and_eq_true_iff.mp h).2

theorem foldr_max_le_iff {ns : List Nat} {n : Nat} :
    ns.foldr max 0 ≤ n ↔ ∀ m ∈ ns, m ≤ n := by
  induction ns with
  | nil => simp
  | cons m ns ih => simp [ih]

/-- A streak of no row is empty. -/
theorem streak_eq_zero {group : Nat} (h : group ∉ lossGroups key won rows) :
    streak key won rows group = 0 := by
  rw [streak, List.countP_eq_zero]
  intro row hrow hwon
  rw [mem_lossGroups] at h
  exact h ⟨row, hrow, by simpa using (Bool.and_eq_true_iff.mp hwon).2⟩

theorem bestStreak_le_iff {n : Nat} :
    bestStreak key won rows ≤ n ↔ ∀ group, streak key won rows group ≤ n := by
  rw [bestStreak, foldr_max_le_iff]
  constructor
  · intro h group
    by_cases hmem : group ∈ lossGroups key won rows
    · exact h _ (List.mem_map_of_mem hmem)
    · rw [streak_eq_zero hmem]
      exact Nat.zero_le n
  · intro h m hm
    obtain ⟨group, -, rfl⟩ := List.mem_map.mp hm
    exact h group

theorem bestStreak_perm (h : rows.Perm rows') :
    bestStreak key won rows = bestStreak key won rows' := by
  apply Nat.le_antisymm
  · rw [bestStreak_le_iff, streak_perm h]
    exact bestStreak_le_iff.mp (Nat.le_refl _)
  · rw [bestStreak_le_iff, ← streak_perm h]
    exact bestStreak_le_iff.mp (Nat.le_refl _)

theorem currentStreak_perm (h : rows.Perm rows') :
    currentStreak key won rows = currentStreak key won rows' := by
  have hmax : (lossGroups key won rows).max? = (lossGroups key won rows').max? := by
    apply Option.ext
    intro group
    simp only [List.max?_eq_some_iff, (lossGroups_perm h).mem_iff]
  rw [currentStreak, currentStreak, hmax, streak_perm h]

theorem currentStreak_le_bestStreak :
    currentStreak key won rows ≤ bestStreak key won rows := by
  unfold currentStreak
  cases (lossGroups key won rows).max? with
  | none => exact Nat.zero_le _
  | some group => exact bestStreak_le_iff.mp (Nat.le_refl _) group

/-! ## one more row -/

variable {row : α}

theorem lossGroup_append (hlast : ∀ row' ∈ rows, key row' < key row) {row' : α}
    (hrow' : row' ∈ rows) :
    lossGroup key won (rows ++ [row]) row' = lossGroup key won rows row' := by
  have hafter : ¬ key row ≤ key row' := not_le.mpr (hlast row' hrow')
  simp [lossGroup, List.countP_append, hafter]

theorem lossGroup_last (hlast : ∀ row' ∈ rows, key row' < key row) :
    lossGroup key won (rows ++ [row]) row = (rows ++ [row]).countP fun row => !won row := by
  apply List.countP_congr
  intro row' hrow'
  have hle : key row' ≤ key row := by
    rcases List.mem_append.mp hrow' with hmem | hmem
    · exact le_of_lt (hlast row' hmem)
    · rw [List.mem_singleton.mp hmem]
  simp [hle]

theorem streak_append (hlast : ∀ row' ∈ rows, key row' < key row) (group : Nat) :
    streak key won (rows ++ [row]) group = streak key won rows group +
      if won row ∧ (rows ++ [row]).countP (fun row => !won row) = group then 1 else 0 := by
  unfold streak
  rw [List.countP_append, List.countP_singleton, lossGroup_last hlast]
  congr 1
  · apply List.countP_congr
    intro row' hrow'
    rw [lossGroup_append hlast hrow']
  · simp

/-- In order, the last group has all the losses. -/
theorem currentStreak_eq (hsorted : rows.Pairwise fun row row' => key row < key row') :
    currentStreak key won rows = streak key won rows (rows.countP fun row => !won row) := by
  cases rows using List.reverseRecOn with
  | nil => rfl
  | append_singleton init row =>
    have hlast : ∀ row' ∈ init, key row' < key row := by
      intro row' hrow'
      exact (List.pairwise_append.mp hsorted).2.2 row' hrow' row (List.mem_singleton_self row)
    have hmax : (lossGroups key won (init ++ [row])).max? =
        some ((init ++ [row]).countP fun row => !won row) := by
      rw [List.max?_eq_some_iff]
      refine ⟨mem_lossGroups.mpr ⟨row, by simp, lossGroup_last hlast⟩, fun group hgroup => ?_⟩
      obtain ⟨row', -, rfl⟩ := mem_lossGroups.mp hgroup
      exact lossGroup_le row'
    rw [currentStreak, hmax]
    rfl

theorem bestStreak_append (hlast : ∀ row' ∈ rows, key row' < key row) :
    bestStreak key won (rows ++ [row]) = max (bestStreak key won rows)
      (streak key won (rows ++ [row]) ((rows ++ [row]).countP fun row => !won row)) := by
  apply Nat.le_antisymm
  · rw [bestStreak_le_iff]
    intro group
    by_cases hgroup : (rows ++ [row]).countP (fun row => !won row) = group
    · rw [← hgroup]
      exact Nat.le_max_right _ _
    · have hsame : streak key won (rows ++ [row]) group = _ := streak_append hlast group
      rw [if_neg fun h => hgroup h.2] at hsame
      rw [hsame]
      exact Nat.le_trans (bestStreak_le_iff.mp (Nat.le_refl _) group) (Nat.le_max_left _ _)
  · apply Nat.max_le.mpr
    refine ⟨bestStreak_le_iff.mpr fun group => ?_, bestStreak_le_iff.mp (Nat.le_refl _) _⟩
    have hgrows : streak key won (rows ++ [row]) group = _ := streak_append hlast group
    have hbest := bestStreak_le_iff.mp (Nat.le_refl (bestStreak key won (rows ++ [row]))) group
    omega

/-- The loop over the rows in order finds what the query finds. -/
theorem streaksOf_map_won (hsorted : rows.Pairwise fun row row' => key row < key row') :
    streaksOf (rows.map won) =
      { wins := rows.countP won
        losses := rows.countP fun row => !won row
        current := currentStreak key won rows
        best := bestStreak key won rows } := by
  induction rows using List.reverseRecOn with
  | nil => rfl
  | append_singleton rows row ih =>
      obtain ⟨hrows, -, hbefore⟩ := List.pairwise_append.mp hsorted
      have hlast : ∀ row' ∈ rows, key row' < key row := by
        intro row' hrow'
        exact hbefore row' hrow' row (List.mem_singleton_self row)
      have hcurrent : streak key won (rows ++ [row]) _ = _ := streak_append hlast
        ((rows ++ [row]).countP fun row => !won row)
      rw [List.map_append, List.map_singleton, streaksOf_snoc, ih hrows, currentStreak_eq hsorted,
        bestStreak_append hlast, hcurrent, currentStreak_eq hrows, Streaks.record]
      cases hwon : won row with
      | true => simp [hwon]
      | false =>
          -- a loss opens a group that no earlier row is in
          have hfresh : streak key won rows ((rows.countP fun row => !won row) + 1) = 0 := by
            apply streak_eq_zero
            intro hmem
            obtain ⟨row', -, heq⟩ := mem_lossGroups.mp hmem
            have hle : lossGroup key won rows row' ≤ _ := lossGroup_le row'
            omega
          simp [hwon, hfresh]

end

end

/-! ## two orders -/

/-- Sorting by keys that are all different leaves no ties. -/
theorem pairwise_lt_mergeSort {α κ : Type} [LinearOrder κ] {key : α → κ} {rows : List α}
    (h : (rows.map key).Nodup) :
    (rows.mergeSort fun row row' => key row ≤ key row').Pairwise
      fun row row' => key row < key row' := by
  have hle := @List.pairwise_mergeSort _ (fun row row' => decide (key row ≤ key row'))
    (fun a b c hab hbc => decide_eq_true
      (le_trans (of_decide_eq_true hab) (of_decide_eq_true hbc)))
    (fun a b => by simpa using le_total (key a) (key b)) rows
  have hne : (rows.mergeSort fun row row' => key row ≤ key row').Pairwise
      fun row row' => key row ≠ key row' :=
    List.pairwise_map.mp (((List.mergeSort_perm rows _).map key).nodup_iff.mpr h)
  exact (hle.and hne).imp fun ⟨hle, hne⟩ => lt_of_le_of_ne (of_decide_eq_true hle) hne

/-- Two orders of the same rows show the same results when they agree on the rows whose results
differ. -/
theorem map_eq_of_two_orders {α β : Type} {first second : α → α → Prop} (result : α → β)
    {rows rows' : List α} (hperm : rows.Perm rows') (hrows : rows.Pairwise first)
    (hrows' : rows'.Pairwise second)
    (hagree : ∀ row ∈ rows, ∀ row' ∈ rows, result row ≠ result row' → first row row' →
      ¬ second row' row) : rows.map result = rows'.map result := by
  induction rows generalizing rows' with
  | nil => rw [hperm.symm.eq_nil]
  | cons row rows ih =>
      obtain ⟨hfirst, hrest⟩ := List.pairwise_cons.mp hrows
      obtain ⟨before, after, rfl⟩ := List.append_of_mem (hperm.mem_iff.mp List.mem_cons_self)
      have hrest' : rows.Perm (before ++ after) :=
        (List.perm_cons row).mp (hperm.trans List.perm_middle)
      have hbefore : ∀ row' ∈ before, result row' = result row := by
        intro row' hrow'
        by_contra hne
        have hmem : row' ∈ rows := hrest'.mem_iff.mpr (List.mem_append_left after hrow')
        have hsecond : second row' row :=
          (List.pairwise_append.mp hrows').2.2 row' hrow' row List.mem_cons_self
        exact hagree row List.mem_cons_self row' (List.mem_cons_of_mem row hmem) (Ne.symm hne)
          (hfirst row' hmem) hsecond
      have hsub : (before ++ after).Sublist (before ++ row :: after) :=
        (List.sublist_cons_self row after).append_left before
      have htail := ih hrest' hrest (hrows'.sublist hsub) fun row' hrow' row'' hrow'' =>
        hagree row' (List.mem_cons_of_mem row hrow') row'' (List.mem_cons_of_mem row hrow'')
      -- the rows that the second order puts first show the same result
      have hsame : before.map result = List.replicate before.length (result row) := by
        rw [List.eq_replicate_iff]
        refine ⟨List.length_map result, fun b hb => ?_⟩
        obtain ⟨row', hrow', rfl⟩ := List.mem_map.mp hb
        exact hbefore row' hrow'
      rw [List.map_cons, htail, List.map_append, List.map_append, List.map_cons, hsame,
        ← List.cons_append, ← List.replicate_succ, List.replicate_succ', List.append_assoc]
      rfl

end Lib
