import CalledIt.Lib.Json
import Mathlib.Data.List.Lex
import Mathlib.Data.List.Sort

/-!
# CalledIt.Sdk.CanonicalJson

The canonical text of a JSON value (`escrow-sdk/src/canonical-json.ts`): the
members of every object in the order of their names.

`canonicalJson` prints what `JSON.stringify` prints for the same value with its
members sorted, `sortKeys`; so its text reads back as the sorted value
(`parse_canonicalJson`) and is printed again unchanged
(`canonicalJson_sortKeys`), and it stands for the value
(`canonicalJson_identifies`).
-/

namespace CalledIt.Sdk

open Lib Lib.Json

/-- Names in the order of `Array.prototype.sort`: by code units. -/
def keyLe (a b : Text) : Prop := a.map UInt16.toNat ≤ b.map UInt16.toNat

instance : DecidableRel keyLe := fun a b =>
  inferInstanceAs (Decidable (a.map UInt16.toNat ≤ b.map UInt16.toNat))

/-- Pairs by the name in front. -/
def byKey (p q : Text × α) : Prop := keyLe p.1 q.1

instance : DecidableRel (byKey (α := α)) := fun p q => inferInstanceAs (Decidable (keyLe p.1 q.1))

instance : Std.Total (byKey (α := α)) := ⟨fun p _ => le_total (p.1.map UInt16.toNat) _⟩

instance : IsTrans (Text × α) byKey := ⟨fun _ _ _ h h' => le_trans (α := List ℕ) h h'⟩

mutual

def canonicalJson : Json → Text
  | .null => stringify .null
  | .bool b => stringify (.bool b)
  | .number q => stringify (.number q)
  | .infinite negative => stringify (.infinite negative)
  | .string s => stringify (.string s)
  | .array vs => openBracket :: (commaJoin (canonicalElements vs) ++ [closeBracket])
  | .object ms =>
      openBrace :: (commaJoin (((canonicalMembers ms).insertionSort byKey).map fun m =>
        memberText m.1 m.2) ++ [closeBrace])

def canonicalElements : List Json → List Text
  | [] => []
  | v :: vs => canonicalJson v :: canonicalElements vs

/-- The names of an object, each with the text of its value. -/
def canonicalMembers : List (Text × Json) → List (Text × Text)
  | [] => []
  | (name, v) :: ms => (name, canonicalJson v) :: canonicalMembers ms

end

theorem canonicalElements_eq_map (vs : List Json) :
    canonicalElements vs = vs.map canonicalJson := by
  induction vs with
  | nil => rfl
  | cons v vs ih => rw [canonicalElements, ih, List.map_cons]

theorem canonicalMembers_eq_map (ms : List (Text × Json)) :
    canonicalMembers ms = ms.map fun m => (m.1, canonicalJson m.2) := by
  induction ms with
  | nil => rfl
  | cons m ms ih => rw [canonicalMembers, ih, List.map_cons]

/-! ## the sorted value -/

mutual

def sortKeys : Json → Json
  | .null => .null
  | .bool b => .bool b
  | .number q => .number q
  | .infinite negative => .infinite negative
  | .string s => .string s
  | .array vs => .array (sortElements vs)
  | .object ms => .object ((sortMembers ms).insertionSort byKey)

def sortElements : List Json → List Json
  | [] => []
  | v :: vs => sortKeys v :: sortElements vs

def sortMembers : List (Text × Json) → List (Text × Json)
  | [] => []
  | (name, v) :: ms => (name, sortKeys v) :: sortMembers ms

end

theorem sortElements_eq_map (vs : List Json) : sortElements vs = vs.map sortKeys := by
  induction vs with
  | nil => rfl
  | cons v vs ih => rw [sortElements, ih, List.map_cons]

theorem sortMembers_eq_map (ms : List (Text × Json)) :
    sortMembers ms = ms.map fun m => (m.1, sortKeys m.2) := by
  induction ms with
  | nil => rfl
  | cons m ms ih => rw [sortMembers, ih, List.map_cons]

/-- Sorting by name and changing the values commute. -/
theorem insertionSort_map_value (f : α → β) (ms : List (Text × α)) :
    (ms.map fun m => (m.1, f m.2)).insertionSort byKey =
      (ms.insertionSort byKey).map fun m => (m.1, f m.2) :=
  (List.map_insertionSort byKey byKey (fun m : Text × α => (m.1, f m.2)) ms
    fun _ _ _ _ => Iff.rfl).symm

/-! ## the canonical text reads back -/

theorem stringifyElements_eq_map (vs : List Json) :
    stringifyElements vs = vs.map stringify := by
  induction vs with
  | nil => rfl
  | cons v vs ih => rw [stringifyElements, ih, List.map_cons]

theorem stringifyMembers_eq_map (ms : List (Text × Json)) :
    stringifyMembers ms = ms.map fun m => memberText m.1 (stringify m.2) := by
  induction ms with
  | nil => rfl
  | cons m ms ih => rw [stringifyMembers, ih, List.map_cons]

variable {v : Json}

theorem canonicalJson_eq_stringify (hv : Printable v) :
    canonicalJson v = stringify (sortKeys v) := by
  induction hv with
  | null => rfl
  | bool b => rfl
  | number h => rfl
  | string s => rfl
  | array h ih =>
      rw [canonicalJson, sortKeys, stringify, canonicalElements_eq_map, stringifyElements_eq_map,
        sortElements_eq_map, List.map_map, List.map_congr_left ih]
      rfl
  | @object ms hn h ih =>
      have hmembers : (ms.map fun m => (m.1, canonicalJson m.2)) =
          ms.map fun m => (m.1, stringify (sortKeys m.2)) :=
        List.map_congr_left fun m hm => by rw [ih m hm]
      rw [canonicalJson, sortKeys, stringify, canonicalMembers_eq_map, hmembers,
        stringifyMembers_eq_map, sortMembers_eq_map,
        insertionSort_map_value (fun v => stringify (sortKeys v)), insertionSort_map_value sortKeys,
        List.map_map, List.map_map]
      rfl

theorem sortKeys_sortKeys (hv : Printable v) : sortKeys (sortKeys v) = sortKeys v := by
  induction hv with
  | null => rfl
  | bool b => rfl
  | number h => rfl
  | string s => rfl
  | array h ih =>
      rw [sortKeys, sortKeys, sortElements_eq_map, sortElements_eq_map, List.map_map]
      congr 1
      exact List.map_congr_left ih
  | @object ms hn h ih =>
      have hmembers : (ms.map fun m => (m.1, sortKeys (sortKeys m.2))) =
          ms.map fun m => (m.1, sortKeys m.2) :=
        List.map_congr_left fun m hm => by rw [ih m hm]
      have hsorted := (List.pairwise_insertionSort byKey
        (ms.map fun m => (m.1, sortKeys m.2))).insertionSort_eq
      rw [sortKeys, sortKeys, sortMembers_eq_map, sortMembers_eq_map, ← insertionSort_map_value,
        List.map_map]
      simp only [Function.comp_def]
      rw [hmembers, hsorted]

theorem printable_sortKeys (hv : Printable v) : Printable (sortKeys v) := by
  induction hv with
  | null => exact .null
  | bool b => exact .bool b
  | number h => exact .number h
  | string s => exact .string s
  | array h ih =>
      rw [sortKeys, sortElements_eq_map]
      refine .array fun v hv => ?_
      obtain ⟨w, hw, rfl⟩ := List.mem_map.mp hv
      exact ih w hw
  | @object ms hn h ih =>
      rw [sortKeys, sortMembers_eq_map]
      refine .object ?_ fun m hm => ?_
      · rw [((List.perm_insertionSort byKey _).map Prod.fst).nodup_iff, List.map_map]
        exact hn
      · rw [List.mem_insertionSort] at hm
        obtain ⟨m', hm', rfl⟩ := List.mem_map.mp hm
        exact ih m' hm'

theorem parse_canonicalJson (hv : Printable v) :
    parse (canonicalJson v) = some (sortKeys v) := by
  rw [canonicalJson_eq_stringify hv, parse_stringify (printable_sortKeys hv)]

theorem canonicalJson_sortKeys (hv : Printable v) :
    canonicalJson (sortKeys v) = canonicalJson v := by
  rw [canonicalJson_eq_stringify (printable_sortKeys hv), sortKeys_sortKeys hv,
    canonicalJson_eq_stringify hv]

/-! ## the canonical text stands for the value -/

/-- Values that differ in the order of their members only. -/
inductive Same : Json → Json → Prop
  | refl (v : Json) : Same v v
  | array {vs ws : List Json} (hlength : vs.length = ws.length)
      (h : ∀ p ∈ vs.zip ws, Same p.1 p.2) : Same (.array vs) (.array ws)
  | object {ms ns ps : List (Text × Json)} (hperm : ps.Perm ns)
      (hnames : ms.map Prod.fst = ps.map Prod.fst)
      (h : ∀ p ∈ (ms.map Prod.snd).zip (ps.map Prod.snd), Same p.1 p.2) :
      Same (.object ms) (.object ns)

theorem map_eq_map_iff_zip {f : α → β} {xs ys : List α} :
    xs.map f = ys.map f ↔ xs.length = ys.length ∧ ∀ p ∈ xs.zip ys, f p.1 = f p.2 := by
  induction xs generalizing ys with
  | nil => cases ys <;> simp
  | cons x xs ih =>
      cases ys with
      | nil => simp
      | cons y ys =>
          simp only [List.map_cons, List.cons.injEq, ih, List.length_cons,
            Nat.add_right_cancel_iff, List.zip_cons_cons, List.forall_mem_cons]
          exact and_left_comm

theorem map_value_eq_iff {f : α → β} {ms ns : List (Text × α)} :
    (ms.map fun m => (m.1, f m.2)) = ns.map (fun m => (m.1, f m.2)) ↔
      ms.map Prod.fst = ns.map Prod.fst ∧ (ms.map Prod.snd).map f = (ns.map Prod.snd).map f := by
  induction ms generalizing ns with
  | nil => cases ns <;> simp
  | cons m ms ih =>
      cases ns with
      | nil => simp
      | cons n ns =>
          simp only [List.map_cons, List.cons.injEq, Prod.mk.injEq, ih]
          exact and_and_and_comm

/-- Names that differ are sorted in one way. -/
theorem insertionSort_byKey_eq {ms ns : List (Text × α)} (hn : (ms.map Prod.fst).Nodup)
    (h : ms.Perm ns) : ms.insertionSort byKey = ns.insertionSort byKey := by
  have hms := List.perm_insertionSort byKey ms
  have hns := List.perm_insertionSort byKey ns
  apply List.Perm.eq_of_pairwise _ (List.pairwise_insertionSort byKey ms)
    (List.pairwise_insertionSort byKey ns) ((hms.trans h).trans hns.symm)
  intro a b ha hb hab hba
  have hkey : a.1 = b.1 := List.map_injective_iff.mpr (fun _ _ => UInt16.toNat_inj.mp)
    (le_antisymm (α := List ℕ) hab hba)
  exact List.inj_on_of_nodup_map hn (hms.mem_iff.mp ha) (h.mem_iff.mpr (hns.mem_iff.mp hb)) hkey

variable {w : Json}

theorem Same.sortKeys_eq (h : Same v w) (hv : Printable v) : sortKeys v = sortKeys w := by
  induction h with
  | refl => rfl
  | array hlength h ih =>
      cases hv with
      | array hvs =>
          rw [sortKeys, sortKeys, sortElements_eq_map, sortElements_eq_map,
            map_eq_map_iff_zip.mpr ⟨hlength, fun p hp => ih p hp (hvs _ (List.of_mem_zip hp).1)⟩]
  | @object ms ns ps hperm hnames h ih =>
      cases hv with
      | object hn hms =>
          have hvalues := map_eq_map_iff_zip.mpr
            ⟨by simpa using congrArg List.length hnames, fun p hp => ih p hp (by
              obtain ⟨m, hm, heq⟩ := List.mem_map.mp (List.of_mem_zip hp).1
              exact heq ▸ hms m hm)⟩
          rw [sortKeys, sortKeys, sortMembers_eq_map, sortMembers_eq_map,
            map_value_eq_iff.mpr ⟨hnames, hvalues⟩,
            insertionSort_byKey_eq (by simpa [Function.comp_def] using hnames ▸ hn) (hperm.map _)]

theorem same_of_sortKeys_eq (hv : Printable v) (h : sortKeys v = sortKeys w) : Same v w := by
  induction hv generalizing w with
  | null | bool | number | string =>
      cases w <;> simp only [sortKeys, reduceCtorEq, Json.bool.injEq, Json.number.injEq,
        Json.string.injEq] at h
      first | exact .refl _ | exact h ▸ .refl _
  | array _ ih =>
      cases w <;> simp only [sortKeys, reduceCtorEq, Json.array.injEq, sortElements_eq_map] at h
      obtain ⟨hlength, hzip⟩ := map_eq_map_iff_zip.mp h
      exact .array hlength fun p hp => ih _ (List.of_mem_zip hp).1 (hzip p hp)
  | @object ms hn _ ih =>
      cases w <;> simp only [sortKeys, reduceCtorEq, Json.object.injEq, sortMembers_eq_map] at h
      rename_i ns
      have hvalues := (List.perm_insertionSort byKey _).symm.trans
        (h.symm ▸ List.perm_insertionSort byKey _)
      obtain ⟨ps, hps, hperm⟩ := (congrFun₂ (List.eq_map_comp_perm _) _ _).mpr hvalues
      obtain ⟨hnames, hvalues⟩ := map_value_eq_iff.mp hps
      apply Same.object hperm hnames
      intro p hp
      obtain ⟨m, hm, heq⟩ := List.mem_map.mp (List.of_mem_zip hp).1
      have hsame := (map_eq_map_iff_zip.mp hvalues).2 p hp
      rw [← heq] at hsame ⊢
      exact ih m hm hsame

/-- Canonical texts are alike exactly for values that differ in the order of their members,
and what such a text reads back as differs in no more. -/
theorem canonicalJson_identifies (hv : Printable v) (hw : Printable w) :
    (canonicalJson v = canonicalJson w ↔ Same v w) ∧
      ∃ u, parse (canonicalJson v) = some u ∧ Same v u := by
  refine ⟨⟨fun h => ?_, fun h => ?_⟩, sortKeys v, parse_canonicalJson hv,
    same_of_sortKeys_eq hv (sortKeys_sortKeys hv).symm⟩
  · have hparse := congrArg parse h
    rw [parse_canonicalJson hv, parse_canonicalJson hw] at hparse
    exact same_of_sortKeys_eq hv (Option.some.inj hparse)
  · rw [canonicalJson_eq_stringify hv, canonicalJson_eq_stringify hw, h.sortKeys_eq hv]

theorem canonicalJson_identifies_swapped :
    canonicalJson (.object [(ascii "b", .null), (ascii "a", .bool true)]) =
      canonicalJson (.object [(ascii "a", .bool true), (ascii "b", .null)]) :=
  (canonicalJson_identifies (.object (by decide) (by simp [Printable.null, Printable.bool]))
    (.object (by decide) (by simp [Printable.null, Printable.bool]))).1.mpr
    (.object (.swap _ _ []) rfl (by simp [Same.refl]))

end CalledIt.Sdk
