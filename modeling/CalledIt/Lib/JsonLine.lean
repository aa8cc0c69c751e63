import Mathlib.Data.List.TakeWhile
import CalledIt.Lib.Utf8

/-!
# CalledIt.Lib.JsonLine

JSON objects on the lines of a file.

A string is written well-formed and without a line feed (`quoted_wellFormed`,
`lineFeed_not_mem_quoted`), so an object of strings is one line.  The parser reads an
object to its closing brace and leaves what follows, so a proper start of its text
does not parse (`parse_of_cut`), not even with a replacement character at the cut
(`parse_of_cut_through`).
-/

namespace Lib

variable {t rest : Text} {c : UInt16} {v : Json} {fuel : ℕ}

namespace Json

/-! ## strings on a line -/

/-- The unit that ends a line. -/
def lineFeed : UInt16 := 0x0A

theorem wellFormed_ascii (h : (t.all (· < 0x80)) = true) : Utf8.WellFormed t := by
  induction t with
  | nil => exact Utf8.wellFormed_nil
  | cons c t ih =>
      rw [List.all_cons, Bool.and_eq_true, decide_eq_true_eq] at h
      have hc : c.toNat < 0x80 := UInt16.lt_iff_toNat_lt.mp h.1
      have hhigh : isHighSurrogate c = false := by
        rw [← Bool.not_eq_true, Utf8.isHighSurrogate_iff]
        omega
      have hlow : isLowSurrogate c = false := by
        rw [← Bool.not_eq_true, Utf8.isLowSurrogate_iff]
        omega
      exact Utf8.wellFormed_append (Utf8.wellFormed_unit hhigh hlow) (ih h.2)

theorem hexUnit_ascii : ∀ d < 16, hexUnit d < 0x80 ∧ hexUnit d ≠ lineFeed := by decide

theorem mem_hexEscape {d : UInt16} (h : d ∈ hexEscape c) : d < 0x80 ∧ d ≠ lineFeed := by
  have hc := c.toNat_lt
  simp only [hexEscape, List.mem_cons, List.not_mem_nil, or_false] at h
  rcases h with rfl | rfl | rfl | rfl | rfl | rfl
  · decide
  · decide
  · exact hexUnit_ascii _ (by omega)
  · exact hexUnit_ascii _ (by omega)
  · exact hexUnit_ascii _ (by omega)
  · exact hexUnit_ascii _ (by omega)

theorem hexEscape_wellFormed (c : UInt16) : Utf8.WellFormed (hexEscape c) :=
  wellFormed_ascii (List.all_eq_true.mpr fun _ h => decide_eq_true (mem_hexEscape h).1)

/-- Line feeds are escaped. -/
theorem mem_escapeUnit {d : UInt16} (h : d ∈ escapeUnit c) : d ≠ lineFeed := by
  unfold escapeUnit at h
  split_ifs at h
  all_goals try
    simp only [List.mem_cons, List.not_mem_nil, or_false] at h
    rcases h with rfl | rfl <;> decide
  · exact (mem_hexEscape h).2
  · next hfeed _ _ _ =>
      obtain rfl := List.mem_singleton.mp h
      exact hfeed

theorem escapeUnit_wellFormed (hhigh : isHighSurrogate c = false)
    (hlow : isLowSurrogate c = false) : Utf8.WellFormed (escapeUnit c) := by
  unfold escapeUnit
  split_ifs
  all_goals try exact wellFormed_ascii (by decide)
  · exact hexEscape_wellFormed c
  · exact Utf8.wellFormed_unit hhigh hlow

theorem surrogate_ne_lineFeed
    (h : isHighSurrogate c = true ∨ isLowSurrogate c = true) : c ≠ lineFeed := by
  rintro rfl
  revert h
  decide

theorem escapeText_line (s : Text) :
    Utf8.WellFormed (escapeText s) ∧ lineFeed ∉ escapeText s := by
  have happend : ∀ {t u : Text}, Utf8.WellFormed t → (∀ d ∈ t, d ≠ lineFeed) →
      Utf8.WellFormed u ∧ lineFeed ∉ u → Utf8.WellFormed (t ++ u) ∧ lineFeed ∉ t ++ u := by
    intro t u ht hfeed hu
    refine ⟨Utf8.wellFormed_append ht hu.1, fun hmem => ?_⟩
    rcases List.mem_append.mp hmem with hmem | hmem
    · exact hfeed _ hmem rfl
    · exact hu.2 hmem
  have hescape : ∀ {c : UInt16} {u : Text}, Utf8.WellFormed u ∧ lineFeed ∉ u →
      Utf8.WellFormed (hexEscape c ++ u) ∧ lineFeed ∉ hexEscape c ++ u := fun hu =>
    happend (hexEscape_wellFormed _) (fun _ hd => (mem_hexEscape hd).2) hu
  fun_induction escapeText s with
  | case1 => exact ⟨Utf8.wellFormed_nil, by simp⟩
  | case2 c hc => simpa using hescape ⟨Utf8.wellFormed_nil, by simp⟩
  | case3 c hc d rest hd ih =>
      refine happend (t := [c, d]) (Utf8.wellFormed_pair hc hd) (fun e he => ?_) ih
      obtain rfl | rfl : e = c ∨ e = d := by simpa using he
      · exact surrogate_ne_lineFeed (.inl hc)
      · exact surrogate_ne_lineFeed (.inr hd)
  | case4 c hc d rest hd ih => exact hescape ih
  | case5 c rest hc hl ih => exact hescape ih
  | case6 c rest hc hl ih =>
      exact happend (escapeUnit_wellFormed (by simpa using hc) (by simpa using hl))
        (fun _ hd => mem_escapeUnit hd) ih

theorem quoted_wellFormed (s : Text) : Utf8.WellFormed (quoted s) :=
  Utf8.wellFormed_append (s := [quotation]) (wellFormed_ascii (by decide))
    (Utf8.wellFormed_append (escapeText_line s).1 (wellFormed_ascii (by decide)))

theorem lineFeed_not_mem_quoted (s : Text) : lineFeed ∉ quoted s := by
  have hbody := (escapeText_line s).2
  simp only [quoted, List.mem_cons, List.mem_append, List.not_mem_nil, or_false, not_or]
  exact ⟨by decide, hbody, by decide⟩

/-! ## what the parser leaves -/

theorem skipSpace_suffix (t : Text) : skipSpace t <:+ t := List.dropWhile_suffix _

theorem expect_suffix (h : expect c t = some rest) :
    c :: rest <:+ t := by
  unfold expect at h
  split at h
  · exact absurd h (by simp)
  · next d rest' hskip =>
      split at h
      · next hd =>
          cases h
          rw [← hd, ← hskip]
          exact skipSpace_suffix t
      · exact absurd h (by simp)

theorem expect_suffix_tail (h : expect c t = some rest) :
    rest <:+ t :=
  (List.suffix_cons c rest).trans (expect_suffix h)

theorem stringBody_suffix {s : Text} (h : stringBody t = some (s, rest)) : rest <:+ t := by
  fun_induction stringBody t generalizing s with
  | case1 => exact absurd h (by simp)
  | case2 rest' =>
      cases h
      exact List.suffix_cons _ _
  | case3 => exact absurd h (by simp)
  | case4 h₁ h₂ h₃ h₄ rest' hq ih =>
      obtain ⟨c, -, hmap⟩ := Option.bind_eq_some_iff.mp h
      obtain ⟨s', hs, -⟩ := exists_of_map hmap fun _ => rfl
      exact (ih hs).trans ⟨[_, _, h₁, h₂, h₃, h₄], rfl⟩
  | case5 => exact absurd h (by simp)
  | case6 e rest' he hq ih =>
      obtain ⟨c, -, hmap⟩ := Option.bind_eq_some_iff.mp h
      obtain ⟨s', hs, -⟩ := exists_of_map hmap fun _ => rfl
      exact (ih hs).trans ⟨[_, e], rfl⟩
  | case7 => exact absurd h (by simp)
  | case8 c rest' hq hb hc ih =>
      obtain ⟨s', hs, -⟩ := exists_of_map h fun _ => rfl
      exact (ih hs).trans (List.suffix_cons _ _)

theorem someDigits_suffix {ds : List ℕ} (h : someDigits t = some (ds, rest)) :
    rest <:+ t := by
  unfold someDigits spanDigits at h
  split at h
  · exact absurd h (by simp)
  · cases h
    exact List.dropWhile_suffix _

theorem scanFraction_suffix {ds : List ℕ} (h : scanFraction t = some (ds, rest)) :
    rest <:+ t := by
  unfold scanFraction at h
  split at h
  · cases h
    exact List.suffix_rfl
  · split at h
    · exact (someDigits_suffix h).trans (List.suffix_cons _ _)
    · cases h
      exact List.suffix_rfl

theorem scanExponentSign_suffix (t : Text) : (scanExponentSign t).2 <:+ t := by
  unfold scanExponentSign
  split
  · split_ifs
    · exact List.suffix_cons _ _
    · exact List.suffix_cons _ _
    · exact List.suffix_rfl
  · exact List.suffix_rfl

theorem scanExponent_suffix {e : Option ℤ} (h : scanExponent t = some (e, rest)) :
    rest <:+ t := by
  unfold scanExponent at h
  split at h
  · cases h
    exact List.suffix_rfl
  · split at h
    · obtain ⟨ds, hds, -⟩ := exists_of_map h fun _ => rfl
      exact ((someDigits_suffix hds).trans (scanExponentSign_suffix _)).trans
        (List.suffix_cons _ _)
    · cases h
      exact List.suffix_rfl

theorem scanSign_suffix (t : Text) : (scanSign t).2 <:+ t := by
  unfold scanSign
  split
  · split_ifs
    · exact List.suffix_cons _ _
    · exact List.suffix_rfl
  · exact List.suffix_rfl

theorem scanNumeral_suffix {n : Numeral} (h : scanNumeral t = some (n, rest)) :
    rest <:+ t := by
  simp only [scanNumeral, Option.bind_eq_bind, Option.bind_eq_some_iff, Option.pure_def,
    Option.some.injEq, Prod.mk.injEq, Prod.exists] at h
  obtain ⟨whole, r₁, hwhole, fraction, r₂, hfraction, exponent, r₃, hexponent, -, rfl⟩ := h
  have hdigits := someDigits_suffix (Option.filter_eq_some_iff.mp hwhole).1
  exact ((scanExponent_suffix hexponent).trans (scanFraction_suffix hfraction)).trans
    (hdigits.trans (scanSign_suffix t))

theorem literal_suffix {word : Text} {w : Json}
    (h : literal word v t = some (w, rest)) : rest <:+ t := by
  unfold literal at h
  split at h
  · cases h
    exact List.drop_suffix _ _
  · exact absurd h (by simp)

/-- Every parser leaves an end of its text; after an object, what follows the brace. -/
structure Leaves (fuel : ℕ) : Prop where
  value : ∀ ⦃t v rest⦄, parseValue fuel t = some (v, rest) → rest <:+ t
  elements : ∀ ⦃t vs rest⦄, parseElements fuel t = some (vs, rest) → rest <:+ t
  members : ∀ ⦃t ms rest⦄, parseMembers fuel t = some (ms, rest) → closeBrace :: rest <:+ t

theorem leaves_value (h : Leaves fuel)
    (hparse : parseValue (fuel + 1) t = some (v, rest)) : rest <:+ t := by
  rw [parseValue] at hparse
  split at hparse
  · exact absurd hparse (by simp)
  · next c t' hskip =>
      have hstart : c :: t' <:+ t := hskip ▸ skipSpace_suffix t
      have hinside : t' <:+ t := (List.suffix_cons c t').trans hstart
      split_ifs at hparse
      · split at hparse
        · next r hclose =>
            cases hparse
            exact (expect_suffix_tail hclose).trans hinside
        · obtain ⟨ms, hms, -⟩ := exists_of_map hparse fun _ => rfl
          exact ((List.suffix_cons _ _).trans (h.members hms)).trans hinside
      · split at hparse
        · next r hclose =>
            cases hparse
            exact (expect_suffix_tail hclose).trans hinside
        · obtain ⟨vs, hvs, -⟩ := exists_of_map hparse fun _ => rfl
          exact (h.elements hvs).trans hinside
      · obtain ⟨s, hs, -⟩ := exists_of_map hparse fun _ => rfl
        exact (stringBody_suffix hs).trans hinside
      · exact (literal_suffix hparse).trans hstart
      · exact (literal_suffix hparse).trans hstart
      · exact (literal_suffix hparse).trans hstart
      · obtain ⟨n, hn, -⟩ := exists_of_map hparse fun _ => rfl
        exact (scanNumeral_suffix hn).trans hstart

theorem leaves_elements (h : Leaves fuel) {vs : List Json}
    (hparse : parseElements (fuel + 1) t = some (vs, rest)) : rest <:+ t := by
  simp only [parseElements, Option.bind_eq_bind, Option.bind_eq_some_iff, Prod.exists] at hparse
  obtain ⟨v, r, hv, hparse⟩ := hparse
  have hvalue := h.value hv
  split at hparse
  · next r' hcomma =>
      obtain ⟨vs', hvs, -⟩ := exists_of_map hparse fun _ => rfl
      exact ((h.elements hvs).trans (expect_suffix_tail hcomma)).trans hvalue
  · obtain ⟨r', hclose, hpair⟩ := Option.map_eq_some_iff.mp hparse
    obtain ⟨-, rfl⟩ := Prod.mk.inj hpair
    exact (expect_suffix_tail hclose).trans hvalue

theorem leaves_members (h : Leaves fuel) {ms : List (Text × Json)}
    (hparse : parseMembers (fuel + 1) t = some (ms, rest)) : closeBrace :: rest <:+ t := by
  simp only [parseMembers, Option.bind_eq_bind, Option.bind_eq_some_iff, Prod.exists] at hparse
  obtain ⟨r₁, hquote, name, r₂, hname, r₃, hcolon, v, r₄, hv, hparse⟩ := hparse
  have hvalue : r₄ <:+ t :=
    ((h.value hv).trans (expect_suffix_tail hcolon)).trans
      ((stringBody_suffix hname).trans (expect_suffix_tail hquote))
  split at hparse
  · next r' hcomma =>
      obtain ⟨ms', hms, -⟩ := exists_of_map hparse fun _ => rfl
      exact ((h.members hms).trans (expect_suffix_tail hcomma)).trans hvalue
  · obtain ⟨r', hclose, hpair⟩ := Option.map_eq_some_iff.mp hparse
    obtain ⟨-, rfl⟩ := Prod.mk.inj hpair
    exact (expect_suffix hclose).trans hvalue

theorem leaves (fuel : ℕ) : Leaves fuel := by
  induction fuel with
  | zero => constructor <;> simp [parseValue, parseElements, parseMembers]
  | succ fuel ih => exact ⟨fun _ _ _ => leaves_value ih, fun _ _ _ => leaves_elements ih,
      fun _ _ _ => leaves_members ih⟩

/-! ## objects -/

/-- A text with a brace in front is read as an object, up to a closing brace. -/
theorem parseValue_brace (h : parseValue fuel (openBrace :: t) = some (v, rest)) :
    (∃ ms, v = object ms) ∧ closeBrace :: rest <:+ t := by
  cases fuel with
  | zero => simp [parseValue] at h
  | succ fuel =>
      rw [parseValue, skipSpace_cons (by decide)] at h
      simp only [if_true] at h
      split at h
      · next r hclose =>
          cases h
          exact ⟨⟨_, rfl⟩, expect_suffix hclose⟩
      · obtain ⟨ms, hms, rfl⟩ := exists_of_map h fun _ => rfl
        exact ⟨⟨_, rfl⟩, (leaves fuel).members hms⟩

/-- The text of an object ends with its brace, but for space. -/
theorem parse_brace (h : parse (openBrace :: t) = some v) :
    (∃ ms, v = object ms) ∧ ∃ fuel spaces, parseValue fuel (openBrace :: t) = some (v, spaces) ∧
      (∀ c ∈ spaces, isSpace c = true) ∧ closeBrace :: spaces <:+ t := by
  unfold parse at h
  split at h
  · exact absurd h (by simp)
  · next w rest hparse =>
      split at h
      · next hspace =>
          obtain rfl := Option.some.inj h
          obtain ⟨hobject, hsuffix⟩ := parseValue_brace hparse
          exact ⟨hobject, _, rest, hparse, List.dropWhile_eq_nil_iff.mp hspace, hsuffix⟩
      · exact absurd h (by simp)

/-- A proper start of an object's text is no JSON. -/
theorem parse_of_cut {ms : List (Text × Json)} (hv : Printable (object ms)) {u : Text}
    (htext : stringify (object ms) = openBrace :: t ++ u) (hu : u ≠ []) :
    parse (openBrace :: t) = none := by
  cases h : parse (openBrace :: t) with
  | none => rfl
  | some w =>
      exfalso
      obtain ⟨⟨ms', rfl⟩, fuel, spaces, hparse, -, -⟩ := parse_brace h
      -- with enough fuel the whole text is read twice, once to the cut and once to its end
      let enough := fuel + (2 * (stringify (object ms)).length + 2)
      have hcut := (parse_extends fuel).1 hparse (.inr rfl) (show fuel ≤ enough by omega) u
      have hwhole := parseValue_stringify hv enough [] (by omega) (by simp [Ends])
      rw [List.append_nil, htext, hcut, Option.some.injEq, Prod.mk.injEq] at hwhole
      exact hu (List.append_eq_nil_iff.mp hwhole.2).2

/-- A unit at the end that is neither a brace nor space spoils an object. -/
theorem parse_of_cut_through (hspace : isSpace c = false)
    (hbrace : c ≠ closeBrace) : parse (openBrace :: (t ++ [c])) = none := by
  cases h : parse (openBrace :: (t ++ [c])) with
  | none => rfl
  | some w =>
      exfalso
      obtain ⟨-, -, spaces, -, hspaces, before, hbefore⟩ := parse_brace h
      have hlast : (closeBrace :: spaces).getLast? = some c := by
        have hends := congrArg List.getLast? hbefore
        rw [List.getLast?_append_of_ne_nil _ (by simp)] at hends
        rw [hends]
        simp
      rcases List.eq_nil_or_concat spaces with rfl | ⟨init, last, rfl⟩
      · exact hbrace (Option.some.inj hlast).symm
      · have hend : last = c := by simpa [List.getLast?_cons] using hlast
        have hsp := hspaces last (by simp)
        rw [hend, hspace] at hsp
        contradiction

end Json

end Lib
