import CalledIt.Lib.Double

/-!
# CalledIt.Lib.Json

JSON values, their text and the parser.

Text is a list of UTF-16 code units, as the strings of a script are.  `stringify`
prints a value the way `JSON.stringify` does: an object's members in the order
they were added, a lone surrogate and every control unit escaped.  `parse` reads
the JSON grammar; an object that repeats a name keeps the last value at the first
place.

* `parse_stringify` — what is printed reads back;
* `parse_extends` — a value that is no number is read the same way whatever text
  follows it, so a proper prefix of an object's text is no JSON.
-/

namespace Lib

abbrev Text := List UInt16

/-- The code units of an ASCII word. -/
def ascii (s : String) : Text := s.toList.map fun c => UInt16.ofNat c.toNat

inductive Json
  | null
  | bool (b : Bool)
  | number (q : ℚ)
  | infinite (negative : Bool)
  | string (s : Text)
  | array (elements : List Json)
  | object (members : List (Text × Json))

variable {c : UInt16} {ds : List ℕ} {t rest : Text} {n : Numeral} {v : Json}
  {ms : List (Text × Json)} {fuel : ℕ}

namespace Json

/-! ## code units -/

def quotation : UInt16 := 0x22
def plus : UInt16 := 0x2B
def comma : UInt16 := 0x2C
def minus : UInt16 := 0x2D
def point : UInt16 := 0x2E
def colon : UInt16 := 0x3A
def openBracket : UInt16 := 0x5B
def backslash : UInt16 := 0x5C
def closeBracket : UInt16 := 0x5D
def lowerE : UInt16 := 0x65
def upperE : UInt16 := 0x45
def lowerU : UInt16 := 0x75
def openBrace : UInt16 := 0x7B
def closeBrace : UInt16 := 0x7D

/-- Space, tab, line feed and carriage return. -/
def isSpace (c : UInt16) : Bool := c = 0x20 || c = 0x09 || c = 0x0A || c = 0x0D

def isDigit (c : UInt16) : Bool := 0x30 ≤ c && c ≤ 0x39

def isHighSurrogate (c : UInt16) : Bool := 0xD800 ≤ c && c ≤ 0xDBFF

def isLowSurrogate (c : UInt16) : Bool := 0xDC00 ≤ c && c ≤ 0xDFFF

def digitUnit (d : ℕ) : UInt16 := UInt16.ofNat (0x30 + d)

def digitValue (c : UInt16) : ℕ := c.toNat - 0x30

def hexUnit (d : ℕ) : UInt16 := if d < 10 then digitUnit d else UInt16.ofNat (0x57 + d)

def hexValue (c : UInt16) : Option ℕ :=
  if isDigit c then some (digitValue c)
  else if 0x61 ≤ c && c ≤ 0x66 then some (c.toNat - 0x57)
  else if 0x41 ≤ c && c ≤ 0x46 then some (c.toNat - 0x37)
  else none

/-! ## printing -/

/-- A unit written as a four-digit escape. -/
def hexEscape (c : UInt16) : Text :=
  [backslash, lowerU, hexUnit (c.toNat / 4096), hexUnit (c.toNat / 256 % 16),
    hexUnit (c.toNat / 16 % 16), hexUnit (c.toNat % 16)]

/-- A unit other than a surrogate inside a string. -/
def escapeUnit (c : UInt16) : Text :=
  if c = quotation then [backslash, quotation]
  else if c = backslash then [backslash, backslash]
  else if c = 0x08 then [backslash, 0x62]
  else if c = 0x09 then [backslash, 0x74]
  else if c = 0x0A then [backslash, 0x6E]
  else if c = 0x0C then [backslash, 0x66]
  else if c = 0x0D then [backslash, 0x72]
  else if c < 0x20 then hexEscape c
  else [c]

/-- A surrogate pair stands for itself; a surrogate alone is escaped. -/
def escapeText : Text → Text
  | [] => []
  | c :: rest =>
      if isHighSurrogate c then
        match rest with
        | [] => hexEscape c
        | d :: rest' =>
            if isLowSurrogate d then c :: d :: escapeText rest'
            else hexEscape c ++ escapeText (d :: rest')
      else if isLowSurrogate c then hexEscape c ++ escapeText rest
      else escapeUnit c ++ escapeText rest

def quoted (s : Text) : Text := quotation :: (escapeText s ++ [quotation])

def digitsText (ds : List ℕ) : Text := ds.map digitUnit

def exponentText (e : ℤ) : Text :=
  lowerE :: (if e < 0 then minus else plus) :: digitsText (if e = 0 then [0] else digits e.natAbs)

def numeralText (t : Numeral) : Text :=
  (if t.negative then [minus] else []) ++ digitsText t.whole ++
    (if t.fraction = [] then [] else point :: digitsText t.fraction) ++
    (t.exponent.map exponentText).getD []

/-- The numeral of a double. -/
def numeralOf (q : ℚ) : Option Numeral :=
  if q = 0 then some ⟨false, [0], [], none⟩
  else (shortest |q|).map fun p => { numeral p.1 p.2 with negative := decide (q < 0) }

def numberText (q : ℚ) : Text := ((numeralOf q).map numeralText).getD []

/-- Texts with commas between them. -/
def commaJoin : List Text → Text
  | [] => []
  | [t] => t
  | t :: ts => t ++ comma :: commaJoin ts

def memberText (name text : Text) : Text := quoted name ++ colon :: text

mutual

def stringify : Json → Text
  | null => ascii "null"
  | bool b => if b then ascii "true" else ascii "false"
  | number q => numberText q
  | infinite _ => ascii "null"
  | string s => quoted s
  | array vs => openBracket :: (commaJoin (stringifyElements vs) ++ [closeBracket])
  | object ms => openBrace :: (commaJoin (stringifyMembers ms) ++ [closeBrace])

def stringifyElements : List Json → List Text
  | [] => []
  | v :: vs => stringify v :: stringifyElements vs

def stringifyMembers : List (Text × Json) → List Text
  | [] => []
  | (name, v) :: ms => memberText name (stringify v) :: stringifyMembers ms

end

/-! ## parsing -/

def skipSpace (t : Text) : Text := t.dropWhile isSpace

/-- The next unit after the space, which has to be `c`. -/
def expect (c : UInt16) (t : Text) : Option Text :=
  match skipSpace t with
  | [] => none
  | d :: rest => if d = c then some rest else none

/-- The text starts with the given word. -/
def literal (word : Text) (v : Json) (t : Text) : Option (Json × Text) :=
  if word <+: t then some (v, t.drop word.length) else none

/-- The unit a one-letter escape stands for. -/
def unescape (c : UInt16) : Option UInt16 :=
  if c = quotation then some quotation
  else if c = backslash then some backslash
  else if c = 0x2F then some 0x2F
  else if c = 0x62 then some 0x08
  else if c = 0x66 then some 0x0C
  else if c = 0x6E then some 0x0A
  else if c = 0x72 then some 0x0D
  else if c = 0x74 then some 0x09
  else none

def hex4 (a b c d : UInt16) : Option UInt16 := do
  let a ← hexValue a
  let b ← hexValue b
  let c ← hexValue c
  let d ← hexValue d
  return UInt16.ofNat (4096 * a + 256 * b + 16 * c + d)

def consUnit (c : UInt16) (p : Text × Text) : Text × Text := (c :: p.1, p.2)

/-- The rest of a string, behind its opening quotation mark. -/
def stringBody : Text → Option (Text × Text)
  | [] => none
  | c :: rest =>
      if c = quotation then some ([], rest)
      else if c = backslash then
        match rest with
        | [] => none
        | e :: rest =>
            if e = lowerU then
              match rest with
              | h₁ :: h₂ :: h₃ :: h₄ :: rest =>
                  (hex4 h₁ h₂ h₃ h₄).bind fun u => (stringBody rest).map (consUnit u)
              | _ => none
            else (unescape e).bind fun u => (stringBody rest).map (consUnit u)
      else if c < 0x20 then none
      else (stringBody rest).map (consUnit c)

/-- A run of digits and what follows it. -/
def spanDigits (t : Text) : List ℕ × Text :=
  ((t.takeWhile isDigit).map digitValue, t.dropWhile isDigit)

def scanSign (t : Text) : Bool × Text :=
  match t with
  | c :: rest => if c = minus then (true, rest) else (false, t)
  | [] => (false, [])

/-- A run of at least one digit. -/
def someDigits (t : Text) : Option (List ℕ × Text) :=
  if (spanDigits t).1 = [] then none else some (spanDigits t)

/-- The whole part: a first digit zero stands alone. -/
def scanWhole (t : Text) : Option (List ℕ × Text) :=
  (someDigits t).filter fun p => p.1.head? ≠ some 0 || p.1.length = 1

def scanFraction (t : Text) : Option (List ℕ × Text) :=
  match t with
  | [] => some ([], [])
  | c :: rest => if c = point then someDigits rest else some ([], t)

def scanExponentSign (t : Text) : Bool × Text :=
  match t with
  | c :: rest => if c = plus then (false, rest) else if c = minus then (true, rest) else (false, t)
  | [] => (false, [])

def scanExponent (t : Text) : Option (Option ℤ × Text) :=
  match t with
  | [] => some (none, [])
  | c :: rest =>
      if c = lowerE || c = upperE then
        (someDigits (scanExponentSign rest).2).map fun p =>
          (some (if (scanExponentSign rest).1 then -(ofDigits p.1 : ℤ) else ofDigits p.1), p.2)
      else some (none, t)

def scanNumeral (t : Text) : Option (Numeral × Text) := do
  let (whole, rest) ← scanWhole (scanSign t).2
  let (fraction, rest) ← scanFraction rest
  let (exponent, rest) ← scanExponent rest
  return (⟨(scanSign t).1, whole, fraction, exponent⟩, rest)

/-- The number a numeral denotes: its magnitude rounded, then its sign. -/
def ofNumeral (t : Numeral) : Json :=
  match toDouble t.magnitude with
  | some q => number (if t.negative then -q else q)
  | none => infinite t.negative

/-- Set a member: in its place if the name is there already, at the end otherwise. -/
def setMember (ms : List (Text × Json)) (m : Text × Json) : List (Text × Json) :=
  if m.1 ∈ ms.map Prod.fst then ms.map fun m' => if m'.1 = m.1 then m else m'
  else ms ++ [m]

mutual

def parseValue : ℕ → Text → Option (Json × Text)
  | 0, _ => none
  | fuel + 1, t =>
      match skipSpace t with
      | [] => none
      | c :: rest =>
          if c = openBrace then
            match expect closeBrace rest with
            | some rest => some (object [], rest)
            | none => (parseMembers fuel rest).map fun p => (object (p.1.foldl setMember []), p.2)
          else if c = openBracket then
            match expect closeBracket rest with
            | some rest => some (array [], rest)
            | none => (parseElements fuel rest).map fun p => (array p.1, p.2)
          else if c = quotation then (stringBody rest).map fun p => (string p.1, p.2)
          else if c = 0x6E then literal (ascii "null") null (c :: rest)
          else if c = 0x74 then literal (ascii "true") (bool true) (c :: rest)
          else if c = 0x66 then literal (ascii "false") (bool false) (c :: rest)
          else (scanNumeral (c :: rest)).map fun p => (ofNumeral p.1, p.2)

def parseElements : ℕ → Text → Option (List Json × Text)
  | 0, _ => none
  | fuel + 1, t => do
      let (v, rest) ← parseValue fuel t
      match expect comma rest with
      | some rest => (parseElements fuel rest).map fun p => (v :: p.1, p.2)
      | none => (expect closeBracket rest).map fun rest => ([v], rest)

def parseMembers : ℕ → Text → Option (List (Text × Json) × Text)
  | 0, _ => none
  | fuel + 1, t => do
      let rest ← expect quotation t
      let (name, rest) ← stringBody rest
      let rest ← expect colon rest
      let (v, rest) ← parseValue fuel rest
      match expect comma rest with
      | some rest => (parseMembers fuel rest).map fun p => ((name, v) :: p.1, p.2)
      | none => (expect closeBrace rest).map fun rest => ([(name, v)], rest)

end

/-- One value with nothing but space around it.  Every level of the parser reads a
unit before it goes one deeper, so the length of the text bounds the depth. -/
def parse (t : Text) : Option Json :=
  match parseValue (2 * t.length + 2) t with
  | none => none
  | some (v, rest) => if skipSpace rest = [] then some v else none

/-! ## strings read back -/

/-- A map of what was read leaves the rest. -/
theorem exists_of_map {p : Option (α × Text)} {f : α × Text → β × Text} {b : β}
    (h : p.map f = some (b, rest)) (hf : ∀ q, (f q).2 = q.2) :
    ∃ a, p = some (a, rest) ∧ (f (a, rest)).1 = b := by
  obtain ⟨⟨a, r⟩, rfl, hq⟩ := Option.map_eq_some_iff.mp h
  obtain rfl : rest = r := by simpa [hq] using hf (a, r)
  exact ⟨a, rfl, by rw [hq]⟩

theorem hexValue_hexUnit : ∀ d < 16, hexValue (hexUnit d) = some d := by decide

theorem stringBody_hex4 {h₁ h₂ h₃ h₄ u : UInt16} (t : Text) (hu : hex4 h₁ h₂ h₃ h₄ = some u) :
    stringBody (backslash :: lowerU :: h₁ :: h₂ :: h₃ :: h₄ :: t) =
      (stringBody t).map (consUnit u) := by
  have hq : backslash ≠ quotation := by decide
  rw [stringBody.eq_def]
  simp [hq, hu]

theorem stringBody_hexEscape (c : UInt16) (t : Text) :
    stringBody (hexEscape c ++ t) = (stringBody t).map (consUnit c) := by
  have hlt : c.toNat < 65536 := c.toNat_lt
  have hunit : hex4 (hexUnit (c.toNat / 4096)) (hexUnit (c.toNat / 256 % 16))
      (hexUnit (c.toNat / 16 % 16)) (hexUnit (c.toNat % 16)) = some c := by
    have hsum : 4096 * (c.toNat / 4096) + 256 * (c.toNat / 256 % 16) + 16 * (c.toNat / 16 % 16) +
        c.toNat % 16 = c.toNat := by omega
    simp only [hex4, hexValue_hexUnit _ (show c.toNat / 4096 < 16 by omega),
      hexValue_hexUnit _ (Nat.mod_lt _ (show 0 < 16 by decide)), Option.bind_eq_bind,
      Option.bind_some, hsum, UInt16.ofNat_toNat, Option.pure_def]
  exact stringBody_hex4 t hunit

@[simp] theorem stringBody_quotation (t : Text) : stringBody (quotation :: t) = some ([], t) := by
  simp [stringBody.eq_def]

/-- A unit that needs no escape is read as itself. -/
theorem stringBody_plain (t : Text) (hq : c ≠ quotation) (hb : c ≠ backslash) (hc : ¬ c < 0x20) :
    stringBody (c :: t) = (stringBody t).map (consUnit c) := by
  rw [stringBody.eq_def]
  simp [hq, hb, hc]

theorem stringBody_letter {e u : UInt16} (t : Text) (he : e ≠ lowerU) (hu : unescape e = some u) :
    stringBody (backslash :: e :: t) = (stringBody t).map (consUnit u) := by
  have hq : backslash ≠ quotation := by decide
  rw [stringBody.eq_def]
  simp [hq, he, hu]

theorem stringBody_escapeUnit (c : UInt16) (t : Text) :
    stringBody (escapeUnit c ++ t) = (stringBody t).map (consUnit c) := by
  unfold escapeUnit
  iterate 7 (split; · subst_vars; exact stringBody_letter t (by decide) rfl)
  split
  · exact stringBody_hexEscape c t
  · exact stringBody_plain t ‹_› ‹_› ‹_›

theorem surrogate_plain (h : isHighSurrogate c = true ∨ isLowSurrogate c = true) :
    c ≠ quotation ∧ c ≠ backslash ∧ ¬ c < 0x20 := by
  simp only [isHighSurrogate, isLowSurrogate, Bool.and_eq_true, decide_eq_true_eq,
    UInt16.le_iff_toNat_le, UInt16.lt_iff_toNat_lt, ← UInt16.toNat_inj, quotation, backslash,
    ne_eq] at h ⊢
  simp at h ⊢
  omega

theorem stringBody_escapeText (s rest : Text) :
    stringBody (escapeText s ++ quotation :: rest) = some (s, rest) := by
  fun_induction escapeText s with
  | case1 => simp
  | case2 c hc => simp [stringBody_hexEscape, consUnit]
  | case3 c hc d rest' hd ih =>
      obtain ⟨h₁, h₂, h₃⟩ := surrogate_plain (.inl hc)
      obtain ⟨h₁', h₂', h₃'⟩ := surrogate_plain (.inr hd)
      rw [List.cons_append, List.cons_append, stringBody_plain _ h₁ h₂ h₃,
        stringBody_plain _ h₁' h₂' h₃', ih]
      rfl
  | case4 c hc d rest' hd ih =>
      rw [List.append_assoc, stringBody_hexEscape, ih]
      rfl
  | case5 c rest' hc hd ih =>
      rw [List.append_assoc, stringBody_hexEscape, ih]
      rfl
  | case6 c rest' hc hd ih =>
      rw [List.append_assoc, stringBody_escapeUnit, ih]
      rfl

/-! ## numbers read back -/

theorem isDigit_digitUnit : ∀ d < 10, isDigit (digitUnit d) = true := by decide

theorem digitValue_digitUnit : ∀ d < 10, digitValue (digitUnit d) = d := by decide

/-- What may stand behind a number: nothing that would go on with it. -/
def Ends (t : Text) : Prop :=
  ∀ c ∈ t.head?, isDigit c = false ∧ c ≠ point ∧ c ≠ lowerE ∧ c ≠ upperE

theorem spanDigits_digitsText (hds : ∀ d ∈ ds, d < 10)
    (ht : ∀ c ∈ t.head?, isDigit c = false) : spanDigits (digitsText ds ++ t) = (ds, t) := by
  induction ds with
  | nil =>
      cases t with
      | nil => rfl
      | cons c t => simp [spanDigits, digitsText, ht c (by simp)]
  | cons d ds ih =>
      have hd := hds d (by simp)
      have hrest := ih fun d' hd' => hds d' (by simp [hd'])
      simp only [spanDigits, digitsText, Prod.mk.injEq] at hrest
      simp [spanDigits, digitsText, isDigit_digitUnit d hd, digitValue_digitUnit d hd, hrest]

theorem someDigits_digitsText (hds : ∀ d ∈ ds, d < 10) (hne : ds ≠ [])
    (ht : ∀ c ∈ t.head?, isDigit c = false) : someDigits (digitsText ds ++ t) = some (ds, t) := by
  simp [someDigits, spanDigits_digitsText hds ht, hne]

theorem scanExponent_exponentText (e : ℤ) (ht : Ends t) :
    scanExponent (exponentText e ++ t) = some (some e, t) := by
  have hsign : scanExponentSign ((if e < 0 then minus else plus) ::
      (digitsText (if e = 0 then [0] else digits e.natAbs) ++ t)) =
        (decide (e < 0), digitsText (if e = 0 then [0] else digits e.natAbs) ++ t) := by
    unfold scanExponentSign
    by_cases he : e < 0 <;> simp [he, minus, plus]
  have hlt : ∀ d ∈ (if e = 0 then [0] else digits e.natAbs), d < 10 := by
    split
    · simp
    · exact fun d hd => digits_lt hd
  have hne : (if e = 0 then [0] else digits e.natAbs) ≠ [] := by
    split
    · simp
    · exact digits_ne_nil (by omega)
  have hval : (if decide (e < 0) = true then
      -(ofDigits (if e = 0 then [0] else digits e.natAbs) : ℤ)
      else ofDigits (if e = 0 then [0] else digits e.natAbs)) = e := by
    by_cases he : e = 0
    · subst he; rfl
    · simp only [if_neg he, ofDigits_digits, decide_eq_true_eq]
      split <;> omega
  simp only [exponentText, List.cons_append, scanExponent]
  rw [if_pos (by simp), hsign, someDigits_digitsText hlt hne fun c hc => (ht c hc).1,
    Option.map_some, hval]

theorem scanFraction_text (hds : ∀ d ∈ ds, d < 10)
    (ht : ∀ c ∈ t.head?, isDigit c = false ∧ c ≠ point) :
    scanFraction ((if ds = [] then [] else point :: digitsText ds) ++ t) = some (ds, t) := by
  by_cases hnil : ds = []
  · subst hnil
    cases t with
    | nil => rfl
    | cons c t => simp [scanFraction, (ht c (by simp)).2]
  · simp only [if_neg hnil, List.cons_append, scanFraction, if_true]
    exact someDigits_digitsText hds hnil fun c hc => (ht c hc).1

theorem scanWhole_digitsText (hds : ∀ d ∈ ds, d < 10) (hne : ds ≠ [])
    (hlead : ∀ d ds', ds = d :: ds' → d = 0 → ds' = [])
    (ht : ∀ c ∈ t.head?, isDigit c = false) : scanWhole (digitsText ds ++ t) = some (ds, t) := by
  rw [scanWhole, someDigits_digitsText hds hne ht, Option.filter_some, if_pos]
  obtain ⟨d, ds, rfl⟩ := List.exists_cons_of_ne_nil hne
  by_cases hd : d = 0
  · simp [hlead d ds rfl hd]
  · simp [hd]

theorem digit_ne_minus (h : isDigit c = true) : c ≠ minus := by
  rintro rfl
  exact absurd h (by decide)

theorem scanSign_text (negative : Bool) (hds : ∀ d ∈ ds, d < 10) (hne : ds ≠ []) (t : Text) :
    scanSign ((if negative then [minus] else []) ++ digitsText ds ++ t) =
      (negative, digitsText ds ++ t) := by
  obtain ⟨d, ds, rfl⟩ := List.exists_cons_of_ne_nil hne
  have hd := digit_ne_minus (isDigit_digitUnit d (hds d (by simp)))
  cases negative <;> simp [scanSign, digitsText, hd]

theorem scanNumeral_numeralText (hn : n.Valid) (ht : Ends t) :
    scanNumeral (numeralText n ++ t) = some (n, t) := by
  obtain ⟨negative, whole, fraction, exponent⟩ := n
  obtain ⟨hne, hlead, hwhole, hfraction⟩ := hn
  -- from the back: the exponent, then what stands before it
  obtain ⟨u, hu, hexponent, hnext⟩ : ∃ u : Text,
      (exponent.map exponentText).getD [] ++ t = u ∧
        scanExponent u = some (exponent, t) ∧
        ∀ c ∈ u.head?, isDigit c = false ∧ c ≠ point := by
    refine ⟨_, rfl, ?_, ?_⟩
    · cases exponent with
      | none =>
          cases t with
          | nil => rfl
          | cons c t =>
              obtain ⟨-, -, h₁, h₂⟩ := ht c (by simp)
              simp [scanExponent, h₁, h₂]
      | some e => exact scanExponent_exponentText e ht
    · cases exponent with
      | none => exact fun c hc => ⟨(ht c hc).1, (ht c hc).2.1⟩
      | some e =>
          intro c hc
          obtain rfl : lowerE = c := by simpa [exponentText] using hc
          decide
  have hfrac := scanFraction_text hfraction hnext
  have hnext' : ∀ c ∈ ((if fraction = [] then [] else point :: digitsText fraction) ++ u).head?,
      isDigit c = false := by
    split
    · exact fun c hc => (hnext c hc).1
    · intro c hc
      obtain rfl : point = c := by simpa using hc
      decide
  have hshape : numeralText ⟨negative, whole, fraction, exponent⟩ ++ t =
      (if negative then [minus] else []) ++ digitsText whole ++
        ((if fraction = [] then [] else point :: digitsText fraction) ++ u) := by
    simp only [numeralText, List.append_assoc, hu]
  rw [hshape, scanNumeral, scanSign_text negative hwhole hne]
  simp [scanWhole_digitsText hwhole hne hlead hnext', hfrac, hexponent]

/-- Every double is printed as a numeral that denotes it. -/
theorem ofNumeral_of_some {q : ℚ} (h : toDouble n.magnitude = some q) :
    ofNumeral n = number (if n.negative then -q else q) := by
  delta ofNumeral
  rw [h]

theorem ofNumeral_of_none (h : toDouble n.magnitude = none) :
    ofNumeral n = infinite n.negative := by
  delta ofNumeral
  rw [h]

theorem exists_numeralOf {q : ℚ} (hq : IsDouble |q|) :
    ∃ n, numeralOf q = some n ∧ n.Valid ∧ ofNumeral n = number q := by
  by_cases h0 : q = 0
  · subst h0
    refine ⟨⟨false, [0], [], none⟩, if_pos rfl, ⟨by simp, by simp, by simp, by simp⟩, ?_⟩
    have hzero : toDouble 0 = some 0 := isDouble_zero
    have hval : Numeral.magnitude ⟨false, [0], [], none⟩ = 0 := by
      rw [Numeral.magnitude, show ofDigits ([0] ++ []) = 0 from rfl, Nat.cast_zero, zero_mul]
    rw [← hval] at hzero
    rw [ofNumeral_of_some hzero, hval]
    rfl
  · obtain ⟨⟨s, e⟩, hp⟩ := exists_shortest (abs_pos.mpr h0) hq
    have hread := shortest_reads hp
    have hs : s ≠ 0 := by
      rintro rfl
      rw [Reads, Nat.cast_zero, zero_mul] at hread
      exact h0 (abs_eq_zero.mp (Option.some.inj (hread.symm.trans isDouble_zero)))
    have hmag : Numeral.magnitude { numeral s e with negative := decide (q < 0) } = s * 10 ^ e :=
      numeral_magnitude hs e
    have hround : toDouble ((s : ℚ) * 10 ^ e) = some |q| := hread
    refine ⟨{ numeral s e with negative := decide (q < 0) }, by simp [numeralOf, h0, hp], ?_, ?_⟩
    · obtain ⟨h₁, h₂, h₃, h₄⟩ := numeral_valid hs e
      exact ⟨h₁, h₂, h₃, h₄⟩
    · rw [← hmag] at hround
      rw [ofNumeral_of_some hround]
      congr 1
      simp only [decide_eq_true_eq]
      split
      · rw [abs_of_neg ‹_›, neg_neg]
      · exact abs_of_nonneg (not_lt.mp ‹_›)

/-! ## values read back -/

/-- The values that have a text of their own: finite numbers that are doubles, and
no object that repeats a name. -/
inductive Printable : Json → Prop
  | null : Printable null
  | bool (b : Bool) : Printable (bool b)
  | number {q : ℚ} (h : IsDouble |q|) : Printable (number q)
  | string (s : Text) : Printable (string s)
  | array {vs : List Json} (h : ∀ v ∈ vs, Printable v) : Printable (array vs)
  | object {ms : List (Text × Json)} (hn : (ms.map Prod.fst).Nodup)
      (h : ∀ m ∈ ms, Printable m.2) : Printable (object ms)

/-- A value's text starts with a unit that is no space and closes nothing. -/
def Starts (t : Text) : Prop :=
  ∃ c t', t = c :: t' ∧ isSpace c = false ∧ c ≠ closeBracket

theorem numeralText_head (hn : n.Valid) :
    ∃ c t, numeralText n = c :: t ∧ (c = minus ∨ isDigit c = true) := by
  obtain ⟨d, ds, hds⟩ := List.exists_cons_of_ne_nil hn.whole_ne_nil
  have hd := isDigit_digitUnit d (hn.whole_lt d (by simp [hds]))
  cases hneg : n.negative with
  | false => simp [numeralText, hneg, hds, digitsText, hd]
  | true => simp [numeralText, hneg]

theorem numeral_unit (h : c = minus ∨ isDigit c = true) :
    isSpace c = false ∧ c ≠ openBrace ∧ c ≠ openBracket ∧ c ≠ quotation ∧ c ≠ 0x6E ∧ c ≠ 0x74 ∧
      c ≠ 0x66 := by
  simp only [isDigit, isSpace, minus, openBrace, openBracket, quotation, Bool.and_eq_true,
    Bool.or_eq_false_iff, decide_eq_true_eq, decide_eq_false_iff_not, UInt16.le_iff_toNat_le,
    ← UInt16.toNat_inj, ne_eq] at h ⊢
  simp at h ⊢
  omega

theorem skipSpace_cons (hc : isSpace c = false) (t : Text) :
    skipSpace (c :: t) = c :: t := by
  simp [skipSpace, hc]

theorem expect_hit (hc : isSpace c = false) (t : Text) :
    expect c (c :: t) = some t := by
  simp [expect, skipSpace_cons hc]

theorem expect_miss {d : UInt16} (hd : isSpace d = false) (h : d ≠ c) (t : Text) :
    expect c (d :: t) = none := by
  simp [expect, skipSpace_cons hd, h]

/-- A numeral is read by the last branch of the parser. -/
theorem parseValue_numeral (hn : n.Valid) (fuel : ℕ) (ht : Ends t) :
    parseValue (fuel + 1) (numeralText n ++ t) = some (ofNumeral n, t) := by
  have hscan := scanNumeral_numeralText hn ht
  obtain ⟨c, u, hc, hhead⟩ := numeralText_head hn
  have hother : isSpace c = false ∧ c ≠ openBrace ∧ c ≠ openBracket ∧ c ≠ quotation ∧
      c ≠ 0x6E ∧ c ≠ 0x74 ∧ c ≠ 0x66 := numeral_unit hhead
  obtain ⟨h₀, h₁, h₂, h₃, h₄, h₅, h₆⟩ := hother
  rw [hc, List.cons_append] at hscan ⊢
  rw [parseValue, skipSpace_cons h₀]
  simp [h₁, h₂, h₃, h₄, h₅, h₆, hscan]

theorem stringify_starts (hv : Printable v) : Starts (stringify v) := by
  cases hv with
  | null => exact ⟨0x6E, ascii "ull", by decide, by decide, by decide⟩
  | bool b => cases b with
      | true => exact ⟨0x74, ascii "rue", by decide, by decide, by decide⟩
      | false => exact ⟨0x66, ascii "alse", by decide, by decide, by decide⟩
  | number h =>
      obtain ⟨n, hn, hvalid, -⟩ := exists_numeralOf h
      obtain ⟨c, u, hc, hhead⟩ := numeralText_head hvalid
      refine ⟨c, u, by simp [stringify, numberText, hn, hc], (numeral_unit hhead).1, ?_⟩
      rintro rfl
      exact absurd hhead (by decide)
  | string s => exact ⟨quotation, _, rfl, by decide, by decide⟩
  | array h => exact ⟨openBracket, _, rfl, by decide, by decide⟩
  | object hn h => exact ⟨openBrace, _, rfl, by decide, by decide⟩

theorem ends_cons (t : Text)
    (hc : isDigit c = false ∧ c ≠ point ∧ c ≠ lowerE ∧ c ≠ upperE) : Ends (c :: t) := by
  simp [Ends, hc]

theorem commaJoin_cons_cons (t u : Text) (ts : List Text) :
    commaJoin (t :: u :: ts) = t ++ comma :: commaJoin (u :: ts) := rfl

/-- The values of an array are read one after another. -/
theorem parseElements_stringify {vs : List Json} (hne : vs ≠ [])
    (ih : ∀ v ∈ vs, ∀ fuel t, (stringify v).length < fuel → Ends t →
      parseValue fuel (stringify v ++ t) = some (v, t)) (fuel : ℕ) (t : Text)
    (hfuel : (commaJoin (stringifyElements vs)).length + 1 < fuel) :
    parseElements fuel (commaJoin (stringifyElements vs) ++ closeBracket :: t) = some (vs, t) := by
  induction vs generalizing fuel with
  | nil => exact absurd rfl hne
  | cons v vs hrest =>
      obtain ⟨fuel, rfl⟩ : ∃ g, fuel = g + 1 := ⟨fuel - 1, by omega⟩
      cases vs with
      | nil =>
          have hv := ih v (by simp) fuel (closeBracket :: t)
            (by simpa [stringifyElements, commaJoin] using hfuel) (ends_cons t (by decide))
          have hcomma := expect_miss (show isSpace closeBracket = false by decide)
            (show closeBracket ≠ comma by decide) t
          have hclose := expect_hit (show isSpace closeBracket = false by decide) t
          simp [parseElements, stringifyElements, commaJoin, hv, hcomma, hclose]
      | cons v' vs =>
          simp only [stringifyElements, commaJoin_cons_cons] at hfuel hrest ⊢
          have hlen : (stringify v).length + ((commaJoin
              (stringify v' :: stringifyElements vs)).length + 1) + 1 < fuel + 1 := by
            simpa using hfuel
          have hv := ih v (by simp) fuel
            (comma :: (commaJoin (stringify v' :: stringifyElements vs) ++ closeBracket :: t))
            (by omega) (ends_cons _ (by decide))
          have hvs := hrest (by simp) (fun u hu => ih u (by simp [hu])) fuel (by omega)
          rw [parseElements, List.append_assoc, List.cons_append, hv]
          simp [expect_hit (show isSpace comma = false by decide), hvs]

/-- A member's name and colon are read, and the parser stands at its value. -/
theorem parseMembers_memberText (fuel : ℕ) (name text t : Text) :
    parseMembers (fuel + 1) (memberText name text ++ t) =
      (parseValue fuel (text ++ t)).bind fun p =>
        match expect comma p.2 with
        | some rest => (parseMembers fuel rest).map fun q => ((name, p.1) :: q.1, q.2)
        | none => (expect closeBrace p.2).map fun rest => ([(name, p.1)], rest) := by
  have hshape : memberText name text ++ t =
      quotation :: (escapeText name ++ quotation :: colon :: (text ++ t)) := by
    simp [memberText, quoted]
  rw [hshape, parseMembers, expect_hit (by decide)]
  simp only [Option.bind_eq_bind, Option.bind_some, stringBody_escapeText]
  rw [expect_hit (by decide), Option.bind_some]

/-- The members of an object are read one after another. -/
theorem parseMembers_stringify (hne : ms ≠ [])
    (ih : ∀ m ∈ ms, ∀ fuel t, (stringify m.2).length < fuel → Ends t →
      parseValue fuel (stringify m.2 ++ t) = some (m.2, t)) (fuel : ℕ) (t : Text)
    (hfuel : (commaJoin (stringifyMembers ms)).length + 1 < fuel) :
    parseMembers fuel (commaJoin (stringifyMembers ms) ++ closeBrace :: t) = some (ms, t) := by
  induction ms generalizing fuel with
  | nil => exact absurd rfl hne
  | cons m ms hrest =>
      obtain ⟨name, v⟩ := m
      obtain ⟨fuel, rfl⟩ : ∃ g, fuel = g + 1 := ⟨fuel - 1, by omega⟩
      cases ms with
      | nil =>
          have hlen : (stringify v).length < fuel := by
            simp only [stringifyMembers, commaJoin, memberText, List.length_append,
              List.length_cons] at hfuel
            omega
          have hv := ih (name, v) (by simp) fuel (closeBrace :: t) hlen (ends_cons t (by decide))
          have hcomma := expect_miss (show isSpace closeBrace = false by decide)
            (show closeBrace ≠ comma by decide) t
          have hclose := expect_hit (show isSpace closeBrace = false by decide) t
          simp only [stringifyMembers, commaJoin]
          rw [parseMembers_memberText, hv]
          simp [hcomma, hclose]
      | cons m' ms =>
          obtain ⟨name', v'⟩ := m'
          simp only [stringifyMembers, commaJoin_cons_cons] at hfuel hrest ⊢
          obtain ⟨hlen, hlen'⟩ : (stringify v).length < fuel ∧
              (commaJoin (memberText name' (stringify v') :: stringifyMembers ms)).length + 1 <
                fuel := by
            simp only [memberText, List.length_append, List.length_cons] at hfuel ⊢
            omega
          have hv := ih (name, v) (by simp) fuel
            (comma :: (commaJoin (memberText name' (stringify v') :: stringifyMembers ms) ++
              closeBrace :: t)) hlen (ends_cons _ (by decide))
          have hms := hrest (by simp) (fun u hu => ih u (by simp [hu])) fuel hlen'
          rw [List.append_assoc, parseMembers_memberText, List.cons_append, hv]
          simp [expect_hit (show isSpace comma = false by decide), hms]

theorem foldl_setMember {acc : List (Text × Json)} (h : ((acc ++ ms).map Prod.fst).Nodup) :
    ms.foldl setMember acc = acc ++ ms := by
  induction ms generalizing acc with
  | nil => simp
  | cons m ms ih =>
      have hfresh : m.1 ∉ acc.map Prod.fst := by
        simp only [List.map_append, List.map_cons, List.nodup_append, List.mem_cons] at h
        exact fun hm => h.2.2 _ hm _ (.inl rfl) rfl
      rw [List.foldl_cons, setMember, if_neg hfresh, ih (by simpa using h)]
      simp

theorem parseValue_word {word : Text} {u : Text} (hword : word = c :: u)
    (hc : c = 0x6E ∧ word = ascii "null" ∧ v = null ∨
      c = 0x74 ∧ word = ascii "true" ∧ v = bool true ∨
      c = 0x66 ∧ word = ascii "false" ∧ v = bool false) (fuel : ℕ) (t : Text) :
    parseValue (fuel + 1) (word ++ t) = some (v, t) := by
  have hlit : literal word v (c :: (u ++ t)) = some (v, t) := by
    rw [← List.cons_append, ← hword]
    simp [literal]
  rw [hword, List.cons_append, parseValue]
  obtain ⟨rfl, hw, rfl⟩ | ⟨rfl, hw, rfl⟩ | ⟨rfl, hw, rfl⟩ := hc <;>
    rw [skipSpace_cons (by decide)] <;> simp only [← hw, hlit] <;> rfl

theorem parseValue_quotation (fuel : ℕ) (t : Text) :
    parseValue (fuel + 1) (quotation :: t) = (stringBody t).map fun p => (string p.1, p.2) := by
  rw [parseValue, skipSpace_cons (by decide)]
  rfl

theorem parseValue_openBracket (h : expect closeBracket t = none) :
    parseValue (fuel + 1) (openBracket :: t) =
      (parseElements fuel t).map fun p => (array p.1, p.2) := by
  rw [parseValue, skipSpace_cons (by decide)]
  simp only [h]
  rfl

theorem parseValue_openBrace (h : expect closeBrace t = none) :
    parseValue (fuel + 1) (openBrace :: t) =
      (parseMembers fuel t).map fun p => (object (p.1.foldl setMember []), p.2) := by
  rw [parseValue, skipSpace_cons (by decide)]
  simp only [h]
  rfl

/-- The text of a printable value reads back as the value, whatever follows. -/
theorem parseValue_stringify (hv : Printable v) (fuel : ℕ) (t : Text)
    (hfuel : (stringify v).length < fuel) (ht : Ends t) :
    parseValue fuel (stringify v ++ t) = some (v, t) := by
  obtain ⟨fuel, rfl⟩ : ∃ g, fuel = g + 1 := ⟨fuel - 1, by omega⟩
  induction hv generalizing fuel t with
  | null => exact parseValue_word (u := ascii "ull") (by decide) (.inl ⟨rfl, rfl, rfl⟩) fuel t
  | bool b =>
      cases b with
      | true =>
          exact parseValue_word (u := ascii "rue") (by decide) (.inr (.inl ⟨rfl, rfl, rfl⟩)) fuel t
      | false =>
          exact parseValue_word (u := ascii "alse") (by decide) (.inr (.inr ⟨rfl, rfl, rfl⟩)) fuel t
  | @number q h =>
      obtain ⟨n, hn, hvalid, hvalue⟩ := exists_numeralOf h
      have htext : stringify (number q) = numeralText n := by simp [stringify, numberText, hn]
      rw [htext, parseValue_numeral hvalid fuel ht, hvalue]
  | string s =>
      have hbody := stringBody_escapeText s t
      simp only [stringify, quoted, List.cons_append, List.append_assoc, List.nil_append]
      rw [parseValue_quotation, hbody, Option.map_some]
  | @array vs h ih =>
      simp only [stringify, List.cons_append, List.append_assoc, List.nil_append]
      cases vs with
      | nil =>
          rw [parseValue, skipSpace_cons (by decide)]
          simp only [stringifyElements, commaJoin, List.nil_append, expect_hit
            (show isSpace closeBracket = false by decide)]
          rfl
      | cons v vs =>
          obtain ⟨c, u, hu, hspace, hclose⟩ := stringify_starts (h v (by simp))
          have hmiss : expect closeBracket (commaJoin (stringifyElements (v :: vs)) ++
              closeBracket :: t) = none := by
            cases vs <;> simp only [stringifyElements, commaJoin, hu, List.cons_append] <;>
              exact expect_miss hspace hclose _
          have hfuel' : (commaJoin (stringifyElements (v :: vs))).length + 1 < fuel := by
            simp only [stringify, List.length_cons, List.length_append, List.length_nil] at hfuel
            omega
          rw [parseValue_openBracket hmiss, parseElements_stringify (by simp) _ fuel t hfuel',
            Option.map_some]
          intro v' hv' g t' hg ht'
          obtain ⟨g, rfl⟩ : ∃ g', g = g' + 1 := ⟨g - 1, by omega⟩
          exact ih v' hv' t' ht' g hg
  | @object ms hn h ih =>
      simp only [stringify, List.cons_append, List.append_assoc, List.nil_append]
      cases ms with
      | nil =>
          rw [parseValue, skipSpace_cons (by decide)]
          simp only [stringifyMembers, commaJoin, List.nil_append, expect_hit
            (show isSpace closeBrace = false by decide)]
          rfl
      | cons m ms =>
          obtain ⟨name, v⟩ := m
          have hmiss : expect closeBrace (commaJoin (stringifyMembers ((name, v) :: ms)) ++
              closeBrace :: t) = none := by
            cases ms <;> simp only [stringifyMembers, commaJoin, memberText, quoted,
              List.cons_append] <;> exact expect_miss (by decide) (by decide) _
          have hfuel' : (commaJoin (stringifyMembers ((name, v) :: ms))).length + 1 < fuel := by
            simp only [stringify, List.length_cons, List.length_append, List.length_nil] at hfuel
            omega
          rw [parseValue_openBrace hmiss, parseMembers_stringify (by simp) _ fuel t hfuel',
            Option.map_some, foldl_setMember (by simpa using hn), List.nil_append]
          intro m' hm' g t' hg ht'
          obtain ⟨g, rfl⟩ : ∃ g', g = g' + 1 := ⟨g - 1, by omega⟩
          exact ih m' hm' t' ht' g hg

/-- What is printed reads back. -/
theorem parse_stringify (hv : Printable v) : parse (stringify v) = some v := by
  have h := parseValue_stringify hv (2 * (stringify v).length + 2) [] (by omega) (by simp [Ends])
  rw [List.append_nil] at h
  simp [parse, h, skipSpace]

/-! ## an object's text is self-delimiting -/

theorem skipSpace_append (h : skipSpace t = c :: rest) (u : Text) :
    skipSpace (t ++ u) = c :: (rest ++ u) := by
  induction t with
  | nil => simp [skipSpace] at h
  | cons d t ih =>
      cases hd : isSpace d with
      | false =>
          rw [skipSpace_cons hd] at h
          rw [List.cons_append, skipSpace_cons hd, ← List.cons_append, h, List.cons_append]
      | true =>
          simp only [skipSpace, List.dropWhile_cons, hd, if_true, List.cons_append] at h ih ⊢
          exact ih h

theorem expect_append (h : expect c t = some rest) (u : Text) :
    expect c (t ++ u) = some (rest ++ u) := by
  unfold expect at h
  split at h
  · exact absurd h (by simp)
  rename_i d rest' hskip
  split at h
  · rename_i hd
    cases h
    simp [expect, skipSpace_append hskip, hd]
  · exact absurd h (by simp)

theorem skipSpace_ne_nil_of_expect (h : expect c t = some rest) :
    skipSpace t ≠ [] := by
  intro hnil
  simp [expect, hnil] at h

/-- A missing unit stays missing where another one stands in its place. -/
theorem expect_append_none (h : expect c t = none) (hne : skipSpace t ≠ [])
    (u : Text) : expect c (t ++ u) = none := by
  obtain ⟨d, rest, hskip⟩ := List.exists_cons_of_ne_nil hne
  simp only [expect, hskip] at h
  simp only [expect, skipSpace_append hskip]
  split at h
  · exact absurd h (by simp)
  · simp [*]

theorem stringBody_append {s : Text} (h : stringBody t = some (s, rest)) (u : Text) :
    stringBody (t ++ u) = some (s, rest ++ u) := by
  -- each unit of the string is read the same way in the longer text
  have hcons : ∀ {t' t'' : Text} {c : UInt16} {s' : Text},
      stringBody (t'' ++ u) = (stringBody (t' ++ u)).map (consUnit c) →
      (∀ {s}, stringBody t' = some (s, rest) → stringBody (t' ++ u) = some (s, rest ++ u)) →
      (stringBody t').map (consUnit c) = some (s', rest) →
      stringBody (t'' ++ u) = some (s', rest ++ u) := by
    intro t' t'' c s' heq ih hmap
    obtain ⟨⟨s, r⟩, hs, hpair⟩ := Option.map_eq_some_iff.mp hmap
    obtain ⟨rfl, rfl⟩ : c :: s = s' ∧ r = rest := Prod.mk.inj hpair
    rw [heq, ih hs]
    rfl
  fun_induction stringBody t generalizing s with
  | case1 => exact absurd h (by simp)
  | case2 rest' =>
      cases h
      exact stringBody_quotation _
  | case3 => exact absurd h (by simp)
  | case4 h₁ h₂ h₃ h₄ rest' hq ih =>
      obtain ⟨c, hc, hmap⟩ := Option.bind_eq_some_iff.mp h
      exact hcons (stringBody_hex4 (rest' ++ u) hc) ih hmap
  | case5 => exact absurd h (by simp)
  | case6 e rest' he hq ih =>
      obtain ⟨c, hc, hmap⟩ := Option.bind_eq_some_iff.mp h
      exact hcons (stringBody_letter (rest' ++ u) he hc) ih hmap
  | case7 => exact absurd h (by simp)
  | case8 c rest' hq hb hc ih => exact hcons (stringBody_plain (rest' ++ u) hq hb hc) ih h

theorem literal_append {word : Text} {w : Json} (h : literal word v t = some (w, rest)) (u : Text) :
    literal word v (t ++ u) = some (w, rest ++ u) := by
  unfold literal at h ⊢
  split at h
  · rename_i hword
    cases h
    rw [if_pos (hword.trans (List.prefix_append t u)),
      List.drop_append_of_le_length hword.length_le]
  · exact absurd h (by simp)

/-- A run of digits that stops before the end of the text stops there in every
longer text. -/
theorem someDigits_append (h : someDigits t = some (ds, rest)) (hne : rest ≠ [])
    (u : Text) : someDigits (t ++ u) = some (ds, rest ++ u) := by
  have hspan : spanDigits t = (ds, rest) := by
    unfold someDigits at h
    split at h
    · exact absurd h (by simp)
    · exact Option.some.inj h
  have hds : ds ≠ [] := by
    rintro rfl
    simp [someDigits, hspan] at h
  have hlonger : spanDigits (t ++ u) = (ds, rest ++ u) := by
    obtain ⟨rfl, rfl⟩ := Prod.mk.inj hspan
    have hlen : (t.takeWhile isDigit).length ≠ t.length := by
      intro hlen
      have hcount := congrArg List.length (List.takeWhile_append_dropWhile (p := isDigit) (l := t))
      rw [List.length_append] at hcount
      exact hne (List.length_eq_zero_iff.mp (by omega))
    simp only [spanDigits, List.takeWhile_append, List.dropWhile_append]
    rw [if_neg hlen, if_neg (by simpa using hne)]
  simp [someDigits, hlonger, hds]

theorem scanWhole_append (h : scanWhole t = some (ds, rest)) (hne : rest ≠ [])
    (u : Text) : scanWhole (t ++ u) = some (ds, rest ++ u) := by
  obtain ⟨hsome, hlead⟩ := Option.filter_eq_some_iff.mp h
  rw [scanWhole, someDigits_append hsome hne u, Option.filter_some, if_pos hlead]

theorem scanFraction_append (h : scanFraction t = some (ds, rest)) (hne : rest ≠ []) (u : Text) :
    t ≠ [] ∧ scanFraction (t ++ u) = some (ds, rest ++ u) := by
  cases t with
  | nil => exact absurd (Prod.mk.inj (Option.some.inj h)).2.symm hne
  | cons c t =>
      refine ⟨by simp, ?_⟩
      simp only [scanFraction, List.cons_append] at h ⊢
      split at h
      · rename_i hc
        rw [if_pos hc]
        exact someDigits_append h hne u
      · rename_i hc
        cases h
        rw [if_neg hc, List.cons_append]

theorem scanExponent_append {e : Option ℤ} (h : scanExponent t = some (e, rest)) (hne : rest ≠ [])
    (u : Text) : t ≠ [] ∧ scanExponent (t ++ u) = some (e, rest ++ u) := by
  cases t with
  | nil => exact absurd (Prod.mk.inj (Option.some.inj h)).2.symm hne
  | cons c t =>
      refine ⟨by simp, ?_⟩
      simp only [scanExponent, List.cons_append] at h ⊢
      split at h
      · rename_i hc
        rw [if_pos hc]
        obtain ⟨ds, hds, rfl⟩ := exists_of_map h fun _ => rfl
        have hsign : scanExponentSign (t ++ u) =
            ((scanExponentSign t).1, (scanExponentSign t).2 ++ u) := by
          cases t with
          | nil => simp [scanExponentSign, someDigits, spanDigits] at hds
          | cons d t => simp only [scanExponentSign, List.cons_append]; split_ifs <;> rfl
        rw [hsign]
        simp only [someDigits_append hds hne u, Option.map_some]
      · rename_i hc
        cases h
        rw [if_neg hc, List.cons_append]

theorem scanNumeral_append (h : scanNumeral t = some (n, rest)) (hne : rest ≠ [])
    (u : Text) : scanNumeral (t ++ u) = some (n, rest ++ u) := by
  simp only [scanNumeral, Option.bind_eq_bind, Option.bind_eq_some_iff, Option.pure_def,
    Option.some.injEq, Prod.mk.injEq, Prod.exists] at h
  obtain ⟨whole, r₁, hwhole, fraction, r₂, hfraction, exponent, r₃, hexponent, rfl, rfl⟩ := h
  obtain ⟨hne₂, hexponent'⟩ := scanExponent_append hexponent hne u
  obtain ⟨hne₁, hfraction'⟩ := scanFraction_append hfraction hne₂ u
  have hsign : scanSign (t ++ u) = ((scanSign t).1, (scanSign t).2 ++ u) := by
    cases t with
    | nil => simp [scanSign, scanWhole, someDigits, spanDigits] at hwhole
    | cons d t => simp only [scanSign, List.cons_append]; split_ifs <;> rfl
  simp [scanNumeral, hsign, scanWhole_append hwhole hne₁ u, hfraction', hexponent']

/-- A number ends where the text goes on differently; every other value ends with
its own last unit. -/
def isNumber : Json → Bool
  | number _ => true
  | infinite _ => true
  | _ => false

theorem isNumber_ofNumeral (n : Numeral) : isNumber (ofNumeral n) = true := by
  cases h : toDouble n.magnitude with
  | none => rw [ofNumeral_of_none h, isNumber]
  | some q => rw [ofNumeral_of_some h, isNumber]

theorem skipSpace_ne_nil_of_parseValue
    (h : parseValue fuel t = some (v, rest)) : skipSpace t ≠ [] := by
  intro hnil
  cases fuel with
  | zero => simp [parseValue] at h
  | succ fuel => simp [parseValue, hnil] at h

/-- With more fuel and more text behind it, a value is read the same way. -/
def ValueExtends (fuel : ℕ) : Prop :=
  ∀ ⦃t v rest⦄, parseValue fuel t = some (v, rest) → rest ≠ [] ∨ isNumber v = false →
    ∀ ⦃fuel'⦄, fuel ≤ fuel' → ∀ u, parseValue fuel' (t ++ u) = some (v, rest ++ u)

def ElementsExtend (fuel : ℕ) : Prop :=
  ∀ ⦃t vs rest⦄, parseElements fuel t = some (vs, rest) →
    ∀ ⦃fuel'⦄, fuel ≤ fuel' → ∀ u, parseElements fuel' (t ++ u) = some (vs, rest ++ u)

def MembersExtend (fuel : ℕ) : Prop :=
  ∀ ⦃t ms rest⦄, parseMembers fuel t = some (ms, rest) →
    ∀ ⦃fuel'⦄, fuel ≤ fuel' → ∀ u, parseMembers fuel' (t ++ u) = some (ms, rest ++ u)

theorem skipSpace_ne_nil_of_parseElements {vs : List Json}
    (h : parseElements fuel t = some (vs, rest)) : skipSpace t ≠ [] := by
  cases fuel with
  | zero => simp [parseElements] at h
  | succ fuel =>
      rw [parseElements, Option.bind_eq_bind] at h
      obtain ⟨⟨v, r⟩, hv, -⟩ := Option.bind_eq_some_iff.mp h
      exact skipSpace_ne_nil_of_parseValue hv

theorem skipSpace_ne_nil_of_parseMembers
    (h : parseMembers fuel t = some (ms, rest)) : skipSpace t ≠ [] := by
  cases fuel with
  | zero => simp [parseMembers] at h
  | succ fuel =>
      rw [parseMembers, Option.bind_eq_bind] at h
      obtain ⟨r, hr, -⟩ := Option.bind_eq_some_iff.mp h
      exact skipSpace_ne_nil_of_expect hr

theorem valueExtends_succ (ihElements : ElementsExtend fuel)
    (ihMembers : MembersExtend fuel) : ValueExtends (fuel + 1) := by
  intro t v rest h hend fuel' hle u
  obtain ⟨fuel', rfl⟩ : ∃ g, fuel' = g + 1 := ⟨fuel' - 1, by omega⟩
  have hle : fuel ≤ fuel' := by omega
  rw [parseValue] at h
  split at h
  · exact absurd h (by simp)
  rename_i c r hskip
  rw [parseValue, skipSpace_append hskip]
  simp only
  split at h
  · rw [if_pos ‹_›]
    split at h
    · rename_i r' hclose
      cases h
      rw [expect_append hclose u]
    · rename_i hclose
      obtain ⟨ms, hms, rfl⟩ := exists_of_map h fun _ => rfl
      rw [expect_append_none hclose (skipSpace_ne_nil_of_parseMembers hms) u]
      simp [ihMembers hms hle u]
  rw [if_neg ‹_›]
  split at h
  · rw [if_pos ‹_›]
    split at h
    · rename_i r' hclose
      cases h
      rw [expect_append hclose u]
    · rename_i hclose
      obtain ⟨vs, hvs, rfl⟩ := exists_of_map h fun _ => rfl
      rw [expect_append_none hclose (skipSpace_ne_nil_of_parseElements hvs) u]
      simp [ihElements hvs hle u]
  rw [if_neg ‹_›]
  split at h
  · rw [if_pos ‹_›]
    obtain ⟨s, hs, rfl⟩ := exists_of_map h fun _ => rfl
    simp [stringBody_append hs u]
  rw [if_neg ‹_›]
  iterate 3
    split at h
    · rw [if_pos ‹_›]
      exact literal_append h u
    rw [if_neg ‹_›]
  obtain ⟨n, hn, rfl⟩ := exists_of_map h fun _ => rfl
  have hne := hend.resolve_right (by simp [isNumber_ofNumeral])
  rw [← List.cons_append, scanNumeral_append hn hne u, Option.map_some]

/-- Behind an element stand a comma and the others, or the end. -/
theorem continued_append {α : Type} {close : UInt16} {a : α} {as : List α} {u : Text}
    {more more' : Text → Option (List α × Text)}
    (hmore : ∀ {t as rest}, more t = some (as, rest) → more' (t ++ u) = some (as, rest ++ u))
    (h : (match expect comma t with
      | some rest => (more rest).map fun p => (a :: p.1, p.2)
      | none => (expect close t).map fun rest => ([a], rest)) = some (as, rest)) :
    t ≠ [] ∧ (match expect comma (t ++ u) with
      | some rest => (more' rest).map fun p => (a :: p.1, p.2)
      | none => (expect close (t ++ u)).map fun rest => ([a], rest)) = some (as, rest ++ u) := by
  split at h
  · next hcomma =>
    refine ⟨by rintro rfl; simp [expect, skipSpace] at hcomma, ?_⟩
    obtain ⟨as', has, rfl⟩ := exists_of_map h fun _ => rfl
    simp [expect_append hcomma u, hmore has]
  · next hcomma =>
    obtain ⟨r, hclose, hpair⟩ := Option.map_eq_some_iff.mp h
    obtain ⟨rfl, rfl⟩ := Prod.mk.inj hpair
    refine ⟨by rintro rfl; simp [expect, skipSpace] at hclose, ?_⟩
    simp [expect_append hclose u,
      expect_append_none hcomma (skipSpace_ne_nil_of_expect hclose) u]

theorem elementsExtend_succ (ihValue : ValueExtends fuel)
    (ihElements : ElementsExtend fuel) : ElementsExtend (fuel + 1) := by
  intro t vs rest h fuel' hle u
  obtain ⟨fuel', rfl⟩ : ∃ g, fuel' = g + 1 := ⟨fuel' - 1, by omega⟩
  have hle : fuel ≤ fuel' := by omega
  rw [parseElements, Option.bind_eq_bind] at h
  obtain ⟨⟨v, r⟩, hv, hrest⟩ := Option.bind_eq_some_iff.mp h
  obtain ⟨hne, htail⟩ := continued_append (fun h => ihElements h hle u) hrest
  rw [parseElements, ihValue hv (.inl hne) hle u]
  exact htail

theorem membersExtend_succ (ihValue : ValueExtends fuel)
    (ihMembers : MembersExtend fuel) : MembersExtend (fuel + 1) := by
  intro t ms rest h fuel' hle u
  obtain ⟨fuel', rfl⟩ : ∃ g, fuel' = g + 1 := ⟨fuel' - 1, by omega⟩
  have hle : fuel ≤ fuel' := by omega
  simp only [parseMembers, Option.bind_eq_bind] at h ⊢
  obtain ⟨r₁, hquote, h⟩ := Option.bind_eq_some_iff.mp h
  obtain ⟨⟨name, r₂⟩, hname, h⟩ := Option.bind_eq_some_iff.mp h
  obtain ⟨r₃, hcolon, h⟩ := Option.bind_eq_some_iff.mp h
  obtain ⟨⟨v, r⟩, hv, hrest⟩ := Option.bind_eq_some_iff.mp h
  obtain ⟨hne, htail⟩ := continued_append (fun h => ihMembers h hle u) hrest
  simp only [expect_append hquote u, Option.bind_some, stringBody_append hname u,
    expect_append hcolon u, ihValue hv (.inl hne) hle u]
  exact htail

theorem parse_extends (fuel : ℕ) :
    ValueExtends fuel ∧ ElementsExtend fuel ∧ MembersExtend fuel := by
  induction fuel with
  | zero => simp [ValueExtends, ElementsExtend, MembersExtend, parseValue, parseElements,
      parseMembers]
  | succ fuel ih =>
      obtain ⟨ihValue, ihElements, ihMembers⟩ := ih
      exact ⟨valueExtends_succ ihElements ihMembers, elementsExtend_succ ihValue ihElements,
        membersExtend_succ ihValue ihMembers⟩

end Json

end Lib
