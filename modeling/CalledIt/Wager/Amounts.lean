import CalledIt.Engine.Compile
import CalledIt.Lib.Texts
import CalledIt.Wager.Solvency
import Mathlib.Data.List.DropRight

/-!
# CalledIt.Wager.Amounts

Amounts of an asset as they are shown and typed (`market-engine/src/assets.ts`).

An amount counts the smallest units of an asset.  It is shown in tokens, without the zeros
behind the last digit that counts, and what is typed is read with as many decimals as the
asset has and no more.  So an amount that is shown is read back, and no amount that is read
was rounded (`amount_text_round_trip`).
-/

namespace CalledIt.Wager

open Lib
open Engine (trim isTrimmed)

def WagerAsset.decimals : WagerAsset → Nat
  | sol => 9
  | usdc => 6

def WagerAsset.atomicUnitsPerToken : WagerAsset → Nat
  | sol => 1000000000
  | usdc => 1000000

def padStart (n : Nat) (cs : List Char) : List Char := List.replicate (n - cs.length) '0' ++ cs

def padEnd (n : Nat) (cs : List Char) : List Char := cs ++ List.replicate (n - cs.length) '0'

def formatAtomicAmount (amountAtomic : Int) (asset : WagerAsset) : String :=
  let magnitude := amountAtomic.natAbs
  let whole := magnitude / asset.atomicUnitsPerToken
  let fraction := magnitude % asset.atomicUnitsPerToken
  let fractionText := (padStart asset.decimals (Nat.toDigits 10 fraction)).rdropWhile (· = '0')
  let body :=
    if fractionText = [] then toString whole
    else toString whole ++ "." ++ String.ofList fractionText
  if amountAtomic < 0 then "-" ++ body else body

/-- `/^(?:0|[1-9]\d*)(?:\.(\d+))?$/`, with what the group holds.  The digits in front end at the
point or at the end of the text. -/
def amountPattern (cs : List Char) : Option (List Char) :=
  let whole := cs.takeWhile Char.isDigit
  if whole = ['0'] ∨ whole ≠ [] ∧ whole.head? ≠ some '0' then
    match cs.dropWhile Char.isDigit with
    | [] => some []
    | c :: fraction =>
        if c = '.' ∧ fraction ≠ [] ∧ fraction.all Char.isDigit then some fraction else none
  else none

def bigInt (digits : List Char) : Nat := Nat.ofDigitChars 10 digits 0

def parseAtomicAmount (value : String) (asset : WagerAsset) : Option Int :=
  match amountPattern (trim value.toList) with
  | none => none
  | some fraction =>
      if asset.decimals < fraction.length then none
      else
        let whole := (trim value.toList).takeWhile (· ≠ '.')
        let padded := padEnd asset.decimals fraction
        some (bigInt whole * asset.atomicUnitsPerToken +
          bigInt (if padded = [] then ['0'] else padded))

/-! ## the texts that are read -/

/-- `0`, or digits of which the first is not zero. -/
def WholeText (whole : List Char) : Prop :=
  (whole = ['0'] ∨ whole ≠ [] ∧ whole.head? ≠ some '0') ∧ ∀ c ∈ whole, c.isDigit

/-- A whole number, and behind a point at least one digit and no more than the decimals. -/
inductive AmountText (decimals : Nat) : List Char → List Char → List Char → Prop
  | whole {whole : List Char} (h : WholeText whole) : AmountText decimals whole whole []
  | point {whole fraction : List Char} (h : WholeText whole) (hne : fraction ≠ [])
      (hdigits : ∀ c ∈ fraction, c.isDigit) (hshort : fraction.length ≤ decimals) :
      AmountText decimals (whole ++ '.' :: fraction) whole fraction

/-- What is written, in tokens. -/
def writtenValue (whole fraction : List Char) : ℚ :=
  bigInt whole + bigInt fraction / 10 ^ fraction.length

variable {decimals : Nat} {cs whole fraction : List Char} {asset : WagerAsset} {value : String}

theorem AmountText.wholeText (h : AmountText decimals cs whole fraction) : WholeText whole := by
  cases h with
  | whole h => exact h
  | point h => exact h

theorem AmountText.short (h : AmountText decimals cs whole fraction) :
    fraction.length ≤ decimals := by
  cases h with
  | whole h => exact Nat.zero_le _
  | point h hne hdigits hshort => exact hshort

/-- The whole number ends where the text or its digits do. -/
theorem AmountText.takes (h : AmountText decimals cs whole fraction) {p : Char → Bool}
    (hdigit : ∀ c, c.isDigit → p c) (hpoint : p '.' = false) :
    cs.takeWhile p = whole ∧ cs.dropWhile p = if fraction = [] then [] else '.' :: fraction := by
  have hwhole : ∀ c ∈ whole, p c := fun c hc => hdigit c (h.wholeText.2 c hc)
  cases h with
  | whole h =>
      exact ⟨List.takeWhile_eq_self_iff.mpr hwhole, by simpa [List.dropWhile_eq_nil_iff] using hwhole⟩
  | point h hne hdigits hshort =>
      rw [List.takeWhile_append_of_pos hwhole, List.dropWhile_append_of_pos hwhole]
      simp [hpoint, hne]

theorem AmountText.pattern (h : AmountText decimals cs whole fraction) :
    amountPattern cs = some fraction := by
  obtain ⟨htake, hdrop⟩ := h.takes (p := Char.isDigit) (fun _ h => h) rfl
  rw [amountPattern, htake, hdrop, if_pos h.wholeText.1]
  cases h with
  | whole h => rfl
  | point h hne hdigits hshort => simp [hne, List.all_eq_true.mpr hdigits]

theorem amountText_of_pattern (h : amountPattern cs = some fraction)
    (hshort : fraction.length ≤ decimals) : ∃ whole, AmountText decimals cs whole fraction := by
  rw [amountPattern, Option.ite_none_right_eq_some] at h
  obtain ⟨hwhole, h⟩ := h
  have htext : WholeText (cs.takeWhile Char.isDigit) :=
    ⟨hwhole, fun c hc => List.mem_takeWhile_imp hc⟩
  have hcs := List.takeWhile_append_dropWhile (p := Char.isDigit) (l := cs)
  split at h
  · next hrest =>
    obtain rfl := Option.some.inj h
    rw [hrest, List.append_nil] at hcs
    exact ⟨cs, .whole (hcs ▸ htext)⟩
  · next c rest hrest =>
    rw [Option.ite_none_right_eq_some, Option.some.injEq] at h
    obtain ⟨⟨rfl, hne, hdigits⟩, rfl⟩ := h
    rw [← hcs, hrest]
    exact ⟨_, .point htext hne (List.all_eq_true.mp hdigits) hshort⟩

theorem atomicUnitsPerToken_eq : asset.atomicUnitsPerToken = 10 ^ asset.decimals := by
  cases asset <;> rfl

theorem length_padEnd (h : cs.length ≤ decimals) : (padEnd decimals cs).length = decimals := by
  rw [padEnd, List.length_append, List.length_replicate]
  omega

theorem bigInt_padEnd : bigInt (padEnd decimals cs) = 10 ^ (decimals - cs.length) * bigInt cs := by
  rw [bigInt, padEnd, Nat.ofDigitChars_append, Nat.ofDigitChars_replicate_zero, bigInt]

/-- What is read off a text of the grammar. -/
theorem AmountText.parse (h : AmountText asset.decimals (trim value.toList) whole fraction) :
    parseAtomicAmount value asset = some ((bigInt whole * asset.atomicUnitsPerToken +
      bigInt (padEnd asset.decimals fraction) : Nat) : Int) := by
  have hpadded : padEnd asset.decimals fraction ≠ [] := by
    rw [← List.length_pos_iff, length_padEnd h.short]
    cases asset <;> decide
  have hwhole := (h.takes (p := (· ≠ '.')) (fun c hc => by
    simpa using fun hpoint => absurd (hpoint ▸ hc) (by decide)) (by simp)).1
  rw [parseAtomicAmount, h.pattern]
  simp only [Nat.not_lt.mpr h.short, if_false, hwhole, if_neg hpadded]
  rfl

theorem exists_amountText {read : Int} (h : parseAtomicAmount value asset = some read) :
    ∃ whole fraction, AmountText asset.decimals (trim value.toList) whole fraction := by
  rw [parseAtomicAmount] at h
  split at h
  · cases h
  · next fraction hpattern =>
    rw [Option.ite_none_left_eq_some] at h
    obtain ⟨whole, htext⟩ := amountText_of_pattern hpattern (Nat.not_lt.mp h.1)
    exact ⟨whole, fraction, htext⟩

/-- No decimal is lost. -/
theorem AmountText.read_eq (h : AmountText asset.decimals cs whole fraction) :
    ((bigInt whole * asset.atomicUnitsPerToken + bigInt (padEnd asset.decimals fraction) : Nat) :
      ℚ) = writtenValue whole fraction * 10 ^ asset.decimals := by
  have hpow : (10 : ℚ) ^ asset.decimals =
      10 ^ (asset.decimals - fraction.length) * 10 ^ fraction.length := by
    rw [← pow_add, Nat.sub_add_cancel h.short]
  rw [bigInt_padEnd, atomicUnitsPerToken_eq, writtenValue]
  push_cast
  rw [add_mul, hpow]
  field_simp

/-! ## the texts that are shown -/

theorem trim_eq_self (h : ∀ c ∈ cs, isTrimmed c = false) : trim cs = cs := by
  have hkeeps : ∀ {cs : List Char}, (∀ c ∈ cs, isTrimmed c = false) →
      cs.dropWhile isTrimmed = cs := by
    intro cs h
    cases cs with
    | nil => rfl
    | cons c cs => rw [List.dropWhile_cons_of_neg (by simp [h c List.mem_cons_self])]
  rw [trim, hkeeps h, hkeeps fun c hc => h c (List.mem_reverse.mp hc), List.reverse_reverse]

theorem isTrimmed_digit {c : Char} (h : c.isDigit) : isTrimmed c = false := by
  have hrange : 48 ≤ c.toNat ∧ c.toNat ≤ 57 := Char.isDigit_iff_toNat.mp h
  simp [isTrimmed]
  omega

/-- A text of the grammar has no space around it. -/
theorem AmountText.trim_eq (h : AmountText decimals cs whole fraction) : trim cs = cs := by
  have hwhole := h.wholeText.2
  apply trim_eq_self
  cases h with
  | whole h => exact fun c hc => isTrimmed_digit (hwhole c hc)
  | point h hne hdigits hshort =>
      intro c hc
      rcases List.mem_append.mp hc with hc | hc
      · exact isTrimmed_digit (hwhole c hc)
      · rcases List.mem_cons.mp hc with rfl | hc
        · rfl
        · exact isTrimmed_digit (hdigits c hc)

theorem head_toDigits {n : Nat} (hn : 0 < n) : (Nat.toDigits 10 n).head? ≠ some '0' := by
  induction n using Nat.strongRecOn with
  | ind n ih =>
      by_cases hsmall : n < 10
      · have hall : ∀ n < 10, 0 < n → [n.digitChar].head? ≠ some '0' := by decide
        rw [Nat.toDigits_of_lt_base hsmall]
        exact hall n hsmall hn
      · rw [Nat.toDigits_of_base_le (by decide) (Nat.not_lt.mp hsmall),
          List.head?_append_of_ne_nil _ Nat.toDigits_ne_nil]
        exact ih (n / 10) (Nat.div_lt_self hn (by decide)) (by omega)

theorem wholeText_toDigits (n : Nat) : WholeText (Nat.toDigits 10 n) := by
  refine ⟨?_, fun c hc => mem_toDigits_isDigit hc⟩
  rcases Nat.eq_zero_or_pos n with rfl | hn
  · exact .inl rfl
  · exact .inr ⟨Nat.toDigits_ne_nil, head_toDigits hn⟩

/-- The zeros behind the last digit that counts are put back. -/
theorem padEnd_rdropWhile (cs : List Char) :
    padEnd cs.length (cs.rdropWhile (· = '0')) = cs := by
  induction cs using List.reverseRecOn with
  | nil => rfl
  | append_singleton cs c ih =>
      by_cases hc : c = '0'
      · have hle := (List.rdropWhile_prefix (· = '0') (l := cs)).length_le
        rw [List.rdropWhile_concat_pos _ _ _ (by simpa using hc), padEnd, List.length_append,
          List.length_singleton, Nat.sub_add_comm hle, List.replicate_succ', ← List.append_assoc,
          ← padEnd, ih, hc]
      · rw [List.rdropWhile_concat_neg _ _ _ (by simpa using hc), padEnd]
        simp

/-- The digits behind the point, which are written without their last zeros. -/
theorem fractionText_spec {n : Nat} (hn : n < 10 ^ decimals) (hdecimals : 0 < decimals)
    (h : fraction = (padStart decimals (Nat.toDigits 10 n)).rdropWhile (· = '0')) :
    fraction.length ≤ decimals ∧ (∀ c ∈ fraction, c.isDigit) ∧
      bigInt (padEnd decimals fraction) = n := by
  have hshort := (Nat.length_toDigits_le_iff (by decide) hdecimals).mpr hn
  have hlength : (padStart decimals (Nat.toDigits 10 n)).length = decimals := by
    rw [padStart, List.length_append, List.length_replicate]
    omega
  have hfront : fraction <+: padStart decimals (Nat.toDigits 10 n) :=
    h ▸ List.rdropWhile_prefix _ _
  have hpadded := padEnd_rdropWhile (padStart decimals (Nat.toDigits 10 n))
  rw [hlength, ← h] at hpadded
  refine ⟨hlength ▸ hfront.length_le, fun c hc => ?_, ?_⟩
  · rcases List.mem_append.mp (hfront.subset hc) with hc | hc
    · rw [(List.mem_replicate.mp hc).2]
      rfl
    · exact mem_toDigits_isDigit hc
  · rw [hpadded, bigInt, padStart, Nat.ofDigitChars_append, Nat.ofDigitChars_replicate_zero,
      Nat.mul_zero, Nat.ofDigitChars_toDigits (by decide) (by decide)]

theorem formatted (amount : Nat) (asset : WagerAsset) :
    ∃ fraction, AmountText asset.decimals (formatAtomicAmount amount asset).toList
        (Nat.toDigits 10 (amount / asset.atomicUnitsPerToken)) fraction ∧
      bigInt (padEnd asset.decimals fraction) = amount % asset.atomicUnitsPerToken := by
  have hless : amount % asset.atomicUnitsPerToken < 10 ^ asset.decimals := by
    rw [← atomicUnitsPerToken_eq]
    exact Nat.mod_lt _ (by cases asset <;> decide)
  obtain ⟨hshort, hdigits, hvalue⟩ := fractionText_spec hless (by cases asset <;> decide) rfl
  refine ⟨_, ?_, hvalue⟩
  rw [formatAtomicAmount, if_neg (by omega), Int.natAbs_natCast]
  split
  · next hnil =>
    rw [hnil]
    simpa using .whole (wholeText_toDigits _)
  · next hne => simpa using .point (wholeText_toDigits _) hne hdigits hshort

/-- What is shown is read back, and what is read are the texts of the grammar, each as what it
writes. -/
theorem amount_text_round_trip (amount : Nat) (value : String) (asset : WagerAsset) :
    parseAtomicAmount (formatAtomicAmount amount asset) asset = some (amount : Int) ∧
      ((parseAtomicAmount value asset).isSome ↔
        ∃ whole fraction, AmountText asset.decimals (trim value.toList) whole fraction) ∧
      ∀ whole fraction, AmountText asset.decimals (trim value.toList) whole fraction →
        ∃ read, parseAtomicAmount value asset = some read ∧
          (read : ℚ) = writtenValue whole fraction * 10 ^ asset.decimals := by
  refine ⟨?_, ⟨fun h => ?_, fun ⟨whole, fraction, h⟩ => ?_⟩, fun whole fraction h => ?_⟩
  · obtain ⟨fraction, htext, hfraction⟩ := formatted amount asset
    rw [← htext.trim_eq] at htext
    rw [htext.parse, hfraction, bigInt, Nat.ofDigitChars_toDigits (by decide) (by decide),
      Nat.div_add_mod']
  · obtain ⟨read, hread⟩ := Option.isSome_iff_exists.mp h
    exact exists_amountText hread
  · rw [h.parse, Option.isSome_some]
  · exact ⟨_, h.parse, by rw [Int.cast_natCast, h.read_eq]⟩

theorem amount_text_round_trip_typed :
    parseAtomicAmount (formatAtomicAmount 1500000 .usdc) .usdc = some 1500000 ∧
      ∃ read, parseAtomicAmount " 1.50 " .usdc = some read ∧
        (read : ℚ) = writtenValue ['1'] ['5', '0'] * 10 ^ 6 := by
  have hwhole : WholeText ['1'] := ⟨.inr ⟨by decide, by decide⟩, List.all_eq_true.mp rfl⟩
  have htext : AmountText 6 (['1'] ++ '.' :: ['5', '0']) ['1'] ['5', '0'] :=
    .point hwhole (by decide) (List.all_eq_true.mp rfl) (by decide)
  exact ⟨(amount_text_round_trip 1500000 "" .usdc).1,
    (amount_text_round_trip 0 " 1.50 " .usdc).2.2 _ _ htext⟩

end CalledIt.Wager
