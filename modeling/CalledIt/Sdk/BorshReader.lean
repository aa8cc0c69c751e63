import CalledIt.Lib.Base58
import CalledIt.Escrow.Layout
import CalledIt.Sdk.Encoders
import CalledIt.Sdk.MathReference

/-!
# CalledIt.Sdk.BorshReader

The client's Borsh reader (`escrow-sdk/src/borsh.ts`).

The bytes that are left are the state of the reader.  A JavaScript `bigint` or integer
`number` is an `Int`, and an address is its base58 text.  Each method takes what the
program's own reader of the type takes, and returns it as the client sees it (`Viewed`).
-/

namespace CalledIt.Sdk

open Lib
open Escrow (Bytes Pubkey Asset PositionSide MarketState LotState VoidReason defaultPubkey
  zeroHash)

/-- A thrown JavaScript error with its message. -/
inductive DecodeError
  | rangeError (message : String)
  | typeError (message : String)
  deriving DecidableEq, Repr

abbrev BorshReader := Taker DecodeError

namespace BorshReader

def fixed (length : Nat) (name : String) : BorshReader (List UInt8) := fun bytes =>
  if length > bytes.length then
    .error (.rangeError (name ++ " exceeds the available account data"))
  else .ok (bytes.take length, bytes.drop length)

def publicKey (name : String) : BorshReader String := do
  return toBase58 (← fixed 32 name)

def u8 (name : String) : BorshReader Int := do
  return ((← fixed 1 name).headD 0).toNat

def bool (name : String) : BorshReader Bool := do
  let value ← u8 name
  if value > 1 then throw (.rangeError (name ++ " has an invalid Borsh boolean tag"))
  else return value = 1

def u16 (name : String) : BorshReader Int := do
  return ofLeBytes (← fixed 2 name)

def u32 (name : String) : BorshReader Int := do
  return ofLeBytes (← fixed 4 name)

def u64 (name : String) : BorshReader Int := do
  return ofLeBytes (← fixed 8 name)

/-- `getBigInt64`: two's complement. -/
def i64 (name : String) : BorshReader Int := do
  return (UInt64.ofNat (ofLeBytes (← fixed 8 name))).toInt64.toInt

/-- A value behind a tag for its presence. -/
def option (value : String → BorshReader β) (name : String) : BorshReader (Option β) := do
  let tag ← u8 (name ++ " option")
  if tag > 1 then throw (.rangeError (name ++ " has an invalid Borsh option tag"))
  else if tag = 0 then return none
  else return some (← value name)

abbrev optionU64 : String → BorshReader (Option Int) := option u64

def items (value : String → BorshReader β) (name : String) (index : Nat) :
    Nat → BorshReader (List β)
  | 0 => return []
  | n + 1 => do
      let item ← value (name ++ "[" ++ toString index ++ "]")
      return item :: (← items value name (index + 1) n)

/-- A vector behind its length, which is bounded. -/
def vector (value : String → BorshReader β) (name : String) (maximumLength : Nat) :
    BorshReader (List β) := do
  let length ← u32 (name ++ " length")
  if length > maximumLength then
    throw (.rangeError (name ++ " exceeds maximum length " ++ toString maximumLength))
  else items value name 0 length.toNat

abbrev publicKeyVector : String → Nat → BorshReader (List String) := vector publicKey

abbrev u64Vector : String → Nat → BorshReader (List Int) := vector u64

def finish (name : String) : BorshReader Unit := fun bytes =>
  if bytes.length ≠ 0 then
    .error (.rangeError (name ++ " has " ++ toString bytes.length ++ " unexpected trailing bytes"))
  else .ok ((), bytes)

def finishZeroPadded (name : String) : BorshReader Unit := fun bytes =>
  if bytes.any (· ≠ 0) then
    .error (.rangeError (name ++ " has unexpected non-zero trailing bytes"))
  else .ok ((), [])

/-- The variant at an index. -/
def variant (name refusal : String) (variants : List β) : BorshReader β := do
  let tag ← u8 name
  match variants[tag.toNat]? with
  | some value => return value
  | none => throw (.rangeError (refusal ++ toString tag))

end BorshReader

open BorshReader

/-! ## what the decoders of accounts and of events share -/

/-- A market without an outcome has `null`. -/
def settlementOutcomes : List (Option SettlementOutcome) :=
  [none, some .claimWon, some .claimLost, some .void]

/-- A byte string as a UUID. -/
def uuid (bytes : List UInt8) : String :=
  let hex := bytesToHex bytes
  String.ofList (hex.take 8 ++ ['-'] ++ (hex.drop 8).take 4 ++ ['-'] ++ (hex.drop 12).take 4 ++
    ['-'] ++ (hex.drop 16).take 4 ++ ['-'] ++ hex.drop 20)

abbrev optionalI64 : String → BorshReader (Option Int) := option i64

/-! ## what the client sees of a value -/

def address (key : Pubkey) : String := toBase58 key.toList

def outcomeView : Escrow.SettlementOutcome → Option SettlementOutcome
  | .unresolved => none
  | .claimWon => some .claimWon
  | .claimLost => some .claimLost
  | .void => some .void

/-- The reader takes the values of `α`, and returns them as they are viewed. -/
class Viewed (r : BorshReader β) (α : Type) [Borsh α] (view : outParam (α → β)) : Prop where
  mirrors : Mirrors r (deserialize : Reader α) view

variable {view : α → β}

/-- A field that both read first. -/
theorem mirrors_field [Borsh α] {r : BorshReader β} [Viewed r α view] {k : β → BorshReader δ}
    {k' : α → Reader γ} {view' : γ → δ} (hk : ∀ a, Mirrors (k (view a)) (k' a) view') :
    Mirrors (r >>= k) (deserialize >>= k') view' :=
  Viewed.mirrors.bind hk

theorem mirrors_fixed (n : Nat) (name : String) :
    Mirrors (fixed n name) (Reader.take n) List.Vector.toList := by
  intro bytes
  simp only [fixed, StateT.run, Reader.take]
  by_cases h : n > bytes.length
  · rw [if_pos h, dif_neg (by rw [List.length_take]; omega)]
    rfl
  · rw [if_neg h, dif_pos (by rw [List.length_take]; omega)]
    rfl

instance (n : Nat) (name : String) : Viewed (fixed n name) (Bytes n) List.Vector.toList where
  mirrors := mirrors_fixed n name

instance (name : String) : Viewed (publicKey name) Pubkey address where
  mirrors := (mirrors_fixed 32 name).through fun _ => rfl

/-- An integer of `w` bytes, which the client and the program make in their own ways. -/
theorem mirrors_nat {w : Nat} (name : String) {g : List UInt8 → β} {ofNat : Nat → α}
    (hview : ∀ bytes : List UInt8, bytes.length = w → view (ofNat (ofLeBytes bytes)) = g bytes) :
    Mirrors (do return g (← fixed w name)) (do return ofNat (← Reader.nat w)) view := by
  have hsame : ∀ v : List.Vector UInt8 w, view (ofNat (ofLeBytes v.toList)) = g v.toList :=
    fun v => hview v.toList v.toList_length
  have h := (mirrors_fixed w name).map (h := fun v => ofNat (ofLeBytes v.toList)) (g := g) hsame
  simpa [Reader.nat] using h

theorem mirrors_u8 (name : String) : Mirrors (u8 name) Reader.byte fun b => (b.toNat : Int) := by
  intro bytes
  cases bytes with
  | nil => rfl
  | cons b bytes => rfl

instance (name : String) : Viewed (u8 name) UInt8 fun b => (b.toNat : Int) where
  mirrors := mirrors_u8 name

instance (name : String) : Viewed (u16 name) UInt16 fun v => (v.toNat : Int) where
  mirrors := mirrors_nat name fun bytes hlen => by
    have hlt := ofLeBytes_lt bytes
    rw [hlen] at hlt
    rw [UInt16.toNat_ofNat', Nat.mod_eq_of_lt (by omega)]

instance (name : String) : Viewed (u32 name) UInt32 fun v => (v.toNat : Int) where
  mirrors := mirrors_nat name fun bytes hlen => by
    have hlt := ofLeBytes_lt bytes
    rw [hlen] at hlt
    rw [UInt32.toNat_ofNat', Nat.mod_eq_of_lt (by omega)]

instance (name : String) : Viewed (u64 name) UInt64 fun v => (v.toNat : Int) where
  mirrors := mirrors_nat name fun bytes hlen => by
    have hlt := ofLeBytes_lt bytes
    rw [hlen] at hlt
    rw [UInt64.toNat_ofNat', Nat.mod_eq_of_lt (by omega)]

instance (name : String) : Viewed (i64 name) Int64 Int64.toInt where
  mirrors := mirrors_nat name (by intro _ _; rfl)

/-- A tag, where the client looks up what the program looks up. -/
theorem mirrors_tags {tags : Tags α} {k : Int → BorshReader β} (name : String)
    (hsome : ∀ t a, tags.ofTag t = some a → k t.toNat = pure (view a))
    (hnone : ∀ t, tags.ofTag t = none → ∃ e, k t.toNat = throw e) :
    Mirrors (u8 name >>= k) tags.read view := by
  refine (mirrors_u8 name).bind fun t => ?_
  cases h : tags.ofTag t with
  | none =>
      obtain ⟨e, he⟩ := hnone t h
      rw [he]
      exact .fail e view
  | some a =>
      rw [hsome t a h]
      exact .pure rfl

/-- The tags of a truth value. -/
theorem bool_cases (t : UInt8) :
    ((t.toNat : Int) > 1 ∧ boolTags.ofTag t = none) ∨ ¬ (t.toNat : Int) > 1 ∧ (t = 0 ∨ t = 1) := by
  by_cases h : (t.toNat : Int) > 1
  · refine .inl ⟨h, ?_⟩
    simp only [boolTags]
    split <;> first | rfl | simp at h
  · refine .inr ⟨h, ?_⟩
    simp only [← UInt8.toNat_inj, UInt8.reduceToNat]
    omega

instance (name : String) : Viewed (bool name) Bool id where
  mirrors := by
    change Mirrors (bool name) boolTags.read id
    refine (mirrors_u8 name).bind fun t => ?_
    obtain ⟨h, hnone⟩ | ⟨h, rfl | rfl⟩ := bool_cases t
    · rw [if_pos h, hnone]
      exact .fail _ _
    · rw [if_neg h]
      exact .pure rfl
    · rw [if_neg h]
      exact .pure rfl

instance [Borsh α] {value : String → BorshReader β} {view : α → β}
    [hvalue : ∀ name, Viewed (value name) α view] (name : String) :
    Viewed (option value name) (Option α) (Option.map view) where
  mirrors := by
    have hbool : (deserialize : Reader (Option α)) = (do
        let t ← Reader.byte
        let present ← Reader.lift (boolTags.ofTag t)
        if present then return some (← deserialize) else return none) := by
      simp only [deserialize, Tags.read, bind_assoc]
    rw [hbool]
    refine (mirrors_u8 (name ++ " option")).bind fun t => ?_
    obtain ⟨h, hnone⟩ | ⟨h, rfl | rfl⟩ := bool_cases t
    · rw [if_pos h, hnone]
      exact .fail _ _
    · rw [if_neg h]
      exact .pure rfl
    · rw [if_neg h]
      exact (hvalue name).mirrors.map fun _ => rfl

/-- The variant at the index of its tag. -/
theorem mirrors_variant {tags : Tags α} {variants : List β} (name refusal : String)
    (hvariants : ∀ n < 256, variants[n]? = (tags.ofTag (UInt8.ofNat n)).map view) :
    Mirrors (variant name refusal variants) tags.read view := by
  have hvariant (t : UInt8) : variants[t.toNat]? = (tags.ofTag t).map view := by
    rw [hvariants t.toNat t.toNat_lt, UInt8.ofNat_toNat]
  refine mirrors_tags name (fun t a h => ?_) fun t h => ?_
  · simp [hvariant, h]
  · exact ⟨_, by simp only [Int.toNat_natCast, hvariant, h, Option.map_none]; rfl⟩

theorem mirrors_items [Borsh α] {value : String → BorshReader β}
    [hvalue : ∀ name, Viewed (value name) α view] (name : String) (index n : Nat) :
    Mirrors (items value name index n) (Reader.many (deserialize : Reader α) n)
      (List.map view) := by
  induction n generalizing index with
  | zero => exact .pure rfl
  | succ n ih =>
      refine (hvalue _).mirrors.bind fun a => ?_
      exact (ih (index + 1)).map fun _ => rfl

instance [Borsh α] {value : String → BorshReader β} {view : α → β}
    [hvalue : ∀ name, Viewed (value name) α view] (name : String) (n : Nat) :
    Viewed (vector value name n) (BoundedVec α n) (fun as => as.val.map view) where
  mirrors := by
    have hlength : Mirrors (u32 (name ++ " length")) (Reader.nat 4) fun n => (n : Int) := by
      exact (mirrors_fixed 4 (name ++ " length")).map (h := fun v => ofLeBytes v.toList)
        (g := fun bytes => (ofLeBytes bytes : Int)) fun _ => rfl
    refine hlength.bind fun length => ?_
    by_cases h : length ≤ n
    · rw [if_neg (by omega), if_pos h]
      refine (mirrors_items name 0 _).filter fun bytes as rest has => ?_
      have hlen := length_of_many has
      rw [Int.toNat_natCast] at hlen
      exact ⟨⟨as, by omega⟩, dif_pos (by omega), rfl⟩
    · rw [if_pos (by omega), if_neg h]
      exact .fail _ _

/-! ## decoders that invert -/

variable {bytes rest : List UInt8}

theorem run_fixed_iff {n : Nat} {name : String} {value : List UInt8} :
    (fixed n name).run bytes = .ok (value, rest) ↔ value.length = n ∧ bytes = value ++ rest := by
  simp only [fixed, StateT.run]
  constructor
  · intro h
    split at h
    · simp at h
    · obtain ⟨rfl, rfl⟩ := Prod.mk.inj (Except.ok.inj h)
      refine ⟨?_, (List.take_append_drop n bytes).symm⟩
      rw [List.length_take]
      omega
  · rintro ⟨rfl, rfl⟩
    rw [if_neg (by simp), List.take_left, List.drop_left]

variable {b : β}

theorem run_taker_bind_iff {r : BorshReader α} {k : α → BorshReader β} :
    (r >>= k).run bytes = .ok (b, rest) ↔
      ∃ a mid, r.run bytes = .ok (a, mid) ∧ (k a).run mid = .ok (b, rest) := by
  rw [StateT.run_bind, bind_ok_iff]
  simp

theorem run_taker_pure_iff {a : β} :
    (pure a : BorshReader β).run bytes = .ok (b, rest) ↔ a = b ∧ bytes = rest := by
  rw [StateT.run_pure, pure_ok_iff, Prod.mk.injEq]

theorem run_throw (e : DecodeError) (bytes : List UInt8) :
    (throw e : BorshReader β).run bytes = .error e := rfl

theorem run'_ok_iff {r : BorshReader β} :
    r.run' bytes = .ok b ↔ ∃ rest, r.run bytes = .ok (b, rest) := by
  rw [StateT.run'_eq]
  exact map_ok_iff.trans ⟨fun ⟨⟨_, rest⟩, h, hb⟩ => ⟨rest, hb ▸ h⟩, fun ⟨rest, h⟩ => ⟨_, h, rfl⟩⟩

theorem bytesToHex_inj {bytes' : List UInt8} (h : bytesToHex bytes = bytesToHex bytes') :
    bytes = bytes' := by
  rw [← hexPairs_bytesToHex bytes, h, hexPairs_bytesToHex]

/-- A decoder returns every value that was encoded, as it is viewed, and what it returns is
the view of the one value that the bytes encode. -/
structure Inverts (decode : List UInt8 → Except DecodeError β) (Encodes : α → List UInt8 → Prop)
    (view : α → β) : Prop where
  decodes : ∀ a data, Encodes a data → decode data = .ok (view a)
  unique : ∀ data b, decode data = .ok b → ∃! a, view a = b ∧ Encodes a data

end CalledIt.Sdk
