import CalledIt.Lib.Codec

/-!
# CalledIt.Lib.Borsh

The Borsh layout: values one after another, without padding.

Integers are little-endian at their exact widths, a `bool` and the presence of an
optional value are one byte, a variant of an enumeration is its index, and a
vector or a string stands behind its length in four bytes.

`Parses r w a` says that the reader `r` takes the word `w` off the front of any
input and returns `a`.  A record is read field by field, so the readers of its
fields compose (`Parses.bind`); a type all of whose values are read back is a
`LawfulBorsh`, and a vector of one reads back as soon as its length fits.
-/

namespace Lib

/-- A reader takes a value off the front of the input, or fails. -/
abbrev Reader := StateT (List UInt8) Option

/-- `r` reads `a` from `w`, whatever follows. -/
def Parses (r : Reader α) (w : List UInt8) (a : α) : Prop :=
  ∀ rest, r.run (w ++ rest) = some (a, rest)

variable {r : Reader α} {k : α → Reader β} {w : List UInt8} {a : α} {b : β}

namespace Parses

theorem pure (a : α) : Parses (Pure.pure a) [] a := fun _ => rfl

theorem bind {v : List UInt8} (hr : Parses r v a)
    (hk : Parses (k a) w b) : Parses (r >>= k) (v ++ w) b := by
  intro rest
  rw [StateT.run_bind, List.append_assoc, hr, Option.bind_eq_bind, Option.bind_some, hk]

/-- A reader that looks at its value and returns. -/
theorem yields (hr : Parses r w a) (hk : k a = Pure.pure b) : Parses (r >>= k) w b := by
  intro rest
  rw [StateT.run_bind, hr, Option.bind_eq_bind, Option.bind_some, hk]
  rfl

/-- A word that is read alone leaves nothing. -/
theorem run_nil (h : Parses r w a) :
    r.run w = some (a, []) := by
  simpa using h []

end Parses

/-! ## bytes -/

def Reader.fail : Reader α := fun _ => none

/-- A value that has been looked up. -/
def Reader.lift : Option α → Reader α
  | some a => pure a
  | none => fail

def Reader.byte : Reader UInt8
  | [] => none
  | b :: rest => some (b, rest)

theorem parses_byte (b : UInt8) : Parses Reader.byte [b] b := fun _ => rfl

/-- The next `n` bytes. -/
def Reader.take (n : Nat) : Reader (List.Vector UInt8 n) := fun bytes =>
  if h : (bytes.take n).length = n then some (⟨bytes.take n, h⟩, bytes.drop n) else none

theorem parses_take (v : List.Vector UInt8 n) : Parses (Reader.take n) v.toList v := by
  intro rest
  have htake : (v.toList ++ rest).take n = v.toList := List.take_left' v.toList_length
  have hdrop : (v.toList ++ rest).drop n = rest := List.drop_left' v.toList_length
  have hlen : ((v.toList ++ rest).take n).length = n := by rw [htake, v.toList_length]
  have hv : (⟨(v.toList ++ rest).take n, hlen⟩ : List.Vector UInt8 n) = v :=
    List.Vector.eq _ _ htake
  simp only [StateT.run, Reader.take]
  rw [dif_pos hlen, hv, hdrop]

/-- The number that bytes spell, least significant first. -/
def ofLeBytes : List UInt8 → Nat
  | [] => 0
  | b :: bs => b.toNat + 256 * ofLeBytes bs

theorem ofLeBytes_leBytes {w n : Nat} (h : n < 256 ^ w) : ofLeBytes (leBytes w n) = n := by
  induction w generalizing n with
  | zero =>
      rw [leBytes, ofLeBytes]
      omega
  | succ w ih =>
      rw [Nat.pow_succ] at h
      rw [leBytes, ofLeBytes, ih (by omega), UInt8.toNat_ofNat']
      omega

def Reader.nat (w : Nat) : Reader Nat := do
  return ofLeBytes (← Reader.take w).toList

theorem parses_nat {w n : Nat} (h : n < 256 ^ w) : Parses (Reader.nat w) (leBytes w n) n := by
  refine (parses_take ⟨leBytes w n, length_leBytes w n⟩).yields ?_
  exact congrArg pure (ofLeBytes_leBytes h)

/-! ## the class -/

/-- A type with a Borsh layout. -/
class Borsh (α : Type) where
  serialize : α → List UInt8
  deserialize : Reader α

export Borsh (serialize deserialize)

/-- Every value reads back. -/
class LawfulBorsh (α : Type) [Borsh α] : Prop where
  reads (a : α) : Parses deserialize (serialize a) a

/-! ## records -/

/-- A record is its fields in a row; one is read by reading the first and going on. -/
theorem Parses.field [Borsh α] {fields : List (List UInt8)}
    (ha : Parses deserialize (serialize a) a) (hk : Parses (k a) fields.flatten b) :
    Parses (deserialize >>= k) (serialize a :: fields).flatten b :=
  ha.bind hk

theorem Parses.done (b : β) : Parses (Pure.pure b) ([] : List (List UInt8)).flatten b :=
  Parses.pure b

/-! ## integers -/

instance : Borsh UInt8 where
  serialize v := [v]
  deserialize := Reader.byte

instance : LawfulBorsh UInt8 := ⟨parses_byte⟩

instance : Borsh UInt16 where
  serialize v := leBytes 2 v.toNat
  deserialize := do return UInt16.ofNat (← Reader.nat 2)

instance : LawfulBorsh UInt16 where
  reads v := (parses_nat v.toNat_lt).yields (congrArg pure UInt16.ofNat_toNat)

instance : Borsh UInt32 where
  serialize v := leBytes 4 v.toNat
  deserialize := do return UInt32.ofNat (← Reader.nat 4)

instance : LawfulBorsh UInt32 where
  reads v := (parses_nat v.toNat_lt).yields (congrArg pure UInt32.ofNat_toNat)

instance : Borsh UInt64 where
  serialize v := leBytes 8 v.toNat
  deserialize := do return UInt64.ofNat (← Reader.nat 8)

instance : LawfulBorsh UInt64 where
  reads v := (parses_nat v.toNat_lt).yields (congrArg pure UInt64.ofNat_toNat)

/-- Two's complement. -/
instance : Borsh Int64 where
  serialize v := leBytes 8 v.toUInt64.toNat
  deserialize := do return (UInt64.ofNat (← Reader.nat 8)).toInt64

instance : LawfulBorsh Int64 where
  reads v := by
    refine (parses_nat v.toUInt64.toNat_lt).yields ?_
    rw [UInt64.ofNat_toNat, Int64.toInt64_toUInt64]

/-! ## tags -/

/-- An enumeration, every variant at its index. -/
structure Tags (α : Type) where
  tag : α → UInt8
  ofTag : UInt8 → Option α
  ofTag_tag : ∀ a, ofTag (tag a) = some a

def Tags.read (tags : Tags α) : Reader α := do
  Reader.lift (tags.ofTag (← Reader.byte))

theorem Tags.reads (tags : Tags α) (a : α) : Parses tags.read [tags.tag a] a := by
  refine (parses_byte (tags.tag a)).yields ?_
  rw [tags.ofTag_tag]
  rfl

def boolTags : Tags Bool where
  tag
    | false => 0
    | true => 1
  ofTag
    | 0 => some false
    | 1 => some true
    | _ => none
  ofTag_tag := by decide

instance : Borsh Bool where
  serialize v := [boolTags.tag v]
  deserialize := boolTags.read

instance : LawfulBorsh Bool := ⟨boolTags.reads⟩

/-! ## containers -/

instance : Borsh (List.Vector UInt8 n) where
  serialize v := v.toList
  deserialize := Reader.take n

instance : LawfulBorsh (List.Vector UInt8 n) := ⟨parses_take⟩

instance [Borsh α] : Borsh (Option α) where
  serialize
    | none => serialize false
    | some a => serialize true ++ serialize a
  deserialize := do
    let present ← (deserialize : Reader Bool)
    if present then return some (← deserialize) else return none

instance [Borsh α] [LawfulBorsh α] : LawfulBorsh (Option α) where
  reads
    | none => (LawfulBorsh.reads false).yields rfl
    | some a => (LawfulBorsh.reads true).bind ((LawfulBorsh.reads a).yields rfl)

/-- `n` values in a row. -/
def Reader.many (r : Reader α) : Nat → Reader (List α)
  | 0 => pure []
  | n + 1 => do
      let a ← r
      return a :: (← many r n)

theorem parses_many [Borsh α] [LawfulBorsh α] (as : List α) :
    Parses (Reader.many deserialize as.length) (as.flatMap serialize) as := by
  induction as with
  | nil => exact Parses.pure []
  | cons a as ih => exact (LawfulBorsh.reads a).bind (ih.yields rfl)

/-- A vector behind its length. -/
instance [Borsh α] : Borsh (List α) where
  serialize as := leBytes 4 as.length ++ as.flatMap serialize
  deserialize := do
    let n ← Reader.nat 4
    Reader.many deserialize n

theorem parses_list [Borsh α] [LawfulBorsh α] {as : List α} (h : as.length < 2 ^ 32) :
    Parses deserialize (serialize as) as :=
  (parses_nat h).bind (parses_many as)

/-- Bytes are laid out as they are. -/
theorem flatMap_serialize_bytes (bs : List UInt8) : bs.flatMap serialize = bs :=
  List.flatMap_singleton' bs

/-! ## strings -/

def utf8Bytes (s : String) : List UInt8 := s.toUTF8.data.toList

/-- `String::from_utf8`. -/
def stringOfUtf8 (bytes : List UInt8) : Option String := String.fromUTF8? ⟨bytes.toArray⟩

theorem stringOfUtf8_utf8Bytes (s : String) : stringOfUtf8 (utf8Bytes s) = some s := by
  unfold stringOfUtf8 utf8Bytes String.fromUTF8?
  simp only [Array.toArray_toList]
  rw [dif_pos (by simpa using s.isValidUTF8)]
  rfl

/-- The bytes of a string are a vector. -/
instance : Borsh String where
  serialize s := serialize (utf8Bytes s)
  deserialize := do
    Reader.lift (stringOfUtf8 (← (deserialize : Reader (List UInt8))))

theorem serialize_string (s : String) :
    serialize s = leBytes 4 (utf8Bytes s).length ++ utf8Bytes s := by
  change leBytes 4 _ ++ (utf8Bytes s).flatMap serialize = _
  rw [flatMap_serialize_bytes]

theorem parses_string {s : String} (h : (utf8Bytes s).length < 2 ^ 32) :
    Parses deserialize (serialize s) s := by
  refine (parses_list h).yields ?_
  rw [stringOfUtf8_utf8Bytes]
  rfl

end Lib
