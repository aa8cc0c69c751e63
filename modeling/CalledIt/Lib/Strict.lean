import CalledIt.Lib.Borsh
import CalledIt.Lib.Checked

/-!
# CalledIt.Lib.Strict

Borsh readers that take nothing but what was written, and a second reader of one layout.

`Spells r keeps words` says that whenever the reader `r` returns a value, the front that it
took is the words of that value; a type that is read so is a `StrictBorsh`.  Together with
`LawfulBorsh` this makes the reader the inverse of the writer, and a record is inverted field
by field (`Exact.field`): a front is the encoding of at most one value
(`serialize_prefixCode`).

`Mirrors r p view` says that a reader with errors `r` takes what `p` takes, fails where `p`
fails, and returns another view of the same value.  Readers written field after field mirror
each other as soon as their fields do (`Mirrors.bind`), so whatever is known of the one
reader is known of the other (`Mirrors.reads`, `Mirrors.takes`).
-/

namespace Lib

/-! ## integers -/

theorem leBytes_ofLeBytes (bytes : List UInt8) :
    leBytes bytes.length (ofLeBytes bytes) = bytes := by
  induction bytes with
  | nil => rfl
  | cons b bytes ih =>
      have hb := b.toNat_lt
      have hlow : (b.toNat + 256 * ofLeBytes bytes) % 256 = b.toNat := by omega
      have hhigh : (b.toNat + 256 * ofLeBytes bytes) / 256 = ofLeBytes bytes := by omega
      rw [List.length_cons, ofLeBytes, leBytes, hlow, hhigh, ih, UInt8.ofNat_toNat]

theorem ofLeBytes_lt (bytes : List UInt8) : ofLeBytes bytes < 256 ^ bytes.length := by
  induction bytes with
  | nil => simp [ofLeBytes]
  | cons b bytes ih =>
      have hb := b.toNat_lt
      rw [ofLeBytes, List.length_cons, Nat.pow_succ]
      omega

/-! ## readers that are strict -/

/-- What `r` returns keeps something, and what `r` takes are the words of what it returns. -/
def Spells (r : Reader β) (keeps : β → Prop) (words : β → List (List UInt8)) : Prop :=
  ∀ bytes b rest, r.run bytes = some (b, rest) → keeps b ∧ bytes = (words b).flatten ++ rest

/-- Every value that is read stands there. -/
class StrictBorsh (α : Type) [Borsh α] : Prop where
  spells : Spells (deserialize : Reader α) (fun _ => True) fun a => [serialize a]

variable {bytes rest : List UInt8} {b : β}

theorem run_bind_iff {r : Reader α} {k : α → Reader β} :
    (r >>= k).run bytes = some (b, rest) ↔
      ∃ a mid, r.run bytes = some (a, mid) ∧ (k a).run mid = some (b, rest) := by
  rw [StateT.run_bind, Option.bind_eq_bind, Option.bind_eq_some_iff]
  simp

/-- The bytes in front of what is left spell the value. -/
theorem StrictBorsh.eq_append [Borsh α] [StrictBorsh α] {a : α}
    (h : (deserialize : Reader α).run bytes = some (a, rest)) : bytes = serialize a ++ rest := by
  simpa using (StrictBorsh.spells _ _ _ h).2

/-! ## records -/

/-- What is kept reads back from its words, and nothing else is read. -/
def Exact (r : Reader β) (keeps : β → Prop) (words : β → List (List UInt8)) : Prop :=
  ∀ bytes b rest, r.run bytes = some (b, rest) ↔ keeps b ∧ bytes = (words b).flatten ++ rest

namespace Exact

variable {keeps : β → Prop} {words : β → List (List UInt8)}

theorem pure (h : ∀ b', keeps b' ↔ b' = b) : Exact (Pure.pure b) keeps fun _ => [] := by
  intro bytes b' rest
  rw [h]
  constructor
  · intro hrun
    obtain ⟨rfl, rfl⟩ := Prod.mk.inj (Option.some.inj hrun)
    exact ⟨rfl, rfl⟩
  · rintro ⟨rfl, rfl⟩
    rfl

/-- A field that is read first, and that the record has. -/
theorem field [Borsh α] [LawfulBorsh α] [StrictBorsh α] {k : α → Reader β} {get : β → α}
    (hk : ∀ a, Exact (k a) (fun b => keeps b ∧ get b = a) words) :
    Exact (deserialize >>= k) keeps fun b => serialize (get b) :: words b := by
  intro bytes b rest
  rw [run_bind_iff]
  constructor
  · rintro ⟨a, mid, ha, hb⟩
    obtain ⟨⟨hkeeps, rfl⟩, rfl⟩ := (hk a _ _ _).mp hb
    exact ⟨hkeeps, by simp [StrictBorsh.eq_append ha]⟩
  · rintro ⟨hkeeps, rfl⟩
    refine ⟨get b, _, ?_, (hk _ _ _ _).mpr ⟨⟨hkeeps, rfl⟩, rfl⟩⟩
    simpa using LawfulBorsh.reads (get b) _

end Exact

/-- The values of a record are the words of its fields. -/
class ExactBorsh (α : Type) [Borsh α] : Prop where
  law : ∃ words, Exact (deserialize : Reader α) (fun _ => True) words ∧
    ∀ a, serialize a = (words a).flatten

instance [Borsh α] [ExactBorsh α] : LawfulBorsh α where
  reads a rest := by
    obtain ⟨words, hexact, hwords⟩ := ExactBorsh.law (α := α)
    exact (hexact _ _ _).mpr ⟨trivial, by rw [hwords]⟩

instance [Borsh α] [ExactBorsh α] : StrictBorsh α where
  spells bytes a rest h := by
    obtain ⟨words, hexact, hwords⟩ := ExactBorsh.law (α := α)
    exact ⟨trivial, by simpa [hwords] using ((hexact _ _ _).mp h).2⟩

/-- A word begins with the encoding of at most one value. -/
theorem serialize_prefixCode [Borsh α] [LawfulBorsh α] :
    PrefixCode.Total (serialize : α → List UInt8) := by
  intro a b s t _ _ h
  have ha := LawfulBorsh.reads a s
  rw [h, LawfulBorsh.reads b t] at ha
  obtain ⟨rfl, rfl⟩ := Prod.mk.inj (Option.some.inj ha)
  exact ⟨rfl, rfl⟩

variable {n : Nat}

theorem run_take_iff {v : List.Vector UInt8 n} :
    (Reader.take n).run bytes = some (v, rest) ↔ bytes = v.toList ++ rest := by
  constructor
  · intro h
    simp only [StateT.run, Reader.take] at h
    split at h
    · obtain ⟨rfl, rfl⟩ := Prod.mk.inj (Option.some.inj h)
      exact (List.take_append_drop n bytes).symm
    · simp at h
  · rintro rfl
    exact parses_take v rest

instance : StrictBorsh (List.Vector UInt8 n) where
  spells bytes v rest h := ⟨trivial, by simpa [serialize] using run_take_iff.mp h⟩

theorem run_nat_eq {w : Nat} (h : (Reader.nat w).run bytes = some (n, rest)) :
    bytes = leBytes w n ++ rest ∧ n < 256 ^ w := by
  obtain ⟨v, mid, hv, hn⟩ := run_bind_iff.mp h
  obtain ⟨rfl, rfl⟩ := Prod.mk.inj (Option.some.inj hn)
  have hlen := v.toList_length
  refine ⟨?_, by simpa [hlen] using ofLeBytes_lt v.toList⟩
  have hspell := leBytes_ofLeBytes v.toList
  rw [hlen] at hspell
  rw [run_take_iff.mp hv, hspell]

instance : StrictBorsh UInt8 where
  spells bytes b rest h := by
    cases bytes with
    | nil => simp [deserialize, Reader.byte, StateT.run] at h
    | cons b' bytes =>
        obtain ⟨rfl, rfl⟩ := Prod.mk.inj (Option.some.inj h)
        exact ⟨trivial, rfl⟩

/-- An integer that is read at its width. -/
theorem spells_nat [Borsh α] {w : Nat} {ofNat : Nat → α}
    (hof : ∀ n < 256 ^ w, serialize (ofNat n) = leBytes w n) :
    Spells (do return ofNat (← Reader.nat w)) (fun _ => True) fun a => [serialize a] := by
  intro bytes a rest h
  obtain ⟨n, mid, hn, ha⟩ := run_bind_iff.mp h
  obtain ⟨rfl, rfl⟩ := Prod.mk.inj (Option.some.inj ha)
  obtain ⟨rfl, hlt⟩ := run_nat_eq hn
  exact ⟨trivial, by simp [hof n hlt]⟩

instance : StrictBorsh UInt16 where
  spells := spells_nat fun n hn => by
    simp only [serialize, UInt16.toNat_ofNat']
    rw [Nat.mod_eq_of_lt (by omega)]

instance : StrictBorsh UInt32 where
  spells := spells_nat fun n hn => by
    simp only [serialize, UInt32.toNat_ofNat']
    rw [Nat.mod_eq_of_lt (by omega)]

instance : StrictBorsh UInt64 where
  spells := spells_nat fun n hn => by
    simp only [serialize, UInt64.toNat_ofNat']
    rw [Nat.mod_eq_of_lt (by omega)]

instance : StrictBorsh Int64 where
  spells := spells_nat fun n hn => by
    simp only [serialize, UInt64.toUInt64_toInt64, UInt64.toNat_ofNat']
    rw [Nat.mod_eq_of_lt (by omega)]

/-- A tag that is read stands there, if no variant has two. -/
theorem Tags.spells [Borsh α] {tags : Tags α} (hserialize : ∀ a, serialize a = [tags.tag a])
    (hexact : ∀ t a, tags.ofTag t = some a → tags.tag a = t) :
    Spells tags.read (fun _ => True) fun a => [serialize a] := by
  intro bytes a rest h
  obtain ⟨t, mid, ht, ha⟩ := run_bind_iff.mp h
  obtain ⟨-, rfl⟩ := (inferInstance : StrictBorsh UInt8).spells _ _ _ ht
  cases htag : tags.ofTag t with
  | none => simp [htag, Reader.lift, Reader.fail, StateT.run] at ha
  | some a' =>
      rw [htag] at ha
      obtain ⟨rfl, rfl⟩ := Prod.mk.inj (Option.some.inj ha)
      refine ⟨trivial, ?_⟩
      simp only [hserialize, hexact t _ htag]
      rfl

theorem boolTags_exact (t : UInt8) (b : Bool) (h : boolTags.ofTag t = some b) :
    boolTags.tag b = t := by
  simp only [boolTags] at h ⊢
  split at h <;> simp_all

instance : StrictBorsh Bool where
  spells := Tags.spells (fun _ => rfl) boolTags_exact

instance [Borsh α] [StrictBorsh α] : StrictBorsh (Option α) where
  spells bytes o rest h := by
    obtain ⟨present, mid, hpresent, ho⟩ := run_bind_iff.mp h
    rw [StrictBorsh.eq_append hpresent]
    cases present with
    | false =>
        obtain ⟨rfl, rfl⟩ := Prod.mk.inj (Option.some.inj ho)
        exact ⟨trivial, by simp [serialize]⟩
    | true =>
        obtain ⟨a, last, ha, hlast⟩ := run_bind_iff.mp ho
        obtain ⟨rfl, rfl⟩ := Prod.mk.inj (Option.some.inj hlast)
        rw [StrictBorsh.eq_append ha]
        exact ⟨trivial, by simp [serialize]⟩

/-! ## vectors with a bound -/

/-- A vector of at most `n` values. -/
abbrev BoundedVec (α : Type) (n : Nat) := { as : List α // as.length ≤ n }

instance [Borsh α] : Borsh (BoundedVec α n) where
  serialize as := serialize as.val
  deserialize := do
    let length ← Reader.nat 4
    if length ≤ n then
      let as ← Reader.many deserialize length
      if h : as.length ≤ n then return ⟨as, h⟩ else Reader.fail
    else Reader.fail

theorem length_of_many {r : Reader α} {as : List α}
    (h : (Reader.many r n).run bytes = some (as, rest)) : as.length = n := by
  induction n generalizing as bytes with
  | zero =>
      obtain ⟨rfl, rfl⟩ := Prod.mk.inj (Option.some.inj h)
      rfl
  | succ n ih =>
      obtain ⟨a, mid, -, htail⟩ := run_bind_iff.mp h
      obtain ⟨as', last, has, hlast⟩ := run_bind_iff.mp htail
      obtain ⟨rfl, rfl⟩ := Prod.mk.inj (Option.some.inj hlast)
      rw [List.length_cons, ih has]

theorem run_many_iff [Borsh α] [LawfulBorsh α] [StrictBorsh α] {as : List α} :
    (Reader.many deserialize n).run bytes = some (as, rest) ↔
      as.length = n ∧ bytes = as.flatMap serialize ++ rest := by
  constructor
  · intro h
    induction n generalizing as bytes with
    | zero =>
        obtain ⟨rfl, rfl⟩ := Prod.mk.inj (Option.some.inj h)
        exact ⟨rfl, rfl⟩
    | succ n ih =>
        obtain ⟨a, mid, ha, htail⟩ := run_bind_iff.mp h
        obtain ⟨as', last, has, hlast⟩ := run_bind_iff.mp htail
        obtain ⟨rfl, rfl⟩ := Prod.mk.inj (Option.some.inj hlast)
        obtain ⟨rfl, rfl⟩ := ih has
        exact ⟨rfl, by simp [StrictBorsh.eq_append ha]⟩
  · rintro ⟨rfl, rfl⟩
    exact parses_many as rest

theorem parses_boundedVec [Borsh α] [LawfulBorsh α] (hn : n < 2 ^ 32)
    (as : BoundedVec α n) : Parses deserialize (serialize as) as := by
  refine (parses_nat (by have := as.property; omega)).bind ?_
  rw [if_pos as.property]
  refine (parses_many as.val).yields ?_
  rw [dif_pos as.property]

instance [Borsh α] [LawfulBorsh α] [StrictBorsh α] : StrictBorsh (BoundedVec α n) where
  spells bytes as rest h := by
    obtain ⟨length, mid, hlength, has⟩ := run_bind_iff.mp h
    obtain ⟨rfl, -⟩ := run_nat_eq hlength
    split at has
    · obtain ⟨as', last, has', hlast⟩ := run_bind_iff.mp has
      obtain ⟨rfl, rfl⟩ := run_many_iff.mp has'
      split at hlast
      · obtain ⟨rfl, rfl⟩ := Prod.mk.inj (Option.some.inj hlast)
        exact ⟨trivial, by simp [serialize]⟩
      next hbound => exact absurd ‹_› hbound
    · simp [Reader.fail, StateT.run] at has

/-! ## a second reader -/

/-- A reader that says why it fails. -/
abbrev Taker (ε : Type) := StateT (List UInt8) (Except ε)

/-- `r` takes what `p` takes, and returns a view of it. -/
def Mirrors (r : Taker ε β) (p : Reader α) (view : α → β) : Prop :=
  ∀ bytes, (r.run bytes).toOption = (p.run bytes).map (Prod.map view id)

variable {p : Reader α}

namespace Mirrors

theorem pure {a : α} {view : α → β} (h : view a = b) :
    Mirrors (Pure.pure b : Taker ε β) (Pure.pure a) view := by
  intro bytes
  rw [← h]
  rfl

theorem bind {r : Taker ε β} {view : α → β} {k : β → Taker ε δ} {k' : α → Reader γ} {view' : γ → δ}
    (h : Mirrors r p view)
    (hk : ∀ a, Mirrors (k (view a)) (k' a) view') : Mirrors (r >>= k) (p >>= k') view' := by
  intro bytes
  have hbytes := h bytes
  rw [StateT.run_bind, StateT.run_bind]
  cases hp : p.run bytes with
  | none =>
      rw [hp] at hbytes
      cases hr : r.run bytes with
      | error => rfl
      | ok => simp [hr, Except.toOption] at hbytes
  | some found =>
      obtain ⟨a, rest⟩ := found
      rw [hp] at hbytes
      cases hr : r.run bytes with
      | error => simp [hr, Except.toOption] at hbytes
      | ok found' =>
          obtain ⟨b, rest'⟩ := found'
          rw [hr] at hbytes
          obtain ⟨rfl, rfl⟩ := Prod.mk.inj (Option.some.inj hbytes)
          exact hk a rest'

/-- Both look at their value and return. -/
theorem map {r : Taker ε β} {view : α → β} {g : β → δ} {h : α → γ} {view' : γ → δ}
    (hr : Mirrors r p view) (hview : ∀ a, view' (h a) = g (view a)) :
    Mirrors (do return g (← r)) (do return h (← p)) view' :=
  hr.bind fun a => .pure (hview a)

/-- The one returns what it read, the other looks at it first. -/
theorem through {r : Taker ε β} {view : α → β} {g : β → δ} {view' : α → δ} (h : Mirrors r p view)
    (hview : ∀ a, view' a = g (view a)) :
    Mirrors (do return g (← r)) p view' := by
  have hbind : Mirrors (do return g (← r)) (p >>= Pure.pure) view' :=
    h.bind fun a => Mirrors.pure (hview a)
  rwa [bind_pure] at hbind

/-- A check that what was read passes is no check. -/
theorem filter {r : Taker ε β} {view : α → β} (h : Mirrors r p view) {k : α → Reader γ}
    {view' : γ → β}
    (hk : ∀ bytes a rest, p.run bytes = some (a, rest) → ∃ c, k a = Pure.pure c ∧ view' c = view a) :
    Mirrors r (p >>= k) view' := by
  intro bytes
  rw [h bytes, StateT.run_bind]
  cases hp : p.run bytes with
  | none => rfl
  | some found =>
      obtain ⟨a, rest⟩ := found
      obtain ⟨c, hc, hview⟩ := hk bytes a rest hp
      simp [hc, hview]

theorem fail (e : ε) (view : α → β) : Mirrors (throw e : Taker ε β) Reader.fail view :=
  fun _ => rfl

variable [Borsh α] {r : Taker ε β} {view : α → β}

/-- What was written is read, as it is viewed. -/
theorem reads [LawfulBorsh α] (h : Mirrors r (deserialize : Reader α) view) (a : α)
    (rest : List UInt8) : r.run (serialize a ++ rest) = .ok (view a, rest) := by
  have hrun := h (serialize a ++ rest)
  rw [LawfulBorsh.reads a rest] at hrun
  cases hr : r.run (serialize a ++ rest) with
  | error => simp [hr, Except.toOption] at hrun
  | ok found =>
      rw [hr] at hrun
      exact congrArg Except.ok (Option.some.inj hrun)

/-- What is read was written. -/
theorem takes [StrictBorsh α] (h : Mirrors r (deserialize : Reader α) view)
    (hrun : r.run bytes = .ok (b, rest)) :
    ∃ a, view a = b ∧ bytes = serialize a ++ rest := by
  have hbytes := h bytes
  rw [hrun] at hbytes
  obtain ⟨⟨a, rest'⟩, hp, hview⟩ := Option.map_eq_some_iff.mp hbytes.symm
  obtain ⟨rfl, rfl⟩ := Prod.mk.inj hview
  exact ⟨a, rfl, StrictBorsh.eq_append hp⟩

end Mirrors

end Lib
