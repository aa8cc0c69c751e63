import CalledIt.Indexer.FinalizedIndexer

/-!
# CalledIt.Indexer.Indexed

What the tables of the indexer hold at any time.

The cursor has passed a part of the history from its start on, and every event in there is
recorded or skipped (`Indexed`).  Rows come from those transactions and the next one only,
each from the event under its key, and in order: an event can come late within its
transaction, where an earlier attempt skipped it.  Each call of a run keeps this.
-/

namespace CalledIt.Indexer

open Lib

variable {ρ : Type}

/-! ## the history -/

/-- The order that finality gives: slots never fall, and no signature comes twice. -/
structure WellOrdered (history : List ConfirmedSignatureInfo) : Prop where
  slots : history.Pairwise (·.slot ≤ ·.slot)
  signatures : (history.map (·.signature)).Nodup

/-- What comes after the slot that the indexer began at. -/
def newer (start : Nat) (history : List ConfirmedSignatureInfo) : List ConfirmedSignatureInfo :=
  history.filter (start < ·.slot)

/-- The cursor behind these. -/
def cursorPast (start : Nat) (passed : List ConfirmedSignatureInfo) : EscrowFinalizedCursor :=
  match passed.getLast? with
  | none => ⟨start, none⟩
  | some last => ⟨last.slot, some last.signature⟩

@[simp] theorem cursorPast_nil (start : Nat) : cursorPast start [] = ⟨start, none⟩ := rfl

@[simp] theorem cursorPast_append (start : Nat) (passed : List ConfirmedSignatureInfo)
    (info : ConfirmedSignatureInfo) :
    cursorPast start (passed ++ [info]) = ⟨info.slot, some info.signature⟩ := by
  simp [cursorPast]

variable {history : List ConfirmedSignatureInfo}

theorem mem_newer {start : Nat} {info : ConfirmedSignatureInfo} :
    info ∈ newer start history ↔ info ∈ history ∧ start < info.slot := by
  simp [newer]

theorem newer_grow (start : Nat) {history' : List ConfirmedSignatureInfo}
    (h : history <+: history') : newer start history <+: newer start history' := by
  obtain ⟨more, rfl⟩ := h
  exact ⟨newer start more, by simp [newer]⟩

theorem newer_sublist (start : Nat) (history : List ConfirmedSignatureInfo) :
    (newer start history).Sublist history :=
  List.filter_sublist

theorem WellOrdered.newer (h : WellOrdered history)
    (start : Nat) : WellOrdered (newer start history) where
  slots := h.slots.sublist (newer_sublist start history)
  signatures := h.signatures.sublist ((newer_sublist start history).map _)

theorem newer_of_le {start : Nat}
    (h : ∀ info ∈ history, info.slot ≤ start) : newer start history = [] := by
  refine List.filter_eq_nil_iff.mpr fun info hinfo hnew => ?_
  have hold := h info hinfo
  have hstart : start < info.slot := by simpa using hnew
  omega

theorem newer_of_lt {start : Nat}
    (h : ∀ info ∈ history, start < info.slot) : newer start history = history :=
  List.filter_eq_self.mpr fun info hinfo => by simpa using h info hinfo

/-- Where slots never fall, what is newer is the rest of the history. -/
theorem WellOrdered.split (h : WellOrdered history) (start : Nat) :
    ∃ older, history = older ++ Indexer.newer start history ∧ ∀ info ∈ older, info.slot ≤ start := by
  have hslots := h.slots
  clear h
  induction history with
  | nil => exact ⟨[], rfl, by simp⟩
  | cons info history ih =>
      obtain ⟨hfirst, hrest⟩ := List.pairwise_cons.mp hslots
      by_cases hinfo : start < info.slot
      · refine ⟨[], ?_, by simp⟩
        refine (newer_of_lt fun other hother => ?_).symm
        rcases List.mem_cons.mp hother with rfl | hother
        · exact hinfo
        · exact Nat.lt_of_lt_of_le hinfo (hfirst other hother)
      · obtain ⟨older, hsplit, holder⟩ := ih hrest
        refine ⟨info :: older, ?_, ?_⟩
        · have hskip : Indexer.newer start (info :: history) = Indexer.newer start history := by
            simp [Indexer.newer, hinfo]
          rw [hskip, List.cons_append, ← hsplit]
        · intro other hother
          rcases List.mem_cons.mp hother with rfl | hother
          · exact Nat.le_of_not_lt hinfo
          · exact holder other hother

/-! ## rows -/

/-- The first event at an index of a transaction. -/
def IndexWorld.eventAt (world : IndexWorld ρ) (programId signature : String)
    (instructionIndex : Int) : Option EscrowProgramEvent :=
  (locatedEvents programId (world.transaction signature)).bind fun events =>
    (events.find? (·.instructionIndex = instructionIndex)).map (·.event)

/-- The event was resolved to this. -/
def IndexWorld.ResolvesTo (world : IndexWorld ρ) (event : EscrowProgramEvent)
    (projection : Option EscrowFinalizedProjection) : Prop :=
  ∃ r r', world.resolve r event (.ok projection) r'

/-- The event was resolved to something that has no recorder. -/
def IndexWorld.Unrecorded (world : IndexWorld ρ) (event : EscrowProgramEvent) : Prop :=
  world.ResolvesTo event none ∨
    ∃ projection, projection.kind = .marketState ∧ world.ResolvesTo event (some projection)

def RecordedEvent.key (row : RecordedEvent) : String × Int := (row.signature, row.instructionIndex)

/-- The event under a key was recorded or skipped. -/
def IndexTables.Handled (s : IndexTables ρ) (signature : String) (instructionIndex : Int) : Prop :=
  (signature, instructionIndex) ∈ s.records.map RecordedEvent.key ∨
    (signature, instructionIndex) ∈ s.skipped

/-- The order of the history, but for events that were skipped before. -/
def InOrder (history : List ConfirmedSignatureInfo) (skipped : List (String × Int))
    (a b : RecordedEvent) : Prop :=
  [a.signature, b.signature].Sublist (history.map (·.signature)) ∨
    a.signature = b.signature ∧ (a.instructionIndex < b.instructionIndex ∨ b.key ∈ skipped)

section Invariant

variable (world : IndexWorld ρ) (programId : String) (start : Nat)

/-- The cursor has passed these, and nothing of them is left to do. -/
structure Indexed (s : IndexTables ρ) (passed : List ConfirmedSignatureInfo) : Prop where
  wellOrdered : WellOrdered s.history
  passes : passed <+: newer start s.history
  cursor : s.cursor.getD ⟨0, none⟩ = cursorPast start passed
  handled : ∀ info ∈ passed, ∃ events,
    locatedEvents programId (world.transaction info.signature) = some events ∧
      (events.map (·.instructionIndex)).Nodup ∧
        ∀ located ∈ events, s.Handled info.signature located.instructionIndex
  /-- A row is of a passed transaction or of the next one. -/
  placed : ∀ row ∈ s.records, ∃ before info, before ++ [info] <+: newer start s.history ∧
    before <+: passed ∧ row.signature = info.signature
  once : (s.records.map RecordedEvent.key).Nodup
  faithful : ∀ row ∈ s.records, ∃ event,
    world.eventAt programId row.signature row.instructionIndex = some event ∧
      world.ResolvesTo event (some row.projection)
  skips : ∀ signature instructionIndex, (signature, instructionIndex) ∈ s.skipped →
    ∃ event, world.eventAt programId signature instructionIndex = some event ∧
      world.Unrecorded event
  /-- The events before one that has a row were handled. -/
  closed : ∀ row ∈ s.records, ∀ events,
    locatedEvents programId (world.transaction row.signature) = some events →
      ∀ located ∈ events, located.instructionIndex < row.instructionIndex →
        s.Handled row.signature located.instructionIndex
  ordered : s.records.Pairwise (InOrder s.history s.skipped)

end Invariant

variable {world : IndexWorld ρ} {programId : String} {start : Nat} {s t : IndexTables ρ}
  {passed : List ConfirmedSignatureInfo} {info : ConfirmedSignatureInfo}

theorem InOrder.grow {history' : List ConfirmedSignatureInfo}
    {skipped skipped' : List (String × Int)} {a b : RecordedEvent} (h : InOrder history skipped a b)
    (hhistory : history <+: history')
    (hskipped : skipped ⊆ skipped') : InOrder history' skipped' a b := by
  rcases h with hbefore | ⟨hsame, hlater⟩
  · exact .inl (hbefore.trans (hhistory.sublist.map _))
  · exact .inr ⟨hsame, hlater.imp_right fun hskip => hskipped hskip⟩

variable {signature : String} {instructionIndex : Int}

theorem IndexTables.Handled.mono (h : s.Handled signature instructionIndex)
    (hrecords : s.records ⊆ t.records)
    (hskipped : s.skipped ⊆ t.skipped) : t.Handled signature instructionIndex :=
  h.imp (fun hrow => List.map_subset _ hrecords hrow) fun hskip => hskipped hskip

/-- The start. -/
theorem indexed_start (hordered : WellOrdered s.history)
    (hcursor : s.cursor.getD ⟨0, none⟩ = ⟨start, none⟩) (hrecords : s.records = [])
    (hskipped : s.skipped = []) : Indexed world programId start s [] where
  wellOrdered := hordered
  passes := List.nil_prefix
  cursor := hcursor
  handled := by simp
  placed := by simp [hrecords]
  once := by simp [hrecords]
  faithful := by simp [hrecords]
  skips := by simp [hskipped]
  closed := by simp [hrecords]
  ordered := by simp [hrecords]

/-- What the others do, and the hooks. -/
theorem Indexed.grow (h : Indexed world programId start s passed)
    (hhistory : s.history <+: t.history) (hordered : WellOrdered t.history)
    (hcursor : t.cursor = s.cursor) (hrecords : t.records = s.records)
    (hskipped : t.skipped = s.skipped) : Indexed world programId start t passed := by
  have hhandled : ∀ {signature instructionIndex}, s.Handled signature instructionIndex →
      t.Handled signature instructionIndex := fun hdone =>
    hdone.mono (by simp [hrecords]) (by simp [hskipped])
  have hnewer := newer_grow start hhistory
  constructor
  · exact hordered
  · exact h.passes.trans hnewer
  · rw [hcursor, h.cursor]
  · intro info hinfo
    obtain ⟨events, hevents, hnodup, hdone⟩ := h.handled info hinfo
    exact ⟨events, hevents, hnodup, fun located hlocated => hhandled (hdone located hlocated)⟩
  · intro row hrow
    obtain ⟨before, info, hplace, hbefore, hsig⟩ := h.placed row (hrecords ▸ hrow)
    exact ⟨before, info, hplace.trans hnewer, hbefore, hsig⟩
  · rw [hrecords]
    exact h.once
  · rw [hrecords]
    exact h.faithful
  · rw [hskipped]
    exact h.skips
  · intro row hrow events hevents located hlocated hindex
    rw [hrecords] at hrow
    exact hhandled (h.closed row hrow events hevents located hlocated hindex)
  · rw [hrecords]
    refine h.ordered.imp fun horder => horder.grow hhistory ?_
    simp [hskipped]

variable {event : EscrowProgramEvent}

/-- An event was skipped. -/
theorem Indexed.skip (h : Indexed world programId start s passed)
    (hevent : world.eventAt programId signature instructionIndex = some event)
    (hunrecorded : world.Unrecorded event) :
    Indexed world programId start
      { s with skipped := s.skipped ++ [(signature, instructionIndex)] } passed := by
  have hhandled : ∀ {sig ix}, s.Handled sig ix →
      { s with skipped := s.skipped ++ [(signature, instructionIndex)] }.Handled sig ix :=
    fun hdone => hdone.mono (List.Subset.refl _) (List.subset_append_left _ _)
  constructor
  · exact h.wellOrdered
  · exact h.passes
  · exact h.cursor
  · intro info hinfo
    obtain ⟨events, hevents, hnodup, hdone⟩ := h.handled info hinfo
    exact ⟨events, hevents, hnodup, fun located hlocated => hhandled (hdone located hlocated)⟩
  · exact h.placed
  · exact h.once
  · exact h.faithful
  · intro sig ix hskip
    rcases List.mem_append.mp hskip with hskip | hskip
    · exact h.skips sig ix hskip
    · obtain ⟨rfl, rfl⟩ := Prod.mk.inj (List.mem_singleton.mp hskip)
      exact ⟨event, hevent, hunrecorded⟩
  · intro row hrow events hevents located hlocated hindex
    exact hhandled (h.closed row hrow events hevents located hlocated hindex)
  · exact h.ordered.imp fun horder =>
      horder.grow (List.prefix_rfl) (List.subset_append_left _ _)

/-- Of two stretches of the history, one that begins within the other. -/
theorem eq_or_mem_of_place {before all : List ConfirmedSignatureInfo} {a b : ConfirmedSignatureInfo}
    (ha : before ++ [a] <+: all) (hb : passed ++ [b] <+: all) (hbefore : before <+: passed) :
    (before = passed ∧ a = b) ∨ before ++ [a] <+: passed := by
  obtain ⟨rest, rfl⟩ := hbefore
  cases rest with
  | nil =>
      rw [List.append_nil] at hb ⊢
      have heq := (List.prefix_of_prefix_length_le ha hb (by simp)).eq_of_length (by simp)
      exact .inl ⟨rfl, List.singleton_inj.mp (List.append_cancel_left heq)⟩
  | cons c rest =>
      refine .inr (List.prefix_of_prefix_length_le ha ((List.prefix_append _ _).trans hb) ?_)
      simp

theorem exists_located (h : world.eventAt programId signature instructionIndex = some event) :
    ∃ events, locatedEvents programId (world.transaction signature) = some events ∧
      ∃ located ∈ events, located.instructionIndex = instructionIndex := by
  obtain ⟨events, hevents, hfind⟩ := Option.bind_eq_some_iff.mp h
  obtain ⟨located, hlocated, -⟩ := Option.map_eq_some_iff.mp hfind
  exact ⟨events, hevents, located, List.mem_of_find?_eq_some hlocated,
    by simpa using List.find?_some hlocated⟩

section

variable (h : Indexed world programId start s passed)

include h

section

variable (hnext : passed ++ [info] <+: newer start s.history)

include hnext

/-- A row was written for an event of the next transaction. -/
theorem Indexed.record {row : RecordedEvent}
    (hsignature : row.signature = info.signature)
    (hevent : world.eventAt programId row.signature row.instructionIndex = some event)
    (hresolved : world.ResolvesTo event (some row.projection))
    (hearlier : ∀ events, locatedEvents programId (world.transaction row.signature) = some events →
      ∀ located ∈ events, located.instructionIndex < row.instructionIndex →
        s.Handled row.signature located.instructionIndex) (rest : ρ) :
    Indexed world programId start
      { s with records := insertRecord s.records row, rest } passed := by
  unfold insertRecord
  split
  · exact h.grow (List.prefix_rfl) h.wellOrdered rfl rfl rfl
  · next hfresh =>
      have hnew : row.key ∉ s.records.map RecordedEvent.key := fun hmem => by
        obtain ⟨r, hr, hkey⟩ := List.mem_map.mp hmem
        obtain ⟨hsig, hix⟩ := Prod.mk.inj hkey
        exact hfresh (List.any_eq_true.mpr ⟨r, hr, by simp [hsig, hix]⟩)
      have hhandled : ∀ {sig ix}, s.Handled sig ix →
          { s with records := s.records ++ [row], rest }.Handled sig ix :=
        fun hdone => hdone.mono (List.subset_append_left _ _) (List.Subset.refl _)
      constructor
      · exact h.wellOrdered
      · exact h.passes
      · exact h.cursor
      · intro info hinfo
        obtain ⟨events, hevents, hnodup, hdone⟩ := h.handled info hinfo
        exact ⟨events, hevents, hnodup, fun located hlocated => hhandled (hdone located hlocated)⟩
      · intro r hr
        rcases List.mem_append.mp hr with hr | hr
        · exact h.placed r hr
        · obtain rfl := List.mem_singleton.mp hr
          exact ⟨passed, info, hnext, List.prefix_rfl, hsignature⟩
      · have honce : ((s.records ++ [row]).map RecordedEvent.key).Nodup := by
          rw [List.map_append, List.map_singleton]
          exact List.nodup_append.mpr ⟨h.once, by simp, fun k hk k' hk' hsame => by
            obtain rfl := List.mem_singleton.mp hk'
            exact hnew (hsame ▸ hk)⟩
        exact honce
      · intro r hr
        rcases List.mem_append.mp hr with hr | hr
        · exact h.faithful r hr
        · obtain rfl := List.mem_singleton.mp hr
          exact ⟨event, hevent, hresolved⟩
      · exact h.skips
      · intro r hr events hevents located hlocated hindex
        rcases List.mem_append.mp hr with hr | hr
        · exact hhandled (h.closed r hr events hevents located hlocated hindex)
        · obtain rfl := List.mem_singleton.mp hr
          exact hhandled (hearlier events hevents located hlocated hindex)
      · refine List.pairwise_append.mpr ⟨h.ordered, by simp, fun r hr r' hr' => ?_⟩
        obtain rfl := List.mem_singleton.mp hr'
        obtain ⟨before, first, hplace, hbefore, hfirst⟩ := h.placed r hr
        rcases eq_or_mem_of_place hplace hnext hbefore with ⟨-, rfl⟩ | hpassed
        · -- both are of the next transaction: an index below a row's was handled by then
          have hsame : r.signature = r'.signature := hfirst.trans hsignature.symm
          refine .inr ⟨hsame, ?_⟩
          rcases lt_trichotomy r.instructionIndex r'.instructionIndex with hlt | heq | hgt
          · exact .inl hlt
          · exact absurd (List.mem_map_of_mem hr) (show r.key ∉ _ from
              (Prod.ext hsame heq : r.key = r'.key) ▸ hnew)
          · obtain ⟨events, hevents, located, hlocated, hix⟩ := exists_located hevent
            rw [← hsame] at hevents
            have hdone := h.closed r hr events hevents located hlocated (hix ▸ hgt)
            rw [hsame, hix] at hdone
            exact .inr (hdone.resolve_left hnew)
        · refine .inl ?_
          rw [hfirst, hsignature]
          have hpair : [first, info].Sublist (passed ++ [info]) := by
            have hearlier : [first].Sublist passed :=
              (List.sublist_append_right before [first]).trans hpassed.sublist
            exact hearlier.append (List.Sublist.refl [info])
          exact (hpair.trans (hnext.sublist.trans (newer_sublist _ _))).map _

/-- The cursor is before the next transaction, which has a signature of its own. -/
theorem Indexed.advanceChainCursor_next :
    advanceChainCursor s.cursor info.slot info.signature =
      some ⟨info.slot, some info.signature⟩ := by
  have hordered := h.wellOrdered.newer start
  have hmem : info ∈ newer start s.history := hnext.subset (by simp)
  have hcursor := h.cursor
  unfold advanceChainCursor
  split
  · rfl
  · next row hrow =>
      rw [hrow] at hcursor
      obtain rfl : row = cursorPast start passed := hcursor
      refine if_neg ?_
      rcases List.eq_nil_or_concat passed with rfl | ⟨before, last, rfl⟩
      · have hstart := (mem_newer.mp hmem).2
        simp only [cursorPast_nil, reduceCtorEq, and_false, or_false]
        omega
      · rw [List.concat_eq_append] at hnext ⊢
        have hsub : [last, info].Sublist (newer start s.history) := by
          refine List.Sublist.trans ?_ hnext.sublist
          exact (List.sublist_append_right before [last]).append (List.Sublist.refl [info])
        have hslots := hordered.slots.sublist hsub
        have hsignatures := hordered.signatures.sublist (hsub.map _)
        simp only [List.pairwise_cons, List.mem_singleton, forall_eq] at hslots
        simp only [List.map_cons, List.map_nil, List.nodup_cons, List.mem_singleton] at hsignatures
        simp only [cursorPast_append, Option.some.injEq, not_or, not_and]
        exact ⟨by omega, fun _ hsame => hsignatures.1 hsame⟩

/-- The cursor moves on, behind a transaction that is done. -/
theorem Indexed.advance {events : List LocatedEvent}
    (hevents : locatedEvents programId (world.transaction info.signature) = some events)
    (hnodup : (events.map (·.instructionIndex)).Nodup)
    (hdone : ∀ located ∈ events, s.Handled info.signature located.instructionIndex) :
    Indexed world programId start
      { s with cursor := advanceChainCursor s.cursor info.slot info.signature }
      (passed ++ [info]) := by
  constructor
  · exact h.wellOrdered
  · exact hnext
  · rw [cursorPast_append]
    exact congrArg (·.getD ⟨0, none⟩) (h.advanceChainCursor_next hnext)
  · intro other hother
    rcases List.mem_append.mp hother with hother | hother
    · exact h.handled other hother
    · obtain rfl := List.mem_singleton.mp hother
      exact ⟨events, hevents, hnodup, hdone⟩
  · intro row hrow
    obtain ⟨before, first, hplace, hbefore, hsig⟩ := h.placed row hrow
    exact ⟨before, first, hplace, hbefore.trans (List.prefix_append _ _), hsig⟩
  · exact h.once
  · exact h.faithful
  · exact h.skips
  · exact h.closed
  · exact h.ordered

end

end

end CalledIt.Indexer
