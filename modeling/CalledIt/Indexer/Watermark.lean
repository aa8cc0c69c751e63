import CalledIt.Indexer.ExactlyOnce

/-!
# CalledIt.Indexer.Watermark

What the watermark of a run says.

The head is read after the signatures, so a transaction that is finalized in between is
at or below a watermark that the cursor has not reached; and a page that is cut within a
slot reports that slot.  In every other run the watermark is honest
(`watermark_honest_iff`).
-/

namespace CalledIt.Indexer

open Lib Lib.Program

variable {ρ : Type}

/-! ## finality -/

/-- Nothing is after the slot that the history goes up to. -/
def Final (s : IndexTables ρ) : Prop := ∀ info ∈ s.history, info.slot ≤ s.finalizedSlot

/-- What is finalized later is in later slots. -/
structure Finalizes (s t : IndexTables ρ) : Prop where
  history : ∃ more, t.history = s.history ++ more ∧ ∀ info ∈ more, s.finalizedSlot < info.slot
  slot : s.finalizedSlot ≤ t.finalizedSlot
  wellOrdered : WellOrdered s.history → WellOrdered t.history
  final : Final s → Final t

theorem finalizes_growth (world : IndexWorld ρ) : ChainGrowth world (Finalizes (ρ := ρ)) where
  refl s := ⟨⟨[], by simp, by simp⟩, le_rfl, id, id⟩
  trans h h' := by
    obtain ⟨more, hmore, hafter⟩ := h.history
    obtain ⟨more', hmore', hafter'⟩ := h'.history
    refine ⟨⟨more ++ more', by rw [hmore', hmore, List.append_assoc], fun info hinfo => ?_⟩,
      h.slot.trans h'.slot, fun hordered => h'.wellOrdered (h.wellOrdered hordered),
      fun hfinal => h'.final (h.final hfinal)⟩
    rcases List.mem_append.mp hinfo with hinfo | hinfo
    · exact hafter info hinfo
    · exact Nat.lt_of_le_of_lt h.slot (hafter' info hinfo)
  call h := by
    obtain ⟨hhistory, hslot⟩ := h.chain
    refine ⟨⟨[], by simp [hhistory], by simp⟩, hslot.ge, fun hordered => hhistory ▸ hordered, ?_⟩
    unfold Final
    rw [hhistory, hslot]
    exact id
  history h := by
    obtain ⟨more, hmore, -⟩ := h.history
    exact ⟨more, hmore.symm⟩
  wellOrdered h := h.wellOrdered

/-! ## the watermark -/

/-- Every transaction up to the slot of the watermark is behind the cursor. -/
def Honest (start : Nat) (report : IndexReport) (s : IndexTables ρ) : Prop :=
  ∀ info ∈ s.history, info.slot ≤ report.watermark → info ∈ s.projected start

/-- What the cursor had not passed when the first page of a run was read. -/
def waiting (start : Nat) (s first : IndexTables ρ) : List ConfirmedSignatureInfo :=
  (newer start first.history).drop (s.projected start).length

/-- A run that takes all that is waiting reads its head before anything else is finalized,
and a run that leaves some of it leaves no more of the last slot that it takes. -/
def Undisturbed (start limit : Nat) (s : IndexTables ρ) (log : IndexLog ρ) : Prop :=
  ∀ first head, log.firstPage = some first → log.head = some head →
    ((waiting start s first).length ≤ limit → head.history = first.history) ∧
      ∀ taken left, ((waiting start s first).take limit).getLast? = some taken →
        (waiting start s first)[limit]? = some left → taken.slot < left.slot

variable {world : IndexWorld ρ} {source : SourceOptions} {options : IndexerOptions}
  {start limit : Nat} {s t u : IndexTables ρ} {passed : List ConfirmedSignatureInfo}
  {report : IndexReport} {log : IndexLog ρ}

theorem cursorPast_slot (start : Nat) (passed : List ConfirmedSignatureInfo) :
    (cursorPast start passed).slot = (passed.getLast?.map (·.slot)).getD start := by
  unfold cursorPast
  cases passed.getLast? <;> rfl

theorem start_le_cursorPast {history : List ConfirmedSignatureInfo}
    (h : passed <+: newer start history) : start ≤ (cursorPast start passed).slot := by
  rw [cursorPast_slot]
  cases hlast : passed.getLast? with
  | none => exact le_rfl
  | some last => exact (mem_newer.mp (h.subset (List.mem_of_getLast? hlast))).2.le

theorem IndexLog.mem_of_firstPage (h : log.firstPage = some s) : ∃ c, (c, s) ∈ log := by
  obtain ⟨⟨c, u⟩, hmem, hfound⟩ := List.exists_of_findSome?_eq_some h
  split at hfound
  · next heq =>
      obtain ⟨rfl, rfl⟩ := Prod.mk.inj heq
      exact ⟨_, Option.some.inj hfound ▸ hmem⟩
  · cases hfound

section Histories

variable {first head : IndexTables ρ} {signatures : List ConfirmedSignatureInfo}

/-- Entries of a history come once. -/
theorem WellOrdered.disjoint {before after : List ConfirmedSignatureInfo}
    (h : WellOrdered (before ++ after)) {info : ConfirmedSignatureInfo} (hbefore : info ∈ before)
    (hafter : info ∈ after) : False := by
  have hnodup := h.signatures
  rw [List.map_append] at hnodup
  exact (List.nodup_append.mp hnodup).2.2 _ (List.mem_map_of_mem hbefore) _
    (List.mem_map_of_mem hafter) rfl

/-- The cursor never goes beyond what is final. -/
theorem cursorPast_final (hfinal : Final first) (hpassed : passed <+: newer start first.history) :
    passed = [] ∨ (cursorPast start passed).slot ≤ first.finalizedSlot := by
  rcases List.eq_nil_or_concat passed with rfl | ⟨before, last, rfl⟩
  · exact .inl rfl
  · rw [List.concat_eq_append] at hpassed ⊢
    have hmem : last ∈ newer start first.history := hpassed.subset (by simp)
    rw [cursorPast_append]
    exact .inr (hfinal last (mem_newer.mp hmem).1)

/-- A run that takes all that was waiting reports the head. -/
theorem honest_whole (hordered : WellOrdered u.history) (hfirst : Final first)
    (hhead : Final head) (hbetween : Finalizes first head) (hsince : Finalizes head u)
    (hwaiting : passed = newer start first.history) :
    (∀ info ∈ u.history,
      info.slot ≤ max head.finalizedSlot (cursorPast start passed).slot → info ∈ passed) ↔
      (∀ info ∈ u.history, start < info.slot) ∧ head.history = first.history := by
  obtain ⟨between, hsplit, hafter⟩ := hbetween.history
  obtain ⟨since, hsplit', hafter'⟩ := hsince.history
  have hpassed : passed <+: newer start first.history := ⟨[], by simp [hwaiting]⟩
  have hstart := start_le_cursorPast hpassed
  constructor
  · intro hhonest
    have hnew : ∀ info ∈ u.history, start < info.slot := fun info hinfo => by
      by_contra hold
      have hmem := hhonest info hinfo (by omega)
      rw [hwaiting] at hmem
      exact hold (mem_newer.mp hmem).2
    refine ⟨hnew, ?_⟩
    rw [hsplit, List.append_right_eq_self]
    refine List.eq_nil_iff_forall_not_mem.mpr fun info hinfo => ?_
    have hthere : info ∈ head.history := hsplit ▸ List.mem_append_right _ hinfo
    have hmem := hhonest info (hsplit' ▸ List.mem_append_left _ hthere)
      ((hhead info hthere).trans (le_max_left _ _))
    rw [hwaiting] at hmem
    rw [hsplit'] at hordered
    have hdisjoint : WellOrdered (first.history ++ (between ++ since)) := by
      rwa [← List.append_assoc, ← hsplit]
    exact hdisjoint.disjoint (mem_newer.mp hmem).1 (List.mem_append_left _ hinfo)
  · rintro ⟨hnew, hsame⟩ info hinfo hslot
    rw [hsplit'] at hinfo
    rcases List.mem_append.mp hinfo with hinfo | hinfo
    · rw [hwaiting]
      rw [hsame] at hinfo
      exact mem_newer.mpr ⟨hinfo, hnew info (hsplit' ▸ hsame ▸ List.mem_append_left _ hinfo)⟩
    · -- it is beyond the head, so the watermark would be the cursor, and that is no further
      have hbeyond := hafter' info hinfo
      have hlow := hnew info (hsplit' ▸ List.mem_append_right _ hinfo)
      have hslotle := hbetween.slot
      rcases cursorPast_final hfirst hpassed with hnil | hle
      · rw [hnil, cursorPast_nil] at hslot
        simp only [le_max_iff] at hslot
        omega
      · simp only [le_max_iff] at hslot
        omega

/-- A run that leaves some of what was waiting reports the cursor that it leaves. -/
theorem honest_cut (hordered : WellOrdered u.history) (hlimit : 0 < limit) (hfirst : Final first)
    (hbetween : Finalizes first head) (hsince : Finalizes head u)
    (hwaiting : passed ++ signatures = newer start first.history)
    (hcut : limit < signatures.length) :
    (∀ info ∈ u.history,
      info.slot ≤ (cursorPast start (passed ++ signatures.take limit)).slot →
        info ∈ passed ++ signatures.take limit) ↔
      (∀ info ∈ u.history, start < info.slot) ∧
        ∀ taken left, (signatures.take limit).getLast? = some taken →
          signatures[limit]? = some left → taken.slot < left.slot := by
  obtain ⟨between, hsplit, hafter⟩ := hbetween.history
  obtain ⟨since, hsplit', hafter'⟩ := hsince.history
  have hhistory : u.history = first.history ++ (between ++ since) := by
    rw [hsplit', hsplit, List.append_assoc]
  have hlater : ∀ info ∈ between ++ since, first.finalizedSlot < info.slot := fun info hinfo => by
    rcases List.mem_append.mp hinfo with hinfo | hinfo
    · exact hafter info hinfo
    · exact Nat.lt_of_le_of_lt hbetween.slot (hafter' info hinfo)
  have hfirstOrdered : WellOrdered first.history :=
    ⟨hordered.slots.sublist (hhistory ▸ List.sublist_append_left _ _),
      hordered.signatures.sublist ((hhistory ▸ List.sublist_append_left _ _ :
        first.history.Sublist u.history).map _)⟩
  -- the last one taken, and the first one left
  obtain ⟨last, hlast⟩ : ∃ last, (signatures.take limit).getLast? = some last := by
    cases hlast : (signatures.take limit).getLast? with
    | some last => exact ⟨last, rfl⟩
    | none =>
        have hlength := congrArg List.length (List.getLast?_eq_none_iff.mp hlast)
        rw [List.length_take, List.length_nil] at hlength
        omega
  obtain ⟨left, hleft, hdrop⟩ : ∃ left, signatures[limit]? = some left ∧
      signatures.drop limit = left :: signatures.drop (limit + 1) :=
    ⟨signatures[limit], List.getElem?_eq_getElem hcut, List.drop_eq_getElem_cons hcut⟩
  have hall : passed ++ signatures.take limit ++ signatures.drop limit =
      newer start first.history := by
    rw [List.append_assoc, List.take_append_drop, hwaiting]
  have hnewOrdered := hfirstOrdered.newer start
  rw [← hall] at hnewOrdered
  have hslot : (cursorPast start (passed ++ signatures.take limit)).slot = last.slot := by
    rw [cursorPast_slot, List.getLast?_append, hlast]
    rfl
  have hlastFinal : last.slot ≤ first.finalizedSlot := by
    have hmem : last ∈ newer start first.history := by
      rw [← hall]
      exact List.mem_append_left _ (List.mem_append_right _ (List.mem_of_getLast? hlast))
    exact hfirst last (mem_newer.mp hmem).1
  have hstart := start_le_cursorPast (hall ▸ List.prefix_append _ _ :
    passed ++ signatures.take limit <+: newer start first.history)
  rw [hslot] at hstart ⊢
  have hbetweenSlots : (∀ taken left, (signatures.take limit).getLast? = some taken →
      signatures[limit]? = some left → taken.slot < left.slot) ↔ last.slot < left.slot := by
    rw [hlast, hleft]
    refine ⟨fun h => h last left rfl rfl, fun h taken left' htaken hleft' => ?_⟩
    obtain rfl := Option.some.inj htaken
    obtain rfl := Option.some.inj hleft'
    exact h
  rw [hbetweenSlots]
  constructor
  · intro hhonest
    refine ⟨fun info hinfo => ?_, ?_⟩
    · by_contra hold
      have hmem := hhonest info hinfo (by omega)
      have hnew : info ∈ newer start first.history := hall ▸ List.mem_append_left _ hmem
      exact hold (mem_newer.mp hnew).2
    · by_contra hsame
      have hmem : left ∈ newer start first.history := by
        rw [← hall, hdrop]
        exact List.mem_append_right _ List.mem_cons_self
      refine hnewOrdered.disjoint (hhonest left ?_ (Nat.le_of_not_lt hsame)) ?_
      · exact hhistory ▸ List.mem_append_left _ (mem_newer.mp hmem).1
      · exact hdrop ▸ List.mem_cons_self
  · rintro ⟨hnew, hlt⟩ info hinfo hle
    rw [hhistory] at hinfo
    rcases List.mem_append.mp hinfo with hinfo | hinfo
    · have hmem : info ∈ newer start first.history :=
        mem_newer.mpr ⟨hinfo, hnew info (hhistory ▸ List.mem_append_left _ hinfo)⟩
      rw [← hall] at hmem
      refine (List.mem_append.mp hmem).resolve_right fun hlate => ?_
      have hslots := (List.pairwise_append.mp hnewOrdered.slots).2.1
      rw [hdrop] at hlate hslots
      rcases List.mem_cons.mp hlate with rfl | hlate
      · omega
      · have := (List.pairwise_cons.mp hslots).1 info hlate
        omega
    · have := hlater info hinfo
      omega

end Histories

/-! ## every run -/

theorem IndexLog.mem_of_head (h : log.head = some s) : ∃ c, (c, s) ∈ log := by
  obtain ⟨⟨c, u⟩, hmem, hfound⟩ := List.exists_of_findSome?_eq_some h
  split at hfound
  · next heq =>
      obtain ⟨rfl, rfl⟩ := Prod.mk.inj heq
      exact ⟨_, Option.some.inj hfound ▸ hmem⟩
  · cases hfound

theorem finalizes_order (world : IndexWorld ρ) :
    Interference (IndexCall.Answers world) (Finalizes (ρ := ρ)) where
  refl := (finalizes_growth world).refl
  trans := (finalizes_growth world).trans
  call := (finalizes_growth world).call

theorem IndexRuns.final (hfinal : Final s)
    (hruns : IndexRuns world source options Finalizes s t) : Final t := by
  induction hruns with
  | refl => exact hfinal
  | tail _ hstep ih =>
      cases hstep with
      | run limit hrun => exact (hrun.later (finalizes_order world) Elsewhere.later).final ih
      | others hothers => exact hothers.later.final ih

/-- A watermark is honest where nothing is below the start, and the run was undisturbed. -/
theorem watermark_honest_iff (hfresh : Fresh start s) (hfinal : Final s)
    (hruns : IndexRuns world source options Finalizes s t)
    (hrun : Executes (Traced (IndexCall.Answers world) (Elsewhere Finalizes))
      (runOnce source options limit) (t, []) (.ok report) (u, log)) :
    Honest start report u ↔
      (∀ info ∈ u.history, start < info.slot) ∧ Undisturbed start limit t log := by
  have hgrowth := finalizes_growth world
  obtain ⟨passed, -, ht⟩ := IndexRuns.indexed hgrowth hfresh.indexed hruns
  have hran := (traces_runOnce hgrowth source options limit ht).executes hrun
  obtain ⟨hlimit, first, head, signatures, hindexing, -, hwaiting, hwatermark⟩ := hran.2 report rfl
  have hlogged : ∀ {c v}, (c, v) ∈ log → Final v := fun {c v} hentry => by
    have hlater := (meets_logged (finalizes_order world) Elsewhere.later _ _).executes hrun
      (c, v) hentry
    exact (hlater.resolve_left List.not_mem_nil).final (hruns.final hfinal)
  obtain ⟨c, hfirst⟩ := IndexLog.mem_of_firstPage hindexing.page
  obtain ⟨c', hhead⟩ := IndexLog.mem_of_head hindexing.head
  have hwait : waiting start t first = signatures := by
    rw [waiting, ht.projected_eq, ← hwaiting, List.drop_left]
  have hundisturbed : Undisturbed start limit t log ↔
      (signatures.length ≤ limit → head.history = first.history) ∧
        ∀ taken left, (signatures.take limit).getLast? = some taken →
          signatures[limit]? = some left → taken.slot < left.slot := by
    refine ⟨fun h => hwait ▸ h first head hindexing.page hindexing.head, fun h => ?_⟩
    intro first' head' hpage hhead'
    obtain rfl := Option.some.inj (hindexing.page.symm.trans hpage)
    obtain rfl := Option.some.inj (hindexing.head.symm.trans hhead')
    exact hwait.symm ▸ h
  have hordered := hindexing.indexed.wellOrdered
  unfold Honest
  rw [hindexing.indexed.projected_eq, hwatermark, hundisturbed]
  dsimp only
  by_cases hcut : limit < signatures.length
  · rw [if_pos hcut, honest_cut hordered hlimit (hlogged hfirst) hindexing.between hindexing.since
      hwaiting hcut]
    simp [not_le.mpr hcut]
  · have hle := Nat.le_of_not_lt hcut
    rw [if_neg hcut, List.take_of_length_le hle]
    rw [honest_whole hordered (hlogged hfirst) (hlogged hhead) hindexing.between hindexing.since
      hwaiting]
    simp [hle]

namespace Sample

/-- Another transaction is finalized before the head is read. -/
def finalizeBeforeHead (c : IndexCall) (s : IndexTables Bool) : IndexTables Bool :=
  match c with
  | .getSlot =>
      if s.history = [⟨"pause", 5⟩] ∧ s.finalizedSlot = 7 then
        { s with history := [⟨"pause", 5⟩, ⟨"pair", 8⟩], finalizedSlot := 9 }
      else s
  | _ => s

theorem elsewhere_finalizeBeforeHead (c : IndexCall) (s : IndexTables Bool) :
    Elsewhere Finalizes s (finalizeBeforeHead c s) := by
  have hsame : Elsewhere Finalizes s s := ⟨(finalizes_growth indexWorld).refl s, rfl, rfl, rfl⟩
  have hordered : WellOrdered [⟨"pause", 5⟩, ⟨"pair", 8⟩] := ⟨by decide, by decide⟩
  unfold finalizeBeforeHead
  split
  · split
    · next hold =>
        refine ⟨⟨⟨[⟨"pair", 8⟩], by simp [hold.1], by simp [hold.2]⟩, by simp [hold.2],
          fun _ => hordered, fun _ => ?_⟩, rfl, rfl, rfl⟩
        simp [Final]
    · exact hsame
  · exact hsame

/-- The answers, after what is finalized, with the log. -/
def logged (others : IndexCall → IndexTables Bool → IndexTables Bool) (c : IndexCall)
    (s : IndexTables Bool × IndexLog Bool) : c.Reply × (IndexTables Bool × IndexLog Bool) :=
  let found := others c s.1
  ((answer c found).1, (answer c found).2, s.2 ++ [(c, found)])

theorem executes_logged (others : IndexCall → IndexTables Bool → IndexTables Bool)
    (hothers : ∀ c s, Elsewhere Finalizes s (others c s)) (limit : Nat) (s : IndexTables Bool) :
    Executes (Traced (IndexCall.Answers indexWorld) (Elsewhere Finalizes))
      (runOnce indexSource indexOptions limit) (s, [])
      (run (logged others) (runOnce indexSource indexOptions limit) (s, [])).1
      (run (logged others) (runOnce indexSource indexOptions limit) (s, [])).2 :=
  executes_run (fun c s => ⟨others c s.1, hothers c s.1, answers_answer c _, rfl⟩) _ _

/-- One transaction, and no other. -/
def pauseTables : IndexTables Bool := { freshTables with history := [⟨"pause", 5⟩] }

/-- Two transactions of one slot. -/
def slotTables : IndexTables Bool := { freshTables with history := [⟨"pause", 5⟩, ⟨"pair", 5⟩] }

theorem exists_report {others : IndexCall → IndexTables Bool → IndexTables Bool}
    (hothers : ∀ c s, Elsewhere Finalizes s (others c s)) (limit watermark : Nat)
    (s : IndexTables Bool)
    (h : (run (logged others) (runOnce indexSource indexOptions limit) (s, [])).1.toOption.map
      (·.watermark) = some watermark) :
    ∃ report, report.watermark = watermark ∧
      Executes (Traced (IndexCall.Answers indexWorld) (Elsewhere Finalizes))
        (runOnce indexSource indexOptions limit) (s, []) (.ok report)
        (run (logged others) (runOnce indexSource indexOptions limit) (s, [])).2 := by
  have hrun := executes_logged others hothers limit s
  cases hresult : (run (logged others) (runOnce indexSource indexOptions limit) (s, [])).1 with
  | error e => simp [hresult, Except.toOption] at h
  | ok report =>
      rw [hresult] at h hrun
      exact ⟨report, Option.some.inj h, hrun⟩

/-- Nothing is finalized. -/
def quiet (_ : IndexCall) (s : IndexTables Bool) : IndexTables Bool := s

theorem elsewhere_quiet (c : IndexCall) (s : IndexTables Bool) :
    Elsewhere Finalizes s (quiet c s) :=
  ⟨(finalizes_growth indexWorld).refl s, rfl, rfl, rfl⟩

/-- Where nothing else is finalized, the watermark is honest. -/
theorem honest_quiet : ∃ report u log,
    Executes (Traced (IndexCall.Answers indexWorld) (Elsewhere Finalizes))
      (runOnce indexSource indexOptions 10) (freshTables, []) (.ok report) (u, log) ∧
    report.watermark = 7 ∧ Honest 0 report u ∧ Undisturbed 0 10 freshTables log := by
  obtain ⟨report, hwatermark, hrun⟩ := exists_report elsewhere_quiet 10 7 freshTables (by decide +kernel)
  have hhonest : Honest 0 report
      (run (logged quiet) (runOnce indexSource indexOptions 10) (freshTables, [])).2.1 := by
    unfold Honest
    rw [hwatermark]
    decide +kernel
  have hfinal : Final freshTables := by simp [Final, freshTables]
  have hiff := watermark_honest_iff fresh_freshTables hfinal .refl hrun
  exact ⟨report, _, _, hrun, hwatermark, hhonest, (hiff.mp hhonest).2⟩

/-- A transaction of slot 8 is finalized before the head is read, which is slot 9; and of two
transactions of slot 5, one is left by a run that takes one. -/
theorem pair_unprojected :
    (∃ report u log, Executes (Traced (IndexCall.Answers indexWorld) (Elsewhere Finalizes))
      (runOnce indexSource indexOptions 10) (pauseTables, []) (.ok report) (u, log) ∧
        report.watermark = 9 ∧ ⟨"pair", 8⟩ ∈ u.history ∧ u.projected 0 = [⟨"pause", 5⟩]) ∧
    ∃ report u log, Executes (Traced (IndexCall.Answers indexWorld) (Elsewhere Finalizes))
      (runOnce indexSource indexOptions 1) (slotTables, []) (.ok report) (u, log) ∧
        report.watermark = 5 ∧ ⟨"pair", 5⟩ ∈ u.history ∧ u.projected 0 = [⟨"pause", 5⟩] := by
  constructor
  · obtain ⟨report, hwatermark, hrun⟩ := exists_report elsewhere_finalizeBeforeHead 10 9 pauseTables
      (by decide +kernel)
    exact ⟨report, _, _, hrun, hwatermark, by decide +kernel, by decide +kernel⟩
  · obtain ⟨report, hwatermark, hrun⟩ := exists_report elsewhere_quiet 1 5 slotTables (by decide +kernel)
    exact ⟨report, _, _, hrun, hwatermark, by decide +kernel, by decide +kernel⟩

end Sample

end CalledIt.Indexer
