import CalledIt.Indexer.IndexRun

/-!
# CalledIt.Indexer.Working

A scan with a node that works.

Every transaction that has a signature is there, and its log can be read.  Then a scan
returns, unless more signatures are waiting than the backlog may have
(`ends_scan`).
-/

namespace CalledIt.Indexer

open Lib Lib.Program IndexProgram

variable {ρ : Type}

/-! ## answers of a node that works -/

section Works

variable (world : IndexWorld ρ) (source : SourceOptions)

/-- The node is of the right network, and has every transaction. -/
def IndexCall.Sound : (c : IndexCall) → c.Reply → Prop
  | .getGenesisHash, genesisHash => genesisHash = source.genesisHash
  | .getTransaction signature, transaction => transaction = some (world.transaction signature)
  | _, _ => True

def IndexCall.Works (c : IndexCall) (s : IndexTables ρ) (r : c.Reply) (t : IndexTables ρ) : Prop :=
  c.Answers world s r t ∧ c.Sound world source r

/-- The logs are those of invocations. -/
def Readable : Prop :=
  ∀ signature, (locatedEvents source.programId (world.transaction signature)).isSome

end Works

/-- The events that were resolved, each with what it found. -/
def IndexLog.resolved (log : IndexLog ρ) : List (EscrowProgramEvent × IndexTables ρ) :=
  log.filterMap fun
    | (.resolve event, u) => some (event, u)
    | _ => none

theorem IndexLog.resolved_append (log : IndexLog ρ) (entry : IndexCall × IndexTables ρ) :
    IndexLog.resolved (log ++ [entry]) = log.resolved ++ IndexLog.resolved [entry] :=
  List.filterMap_append

/-- More is waiting than the backlog may have. -/
def Overfull (source : SourceOptions) (start : Nat) (passed : List ConfirmedSignatureInfo)
    (first : IndexTables ρ) : Prop :=
  source.maximumBacklog < ((newer start first.history).drop passed.length).length

variable {world : IndexWorld ρ} {source : SourceOptions} {start : Nat} {s t u v : IndexTables ρ}
  {later : IndexTables ρ → IndexTables ρ → Prop} {passed raw : List ConfirmedSignatureInfo}
  {before : Option String} {S : IndexTables ρ × IndexLog ρ}

/-- No event has been resolved yet. -/
def Unresolved (s : IndexTables ρ × IndexLog ρ) : Prop := s.2.resolved = []

theorem Unresolved.call (h : Unresolved S) {c : IndexCall} (hc : IndexLog.resolved [(c, u)] = []) :
    Unresolved (t, S.2 ++ [(c, u)]) := by
  unfold Unresolved at h ⊢
  rw [IndexLog.resolved_append, h, hc]
  rfl

/-- Where more is waiting than the backlog may have, a scan throws. -/
def Overflows (world : IndexWorld ρ) (source : SourceOptions) (start : Nat)
    (later : IndexTables ρ → IndexTables ρ → Prop) (passed : List ConfirmedSignatureInfo)
    {α : Type} (r : Except IndexerError α) (s : IndexTables ρ × IndexLog ρ) : Prop :=
  ∃ e, r = .error e ∧ ∃ u, Scanning world source.programId start later passed u s ∧
    Overfull source start passed u

/-- What a part of a scan ends with: `P`, or more is waiting than the backlog may have. -/
def Scans (world : IndexWorld ρ) (source : SourceOptions) (start : Nat)
    (later : IndexTables ρ → IndexTables ρ → Prop) (passed : List ConfirmedSignatureInfo)
    {α : Type} (P : α → IndexTables ρ × IndexLog ρ → Prop) (r : Except IndexerError α)
    (s : IndexTables ρ × IndexLog ρ) : Prop :=
  Unresolved s ∧ (Returns P r s ∨ Overflows world source start later passed r s)

/-- An overfull backlog is passed on. -/
theorem ends_bind_scans {α β : Type} {p : IndexProgram α} {f : α → IndexProgram β}
    {P : α → IndexTables ρ × IndexLog ρ → Prop} {Q : β → IndexTables ρ × IndexLog ρ → Prop}
    (hp : Ends (IndexCall.Works world source) (Elsewhere later)
      (Scans world source start later passed P) p S)
    (hf : ∀ a t, Unresolved t → P a t → Ends (IndexCall.Works world source) (Elsewhere later)
      (Scans world source start later passed Q) (f a) t) :
    Ends (IndexCall.Works world source) (Elsewhere later)
      (Scans world source start later passed Q) (p >>= f) S := by
  refine ends_bind (P := fun a t => Unresolved t ∧ P a t) (hp.mono ?_) fun a t h => hf a t h.1 h.2
  rintro r t ⟨hnone, ⟨a, rfl, ha⟩ | ⟨e, rfl, hover⟩⟩
  · exact .inl ⟨a, rfl, hnone, ha⟩
  · exact .inr ⟨e, rfl, hnone, .inr ⟨e, rfl, hover⟩⟩

/-! ## the pages -/

theorem ends_page (hgrowth : ChainGrowth world later)
    (h : PageFrom world source.programId start later passed raw before S) (hnone : Unresolved S) :
    Ends (IndexCall.Works world source) (Elsewhere later)
      (Returns fun page t => Unresolved t ∧ ∃ old gap,
        Reached world source.programId start later passed old gap (raw ++ page) t ∧
          (page.length < signaturePageLimit → gap = []))
      (getSignaturesForAddress before (cursorPast start passed).signature signaturePageLimit) S :=
  ends_perform fun _ _ _ hothers hcall =>
    ⟨hnone.call rfl, (traces_page hgrowth h).performs hothers hcall.1⟩

/-- A page that goes on is of signatures that the cursor has not passed. -/
theorem last_mem_sinceCursor {history old gap page : List ConfirmedSignatureInfo}
    {last : ConfirmedSignatureInfo} (h : Behind start old passed) (hordered : WellOrdered history)
    (hhistory : history = old ++ gap ++ (raw ++ page).reverse) (hlast : last ∈ page)
    (hslot : (cursorPast start passed).signature = none → (cursorPast start passed).slot < last.slot) :
    last ∈ sinceCursor (cursorPast start passed) page := by
  refine List.mem_filter.mpr ⟨hlast, ?_⟩
  rcases List.eq_nil_or_concat passed with rfl | ⟨init, final, rfl⟩
  · have hnew : start < last.slot := hslot rfl
    simp [hnew.ne', hnew.le]
  · rw [List.concat_eq_append] at h ⊢
    have hslots := hordered.slots
    rw [hhistory, List.append_assoc] at hslots
    have hfinal : final ∈ newer start old := by simp [h.newer]
    have hle := (List.pairwise_append.mp hslots).2.2 final (mem_newer.mp hfinal).1 last
      (by simp [hlast])
    simp [hle]

theorem ends_collectSignatures (hgrowth : ChainGrowth world later) (pages : Nat)
    (raw : List ConfirmedSignatureInfo)
    (h : PageFrom world source.programId start later passed raw before S) (hnone : Unresolved S)
    (hfuel : source.maximumBacklog < pages + (sinceCursor (cursorPast start passed) raw).length)
    (hsmall : (sinceCursor (cursorPast start passed) raw).length ≤ source.maximumBacklog) :
    Ends (IndexCall.Works world source) (Elsewhere later)
      (Scans world source start later passed fun signatures t =>
        Collected world source.programId start later passed signatures t ∧
          signatures.length ≤ source.maximumBacklog)
      (collectSignatures source (cursorPast start passed) pages
        (sinceCursor (cursorPast start passed) raw) before) S := by
  induction pages generalizing raw before S with
  | zero => omega
  | succ pages ih =>
      refine ends_bind_ok (ends_page hgrowth h hnone) fun page t hpage => ?_
      obtain ⟨hnone, old, gap, ⟨u, hscanning, hhistory, hbehind⟩, hshort⟩ := hpage
      have hordered := hscanning.first.wellOrdered
      have hend : (gap = [] ∨ (cursorPast start passed).signature = none ∧
          ∃ last ∈ raw ++ page, last.slot ≤ (cursorPast start passed).slot) →
            Collected world source.programId start later passed
              (sinceCursor (cursorPast start passed) (raw ++ page)) t := fun hdone =>
        ⟨u, hscanning, hbehind.collected_eq hordered hhistory hdone⟩
      rw [← sinceCursor_append]
      dsimp only
      by_cases hbacklog : source.maximumBacklog <
          (sinceCursor (cursorPast start passed) (raw ++ page)).length
      · rw [if_pos hbacklog]
        refine ends_throw ⟨hnone, .inr ⟨_, rfl, u, hscanning, ?_⟩⟩
        unfold Overfull
        rw [hbehind.newer_eq hordered hhistory, List.append_assoc, List.drop_left,
          List.length_append, List.length_reverse]
        omega
      · rw [if_neg hbacklog]
        have hlength := Nat.le_of_not_lt hbacklog
        cases hlast : page.getLast? with
        | none =>
            obtain rfl := List.getLast?_eq_none_iff.mp hlast
            have hcollected := hend (.inl (hshort (by decide)))
            exact ends_pure ⟨hnone, .inl ⟨_, rfl, hcollected, hlength⟩⟩
        | some last =>
            have hmem := List.mem_of_getLast? hlast
            dsimp only
            split
            · next hstop =>
                have hcollected := hend (hstop.imp hshort fun hslot =>
                  ⟨hslot.1, last, List.mem_append_right _ hmem, hslot.2⟩)
                exact ends_pure ⟨hnone, .inl ⟨_, rfl, hcollected, hlength⟩⟩
            · next hmore =>
                refine ih _ ?_ hnone ?_ hlength
                · unfold PageFrom
                  rw [List.getLast?_append, hlast, Option.some_or]
                  exact ⟨rfl, old, gap, u, hscanning, hhistory, hbehind⟩
                · have hkept := last_mem_sinceCursor hbehind hordered hhistory hmem fun hnone => by
                    by_contra hslot
                    exact hmore (.inr ⟨hnone, by omega⟩)
                  have hpositive := List.length_pos_of_mem hkept
                  rw [sinceCursor_append, List.length_append]
                  omega

/-! ## the transactions -/

theorem ends_readTransactions (hgrowth : ChainGrowth world later) (hreadable : Readable world source)
    (infos : List ConfirmedSignatureInfo)
    (h : Scanning world source.programId start later passed u S) (hnone : Unresolved S) :
    Ends (IndexCall.Works world source) (Elsewhere later)
      (Returns fun transactions t => Unresolved t ∧
        Scanning world source.programId start later passed u t ∧
          List.Forall₂ (Reads world source) infos transactions)
      (readTransactions source infos) S := by
  induction infos generalizing S with
  | nil => exact returns_pure ⟨hnone, h, .nil⟩
  | cons info infos ih =>
      have hcall : Ends (IndexCall.Works world source) (Elsewhere later)
          (Returns fun transaction t => Unresolved t ∧
            Scanning world source.programId start later passed u t ∧
              transaction = some (world.transaction info.signature))
          (getTransaction info.signature) S := by
        refine ends_perform fun t transaction t' hothers hcall => ?_
        obtain ⟨⟨-, rfl⟩, hfound⟩ := hcall
        exact ⟨hnone.call rfl, h.call hgrowth hothers (by simp), hfound⟩
      refine ends_bind_ok hcall fun transaction t ⟨hnone, hscanning, hfound⟩ => ?_
      subst hfound
      obtain ⟨events, hevents⟩ := Option.isSome_iff_exists.mp (hreadable info.signature)
      dsimp only
      rw [hevents]
      refine ends_bind_ok (ih hscanning hnone) fun more t ⟨hnone, hscanning, hmore⟩ => ?_
      exact returns_pure ⟨hnone, hscanning, .cons ⟨rfl, rfl, rfl, rfl, hevents⟩ hmore⟩

/-! ## the scan -/

/-- A scan returns what is waiting, or there is too much of it. -/
theorem ends_scan (hgrowth : ChainGrowth world later) (hreadable : Readable world source)
    (limit : Nat) (h : Beginning world source.programId start passed S) (hnone : Unresolved S) :
    Ends (IndexCall.Works world source) (Elsewhere later)
      (Scans world source start later passed fun found t => ∃ u v signatures,
        Indexing world source.programId start later u v passed t ∧
          Found world source.programId start source limit passed u v signatures found ∧
            signatures.length ≤ source.maximumBacklog)
      (scan source (cursorPast start passed) limit) S := by
  have hgenesis : Ends (IndexCall.Works world source) (Elsewhere later)
      (Returns fun genesisHash t => Unresolved t ∧ Beginning world source.programId start passed t ∧
        genesisHash = source.genesisHash) getGenesisHash S := by
    refine ends_perform fun t _ t' hothers hcall => ?_
    exact ⟨hnone.call rfl, (traces_getGenesisHash hgrowth h).performs hothers hcall.1, hcall.2⟩
  refine ends_bind_ok hgenesis fun genesisHash t ⟨hnone, hbegin, hsame⟩ => ?_
  rw [if_neg (not_not.mpr hsame)]
  have hcollect := ends_collectSignatures hgrowth (source.maximumBacklog + 1) []
    ⟨rfl, hbegin⟩ hnone (by simp [sinceCursor]) (by simp [sinceCursor])
  have hsince : Ends (IndexCall.Works world source) (Elsewhere later)
      (Scans world source start later passed fun signatures t =>
        (∃ u, Scanning world source.programId start later passed u t ∧
          passed ++ signatures = newer start u.history) ∧
            signatures.length ≤ source.maximumBacklog)
      (signaturesSince source (cursorPast start passed)) t := by
    refine ends_bind_scans hcollect fun signatures t hnone ⟨⟨u, hscanning, hall⟩, hlength⟩ => ?_
    refine ends_pure ⟨hnone, .inl ⟨_, rfl, ⟨u, hscanning, hall⟩, ?_⟩⟩
    rwa [List.length_reverse]
  refine ends_bind_scans hsince fun signatures t hnone ⟨⟨u, hscanning, hall⟩, hlength⟩ => ?_
  refine ends_bind_ok (ends_readTransactions hgrowth hreadable (signatures.take limit) hscanning
    hnone) fun transactions t ⟨hnone, hscanning, hreads⟩ => ?_
  have hslot : Ends (IndexCall.Works world source) (Elsewhere later)
      (Returns fun slot t => Unresolved t ∧
        ∃ v, Indexing world source.programId start later u v passed t ∧ slot = v.finalizedSlot)
      getSlot t :=
    ends_perform fun _ _ _ hothers hcall =>
      ⟨hnone.call rfl, (traces_getSlot hgrowth hscanning).performs hothers hcall.1⟩
  refine ends_bind_ok hslot fun slot t ⟨hnone, v, hindexing, hslot⟩ => ?_
  refine ends_pure ⟨hnone, .inl ⟨_, rfl, u, v, signatures, hindexing,
    ⟨hscanning.first, hall, hreads, ?_⟩, hlength⟩⟩
  rw [hslot]

end CalledIt.Indexer
