import CalledIt.Escrow.Outcome

/-!
# CalledIt.Escrow.Epoch

The anti-snipe guard: event epochs and the activation window.

The event epoch counts the freezes and unfreezes of a market.  A lot placed in
play waits for its window and may only be activated in the epoch it was placed
in; `LotHistory` is the certificate that a stored lot did so, read off the trace
of the run.  `Effect.lot_cases` says where the lots of a ledger come from.
-/

namespace CalledIt.Escrow

open Lib

/-! ## counting epochs -/

/-- Freezing and unfreezing move the epoch on. -/
def Entry.shifts : Entry → Bool
  | .emitted _ (.marketFrozen _) | .emitted _ (.marketUnfrozen _) => true
  | _ => false

def epochChanges (trace : List Entry) : Nat := trace.countP Entry.shifts

theorem epochChanges_append (trace trace' : List Entry) :
    epochChanges (trace ++ trace') = epochChanges trace + epochChanges trace' :=
  List.countP_append

theorem epochChanges_singleton (entry : Entry) :
    epochChanges [entry] = if entry.shifts then 1 else 0 := by
  simp [epochChanges]

variable {rt : Runtime} {L L' : Ledger} {entry : Entry}

/-- Kickoff and window are fixed, and the epoch moves on exactly at a freeze or
an unfreeze. -/
theorem Effect.epoch (h : Effect rt L entry L') :
    L'.market.eventEpoch.toNat = L.market.eventEpoch.toNat + epochChanges [entry] ∧
      L'.market.inPlayStartTimestamp = L.market.inPlayStartTimestamp ∧
      L'.market.activationDelaySeconds = L.market.activationDelaySeconds := by
  cases h with
  | froze opens next => exact ⟨next, rfl, rfl⟩
  | unfroze frozen next => exact ⟨next, rfl, rfl⟩
  | placed h =>
      have ht := h.booked.terms
      exact ⟨congrArg UInt64.toNat ht.eventEpoch, ht.inPlayStartTimestamp,
        ht.activationDelaySeconds⟩
  | activated h =>
      have ht := h.booked.terms
      exact ⟨congrArg UInt64.toNat ht.eventEpoch, ht.inPlayStartTimestamp,
        ht.activationDelaySeconds⟩
  | invalidated h =>
      have ht := h.booked.terms
      exact ⟨congrArg UInt64.toNat ht.eventEpoch, ht.inPlayStartTimestamp,
        ht.activationDelaySeconds⟩
  | began begins emits =>
      obtain ⟨_, _, pots, _, rfl⟩ := beginSettlement_ok_iff.mp begins
      obtain ⟨e, rfl⟩ | ⟨e, rfl⟩ := emits
      · exact ⟨rfl, rfl, rfl⟩
      · exact ⟨rfl, rfl, rfl⟩
  | entitled position h emits =>
      rw [h.market]
      obtain ⟨e, rfl⟩ | ⟨e, rfl⟩ := emits
      · exact ⟨rfl, rfl, rfl⟩
      · exact ⟨rfl, rfl, rfl⟩
  | voided voids =>
      obtain ⟨_, rfl⟩ := transitionToVoid_ok_iff.mp voids
      exact ⟨rfl, rfl, rfl⟩
  | claimed h =>
      rw [h.market]
      exact ⟨rfl, rfl, rfl⟩
  | lotsClosed => exact ⟨rfl, rfl, rfl⟩
  | positionClosed => exact ⟨rfl, rfl, rfl⟩
  | closed => exact ⟨rfl, rfl, rfl⟩
  | received => exact ⟨rfl, rfl, rfl⟩

/-! ## where lots come from -/

/-- A lot stored after a step was there before, or the step placed, activated
or invalidated it. -/
inductive LotStep (rt : Runtime) (L : Ledger) (key : Pubkey × UInt64) (lot' : PositionLot) :
    Entry → Prop
  | kept {entry : Entry} (stored : L.lots.lookup key = some lot')
      (other : ∀ clock e, entry = .emitted clock (.positionPlaced e) → key ≠ (e.owner, e.nonce)) :
      LotStep rt L key lot' entry
  | placed {clock : Clock} {e : PositionPlaced} {p p' : UserPosition} {m' : Market}
      {vault' : AccountInfo} (h : Placed rt L clock e p m' p' lot' vault')
      (here : key = (e.owner, e.nonce)) :
      LotStep rt L key lot' (.emitted clock (.positionPlaced e))
  | activated {clock : Clock} {e : PositionActivated} {lot : PositionLot} {t : Int64}
      (stored : L.lots.lookup key = some lot) (here : key = (e.owner, e.nonce))
      (active : lot' = { lot with state := .active }) (pending : lot.state = .pending)
      (observed : lot.observedEventEpoch = L.market.eventEpoch)
      (after : lot.activationTimestamp = some t) (elapsed : t ≤ clock.unixTimestamp) :
      LotStep rt L key lot' (.emitted clock (.positionActivated e))
  | invalidated {clock : Clock} {e : PositionInvalidated} {lot : PositionLot}
      (stored : L.lots.lookup key = some lot) (here : key = (e.owner, e.nonce))
      (voided : lot' = { lot with
        state := .voided
        invalidationEvidenceHash := some e.evidenceHash })
      (inPlay : lot.activationTimestamp.isSome)
      (behind : lot.observedEventEpoch < e.eventEpoch)
      (reached : e.eventEpoch ≤ L.market.eventEpoch) :
      LotStep rt L key lot' (.emitted clock (.positionInvalidated e))

variable {key : Pubkey × UInt64}

theorem Effect.lotStep (h : Effect rt L entry L') {lot' : PositionLot}
    (hlot : L'.lots.lookup key = some lot') :
    LotStep rt L key lot' entry := by
  cases h with
  | placed h =>
      rcases Store.lookup_insert_iff.mp hlot with ⟨hkey, rfl⟩ | ⟨hne, hlot⟩
      · exact .placed h hkey
      · refine .kept hlot ?_
        intro clock e he
        obtain ⟨_, rfl⟩ : _ ∧ _ := by simpa using he
        exact hne
  | activated h pending observed after elapsed =>
      rcases Store.lookup_insert_iff.mp hlot with ⟨rfl, rfl⟩ | ⟨_, hlot⟩
      · exact .activated h.stored rfl rfl pending observed after elapsed
      · exact .kept hlot (by simp)
  | invalidated h notVoided inPlay behind reached =>
      rcases Store.lookup_insert_iff.mp hlot with ⟨rfl, rfl⟩ | ⟨_, hlot⟩
      · exact .invalidated h.stored rfl rfl inPlay behind reached
      · exact .kept hlot (by simp)
  | lotsClosed h =>
      rw [h.lots key] at hlot
      split at hlot
      · contradiction
      · exact .kept hlot (by simp)
  | began begins emits =>
      obtain ⟨e, rfl⟩ | ⟨e, rfl⟩ := emits
      · exact .kept hlot (by simp)
      · exact .kept hlot (by simp)
  | entitled position h emits =>
      obtain ⟨e, rfl⟩ | ⟨e, rfl⟩ := emits
      · exact .kept hlot (by simp)
      · exact .kept hlot (by simp)
  | froze => exact .kept hlot (by simp)
  | unfroze => exact .kept hlot (by simp)
  | voided => exact .kept hlot (by simp)
  | claimed => exact .kept hlot (by simp)
  | positionClosed => exact .kept hlot (by simp)
  | closed => exact .kept hlot (by simp)
  | received => exact .kept hlot (by simp)

/-- Only a terminal market gives up a lot. -/
theorem Effect.lot_isSome (h : Effect rt L entry L') (hlive : L.market.state.Live)
    (hlot : (L.lots.lookup key).isSome) : (L'.lots.lookup key).isSome := by
  cases h with
  | placed h =>
      rw [AList.lookup_isSome, AList.mem_insert, ← AList.lookup_isSome]
      exact .inr hlot
  | activated h =>
      rw [AList.lookup_isSome, AList.mem_insert, ← AList.lookup_isSome]
      exact .inr hlot
  | invalidated h =>
      rw [AList.lookup_isSome, AList.mem_insert, ← AList.lookup_isSome]
      exact .inr hlot
  | lotsClosed h => exact absurd hlive h.terminal.not_live
  | froze => exact hlot
  | unfroze => exact hlot
  | began => exact hlot
  | entitled => exact hlot
  | voided => exact hlot
  | claimed => exact hlot
  | positionClosed => exact hlot
  | closed => exact hlot
  | received => exact hlot

/-! ## histories -/

def Entry.places (key : Pubkey × UInt64) : Entry → Bool
  | .emitted _ (.positionPlaced e) => (e.owner, e.nonce) = key
  | _ => false

/-- Since its placement the lot was activated: after its window, and with no
freeze or unfreeze in between. -/
def Outlived (key : Pubkey × UInt64) (lot : PositionLot) (since : List Entry) : Prop :=
  ∃ between clock e rest, since = between ++ .emitted clock (.positionActivated e) :: rest ∧
    key = (e.owner, e.nonce) ∧
    lot.placedTimestamp.toInt + 150 ≤ clock.unixTimestamp.toInt ∧ epochChanges between = 0

/-- What the trace says about a stored lot: its placement, and for an active lot
placed in play that it outlived its window. -/
structure LotHistory (trace : List Entry) (kickoff : Int64) (key : Pubkey × UInt64)
    (lot : PositionLot) (before since : List Entry) : Prop where
  placed : ∃ clock e, trace = before ++ .emitted clock (.positionPlaced e) :: since ∧
    key = (e.owner, e.nonce) ∧ lot.placedTimestamp = clock.unixTimestamp
  observed : lot.observedEventEpoch.toNat = epochChanges before
  window : (lot.placedTimestamp < kickoff ∧ lot.activationTimestamp = none ∧
      lot.state = .active) ∨
    (kickoff ≤ lot.placedTimestamp ∧
      (∃ t, lot.activationTimestamp = some t ∧ t.toInt = lot.placedTimestamp.toInt + 150) ∧
      (lot.state = .active → Outlived key lot since))

variable {lot : PositionLot} {since : List Entry}

theorem Outlived.snoc (h : Outlived key lot since)
    (entry : Entry) : Outlived key lot (since ++ [entry]) := by
  obtain ⟨between, clock, e, rest, rfl, hkey, hwindow, hepoch⟩ := h
  refine ⟨between, clock, e, rest ++ [entry], ?_, hkey, hwindow, hepoch⟩
  rw [List.append_assoc, List.cons_append]

variable {trace before : List Entry} {kickoff : Int64}

theorem LotHistory.snoc (h : LotHistory trace kickoff key lot before since) (entry : Entry) :
    LotHistory (trace ++ [entry]) kickoff key lot before (since ++ [entry]) := by
  obtain ⟨⟨clock, e, rfl, hkey, hplaced⟩, hobserved, hwindow⟩ := h
  refine ⟨⟨clock, e, ?_, hkey, hplaced⟩, hobserved, ?_⟩
  · rw [List.append_assoc, List.cons_append]
  · rcases hwindow with hearly | ⟨hlate, hafter, houtlived⟩
    · exact .inl hearly
    · exact .inr ⟨hlate, hafter, fun hactive => (houtlived hactive).snoc entry⟩

/-- The epoch of a market is in step with its trace, and so are its lots. -/
structure EpochInv (trace : List Entry) (L : Ledger) : Prop where
  epoch : L.market.eventEpoch.toNat = epochChanges trace
  delay : L.market.activationDelaySeconds = positionActivationDelaySecondsV1
  lots : ∀ {key lot}, L.lots.lookup key = some lot →
    ∃ before since, LotHistory trace L.market.inPlayStartTimestamp key lot before since
  once : ∀ key, trace.countP (Entry.places key) ≤ 1
  unplaced : L.market.state.Live → ∀ {key}, L.lots.lookup key = none →
    trace.countP (Entry.places key) = 0

theorem Placed.history {clock : Clock} {e : PositionPlaced} {p p' : UserPosition} {m' : Market}
    {vault' : AccountInfo} (h : Placed rt L clock e p m' p' lot vault') (hinv : EpochInv trace L) :
    LotHistory (trace ++ [.emitted clock (.positionPlaced e)]) L.market.inPlayStartTimestamp
      (e.owner, e.nonce) lot trace [] := by
  refine ⟨⟨clock, e, rfl, rfl, h.placedAt⟩, ?_, ?_⟩
  · rw [h.observed]
    exact hinv.epoch
  · have hwindow := h.window
    rw [← h.placedAt] at hwindow
    rcases hwindow with ⟨hactive, hearly, hnone⟩ | ⟨hpending, hlate, t, ht, hsum⟩
    · exact .inl ⟨hearly, hnone, hactive⟩
    · refine .inr ⟨hlate, ⟨t, ht, ?_⟩, ?_⟩
      · rw [hsum, hinv.delay]
        rfl
      · intro hactive
        rw [hpending] at hactive
        contradiction

/-- Activation certifies that no epoch has passed since the placement. -/
theorem LotHistory.activate {clock : Clock} {e : PositionActivated} {t : Int64}
    (h : LotHistory trace kickoff key lot before since) (hkey : key = (e.owner, e.nonce))
    (hobserved : lot.observedEventEpoch.toNat = epochChanges trace)
    (hafter : lot.activationTimestamp = some t) (helapsed : t ≤ clock.unixTimestamp) :
    LotHistory (trace ++ [.emitted clock (.positionActivated e)]) kickoff key
      { lot with state := .active } before (since ++ [.emitted clock (.positionActivated e)]) := by
  have hbefore := h.observed
  have hlonger := h.snoc (.emitted clock (.positionActivated e))
  refine ⟨hlonger.placed, hbefore, ?_⟩
  rcases h.window with ⟨_, hnone, _⟩ | ⟨hlate, ⟨t', ht', hsum⟩, _⟩
  · rw [hafter] at hnone
    contradiction
  · refine .inr ⟨hlate, ⟨t', ht', hsum⟩, fun _ => ⟨since, clock, e, [], rfl, hkey, ?_, ?_⟩⟩
    · obtain rfl := Option.some.inj (hafter.symm.trans ht')
      have hle := Int64.le_iff_toInt_le.mp helapsed
      change lot.placedTimestamp.toInt + 150 ≤ _
      omega
    · obtain ⟨_, _, htrace, _⟩ := h.placed
      rw [htrace, epochChanges_append] at hobserved
      unfold epochChanges at hobserved hbefore ⊢
      rw [List.countP_cons] at hobserved
      omega

/-- A lot that is voided was placed in play. -/
theorem LotHistory.invalidate (entry : Entry) {hash : Bytes 32}
    (h : LotHistory trace kickoff key lot before since) (hinPlay : lot.activationTimestamp.isSome) :
    LotHistory (trace ++ [entry]) kickoff key
      { lot with state := .voided, invalidationEvidenceHash := some hash } before
      (since ++ [entry]) := by
  refine ⟨(h.snoc entry).placed, h.observed, ?_⟩
  rcases h.window with ⟨_, hnone, _⟩ | ⟨hlate, hafter, _⟩
  · rw [hnone] at hinPlay
    contradiction
  · refine .inr ⟨hlate, hafter, ?_⟩
    intro hactive
    contradiction

/-! ## along a run -/

theorem countP_places_snoc (key : Pubkey × UInt64) (trace : List Entry) (entry : Entry) :
    (trace ++ [entry]).countP (Entry.places key) =
      trace.countP (Entry.places key) + if entry.places key then 1 else 0 := by
  rw [List.countP_append, List.countP_singleton]

theorem EpochInv.lots_snoc (hinv : EpochInv trace L) (h : Effect rt L entry L')
    (hlot : L'.lots.lookup key = some lot) :
    ∃ before since, LotHistory (trace ++ [entry]) L.market.inPlayStartTimestamp key lot
      before since := by
  cases h.lotStep hlot with
  | kept stored =>
      obtain ⟨before, since, hhistory⟩ := hinv.lots stored
      exact ⟨before, _, hhistory.snoc entry⟩
  | placed hplaced here =>
      rw [here]
      exact ⟨trace, [], hplaced.history hinv⟩
  | activated stored here active pending observed after elapsed =>
      obtain ⟨before, since, hhistory⟩ := hinv.lots stored
      have hepoch := hinv.epoch
      rw [← observed] at hepoch
      rw [active]
      exact ⟨before, _, hhistory.activate here hepoch after elapsed⟩
  | invalidated stored here voided inPlay =>
      obtain ⟨before, since, hhistory⟩ := hinv.lots stored
      rw [voided]
      exact ⟨before, _, hhistory.invalidate _ inPlay⟩

/-- A placement needs a lot address that was never used before. -/
theorem EpochInv.unplaced_of_places (hinv : EpochInv trace L) (h : Effect rt L entry L')
    (hplaces : entry.places key) :
    trace.countP (Entry.places key) = 0 ∧ (L'.lots.lookup key).isSome := by
  cases h with
  | placed h =>
      obtain rfl := of_decide_eq_true hplaces
      refine ⟨hinv.unplaced (.inl h.opens) h.freshLot, ?_⟩
      rw [AList.lookup_insert]
      rfl
  | began begins emits => obtain ⟨e, rfl⟩ | ⟨e, rfl⟩ := emits <;> contradiction
  | entitled position h emits => obtain ⟨e, rfl⟩ | ⟨e, rfl⟩ := emits <;> contradiction
  | _ => contradiction

theorem EpochInv.snoc (hinv : EpochInv trace L)
    (h : Effect rt L entry L') : EpochInv (trace ++ [entry]) L' := by
  obtain ⟨hepoch, hkickoff, hdelay⟩ := h.epoch
  refine ⟨?_, hdelay.trans hinv.delay, ?_, ?_, ?_⟩
  · rw [hepoch, hinv.epoch, epochChanges_append]
  · intro key lot hlot
    rw [hkickoff]
    exact hinv.lots_snoc h hlot
  · intro key
    rw [countP_places_snoc]
    have honce := hinv.once key
    split
    · next hplaces =>
      have hzero := (hinv.unplaced_of_places h hplaces).1
      omega
    · exact honce
  · intro hlive key hnone
    have hbefore := (h.verdict_of_live hlive).1
    have hunstored : L.lots.lookup key = none := by
      cases hlot : L.lots.lookup key with
      | none => rfl
      | some lot =>
          have hsome := h.lot_isSome hbefore (Option.isSome_iff_exists.mpr ⟨lot, hlot⟩)
          rw [hnone] at hsome
          contradiction
    rw [countP_places_snoc, hinv.unplaced hbefore hunstored, if_neg]
    intro hplaces
    have hsome := (hinv.unplaced_of_places h hplaces).2
    rw [hnone] at hsome
    contradiction

theorem Fresh.epochInv (h : Fresh rt L) : EpochInv [] L := by
  refine ⟨?_, h.delay, ?_, fun _ => Nat.zero_le 1, fun _ _ _ => rfl⟩
  · rw [h.epoch]
    rfl
  · intro key lot hlot
    rw [h.lots] at hlot
    contradiction

theorem epochInv_of_life {opening : Ledger} (h : Life rt opening trace L) : EpochInv trace L :=
  h.run.invariant_trace (fun hs hi => hi.snoc (effect_of_step hs))
    (fresh_of_opened h.opened).epochInv

/-! ## stale lots -/

/-- The lot at `key` can no longer become active. -/
def Stale (key : Pubkey × UInt64) (L : Ledger) : Prop :=
  match L.lots.lookup key with
  | some lot => lot.state ≠ .active ∧ lot.observedEventEpoch.toNat < L.market.eventEpoch.toNat
  | none => ¬ L.market.state.Live

theorem Effect.stale (h : Effect rt L entry L') (hstale : Stale key L) : Stale key L' := by
  have hepoch := h.epoch.1
  unfold Stale at hstale ⊢
  cases hlot' : L'.lots.lookup key with
  | none =>
      intro hlive
      have hbefore := (h.verdict_of_live hlive).1
      cases hlot : L.lots.lookup key with
      | none =>
          rw [hlot] at hstale
          exact hstale hbefore
      | some lot =>
          have hsome := h.lot_isSome hbefore (Option.isSome_iff_exists.mpr ⟨lot, hlot⟩)
          rw [hlot'] at hsome
          contradiction
  | some lot' =>
      cases h.lotStep hlot' with
      | kept stored =>
          rw [stored] at hstale
          obtain ⟨hstate, hbehind⟩ := hstale
          exact ⟨hstate, by omega⟩
      | placed hplaced here =>
          have hfresh := hplaced.freshLot
          rw [← here] at hfresh
          rw [hfresh] at hstale
          exact absurd (.inl hplaced.opens) hstale
      | activated stored here active pending observed =>
          rw [stored] at hstale
          have hbehind := hstale.2
          rw [observed] at hbehind
          exact absurd hbehind (Nat.lt_irrefl _)
      | invalidated stored here voided =>
          rw [stored] at hstale
          rw [voided]
          exact ⟨by simp, Nat.lt_of_lt_of_le hstale.2 (by omega)⟩

/-! ## the money at stake -/

/-- The amount a lot has at stake on a side. -/
def stakeWeight (side : PositionSide) (_ : Pubkey × UInt64) (lot : PositionLot) : Nat :=
  if lot.side = side ∧ lot.state = .active then lot.amount.toNat else 0

/-- The active total of a side is the sum of its active lots. -/
theorem Ledger.activeTotal_eq_lots (hw : L.WellFormed) (hr : L.RolledUp) (side : PositionSide) :
    (L.market.activeTotal side).toNat = L.lots.total (stakeWeight side) := by
  -- every position's amount is a sum over lots; exchange the two sums
  have hpositions : L.sideTotal .active side =
      L.positions.total fun o p => L.lots.total fun key lot =>
        if p.side = side then lotWeight o .active key lot else 0 := by
    apply Store.total_congr
    intro o p hp
    unfold sideWeight
    by_cases hside : p.side = side
    · simp only [if_pos hside]
      exact hr.amounts hp .active
    · simp only [if_neg hside]
      exact (Store.total_eq_zero fun _ _ _ => rfl).symm
  have htotal : (L.market.activeTotal side).toNat = L.sideTotal .active side :=
    hr.totals .active side (by decide)
  rw [htotal, hpositions, Store.total_comm]
  apply Store.total_congr
  intro key lot hlot
  obtain ⟨p, hp, hside, _⟩ := hw.lotOwner hlot
  have hsingle := Store.total_single
    (fun q : UserPosition => if q.side = side ∧ lot.state = .active then lot.amount.toNat else 0)
    hp
  unfold stakeWeight
  rw [hside, ← hsingle]
  apply Store.total_congr
  intro o q _
  unfold lotWeight
  by_cases ho : o = key.1
  · subst ho
    by_cases hq : q.side = side <;> simp [hq]
  · have hne : ¬ key.1 = o := fun heq => ho heq.symm
    simp [ho, hne]

/-- **The anti-snipe guard.**  The epoch counts freezes and unfreezes; a lot
placed in play is active only when it outlived its window in one epoch; a lot
left behind by the epoch never becomes active; only lots placed in play move to
refundable; and the totals a settlement starts from are sums of active lots. -/
theorem epoch_guard {rt : Runtime} {opening L : Ledger} {trace : List Entry}
    (h : Life rt opening trace L) :
    L.market.eventEpoch.toNat = epochChanges trace ∧
    (∀ entry L', Step rt L entry L' →
      L'.market.eventEpoch.toNat = L.market.eventEpoch.toNat + if entry.shifts then 1 else 0) ∧
    (∀ key lot, L.lots.lookup key = some lot → lot.state = .active →
      L.market.inPlayStartTimestamp ≤ lot.placedTimestamp →
      trace.countP (Entry.places key) = 1 ∧
      ∃ before clock e since, trace = before ++ .emitted clock (.positionPlaced e) :: since ∧
        key = (e.owner, e.nonce) ∧ lot.placedTimestamp = clock.unixTimestamp ∧
        Outlived key lot since) ∧
    (∀ key lot, L.lots.lookup key = some lot → lot.state = .pending →
      lot.observedEventEpoch < L.market.eventEpoch →
      ∀ trace' L' lot', Run (Step rt) L trace' L' → L'.lots.lookup key = some lot' →
        lot'.state ≠ .active) ∧
    (∀ entry L' key lot lot', Step rt L entry L' → L.lots.lookup key = some lot →
      L'.lots.lookup key = some lot' → lot.state ≠ .voided → lot'.state = .voided →
      lot.activationTimestamp.isSome ∧ L.market.inPlayStartTimestamp ≤ lot.placedTimestamp ∧
      ∃ clock e, entry = .emitted clock (.positionInvalidated e) ∧
        lot.observedEventEpoch < e.eventEpoch ∧ e.eventEpoch ≤ L.market.eventEpoch) ∧
    (∀ outcome hash m', beginSettlement L.market outcome hash = .ok m' → ∀ side,
      (L.market.activeTotal side).toNat = L.lots.total (stakeWeight side)) := by
  have hinv := epochInv_of_life h
  refine ⟨hinv.epoch, ?_, ?_, ?_, ?_, ?_⟩
  · intro entry L' hs
    rw [(effect_of_step hs).epoch.1, epochChanges_singleton]
  · intro key lot hlot hactive hlate
    obtain ⟨before, since, ⟨clock, e, htrace, hkey, hplaced⟩, _, hwindow⟩ := hinv.lots hlot
    have hoften : 0 < trace.countP (Entry.places key) := by
      rw [List.countP_pos_iff, htrace]
      refine ⟨.emitted clock (.positionPlaced e), List.mem_append_right _ List.mem_cons_self, ?_⟩
      exact decide_eq_true hkey.symm
    have honce := hinv.once key
    refine ⟨by omega, before, clock, e, since, htrace, hkey, hplaced, ?_⟩
    rcases hwindow with ⟨hearly, _⟩ | ⟨_, _, houtlived⟩
    · exact absurd hearly (Int64.not_lt.mpr hlate)
    · exact houtlived hactive
  · intro key lot hlot hpending hbehind trace' L' lot' hrun hlot'
    have hstale : Stale key L := by
      unfold Stale
      rw [hlot]
      exact ⟨by simp [hpending], UInt64.lt_iff_toNat_lt.mp hbehind⟩
    have hend : Stale key L' := hrun.invariant (fun hs => (effect_of_step hs).stale) hstale
    unfold Stale at hend
    rw [hlot'] at hend
    exact hend.1
  · intro entry L' key lot lot' hs hlot hlot' hbefore hafter
    cases (effect_of_step hs).lotStep hlot' with
    | kept stored =>
        obtain rfl := Option.some.inj (hlot.symm.trans stored)
        exact absurd hafter hbefore
    | placed hplaced here =>
        have hfresh := hplaced.freshLot
        rw [← here, hlot] at hfresh
        contradiction
    | activated stored here active =>
        rw [active] at hafter
        contradiction
    | invalidated stored here voided inPlay behind reached =>
        obtain rfl := Option.some.inj (hlot.symm.trans stored)
        refine ⟨inPlay, ?_, _, _, rfl, behind, reached⟩
        obtain ⟨before, since, hhistory⟩ := hinv.lots hlot
        rcases hhistory.window with ⟨_, hnone, _⟩ | ⟨hlate, _⟩
        · rw [hnone] at inPlay
          contradiction
        · exact hlate
  · intro outcome hash m' hbegin side
    have hlive := (beginSettlement_ok_iff.mp hbegin).2.1
    obtain ⟨hw, hr⟩ := ledgerInv_of_life h
    exact Ledger.activeTotal_eq_lots hw (hr hlive.not_done) side

/-- After its freeze the sample holds a lot that was placed in play and
outlived its window. -/
theorem epoch_guard_sample :
    ∃ opening trace L lot, Life Sample.runtime opening trace L ∧ L.market.eventEpoch.toNat = 1 ∧
      epochChanges trace = 1 ∧ L.lots.lookup (Sample.doubter, 0) = some lot ∧
      lot.state = .active ∧ L.market.inPlayStartTimestamp ≤ lot.placedTimestamp ∧
      ∃ since, Outlived (Sample.doubter, 0) lot since := by
  obtain ⟨opening, trace, L, hlife, hepoch, hlot⟩ := Sample.exists_life
    (P := fun _ L => L.market.eventEpoch.toNat = 1 ∧
      (L.lots.lookup (Sample.doubter, 0)).any fun lot =>
        lot.state = .active ∧ L.market.inPlayStartTimestamp ≤ lot.placedTimestamp)
    4 (by decide +kernel)
  obtain ⟨lot, hlookup, hfacts⟩ := (Option.any_eq_true _ _).mp hlot
  obtain ⟨hactive, hlate⟩ := of_decide_eq_true hfacts
  obtain ⟨hcount, _, hwindow, _⟩ := epoch_guard hlife
  obtain ⟨_, _, _, _, since, _, _, _, houtlived⟩ := hwindow _ lot hlookup hactive hlate
  rw [hepoch] at hcount
  exact ⟨opening, trace, L, lot, hlife, hepoch, hcount.symm, hlookup, hactive, hlate, since,
    houtlived⟩

end CalledIt.Escrow
