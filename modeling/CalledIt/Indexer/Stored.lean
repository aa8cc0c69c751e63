import CalledIt.Indexer.Linked

/-!
# CalledIt.Indexer.Stored

Whether the events of a market can be stored.

`RecordStep` indexes the entries of a market's history in their order, while the events of other
markets are recorded in between.  In every state reached, the next event is stored exactly if it
does not pay a claim of zero (`event_stored_iff`).
-/

namespace CalledIt.Indexer

open Lib Escrow

/-! ## the link of a freshly indexed market -/

/-- No row of the market was written yet. -/
structure Unlinked (db : ReadModel) (marketId : Bytes 16) (marketPda : Pubkey) : Prop where
  link : db.links marketId = none
  pda : db.linkOfPda marketPda = none
  lots : ∀ o n, db.lots (marketId, o, n) = none
  settlement : db.settlementOf marketId = none
  claims : ∀ o, db.claimOf (marketId, o) = none
  close : db.closeEvents marketId = none

/-- The state of the link that the indexed events make. -/
def linkStateOf : MarketState → EscrowChainState
  | .settled => .settled
  | .voided => .voided
  | .closed => .closed
  | _ => .open

/-- What the events alone make of the link. -/
structure Reflects (L : Ledger) (link : EscrowMarketLinkRow) : Prop where
  fresh : link.projectionStale = false
  epoch : link.eventEpoch = 0
  state : link.chainState = linkStateOf L.market.state

section

variable {rt : Runtime} {deployment : ProjectorDeployment} {history : MarketHistory rt}
  {db db' : ReadModel} {place : ChainPlace} {accounts : ChainAccounts}
  {sides : Pubkey → Option PositionSide} {s : IndexingState} {link : EscrowMarketLinkRow}

/-- What `upsertMarketLink` leaves of a market that had no link. -/
theorem upsertMarketLink_new {input : MarketProjection}
    (h : upsertMarketLink deployment db place input = .ok db')
    (hnone : db.links input.marketId = none) (hlink : db'.links input.marketId = some link) :
    (db.markets input.marketId).any (·.custodyMode = .escrow) ∧
      link = newMarketLink deployment place input ∧
      db' = { db with
        identities := db'.identities
        links := db'.links
        linkOfPda := Function.update db.linkOfPda input.marketPda (some input.marketId)
        linkOfKey := db'.linkOfKey } := by
  simp only [upsertMarketLink, bind_ok_iff, require_ok_iff] at h
  obtain ⟨_, _, h⟩ := h
  split at h
  · obtain rfl := pure_ok_iff.mp h
    simp [hnone] at hlink
  · next market hmarket =>
    simp only [bind_ok_iff, require_ok_iff] at h
    obtain ⟨_, hescrow, _, _, mid, hmid, _, _, h⟩ := h
    obtain rfl := assertChainIdentity_ok hmid
    have hnew : db.links (newMarketLink deployment place input).marketId = none := hnone
    simp only [putMarketLink, hnew, bind_ok_iff, require_ok_iff, pure_ok_iff] at h
    obtain ⟨_, _, rfl⟩ := h
    refine ⟨by simp [hmarket, hescrow], ?_, rfl⟩
    simpa [newMarketLink, eq_comm] using hlink

/-- **The opening makes a link that follows the market.** -/
theorem follows_of_opening (hunlinked : Unlinked db history.opening.marketUuid
      history.opening.market)
    (hindex : indexEvent deployment accounts ⟨db, sides⟩ place
      (.market (.marketInitialized history.opening)) = .ok s)
    (hlinked : s.db.links history.opening.marketUuid = some link) :
    Follows deployment (history.ledger 0) s.db link ∧ Reflects (history.ledger 0) link := by
  obtain ⟨hmarket, huuid, hasset⟩ := history.opening_eq
  obtain ⟨result, hresult, hrecorded⟩ := indexEvent_ok_iff.mp ⟨s.sides, hindex⟩
  simp only [projectProgramEvent, projectEvent, projectMarketInitialized] at hresult
  by_cases hvalid : deployment.Valid
  · have hnotFound : (IndexingState.projector deployment accounts ⟨db, sides⟩).getMarketLink
        history.opening.market = .notFound := by
      have hvalid' := hvalid
      unfold ProjectorDeployment.Valid at hvalid'
      simp [IndexingState.projector, escrowGetMarketLink, hunlinked.pda, hvalid']
    simp only [hnotFound] at hresult
    split at hresult
    · obtain rfl := Except.ok.inj hresult
      rw [hrecorded, hunlinked.link] at hlinked
      contradiction
    · simp only [bind_ok_iff] at hresult
      obtain ⟨account, _, hresult⟩ := hresult
      split at hresult
      · obtain rfl := Except.ok.inj hresult
        obtain ⟨hescrow, rfl, hdb⟩ := upsertMarketLink_new hrecorded hunlinked.link hlinked
        have hlive : (history.ledger 0).market.state = .open := history.fresh.opens
        refine ⟨⟨hvalid, ?_, ?_, ?_, ⟨huuid, hmarket, hasset, rfl, rfl, rfl, rfl⟩, ?_, ?_, ?_, ?_⟩,
          rfl, rfl, ?_⟩
        · rw [hdb, ← huuid]
          exact hescrow
        · rw [hdb, ← huuid, ← hmarket]
          simp
        · rw [← huuid]
          exact hlinked
        · intro _ o n
          rw [hdb, ← huuid, history.fresh.lots]
          simp [hunlinked.lots o n]
        · intro _
          rw [hdb, ← huuid]
          exact hunlinked.settlement
        · intro o _
          rw [hdb, ← huuid]
          exact hunlinked.claims o
        · intro _
          rw [hdb, ← huuid]
          exact hunlinked.close
        · rw [hlive]
          rfl
      · simp at hresult
  · have hrejected : (IndexingState.projector deployment accounts ⟨db, sides⟩).getMarketLink
        history.opening.market = .rejected := by
      unfold ProjectorDeployment.Valid at hvalid
      simp only [IndexingState.projector, escrowGetMarketLink]
      exact if_pos hvalid
    simp [hrejected] at hresult

/-! ## the run -/

/-- The next event cannot move the state of the link back, and moves it as it moves the market. -/
theorem Reflects.next {L L' : Ledger} {clock : Clock} {event : Event}
    (h : Reflects L link) (hstep : Step rt L (.emitted clock event) L') :
    Reflects L' (linkNext link event) := by
  have heffect := effect_of_step hstep
  have hreports := hstep.reports
  have hkept : L'.market.state.stage = L.market.state.stage →
      linkStateOf L'.market.state = linkStateOf L.market.state := by
    intro hstage
    have hnext := heffect.next
    revert hstage hnext
    unfold MarketState.Next MarketState.Live MarketState.Terminal
    cases L.market.state <;> cases L'.market.state <;>
      simp [MarketState.stage, linkStateOf]
  cases event with
  | marketSettled e =>
      obtain ⟨_, _, _, hvoid, hsettled⟩ := hreports
      exact ⟨rfl, h.epoch, by simp [linkNext, settledLink, terminalState, hvoid, hsettled,
        linkStateOf]⟩
  | marketVoided e =>
      exact ⟨rfl, h.epoch, by simp [linkNext, settledLink, terminalState,
        heffect.stage_of_voided.2, linkStateOf]⟩
  | marketClosed e =>
      exact ⟨h.fresh, h.epoch, by simp [linkNext, heffect.stage_of_closed.2, linkStateOf]⟩
  | _ =>
      have hstage := hstep.stage_eq (by simp) (by simp) (by simp)
      exact ⟨h.fresh, h.epoch, h.state.trans (hkept hstage).symm⟩

/-- The entries of the history are indexed in their order; the events of other markets are
recorded in between. -/
inductive RecordStep (deployment : ProjectorDeployment) (history : MarketHistory rt) :
    Nat × ReadModel → Option Entry → Nat × ReadModel → Prop
  | indexed {n : Nat} {db : ReadModel} {clock : Clock} {event : Event} {accounts : ChainAccounts}
      {sides : Pubkey → Option PositionSide} {place : ChainPlace} {s : IndexingState}
      (hn : n < history.length) (hentry : history.entry n = .emitted clock event)
      (hindex : indexEvent deployment accounts ⟨db, sides⟩ place (.market event) = .ok s) :
      RecordStep deployment history (n, db) (some (history.entry n)) (n + 1, s.db)
  | received {n : Nat} {db : ReadModel} {amount : UInt64} (hn : n < history.length)
      (hentry : history.entry n = .received amount) :
      RecordStep deployment history (n, db) (some (history.entry n)) (n + 1, db)
  | other {n : Nat} {db db' : ReadModel} {place : ChainPlace} {p : EscrowFinalizedProjection}
      (hother : p.marketId ≠ history.opening.marketUuid)
      (hrecord : recordProjection deployment db place p = .ok db') :
      RecordStep deployment history (n, db) none (n, db')

/-- The rows follow the market, and the link is what the events make it. -/
def InStep (deployment : ProjectorDeployment) (history : MarketHistory rt) (s : Nat × ReadModel) :
    Prop :=
  s.1 ≤ history.length ∧ ∃ link, Follows deployment (history.ledger s.1) s.2 link ∧
    Reflects (history.ledger s.1) link

theorem InStep.step {before after : Nat × ReadModel} {label : Option Entry}
    (h : InStep deployment history before) (hstep : RecordStep deployment history before label after) :
    InStep deployment history after := by
  obtain ⟨_, link, hfollows, hreflects⟩ := h
  cases hstep with
  | @indexed n db clock event accounts sides place s hn hentry hindex =>
      have hnext := history.step n hn
      rw [hentry] at hnext
      exact ⟨hn, _, hfollows.index hnext hindex, hreflects.next hnext⟩
  | @received n db amount hn hentry =>
      have heffect := history.effect hn
      rw [hentry] at heffect
      refine ⟨hn, link, hfollows.skip heffect (fun _ => rfl), hreflects.fresh, hreflects.epoch, ?_⟩
      rw [heffect.market_of_received]
      exact hreflects.state
  | @other n db db' place p hother hrecord =>
      have hsame : (history.ledger 0).SameMarket _ :=
        MarketHistory.sameMarket (Nat.zero_le n) ‹n ≤ _›
      rw [history.opening_eq.2.1, ← hsame.marketUuid] at hother
      exact ⟨‹_›, link, hfollows.other hrecord hother, hreflects⟩

/-- A claim that pays nothing. -/
def PaysNothing : Event → Prop
  | .positionClaimed e => e.amount = 0
  | _ => False

instance (event : Event) : Decidable (PaysNothing event) := by
  cases event <;> simp only [PaysNothing] <;> infer_instance

theorem Reflects.admits_iff {L L' : Ledger} {clock : Clock} {event : Event}
    (h : Reflects L link) (hstep : Step rt L (.emitted clock event) L') :
    Admits link event ↔ ¬ PaysNothing event := by
  have heffect := effect_of_step hstep
  have hreports := hstep.reports
  have hterminal : L.market.state.stage = 1 →
      link.chainState ∈ [EscrowChainState.settled, .voided] := by
    rw [h.state]
    cases L.market.state <;> simp [MarketState.stage, linkStateOf]
  have hepoch : ∀ e : EpochChanged, ∀ state, e.eventEpoch.toNat = L.market.eventEpoch.toNat + 1 →
      EpochAllows link.toEscrowMarketLink state e := by
    intro e state hnext hsame
    rw [hsame, h.epoch] at hnext
    simp at hnext
  cases event with
  | positionClaimed e =>
      have hpays : (Entry.emitted clock (.positionClaimed e)).pays e.owner := rfl
      have hstage := heffect.stage_of_pays hpays
      simp [Admits, PaysNothing, h.fresh, hterminal hstage]
  | marketClosed e => simp [Admits, PaysNothing, h.fresh, hterminal heffect.stage_of_closed.1]
  | marketFrozen e =>
      have hnext := heffect.epoch.1
      rw [← hreports.2] at hnext
      simp [Admits, PaysNothing, h.fresh, hepoch e .frozen hnext]
  | marketUnfrozen e =>
      have hnext := heffect.epoch.1
      rw [← hreports.2] at hnext
      simp [Admits, PaysNothing, h.fresh, hepoch e .open hnext]
  | _ => simp [Admits, PaysNothing, h.fresh]

/-- **The next event is stored, unless it is a claim that pays nothing.** -/
theorem event_stored_iff {db₀ db : ReadModel} {place₀ : ChainPlace} {accounts₀ : ChainAccounts}
    {sides₀ : Pubkey → Option PositionSide} {s₀ : IndexingState}
    (hunlinked : Unlinked db₀ history.opening.marketUuid history.opening.market)
    (hopening : indexEvent deployment accounts₀ ⟨db₀, sides₀⟩ place₀
      (.market (.marketInitialized history.opening)) = .ok s₀)
    (hlinked : (s₀.db.links history.opening.marketUuid).isSome)
    {trace : List (Option Entry)} {n : Nat}
    (hrun : Run (RecordStep deployment history) (0, s₀.db) trace (n, db)) (hn : n < history.length)
    {clock : Clock} {event : Event} (hentry : history.entry n = .emitted clock event)
    (hplace : place.Valid) (hunused : Unused db place.key)
    (hside : FindsSide deployment (IndexingState.projector deployment accounts ⟨db, sides⟩)
      event) :
    (∃ s, indexEvent deployment accounts ⟨db, sides⟩ place (.market event) = .ok s) ↔
      ¬ PaysNothing event := by
  obtain ⟨link₀, hlink₀⟩ := Option.isSome_iff_exists.mp hlinked
  obtain ⟨hfollows₀, hreflects₀⟩ := follows_of_opening hunlinked hopening hlink₀
  have hstart : InStep deployment history (0, s₀.db) :=
    ⟨Nat.zero_le _, link₀, hfollows₀, hreflects₀⟩
  obtain ⟨_, link, hfollows, hreflects⟩ := hrun.invariant (fun hstep hin => hin.step hstep) hstart
  have hstep := history.step n hn
  rw [hentry] at hstep
  have hfilled : (history.ledger n).LotsFilled := MarketHistory.lotsFilled (by omega)
  refine (hfollows.indexEvent_iff hfilled hstep hplace hunused hside).trans ?_
  exact hreflects.admits_iff hstep

end

/-! ## runs that are computed -/

namespace StoredSample

def deployment : ProjectorDeployment := ⟨"devnet", "genesis", "program", 1⟩

def place (n : Nat) : ChainPlace := ⟨"signature", n, 100, none⟩

/-- Nothing is recorded yet, and the sample's market is tracked. -/
def tables : ReadModel where
  markets id := if id = Escrow.Sample.marketUuid then some ⟨.escrow, some .sol⟩ else none
  identities _ := none
  links _ := none
  linkOfPda _ := none
  linkOfKey _ := none
  positionEvents _ := none
  lots _ := none
  settlementEvents _ := none
  settlementOf _ := none
  claimEvents _ := none
  claimOf _ := none
  closeEvents _ := none
  closeOf _ := none

theorem unlinked_tables (marketId : Bytes 16) (marketPda : Pubkey) :
    Unlinked tables marketId marketPda :=
  ⟨rfl, rfl, fun _ _ => rfl, rfl, fun _ => rfl, rfl⟩

/-- The accounts of the market as it was opened. -/
def accounts {rt : Runtime} (history : MarketHistory rt) : ChainAccounts where
  market _ := some ⟨"program", (history.ledger 0).market⟩
  position _ := none

/-- The opening and the first entries, indexed one after the other. -/
def recordUpTo {rt : Runtime} (history : MarketHistory rt) : Nat → Except IndexingError IndexingState
  | 0 => indexEvent deployment (accounts history) ⟨tables, fun _ => none⟩ (place 0)
      (.market (.marketInitialized history.opening))
  | n + 1 => do
      let s ← recordUpTo history n
      match history.entry n with
      | .emitted _ event => indexEvent deployment (accounts history) s (place (n + 1)) (.market event)
      | .received _ => return s

theorem run_of_recordUpTo {rt : Runtime} {history : MarketHistory rt} {n : Nat} {s : IndexingState}
    (hn : n ≤ history.length) (h : recordUpTo history n = .ok s) :
    ∃ s₀ trace, recordUpTo history 0 = .ok s₀ ∧
      Run (RecordStep deployment history) (0, s₀.db) trace (n, s.db) := by
  induction n generalizing s with
  | zero => exact ⟨s, [], h, .refl _⟩
  | succ n ih =>
      simp only [recordUpTo, bind_ok_iff] at h
      obtain ⟨mid, hmid, h⟩ := h
      obtain ⟨s₀, trace, hs₀, hrun⟩ := ih (by omega) hmid
      refine ⟨s₀, trace ++ [some (history.entry n)], hs₀, hrun.snoc ?_⟩
      cases hentry : history.entry n with
      | emitted clock event =>
          rw [hentry] at h
          rw [← hentry]
          exact .indexed hn hentry h
      | received amount =>
          rw [hentry] at h
          obtain rfl := pure_ok_iff.mp h
          rw [← hentry]
          exact .received hn hentry

instance (db : ReadModel) (key : EventKey) : Decidable (Unused db key) :=
  decidable_of_iff (db.identities key = none ∧ (db.positionEvents key).isNone ∧
    (db.settlementEvents key).isNone ∧ (db.claimEvents key).isNone ∧ db.closeOf key = none)
    ⟨fun ⟨a, b, c, d, e⟩ => ⟨a, by simpa using b, by simpa using c, by simpa using d, e⟩,
      fun ⟨a, b, c, d, e⟩ => ⟨a, by simp [b], by simp [c], by simp [d], e⟩⟩

/-- The run gets to the entry, whose event needs no side and is or is not stored there. -/
def reaches {rt : Runtime} (history : MarketHistory rt) (n : Nat) (stored : Bool) : Bool :=
  match recordUpTo history 0, recordUpTo history n, history.entry n with
  | .ok s₀, .ok s, .emitted _ event =>
      (s₀.db.links history.opening.marketUuid).isSome && n < history.length &&
        decide (Unused s.db (place (n + 1)).key) &&
        (match event with
          | .positionActivated _ | .positionInvalidated _ => false
          | _ => true) &&
        (indexEvent deployment (accounts history) s (place (n + 1)) (.market event)).isOk = stored
  | _, _, _ => false

/-- The doubter's stake is matched to the last unit. -/
def evenMoves : List Move :=
  Escrow.Sample.place 100 Escrow.Sample.backer .back 3000001 ::
    Escrow.Sample.place 700 Escrow.Sample.doubter .doubt 2333000 :: Escrow.Sample.moves.drop 2

/-- What `reaches` computes. -/
structure Reached {rt : Runtime} (history : MarketHistory rt) (n : Nat) (s₀ s : IndexingState)
    (trace : List (Option Entry)) (clock : Clock) (event : Event) : Prop where
  opening : indexEvent deployment (accounts history) ⟨tables, fun _ => none⟩ (place 0)
    (.market (.marketInitialized history.opening)) = .ok s₀
  linked : (s₀.db.links history.opening.marketUuid).isSome
  run : Run (RecordStep deployment history) (0, s₀.db) trace (n, s.db)
  more : n < history.length
  entry : history.entry n = .emitted clock event
  unused : Unused s.db (place (n + 1)).key
  side : FindsSide deployment (s.projector deployment (accounts history)) event

theorem exists_reached {rt : Runtime} {history : MarketHistory rt} {n : Nat} {stored : Bool}
    (h : reaches history n stored) :
    ∃ s₀ s trace clock event, Reached history n s₀ s trace clock event ∧
      ((∃ s', indexEvent deployment (accounts history) s (place (n + 1)) (.market event) =
        .ok s') ↔ stored) := by
  unfold reaches at h
  split at h
  · next s₀ s clock event hs₀ hs hentry =>
    simp only [Bool.and_eq_true, decide_eq_true_eq] at h
    obtain ⟨⟨⟨⟨hlinked, hmore⟩, hunused⟩, hside⟩, hstored⟩ := h
    obtain ⟨s₀', trace, hs₀', hrun⟩ := run_of_recordUpTo (Nat.le_of_lt hmore) hs
    obtain rfl := Except.ok.inj (hs₀.symm.trans hs₀')
    refine ⟨s₀, s, trace, clock, event, ⟨hs₀, hlinked, hrun, hmore, hentry, hunused, ?_⟩, ?_⟩
    · cases event <;> simp_all [FindsSide]
    · rw [← isOk_iff, hstored]
  · simp at h

end StoredSample

/-- The claim of a loser whose stake was matched in full is refused. -/
theorem zero_claim_refused :
    ∃ (history : MarketHistory Escrow.Sample.runtime) (s₀ s : IndexingState)
      (trace : List (Option Entry)) (clock : Clock) (event : Event),
      StoredSample.Reached history 9 s₀ s trace clock event ∧ (StoredSample.place 10).Valid ∧
        ¬ ∃ s', indexEvent StoredSample.deployment (StoredSample.accounts history) s
          (StoredSample.place 10) (.market event) = .ok s' := by
  have hsample : (Escrow.Sample.history StoredSample.evenMoves).any
      fun history => StoredSample.reaches history 9 false := by decide +kernel
  obtain ⟨history, _, hreaches⟩ := (Option.any_eq_true _ _).mp hsample
  obtain ⟨s₀, s, trace, clock, event, hreached, hstored⟩ :=
    StoredSample.exists_reached hreaches
  exact ⟨history, s₀, s, trace, clock, event, hreached, by decide, by simpa using hstored⟩

/-- The winner's claim, before it, is stored. -/
theorem event_stored_iff_sample :
    ∃ (history : MarketHistory Escrow.Sample.runtime) (s : IndexingState) (clock : Clock)
      (event : Event), history.entry 8 = .emitted clock event ∧
        ((∃ s', indexEvent StoredSample.deployment (StoredSample.accounts history) s
          (StoredSample.place 9) (.market event) = .ok s') ↔ ¬ PaysNothing event) ∧
        ¬ PaysNothing event := by
  have hsample : (Escrow.Sample.history StoredSample.evenMoves).any
      fun history => StoredSample.reaches history 8 true := by decide +kernel
  obtain ⟨history, _, hreaches⟩ := (Option.any_eq_true _ _).mp hsample
  obtain ⟨s₀, s, trace, clock, event, hreached, hstored⟩ :=
    StoredSample.exists_reached hreaches
  have hiff := event_stored_iff (StoredSample.unlinked_tables _ _) hreached.opening
    hreached.linked hreached.run hreached.more hreached.entry
    (by decide : (StoredSample.place 9).Valid) hreached.unused hreached.side
  exact ⟨history, s, clock, event, hreached.entry, hiff, hiff.mp (hstored.mpr rfl)⟩

end CalledIt.Indexer
