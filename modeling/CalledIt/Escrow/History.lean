import CalledIt.Escrow.Reported
import CalledIt.Escrow.Outcome
import CalledIt.Escrow.Epoch

/-!
# CalledIt.Escrow.History

A market's history on the chain, as one object.

Who follows a market off the chain reads its ledger at some point of its history and its events
at another.  `MarketHistory` numbers the points: `ledger n` is the ledger after `n` entries.
-/

namespace CalledIt.Escrow

open Lib

/-- How far a market has come: before its terminal transition, after it, closed. -/
def MarketState.stage : MarketState → Nat
  | .settled | .voided => 1
  | .closed => 2
  | _ => 0

variable {s : MarketState}

theorem MarketState.stage_eq_zero : s.stage = 0 ↔ ¬ s.Done := by
  cases s <;> simp [MarketState.stage, MarketState.Done]

theorem MarketState.stage_eq_one : s.stage = 1 ↔ s.Terminal := by
  cases s <;> simp [MarketState.stage, MarketState.Terminal]

/-- What a market keeps from its opening on. -/
structure Ledger.SameMarket (L L' : Ledger) : Prop where
  marketKey : L'.marketKey = L.marketKey
  marketUuid : L'.market.marketUuid = L.market.marketUuid
  asset : L'.market.asset = L.market.asset

theorem Ledger.SameMarket.refl (L : Ledger) : L.SameMarket L := ⟨rfl, rfl, rfl⟩

theorem Ledger.SameMarket.trans {L L' L'' : Ledger} (h : L.SameMarket L')
    (h' : L'.SameMarket L'') : L.SameMarket L'' :=
  ⟨h'.marketKey.trans h.marketKey, h'.marketUuid.trans h.marketUuid, h'.asset.trans h.asset⟩

theorem Market.SameTerms.marketUuid {m m' : Market} (h : m.SameTerms m') :
    m'.marketUuid = m.marketUuid := by
  unfold Market.SameTerms at h
  rw [h]

section

variable {rt : Runtime} {L L' : Ledger} {entry : Entry}

theorem Effect.sameMarket (h : Effect rt L entry L') : L.SameMarket L' := by
  cases h with
  | froze | unfroze | lotsClosed | positionClosed | closed | received => exact ⟨rfl, rfl, rfl⟩
  | placed h => exact ⟨rfl, h.booked.terms.marketUuid, h.booked.terms.asset⟩
  | activated h => exact ⟨rfl, h.booked.terms.marketUuid, h.booked.terms.asset⟩
  | invalidated h => exact ⟨rfl, h.booked.terms.marketUuid, h.booked.terms.asset⟩
  | began begins =>
      obtain ⟨_, _, pots, _, rfl⟩ := beginSettlement_ok_iff.mp begins
      exact ⟨rfl, rfl, rfl⟩
  | entitled position h =>
      exact ⟨rfl, by rw [h.market], by rw [h.market]⟩
  | voided voids =>
      obtain ⟨_, rfl⟩ := transitionToVoid_ok_iff.mp voids
      exact ⟨rfl, rfl, rfl⟩
  | claimed h =>
      exact ⟨rfl, by rw [h.market], by rw [h.market]⟩

theorem MarketState.Next.stage_le {s' : MarketState} (h : s.Next s') : s.stage ≤ s'.stage := by
  unfold MarketState.Next MarketState.Live MarketState.Terminal at h
  cases s <;> cases s' <;> simp_all [MarketState.stage]

theorem Step.reports {clock : Clock} {event : Event} (h : Step rt L (.emitted clock event) L') :
    Reports rt L L' event := by
  cases h with
  | call hcall => exact reports_of_execute hcall

/-! ## lots and claims -/

/-- While a market is live, lots only come, each by its placement. -/
theorem Effect.lots_isSome_iff (h : Effect rt L entry L') (hlive : L.market.state.Live)
    (key : Pubkey × UInt64) :
    (L'.lots.lookup key).isSome ↔ (L.lots.lookup key).isSome ∨ entry.places key := by
  constructor
  · intro hsome
    obtain ⟨lot', hlot'⟩ := Option.isSome_iff_exists.mp hsome
    cases h.lotStep hlot' with
    | kept stored => simp [stored]
    | placed h here => simp [Entry.places, here]
    | activated stored => simp [stored]
    | invalidated stored => simp [stored]
  · rintro (hsome | hplaces)
    · exact h.lot_isSome hlive hsome
    · cases h with
      | placed h => simp [AList.lookup_isSome, AList.mem_insert, ← of_decide_eq_true hplaces]
      | began begins emits =>
          rcases emits with ⟨e, rfl⟩ | ⟨e, rfl⟩ <;> simp [Entry.places] at hplaces
      | entitled position h emits =>
          rcases emits with ⟨e, rfl⟩ | ⟨e, rfl⟩ <;> simp [Entry.places] at hplaces
      | _ => simp [Entry.places] at hplaces

/-- The entry pays the owner. -/
def Entry.pays (owner : Pubkey) : Entry → Prop
  | .emitted _ (.positionClaimed e) => e.owner = owner
  | _ => False

/-- A position that is not paid was not paid before, or the market was not terminal. -/
theorem Effect.unpaid (h : Effect rt L entry L') {owner : Pubkey} {p' : UserPosition}
    (hposition : L'.positions.lookup owner = some p') (hunclaimed : p'.claimed = false) :
    ¬ entry.pays owner ∧
      (L.market.state.stage = 0 ∨
        ∃ p, L.positions.lookup owner = some p ∧ p.claimed = false) := by
  cases h with
  | placed h => exact ⟨id, .inl (by simp [MarketState.stage, h.opens])⟩
  | activated h => exact ⟨id, .inl (MarketState.stage_eq_zero.mpr h.live.not_done)⟩
  | invalidated h => exact ⟨id, .inl (MarketState.stage_eq_zero.mpr h.live.not_done)⟩
  | began begins emits =>
      refine ⟨?_, .inr ⟨p', hposition, hunclaimed⟩⟩
      rcases emits with ⟨e, rfl⟩ | ⟨e, rfl⟩ <;> exact id
  | entitled position h emits =>
      refine ⟨?_, .inl (by simp [MarketState.stage, h.settling])⟩
      rcases emits with ⟨e, rfl⟩ | ⟨e, rfl⟩ <;> exact id
  | claimed h =>
      rcases Store.lookup_insert_iff.mp hposition with ⟨_, rfl⟩ | ⟨hne, hbefore⟩
      · simp at hunclaimed
      · exact ⟨Ne.symm hne, .inr ⟨p', hbefore, hunclaimed⟩⟩
  | lotsClosed h =>
      rcases Store.lookup_insert_iff.mp hposition with ⟨_, rfl⟩ | ⟨hne, hbefore⟩
      · rw [h.holder] at hunclaimed
        simp [h.claimed] at hunclaimed
      · exact ⟨id, .inr ⟨p', hbefore, hunclaimed⟩⟩
  | positionClosed terminal position claimed noLots next =>
      exact ⟨id, .inr ⟨p', (Store.lookup_erase_iff.mp hposition).2, hunclaimed⟩⟩
  | froze | unfroze | voided | closed | received =>
      exact ⟨id, .inr ⟨p', hposition, hunclaimed⟩⟩

/-- Only a terminal market pays. -/
theorem Effect.stage_of_pays (h : Effect rt L entry L') {owner : Pubkey}
    (hpays : entry.pays owner) : L.market.state.stage = 1 := by
  cases h with
  | claimed h => exact MarketState.stage_eq_one.mpr (terminal_of_claimAmount h.amount)
  | began begins emits =>
      rcases emits with ⟨e, rfl⟩ | ⟨e, rfl⟩ <;> exact absurd hpays id
  | entitled position h emits =>
      rcases emits with ⟨e, rfl⟩ | ⟨e, rfl⟩ <;> exact absurd hpays id
  | _ => exact absurd hpays id

/-- Only three events take a market a stage further. -/
theorem Step.stage_eq {clock : Clock} {event : Event} (hstep : Step rt L (.emitted clock event) L')
    (hsettled : ∀ e, event ≠ .marketSettled e) (hvoided : ∀ e, event ≠ .marketVoided e)
    (hclosed : ∀ e, event ≠ .marketClosed e) :
    L'.market.state.stage = L.market.state.stage := by
  have hreports := hstep.reports
  cases effect_of_step hstep with
  | froze opens => simp [opens, MarketState.stage]
  | unfroze frozen => simp [frozen, MarketState.stage]
  | placed h => rw [h.booked.terms.state]
  | activated h => rw [h.booked.terms.state]
  | invalidated h => rw [h.booked.terms.state]
  | began begins emits =>
      have hlive := MarketState.stage_eq_zero.mpr (beginSettlement_ok_iff.mp begins).2.1.not_done
      rcases emits with ⟨e, rfl⟩ | ⟨e, rfl⟩
      · rw [hlive, hreports]
        rfl
      · exact absurd rfl (hsettled e)
  | entitled position h emits =>
      rcases emits with ⟨e, rfl⟩ | ⟨e, rfl⟩
      · rw [h.settling, hreports]
      · exact absurd rfl (hsettled e)
  | voided voids => exact absurd rfl (hvoided _)
  | claimed h => rw [h.market]
  | lotsClosed | positionClosed => rfl
  | closed => exact absurd rfl (hclosed _)

theorem Effect.market_of_received {amount : UInt64} (h : Effect rt L (.received amount) L') :
    L'.market = L.market := by
  cases h with
  | received => rfl

/-! ## what an event presupposes -/

section

variable {clock : Clock}

theorem Effect.fresh_of_placed {e : PositionPlaced}
    (h : Effect rt L (.emitted clock (.positionPlaced e)) L') :
    L.market.state = .open ∧ L.lots.lookup (e.owner, e.nonce) = none := by
  cases h with
  | placed h => exact ⟨h.opens, h.freshLot⟩
  | began begins emits => simp at emits
  | entitled position h emits => simp at emits

theorem Effect.live_of_activated {e : PositionActivated}
    (h : Effect rt L (.emitted clock (.positionActivated e)) L') : L.market.state.Live := by
  cases h with
  | activated h => exact h.live
  | began begins emits => simp at emits
  | entitled position h emits => simp at emits

theorem Effect.live_of_invalidated {e : PositionInvalidated}
    (h : Effect rt L (.emitted clock (.positionInvalidated e)) L') : L.market.state.Live := by
  cases h with
  | invalidated h => exact h.live
  | began begins emits => simp at emits
  | entitled position h emits => simp at emits

/-- A market is settled once. -/
theorem Effect.stage_of_settled {e : MarketSettled}
    (h : Effect rt L (.emitted clock (.marketSettled e)) L') : L.market.state.stage = 0 := by
  cases h with
  | began begins =>
      exact MarketState.stage_eq_zero.mpr (beginSettlement_ok_iff.mp begins).2.1.not_done
  | entitled position h => simp [MarketState.stage, h.settling]

theorem Effect.stage_of_voided {e : MarketVoided}
    (h : Effect rt L (.emitted clock (.marketVoided e)) L') :
    L.market.state.stage = 0 ∧ L'.market.state = .voided := by
  cases h with
  | voided voids =>
      obtain ⟨hlive, rfl⟩ := transitionToVoid_ok_iff.mp voids
      exact ⟨MarketState.stage_eq_zero.mpr hlive.not_done, rfl⟩
  | began begins emits => simp at emits
  | entitled position h emits => simp at emits

theorem Effect.unclaimed_of_claimed {e : PositionClaimed}
    (h : Effect rt L (.emitted clock (.positionClaimed e)) L') :
    ∃ p, L.positions.lookup e.owner = some p ∧ p.claimed = false := by
  cases h with
  | claimed h => exact ⟨_, h.position, h.unclaimed⟩
  | began begins emits => simp at emits
  | entitled position h emits => simp at emits

theorem Effect.stage_of_closed {e : MarketClosed}
    (h : Effect rt L (.emitted clock (.marketClosed e)) L') :
    L.market.state.stage = 1 ∧ L'.market.state = .closed := by
  cases h with
  | closed terminal => exact ⟨MarketState.stage_eq_one.mpr terminal, rfl⟩
  | began begins emits => simp at emits
  | entitled position h emits => simp at emits

end

/-- Every lot has an amount. -/
def Ledger.LotsFilled (L : Ledger) : Prop :=
  ∀ {key lot}, L.lots.lookup key = some lot → lot.amount ≠ 0

theorem Step.lotsFilled (h : Step rt L entry L') (hL : L.LotsFilled) : L'.LotsFilled := by
  intro key lot' hlot'
  cases (effect_of_step h).lotStep hlot' with
  | kept stored => exact hL stored
  | placed hplaced =>
      rw [hplaced.lotAmount]
      exact h.reports.2.2.2
  | activated stored here active => simpa [active] using hL stored
  | invalidated stored here voided => simpa [voided] using hL stored

end

/-! ## histories -/

structure MarketHistory (rt : Runtime) where
  opening : MarketInitialized
  ledger : Nat → Ledger
  entry : Nat → Entry
  length : Nat
  opened : ∃ clock accounts args,
    initializeMarket rt clock accounts args = .ok (ledger 0, .marketInitialized opening)
  step : ∀ n < length, Step rt (ledger n) (entry n) (ledger (n + 1))

namespace MarketHistory

variable {rt : Runtime} (history : MarketHistory rt)

/-- The opening tells what the market starts with. -/
theorem opening_eq : history.opening.market = (history.ledger 0).marketKey ∧
    history.opening.marketUuid = (history.ledger 0).market.marketUuid ∧
    history.opening.asset = (history.ledger 0).market.asset := by
  obtain ⟨clock, accounts, args, h⟩ := history.opened
  unfold initializeMarket at h
  simp only [bind_ok_iff, Prod.exists, pure_ok_iff, Prod.mk.injEq,
    Event.marketInitialized.injEq] at h
  obtain ⟨_, _, _, _, _, _, _, _, _, _, _, _, _, _, _, _, _, _, _, _, _, _, hledger, hopening⟩ := h
  rw [← hledger, ← hopening]
  exact ⟨rfl, rfl, rfl⟩

theorem fresh : Fresh rt (history.ledger 0) := by
  obtain ⟨clock, accounts, args, h⟩ := history.opened
  exact fresh_of_opened ⟨clock, accounts, args, _, h⟩

theorem effect {n : Nat} (hn : n < history.length) :
    Effect rt (history.ledger n) (history.entry n) (history.ledger (n + 1)) :=
  effect_of_step (history.step n hn)

/-- A relation that every step keeps holds between any two points, in their order. -/
theorem between {R : Ledger → Ledger → Prop} (hrefl : ∀ L, R L L)
    (htrans : ∀ {L L' L''}, R L L' → R L' L'' → R L L'')
    (hstep : ∀ {L entry L'}, Step rt L entry L' → R L L') {m n : Nat} (hmn : m ≤ n)
    (hn : n ≤ history.length) : R (history.ledger m) (history.ledger n) := by
  induction n, hmn using Nat.le_induction with
  | base => exact hrefl _
  | succ n hmn ih => exact htrans (ih (by omega)) (hstep (history.step n (by omega)))

/-- What holds at the opening and is kept by every step holds throughout. -/
theorem throughout {I : Ledger → Prop} (hopening : ∀ {L}, Fresh rt L → I L)
    (hstep : ∀ {L entry L'}, Step rt L entry L' → I L → I L') {n : Nat}
    (hn : n ≤ history.length) : I (history.ledger n) :=
  history.between (fun _ => id) (fun h h' hi => h' (h hi)) hstep (Nat.zero_le n) hn
    (hopening history.fresh)

variable {history} {m n : Nat}

theorem sameMarket (hmn : m ≤ n) (hn : n ≤ history.length) :
    (history.ledger m).SameMarket (history.ledger n) :=
  history.between Ledger.SameMarket.refl (fun h h' => h.trans h')
    (fun h => (effect_of_step h).sameMarket) hmn hn

theorem lotsFilled (hn : n ≤ history.length) : (history.ledger n).LotsFilled := by
  refine history.throughout (I := Ledger.LotsFilled) ?_ Step.lotsFilled hn
  intro L hfresh key lot hlot
  simp [hfresh.lots] at hlot

end MarketHistory

/-! ## histories that are computed -/

section

variable (rt : Runtime)

/-- The ledger after the first moves. -/
def ledgerAfter : Ledger → List Move → Nat → Ledger
  | ledger, move :: moves, n + 1 =>
      match move.perform rt ledger with
      | some (_, ledger') => ledgerAfter ledger' moves n
      | none => ledger
  | ledger, _, _ => ledger

/-- The entry that a move makes. -/
def entryAt : Ledger → List Move → Nat → Entry
  | _, [], _ => .received 0
  | ledger, move :: moves, n =>
      match move.perform rt ledger, n with
      | none, _ => .received 0
      | some (entry, _), 0 => entry
      | some (_, ledger'), n + 1 => entryAt ledger' moves n

variable {rt}

theorem step_of_replay {ledger : Ledger} {moves : List Move}
    (h : (replay rt ledger moves).isSome) {n : Nat} (hn : n < moves.length) :
    Step rt (ledgerAfter rt ledger moves n) (entryAt rt ledger moves n)
      (ledgerAfter rt ledger moves (n + 1)) := by
  induction moves generalizing ledger n with
  | nil => simp at hn
  | cons move moves ih =>
      obtain ⟨⟨trace, last⟩, h⟩ := Option.isSome_iff_exists.mp h
      obtain ⟨entry, mid, rest, hmove, hrest, _⟩ := replay_cons.mp h
      cases n with
      | zero =>
          have hmid : ledgerAfter rt ledger (move :: moves) 1 = mid := by
            cases moves <;> simp [ledgerAfter, hmove]
          rw [hmid]
          simp only [ledgerAfter, entryAt, hmove]
          exact step_iff_perform.mpr ⟨move, hmove⟩
      | succ n =>
          have hsome : (replay rt mid moves).isSome := by simp [hrest]
          simpa only [ledgerAfter, entryAt, hmove] using ih hsome (Nat.lt_of_succ_lt_succ hn)

end

namespace MarketHistory

/-- The history of a replay. -/
def ofReplay {rt : Runtime} {ledger : Ledger} {opening : MarketInitialized}
    (hopened : ∃ clock accounts args,
      initializeMarket rt clock accounts args = .ok (ledger, .marketInitialized opening))
    (moves : List Move) (hreplay : (replay rt ledger moves).isSome) : MarketHistory rt where
  opening
  ledger := ledgerAfter rt ledger moves
  entry := entryAt rt ledger moves
  length := moves.length
  opened := by
    have hstart : ledgerAfter rt ledger moves 0 = ledger := by cases moves <;> rfl
    rw [hstart]
    exact hopened
  step _ hn := step_of_replay hreplay hn

end MarketHistory

/-- The history of moves on the sample's market. -/
def Sample.history (moves : List Move) : Option (MarketHistory runtime) :=
  match hopening : opening with
  | .ok (_, .marketInitialized _) =>
      if hreplay : _ then some (.ofReplay ⟨_, _, _, hopening⟩ moves hreplay) else none
  | _ => none

end CalledIt.Escrow
