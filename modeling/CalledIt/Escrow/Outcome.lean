import CalledIt.Escrow.Ledger

/-!
# CalledIt.Escrow.Outcome

One final outcome per market.

Settling, voiding and the timeout compete for the one step that ends the live
phase of a market.  `Ledger.Keeps` is what no later step may change;
`Effect.keeps` shows that every effect on a decided market keeps it, and
`decidedBy_of_run` finds the deciding step in a run.
-/

namespace CalledIt.Escrow

open Lib

/-! ## the state graph -/

/-- The moves of the market state. -/
def MarketState.Next (s s' : MarketState) : Prop :=
  s' = s ∨ (s = .open ∧ s' = .frozen) ∨ (s = .frozen ∧ s' = .open) ∨
    (s.Live ∧ (s' = .settling ∨ s' = .settled ∨ s' = .voided)) ∨
    (s = .settling ∧ s' = .settled) ∨ (s.Terminal ∧ s' = .closed)

variable {m m' : Market}

/-- What a booking does to the state and the verdict: nothing. -/
theorem Market.SameTerms.verdict (h : m.SameTerms m') :
    m'.verdict = m.verdict := by
  unfold Market.SameTerms at h
  rw [h]
  rfl

variable {rt : Runtime} {L L' : Ledger} {entry : Entry}

theorem Effect.next (h : Effect rt L entry L') :
    L.market.state.Next L'.market.state := by
  cases h with
  | froze opens => exact .inr (.inl ⟨opens, rfl⟩)
  | unfroze frozen => exact .inr (.inr (.inl ⟨frozen, rfl⟩))
  | placed h => exact .inl h.booked.terms.state
  | activated h => exact .inl h.booked.terms.state
  | invalidated h => exact .inl h.booked.terms.state
  | began begins =>
      obtain ⟨_, hlive, pots, _, rfl⟩ := beginSettlement_ok_iff.mp begins
      refine .inr (.inr (.inr (.inl ⟨hlive, ?_⟩)))
      by_cases hcount : L.market.positionCount = 0
      · exact .inr (.inl (if_pos hcount))
      · exact .inl (if_neg hcount)
  | entitled position h =>
      have hstate := h.state
      split at hstate
      · exact .inr (.inr (.inr (.inr (.inl ⟨h.settling, hstate⟩))))
      · exact .inl (hstate.trans h.settling.symm)
  | voided voids =>
      obtain ⟨hlive, rfl⟩ := transitionToVoid_ok_iff.mp voids
      exact .inr (.inr (.inr (.inl ⟨hlive, .inr (.inr rfl)⟩)))
  | claimed h =>
      have hstate := congrArg Market.state h.market
      exact .inl hstate
  | lotsClosed h => exact .inl rfl
  | positionClosed => exact .inl rfl
  | closed terminal => exact .inr (.inr (.inr (.inr (.inr ⟨terminal, rfl⟩))))
  | received => exact .inl rfl

variable {trace : List Entry}

/-- The unused state `opening` is never entered. -/
theorem state_ne_opening_of_life {opening : Ledger}
    (h : Life rt opening trace L) : L.market.state ≠ .opening := by
  have hstart : opening.market.state ≠ .opening := by simp [(fresh_of_opened h.opened).opens]
  refine h.run.invariant (I := fun L => L.market.state ≠ .opening) ?_ hstart
  intro s entry t hs hne
  have hnext := (effect_of_step hs).next
  unfold MarketState.Next at hnext
  grind

/-! ## what a decision fixes -/

/-- Verdict, totals and stakes are those of `L`; accounts may only disappear. -/
structure Ledger.Keeps (L L' : Ledger) : Prop where
  decided : ¬ L'.market.state.Live
  verdict : L'.market.verdict = L.market.verdict
  totals : ∀ s side, L'.market.totalIn s side = L.market.totalIn s side
  positions : ∀ {o p'}, L'.positions.lookup o = some p' →
    ∃ p, L.positions.lookup o = some p ∧ p'.side = p.side ∧
      p'.totalPaidAmount = p.totalPaidAmount ∧ ∀ s, p'.amountIn s = p.amountIn s
  lots : ∀ {k lot}, L'.lots.lookup k = some lot → L.lots.lookup k = some lot

theorem Ledger.Keeps.refl (h : ¬ L.market.state.Live) : L.Keeps L :=
  ⟨h, rfl, fun _ _ => rfl, fun hp => ⟨_, hp, rfl, rfl, fun _ => rfl⟩, fun hlot => hlot⟩

theorem Ledger.Keeps.trans {L'' : Ledger} (h : L.Keeps L') (h' : L'.Keeps L'') :
    L.Keeps L'' := by
  refine ⟨h'.decided, h'.verdict.trans h.verdict, ?_, ?_, fun hlot => h.lots (h'.lots hlot)⟩
  · intro s side
    rw [h'.totals, h.totals]
  · intro o p'' hp''
    obtain ⟨p', hp', hside', hpaid', hamounts'⟩ := h'.positions hp''
    obtain ⟨p, hp, hside, hpaid, hamounts⟩ := h.positions hp'
    refine ⟨p, hp, hside'.trans hside, hpaid'.trans hpaid, ?_⟩
    intro s
    rw [hamounts', hamounts]

variable {p p' : UserPosition}

/-- A step that touches one position without its stakes. -/
theorem Ledger.Keeps.of_replace {o : Pubkey} (hdecided : ¬ L'.market.state.Live)
    (hverdict : L'.market.verdict = L.market.verdict)
    (htotals : ∀ s side, L'.market.totalIn s side = L.market.totalIn s side)
    (hlookup : L.positions.lookup o = some p) (hp : L'.positions = L.positions.insert o p')
    (hside : p'.side = p.side) (hpaid : p'.totalPaidAmount = p.totalPaidAmount)
    (hamounts : ∀ s, p'.amountIn s = p.amountIn s)
    (hlots : ∀ {k lot}, L'.lots.lookup k = some lot → L.lots.lookup k = some lot) :
    L.Keeps L' := by
  refine ⟨hdecided, hverdict, htotals, ?_, hlots⟩
  intro o' q hq
  rw [hp] at hq
  rcases Store.lookup_insert_iff.mp hq with ⟨rfl, rfl⟩ | ⟨_, hq⟩
  · exact ⟨p, hlookup, hside, hpaid, hamounts⟩
  · exact ⟨q, hq, rfl, rfl, fun _ => rfl⟩

theorem MarketState.Terminal.not_live {state : MarketState} (h : state.Terminal) :
    ¬ state.Live := by
  unfold MarketState.Live
  rcases h with h | h <;> simp [h]

theorem Entitled.not_live {winner : PositionSide} {slot : UInt64}
    (h : Entitled m p winner slot m' p') : ¬ m'.state.Live := by
  rw [h.state]
  unfold MarketState.Live
  split <;> simp

theorem Entitled.verdict {winner : PositionSide} {slot : UInt64}
    (h : Entitled m p winner slot m' p') : m'.verdict = m.verdict := by
  rw [h.market]
  rfl

/-- **Once decided, every effect keeps the verdict and the stakes.** -/
theorem Effect.keeps (h : Effect rt L entry L')
    (hdecided : ¬ L.market.state.Live) : L.Keeps L' := by
  cases h with
  | froze opens => exact absurd (.inl opens) hdecided
  | unfroze frozen => exact absurd (.inr frozen) hdecided
  | placed h => exact absurd (.inl h.opens) hdecided
  | activated h => exact absurd h.live hdecided
  | invalidated h => exact absurd h.live hdecided
  | began begins => exact absurd (beginSettlement_ok_iff.mp begins).2.1 hdecided
  | entitled position h =>
      obtain ⟨_, hside, _, hpaid, hamounts⟩ := h.sameBuckets
      exact .of_replace h.not_live h.verdict h.keeps.1 position rfl hside hpaid hamounts
        fun hlot => hlot
  | voided voids => exact absurd (transitionToVoid_ok_iff.mp voids).1 hdecided
  | claimed h =>
      refine .of_replace ?_ ?_ ?_ h.position rfl rfl rfl ?_ fun hlot => hlot
      · rw [h.market]
        exact hdecided
      · rw [h.market]
        rfl
      · intro s side
        rw [h.market]
        cases s <;> cases side <;> rfl
      · intro s
        cases s <;> rfl
  | lotsClosed h =>
      refine .of_replace hdecided rfl (fun _ _ => rfl) h.position rfl ?_ ?_ ?_ ?_
      · rw [h.holder]
      · rw [h.holder]
      · intro s
        rw [h.holder]
        cases s <;> rfl
      · intro k lot hlot
        rw [h.lots k] at hlot
        split at hlot
        · contradiction
        · exact hlot
  | positionClosed =>
      refine ⟨hdecided, rfl, ?_, ?_, fun hlot => hlot⟩
      · intro s side
        cases s <;> cases side <;> rfl
      · intro o p hp
        exact ⟨p, (Store.lookup_erase_iff.mp hp).2, rfl, rfl, fun _ => rfl⟩
  | closed terminal =>
      refine ⟨by simp [MarketState.Live], rfl, ?_, ?_, fun hlot => hlot⟩
      · intro s side
        cases s <;> cases side <;> rfl
      · intro o p hp
        exact ⟨p, hp, rfl, rfl, fun _ => rfl⟩
  | received =>
      exact ⟨hdecided, rfl, fun _ _ => rfl, (Ledger.Keeps.refl hdecided).positions,
        fun hlot => hlot⟩

theorem keeps_of_run (h : Run (Step rt) L trace L')
    (hdecided : ¬ L.market.state.Live) : L.Keeps L' :=
  h.invariant (fun hs hk => hk.trans ((effect_of_step hs).keeps hk.decided)) (.refl hdecided)

/-! ## the live phase -/

/-- Until a market is decided nothing of its verdict is written. -/
theorem Effect.verdict_of_live (h : Effect rt L entry L') (hlive : L'.market.state.Live) :
    L.market.state.Live ∧ L'.market.verdict = L.market.verdict := by
  have hbefore : L.market.state.Live := by
    by_contra hdecided
    exact (h.keeps hdecided).decided hlive
  refine ⟨hbefore, ?_⟩
  cases h with
  | froze => rfl
  | unfroze => rfl
  | placed h => exact h.booked.terms.verdict
  | activated h => exact h.booked.terms.verdict
  | invalidated h => exact h.booked.terms.verdict
  | began begins =>
      obtain ⟨_, _, pots, _, rfl⟩ := beginSettlement_ok_iff.mp begins
      unfold MarketState.Live at hlive
      split at hlive <;> simp at hlive
  | entitled position h => exact absurd hlive h.not_live
  | voided voids =>
      obtain ⟨_, rfl⟩ := transitionToVoid_ok_iff.mp voids
      simp [MarketState.Live] at hlive
  | claimed h => exact absurd hbefore (terminal_of_claimAmount h.amount).not_live
  | lotsClosed h => exact absurd hbefore h.terminal.not_live
  | positionClosed terminal => exact absurd hbefore terminal.not_live
  | closed => simp [MarketState.Live] at hlive
  | received => rfl

/-- A state on the way to a live one was live, with nothing written. -/
theorem live_of_run (h : Run (Step rt) L trace L') (hlive : L'.market.state.Live) :
    L.market.state.Live ∧ L'.market.verdict = L.market.verdict := by
  induction h with
  | refl => exact ⟨hlive, rfl⟩
  | snoc _ hs ih =>
      obtain ⟨hbefore, hverdict⟩ := (effect_of_step hs).verdict_of_live hlive
      obtain ⟨hstart, hsame⟩ := ih hbefore
      exact ⟨hstart, hverdict.trans hsame⟩

/-! ## the deciding step -/

/-- The events of a settlement's start and of a void. -/
def Event.Decisive : Event → Prop
  | .marketSettlementStarted _ | .marketSettled _ | .marketVoided _ => True
  | _ => False

/-- Only a settlement or a void ends the live phase. -/
theorem Effect.decisive (h : Effect rt L entry L') (hlive : L.market.state.Live)
    (hdecided : ¬ L'.market.state.Live) :
    ∃ clock event, entry = .emitted clock event ∧ event.Decisive := by
  cases h with
  | froze => exact absurd (.inr rfl) hdecided
  | unfroze => exact absurd (.inl rfl) hdecided
  | placed h => exact absurd (h.booked.terms.state ▸ hlive) hdecided
  | activated h => exact absurd (h.booked.terms.state ▸ hlive) hdecided
  | invalidated h => exact absurd (h.booked.terms.state ▸ hlive) hdecided
  | began begins emits =>
      obtain ⟨e, rfl⟩ | ⟨e, rfl⟩ := emits
      · exact ⟨_, _, rfl, trivial⟩
      · exact ⟨_, _, rfl, trivial⟩
  | entitled position h =>
      have hsettling := h.settling
      unfold MarketState.Live at hlive
      simp [hsettling] at hlive
  | voided => exact ⟨_, _, rfl, trivial⟩
  | claimed h => exact absurd hlive (terminal_of_claimAmount h.amount).not_live
  | lotsClosed h => exact absurd hlive h.terminal.not_live
  | positionClosed terminal => exact absurd hlive terminal.not_live
  | closed terminal => exact absurd hlive terminal.not_live
  | received => exact absurd hlive hdecided

/-- The step that ends the live phase: every state before it is live and has an
empty verdict, every state after it carries the verdict it wrote. -/
structure DecidedBy (rt : Runtime) (opening : Ledger) (trace : List Entry) (L : Ledger)
    (before : List Entry) (L₁ : Ledger) (entry : Entry) (L₂ : Ledger) (after : List Entry) :
    Prop where
  split : trace = before ++ entry :: after
  reaches : Run (Step rt) opening before L₁
  step : Step rt L₁ entry L₂
  event : ∃ clock event, entry = .emitted clock event ∧ event.Decisive
  goesOn : Run (Step rt) L₂ after L
  live : ∀ {pre post M}, Run (Step rt) opening pre M → Run (Step rt) M post L₁ →
    M.market.state.Live ∧ M.market.verdict = .pending
  decided : ∀ {trace' M}, Run (Step rt) L₂ trace' M → L₂.Keeps M

theorem decidedBy_of_run {opening : Ledger} (h : Run (Step rt) opening trace L)
    (hopen : opening.market.state.Live) (hpending : opening.market.verdict = .pending)
    (hdecided : ¬ L.market.state.Live) :
    ∃ before L₁ entry L₂ after, DecidedBy rt opening trace L before L₁ entry L₂ after := by
  induction h with
  | refl => exact absurd hopen hdecided
  | @snoc M L entry trace hrun hs ih =>
      by_cases hlive : M.market.state.Live
      · have hevent := (effect_of_step hs).decisive hlive hdecided
        refine ⟨trace, M, entry, L, [], rfl, hrun, hs, hevent, .refl L, ?_, ?_⟩
        · intro pre post N hpre hpost
          have hN := (live_of_run hpost hlive).1
          exact ⟨hN, (live_of_run hpre hN).2.trans hpending⟩
        · intro trace' N hN
          exact keeps_of_run hN hdecided
      · obtain ⟨before, L₁, entry₁, L₂, after, hby⟩ := ih hlive
        refine ⟨before, L₁, entry₁, L₂, after ++ [entry], ?_, hby.reaches, hby.step,
          hby.event, .snoc hby.goesOn hs, hby.live, hby.decided⟩
        rw [hby.split, List.append_assoc, List.cons_append]

/-! ## competing instructions -/

/-- The instructions that try to decide a market. -/
def Call.Decides : Call → Prop
  | .settleMarket .. | .voidMarket .. | .timeoutVoid => True
  | _ => False

theorem transitionToVoid_error {hash : Bytes 32} (h : ¬ m.state.Live) :
    ∀ m', transitionToVoid m hash ≠ .ok m' := by
  intro m' hm'
  exact h (transitionToVoid_ok_iff.mp hm').1

/-- A decided market refuses every further decision. -/
theorem execute_error_of_decides (h : ¬ L.market.state.Live) (clock : Clock) {c : Call}
    (hc : c.Decides) : ∃ e, execute rt clock L c = .error e := by
  have hnot : ∀ r, execute rt clock L c ≠ .ok r := by
    intro r hr
    cases c with
    | settleMarket accounts args =>
        simp only [execute, settleMarket, bind_ok_iff, require_ok_iff] at hr
        obtain ⟨m, hm, _, _, _, _, _, hstart, _⟩ := hr
        obtain ⟨_, rfl⟩ := loadMarket_ok hm
        exact h (validateSettlementStart_ok hstart).2
    | voidMarket accounts args =>
        simp only [execute, voidMarket, bind_ok_iff, require_ok_iff,
          validateVoidStart_ok_iff] at hr
        obtain ⟨m, hm, _, _, _, hstart, _⟩ := hr
        obtain ⟨_, rfl⟩ := loadMarket_ok hm
        exact h hstart
    | timeoutVoid =>
        simp only [execute, timeoutVoid, bind_ok_iff] at hr
        obtain ⟨m, hm, _, _, m', hvoid, _⟩ := hr
        obtain ⟨_, rfl⟩ := loadMarket_ok hm
        exact transitionToVoid_error h m' hvoid
    | _ => exact hc
  cases hr : execute rt clock L c with
  | ok r => exact absurd hr (hnot r)
  | error e => exact ⟨e, rfl⟩

/-- **A market has one final outcome.**  Its state only moves along the graph;
while it is live nothing is written; once it is not, exactly one step of its
life has decided it, no later step changes the verdict, a total or a stake, and
every further attempt to decide it fails and changes nothing. -/
theorem one_final_outcome {rt : Runtime} {opening L : Ledger} {trace : List Entry}
    (h : Life rt opening trace L) :
    (∀ entry L', Step rt L entry L' → L.market.state.Next L'.market.state) ∧
    (L.market.state.Live → L.market.verdict = .pending) ∧
    (¬ L.market.state.Live →
      (∃ before L₁ entry L₂ after, DecidedBy rt opening trace L before L₁ entry L₂ after) ∧
      (∀ trace' L', Run (Step rt) L trace' L' → L.Keeps L') ∧
      ∀ clock c, Call.Decides c →
        (∃ e, execute rt clock L c = .error e) ∧ submit rt clock L c = L) := by
  have hfresh := fresh_of_opened h.opened
  have hopen : opening.market.state.Live := .inl hfresh.opens
  refine ⟨?_, ?_, ?_⟩
  · intro entry L' hs
    exact (effect_of_step hs).next
  · intro hlive
    exact (live_of_run h.run hlive).2.trans hfresh.verdict
  · intro hdecided
    refine ⟨decidedBy_of_run h.run hopen hfresh.verdict hdecided, ?_, ?_⟩
    · intro trace' L' hrun
      exact keeps_of_run hrun hdecided
    · intro clock c hc
      have herror : ∃ e, execute rt clock L c = .error e :=
        execute_error_of_decides hdecided clock hc
      refine ⟨herror, ?_⟩
      obtain ⟨e, he⟩ := herror
      unfold submit
      rw [he]

/-- The sample is decided when its two positions are still to be processed. -/
theorem one_final_outcome_sample :
    ∃ opening trace L, Life Sample.runtime opening trace L ∧ L.market.state = .settling ∧
      ∃ before L₁ entry L₂ after,
        DecidedBy Sample.runtime opening trace L before L₁ entry L₂ after := by
  obtain ⟨opening, trace, L, hlife, hstate⟩ := Sample.exists_life
    (P := fun _ L => L.market.state = .settling) 6 (by decide +kernel)
  have hdecided : ¬ L.market.state.Live := by
    rw [hstate]
    decide
  exact ⟨opening, trace, L, hlife, hstate, ((one_final_outcome hlife).2.2 hdecided).1⟩

end CalledIt.Escrow
