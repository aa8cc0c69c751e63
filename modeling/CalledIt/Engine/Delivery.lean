import CalledIt.Engine.Positions

/-!
# CalledIt.Engine.Delivery

Duplicate and stale delivery.  A score event at or before the cursor is ignored, so
a run over a feed with repeats and late arrivals is the run over the events that
move the cursor, and the odds suspensions (`stale_delivery_harmless`).
-/

namespace CalledIt.Engine

open Lib

/-- The odds suspensions, and the score events after every score event kept so far. -/
def keepFresh (cursor : Nat) : List MatchEvent → List MatchEvent
  | [] => []
  | event :: events =>
      if event.kind = .oddsSuspension then event :: keepFresh cursor events
      else if cursor < event.seq then event :: keepFresh event.seq events
      else keepFresh cursor events

/-- A market as the engine holds it: a row as it was inserted, then events, ticks and
taps in any order. -/
inductive Lived : MarketState → Prop
  | row {state : MarketState} (h : state.scratch = none) : Lived state
  | taps {state : MarketState} (positions : List Position) (h : Lived state) :
      Lived { state with positions }
  | step {state : MarketState} (input : MarketInput) (h : Lived state) :
      Lived (marketStep state input).1

/-- The sequence a market starts from: its anchor's, or zero. -/
def startSeq (spec : MarketSpec) : Nat := (initialScratch spec).lastSeq

theorem startSeq_marketStep (state : MarketState) (input : MarketInput) :
    startSeq (marketStep state input).1.spec = startSeq state.spec := by
  obtain ⟨participant, hspec⟩ := sameClaim_marketStep state input
  rw [hspec]
  rfl

variable {state : MarketState}

theorem Lived.startSeq_le (h : Lived state) :
    startSeq state.spec ≤ (scratchOf state).lastSeq := by
  induction h with
  | row h => simp [scratchOf, h, startSeq]
  | taps positions h ih => exact ih
  | @step state input h ih =>
      rw [startSeq_marketStep]
      exact ih.trans (lastSeq_marketStep state input)

/-- Nothing at or before the cursor is processed any more. -/
def Past (cursor : Nat) (state : MarketState) : Prop :=
  state.status.isTerminal = true ∨ cursor ≤ (scratchOf state).lastSeq

variable {cursor : Nat}

theorem Past.ignored (h : Past cursor state) {event : MatchEvent}
    (hscore : event.kind ≠ .oddsSuspension) (hseq : event.seq ≤ cursor) :
    ignored state event = true := by
  unfold Engine.ignored
  rcases h with hover | hcursor
  · rcases over_of_isTerminal hover with h | h <;> simp [h]
  · simp [hscore, hseq.trans hcursor]

theorem Past.step (h : Past cursor state)
    (event : MatchEvent) : Past cursor (reduceMarket state event).state := by
  rcases h with hover | hcursor
  · rw [reduceMarket_of_over (over_of_isTerminal hover)]
    exact .inl hover
  · exact .inr (hcursor.trans (lastSeq_marketStep state (.event event)))

/-- A score event of the fixture leaves the cursor on it or beyond it. -/
theorem past_of_delivered {event : MatchEvent} (hfixture : event.fixtureId = state.spec.fixtureId)
    (hscore : event.kind ≠ .oddsSuspension) :
    Past event.seq (reduceMarket state event).state := by
  cases htaken : ignored state event with
  | true =>
      rw [reduceMarket_of_ignored htaken]
      unfold ignored at htaken
      simpa [hfixture, hscore, Past, MarketStatus.isTerminal, or_assoc] using htaken
  | false =>
      refine .inr ?_
      rw [lastSeq_of_taken htaken, advance, if_neg hscore]

theorem marketRun_event (state : MarketState) (event : MatchEvent) (inputs : List MarketInput) :
    marketRun state (.event event :: inputs) =
      ((marketRun (reduceMarket state event).state inputs).1,
        (reduceMarket state event).effects ++
          (marketRun (reduceMarket state event).state inputs).2) := rfl

theorem marketRun_keepFresh (h : Past cursor state) {events : List MatchEvent}
    (hfixture : ∀ event ∈ events, event.fixtureId = state.spec.fixtureId) :
    marketRun state (events.map .event) =
      marketRun state ((keepFresh cursor events).map .event) := by
  induction events generalizing state cursor with
  | nil => rfl
  | cons event events ih =>
      have hevent := hfixture event List.mem_cons_self
      have hrest : ∀ e ∈ events, e.fixtureId = (reduceMarket state event).state.spec.fixtureId := by
        intro e he
        rw [fixtureId_reduceMarket]
        exact hfixture e (List.mem_cons_of_mem _ he)
      rw [keepFresh]
      split
      · simp only [List.map_cons, marketRun_event]
        rw [ih (h.step event) hrest]
      next hscore =>
      split
      · simp only [List.map_cons, marketRun_event]
        rw [ih (past_of_delivered hevent hscore) hrest]
      · next hseq =>
        have hignored := h.ignored hscore (not_lt.mp hseq)
        have hsame := reduceMarket_of_ignored hignored
        rw [List.map_cons, marketRun_event, hsame, List.nil_append]
        rw [hsame] at hrest
        exact ih h hrest

/-- A run over any delivery of a fixture's events is the run over the odds
suspensions and the score events that each come after every one kept before. -/
theorem stale_delivery_harmless {state : MarketState} (hlived : Lived state)
    (events : List MatchEvent)
    (hfixture : ∀ event ∈ events, event.fixtureId = state.spec.fixtureId) :
    marketRun state (events.map .event) =
      marketRun state ((keepFresh (startSeq state.spec) events).map .event) :=
  marketRun_keepFresh (.inr hlived.startSeq_le) hfixture

/-- A goal delivered twice, the second time after the event that follows it. -/
theorem repeated_goal_harmless :
    let goal := Sample.feedEvent .goal 1 .h1 1
    let second := Sample.feedEvent .goal 2 .h1 2
    keepFresh 0 [goal, second, goal] = [goal, second] ∧
      marketRun (Sample.market Sample.twoGoals []) [.event goal, .event second, .event goal] =
        marketRun (Sample.market Sample.twoGoals []) [.event goal, .event second] :=
  ⟨by decide, stale_delivery_harmless (.row rfl) [Sample.feedEvent .goal 1 .h1 1,
    Sample.feedEvent .goal 2 .h1 2, Sample.feedEvent .goal 1 .h1 1] (by decide)⟩

end CalledIt.Engine
