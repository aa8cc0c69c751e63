import CalledIt.Engine.Steps
import CalledIt.Lib.Transducer

/-!
# CalledIt.Engine.Runs

Whole lives of a market: feed events in any order, with the engine's clock tick
(`checkDebounce` of `market-engine/src/reduce.ts`) at any time between them.

`marketStep` answers one input and `marketRun` a list of them, effects collected in
order.
-/

namespace CalledIt.Engine

open Lib

/-! ## the clock tick -/

/-- Pending taps whose window has passed. -/
def maturedAt (nowMs : Int) (p : Position) : Bool :=
  p.state = .pending ∧ nowMs ≥ p.placedAtMs + pendingTapWindowMs

/-- Positions are matched by their id. -/
def activateById (positions : List Position) (matured : List Position) : List Position :=
  positions.map fun p =>
    if matured.any fun m => m.id = p.id then { p with state := .active } else p

def maturePositions (state : MarketState) (nowMs : Int) : ReduceResult :=
  let matured := state.positions.filter (maturedAt nowMs)
  if matured = [] then { state, effects := [] }
  else
    { state := { state with positions := activateById state.positions matured }
      effects := [.activatePositions (matured.map (·.id))] }

/-- The candidate's window has elapsed. -/
def debounceElapsed (state : MarketState) (nowMs : Int) : Bool :=
  match state.pendingSettlement with
  | none => false
  | some pending => nowMs ≥ pending.debounceUntilMs

def checkDebounce (state : MarketState) (nowMs : Int) : ReduceResult :=
  if state.status = .settled ∨ state.status = .voided then { state, effects := [] }
  else
    let matured := maturePositions state nowMs
    if debounceElapsed matured.state nowMs then settleNow matured.state matured.effects
    else matured

/-! ## runs -/

inductive MarketInput
  | event (event : MatchEvent)
  | tick (nowMs : Int)

def marketStep (state : MarketState) : MarketInput → MarketState × List MarketEffect
  | .event event => ((reduceMarket state event).state, (reduceMarket state event).effects)
  | .tick nowMs => ((checkDebounce state nowMs).state, (checkDebounce state nowMs).effects)

def marketRun (state : MarketState) (inputs : List MarketInput) :
    MarketState × List MarketEffect :=
  execute marketStep state inputs

/-- A market before its first input: no candidate, nothing frozen. -/
structure Starting (state : MarketState) : Prop where
  status : state.status = .open ∨ state.status = .pendingLineup
  pending : state.pendingSettlement = none
  freezeReason : (scratchOf state).freezeReason = none
  cutoffReached : (scratchOf state).cutoffReached = false

theorem Fresh.starting {state : MarketState} (h : Fresh state) : Starting state := by
  refine ⟨h.status.imp id And.left, h.pending, ?_, ?_⟩
  · rw [scratchOf, h.scratch]
    rfl
  · rw [scratchOf, h.scratch]
    rfl

/-! ## a market for examples -/

namespace Sample

/-- Two goals or more in regulation. -/
def twoGoals : MarketSpec :=
  { claimType := .totalsOu
    fixtureId := 17
    entityRef := .team .one "home"
    comparator := .gte
    threshold := 2
    period := .ft90
    anchor := none
    trustTier := .chainProven }

/-- A market on the claim as it is created, with the given taps. -/
def market (spec : MarketSpec) (positions : List Position) : MarketState :=
  { createMarketFromClaim spec .h1 false with positions }

def feedEvent (kind : MatchEventKind) (seq : Nat) (phase : GamePhase) (goals : Nat) : MatchEvent :=
  let tally : Nat → TeamStats := fun n => ⟨n, 0, 0, 0⟩
  { kind
    fixtureId := 17
    seq
    tsMs := 1000 * seq
    receivedAtMs := 1000 * seq
    confirmed := true
    phase
    minute := none
    score := ⟨tally goals, tally 0, none, none⟩
    detail := none }

end Sample

end CalledIt.Engine
