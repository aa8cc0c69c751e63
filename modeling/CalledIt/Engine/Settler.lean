import Mathlib.Logic.Function.Basic
import CalledIt.Engine.Positions

/-!
# CalledIt.Engine.Settler

The live settler (`engine/src/settle/settler.ts`), for one market.

Calls of `onEvent` and `tick` run side by side and give way to each other at every
await.  A caller is a feed stream, which awaits one event before the next, or a clock
tick.  The states of markets are objects: a call holds on to the one it found in the
map while others may store another there.

`SerialMarket` is what the calls are meant to do, one after the other.
-/

namespace CalledIt.Engine

open Lib

/-! ## calls -/

inductive SettlerCall
  | onEvent (event : MatchEvent)
  | tick (nowMs : Int)
  deriving DecidableEq

/-- The row of a market, without its status. -/
structure MarketRow where
  spec : MarketSpec
  isReplay : Bool

/-- The state that `hydrate` makes from the row of a market and its status. -/
def hydrated (fixed : MarketRow) (row : MarketStatus) (positions : List Position) :
    MarketState where
  spec := fixed.spec
  status := row
  positions
  pendingSettlement := none
  isReplay := fixed.isReplay
  scratch := none

def SettlerCall.result (call : SettlerCall) (state : MarketState) : ReduceResult :=
  match call with
  | .onEvent event => reduceMarket state event
  | .tick nowMs => checkDebounce state nowMs

/-- The result is the object the call was given. -/
def SettlerCall.keeps (call : SettlerCall) (state : MarketState) : Bool :=
  match call with
  | .onEvent event => ignored state event
  | .tick nowMs => (checkDebounce state nowMs).effects = []

/-! ## applying effects -/

/-- The status that an effect writes to the row. -/
def MarketEffect.rowStatus : MarketEffect → Option MarketStatus
  | freeze _ => some .frozen
  | unfreeze => some .open
  | settle outcome _ _ => some (if outcome = .void then .voided else .settled)
  | void _ => some .voided
  | activateMarket => some .open
  | voidPositions _ => none
  | activatePositions _ => none
  | repriceHint => none

/-- What a call still has to do once it has its result: apply the effects, where
`settle` ends with deleting the state from the map, move the status of the row, and
store the result or delete the state. -/
inductive EffectStep
  | apply (effect : MarketEffect)
  | forget
  | move (status : MarketStatus)
  | store (reference : Nat)
  | drop
  deriving DecidableEq

def MarketEffect.steps (effect : MarketEffect) : List EffectStep :=
  if effect.isTerminal then [.apply effect, .forget] else [.apply effect]

def effectSteps (row : MarketStatus) (result : ReduceResult) (reference : Nat) : List EffectStep :=
  result.effects.flatMap (·.steps) ++
    (if result.state.status ≠ row ∧ !result.state.status.isTerminal then
      [.move result.state.status] else []) ++
    [if result.state.status.isTerminal then .drop else .store reference]

/-! ## the world -/

/-- Where a call waits, with what it holds on to. -/
inductive CallState
  | listing (event : MatchEvent)
  | hydrating (event : MatchEvent) (row : MarketStatus)
  | reducing (event : MatchEvent) (row : MarketStatus) (reference : Nat)
  | looking (nowMs : Int) (reference : Nat)
  | checking (nowMs : Int) (reference : Nat) (row : MarketStatus)
  | applying (call : SettlerCall) (base : Nat) (rest : List EffectStep)
  deriving DecidableEq

/-- The market's row, its entry in the map `states`, the effects applied to it so far,
and the calls under way. -/
structure SettlerWorld where
  fixed : MarketRow
  row : MarketStatus
  objects : Nat → MarketState
  allocated : Nat
  states : Option Nat
  applied : List MarketEffect
  calls : Nat → Option CallState

/-- What can be seen of a run: calls as they come in, rows as they are hydrated, and
calls as they take effect. -/
inductive SettlerNote
  | called (caller : Nat) (call : SettlerCall)
  | hydrated (row : MarketStatus) (positions : List Position)
  | tookEffect (caller : Nat) (call : SettlerCall)
  deriving DecidableEq

/-- A call comes in, or the one a caller is waiting for goes on to its next await.
`positions` is what the database answers to a call that hydrates. -/
inductive SettlerAction
  | call (caller : Nat) (call : SettlerCall)
  | resume (caller : Nat) (positions : List Position)
  deriving DecidableEq

namespace SettlerWorld

def await (world : SettlerWorld) (caller : Nat) (state : CallState) : SettlerWorld :=
  { world with calls := Function.update world.calls caller (some state) }

def done (world : SettlerWorld) (caller : Nat) : SettlerWorld :=
  { world with calls := Function.update world.calls caller none }

/-- A tick looks at the market if there is a candidate in the map when it comes in. -/
def accept (world : SettlerWorld) (caller : Nat) (call : SettlerCall) :
    SettlerWorld × List SettlerNote :=
  match call with
  | .onEvent event => (world.await caller (.listing event), [.called caller call])
  | .tick nowMs =>
      match world.states with
      | none => (world, [.called caller call, .tookEffect caller call])
      | some reference =>
          if (world.objects reference).pendingSettlement = none then
            (world, [.called caller call, .tookEffect caller call])
          else (world.await caller (.looking nowMs reference), [.called caller call])

def allocate (world : SettlerWorld) (state : MarketState) : SettlerWorld :=
  { world with
    objects := Function.update world.objects world.allocated state
    allocated := world.allocated + 1 }

/-- `hydrate` writes the positions into the object of the map, or puts a new object
there. -/
def hydrate (world : SettlerWorld) (row : MarketStatus) (positions : List Position) :
    SettlerWorld × Nat :=
  match world.states with
  | some reference =>
      ({ world with
          objects := Function.update world.objects reference
            { world.objects reference with positions } }, reference)
  | none =>
      ({ world.allocate (hydrated world.fixed row positions) with states := some world.allocated },
        world.allocated)

/-- The call has its result and goes on to apply the effects. -/
def reduce (world : SettlerWorld) (caller : Nat) (call : SettlerCall) (row : MarketStatus)
    (base : Nat) : SettlerWorld :=
  let result := call.result (world.objects base)
  if call.keeps (world.objects base) then
    world.await caller (.applying call base (effectSteps row result base))
  else
    (world.allocate result.state).await caller
      (.applying call base (effectSteps row result world.allocated))

def applyEffect (world : SettlerWorld) (effect : MarketEffect) : SettlerWorld :=
  { world with
    row := effect.rowStatus.getD world.row
    applied := world.applied ++ [effect] }

/-- One step of `applyEffects` and of what follows it.  A call takes effect when it
stores its result, or ends the market. -/
def advance (world : SettlerWorld) (caller : Nat) (call : SettlerCall) (base : Nat)
    (rest : List EffectStep) : EffectStep → SettlerWorld × List SettlerNote
  | .apply effect =>
      ((world.applyEffect effect).await caller (.applying call base rest),
        if effect.isTerminal then [.tookEffect caller call] else [])
  | .forget => ({ world with states := none }.await caller (.applying call base rest), [])
  | .move status => ({ world with row := status }.await caller (.applying call base rest), [])
  | .store reference =>
      ({ world with states := some reference }.done caller, [.tookEffect caller call])
  | .drop => ({ world with states := none }.done caller, [])

def resume (world : SettlerWorld) (caller : Nat) (positions : List Position) :
    SettlerWorld × List SettlerNote :=
  match world.calls caller with
  | none => (world, [])
  | some (.listing event) =>
      if world.row.isTerminal then (world.done caller, [.tookEffect caller (.onEvent event)])
      else (world.await caller (.hydrating event world.row), [])
  | some (.hydrating event row) =>
      let found := world.hydrate row positions
      (found.1.await caller (.reducing event row found.2), [.hydrated row positions])
  | some (.reducing event row reference) =>
      (world.reduce caller (.onEvent event) row reference, [])
  | some (.looking nowMs reference) =>
      (world.await caller (.checking nowMs reference world.row), [])
  | some (.checking nowMs reference row) =>
      if row.isTerminal then
        ({ world with states := none }.done caller, [.tookEffect caller (.tick nowMs)])
      else (world.reduce caller (.tick nowMs) row reference, [])
  | some (.applying _ _ []) => (world.done caller, [])
  | some (.applying call base (step :: rest)) => world.advance caller call base rest step

end SettlerWorld

/-- A caller makes its next call when the one before has returned. -/
def settlerStep (world : SettlerWorld) : SettlerAction → SettlerWorld × List SettlerNote
  | .call caller call =>
      if (world.calls caller).isSome then (world, []) else world.accept caller call
  | .resume caller positions => world.resume caller positions

/-! ## one call after the other -/

/-- A market between calls: its state in the map, the effects applied to it, and
whether it has ended. -/
structure SerialMarket where
  cached : Option MarketState
  applied : List MarketEffect
  ended : Bool
  deriving DecidableEq

namespace SerialMarket

def take (market : SerialMarket) (result : ReduceResult) : SerialMarket :=
  { cached := if result.state.status.isTerminal then none else some result.state
    applied := market.applied ++ result.effects
    ended := result.state.status.isTerminal }

/-- An event of a market that has ended finds nothing to reduce, and a tick is for
candidates. -/
def perform (market : SerialMarket) (call : SettlerCall) : SerialMarket :=
  match market.cached, call with
  | none, _ => market
  | some state, .onEvent event => market.take (reduceMarket state event)
  | some state, .tick nowMs =>
      if state.pendingSettlement = none then market else market.take (checkDebounce state nowMs)

/-- The positions are read from the database, a state is made where there is none. -/
def refresh (fixed : MarketRow) (market : SerialMarket) (row : MarketStatus)
    (positions : List Position) : SerialMarket :=
  if market.ended then market
  else
    { market with
      cached := match market.cached with
        | none => some (hydrated fixed row positions)
        | some state => some { state with positions } }

def step (fixed : MarketRow) (market : SerialMarket) : SettlerNote → SerialMarket
  | .called _ _ => market
  | .hydrated row positions => refresh fixed market row positions
  | .tookEffect _ call => market.perform call

def run (fixed : MarketRow) (market : SerialMarket) (notes : List SettlerNote) : SerialMarket :=
  notes.foldl (step fixed) market

end SerialMarket

/-! ## serializability -/

namespace SettlerNote

def isCalled : SettlerNote → Bool
  | called _ _ => true
  | _ => false

def callOf (caller : Nat) : SettlerNote → Option SettlerCall
  | called other call => if other = caller then some call else none
  | _ => none

def effectOf (caller : Nat) : SettlerNote → Option SettlerCall
  | tookEffect other call => if other = caller then some call else none
  | _ => none

end SettlerNote

/-- The calls of a caller, as they came in. -/
def callsBy (caller : Nat) (notes : List SettlerNote) : List SettlerCall :=
  notes.filterMap (SettlerNote.callOf caller)

/-- The calls of a caller, as they took effect. -/
def effectsBy (caller : Nat) (notes : List SettlerNote) : List SettlerCall :=
  notes.filterMap (SettlerNote.effectOf caller)

def SettlerWorld.serial (world : SettlerWorld) : SerialMarket where
  cached := world.states.map world.objects
  applied := world.applied
  ended := world.row.isTerminal

/-- All calls have returned. -/
def SettlerWorld.Idle (world : SettlerWorld) : Prop := ∀ caller, world.calls caller = none

/-- Some order of the calls that keeps the order of each caller's own, with the
positions read in between, leads to the same effects and the same state. -/
def Serializable (start : SettlerWorld) (actions : List SettlerAction) : Prop :=
  ∃ order : List SettlerNote,
    order.Perm ((execute settlerStep start actions).2.filter (!·.isCalled)) ∧
      (∀ caller, effectsBy caller order = callsBy caller (execute settlerStep start actions).2) ∧
      (SerialMarket.run start.fixed start.serial order).applied =
        (execute settlerStep start actions).1.applied ∧
      (SerialMarket.run start.fixed start.serial order).cached =
        (execute settlerStep start actions).1.serial.cached

end CalledIt.Engine
