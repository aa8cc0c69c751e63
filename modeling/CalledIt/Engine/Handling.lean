import CalledIt.Engine.Scheduler
import CalledIt.Engine.Settler

/-!
# CalledIt.Engine.Handling

How a score event is handled when calls fail, for one market of its fixture:
`onEvent` and `reduceMarkets` of the settler, `run` and `reduce` of the escrow
scheduler, `handleEvent` of the supervisor, `runStream` and the gap fill of the live
source.

How each call ends is an input (`Faults`).  The other markets of the fixture matter
only where the process dies in one of their calls: what they throw is caught.  The two
handlers run side by side; where one of them throws, the supervisor does not wait for
the other any more, which is not modelled.
-/

namespace CalledIt.Engine

/-! ## calls that fail -/

/-- How a call ends: it returns, it throws, or the process dies. -/
inductive Fate
  | returns
  | throws
  | crashes
  deriving DecidableEq, Repr

/-- How a write ends, and whether the database has taken it if it does not return. -/
inductive WriteFate
  | returns
  | throws (landed : Bool)
  | crashes (landed : Bool)
  deriving DecidableEq, Repr

namespace WriteFate

def landed : WriteFate → Bool
  | returns => true
  | throws landed => landed
  | crashes landed => landed

def fate : WriteFate → Fate
  | returns => .returns
  | throws _ => .throws
  | crashes _ => .crashes

end WriteFate

/-- The first of two calls that does not return. -/
def Fate.andThen : Fate → Fate → Fate
  | returns, next => next
  | throws, _ => throws
  | crashes, _ => crashes

/-- How the calls for one delivery end, with what they answer. -/
structure Faults where
  insertFeedEvent : WriteFate
  updateFixture : Fate
  openMarkets : Fate
  narrateGoal : Fate
  /-- The process dies in a call for a market before this one. -/
  diesBefore : Bool
  positionsForMarket : Fate
  positions : List Position
  /-- The writes of the effects, and of the status after them. -/
  write : Nat → WriteFate
  schedulerMarkets : Fate
  schedulerPositions : Fate
  loadMarket : Fate
  /-- `loadMarket` answers with a context. -/
  context : Bool
  /-- The lots are read and the requests enqueued. -/
  requests : Fate
  /-- The process dies after the market's own calls. -/
  diesAfter : Bool
  setCursor : WriteFate

/-- The calls for the requests of an event, and whether all of them are made: without a
context none is. -/
def Faults.enqueue (faults : Faults) : Fate × Bool :=
  match faults.loadMarket with
  | .returns =>
      if faults.context then (faults.requests, faults.requests = .returns) else (.returns, false)
  | fate => (fate, false)

/-! ## one market -/

inductive Custody
  | legacy
  | escrow
  deriving DecidableEq, Repr

/-- A market's row, and what its handler keeps of it in memory: the settler a state,
the scheduler a state and a watermark. -/
structure MarketBook where
  custody : Custody
  fixed : MarketRow
  status : MarketStatus
  cached : Option MarketState
  watermark : Option Nat
  applied : List MarketEffect

/-- An event is due for the market: it was delivered while the market was open, and no
marker made its handler skip it.  An event is reduced into the market, with all its
effects applied or not. -/
inductive FeedNote
  | due (seq : Nat)
  | reduced (seq : Nat) (complete : Bool)
  deriving DecidableEq, Repr

namespace MarketBook

/-- `openMarketsForFixture` lists the market. -/
def isOpen (book : MarketBook) : Bool := !book.status.isTerminal

def applyEffect (book : MarketBook) (effect : MarketEffect) : MarketBook :=
  { book with
    status := effect.rowStatus.getD book.status
    applied := book.applied ++ [effect] }

/-- The writes of `applyEffects`. -/
def writes (book : MarketBook) (result : ReduceResult) : List (MarketBook → MarketBook) :=
  result.effects.map (fun effect book => book.applyEffect effect) ++
    if result.state.status ≠ book.status ∧ !result.state.status.isTerminal then
      [fun book => { book with status := result.state.status }]
    else []

/-- One write after the other, up to the first that does not return. -/
def carryOut (write : Nat → WriteFate) (book : MarketBook) :
    List (MarketBook → MarketBook) → MarketBook × Fate
  | [] => (book, .returns)
  | change :: changes =>
      let next := if (write 0).landed then change book else book
      match (write 0).fate with
      | .returns => carryOut (fun n => write (n + 1)) next changes
      | fate => (next, fate)

/-- `reduceMarkets`, for this market. -/
def settle (book : MarketBook) (event : MatchEvent) (faults : Faults) :
    MarketBook × Fate × List FeedNote :=
  match faults.positionsForMarket with
  | .returns =>
      let state :=
        { book.cached.getD (hydrated book.fixed book.status faults.positions) with
          positions := faults.positions }
      let result := reduceMarket state event
      let carried := { book with cached := some state }.carryOut faults.write (book.writes result)
      match carried.2 with
      | .returns =>
          ({ carried.1 with
              cached := if result.state.status.isTerminal then none else some result.state },
            .returns, [.reduced event.seq true])
      | fate => (carried.1, fate, [.reduced event.seq false])
  | fate => (book, fate, [])

/-- `event.seq <= (eventWatermarks.get(market.id) ?? -1)`. -/
def belowWatermark (book : MarketBook) (seq : Nat) : Bool :=
  match book.watermark with
  | some watermark => seq ≤ watermark
  | none => false

/-- The state and the watermark are kept at the end of `reduce`. -/
def keep (book : MarketBook) (event : MatchEvent) (result : ReduceResult) : MarketBook :=
  { book with
    cached := some result.state
    watermark := if event.kind ≠ .oddsSuspension then some event.seq else book.watermark
    applied := book.applied ++ result.effects }

/-- `reduce`, with the requests as one call. -/
def schedule (book : MarketBook) (event : MatchEvent) (faults : Faults) :
    MarketBook × Fate × List FeedNote :=
  if event.kind ≠ .oddsSuspension ∧ book.belowWatermark event.seq then (book, .returns, [])
  else
    match faults.schedulerPositions with
    | .returns =>
        let row := { hydrated book.fixed book.status faults.positions with isReplay := false }
        let state := { book.cached.getD row with positions := faults.positions }
        if ignored state event then (book, .returns, [.reduced event.seq true])
        else
          let result := reduceMarket state event
          let enqueued :=
            if Scheduler.requiresWorkflowContext result.effects event state.pendingSettlement
                result.state.pendingSettlement then faults.enqueue
            else (.returns, true)
          (if enqueued.2 then book.keep event result else book, enqueued.1,
            [.reduced event.seq enqueued.2])
    | fate => (book, fate, [])

end MarketBook

/-! ## one delivery -/

/-- The stored feed rows and cursor, the frame that the connection delivers next, and
the market.  `lost` keeps the frames whose handling died before the market was done. -/
structure FeedWorld where
  feedRows : List Nat
  cursor : Nat
  reading : Nat
  market : Option MarketBook
  lost : List Nat

namespace FeedWorld

/-- The market, if it is open and in the given custody. -/
def listed (world : FeedWorld) (custody : Custody) : Option MarketBook :=
  world.market.filter fun book => book.isOpen ∧ book.custody = custody

/-- What a handler throws for one market is caught. -/
def caught : Fate → Fate
  | .crashes => .crashes
  | _ => .returns

def insertRow (world : FeedWorld) (seq : Nat) (write : WriteFate) : FeedWorld :=
  if write.landed ∧ seq ∉ world.feedRows then { world with feedRows := seq :: world.feedRows }
  else world

/-- `reduceMarkets`, after the goal is narrated. -/
def reduceMarkets (world : FeedWorld) (event : MatchEvent) (faults : Faults) :
    FeedWorld × Fate × List FeedNote :=
  if faults.diesBefore then (world, .crashes, [])
  else
    match world.listed .legacy with
    | none => (world, .returns, [])
    | some book =>
        let settled := book.settle event faults
        ({ world with market := some settled.1 }, caught settled.2.1, settled.2.2)

/-- `Settler.onEvent`. -/
def onEvent (world : FeedWorld) (event : MatchEvent) (faults : Faults) :
    FeedWorld × Fate × List FeedNote :=
  let inserted := world.insertRow event.seq faults.insertFeedEvent
  match faults.insertFeedEvent.fate with
  | .returns =>
      if event.seq ∈ world.feedRows then (world, .returns, [])
      else
        match faults.updateFixture.andThen (faults.openMarkets.andThen faults.narrateGoal) with
        | .returns => inserted.reduceMarkets event faults
        | fate => (inserted, fate, [])
  | fate => (inserted, fate, [])

/-- `run` of the scheduler. -/
def runScheduler (world : FeedWorld) (event : MatchEvent) (faults : Faults) :
    FeedWorld × Fate × List FeedNote :=
  match faults.schedulerMarkets with
  | .returns =>
      match world.listed .escrow with
      | none => (world, .returns, [])
      | some book =>
          let scheduled := book.schedule event faults
          ({ world with market := some scheduled.1 }, caught scheduled.2.1, scheduled.2.2)
  | fate => (world, fate, [])

/-- A marker makes the market's handler skip the event. -/
def Skips (world : FeedWorld) (book : MarketBook) (seq : Nat) : Prop :=
  match book.custody with
  | .legacy => seq ∈ world.feedRows
  | .escrow => book.belowWatermark seq = true

instance (world : FeedWorld) (book : MarketBook) (seq : Nat) :
    Decidable (world.Skips book seq) := by
  unfold Skips
  cases book.custody <;> infer_instance

def isDue (world : FeedWorld) (seq : Nat) : Bool :=
  match world.market with
  | none => false
  | some book => book.isOpen ∧ ¬ world.Skips book seq

/-- Both handlers on an event. -/
def handle (world : FeedWorld) (event : MatchEvent) (faults : Faults) :
    FeedWorld × Fate × List FeedNote :=
  let settled := world.onEvent event faults
  let scheduled := settled.1.runScheduler event faults
  let fate :=
    if settled.2.1 = .crashes ∨ scheduled.2.1 = .crashes ∨ faults.diesAfter then .crashes
    else settled.2.1.andThen scheduled.2.1
  (scheduled.1, fate,
    (if world.isDue event.seq then [.due event.seq] else []) ++ settled.2.2 ++ scheduled.2.2)

/-- The process starts again: what it kept in memory is gone, and the stream goes on
after the cursor. -/
def restart (world : FeedWorld) : FeedWorld :=
  { world with
    reading := world.cursor
    market := world.market.map fun book => { book with cached := none, watermark := none } }

/-- The frame was due, and the process died before the market was done with it. -/
def keepLost (world : FeedWorld) (due : Bool) (index seq : Nat) (fate : Fate)
    (notes : List FeedNote) : FeedWorld :=
  if .reduced seq true ∈ notes then { world with lost := world.lost.filter (· ≠ index) }
  else if due ∧ fate = .crashes then { world with lost := index :: world.lost }
  else world

/-- A delivery of the frame with the index, `handleEvent` around it. -/
def deliver (world : FeedWorld) (index : Nat) (event : MatchEvent) (faults : Faults) :
    FeedWorld × Fate × List FeedNote :=
  let handled := world.handle event faults
  let kept := handled.1.keepLost (world.isDue event.seq) index event.seq handled.2.1 handled.2.2
  (if handled.2.1 = .crashes then kept.restart else kept, handled.2.1, handled.2.2)

/-- The cursor is stored, whatever became of the event. -/
def setCursor (world : FeedWorld) (write : WriteFate) : FeedWorld :=
  let stored := if write.landed then { world with cursor := world.reading + 1 } else world
  match write.fate with
  | .returns => { stored with reading := world.reading + 1 }
  | .throws => { stored with reading := stored.cursor }
  | .crashes => stored.restart

end FeedWorld

/-! ## runs -/

/-- The stream delivers its next frame, a gap fill delivers any; the connection is made
again, the process starts again; the market is created, or ended from elsewhere. -/
inductive FeedAction
  | frame (faults : Faults)
  | fill (index : Nat) (faults : Faults)
  | reconnect
  | restart
  | create (custody : Custody) (fixed : MarketRow) (lineup : Bool)
  | close (status : MarketStatus)

/-- One step of a source on the given stream. -/
def feedStep (stream : List MatchEvent) (world : FeedWorld) :
    FeedAction → FeedWorld × List FeedNote
  | .frame faults =>
      match stream[world.reading]? with
      | none => (world, [])
      | some event =>
          let delivered := world.deliver world.reading event faults
          (if delivered.2.1 = .crashes then delivered.1 else delivered.1.setCursor faults.setCursor,
            delivered.2.2)
  | .fill index faults =>
      match stream[index]? with
      | none => (world, [])
      | some event =>
          let delivered := world.deliver index event faults
          (delivered.1, delivered.2.2)
  | .reconnect => ({ world with reading := world.cursor }, [])
  | .restart => (world.restart, [])
  | .create custody fixed lineup =>
      match world.market with
      | some _ => (world, [])
      | none =>
          ({ world with
              market := some
                { custody
                  fixed
                  status := if lineup then .pendingLineup else .open
                  cached := none
                  watermark := none
                  applied := [] } }, [])
  | .close status =>
      ({ world with
          market := world.market.map fun book =>
            if status.isTerminal then { book with status, cached := none } else book }, [])

end CalledIt.Engine
