import CalledIt.Lib.Transducer
import CalledIt.Txline.Framing
import CalledIt.Txline.NormalizeOdds

/-!
# CalledIt.Txline.ReplaySource

The replay of a fixture (`ReplaySource.stepOnce` of `txline/src/replay-source.ts`).

A step reads the snapshots of one virtual time, and at the end of the match the latest
one too.  The maps, the odds edge and the odds pin change in between (`readTick`); the
seen sequence numbers and the clock change when all is done (`commitTick`).
-/

namespace CalledIt.Txline

open Lib
open Engine (GamePhase MatchEvent MatchEventKind)

/-! ## the provider -/

/-- A record, with what the probe for the kickoff looks at. -/
structure SnapshotRecord extends ScoresRecord where
  startTime : Option Int

/-- The answers of the provider: scores as of a time or the latest, odds as of a time. -/
structure ReplaySnapshots where
  scoresSnapshot : Option Int → List SnapshotRecord
  oddsSnapshot : Int → List OddsRecord

/-- Which calls of a step fail, and when the step is made. -/
structure StepCalls where
  receivedAtMs : Int
  probeFails : Bool
  scoresFail : Bool
  oddsFail : Bool
  drainFails : Bool

/-- A step whose calls all succeed. -/
def StepCalls.unfailing (receivedAtMs : Int) : StepCalls :=
  ⟨receivedAtMs, false, false, false, false⟩

inductive StepFailure
  /-- The error of a call, as it is. -/
  | provider
  | error (message : String)
  deriving DecidableEq, Repr

/-! ## the source -/

structure OddsInputs (Prices : Type) where
  prices : Prices
  oddsMessageId : Option String

/-- The options.  `combineOddsSnapshot` prices the tracked odds. -/
structure ReplaySource (Prices : Type) where
  fixtureId : Nat
  explicitStartMs : Option Int
  tickVirtualMs : Nat := 30000
  maxVirtualMs : Nat := 4 * 60 * 60000
  preKickoffLeadMs : Nat := 10 * 60000
  combineOddsSnapshot : List OddsRecord → Option (OddsInputs Prices)

structure ReplayState where
  virtualStartMs : Option Int
  virtualNowMs : Option Int
  seenSeqs : List Nat
  lastOddsPinMessageId : Option String
  oddsSuspended : Bool
  maps : FeedMaps

/-- A new source in a process that has registered some kinds. -/
def ReplayState.initial (registry : Store (Nat × Nat) MatchEventKind) : ReplayState :=
  ⟨none, none, [], none, false, ownMaps registry⟩

structure ReplayStepResult where
  events : List MatchEvent
  virtualNowMs : Int
  done : Bool
  terminalReached : Bool

/-- A call of `onOddsInputs`, or how the step ends. -/
inductive ReplayOutput (Prices : Type)
  | oddsInputs (inputs : OddsInputs Prices)
  | returned (result : ReplayStepResult)
  | threw (failure : StepFailure)

def replayEndPhases : List GamePhase := [.f, .fet, .fpe, .abd, .can, .post, .covLost]

def reachesEndPhase (events : List MatchEvent) : Bool := events.any (·.phase ∈ replayEndPhases)

variable {Prices : Type}

/-- A tick whose snapshots are read, before it is committed. -/
structure ReplayTick (Prices : Type) where
  virtualStartMs : Int
  virtualNowMs : Int
  state : ReplayState
  seenAfterTick : List Nat
  events : List MatchEvent
  inputs : Option (OddsInputs Prices)

def freshRecords (seen : List Nat) (records : List SnapshotRecord) : List ScoresRecord :=
  (records.filter fun record => record.seq ∉ seen).map (·.toScoresRecord)

/-- Records that become events, with the maps of the source. -/
def ReplayTick.readScores (tick : ReplayTick Prices) (receivedAtMs : Int)
    (records : List SnapshotRecord) : ReplayTick Prices :=
  let fresh := freshRecords tick.seenAfterTick records
  { tick with
    state := { tick.state with maps := mapsAfter tick.state.maps (inOrder fresh) }
    seenAfterTick := tick.seenAfterTick ++ fresh.map (·.seq)
    events := tick.events ++ normalizeScores tick.state.maps receivedAtMs fresh }

section

variable (source : ReplaySource Prices) (snapshots : ReplaySnapshots)

def trackedOdds (records : List OddsRecord) : List OddsRecord :=
  records.filter fun record =>
    (classifyOddsRecord record).isSome && isFullMatchPeriod record.marketPeriod

/-- An event when the market goes off the board, a call when the pinned odds change. -/
def ReplayTick.readOdds (tick : ReplayTick Prices) (receivedAtMs : Int)
    (records : List OddsRecord) : ReplayTick Prices :=
  let tracked := trackedOdds records
  let suspension : Option MatchEvent :=
    if tick.state.oddsSuspended then none
    else (tracked.find? isOddsSuspended).map (buildOddsSuspensionEvent · receivedAtMs
      (tick.state.maps.lastPhaseByFixture.lookup source.fixtureId)
      (tick.state.maps.lastScoreByFixture.lookup source.fixtureId))
  let inputs := (source.combineOddsSnapshot tracked).filter fun inputs =>
    inputs.oddsMessageId.isSome ∧ inputs.oddsMessageId ≠ tick.state.lastOddsPinMessageId
  { tick with
    state := { tick.state with
      oddsSuspended := tracked.any isOddsSuspended
      lastOddsPinMessageId := inputs.bind (·.oddsMessageId) <|> tick.state.lastOddsPinMessageId }
    events := tick.events ++ suspension.toList
    inputs }

def resolveVirtualStart (probeFails : Bool) : Except StepFailure Int :=
  match source.explicitStartMs with
  | some startMs => .ok startMs
  | none =>
      if probeFails then .error .provider
      else match (snapshots.scoresSnapshot none).findSome? (·.startTime) with
        | some startTime => .ok (startTime - source.preKickoffLeadMs)
        | none => .error (.error s!"ReplaySource: cannot resolve kickoff for fixture {source.fixtureId} — no scores records with startTime; pass startMs explicitly")

/-- `this.virtualStartMs ?? (await this.resolveVirtualStart())` -/
def virtualStart (state : ReplayState) (probeFails : Bool) : Except StepFailure Int :=
  match state.virtualStartMs with
  | some virtualStartMs => .ok virtualStartMs
  | none => resolveVirtualStart source snapshots probeFails

/-- The tick at a virtual time, with both snapshots of that time. -/
def readTick (state : ReplayState) (virtualStartMs receivedAtMs : Int) : ReplayTick Prices :=
  let virtualNowMs := state.virtualNowMs.elim virtualStartMs (· + source.tickVirtualMs)
  let opened : ReplayTick Prices :=
    { virtualStartMs
      virtualNowMs
      state := { state with virtualStartMs := some virtualStartMs }
      seenAfterTick := state.seenSeqs
      events := []
      inputs := none }
  (opened.readScores receivedAtMs (snapshots.scoresSnapshot (some virtualNowMs))).readOdds source
    receivedAtMs (snapshots.oddsSnapshot virtualNowMs)

def ReplayTick.hooks (tick : ReplayTick Prices) : List (ReplayOutput Prices) :=
  tick.inputs.toList.map .oddsInputs

def ReplayTick.result (tick : ReplayTick Prices) : ReplayStepResult :=
  let reachedEndPhase := reachesEndPhase tick.events
  let exhaustedClock := tick.virtualNowMs - tick.virtualStartMs ≥ source.maxVirtualMs
  { events := tick.events
    virtualNowMs := tick.virtualNowMs
    done := reachedEndPhase ∨ exhaustedClock
    terminalReached := reachedEndPhase }

def commitTick (tick : ReplayTick Prices) : ReplayState × List (ReplayOutput Prices) :=
  ({ tick.state with seenSeqs := tick.seenAfterTick, virtualNowMs := some tick.virtualNowMs },
    tick.hooks ++ [.returned (tick.result source)])

def stepOnce (state : ReplayState) (calls : StepCalls) : ReplayState × List (ReplayOutput Prices) :=
  match virtualStart source snapshots state calls.probeFails with
  | .error failure => (state, [.threw failure])
  | .ok virtualStartMs =>
      if calls.scoresFail ∨ calls.oddsFail then
        ({ state with virtualStartMs := some virtualStartMs }, [.threw .provider])
      else
        let tick := readTick source snapshots state virtualStartMs calls.receivedAtMs
        if reachesEndPhase tick.events then
          -- the tick is read by now, and a failure leaves it so
          if calls.drainFails then (tick.state, tick.hooks ++ [.threw .provider])
          else commitTick source (tick.readScores calls.receivedAtMs (snapshots.scoresSnapshot none))
        else commitTick source tick

end

end CalledIt.Txline
