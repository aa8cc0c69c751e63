import Mathlib.Data.List.Dedup
import Mathlib.Data.List.Sort
import CalledIt.Engine.Evaluate

/-!
# CalledIt.Engine.Reduce

The settlement state machine (`market-engine/src/reduce.ts`): one feed event
takes a market to its next state and emits effects.

`reduceMarket` follows the numbered stages of the source, each a definition of
its own.  The stages after the ledger and the position guards work on a pair of
the state reached so far and the effects pushed so far (`Stage`).
-/

namespace CalledIt.Engine

/-! ## state and effects -/

inductive MarketStatus
  | pendingLineup
  | open
  | frozen
  | settling
  | settled
  | voided
  deriving DecidableEq, Repr

inductive PositionState
  | pending
  | active
  | void
  deriving DecidableEq, Repr

/-- A position, with the fields the reducer reads. -/
structure Position where
  id : String
  placedAtMs : Int
  state : PositionState
  deriving DecidableEq, Repr

inductive FreezeReason
  | var
  | possibleEvent
  | oddsSuspension
  | cutoff
  deriving DecidableEq, Repr

/-- A confirmed goal currently standing: discards remove it, amendments
re-attribute it. -/
structure StandingGoal where
  seq : Nat
  participant : Option Participant
  playerNormativeId : Option Nat
  ownGoal : Bool
  phase : GamePhase
  deriving DecidableEq, Repr

structure ReducerScratch where
  lastSeq : Nat
  goals : List StandingGoal
  freezeReason : Option FreezeReason
  cutoffReached : Bool
  deriving DecidableEq, Repr

structure PendingSettlement where
  outcome : SettlementOutcome
  decidingSeq : Nat
  evidenceSeqs : List Nat
  debounceUntilMs : Int
  deriving DecidableEq, Repr

/-- `ReducibleMarketState`. -/
structure MarketState where
  spec : MarketSpec
  status : MarketStatus
  positions : List Position
  pendingSettlement : Option PendingSettlement
  isReplay : Bool
  scratch : Option ReducerScratch
  deriving DecidableEq

inductive MarketEffect
  | freeze (reason : FreezeReason)
  | unfreeze
  | settle (outcome : SettlementOutcome) (decidingSeq : Nat) (evidenceSeqs : List Nat)
  | void (reason : String)
  | voidPositions (positionIds : List String)
  | activatePositions (positionIds : List String)
  | activateMarket
  | repriceHint
  deriving DecidableEq, Repr

structure ReduceResult where
  state : MarketState
  effects : List MarketEffect
  deriving DecidableEq

/-! ## constants -/

def settlementDebounceMs : Int := 90000
def assumedFeedDelayMs : Int := 60000
def pendingTapWindowMs : Int := assumedFeedDelayMs + settlementDebounceMs
def inplayStakeCutoffMinute : Int := 85

def coverageVoidReason : String :=
  "coverage went unreliable, no fair market without the feed, all Rep goes back"
def lineupDnpVoidReason : String := "left out of the lineup, all Rep goes back"
def undecidableVoidReason : String := "final data cannot decide this one, all Rep goes back"

/-- `VOID_REASON_BY_PHASE[phase] ?? COVERAGE_VOID_REASON`. -/
def phaseVoidReason : GamePhase → String
  | .abd => "match abandoned, all Rep goes back"
  | .can => "match cancelled, all Rep goes back"
  | .post => "match postponed, all Rep goes back"
  | .covLost => "coverage lost, no fair market without the feed, all Rep goes back"
  | _ => coverageVoidReason

def inplayPhases : List GamePhase :=
  [.h1, .ht, .h2, .f, .et1, .htet, .et2, .pe, .fet, .fpe, .int]

/-- Phases in which staking is permanently closed. -/
def lateCutoffPhases : List GamePhase := [.et1, .htet, .et2, .pe, .f, .fet, .fpe]

/-! ## scratch helpers -/

def initialScratch (spec : MarketSpec) : ReducerScratch where
  lastSeq := match spec.anchor with
    | some anchor => anchor.seq
    | none => 0
  goals := []
  freezeReason := none
  cutoffReached := false

def scratchOf (state : MarketState) : ReducerScratch :=
  state.scratch.getD (initialScratch state.spec)

/-- A goal counted for the player of the spec, under its period. -/
def countsForPlayer (spec : MarketSpec) (playerId : Nat) (g : StandingGoal) : Bool :=
  if g.playerNormativeId ≠ some playerId ∨ g.ownGoal then false
  else if g.phase = .pe then false
  else if spec.period = .ft90 then g.phase = .h1 ∨ g.phase = .ht ∨ g.phase = .h2
  else true

def playerGoalCount (scratch : ReducerScratch) (spec : MarketSpec) : Nat :=
  match spec.entityRef with
  | .team _ _ => 0
  | .player playerId _ _ => (scratch.goals.filter (countsForPlayer spec playerId)).length

/-- The player a spec names, `null` for a team. -/
def EntityRef.playerId : EntityRef → Option Nat
  | team _ _ => none
  | player normativeId _ _ => some normativeId

/-- Standing goals that are evidence for the spec. -/
def relevantGoal (spec : MarketSpec) (g : StandingGoal) : Bool :=
  match spec.claimType with
  | .teamScoresN => g.participant = spec.entityRef.participant
  | .playerScoresN => g.playerNormativeId = spec.entityRef.playerId ∧ !g.ownGoal
  | _ => true

/-- `[...new Set(seqs)].sort((a, b) => a - b)`. -/
def sortedSeqs (seqs : List Nat) : List Nat := seqs.dedup.insertionSort (· ≤ ·)

def buildEvidence (scratch : ReducerScratch) (spec : MarketSpec) (decidingSeq : Nat) : List Nat :=
  sortedSeqs ((scratch.goals.filter (relevantGoal spec)).map (·.seq) ++ [decidingSeq])

/-! ## small predicates -/

def isReversal (event : MatchEvent) : Bool :=
  event.kind = .goalDiscarded ∨ event.kind = .goalAmended

def isHoldSignal (event : MatchEvent) : Bool :=
  event.kind = .varCheck ∨ event.kind = .possibleEvent ∨
    (event.kind = .goal ∧ !event.confirmed) ∨
    (event.kind = .oddsSuspension ∧ event.confirmed)

def holdReasonFor (event : MatchEvent) : FreezeReason :=
  match event.kind with
  | .varCheck => .var
  | .oddsSuspension => .oddsSuspension
  | _ => .possibleEvent

/-- Goals and red cards. -/
def isPriceMoving (event : MatchEvent) : Bool :=
  if !event.confirmed then false
  else if event.kind = .goal then true
  else event.kind = .card ∧ event.card = some .red

def minuteReached (event : MatchEvent) : Bool :=
  match event.minute with
  | some minute => minute ≥ inplayStakeCutoffMinute
  | none => false

def cutoffTriggered (spec : MarketSpec) (event : MatchEvent) : Bool :=
  if minuteReached event then true
  else if event.phase ∈ lateCutoffPhases then true
  else spec.claimType = .playerScoresN ∧ event.phase ∈ inplayPhases

/-! ## positions -/

/-- Pending positions that satisfy `p` move to `target`; the effect names them. -/
def movePending (positions : List Position) (p : Position → Bool) (target : PositionState)
    (effect : List String → MarketEffect) : List Position × List MarketEffect :=
  let moved := positions.filter fun q => q.state = .pending ∧ p q
  let next := positions.map fun q =>
    if q.state = .pending ∧ p q then { q with state := target } else q
  (next, if moved.isEmpty then [] else [effect (moved.map (·.id))])

/-- Taps placed after a price-moving moment are voided, then matured ones
activate. -/
def applyPositionGuards (positions : List Position) (event : MatchEvent) (isReplay : Bool) :
    List Position × List MarketEffect :=
  let snipeReferenceMs := if isReplay then event.receivedAtMs else event.tsMs
  let sniped := movePending positions
    (fun q => isPriceMoving event ∧ q.placedAtMs > snipeReferenceMs) .void .voidPositions
  let matured := movePending sniped.1
    (fun q => event.receivedAtMs ≥ q.placedAtMs + pendingTapWindowMs) .active .activatePositions
  (matured.1, sniped.2 ++ matured.2)

def activateRemainingPending (positions : List Position) : List Position × List MarketEffect :=
  movePending positions (fun _ => true) .active .activatePositions

/-! ## settlement helpers -/

def settleNow (state : MarketState) (effects : List MarketEffect) : ReduceResult :=
  match state.pendingSettlement with
  | none => { state, effects }
  | some pending =>
      let activated := activateRemainingPending state.positions
      { state :=
          { state with positions := activated.1, status := .settled, pendingSettlement := none }
        effects := effects ++ activated.2 ++
          [.settle pending.outcome pending.decidingSeq pending.evidenceSeqs] }

def voidMarket (state : MarketState) (reason : String) (effects : List MarketEffect) :
    ReduceResult :=
  { state := { state with status := .voided, pendingSettlement := none }
    effects := effects ++ [.void reason] }

/-! ## the goal ledger -/

/-- Only the first goal with the sequence is re-attributed. -/
def amendGoal (goals : List StandingGoal) (seq : Nat) (event : MatchEvent) : List StandingGoal :=
  match goals with
  | [] => []
  | g :: rest =>
      if g.seq = seq then
        { g with
          participant := match event.participant with
            | some participant => some participant
            | none => g.participant
          playerNormativeId := match event.playerNormativeId with
            | some playerNormativeId => playerNormativeId
            | none => g.playerNormativeId
          ownGoal := event.goalType = some .ownGoal } :: rest
      else g :: amendGoal rest seq event

/-- The ledger entry of a confirmed goal. -/
def StandingGoal.ofEvent (event : MatchEvent) : StandingGoal where
  seq := event.seq
  participant := event.participant
  playerNormativeId := event.playerNormativeId.getD none
  ownGoal := event.goalType = some .ownGoal
  phase := event.phase

def trackGoals (goals : List StandingGoal) (event : MatchEvent) : List StandingGoal :=
  if event.kind = .goal ∧ event.confirmed then
    goals ++ [.ofEvent event]
  else
    match event.reversesSeq with
    | none => goals
    | some reversesSeq =>
        if event.kind = .goalDiscarded then goals.filter (·.seq ≠ reversesSeq)
        else if event.kind = .goalAmended then amendGoal goals reversesSeq event
        else goals

/-! ## pending lineup -/

/-- The lineup names the player of the spec. -/
def namesPlayer (spec : MarketSpec) (event : MatchEvent) : Bool :=
  match spec.entityRef with
  | .team _ _ => false
  | .player normativeId _ _ =>
      event.kind = .lineup ∧ event.playerNormativeId = some (some normativeId)

/-- The side is bound when the lineup names it. -/
def bindEntity (entityRef : EntityRef) (participant : Option Participant) : EntityRef :=
  match entityRef, participant with
  | .player normativeId name _, some participant => .player normativeId name (some participant)
  | entityRef, _ => entityRef

def reducePendingLineup (state : MarketState) (event : MatchEvent) (scratch : ReducerScratch) :
    ReduceResult :=
  let next := { state with scratch := some scratch }
  if event.phase ∈ voidPhases ∨ event.kind = .coverageWarning then
    voidMarket next (phaseVoidReason event.phase) []
  else if namesPlayer state.spec event then
    let activated := activateRemainingPending next.positions
    { state :=
        { next with
          spec := { state.spec with
            entityRef := bindEntity state.spec.entityRef event.participant }
          status := .open
          positions := activated.1 }
      effects := [.activateMarket] ++ activated.2 }
  else if event.phase ∈ inplayPhases then
    voidMarket next lineupDnpVoidReason []
  else
    { state := next, effects := [] }

/-! ## the reducer -/

/-- The state reached so far, with its scratch beside it. -/
structure Stage where
  state : MarketState
  scratch : ReducerScratch
  effects : List MarketEffect

/-- What a stage returns when it is the last one. -/
def Stage.result (stage : Stage) : ReduceResult :=
  { state := { stage.state with scratch := some stage.scratch }, effects := stage.effects }

/-- Stage 4: staking cutoffs are permanent. -/
def applyCutoff (stage : Stage) (event : MatchEvent) : Stage :=
  if cutoffTriggered stage.state.spec event ∧ !stage.scratch.cutoffReached then
    if stage.state.status = .open then
      { state := { stage.state with status := .frozen }
        scratch := { stage.scratch with cutoffReached := true, freezeReason := some .cutoff }
        effects := stage.effects ++ [.freeze .cutoff] }
    else
      { stage with scratch := { stage.scratch with cutoffReached := true } }
  else
    stage

/-- Stage 5, fresh doubt inside the window: the candidate is cancelled. -/
def cancelCandidate (stage : Stage) (event : MatchEvent) : Stage :=
  let reason := holdReasonFor event
  { state := { stage.state with pendingSettlement := none, status := .frozen }
    scratch := { stage.scratch with freezeReason := some reason }
    effects := stage.effects ++ [.freeze reason] }

/-- Stage 5, evidence changed under the candidate: it is dropped and the event
evaluated afresh. -/
def dropCandidate (stage : Stage) : Stage :=
  { stage with
    state := { stage.state with
      pendingSettlement := none
      status := if stage.scratch.cutoffReached then .frozen else .open }
    scratch := { stage.scratch with
      freezeReason := if stage.scratch.cutoffReached then some .cutoff else none } }

/-- Stage 6, a hold signal locks calls. -/
def applyHold (stage : Stage) (event : MatchEvent) : Stage :=
  let reason := holdReasonFor event
  let scratch := { stage.scratch with freezeReason := some reason }
  if stage.state.status = .open then
    { state := { stage.state with status := .frozen }
      scratch
      effects := stage.effects ++ [.freeze reason] }
  else
    { stage with scratch }

/-- A VAR or possible-event doubt is live. -/
def ReducerScratch.underDoubt (scratch : ReducerScratch) : Bool :=
  scratch.freezeReason = some .var ∨ scratch.freezeReason = some .possibleEvent

/-- The event answers whatever froze the market. -/
def resolves (scratch : ReducerScratch) (event : MatchEvent) : Bool :=
  (event.kind = .varEnd ∧ scratch.underDoubt) ∨
    (scratch.freezeReason = some .possibleEvent ∧ event.confirmed) ∨
    (scratch.underDoubt ∧ isReversal event) ∨
    (event.kind = .oddsSuspension ∧ !event.confirmed ∧
      scratch.freezeReason = some .oddsSuspension)

/-- Stage 6, the freeze is lifted unless a cutoff holds. -/
def applyResolution (stage : Stage) (event : MatchEvent) : Stage :=
  if resolves stage.scratch event then
    if stage.scratch.cutoffReached then
      { stage with scratch := { stage.scratch with freezeReason := some .cutoff } }
    else if stage.state.status = .frozen then
      { state := { stage.state with status := .open }
        scratch := { stage.scratch with freezeReason := none }
        effects := stage.effects ++ [.unfreeze] }
    else
      { stage with scratch := { stage.scratch with freezeReason := none } }
  else
    stage

/-- The outcome at an event, with the ledger's tally for a player claim. -/
def outcomeAt (scratch : ReducerScratch) (spec : MarketSpec) (event : MatchEvent) :
    Option SettlementOutcome :=
  evaluateSpec spec event.score event.phase
    (if spec.claimType = .playerScoresN then some (playerGoalCount scratch spec) else none)

/-- Stage 7, a decided outcome enters its debounce window. -/
def armCandidate (stage : Stage) (event : MatchEvent) (outcome : SettlementOutcome) : Stage :=
  { stage with
    state := { stage.state with
      status := .settling
      pendingSettlement := some
        { outcome
          decidingSeq := event.seq
          evidenceSeqs := buildEvidence stage.scratch stage.state.spec event.seq
          debounceUntilMs := event.receivedAtMs + settlementDebounceMs } } }

/-- Stage 8. -/
def applyReprice (stage : Stage) (event : MatchEvent) : Stage :=
  if stage.state.status = .open ∧ isPriceMoving event then
    { stage with effects := stage.effects ++ [.repriceHint] }
  else
    stage

/-- `voidMarket` on a stage. -/
def Stage.void (stage : Stage) (reason : String) : ReduceResult :=
  voidMarket { stage.state with scratch := some stage.scratch } reason stage.effects

/-- Stages 7 and 8. -/
def evaluateStage (stage : Stage) (event : MatchEvent) : ReduceResult :=
  if event.confirmed ∧ !stage.scratch.underDoubt then
    match outcomeAt stage.scratch stage.state.spec event with
    | some .void => stage.void undecidableVoidReason
    | some outcome => (armCandidate stage event outcome).result
    | none =>
        if event.phase ∈ terminalPhases then stage.void undecidableVoidReason
        else (applyReprice stage event).result
  else
    (applyReprice stage event).result

/-- Stages 6 to 8. -/
def signalStage (stage : Stage) (event : MatchEvent) : ReduceResult :=
  if isHoldSignal event then (applyHold stage event).result
  else evaluateStage (applyResolution stage event) event

/-- Stages 5 to 8. -/
def settlementStage (stage : Stage) (event : MatchEvent) : ReduceResult :=
  match stage.state.pendingSettlement with
  | none => signalStage stage event
  | some _ =>
      if isHoldSignal event then (cancelCandidate stage event).result
      else if isReversal event then signalStage (dropCandidate stage) event
      else settleNow { stage.state with scratch := some stage.scratch } stage.effects

/-- Stages 2 and 3. -/
def ledgerStage (state : MarketState) (event : MatchEvent) (scratch : ReducerScratch) : Stage :=
  let guarded := applyPositionGuards state.positions event state.isReplay
  { state := { state with positions := guarded.1 }
    scratch := { scratch with goals := trackGoals scratch.goals event }
    effects := guarded.2 }

/-- An event that is not for this market, or not any more. -/
def ignored (state : MarketState) (event : MatchEvent) : Bool :=
  state.status = .settled ∨ state.status = .voided ∨
    event.fixtureId ≠ state.spec.fixtureId ∨
    (event.kind ≠ .oddsSuspension ∧ event.seq ≤ (scratchOf state).lastSeq)

/-- The scratch with its cursor on the event; odds events have their own
sequence and leave it. -/
def advance (scratch : ReducerScratch) (event : MatchEvent) : ReducerScratch :=
  if event.kind = .oddsSuspension then scratch else { scratch with lastSeq := event.seq }

def reduceMarket (state : MarketState) (event : MatchEvent) : ReduceResult :=
  if ignored state event then
    { state, effects := [] }
  else
    let scratch := advance (scratchOf state) event
    if state.status = .pendingLineup then
      reducePendingLineup state event scratch
    else if event.phase ∈ voidPhases ∨ event.kind = .coverageWarning then
      voidMarket { state with scratch := some scratch } (phaseVoidReason event.phase) []
    else
      settlementStage (applyCutoff (ledgerStage state event scratch) event) event

/-- The reducer over a stretch of the feed. -/
def reduceAll (state : MarketState) (events : List MatchEvent) : MarketState :=
  events.foldl (fun state event => (reduceMarket state event).state) state

/-- The row that `createMarketFromClaim` inserts, as the reducer reads it. -/
def createMarketFromClaim (spec : MarketSpec) (fixturePhase : GamePhase) (isReplay : Bool) :
    MarketState where
  spec
  status :=
    if spec.claimType = .playerScoresN ∧
        (spec.entityRef.playerId = none ∨ spec.entityRef.participant = none) ∧
        fixturePhase = .ns then .pendingLineup
    else .open
  positions := []
  pendingSettlement := none
  isReplay
  scratch := none

/-- A market as the engine first sees it: no scratch and no candidate. -/
structure Fresh (state : MarketState) : Prop where
  scratch : state.scratch = none
  pending : state.pendingSettlement = none
  status : state.status = .open ∨
    (state.status = .pendingLineup ∧ state.spec.claimType = .playerScoresN)

theorem fresh_createMarketFromClaim (spec : MarketSpec) (fixturePhase : GamePhase)
    (isReplay : Bool) : Fresh (createMarketFromClaim spec fixturePhase isReplay) := by
  refine ⟨rfl, rfl, ?_⟩
  unfold createMarketFromClaim
  dsimp only
  split
  · next h => exact .inr ⟨rfl, h.1⟩
  · exact .inl rfl

/-- States that events and taps can lead to. -/
inductive Reachable (row : MarketState) : MarketState → Prop
  | row : Reachable row row
  | step {state : MarketState} (positions : List Position) (event : MatchEvent)
      (h : Reachable row state) :
      Reachable row (reduceMarket { state with positions } event).state

/-! ## what a step keeps -/

/-- The same claim, up to the side a lineup has bound. -/
def SameClaim (a b : MarketSpec) : Prop :=
  ∃ participant, b = { a with entityRef := bindEntity a.entityRef participant }

theorem SameClaim.refl (spec : MarketSpec) : SameClaim spec spec := by
  refine ⟨none, ?_⟩
  have hsame : bindEntity spec.entityRef none = spec.entityRef := by
    cases spec.entityRef <;> rfl
  rw [hsame]

theorem SameClaim.trans {a b c : MarketSpec} (hab : SameClaim a b) (hbc : SameClaim b c) :
    SameClaim a c := by
  obtain ⟨p, rfl⟩ := hab
  obtain ⟨q, rfl⟩ := hbc
  refine ⟨q.or p, ?_⟩
  have hbind : bindEntity (bindEntity a.entityRef p) q = bindEntity a.entityRef (q.or p) := by
    cases a.entityRef <;> cases p <;> cases q <;> rfl
  simp only [hbind]

/-- A team's claim is bound from the start. -/
theorem SameClaim.eq_of_team {a b : MarketSpec} (h : SameClaim a b) {participant : Participant}
    {name : String} (hteam : a.entityRef = .team participant name) : b = a := by
  obtain ⟨p, rfl⟩ := h
  have hsame : bindEntity a.entityRef p = a.entityRef := by
    rw [hteam]
    rfl
  rw [hsame]

/-- A rule for the stages from 6 on: what they make of a stage with `I` has `Q`. -/
structure StageRule (event : MatchEvent) (I : Stage → Prop) (Q : ReduceResult → Prop) : Prop where
  hold : ∀ {stage}, I stage → isHoldSignal event = true → Q (applyHold stage event).result
  resolution : ∀ {stage}, I stage → I (applyResolution stage event)
  void : ∀ {stage}, I stage → outcomeAt stage.scratch stage.state.spec event = some .void ∨
    outcomeAt stage.scratch stage.state.spec event = none ∧ event.phase ∈ terminalPhases →
    Q (stage.void undecidableVoidReason)
  arm : ∀ {stage outcome}, I stage → event.confirmed = true → stage.scratch.underDoubt = false →
    outcomeAt stage.scratch stage.state.spec event = some outcome → outcome ≠ .void →
    Q (armCandidate stage event outcome).result
  reprice : ∀ {stage}, I stage → Q (applyReprice stage event).result

section Rules

variable {stage : Stage} {event : MatchEvent} {I : Stage → Prop} {Q : ReduceResult → Prop}
  (rule : StageRule event I Q)

include rule

theorem StageRule.evaluate (h : I stage) : Q (evaluateStage stage event) := by
  unfold evaluateStage
  split
  · next hconfirmed =>
    have hdoubt : stage.scratch.underDoubt = false := by simpa using hconfirmed.2
    split
    · next hvoid => exact rule.void h (.inl hvoid)
    · next hvoid houtcome => exact rule.arm h hconfirmed.1 hdoubt houtcome hvoid
    · next hnone =>
      split
      · next hterminal => exact rule.void h (.inr ⟨hnone, hterminal⟩)
      · exact rule.reprice h
  · exact rule.reprice h

theorem StageRule.signal (h : I stage) : Q (signalStage stage event) := by
  unfold signalStage
  split
  · next hhold => exact rule.hold h hhold
  · exact rule.evaluate (rule.resolution h)

/-- The rule for stage 5, where a candidate waits or none does. -/
theorem StageRule.settlement (hsignal : stage.state.pendingSettlement = none → I stage)
    (hcancel : isHoldSignal event = true → Q (cancelCandidate stage event).result)
    (hdrop : I (dropCandidate stage))
    (hsettle : ∀ pending, stage.state.pendingSettlement = some pending →
      Q (settleNow { stage.state with scratch := some stage.scratch } stage.effects)) :
    Q (settlementStage stage event) := by
  unfold settlementStage
  split
  · next hnone => exact rule.signal (hsignal hnone)
  · next pending hpending =>
    split
    · next hhold => exact hcancel hhold
    · split
      · exact rule.signal hdrop
      · exact hsettle pending hpending

end Rules

section Frame

/-- What the stages from 5 on leave as it is. -/
def Stage.frame (stage : Stage) : MarketSpec × Bool × Bool × Nat × List StandingGoal :=
  (stage.state.spec, stage.state.isReplay, stage.scratch.cutoffReached, stage.scratch.lastSeq,
    stage.scratch.goals)

def MarketState.frame (state : MarketState) : MarketSpec × Bool × Bool × Nat × List StandingGoal :=
  Stage.frame { state, scratch := scratchOf state, effects := [] }

theorem frame_applyResolution (stage : Stage) (event : MatchEvent) :
    (applyResolution stage event).frame = stage.frame := by
  unfold applyResolution
  split_ifs <;> rfl

theorem frame_settlementStage (stage : Stage) (event : MatchEvent) :
    (settlementStage stage event).state.frame = stage.frame := by
  have hrule : StageRule event (·.frame = stage.frame) (·.state.frame = stage.frame) :=
    { hold := fun h _ => by unfold applyHold; dsimp only; split <;> exact h
      resolution := fun h => by rwa [frame_applyResolution]
      void := fun h _ => h
      arm := fun h _ _ _ _ => h
      reprice := fun h => by unfold applyReprice; split <;> exact h }
  refine hrule.settlement (fun _ => rfl) (fun _ => rfl) rfl fun pending hpending => ?_
  simp only [settleNow, hpending]
  rfl

@[simp] theorem spec_applyCutoff (stage : Stage) (event : MatchEvent) :
    (applyCutoff stage event).state.spec = stage.state.spec := by
  unfold applyCutoff
  split_ifs <;> rfl

@[simp] theorem spec_applyResolution (stage : Stage) (event : MatchEvent) :
    (applyResolution stage event).state.spec = stage.state.spec :=
  congrArg Prod.fst (frame_applyResolution stage event)

@[simp] theorem spec_settlementStage (stage : Stage) (event : MatchEvent) :
    (settlementStage stage event).state.spec = stage.state.spec :=
  congrArg Prod.fst (frame_settlementStage stage event)

end Frame

/-- A step binds a side at most. -/
theorem sameClaim_reduceMarket (state : MarketState) (event : MatchEvent) :
    SameClaim state.spec (reduceMarket state event).state.spec := by
  unfold reduceMarket
  split
  · exact .refl _
  · dsimp only
    split
    · unfold reducePendingLineup
      dsimp only
      split_ifs
      · exact .refl _
      · exact ⟨event.participant, rfl⟩
      · exact .refl _
      · exact .refl _
    · split
      · exact .refl _
      · rw [spec_settlementStage, spec_applyCutoff]
        exact .refl _

theorem Reachable.sameClaim {row state : MarketState} (h : Reachable row state) :
    SameClaim row.spec state.spec := by
  induction h with
  | row => exact .refl _
  | step positions event h ih => exact ih.trans (sameClaim_reduceMarket _ event)

theorem sameClaim_reduceAll (state : MarketState) (events : List MatchEvent) :
    SameClaim state.spec (reduceAll state events).spec := by
  induction events generalizing state with
  | nil => exact .refl _
  | cons event events ih => exact (sameClaim_reduceMarket state event).trans (ih _)

end CalledIt.Engine
