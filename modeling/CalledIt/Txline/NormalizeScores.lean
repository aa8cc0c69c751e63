import CalledIt.Lib.Store
import CalledIt.Engine.Evaluate

/-!
# CalledIt.Txline.NormalizeScores

From the provider's score records to the events of the domain
(`txline/src/normalize-scores.ts`).

A record is taken after its schema: what the schema leaves out is `none`, and a
value the schema does not look into is a `RawValue`, of which only what
`coerceEnumName` reads is kept.  Counters of the feed (goals, cards, sequence and
event numbers) are naturals.
-/

namespace CalledIt.Txline

open Lib
open Engine (GamePhase MatchEvent MatchEventKind ScoreState TeamStats Participant GoalType
  CardColor EventDetail)

/-! ## records -/

/-- A JSON value as `coerceEnumName` looks at it; arrays are objects too. -/
inductive RawValue
  | number (value : ℚ)
  | text (value : String)
  | object (type : Option String) (keys : List String)
  | other

structure MatchClock where
  running : Option Bool
  seconds : Option ℚ

structure SoccerPeriodScore where
  goals : Nat
  yellowCards : Nat
  redCards : Nat
  corners : Nat

structure SoccerTotalScore where
  h1 : Option SoccerPeriodScore
  ht : Option SoccerPeriodScore
  h2 : Option SoccerPeriodScore
  et1 : Option SoccerPeriodScore
  et2 : Option SoccerPeriodScore
  pe : Option SoccerPeriodScore
  etTotal : Option SoccerPeriodScore
  total : Option SoccerPeriodScore

structure SoccerFixtureScore where
  participant1 : Option SoccerTotalScore
  participant2 : Option SoccerTotalScore

structure SoccerEventDetail where
  action : Option String
  goal : Option Bool
  goalType : RawValue
  minutes : Option Int
  participant : Option Nat
  penalty : Option Bool
  playerId : Option Nat
  statusId : Option ℚ
  type : Option String
  redCard : Option Bool
  yellowCard : Option Bool
  var : Option Bool

/-- An amendment wraps the corrected and the original payload. -/
structure SoccerData extends SoccerEventDetail where
  new : Option SoccerEventDetail
  previous : Option SoccerEventDetail

structure PossibleNeutralEvent where
  redCard : Option Bool
  yellowCard : Option Bool
  var : Option Bool

structure PossibleTeamEvent where
  goal : Option Bool
  penalty : Option Bool
  corner : Option Bool

structure ScoresRecord where
  fixtureId : Nat
  seq : Nat
  ts : Int
  action : String
  id : Option Nat
  gameState : Option String
  confirmed : Option Bool
  statusId : RawValue
  clock : Option MatchClock
  score : Option SoccerFixtureScore
  data : Option SoccerData
  /-- Number of statistics. -/
  stats : Option Nat
  /-- Number of team entries. -/
  lineups : Option Nat
  possibleEvent : Option PossibleNeutralEvent
  /-- `Parti1State?.PossibleEvent`. -/
  parti1State : Option PossibleTeamEvent
  /-- `Parti2State?.PossibleEvent`. -/
  parti2State : Option PossibleTeamEvent

/-! ## text patterns -/

/-- A letter, or `.?`: at most one UTF-16 unit that ends no line. -/
inductive PatternItem
  | char (c : Char)
  | anyOptional

def pattern (text : String) : List PatternItem := text.toList.map .char

def endsLine (c : Char) : Bool :=
  c = '\n' ∨ c = '\r' ∨ c = Char.ofNat 0x2028 ∨ c = Char.ofNat 0x2029

/-- The pattern at the start of a text, ignoring case. -/
def matchesAt : List PatternItem → List Char → Bool
  | [], _ => true
  | .char _ :: _, [] => false
  | .char c :: items, x :: text => x.toLower = c && matchesAt items text
  | .anyOptional :: items, [] => matchesAt items []
  | .anyOptional :: items, x :: text =>
      (!endsLine x && x.toNat < 0x10000 && matchesAt items text) || matchesAt items (x :: text)

/-- Some alternative occurs in the text. -/
def occurs (alternatives : List (List PatternItem)) (text : String) : Bool :=
  text.toList.tails.any fun rest => alternatives.any (matchesAt · rest)

/-- The word stands alone: no letter before or after it. -/
def mentionsWord (word text : String) : Bool :=
  let isLetter (c : Char) : Bool := 'a' ≤ c.toLower ∧ c.toLower ≤ 'z'
  (List.range (text.length + 1)).any fun i =>
    let before := text.toList.take i
    let rest := text.toList.drop i
    (before.getLast?.all (!isLetter ·)) && matchesAt (pattern word) rest &&
      ((rest.drop word.length).head?.all (!isLetter ·))

/-! ## status and phase -/

def soccerStatusToPhase : String → Option GamePhase
  | "NS" => some .ns
  | "H1" => some .h1
  | "HT" => some .ht
  | "H2" => some .h2
  | "F" => some .f
  | "WET" => some .htet
  | "ET1" => some .et1
  | "HTET" => some .htet
  | "ET2" => some .et2
  | "FET" => some .fet
  | "WPE" => some .pe
  | "PE" => some .pe
  | "FPE" => some .fpe
  | "I" => some .int
  | "A" => some .abd
  | "C" => some .can
  | "P" => some .post
  | "TXCC" => some .covLost
  | "TXCS" => some .covLost
  | _ => none

def soccerStatusOrdinals : List String :=
  ["NS", "H1", "HT", "H2", "F", "WET", "ET1", "HTET", "ET2", "FET", "WPE", "PE", "FPE", "I", "A",
    "C", "P", "TXCC", "TXCS"]

/-- The ordinals of the wire start at one. -/
def numericSoccerStatusToPhase (value : ℚ) : Option GamePhase :=
  if value.den = 1 ∧ 1 ≤ value.num then
    soccerStatusOrdinals[(value.num - 1).toNat]?.bind soccerStatusToPhase
  else none

def coerceEnumName : RawValue → Option String
  | .text value => if value.isEmpty then none else some value
  | .object (some type) _ => some type
  | .object none [key] => some key
  | _ => none

def mapSoccerStatusToGamePhase : RawValue → Option GamePhase
  | .number value => numericSoccerStatusToPhase value
  | raw => (coerceEnumName raw).bind soccerStatusToPhase

/-- `/not.?started/` and its like. -/
def pairPattern (first second : String) : List PatternItem :=
  pattern first ++ [.anyOptional] ++ pattern second

def phaseFromGameState (gameState : String) : Option GamePhase :=
  if occurs [pattern "pre", pairPattern "not" "started"] gameState then some .ns
  else if occurs [pattern "finish", pattern "final", pattern "ended", pattern "complete",
    pairPattern "full" "time"] gameState then some .f
  else if occurs [pairPattern "half" "time"] gameState then some .ht
  else if occurs [pattern "live", pattern "running", pattern "play", pattern "progress"] gameState
    then some .h1
  else none

def SoccerPeriodScore.nonZero (period : SoccerPeriodScore) : Bool :=
  period.goals + period.yellowCards + period.redCards + period.corners > 0

def anyNonZeroTally (total : Option SoccerTotalScore) : Bool :=
  total.any fun t =>
    [t.h1, t.ht, t.h2, t.et1, t.et2, t.pe, t.etTotal, t.total].any (·.any (·.nonZero))

def hasLivenessSignal (record : ScoresRecord) : Bool :=
  record.clock.any (·.running = some true) ||
    record.score.any fun score =>
      anyNonZeroTally score.participant1 || anyNonZeroTally score.participant2

/-! ## action classification -/

inductive ActionClass
  | new
  | amend
  | discard
  deriving DecidableEq, Repr

def classifyAction (action : String) : ActionClass :=
  if matchesAt (pattern "coverage") action.toList then .new
  else if occurs [pattern "discard", pattern "delet", pattern "cancel", pattern "remov",
    pattern "void"] action then .discard
  else if occurs [pattern "amend", pattern "correct", pattern "edit"] action then .amend
  else .new

/-! ## score state -/

def zeroTeamStats : TeamStats := ⟨0, 0, 0, 0⟩

def SoccerPeriodScore.add (a b : SoccerPeriodScore) : SoccerPeriodScore :=
  ⟨a.goals + b.goals, a.yellowCards + b.yellowCards, a.redCards + b.redCards,
    a.corners + b.corners⟩

def sumPeriods (periods : List (Option SoccerPeriodScore)) : Option SoccerPeriodScore :=
  match periods.filterMap id with
  | [] => none
  | present => some (present.foldl .add ⟨0, 0, 0, 0⟩)

structure ParticipantAggregate where
  stats : TeamStats
  /-- Goals of both halves when the breakdown exists. -/
  regulationGoals : Option Nat
  sawExtraTimePeriods : Bool

/-- Shootout goals are no part of a team's tally. -/
def aggregateParticipant : Option SoccerTotalScore → ParticipantAggregate
  | none => ⟨zeroTeamStats, none, false⟩
  | some total =>
      let aggregate := total.total <|> sumPeriods [total.h1, total.h2, total.et1, total.et2]
      { stats := match aggregate with
          | none => zeroTeamStats
          | some a => ⟨a.goals, a.yellowCards, a.redCards, a.corners⟩
        regulationGoals := match total.h1, total.h2 with
          | some h1, some h2 => some (h1.goals + h2.goals)
          | _, _ => none
        sawExtraTimePeriods :=
          total.et1.isSome || total.et2.isSome || total.etTotal.isSome || total.pe.isSome }

def pastRegulationPhases : List GamePhase := [.et1, .htet, .et2, .fet, .pe, .fpe]

def buildScoreState (record : ScoresRecord) (phase : GamePhase) : Option ScoreState :=
  record.score.map fun score =>
    let p1 := aggregateParticipant score.participant1
    let p2 := aggregateParticipant score.participant2
    let pastRegulation :=
      p1.sawExtraTimePeriods || p2.sawExtraTimePeriods || phase ∈ pastRegulationPhases
    { p1 := p1.stats
      p2 := p2.stats
      p1Goals90 := if pastRegulation then p1.regulationGoals else some p1.stats.goals
      p2Goals90 := if pastRegulation then p2.regulationGoals else some p2.stats.goals }

def emptyScoreState : ScoreState := ⟨zeroTeamStats, zeroTeamStats, none, none⟩

/-! ## detail helpers -/

/-- `toLowerCase`, then only the letters `a` to `z`; two letters outside ASCII
become such a letter. -/
def plainLetters (name : String) : String :=
  String.ofList ((name.toList.map fun c =>
    if c = Char.ofNat 0x212a then 'k' else if c = Char.ofNat 0x130 then 'i' else c.toLower).filter
      fun c => 'a' ≤ c ∧ c ≤ 'z')

def mapGoalType (detail : SoccerEventDetail) : Option GoalType :=
  let name := (coerceEnumName detail.goalType).map plainLetters
  if name = some "owngoal" then some .ownGoal
  else if detail.penalty = some true then some .penalty
  else if name = some "head" then some .head
  else if name = some "shot" then some .shot
  else if name.isSome then some .other
  else none

def asParticipant : Option Nat → Option Participant
  | some 1 => some .one
  | some 2 => some .two
  | _ => none

def anyPossibleEventFlag (record : ScoresRecord) : Bool :=
  record.possibleEvent.any (fun possible =>
    possible.redCard = some true ∨ possible.yellowCard = some true ∨ possible.var = some true) ||
  [record.parti1State, record.parti2State].any fun state =>
    state.any fun possible =>
      possible.goal = some true ∨ possible.penalty = some true ∨ possible.corner = some true

def isVarEnd (record : ScoresRecord) : Bool :=
  record.data.any fun data =>
    data.var = some false ∧
      (data.type.any (mentionsWord "var") ∨ data.action.any (mentionsWord "var"))

/-! ## kind classification -/

def goalFamilyKinds : List MatchEventKind := [.goal, .goalAmended, .goalDiscarded]

/-- The goal flag at the top of the envelope, or under one of its payloads. -/
def statesGoal (data : SoccerData) : Bool :=
  data.goal = some true ∨ data.new.any (·.goal = some true) ∨ data.previous.any (·.goal = some true)

def touchesGoal (record : ScoresRecord) (originalKind : Option MatchEventKind) : Bool :=
  originalKind.any (· ∈ goalFamilyKinds) || record.data.any statesGoal

def classifyKind (record : ScoresRecord) (actionClass : ActionClass) (phaseChanged : Bool)
    (mappedPhase : Option GamePhase) (originalKind : Option MatchEventKind) : MatchEventKind :=
  if (actionClass = .discard ∨ actionClass = .amend) ∧ touchesGoal record originalKind then
    if actionClass = .discard then .goalDiscarded else .goalAmended
  else if record.data.any (·.var = some true) then .varCheck
  else if isVarEnd record then .varEnd
  else if record.data.any (·.goal = some true) then .goal
  else if record.data.any (fun data => data.redCard = some true ∨ data.yellowCard = some true) then
    .card
  else if record.lineups.any (· > 0) then .lineup
  else if anyPossibleEventFlag record then .possibleEvent
  else if mappedPhase = some .covLost then .coverageWarning
  else if phaseChanged ∨ record.data.any (·.statusId.isSome) then .phaseChange
  else if record.stats.any (· > 0) then .statUpdate
  else .other

/-! ## normalization -/

/-- What is carried from record to record; events are keyed by their fixture and
their number in it. -/
structure FeedMaps where
  seqByEventId : Store (Nat × Nat) Nat
  kindByEventId : Store (Nat × Nat) MatchEventKind
  lastPhaseByFixture : Store Nat GamePhase
  lastScoreByFixture : Store Nat ScoreState

def minuteFromClockSeconds (seconds : ℚ) : Int := (seconds / 60).floor + 1

/-- `mappedPhase ?? previousPhase ?? phaseFromGameState(…) ?? 'NS'`, raised to the
first half when the record proves that play is on. -/
def phaseOf (record : ScoresRecord) (previousPhase : Option GamePhase) : GamePhase :=
  let phase := (mapSoccerStatusToGamePhase record.statusId <|> previousPhase <|>
    record.gameState.bind phaseFromGameState).getD .ns
  if phase = .ns ∧ hasLivenessSignal record then .h1 else phase

def minuteOf (record : ScoresRecord) (detailData : Option SoccerEventDetail) : Option Int :=
  match record.clock.bind (·.seconds) with
  | some seconds => some (minuteFromClockSeconds seconds)
  | none =>
      -- the minutes of an `additional_time` record are the stoppage's length
      if occurs [pairPattern "additional" "time"] record.action then none
      else detailData.bind (·.minutes)

def detailOf (detailData : Option SoccerEventDetail) (reversesSeq : Option Nat) :
    Option EventDetail :=
  let participant := asParticipant (detailData.bind (·.participant))
  let goalType := detailData.bind mapGoalType
  let card := detailData.bind fun detail =>
    if detail.redCard = some true then some CardColor.red
    else if detail.yellowCard = some true then some .yellow else none
  let playerNormativeId := detailData.bind (·.playerId)
  if participant.isSome ∨ playerNormativeId.isSome ∨ goalType.isSome ∨ card.isSome ∨
      reversesSeq.isSome then
    some { participant, playerNormativeId := some playerNormativeId, goalType, card, reversesSeq }
  else none

def normalizeRecord (receivedAtMs : Int) (maps : FeedMaps) (record : ScoresRecord) :
    FeedMaps × MatchEvent :=
  let mappedPhase := mapSoccerStatusToGamePhase record.statusId
  let previousPhase := maps.lastPhaseByFixture.lookup record.fixtureId
  let phase := phaseOf record previousPhase
  let phaseChanged := mappedPhase.isSome ∧ mappedPhase ≠ previousPhase
  let score := (buildScoreState record phase <|>
    maps.lastScoreByFixture.lookup record.fixtureId).getD emptyScoreState
  let eventKey := record.id.map fun id => (record.fixtureId, id)
  let kind := classifyKind record (classifyAction record.action) phaseChanged mappedPhase
    (eventKey.bind maps.kindByEventId.lookup)
  let reversesSeq :=
    if kind = .goalAmended ∨ kind = .goalDiscarded then eventKey.bind maps.seqByEventId.lookup
    else none
  let detailData : Option SoccerEventDetail :=
    record.data.map fun data => data.new.getD data.toSoccerEventDetail
  ({ seqByEventId := eventKey.elim maps.seqByEventId (maps.seqByEventId.insert · record.seq)
     kindByEventId := eventKey.elim maps.kindByEventId (maps.kindByEventId.insert · kind)
     lastPhaseByFixture := maps.lastPhaseByFixture.insert record.fixtureId phase
     lastScoreByFixture := maps.lastScoreByFixture.insert record.fixtureId score },
   { kind
     fixtureId := record.fixtureId
     seq := record.seq
     tsMs := record.ts
     receivedAtMs
     -- a goal is confirmed when it says so, anything else unless it says no
     confirmed := if kind = .goal then record.confirmed = some true
       else record.confirmed ≠ some false
     phase
     minute := minuteOf record detailData
     score
     detail := detailOf detailData reversesSeq })

def normalizeAll (receivedAtMs : Int) : FeedMaps → List ScoresRecord → List MatchEvent
  | _, [] => []
  | maps, record :: records =>
      let next := normalizeRecord receivedAtMs maps record
      next.2 :: normalizeAll receivedAtMs next.1 records

/-- The parsed records of a payload, in the order of their sequence numbers. -/
def normalizeScores (maps : FeedMaps) (receivedAtMs : Int) (records : List ScoresRecord) :
    List MatchEvent :=
  normalizeAll receivedAtMs maps (records.mergeSort fun a b => a.seq ≤ b.seq)

/-! ## kinds and phases -/

theorem mappedPhase_of_coverageWarning {record : ScoresRecord} {actionClass : ActionClass}
    {phaseChanged : Bool} {mappedPhase : Option GamePhase} {originalKind : Option MatchEventKind}
    (h : classifyKind record actionClass phaseChanged mappedPhase originalKind =
      .coverageWarning) : mappedPhase = some .covLost := by
  by_contra hphase
  unfold classifyKind at h
  simp only [hphase, if_false] at h
  repeat' split at h
  all_goals cases h

theorem phaseOf_of_mapped {record : ScoresRecord} {phase : GamePhase}
    (h : mapSoccerStatusToGamePhase record.statusId = some phase) (hns : phase ≠ .ns)
    (previousPhase : Option GamePhase) : phaseOf record previousPhase = phase := by
  unfold phaseOf
  simp [h, hns]

/-- Every event is the reading of one record. -/
theorem mem_normalizeAll {maps : FeedMaps} {receivedAtMs : Int} {records : List ScoresRecord}
    {event : MatchEvent} (h : event ∈ normalizeAll receivedAtMs maps records) :
    ∃ maps record, event = (normalizeRecord receivedAtMs maps record).2 := by
  induction records generalizing maps with
  | nil => cases h
  | cons record records ih =>
      rcases List.mem_cons.mp h with rfl | h
      · exact ⟨maps, record, rfl⟩
      · exact ih h

/-- What the events show is what the records show. -/
theorem map_normalizeAll {α : Type} {receivedAtMs : Int} {f : MatchEvent → α} {g : ScoresRecord → α}
    (h : ∀ maps record, f (normalizeRecord receivedAtMs maps record).2 = g record)
    (maps : FeedMaps) (records : List ScoresRecord) :
    (normalizeAll receivedAtMs maps records).map f = records.map g := by
  induction records generalizing maps with
  | nil => rfl
  | cons record records ih => rw [normalizeAll, List.map_cons, List.map_cons, h, ih]

/-- A coverage warning comes with the phase of a lost coverage. -/
theorem phase_of_coverageWarning {maps : FeedMaps} {receivedAtMs : Int}
    {records : List ScoresRecord} {event : MatchEvent}
    (hmem : event ∈ normalizeScores maps receivedAtMs records)
    (hkind : event.kind = .coverageWarning) : event.phase = .covLost := by
  obtain ⟨_, _, rfl⟩ := mem_normalizeAll hmem
  exact phaseOf_of_mapped (mappedPhase_of_coverageWarning hkind) (by decide) _

/-- A new record with the goal flag, and no VAR signal. -/
def isGoalRecord (record : ScoresRecord) : Bool :=
  classifyAction record.action = .new ∧ record.data.any (·.goal = some true) ∧
    ¬ record.data.any (·.var = some true) ∧ ¬ isVarEnd record

/-! ## what one record does -/

section Record

variable (receivedAtMs : Int) (maps : FeedMaps) (record : ScoresRecord)

/-- A table after a record that may have a number. -/
theorem lookup_elim_insert {β : Type} (table : Store (Nat × Nat) β) (key? : Option (Nat × Nat))
    (value : β) (key : Nat × Nat) :
    (key?.elim table (table.insert · value)).lookup key =
      if key? = some key then some value else table.lookup key := by
  cases key? with
  | none => simp
  | some other =>
      by_cases hkey : key = other
      · subst hkey
        simpa using AList.lookup_insert _
      · simp [AList.lookup_insert_ne hkey, Ne.symm hkey]

theorem seqByEventId_normalizeRecord (key : Nat × Nat) :
    (normalizeRecord receivedAtMs maps record).1.seqByEventId.lookup key =
      if record.id.map (record.fixtureId, ·) = some key then some record.seq
      else maps.seqByEventId.lookup key :=
  lookup_elim_insert ..

theorem kindByEventId_normalizeRecord (key : Nat × Nat) :
    (normalizeRecord receivedAtMs maps record).1.kindByEventId.lookup key =
      if record.id.map (record.fixtureId, ·) = some key then
        some (normalizeRecord receivedAtMs maps record).2.kind
      else maps.kindByEventId.lookup key :=
  lookup_elim_insert ..

/-- A detail that is left out would have said nothing; no player is one not known. -/
theorem detailOf_fields (detail : Option SoccerEventDetail) (reversesSeq : Option Nat) :
    (detailOf detail reversesSeq).bind (·.participant) =
        asParticipant (detail.bind (·.participant)) ∧
      (detailOf detail reversesSeq).bind (·.goalType) = detail.bind mapGoalType ∧
      ((detailOf detail reversesSeq).bind (·.playerNormativeId)).getD none =
        detail.bind (·.playerId) ∧
      (detailOf detail reversesSeq).bind (·.reversesSeq) = reversesSeq := by
  unfold detailOf
  dsimp only
  split
  · exact ⟨rfl, rfl, rfl, rfl⟩
  · next h => cases detail <;> simp_all

/-- A detail names a player, or that there is none. -/
theorem player_of_detailOf {detail : Option SoccerEventDetail} {reversesSeq : Option Nat}
    {d : EventDetail} (h : detailOf detail reversesSeq = some d) :
    d.playerNormativeId = some (detail.bind (·.playerId)) := by
  unfold detailOf at h
  dsimp only at h
  split_ifs at h
  rw [← Option.some.inj h]

/-- Reversals are linked by the last sequence number of the record's own number. -/
theorem reversesSeq_normalizeRecord :
    (normalizeRecord receivedAtMs maps record).2.reversesSeq =
      if (normalizeRecord receivedAtMs maps record).2.kind = .goalAmended ∨
          (normalizeRecord receivedAtMs maps record).2.kind = .goalDiscarded then
        (record.id.map (record.fixtureId, ·)).bind maps.seqByEventId.lookup
      else none :=
  (detailOf_fields _ _).2.2.2

/-- What follows the goal family is decided by the record alone. -/
theorem classifyKind_of_untouched {actionClass : Txline.ActionClass} {phaseChanged : Bool}
    {mappedPhase : Option GamePhase} {originalKind : Option MatchEventKind}
    (h : ¬ ((actionClass = .discard ∨ actionClass = .amend) ∧
      touchesGoal record originalKind = true)) :
    classifyKind record actionClass phaseChanged mappedPhase originalKind = .goal ↔
      record.data.any (·.goal = some true) = true ∧
        ¬ record.data.any (·.var = some true) = true ∧ ¬ isVarEnd record = true := by
  unfold classifyKind
  rw [if_neg h]
  by_cases hvar : record.data.any (·.var = some true) = true
  · simp only [hvar, if_true]
    simp
  · by_cases hend : isVarEnd record = true
    · simp only [hvar, hend, if_true]
      simp
    · by_cases hgoal : record.data.any (·.goal = some true) = true
      · simp only [hvar, hend, hgoal, if_true]
        simp
      · simp only [hvar, hend, hgoal]
        split_ifs <;> simp

/-- Only a goal record becomes a goal, whatever was read before. -/
theorem kind_goal_iff (phaseChanged : Bool) (mappedPhase : Option GamePhase)
    (originalKind : Option MatchEventKind) :
    classifyKind record (classifyAction record.action) phaseChanged mappedPhase originalKind =
      .goal ↔ isGoalRecord record = true := by
  have hrecord : isGoalRecord record = true ↔ classifyAction record.action = .new ∧
      record.data.any (·.goal = some true) = true ∧
        ¬ record.data.any (·.var = some true) = true ∧ ¬ isVarEnd record = true := by
    rw [isGoalRecord, decide_eq_true_eq]
  rw [hrecord]
  by_cases hnew : classifyAction record.action = .new
  · rw [classifyKind_of_untouched]
    · simp only [hnew, true_and]
    · simp [hnew]
  · by_cases htouches : touchesGoal record originalKind = true
    · have hclass : classifyAction record.action = .discard ∨
          classifyAction record.action = .amend := by
        cases hclass : classifyAction record.action <;> simp_all
      unfold classifyKind
      rw [if_pos ⟨hclass, htouches⟩]
      split_ifs <;> simp [hnew]
    · have hflag : ¬ record.data.any (·.goal = some true) = true := by
        intro hgoal
        refine htouches ?_
        cases hdata : record.data <;> simp_all [touchesGoal, statesGoal]
      rw [classifyKind_of_untouched _ fun h => htouches h.2]
      exact iff_of_false (fun h => hflag h.1) fun h => hnew h.1

theorem kind_normalizeRecord_goal_iff :
    (normalizeRecord receivedAtMs maps record).2.kind = .goal ↔ isGoalRecord record = true :=
  kind_goal_iff record _ _ _

end Record

theorem kind_ne_oddsSuspension (receivedAtMs : Int) (maps : FeedMaps) (record : ScoresRecord) :
    (normalizeRecord receivedAtMs maps record).2.kind ≠ .oddsSuspension := by
  intro h
  change classifyKind _ _ _ _ _ = _ at h
  unfold classifyKind at h
  repeat' split at h
  all_goals cases h

theorem kind_of_mem_normalizeAll {receivedAtMs : Int} {maps : FeedMaps}
    {records : List ScoresRecord} {event : MatchEvent}
    (h : event ∈ normalizeAll receivedAtMs maps records) : event.kind ≠ .oddsSuspension := by
  obtain ⟨maps, record, rfl⟩ := mem_normalizeAll h
  exact kind_ne_oddsSuspension receivedAtMs maps record

theorem seq_normalizeAll (receivedAtMs : Int) (maps : FeedMaps) (records : List ScoresRecord) :
    (normalizeAll receivedAtMs maps records).map (·.seq) = records.map (·.seq) :=
  map_normalizeAll (fun _ _ => rfl) maps records

end CalledIt.Txline
