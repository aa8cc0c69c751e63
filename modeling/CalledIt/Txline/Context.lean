import CalledIt.Txline.NormalizeScores

/-!
# CalledIt.Txline.Context

What an event takes from the records before it.

A record that leaves out its status, its score or what it reverses is completed from
the four maps.  `SameContext` compares two sets of maps on just what one record leaves
out, and `withoutReceipt_eq_iff` says that this is all an event takes from them.
-/

namespace CalledIt.Txline

open Lib
open Engine (GamePhase MatchEvent MatchEventKind ScoreState)

/-! ## what a record leaves out -/

/-- An event apart from the time of its receipt. -/
def withoutReceipt (event : MatchEvent) : MatchEvent := { event with receivedAtMs := 0 }

def eventKey (record : ScoresRecord) : Option (Nat × Nat) :=
  record.id.map (record.fixtureId, ·)

/-- An amendment or a discard. -/
def corrects (record : ScoresRecord) : Bool := classifyAction record.action ≠ .new

def statesItsGoal (record : ScoresRecord) : Bool := record.data.any statesGoal

/-- The number is one of a goal, as far as the maps know. -/
def knowsGoal (maps : FeedMaps) (record : ScoresRecord) : Bool :=
  ((eventKey record).bind maps.kindByEventId.lookup).any (· ∈ goalFamilyKinds)

def phaseBefore (maps : FeedMaps) (record : ScoresRecord) : Option GamePhase :=
  maps.lastPhaseByFixture.lookup record.fixtureId

def scoreBefore (maps : FeedMaps) (record : ScoresRecord) : ScoreState :=
  (maps.lastScoreByFixture.lookup record.fixtureId).getD emptyScoreState

/-- The status of the record is another than the one before. -/
def statusChanges (maps : FeedMaps) (record : ScoresRecord) : Bool :=
  (mapSoccerStatusToGamePhase record.statusId).isSome ∧
    mapSoccerStatusToGamePhase record.statusId ≠ phaseBefore maps record

/-- The last sequence number with the number of the record. -/
def seqBefore (maps : FeedMaps) (record : ScoresRecord) : Option Nat :=
  (eventKey record).bind maps.seqByEventId.lookup

/-- Nothing but a change of its status can say what the record is. -/
def bare (record : ScoresRecord) : Bool :=
  ¬ record.data.any (·.var = some true) ∧ ¬ isVarEnd record ∧
    ¬ record.data.any (·.goal = some true) ∧
    ¬ record.data.any (fun data => data.redCard = some true ∨ data.yellowCard = some true) ∧
    ¬ record.lineups.any (· > 0) ∧ ¬ anyPossibleEventFlag record ∧
    mapSoccerStatusToGamePhase record.statusId ≠ some .covLost ∧
    ¬ record.data.any (·.statusId.isSome)

/-- The maps say the same of what the record leaves out. -/
structure SameContext (a b : FeedMaps) (record : ScoresRecord) : Prop where
  phase : mapSoccerStatusToGamePhase record.statusId = none →
    phaseOf record (phaseBefore a record) = phaseOf record (phaseBefore b record)
  score : record.score = none → scoreBefore a record = scoreBefore b record
  goal : corrects record = true → statesItsGoal record = false →
    knowsGoal a record = knowsGoal b record
  change : (corrects record = true → knowsGoal a record = false ∧ statesItsGoal record = false) →
    bare record = true → statusChanges a record = statusChanges b record
  link : corrects record = true → (knowsGoal a record = true ∨ statesItsGoal record = true) →
    seqBefore a record = seqBefore b record

theorem SameContext.refl (maps : FeedMaps) (record : ScoresRecord) : SameContext maps maps record :=
  ⟨fun _ => rfl, fun _ => rfl, fun _ _ => rfl, fun _ _ => rfl, fun _ _ => rfl⟩

/-! ## kinds -/

/-- The kind of a record that reverses no goal. -/
def ordinaryKind (record : ScoresRecord) (phaseChanged : Bool) : MatchEventKind :=
  if record.data.any (·.var = some true) then .varCheck
  else if isVarEnd record then .varEnd
  else if record.data.any (·.goal = some true) then .goal
  else if record.data.any (fun data => data.redCard = some true ∨ data.yellowCard = some true) then
    .card
  else if record.lineups.any (· > 0) then .lineup
  else if anyPossibleEventFlag record then .possibleEvent
  else if mapSoccerStatusToGamePhase record.statusId = some .covLost then .coverageWarning
  else if phaseChanged ∨ record.data.any (·.statusId.isSome) then .phaseChange
  else if record.stats.any (· > 0) then .statUpdate
  else .other

theorem ordinaryKind_ne (record : ScoresRecord) (phaseChanged : Bool) :
    ordinaryKind record phaseChanged ≠ .goalAmended ∧
      ordinaryKind record phaseChanged ≠ .goalDiscarded := by
  unfold ordinaryKind
  repeat' split
  all_goals simp

variable {record : ScoresRecord}

theorem ordinaryKind_of_bare (h : bare record = true) (phaseChanged : Bool) :
    ordinaryKind record phaseChanged =
      if phaseChanged then .phaseChange
      else if record.stats.any (· > 0) then .statUpdate else .other := by
  simp only [bare, decide_eq_true_eq] at h
  obtain ⟨hvar, hend, hgoal, hcard, hlineup, hpossible, hcoverage, hstatus⟩ := h
  simp only [ordinaryKind, hvar, hend, hgoal, hcard, hlineup, hpossible, hcoverage, hstatus,
    if_false]
  simp

/-- Only a bare record is told from its status. -/
theorem ordinaryKind_eq_iff (record : ScoresRecord) (c c' : Bool) :
    ordinaryKind record c = ordinaryKind record c' ↔ (bare record = true → c = c') := by
  by_cases hbare : bare record = true
  · rw [ordinaryKind_of_bare hbare, ordinaryKind_of_bare hbare]
    cases c <;> cases c' <;> simp only [hbare] <;>
      cases record.stats.any (· > 0) <;> simp
  · refine iff_of_true ?_ fun h => absurd h hbare
    simp only [bare, decide_eq_true_eq] at hbare
    unfold ordinaryKind
    split_ifs <;> simp_all

/-- The kind that the maps give a record. -/
def kindOf (maps : FeedMaps) (record : ScoresRecord) : MatchEventKind :=
  if corrects record ∧ (knowsGoal maps record ∨ statesItsGoal record) then
    if classifyAction record.action = .discard then .goalDiscarded else .goalAmended
  else ordinaryKind record (statusChanges maps record)

theorem kind_normalizeRecord (receivedAtMs : Int) (maps : FeedMaps) (record : ScoresRecord) :
    (normalizeRecord receivedAtMs maps record).2.kind = kindOf maps record := by
  have hclass : (classifyAction record.action = .discard ∨ classifyAction record.action = .amend) ↔
      corrects record = true := by
    unfold corrects
    cases classifyAction record.action <;> simp
  show classifyKind record (classifyAction record.action) (statusChanges maps record)
    (mapSoccerStatusToGamePhase record.statusId)
    ((eventKey record).bind maps.kindByEventId.lookup) = kindOf maps record
  unfold classifyKind kindOf
  simp only [hclass, touchesGoal, Bool.or_eq_true]
  rfl

theorem kindOf_eq_iff (a b : FeedMaps) (record : ScoresRecord) :
    kindOf a record = kindOf b record ↔
      (corrects record = true → statesItsGoal record = false →
        knowsGoal a record = knowsGoal b record) ∧
      ((corrects record = true → knowsGoal a record = false ∧ statesItsGoal record = false) →
        bare record = true → statusChanges a record = statusChanges b record) := by
  obtain ⟨ha, ha'⟩ := ordinaryKind_ne record (statusChanges a record)
  obtain ⟨hb, hb'⟩ := ordinaryKind_ne record (statusChanges b record)
  have hordinary := ordinaryKind_eq_iff record (statusChanges a record) (statusChanges b record)
  unfold kindOf
  cases corrects record with
  | false => simpa using hordinary
  | true =>
      cases statesItsGoal record with
      | true => simp
      | false =>
          cases knowsGoal a record <;> cases knowsGoal b record
          · simpa using hordinary
          · simp only [true_and, Bool.false_eq_true, or_self, if_false, or_false, if_true]
            split <;> simp [ha, ha']
          · simp only [true_and, Bool.false_eq_true, or_self, if_false, or_false, if_true]
            split <;> simp [Ne.symm hb, Ne.symm hb']
          · simp

/-! ## events -/

/-- A record completed by what comes from the maps. -/
def completed (record : ScoresRecord) (phase : GamePhase) (score : ScoreState)
    (kind : MatchEventKind) (reversesSeq : Option Nat) : MatchEvent where
  kind
  fixtureId := record.fixtureId
  seq := record.seq
  tsMs := record.ts
  receivedAtMs := 0
  confirmed := if kind = .goal then record.confirmed = some true
    else record.confirmed ≠ some false
  phase
  minute := minuteOf record (record.data.map fun data => data.new.getD data.toSoccerEventDetail)
  score
  detail :=
    detailOf (record.data.map fun data => data.new.getD data.toSoccerEventDetail) reversesSeq

def phaseIn (maps : FeedMaps) (record : ScoresRecord) : GamePhase :=
  phaseOf record (phaseBefore maps record)

def scoreIn (maps : FeedMaps) (record : ScoresRecord) : ScoreState :=
  (buildScoreState record (phaseIn maps record) <|>
    maps.lastScoreByFixture.lookup record.fixtureId).getD emptyScoreState

def reversesIn (maps : FeedMaps) (record : ScoresRecord) : Option Nat :=
  if kindOf maps record = .goalAmended ∨ kindOf maps record = .goalDiscarded then
    seqBefore maps record
  else none

theorem withoutReceipt_normalizeRecord (receivedAtMs : Int) (maps : FeedMaps)
    (record : ScoresRecord) :
    withoutReceipt (normalizeRecord receivedAtMs maps record).2 =
      completed record (phaseIn maps record) (scoreIn maps record) (kindOf maps record)
        (reversesIn maps record) := by
  unfold reversesIn
  rw [← kind_normalizeRecord receivedAtMs]
  rfl

theorem completed_inj {phase phase' : GamePhase} {score score' : ScoreState}
    {kind kind' : MatchEventKind} {reversesSeq reversesSeq' : Option Nat} :
    completed record phase score kind reversesSeq =
        completed record phase' score' kind' reversesSeq' ↔
      phase = phase' ∧ score = score' ∧ kind = kind' ∧ reversesSeq = reversesSeq' := by
  constructor
  · intro h
    have hreverses := congrArg MatchEvent.reversesSeq h
    simp only [MatchEvent.reversesSeq, completed, detailOf_fields] at hreverses
    exact ⟨congrArg MatchEvent.phase h, congrArg MatchEvent.score h, congrArg MatchEvent.kind h,
      hreverses⟩
  · rintro ⟨rfl, rfl, rfl, rfl⟩
    rfl

/-- The kind is a reversal's exactly where the record corrects a goal. -/
theorem kindOf_reversal_iff (maps : FeedMaps) (record : ScoresRecord) :
    (kindOf maps record = .goalAmended ∨ kindOf maps record = .goalDiscarded) ↔
      corrects record = true ∧ (knowsGoal maps record = true ∨ statesItsGoal record = true) := by
  obtain ⟨hamended, hdiscarded⟩ := ordinaryKind_ne record (statusChanges maps record)
  unfold kindOf
  split
  · next h =>
    refine iff_of_true ?_ h
    split <;> simp
  · next h => exact iff_of_false (not_or.mpr ⟨hamended, hdiscarded⟩) h

theorem scoreIn_of_none (h : record.score = none) (maps : FeedMaps) :
    scoreIn maps record = scoreBefore maps record := by
  simp [scoreIn, scoreBefore, buildScoreState, h]

/-- An event takes from the maps what its record leaves out, and nothing else. -/
theorem withoutReceipt_eq_iff (t t' : Int) (a b : FeedMaps) (record : ScoresRecord) :
    withoutReceipt (normalizeRecord t a record).2 =
        withoutReceipt (normalizeRecord t' b record).2 ↔
      SameContext a b record := by
  rw [withoutReceipt_normalizeRecord, withoutReceipt_normalizeRecord, completed_inj,
    kindOf_eq_iff]
  constructor
  · rintro ⟨hphase, hscore, ⟨hgoal, hchange⟩, hreverses⟩
    refine ⟨fun _ => hphase, fun hnone => ?_, hgoal, hchange, fun hcorrects hknown => ?_⟩
    · rw [scoreIn_of_none hnone, scoreIn_of_none hnone] at hscore
      exact hscore
    · have ha := (kindOf_reversal_iff a record).mpr ⟨hcorrects, hknown⟩
      have hb := ha
      rw [(kindOf_eq_iff a b record).mpr ⟨hgoal, hchange⟩] at hb
      rwa [reversesIn, if_pos ha, reversesIn, if_pos hb] at hreverses
  · rintro ⟨hphase, hscore, hgoal, hchange, hlink⟩
    have hsame : phaseIn a record = phaseIn b record := by
      cases hmapped : mapSoccerStatusToGamePhase record.statusId with
      | none => exact hphase hmapped
      | some phase => simp [phaseIn, phaseOf, hmapped]
    refine ⟨hsame, ?_, ⟨hgoal, hchange⟩, ?_⟩
    · cases hgiven : record.score with
      | none =>
          rw [scoreIn_of_none hgiven, scoreIn_of_none hgiven]
          exact hscore hgiven
      | some score => simp [scoreIn, buildScoreState, hgiven, hsame]
    · have hkind := (kindOf_eq_iff a b record).mpr ⟨hgoal, hchange⟩
      unfold reversesIn
      rw [← hkind]
      split
      · next hreversal =>
        obtain ⟨hcorrects, hknown⟩ := (kindOf_reversal_iff a record).mp hreversal
        exact hlink hcorrects hknown
      · rfl

/-! ## the maps after a call -/

/-- The maps when the records have been processed. -/
def mapsAfter (maps : FeedMaps) (records : List ScoresRecord) : FeedMaps :=
  records.foldl (fun maps record => (normalizeRecord 0 maps record).1) maps

theorem mapsAfter_cons (receivedAtMs : Int) (maps : FeedMaps) (record : ScoresRecord)
    (records : List ScoresRecord) :
    mapsAfter maps (record :: records) =
      mapsAfter (normalizeRecord receivedAtMs maps record).1 records := rfl

theorem mapsAfter_append (maps : FeedMaps) (xs ys : List ScoresRecord) :
    mapsAfter maps (xs ++ ys) = mapsAfter (mapsAfter maps xs) ys :=
  List.foldl_append

theorem normalizeAll_append (receivedAtMs : Int) (maps : FeedMaps) (xs ys : List ScoresRecord) :
    normalizeAll receivedAtMs maps (xs ++ ys) =
      normalizeAll receivedAtMs maps xs ++ normalizeAll receivedAtMs (mapsAfter maps xs) ys := by
  induction xs generalizing maps with
  | nil => rfl
  | cons x xs ih =>
      rw [List.cons_append, normalizeAll, normalizeAll, ih, List.cons_append,
        mapsAfter_cons receivedAtMs]

end CalledIt.Txline
