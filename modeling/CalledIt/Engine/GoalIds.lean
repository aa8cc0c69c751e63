import Mathlib.Data.Finset.Card
import CalledIt.Txline.NormalizeScores
import CalledIt.Engine.Deciding

/-!
# CalledIt.Engine.GoalIds

The provider's goals behind a settlement.

A goal is announced by a record with its number, confirmed by a record that says so
and taken back by a discard of the same number.  A score is given by some records and
carried by the others, and the reducer settles on whatever score is in force at a
confirmed event.  `settled_goals_stand` bounds the goals counted there by the
confirmed ones that have not been discarded, for feeds in which the score in force
at a confirmed record counts no other goal (`Faithful`).
-/

namespace CalledIt.Engine

open Lib
open Txline (ScoresRecord FeedMaps normalizeRecord normalizeAll normalizeScores buildScoreState
  emptyScoreState)

/-! ## records and their events -/

/-- A record, with the event it has become. -/
abbrev FedRecord := ScoresRecord × MatchEvent

def deliver (receivedAtMs : Int) : FeedMaps → List ScoresRecord → List FedRecord
  | _, [] => []
  | maps, record :: records =>
      let next := normalizeRecord receivedAtMs maps record
      (record, next.2) :: deliver receivedAtMs next.1 records

theorem map_snd_deliver (receivedAtMs : Int) (maps : FeedMaps) (records : List ScoresRecord) :
    (deliver receivedAtMs maps records).map Prod.snd = normalizeAll receivedAtMs maps records := by
  induction records generalizing maps with
  | nil => rfl
  | cons record records ih => simp [deliver, normalizeAll, ih]

theorem map_fst_deliver (receivedAtMs : Int) (maps : FeedMaps) (records : List ScoresRecord) :
    (deliver receivedAtMs maps records).map Prod.fst = records := by
  induction records generalizing maps with
  | nil => rfl
  | cons record records ih => simp [deliver, ih]

variable {receivedAtMs : Int} {maps : FeedMaps} {records : List ScoresRecord} {x : FedRecord}

/-- An event has the number and the fixture of its record. -/
theorem seq_of_mem_deliver (h : x ∈ deliver receivedAtMs maps records) :
    x.2.seq = x.1.seq ∧ x.2.fixtureId = x.1.fixtureId := by
  induction records generalizing maps with
  | nil => simp [deliver] at h
  | cons record records ih =>
      rcases List.mem_cons.mp h with rfl | h
      · exact ⟨rfl, rfl⟩
      · exact ih h

/-- A payload in the order of its numbers is taken as it is. -/
theorem normalizeScores_of_ordered (h : records.Pairwise (·.seq < ·.seq)) :
    normalizeScores maps receivedAtMs records =
      (deliver receivedAtMs maps records).map Prod.snd := by
  rw [normalizeScores, List.mergeSort_of_pairwise, map_snd_deliver]
  exact h.imp fun hlt => by simpa using hlt.le

/-- The records at or before a number. -/
def upTo (seq : Nat) (feed : List FedRecord) : List FedRecord := feed.filter (·.1.seq ≤ seq)

theorem upTo_of_ordered {done rest : List FedRecord}
    (h : (done ++ x :: rest).Pairwise (·.1.seq < ·.1.seq)) :
    upTo x.1.seq (done ++ x :: rest) = done ++ [x] := by
  obtain ⟨-, hrest, hcross⟩ := List.pairwise_append.mp h
  have hlater := (List.pairwise_cons.mp hrest).1
  have hdone : done.filter (·.1.seq ≤ x.1.seq) = done :=
    List.filter_eq_self.mpr fun y hy => by simpa using (hcross y hy x (by simp)).le
  have hnone : rest.filter (·.1.seq ≤ x.1.seq) = [] :=
    List.filter_eq_nil_iff.mpr fun y hy => by simpa using hlater y hy
  simp [upTo, hdone, hnone]

/-! ## the score in force -/

/-- The last record of the fixture that has given a score. -/
def scoreInForce (fixtureId : Nat) (feed : List FedRecord) : Option FedRecord :=
  (feed.filter fun x => x.1.fixtureId = fixtureId ∧ x.1.score.isSome).getLast?

/-- The score that is carried to the end of the feed. -/
def carriedScore (fixtureId : Nat) (first : ScoreState) (feed : List FedRecord) : ScoreState :=
  ((scoreInForce fixtureId feed).map (·.2.score)).getD first

theorem carriedScore_cons (fixtureId : Nat) (first : ScoreState) (x : FedRecord)
    (feed : List FedRecord) :
    carriedScore fixtureId first (x :: feed) = carriedScore fixtureId
      (if x.1.fixtureId = fixtureId ∧ x.1.score.isSome then x.2.score else first) feed := by
  unfold carriedScore scoreInForce
  rw [List.filter_cons]
  split
  · next h =>
    rw [if_pos (by simpa using h), List.getLast?_cons]
    cases (feed.filter fun y => decide (y.1.fixtureId = fixtureId ∧
      y.1.score.isSome = true)).getLast? <;> rfl
  · next h => rw [if_neg (by simpa using h)]

theorem score_normalizeRecord (receivedAtMs : Int) (maps : FeedMaps) (record : ScoresRecord) :
    record.score = none → (normalizeRecord receivedAtMs maps record).2.score =
      (maps.lastScoreByFixture.lookup record.fixtureId).getD emptyScoreState := by
  intro h
  simp [normalizeRecord, buildScoreState, h]

theorem lastScore_normalizeRecord (receivedAtMs : Int) (maps : FeedMaps) (record : ScoresRecord)
    (fixtureId : Nat) :
    (normalizeRecord receivedAtMs maps record).1.lastScoreByFixture.lookup fixtureId =
      if fixtureId = record.fixtureId then some (normalizeRecord receivedAtMs maps record).2.score
      else maps.lastScoreByFixture.lookup fixtureId := by
  simp only [normalizeRecord]
  split
  · next h => rw [h, AList.lookup_insert]
  · next h => rw [AList.lookup_insert_ne h]

/-- The score of an event is the one in force at its record. -/
theorem score_deliver {done rest : List FedRecord}
    (h : deliver receivedAtMs maps records = done ++ x :: rest) :
    x.2.score = carriedScore x.1.fixtureId
      ((maps.lastScoreByFixture.lookup x.1.fixtureId).getD emptyScoreState) (done ++ [x]) := by
  induction records generalizing maps done with
  | nil => simp [deliver] at h
  | cons record records ih =>
      rw [deliver] at h
      cases done with
      | nil =>
          obtain ⟨rfl, -⟩ := List.cons.inj h
          cases hscore : record.score with
          | none => simp [carriedScore, scoreInForce, hscore, score_normalizeRecord]
          | some score => simp [carriedScore, scoreInForce, hscore]
      | cons first done =>
          obtain ⟨rfl, hrest⟩ := List.cons.inj h
          rw [ih hrest, lastScore_normalizeRecord, List.cons_append, carriedScore_cons]
          congr 1
          by_cases hfixture : x.1.fixtureId = record.fixtureId
          · rw [hfixture]
            cases hscore : record.score with
            | none => simp [hscore, score_normalizeRecord]
            | some score => simp
          · simp [hfixture, Ne.symm hfixture]

/-! ## goals by their numbers -/

/-- The numbers of the records that satisfy `p`. -/
def idsWhere (p : FedRecord → Bool) (feed : List FedRecord) : Finset Nat :=
  ((feed.filter p).filterMap (·.1.id)).toFinset

/-- A goal of the side. -/
def isGoalOf (fixtureId : Nat) (side : Participant) (x : FedRecord) : Bool :=
  x.1.fixtureId = fixtureId ∧ x.2.kind = .goal ∧ x.2.participant = some side

def announced (fixtureId : Nat) (side : Participant) (feed : List FedRecord) : Finset Nat :=
  idsWhere (isGoalOf fixtureId side) feed

def discarded (fixtureId : Nat) (feed : List FedRecord) : Finset Nat :=
  idsWhere (fun x => x.1.fixtureId = fixtureId ∧ x.2.kind = .goalDiscarded) feed

/-- Goals of the side with a record that confirms them, and not discarded. -/
def standingIds (fixtureId : Nat) (side : Participant) (feed : List FedRecord) : Finset Nat :=
  idsWhere (fun x => isGoalOf fixtureId side x ∧ x.1.confirmed = some true) feed \
    discarded fixtureId feed

/-- The score counts at most `n` goals of the side, in all and in regulation. -/
structure CountsAtMost (score : ScoreState) (side : Participant) (n : Nat) : Prop where
  goals : (score.team side).goals ≤ n
  goals90 : ∀ g ∈ score.goals90 side, g ≤ n

instance (score : ScoreState) (side : Participant) (n : Nat) :
    Decidable (CountsAtMost score side n) :=
  decidable_of_iff ((score.team side).goals ≤ n ∧ ∀ g ∈ score.goals90 side, g ≤ n)
    ⟨fun h => ⟨h.1, h.2⟩, fun h => ⟨h.goals, h.goals90⟩⟩

theorem CountsAtMost.mono {score : ScoreState} {side : Participant} {m n : Nat}
    (h : CountsAtMost score side m) (hle : m ≤ n) : CountsAtMost score side n :=
  ⟨h.goals.trans hle, fun g hg => (h.goals90 g hg).trans hle⟩

theorem countsAtMost_empty (side : Participant) (n : Nat) :
    CountsAtMost emptyScoreState side n := by
  cases side <;> exact ⟨Nat.zero_le n, by simp [emptyScoreState, ScoreState.goals90]⟩

/-- Whatever the period, no other tally of the side is read. -/
theorem CountsAtMost.goalsForPeriod_le {score : ScoreState} {side : Participant} {n : Nat}
    (h : CountsAtMost score side n) {period : Period} {phase : GamePhase} :
    ∀ g ∈ goalsForPeriod score side period phase, g ≤ n := by
  have hgoals : ∀ g ∈ some (score.team side).goals, g ≤ n := by
    rintro _ ⟨⟩
    exact h.goals
  unfold goalsForPeriod
  cases period with
  | ft => exact hgoals
  | ft90 =>
      dsimp only
      split_ifs
      · rintro _ ⟨⟩
        cases hgoals90 : score.goals90 side with
        | none => exact h.goals
        | some g => exact h.goals90 g hgoals90
      · exact h.goals90
      · exact hgoals

/-! ## feeds whose scores count standing goals -/

/-- No score counts a goal that is not announced or is discarded by then, and at a
confirmed record that is no hold signal every goal that the score in force may count
is confirmed and not discarded. -/
structure Faithful (fixtureId : Nat) (feed : List FedRecord) : Prop where
  score : ∀ x ∈ feed, x.1.fixtureId = fixtureId → x.1.score.isSome = true → ∀ side,
    CountsAtMost x.2.score side
      (announced fixtureId side (upTo x.1.seq feed) \ discarded fixtureId (upTo x.1.seq feed)).card
  confirmed : ∀ x ∈ feed, x.1.fixtureId = fixtureId → x.2.confirmed = true →
    isHoldSignal x.2 = false → ∀ y ∈ scoreInForce fixtureId (upTo x.1.seq feed), ∀ side,
      announced fixtureId side (upTo y.1.seq feed) \ discarded fixtureId (upTo y.1.seq feed) ⊆
        standingIds fixtureId side (upTo x.1.seq feed)

/-- The score of a confirmed record counts standing goals only. -/
theorem Faithful.countsAtMost {fixtureId : Nat}
    (hfirst : maps.lastScoreByFixture.lookup fixtureId = none)
    (hordered : records.Pairwise (·.seq < ·.seq))
    (h : Faithful fixtureId (deliver receivedAtMs maps records))
    (hx : x ∈ deliver receivedAtMs maps records) (hfixture : x.1.fixtureId = fixtureId)
    (hconfirmed : x.2.confirmed = true) (hhold : isHoldSignal x.2 = false) (side : Participant) :
    CountsAtMost x.2.score side
      (standingIds fixtureId side (upTo x.1.seq (deliver receivedAtMs maps records))).card := by
  obtain ⟨done, rest, hsplit⟩ := List.append_of_mem hx
  have hpairwise : (deliver receivedAtMs maps records).Pairwise (·.1.seq < ·.1.seq) := by
    have hmap := map_fst_deliver receivedAtMs maps records
    rw [← hmap, List.pairwise_map] at hordered
    exact hordered
  have hprefix : upTo x.1.seq (deliver receivedAtMs maps records) = done ++ [x] := by
    rw [hsplit] at hpairwise ⊢
    exact upTo_of_ordered hpairwise
  have hscore := score_deliver hsplit
  rw [hfixture, hfirst, carriedScore, ← hprefix] at hscore
  cases hforce : scoreInForce fixtureId (upTo x.1.seq (deliver receivedAtMs maps records)) with
  | none =>
      rw [hscore, hforce]
      exact countsAtMost_empty side _
  | some y =>
      have hgiven := List.mem_filter.mp (List.mem_of_getLast? hforce)
      simp only [decide_eq_true_eq] at hgiven
      have hy : y ∈ deliver receivedAtMs maps records := List.mem_of_mem_filter hgiven.1
      have hcount := h.score y hy hgiven.2.1 hgiven.2.2 side
      rw [hscore, hforce]
      exact hcount.mono (Finset.card_le_card
        (h.confirmed x hx hfixture hconfirmed hhold y hforce side))

/-! ## every run -/

def MarketInput.event? : MarketInput → Option MatchEvent
  | .event e => some e
  | .tick _ => none

/-- A market that is settled on a faithful feed, with ticks at any time, counts at its
deciding event no more goals of a side than are confirmed and not discarded by then. -/
theorem settled_goals_stand {start : MarketState} (hfresh : Fresh start)
    {maps : FeedMaps} (hfirst : maps.lastScoreByFixture.lookup start.spec.fixtureId = none)
    (receivedAtMs : Int) {records : List ScoresRecord}
    (hordered : records.Pairwise (·.seq < ·.seq)) (inputs : List MarketInput)
    (hinputs : inputs.filterMap (·.event?) = normalizeScores maps receivedAtMs records)
    (hfaithful : Faithful start.spec.fixtureId (deliver receivedAtMs maps records))
    {outcome : SettlementOutcome} {decidingSeq : Nat} {evidenceSeqs : List Nat}
    (hsettle : .settle outcome decidingSeq evidenceSeqs ∈ (marketRun start inputs).2) :
    ∃ x ∈ deliver receivedAtMs maps records, x.2.seq = decidingSeq ∧
      ∀ side, ∀ g ∈ goalsForPeriod x.2.score side start.spec.period x.2.phase,
        g ≤ (standingIds start.spec.fixtureId side
          (upTo decidingSeq (deliver receivedAtMs maps records))).card := by
  obtain ⟨before, last, after, hsplit, hmem⟩ := mem_execute hsettle
  obtain ⟨⟨candidate, hpending, -, hseq, -⟩, -⟩ := settle_of_marketStep hmem
  obtain ⟨pre, event, mid, rfl, hdecides, -⟩ := exists_deciding hfresh.starting before hpending
  have hevent : event ∈ (deliver receivedAtMs maps records).map Prod.snd := by
    rw [← normalizeScores_of_ordered hordered, ← hinputs, hsplit]
    exact List.mem_filterMap.mpr ⟨.event event, by simp, rfl⟩
  obtain ⟨x, hx, rfl⟩ := List.mem_map.mp hevent
  obtain ⟨hxseq, hxfixture⟩ := seq_of_mem_deliver hx
  have hfixture : x.1.fixtureId = start.spec.fixtureId := by
    obtain ⟨participant, hclaim⟩ := sameClaim_marketRun start pre
    have htaken := hdecides.staged.taken
    simp only [ignored, decide_eq_false_iff_not, not_or, not_not] at htaken
    rw [← hxfixture, htaken.2.2.1, hclaim]
  have hdeciding : x.2.seq = decidingSeq := by rw [← hdecides.armed.sequence, hseq]
  refine ⟨x, hx, hdeciding, fun side => ?_⟩
  rw [← hdeciding, hxseq]
  exact (hfaithful.countsAtMost hfirst hordered hx hfixture hdecides.armed.confirmed hdecides.hold
    side).goalsForPeriod_le

/-! ## one goal -/

namespace Sample

def noMaps : FeedMaps := ⟨∅, ∅, ∅, ∅⟩

/-- A record that says nothing but that there are statistics. -/
def statsRecord (seq : Nat) : ScoresRecord where
  fixtureId := 17
  seq
  ts := 1000 * seq
  action := "update"
  id := none
  gameState := none
  confirmed := none
  statusId := .other
  clock := none
  score := none
  data := none
  stats := some 1
  lineups := none
  possibleEvent := none
  parti1State := none
  parti2State := none

/-- The first goal of the home side, with the score. -/
def goalRecord (seq : Nat) (confirmed : Option Bool) : ScoresRecord :=
  { statsRecord seq with
    action := "goal"
    id := some 5
    confirmed
    score := some
      { participant1 := some ⟨none, none, none, none, none, none, none, some ⟨1, 0, 0, 0⟩⟩
        participant2 := none }
    data := some
      { action := none
        goal := some true
        goalType := .other
        minutes := none
        participant := some 1
        penalty := none
        playerId := none
        statusId := none
        type := none
        redCard := none
        yellowCard := none
        var := none
        new := none
        previous := none } }

/-- The home side scores. -/
def homeScoresOnce : MarketState :=
  market { twoGoals with claimType := .teamScoresN, threshold := 1, period := .ft } []

def goalFeed (confirmed : Option Bool) : List ScoresRecord :=
  [goalRecord 1 confirmed, statsRecord 2, statsRecord 3]

end Sample

private theorem fresh_homeScoresOnce : Fresh Sample.homeScoresOnce :=
  ⟨rfl, rfl, .inl (by decide)⟩

/-- A goal that is confirmed at once stands behind the settlement. -/
theorem confirmed_goal_stands :
    ∃ x ∈ deliver 0 Sample.noMaps (Sample.goalFeed (some true)), x.2.seq = 1 ∧
      ∀ side, ∀ g ∈ goalsForPeriod x.2.score side .ft x.2.phase,
        g ≤ (standingIds 17 side (upTo 1 (deliver 0 Sample.noMaps
          (Sample.goalFeed (some true))))).card := by
  have hordered : (Sample.goalFeed (some true)).Pairwise (·.seq < ·.seq) := by decide
  have hfaithful : Faithful 17 (deliver 0 Sample.noMaps (Sample.goalFeed (some true))) := by
    constructor
    · intro x hx hfixture hscore side
      cases side <;> revert x <;> decide +kernel
    · intro x hx hfixture hconfirmed hhold y hy side
      cases side <;> revert y <;> revert x <;> decide +kernel
  have hsettle : .settle .claimWon 1 [1] ∈ (marketRun Sample.homeScoresOnce
      ((normalizeScores Sample.noMaps 0 (Sample.goalFeed (some true))).map .event)).2 := by
    rw [normalizeScores_of_ordered hordered]
    decide +kernel
  exact settled_goals_stand fresh_homeScoresOnce rfl 0 hordered _
    (by simp [MarketInput.event?, List.filterMap_map]) hfaithful hsettle

/-- A goal that was never confirmed: the next record, confirmed by default, carries its
score and settles the market. -/
theorem unconfirmed_goal_settles :
    let feed := deliver 0 Sample.noMaps (Sample.goalFeed none)
    let events := normalizeScores Sample.noMaps 0 (Sample.goalFeed none)
    Fresh Sample.homeScoresOnce ∧ Sample.homeScoresOnce.status = .open ∧
      Sample.homeScoresOnce.spec.claimType = .teamScoresN ∧
      (Sample.goalFeed none).Pairwise (·.seq < ·.seq) ∧
      (∀ x ∈ feed, ∀ side, CountsAtMost x.2.score side
        (announced 17 side (upTo x.1.seq feed)).card) ∧
      .settle .claimWon 2 [2] ∈ (marketRun Sample.homeScoresOnce (events.map .event)).2 ∧
      ∃ x ∈ feed, x.2.seq = 2 ∧ x.2.phase = .h1 ∧
        goalsForPeriod x.2.score .one .ft x.2.phase = some 1 ∧
        (standingIds 17 .one (upTo 2 feed)).card = 0 := by
  have hordered : (Sample.goalFeed none).Pairwise (·.seq < ·.seq) := by decide
  refine ⟨fresh_homeScoresOnce, by decide, by decide, hordered, ?_, ?_, by decide +kernel⟩
  · intro x hx side
    cases side <;> revert x <;> decide +kernel
  · rw [normalizeScores_of_ordered hordered]
    decide +kernel

end CalledIt.Engine
