import CalledIt.Engine.Evidence
import CalledIt.Engine.GoalIds

/-!
# CalledIt.Engine.Attribution

Who the reducer's standing goals belong to.

A goal is announced by one record, and later records with its number amend or discard
it.  What the feed says in the end is the fold of all of them (`feedGoals`).  The
reducer knows a goal by the sequence number of its own record, while each amendment
moves the number's entry in `seqByEventId` on to itself: only the first later record
reaches the goal (`standing_eventsOf`).  `goals_match_feed_iff` says for which feeds
the two agree.
-/

namespace CalledIt.Engine

open Lib
open Signer (reattribute)
open Txline (ScoresRecord SoccerEventDetail FeedMaps classifyAction classifyKind touchesGoal
  goalFamilyKinds mapGoalType asParticipant isGoalRecord normalizeRecord normalizeAll
  normalizeScores seqByEventId_normalizeRecord kindByEventId_normalizeRecord
  detailOf_fields player_of_detailOf reversesSeq_normalizeRecord kind_normalizeRecord_goal_iff
  kind_of_mem_normalizeAll seq_normalizeAll)

/-! ## what a record states -/

/-- An amendment carries the corrected payload under `New`. -/
def detailData (record : ScoresRecord) : Option SoccerEventDetail :=
  record.data.map fun data => data.new.getD data.toSoccerEventDetail

def statedScorer (record : ScoresRecord) : Option Nat := (detailData record).bind (·.playerId)

def statedSide (record : ScoresRecord) : Option Participant :=
  asParticipant ((detailData record).bind (·.participant))

def statedGoalType (record : ScoresRecord) : Option GoalType := (detailData record).bind mapGoalType

def isDiscard (record : ScoresRecord) : Bool := classifyAction record.action = .discard

/-- The records have the same number in the same fixture. -/
def sameNumber (a b : ScoresRecord) : Bool := b.fixtureId = a.fixtureId ∧ b.id = a.id

/-- The later records with the number of the first. -/
def chainOf (record : ScoresRecord) (later : List ScoresRecord) : List ScoresRecord :=
  later.filter (sameNumber record)

/-! ## what the feed says -/

/-- The last of the records that states the field. -/
def lastStated {α : Type} (field : ScoresRecord → Option α) (records : List ScoresRecord) :
    Option α :=
  (records.filterMap field).getLast?

/-- The goal as all of its records have it, unless one of them discards it. -/
def statedGoal (goal : FedRecord) (chain : List ScoresRecord) : Option StandingGoal :=
  if chain.any isDiscard then none
  else some
    { seq := goal.2.seq
      participant := lastStated statedSide (goal.1 :: chain)
      playerNormativeId := lastStated statedScorer (goal.1 :: chain)
      ownGoal := lastStated statedGoalType (goal.1 :: chain) = some .ownGoal
      phase := goal.2.phase }

/-- The entries of the fixture's goals, in the order of their records. -/
def goalsBy (entry : FedRecord → List ScoresRecord → Option StandingGoal) (fixtureId : Nat) :
    List FedRecord → List StandingGoal
  | [] => []
  | goal :: later =>
      (if goal.1.fixtureId = fixtureId ∧ isGoalRecord goal.1 then
        (entry goal (chainOf goal.1 (later.map Prod.fst))).toList else []) ++
        goalsBy entry fixtureId later

def feedGoals (fixtureId : Nat) (feed : List FedRecord) : List StandingGoal :=
  goalsBy statedGoal fixtureId feed

/-- Records in order, in which each goal of the fixture has a number, is confirmed at
once, and is followed by amendments and at most one discard only. -/
structure GoalFeed (fixtureId : Nat) (records : List ScoresRecord) : Prop where
  ordered : records.Pairwise (·.seq < ·.seq)
  goals : ∀ before goal after, records = before ++ goal :: after →
    goal.fixtureId = fixtureId → isGoalRecord goal = true →
      goal.id.isSome = true ∧ goal.confirmed = some true ∧
        (∀ r ∈ before, sameNumber goal r = false) ∧
        (∀ r ∈ chainOf goal after, classifyAction r.action ≠ .new) ∧
        ((chainOf goal after).filter isDiscard).length ≤ 1

variable {records : List ScoresRecord}

theorem GoalFeed.tail {fixtureId : Nat} {record : ScoresRecord}
    (h : GoalFeed fixtureId (record :: records)) : GoalFeed fixtureId records := by
  refine ⟨(List.pairwise_cons.mp h.ordered).2, ?_⟩
  rintro before goal after rfl hfixture hgoal
  obtain ⟨hid, hconfirmed, hfirst, hchain, hdiscards⟩ :=
    h.goals (record :: before) goal after rfl hfixture hgoal
  exact ⟨hid, hconfirmed, fun r hr => hfirst r (List.mem_cons_of_mem _ hr), hchain, hdiscards⟩

/-! ## what the normalizer makes of it -/

section Records

variable (receivedAtMs : Int) (maps : FeedMaps) (record : ScoresRecord)

theorem participant_normalizeRecord :
    (normalizeRecord receivedAtMs maps record).2.participant = statedSide record :=
  (detailOf_fields _ _).1

theorem goalType_normalizeRecord :
    (normalizeRecord receivedAtMs maps record).2.goalType = statedGoalType record :=
  (detailOf_fields _ _).2.1

theorem playerNormativeId_normalizeRecord :
    (normalizeRecord receivedAtMs maps record).2.playerNormativeId.getD none =
      statedScorer record :=
  (detailOf_fields _ _).2.2.1

theorem playerNormativeId_of_reverses {seq : Nat}
    (h : (normalizeRecord receivedAtMs maps record).2.reversesSeq = some seq) :
    (normalizeRecord receivedAtMs maps record).2.playerNormativeId =
      some (statedScorer record) := by
  obtain ⟨d, hd, -⟩ := Option.bind_eq_some_iff.mp h
  rw [MatchEvent.playerNormativeId, hd, Option.bind_some]
  exact player_of_detailOf hd

end Records

/-! ## what reaches a goal -/

/-- The fixture's events. -/
def eventsOf (fixtureId : Nat) (events : List MatchEvent) : List MatchEvent :=
  events.filter (·.fixtureId = fixtureId)

variable {goal : StandingGoal} {id : Nat}

section Chain

variable {fixtureId n : Nat}

theorem eventsOf_normalizeAll_cons (receivedAtMs : Int) (maps : FeedMaps) (record : ScoresRecord)
    (records : List ScoresRecord) :
    eventsOf fixtureId (normalizeAll receivedAtMs maps (record :: records)) =
      if record.fixtureId = fixtureId then
        (normalizeRecord receivedAtMs maps record).2 ::
          eventsOf fixtureId
            (normalizeAll receivedAtMs (normalizeRecord receivedAtMs maps record).1 records)
      else eventsOf fixtureId
        (normalizeAll receivedAtMs (normalizeRecord receivedAtMs maps record).1 records) := by
  have hfixture : (normalizeRecord receivedAtMs maps record).2.fixtureId = record.fixtureId := rfl
  simp only [eventsOf, normalizeAll, List.filter_cons, hfixture, decide_eq_true_eq]

/-- An event that is not linked to the goal leaves it alone. -/
theorem survives_cons_of_ne {event : MatchEvent} (h : event.reversesSeq ≠ some goal.seq)
    (events : List MatchEvent) :
    survives (event :: events) goal = survives events goal := by
  have hdiscards : discards event goal.seq = false := by simp [discards, h]
  have hamended : amended event goal = goal := by simp [amended, h]
  rw [survives, hdiscards, hamended, if_neg Bool.false_ne_true]

/-- No number leads to the goal's sequence number. -/
def Unlinked (maps : FeedMaps) (n : Nat) : Prop :=
  ∀ key, maps.seqByEventId.lookup key ≠ some n

variable {maps : FeedMaps}

theorem Unlinked.reversesSeq (h : Unlinked maps n) (receivedAtMs : Int) (record : ScoresRecord) :
    (normalizeRecord receivedAtMs maps record).2.reversesSeq ≠ some n := by
  rw [reversesSeq_normalizeRecord]
  split
  · intro hn
    obtain ⟨key, -, hkey⟩ := Option.bind_eq_some_iff.mp hn
    exact h key hkey
  · simp

variable {record : ScoresRecord}

theorem Unlinked.next (h : Unlinked maps n) (receivedAtMs : Int) (hseq : record.seq ≠ n) :
    Unlinked (normalizeRecord receivedAtMs maps record).1 n := by
  intro key
  rw [seqByEventId_normalizeRecord]
  split
  · simpa using hseq
  · exact h key

/-- A goal that no number leads to stays as it is. -/
theorem survives_of_unlinked (receivedAtMs : Int) (h : Unlinked maps n)
    (hseq : ∀ r ∈ records, r.seq ≠ n) (hgoal : goal.seq = n) :
    survives (eventsOf fixtureId (normalizeAll receivedAtMs maps records)) goal = some goal := by
  induction records generalizing maps with
  | nil => rfl
  | cons record records ih =>
      have hrest := ih (h.next receivedAtMs (hseq record List.mem_cons_self))
        fun r hr => hseq r (List.mem_cons_of_mem _ hr)
      rw [eventsOf_normalizeAll_cons]
      split
      · rw [survives_cons_of_ne (by rw [hgoal]; exact h.reversesSeq receivedAtMs record)]
        exact hrest
      · exact hrest

/-- One number of the fixture, and no other, leads to the goal. -/
structure Linked (maps : FeedMaps) (fixtureId id n : Nat) : Prop where
  seq : maps.seqByEventId.lookup (fixtureId, id) = some n
  kind : ∃ kind ∈ goalFamilyKinds, maps.kindByEventId.lookup (fixtureId, id) = some kind
  only : ∀ key, maps.seqByEventId.lookup key = some n → key = (fixtureId, id)

/-- The goal as the first later record of its number leaves it. -/
def toldOnce (goal : StandingGoal) : List ScoresRecord → Option StandingGoal
  | [] => some goal
  | first :: _ =>
      if isDiscard first then none
      else some
        { goal with
          participant := statedSide first <|> goal.participant
          playerNormativeId := statedScorer first
          ownGoal := statedGoalType first = some .ownGoal }

theorem Linked.reverses (h : Linked maps fixtureId id n) (receivedAtMs : Int)
    (hfixture : record.fixtureId = fixtureId) (hid : record.id = some id)
    (hclass : classifyAction record.action ≠ .new) :
    (normalizeRecord receivedAtMs maps record).2.kind =
        (if isDiscard record then .goalDiscarded else .goalAmended) ∧
      (normalizeRecord receivedAtMs maps record).2.reversesSeq = some n := by
  obtain ⟨kind, hfamily, hkind⟩ := h.kind
  have htouches : touchesGoal record
      ((record.id.map (record.fixtureId, ·)).bind maps.kindByEventId.lookup) = true := by
    simp [touchesGoal, hid, hfixture, hkind, hfamily]
  have hclass' : classifyAction record.action = .discard ∨
      classifyAction record.action = .amend := by
    cases hc : classifyAction record.action <;> simp_all
  have heq : (normalizeRecord receivedAtMs maps record).2.kind =
      (if isDiscard record then .goalDiscarded else .goalAmended) := by
    show classifyKind record _ _ _ _ = _
    unfold classifyKind
    rw [if_pos ⟨hclass', htouches⟩]
    simp [isDiscard]
  refine ⟨heq, ?_⟩
  rw [reversesSeq_normalizeRecord, if_pos]
  · rw [hid, hfixture]
    exact h.seq
  · rw [heq]
    split_ifs <;> simp

theorem Linked.other (h : Linked maps fixtureId id n) (receivedAtMs : Int)
    (hother : ¬ (record.fixtureId = fixtureId ∧ record.id = some id)) (hseq : record.seq ≠ n) :
    (normalizeRecord receivedAtMs maps record).2.reversesSeq ≠ some n ∧
      Linked (normalizeRecord receivedAtMs maps record).1 fixtureId id n := by
  have hkey : record.id.map (record.fixtureId, ·) ≠ some (fixtureId, id) := by
    intro hkey
    obtain ⟨i, hi, heq⟩ := Option.map_eq_some_iff.mp hkey
    obtain ⟨rfl, rfl⟩ := Prod.mk.inj heq
    exact hother ⟨rfl, hi⟩
  refine ⟨?_, ?_, ?_, ?_⟩
  · rw [reversesSeq_normalizeRecord]
    split
    · intro hn
      obtain ⟨key, hmap, hlookup⟩ := Option.bind_eq_some_iff.mp hn
      exact hkey (by rw [hmap, h.only key hlookup])
    · simp
  · rw [seqByEventId_normalizeRecord, if_neg hkey]
    exact h.seq
  · rw [kindByEventId_normalizeRecord, if_neg hkey]
    exact h.kind
  · intro key
    rw [seqByEventId_normalizeRecord]
    split
    · intro hn
      exact absurd (Option.some.inj hn) hseq
    · exact h.only key

theorem Linked.unlinks (h : Linked maps fixtureId id n) (receivedAtMs : Int)
    (hfixture : record.fixtureId = fixtureId) (hid : record.id = some id) (hseq : record.seq ≠ n) :
    Unlinked (normalizeRecord receivedAtMs maps record).1 n := by
  intro key
  rw [seqByEventId_normalizeRecord]
  split
  · simpa using hseq
  · next hne =>
    intro hlookup
    rw [h.only key hlookup, hid, hfixture] at hne
    exact hne rfl

/-- What a linked amendment makes of its goal. -/
theorem amended_of_linked (receivedAtMs : Int)
    (hkind : (normalizeRecord receivedAtMs maps record).2.kind = .goalAmended)
    (hreverses : (normalizeRecord receivedAtMs maps record).2.reversesSeq = some goal.seq) :
    amended (normalizeRecord receivedAtMs maps record).2 goal =
      { goal with
        participant := statedSide record <|> goal.participant
        playerNormativeId := statedScorer record
        ownGoal := statedGoalType record = some .ownGoal } := by
  rw [amended, if_pos ⟨hkind, hreverses⟩, reattribute, participant_normalizeRecord,
    goalType_normalizeRecord, playerNormativeId_of_reverses _ _ _ hreverses, Option.getD_some]
  cases statedSide record <;> rfl

/-- Only the first later record of its number reaches a goal. -/
theorem survives_of_linked (receivedAtMs : Int) (h : Linked maps fixtureId id n)
    (hseq : ∀ r ∈ records, r.seq ≠ n)
    (hclass : ∀ r ∈ records, r.fixtureId = fixtureId ∧ r.id = some id →
      classifyAction r.action ≠ .new) (hgoal : goal.seq = n) :
    survives (eventsOf fixtureId (normalizeAll receivedAtMs maps records)) goal =
      toldOnce goal (records.filter fun r => r.fixtureId = fixtureId ∧ r.id = some id) := by
  induction records generalizing maps with
  | nil => rfl
  | cons record records ih =>
      have hfirst := hseq record List.mem_cons_self
      have hlater : ∀ r ∈ records, r.seq ≠ n := fun r hr => hseq r (List.mem_cons_of_mem _ hr)
      rw [eventsOf_normalizeAll_cons]
      by_cases hsame : record.fixtureId = fixtureId ∧ record.id = some id
      · obtain ⟨hkind, hreverses⟩ := h.reverses receivedAtMs hsame.1 hsame.2
          (hclass record List.mem_cons_self hsame)
        have hunlinked := h.unlinks receivedAtMs hsame.1 hsame.2 hfirst
        rw [if_pos hsame.1, List.filter_cons_of_pos (by simpa using hsame), toldOnce, survives]
        cases hdiscard : isDiscard record with
        | true =>
            have hdiscards :
                discards (normalizeRecord receivedAtMs maps record).2 goal.seq = true := by
              simp [discards, hkind, hdiscard, hreverses, hgoal]
            rw [if_pos hdiscards, if_pos rfl]
        | false =>
            have hdiscards :
                discards (normalizeRecord receivedAtMs maps record).2 goal.seq = false := by
              simp [discards, hkind, hdiscard]
            rw [hdiscards, if_neg Bool.false_ne_true, if_neg Bool.false_ne_true,
              survives_of_unlinked receivedAtMs hunlinked hlater (by rw [seq_amended, hgoal]),
              amended_of_linked receivedAtMs (by simp [hkind, hdiscard]) (by rw [hreverses, hgoal])]
      · obtain ⟨hother, hnext⟩ := h.other receivedAtMs hsame hfirst
        have hrest := ih hnext hlater fun r hr => hclass r (List.mem_cons_of_mem _ hr)
        rw [List.filter_cons_of_neg (by simpa using hsame)]
        split
        · rw [survives_cons_of_ne (by rw [hgoal]; exact hother)]
          exact hrest
        · exact hrest

end Chain

/-- The goal as its own record has it. -/
def goalOf (goal : FedRecord) : StandingGoal where
  seq := goal.2.seq
  participant := statedSide goal.1
  playerNormativeId := statedScorer goal.1
  ownGoal := statedGoalType goal.1 = some .ownGoal
  phase := goal.2.phase

/-- A confirmed goal record gives its goal, any other record none. -/
theorem scored_normalizeRecord (receivedAtMs : Int) (maps : FeedMaps) {record : ScoresRecord}
    (hconfirmed : isGoalRecord record = true → record.confirmed = some true) :
    scored (normalizeRecord receivedAtMs maps record).2 =
      if isGoalRecord record then [goalOf (record, (normalizeRecord receivedAtMs maps record).2)]
      else [] := by
  by_cases hgoal : isGoalRecord record = true
  · have hkind := (kind_normalizeRecord_goal_iff receivedAtMs maps record).mpr hgoal
    have hconf : (normalizeRecord receivedAtMs maps record).2.confirmed = true := by
      show (if (normalizeRecord receivedAtMs maps record).2.kind = .goal then _ else _) = true
      rw [if_pos hkind, hconfirmed hgoal]
      rfl
    rw [scored, if_pos ⟨hkind, hconf⟩, if_pos hgoal, StandingGoal.ofEvent, goalOf,
      participant_normalizeRecord, goalType_normalizeRecord, playerNormativeId_normalizeRecord]
  · have hkind : (normalizeRecord receivedAtMs maps record).2.kind ≠ .goal :=
      fun h => hgoal ((kind_normalizeRecord_goal_iff receivedAtMs maps record).mp h)
    rw [scored, if_neg fun h => hkind h.1, if_neg hgoal]

/-- The standing goals of the fixture's events, record by record. -/
theorem standing_eventsOf {fixtureId : Nat} (receivedAtMs : Int)
    (hfeed : GoalFeed fixtureId records) {maps : FeedMaps}
    (hfresh : ∀ r ∈ records, Unlinked maps r.seq) :
    standing (eventsOf fixtureId (normalizeAll receivedAtMs maps records)) =
      goalsBy (fun goal => toldOnce (goalOf goal)) fixtureId
        (deliver receivedAtMs maps records) := by
  induction records generalizing maps with
  | nil => rfl
  | cons record records ih =>
      have hlater : ∀ r ∈ records, r.seq ≠ record.seq := fun r hr =>
        ((List.pairwise_cons.mp hfeed.ordered).1 r hr).ne'
      have hrest := ih hfeed.tail fun r hr =>
        (hfresh r (List.mem_cons_of_mem _ hr)).next receivedAtMs (hlater r hr).symm
      rw [eventsOf_normalizeAll_cons, deliver, goalsBy, ← hrest, map_fst_deliver]
      by_cases hfixture : record.fixtureId = fixtureId
      · have hgoals := hfeed.goals [] record records rfl hfixture
        rw [if_pos hfixture, standing,
          scored_normalizeRecord receivedAtMs maps fun hgoal => (hgoals hgoal).2.1]
        congr 1
        by_cases hgoal : isGoalRecord record = true
        · obtain ⟨hid, hconfirmed, -, hchain, -⟩ := hgoals hgoal
          obtain ⟨id, hid⟩ := Option.isSome_iff_exists.mp hid
          have hsame : chainOf record records =
              records.filter fun r => r.fixtureId = fixtureId ∧ r.id = some id := by
            rw [← hid, ← hfixture]
            rfl
          have hlinked : Linked (normalizeRecord receivedAtMs maps record).1 fixtureId id
              record.seq := by
            have hkey : record.id.map (record.fixtureId, ·) = some (fixtureId, id) := by
              rw [hid, hfixture]
              rfl
            refine ⟨?_, ⟨.goal, by decide, ?_⟩, fun key hlookup => ?_⟩
            · rw [seqByEventId_normalizeRecord, if_pos hkey]
            · rw [kindByEventId_normalizeRecord, if_pos hkey,
                (kind_normalizeRecord_goal_iff receivedAtMs maps record).mpr hgoal]
            · rw [seqByEventId_normalizeRecord, hkey] at hlookup
              split at hlookup
              · next heq => exact (Option.some.inj heq).symm
              · exact absurd hlookup (hfresh record List.mem_cons_self key)
          have hclass : ∀ r ∈ records, r.fixtureId = fixtureId ∧ r.id = some id →
              classifyAction r.action ≠ .new := fun r hr hr' =>
            hchain r (by rw [hsame]; exact List.mem_filter.mpr ⟨hr, by simpa using hr'⟩)
          have hseq : (goalOf (record, (normalizeRecord receivedAtMs maps record).2)).seq =
              record.seq := rfl
          have hsurvives := survives_of_linked receivedAtMs hlinked hlater hclass hseq
          rw [if_pos hgoal, if_pos ⟨hfixture, hgoal⟩, hsame, List.filterMap_cons, hsurvives]
          cases toldOnce _ _ <;> rfl
        · rw [if_neg hgoal, if_neg fun h => hgoal h.2]
          rfl
      · rw [if_neg hfixture, if_neg fun h => hfixture h.1]
        rfl

/-! ## when the two agree -/

/-- An entry keeps the sequence number of its goal. -/
def KeepsSeq (entry : FedRecord → List ScoresRecord → Option StandingGoal) : Prop :=
  ∀ x chain, ∀ g ∈ entry x chain, g.seq = x.2.seq

theorem keepsSeq_statedGoal : KeepsSeq statedGoal := by
  rintro x chain g hg
  unfold statedGoal at hg
  split at hg
  · cases hg
  · rw [← Option.some.inj hg]

theorem keepsSeq_toldOnce : KeepsSeq fun goal => toldOnce (goalOf goal) := by
  rintro x (_ | ⟨first, rest⟩) g hg
  · rw [← Option.some.inj hg]
    rfl
  · replace hg : g ∈ toldOnce (goalOf x) (first :: rest) := hg
    rw [toldOnce] at hg
    split at hg
    · cases hg
    · rw [← Option.some.inj hg]
      rfl

theorem seq_of_mem_goalsBy {fixtureId : Nat}
    {entry : FedRecord → List ScoresRecord → Option StandingGoal} (h : KeepsSeq entry)
    {feed : List FedRecord} {g : StandingGoal} (hg : g ∈ goalsBy entry fixtureId feed) :
    ∃ x ∈ feed, g.seq = x.2.seq := by
  induction feed with
  | nil => cases hg
  | cons x later ih =>
      rw [goalsBy, List.mem_append] at hg
      rcases hg with hg | hg
      · split at hg
        · exact ⟨x, List.mem_cons_self, h x _ g (Option.mem_toList.mp hg)⟩
        · cases hg
      · obtain ⟨y, hy, hseq⟩ := ih hg
        exact ⟨y, List.mem_cons_of_mem _ hy, hseq⟩

/-- Two lists that start with the entries of one sequence number, if any. -/
theorem append_inj_of_seq {n : Nat} {as bs later later' : List StandingGoal}
    (ha : ∀ g ∈ as, g.seq = n) (hb : ∀ g ∈ bs, g.seq = n)
    (hlater : ∀ g ∈ later, g.seq ≠ n) (hlater' : ∀ g ∈ later', g.seq ≠ n) :
    as ++ later = bs ++ later' ↔ as = bs ∧ later = later' := by
  refine ⟨fun h => ?_, fun ⟨h, h'⟩ => by rw [h, h']⟩
  have hkept : ∀ {xs ys : List StandingGoal}, (∀ g ∈ xs, g.seq = n) → (∀ g ∈ ys, g.seq ≠ n) →
      (xs ++ ys).filter (·.seq = n) = xs := fun {xs ys} hx hy => by
    rw [List.filter_append, List.filter_eq_self.mpr fun g hg => by simpa using hx g hg,
      List.filter_eq_nil_iff.mpr fun g hg => by simpa using hy g hg, List.append_nil]
  have hsame : as = bs := by
    rw [← hkept ha hlater, h, hkept hb hlater']
  subst hsame
  exact ⟨rfl, List.append_cancel_left h⟩

/-- The lists are equal exactly when they are equal goal by goal. -/
theorem goalsBy_eq_iff {fixtureId : Nat}
    {a b : FedRecord → List ScoresRecord → Option StandingGoal} (ha : KeepsSeq a)
    (hb : KeepsSeq b) {feed : List FedRecord} (hordered : feed.Pairwise (·.2.seq < ·.2.seq)) :
    goalsBy a fixtureId feed = goalsBy b fixtureId feed ↔
      ∀ before x later, feed = before ++ x :: later → x.1.fixtureId = fixtureId →
        isGoalRecord x.1 = true →
          a x (chainOf x.1 (later.map Prod.fst)) = b x (chainOf x.1 (later.map Prod.fst)) := by
  induction feed with
  | nil => simp [goalsBy]
  | cons x later ih =>
      obtain ⟨hfirst, hrest⟩ := List.pairwise_cons.mp hordered
      have hne : ∀ {entry}, KeepsSeq entry → ∀ g ∈ goalsBy entry fixtureId later,
          g.seq ≠ x.2.seq := fun hentry g hg => by
        obtain ⟨y, hy, hseq⟩ := seq_of_mem_goalsBy hentry hg
        rw [hseq]
        exact (hfirst y hy).ne'
      have hown : ∀ {entry}, KeepsSeq entry →
          ∀ g ∈ (if x.1.fixtureId = fixtureId ∧ isGoalRecord x.1 then
            (entry x (chainOf x.1 (later.map Prod.fst))).toList else []), g.seq = x.2.seq :=
        fun hentry g hg => by
          split at hg
          · exact hentry x _ g (Option.mem_toList.mp hg)
          · cases hg
      rw [goalsBy, goalsBy, append_inj_of_seq (hown ha) (hown hb) (hne ha) (hne hb), ih hrest]
      constructor
      · rintro ⟨hx, hall⟩ before y after hsplit hfixture hgoal
        cases before with
        | nil =>
            obtain ⟨rfl, rfl⟩ := List.cons.inj hsplit
            rw [if_pos ⟨hfixture, hgoal⟩, if_pos ⟨hfixture, hgoal⟩] at hx
            simpa using congrArg List.head? hx
        | cons z before =>
            obtain ⟨rfl, rfl⟩ := List.cons.inj hsplit
            exact hall before y after rfl hfixture hgoal
      · intro hall
        refine ⟨?_, fun before y after hsplit => hall (x :: before) y after (by rw [hsplit]; rfl)⟩
        split
        · next h => rw [hall [] x later rfl h.1 h.2]
        · rfl

/-- The first later record of the number, if there is one, discards the goal, or no
record discards it and the first one alone states what all of them together do. -/
def Reaches (goal : ScoresRecord) : List ScoresRecord → Prop
  | [] => True
  | first :: rest =>
      isDiscard first = true ∨
        (first :: rest).any isDiscard = false ∧
          lastStated statedSide (goal :: first :: rest) = (statedSide first <|> statedSide goal) ∧
          lastStated statedScorer (goal :: first :: rest) = statedScorer first ∧
          (lastStated statedGoalType (goal :: first :: rest) = some .ownGoal ↔
            statedGoalType first = some .ownGoal)

instance (goal : ScoresRecord) : (chain : List ScoresRecord) → Decidable (Reaches goal chain)
  | [] => .isTrue trivial
  | first :: rest =>
      inferInstanceAs (Decidable (isDiscard first = true ∨
        (first :: rest).any isDiscard = false ∧
          lastStated statedSide (goal :: first :: rest) = (statedSide first <|> statedSide goal) ∧
          lastStated statedScorer (goal :: first :: rest) = statedScorer first ∧
          (lastStated statedGoalType (goal :: first :: rest) = some .ownGoal ↔
            statedGoalType first = some .ownGoal)))

theorem lastStated_single {α : Type} (field : ScoresRecord → Option α) (record : ScoresRecord) :
    lastStated field [record] = field record := by
  unfold lastStated
  cases h : field record <;> simp [h]

theorem toldOnce_eq_statedGoal_iff (goal : FedRecord) (chain : List ScoresRecord) :
    toldOnce (goalOf goal) chain = statedGoal goal chain ↔ Reaches goal.1 chain := by
  cases chain with
  | nil => simp [toldOnce, statedGoal, Reaches, goalOf, lastStated_single]
  | cons first rest =>
      cases hfirst : isDiscard first with
      | true => simp [toldOnce, statedGoal, Reaches, hfirst]
      | false =>
          simp only [toldOnce, statedGoal, Reaches, hfirst, Bool.false_eq_true, if_false,
            false_or]
          cases hany : (first :: rest).any isDiscard with
          | true => simp
          | false =>
              simp only [Bool.false_eq_true, if_false, Option.some.injEq, goalOf,
                StandingGoal.mk.injEq, true_and, and_true]
              constructor
              · rintro ⟨hside, hscorer, hown⟩
                exact ⟨hside.symm, hscorer.symm, (decide_eq_decide.mp hown).symm⟩
              · rintro ⟨hside, hscorer, hown⟩
                exact ⟨hside.symm, hscorer.symm, decide_eq_decide.mpr hown.symm⟩

/-! ## the reducer's ledger -/

/-- Other fixtures' events pass a market by. -/
theorem reduceAll_eventsOf (state : MarketState) (events : List MatchEvent) :
    reduceAll state (eventsOf state.spec.fixtureId events) = reduceAll state events ∧
      trackedEvents state (eventsOf state.spec.fixtureId events) = trackedEvents state events := by
  induction events generalizing state with
  | nil => exact ⟨rfl, rfl⟩
  | cons event events ih =>
      have hrun : ∀ rest, reduceAll state (event :: rest) =
          reduceAll (reduceMarket state event).state rest := fun _ => rfl
      rw [eventsOf, List.filter_cons]
      split
      · obtain ⟨hreduce, htracked⟩ := ih (reduceMarket state event).state
        rw [fixtureId_reduceMarket] at hreduce htracked
        rw [hrun, hrun, trackedEvents, trackedEvents]
        exact ⟨hreduce, by rw [← htracked]; rfl⟩
      · next hforeign =>
        have hignored : ignored state event = true := by
          unfold ignored
          simp_all
        have hstaged : ¬ Staged state event := fun h => by
          rw [h.taken] at hignored
          cases hignored
        have hsame : (reduceMarket state event).state = state := by
          rw [reduceMarket_of_ignored hignored]
        rw [hrun, trackedEvents, if_neg hstaged, hsame]
        exact ih state

/-- A market that is live at the end of the feed and has tracked the goals of its
fixture: it was open before the first of them. -/
structure Follows (row : MarketState) (events : List MatchEvent) : Prop where
  live : (reduceAll row events).status.isTerminal = false
  goals : ∀ event ∈ eventsOf row.spec.fixtureId events, event.kind = .goal →
    event ∈ trackedEvents row events

theorem Follows.standing_eq {row : MarketState} {events : List MatchEvent}
    (h : Follows row events) (hordered : events.Pairwise (·.seq < ·.seq))
    (hscore : ∀ event ∈ events, event.kind ≠ .oddsSuspension) :
    standing (trackedEvents row events) = standing (eventsOf row.spec.fixtureId events) ∧
      ((trackedEvents row events).map (·.seq)).Nodup := by
  have hstream : ScoreStream row.spec.fixtureId (eventsOf row.spec.fixtureId events) :=
    ⟨List.isChain_iff_pairwise.mpr (hordered.sublist List.filter_sublist),
      fun event hevent => by simpa using (List.mem_filter.mp hevent).2,
      fun event hevent => hscore event (List.mem_filter.mp hevent).1⟩
  obtain ⟨hreduce, htracked⟩ := reduceAll_eventsOf row events
  have hlive := h.live
  rw [← hreduce] at hlive
  obtain ⟨untracked, hsplit⟩ := exists_untracked hstream hlive
  rw [htracked] at hsplit
  have hnodup := hstream.nodup
  rw [hsplit, List.map_append] at hnodup
  have hnone : standing untracked = [] := by
    refine List.eq_nil_iff_forall_not_mem.mpr fun goal hgoal => ?_
    obtain ⟨before, event, after, rfl, hkind, -⟩ := mem_standing_iff.mp hgoal
    have hmem : event ∈ trackedEvents row events :=
      h.goals event (by rw [hsplit]; simp) hkind.1
    exact (List.nodup_append.mp hnodup).2.2 event.seq
      (List.mem_map_of_mem (by simp)) event.seq (List.mem_map_of_mem hmem) rfl
  refine ⟨?_, (List.nodup_append.mp hnodup).2.1⟩
  rw [hsplit, standing_append, hnone]
  rfl

/-- The goals of a market, the tally of its player and every list of evidence are
those of the feed. -/
structure MatchesFeed (state : MarketState) (feed : List FedRecord) : Prop where
  goals : (scratchOf state).goals = feedGoals state.spec.fixtureId feed
  playerGoals : playerGoalCount (scratchOf state) state.spec =
    playerGoalCount { scratchOf state with goals := feedGoals state.spec.fixtureId feed } state.spec
  evidence : ∀ decidingSeq, buildEvidence (scratchOf state) state.spec decidingSeq =
    buildEvidence { scratchOf state with goals := feedGoals state.spec.fixtureId feed } state.spec
      decidingSeq

theorem matchesFeed_iff (state : MarketState) (feed : List FedRecord) :
    MatchesFeed state feed ↔ (scratchOf state).goals = feedGoals state.spec.fixtureId feed := by
  refine ⟨fun h => h.goals, fun h => ⟨h, ?_, fun _ => ?_⟩⟩ <;> rw [← h]

/-- The reducer's standing goals are those of the feed exactly when each goal is
reached by all that its records say. -/
theorem goals_match_feed_iff {row : MarketState} (hrow : Fresh row) (receivedAtMs : Int)
    {maps : FeedMaps} (hmaps : maps.seqByEventId = ∅) {records : List ScoresRecord}
    (hfeed : GoalFeed row.spec.fixtureId records)
    (hfollows : Follows row (normalizeScores maps receivedAtMs records)) :
    MatchesFeed (reduceAll row (normalizeScores maps receivedAtMs records))
        (deliver receivedAtMs maps records) ↔
      ∀ before goal after, records = before ++ goal :: after →
        goal.fixtureId = row.spec.fixtureId → isGoalRecord goal = true →
          Reaches goal (chainOf goal after) := by
  have hevents : normalizeScores maps receivedAtMs records =
      normalizeAll receivedAtMs maps records := by
    rw [normalizeScores_of_ordered hfeed.ordered, map_snd_deliver]
  rw [hevents] at hfollows ⊢
  have hordered : (normalizeAll receivedAtMs maps records).Pairwise (·.seq < ·.seq) := by
    rw [← List.pairwise_map (f := MatchEvent.seq), seq_normalizeAll, List.pairwise_map]
    exact hfeed.ordered
  have hdelivered : (deliver receivedAtMs maps records).Pairwise (·.2.seq < ·.2.seq) := by
    rw [← map_snd_deliver, List.pairwise_map] at hordered
    exact hordered
  obtain ⟨hstanding, hnodup⟩ :=
    hfollows.standing_eq hordered fun _ hevent => kind_of_mem_normalizeAll hevent
  have hfixture : (reduceAll row (normalizeAll receivedAtMs maps records)).spec.fixtureId =
      row.spec.fixtureId := by
    obtain ⟨participant, hclaim⟩ := sameClaim_reduceAll row (normalizeAll receivedAtMs maps records)
    rw [hclaim]
  have hunlinked : ∀ r ∈ records, Unlinked maps r.seq := fun r _ key => by
    rw [hmaps]
    simp
  rw [matchesFeed_iff, hfixture, goals_of_fresh hrow hnodup, hstanding,
    standing_eventsOf receivedAtMs hfeed hunlinked, feedGoals,
    goalsBy_eq_iff keepsSeq_toldOnce keepsSeq_statedGoal hdelivered]
  simp only [toldOnce_eq_statedGoal_iff]
  constructor
  · rintro hall before goal after hsplit
    rw [← map_fst_deliver receivedAtMs maps records] at hsplit
    obtain ⟨before', rest, hfeedSplit, rfl, hrest⟩ := List.map_eq_append_iff.mp hsplit
    obtain ⟨x, after', rfl, rfl, rfl⟩ := List.map_eq_cons_iff.mp hrest
    exact hall before' x after' hfeedSplit
  · rintro hall before x later hsplit
    refine hall (before.map Prod.fst) x.1 (later.map Prod.fst) ?_
    rw [← map_fst_deliver receivedAtMs maps records, hsplit, List.map_append, List.map_cons]

/-! ## one goal and its amendments -/

namespace Sample

/-- A player of the home side scores twice. -/
def playerTwice : MarketState :=
  market
    { twoGoals with
      claimType := .playerScoresN
      entityRef := .player 7 "player" (some .one)
      period := .ft } []

/-- What a record states of a goal. -/
def goalData (goal : Option Bool) (scorer side : Option Nat) : Txline.SoccerData where
  action := none
  goal
  goalType := .other
  minutes := none
  participant := side
  penalty := none
  playerId := scorer
  statusId := none
  type := none
  redCard := none
  yellowCard := none
  var := none
  new := none
  previous := none

/-- The goal of player 7, with its number. -/
def playerGoal (seq id : Nat) : ScoresRecord :=
  { statsRecord seq with
    action := "goal"
    id := some id
    confirmed := some true
    data := some (goalData (some true) (some 7) (some 1)) }

/-- A later record with the number of a goal. -/
def later (action : String) (seq id : Nat) (data : Txline.SoccerData) : ScoresRecord :=
  { statsRecord seq with action, id := some id, data := some data }

/-- An amendment that says again who scored. -/
def restated : List ScoresRecord :=
  [playerGoal 1 5, later "amend" 2 5 (goalData none (some 7) none)]

/-- An amendment with no data. -/
def unstated : List ScoresRecord := [playerGoal 1 5, later "amend" 2 5 (goalData none none none)]

/-- An amended goal that is discarded. -/
def discardedLate : List ScoresRecord := restated ++ [later "discard" 3 5 (goalData none none none)]

end Sample

private theorem fresh_playerTwice : Fresh Sample.playerTwice := ⟨rfl, rfl, .inl (by decide)⟩

/-- In a feed about one goal there is one way to choose a goal record. -/
private theorem forall_goal_of_one {goal : ScoresRecord} {later : List ScoresRecord}
    (hlater : later.all (!isGoalRecord ·) = true)
    {P : List ScoresRecord → ScoresRecord → List ScoresRecord → Prop} (h : P [] goal later)
    (before : List ScoresRecord) (x : ScoresRecord) (after : List ScoresRecord)
    (hsplit : goal :: later = before ++ x :: after) (hgoal : isGoalRecord x = true) :
    P before x after := by
  cases before with
  | nil =>
      obtain ⟨rfl, rfl⟩ := List.cons.inj hsplit
      exact h
  | cons first before =>
      obtain ⟨rfl, rfl⟩ := List.cons.inj hsplit
      have hnone := List.all_eq_true.mp hlater x (by simp)
      rw [hgoal] at hnone
      cases hnone

private theorem goalFeed_of_one {fixtureId : Nat} {goal : ScoresRecord}
    {later : List ScoresRecord} (hordered : (goal :: later).Pairwise (·.seq < ·.seq))
    (hid : goal.id.isSome = true) (hconfirmed : goal.confirmed = some true)
    (hlater : later.all (!isGoalRecord ·) = true)
    (hchain : (chainOf goal later).all (classifyAction ·.action ≠ .new) = true)
    (hdiscards : ((chainOf goal later).filter isDiscard).length ≤ 1) :
    GoalFeed fixtureId (goal :: later) := by
  refine ⟨hordered, fun before x after hsplit _ hgoal => ?_⟩
  refine forall_goal_of_one hlater (P := fun before x after => x.id.isSome = true ∧
    x.confirmed = some true ∧ (∀ r ∈ before, sameNumber x r = false) ∧
      (∀ r ∈ chainOf x after, classifyAction r.action ≠ .new) ∧
        ((chainOf x after).filter isDiscard).length ≤ 1) ?_ before x after hsplit hgoal
  refine ⟨hid, hconfirmed, by simp, fun r hr => ?_, hdiscards⟩
  simpa using List.all_eq_true.mp hchain r hr

private theorem follows_of_ordered (hordered : records.Pairwise (·.seq < ·.seq))
    (hlive : (reduceAll Sample.playerTwice
      (normalizeAll 0 Sample.noMaps records)).status.isTerminal = false)
    (htracked : trackedEvents Sample.playerTwice (normalizeAll 0 Sample.noMaps records) =
      normalizeAll 0 Sample.noMaps records) :
    Follows Sample.playerTwice (normalizeScores Sample.noMaps 0 records) := by
  rw [normalizeScores_of_ordered hordered, map_snd_deliver]
  refine ⟨hlive, fun event hevent _ => ?_⟩
  rw [htracked]
  exact (List.mem_filter.mp hevent).1

/-- A goal whose amendment repeats the scorer stands as the feed has it. -/
theorem restated_goal_matches :
    MatchesFeed (reduceAll Sample.playerTwice (normalizeScores Sample.noMaps 0 Sample.restated))
      (deliver 0 Sample.noMaps Sample.restated) := by
  have hordered : Sample.restated.Pairwise (·.seq < ·.seq) := by decide
  refine (goals_match_feed_iff fresh_playerTwice 0 rfl
    (goalFeed_of_one hordered rfl rfl (by decide +kernel) (by decide +kernel) (by decide +kernel))
    (follows_of_ordered hordered (by decide +kernel) (by decide +kernel))).mpr ?_
  exact fun before x after hsplit _ hgoal =>
    forall_goal_of_one (by decide +kernel) (P := fun _ x after => Reaches x (chainOf x after))
      (by decide +kernel) before x after hsplit hgoal

/-- An amendment that leaves the scorer out takes the goal from the player, and a
discard after an amendment leaves the goal standing. -/
theorem amended_goals_differ :
    (GoalFeed 17 Sample.unstated ∧
      Follows Sample.playerTwice (normalizeScores Sample.noMaps 0 Sample.unstated) ∧
      ¬ MatchesFeed
        (reduceAll Sample.playerTwice (normalizeScores Sample.noMaps 0 Sample.unstated))
        (deliver 0 Sample.noMaps Sample.unstated)) ∧
    GoalFeed 17 Sample.discardedLate ∧
      Follows Sample.playerTwice (normalizeScores Sample.noMaps 0 Sample.discardedLate) ∧
      ¬ MatchesFeed
        (reduceAll Sample.playerTwice (normalizeScores Sample.noMaps 0 Sample.discardedLate))
        (deliver 0 Sample.noMaps Sample.discardedLate) := by
  have hunstated : Sample.unstated.Pairwise (·.seq < ·.seq) := by decide
  have hlate : Sample.discardedLate.Pairwise (·.seq < ·.seq) := by decide
  refine ⟨⟨?_, follows_of_ordered hunstated (by decide +kernel) (by decide +kernel), ?_⟩, ?_,
    follows_of_ordered hlate (by decide +kernel) (by decide +kernel), ?_⟩
  · exact goalFeed_of_one hunstated rfl rfl (by decide +kernel) (by decide +kernel)
      (by decide +kernel)
  · rw [matchesFeed_iff, normalizeScores_of_ordered hunstated]
    decide +kernel
  · exact goalFeed_of_one hlate rfl rfl (by decide +kernel) (by decide +kernel)
      (by decide +kernel)
  · rw [matchesFeed_iff, normalizeScores_of_ordered hlate]
    decide +kernel

end CalledIt.Engine
