import CalledIt.Lib.Transducer
import CalledIt.Txline.History

/-!
# CalledIt.Txline.LiveSource

How the engine gets its events (`txline/src/live-source.ts`, `createLiveSource` of
`engine/src/wiring.ts`).

The stream normalizes one record a frame with the maps of the source; a gap fill
normalizes the records of a snapshot one by one, each with maps of its own; both
share the kinds of the process.  Whatever comes first for a sequence number is the
event of the settler, later ones are duplicates.  `live_events_iff` says when the
events of a run are those of one call on the whole feed.
-/

namespace CalledIt.Txline

open Lib
open Engine (MatchEvent)

/-! ## the live path -/

/-- The maps of the source, with the kinds of the process, and the keys of the stored
feed events. -/
structure LiveState where
  maps : FeedMaps
  feedEvents : List (Nat × Nat)

/-- A frame of the stream comes in any order, which covers every resume from a cursor.
Gap fills are taken record by record. -/
inductive LiveInput
  | frame (record : ScoresRecord) (receivedAtMs : Int)
  | gapFill (record : ScoresRecord) (receivedAtMs : Int)
  | snapshot (records : List ScoresRecord)
  | restart

/-- A record that is delivered, with the maps of the call that normalizes it. -/
def LiveInput.delivery (maps : FeedMaps) : LiveInput → Option (ScoresRecord × Int × FeedMaps)
  | frame record receivedAtMs => some (record, receivedAtMs, maps)
  | gapFill record receivedAtMs => some (record, receivedAtMs, ownMaps maps.kindByEventId)
  | snapshot _ => none
  | restart => none

def LiveInput.mapsAfter (maps : FeedMaps) : LiveInput → FeedMaps
  | frame record receivedAtMs => (normalizeRecord receivedAtMs maps record).1
  | gapFill record receivedAtMs =>
      { maps with
        kindByEventId :=
          (normalizeRecord receivedAtMs (ownMaps maps.kindByEventId) record).1.kindByEventId }
  | snapshot records =>
      { maps with
        kindByEventId :=
          (Txline.mapsAfter (ownMaps maps.kindByEventId) (inOrder records)).kindByEventId }
  | restart => ownMaps ∅

/-- One input, with the event that is handed to the markets, if there is one. -/
def liveStep (state : LiveState) (input : LiveInput) : LiveState × List MatchEvent :=
  let maps := input.mapsAfter state.maps
  match input.delivery state.maps with
  | none => ({ state with maps }, [])
  | some (record, receivedAtMs, used) =>
      let key := (record.fixtureId, record.seq)
      if key ∈ state.feedEvents then ({ state with maps }, [])
      else
        ({ maps, feedEvents := key :: state.feedEvents },
          [(normalizeRecord receivedAtMs used record).2])

/-! ## what the feed means -/

/-- The maps of a new process that has read what comes before in the feed. -/
def mapsBefore (feed : List ScoresRecord) (record : ScoresRecord) : FeedMaps :=
  mapsAfter (ownMaps ∅) (feed.filter (·.seq < record.seq))

/-- The event is the one that a new process gives its sequence number. -/
def AsNormalized (feed : List ScoresRecord) (event : MatchEvent) : Prop :=
  ∃ normalized ∈ normalizeScores (ownMaps ∅) 0 feed,
    normalized.seq = event.seq ∧ withoutReceipt event = withoutReceipt normalized

/-- A record that is delivered for the first time finds in the maps of its call what it
leaves out, as the records before it in the feed have it. -/
def Informed (feed : List ScoresRecord) (state : LiveState) (input : LiveInput) : Prop :=
  ∀ record receivedAtMs used, input.delivery state.maps = some (record, receivedAtMs, used) →
    (record.fixtureId, record.seq) ∉ state.feedEvents →
      SameContext used (mapsBefore feed record) record

/-- The inputs deliver records of the feed. -/
def DeliversFrom (feed : List ScoresRecord) (input : LiveInput) : Prop :=
  ∀ maps record receivedAtMs used, input.delivery maps = some (record, receivedAtMs, used) →
    record ∈ feed

variable {record : ScoresRecord}

theorem mapsBefore_of_split {before after : List ScoresRecord}
    (hordered : (before ++ record :: after).Pairwise (·.seq < ·.seq)) :
    mapsBefore (before ++ record :: after) record = mapsAfter (ownMaps ∅) before := by
  obtain ⟨-, hrest, hcross⟩ := List.pairwise_append.mp hordered
  have hall : before.filter (·.seq < record.seq) = before :=
    List.filter_eq_self.mpr fun r hr => by
      simpa using hcross r hr record List.mem_cons_self
  have hnone : after.filter (·.seq < record.seq) = [] :=
    List.filter_eq_nil_iff.mpr fun r hr => by
      simpa using ((List.pairwise_cons.mp hrest).1 r hr).le
  simp [mapsBefore, hall, hnone]

/-- The event of a record in one call on the feed. -/
theorem mem_normalizeScores_iff {feed : List ScoresRecord}
    (hordered : feed.Pairwise (·.seq < ·.seq)) (hmem : record ∈ feed) (receivedAtMs : Int)
    (event : MatchEvent) :
    (event ∈ normalizeScores (ownMaps ∅) receivedAtMs feed ∧ event.seq = record.seq) ↔
      event = (normalizeRecord receivedAtMs (mapsBefore feed record) record).2 := by
  obtain ⟨before, after, rfl⟩ := List.append_of_mem hmem
  obtain ⟨-, hrest, hcross⟩ := List.pairwise_append.mp hordered
  have hafter := (List.pairwise_cons.mp hrest).1
  have hsorted : normalizeScores (ownMaps ∅) receivedAtMs (before ++ record :: after) =
      normalizeAll receivedAtMs (ownMaps ∅) (before ++ record :: after) := by
    rw [normalizeScores, List.mergeSort_of_pairwise]
    exact hordered.imp fun hlt => by simpa using hlt.le
  have hseq : ∀ {maps records}, event ∈ normalizeAll receivedAtMs maps records →
      event.seq ∈ records.map (·.seq) := fun h => by
    rw [← seq_normalizeAll receivedAtMs]
    exact List.mem_map_of_mem h
  rw [mapsBefore_of_split hordered, hsorted, normalizeAll_append, normalizeAll, List.mem_append,
    List.mem_cons]
  constructor
  · rintro ⟨hin | rfl | hin, heq⟩
    · obtain ⟨r, hr, hrseq⟩ := List.mem_map.mp (hseq hin)
      have hlt := hcross r hr record List.mem_cons_self
      omega
    · rfl
    · obtain ⟨r, hr, hrseq⟩ := List.mem_map.mp (hseq hin)
      have hlt := hafter r hr
      omega
  · rintro rfl
    exact ⟨.inr (.inl rfl), rfl⟩

/-! ## every run -/

section Runs

variable {feed : List ScoresRecord}

theorem asNormalized_iff (hordered : feed.Pairwise (·.seq < ·.seq)) (hmem : record ∈ feed)
    (receivedAtMs : Int) (used : FeedMaps) :
    AsNormalized feed (normalizeRecord receivedAtMs used record).2 ↔
      SameContext used (mapsBefore feed record) record := by
  rw [← withoutReceipt_eq_iff receivedAtMs 0]
  constructor
  · rintro ⟨normalized, hin, hseq, heq⟩
    rw [heq, (mem_normalizeScores_iff hordered hmem 0 normalized).mp ⟨hin, hseq⟩]
  · intro heq
    obtain ⟨hin, hseq⟩ := (mem_normalizeScores_iff hordered hmem 0 _).mpr rfl
    exact ⟨_, hin, rfl, heq⟩

/-- A step hands over the right event exactly when it is informed. -/
theorem liveStep_iff (hordered : feed.Pairwise (·.seq < ·.seq)) (state : LiveState)
    {input : LiveInput} (hfrom : DeliversFrom feed input) :
    (∀ event ∈ (liveStep state input).2, AsNormalized feed event) ↔ Informed feed state input := by
  cases hdelivery : input.delivery state.maps with
  | none => simp [liveStep, Informed, hdelivery]
  | some delivery =>
      obtain ⟨record, receivedAtMs, used⟩ := delivery
      have hmem := hfrom state.maps record receivedAtMs used hdelivery
      simp only [liveStep, Informed, hdelivery, Option.some.injEq, Prod.mk.injEq]
      by_cases hstored : (record.fixtureId, record.seq) ∈ state.feedEvents
      · rw [if_pos hstored]
        refine iff_of_true (by simp) ?_
        rintro _ _ _ ⟨rfl, rfl, rfl⟩ hnew
        exact absurd hstored hnew
      · rw [if_neg hstored]
        simp only [List.mem_singleton, forall_eq, asNormalized_iff hordered hmem]
        constructor
        · rintro h _ _ _ ⟨rfl, rfl, rfl⟩ -
          exact h
        · exact fun h => h record receivedAtMs used ⟨rfl, rfl, rfl⟩ hstored

/-- Whatever frames, gap fills, other snapshot reads and restarts deliver the feed: the
events handed to the markets are those of one call on the whole feed in a new process
exactly when every first delivery of a record is informed. -/
theorem live_events_iff (hordered : feed.Pairwise (·.seq < ·.seq)) (state : LiveState)
    {inputs : List LiveInput} (hfrom : ∀ input ∈ inputs, DeliversFrom feed input) :
    (∀ event ∈ (execute liveStep state inputs).2, AsNormalized feed event) ↔
      Along liveStep (Informed feed) state inputs := by
  induction inputs generalizing state with
  | nil => simp [Along]
  | cons input inputs ih =>
      have hfirst := liveStep_iff hordered state (hfrom input List.mem_cons_self)
      have hrest := ih (liveStep state input).1 fun i hi => hfrom i (List.mem_cons_of_mem _ hi)
      rw [execute_cons, Along, ← hfirst, ← hrest]
      simp only [List.mem_append]
      exact ⟨fun h => ⟨fun e he => h e (.inl he), fun e he => h e (.inr he)⟩,
        fun h e he => he.elim (h.1 e) (h.2 e)⟩

theorem maps_liveStep (state : LiveState) (input : LiveInput) :
    (liveStep state input).1.maps = input.mapsAfter state.maps := by
  unfold liveStep
  dsimp only
  split
  · rfl
  · split <;> rfl

/-- Frames in the order of the feed, from where the source has got to, are informed. -/
theorem informed_of_unbroken (hordered : feed.Pairwise (·.seq < ·.seq)) (receivedAtMs : Int)
    {done rest : List ScoresRecord} (hsplit : feed = done ++ rest) {state : LiveState}
    (hmaps : state.maps = mapsAfter (ownMaps ∅) done) :
    Along liveStep (Informed feed) state (rest.map (.frame · receivedAtMs)) := by
  induction rest generalizing done state with
  | nil => trivial
  | cons record rest ih =>
      have hnext : (liveStep state (.frame record receivedAtMs)).1.maps =
          mapsAfter (ownMaps ∅) (done ++ [record]) := by
        rw [maps_liveStep, hmaps, mapsAfter_append]
        rfl
      refine ⟨?_, ih (by rw [hsplit, List.append_assoc]; rfl) hnext⟩
      rintro _ _ _ ⟨⟩ -
      rw [hsplit, mapsBefore_of_split (hsplit ▸ hordered), hmaps]
      exact .refl _ _

end Runs

/-! ## a reconnect -/

namespace Sample

/-- A goal in the second half, with the score. -/
def goalWithScore : ScoresRecord :=
  { announcement 17 5 with
    seq := 1
    statusId := .text "H2"
    score := some
      { participant1 := some ⟨none, none, none, none, none, none, none, some ⟨1, 0, 0, 0⟩⟩
        participant2 := none } }

/-- A later record with no status and no score. -/
def bareStatistics : ScoresRecord :=
  { announcement 17 5 with seq := 2, action := "update", id := none, data := none }

def shortFeed : List ScoresRecord := [goalWithScore, bareStatistics]

/-- A source that has just been started. -/
def started : LiveState := ⟨ownMaps ∅, []⟩

end Sample

private theorem ordered_shortFeed : Sample.shortFeed.Pairwise (·.seq < ·.seq) := by decide

private theorem deliversFrom_frame {feed : List ScoresRecord} (h : record ∈ feed)
    (receivedAtMs : Int) : DeliversFrom feed (.frame record receivedAtMs) := by
  rintro maps r t used ⟨⟩
  exact h

private theorem deliversFrom_gapFill {feed : List ScoresRecord} (h : record ∈ feed)
    (receivedAtMs : Int) :
    DeliversFrom feed (.gapFill record receivedAtMs) := by
  rintro maps r t used ⟨⟩
  exact h

/-- Two frames of an unbroken stream give the events of the whole feed. -/
theorem unbroken_stream_events :
    Along liveStep (Informed Sample.shortFeed) Sample.started
        (Sample.shortFeed.map (LiveInput.frame · 5)) ∧
      ∀ event ∈ (execute liveStep Sample.started
        (Sample.shortFeed.map (LiveInput.frame · 5))).2, AsNormalized Sample.shortFeed event := by
  have hinformed : Along liveStep (Informed Sample.shortFeed) Sample.started
      (Sample.shortFeed.map (LiveInput.frame · 5)) :=
    informed_of_unbroken ordered_shortFeed 5 (List.nil_append _).symm rfl
  refine ⟨hinformed,
    (live_events_iff ordered_shortFeed Sample.started fun input hinput => ?_).mpr hinformed⟩
  obtain ⟨record, hrecord, rfl⟩ := List.mem_map.mp hinput
  exact deliversFrom_frame hrecord 5

/-- The stream breaks after the goal, and the gap fill brings the next record first: it
reaches the markets as not started and without a score. -/
theorem gap_fill_forgets_the_score :
    let inputs := [LiveInput.frame Sample.goalWithScore 5, .gapFill Sample.goalWithScore 7,
      .gapFill Sample.bareStatistics 7]
    Sample.shortFeed.Pairwise (·.seq < ·.seq) ∧
      (∀ input ∈ inputs, DeliversFrom Sample.shortFeed input) ∧
      (∃ event ∈ (execute liveStep Sample.started inputs).2,
        event.seq = 2 ∧ event.phase = .ns ∧ event.score = emptyScoreState) ∧
      ¬ ∀ event ∈ (execute liveStep Sample.started inputs).2,
        AsNormalized Sample.shortFeed event := by
  have hgoal : Sample.goalWithScore ∈ Sample.shortFeed := by simp [Sample.shortFeed]
  have hbare : Sample.bareStatistics ∈ Sample.shortFeed := by simp [Sample.shortFeed]
  refine ⟨ordered_shortFeed, ?_, by decide +kernel, fun hall => ?_⟩
  · intro input hinput
    simp only [List.mem_cons, List.not_mem_nil, or_false] at hinput
    rcases hinput with rfl | rfl | rfl
    · exact deliversFrom_frame hgoal 5
    · exact deliversFrom_gapFill hgoal 7
    · exact deliversFrom_gapFill hbare 7
  · have hevent := hall (normalizeRecord 7 (ownMaps (normalizeRecord 7 (ownMaps
      (normalizeRecord 5 (ownMaps ∅) Sample.goalWithScore).1.kindByEventId)
        Sample.goalWithScore).1.kindByEventId) Sample.bareStatistics).2 (by decide +kernel)
    have hcontext := (asNormalized_iff ordered_shortFeed hbare 7 _).mp hevent
    exact absurd (hcontext.phase (by decide +kernel)) (by decide +kernel)

end CalledIt.Txline
