import CalledIt.Lib.Transducer
import CalledIt.Txline.History

/-!
# CalledIt.Txline.Framing

A feed that comes in frames (`normalizeScores` with the maps of its caller).

A frame that is in order is a run of `recordStep`, so the frames of a feed are one run
over the feed.  The maps are keyed by fixture: `AgreeOn` compares them on the keys of
one, and no record of another touches those.
-/

namespace CalledIt.Txline

open Lib
open Engine (MatchEvent MatchEventKind)

/-! ## frames -/

/-- A call with the maps of the caller, which it changes. -/
def normalizeFrame (receivedAtMs : Int) (maps : FeedMaps) (records : List ScoresRecord) :
    FeedMaps × List MatchEvent :=
  (mapsAfter maps (inOrder records), normalizeScores maps receivedAtMs records)

/-- One call a frame, with the same maps. -/
def normalizeFrames (receivedAtMs : Int) : FeedMaps → List (List ScoresRecord) →
    FeedMaps × List MatchEvent :=
  execute (normalizeFrame receivedAtMs)

def recordStep (receivedAtMs : Int) (maps : FeedMaps) (record : ScoresRecord) :
    FeedMaps × List MatchEvent :=
  ((normalizeRecord receivedAtMs maps record).1, [(normalizeRecord receivedAtMs maps record).2])

theorem execute_recordStep (receivedAtMs : Int) (maps : FeedMaps) (records : List ScoresRecord) :
    execute (recordStep receivedAtMs) maps records =
      (mapsAfter maps records, normalizeAll receivedAtMs maps records) := by
  induction records generalizing maps with
  | nil => rfl
  | cons record records ih =>
      rw [execute_cons, recordStep, ih, normalizeAll, mapsAfter_cons receivedAtMs]
      rfl

theorem inOrder_of_pairwise {records : List ScoresRecord}
    (hordered : records.Pairwise (·.seq ≤ ·.seq)) : inOrder records = records :=
  List.mergeSort_of_pairwise (hordered.imp fun hle => by simpa using hle)

/-- A frame in order is read record by record. -/
theorem normalizeFrame_of_pairwise {records : List ScoresRecord}
    (hordered : records.Pairwise (·.seq ≤ ·.seq)) (receivedAtMs : Int) (maps : FeedMaps) :
    normalizeFrame receivedAtMs maps records =
      execute (recordStep receivedAtMs) maps records := by
  have hsorted : normalizeScores maps receivedAtMs records =
      normalizeAll receivedAtMs maps (inOrder records) := rfl
  rw [normalizeFrame, hsorted, inOrder_of_pairwise hordered, execute_recordStep]

/-! ## fixtures -/

/-- The maps say the same of one fixture. -/
structure AgreeOn (fixtureId : Nat) (a b : FeedMaps) : Prop where
  seqs : ∀ id, a.seqByEventId.lookup (fixtureId, id) = b.seqByEventId.lookup (fixtureId, id)
  kinds : ∀ id, a.kindByEventId.lookup (fixtureId, id) = b.kindByEventId.lookup (fixtureId, id)
  phase : a.lastPhaseByFixture.lookup fixtureId = b.lastPhaseByFixture.lookup fixtureId
  score : a.lastScoreByFixture.lookup fixtureId = b.lastScoreByFixture.lookup fixtureId

variable {fixtureId : Nat} {a b : FeedMaps} {record : ScoresRecord}

theorem AgreeOn.bind_lookup (hid : record.fixtureId = fixtureId) {V : Type}
    {s s' : Store (Nat × Nat) V}
    (h : ∀ id, s.lookup (fixtureId, id) = s'.lookup (fixtureId, id)) :
    (eventKey record).bind s.lookup = (eventKey record).bind s'.lookup := by
  unfold eventKey
  cases record.id <;> simp [hid, h]

/-- The event of a record is the same, and so is what it leaves in the maps. -/
theorem AgreeOn.own (h : AgreeOn fixtureId a b) (hid : record.fixtureId = fixtureId)
    (receivedAtMs : Int) :
    (normalizeRecord receivedAtMs a record).2 = (normalizeRecord receivedAtMs b record).2 ∧
      AgreeOn fixtureId (normalizeRecord receivedAtMs a record).1
        (normalizeRecord receivedAtMs b record).1 := by
  have hphase : phaseBefore a record = phaseBefore b record := by
    rw [phaseBefore, phaseBefore, hid, h.phase]
  have hscore : a.lastScoreByFixture.lookup record.fixtureId =
      b.lastScoreByFixture.lookup record.fixtureId := by rw [hid, h.score]
  have hkind : (eventKey record).bind a.kindByEventId.lookup =
      (eventKey record).bind b.kindByEventId.lookup := AgreeOn.bind_lookup hid h.kinds
  have hseq : (eventKey record).bind a.seqByEventId.lookup =
      (eventKey record).bind b.seqByEventId.lookup := AgreeOn.bind_lookup hid h.seqs
  have hevent : (normalizeRecord receivedAtMs a record).2 =
      (normalizeRecord receivedAtMs b record).2 := by
    unfold phaseBefore at hphase
    unfold eventKey at hkind hseq
    simp only [normalizeRecord, hphase, hscore, hkind, hseq]
  refine ⟨hevent, fun id => ?_, fun id => ?_, ?_, ?_⟩
  · rw [seqByEventId_normalizeRecord, seqByEventId_normalizeRecord, h.seqs]
  · rw [kindByEventId_normalizeRecord, kindByEventId_normalizeRecord, h.kinds, hevent]
  · show (a.lastPhaseByFixture.insert record.fixtureId (phaseIn a record)).lookup fixtureId =
      (b.lastPhaseByFixture.insert record.fixtureId (phaseIn b record)).lookup fixtureId
    rw [phaseIn, phaseIn, hphase, ← hid, AList.lookup_insert, AList.lookup_insert]
  · show (a.lastScoreByFixture.insert record.fixtureId (scoreIn a record)).lookup fixtureId =
      (b.lastScoreByFixture.insert record.fixtureId (scoreIn b record)).lookup fixtureId
    rw [scoreIn, scoreIn, phaseIn, phaseIn, hphase, hscore, ← hid, AList.lookup_insert,
      AList.lookup_insert]

/-- A record of another fixture leaves nothing under the keys of this one. -/
theorem AgreeOn.other (h : AgreeOn fixtureId a b) (hid : record.fixtureId ≠ fixtureId)
    (receivedAtMs : Int) : AgreeOn fixtureId (normalizeRecord receivedAtMs a record).1 b := by
  have hkey : ∀ id, record.id.map (record.fixtureId, ·) ≠ some (fixtureId, id) := by
    cases record.id <;> simp [hid]
  refine ⟨fun id => ?_, fun id => ?_, ?_, ?_⟩
  · rw [seqByEventId_normalizeRecord, if_neg (hkey id), h.seqs]
  · rw [kindByEventId_normalizeRecord, if_neg (hkey id), h.kinds]
  · exact (AList.lookup_insert_ne (Ne.symm hid)).trans h.phase
  · exact (AList.lookup_insert_ne (Ne.symm hid)).trans h.score

/-- The events of a fixture are those of its own records. -/
theorem AgreeOn.normalizeAll (h : AgreeOn fixtureId a b) (receivedAtMs : Int)
    (records : List ScoresRecord) :
    (normalizeAll receivedAtMs a records).filter (·.fixtureId = fixtureId) =
      normalizeAll receivedAtMs b (records.filter (·.fixtureId = fixtureId)) := by
  induction records generalizing a b with
  | nil => rfl
  | cons record records ih =>
      have hof : (normalizeRecord receivedAtMs a record).2.fixtureId = record.fixtureId := rfl
      by_cases hid : record.fixtureId = fixtureId
      · obtain ⟨hevent, hnext⟩ := h.own hid receivedAtMs
        rw [List.filter_cons_of_pos (by simpa using hid), Txline.normalizeAll,
          Txline.normalizeAll, List.filter_cons_of_pos (by simpa [hof] using hid), hevent, ih hnext]
      · rw [List.filter_cons_of_neg (by simpa using hid), Txline.normalizeAll,
          List.filter_cons_of_neg (by simpa [hof] using hid), ih (h.other hid receivedAtMs)]

/-! ## any cut of a feed -/

/-- A feed in order gives the same events and leaves the same maps in any frames, and
what it gives for a fixture comes from the records of the fixture and from what the maps
say of it. -/
theorem framing_independent {feed : List ScoresRecord}
    (hordered : feed.Pairwise (·.seq ≤ ·.seq)) (receivedAtMs : Int) (maps : FeedMaps) :
    (∀ frames : List (List ScoresRecord), frames.flatten = feed →
        normalizeFrames receivedAtMs maps frames = normalizeFrame receivedAtMs maps feed) ∧
      ∀ fixtureId maps', AgreeOn fixtureId maps maps' →
        (normalizeScores maps receivedAtMs feed).filter (·.fixtureId = fixtureId) =
          normalizeScores maps' receivedAtMs (feed.filter (·.fixtureId = fixtureId)) := by
  constructor
  · rintro frames rfl
    have hframes : ∀ frame ∈ frames, ∀ maps, normalizeFrame receivedAtMs maps frame =
        execute (recordStep receivedAtMs) maps frame := fun frame hmem maps =>
      normalizeFrame_of_pairwise ((List.pairwise_flatten.mp hordered).1 frame hmem) _ _
    rw [normalizeFrames, execute_congr hframes, execute_flatten,
      normalizeFrame_of_pairwise hordered]
  · intro fixtureId maps' hagree
    show (normalizeAll receivedAtMs maps (inOrder feed)).filter (·.fixtureId = fixtureId) =
      normalizeAll receivedAtMs maps' (inOrder (feed.filter (·.fixtureId = fixtureId)))
    rw [inOrder_of_pairwise hordered, inOrder_of_pairwise (hordered.filter _)]
    exact hagree.normalizeAll receivedAtMs feed

namespace Sample

/-- Goal 5 of one fixture, goal 5 of another and the amendment of the first. -/
def twoFixtures : List ScoresRecord :=
  [announcement 17 5, { announcement 18 5 with seq := 1 }, silentAmendment]

end Sample

/-- The amendment comes in a frame of its own. -/
theorem framing_independent_sample :
    (∀ frames : List (List ScoresRecord), frames.flatten = Sample.twoFixtures →
        normalizeFrames 0 (ownMaps ∅) frames =
          normalizeFrame 0 (ownMaps ∅) Sample.twoFixtures) ∧
      ∀ fixtureId maps', AgreeOn fixtureId (ownMaps ∅) maps' →
        (normalizeScores (ownMaps ∅) 0 Sample.twoFixtures).filter (·.fixtureId = fixtureId) =
          normalizeScores maps' 0 (Sample.twoFixtures.filter (·.fixtureId = fixtureId)) :=
  framing_independent (by decide) 0 (ownMaps ∅)

end CalledIt.Txline
