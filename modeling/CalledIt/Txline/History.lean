import CalledIt.Txline.Context

/-!
# CalledIt.Txline.History

Snapshots and what the process has read before.

A call that is given no maps has its own for sequence numbers, phases and scores, but
shares `processKindByEventId` with every call before it.  A snapshot means the same in
every process exactly when each amendment or discard in it says itself that it is
about a goal or follows a record of its number (`snapshot_independent_iff`).
-/

namespace CalledIt.Txline

open Lib
open Engine (MatchEvent MatchEventKind)

/-! ## calls in one process -/

/-- A call of `normalizeScores`, with the maps it is given for sequence numbers, phases
and scores. -/
structure ScoresCall where
  maps : FeedMaps
  records : List ScoresRecord

def inOrder (records : List ScoresRecord) : List ScoresRecord :=
  records.mergeSort fun a b => a.seq ≤ b.seq

/-- The kinds registered when the call is done. -/
def ScoresCall.register (registry : Store (Nat × Nat) MatchEventKind) (call : ScoresCall) :
    Store (Nat × Nat) MatchEventKind :=
  (mapsAfter { call.maps with kindByEventId := registry } (inOrder call.records)).kindByEventId

/-- `processKindByEventId` after the calls. -/
def processKindByEventId (history : List ScoresCall) : Store (Nat × Nat) MatchEventKind :=
  history.foldl ScoresCall.register ∅

/-- The maps of a call that is given none. -/
def ownMaps (registry : Store (Nat × Nat) MatchEventKind) : FeedMaps := ⟨∅, registry, ∅, ∅⟩

/-- A snapshot as the feed readers normalize it, after the calls. -/
def snapshotEvents (history : List ScoresCall) (receivedAtMs : Int) (records : List ScoresRecord) :
    List MatchEvent :=
  normalizeScores (ownMaps (processKindByEventId history)) receivedAtMs records

/-! ## two processes -/

/-- Equal maps, but for the kinds of numbers that are not seen yet. -/
structure AlikeOn (seen : List (Nat × Nat)) (a b : FeedMaps) : Prop where
  seqs : a.seqByEventId = b.seqByEventId
  phases : a.lastPhaseByFixture = b.lastPhaseByFixture
  scores : a.lastScoreByFixture = b.lastScoreByFixture
  kinds : ∀ key ∈ seen, a.kindByEventId.lookup key = b.kindByEventId.lookup key

/-- The record does not need the kind of an unseen number. -/
def NeedsNoKind (seen : List (Nat × Nat)) (record : ScoresRecord) : Prop :=
  corrects record = true → statesItsGoal record = false → ∀ key ∈ eventKey record, key ∈ seen

variable {seen : List (Nat × Nat)} {a b : FeedMaps}

variable {record : ScoresRecord}

theorem AlikeOn.sameContext (h : AlikeOn seen a b)
    (hneeds : NeedsNoKind seen record) : SameContext a b record := by
  have hphase : phaseBefore a record = phaseBefore b record := by rw [phaseBefore, h.phases]; rfl
  refine ⟨fun _ => by rw [hphase], fun _ => by rw [scoreBefore, h.scores]; rfl,
    fun hcorrects hstates => ?_, fun _ _ => by rw [statusChanges, hphase]; rfl,
    fun _ _ => by rw [seqBefore, h.seqs]; rfl⟩
  unfold knowsGoal
  cases hkey : eventKey record with
  | none => rfl
  | some key =>
      rw [Option.bind_some, Option.bind_some, h.kinds key (hneeds hcorrects hstates key hkey)]

theorem AlikeOn.next (h : AlikeOn seen a b) (hneeds : NeedsNoKind seen record)
    (receivedAtMs : Int) :
    AlikeOn ((eventKey record).toList ++ seen) (normalizeRecord receivedAtMs a record).1
      (normalizeRecord receivedAtMs b record).1 := by
  have hevents := (withoutReceipt_eq_iff receivedAtMs receivedAtMs a b record).mpr
    (h.sameContext hneeds)
  rw [withoutReceipt_normalizeRecord, withoutReceipt_normalizeRecord, completed_inj] at hevents
  obtain ⟨hphase, hscore, hkind, -⟩ := hevents
  refine ⟨?_, ?_, ?_, fun key hkey => ?_⟩
  · simp only [normalizeRecord, h.seqs]
  · show a.lastPhaseByFixture.insert record.fixtureId (phaseIn a record) =
      b.lastPhaseByFixture.insert record.fixtureId (phaseIn b record)
    rw [h.phases, hphase]
  · show a.lastScoreByFixture.insert record.fixtureId (scoreIn a record) =
      b.lastScoreByFixture.insert record.fixtureId (scoreIn b record)
    rw [h.scores, hscore]
  · rw [kindByEventId_normalizeRecord, kindByEventId_normalizeRecord, kind_normalizeRecord,
      kind_normalizeRecord, hkind]
    split
    · rfl
    · next hother =>
      rcases List.mem_append.mp hkey with hkey | hkey
      · exact absurd (Option.mem_toList.mp hkey) hother
      · exact h.kinds key hkey

variable {records : List ScoresRecord}

/-- The same events, where each record needs only kinds seen before it. -/
theorem AlikeOn.normalizeAll (h : AlikeOn seen a b)
    (hneeds : ∀ before record after, records = before ++ record :: after →
      NeedsNoKind (before.filterMap eventKey ++ seen) record) (t t' : Int) :
    (normalizeAll t a records).map withoutReceipt =
      (normalizeAll t' b records).map withoutReceipt := by
  induction records generalizing seen a b with
  | nil => rfl
  | cons record records ih =>
      have hfirst : NeedsNoKind seen record := hneeds [] record records rfl
      have hrest := ih (h.next hfirst 0)
        fun before next after hsplit hcorrects hstates key hkey => by
          have hseen := hneeds (record :: before) next after (by rw [hsplit]; rfl) hcorrects hstates
            key hkey
          rw [List.filterMap_cons] at hseen
          cases hown : eventKey record <;> rw [hown] at hseen <;>
            simp only [List.mem_append, List.mem_cons, Option.toList] at hseen ⊢ <;> tauto
      rw [Txline.normalizeAll, Txline.normalizeAll, List.map_cons, List.map_cons,
        (withoutReceipt_eq_iff t t' a b record).mpr (h.sameContext hfirst)]
      exact congrArg _ hrest

/-! ## which snapshots are the same everywhere -/

/-- An amendment or a discard that states no goal comes after a record of its number. -/
def SelfContained (records : List ScoresRecord) (record : ScoresRecord) : Prop :=
  corrects record = true → statesItsGoal record = false → record.id.isSome = true →
    ∃ earlier ∈ records, earlier.seq < record.seq ∧ eventKey earlier = eventKey record

theorem mem_inOrder :
    record ∈ inOrder records ↔ record ∈ records :=
  (List.mergeSort_perm records _).mem_iff

theorem pairwise_inOrder (records : List ScoresRecord) :
    (inOrder records).Pairwise (·.seq ≤ ·.seq) := by
  have hsorted : (inOrder records).Pairwise fun a b => decide (a.seq ≤ b.seq) = true :=
    List.pairwise_mergeSort (fun a b c hab hbc => by simp only [decide_eq_true_eq] at *; omega)
      (fun a b => by simp only [Bool.or_eq_true, decide_eq_true_eq]; omega) records
  exact hsorted.imp fun h => by simpa using h

/-- In a snapshot with unique numbers, what comes before has a lower number. -/
theorem lt_of_inOrder {before after : List ScoresRecord} (hunique : (records.map (·.seq)).Nodup)
    (hsplit : inOrder records = before ++ record :: after) :
    (∀ r ∈ before, r.seq < record.seq) ∧ ∀ r ∈ after, record.seq < r.seq := by
  have hnodup : ((inOrder records).map (·.seq)).Nodup :=
    ((List.mergeSort_perm records _).map _).nodup_iff.mpr hunique
  have hsorted : (inOrder records).Pairwise (·.seq < ·.seq) :=
    ((pairwise_inOrder records).and (List.pairwise_map.mp hnodup)).imp
      fun h => Nat.lt_of_le_of_ne h.1 h.2
  rw [hsplit] at hsorted
  obtain ⟨-, hrest, hcross⟩ := List.pairwise_append.mp hsorted
  exact ⟨fun r hr => hcross r hr record List.mem_cons_self, (List.pairwise_cons.mp hrest).1⟩

/-- The kind of a number is not touched by records of other numbers. -/
theorem lookup_mapsAfter {key : Nat × Nat} {maps : FeedMaps}
    (h : ∀ r ∈ records, eventKey r ≠ some key) :
    (mapsAfter maps records).kindByEventId.lookup key = maps.kindByEventId.lookup key := by
  induction records generalizing maps with
  | nil => rfl
  | cons record records ih =>
      rw [mapsAfter_cons 0, ih fun r hr => h r (List.mem_cons_of_mem _ hr),
        kindByEventId_normalizeRecord]
      exact if_neg (h record List.mem_cons_self)

theorem length_normalizeAll (receivedAtMs : Int) (maps : FeedMaps) (records : List ScoresRecord) :
    (normalizeAll receivedAtMs maps records).length = records.length := by
  simpa using congrArg List.length (seq_normalizeAll receivedAtMs maps records)

/-- Equal events come from equal contexts, record by record. -/
theorem sameContext_of_normalizeAll {t t' : Int} {a b : FeedMaps} {before after : List ScoresRecord}
    (h : (normalizeAll t a (before ++ record :: after)).map withoutReceipt =
      (normalizeAll t' b (before ++ record :: after)).map withoutReceipt) :
    SameContext (mapsAfter a before) (mapsAfter b before) record := by
  rw [normalizeAll_append, normalizeAll_append, List.map_append, List.map_append] at h
  obtain ⟨-, h⟩ := List.append_inj h (by simp [length_normalizeAll])
  rw [normalizeAll, normalizeAll, List.map_cons, List.map_cons] at h
  exact (withoutReceipt_eq_iff t t' _ _ record).mp (List.cons.inj h).1

/-- A record that announces a goal. -/
def announcement (fixtureId id : Nat) : ScoresRecord where
  fixtureId
  seq := 0
  ts := 0
  action := "goal"
  id := some id
  gameState := none
  confirmed := some true
  statusId := .other
  clock := none
  score := none
  data := some
    { action := none
      goal := some true
      goalType := .other
      minutes := none
      participant := none
      penalty := none
      playerId := none
      statusId := none
      type := none
      redCard := none
      yellowCard := none
      var := none
      new := none
      previous := none }
  stats := none
  lineups := none
  possibleEvent := none
  parti1State := none
  parti2State := none

/-- A process that has read of the goal before. -/
def announced (fixtureId id : Nat) : List ScoresCall :=
  [⟨ownMaps ∅, [announcement fixtureId id]⟩]

theorem lookup_announced (fixtureId id : Nat) :
    (processKindByEventId (announced fixtureId id)).lookup (fixtureId, id) = some .goal := by
  have hnew : classifyAction "goal" = .new := by decide +kernel
  have hgoal : isGoalRecord (announcement fixtureId id) = true := by
    rw [isGoalRecord, decide_eq_true_eq]
    exact ⟨hnew, rfl, by simp [announcement], by simp [announcement, isVarEnd]⟩
  have hkind : (normalizeRecord 0 (ownMaps ∅) (announcement fixtureId id)).2.kind = .goal :=
    (kind_normalizeRecord_goal_iff 0 _ _).mpr hgoal
  show (mapsAfter _ (inOrder [announcement fixtureId id])).kindByEventId.lookup (fixtureId, id) = _
  rw [inOrder, List.mergeSort_singleton]
  show (normalizeRecord 0 (ownMaps ∅) (announcement fixtureId id)).1.kindByEventId.lookup _ = _
  rw [kindByEventId_normalizeRecord, hkind]
  exact if_pos rfl

/-- A correction of a number that is new to the snapshot, and that states no goal, means
one thing to a process that has read nothing and another to one that has read of the
goal. -/
theorem selfContained_of_same (hunique : (records.map (·.seq)).Nodup) (hmem : record ∈ records)
    (hsame : ∀ id, record.id = some id → (snapshotEvents [] 0 records).map withoutReceipt =
      (snapshotEvents (announced record.fixtureId id) 0 records).map withoutReceipt) :
    SelfContained records record := by
  intro hcorrects hstates hid
  obtain ⟨id, hid⟩ := Option.isSome_iff_exists.mp hid
  have hkey : eventKey record = some (record.fixtureId, id) := by
    rw [eventKey, hid]
    rfl
  by_contra hnone
  push Not at hnone
  obtain ⟨before, after, hsplit⟩ := List.append_of_mem (mem_inOrder.mpr hmem)
  have hbefore : ∀ r ∈ before, eventKey r ≠ some (record.fixtureId, id) := fun r hr heq =>
    hnone r (mem_inOrder.mp (by rw [hsplit]; simp [hr]))
      ((lt_of_inOrder hunique hsplit).1 r hr) (by rw [heq, hkey])
  have hevents := hsame id hid
  unfold snapshotEvents normalizeScores at hevents
  rw [← inOrder, hsplit] at hevents
  have hgoal := (sameContext_of_normalizeAll hevents).goal hcorrects hstates
  rw [knowsGoal, knowsGoal, hkey, Option.bind_some, Option.bind_some, lookup_mapsAfter hbefore,
    lookup_mapsAfter hbefore] at hgoal
  have hknown :
      (ownMaps (processKindByEventId (announced record.fixtureId id))).kindByEventId.lookup
      (record.fixtureId, id) = some .goal := lookup_announced _ _
  rw [hknown] at hgoal
  cases hgoal

/-- A snapshot gives the same events after any two histories of the process exactly when
every record of it is self-contained. -/
theorem snapshot_independent_iff {records : List ScoresRecord}
    (hunique : (records.map (·.seq)).Nodup) :
    (∀ history history' t t', (snapshotEvents history t records).map withoutReceipt =
        (snapshotEvents history' t' records).map withoutReceipt) ↔
      ∀ record ∈ records, SelfContained records record := by
  constructor
  · exact fun hsame record hmem => selfContained_of_same hunique hmem fun id _ => hsame _ _ 0 0
  · intro hall history history' t t'
    have halike : AlikeOn [] (ownMaps (processKindByEventId history))
        (ownMaps (processKindByEventId history')) := ⟨rfl, rfl, rfl, by simp⟩
    refine halike.normalizeAll
      (fun before record after hsplit hcorrects hstates key hkey => ?_) t t'
    change inOrder records = before ++ record :: after at hsplit
    have hid : record.id.isSome = true := by
      obtain ⟨id, hid, -⟩ := Option.map_eq_some_iff.mp hkey
      rw [hid]
      rfl
    have hmem : record ∈ records := mem_inOrder.mp (by rw [hsplit]; simp)
    obtain ⟨earlier, hearlier, hlt, hsame⟩ := hall record hmem hcorrects hstates hid
    obtain ⟨-, hafter⟩ := lt_of_inOrder hunique hsplit
    have hbefore : earlier ∈ before := by
      have hin := mem_inOrder.mpr hearlier
      rw [hsplit, List.mem_append, List.mem_cons] at hin
      rcases hin with hin | rfl | hin
      · exact hin
      · exact absurd hlt (Nat.lt_irrefl _)
      · exact absurd (hafter earlier hin) (Nat.lt_asymm hlt)
    rw [List.append_nil]
    exact List.mem_filterMap.mpr ⟨earlier, hbefore, by rw [hsame]; exact hkey⟩

/-! ## a goal and its correction -/

namespace Sample

/-- An amendment of goal 5 that says nothing else. -/
def silentAmendment : ScoresRecord :=
  { announcement 17 5 with seq := 2, action := "amend", data := none }

end Sample

/-- After its goal, an amendment is an amendment in every process. -/
theorem amended_goal_independent :
    (∀ record ∈ [announcement 17 5, Sample.silentAmendment],
      SelfContained [announcement 17 5, Sample.silentAmendment] record) ∧
    ∀ history history' t t',
      (snapshotEvents history t [announcement 17 5, Sample.silentAmendment]).map withoutReceipt =
        (snapshotEvents history' t' [announcement 17 5, Sample.silentAmendment]).map
          withoutReceipt := by
  refine (and_iff_left_of_imp (snapshot_independent_iff (by decide)).mpr).mpr
    fun record hmem hcorrects _ _ => ?_
  rcases List.mem_cons.mp hmem with rfl | hmem
  · revert hcorrects
    decide +kernel
  · obtain rfl := List.mem_singleton.mp hmem
    exact ⟨announcement 17 5, by simp, by decide, rfl⟩

/-- Without the goal, it is one in a process that has read of the goal, and something
else in a new one. -/
theorem silent_amendment_differs :
    ∃ history history' t t',
      (snapshotEvents history t [Sample.silentAmendment]).map withoutReceipt ≠
        (snapshotEvents history' t' [Sample.silentAmendment]).map withoutReceipt := by
  refine ⟨[], announced 17 5, 0, 0, fun hsame => ?_⟩
  have hcontained : SelfContained [Sample.silentAmendment] Sample.silentAmendment :=
    selfContained_of_same (by decide) (List.mem_singleton.mpr rfl) fun id hid => by
      obtain rfl := Option.some.inj hid
      exact hsame
  obtain ⟨earlier, hmem, hlt, -⟩ := hcontained (by decide +kernel) rfl rfl
  obtain rfl := List.mem_singleton.mp hmem
  exact Nat.lt_irrefl _ hlt

end CalledIt.Txline
