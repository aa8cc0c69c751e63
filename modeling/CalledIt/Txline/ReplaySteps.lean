import CalledIt.Txline.ReplaySource

/-!
# CalledIt.Txline.ReplaySteps

What the steps of a replay return, whatever calls fail.

Every visible record is returned once, in all cases (`Delivered`).  The events are those
of a source whose calls never fail as long as no failure comes after a tick is read: the
only such call is the one for the latest snapshot (`DrainSucceeds`).
-/

namespace CalledIt.Txline

open Lib
open Engine (MatchEvent MatchEventKind)

variable {Prices : Type}

/-! ## times of receipt -/

theorem withoutReceipt_normalizeAll (receivedAtMs : Int) (maps : FeedMaps)
    (records : List ScoresRecord) :
    (normalizeAll receivedAtMs maps records).map withoutReceipt = normalizeAll 0 maps records := by
  induction records generalizing maps with
  | nil => rfl
  | cons record records ih =>
      rw [normalizeAll, List.map_cons, ih]
      rfl

@[simp] theorem withoutReceipt_normalizeScores (receivedAtMs : Int) (maps : FeedMaps)
    (records : List ScoresRecord) :
    (normalizeScores maps receivedAtMs records).map withoutReceipt =
      normalizeScores maps 0 records :=
  withoutReceipt_normalizeAll receivedAtMs maps _

@[simp] theorem reachesEndPhase_withoutReceipt (events : List MatchEvent) :
    reachesEndPhase (events.map withoutReceipt) = reachesEndPhase events := by
  unfold reachesEndPhase
  rw [List.any_map]
  rfl

def ReplayTick.withoutReceipt (tick : ReplayTick Prices) : ReplayTick Prices :=
  { tick with events := tick.events.map Txline.withoutReceipt }

def ReplayOutput.withoutReceipt : ReplayOutput Prices → ReplayOutput Prices
  | .returned result => .returned { result with events := result.events.map Txline.withoutReceipt }
  | output => output

theorem ReplayTick.withoutReceipt_readScores (tick : ReplayTick Prices) (receivedAtMs : Int)
    (records : List SnapshotRecord) :
    (tick.readScores receivedAtMs records).withoutReceipt =
      tick.withoutReceipt.readScores 0 records := by
  simp [ReplayTick.withoutReceipt, ReplayTick.readScores]

theorem ReplayTick.withoutReceipt_readOdds (source : ReplaySource Prices)
    (tick : ReplayTick Prices) (receivedAtMs : Int) (records : List OddsRecord) :
    (tick.readOdds source receivedAtMs records).withoutReceipt =
      tick.withoutReceipt.readOdds source 0 records := by
  unfold ReplayTick.withoutReceipt ReplayTick.readOdds
  dsimp only
  generalize (trackedOdds records).find? isOddsSuspended = suspended
  split_ifs
  · simp
  · cases suspended <;> simp [Txline.withoutReceipt, buildOddsSuspensionEvent]

variable {outputs : List (ReplayOutput Prices)}

section

variable (source : ReplaySource Prices) (snapshots : ReplaySnapshots)

theorem withoutReceipt_readTick (state : ReplayState) (virtualStartMs receivedAtMs : Int) :
    (readTick source snapshots state virtualStartMs receivedAtMs).withoutReceipt =
      readTick source snapshots state virtualStartMs 0 := by
  unfold readTick
  rw [ReplayTick.withoutReceipt_readOdds, ReplayTick.withoutReceipt_readScores]
  rfl

theorem withoutReceipt_commitTick (tick : ReplayTick Prices) :
    commitTick source tick.withoutReceipt =
      ((commitTick source tick).1,
        (commitTick source tick).2.map ReplayOutput.withoutReceipt) := by
  cases hinputs : tick.inputs <;>
    simp [commitTick, ReplayTick.withoutReceipt, ReplayTick.hooks, ReplayTick.result,
      ReplayOutput.withoutReceipt, hinputs]

/-- A step does the same at any time, but for the times of receipt. -/
theorem withoutReceipt_stepOnce (state : ReplayState) (calls : StepCalls) :
    stepOnce source snapshots state { calls with receivedAtMs := 0 } =
      ((stepOnce source snapshots state calls).1,
        (stepOnce source snapshots state calls).2.map ReplayOutput.withoutReceipt) := by
  unfold stepOnce
  dsimp only
  cases virtualStart source snapshots state calls.probeFails with
  | error failure => rfl
  | ok virtualStartMs =>
      dsimp only
      split
      · rfl
      · rw [← withoutReceipt_readTick _ _ _ _ calls.receivedAtMs]
        generalize readTick source snapshots state virtualStartMs calls.receivedAtMs = tick
        have hend : reachesEndPhase tick.withoutReceipt.events = reachesEndPhase tick.events :=
          reachesEndPhase_withoutReceipt _
        rw [hend]
        split
        · split
          · cases hinputs : tick.inputs <;>
              simp [ReplayTick.withoutReceipt, ReplayTick.hooks, ReplayOutput.withoutReceipt, hinputs]
          · rw [← ReplayTick.withoutReceipt_readScores, withoutReceipt_commitTick]
        · rw [withoutReceipt_commitTick]

/-! ## what a step does -/

/-- The step comes to call for the latest snapshot. -/
def callsDrain (state : ReplayState) (calls : StepCalls) : Bool :=
  match virtualStart source snapshots state calls.probeFails with
  | .error _ => false
  | .ok virtualStartMs =>
      !calls.scoresFail && !calls.oddsFail &&
        reachesEndPhase (readTick source snapshots state virtualStartMs calls.receivedAtMs).events

def DrainSucceeds (state : ReplayState) (calls : StepCalls) : Prop :=
  callsDrain source snapshots state calls = true → calls.drainFails = false

instance (state : ReplayState) (calls : StepCalls) :
    Decidable (DrainSucceeds source snapshots state calls) :=
  inferInstanceAs (Decidable (_ → _))

/-- A tick with its drain. -/
def finishTick (receivedAtMs : Int) (tick : ReplayTick Prices) : ReplayTick Prices :=
  if reachesEndPhase tick.events then
    tick.readScores receivedAtMs (snapshots.scoresSnapshot none)
  else tick

/-- The state with its start resolved, where it can be. -/
def resolved (state : ReplayState) : ReplayState :=
  { state with virtualStartMs := (virtualStart source snapshots state false).toOption }

/-- The step resolves no more than the start before it fails. -/
def FailsEarly (state : ReplayState) (calls : StepCalls) : Prop :=
  ∃ virtualStartMs failure,
    stepOnce source snapshots state calls =
        ({ state with virtualStartMs := virtualStartMs }, [.threw failure]) ∧
      resolved source snapshots { state with virtualStartMs := virtualStartMs } =
        resolved source snapshots state

/-- The step fails with its tick read. -/
def FailsLate (state : ReplayState) (calls : StepCalls) : Prop :=
  (callsDrain source snapshots state calls = true ∧ calls.drainFails = true) ∧
    ∃ virtualStartMs,
      stepOnce source snapshots state calls =
        ((readTick source snapshots state virtualStartMs calls.receivedAtMs).state,
          (readTick source snapshots state virtualStartMs calls.receivedAtMs).hooks ++
            [.threw .provider])

/-- The step commits its tick. -/
def Commits (state : ReplayState) (calls : StepCalls) : Prop :=
  ∃ virtualStartMs, virtualStart source snapshots state false = .ok virtualStartMs ∧
    stepOnce source snapshots state calls =
      commitTick source (finishTick snapshots calls.receivedAtMs
        (readTick source snapshots state virtualStartMs calls.receivedAtMs))

variable {source snapshots} {state other : ReplayState} {calls : StepCalls}

theorem virtualStart_of_probe {probeFails : Bool} {virtualStartMs : Int}
    (h : virtualStart source snapshots state probeFails = .ok virtualStartMs) :
    virtualStart source snapshots state false = .ok virtualStartMs := by
  unfold virtualStart at h ⊢
  cases hstart : state.virtualStartMs with
  | some startMs => simpa [hstart] using h
  | none =>
      simp only [hstart] at h ⊢
      unfold resolveVirtualStart at h ⊢
      cases probeFails with
      | false => exact h
      | true =>
          cases hexplicit : source.explicitStartMs with
          | none => simp [hexplicit] at h
          | some startMs => simpa [hexplicit] using h

theorem resolved_start {virtualStartMs : Int}
    (h : virtualStart source snapshots state false = .ok virtualStartMs) :
    resolved source snapshots { state with virtualStartMs := some virtualStartMs } =
      resolved source snapshots state := by
  unfold resolved
  rw [h]
  rfl

theorem stepOnce_cases (source : ReplaySource Prices) (snapshots : ReplaySnapshots)
    (state : ReplayState) (calls : StepCalls) :
    FailsEarly source snapshots state calls ∨ FailsLate source snapshots state calls ∨
      Commits source snapshots state calls := by
  cases hstart : virtualStart source snapshots state calls.probeFails with
  | error failure =>
      left
      exact ⟨state.virtualStartMs, failure, by simp [stepOnce, hstart], rfl⟩
  | ok virtualStartMs =>
      by_cases hfails : calls.scoresFail = true ∨ calls.oddsFail = true
      · left
        exact ⟨some virtualStartMs, .provider, by simp [stepOnce, hstart, hfails],
          resolved_start (virtualStart_of_probe hstart)⟩
      · right
        by_cases hend : reachesEndPhase
            (readTick source snapshots state virtualStartMs calls.receivedAtMs).events = true
        · cases hdrain : calls.drainFails with
          | true =>
              left
              rw [not_or, Bool.not_eq_true, Bool.not_eq_true] at hfails
              exact ⟨⟨by simp [callsDrain, hstart, hfails, hend], hdrain⟩, virtualStartMs,
                by simp [stepOnce, hstart, hfails, hend, hdrain]⟩
          | false =>
              right
              exact ⟨virtualStartMs, virtualStart_of_probe hstart,
                by simp [stepOnce, hstart, hfails, hend, hdrain, finishTick]⟩
        · right
          exact ⟨virtualStartMs, virtualStart_of_probe hstart,
            by simp [stepOnce, hstart, hfails, hend, finishTick]⟩

/-! ## no failure is seen later -/

theorem readTick_resolved (virtualStartMs receivedAtMs : Int) :
    readTick source snapshots (resolved source snapshots state) virtualStartMs receivedAtMs =
      readTick source snapshots state virtualStartMs receivedAtMs := rfl

/-- A step that commits is the same step from any state that resolves alike, with no
call that fails. -/
theorem Commits.unfailing (h : Commits source snapshots state calls)
    (halike : resolved source snapshots state = resolved source snapshots other) :
    stepOnce source snapshots state calls =
      stepOnce source snapshots other (.unfailing calls.receivedAtMs) := by
  obtain ⟨virtualStartMs, hstart, hstep⟩ := h
  have hstart' : virtualStart source snapshots other false = .ok virtualStartMs := by
    have hresolved := congrArg ReplayState.virtualStartMs halike
    simp only [resolved, hstart, Except.toOption] at hresolved
    cases hother : virtualStart source snapshots other false with
    | ok virtualStartMs' => simp_all
    | error failure => simp_all
  rw [hstep, ← readTick_resolved, halike, readTick_resolved]
  simp only [stepOnce, StepCalls.unfailing, hstart', finishTick]
  split_ifs <;> simp_all

section

variable (source snapshots)

def replay : ReplayState → List StepCalls → ReplayState × List (ReplayOutput Prices) :=
  execute (stepOnce source snapshots)

end

def ReplayOutput.result? : ReplayOutput Prices → Option ReplayStepResult
  | .returned result => some result
  | _ => none

def ReplayOutput.isThrown : ReplayOutput Prices → Bool
  | .threw _ => true
  | _ => false

/-- What the successful steps return. -/
def returnedResults (outputs : List (ReplayOutput Prices)) : List ReplayStepResult :=
  outputs.filterMap ReplayOutput.result?

/-- All but the failures, and but the times of receipt. -/
def observed (outputs : List (ReplayOutput Prices)) : List (ReplayOutput Prices) :=
  (outputs.filter (!·.isThrown)).map ReplayOutput.withoutReceipt

@[simp] theorem returnedResults_append (xs ys : List (ReplayOutput Prices)) :
    returnedResults (xs ++ ys) = returnedResults xs ++ returnedResults ys :=
  List.filterMap_append

@[simp] theorem observed_append (xs ys : List (ReplayOutput Prices)) :
    observed (xs ++ ys) = observed xs ++ observed ys := by
  simp [observed]

@[simp] theorem returnedResults_hooks (tick : ReplayTick Prices) :
    returnedResults tick.hooks = [] := by
  cases hinputs : tick.inputs <;>
    simp [ReplayTick.hooks, hinputs, returnedResults, ReplayOutput.result?]

@[simp] theorem returnedResults_commitTick (tick : ReplayTick Prices) :
    returnedResults (commitTick source tick).2 = [tick.result source] := by
  simp only [commitTick, returnedResults_append, returnedResults_hooks]
  rfl

theorem observed_commitTick (tick : ReplayTick Prices) :
    observed (commitTick source tick).2 =
      (commitTick source tick).2.map ReplayOutput.withoutReceipt := by
  cases hinputs : tick.inputs <;>
    simp [observed, commitTick, ReplayTick.hooks, hinputs, ReplayOutput.isThrown]

/-- A run where the drain succeeds is, but for its failures, a run of as many steps as
return, with no failure. -/
theorem replay_unfailing {steps : List StepCalls}
    (hdrain : Along (stepOnce source snapshots) (DrainSucceeds source snapshots) state steps)
    (halike : resolved source snapshots state = resolved source snapshots other) {times : List Int}
    (hlength : times.length = (returnedResults (replay source snapshots state steps).2).length) :
    observed (replay source snapshots state steps).2 =
      (replay source snapshots other (times.map .unfailing)).2.map ReplayOutput.withoutReceipt := by
  induction steps generalizing state other times with
  | nil =>
      rw [List.length_eq_zero_iff.mp hlength]
      rfl
  | cons calls steps ih =>
      obtain ⟨hfirst, hrest⟩ := hdrain
      rw [replay, execute_cons, ← replay] at hlength ⊢
      rw [returnedResults_append] at hlength
      rw [observed_append]
      obtain ⟨virtualStartMs, failure, hstep, hkept⟩ | ⟨⟨hdrains, hfails⟩, -⟩ | hcommits :=
        stepOnce_cases source snapshots state calls
      · rw [hstep] at hrest hlength ⊢
        exact ih hrest (hkept.trans halike) hlength
      · rw [hfirst hdrains] at hfails
        cases hfails
      · have hsame := hcommits.unfailing halike
        have hcommits' := hcommits
        obtain ⟨virtualStartMs, -, hstep⟩ := hcommits'
        have hone : (returnedResults (stepOnce source snapshots state calls).2).length = 1 := by
          rw [hstep, returnedResults_commitTick]
          rfl
        cases times with
        | nil => simp [hone] at hlength; omega
        | cons time times =>
            have htimed : ∀ receivedAtMs,
                ((stepOnce source snapshots other (.unfailing receivedAtMs)).1,
                  (stepOnce source snapshots other (.unfailing receivedAtMs)).2.map
                    ReplayOutput.withoutReceipt) =
                  stepOnce source snapshots other (.unfailing 0) := fun receivedAtMs =>
              (withoutReceipt_stepOnce source snapshots other (.unfailing receivedAtMs)).symm
            obtain ⟨hstate, houtputs⟩ :=
              Prod.mk.inj ((htimed calls.receivedAtMs).trans (htimed time).symm)
            rw [List.map_cons, replay, execute_cons, ← replay, List.map_append, ← houtputs, ← hstate,
              ← hsame]
            congr 1
            · rw [hstep, observed_commitTick]
            · refine ih hrest rfl ?_
              simp only [List.length_append, hone, List.length_cons] at hlength
              omega

/-! ## every record once -/

/-- A later snapshot has the records of the earlier one, and new ones. -/
def Grows (earlier later : List SnapshotRecord) : Prop :=
  ∃ more, later.Perm (earlier ++ more) ∧ ∀ record ∈ more, record.seq ∉ earlier.map (·.seq)

structure ReplaySnapshots.Growing (snapshots : ReplaySnapshots) : Prop where
  asOf : ∀ time time', time ≤ time' →
    Grows (snapshots.scoresSnapshot (some time)) (snapshots.scoresSnapshot (some time'))
  latest : ∀ time, Grows (snapshots.scoresSnapshot (some time)) (snapshots.scoresSnapshot none)

def recordIdentity (record : ScoresRecord) : Nat × Nat × Int :=
  (record.fixtureId, record.seq, record.ts)

def eventIdentity (event : MatchEvent) : Nat × Nat × Int :=
  (event.fixtureId, event.seq, event.tsMs)

/-- The events of the score stream. -/
def scoreEvents (results : List ReplayStepResult) : List MatchEvent :=
  (results.flatMap (·.events)).filter (·.kind ≠ .oddsSuspension)

/-- The largest snapshot that the steps have read: that of the last time, or the latest
once a step has called for it. -/
def visibleRecords (snapshots : ReplaySnapshots) (results : List ReplayStepResult) :
    List SnapshotRecord :=
  if results.any (·.terminalReached) then snapshots.scoresSnapshot none
  else results.getLast?.elim [] fun result => snapshots.scoresSnapshot (some result.virtualNowMs)

/-- The records read so far are those of a snapshot. -/
structure ReadUpTo (seen : List Nat) (identities : List (Nat × Nat × Int))
    (snapshot : List SnapshotRecord) : Prop where
  once : identities.Perm (snapshot.map fun record => recordIdentity record.toScoresRecord)
  seqs : ∀ seq, seq ∈ seen ↔ seq ∈ snapshot.map (·.seq)

section

variable {seen : List Nat} {identities : List (Nat × Nat × Int)}
  {snapshot next : List SnapshotRecord}

theorem ReadUpTo.grow (h : ReadUpTo seen identities snapshot) (hgrows : Grows snapshot next) :
    ReadUpTo (seen ++ (freshRecords seen next).map (·.seq))
      (identities ++ (freshRecords seen next).map recordIdentity) next := by
  obtain ⟨more, hperm, hnew⟩ := hgrows
  have hold : snapshot.filter (fun record => record.seq ∉ seen) = [] := by
    rw [List.filter_eq_nil_iff]
    intro record hmem
    simpa using (h.seqs _).mpr (List.mem_map_of_mem hmem)
  have hmore : more.filter (fun record => record.seq ∉ seen) = more := by
    rw [List.filter_eq_self]
    intro record hmem
    simpa [h.seqs] using hnew record hmem
  have hfresh : (next.filter fun record => record.seq ∉ seen).Perm more := by
    have hfilter := hperm.filter fun record => decide (record.seq ∉ seen)
    rw [List.filter_append, hold, hmore, List.nil_append] at hfilter
    exact hfilter
  constructor
  · rw [freshRecords, List.map_map]
    exact (h.once.append (hfresh.map _)).trans
      (by simpa [Function.comp_def] using (hperm.map _).symm)
  · intro seq
    have hmem : seq ∈ (freshRecords seen next).map (·.seq) ↔ seq ∈ more.map (·.seq) := by
      rw [freshRecords, List.map_map]
      exact (hfresh.map _).mem_iff
    rw [List.mem_append, hmem, h.seqs, (hperm.map _).mem_iff, List.map_append, List.mem_append]

theorem ReadUpTo.perm (h : ReadUpTo seen identities snapshot)
    {identities' : List (Nat × Nat × Int)} (hperm : identities.Perm identities') :
    ReadUpTo seen identities' snapshot :=
  ⟨hperm.symm.trans h.once, h.seqs⟩

/-- A snapshot that is smaller has nothing fresh. -/
theorem ReadUpTo.shrink (h : ReadUpTo seen identities snapshot) (hgrows : Grows next snapshot) :
    freshRecords seen next = [] := by
  obtain ⟨more, hperm, -⟩ := hgrows
  rw [freshRecords, List.map_eq_nil_iff, List.filter_eq_nil_iff]
  intro record hmem
  have hseen : record.seq ∈ snapshot.map (·.seq) := by
    rw [(hperm.map _).mem_iff]
    exact List.mem_map_of_mem (List.mem_append_left _ hmem)
  simpa using (h.seqs _).mpr hseen

end

/-- The events of a payload are all of the score stream, one a record. -/
theorem scoreEvents_normalizeScores (receivedAtMs : Int) (maps : FeedMaps)
    (records : List ScoresRecord) :
    (((normalizeScores maps receivedAtMs records).filter (·.kind ≠ .oddsSuspension)).map
      eventIdentity).Perm (records.map recordIdentity) := by
  have hall : (normalizeScores maps receivedAtMs records).filter (·.kind ≠ .oddsSuspension) =
      normalizeScores maps receivedAtMs records :=
    List.filter_eq_self.mpr fun event hmem => by simpa using kind_of_mem_normalizeAll hmem
  rw [hall, normalizeScores, map_normalizeAll (g := recordIdentity) fun _ _ => rfl]
  exact (List.mergeSort_perm _ _).map _

/-- The identities of a tick's score events. -/
def ReplayTick.identities (tick : ReplayTick Prices) : List (Nat × Nat × Int) :=
  (tick.events.filter (·.kind ≠ .oddsSuspension)).map eventIdentity

theorem ReplayTick.identities_readScores (tick : ReplayTick Prices) (receivedAtMs : Int)
    (records : List SnapshotRecord) :
    (tick.readScores receivedAtMs records).identities.Perm
      (tick.identities ++ (freshRecords tick.seenAfterTick records).map recordIdentity) := by
  unfold ReplayTick.identities ReplayTick.readScores
  rw [List.filter_append, List.map_append]
  exact (scoreEvents_normalizeScores _ _ _).append_left _

theorem ReplayTick.identities_readOdds (source : ReplaySource Prices) (tick : ReplayTick Prices)
    (receivedAtMs : Int) (records : List OddsRecord) :
    (tick.readOdds source receivedAtMs records).identities = tick.identities := by
  unfold ReplayTick.identities ReplayTick.readOdds
  dsimp only
  generalize (trackedOdds records).find? isOddsSuspended = suspended
  split_ifs
  · simp
  · cases suspended <;> simp [buildOddsSuspensionEvent]

theorem seenAfterTick_readTick (source : ReplaySource Prices) (snapshots : ReplaySnapshots)
    (state : ReplayState) (virtualStartMs receivedAtMs : Int) :
    (readTick source snapshots state virtualStartMs receivedAtMs).seenAfterTick =
      state.seenSeqs ++ (freshRecords state.seenSeqs (snapshots.scoresSnapshot
        (some (readTick source snapshots state virtualStartMs receivedAtMs).virtualNowMs))).map
          (·.seq) := rfl

theorem identities_readTick (source : ReplaySource Prices) (snapshots : ReplaySnapshots)
    (state : ReplayState) (virtualStartMs receivedAtMs : Int) :
    (readTick source snapshots state virtualStartMs receivedAtMs).identities.Perm
      ((freshRecords state.seenSeqs (snapshots.scoresSnapshot
        (some (readTick source snapshots state virtualStartMs receivedAtMs).virtualNowMs))).map
          recordIdentity) := by
  unfold readTick
  rw [ReplayTick.identities_readOdds]
  exact ReplayTick.identities_readScores _ _ _

/-- What is delivered so far, and what the source remembers of it. -/
structure Delivered (snapshots : ReplaySnapshots) (state : ReplayState)
    (outputs : List (ReplayOutput Prices)) : Prop where
  read : ReadUpTo state.seenSeqs ((scoreEvents (returnedResults outputs)).map eventIdentity)
    (visibleRecords snapshots (returnedResults outputs))
  clock : state.virtualNowMs = (returnedResults outputs).getLast?.map (·.virtualNowMs)

theorem terminalReached_result (tick : ReplayTick Prices) :
    (tick.result source).terminalReached = reachesEndPhase tick.events := rfl

theorem scoreEvents_concat (results : List ReplayStepResult) (result : ReplayStepResult) :
    scoreEvents (results ++ [result]) =
      scoreEvents results ++ result.events.filter (·.kind ≠ .oddsSuspension) := by
  simp [scoreEvents]

theorem visibleRecords_concat (results : List ReplayStepResult) (result : ReplayStepResult) :
    visibleRecords snapshots (results ++ [result]) =
      if results.any (·.terminalReached) ∨ result.terminalReached then
        snapshots.scoresSnapshot none
      else snapshots.scoresSnapshot (some result.virtualNowMs) := by
  simp [visibleRecords]

/-- A failed step delivers nothing and leaves what is remembered. -/
theorem Delivered.fail {outputs' : List (ReplayOutput Prices)}
    (h : Delivered snapshots state outputs) (hnone : returnedResults outputs' = [])
    (hseen : other.seenSeqs = state.seenSeqs) (hnow : other.virtualNowMs = state.virtualNowMs) :
    Delivered snapshots other (outputs ++ outputs') := by
  constructor <;> rw [returnedResults_append, hnone, List.append_nil]
  · rw [hseen]
    exact h.read
  · rw [hnow]
    exact h.clock

theorem grows_nil (snapshot : List SnapshotRecord) : Grows [] snapshot :=
  ⟨snapshot, List.Perm.refl _, fun _ _ => List.not_mem_nil⟩

variable (source) in
/-- The snapshot of the next time holds what was visible, or is part of the latest. -/
theorem Delivered.next (hgrowing : snapshots.Growing) (h : Delivered snapshots state outputs)
    (virtualStartMs : Int) :
    if (returnedResults outputs).any (·.terminalReached) then
      visibleRecords snapshots (returnedResults outputs) = snapshots.scoresSnapshot none
    else
      Grows (visibleRecords snapshots (returnedResults outputs))
        (snapshots.scoresSnapshot
          (some (state.virtualNowMs.elim virtualStartMs (· + source.tickVirtualMs)))) := by
  split
  · next hend => rw [visibleRecords, if_pos hend]
  · next hend =>
    rw [visibleRecords, if_neg hend, h.clock]
    cases (returnedResults outputs).getLast? with
    | none => exact grows_nil _
    | some result => exact hgrowing.asOf _ _ (by simp)

variable (source) in
/-- What a tick has read, next to what was delivered before it. -/
theorem Delivered.readTick (hgrowing : snapshots.Growing) (h : Delivered snapshots state outputs)
    (virtualStartMs receivedAtMs : Int) :
    ReadUpTo (readTick source snapshots state virtualStartMs receivedAtMs).seenAfterTick
      ((scoreEvents (returnedResults outputs)).map eventIdentity ++
        (readTick source snapshots state virtualStartMs receivedAtMs).identities)
      (if (returnedResults outputs).any (·.terminalReached) then snapshots.scoresSnapshot none
        else snapshots.scoresSnapshot
          (some (readTick source snapshots state virtualStartMs receivedAtMs).virtualNowMs)) := by
  have hids := identities_readTick source snapshots state virtualStartMs receivedAtMs
  have hnext := h.next source hgrowing virtualStartMs
  split_ifs at hnext ⊢ with hend
  · have hread := h.read
    rw [hnext] at hread
    have hnone : freshRecords state.seenSeqs (snapshots.scoresSnapshot
        (some (Txline.readTick source snapshots state virtualStartMs receivedAtMs).virtualNowMs)) =
        [] := hread.shrink (hgrowing.latest _)
    rw [hnone, List.map_nil] at hids
    rw [seenAfterTick_readTick, hnone, hids.eq_nil, List.map_nil, List.append_nil, List.append_nil]
    exact hread
  · rw [seenAfterTick_readTick]
    exact (h.read.grow hnext).perm (hids.symm.append_left _)

theorem reachesEndPhase_append (xs ys : List MatchEvent) :
    reachesEndPhase (xs ++ ys) = (reachesEndPhase xs || reachesEndPhase ys) :=
  List.any_append

theorem grows_refl (snapshot : List SnapshotRecord) : Grows snapshot snapshot :=
  ⟨[], by simp, by simp⟩

/-- A drain has read all there is. -/
theorem ReadUpTo.drain (hgrowing : snapshots.Growing) {tick : ReplayTick Prices}
    {identities : List (Nat × Nat × Int)} {ended : Prop} [Decidable ended]
    (h : ReadUpTo tick.seenAfterTick (identities ++ tick.identities)
      (if ended then snapshots.scoresSnapshot none
        else snapshots.scoresSnapshot (some tick.virtualNowMs))) (receivedAtMs : Int) :
    ReadUpTo (tick.readScores receivedAtMs (snapshots.scoresSnapshot none)).seenAfterTick
      (identities ++
        (tick.readScores receivedAtMs (snapshots.scoresSnapshot none)).identities)
      (snapshots.scoresSnapshot none) := by
  have hgrows : Grows (if ended then snapshots.scoresSnapshot none
      else snapshots.scoresSnapshot (some tick.virtualNowMs)) (snapshots.scoresSnapshot none) := by
    split_ifs
    · exact grows_refl _
    · exact hgrowing.latest _
  refine (h.grow hgrows).perm ?_
  rw [List.append_assoc]
  exact (tick.identities_readScores receivedAtMs _).symm.append_left _

theorem Delivered.commit (hgrowing : snapshots.Growing) (h : Delivered snapshots state outputs)
    (virtualStartMs receivedAtMs : Int) :
    Delivered snapshots
      (commitTick source (finishTick snapshots receivedAtMs
        (Txline.readTick source snapshots state virtualStartMs receivedAtMs))).1
      (outputs ++ (commitTick source (finishTick snapshots receivedAtMs
        (Txline.readTick source snapshots state virtualStartMs receivedAtMs))).2) := by
  have hread := h.readTick source hgrowing virtualStartMs receivedAtMs
  generalize Txline.readTick source snapshots state virtualStartMs receivedAtMs = tick at hread ⊢
  constructor
  · rw [returnedResults_append, returnedResults_commitTick, scoreEvents_concat,
      visibleRecords_concat, List.map_append, terminalReached_result]
    by_cases hend : reachesEndPhase tick.events = true
    · have hended : reachesEndPhase
          (tick.readScores receivedAtMs (snapshots.scoresSnapshot none)).events = true := by
        rw [ReplayTick.readScores, reachesEndPhase_append, hend, Bool.true_or]
      rw [finishTick, if_pos hend, if_pos (Or.inr hended)]
      exact hread.drain hgrowing receivedAtMs
    · rw [finishTick, if_neg hend]
      simp only [hend, Bool.false_eq_true, or_false]
      exact hread
  · rw [returnedResults_append, returnedResults_commitTick, List.getLast?_concat]
    rfl

variable (source) in
theorem Delivered.step (hgrowing : snapshots.Growing) (state : ReplayState)
    (outputs : List (ReplayOutput Prices)) (calls : StepCalls)
    (h : Delivered snapshots state outputs) :
    Delivered snapshots (stepOnce source snapshots state calls).1
      (outputs ++ (stepOnce source snapshots state calls).2) := by
  obtain ⟨virtualStartMs, failure, hstep, -⟩ | ⟨-, virtualStartMs, hstep⟩ |
    ⟨virtualStartMs, -, hstep⟩ := stepOnce_cases source snapshots state calls
  · rw [hstep]
    exact h.fail rfl rfl rfl
  · rw [hstep]
    refine h.fail ?_ rfl rfl
    rw [returnedResults_append, returnedResults_hooks]
    rfl
  · rw [hstep]
    exact h.commit hgrowing virtualStartMs calls.receivedAtMs

/-! ## the steps of a replay -/

/-- Whatever calls fail, the successful steps return every record they can see once and
nothing else of the score stream.  From any state, as long as the drain of no step
fails, they return what a source returns whose calls never fail. -/
theorem replay_steps (source : ReplaySource Prices) (snapshots : ReplaySnapshots)
    (hgrowing : snapshots.Growing) (registry : Store (Nat × Nat) MatchEventKind) :
    (∀ steps : List StepCalls,
      let results := returnedResults (replay source snapshots (.initial registry) steps).2
      ((scoreEvents results).map eventIdentity).Perm
        ((visibleRecords snapshots results).map fun record =>
          recordIdentity record.toScoresRecord)) ∧
      ∀ (state : ReplayState) (steps : List StepCalls) (times : List Int),
        Along (stepOnce source snapshots) (DrainSucceeds source snapshots) state steps →
        times.length = (returnedResults (replay source snapshots state steps).2).length →
        observed (replay source snapshots state steps).2 =
          (replay source snapshots state (times.map .unfailing)).2.map
            ReplayOutput.withoutReceipt := by
  constructor
  · intro steps
    have hinitial : Delivered snapshots (.initial registry) ([] : List (ReplayOutput Prices)) :=
      ⟨⟨List.Perm.refl _, fun seq => by simp [ReplayState.initial, returnedResults,
        visibleRecords]⟩, rfl⟩
    exact (execute_trace (Delivered.step source hgrowing) hinitial steps).read.once
  · intro state steps times hdrain hlength
    exact replay_unfailing hdrain rfl hlength

end

namespace Sample

/-- The record of the final whistle. -/
def finalWhistle : SnapshotRecord where
  fixtureId := 17
  seq := 1
  ts := 0
  action := "status"
  id := none
  gameState := none
  confirmed := none
  statusId := .number 5
  clock := none
  score := none
  data := none
  stats := none
  lineups := none
  possibleEvent := none
  parti1State := none
  parti2State := none
  startTime := some 600000

def suspendedOdds : OddsRecord where
  fixtureId := 17
  messageId := "m"
  ts := 5
  superOddsType := "1X2"
  gameState := some "Suspended"
  marketParameters := none
  marketPeriod := none
  priceNames := none
  pct := none

/-- The market goes off the board as the whistle is read. -/
def whistleSnapshots : ReplaySnapshots where
  scoresSnapshot _ := [finalWhistle]
  oddsSnapshot _ := [suspendedOdds]

/-- A suspended record gives no price. -/
def replaySource : ReplaySource Unit where
  fixtureId := 17
  explicitStartMs := none
  combineOddsSnapshot _ := none

theorem whistleSnapshots_growing : whistleSnapshots.Growing :=
  ⟨fun _ _ _ => grows_refl _, fun _ => grows_refl _⟩

/-- The odds fail once. -/
def oddsThenAll : List StepCalls := [⟨0, false, false, true, false⟩, .unfailing 1]

def drainThenAll : List StepCalls := [⟨0, false, false, false, true⟩, .unfailing 1]

def eventKinds (steps : List StepCalls) : List MatchEventKind :=
  (returnedResults (replay replaySource whistleSnapshots (.initial ∅) steps).2).flatMap
    fun result => result.events.map (·.kind)

end Sample

open Sample in
/-- The odds fail once: the next step returns the whistle and the suspension. -/
theorem replay_steps_sample :
    ((scoreEvents (returnedResults
        (replay replaySource whistleSnapshots (.initial ∅) oddsThenAll).2)).map
      eventIdentity).Perm
        ((visibleRecords whistleSnapshots (returnedResults
          (replay replaySource whistleSnapshots (.initial ∅) oddsThenAll).2)).map
            fun record => recordIdentity record.toScoresRecord) ∧
      observed (replay replaySource whistleSnapshots (.initial ∅) oddsThenAll).2 =
        (replay replaySource whistleSnapshots (.initial ∅) ([7].map .unfailing)).2.map
          ReplayOutput.withoutReceipt :=
  have hsteps := replay_steps replaySource whistleSnapshots whistleSnapshots_growing ∅
  ⟨hsteps.1 oddsThenAll, hsteps.2 (.initial ∅) oddsThenAll [7] (by decide +kernel)
    (by decide +kernel)⟩

open Sample in
/-- The drain fails once: the whistle is no change of phase any more, and nothing says
that the market went off the board. -/
theorem suspension_lost :
    whistleSnapshots.Growing ∧ eventKinds drainThenAll = [.other] ∧
      eventKinds [.unfailing 1] = [.phaseChange, .oddsSuspension] :=
  ⟨whistleSnapshots_growing, by decide +kernel, by decide +kernel⟩

end CalledIt.Txline
