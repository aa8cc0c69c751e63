import CalledIt.Engine.Docket

/-!
# CalledIt.Engine.Reconciling

The settlement reconciler (`engine/src/settle/settlement-reconciler.ts`), against the
settler whose place it takes.

`reconcileMarket` starts from the row of a market and reduces the whole snapshot of the
fixture, with the events from before the market was there.  Its settlement is that of
the settler where those events leave nothing on the docket (`reconciled_agrees`).
-/

namespace CalledIt.Engine

/-! ## the reconciler -/

/-- The settlement that is inserted for a market. -/
structure SettlementRecord where
  outcome : SettlementOutcome
  decidingSeq : Nat
  evidenceSeqs : List Nat
  deriving DecidableEq, Repr

def SettlementRecord.ruling (record : SettlementRecord) : Ruling :=
  ⟨record.outcome, record.decidingSeq⟩

/-- What `persistTerminal` inserts for a terminal effect. -/
def persistTerminal (event : MatchEvent) : MarketEffect → Option SettlementRecord
  | .settle outcome decidingSeq evidenceSeqs => some ⟨outcome, decidingSeq, evidenceSeqs⟩
  | .void _ => some ⟨.void, event.seq, []⟩
  | _ => none

/-- Reduces the events up to the one that ends the market. -/
def reduceUntil (state : MarketState) :
    List MatchEvent → MarketState × Option (MatchEvent × MarketEffect)
  | [] => (state, none)
  | event :: events =>
      let result := reduceMarket state event
      match terminalEffect result.effects with
      | none => reduceUntil result.state events
      | some effect => (result.state, some (event, effect))

/-- The event with the effect's deciding sequence, or the last one. -/
def decidingEvent (events : List MatchEvent) (effect : MarketEffect) : Option MatchEvent :=
  match effect with
  | .settle _ decidingSeq _ => (events.find? (·.seq = decidingSeq)).or events.getLast?
  | _ => events.getLast?

def reconcileMarket (row : MarketState) (events : List MatchEvent) (nowMs : Int) :
    Option SettlementRecord :=
  match reduceUntil row events with
  | (_, some (event, effect)) => persistTerminal event effect
  | (state, none) =>
      match terminalEffect (checkDebounce state (nowMs + settlementDebounceMs)).effects with
      | none => none
      | some effect => (decidingEvent events effect).bind (persistTerminal · effect)

/-- What the settler inserts: it reduces the events that come in, and a tick settles the
candidate they leave. -/
def liveSettlement (market : MarketState) (events : List MatchEvent) (nowMs : Int) :
    Option SettlementRecord :=
  match reduceUntil market events with
  | (_, some (event, effect)) => persistTerminal event effect
  | (state, none) =>
      match terminalEffect (checkDebounce state nowMs).effects with
      | some (.settle outcome decidingSeq evidenceSeqs) => some ⟨outcome, decidingSeq, evidenceSeqs⟩
      | _ => none

/-- The snapshot, as a fetch normalizes it. -/
def snapshotAt (fetchedAtMs : Int) (events : List MatchEvent) : List MatchEvent :=
  events.map fun event => { event with receivedAtMs := fetchedAtMs }

/-- The market as the reconciler finds its row, on the claim of the live one. -/
structure RowOf (row market : MarketState) : Prop where
  spec : row.spec = market.spec
  scratch : row.scratch = none
  pending : row.pendingSettlement = none
  status : row.status = .open ∨ row.status = .frozen ∨ row.status = .settling

/-! ## the condition -/

/-- For a player's claim, none of the goals counts. -/
def Uncounted (spec : MarketSpec) (goals : List StandingGoal) : Prop :=
  spec.claimType = .playerScoresN → ∀ id, spec.entityRef.playerId = some id →
    ∀ goal ∈ goals, countsForPlayer spec id goal = false

/-- The events that a market on the claim does not ignore. -/
def counted (spec : MarketSpec) (events : List MatchEvent) : List MatchEvent :=
  events.filter ((Docket.start spec).lastSeq < ·.seq)

/-- The events before the market was there leave nothing on its docket. -/
structure Untouched (spec : MarketSpec) (before after : List MatchEvent) : Prop where
  running : (Docket.run spec (.start spec) before).2 = none
  undecided : (Docket.run spec (.start spec) before).1.candidate = none
  reviewed : (Docket.run spec (.start spec) before).1.review = false
  uncounted : ∀ later, later ≠ [] → later <+: counted spec after →
    Uncounted spec ((standing (counted spec before)).filterMap (survives later))

/-! ## dockets of a run -/

theorem rulingOf_eq_none_iff {seq : Nat} {effects : List MarketEffect} :
    rulingOf seq effects = none ↔ terminalEffect effects = none := by
  unfold rulingOf
  cases heffect : terminalEffect effects with
  | none => simp
  | some effect =>
      have hterminal : effect.isTerminal = true := List.find?_some heffect
      cases effect <;> simp_all [MarketEffect.ruling, MarketEffect.isTerminal]

theorem ruling_persistTerminal (event : MatchEvent) (effect : MarketEffect) :
    (persistTerminal event effect).map (·.ruling) = effect.ruling event.seq := by
  cases effect <;> rfl

variable {events : List MatchEvent}

namespace Docket

variable {spec : MarketSpec}

/-- The ruling of a run, or the candidate that waits at its end. -/
def closing (ended : Docket × Option Ruling) : Option Ruling := ended.2.or ended.1.candidate

theorem run_cons (docket : Docket) (event : MatchEvent) (events : List MatchEvent) :
    run spec docket (event :: events) =
      match (step spec docket event).2 with
      | none => run spec (step spec docket event).1 events
      | some ruling => ((step spec docket event).1, some ruling) := by
  rw [run]
  split <;> simp_all

theorem run_append (docket : Docket) (events later : List MatchEvent) :
    run spec docket (events ++ later) =
      match (run spec docket events).2 with
      | none => run spec (run spec docket events).1 later
      | some ruling => ((run spec docket events).1, some ruling) := by
  induction events generalizing docket with
  | nil => rfl
  | cons event events ih =>
      rw [List.cons_append, run_cons, run_cons]
      cases (step spec docket event).2 with
      | none => exact ih _
      | some ruling => rfl

theorem amendGoal_received (goals : List StandingGoal) (seq : Nat) (event : MatchEvent)
    (receivedAtMs : Int) :
    amendGoal goals seq { event with receivedAtMs } = amendGoal goals seq event := by
  induction goals with
  | nil => rfl
  | cons goal goals ih =>
      rw [amendGoal, amendGoal, ih]
      rfl

section

variable (docket : Docket)

include docket

/-- When an event was received plays no part. -/
theorem step_received (event : MatchEvent) (receivedAtMs : Int) :
    step spec docket { event with receivedAtMs } = step spec docket event := by
  have hgoals : ∀ goals, trackGoals goals { event with receivedAtMs } = trackGoals goals event := by
    intro goals
    unfold trackGoals
    simp only [amendGoal_received]
    rfl
  unfold step
  rw [hgoals]
  rfl

theorem run_snapshotAt (fetchedAtMs : Int) (events : List MatchEvent) :
    run spec docket (snapshotAt fetchedAtMs events) = run spec docket events := by
  induction events generalizing docket with
  | nil => rfl
  | cons event events ih =>
      have hcons : snapshotAt fetchedAtMs (event :: events) =
          { event with receivedAtMs := fetchedAtMs } :: snapshotAt fetchedAtMs events := rfl
      rw [hcons, run_cons, run_cons, step_received, ih]

theorem judge_fst (event : MatchEvent) :
    (judge spec docket event).1.lastSeq = docket.lastSeq ∧
      (judge spec docket event).1.goals = docket.goals := by
  unfold judge
  split
  · split
    · exact ⟨rfl, rfl⟩
    · exact ⟨rfl, rfl⟩
    · split <;> exact ⟨rfl, rfl⟩
  · exact ⟨rfl, rfl⟩

theorem weigh_fst (event : MatchEvent) :
    (weigh spec docket event).1.lastSeq = docket.lastSeq ∧
      (weigh spec docket event).1.goals = docket.goals := by
  unfold weigh
  split
  · exact ⟨rfl, rfl⟩
  · split
    · exact judge_fst _ event
    · split
      · exact judge_fst _ event
      · exact ⟨rfl, rfl⟩

theorem lastSeq_le_step (event : MatchEvent) :
    docket.lastSeq ≤ (step spec docket event).1.lastSeq := by
  unfold step
  split_ifs with hseq
  · exact Nat.le_refl _
  · exact Nat.le_refl _
  · rw [(weigh_fst _ event).1]
    exact Nat.le_of_lt (Nat.not_le.mp hseq)

theorem lastSeq_le_run (events : List MatchEvent) :
    docket.lastSeq ≤ (run spec docket events).1.lastSeq := by
  induction events generalizing docket with
  | nil => exact Nat.le_refl _
  | cons event events ih =>
      rw [run_cons]
      cases (step spec docket event).2 with
      | none => exact (lastSeq_le_step docket event).trans (ih _)
      | some ruling => exact lastSeq_le_step docket event

end

variable {docket : Docket} {event : MatchEvent}

theorem step_of_seq_le (h : event.seq ≤ docket.lastSeq) :
    step spec docket event = (docket, none) := if_pos h

/-- Events that the docket ignores from the start can be left out. -/
theorem run_filter {cursor : Nat} (h : cursor ≤ docket.lastSeq) (events : List MatchEvent) :
    run spec docket (events.filter (cursor < ·.seq)) = run spec docket events := by
  induction events generalizing docket with
  | nil => rfl
  | cons event events ih =>
      by_cases hseq : cursor < event.seq
      · rw [List.filter_cons_of_pos (by simpa using hseq), run_cons, run_cons,
          ih (h.trans (lastSeq_le_step docket event))]
      · rw [List.filter_cons_of_neg (by simpa using hseq), run_cons,
          step_of_seq_le ((Nat.not_lt.mp hseq).trans h), ih h]

/-- A step that does not end the market, on an event it does not ignore. -/
theorem step_of_seq_lt (h : docket.lastSeq < event.seq)
    (hnone : (step spec docket event).2 = none) :
    (step spec docket event).1.lastSeq = event.seq ∧
      (step spec docket event).1.goals = trackGoals docket.goals event := by
  unfold step at hnone ⊢
  rw [if_neg (Nat.not_le.mpr h)] at hnone ⊢
  split_ifs at hnone ⊢
  exact weigh_fst _ event

/-- The goals that a run leaves, and how far its cursor has come. -/
theorem run_of_ordered (hordered : events.Pairwise (·.seq < ·.seq))
    (hseq : ∀ event ∈ events, docket.lastSeq < event.seq)
    (hnone : (run spec docket events).2 = none) :
    (run spec docket events).1.goals = events.foldl trackGoals docket.goals ∧
      ∀ bound, docket.lastSeq < bound → (∀ event ∈ events, event.seq < bound) →
        (run spec docket events).1.lastSeq < bound := by
  induction events generalizing docket with
  | nil => exact ⟨rfl, fun bound hbound _ => hbound⟩
  | cons event events ih =>
      rw [run_cons] at hnone ⊢
      obtain ⟨hfirst, hrest⟩ := List.pairwise_cons.mp hordered
      cases hstep : (step spec docket event).2 with
      | some ruling => simp [hstep] at hnone
      | none =>
          obtain ⟨hlast, hgoals⟩ := step_of_seq_lt (hseq event List.mem_cons_self) hstep
          rw [hstep] at hnone
          obtain ⟨hfold, hcursor⟩ :=
            ih hrest (fun later hlater => hlast ▸ hfirst later hlater) hnone
          refine ⟨?_, fun bound _ hbound => hcursor bound ?_ ?_⟩
          · rw [List.foldl_cons, ← hgoals]
            exact hfold
          · exact hlast ▸ hbound event List.mem_cons_self
          · exact fun later hlater => hbound later (List.mem_cons_of_mem _ hlater)

/-- Rulings name events of the run. -/
theorem judge_decides {P : Nat → Prop}
    (hcandidate : ∀ ruling ∈ docket.candidate, P ruling.decidingSeq) (hevent : P event.seq) :
    (∀ ruling ∈ (judge spec docket event).2, P ruling.decidingSeq) ∧
      ∀ ruling ∈ (judge spec docket event).1.candidate, P ruling.decidingSeq := by
  unfold judge
  split
  · split
    · exact ⟨by simpa using hevent, hcandidate⟩
    · exact ⟨by simp, by simpa using hevent⟩
    · split
      · exact ⟨by simpa using hevent, hcandidate⟩
      · exact ⟨by simp, hcandidate⟩
  · exact ⟨by simp, hcandidate⟩

theorem step_decides {P : Nat → Prop}
    (hcandidate : ∀ ruling ∈ docket.candidate, P ruling.decidingSeq) (hevent : P event.seq) :
    (∀ ruling ∈ (step spec docket event).2, P ruling.decidingSeq) ∧
      ∀ ruling ∈ (step spec docket event).1.candidate, P ruling.decidingSeq := by
  unfold step
  split_ifs
  · exact ⟨by simp, hcandidate⟩
  · exact ⟨by simpa using hevent, hcandidate⟩
  · unfold weigh
    dsimp only
    split
    · exact ⟨by simp, by simp⟩
    · split
      · refine judge_decides ?_ hevent
        exact hcandidate
      · next ruling hruling =>
        split
        · exact judge_decides (by simp) hevent
        · exact ⟨fun other hother => hcandidate other (hruling.trans hother), hcandidate⟩

theorem closing_decides {P : Nat → Prop} {docket : Docket} {events : List MatchEvent}
    (hcandidate : ∀ ruling ∈ docket.candidate, P ruling.decidingSeq)
    (hevents : ∀ event ∈ events, P event.seq) :
    ∀ ruling ∈ closing (run spec docket events), P ruling.decidingSeq := by
  induction events generalizing docket with
  | nil => exact hcandidate
  | cons event events ih =>
      obtain ⟨hruling, hnext⟩ := @step_decides spec _ _ _ hcandidate
        (hevents event List.mem_cons_self)
      rw [run_cons]
      cases hstep : (step spec docket event).2 with
      | none => exact ih hnext fun later hlater => hevents later (List.mem_cons_of_mem _ hlater)
      | some ruling => exact fun other hother => hruling other (hstep.trans hother)

end Docket

/-! ## goals from before -/

/-- The goals of one docket are those of the other, after some of its own. -/
structure Beside (extra : List StandingGoal) (docket other : Docket) : Prop where
  goals : other.goals = extra ++ docket.goals
  candidate : other.candidate = docket.candidate
  review : other.review = docket.review

theorem playerGoalCount_append {spec : MarketSpec} {extra goals : List StandingGoal}
    (h : Uncounted spec extra) (hclaim : spec.claimType = .playerScoresN) :
    playerGoalCount
        { lastSeq := 0, goals := extra ++ goals, freezeReason := none, cutoffReached := false }
        spec =
      playerGoalCount
        { lastSeq := 0, goals, freezeReason := none, cutoffReached := false } spec := by
  unfold playerGoalCount
  cases hentity : spec.entityRef with
  | team participant name => rfl
  | player id name participant =>
      have hnone : extra.filter (countsForPlayer spec id) = [] :=
        List.filter_eq_nil_iff.mpr fun goal hgoal => by
          simp [h hclaim id (by simp [hentity, EntityRef.playerId]) goal hgoal]
      simp [List.filter_append, hnone]

section Beside

variable {spec : MarketSpec} {extra : List StandingGoal} {docket other : Docket}
  {event : MatchEvent}

section

variable (h : Beside extra docket other)

include h

theorem Beside.outcome (huncounted : Uncounted spec extra)
    (event : MatchEvent) : other.outcome spec event = docket.outcome spec event := by
  unfold Docket.outcome outcomeAt
  by_cases hclaim : spec.claimType = .playerScoresN
  · rw [if_pos hclaim, if_pos hclaim, h.goals, playerGoalCount_append huncounted hclaim]
  · rw [if_neg hclaim, if_neg hclaim]

theorem Beside.judge (huncounted : Uncounted spec extra)
    (event : MatchEvent) :
    (other.judge spec event).2 = (docket.judge spec event).2 ∧
      Beside extra (docket.judge spec event).1 (other.judge spec event).1 := by
  unfold Docket.judge
  rw [h.outcome huncounted event, h.review]
  split
  · split
    · exact ⟨rfl, h⟩
    · exact ⟨rfl, h.goals, rfl, rfl⟩
    · split <;> exact ⟨rfl, h⟩
  · exact ⟨rfl, h⟩

theorem Beside.weigh (huncounted : Uncounted spec extra)
    (event : MatchEvent) :
    (other.weigh spec event).2 = (docket.weigh spec event).2 ∧
      Beside extra (docket.weigh spec event).1 (other.weigh spec event).1 := by
  cases hhold : isHoldSignal event with
  | true =>
      rw [Docket.weigh_of_hold hhold, Docket.weigh_of_hold hhold]
      exact ⟨rfl, h.goals, rfl, rfl⟩
  | false =>
      cases hcandidate : docket.candidate with
      | none =>
          rw [Docket.weigh_of_none hhold hcandidate,
            Docket.weigh_of_none hhold (h.candidate.trans hcandidate), h.review]
          refine Beside.judge ?_ huncounted event
          exact ⟨h.goals, h.candidate, rfl⟩
      | some ruling =>
          rw [Docket.weigh_of_candidate hhold hcandidate,
            Docket.weigh_of_candidate hhold (h.candidate.trans hcandidate)]
          split
          · refine Beside.judge ?_ huncounted event
            exact ⟨h.goals, rfl, rfl⟩
          · exact ⟨rfl, h⟩

/-- An event on the goals of both. -/
theorem Beside.track (hnodup : (other.goals.map (·.seq)).Nodup)
    (event : MatchEvent) :
    trackGoals other.goals event =
      (extra.filter fun goal => !discards event goal.seq).map (amended event) ++
        trackGoals docket.goals event := by
  have hown : (docket.goals.map (·.seq)).Nodup := by
    rw [h.goals, List.map_append] at hnodup
    exact hnodup.of_append_right
  rw [trackGoals_eq_ledger hnodup, trackGoals_eq_ledger hown, h.goals]
  simp [ledger]

theorem Beside.step (hnodup : (other.goals.map (·.seq)).Nodup)
    (hseq : docket.lastSeq < event.seq) (hother : other.lastSeq < event.seq)
    (huncounted : Uncounted spec
      ((extra.filter fun goal => !discards event goal.seq).map (amended event))) :
    (other.step spec event).2 = (docket.step spec event).2 ∧
      ((docket.step spec event).2 = none →
        Beside ((extra.filter fun goal => !discards event goal.seq).map (amended event))
          (docket.step spec event).1 (other.step spec event).1) := by
  unfold Docket.step
  rw [if_neg (Nat.not_le.mpr hseq), if_neg (Nat.not_le.mpr hother)]
  split
  · exact ⟨rfl, fun hnone => by cases hnone⟩
  · have hbeside : Beside ((extra.filter fun goal => !discards event goal.seq).map (amended event))
        { docket with lastSeq := event.seq, goals := trackGoals docket.goals event }
        { other with lastSeq := event.seq, goals := trackGoals other.goals event } :=
      ⟨h.track hnodup event, h.candidate, h.review⟩
    exact ⟨(hbeside.weigh huncounted event).1, fun _ => (hbeside.weigh huncounted event).2⟩

end

end Beside

/-- Goals that never count change no ruling. -/
theorem Beside.closing_run {spec : MarketSpec} {extra : List StandingGoal} {docket other : Docket}
    (h : Beside extra docket other) (hordered : events.Pairwise (·.seq < ·.seq))
    (hnodup : (other.goals.map (·.seq) ++ events.map (·.seq)).Nodup)
    (hseq : ∀ event ∈ events, docket.lastSeq < event.seq)
    (hother : ∀ event ∈ events, other.lastSeq < event.seq)
    (huncounted : ∀ later, later ≠ [] → later <+: events →
      Uncounted spec (extra.filterMap (survives later))) :
    Docket.closing (other.run spec events) = Docket.closing (docket.run spec events) := by
  induction events generalizing extra docket other with
  | nil => exact h.candidate
  | cons event events ih =>
      have hgoals : (other.goals.map (·.seq)).Nodup := (List.nodup_append.mp hnodup).1
      obtain ⟨hfirst, hrest⟩ := List.pairwise_cons.mp hordered
      have hnow : Uncounted spec
          ((extra.filter fun goal => !discards event goal.seq).map (amended event)) := by
        have hone := huncounted [event] (by simp) ⟨events, rfl⟩
        rwa [← filterMap_survives_cons, show survives [] = some from rfl,
          List.filterMap_some] at hone
      obtain ⟨hruling, hbeside⟩ := h.step hgoals (hseq event List.mem_cons_self)
        (hother event List.mem_cons_self) hnow
      rw [Docket.run_cons, Docket.run_cons, hruling]
      cases hstep : (docket.step spec event).2 with
      | some ruling => rfl
      | none =>
          obtain ⟨hcursor, -⟩ := Docket.step_of_seq_lt (hseq event List.mem_cons_self) hstep
          obtain ⟨hcursor', hgoals'⟩ := Docket.step_of_seq_lt (hother event List.mem_cons_self)
            (hruling.trans hstep)
          refine ih (hbeside hstep) hrest ?_ ?_ ?_ ?_
          · rw [hgoals', trackGoals_eq_ledger hgoals]
            refine hnodup.sublist ?_
            rw [List.map_cons, ← List.singleton_append, ← List.append_assoc]
            exact (map_seq_ledger other.goals event).append_right _
          · exact fun later hlater => hcursor ▸ hfirst later hlater
          · exact fun later hlater => hcursor' ▸ hfirst later hlater
          · intro later _ hlater
            rw [filterMap_survives_cons]
            exact huncounted (event :: later) (by simp) (List.prefix_cons_inj event |>.mpr hlater)

/-! ## settlements -/

/-- What the events leave, where none of them ends the market. -/
structure Remains (spec : MarketSpec) (docket : Docket) (state : MarketState) : Prop where
  heard : state.Heard
  docket : state.docket = docket
  claim : state.spec = spec

variable {state : MarketState}

theorem reduceUntil_docket {spec : MarketSpec} (hstate : Remains spec state.docket state)
    (hfixture : ∀ event ∈ events, event.fixtureId = spec.fixtureId)
    (hscore : ∀ event ∈ events, event.kind ≠ .oddsSuspension) :
    ((reduceUntil state events).2.bind fun ended => ended.2.ruling ended.1.seq) =
        (state.docket.run spec events).2 ∧
      ((reduceUntil state events).2 = none →
        Remains spec (state.docket.run spec events).1 (reduceUntil state events).1) := by
  induction events generalizing state with
  | nil => exact ⟨rfl, fun _ => hstate⟩
  | cons event events ih =>
      have hhead := hfixture event List.mem_cons_self
      have hkind := hscore event List.mem_cons_self
      have hrest := fun later hlater => hfixture later (List.mem_cons_of_mem event hlater)
      have hkinds := fun later hlater => hscore later (List.mem_cons_of_mem event hlater)
      rw [Docket.run_cons, reduceUntil]
      by_cases hseq : event.seq ≤ state.docket.lastSeq
      · rw [Docket.step_of_seq_le hseq, reduceMarket_of_seq_le hkind hseq]
        exact ih hstate hrest hkinds
      · have hhears := hears_reduceMarket hstate.heard (hhead.trans (by rw [hstate.claim])) hkind
          (Nat.not_le.mp hseq)
        rw [hstate.claim] at hhears
        have hruling := hhears.ruling
        cases heffect : terminalEffect (reduceMarket state event).effects with
        | none =>
            have hnone : (state.docket.step spec event).2 = none :=
              hruling.symm.trans (rulingOf_eq_none_iff.mpr heffect)
            have hdocket := hhears.docket hnone
            rw [hnone, ← hdocket]
            refine ih ?_ hrest hkinds
            exact ⟨hhears.heard hnone, rfl, hhears.claim hnone⟩
        | some effect =>
            have hsome : effect.ruling event.seq = (state.docket.step spec event).2 := by
              rw [← hruling, rulingOf, heffect, Option.bind_some]
            cases hstep : (state.docket.step spec event).2 with
            | none =>
                rw [rulingOf_eq_none_iff.mp (hruling.trans hstep)] at heffect
                cases heffect
            | some ruling => exact ⟨hsome.trans hstep, fun hnone => by cases hnone⟩

/-- The candidate that waits is due once its event's window is over. -/
theorem due_reduceUntil {spec : MarketSpec} {bound : Int} (hstate : Remains spec state.docket state)
    (hfixture : ∀ event ∈ events, event.fixtureId = spec.fixtureId)
    (hscore : ∀ event ∈ events, event.kind ≠ .oddsSuspension)
    (hreceived : ∀ event ∈ events, event.receivedAtMs + settlementDebounceMs ≤ bound)
    (hdue : ∀ pending ∈ state.pendingSettlement, pending.debounceUntilMs ≤ bound)
    (hnone : (reduceUntil state events).2 = none) :
    ∀ pending ∈ (reduceUntil state events).1.pendingSettlement,
      pending.debounceUntilMs ≤ bound := by
  induction events generalizing state with
  | nil => exact hdue
  | cons event events ih =>
      have hkind := hscore event List.mem_cons_self
      have hrest := fun later hlater => hfixture later (List.mem_cons_of_mem event hlater)
      have hkinds := fun later hlater => hscore later (List.mem_cons_of_mem event hlater)
      have htimes := fun later hlater => hreceived later (List.mem_cons_of_mem event hlater)
      rw [reduceUntil] at hnone ⊢
      by_cases hseq : event.seq ≤ state.docket.lastSeq
      · rw [reduceMarket_of_seq_le hkind hseq] at hnone ⊢
        exact ih hstate hrest hkinds htimes hdue hnone
      · have hhears := hears_reduceMarket hstate.heard
          ((hfixture event List.mem_cons_self).trans (by rw [hstate.claim])) hkind
          (Nat.not_le.mp hseq)
        rw [hstate.claim] at hhears
        cases heffect : terminalEffect (reduceMarket state event).effects with
        | some effect => simp [heffect] at hnone
        | none =>
            have hgoes : (state.docket.step spec event).2 = none :=
              hhears.ruling.symm.trans (rulingOf_eq_none_iff.mpr heffect)
            simp only [heffect] at hnone ⊢
            refine ih ⟨hhears.heard hgoes, rfl, hhears.claim hgoes⟩ hrest hkinds htimes ?_ hnone
            intro pending hpending
            rw [hhears.due pending hpending]
            exact hreceived event List.mem_cons_self

theorem maturePositions_keeps (state : MarketState) (nowMs : Int) :
    (maturePositions state nowMs).state.pendingSettlement = state.pendingSettlement ∧
      Unended (maturePositions state nowMs).effects := by
  unfold maturePositions
  dsimp only
  split_ifs
  · exact ⟨rfl, by simp [Unended]⟩
  · exact ⟨rfl, unended_singleton rfl⟩

/-- A tick settles the candidate whose window is over, and nothing else. -/
theorem terminalEffect_checkDebounce (hlive : state.status.isTerminal = false) (nowMs : Int) :
    terminalEffect (checkDebounce state nowMs).effects =
      match state.pendingSettlement with
      | none => none
      | some pending =>
          if pending.debounceUntilMs ≤ nowMs then
            some (.settle pending.outcome pending.decidingSeq pending.evidenceSeqs)
          else none := by
  obtain ⟨hpending, hunended⟩ := maturePositions_keeps state nowMs
  have hnot : ¬ (state.status = .settled ∨ state.status = .voided) := by
    simpa [MarketStatus.isTerminal] using hlive
  have hquiet : terminalEffect (maturePositions state nowMs).effects = none := by
    simpa [terminalEffect] using terminalEffect_append hunended []
  have hactivated : Unended
      (activateRemainingPending (maturePositions state nowMs).state.positions).2 :=
    unended_movePending fun _ => rfl
  unfold checkDebounce
  rw [if_neg hnot]
  dsimp only
  rw [debounceElapsed, settleNow, hpending]
  cases hcandidate : state.pendingSettlement with
  | none => exact hquiet
  | some pending =>
      by_cases hdue : pending.debounceUntilMs ≤ nowMs
      · simp only [hdue, decide_true, if_true]
        rw [terminalEffect_append (hunended.append hactivated)]
        rfl
      · simpa [hdue] using hquiet

theorem ruling_of_persistTerminal {event : MatchEvent} {effect : MarketEffect}
    {record : SettlementRecord} (h : persistTerminal event effect = some record) :
    effect.ruling event.seq = some record.ruling := by
  rw [← ruling_persistTerminal, h]
  rfl

theorem ruling_of_liveSettlement {spec : MarketSpec} {market : MarketState} {nowMs : Int}
    {record : SettlementRecord} (hmarket : Remains spec market.docket market)
    (hfixture : ∀ event ∈ events, event.fixtureId = spec.fixtureId)
    (hscore : ∀ event ∈ events, event.kind ≠ .oddsSuspension)
    (h : liveSettlement market events nowMs = some record) :
    Docket.closing (market.docket.run spec events) = some record.ruling := by
  obtain ⟨hruling, hremains⟩ := reduceUntil_docket hmarket hfixture hscore
  unfold liveSettlement at h
  unfold Docket.closing
  rw [← hruling]
  cases hrun : reduceUntil market events with
  | mk state ended =>
      rw [hrun] at h hremains
      cases ended with
      | some ended =>
          obtain ⟨event, effect⟩ := ended
          rw [Option.bind_some, ruling_of_persistTerminal h]
          rfl
      | none =>
          obtain ⟨hheard, hdocket, -⟩ := hremains rfl
          have hlive : state.status.isTerminal = false := hheard.live
          dsimp only at h
          rw [terminalEffect_checkDebounce hlive] at h
          rw [← hdocket]
          cases hpending : state.pendingSettlement with
          | none => simp [hpending] at h
          | some pending =>
              simp only [hpending] at h
              split_ifs at h
              obtain rfl := Option.some.inj h
              simp [MarketState.docket, docketOf, hpending]
              rfl

theorem exists_decidingEvent (h : events ≠ []) (effect : MarketEffect) :
    ∃ event, decidingEvent events effect = some event := by
  have hlast := List.getLast?_eq_getLast_of_ne_nil h
  unfold decidingEvent
  cases effect with
  | settle outcome decidingSeq evidenceSeqs =>
      dsimp only
      cases events.find? (·.seq = decidingSeq) with
      | none => exact ⟨_, hlast⟩
      | some event => exact ⟨event, rfl⟩
  | _ => exact ⟨_, hlast⟩

/-- The effect that a run of events ends with carries out a ruling. -/
theorem ruling_of_reduceUntil {next : MarketState} {event : MatchEvent} {effect : MarketEffect}
    (h : reduceUntil state events = (next, some (event, effect))) :
    effect.ruling event.seq ≠ none := by
  induction events generalizing state with
  | nil => simp [reduceUntil] at h
  | cons first events ih =>
      rw [reduceUntil] at h
      cases heffect : terminalEffect (reduceMarket state first).effects with
      | none =>
          rw [heffect] at h
          exact ih h
      | some found =>
          rw [heffect] at h
          cases h
          intro hnone
          have hruling : rulingOf event.seq (reduceMarket state event).effects = none := by
            rw [rulingOf, heffect, Option.bind_some, hnone]
          rw [rulingOf_eq_none_iff.mp hruling] at heffect
          cases heffect

variable {row : MarketState}

theorem reconcileMarket_of_closing {spec : MarketSpec} {nowMs : Int} {ruling : Ruling}
    (hrow : Remains spec row.docket row) (hpending : row.pendingSettlement = none)
    (hfixture : ∀ event ∈ events, event.fixtureId = spec.fixtureId)
    (hscore : ∀ event ∈ events, event.kind ≠ .oddsSuspension)
    (hreceived : ∀ event ∈ events, event.receivedAtMs ≤ nowMs)
    (h : Docket.closing (row.docket.run spec events) = some ruling) :
    ∃ record, reconcileMarket row events nowMs = some record ∧ record.ruling = ruling := by
  obtain ⟨hruling, hremains⟩ := reduceUntil_docket hrow hfixture hscore
  have hdue : (reduceUntil row events).2 = none →
      ∀ pending ∈ (reduceUntil row events).1.pendingSettlement,
        pending.debounceUntilMs ≤ nowMs + settlementDebounceMs :=
    due_reduceUntil hrow hfixture hscore
      (fun event hevent => Int.add_le_add_right (hreceived event hevent) _) (by simp [hpending])
  unfold reconcileMarket
  unfold Docket.closing at h
  rw [← hruling] at h
  cases hrun : reduceUntil row events with
  | mk state ended =>
      rw [hrun] at h hremains hdue
      cases ended with
      | some ended =>
          obtain ⟨event, effect⟩ := ended
          have hmap := ruling_persistTerminal event effect
          cases heffect : effect.ruling event.seq with
          | none =>
              exact absurd heffect (ruling_of_reduceUntil hrun)
          | some found =>
              rw [heffect, Option.map_eq_some_iff] at hmap
              obtain ⟨record, hrecord, rfl⟩ := hmap
              refine ⟨record, hrecord, ?_⟩
              simpa [heffect] using h
      | none =>
          obtain ⟨hheard, hdocket, -⟩ := hremains rfl
          rw [← hdocket] at h
          cases hcandidate : state.pendingSettlement with
          | none => simp [MarketState.docket, docketOf, hcandidate] at h
          | some pending =>
              have hlive : state.status.isTerminal = false := hheard.live
              have hsettles := terminalEffect_checkDebounce hlive (nowMs + settlementDebounceMs)
              simp only [hcandidate, hdue rfl pending hcandidate, if_true] at hsettles
              have hsome : events ≠ [] := by
                rintro rfl
                obtain rfl : row = state := congrArg Prod.fst hrun
                rw [hpending] at hcandidate
                cases hcandidate
              refine ⟨⟨pending.outcome, pending.decidingSeq, pending.evidenceSeqs⟩, ?_, ?_⟩
              · obtain ⟨event, hevent⟩ := exists_decidingEvent hsome
                  (.settle pending.outcome pending.decidingSeq pending.evidenceSeqs)
                simp only [hsettles, hevent]
                rfl
              · simpa [MarketState.docket, docketOf, hcandidate, SettlementRecord.ruling,
                  PendingSettlement.ruling] using h

/-! ## reconciled and live -/

/-- A row without scratch and candidate has the docket that its claim starts with. -/
theorem docket_of_row (hscratch : row.scratch = none)
    (hpending : row.pendingSettlement = none) : row.docket = .start row.spec := by
  simp [MarketState.docket, docketOf, Docket.start, scratchOf, hscratch, hpending, initialScratch]

theorem remains_of_row (hscratch : row.scratch = none)
    (hstatus : row.status = .open ∨ row.status = .frozen ∨ row.status = .settling) :
    Remains row.spec row.docket row where
  heard := by
    refine ⟨?_, ?_, fun _ => by simp [scratchOf, hscratch, initialScratch]⟩
    · rcases hstatus with h | h | h <;> simp [h, MarketStatus.isTerminal]
    · rcases hstatus with h | h | h <;> simp [h]
  docket := rfl
  claim := rfl

/-- Where the events from before leave nothing, they change no ruling. -/
theorem closing_of_untouched {spec : MarketSpec} {before after : List MatchEvent}
    (hordered : (before ++ after).Pairwise (·.seq < ·.seq)) (h : Untouched spec before after) :
    Docket.closing (Docket.run spec (.start spec) (before ++ after)) =
      Docket.closing (Docket.run spec (.start spec) after) := by
  obtain ⟨hbefore, hafter, happart⟩ := List.pairwise_append.mp hordered
  have hcounted : Docket.run spec (.start spec) (counted spec before) =
      Docket.run spec (.start spec) before := Docket.run_filter (Nat.le_refl _) before
  have hrunning := h.running
  rw [← hcounted] at hrunning
  have htaken : ∀ events, ∀ event ∈ counted spec events, (Docket.start spec).lastSeq < event.seq :=
    fun events event hevent => by simpa using (List.mem_filter.mp hevent).2
  have hfirst : (counted spec before).Pairwise (·.seq < ·.seq) := hbefore.filter _
  obtain ⟨hgoals, hcursor⟩ := Docket.run_of_ordered hfirst (htaken before) hrunning
  rw [hcounted] at hgoals hcursor
  have hnodup : ((counted spec before ++ counted spec after).map (·.seq)).Nodup := by
    have hall : ((before ++ after).map (·.seq)).Nodup :=
      List.pairwise_map.mpr (hordered.imp Nat.ne_of_lt)
    exact hall.sublist ((List.filter_sublist.append List.filter_sublist).map _)
  rw [List.map_append] at hnodup
  have hstanding : (Docket.run spec (.start spec) before).1.goals =
      standing (counted spec before) := by
    rw [hgoals, foldl_eq_ledger (fun _ event hgoals => trackGoals_eq_ledger hgoals event)
      (by simpa [Docket.start] using (List.nodup_append.mp hnodup).1), foldl_ledger]
    rfl
  have hbeside : Beside (standing (counted spec before)) (.start spec)
      (Docket.run spec (.start spec) before).1 :=
    ⟨hstanding.trans (List.append_nil _).symm, h.undecided, h.reviewed⟩
  rw [Docket.run_append, h.running, ← Docket.run_filter (Docket.lastSeq_le_run _ before) after,
    ← Docket.run_filter (Nat.le_refl (Docket.start spec).lastSeq) after]
  refine hbeside.closing_run (hafter.filter _) ?_ ?_ ?_ h.uncounted
  · rw [hstanding]
    exact hnodup.sublist ((map_seq_standing _).append (List.Sublist.refl _))
  · exact htaken after
  · intro event hevent
    obtain ⟨hmem, -⟩ := List.mem_filter.mp hevent
    exact hcursor event.seq (htaken after event hevent)
      fun earlier hearlier => happart earlier (List.mem_filter.mp hearlier).1 event hmem

/-- The settlement of the settler is the reconciler's, by the same event. -/
theorem reconciled_agrees {market row : MarketState} {before after : List MatchEvent}
    {liveMs fetchedAtMs nowMs : Int} {record : SettlementRecord} (hmarket : Fresh market)
    (hopen : market.status = .open) (hrow : RowOf row market)
    (hstream : ScoreStream market.spec.fixtureId (before ++ after)) (hnow : fetchedAtMs ≤ nowMs)
    (huntouched : Untouched market.spec before after)
    (hlive : liveSettlement market after liveMs = some record) :
    ∃ reconciled, reconcileMarket row (snapshotAt fetchedAtMs (before ++ after)) nowMs =
        some reconciled ∧
      reconciled.outcome = record.outcome ∧ reconciled.decidingSeq = record.decidingSeq ∧
      ∀ event ∈ before, event.seq < reconciled.decidingSeq := by
  have hordered := hstream.pairwise
  have hlater : ∀ event ∈ after, ∀ earlier ∈ before, earlier.seq < event.seq :=
    fun event hevent earlier hearlier =>
      (List.pairwise_append.mp hordered).2.2 earlier hearlier event hevent
  have hclosing := ruling_of_liveSettlement (remains_of_row hmarket.scratch (.inl hopen))
    (fun event hevent => hstream.fixture event (List.mem_append_right _ hevent))
    (fun event hevent => hstream.score event (List.mem_append_right _ hevent)) hlive
  rw [docket_of_row hmarket.scratch hmarket.pending] at hclosing
  have hdecides : ∀ ruling ∈ Docket.closing (Docket.run market.spec (.start market.spec) after),
      ∀ event ∈ before, event.seq < ruling.decidingSeq :=
    Docket.closing_decides (P := fun seq => ∀ event ∈ before, event.seq < seq)
      (by simp [Docket.start]) hlater
  have hagain := hclosing
  rw [← closing_of_untouched hordered huntouched, ← Docket.run_snapshotAt _ fetchedAtMs,
    ← hrow.spec, ← docket_of_row hrow.scratch hrow.pending] at hagain
  have hsnapshot : ∀ event ∈ snapshotAt fetchedAtMs (before ++ after),
      event.fixtureId = row.spec.fixtureId ∧ event.kind ≠ .oddsSuspension ∧
        event.receivedAtMs ≤ nowMs := by
    intro event hevent
    obtain ⟨original, horiginal, rfl⟩ := List.mem_map.mp hevent
    rw [hrow.spec]
    exact ⟨hstream.fixture original horiginal, hstream.score original horiginal, hnow⟩
  obtain ⟨reconciled, hreconciled, hruling⟩ := reconcileMarket_of_closing
    (remains_of_row hrow.scratch hrow.status) hrow.pending
    (fun event hevent => (hsnapshot event hevent).1)
    (fun event hevent => (hsnapshot event hevent).2.1)
    (fun event hevent => (hsnapshot event hevent).2.2) hagain
  have hsame : reconciled.decidingSeq = record.decidingSeq := congrArg (·.decidingSeq) hruling
  refine ⟨reconciled, hreconciled, congrArg (·.outcome) hruling, hsame, fun event hevent => ?_⟩
  rw [hsame]
  exact hdecides record.ruling hclosing event hevent

namespace Sample

/-- A goal before the market is there. -/
def goalBefore : List MatchEvent := [feedEvent .goal 10 .h1 1]

/-- A goal after it, and the end of regulation. -/
def goalAfter : List MatchEvent := [feedEvent .goal 20 .h2 2, feedEvent .phaseChange 30 .f 2]

theorem untouched_goalBefore : Untouched twoGoals goalBefore goalAfter where
  running := by decide +kernel
  undecided := by decide +kernel
  reviewed := by decide +kernel
  uncounted := fun _ _ _ hclaim => by cases hclaim

theorem stream_of_goals (hordered : events.IsChain (·.seq < ·.seq))
    (h : ∀ event ∈ events, event.fixtureId = 17 ∧ event.kind ≠ .oddsSuspension) :
    ScoreStream 17 events where
  ordered := hordered
  fixture := fun event hevent => (h event hevent).1
  score := fun event hevent => (h event hevent).2

theorem rowOf_market (spec : MarketSpec) (hopen : (market spec []).status = .open) :
    RowOf (market spec []) (market spec []) where
  spec := rfl
  scratch := rfl
  pending := rfl
  status := .inl hopen

theorem reconciled_goals :
    ∃ reconciled, reconcileMarket (market twoGoals []) (snapshotAt 40000 (goalBefore ++ goalAfter))
        40000 = some reconciled ∧
      reconciled.outcome = .claimWon ∧ reconciled.decidingSeq = 20 ∧
      ∀ event ∈ goalBefore, event.seq < reconciled.decidingSeq :=
  have hlive : liveSettlement (market twoGoals []) goalAfter 0 = some ⟨.claimWon, 20, [20]⟩ := by
    decide +kernel
  reconciled_agrees (fresh_createMarketFromClaim twoGoals .h1 false) rfl (rowOf_market twoGoals rfl)
    (stream_of_goals (by decide) (by decide)) (by decide) untouched_goalBefore hlive

/-- Player 7 scores twice or more. -/
def brace : MarketSpec :=
  { twoGoals with
    claimType := .playerScoresN
    entityRef := .player 7 "player" (some .one)
    period := .ft }

/-- A goal of the player. -/
def strike (seq : Nat) (phase : GamePhase) (goals : Nat) : MatchEvent :=
  { feedEvent .goal seq phase goals with
    detail := some
      { participant := some .one
        playerNormativeId := some (some 7)
        goalType := none
        card := none
        reversesSeq := none } }

/-- The player's goal from before the market was there counts for the reconciler, and
turns the claim from lost to won. -/
theorem reconciled_brace : ¬ ∀ (live row : MarketState) (before after : List MatchEvent)
    (liveMs fetchedAtMs nowMs : Int) (record : SettlementRecord),
    Fresh live → live.status = .open → RowOf row live →
    ScoreStream live.spec.fixtureId (before ++ after) →
    (∃ last ∈ after.getLast?, last.phase ∈ terminalPhases) → fetchedAtMs ≤ nowMs →
    liveSettlement live after liveMs = some record →
    ∃ reconciled, reconcileMarket row (snapshotAt fetchedAtMs (before ++ after)) nowMs =
        some reconciled ∧
      reconciled.outcome = record.outcome ∧
      ∀ event ∈ before, event.seq < reconciled.decidingSeq := by
  intro h
  obtain ⟨reconciled, hreconciled, houtcome, -⟩ := h (market brace []) (market brace [])
    [strike 10 .h1 1] [strike 20 .h2 2, feedEvent .phaseChange 30 .f 2] 120000 40000 40000
    ⟨.claimLost, 30, [20, 30]⟩ (fresh_createMarketFromClaim brace .h1 false) rfl
    (rowOf_market brace rfl) (stream_of_goals (by decide) (by decide)) ⟨_, rfl, by decide⟩
    (by decide) (by decide +kernel)
  have hwon : reconcileMarket (market brace []) (snapshotAt 40000
      ([strike 10 .h1 1] ++ [strike 20 .h2 2, feedEvent .phaseChange 30 .f 2])) 40000 =
        some ⟨.claimWon, 20, [10, 20]⟩ := by
    decide +kernel
  rw [hwon] at hreconciled
  obtain rfl := Option.some.inj hreconciled
  cases houtcome

end Sample

end CalledIt.Engine
