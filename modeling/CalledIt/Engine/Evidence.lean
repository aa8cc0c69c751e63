import CalledIt.Engine.Signals

/-!
# CalledIt.Engine.Evidence

When the engine and a signer name the same evidence.

The reducer keeps its ledger of goals event by event, from the first event after
the market's creation; a signer folds the whole snapshot.  On distinct sequence
numbers both folds are one (`ledger`), and its result is known in closed form:
the goals of each event, as far as they survive the rest of the stream
(`foldl_ledger`).  The two lists of evidence are equal exactly when no goal that
stands at the deciding event, and matters to the claim, has passed the reducer by
(`evidence_agrees_iff`).
-/

namespace CalledIt.Engine

open Signer (reattribute standingGoals standingGoalsStep evidenceGoal evidenceSequences)

/-! ## one ledger -/

def discards (event : MatchEvent) (seq : Nat) : Bool :=
  event.kind = .goalDiscarded ∧ event.reversesSeq = some seq

/-- What an event says of a standing goal. -/
def amended (event : MatchEvent) (goal : StandingGoal) : StandingGoal :=
  if event.kind = .goalAmended ∧ event.reversesSeq = some goal.seq then reattribute event goal
  else goal

/-- The goal an event scores. -/
def scored (event : MatchEvent) : List StandingGoal :=
  if event.kind = .goal ∧ event.confirmed then [.ofEvent event] else []

/-- One event on a ledger: discards remove, amendments re-amended, goals are
added. -/
def ledger (goals : List StandingGoal) (event : MatchEvent) : List StandingGoal :=
  (goals.filter fun goal => !discards event goal.seq).map (amended event) ++ scored event

@[simp] theorem seq_amended (event : MatchEvent) (goal : StandingGoal) :
    (amended event goal).seq = goal.seq := by
  unfold amended
  split <;> rfl

theorem map_seq_ledger (goals : List StandingGoal) (event : MatchEvent) :
    ((ledger goals event).map (·.seq)).Sublist (goals.map (·.seq) ++ [event.seq]) := by
  unfold ledger
  rw [List.map_append, List.map_map]
  have hkept : (fun goal : StandingGoal => goal.seq) ∘ amended event = (·.seq) :=
    funext (seq_amended event)
  rw [hkept]
  refine List.Sublist.append (List.filter_sublist.map _) ?_
  unfold scored
  split
  · exact List.Sublist.refl _
  · exact List.nil_sublist _

variable {event : MatchEvent}

theorem ledger_of_goal (h : event.kind = .goal ∧ event.confirmed = true)
    (goals : List StandingGoal) : ledger goals event = goals ++ [.ofEvent event] := by
  have hid : amended event = id := by
    funext goal
    simp [amended, h.1]
  simp [ledger, discards, scored, h, hid]

variable {seq : Nat}

theorem ledger_of_discard (h : event.kind = .goalDiscarded) (hseq : event.reversesSeq = some seq)
    (goals : List StandingGoal) :
    ledger goals event = goals.filter (·.seq ≠ seq) := by
  have hid : amended event = id := by
    funext goal
    simp [amended, h]
  simp [ledger, discards, scored, h, hseq, hid, eq_comm (a := seq)]

theorem ledger_of_amend (h : event.kind = .goalAmended) (hseq : event.reversesSeq = some seq)
    (goals : List StandingGoal) :
    ledger goals event =
      goals.map fun goal => if goal.seq = seq then reattribute event goal else goal := by
  simp [ledger, discards, scored, amended, h, hseq, eq_comm (a := seq)]

/-- Any other event leaves a ledger alone. -/
theorem ledger_of_still (hgoal : ¬ (event.kind = .goal ∧ event.confirmed = true))
    (hreverses : event.kind = .goalDiscarded ∨ event.kind = .goalAmended →
      event.reversesSeq = none) (goals : List StandingGoal) :
    ledger goals event = goals := by
  have hdiscards : ∀ seq, discards event seq = false := by
    intro seq
    simp only [discards, decide_eq_false_iff_not]
    rintro ⟨hkind, hseq⟩
    rw [hreverses (.inl hkind)] at hseq
    cases hseq
  have hid : amended event = id := by
    funext goal
    unfold amended
    split
    · next h =>
      rw [hreverses (.inr h.1)] at h
      cases h.2
    · rfl
  simp [ledger, hdiscards, hid, scored, hgoal]

/-! ### the reducer's fold -/

theorem amendGoal_cons (goal : StandingGoal) (goals : List StandingGoal) (seq : Nat)
    (event : MatchEvent) :
    amendGoal (goal :: goals) seq event =
      if goal.seq = seq then reattribute event goal :: goals
      else goal :: amendGoal goals seq event := by
  rw [amendGoal, reattribute]
  cases event.participant <;> cases event.playerNormativeId <;> rfl

variable {goals : List StandingGoal}

theorem map_of_notMem (h : seq ∉ goals.map (·.seq)) (f : StandingGoal → StandingGoal) :
    (goals.map fun goal => if goal.seq = seq then f goal else goal) = goals := by
  refine (List.map_congr_left fun goal hgoal => ?_).trans (List.map_id goals)
  rw [if_neg fun heq => h (List.mem_map.mpr ⟨goal, hgoal, heq⟩)]
  rfl

theorem amendGoal_eq_map (h : (goals.map (·.seq)).Nodup) (seq : Nat) (event : MatchEvent) :
    amendGoal goals seq event =
      goals.map fun goal => if goal.seq = seq then reattribute event goal else goal := by
  induction goals with
  | nil => rfl
  | cons goal goals ih =>
      rw [List.map_cons, List.nodup_cons] at h
      rw [amendGoal_cons, List.map_cons]
      split
      · next heq => rw [map_of_notMem (heq ▸ h.1)]
      · rw [ih h.2]

theorem trackGoals_eq_ledger (h : (goals.map (·.seq)).Nodup)
    (event : MatchEvent) : trackGoals goals event = ledger goals event := by
  unfold trackGoals
  split
  · next hgoal => rw [ledger_of_goal hgoal]
  · next hgoal =>
    split
    · next hnone => rw [ledger_of_still hgoal fun _ => hnone]
    · next seq hseq =>
      split
      · next hkind => rw [ledger_of_discard hkind hseq]
      · next hdiscarded =>
        split
        · next hkind => rw [ledger_of_amend hkind hseq, amendGoal_eq_map h]
        · next hamended =>
          rw [ledger_of_still hgoal fun hkind => absurd hkind (not_or.mpr ⟨hdiscarded, hamended⟩)]

/-! ### the signer's fold -/

/-- The one goal with a sequence number, and those around it. -/
theorem exists_split (h : seq ∈ goals.map (·.seq)) :
    ∃ before goal after, goals = before ++ goal :: after ∧ goal.seq = seq ∧
      goals.findIdx (·.seq = seq) = before.length := by
  induction goals with
  | nil => simp at h
  | cons goal goals ih =>
      by_cases heq : goal.seq = seq
      · exact ⟨[], goal, goals, rfl, heq, by simp [List.findIdx_cons, heq]⟩
      · have hmem : seq ∈ goals.map (·.seq) := by
          rw [List.map_cons, List.mem_cons] at h
          exact h.resolve_left fun hseq => heq hseq.symm
        obtain ⟨before, found, after, hsplit, hseq, hidx⟩ := ih hmem
        refine ⟨goal :: before, found, after, by rw [hsplit]; rfl, hseq, ?_⟩
        simp [List.findIdx_cons, heq, hidx]

theorem findIdx_of_notMem (h : seq ∉ goals.map (·.seq)) :
    goals.findIdx (·.seq = seq) = goals.length := by
  refine List.findIdx_eq_length.mpr fun goal hgoal => ?_
  simp only [decide_eq_false_iff_not]
  exact fun heq => h (List.mem_map.mpr ⟨goal, hgoal, heq⟩)

theorem filter_of_notMem (h : seq ∉ goals.map (·.seq)) :
    goals.filter (·.seq ≠ seq) = goals := by
  refine List.filter_eq_self.mpr fun goal hgoal => ?_
  simp only [ne_eq, decide_not, Bool.not_eq_eq_eq_not, Bool.not_true, decide_eq_false_iff_not]
  exact fun heq => h (List.mem_map.mpr ⟨goal, hgoal, heq⟩)

theorem standingGoalsStep_eq_ledger (h : (goals.map (·.seq)).Nodup)
    (event : MatchEvent) : standingGoalsStep goals event = ledger goals event := by
  unfold standingGoalsStep
  split
  · next hgoal => rw [ledger_of_goal hgoal]
  · next hgoal =>
    split
    · next hnone => rw [ledger_of_still hgoal fun _ => hnone]
    · next seq hseq =>
      by_cases hmem : seq ∈ goals.map (·.seq)
      · obtain ⟨before, found, after, rfl, rfl, hidx⟩ := exists_split hmem
        have hsplit : found.seq ∉ before.map (·.seq) ∧ found.seq ∉ after.map (·.seq) := by
          rw [List.map_append, List.map_cons, List.nodup_append, List.nodup_cons] at h
          exact ⟨fun hbefore => h.2.2 _ hbefore _ List.mem_cons_self rfl, h.2.1.1⟩
        dsimp only
        rw [hidx]
        have hlt : before.length < (before ++ found :: after).length := by simp
        split
        · next hkind =>
          rw [ledger_of_discard hkind.1 hseq, List.filter_append,
            List.filter_cons_of_neg (by simp), filter_of_notMem hsplit.1,
            filter_of_notMem hsplit.2]
          simp [List.eraseIdx_append_of_length_le]
        · next hdiscarded =>
          split
          · next hkind =>
            rw [ledger_of_amend hkind.1 hseq, List.map_append, List.map_cons, if_pos rfl,
              map_of_notMem hsplit.1, map_of_notMem hsplit.2]
            rw [List.modify_eq_take_cons_drop hlt]
            simp
          · next hamended =>
            rw [ledger_of_still hgoal]
            rintro (hkind | hkind)
            · exact absurd ⟨hkind, hlt⟩ hdiscarded
            · exact absurd ⟨hkind, hlt⟩ hamended
      · -- the goal is not on the ledger: nothing to do on either side
        dsimp only
        rw [findIdx_of_notMem hmem]
        simp only [lt_irrefl, and_false, if_false]
        by_cases hdiscarded : event.kind = .goalDiscarded
        · rw [ledger_of_discard hdiscarded hseq, filter_of_notMem hmem]
        · by_cases hamended : event.kind = .goalAmended
          · rw [ledger_of_amend hamended hseq, map_of_notMem hmem]
          · rw [ledger_of_still hgoal fun hkind =>
              absurd hkind (not_or.mpr ⟨hdiscarded, hamended⟩)]

/-! ### closed form -/

variable {events : List MatchEvent}

/-- A fold that is the ledger on distinct sequence numbers. -/
theorem foldl_eq_ledger {f : List StandingGoal → MatchEvent → List StandingGoal}
    (hf : ∀ goals event, (goals.map (·.seq)).Nodup → f goals event = ledger goals event)
    (h : (goals.map (·.seq) ++ events.map (·.seq)).Nodup) :
    events.foldl f goals = events.foldl ledger goals := by
  induction events generalizing goals with
  | nil => rfl
  | cons event events ih =>
      have hgoals : (goals.map (·.seq)).Nodup := (List.nodup_append.mp h).1
      rw [List.foldl_cons, List.foldl_cons, hf goals event hgoals]
      refine ih (h.sublist ?_)
      rw [List.map_cons, ← List.singleton_append, ← List.append_assoc]
      exact (map_seq_ledger goals event).append_right _

/-- A goal after later events, unless one of them discards it. -/
def survives : List MatchEvent → StandingGoal → Option StandingGoal
  | [], goal => some goal
  | event :: events, goal =>
      if discards event goal.seq then none else survives events (amended event goal)

/-- The goals of a stream that stand at its end. -/
def standing : List MatchEvent → List StandingGoal
  | [] => []
  | event :: events => (scored event).filterMap (survives events) ++ standing events

theorem filterMap_survives_cons (goals : List StandingGoal) (event : MatchEvent)
    (events : List MatchEvent) :
    ((goals.filter fun goal => !discards event goal.seq).map (amended event)).filterMap
      (survives events) = goals.filterMap (survives (event :: events)) := by
  rw [List.filterMap_map, List.filterMap_filter]
  refine List.filterMap_congr fun goal _ => ?_
  cases hdiscards : discards event goal.seq <;> simp [survives, hdiscards]

theorem foldl_ledger (goals : List StandingGoal) (events : List MatchEvent) :
    events.foldl ledger goals = goals.filterMap (survives events) ++ standing events := by
  induction events generalizing goals with
  | nil =>
      have hself : goals.filterMap (survives []) = goals := List.filterMap_some
      simp [hself, standing]
  | cons event events ih =>
      rw [List.foldl_cons, ih, ledger, List.filterMap_append, filterMap_survives_cons, standing,
        List.append_assoc]

theorem standing_append (events later : List MatchEvent) :
    standing (events ++ later) =
      (standing events).filterMap (survives later) ++ standing later := by
  have hall : (events ++ later).foldl ledger [] = standing (events ++ later) := by
    rw [foldl_ledger]
    rfl
  have hfirst : events.foldl ledger [] = standing events := by
    rw [foldl_ledger]
    rfl
  rw [← hall, List.foldl_append, hfirst, foldl_ledger]

variable {goal : StandingGoal}

theorem seq_of_survives {later : StandingGoal}
    (h : survives events goal = some later) : later.seq = goal.seq := by
  induction events generalizing goal with
  | nil => rw [← Option.some.inj h]
  | cons event events ih =>
      rw [survives] at h
      split at h
      · cases h
      · rw [ih h, seq_amended]

theorem survives_append (events later : List MatchEvent) (goal : StandingGoal) :
    survives (events ++ later) goal = (survives events goal).bind (survives later) := by
  induction events generalizing goal with
  | nil => rfl
  | cons event events ih =>
      rw [List.cons_append, survives, survives, ih]
      split <;> rfl

theorem mem_standing_iff :
    goal ∈ standing events ↔
      ∃ before event after, events = before ++ event :: after ∧
        (event.kind = .goal ∧ event.confirmed = true) ∧
        survives after (.ofEvent event) = some goal := by
  induction events with
  | nil => simp [standing]
  | cons first events ih =>
      rw [standing, List.mem_append, ih]
      constructor
      · rintro (hfirst | ⟨before, event, after, rfl, hgoal, hsurvives⟩)
        · obtain ⟨scoredGoal, hscored, hsurvives⟩ := List.mem_filterMap.mp hfirst
          unfold scored at hscored
          split at hscored
          · next hgoal =>
            obtain rfl := List.mem_singleton.mp hscored
            exact ⟨[], first, events, rfl, hgoal, hsurvives⟩
          · cases hscored
        · exact ⟨first :: before, event, after, rfl, hgoal, hsurvives⟩
      · rintro ⟨before, event, after, hsplit, hgoal, hsurvives⟩
        cases before with
        | nil =>
            obtain ⟨rfl, rfl⟩ := List.cons.inj hsplit
            refine .inl (List.mem_filterMap.mpr ⟨.ofEvent first, ?_, hsurvives⟩)
            simp [scored, hgoal]
        | cons head before =>
            obtain ⟨rfl, rfl⟩ := List.cons.inj hsplit
            exact .inr ⟨before, event, after, rfl, hgoal, hsurvives⟩

/-- A standing goal keeps the sequence number of its event. -/
theorem exists_event_of_standing
    (h : goal ∈ standing events) : ∃ event ∈ events, event.seq = goal.seq := by
  obtain ⟨before, event, after, rfl, -, hsurvives⟩ := mem_standing_iff.mp h
  exact ⟨event, by simp, (seq_of_survives hsurvives).symm⟩

theorem map_seq_standing (events : List MatchEvent) :
    ((standing events).map (·.seq)).Sublist (events.map (·.seq)) := by
  induction events with
  | nil => exact List.Sublist.refl _
  | cons event events ih =>
      rw [standing, List.map_append, List.map_cons, ← List.singleton_append]
      refine List.Sublist.append ?_ ih
      unfold scored
      split
      · cases hsurvives : survives events (.ofEvent event) with
        | none => simp [hsurvives]
        | some goal =>
            have hseq : goal.seq = event.seq := seq_of_survives hsurvives
            simp [hsurvives, hseq]
      · exact List.nil_sublist _

/-! ## the two lists of evidence -/

/-- The reducer's ledger after a run of a fresh market. -/
theorem goals_of_fresh {row : MarketState} (hrow : Fresh row)
    (h : ((trackedEvents row events).map (·.seq)).Nodup) :
    (scratchOf (reduceAll row events)).goals = standing (trackedEvents row events) := by
  have hempty : (scratchOf row).goals = [] := by
    rw [scratchOf, hrow.scratch]
    rfl
  rw [goals_reduceAll, hempty, foldl_eq_ledger (fun goals event hgoals =>
    trackGoals_eq_ledger hgoals event) (by simpa using h), foldl_ledger]
  rfl

/-- The signer's goals up to an event of an ordered stream. -/
theorem standingGoals_eq_standing {rest : List MatchEvent}
    (h : (events ++ event :: rest).Pairwise (·.seq < ·.seq)) :
    standingGoals (events ++ event :: rest) event.seq = standing (events ++ [event]) := by
  have hsplit : events ++ event :: rest = (events ++ [event]) ++ rest := by simp
  have hnodup : ((events ++ [event]).map (·.seq)).Nodup := by
    rw [hsplit] at h
    exact (List.pairwise_map.mpr ((List.pairwise_append.mp h).1)).imp fun hlt => Nat.ne_of_lt hlt
  have hupto : ∀ x ∈ events ++ [event], decide (x.seq ≤ event.seq) = true := by
    intro x hx
    rw [decide_eq_true_eq]
    rcases List.mem_append.mp hx with hx | hx
    · exact Nat.le_of_lt ((List.pairwise_append.mp h).2.2 x hx event List.mem_cons_self)
    · rw [List.mem_singleton.mp hx]
  have hlater : rest.takeWhile (·.seq ≤ event.seq) = [] := by
    cases rest with
    | nil => rfl
    | cons next rest =>
        have hlt := (List.pairwise_cons.mp (List.pairwise_append.mp h).2.1).1 next
            List.mem_cons_self
        rw [List.takeWhile_cons_of_neg (by simpa using hlt)]
  rw [standingGoals, hsplit, List.takeWhile_append_of_pos hupto, hlater, List.append_nil,
    foldl_eq_ledger (fun goals event hgoals => standingGoalsStep_eq_ledger hgoals event)
      (by simpa using hnodup), foldl_ledger]
  rfl

variable {spec : MarketSpec}

/-- The reducer and the signer look for the same goals. -/
theorem relevantGoal_eq {bound : MarketSpec} (hwell : spec.WellFormed)
    (hsame : SameClaim spec bound) (goal : StandingGoal) :
    relevantGoal bound goal = evidenceGoal spec goal := by
  cases hentity : spec.entityRef with
  | team participant name =>
      rw [hsame.eq_of_team hentity]
      have hteam : spec.claimType ≠ .playerScoresN := fun h => by
        have hid := hwell.mp h
        rw [hentity] at hid
        contradiction
      unfold relevantGoal evidenceGoal
      cases hclaim : spec.claimType <;> simp_all
  | player id name participant =>
      have hclaim : spec.claimType = .playerScoresN := hwell.mpr (by rw [hentity]; rfl)
      obtain ⟨p, rfl⟩ := hsame
      unfold relevantGoal evidenceGoal
      simp only [hclaim, hentity]
      cases p <;> rfl

/-- A player's goals are evidence. -/
theorem countsForPlayer_le {id : Nat} {name : String} {participant : Option Participant}
    (hclaim : spec.claimType = .playerScoresN)
    (hentity : spec.entityRef = .player id name participant)
    (h : countsForPlayer spec id goal = true) : evidenceGoal spec goal = true := by
  unfold countsForPlayer at h
  simp only [evidenceGoal, hclaim, hentity]
  split at h
  · contradiction
  · next hcounted =>
    push Not at hcounted
    simp [hcounted]

theorem playerGoals_eq {id : Nat} {name : String} {participant : Option Participant}
    (hclaim : spec.claimType = .playerScoresN)
    (hentity : spec.entityRef = .player id name participant) (goals : List StandingGoal) :
    Signer.playerGoals spec goals = some (goals.filter (countsForPlayer spec id)).length := by
  simp only [Signer.playerGoals, hclaim, hentity]
  congr 3
  funext goal
  unfold countsForPlayer
  by_cases hplayer : goal.playerNormativeId = some id <;> cases hown : goal.ownGoal <;>
    cases hperiod : spec.period <;> by_cases hshootout : goal.phase = .pe <;>
    simp [hplayer, hshootout]

@[simp] theorem mem_sortedSeqs {seqs : List Nat} {n : Nat} : n ∈ sortedSeqs seqs ↔ n ∈ seqs := by
  simp [sortedSeqs]

/-- A goal that stands at the end of the events and is evidence for the claim was
scored outside the tracked ones. -/
def Missed (spec : MarketSpec) (events tracked : List MatchEvent) : Prop :=
  ∃ before event after goal, events = before ++ event :: after ∧ event ∉ tracked ∧
    (event.kind = .goal ∧ event.confirmed = true) ∧
    survives after (.ofEvent event) = some goal ∧ evidenceGoal spec goal = true

theorem missed_iff {untracked tracked : List MatchEvent}
    (h : ((untracked ++ tracked).map (·.seq)).Nodup) :
    Missed spec (untracked ++ tracked) tracked ↔
      ∃ goal ∈ (standing untracked).filterMap (survives tracked),
        evidenceGoal spec goal = true := by
  have hapart : ∀ event ∈ untracked, event ∉ tracked := by
    intro event huntracked htracked
    rw [List.map_append, List.nodup_append] at h
    exact h.2.2 _ (List.mem_map_of_mem huntracked) _ (List.mem_map_of_mem htracked) rfl
  constructor
  · rintro ⟨before, event, after, goal, hsplit, hmissed, hgoal, hsurvives, hevidence⟩
    rcases List.append_eq_append_iff.mp hsplit with ⟨extra, rfl, htracked⟩ | ⟨extra, rfl, hafter⟩
    · exact absurd (by rw [htracked]; simp) hmissed
    · cases extra with
      | nil =>
          rw [List.nil_append] at hafter
          exact absurd (by rw [← hafter]; exact List.mem_cons_self) hmissed
      | cons head extra =>
          rw [List.cons_append] at hafter
          obtain ⟨rfl, rfl⟩ := List.cons.inj hafter
          rw [survives_append] at hsurvives
          obtain ⟨middle, hmiddle, hlast⟩ := Option.bind_eq_some_iff.mp hsurvives
          exact ⟨goal, List.mem_filterMap.mpr ⟨middle,
            mem_standing_iff.mpr ⟨before, event, extra, rfl, hgoal, hmiddle⟩, hlast⟩, hevidence⟩
  · rintro ⟨goal, hgoal, hevidence⟩
    obtain ⟨middle, hmiddle, hlast⟩ := List.mem_filterMap.mp hgoal
    obtain ⟨before, event, after, rfl, hkind, hsurvives⟩ := mem_standing_iff.mp hmiddle
    refine ⟨before, event, after ++ tracked, goal, by simp, hapart event (by simp), hkind, ?_,
      hevidence⟩
    rw [survives_append, hsurvives]
    exact hlast

/-- The candidate's evidence is the signer's. -/
structure SameEvidence (spec : MarketSpec) (stream : List MatchEvent) (after : MarketState)
    (pending : PendingSettlement) : Prop where
  sequences : evidenceSequences spec (standingGoals stream pending.decidingSeq)
    pending.decidingSeq = pending.evidenceSeqs
  goals : spec.claimType = .playerScoresN →
    Signer.playerGoals spec (standingGoals stream pending.decidingSeq) =
      some (playerGoalCount (scratchOf after) after.spec)

/-- Goals with sequence numbers of their own change the evidence, unless none of
them is evidence. -/
theorem evidenceSequences_append_iff {extra : List StandingGoal} {decidingSeq : Nat}
    (hapart : ∀ goal ∈ extra, goal.seq ∉ goals.map (·.seq) ++ [decidingSeq]) :
    evidenceSequences spec (extra ++ goals) decidingSeq = evidenceSequences spec goals decidingSeq ↔
      ∀ goal ∈ extra, evidenceGoal spec goal = false := by
  constructor
  · intro heq goal hgoal
    by_contra hevidence
    rw [Bool.not_eq_false] at hevidence
    have hmem : goal.seq ∈ evidenceSequences spec (extra ++ goals) decidingSeq := by
      rw [evidenceSequences, mem_sortedSeqs, List.filter_append, List.map_append]
      simp only [List.mem_append]
      exact .inl (.inl (List.mem_map_of_mem (List.mem_filter.mpr ⟨hgoal, hevidence⟩)))
    rw [heq, evidenceSequences, mem_sortedSeqs] at hmem
    refine hapart goal hgoal (List.mem_append.mpr ?_)
    rcases List.mem_append.mp hmem with hmem | hmem
    · exact .inl ((List.filter_sublist.map _).subset hmem)
    · exact .inr hmem
  · intro hnone
    have hempty : extra.filter (evidenceGoal spec) = [] :=
      List.filter_eq_nil_iff.mpr fun goal hgoal => by simp [hnone goal hgoal]
    rw [evidenceSequences, evidenceSequences, List.filter_append, hempty, List.nil_append]

theorem ScoreStream.nodup {fixtureId : Nat}
    (h : ScoreStream fixtureId events) : (events.map (·.seq)).Nodup :=
  (List.pairwise_map.mpr h.pairwise).imp fun hlt => Nat.ne_of_lt hlt

theorem ScoreStream.sublist {fixtureId : Nat} {part : List MatchEvent}
    (h : ScoreStream fixtureId events) (hpart : part.Sublist events) :
    ScoreStream fixtureId part :=
  ⟨(h.pairwise.sublist hpart).isChain, fun x hx => h.fixture x (hpart.subset hx),
    fun x hx => h.score x (hpart.subset hx)⟩

/-- The tracked events end the stream at the event that arms a candidate. -/
theorem exists_untracked_of_arms {row : MarketState} {pre seen rest : List MatchEvent}
    {pending : PendingSettlement}
    (hstream : ScoreStream row.spec.fixtureId (pre ++ seen ++ event :: rest))
    (harms : Arms (reduceAll row seen) event pending) :
    ∃ untracked, pre ++ seen ++ [event] = untracked ++ trackedEvents row (seen ++ [event]) := by
  have hseen : ScoreStream row.spec.fixtureId seen :=
    hstream.sublist ((List.sublist_append_right _ _).trans (List.sublist_append_left _ _))
  have hlive : (reduceAll row seen).status.isTerminal = false := by
    have htaken := harms.staged.taken
    unfold ignored at htaken
    unfold MarketStatus.isTerminal
    simp only [decide_eq_false_iff_not] at htaken ⊢
    exact fun hterminal => htaken (hterminal.elim .inl fun h => .inr (.inl h))
  obtain ⟨untracked, hsplit⟩ := exists_untracked hseen hlive
  refine ⟨pre ++ untracked, ?_⟩
  rw [trackedEvents_append harms.staged, List.append_assoc, List.append_assoc, ← List.append_assoc
    untracked, ← hsplit]

/-- A candidate's evidence is the signer's exactly when every goal that counts for
the claim, and stands when the candidate is armed, has reached the ledger. -/
theorem evidence_agrees_iff {row : MarketState} (hrow : Fresh row) (hwell : row.spec.WellFormed)
    {pre seen rest : List MatchEvent} {event : MatchEvent} {pending : PendingSettlement}
    (hstream : ScoreStream row.spec.fixtureId (pre ++ seen ++ event :: rest))
    (harms : Arms (reduceAll row seen) event pending) :
    SameEvidence row.spec (pre ++ seen ++ event :: rest) (reduceAll row (seen ++ [event])) pending ↔
      ¬ Missed row.spec (pre ++ seen ++ [event]) (trackedEvents row (seen ++ [event])) := by
  obtain ⟨untracked, hsplit⟩ := exists_untracked_of_arms hstream harms
  have hlast : event ∈ trackedEvents row (seen ++ [event]) := by
    rw [trackedEvents_append harms.staged]
    simp
  have harmed := armed_of_pending harms.staged harms.after
  rw [← reduceAll_append] at harmed
  have hsame := sameClaim_reduceAll row seen
  have hsameAfter := sameClaim_reduceAll row (seen ++ [event])
  have hnodup : ((untracked ++ trackedEvents row (seen ++ [event])).map (·.seq)).Nodup := by
    rw [← hsplit]
    refine (hstream.sublist ?_).nodup
    exact List.Sublist.append_left (List.cons_sublist_cons.mpr (List.nil_sublist _)) _
  have hreducer := goals_of_fresh hrow (hnodup.sublist
    ((List.sublist_append_right untracked _).map _))
  have hsigner := standingGoals_eq_standing hstream.pairwise
  rw [hsplit, standing_append] at hsigner
  rw [hsplit, missed_iff hnodup]
  generalize trackedEvents row (seen ++ [event]) = tracked at *
  generalize hextra : (standing untracked).filterMap (survives tracked) = extra at *
  have hapart : ∀ goal ∈ extra, goal.seq ∉ (standing tracked).map (·.seq) ++ [event.seq] := by
    intro goal hgoal hmem
    rw [← hextra] at hgoal
    obtain ⟨middle, hmiddle, hsurvives⟩ := List.mem_filterMap.mp hgoal
    obtain ⟨source, hsource, hseq⟩ := exists_event_of_standing hmiddle
    have hother : ∃ other ∈ tracked, other.seq = goal.seq := by
      rcases List.mem_append.mp hmem with hmem | hmem
      · obtain ⟨found, hfound, hfoundSeq⟩ := List.mem_map.mp hmem
        obtain ⟨other, hother, hotherSeq⟩ := exists_event_of_standing hfound
        exact ⟨other, hother, hotherSeq.trans hfoundSeq⟩
      · exact ⟨event, hlast, (List.mem_singleton.mp hmem).symm⟩
    obtain ⟨other, hother, hotherSeq⟩ := hother
    rw [List.map_append, List.nodup_append] at hnodup
    refine hnodup.2.2 _ (List.mem_map_of_mem hsource) _ (List.mem_map_of_mem hother) ?_
    rw [hseq, hotherSeq, seq_of_survives hsurvives]
  have hevidence : pending.evidenceSeqs =
      evidenceSequences row.spec (standing tracked) event.seq := by
    rw [harmed.evidence, buildEvidence, evidenceSequences, hreducer]
    have hfilter : relevantGoal (reduceAll row seen).spec = evidenceGoal row.spec :=
      funext (relevantGoal_eq hwell hsame)
    rw [hfilter]
  have hnone : (¬ ∃ goal ∈ extra, evidenceGoal row.spec goal = true) ↔
      ∀ goal ∈ extra, evidenceGoal row.spec goal = false := by
    simp
  rw [hnone]
  constructor
  · intro hagree
    have hsequences := hagree.sequences
    rw [harmed.sequence, hsigner, hevidence] at hsequences
    exact (evidenceSequences_append_iff hapart).mp hsequences
  · intro hkept
    refine ⟨?_, fun hclaim => ?_⟩
    · rw [harmed.sequence, hsigner, hevidence]
      exact (evidenceSequences_append_iff hapart).mpr hkept
    · rw [harmed.sequence, hsigner]
      cases hentity : row.spec.entityRef with
      | team participant name =>
          have hid := hwell.mp hclaim
          rw [hentity] at hid
          contradiction
      | player id name participant =>
          have hempty : extra.filter (countsForPlayer row.spec id) = [] := by
            refine List.filter_eq_nil_iff.mpr fun goal hgoal hcounts => ?_
            have hnot := hkept goal hgoal
            rw [countsForPlayer_le hclaim hentity hcounts] at hnot
            contradiction
          obtain ⟨p, hbound⟩ := hsameAfter
          rw [playerGoals_eq hclaim hentity, List.filter_append, hempty, List.nil_append,
            hbound, playerGoalCount, hreducer]
          cases p <;> simp only [hentity, bindEntity] <;> rfl

section Sample

/-- The home side scores at least twice. -/
private def homeTwice : MarketState :=
  createMarketFromClaim
    { claimType := .teamScoresN
      fixtureId := 7
      entityRef := .team .one "home"
      comparator := .gte
      threshold := 2
      period := .ft
      anchor := none
      trustTier := .chainProven } .h1 false

/-- The home side's goal number `goals`, as event `seq`. -/
private def homeGoal (seq goals : Nat) : MatchEvent where
  kind := .goal
  fixtureId := 7
  seq
  tsMs := 1000
  receivedAtMs := 2000
  confirmed := true
  phase := .h1
  minute := some 20
  score := ⟨⟨goals, 0, 0, 0⟩, ⟨0, 0, 0, 0⟩, some goals, some 0⟩
  detail := some ⟨some .one, some none, none, none, none⟩

private theorem homeTwice_wellFormed : homeTwice.spec.WellFormed := by
  constructor <;> intro h <;> cases h

theorem evidence_agrees_from_kickoff :
    SameEvidence homeTwice.spec ([] ++ [homeGoal 1 1] ++ [homeGoal 3 2])
      (reduceAll homeTwice ([homeGoal 1 1] ++ [homeGoal 3 2])) ⟨.claimWon, 3, [1, 3], 92000⟩ := by
  have harms : Arms (reduceAll homeTwice [homeGoal 1 1]) (homeGoal 3 2)
      ⟨.claimWon, 3, [1, 3], 92000⟩ := ⟨by decide +kernel, by decide +kernel⟩
  refine (evidence_agrees_iff (fresh_createMarketFromClaim _ _ _) homeTwice_wellFormed
    ⟨by decide, by decide, by decide⟩ harms).mpr ?_
  rintro ⟨before, event, after, goal, hsplit, hmissed, -⟩
  have htracked : trackedEvents homeTwice ([homeGoal 1 1] ++ [homeGoal 3 2]) =
      [] ++ [homeGoal 1 1] ++ [homeGoal 3 2] := by decide +kernel
  refine hmissed ?_
  rw [← homeTwice, htracked, hsplit]
  simp

/-- One goal before the market's creation, the deciding one after it: the reducer
names the second, the signer both. -/
theorem evidence_differs_after_creation :
    ¬ ∀ (row : MarketState) (pre seen rest : List MatchEvent) (event : MatchEvent)
      (pending : PendingSettlement), Fresh row → row.spec.WellFormed →
      ScoreStream row.spec.fixtureId (pre ++ seen ++ event :: rest) →
      Arms (reduceAll row seen) event pending →
      SameEvidence row.spec (pre ++ seen ++ event :: rest) (reduceAll row (seen ++ [event]))
        pending := by
  intro hagree
  have h := hagree homeTwice [homeGoal 1 1] [] [] (homeGoal 3 2) ⟨.claimWon, 3, [3], 92000⟩
    (fresh_createMarketFromClaim _ _ _) homeTwice_wellFormed ⟨by decide, by decide, by decide⟩
    ⟨by decide +kernel, by decide +kernel⟩
  have hsequences := h.sequences
  revert hsequences
  decide +kernel

end Sample

end CalledIt.Engine
