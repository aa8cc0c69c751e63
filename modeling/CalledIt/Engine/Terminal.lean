import CalledIt.Engine.Requests
import CalledIt.Engine.Evidence
import CalledIt.Signer.Decisions

/-!
# CalledIt.Engine.Terminal

When a finished match leaves a request that the signers accept.

A run of the scheduler keeps the market live, settled or voided (`runState`).  A
live market answers the last event of a finished match with a settlement or a
void of that event, and the signer agrees with it (`terminal_request_accepted`)
as long as a candidate, decided one event earlier, still has the outcome of the
last event.  A market that was settled before has nothing to say any more: its
requests are about an earlier event.
-/

namespace CalledIt.Engine

open Lib
open Escrow (Bytes)
open Signer (standingGoals evidenceSequences evidenceGoal)

/-! ## live markets -/

theorem standing_concat (events : List MatchEvent) (event : MatchEvent) :
    standing (events ++ [event]) = ledger (standing events) event := by
  have hall : ∀ evs : List MatchEvent, evs.foldl ledger [] = standing evs := by
    intro evs
    rw [foldl_ledger]
    rfl
  rw [← hall, List.foldl_append, hall]
  rfl

/-- The cursor a market starts with. -/
def firstCursor (spec : MarketSpec) : Nat := (initialScratch spec).lastSeq

/-- A market still undecided after the skipped and the tracked events of a run. -/
structure Live (row : MarketState) (skipped tracked : List MatchEvent) (state : MarketState) :
    Prop where
  spec : state.spec = row.spec
  lineup : state.status ≠ .pendingLineup
  status : state.status.isTerminal = false
  below : ∀ event ∈ skipped, event.seq ≤ firstCursor row.spec
  goals : (scratchOf state).goals = standing tracked
  cursor : (scratchOf state).lastSeq = (tracked.getLast?.map (·.seq)).getD (firstCursor row.spec)
  pending : ∀ pending, state.pendingSettlement = some pending →
    ∃ before deciding, tracked = before ++ [deciding] ∧ deciding.phase ∉ voidPhases ∧
      ArmedAt (scratchOf state) row.spec deciding pending

theorem Live.ofRow {row : MarketState} (hrow : Fresh row) (hopen : row.status = .open) :
    Live row [] [] row where
  spec := rfl
  lineup := by
    rw [hopen]
    decide
  status := by
    rw [hopen]
    rfl
  below := by simp
  goals := by
    rw [scratchOf, hrow.scratch]
    rfl
  cursor := by
    rw [scratchOf, hrow.scratch]
    rfl
  pending := by
    intro pending h
    rw [hrow.pending] at h
    cases h

/-- Taps change nothing here. -/
theorem Live.withPositions {row : MarketState} {skipped tracked : List MatchEvent}
    {state : MarketState} (h : Live row skipped tracked state) (positions : List Position) :
    Live row skipped tracked { state with positions } :=
  ⟨h.spec, h.lineup, h.status, h.below, h.goals, h.cursor, h.pending⟩

section Step

variable {row : MarketState} {skipped tracked : List MatchEvent} {state : MarketState}
  {event : MatchEvent}

/-- A later score event reaches the market, unless it lies below the first cursor. -/
theorem Live.taken (h : Live row skipped tracked state)
    (hstream : ScoreStream row.spec.fixtureId (skipped ++ tracked ++ [event]))
    (hignored : ignored state event = true) :
    tracked = [] ∧ event.seq ≤ firstCursor row.spec := by
  have hfixture : event.fixtureId = state.spec.fixtureId := by
    rw [h.spec]
    exact hstream.fixture event (by simp)
  have hstatus := h.status
  simp only [MarketStatus.isTerminal, decide_eq_false_iff_not, not_or] at hstatus
  have hseq : event.seq ≤ (scratchOf state).lastSeq := by
    by_contra hlt
    unfold ignored at hignored
    simp [hstatus, hfixture, hlt] at hignored
  rw [h.cursor] at hseq
  cases hlast : tracked.getLast? with
  | none =>
      rw [hlast] at hseq
      exact ⟨List.getLast?_eq_none_iff.mp hlast, hseq⟩
  | some last =>
      rw [hlast] at hseq
      have hlt := (List.pairwise_append.mp hstream.pairwise).2.2 last
        (List.mem_append_right _ (List.mem_of_getLast? hlast)) event (List.mem_singleton.mpr rfl)
      exact absurd hseq (Nat.not_le.mpr hlt)

/-- A staged event joins the tracked ones. -/
theorem Live.goals_of_staged (h : Live row skipped tracked state)
    (hstream : ScoreStream row.spec.fixtureId (skipped ++ tracked ++ [event]))
    (hstaged : Staged state event) :
    (scratchOf (reduceMarket state event).state).goals = standing (tracked ++ [event]) := by
  have hnodup : ((standing tracked).map (·.seq)).Nodup := by
    refine (hstream.sublist ?_).nodup.sublist (map_seq_standing tracked)
    exact (List.sublist_append_right _ _).trans (List.sublist_append_left _ _)
  have hgoals : (scratchOf (reduceMarket state event).state).goals =
      trackGoals (scratchOf state).goals event := congrArg Prod.snd (ledger_of_staged hstaged)
  rw [hgoals, h.goals, trackGoals_eq_ledger hnodup, standing_concat]

/-- What a live market becomes at a taken event. -/
theorem Live.step (h : Live row skipped tracked state)
    (hstream : ScoreStream row.spec.fixtureId (skipped ++ tracked ++ [event]))
    (htaken : ignored state event = false)
    (hnext : (reduceMarket state event).state.status.isTerminal = false) :
    Live row skipped (tracked ++ [event]) (reduceMarket state event).state := by
  have hstaged : Staged state event := by
    by_contra hnot
    have hvoid : event.phase ∈ voidPhases ∨ event.kind = .coverageWarning := by
      by_contra hneither
      push Not at hneither
      exact hnot ⟨htaken, h.lineup, hneither.1, hneither.2⟩
    rw [reduceMarket_of_void htaken h.lineup hvoid] at hnext
    contradiction
  have hspec : (reduceMarket state event).state.spec = row.spec := by
    rw [hstaged.reduceMarket_eq, spec_settlementStage, spec_cutoffStage, h.spec]
  refine ⟨hspec, fun hwaits => h.lineup (status_reduceMarket hwaits), hnext, h.below,
    h.goals_of_staged hstream hstaged, ?_, ?_⟩
  · rw [lastSeq_of_staged hstaged (hstream.score event (by simp))]
    simp
  · intro pending hpending
    have harmed := armed_of_pending hstaged hpending
    rw [h.spec] at harmed
    exact ⟨tracked, event, rfl, hstaged.phase, harmed⟩

end Step

/-! ## the last event -/

variable {stage : Stage}

theorem underDoubt_applyResolution {event : MatchEvent}
    (h : stage.scratch.underDoubt = true → resolves stage.scratch event = true) :
    (applyResolution stage event).scratch.underDoubt = false := by
  unfold applyResolution
  by_cases hresolves : resolves stage.scratch event = true
  · rw [if_pos hresolves]
    split_ifs <;> rfl
  · rw [if_neg hresolves]
    exact Bool.eq_false_iff.mpr fun hdoubt => hresolves (h hdoubt)

/-- The cutoff replaces a freeze reason or leaves it. -/
theorem resolves_cutoffStage {state : MarketState} {event : MatchEvent}
    (h : (scratchOf state).underDoubt = true → resolves (scratchOf state) event = true)
    (hdoubt : (cutoffStage state event).scratch.underDoubt = true) :
    resolves (cutoffStage state event).scratch event = true := by
  have hadvance : (advance (scratchOf state) event).freezeReason =
      (scratchOf state).freezeReason := by
    unfold advance
    split <;> rfl
  have hreason : (cutoffStage state event).scratch.freezeReason = some .cutoff ∨
      (cutoffStage state event).scratch.freezeReason = (scratchOf state).freezeReason := by
    unfold cutoffStage applyCutoff
    split_ifs
    · exact .inl rfl
    · exact .inr hadvance
    · exact .inr hadvance
  rcases hreason with hreason | hreason
  · rw [ReducerScratch.underDoubt, hreason] at hdoubt
    contradiction
  · have hsame : (cutoffStage state event).scratch.underDoubt = (scratchOf state).underDoubt := by
      rw [ReducerScratch.underDoubt, ReducerScratch.underDoubt, hreason]
    rw [hsame] at hdoubt
    have hresolves := h hdoubt
    unfold resolves at hresolves ⊢
    rwa [hsame, hreason]

/-- At the end of a match an undoubted evaluation arms a candidate or voids. -/
theorem evaluateStage_of_terminal {event : MatchEvent} (hconfirmed : event.confirmed = true)
    (hterminal : event.phase ∈ terminalPhases) (hdoubt : stage.scratch.underDoubt = false) :
    (∃ pending, (evaluateStage stage event).state.pendingSettlement = some pending) ∨
      ∃ reason, .void reason ∈ (evaluateStage stage event).effects := by
  have hvoid : ∀ reason, ∃ r, .void r ∈ (stage.void reason).effects :=
    fun reason => ⟨reason, List.mem_append_right _ (List.mem_singleton.mpr rfl)⟩
  have hready : event.confirmed = true ∧ (!stage.scratch.underDoubt) = true :=
    ⟨hconfirmed, by rw [hdoubt]; rfl⟩
  unfold evaluateStage
  rw [if_pos hready]
  split
  · exact .inr (hvoid _)
  · exact .inl ⟨_, rfl⟩
  · rw [if_pos hterminal]
    exact .inr (hvoid _)

theorem signalStage_of_terminal {event : MatchEvent} (hhold : isHoldSignal event = false)
    (hconfirmed : event.confirmed = true) (hterminal : event.phase ∈ terminalPhases)
    (hdoubt : stage.scratch.underDoubt = true → resolves stage.scratch event = true) :
    (∃ pending, (signalStage stage event).state.pendingSettlement = some pending) ∨
      ∃ reason, .void reason ∈ (signalStage stage event).effects := by
  have heq : signalStage stage event = evaluateStage (applyResolution stage event) event := by
    unfold signalStage
    rw [hhold]
    rfl
  rw [heq]
  exact evaluateStage_of_terminal hconfirmed hterminal (underDoubt_applyResolution hdoubt)

/-- How a market answers the last event of a match. -/
theorem reduceMarket_of_terminal_phase {state : MarketState} {event : MatchEvent}
    (h : Staged state event) (hhold : isHoldSignal event = false)
    (hconfirmed : event.confirmed = true) (hterminal : event.phase ∈ terminalPhases)
    (hdoubt : (scratchOf state).underDoubt = true → resolves (scratchOf state) event = true) :
    (∃ pending, state.pendingSettlement = some pending ∧ isReversal event = false ∧
      .settle pending.outcome pending.decidingSeq pending.evidenceSeqs ∈
        (reduceMarket state event).effects) ∨
    (∃ pending, (reduceMarket state event).state.pendingSettlement = some pending) ∨
    ∃ reason, .void reason ∈ (reduceMarket state event).effects := by
  have hpending : (cutoffStage state event).state.pendingSettlement = state.pendingSettlement := by
    unfold cutoffStage applyCutoff
    split_ifs <;> rfl
  rw [h.reduceMarket_eq, settlementStage, hpending, hhold]
  cases hprior : state.pendingSettlement with
  | none =>
      exact .inr (signalStage_of_terminal hhold hconfirmed hterminal (resolves_cutoffStage hdoubt))
  | some prior =>
      cases hreversal : isReversal event with
      | true =>
          refine .inr (signalStage_of_terminal hhold hconfirmed hterminal fun hdoubt => ?_)
          -- a dropped candidate leaves no doubt behind
          unfold dropCandidate ReducerScratch.underDoubt at hdoubt
          dsimp only at hdoubt
          split at hdoubt <;> contradiction
      | false =>
          refine .inl ⟨prior, rfl, rfl, ?_⟩
          simp [settleNow, hpending, hprior]

/-! ## runs of the scheduler -/

variable {deciding : MatchEvent}

section Run

open Scheduler (Deployment Delivery SchedulerState WorkflowRequest ValidContext hydrate runAll
  belowWatermark requiresWorkflowContext requestsFor voidAt settlementAt)

variable (sha256 : List UInt8 → Bytes 32) (deployment : Deployment) (row : MarketState)

/-- The market after a run. -/
def marketAfter (deliveries : List Delivery) : MarketState :=
  (runAll sha256 deployment row deliveries).cached.getD row

/-- The market as the scheduler hands it to the reducer for the next delivery. -/
theorem hydrate_eq (deliveries : List Delivery) (positions : List Position) :
    hydrate row (runAll sha256 deployment row deliveries) positions =
      { marketAfter sha256 deployment row deliveries with positions } := rfl

theorem runAll_concat (deliveries : List Delivery) (next : Delivery) :
    runAll sha256 deployment row (deliveries ++ [next]) =
      Scheduler.reduce sha256 deployment row (runAll sha256 deployment row deliveries) next := by
  rw [runAll, List.foldl_append]
  rfl

/-- Deliveries of one fixture's score feed, each with a market context. -/
structure LiveStream (deliveries : List Delivery) : Prop where
  stream : ScoreStream row.spec.fixtureId (deliveries.map (·.event))
  context : ∀ d ∈ deliveries, ValidContext deployment d.event.fixtureId d.context

variable {sha256 deployment row} {deliveries : List Delivery} {next : Delivery}

theorem LiveStream.init (h : LiveStream deployment row (deliveries ++ [next])) :
    LiveStream deployment row deliveries :=
  ⟨h.stream.sublist ((List.sublist_append_left _ _).map _),
    fun d hd => h.context d (List.mem_append_left _ hd)⟩

theorem LiveStream.lt (h : LiveStream deployment row (deliveries ++ [next])) {d : Delivery}
    (hd : d ∈ deliveries) : d.event.seq < next.event.seq := by
  have hpairwise := h.stream.pairwise
  rw [List.map_append] at hpairwise
  exact (List.pairwise_append.mp hpairwise).2.2 _ (List.mem_map_of_mem hd) _ (by simp)

variable (sha256 row) in
/-- One step of the scheduler with a valid context. -/
theorem reduce_cases (s : SchedulerState)
    (hvalid : ValidContext deployment next.event.fixtureId next.context)
    (hscore : next.event.kind ≠ .oddsSuspension) (habove : belowWatermark s next.event = false) :
    (ignored (hydrate row s next.positions) next.event = true ∧
      Scheduler.reduce sha256 deployment row s next = s) ∨
    (ignored (hydrate row s next.positions) next.event = false ∧
      ∃ requests, Scheduler.reduce sha256 deployment row s next =
          { cached := some (reduceMarket (hydrate row s next.positions) next.event).state
            watermark := some next.event.seq
            requests := s.requests ++ requests } ∧
        (requiresWorkflowContext (reduceMarket (hydrate row s next.positions) next.event).effects
          next.event (hydrate row s next.positions).pendingSettlement
          (reduceMarket (hydrate row s next.positions) next.event).state.pendingSettlement = true →
          requestsFor sha256 deployment next.context next.event (hydrate row s next.positions)
            (reduceMarket (hydrate row s next.positions) next.event) = .ok requests)) := by
  obtain ⟨protection, effects, candidate, hrequests, -⟩ := Scheduler.exists_requestsFor sha256
    hvalid (hydrate row s next.positions)
    (reduceMarket (hydrate row s next.positions) next.event)
  by_cases hignored : ignored (hydrate row s next.positions) next.event = true
  · refine .inl ⟨hignored, ?_⟩
    simp [Scheduler.reduce, habove, hignored]
  · rw [Bool.not_eq_true] at hignored
    refine .inr ⟨hignored, ?_⟩
    by_cases hrequired : requiresWorkflowContext
        (reduceMarket (hydrate row s next.positions) next.event).effects
        next.event (hydrate row s next.positions).pendingSettlement
        (reduceMarket (hydrate row s next.positions) next.event).state.pendingSettlement = true
    · refine ⟨protection ++ effects.flatten ++ candidate, ?_, fun _ => hrequests⟩
      simp [Scheduler.reduce, habove, hignored, hrequired, hrequests, hscore]
    · refine ⟨[], ?_, fun h => absurd h hrequired⟩
      simp [Scheduler.reduce, habove, hignored, hrequired, hscore]

theorem watermark_mem (h : LiveStream deployment row deliveries) {w : Nat}
    (hw : (runAll sha256 deployment row deliveries).watermark = some w) :
    ∃ d ∈ deliveries, d.event.seq = w := by
  induction deliveries using List.reverseRecOn with
  | nil => cases hw
  | append_singleton deliveries next ih =>
      rw [runAll_concat] at hw
      unfold Scheduler.reduce at hw
      dsimp only at hw
      have hearlier : (runAll sha256 deployment row deliveries).watermark = some w →
          ∃ d ∈ deliveries ++ [next], d.event.seq = w := fun hbefore => by
        obtain ⟨d, hd, hseq⟩ := ih h.init hbefore
        exact ⟨d, List.mem_append_left _ hd, hseq⟩
      split at hw
      · exact hearlier hw
      · split at hw
        · exact hearlier hw
        · split at hw
          · exact hearlier hw
          · simp only at hw
            split at hw
            · exact ⟨next, by simp, Option.some.inj hw⟩
            · exact hearlier hw

theorem LiveStream.above (h : LiveStream deployment row (deliveries ++ [next])) :
    belowWatermark (runAll sha256 deployment row deliveries) next.event = false := by
  unfold belowWatermark
  split
  · next w hw =>
    obtain ⟨d, hd, hseq⟩ := watermark_mem h.init hw
    have hlt := h.lt hd
    rw [decide_eq_false_iff_not]
    omega
  · rfl

/-- A delivery turns the market void. -/
structure Voids (sha256 : List UInt8 → Bytes 32) (deployment : Deployment) (row : MarketState)
    (before : List Delivery) (v : Delivery) : Prop where
  first : (marketAfter sha256 deployment row before).status ≠ .voided
  voided : (marketAfter sha256 deployment row (before ++ [v])).status = .voided

/-- Where a run can have brought the market. -/
inductive RunState (sha256 : List UInt8 → Bytes 32) (deployment : Deployment) (row : MarketState)
    (deliveries : List Delivery) : Prop
  | live (skipped tracked : List MatchEvent)
      (split : deliveries.map (·.event) = skipped ++ tracked)
      (market : Live row skipped tracked (marketAfter sha256 deployment row deliveries))
  | settled (status : (marketAfter sha256 deployment row deliveries).status = .settled)
  | voided (before after : List Delivery) (v : Delivery)
      (status : (marketAfter sha256 deployment row deliveries).status = .voided)
      (split : deliveries = before ++ v :: after) (by_v : Voids sha256 deployment row before v)
      (request : .voidMarket (voidAt sha256 deployment v.context.binding v.event
        (Scheduler.voidReason v.event) v.event.seq) ∈
          (runAll sha256 deployment row deliveries).requests)
      (agreed : ∀ goals, Signer.voidReason v.event
        (Signer.claimedOutcome row.spec v.event goals) = some (Scheduler.voidReason v.event))

/-- A delivery that the market ignores leaves the run where it was. -/
theorem RunState.ignored_step (h : RunState sha256 deployment row deliveries)
    (hsame : runAll sha256 deployment row (deliveries ++ [next]) =
      runAll sha256 deployment row deliveries)
    (hskipped : ∀ skipped tracked, deliveries.map (·.event) = skipped ++ tracked →
      Live row skipped tracked (marketAfter sha256 deployment row deliveries) →
      tracked = [] ∧ next.event.seq ≤ firstCursor row.spec) :
    RunState sha256 deployment row (deliveries ++ [next]) := by
  have hmarket : marketAfter sha256 deployment row (deliveries ++ [next]) =
      marketAfter sha256 deployment row deliveries := by
    rw [marketAfter, hsame]
    rfl
  cases h with
  | live skipped tracked split market =>
      obtain ⟨rfl, hbelow⟩ := hskipped skipped tracked split market
      rw [List.append_nil] at split
      refine .live (skipped ++ [next.event]) [] (by simp [split]) ?_
      rw [hmarket]
      refine ⟨market.spec, market.lineup, market.status, ?_, market.goals, market.cursor,
        market.pending⟩
      intro event hevent
      rcases List.mem_append.mp hevent with hevent | hevent
      · exact market.below event hevent
      · rw [List.mem_singleton.mp hevent]
        exact hbelow
  | settled status => exact .settled (by rw [hmarket]; exact status)
  | voided before after v status split by_v request agreed =>
      refine .voided before (after ++ [next]) v (by rw [hmarket]; exact status)
        (by rw [split]; simp) by_v ?_ agreed
      rw [hsame]
      exact request

theorem requiresWorkflowContext_of_effect {effects : List MarketEffect} {effect : MarketEffect}
    (heffect : effect ∈ effects) (hworkflow : Scheduler.isWorkflowEffect effect = true)
    (event : MatchEvent) (previous current : Option PendingSettlement) :
    requiresWorkflowContext effects event previous current = true := by
  unfold requiresWorkflowContext
  simp only [decide_eq_true_eq]
  exact .inr (.inr (List.any_eq_true.mpr ⟨effect, heffect, hworkflow⟩))

/-- A run of a market that opened for staking leaves it live, settled or voided. -/
theorem runState (hrow : Fresh row) (hopen : row.status = .open) (hwell : row.spec.WellFormed)
    (h : LiveStream deployment row deliveries) : RunState sha256 deployment row deliveries := by
  induction deliveries using List.reverseRecOn with
  | nil => exact .live [] [] rfl (.ofRow hrow hopen)
  | append_singleton deliveries next ih =>
      have hprior := ih h.init
      have hvalid := h.context next (by simp)
      have hscore := h.stream.score next.event (by simp)
      have hstreamOf : ∀ skipped tracked, deliveries.map (·.event) = skipped ++ tracked →
          ScoreStream row.spec.fixtureId (skipped ++ tracked ++ [next.event]) := by
        intro skipped tracked hsplit
        have hstream := h.stream
        rwa [List.map_append, hsplit] at hstream
      rcases reduce_cases sha256 row _ hvalid hscore h.above with
        ⟨hignored, hsame⟩ | ⟨htaken, requests, hstep, hrequests⟩
      · refine hprior.ignored_step ((runAll_concat _ _ _ _ _).trans hsame) ?_
        intro skipped tracked hsplit hlive
        exact (hlive.withPositions next.positions).taken (hstreamOf _ _ hsplit) hignored
      · rw [hydrate_eq] at htaken hstep hrequests
        have hmarket : marketAfter sha256 deployment row (deliveries ++ [next]) =
            (reduceMarket { marketAfter sha256 deployment row deliveries with
              positions := next.positions } next.event).state := by
          rw [marketAfter, runAll_concat, hstep]
          rfl
        cases hprior with
        | settled status => simp [ignored, status] at htaken
        | voided before after v status => simp [ignored, status] at htaken
        | live skipped tracked split market =>
            have hlive := market.withPositions next.positions
            by_cases hvoided : (marketAfter sha256 deployment row (deliveries ++ [next])).status =
                .voided
            · have hfirst : (marketAfter sha256 deployment row deliveries).status ≠ .voided := by
                intro hbefore
                have hstatus := market.status
                rw [hbefore] at hstatus
                contradiction
              obtain ⟨reason, hmem⟩ := void_mem_of_voided hlive.lineup hfirst (hmarket ▸ hvoided)
              have hsameClaim : SameClaim row.spec ({ marketAfter sha256 deployment row deliveries
                  with positions := next.positions } : MarketState).spec := by
                rw [hlive.spec]
                exact .refl _
              refine .voided deliveries [] next hvoided rfl ⟨hfirst, hvoided⟩ ?_
                (voidReason_of_void_effect hwell hsameClaim hlive.lineup hmem)
              rw [runAll_concat, hstep]
              refine List.mem_append_right _ (Scheduler.mem_requestsFor_of_effect sha256 hvalid
                (hrequests (requiresWorkflowContext_of_effect hmem rfl _ _ _)) hmem ?_)
              rw [Scheduler.applyEffect, Scheduler.buildEscrowVoidAttestation_eq sha256 hvalid]
              rfl
            · by_cases hsettled : (marketAfter sha256 deployment row
                  (deliveries ++ [next])).status = .settled
              · exact .settled hsettled
              · refine .live skipped (tracked ++ [next.event]) (by simp [split]) ?_
                rw [hmarket] at hvoided hsettled ⊢
                refine hlive.step (hstreamOf _ _ split) htaken ?_
                simp [MarketStatus.isTerminal, hvoided, hsettled]

/-! ## acceptance -/

/-- The request, restored from its stored form, passes the signer's check. -/
def Accepted (sha256 : List UInt8 → Bytes 32) (spec : MarketSpec) (events : List MatchEvent)
    (request : WorkflowRequest) : Prop :=
  match Payload.attestationSigningRequest request with
  | .ok (.settlement attestation) =>
      Signer.verifySettlement sha256 attestation spec events = .ok ()
  | .ok (.void attestation) => Signer.verifyVoid sha256 attestation spec events = .ok ()
  | _ => False

variable {spec : MarketSpec} {events : List MatchEvent}
  {context : Scheduler.WorkflowContext} {latest : MatchEvent}

theorem voidAt_accepted {event : MatchEvent} {reason : Escrow.VoidReason}
    (hvalid : ValidContext deployment event.fixtureId context)
    (hlatest : Signer.Latest events latest) (hnamed : Signer.Deciding events event.seq event)
    (hreason : Signer.voidReason event
      (Signer.claimedOutcome spec event (standingGoals events event.seq)) = some reason)
    (hstanding : Signer.voidReason latest
      (Signer.claimedOutcome spec latest (standingGoals events latest.seq)) = some reason) :
    Accepted sha256 spec events
      (.voidMarket (voidAt sha256 deployment context.binding event reason event.seq)) := by
  have hrestored : Payload.restoreVoid (voidAt sha256 deployment context.binding event reason
      event.seq) = .ok (voidAt sha256 deployment context.binding event reason event.seq) :=
    Payload.restoreVoid_eq (Scheduler.storable_commonFields hvalid (Sdk.length_digest _ _))
      (Int.natCast_nonneg _)
  rw [Accepted, Payload.attestationSigningRequest, hrestored]
  exact Signer.verifyVoid_ok_iff.mpr ⟨latest, event, hlatest, hnamed, rfl, hreason, hstanding⟩

theorem phaseText_of_terminal {phase : GamePhase} (h : phase ∈ terminalPhases) :
    Sdk.phaseText phase ∈ Payload.terminalPhaseTexts := by
  revert h
  cases phase <;> decide

/-- The builder and the signer read the same regulation score. -/
theorem regulationScore_settlementAt (outcome : Sdk.ClaimOutcome) (decidingSequence : Nat)
    (evidenceSequences : List Nat) :
    (settlementAt sha256 deployment context.binding latest outcome decidingSequence
      evidenceSequences).regulationScore = Signer.regulationScore latest := by
  unfold settlementAt Signer.regulationScore Signer.score
  cases latest.score.p1Goals90 <;> cases latest.score.p2Goals90 <;> rfl

theorem validScore_regulationScore (event : MatchEvent) :
    (Signer.regulationScore event).all Payload.validScore = true := by
  unfold Signer.regulationScore Signer.score
  split
  · simp [Payload.validScore]
  · split
    · simp [Payload.validScore]
    · rfl

theorem settlementAt_accepted {outcome : Sdk.ClaimOutcome}
    (hvalid : ValidContext deployment latest.fixtureId context)
    (hfixture : latest.fixtureId = spec.fixtureId) (hlatest : Signer.Latest events latest)
    (hterminal : latest.phase ∈ terminalPhases)
    (hnamed : Signer.Deciding events deciding.seq deciding) (horder : deciding.seq ≤ latest.seq)
    (houtcome : Signer.claimedOutcome spec deciding (standingGoals events deciding.seq) =
      some (Signer.claimedBy outcome))
    (hstanding : Signer.claimedOutcome spec latest (standingGoals events latest.seq) =
      some (Signer.claimedBy outcome)) :
    Accepted sha256 spec events
      (.settleMarket (settlementAt sha256 deployment context.binding latest outcome deciding.seq
        (evidenceSequences spec (standingGoals events deciding.seq) deciding.seq))) := by
  generalize hseqs : evidenceSequences spec (standingGoals events deciding.seq) deciding.seq =
    sequences
  have hregulation : (settlementAt sha256 deployment context.binding latest outcome deciding.seq
      sequences).regulationScore = Signer.regulationScore latest :=
    regulationScore_settlementAt outcome deciding.seq sequences
  have hrestored : Payload.restoreSettlement (settlementAt sha256 deployment context.binding latest
      outcome deciding.seq sequences) = .ok (settlementAt sha256 deployment context.binding latest
      outcome deciding.seq sequences) := by
    refine Payload.restoreSettlement_eq
      (Scheduler.storable_commonFields hvalid (Sdk.length_digest _ _)) (Int.natCast_nonneg _)
      (phaseText_of_terminal hterminal) ?_ ?_ (Sdk.length_digest _ _) (Sdk.length_digest _ _)
    · rw [hregulation]
      exact validScore_regulationScore latest
    · simp [settlementAt, Payload.validScore]
  rw [Accepted, Payload.attestationSigningRequest, hrestored]
  refine Signer.verifySettlement_ok_iff.mpr ⟨latest, deciding, hlatest, hterminal, hnamed, horder,
    rfl, houtcome, ?_, rfl, rfl, hregulation, rfl, hstanding⟩
  rw [hseqs, ← hfixture]
  rfl

/-! ## finished matches -/

/-- The condition under which a finished match is answered: the market is still
there for the last event, and a candidate agrees with it. -/
structure Answerable (sha256 : List UInt8 → Bytes 32) (deployment : Deployment)
    (row : MarketState) (deliveries : List Delivery) (last : MatchEvent) : Prop where
  unsettled : (marketAfter sha256 deployment row deliveries).status ≠ .settled
  voided : ∀ before v after, deliveries = before ++ v :: after →
    Voids sha256 deployment row before v →
    Signer.voidReason last (evaluateSpec row.spec last.score last.phase none) =
      some (Scheduler.voidReason v.event)
  cursor : firstCursor row.spec < last.seq
  candidate : ∀ pending,
    (marketAfter sha256 deployment row deliveries).pendingSettlement = some pending →
    isReversal last = false → last.kind ≠ .coverageWarning →
    evaluateSpec row.spec last.score last.phase none = some pending.outcome
  goals : ∀ d ∈ deliveries, d.event.kind = .goal → d.event.confirmed = true →
    firstCursor row.spec < d.event.seq

section Team

variable (hclaim : row.spec.claimType ≠ .playerScoresN)

include hclaim

theorem claimedOutcome_of_team (event : MatchEvent) (goals : List StandingGoal) :
    Signer.claimedOutcome row.spec event goals =
      evaluateSpec row.spec event.score event.phase none := by
  have hgoals : Signer.playerGoals row.spec goals = none := by
    unfold Signer.playerGoals
    split
    · next h _ => exact absurd h hclaim
    · rfl
  rw [Signer.claimedOutcome, hgoals]

theorem outcomeAt_of_team (scratch : ReducerScratch) (event : MatchEvent) :
    outcomeAt scratch row.spec event = evaluateSpec row.spec event.score event.phase none := by
  rw [outcomeAt, if_neg hclaim]

end Team

variable {skipped : List MatchEvent}

/-- Skipped events leave no goal behind. -/
theorem standing_of_skipped
    (h : ∀ event ∈ skipped, ¬ (event.kind = .goal ∧ event.confirmed = true)) :
    standing skipped = [] := by
  refine List.eq_nil_iff_forall_not_mem.mpr fun goal hgoal => ?_
  obtain ⟨before, event, after, rfl, hevent, -⟩ := mem_standing_iff.mp hgoal
  exact h event (by simp) hevent

theorem exists_claimOutcome {outcome : SettlementOutcome} (h : outcome ≠ .void) :
    ∃ claimed, Scheduler.claimOutcome outcome = some claimed ∧
      Signer.claimedBy claimed = outcome := by
  cases outcome with
  | claimWon => exact ⟨.claimWon, rfl, rfl⟩
  | claimLost => exact ⟨.claimLost, rfl, rfl⟩
  | void => exact absurd rfl h

/-- An armed candidate's evidence is the signer's when nothing relevant was
skipped. -/
theorem ArmedAt.evidence_eq (hwell : row.spec.WellFormed) {before after : List MatchEvent}
    {scratch : ReducerScratch} {pending : PendingSettlement}
    (harmed : ArmedAt scratch row.spec deciding pending)
    (hgoals : scratch.goals = standing (before ++ [deciding])) (hskipped : standing skipped = [])
    (hordered : (skipped ++ before ++ deciding :: after).Pairwise (·.seq < ·.seq)) :
    pending.evidenceSeqs = evidenceSequences row.spec
      (standingGoals (skipped ++ before ++ deciding :: after) deciding.seq) deciding.seq := by
  have hfilter : relevantGoal row.spec = evidenceGoal row.spec :=
    funext (relevantGoal_eq hwell (.refl _))
  rw [standingGoals_eq_standing hordered, List.append_assoc, standing_append, hskipped,
    harmed.evidence, buildEvidence, evidenceSequences, hgoals, hfilter]
  rfl

/-- The last event of a finished match, with no doubt left. -/
structure FinalEvent (state : MarketState) (event : MatchEvent) : Prop where
  confirmed : event.confirmed = true
  terminal : event.phase ∈ terminalPhases
  hold : isHoldSignal event = false
  undoubted : (scratchOf state).underDoubt = true → resolves (scratchOf state) event = true

section Final

variable {last : Delivery} (hwell : row.spec.WellFormed)
  (hclaim : row.spec.claimType ≠ .playerScoresN)
  (hstream : LiveStream deployment row (deliveries ++ [last]))
  (hsafe : ∀ d ∈ deliveries ++ [last], (d.event.seq : Int) ≤ Signer.maxSafeInteger)
  (hfinal : FinalEvent (marketAfter sha256 deployment row deliveries) last.event)

include hstream in
theorem latest_of_stream :
    Signer.Latest ((deliveries ++ [last]).map (·.event)) last.event :=
  ⟨hstream.stream.ordered, by simp⟩

include hsafe hstream in
/-- Every delivered event is found by its sequence number. -/
theorem deciding_of_stream {before after : List Delivery} {d : Delivery}
    (hsplit : deliveries ++ [last] = before ++ d :: after) :
    Signer.Deciding ((deliveries ++ [last]).map (·.event)) d.event.seq d.event := by
  have hordered := hstream.stream.pairwise
  have hmem : d ∈ deliveries ++ [last] := by
    rw [hsplit]
    simp
  rw [hsplit, List.map_append, List.map_cons] at hordered ⊢
  exact Signer.deciding_of_pairwise hordered (hsafe d hmem)

include hwell hsafe hstream in
/-- A void of the last event is accepted. -/
theorem accepted_of_void {state : MarketState} (hspec : state.spec = row.spec)
    (hlineup : state.status ≠ .pendingLineup) {requests : List WorkflowRequest}
    (hrequests : requiresWorkflowContext (reduceMarket state last.event).effects last.event
      state.pendingSettlement (reduceMarket state last.event).state.pendingSettlement = true →
      requestsFor sha256 deployment last.context last.event state
        (reduceMarket state last.event) = .ok requests)
    {reason : String} (hvoid : .void reason ∈ (reduceMarket state last.event).effects) :
    ∃ request ∈ requests,
      Accepted sha256 row.spec ((deliveries ++ [last]).map (·.event)) request := by
  have hvalid := hstream.context last (by simp)
  have hagreed := voidReason_of_void_effect hwell (by rw [hspec]; exact .refl _) hlineup hvoid
  refine ⟨.voidMarket (voidAt sha256 deployment last.context.binding last.event
    (Scheduler.voidReason last.event) last.event.seq), ?_, ?_⟩
  · refine Scheduler.mem_requestsFor_of_effect sha256 hvalid
      (hrequests (requiresWorkflowContext_of_effect hvoid rfl _ _ _)) hvoid ?_
    rw [Scheduler.applyEffect, Scheduler.buildEscrowVoidAttestation_eq sha256 hvalid]
    rfl
  · exact voidAt_accepted hvalid (latest_of_stream hstream)
      (deciding_of_stream hstream hsafe rfl) (hagreed _) (hagreed _)

include hwell hclaim hsafe hstream in
/-- A settlement of the last event is accepted when its candidate's outcome is that
event's too. -/
theorem accepted_of_armed (hterminal : last.event.phase ∈ terminalPhases)
    {before after : List MatchEvent}
    (hevents : (deliveries ++ [last]).map (·.event) = skipped ++ before ++ deciding :: after)
    {scratch : ReducerScratch} {pending : PendingSettlement}
    (harmed : ArmedAt scratch row.spec deciding pending)
    (hgoals : scratch.goals = standing (before ++ [deciding])) (hskipped : standing skipped = [])
    (hphase : deciding.phase ∉ voidPhases)
    (hlast : evaluateSpec row.spec last.event.score last.event.phase none =
      some pending.outcome) :
    ∃ claimed, Scheduler.claimOutcome pending.outcome = some claimed ∧
      Accepted sha256 row.spec ((deliveries ++ [last]).map (·.event))
        (.settleMarket (settlementAt sha256 deployment last.context.binding last.event claimed
          pending.decidingSeq pending.evidenceSeqs)) := by
  have houtcome := harmed.outcome
  rw [outcomeAt_of_team hclaim] at houtcome
  have hne : pending.outcome ≠ .void := fun hvoid =>
    evaluateSpec_ne_void hphase (houtcome.trans (by rw [hvoid]))
  obtain ⟨claimed, hclaimed, hby⟩ := exists_claimOutcome hne
  have hordered := hstream.stream.pairwise
  have hmem : deciding ∈ (deliveries ++ [last]).map (·.event) := by
    rw [hevents]
    simp
  obtain ⟨d, hd, rfl⟩ := List.mem_map.mp hmem
  have horder : d.event.seq ≤ last.event.seq := by
    rcases List.mem_append.mp hd with hd | hd
    · exact Nat.le_of_lt (hstream.lt hd)
    · rw [List.mem_singleton.mp hd]
  rw [hevents] at hordered
  have hnamed : Signer.Deciding ((deliveries ++ [last]).map (·.event)) d.event.seq d.event := by
    rw [hevents]
    exact Signer.deciding_of_pairwise hordered (hsafe d hd)
  have hevidence := harmed.evidence_eq hwell hgoals hskipped hordered
  rw [← hevents] at hevidence
  refine ⟨claimed, hclaimed, ?_⟩
  rw [harmed.sequence, hevidence]
  refine settlementAt_accepted (hstream.context last (by simp))
    (hstream.stream.fixture last.event (by simp)) (latest_of_stream hstream) hterminal hnamed horder
    ?_ ?_
  · rw [claimedOutcome_of_team hclaim, houtcome, hby]
  · rw [claimedOutcome_of_team hclaim, hlast, hby]

include hwell hclaim hsafe hstream hfinal in
/-- A live market answers the last event with an accepted request. -/
theorem accepted_of_live (hanswer : Answerable sha256 deployment row deliveries last.event)
    {tracked : List MatchEvent} (hsplit : deliveries.map (·.event) = skipped ++ tracked)
    {state : MarketState} (hlive : Live row skipped tracked state)
    (hstate : state = { marketAfter sha256 deployment row deliveries with
      positions := last.positions }) (htaken : ignored state last.event = false)
    {requests : List WorkflowRequest}
    (hrequests : requiresWorkflowContext (reduceMarket state last.event).effects last.event
      state.pendingSettlement (reduceMarket state last.event).state.pendingSettlement = true →
      requestsFor sha256 deployment last.context last.event state
        (reduceMarket state last.event) = .ok requests) :
    ∃ request ∈ requests,
      Accepted sha256 row.spec ((deliveries ++ [last]).map (·.event)) request := by
  have hvalid := hstream.context last (by simp)
  have hevents : (deliveries ++ [last]).map (·.event) = skipped ++ tracked ++ [last.event] := by
    simp [hsplit]
  have hskipped : standing skipped = [] := by
    refine standing_of_skipped fun event hevent hgoal => ?_
    have hmem : event ∈ deliveries.map (·.event) := by
      rw [hsplit]
      exact List.mem_append_left _ hevent
    obtain ⟨d, hd, rfl⟩ := List.mem_map.mp hmem
    exact absurd (hlive.below _ hevent) (Nat.not_le.mpr (hanswer.goals d hd hgoal.1 hgoal.2))
  have hvoided : ∀ reason, .void reason ∈ (reduceMarket state last.event).effects →
      ∃ request ∈ requests,
        Accepted sha256 row.spec ((deliveries ++ [last]).map (·.event)) request :=
    fun reason => accepted_of_void hwell hstream hsafe hlive.spec hlive.lineup hrequests
  by_cases hcovered : last.event.kind = .coverageWarning
  · refine hvoided (phaseVoidReason last.event.phase) ?_
    rw [reduceMarket_of_void htaken hlive.lineup (.inr hcovered)]
    exact List.mem_singleton.mpr rfl
  · have hphase : last.event.phase ∉ voidPhases := by
      have hterminal := hfinal.terminal
      revert hterminal
      cases last.event.phase <;> decide
    have hstaged : Staged state last.event := ⟨htaken, hlive.lineup, hphase, hcovered⟩
    have hundoubted : (scratchOf state).underDoubt = true →
        resolves (scratchOf state) last.event = true := by
      rw [hstate]
      exact hfinal.undoubted
    rcases reduceMarket_of_terminal_phase hstaged hfinal.hold hfinal.confirmed hfinal.terminal
      hundoubted with ⟨pending, hprior, hreversal, heffect⟩ | ⟨pending, hpending⟩ | ⟨reason, hvoid⟩
    · -- the candidate of the event before is settled
      obtain ⟨before, deciding, rfl, hdeciding, harmed⟩ := hlive.pending pending hprior
      have hsame := hanswer.candidate pending (by rw [← hprior, hstate]) hreversal hcovered
      have hat : (deliveries ++ [last]).map (·.event) =
          skipped ++ before ++ deciding :: [last.event] := by
        rw [hevents]
        simp
      obtain ⟨claimed, hclaimed, haccepted⟩ := accepted_of_armed hwell hclaim hstream hsafe
        hfinal.terminal hat harmed hlive.goals hskipped hdeciding hsame
      refine ⟨_, ?_, haccepted⟩
      refine Scheduler.mem_requestsFor_of_effect sha256 hvalid
        (hrequests (requiresWorkflowContext_of_effect heffect rfl _ _ _)) heffect ?_
      rw [Scheduler.applyEffect, Scheduler.terminalRequest_settle sha256 hvalid hclaimed]
      rfl
    · -- the last event arms a candidate of its own
      have harmed := armed_of_pending hstaged hpending
      rw [hlive.spec] at harmed
      have hgoals := hlive.goals_of_staged (hevents ▸ hstream.stream) hstaged
      have houtcome := harmed.outcome
      rw [outcomeAt_of_team hclaim] at houtcome
      obtain ⟨claimed, hclaimed, haccepted⟩ := accepted_of_armed hwell hclaim hstream hsafe
        hfinal.terminal hevents harmed hgoals hskipped hphase houtcome
      have hnew : Scheduler.newPending state.pendingSettlement
          (reduceMarket state last.event).state.pendingSettlement = some pending := by
        rw [hpending]
        cases hprior : state.pendingSettlement with
        | none => rfl
        | some prior =>
            obtain ⟨before, deciding, rfl, -, hbefore⟩ := hlive.pending prior hprior
            have hordered := hstream.stream.pairwise
            rw [hevents] at hordered
            have hlt : deciding.seq < last.event.seq :=
              (List.pairwise_append.mp hordered).2.2 deciding (by simp) last.event (by simp)
            have hne : prior.decidingSeq ≠ pending.decidingSeq := by
              rw [hbefore.sequence, harmed.sequence]
              exact Nat.ne_of_lt hlt
            simp [Scheduler.newPending, hne]
      refine ⟨_, ?_, haccepted⟩
      refine Scheduler.mem_requestsFor_of_pending sha256 hvalid (hrequests ?_) hnew
        (Scheduler.terminalRequest_settle sha256 hvalid hclaimed _ _)
      unfold requiresWorkflowContext
      simp [hnew]
    · exact hvoided reason hvoid

end Final

/-- Every finished match of a market that opened for staking, and is still there to
be answered at the last event, leaves a settlement or a void that the signers
accept. -/
theorem terminal_request_accepted {last : Delivery} (hrow : Fresh row)
    (hopen : row.status = .open) (hwell : row.spec.WellFormed)
    (hclaim : row.spec.claimType ≠ .playerScoresN)
    (hstream : LiveStream deployment row (deliveries ++ [last]))
    (hsafe : ∀ d ∈ deliveries ++ [last], (d.event.seq : Int) ≤ Signer.maxSafeInteger)
    (hfinal : FinalEvent (marketAfter sha256 deployment row deliveries) last.event)
    (hanswer : Answerable sha256 deployment row deliveries last.event) :
    ∃ request ∈ (runAll sha256 deployment row (deliveries ++ [last])).requests,
      Accepted sha256 row.spec ((deliveries ++ [last]).map (·.event)) request := by
  have hvalid := hstream.context last (by simp)
  have hscore := hstream.stream.score last.event (by simp)
  have hstep := reduce_cases sha256 row (runAll sha256 deployment row deliveries) hvalid hscore
    hstream.above
  rw [hydrate_eq, ← runAll_concat] at hstep
  cases runState hrow hopen hwell hstream.init with
  | settled status => exact absurd status hanswer.unsettled
  | voided before after v status split by_v request agreed =>
      have hstanding := hanswer.voided before v after split by_v
      have hsplit : deliveries ++ [last] = before ++ v :: (after ++ [last]) := by
        rw [split]
        simp
      rcases hstep with ⟨-, hsame⟩ | ⟨htaken, -⟩
      · refine ⟨_, by rw [hsame]; exact request, ?_⟩
        refine voidAt_accepted (hstream.context v (by simp [split])) (latest_of_stream hstream)
          (deciding_of_stream hstream hsafe hsplit) (agreed _) ?_
        rw [claimedOutcome_of_team hclaim]
        exact hstanding
      · simp [ignored, status] at htaken
  | live skipped tracked split market =>
      have hlive := market.withPositions last.positions
      rcases hstep with ⟨hignored, -⟩ | ⟨htaken, requests, hrun, hrequests⟩
      · have hevents : skipped ++ tracked ++ [last.event] =
            (deliveries ++ [last]).map (·.event) := by simp [split]
        obtain ⟨-, hbelow⟩ := hlive.taken (hevents ▸ hstream.stream) hignored
        exact absurd hbelow (Nat.not_le.mpr hanswer.cursor)
      · obtain ⟨request, hmem, haccepted⟩ := accepted_of_live hwell hclaim hstream hsafe hfinal
          hanswer split hlive rfl htaken hrequests
        refine ⟨request, ?_, haccepted⟩
        rw [hrun]
        exact List.mem_append_right _ hmem

section Sample

private def sampleDeployment : Deployment :=
  ⟨List.replicate 32 1, List.replicate 32 2, 300⟩

private def sampleContext : Scheduler.WorkflowContext :=
  ⟨⟨List.replicate 32 3, List.replicate 32 4, 7, 1, 0⟩, .open, []⟩

/-- The home side scores. -/
private def homeScores : MarketState :=
  createMarketFromClaim
    { claimType := .teamScoresN
      fixtureId := 7
      entityRef := .team .one "home"
      comparator := .gte
      threshold := 1
      period := .ft
      anchor := none
      trustTier := .chainProven } .h1 false

private def sampleDelivery (kind : MatchEventKind) (seq : Nat) (phase : GamePhase)
    (goals : Nat) : Delivery where
  event :=
    { kind
      fixtureId := 7
      seq
      tsMs := 1000
      receivedAtMs := 2000
      confirmed := true
      phase
      minute := none
      score := ⟨⟨goals, 0, 0, 0⟩, ⟨0, 0, 0, 0⟩, some goals, some 0⟩
      detail := some ⟨some .one, some none, none, none, none⟩ }
  positions := []
  context := sampleContext

private theorem homeScores_wellFormed : homeScores.spec.WellFormed := by
  constructor <;> intro h <;> cases h

private theorem sampleContext_valid : ValidContext sampleDeployment 7 sampleContext :=
  ⟨rfl, rfl, by decide, rfl, rfl, rfl, by decide⟩

private theorem sampleDelivery_valid (kind : MatchEventKind) (seq : Nat) (phase : GamePhase)
    (goals : Nat) :
    ValidContext sampleDeployment (sampleDelivery kind seq phase goals).event.fixtureId
      (sampleDelivery kind seq phase goals).context :=
  sampleContext_valid

private def firstHalf : List Delivery := [sampleDelivery .statUpdate 2 .h1 0]

private def zeroHash (_ : List UInt8) : Bytes 32 := List.Vector.replicate 32 0

/-- A goalless match is settled at its end. -/
theorem goalless_match_accepted :
    ∃ request ∈ (runAll zeroHash sampleDeployment homeScores
        (firstHalf ++ [sampleDelivery .phaseChange 4 .f 0])).requests,
      Accepted zeroHash homeScores.spec
        ((firstHalf ++ [sampleDelivery .phaseChange 4 .f 0]).map (·.event)) request := by
  have hstream : LiveStream sampleDeployment homeScores
      (firstHalf ++ [sampleDelivery .phaseChange 4 .f 0]) := by
    refine ⟨⟨by decide, by decide, by decide⟩, fun d hd => ?_⟩
    simp only [firstHalf, List.singleton_append, List.mem_cons, List.not_mem_nil, or_false] at hd
    rcases hd with rfl | rfl
    · exact sampleDelivery_valid _ _ _ _
    · exact sampleDelivery_valid _ _ _ _
  have hanswer : Answerable zeroHash sampleDeployment homeScores firstHalf
      (sampleDelivery .phaseChange 4 .f 0).event := by
    refine ⟨by decide +kernel, ?_, by decide, ?_, by decide⟩
    · intro before v after hsplit hvoids
      have hopen :
          (marketAfter zeroHash sampleDeployment homeScores firstHalf).status ≠ .voided := by
        decide +kernel
      cases before with
      | nil =>
          obtain ⟨rfl, -⟩ := List.cons.inj hsplit
          exact absurd hvoids.voided hopen
      | cons first before =>
          have hnil := (List.cons.inj hsplit).2
          simp at hnil
    · intro pending hpending
      have hnone : (marketAfter zeroHash sampleDeployment homeScores firstHalf).pendingSettlement =
          none := by decide +kernel
      rw [hnone] at hpending
      cases hpending
  exact terminal_request_accepted (fresh_createMarketFromClaim _ _ _) rfl homeScores_wellFormed
    (by decide) hstream (by decide +kernel) ⟨rfl, by decide, rfl, by decide +kernel⟩ hanswer

/-- Goal, next event, full time. -/
private def earlyDecision : List Delivery :=
  [sampleDelivery .goal 1 .h2 1, sampleDelivery .statUpdate 2 .h2 1]

private def isEarly : WorkflowRequest → Bool
  | .settleMarket attestation => attestation.terminalPhase = "H2"
  | .voidMarket _ => false
  | _ => true

private theorem earlyDecision_requests (sha256 : List UInt8 → Bytes 32) :
    (runAll sha256 sampleDeployment homeScores
      (earlyDecision ++ [sampleDelivery .phaseChange 3 .f 1])).requests.all isEarly = true := by
  rfl

/-- A request of an unfinished match is never accepted. -/
private theorem not_accepted_of_isEarly {sha256 : List UInt8 → Bytes 32} {spec : MarketSpec}
    {events : List MatchEvent} {request : WorkflowRequest} (h : isEarly request = true) :
    ¬ Accepted sha256 spec events request := by
  unfold Accepted
  cases request with
  | settleMarket attestation =>
      rw [Payload.attestationSigningRequest]
      cases hrestored : Payload.restoreSettlement attestation with
      | error e => simp [bind, Except.bind]
      | ok restored =>
          have hphase := Payload.terminalPhase_of_restored hrestored
          simp only [isEarly, decide_eq_true_eq] at h
          rw [h] at hphase
          contradiction
  | voidMarket attestation => cases h
  | freezeMarket attestation =>
      rw [Payload.attestationSigningRequest]
      cases Payload.restoreFeedAttestation attestation <;>
        simp [bind, Except.bind, pure, Except.pure]
  | unfreezeMarket attestation =>
      rw [Payload.attestationSigningRequest]
      cases Payload.restoreFeedAttestation attestation <;>
        simp [bind, Except.bind, pure, Except.pure]
  | invalidatePositionLot attestation =>
      rw [Payload.attestationSigningRequest]
      cases Payload.restoreInvalidationAttestation attestation <;>
        simp [bind, Except.bind, pure, Except.pure]

/-- The claim is decided in the second half and settled by the next event; at full
time the market has nothing more to say. -/
theorem early_decision_unanswered :
    ¬ ∀ (sha256 : List UInt8 → Bytes 32) (deployment : Deployment) (row : MarketState)
      (deliveries : List Delivery) (last : Delivery),
      Fresh row → row.status = .open → row.spec.WellFormed →
      (row.spec.claimType = .teamScoresN ∨ row.spec.claimType = .totalsOu) →
      LiveStream deployment row (deliveries ++ [last]) →
      (∀ d ∈ deliveries ++ [last], (d.event.seq : Int) ≤ Signer.maxSafeInteger) →
      FinalEvent (marketAfter sha256 deployment row deliveries) last.event →
      ∃ request ∈ (runAll sha256 deployment row (deliveries ++ [last])).requests,
        Accepted sha256 row.spec ((deliveries ++ [last]).map (·.event)) request := by
  intro hclaim
  have hstream : LiveStream sampleDeployment homeScores
      (earlyDecision ++ [sampleDelivery .phaseChange 3 .f 1]) := by
    refine ⟨⟨by decide, by decide, by decide⟩, fun d hd => ?_⟩
    simp only [earlyDecision, List.cons_append, List.nil_append, List.mem_cons, List.not_mem_nil,
      or_false] at hd
    rcases hd with rfl | rfl | rfl
    · exact sampleDelivery_valid _ _ _ _
    · exact sampleDelivery_valid _ _ _ _
    · exact sampleDelivery_valid _ _ _ _
  obtain ⟨request, hmem, haccepted⟩ := hclaim zeroHash sampleDeployment homeScores earlyDecision
    (sampleDelivery .phaseChange 3 .f 1) (fresh_createMarketFromClaim _ _ _) rfl
    homeScores_wellFormed (.inl rfl) hstream (by decide +kernel)
    ⟨rfl, by decide, rfl, by decide +kernel⟩
  exact not_accepted_of_isEarly
    (List.all_eq_true.mp (earlyDecision_requests zeroHash) request hmem) haccepted

end Sample

end Run

end CalledIt.Engine
