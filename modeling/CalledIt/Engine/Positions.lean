import CalledIt.Engine.Freezes

/-!
# CalledIt.Engine.Positions

The effects of a run as an account of it: the positions are the first ones with
the moves of the effects replayed, and a settle or void effect stands for the end
of the market.

`Moves` says that effects explain a change of the positions, each position named at
most once and only while it is pending.  `Account` adds the terminal effects.  Each
stage of the reducer keeps the account, and so does every run (`account_marketRun`).
-/

namespace CalledIt.Engine

open Lib

/-! ## moves -/

/-- The positions an effect moves, with their new states. -/
def MarketEffect.moves : MarketEffect → List (String × PositionState)
  | voidPositions ids => ids.map (·, .void)
  | activatePositions ids => ids.map (·, .active)
  | _ => []

def moves (effects : List MarketEffect) : List (String × PositionState) :=
  effects.flatMap MarketEffect.moves

/-- The ids that the effects name, in order. -/
def movedIds (effects : List MarketEffect) : List String := (moves effects).map Prod.fst

@[simp] theorem moves_append (as bs : List MarketEffect) :
    moves (as ++ bs) = moves as ++ moves bs := by
  simp [moves]

@[simp] theorem movedIds_append (as bs : List MarketEffect) :
    movedIds (as ++ bs) = movedIds as ++ movedIds bs := by
  simp [movedIds]

/-- A position with the move that names it, if there is one. -/
def Position.replay (moves : List (String × PositionState)) (p : Position) : Position :=
  match moves.lookup p.id with
  | some state => { p with state }
  | none => p

@[simp] theorem Position.id_replay (moves : List (String × PositionState)) (p : Position) :
    (p.replay moves).id = p.id := by
  unfold Position.replay
  split <;> rfl

/-- Positions are known by their ids. -/
def UniqueIds (positions : List Position) : Prop := (positions.map (·.id)).Nodup

variable {positions : List Position}

theorem UniqueIds.eq (h : UniqueIds positions) {p q : Position} (hp : p ∈ positions)
    (hq : q ∈ positions) (hid : p.id = q.id) : p = q :=
  List.inj_on_of_nodup_map h hp hq hid

/-- The effects explain how the positions have changed. -/
structure Moves (before : List Position) (effects : List MarketEffect) (after : List Position) :
    Prop where
  once : (movedIds effects).Nodup
  pending : ∀ move ∈ moves effects,
    move.2 ≠ .pending ∧ ∃ p ∈ before, p.id = move.1 ∧ p.state = .pending
  replayed : after = before.map (Position.replay (moves effects))

theorem Moves.refl (positions : List Position) : Moves positions [] positions := by
  refine ⟨by simp [movedIds, moves], by simp [moves], ?_⟩
  exact (List.map_id positions).symm

theorem Moves.uniqueIds {before after : List Position} {effects : List MarketEffect}
    (h : Moves before effects after) (hids : UniqueIds before) : UniqueIds after := by
  have hmap : after.map (·.id) = before.map (·.id) := by simp [h.replayed]
  rw [UniqueIds, hmap]
  exact hids

variable {id : String}

theorem lookup_of_mem {moves : List (String × PositionState)} (hnodup : (moves.map Prod.fst).Nodup)
    {state : PositionState} (h : (id, state) ∈ moves) :
    moves.lookup id = some state := by
  induction moves with
  | nil => simp at h
  | cons move rest ih =>
      obtain ⟨hfresh, hrest⟩ := List.nodup_cons.mp hnodup
      rcases List.mem_cons.mp h with rfl | h
      · simp
      · have hne : id ≠ move.1 := fun heq =>
          hfresh (heq ▸ List.mem_map_of_mem h)
        rw [List.lookup_cons, beq_false_of_ne hne]
        exact ih hrest h

theorem mem_of_lookup {moves : List (String × PositionState)} {state : PositionState}
    (h : moves.lookup id = some state) : (id, state) ∈ moves := by
  obtain ⟨before, after, rfl, -⟩ := List.lookup_eq_some_iff.mp h
  simp

theorem lookup_of_unmoved {effects : List MarketEffect} (h : id ∉ movedIds effects) :
    (moves effects).lookup id = none := by
  refine List.lookup_eq_none_iff.mpr fun move hmove => ?_
  have hne : id ≠ move.1 := fun heq => h (heq ▸ List.mem_map_of_mem hmove)
  simpa using hne

/-- A moved position is not pending any more. -/
theorem Moves.state_of_moved {before after : List Position} {effects : List MarketEffect}
    (h : Moves before effects after)
    (hid : id ∈ movedIds effects) : ∀ q ∈ after, q.id = id → q.state ≠ .pending := by
  rintro q hq rfl
  obtain ⟨⟨id, state⟩, hmove, hfst⟩ := List.mem_map.mp hid
  rw [h.replayed] at hq
  obtain ⟨p, hp, rfl⟩ := List.mem_map.mp hq
  rw [Position.id_replay] at hfst
  have hlookup : (moves effects).lookup p.id = some state :=
    lookup_of_mem h.once (by rw [← hfst]; exact hmove)
  rw [Position.replay, hlookup]
  exact (h.pending _ hmove).1

/-- A pending position that is named later was not named before. -/
theorem Moves.disjoint {before between after : List Position} {first second : List MarketEffect}
    (hfirst : Moves before first between)
    (hsecond : Moves between second after) : (movedIds first).Disjoint (movedIds second) := by
  intro id hid hagain
  obtain ⟨⟨again, state⟩, hmove, rfl⟩ := List.mem_map.mp hagain
  obtain ⟨-, q, hq, hqid, hpending⟩ := hsecond.pending _ hmove
  exact hfirst.state_of_moved hid q hq hqid hpending

theorem Moves.trans {before between after : List Position} {first second : List MarketEffect}
    (hfirst : Moves before first between)
    (hsecond : Moves between second after) : Moves before (first ++ second) after := by
  have hdisjoint := hfirst.disjoint hsecond
  refine ⟨?_, ?_, ?_⟩
  · rw [movedIds_append]
    exact hfirst.once.append hsecond.once hdisjoint
  · intro move hmove
    rw [moves_append] at hmove
    obtain hmove | hmove := List.mem_append.mp hmove
    · exact hfirst.pending move hmove
    · obtain ⟨hstate, q, hq, hqid, hpending⟩ := hsecond.pending move hmove
      refine ⟨hstate, ?_⟩
      rw [hfirst.replayed] at hq
      obtain ⟨p, hp, rfl⟩ := List.mem_map.mp hq
      rw [Position.id_replay] at hqid
      have hagain : p.id ∈ movedIds second := List.mem_map.mpr ⟨move, hmove, hqid.symm⟩
      have hunmoved := lookup_of_unmoved fun hmoved => hdisjoint hmoved hagain
      have hsame : p.replay (moves first) = p := by rw [Position.replay, hunmoved]
      rw [hsame] at hpending
      exact ⟨p, hp, hqid, hpending⟩
  · rw [hsecond.replayed, hfirst.replayed, List.map_map, moves_append]
    refine List.map_congr_left fun p _ => ?_
    simp only [Function.comp, Position.replay, List.lookup_append]
    cases hlookup : (moves first).lookup p.id with
    | none => simp
    | some state =>
        have hmoved : p.id ∈ movedIds first := List.mem_map.mpr ⟨_, mem_of_lookup hlookup, rfl⟩
        simp [lookup_of_unmoved (hdisjoint hmoved)]

/-- Effects that move nothing can be added. -/
theorem Moves.still {before after : List Position} {effects added : List MarketEffect}
    (h : Moves before effects after) (hadded : moves added = []) :
    Moves before (effects ++ added) after := by
  have hmoves : moves (effects ++ added) = moves effects := by simp [hadded]
  exact ⟨by rw [movedIds, hmoves]; exact h.once, by rw [hmoves]; exact h.pending,
    by rw [hmoves]; exact h.replayed⟩

/-! ## the moves of the source -/

theorem moves_singleton (effect : MarketEffect) : moves [effect] = effect.moves := by
  simp [moves]

/-- An effect that names positions, for the state they move to. -/
def Names (effect : List String → MarketEffect) (target : PositionState) : Prop :=
  target ≠ .pending ∧ ∀ ids, (effect ids).moves = ids.map (·, target)

theorem names_voidPositions : Names .voidPositions .void := ⟨by simp, fun _ => rfl⟩

theorem names_activatePositions : Names .activatePositions .active := ⟨by simp, fun _ => rfl⟩

variable {effect : List String → MarketEffect} {target : PositionState}

/-- The chosen pending positions move, and the effect names them. -/
theorem moves_of_chosen (hids : UniqueIds positions) {chosen : Position → Bool}
    (hchosen : ∀ p, chosen p = true → p.state = .pending) (hnames : Names effect target) :
    Moves positions [effect ((positions.filter chosen).map (·.id))]
      (positions.map fun p => if chosen p then { p with state := target } else p) := by
  obtain ⟨htarget, hmoves⟩ := hnames
  have hall : moves [effect ((positions.filter chosen).map (·.id))] =
      (positions.filter chosen).map fun p => (p.id, target) := by
    rw [moves_singleton, hmoves, List.map_map]
    rfl
  have hmoved : movedIds [effect ((positions.filter chosen).map (·.id))] =
      (positions.filter chosen).map (·.id) := by
    rw [movedIds, hall, List.map_map]
    rfl
  have honce : (movedIds [effect ((positions.filter chosen).map (·.id))]).Nodup := by
    rw [hmoved]
    exact List.Nodup.sublist (List.filter_sublist.map _) hids
  refine ⟨honce, ?_, ?_⟩
  · intro move hmove
    rw [hall] at hmove
    obtain ⟨p, hp, rfl⟩ := List.mem_map.mp hmove
    obtain ⟨hp, hpick⟩ := List.mem_filter.mp hp
    exact ⟨htarget, p, hp, rfl, hchosen p hpick⟩
  · refine List.map_congr_left fun p hp => ?_
    rw [hall]
    split
    · next hpick =>
      have hmem : (p.id, target) ∈ (positions.filter chosen).map fun p => (p.id, target) :=
        List.mem_map.mpr ⟨p, List.mem_filter.mpr ⟨hp, hpick⟩, rfl⟩
      have hlookup := lookup_of_mem (by rw [← hall]; exact honce) hmem
      rw [Position.replay, hlookup]
    · next hpick =>
      rw [Position.replay]
      split
      · next state hlookup =>
        obtain ⟨q, hq, heq⟩ := List.mem_map.mp (mem_of_lookup hlookup)
        obtain ⟨hq, hqpick⟩ := List.mem_filter.mp hq
        have hsame : q = p := hids.eq hq hp (congrArg Prod.fst heq)
        exact absurd (hsame ▸ hqpick) hpick
      · rfl

/-- Where nothing is chosen, nothing is emitted. -/
theorem moves_of_unchosen {chosen : Position → Bool} (h : positions.filter chosen = [])
    (target : PositionState) :
    Moves positions [] (positions.map fun p =>
      if chosen p then { p with state := target } else p) := by
  have hsame : (positions.map fun p => if chosen p then { p with state := target } else p) =
      positions := by
    refine (List.map_congr_left fun p hp => ?_).trans (List.map_id positions)
    have hnot := List.filter_eq_nil_iff.mp h p hp
    simp [hnot]
  rw [hsame]
  exact .refl _

theorem moves_movePending (hids : UniqueIds positions) (p : Position → Bool)
    (hnames : Names effect target) :
    Moves positions (movePending positions p target effect).2
      (movePending positions p target effect).1 := by
  let chosen : Position → Bool := fun q => q.state = .pending ∧ p q
  have hnext : (movePending positions p target effect).1 =
      positions.map fun q => if chosen q then { q with state := target } else q := by
    simp [movePending, chosen]
  have hchosen : ∀ q, chosen q = true → q.state = .pending := by
    intro q hq
    simp only [chosen, decide_eq_true_eq] at hq
    exact hq.1
  rw [hnext, movePending]
  dsimp only
  split
  · next hempty => exact moves_of_unchosen (List.isEmpty_iff.mp hempty) target
  · exact moves_of_chosen hids hchosen hnames

theorem moves_applyPositionGuards (hids : UniqueIds positions) (event : MatchEvent)
    (isReplay : Bool) :
    Moves positions (applyPositionGuards positions event isReplay).2
      (applyPositionGuards positions event isReplay).1 := by
  have hsniped := moves_movePending hids (fun q => isPriceMoving event ∧
    q.placedAtMs > if isReplay then event.receivedAtMs else event.tsMs) names_voidPositions
  exact hsniped.trans (moves_movePending (hsniped.uniqueIds hids) _ names_activatePositions)

theorem moves_activateRemainingPending (hids : UniqueIds positions) :
    Moves positions (activateRemainingPending positions).2
      (activateRemainingPending positions).1 :=
  moves_movePending hids _ names_activatePositions

/-- Nothing is left pending. -/
theorem settled_activateRemainingPending (positions : List Position) :
    ∀ p ∈ (activateRemainingPending positions).1, p.state ≠ .pending := by
  intro p hp
  obtain ⟨q, hq, rfl⟩ := List.mem_map.mp hp
  dsimp only
  split_ifs with h
  · simp
  · exact fun hpending => h ⟨hpending, rfl⟩

/-- With unique ids, matching by id is matching the position. -/
theorem activateById_filter (hids : UniqueIds positions) (chosen : Position → Bool) :
    activateById positions (positions.filter chosen) =
      positions.map fun p => if chosen p then { p with state := .active } else p := by
  refine List.map_congr_left fun p hp => ?_
  have hany : ((positions.filter chosen).any fun m => m.id = p.id) = chosen p := by
    rw [Bool.eq_iff_iff, List.any_eq_true]
    constructor
    · rintro ⟨m, hm, hid⟩
      obtain ⟨hm, hpick⟩ := List.mem_filter.mp hm
      rwa [← hids.eq hm hp (by simpa using hid)]
    · exact fun hpick => ⟨p, List.mem_filter.mpr ⟨hp, hpick⟩, by simp⟩
  rw [hany]

variable {state : MarketState}

theorem moves_maturePositions (hids : UniqueIds state.positions) (nowMs : Int) :
    Moves state.positions (maturePositions state nowMs).effects
      (maturePositions state nowMs).state.positions := by
  unfold maturePositions
  dsimp only
  split_ifs with hempty
  · exact .refl _
  · dsimp only
    rw [activateById_filter hids]
    refine moves_of_chosen hids (fun p hp => ?_) names_activatePositions
    simp only [maturedAt, decide_eq_true_eq] at hp
    exact hp.1

/-! ## the account -/

/-- An effect that ends the market. -/
def MarketEffect.isTerminal : MarketEffect → Bool
  | settle _ _ _ => true
  | void _ => true
  | _ => false

/-- An effect that neither ends the market nor moves a position. -/
def MarketEffect.isNotice : MarketEffect → Bool
  | freeze _ => true
  | unfreeze => true
  | activateMarket => true
  | repriceHint => true
  | _ => false

/-- The terminal effects that belong to a status: one for a market that is over,
none for a live one. -/
def Ended (status : MarketStatus) (effects : List MarketEffect) : Prop :=
  match status with
  | .settled => ∃ outcome decidingSeq evidenceSeqs,
      effects.filter (·.isTerminal) = [.settle outcome decidingSeq evidenceSeqs]
  | .voided => ∃ reason, effects.filter (·.isTerminal) = [.void reason]
  | _ => effects.filter (·.isTerminal) = []

theorem ended_of_live {status : MarketStatus} (h : status.isTerminal = false)
    (effects : List MarketEffect) :
    Ended status effects ↔ effects.filter (·.isTerminal) = [] := by
  cases status <;> simp_all [MarketStatus.isTerminal, Ended]

/-- The effects account for the status and for every change of the positions. -/
structure Account (before : List Position) (status : MarketStatus) (after : List Position)
    (effects : List MarketEffect) : Prop where
  moves : Moves before effects after
  ended : Ended status effects
  settled : status = .settled → ∀ p ∈ after, p.state ≠ .pending

section Account

variable {before after : List Position} {status status' : MarketStatus}
  {effects : List MarketEffect}

/-- A move of positions that leaves the market live. -/
theorem account_of_moves (h : Moves before effects after) (hlive : status.isTerminal = false)
    (hterminal : effects.filter (·.isTerminal) = []) : Account before status after effects :=
  ⟨h, (ended_of_live hlive _).mpr hterminal, fun hsettled => by
    subst hsettled
    contradiction⟩

section

variable (h : Account before status after effects)

include h

theorem Account.live (hlive : status.isTerminal = false)
    (hlive' : status'.isTerminal = false) : Account before status' after effects :=
  account_of_moves h.moves hlive' ((ended_of_live hlive _).mp h.ended)

theorem Account.notice
    (hlive : status.isTerminal = false) (hlive' : status'.isTerminal = false)
    {effect : MarketEffect} (hnotice : effect.isNotice = true) :
    Account before status' after (effects ++ [effect]) := by
  have hterminal := (ended_of_live hlive _).mp h.ended
  refine account_of_moves (h.moves.still ?_) hlive' ?_
  · cases effect <;> first | rfl | contradiction
  · rw [List.filter_append, hterminal]
    cases effect <;> first | rfl | contradiction

theorem Account.void
    (hlive : status.isTerminal = false) (reason : String) :
    Account before .voided after (effects ++ [.void reason]) := by
  have hterminal := (ended_of_live hlive _).mp h.ended
  refine ⟨h.moves.still rfl, ⟨reason, ?_⟩, by simp⟩
  rw [List.filter_append, hterminal]
  rfl

end

/-- Moving positions does not end a market. -/
theorem terminal_movePending {p : Position → Bool} (h : ∀ ids, (effect ids).isTerminal = false) :
    (movePending positions p target effect).2.filter (·.isTerminal) = [] := by
  unfold movePending
  dsimp only
  split <;> simp [h]

theorem Account.settle (h : Account before status after effects) (hids : UniqueIds before)
    (hlive : status.isTerminal = false) (outcome : SettlementOutcome) (decidingSeq : Nat)
    (evidenceSeqs : List Nat) :
    Account before .settled (activateRemainingPending after).1
      (effects ++ (activateRemainingPending after).2 ++
        [.settle outcome decidingSeq evidenceSeqs]) := by
  have hterminal := (ended_of_live hlive _).mp h.ended
  have hactivated : (activateRemainingPending after).2.filter (·.isTerminal) = [] :=
    terminal_movePending fun _ => rfl
  have hmoves := h.moves.trans (moves_activateRemainingPending (h.moves.uniqueIds hids))
  refine ⟨hmoves.still rfl, ⟨outcome, decidingSeq, evidenceSeqs, ?_⟩,
    fun _ => settled_activateRemainingPending after⟩
  rw [List.filter_append, List.filter_append, hterminal, hactivated]
  rfl

/-- An account goes on as long as the market is live. -/
theorem Account.trans (h : Account before status after effects)
    (hlive : status.isTerminal = false) {final : List Position} {more : List MarketEffect}
    (hmore : Account after status' final more) :
    Account before status' final (effects ++ more) := by
  have hterminal := (ended_of_live hlive _).mp h.ended
  have hfilter : (effects ++ more).filter (·.isTerminal) = more.filter (·.isTerminal) := by
    rw [List.filter_append, hterminal, List.nil_append]
  refine ⟨h.moves.trans hmore.moves, ?_, hmore.settled⟩
  have hended := hmore.ended
  unfold Ended at hended ⊢
  rw [hfilter]
  exact hended

end Account

/-! ## the stages keep it -/

/-- The account of a stage whose market is live. -/
structure Stage.Accounted (before : List Position) (stage : Stage) : Prop where
  account : Account before stage.state.status stage.state.positions stage.effects
  live : stage.state.status.isTerminal = false

def ReduceResult.Accounted (before : List Position) (result : ReduceResult) : Prop :=
  Account before result.state.status result.state.positions result.effects

section Stages

variable {before : List Position} {stage : Stage}

theorem Stage.Accounted.result (h : stage.Accounted before) : stage.result.Accounted before :=
  h.account

theorem Stage.Accounted.void (h : stage.Accounted before) (reason : String) :
    (stage.void reason).Accounted before :=
  h.account.void h.live reason

theorem accounted_ledgerStage (hids : UniqueIds state.positions)
    (hlive : state.status.isTerminal = false) (event : MatchEvent) (scratch : ReducerScratch) :
    (ledgerStage state event scratch).Accounted state.positions := by
  refine ⟨account_of_moves (moves_applyPositionGuards hids event _) hlive ?_, hlive⟩
  simp only [ledgerStage, applyPositionGuards, List.filter_append, List.append_eq_nil_iff]
  exact ⟨terminal_movePending fun _ => rfl, terminal_movePending fun _ => rfl⟩

section

variable (h : stage.Accounted before)

include h

theorem accounted_applyCutoff (event : MatchEvent) :
    (applyCutoff stage event).Accounted before := by
  unfold applyCutoff
  split_ifs
  · exact ⟨h.account.notice h.live rfl rfl, rfl⟩
  · exact ⟨h.account, h.live⟩
  · exact h

theorem accounted_applyHold (event : MatchEvent) :
    (applyHold stage event).Accounted before := by
  unfold applyHold
  dsimp only
  split_ifs
  · exact ⟨h.account.notice h.live rfl rfl, rfl⟩
  · exact ⟨h.account, h.live⟩

theorem accounted_applyResolution (event : MatchEvent) :
    (applyResolution stage event).Accounted before := by
  unfold applyResolution
  split_ifs
  · exact ⟨h.account, h.live⟩
  · exact ⟨h.account.notice h.live rfl rfl, rfl⟩
  · exact ⟨h.account, h.live⟩
  · exact h

theorem accounted_applyReprice (event : MatchEvent) :
    (applyReprice stage event).Accounted before := by
  unfold applyReprice
  split_ifs
  · exact ⟨h.account.notice h.live h.live rfl, h.live⟩
  · exact h

end

theorem accounted_settleNow {effects : List MarketEffect} (hids : UniqueIds before)
    (hlive : state.status.isTerminal = false)
    (h : Account before state.status state.positions effects) :
    (settleNow state effects).Accounted before := by
  unfold settleNow
  split
  · exact h
  · exact h.settle hids hlive _ _ _

theorem accounted_settlementStage (h : stage.Accounted before) (hids : UniqueIds before)
    (event : MatchEvent) : (settlementStage stage event).Accounted before := by
  have hrule : StageRule event (·.Accounted before) (·.Accounted before) :=
    { hold := fun h _ => (accounted_applyHold h event).result
      resolution := fun h => accounted_applyResolution h event
      void := fun h _ => h.void _
      arm := fun h _ _ _ _ => h.account.live h.live rfl
      reprice := fun h => (accounted_applyReprice h event).result }
  have hlive : (dropCandidate stage).state.status.isTerminal = false := by
    dsimp only [dropCandidate]
    split <;> rfl
  exact hrule.settlement (fun _ => h) (fun _ => h.account.notice h.live rfl rfl)
    ⟨h.account.live h.live hlive, hlive⟩ fun _ _ => accounted_settleNow hids h.live h.account

end Stages

/-! ## the steps keep it -/

section

variable (hids : UniqueIds state.positions)

include hids

section

variable (hlive : state.status.isTerminal = false)

include hlive

theorem accounted_reducePendingLineup (event : MatchEvent) (scratch : ReducerScratch) :
    (reducePendingLineup state event scratch).Accounted state.positions := by
  have hstart : Account state.positions state.status state.positions [] :=
    account_of_moves (.refl _) hlive rfl
  unfold reducePendingLineup
  dsimp only
  split_ifs
  · exact hstart.void hlive _
  · have hopened : Account state.positions .open state.positions [.activateMarket] :=
      hstart.notice hlive rfl rfl
    refine account_of_moves
      (hopened.moves.trans (moves_activateRemainingPending hids)) rfl ?_
    rw [List.filter_append]
    exact congrArg _ (terminal_movePending fun _ => rfl)
  · exact hstart.void hlive _
  · exact hstart

theorem accounted_reduceMarket (event : MatchEvent) :
    (reduceMarket state event).Accounted state.positions := by
  have hstart : Account state.positions state.status state.positions [] :=
    account_of_moves (.refl _) hlive rfl
  exact reduceMarket_cases (fun _ => hstart)
    (fun _ _ => accounted_reducePendingLineup hids hlive event _)
    (fun _ _ _ => hstart.void hlive _) fun _ => accounted_settlementStage
      (accounted_applyCutoff (accounted_ledgerStage hids hlive event _) event) hids event

theorem accounted_checkDebounce (nowMs : Int) :
    (checkDebounce state nowMs).Accounted state.positions := by
  have hstatus : (maturePositions state nowMs).state.status = state.status := by
    unfold maturePositions
    dsimp only
    split_ifs <;> rfl
  have hmatured : (maturePositions state nowMs).Accounted state.positions := by
    refine account_of_moves (moves_maturePositions hids nowMs) (by rw [hstatus]; exact hlive) ?_
    unfold maturePositions
    dsimp only
    split_ifs <;> rfl
  unfold checkDebounce
  split
  · exact account_of_moves (.refl _) hlive rfl
  · dsimp only
    split
    · exact accounted_settleNow hids (by rw [hstatus]; exact hlive) hmatured
    · exact hmatured

theorem account_marketStep (input : MarketInput) :
    Account state.positions (marketStep state input).1.status (marketStep state input).1.positions
      (marketStep state input).2 := by
  cases input with
  | event event => exact accounted_reduceMarket hids hlive event
  | tick nowMs => exact accounted_checkDebounce hids hlive nowMs

end

end

theorem over_of_isTerminal {status : MarketStatus} (h : status.isTerminal = true) :
    status = .settled ∨ status = .voided := by
  simpa [MarketStatus.isTerminal] using h

/-- The effects of a run account for the state it reaches. -/
theorem account_marketRun {start : MarketState} (hids : UniqueIds start.positions)
    (hlive : start.status.isTerminal = false) (inputs : List MarketInput) :
    Account start.positions (marketRun start inputs).1.status (marketRun start inputs).1.positions
      (marketRun start inputs).2 := by
  have hstart : Account start.positions start.status start.positions [] :=
    account_of_moves (.refl _) hlive rfl
  refine execute_trace (I := fun (state : MarketState) effects =>
    Account start.positions state.status state.positions effects) ?_ hstart inputs
  intro state effects input h
  cases hover : state.status.isTerminal with
  | true =>
      rw [marketStep_of_over (over_of_isTerminal hover), List.append_nil]
      exact h
  | false => exact h.trans hover (account_marketStep (h.moves.uniqueIds hids) hover input)

/-! ## every run -/

theorem moves_marketRun {start : MarketState} (hids : UniqueIds start.positions)
    (inputs : List MarketInput) :
    Moves start.positions (marketRun start inputs).2 (marketRun start inputs).1.positions := by
  cases hover : start.status.isTerminal with
  | true =>
      rw [marketRun_of_over (over_of_isTerminal hover)]
      exact .refl _
  | false => exact (account_marketRun hids hover inputs).moves

theorem moves_marketStep (hids : UniqueIds state.positions) (input : MarketInput) :
    Moves state.positions (marketStep state input).2 (marketStep state input).1.positions := by
  have hrun := moves_marketRun hids [input]
  simpa [marketRun] using hrun

/-- The position stays as it is, or a pending one becomes active or void. -/
def MovesOnce (p q : Position) : Prop :=
  q = p ∨ p.state = .pending ∧ (q = { p with state := .active } ∨ q = { p with state := .void })

theorem Moves.movesOnce {before after : List Position} {effects : List MarketEffect}
    (h : Moves before effects after) (hids : UniqueIds before) {p : Position} (hp : p ∈ before) :
    MovesOnce p (p.replay (Engine.moves effects)) := by
  rw [Position.replay]
  split
  · next state hlookup =>
    obtain ⟨hstate, q, hq, hid, hpending⟩ := h.pending _ (mem_of_lookup hlookup)
    obtain rfl := hids.eq hq hp hid
    cases state with
    | pending => exact absurd rfl hstate
    | active => exact .inr ⟨hpending, .inl rfl⟩
    | void => exact .inr ⟨hpending, .inr rfl⟩
  · exact .inl rfl

theorem Moves.forall₂ {before after : List Position} {effects : List MarketEffect}
    (h : Moves before effects after) (hids : UniqueIds before) :
    List.Forall₂ MovesOnce before after := by
  rw [h.replayed, List.forall₂_map_right_iff, List.forall₂_same]
  exact fun p hp => h.movesOnce hids hp

/-- The effects name exactly the positions whose state they change. -/
theorem Moves.mem_movedIds {before after : List Position} {effects : List MarketEffect}
    (h : Moves before effects after) (hids : UniqueIds before) (id : String) :
    id ∈ movedIds effects ↔
      ∃ p ∈ before, ∃ q ∈ after, p.id = id ∧ q.id = id ∧ q.state ≠ p.state := by
  constructor
  · intro hid
    obtain ⟨move, hmove, rfl⟩ := List.mem_map.mp hid
    obtain ⟨-, p, hp, hpid, hpending⟩ := h.pending _ hmove
    have hq : p.replay (Engine.moves effects) ∈ after := by
      rw [h.replayed]
      exact List.mem_map_of_mem hp
    have hqid : (p.replay (Engine.moves effects)).id = move.1 := by rw [Position.id_replay, hpid]
    refine ⟨p, hp, _, hq, hpid, hqid, ?_⟩
    rw [hpending]
    exact h.state_of_moved hid _ hq hqid
  · rintro ⟨p, hp, q, hq, rfl, hqid, hstate⟩
    rw [h.replayed] at hq
    obtain ⟨p', hp', rfl⟩ := List.mem_map.mp hq
    rw [Position.id_replay] at hqid
    obtain rfl := hids.eq hp' hp hqid
    by_contra hunmoved
    rw [Position.replay, lookup_of_unmoved hunmoved] at hstate
    exact hstate rfl

theorem Ended.length_le {status : MarketStatus} {effects : List MarketEffect}
    (h : Ended status effects) : (effects.filter (·.isTerminal)).length ≤ 1 := by
  cases hover : status.isTerminal with
  | false => simp [(ended_of_live hover _).mp h]
  | true =>
      rcases over_of_isTerminal hover with rfl | rfl
      · obtain ⟨outcome, decidingSeq, evidenceSeqs, h⟩ := h
        simp [h]
      · obtain ⟨reason, h⟩ := h
        simp [h]

/-- A settle effect stands for the status it leads to, and so does a void effect. -/
theorem Ended.mem_iff {status : MarketStatus} {effects : List MarketEffect}
    (h : Ended status effects) :
    ((∃ outcome decidingSeq evidenceSeqs, .settle outcome decidingSeq evidenceSeqs ∈ effects) ↔
        status = .settled) ∧
      ((∃ reason, .void reason ∈ effects) ↔ status = .voided) := by
  have hmem : ∀ effect : MarketEffect, effect.isTerminal = true →
      (effect ∈ effects ↔ effect ∈ effects.filter (·.isTerminal)) := fun effect hterminal => by
    simp [hterminal]
  have hsettle : ∀ outcome decidingSeq evidenceSeqs,
      (MarketEffect.settle outcome decidingSeq evidenceSeqs ∈ effects ↔
        .settle outcome decidingSeq evidenceSeqs ∈ effects.filter (·.isTerminal)) :=
    fun _ _ _ => hmem _ rfl
  have hvoid : ∀ reason, (MarketEffect.void reason ∈ effects ↔
      .void reason ∈ effects.filter (·.isTerminal)) := fun _ => hmem _ rfl
  simp only [hsettle, hvoid]
  cases hover : status.isTerminal with
  | false =>
      rw [(ended_of_live hover _).mp h]
      cases status <;> simp_all [MarketStatus.isTerminal]
  | true =>
      rcases over_of_isTerminal hover with rfl | rfl
      · obtain ⟨outcome, decidingSeq, evidenceSeqs, h⟩ := h
        simp [h]
      · obtain ⟨reason, h⟩ := h
        simp [h]

/-- A run ends a market at most once, by the step that makes it settled or voided,
and moves each position at most once, out of pending and with an effect that names
it. -/
theorem effects_once {start : MarketState} (hids : UniqueIds start.positions)
    (inputs : List MarketInput) (input : MarketInput) (state : MarketState)
    (hstate : state = (marketRun start inputs).1) :
    ((marketRun start inputs).2.filter (·.isTerminal)).length ≤ 1 ∧
      ((∃ outcome decidingSeq evidenceSeqs,
          .settle outcome decidingSeq evidenceSeqs ∈ (marketStep state input).2) ↔
        state.status ≠ .settled ∧ (marketStep state input).1.status = .settled) ∧
      ((∃ reason, .void reason ∈ (marketStep state input).2) ↔
        state.status ≠ .voided ∧ (marketStep state input).1.status = .voided) ∧
      (state.status = .settled ∨ state.status = .voided → marketStep state input = (state, [])) ∧
      List.Forall₂ MovesOnce state.positions (marketStep state input).1.positions ∧
      (∀ later, List.Forall₂ MovesOnce state.positions (marketRun state later).1.positions) ∧
      (movedIds (marketRun start inputs).2).Nodup ∧
      (∀ id, id ∈ movedIds (marketStep state input).2 ↔
        ∃ p ∈ state.positions, ∃ q ∈ (marketStep state input).1.positions,
          p.id = id ∧ q.id = id ∧ q.state ≠ p.state) ∧
      (state.status ≠ .settled → (marketStep state input).1.status = .settled →
        ∀ p ∈ (marketStep state input).1.positions, p.state ≠ .pending) := by
  subst hstate
  have hmoves := moves_marketRun hids inputs
  have hunique := hmoves.uniqueIds hids
  have hstep := moves_marketStep hunique input
  have hterminal : ((marketRun start inputs).2.filter (·.isTerminal)).length ≤ 1 := by
    cases hover : start.status.isTerminal with
    | true => simp [marketRun_of_over (over_of_isTerminal hover)]
    | false => exact (account_marketRun hids hover inputs).ended.length_le
  have hends : ((∃ outcome decidingSeq evidenceSeqs, .settle outcome decidingSeq evidenceSeqs ∈
          (marketStep (marketRun start inputs).1 input).2) ↔
        (marketRun start inputs).1.status ≠ .settled ∧
          (marketStep (marketRun start inputs).1 input).1.status = .settled) ∧
      ((∃ reason, .void reason ∈ (marketStep (marketRun start inputs).1 input).2) ↔
        (marketRun start inputs).1.status ≠ .voided ∧
          (marketStep (marketRun start inputs).1 input).1.status = .voided) := by
    cases hover : (marketRun start inputs).1.status.isTerminal with
    | true => simp [marketStep_of_over (over_of_isTerminal hover)]
    | false =>
        obtain ⟨hsettle, hvoid⟩ := (account_marketStep hunique hover input).ended.mem_iff
        have hlive : (marketRun start inputs).1.status ≠ .settled ∧
            (marketRun start inputs).1.status ≠ .voided := by
          simpa [MarketStatus.isTerminal] using hover
        exact ⟨by simp [hsettle, hlive.1], by simp [hvoid, hlive.2]⟩
  refine ⟨hterminal, hends.1, hends.2, fun hover => marketStep_of_over hover input,
    hstep.forall₂ hunique, fun later => (moves_marketRun hunique later).forall₂ hunique,
    hmoves.once, hstep.mem_movedIds hunique, fun hbefore hafter => ?_⟩
  cases hover : (marketRun start inputs).1.status.isTerminal with
  | true =>
      rw [marketStep_of_over (over_of_isTerminal hover)] at hafter
      exact absurd hafter hbefore
  | false => exact (account_marketStep hunique hover input).settled hafter

private def twoTaps : MarketState :=
  Sample.market Sample.twoGoals [⟨"a", 0, .pending⟩, ⟨"b", 1500, .pending⟩]

/-- A second goal voids the tap placed after it, and the tick that settles the
market activates the other. -/
theorem effects_once_second_goal :
    UniqueIds twoTaps.positions ∧
    ∀ p ∈ (marketStep (marketRun twoTaps
      [.event (Sample.feedEvent .goal 1 .h1 2)]).1 (.tick 100000)).1.positions,
        p.state ≠ .pending := by
  have hids : UniqueIds twoTaps.positions := by
    unfold UniqueIds
    decide
  exact ⟨hids, (effects_once hids [.event (Sample.feedEvent .goal 1 .h1 2)] (.tick 100000) _
    rfl).2.2.2.2.2.2.2.2 (by decide +kernel) (by decide +kernel)⟩

end CalledIt.Engine
