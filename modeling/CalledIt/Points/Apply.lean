import CalledIt.Lib.Checked
import CalledIt.Lib.Store
import CalledIt.Points.Stats

/-!
# CalledIt.Points.Apply

Scoring a market (`group_points_apply` of `0037_canonical_group_stats.sql`).

A call writes one event for each participant, refreshes the cached rows of these players from
the view, and marks the market.  The advisory lock puts the calls of a group one after the
other.  `Sound` is what every call keeps: the cache is the view.  From it, calls may come in
any order and as often as they like (`group_points_order_independent`).
-/

namespace CalledIt.Points

open Lib
open Escrow (PositionSide)

/-! ## what is fixed -/

inductive MarketStatus
  | pendingLineup
  | open
  | frozen
  | settling
  | settled
  | voided
  deriving DecidableEq, Repr

structure Market where
  groupId : Int
  currency : String
  isReplay : Bool
  status : MarketStatus

inductive Outcome
  | claimWon
  | claimLost
  | void
  deriving DecidableEq, Repr

structure Settlement where
  outcome : Outcome
  settledAt : Int

inductive ParticipantState
  | pending
  | active
  | refundable
  | claimed
  deriving DecidableEq, Repr

/-- A row of `group_market_participant_source`. -/
structure Participant where
  marketId : Uuid
  userId : Int
  side : PositionSide
  participantState : ParticipantState
  deriving DecidableEq

/-- The tables that a call only reads. -/
structure Facts where
  markets : Uuid → Option Market
  /-- `points_started_at` of a group. -/
  groups : Int → Option Int
  settlements : Uuid → Option Settlement
  participantSource : List Participant
  users : List Int

/-! ## a call -/

/-- A row of `group_points_applied`. -/
structure Applied where
  marketId : Uuid
  groupId : Int
  settledAt : Int
  deriving DecidableEq

/-- The tables that a call writes. -/
structure Tables where
  events : List GroupPointEvent
  stats : Store (Int × Int) PlayerStats
  applied : List Applied

/-- What aborts the transaction. -/
inductive Violation
  | unique
  | foreignKey
  | check
  deriving DecidableEq, Repr

/-- The JSON that a call returns. -/
inductive ApplyResult
  | refused (code : String)
  | ineligible (reason : String) (groupId : Int)
  | scored (duplicate : Bool) (groupId : Int) (scoredCount winnerCount : Nat)
  deriving DecidableEq, Repr

def ApplyResult.ok : ApplyResult → Bool
  | refused _ => false
  | ineligible .. | scored .. => true

section

variable (facts : Facts)

/-- The participants that count, each user with each side once. -/
def participants (marketId : Uuid) : List (Int × PositionSide) :=
  ((facts.participantSource.filter fun source =>
    source.marketId = marketId ∧ source.participantState ≠ .pending).map
      fun source => (source.userId, source.side)).dedup

/-- A user is on both sides. -/
def positionConflict (marketId : Uuid) : Bool :=
  (participants facts marketId).any fun participant =>
    (participants facts marketId).any fun other =>
      participant.1 = other.1 ∧ participant.2 ≠ other.2

/-- A void market has no winning side. -/
def winningSide : Outcome → Option PositionSide
  | .claimWon => some .back
  | .claimLost => some .doubt
  | .void => none

def scoreEvent (marketId : Uuid) (groupId settledAt : Int) (winner participant : PositionSide)
    (userId : Int) : GroupPointEvent where
  groupId
  marketId
  userId
  side := participant
  result := if participant = winner then .won else .lost
  pointsDelta := if participant = winner then 10 else 0
  settledAt
  delta_check := by by_cases h : participant = winner <;> simp [h]

def scoreEvents (marketId : Uuid) (groupId settledAt : Int) (winner : PositionSide) :
    List GroupPointEvent :=
  (participants facts marketId).map fun participant =>
    scoreEvent marketId groupId settledAt winner participant.2 participant.1

def insertEvents (events rows : List GroupPointEvent) : Except Violation (List GroupPointEvent) :=
  if ¬ ((events ++ rows).map GroupPointEvent.key).Nodup then .error .unique
  else if ¬ ∀ row ∈ rows, row.userId ∈ facts.users then .error .foreignKey
  else .ok (events ++ rows)

/-- Upsert the row that the view has of a player. -/
def refresh (events : List GroupPointEvent) (groupId : Int)
    (stats : Store (Int × Int) PlayerStats) (userId : Int) :
    Except Violation (Store (Int × Int) PlayerStats) :=
  match groupPlayerStatsFromEvents facts.users events groupId userId with
  | none => .ok stats
  | some row =>
      if row.currentStreak ≤ row.bestStreak then .ok (stats.insert (groupId, userId) row)
      else .error .check

/-- The events of a market. -/
def marketEvents (events : List GroupPointEvent) (marketId : Uuid) : List GroupPointEvent :=
  events.filter fun event => event.marketId = marketId

/-- The market with the start of its group's points and its settlement. -/
def settledMarket (marketId : Uuid) : Except String (Market × Int × Settlement) :=
  match facts.markets marketId with
  | none => .error "market_not_found"
  | some market =>
  match facts.groups market.groupId with
  | none => .error "market_not_found"
  | some pointsStartedAt =>
  match facts.settlements marketId with
  | none => .error "settlement_missing"
  | some settlement =>
  if market.status ≠ .settled ∧ market.status ≠ .voided then .error "settlement_missing"
  else .ok (market, pointsStartedAt, settlement)

/-- Why a settled market has no points. -/
def ineligibleReason (market : Market) (pointsStartedAt : Int) (settlement : Settlement) :
    Option String :=
  if settlement.settledAt < pointsStartedAt then some "pre_activation"
  else if market.isReplay then some "replay"
  else if market.currency ≠ "sol" then some "unsupported_market"
  else none

/-- The first call on a market that counts. -/
def score (tables : Tables) (marketId : Uuid) (market : Market) (settlement : Settlement) :
    Except Violation (Tables × ApplyResult) :=
  let applied := tables.applied ++
    [{ marketId, groupId := market.groupId, settledAt := settlement.settledAt }]
  match winningSide settlement.outcome with
  | none => .ok ({ tables with applied }, .scored false market.groupId 0 0)
  | some winner => do
      let rows := scoreEvents facts marketId market.groupId settlement.settledAt winner
      let events ← insertEvents facts tables.events rows
      let stats ← ((marketEvents events marketId).map GroupPointEvent.userId).foldlM
        (refresh facts events market.groupId) tables.stats
      return ({ events, stats, applied }, .scored false market.groupId rows.length
        ((marketEvents events marketId).countP GroupPointEvent.won))

def groupPointsApply (tables : Tables) (marketId : Uuid) :
    Except Violation (Tables × ApplyResult) :=
  match settledMarket facts marketId with
  | .error code => .ok (tables, .refused code)
  | .ok (market, pointsStartedAt, settlement) =>
  if ∃ applied ∈ tables.applied, applied.marketId = marketId then
    let events := marketEvents tables.events marketId
    .ok (tables, .scored true market.groupId events.length (events.countP GroupPointEvent.won))
  else
  match ineligibleReason market pointsStartedAt settlement with
  | some reason => .ok (tables, .ineligible reason market.groupId)
  | none =>
  if positionConflict facts marketId then .ok (tables, .refused "position_conflict")
  else score facts tables marketId market settlement

/-- A call that raises leaves no trace. -/
def call (tables : Tables) (marketId : Uuid) : Tables :=
  match groupPointsApply facts tables marketId with
  | .ok (tables, _) => tables
  | .error _ => tables

/-- Calls one after the other. -/
def calls (tables : Tables) (marketIds : List Uuid) : Tables := marketIds.foldl (call facts) tables

/-- The tables as calls leave them: every event belongs to a market that was scored, and the
cache is the view. -/
structure Sound (tables : Tables) : Prop where
  keys : (tables.events.map GroupPointEvent.key).Nodup
  users : ∀ event ∈ tables.events, event.userId ∈ facts.users
  scored : ∀ event ∈ tables.events, ∃ applied ∈ tables.applied,
    applied.marketId = event.marketId
  cached : ∀ groupId userId, tables.stats.lookup (groupId, userId) =
    groupPlayerStatsFromEvents facts.users tables.events groupId userId

/-- What the first call on a market writes; it depends on the facts alone. -/
def award (marketId : Uuid) : Option (Applied × List GroupPointEvent) :=
  match settledMarket facts marketId with
  | .error _ => none
  | .ok (market, pointsStartedAt, settlement) =>
  if ineligibleReason market pointsStartedAt settlement = none ∧
      positionConflict facts marketId = false then
    let applied : Applied :=
      { marketId, groupId := market.groupId, settledAt := settlement.settledAt }
    match winningSide settlement.outcome with
    | none => some (applied, [])
    | some winner =>
        let rows := scoreEvents facts marketId market.groupId settlement.settledAt winner
        if ∀ row ∈ rows, row.userId ∈ facts.users then some (applied, rows) else none
  else none

end

/-! ## one call -/

variable {tables' : Tables}

section

variable {facts : Facts} {tables : Tables} {marketId : Uuid} {applied : Applied}
  {rows : List GroupPointEvent}

theorem positionConflict_eq_false :
    positionConflict facts marketId = false ↔
      ((participants facts marketId).map Prod.fst).Nodup := by
  have hnodup : (participants facts marketId).Nodup := List.nodup_dedup _
  rw [List.nodup_map_iff_inj_on hnodup]
  simp only [positionConflict, List.any_eq_false, Bool.not_eq_true, decide_eq_false_iff_not,
    not_and, not_not]
  constructor
  · intro h participant hmem other hmem' heq
    exact Prod.ext heq (h participant hmem other hmem' heq)
  · intro h participant hmem other hmem' heq
    rw [h participant hmem other hmem' heq]

theorem mem_scoreEvents {groupId settledAt : Int} {winner : PositionSide}
    {event : GroupPointEvent} (h : event ∈ scoreEvents facts marketId groupId settledAt winner) :
    event.marketId = marketId ∧ event.groupId = groupId := by
  obtain ⟨participant, -, rfl⟩ := List.mem_map.mp h
  exact ⟨rfl, rfl⟩

/-- The rows that a first call writes. -/
structure Writes (facts : Facts) (marketId : Uuid) (applied : Applied)
    (rows : List GroupPointEvent) : Prop where
  market : applied.marketId = marketId
  rows_market : ∀ row ∈ rows, row.marketId = marketId
  rows_group : ∀ row ∈ rows, row.groupId = applied.groupId
  users : ∀ row ∈ rows, row.userId ∈ facts.users
  distinct : (rows.map GroupPointEvent.userId).Nodup

theorem writes_of_award (h : award facts marketId = some (applied, rows)) :
    Writes facts marketId applied rows := by
  unfold award at h
  split at h
  · cases h
  next market pointsStartedAt settlement _ =>
    split at h
    next heligible =>
      dsimp only at h
      split at h
      · obtain ⟨rfl, rfl⟩ := Prod.mk.inj (Option.some.inj h)
        exact ⟨rfl, by simp, by simp, by simp, by simp⟩
      next winner _ =>
        split at h
        next husers =>
          obtain ⟨rfl, rfl⟩ := Prod.mk.inj (Option.some.inj h)
          refine ⟨rfl, fun row hrow => (mem_scoreEvents hrow).1,
            fun row hrow => (mem_scoreEvents hrow).2, husers, ?_⟩
          rw [scoreEvents, List.map_map]
          exact positionConflict_eq_false.mp heligible.2
        · cases h
    · cases h

/-- Refreshing players copies their rows of the view. -/
theorem foldlM_refresh (events : List GroupPointEvent) (groupId : Int) (userIds : List Int)
    (stats : Store (Int × Int) PlayerStats) :
    ∃ stats', userIds.foldlM (refresh facts events groupId) stats = .ok stats' ∧
      ∀ group userId, stats'.lookup (group, userId) =
        if group = groupId ∧ userId ∈ userIds ∧
            (groupPlayerStatsFromEvents facts.users events group userId).isSome then
          groupPlayerStatsFromEvents facts.users events group userId
        else stats.lookup (group, userId) := by
  induction userIds generalizing stats with
  | nil => exact ⟨stats, rfl, fun group userId => by simp⟩
  | cons player userIds ih =>
      rw [List.foldlM_cons]
      cases hview : groupPlayerStatsFromEvents facts.users events groupId player with
      | none =>
          obtain ⟨stats', hfold, hlookup⟩ := ih stats
          refine ⟨stats', by simpa [refresh, hview] using hfold, fun group userId => ?_⟩
          rw [hlookup]
          by_cases hplayer : userId = player
          · by_cases hgroup : group = groupId
            · simp [hplayer, hgroup, hview]
            · simp [hgroup]
          · simp [hplayer]
      | some row =>
          have hchecked := PlayerStats.checked hview
          obtain ⟨stats', hfold, hlookup⟩ := ih (stats.insert (groupId, player) row)
          refine ⟨stats', by simpa [refresh, hview, hchecked] using hfold, fun group userId => ?_⟩
          rw [hlookup]
          by_cases hkey : group = groupId ∧ userId = player
          · obtain ⟨rfl, rfl⟩ := hkey
            simp [hview, AList.lookup_insert]
          · have hne : (group, userId) ≠ (groupId, player) := fun h =>
              hkey ⟨congrArg Prod.fst h, congrArg Prod.snd h⟩
            rw [AList.lookup_insert_ne hne]
            by_cases hgroup : group = groupId
            · have hplayer : userId ≠ player := fun h => hkey ⟨hgroup, h⟩
              simp [hgroup, hplayer]
            · simp [hgroup]

theorem Sound.keys_append (h : Sound facts tables) (hw : Writes facts marketId applied rows)
    (hfresh : ∀ applied ∈ tables.applied, applied.marketId ≠ marketId) :
    ((tables.events ++ rows).map GroupPointEvent.key).Nodup := by
  rw [List.map_append, List.nodup_append']
  refine ⟨h.keys, ?_, ?_⟩
  · have hsnd : (rows.map GroupPointEvent.key).map Prod.snd = rows.map GroupPointEvent.userId :=
      List.map_map
    exact List.Nodup.of_map Prod.snd (hsnd ▸ hw.distinct)
  · intro key hevents hrows
    obtain ⟨event, hevent, rfl⟩ := List.mem_map.mp hevents
    obtain ⟨row, hrow, hkey⟩ := List.mem_map.mp hrows
    obtain ⟨applied', happlied', hmarket⟩ := h.scored event hevent
    have hsame : row.marketId = event.marketId := congrArg Prod.fst hkey
    exact hfresh applied' happlied' (by rw [hmarket, ← hsame, hw.rows_market row hrow])

/-- Before its first call a market has no events. -/
theorem Sound.marketEvents_append (h : Sound facts tables)
    (hw : Writes facts marketId applied rows)
    (hfresh : ∀ applied ∈ tables.applied, applied.marketId ≠ marketId) :
    marketEvents (tables.events ++ rows) marketId = rows := by
  have hnone : marketEvents tables.events marketId = [] := by
    rw [marketEvents, List.filter_eq_nil_iff]
    intro event hevent hmarket
    obtain ⟨applied', happlied', hsame⟩ := h.scored event hevent
    exact hfresh applied' happlied' (hsame.trans (of_decide_eq_true hmarket))
  have hall : marketEvents rows marketId = rows := by
    rw [marketEvents, List.filter_eq_self]
    intro row hrow
    exact decide_eq_true (hw.rows_market row hrow)
  rw [marketEvents, List.filter_append]
  exact (congrArg₂ (· ++ ·) hnone hall).trans (List.nil_append rows)

/-- The tables after a first call. -/
theorem Sound.append (h : Sound facts tables) (hw : Writes facts marketId applied rows)
    (hfresh : ∀ applied ∈ tables.applied, applied.marketId ≠ marketId)
    {stats : Store (Int × Int) PlayerStats}
    (hstats : ∀ group userId, stats.lookup (group, userId) =
      if group = applied.groupId ∧ userId ∈ rows.map GroupPointEvent.userId ∧
          (groupPlayerStatsFromEvents facts.users (tables.events ++ rows) group userId).isSome then
        groupPlayerStatsFromEvents facts.users (tables.events ++ rows) group userId
      else tables.stats.lookup (group, userId)) :
    Sound facts { events := tables.events ++ rows, stats,
                  applied := tables.applied ++ [applied] } := by
  have husers : ∀ event ∈ tables.events ++ rows, event.userId ∈ facts.users := by
    intro event hevent
    rcases List.mem_append.mp hevent with hevent | hevent
    · exact h.users event hevent
    · exact hw.users event hevent
  refine ⟨h.keys_append hw hfresh, husers, ?_, ?_⟩
  · intro event hevent
    rcases List.mem_append.mp hevent with hevent | hevent
    · obtain ⟨applied', happlied', hmarket⟩ := h.scored event hevent
      exact ⟨applied', List.mem_append_left _ happlied', hmarket⟩
    · exact ⟨applied, by simp, by rw [hw.market, hw.rows_market event hevent]⟩
  · intro group userId
    change stats.lookup (group, userId) = _
    rw [hstats, h.cached]
    by_cases hplayer : group = applied.groupId ∧ userId ∈ rows.map GroupPointEvent.userId
    · obtain ⟨hgroup, hplayed⟩ := hplayer
      obtain ⟨row, hrow, rfl⟩ := List.mem_map.mp hplayed
      have hsome : (groupPlayerStatsFromEvents _ _ group row.userId).isSome :=
        (groupPlayerStatsFromEvents_isSome husers).mpr
          ⟨row, List.mem_append_right _ hrow, by rw [hgroup, hw.rows_group row hrow], rfl⟩
      rw [if_pos ⟨hgroup, hplayed, hsome⟩]
    · -- none of the new events is of this player in this group
      have hnone : playerEvents rows group userId = [] := by
        rw [playerEvents, List.filter_eq_nil_iff]
        intro row hrow hmatch
        obtain ⟨hgroup, huser⟩ := of_decide_eq_true hmatch
        exact hplayer ⟨by rw [← hgroup, hw.rows_group row hrow],
          List.mem_map.mpr ⟨row, hrow, huser⟩⟩
      rw [if_neg fun hall => hplayer ⟨hall.1, hall.2.1⟩]
      apply groupPlayerStatsFromEvents_congr
      rw [playerEvents_append, hnone, List.append_nil]

/-- A first call that counts writes its award. -/
theorem apply_of_award (h : Sound facts tables)
    (hfresh : ∀ applied ∈ tables.applied, applied.marketId ≠ marketId)
    (haward : award facts marketId = some (applied, rows)) :
    ∃ stats result, groupPointsApply facts tables marketId =
        .ok ({ events := tables.events ++ rows, stats,
               applied := tables.applied ++ [applied] }, result) ∧
      Sound facts { events := tables.events ++ rows, stats,
                    applied := tables.applied ++ [applied] } := by
  have hw := writes_of_award haward
  have hnew : ¬ ∃ applied ∈ tables.applied, applied.marketId = marketId := by
    rintro ⟨applied', happlied', hmarket⟩
    exact hfresh applied' happlied' hmarket
  unfold award at haward
  unfold groupPointsApply
  split at haward
  · cases haward
  next market pointsStartedAt settlement hsettled =>
    split at haward
    next heligible =>
      dsimp only at haward
      simp only [if_neg hnew, heligible.1, heligible.2, Bool.false_eq_true, if_false,
        score]
      split at haward
      next hvoid =>
        obtain ⟨rfl, rfl⟩ := Prod.mk.inj (Option.some.inj haward)
        refine ⟨tables.stats, _, by rw [List.append_nil], h.append hw hfresh ?_⟩
        simp
      next winner hwinner =>
        split at haward
        next husers =>
          obtain ⟨rfl, rfl⟩ := Prod.mk.inj (Option.some.inj haward)
          have hinsert : insertEvents facts tables.events
              (scoreEvents facts marketId market.groupId settlement.settledAt winner) =
                .ok (tables.events ++
                  scoreEvents facts marketId market.groupId settlement.settledAt winner) := by
            rw [insertEvents, if_neg (not_not.mpr (h.keys_append hw hfresh)),
              if_neg (not_not.mpr husers)]
          obtain ⟨stats, hfold, hlookup⟩ := foldlM_refresh (tables.events ++
            scoreEvents facts marketId market.groupId settlement.settledAt winner) market.groupId
            ((scoreEvents facts marketId market.groupId settlement.settledAt winner).map
              GroupPointEvent.userId) tables.stats
          refine ⟨stats, .scored false market.groupId
            (scoreEvents facts marketId market.groupId settlement.settledAt winner).length
            ((scoreEvents facts marketId market.groupId settlement.settledAt winner).countP
              GroupPointEvent.won), ?_, h.append hw hfresh hlookup⟩
          simp only [hinsert, ok_bind, h.marketEvents_append hw hfresh, hfold]
          rfl
        · cases haward
    · cases haward

/-- A first call that does not count writes nothing. -/
theorem call_of_none (h : award facts marketId = none) :
    call facts tables marketId = tables ∨
      ∃ applied ∈ tables.applied, applied.marketId = marketId := by
  by_cases happlied : ∃ applied ∈ tables.applied, applied.marketId = marketId
  · exact .inr happlied
  left
  unfold award at h
  unfold call groupPointsApply
  split at h
  · rfl
  next market pointsStartedAt settlement _ =>
    simp only [if_neg happlied]
    cases hreason : ineligibleReason market pointsStartedAt settlement with
    | some reason => rfl
    | none =>
        cases hconflict : positionConflict facts marketId with
        | true => simp
        | false =>
            simp only [hreason, hconflict, and_self, if_true] at h
            simp only [Bool.false_eq_true, if_false, score]
            split at h
            · cases h
            next winner _ =>
              split at h
              · cases h
              next husers =>
                -- a participant that is not a user raises
                have hraises : ∃ violation, insertEvents facts tables.events
                    (scoreEvents facts marketId market.groupId settlement.settledAt winner) =
                      .error violation := by
                  unfold insertEvents
                  split
                  · exact ⟨_, rfl⟩
                  · exact ⟨_, rfl⟩
                obtain ⟨violation, hraises⟩ := hraises
                simp only [hraises]
                rfl

theorem call_of_applied (h : ∃ applied ∈ tables.applied, applied.marketId = marketId) :
    call facts tables marketId = tables := by
  unfold call groupPointsApply
  cases settledMarket facts marketId with
  | error => rfl
  | ok settled => simp only [if_pos h]

theorem call_of_award (h : Sound facts tables)
    (hfresh : ∀ applied ∈ tables.applied, applied.marketId ≠ marketId)
    (haward : award facts marketId = some (applied, rows)) :
    (call facts tables marketId).events = tables.events ++ rows ∧
      (call facts tables marketId).applied = tables.applied ++ [applied] ∧
      Sound facts (call facts tables marketId) := by
  obtain ⟨stats, result, happly, hsound⟩ := apply_of_award h hfresh haward
  unfold call
  rw [happly]
  exact ⟨rfl, rfl, hsound⟩

/-! ## any calls -/

theorem Sound.call (h : Sound facts tables) (marketId : Uuid) :
    Sound facts (call facts tables marketId) := by
  by_cases happlied : ∃ applied ∈ tables.applied, applied.marketId = marketId
  · rw [call_of_applied happlied]
    exact h
  cases haward : award facts marketId with
  | none =>
      rw [(call_of_none haward).resolve_right happlied]
      exact h
  | some applied =>
      have hfresh : ∀ applied ∈ tables.applied, applied.marketId ≠ marketId :=
        fun applied hmem hmarket => happlied ⟨applied, hmem, hmarket⟩
      exact (call_of_award h hfresh haward).2.2

theorem calls_append (first second : List Uuid) :
    calls facts tables (first ++ second) = calls facts (calls facts tables first) second :=
  List.foldl_append

theorem Sound.calls (h : Sound facts tables) (marketIds : List Uuid) :
    Sound facts (calls facts tables marketIds) := by
  induction marketIds generalizing tables with
  | nil => exact h
  | cons marketId marketIds ih => exact ih (h.call marketId)

/-- A market that was scored stays scored. -/
theorem mem_applied_call (h : Sound facts tables) {marketId : Uuid}
    (hmem : applied ∈ tables.applied) : applied ∈ (call facts tables marketId).applied := by
  by_cases happlied : ∃ applied ∈ tables.applied, applied.marketId = marketId
  · rw [call_of_applied happlied]
    exact hmem
  cases haward : award facts marketId with
  | none =>
      rw [(call_of_none haward).resolve_right happlied]
      exact hmem
  | some award =>
      have hfresh : ∀ applied ∈ tables.applied, applied.marketId ≠ marketId :=
        fun applied hmem hmarket => happlied ⟨applied, hmem, hmarket⟩
      rw [(call_of_award h hfresh haward).2.1]
      exact List.mem_append_left _ hmem

theorem mem_applied_calls (h : Sound facts tables) {marketIds : List Uuid}
    (hmem : applied ∈ tables.applied) : applied ∈ (calls facts tables marketIds).applied := by
  induction marketIds generalizing tables with
  | nil => exact hmem
  | cons marketId marketIds ih => exact ih (h.call marketId) (mem_applied_call h hmem)

theorem applied_of_score {market : Market} {settlement : Settlement} {result : ApplyResult}
    (h : score facts tables marketId market settlement = .ok (tables', result)) :
    ∃ applied ∈ tables'.applied, applied.marketId = marketId := by
  unfold score at h
  dsimp only at h
  split at h
  · obtain ⟨rfl, -⟩ := Prod.mk.inj (Except.ok.inj h)
    exact ⟨_, List.mem_append_right _ List.mem_cons_self, rfl⟩
  · simp only [bind_ok_iff, pure_ok_iff, Prod.mk.injEq] at h
    obtain ⟨-, -, -, -, rfl, -⟩ := h
    exact ⟨_, List.mem_append_right _ List.mem_cons_self, rfl⟩

/-- A call that succeeded once succeeds again, and changes nothing. -/
theorem apply_again (h : Sound facts tables) {result : ApplyResult}
    (happly : groupPointsApply facts tables marketId = .ok (tables', result))
    (hok : result.ok = true) (later : List Uuid) :
    ∃ result', groupPointsApply facts (calls facts tables' later) marketId =
      .ok (calls facts tables' later, result') ∧ result'.ok = true := by
  have hsound : Sound facts tables' := by
    have hcall : call facts tables marketId = tables' := by rw [call, happly]
    exact hcall ▸ h.call marketId
  unfold groupPointsApply at happly ⊢
  split at happly
  · obtain ⟨-, rfl⟩ := Prod.mk.inj (Except.ok.inj happly)
    cases hok
  next market pointsStartedAt settlement hsettled =>
    by_cases happlied : ∃ applied ∈ (calls facts tables' later).applied,
        applied.marketId = marketId
    · simp only [if_pos happlied]
      exact ⟨_, rfl, rfl⟩
    have hnew : ¬ ∃ applied ∈ tables'.applied, applied.marketId = marketId := by
      rintro ⟨applied, hmem, hmarket⟩
      exact happlied ⟨applied, mem_applied_calls hsound hmem, hmarket⟩
    simp only [if_neg happlied]
    split at happly
    next happlied' =>
      obtain ⟨rfl, -⟩ := Prod.mk.inj (Except.ok.inj happly)
      exact absurd happlied' hnew
    · split at happly
      · exact ⟨_, rfl, rfl⟩
      · split at happly
        · obtain ⟨-, rfl⟩ := Prod.mk.inj (Except.ok.inj happly)
          cases hok
        · exact absurd (applied_of_score happly) hnew

/-- The events that a market is scored with. -/
def awardRows (facts : Facts) (marketId : Uuid) : List GroupPointEvent :=
  ((award facts marketId).map Prod.snd).getD []

/-- Later tables hold the awards of the markets that were scored in between. -/
structure Scores (facts : Facts) (tables tables' : Tables) (marketIds scored : List Uuid) :
    Prop where
  nodup : scored.Nodup
  mem : ∀ marketId, marketId ∈ scored ↔ marketId ∈ marketIds ∧ (award facts marketId).isSome ∧
    ∀ applied ∈ tables.applied, applied.marketId ≠ marketId
  events : tables'.events = tables.events ++ scored.flatMap (awardRows facts)
  applied : tables'.applied = tables.applied ++
    scored.filterMap fun marketId => (award facts marketId).map Prod.fst

/-- A call that writes nothing. -/
theorem Scores.skip {marketIds scored : List Uuid}
    (h : Scores facts tables tables' marketIds scored) (hskip : award facts marketId = none ∨
      ∃ applied ∈ tables.applied, applied.marketId = marketId) :
    Scores facts tables tables' (marketId :: marketIds) scored := by
  refine ⟨h.nodup, fun other => ?_, h.events, h.applied⟩
  rw [h.mem other, List.mem_cons]
  constructor
  · rintro ⟨hmem, hrest⟩
    exact ⟨.inr hmem, hrest⟩
  · rintro ⟨rfl | hmem, hsome, hnew⟩
    · rcases hskip with hnone | ⟨applied, hmem, hmarket⟩
      · rw [hnone] at hsome
        cases hsome
      · exact absurd hmarket (hnew applied hmem)
    · exact ⟨hmem, hsome, hnew⟩

theorem exists_scores (h : Sound facts tables) (marketIds : List Uuid) :
    ∃ scored, Scores facts tables (calls facts tables marketIds) marketIds scored := by
  induction marketIds generalizing tables with
  | nil => exact ⟨[], List.nodup_nil, by simp, by simp [calls], by simp [calls]⟩
  | cons marketId marketIds ih =>
      change ∃ scored, Scores facts tables (calls facts (call facts tables marketId) marketIds)
        (marketId :: marketIds) scored
      by_cases happlied : ∃ applied ∈ tables.applied, applied.marketId = marketId
      · obtain ⟨scored, hscored⟩ := ih h
        rw [call_of_applied happlied]
        exact ⟨scored, hscored.skip (.inr happlied)⟩
      cases haward : award facts marketId with
      | none =>
          obtain ⟨scored, hscored⟩ := ih h
          rw [(call_of_none haward).resolve_right happlied]
          exact ⟨scored, hscored.skip (.inl haward)⟩
      | some award =>
          have hfresh : ∀ applied ∈ tables.applied, applied.marketId ≠ marketId :=
            fun applied hmem hmarket => happlied ⟨applied, hmem, hmarket⟩
          obtain ⟨applied, rows⟩ := award
          obtain ⟨hevents, happlied', hsound⟩ := call_of_award h hfresh haward
          obtain ⟨scored, hscored⟩ := ih hsound
          have hmarket := (writes_of_award haward).market
          have hnew : marketId ∉ scored := by
            intro hmem
            have hnot := ((hscored.mem marketId).mp hmem).2.2 applied
            rw [happlied'] at hnot
            exact hnot (by simp) hmarket
          refine ⟨marketId :: scored, List.nodup_cons.mpr ⟨hnew, hscored.nodup⟩, ?_, ?_, ?_⟩
          · intro other
            rw [List.mem_cons, List.mem_cons, hscored.mem other, happlied']
            by_cases hother : other = marketId
            · subst hother
              simp only [haward, Option.isSome_some, true_and, true_or, true_iff]
              exact hfresh
            · have hne : applied.marketId ≠ other := fun heq => hother (heq.symm.trans hmarket)
              simp [hother, hne, or_imp, forall_and]
          · rw [hscored.events, hevents]
            simp [awardRows, haward]
          · rw [hscored.applied, happlied']
            simp [haward]

/-- **Points are scored once, in whatever order.**  However often and in whatever order markets
are scored, no participant of a market gets two events; a successful call repeated later changes
nothing; the cached row of every player with events is the row of the view; and the events and
the cached rows do not depend on the order. -/
theorem group_points_order_independent (h : Sound facts tables) (marketIds : List Uuid) :
    ((calls facts tables marketIds).events.map GroupPointEvent.key).Nodup ∧
    (∀ before marketId after tables' result, marketIds = before ++ marketId :: after →
      groupPointsApply facts (calls facts tables before) marketId = .ok (tables', result) →
      result.ok = true →
      ∃ result', groupPointsApply facts (calls facts tables marketIds) marketId =
        .ok (calls facts tables marketIds, result') ∧ result'.ok = true) ∧
    (∀ groupId userId, (∃ event ∈ (calls facts tables marketIds).events,
        event.groupId = groupId ∧ event.userId = userId) →
      ∃ row, (calls facts tables marketIds).stats.lookup (groupId, userId) = some row ∧
        groupPlayerStatsFromEvents facts.users (calls facts tables marketIds).events
          groupId userId = some row) ∧
    ∀ marketIds', (∀ marketId, marketId ∈ marketIds' ↔ marketId ∈ marketIds) →
      (calls facts tables marketIds').events.Perm (calls facts tables marketIds).events ∧
      (∀ player, (calls facts tables marketIds').stats.lookup player =
        (calls facts tables marketIds).stats.lookup player) ∧
      (calls facts tables marketIds').applied.Perm (calls facts tables marketIds).applied := by
  have hsound := h.calls marketIds
  refine ⟨hsound.keys, ?_, ?_, ?_⟩
  · rintro before marketId after tables' result rfl happly hok
    have hcall : call facts (calls facts tables before) marketId = tables' := by
      rw [call, happly]
    have hcalls : calls facts tables (before ++ marketId :: after) = calls facts tables' after := by
      rw [calls_append, ← hcall]
      rfl
    rw [hcalls]
    exact apply_again (h.calls before) happly hok after
  · intro groupId userId hplayed
    have hsome := (groupPlayerStatsFromEvents_isSome hsound.users).mpr hplayed
    obtain ⟨row, hrow⟩ := Option.isSome_iff_exists.mp hsome
    exact ⟨row, by rw [hsound.cached, hrow], hrow⟩
  · intro marketIds' hsame
    obtain ⟨scored, hscored⟩ := exists_scores h marketIds
    obtain ⟨scored', hscored'⟩ := exists_scores h marketIds'
    have hperm : scored'.Perm scored := by
      rw [List.perm_ext_iff_of_nodup hscored'.nodup hscored.nodup]
      intro marketId
      rw [hscored.mem, hscored'.mem, hsame]
    have hevents : (calls facts tables marketIds').events.Perm
        (calls facts tables marketIds).events := by
      rw [hscored.events, hscored'.events]
      exact (hperm.flatMap_right _).append_left _
    refine ⟨hevents, fun player => ?_, ?_⟩
    · obtain ⟨groupId, userId⟩ := player
      rw [(h.calls marketIds').cached, hsound.cached, groupPlayerStatsFromEvents_perm hevents]
    · rw [hscored.applied, hscored'.applied]
      exact (hperm.filterMap _).append_left _

end

/-! ## a sample -/

namespace Sample

/-- Two markets of one group, the second of which settles first. -/
def facts : Facts where
  markets marketId := if marketId < 2 then
    some { groupId := -7, currency := "sol", isReplay := false, status := .settled } else none
  groups _ := some 0
  settlements marketId := some
    { outcome := if marketId = 0 then .claimWon else .claimLost
      settledAt := if marketId = 0 then 900 else 500 }
  participantSource :=
    [{ marketId := 0, userId := 11, side := .back, participantState := .active },
     { marketId := 1, userId := 11, side := .back, participantState := .claimed }]
  users := [11]

def tables : Tables := { events := [], stats := ∅, applied := [] }

theorem sound : Sound facts tables where
  keys := List.nodup_nil
  users := by simp [tables]
  scored := by simp [tables]
  cached groupId userId := rfl

end Sample

/-- The sample's markets scored out of order, and one of them twice. -/
theorem group_points_order_independent_sample :
    (calls Sample.facts Sample.tables [1, 0, 1]).events.length = 2 ∧
      (calls Sample.facts Sample.tables [0, 1]).events.Perm
        (calls Sample.facts Sample.tables [1, 0, 1]).events ∧
      (calls Sample.facts Sample.tables [1, 0, 1]).stats.lookup (-7, 11) = some
        { points := 10, wins := 1, losses := 1, currentStreak := 1, bestStreak := 1,
          updatedAt := 900 } := by
  have hall := group_points_order_independent Sample.sound [1, 0, 1]
  refine ⟨by decide +kernel, (hall.2.2.2 [0, 1] fun marketId => ?_).1, by decide +kernel⟩
  simp only [List.mem_cons, List.not_mem_nil, or_false]
  tauto

end CalledIt.Points
