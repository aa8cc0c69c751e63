import CalledIt.Lib.Islands
import CalledIt.Escrow.State
import Mathlib.Data.Prod.Lex
import Mathlib.Algebra.BigOperators.Group.List.Basic
import Mathlib.Tactic.Linarith

/-!
# CalledIt.Points.Stats

The points of a group (`0014_group_points.sql`, the view of `0037_canonical_group_stats.sql`).

A settled market leaves one event for each participant.  What a player has won in a group is
derived from the events alone: the view numbers the losses in the order of settlement and
counts the wins between them.  `groupPlayerStatsFromEvents_perm`: the view does not depend on
the order in which the events were written.
-/

namespace CalledIt.Points

open Lib
open Escrow (PositionSide)

/-- A market id; `uuid` compares as the number that its bytes spell. -/
abbrev Uuid := Fin (2 ^ 128)

inductive PointResult
  | won
  | lost
  deriving DecidableEq, Repr

/-- A row of `group_point_events` with its check; times are in microseconds. -/
structure GroupPointEvent where
  groupId : Int
  marketId : Uuid
  userId : Int
  side : PositionSide
  result : PointResult
  pointsDelta : Int
  settledAt : Int
  delta_check : result = .won ∧ pointsDelta = 10 ∨ result = .lost ∧ pointsDelta = 0
  deriving DecidableEq

namespace GroupPointEvent

/-- The primary key. -/
def key (event : GroupPointEvent) : Uuid × Int := (event.marketId, event.userId)

def won (event : GroupPointEvent) : Bool := event.result = .won

/-- `order by settled_at, market_id`. -/
def position (event : GroupPointEvent) : Int ×ₗ Uuid := toLex (event.settledAt, event.marketId)

theorem pointsDelta_eq (event : GroupPointEvent) :
    event.pointsDelta = if event.won then 10 else 0 := by
  rcases event.delta_check with ⟨hresult, hdelta⟩ | ⟨hresult, hdelta⟩ <;>
    simp [won, hresult, hdelta]

end GroupPointEvent

/-- The columns of `group_player_stats` beside its key. -/
structure PlayerStats where
  points : Int
  wins : Nat
  losses : Nat
  currentStreak : Nat
  bestStreak : Nat
  updatedAt : Int
  deriving DecidableEq, Repr

/-- The events of one player in one group. -/
def playerEvents (events : List GroupPointEvent) (groupId userId : Int) : List GroupPointEvent :=
  events.filter fun event => event.groupId = groupId ∧ event.userId = userId

/-- The row of `group_player_stats_from_events`; a player without events has none. -/
def groupPlayerStatsFromEvents (users : List Int) (events : List GroupPointEvent)
    (groupId userId : Int) : Option PlayerStats :=
  let rows := playerEvents events groupId userId
  match (rows.map GroupPointEvent.settledAt).max? with
  | none => none
  | some updatedAt =>
      if userId ∈ users then some {
        points := (rows.map GroupPointEvent.pointsDelta).sum
        wins := rows.countP GroupPointEvent.won
        losses := rows.countP fun event => !event.won
        currentStreak := currentStreak GroupPointEvent.position GroupPointEvent.won rows
        bestStreak := bestStreak GroupPointEvent.position GroupPointEvent.won rows
        updatedAt }
      else none

/-! ## the view -/

section

variable {users : List Int} {events events' : List GroupPointEvent} {groupId userId : Int}

theorem mem_playerEvents {event : GroupPointEvent} :
    event ∈ playerEvents events groupId userId ↔
      event ∈ events ∧ event.groupId = groupId ∧ event.userId = userId := by
  simp [playerEvents]

theorem playerEvents_append : playerEvents (events ++ events') groupId userId =
    playerEvents events groupId userId ++ playerEvents events' groupId userId :=
  List.filter_append ..

theorem groupPlayerStatsFromEvents_perm (h : events.Perm events') :
    groupPlayerStatsFromEvents users events groupId userId =
      groupPlayerStatsFromEvents users events' groupId userId := by
  have hrows : (playerEvents events groupId userId).Perm (playerEvents events' groupId userId) :=
    h.filter _
  have hmax : ((playerEvents events groupId userId).map GroupPointEvent.settledAt).max? =
      ((playerEvents events' groupId userId).map GroupPointEvent.settledAt).max? := by
    apply Option.ext
    intro settledAt
    simp only [List.max?_eq_some_iff, (hrows.map _).mem_iff]
  simp only [groupPlayerStatsFromEvents, hmax, (hrows.map _).sum_eq, hrows.countP_eq,
    currentStreak_perm hrows, bestStreak_perm hrows]

/-- The row of a player depends on that player's events in the group only. -/
theorem groupPlayerStatsFromEvents_congr
    (h : playerEvents events groupId userId = playerEvents events' groupId userId) :
    groupPlayerStatsFromEvents users events groupId userId =
      groupPlayerStatsFromEvents users events' groupId userId := by
  simp only [groupPlayerStatsFromEvents, h]

theorem groupPlayerStatsFromEvents_isSome (husers : ∀ event ∈ events, event.userId ∈ users) :
    (groupPlayerStatsFromEvents users events groupId userId).isSome ↔
      ∃ event ∈ events, event.groupId = groupId ∧ event.userId = userId := by
  unfold groupPlayerStatsFromEvents
  dsimp only
  cases hmax : ((playerEvents events groupId userId).map GroupPointEvent.settledAt).max? with
  | none =>
      rw [List.max?_eq_none_iff, List.map_eq_nil_iff] at hmax
      simp only [Option.isSome_none, Bool.false_eq_true, false_iff]
      rintro ⟨event, hevent⟩
      have hmem := mem_playerEvents.mpr hevent
      rw [hmax] at hmem
      cases hmem
  | some updatedAt =>
      obtain ⟨event, hevent, -⟩ := List.mem_map.mp (List.max?_mem hmax)
      have hplayed := mem_playerEvents.mp hevent
      have hknown : userId ∈ users := hplayed.2.2 ▸ husers event hplayed.1
      simp only [if_pos hknown]
      exact iff_of_true rfl ⟨event, hplayed⟩

theorem sum_pointsDelta (rows : List GroupPointEvent) :
    (rows.map GroupPointEvent.pointsDelta).sum = rows.countP GroupPointEvent.won * 10 := by
  induction rows with
  | nil => rfl
  | cons row rows ih =>
      rw [List.map_cons, List.sum_cons, ih, List.countP_cons, row.pointsDelta_eq]
      push_cast
      split <;> omega

/-- The view from the events of a player in any order. -/
theorem groupPlayerStatsFromEvents_eq (husers : ∀ event ∈ events, event.userId ∈ users)
    {rows : List GroupPointEvent} (hperm : rows.Perm (playerEvents events groupId userId)) :
    if rows = [] then groupPlayerStatsFromEvents users events groupId userId = none
    else ∃ updatedAt, groupPlayerStatsFromEvents users events groupId userId = some {
      points := rows.countP GroupPointEvent.won * 10
      wins := rows.countP GroupPointEvent.won
      losses := rows.countP fun event => !event.won
      currentStreak := currentStreak GroupPointEvent.position GroupPointEvent.won rows
      bestStreak := bestStreak GroupPointEvent.position GroupPointEvent.won rows
      updatedAt } := by
  split
  next hnil =>
    rw [hnil, List.nil_perm] at hperm
    simp [groupPlayerStatsFromEvents, hperm]
  next hne =>
    obtain ⟨row, hrow⟩ := List.exists_mem_of_ne_nil rows hne
    obtain ⟨hmem, hgroup, huser⟩ := mem_playerEvents.mp (hperm.mem_iff.mp hrow)
    have hknown : userId ∈ users := huser ▸ husers row hmem
    obtain ⟨updatedAt, hmax⟩ : ∃ updatedAt,
        ((playerEvents events groupId userId).map GroupPointEvent.settledAt).max? =
          some updatedAt := by
      rw [← Option.ne_none_iff_exists', ne_eq, List.max?_eq_none_iff, List.map_eq_nil_iff]
      intro hnil
      have := hperm.mem_iff.mp hrow
      rw [hnil] at this
      cases this
    refine ⟨updatedAt, ?_⟩
    unfold groupPlayerStatsFromEvents
    simp only [hmax, if_pos hknown, sum_pointsDelta, hperm.countP_eq, currentStreak_perm hperm,
      bestStreak_perm hperm]

/-- The view meets the check of `group_player_stats`. -/
theorem PlayerStats.checked {stats : PlayerStats}
    (h : groupPlayerStatsFromEvents users events groupId userId = some stats) :
    stats.currentStreak ≤ stats.bestStreak := by
  unfold groupPlayerStatsFromEvents at h
  dsimp only at h
  split at h
  · cases h
  · split at h
    · obtain rfl := Option.some.inj h
      exact currentStreak_le_bestStreak
    · cases h

end

end CalledIt.Points
