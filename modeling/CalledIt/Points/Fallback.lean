import CalledIt.Lib.Checked
import CalledIt.Points.Stats
import Mathlib.Data.Rat.Defs
import Mathlib.Data.String.Basic

/-!
# CalledIt.Points.Fallback

The leaderboard without the view (`db/src/group-points-canonical-fallback.ts`).

The client reads the events of a group and goes through those of each player in order, which it
makes itself: JavaScript times are milliseconds, and ids are compared as texts.  The view
orders by microseconds.  `fallback_agrees`: both show the same wins, losses and streaks, unless
a win and a loss fall into one millisecond and stand the other way round there.
-/

namespace CalledIt.Points

open Lib
open Escrow (PositionSide)

/-! ## rows -/

inductive CustodyMode
  | legacy
  | escrow
  deriving DecidableEq, Repr

/-- A row of `markets` as it is selected. -/
structure MarketRow where
  id : Uuid
  groupId : Int
  custodyMode : CustodyMode
  isReplay : Bool
  currency : String
  status : String
  deriving DecidableEq

structure GroupRow where
  id : Int
  pointsStartedAt : Int

structure AppliedRow where
  marketId : Uuid
  groupId : Int

structure LinkRow where
  marketId : Uuid
  programId : String
  documentHashHex : String
  chainState : String

inductive SettledOutcome
  | claimWon
  | claimLost
  deriving DecidableEq, Repr

inductive Tier
  | chainProven
  | oracleResolved
  deriving DecidableEq, Repr

/-- The outcome is missing when it is neither of the two. -/
structure SettlementRow where
  marketId : Uuid
  outcome : Option SettledOutcome
  tier : Tier
  settledAt : Int

structure ChainSettlementRow where
  marketId : Uuid
  programId : String
  documentHashHex : String
  outcome : Option SettledOutcome

structure UserRow where
  id : Int
  displayName : String
  username : Option String

/-- What a query returns, with the exact count. -/
structure Response (α : Type) where
  count : Nat
  values : List α

/-! ## the client -/

structure ScoreEvent where
  marketId : Uuid
  userId : Int
  side : PositionSide
  result : PointResult
  settledAtMs : Int
  deriving DecidableEq

structure SettlementView where
  outcome : SettledOutcome
  tier : Tier
  settledAtMs : Int

/-- `canonicalEscrowProjection` returns derived events and the outcomes of markets. -/
structure CanonicalEscrowProjection where
  events : List ScoreEvent
  outcomes : List (Uuid × SettlementView)

structure LeaderboardEntry where
  groupId : Int
  userId : Int
  points : Int
  wins : Nat
  losses : Nat
  /-- The quotient that is rounded to a number. -/
  accuracy : Rat
  currentStreak : Nat
  bestStreak : Nat
  displayName : String
  username : Option String

/-- The field of a contract failure. -/
abbrev Contract := Except String

def maxMarkets : Nat := 250
def maxFactRows : Nat := 999
def maxUsers : Nat := 999

def boundedQuery (response : Response α) (maximum : Nat) (field : String) : Contract (List α) :=
  if response.count > maximum then .error (field ++ "_bound")
  else if response.values.length ≠ response.count then .error (field ++ "_truncated")
  else if response.values.length > maximum then .error (field ++ "_bound")
  else .ok response.values

/-- `Date.parse` keeps the milliseconds of a time in microseconds. -/
def timestamp (time : Int) : Int := time / 1000

def parseMarket (row : MarketRow) : Contract MarketRow :=
  if row.isReplay ∨ row.currency ≠ "sol" ∨ row.status ≠ "settled" then .error "market"
  else .ok row

def parsePersistedEvent (row : GroupPointEvent) : Contract ScoreEvent :=
  if (if row.result = .won then 10 else 0) ≠ row.pointsDelta then .error "points_delta"
  else if row.userId ≤ 0 then .error "user_id"
  else .ok {
    marketId := row.marketId
    userId := row.userId
    side := row.side
    result := row.result
    settledAtMs := timestamp row.settledAt }

def parseAppliedMarket (groupId : Int) (row : AppliedRow) : Contract Uuid :=
  if row.groupId ≠ groupId then .error "applied_group_id" else .ok row.marketId

def parseLink (row : LinkRow) : Contract LinkRow :=
  if row.chainState ≠ "settled" ∧ row.chainState ≠ "closed" then .error "market_link" else .ok row

def parseSettlement (row : SettlementRow) : Contract (Uuid × SettlementView) :=
  match row.outcome with
  | none => .error "outcome"
  | some outcome =>
      .ok (row.marketId, { outcome, tier := row.tier, settledAtMs := timestamp row.settledAt })

def parseChainSettlement (row : ChainSettlementRow) :
    Contract (Uuid × ChainSettlementRow × SettledOutcome) :=
  match row.outcome with
  | none => .error "outcome"
  | some outcome => .ok (row.marketId, row, outcome)

/-- A market may have one value only. -/
def uniqueByMarket (values : List (Uuid × β)) (field : String) : Contract (List (Uuid × β)) :=
  if (values.map Prod.fst).Nodup then .ok values else .error field

/-- An event again, which has to say the same. -/
def addScoreEvent (unique : List ScoreEvent) (value : ScoreEvent) : Contract (List ScoreEvent) :=
  match unique.find? fun existing =>
      existing.marketId = value.marketId ∧ existing.userId = value.userId with
  | none => .ok (unique ++ [value])
  | some existing =>
      if existing.side ≠ value.side ∨ existing.result ≠ value.result ∨
        existing.settledAtMs ≠ value.settledAtMs then .error "score_event"
      else .ok unique

def uniqueScoreEvents (values : List ScoreEvent) : Contract (List ScoreEvent) :=
  values.foldlM addScoreEvent []

/-- The events of a market, which `groupEvents` collects. -/
def eventsOf (values : List ScoreEvent) (marketId : Uuid) : List ScoreEvent :=
  values.filter fun event => event.marketId = marketId

/-- The market's settlement counts, unless it is older than the group's points. -/
def eligibleSettlement (links : List (Uuid × LinkRow))
    (settlements : List (Uuid × SettlementView))
    (chainSettlements : List (Uuid × ChainSettlementRow × SettledOutcome))
    (pointsStartedAtMs : Int) (marketId : Uuid) : Contract (Option (Uuid × SettlementView)) := do
  let settlement ← okOr (settlements.lookup marketId) "settlement"
  if settlement.settledAtMs < pointsStartedAtMs then return none
  else if settlement.tier = .oracleResolved then return some (marketId, settlement)
  else
    let link ← okOr (links.lookup marketId) "market_link"
    let (chain, outcome) ← okOr (chainSettlements.lookup marketId) "chain_settlement"
    if settlement.outcome ≠ outcome then throw "settlement_outcome"
    else if link.programId ≠ chain.programId ∨ link.documentHashHex ≠ chain.documentHashHex then
      throw "settlement_identity"
    else return some (marketId, settlement)

/-- The queries of the client, and what it derives from the lots of the markets given. -/
structure Responses where
  group : Response GroupRow
  markets : Response MarketRow
  persisted : Response GroupPointEvent
  applied : Response AppliedRow
  links : Response LinkRow
  settlements : Response SettlementRow
  chainSettlements : Response ChainSettlementRow
  users : Response UserRow
  derive : List Uuid → Contract (List ScoreEvent)

def canonicalEscrowProjection (responses : Responses) (marketIds deriveMarketIds : List Uuid)
    (pointsStartedAtMs : Int) : Contract CanonicalEscrowProjection := do
  let linkRows ← (← boundedQuery responses.links maxMarkets "links").mapM parseLink
  let links ← uniqueByMarket (linkRows.map fun row => (row.marketId, row)) "market_link"
  let settlements ← uniqueByMarket
    (← (← boundedQuery responses.settlements maxMarkets "settlements").mapM parseSettlement)
    "settlement"
  let chainSettlements ← uniqueByMarket
    (← (← boundedQuery responses.chainSettlements maxMarkets "settlement_events").mapM
      parseChainSettlement) "chain_settlement"
  let eligible ← marketIds.filterMapM
    (eligibleSettlement links settlements chainSettlements pointsStartedAtMs)
  let eligibleIds := (eligible.filter fun (marketId, settlement) =>
    marketId ∈ deriveMarketIds ∧ settlement.tier = .chainProven).map Prod.fst
  if eligibleIds = [] then return { events := [], outcomes := eligible }
  else return { events := ← responses.derive eligibleIds, outcomes := eligible }

/-- A persisted event says what the settlement says. -/
def checkPersisted (settlement : SettlementView) (event : ScoreEvent) : Contract Unit :=
  let winningSide : PositionSide := if settlement.outcome = .claimWon then .back else .doubt
  let expected : PointResult := if event.side = winningSide then .won else .lost
  if event.result ≠ expected ∨ event.settledAtMs ≠ settlement.settledAtMs then
    .error "persisted_event"
  else .ok ()

/-- The events of an escrow market: the persisted ones, and if there are none the derived. -/
def escrowEvents (persistedEvents : List ScoreEvent) (canonical : CanonicalEscrowProjection)
    (marketId : Uuid) : Contract (List ScoreEvent) := do
  let persisted := eventsOf persistedEvents marketId
  if persisted ≠ [] then
    let settlement ← okOr (canonical.outcomes.lookup marketId) "persisted_settlement"
    persisted.forM (checkPersisted settlement)
    return persisted
  else return eventsOf canonical.events marketId

/-- On ids, texts of hexadecimal digits and hyphens, the collation is that of the characters. -/
def localeCompare (left right : String) : Int :=
  if left < right then -1 else if right < left then 1 else 0

/-- The last `width` hexadecimal digits of a number. -/
def hexDigits : Nat → Nat → List Char
  | 0, _ => []
  | width + 1, n => Nat.digitChar (n / 16 ^ width % 16) :: hexDigits width n

/-- The text of an id. -/
def uuidText (id : Uuid) : String :=
  String.ofList (hexDigits 8 (id.val / 16 ^ 24) ++ '-' :: (hexDigits 4 (id.val / 16 ^ 20) ++
    '-' :: (hexDigits 4 (id.val / 16 ^ 16) ++ '-' :: (hexDigits 4 (id.val / 16 ^ 12) ++
      '-' :: hexDigits 12 id.val))))

def compareEvents (left right : ScoreEvent) : Int :=
  let difference := left.settledAtMs - right.settledAtMs
  if difference ≠ 0 then difference
  else localeCompare (uuidText left.marketId) (uuidText right.marketId)

def compareLeaderboard (left right : LeaderboardEntry) : Int :=
  if right.points - left.points ≠ 0 then right.points - left.points
  else if (right.wins : Int) - left.wins ≠ 0 then right.wins - left.wins
  else if (left.losses : Int) - right.losses ≠ 0 then left.losses - right.losses
  else left.userId - right.userId

/-- The entry of a user with that history. -/
def leaderboardEntry (groupId : Int) (users : List UserRow) (events : List ScoreEvent)
    (userId : Int) : Contract LeaderboardEntry := do
  let user ← okOr (users.find? fun row => row.id = userId) "user_id"
  let history := (events.filter fun event => event.userId = userId).mergeSort
    fun left right => compareEvents left right ≤ 0
  let streaks := streaksOf (history.map fun event => event.result = .won)
  let decisions := streaks.wins + streaks.losses
  return {
    groupId
    userId
    points := streaks.wins * 10
    wins := streaks.wins
    losses := streaks.losses
    accuracy := if decisions = 0 then 0 else streaks.wins / decisions
    currentStreak := streaks.current
    bestStreak := streaks.best
    displayName := user.displayName
    username := user.username }

/-- The persisted events of the markets. -/
def persistedScores (responses : Responses) (markets : List MarketRow) :
    Contract (List ScoreEvent) :=
  if markets = [] then .ok []
  else do
    let rows ← boundedQuery responses.persisted maxFactRows "persisted_events"
    uniqueScoreEvents (← rows.mapM parsePersistedEvent)

/-- The events of the escrow markets; `persisted` are those of no legacy market. -/
def escrowScores (responses : Responses) (groupId pointsStartedAtMs : Int) (escrowIds : List Uuid)
    (persisted : List ScoreEvent) : Contract (List ScoreEvent) :=
  if escrowIds = [] then .ok []
  else do
    let appliedRows ← boundedQuery responses.applied maxMarkets "applied_markets"
    let appliedIds ← appliedRows.mapM (parseAppliedMarket groupId)
    let deriveIds := escrowIds.filter fun marketId =>
      eventsOf persisted marketId = [] ∧ marketId ∈ appliedIds
    let projectionIds := escrowIds.filter fun marketId =>
      eventsOf persisted marketId ≠ [] ∨ marketId ∈ appliedIds
    let canonical ← canonicalEscrowProjection responses projectionIds deriveIds pointsStartedAtMs
    return (← escrowIds.mapM (escrowEvents persisted canonical)).flatten

/-- The entries of everyone with events. -/
def leaderboard (responses : Responses) (groupId : Int) (events : List ScoreEvent) :
    Contract (List LeaderboardEntry) :=
  let userIds := (events.map ScoreEvent.userId).eraseDups
  if userIds = [] then .ok []
  else if userIds.length > maxUsers then .error "users_bound"
  else do
    let userRows ← boundedQuery responses.users maxUsers "users"
    if ∃ row ∈ userRows, row.id ≤ 0 then throw "id"
    else if ¬ (userRows.map UserRow.id).Nodup then throw "user_id"
    else
      let entries ← userIds.mapM (leaderboardEntry groupId userRows events)
      return entries.mergeSort fun left right => compareLeaderboard left right ≤ 0

def canonicalGroupLeaderboardFallback (responses : Responses) (groupId : Int) :
    Contract (List LeaderboardEntry) := do
  match ← boundedQuery responses.group 1 "group" with
  | [] => return []
  | group :: _ =>
      if group.id ≠ groupId then throw "group_id"
      else
        let markets ← (← boundedQuery responses.markets maxMarkets "markets").mapM parseMarket
        let legacyIds := (markets.filter fun row => row.custodyMode = .legacy).map MarketRow.id
        let escrowIds := (markets.filter fun row => row.custodyMode = .escrow).map MarketRow.id
        let persistedEvents ← persistedScores responses markets
        let legacyEvents := persistedEvents.filter fun event => event.marketId ∈ legacyIds
        let escrowEvents ← escrowScores responses groupId (timestamp group.pointsStartedAt)
          escrowIds (persistedEvents.filter fun event => event.marketId ∉ legacyIds)
        leaderboard responses groupId (← uniqueScoreEvents (legacyEvents ++ escrowEvents))

/-! ## ids as texts -/

theorem length_hexDigits (width n : Nat) : (hexDigits width n).length = width := by
  induction width with
  | zero => rfl
  | succ width ih => simp [hexDigits, ih]

theorem append_lt_append_iff {as bs cs ds : List Char} (h : as.length = bs.length) :
    as ++ cs < bs ++ ds ↔ as < bs ∨ as = bs ∧ cs < ds := by
  induction as generalizing bs with
  | nil => simp [List.length_eq_zero_iff.mp h.symm]
  | cons a as ih =>
      cases bs with
      | nil => simp at h
      | cons b bs =>
          rw [List.length_cons, List.length_cons, Nat.add_right_cancel_iff] at h
          simp only [List.cons_append, List.cons_lt_cons_iff, ih h, List.cons.injEq]
          tauto

theorem digitChar_lt_iff : ∀ d < 16, ∀ e < 16, Nat.digitChar d < Nat.digitChar e ↔ d < e := by
  decide

theorem digitChar_eq_iff : ∀ d < 16, ∀ e < 16, Nat.digitChar d = Nat.digitChar e ↔ d = e := by
  decide

/-- The digits of a number, highest first. -/
theorem mod_pow_succ_eq (width n : Nat) :
    n % 16 ^ (width + 1) = 16 ^ width * (n / 16 ^ width % 16) + n % 16 ^ width := by
  rw [Nat.pow_succ, Nat.mod_mul, Nat.add_comm]

theorem mul_add_lt_iff {b x y r s : Nat} (hr : r < b) (hs : s < b) :
    b * x + r < b * y + s ↔ x < y ∨ x = y ∧ r < s := by
  rcases Nat.lt_trichotomy x y with hlt | rfl | hgt
  · have hle : b * x + b ≤ b * y := by
      rw [← Nat.mul_succ]
      exact Nat.mul_le_mul_left b hlt
    omega
  · omega
  · have hle : b * y + b ≤ b * x := by
      rw [← Nat.mul_succ]
      exact Nat.mul_le_mul_left b hgt
    omega

theorem hexDigits_iff (width n m : Nat) :
    (hexDigits width n < hexDigits width m ↔ n % 16 ^ width < m % 16 ^ width) ∧
      (hexDigits width n = hexDigits width m ↔ n % 16 ^ width = m % 16 ^ width) := by
  induction width with
  | zero => simp [hexDigits, Nat.mod_one]
  | succ width ih =>
      have hn : n / 16 ^ width % 16 < 16 := Nat.mod_lt _ (by decide)
      have hm : m / 16 ^ width % 16 < 16 := Nat.mod_lt _ (by decide)
      have hrn : n % 16 ^ width < 16 ^ width := Nat.mod_lt _ (Nat.pow_pos (by decide))
      have hrm : m % 16 ^ width < 16 ^ width := Nat.mod_lt _ (Nat.pow_pos (by decide))
      have hlt := mul_add_lt_iff (x := n / 16 ^ width % 16) (y := m / 16 ^ width % 16) hrn hrm
      have hgt := mul_add_lt_iff (x := m / 16 ^ width % 16) (y := n / 16 ^ width % 16) hrm hrn
      rw [mod_pow_succ_eq, mod_pow_succ_eq]
      simp only [hexDigits, List.cons_lt_cons_iff, List.cons.injEq, digitChar_lt_iff _ hn _ hm,
        digitChar_eq_iff _ hn _ hm, ih.1, ih.2, hlt, true_and]
      constructor
      · omega
      · intro heq
        omega

/-- Numbers compare by their high digits, then by their low ones. -/
theorem mod_pow_lt_iff (high low n m : Nat) :
    n % 16 ^ (low + high) < m % 16 ^ (low + high) ↔
      n / 16 ^ low % 16 ^ high < m / 16 ^ low % 16 ^ high ∨
        n / 16 ^ low % 16 ^ high = m / 16 ^ low % 16 ^ high ∧ n % 16 ^ low < m % 16 ^ low := by
  rw [Nat.pow_add, Nat.mod_mul, Nat.mod_mul, Nat.add_comm, Nat.add_comm (m % 16 ^ low)]
  exact mul_add_lt_iff (Nat.mod_lt _ (Nat.pow_pos (by decide)))
    (Nat.mod_lt _ (Nat.pow_pos (by decide)))

/-- The texts of ids stand in the order of the ids. -/
theorem uuidText_lt_iff {id id' : Uuid} : uuidText id < uuidText id' ↔ id < id' := by
  have hdash (cs ds : List Char) : '-' :: cs < '-' :: ds ↔ cs < ds := by
    simp
  have hval (id : Uuid) : id.val % 16 ^ (24 + 8) = id.val := Nat.mod_eq_of_lt id.isLt
  rw [String.lt_iff_toList_lt, uuidText, uuidText, String.toList_ofList, String.toList_ofList]
  rw [append_lt_append_iff (by simp [length_hexDigits]), hdash,
    append_lt_append_iff (by simp [length_hexDigits]), hdash,
    append_lt_append_iff (by simp [length_hexDigits]), hdash,
    append_lt_append_iff (by simp [length_hexDigits]), hdash]
  simp only [(hexDigits_iff _ _ _).1, (hexDigits_iff _ _ _).2]
  rw [Fin.lt_def, ← hval id, ← hval id', mod_pow_lt_iff 8 24, mod_pow_lt_iff 4 20,
    mod_pow_lt_iff 4 16, mod_pow_lt_iff 4 12]
  simp only [hval]

/-! ## the order of a history -/

/-- A persisted event as the client has it. -/
def ScoreEvent.of (event : GroupPointEvent) : ScoreEvent where
  marketId := event.marketId
  userId := event.userId
  side := event.side
  result := event.result
  settledAtMs := timestamp event.settledAt

/-- The client's order. -/
def ScoreEvent.position (event : ScoreEvent) : Int ×ₗ Uuid :=
  toLex (event.settledAtMs, event.marketId)

theorem localeCompare_le_iff {id id' : Uuid} :
    localeCompare (uuidText id) (uuidText id') ≤ 0 ↔ id ≤ id' := by
  unfold localeCompare
  simp only [uuidText_lt_iff]
  split
  next h => simp [le_of_lt h]
  next h =>
    split
    next h' => simp [not_le.mpr h']
    next h' => simp [not_lt.mp h']

theorem compareEvents_le_iff {left right : ScoreEvent} :
    compareEvents left right ≤ 0 ↔ left.position ≤ right.position := by
  rw [ScoreEvent.position, ScoreEvent.position, Prod.Lex.toLex_le_toLex, compareEvents]
  dsimp only
  by_cases hsame : left.settledAtMs = right.settledAtMs
  · simp [hsame, localeCompare_le_iff]
  · rw [if_pos (by omega)]
    simp only [hsame, false_and, or_false]
    omega

/-- The results of a player in the client's order. -/
def clientResults (rows : List GroupPointEvent) : List Bool :=
  (((rows.map ScoreEvent.of).mergeSort fun left right => compareEvents left right ≤ 0).map
    fun event => event.result = .won)

theorem clientResults_eq (rows : List GroupPointEvent) :
    clientResults rows = (rows.mergeSort fun row row' =>
      (ScoreEvent.of row).position ≤ (ScoreEvent.of row').position).map GroupPointEvent.won := by
  have hsort := List.map_mergeSort (f := ScoreEvent.of) (l := rows)
    (r := fun row row' => decide ((ScoreEvent.of row).position ≤ (ScoreEvent.of row').position))
    (s := fun left right => decide (compareEvents left right ≤ 0))
    fun row _ row' _ => decide_eq_decide.mpr compareEvents_le_iff.symm
  rw [clientResults, ← hsort, List.map_map]
  rfl

/-- A win and a loss of one player in one millisecond are settled in the order of their markets,
wherever the microseconds tell them apart. -/
def MillisecondsInOrder (events : List GroupPointEvent) (groupId : Int) : Prop :=
  ∀ event ∈ events, ∀ event' ∈ events, event.groupId = groupId → event'.groupId = groupId →
    event.userId = event'.userId → event.result ≠ event'.result →
    timestamp event.settledAt = timestamp event'.settledAt →
    event.settledAt < event'.settledAt → event.marketId < event'.marketId

variable {event' : GroupPointEvent}

theorem won_ne_iff {event : GroupPointEvent} :
    event.won ≠ event'.won ↔ event.result ≠ event'.result := by
  unfold GroupPointEvent.won
  cases event.result <;> cases event'.result <;> simp

variable {rows : List GroupPointEvent}

/-- The streaks of the client are those of the view. -/
theorem streaksOf_clientResults (hkeys : (rows.map GroupPointEvent.marketId).Nodup)
    (horder : ∀ row ∈ rows, ∀ row' ∈ rows, row.result ≠ row'.result →
      timestamp row.settledAt = timestamp row'.settledAt → row.settledAt < row'.settledAt →
      row.marketId < row'.marketId) :
    streaksOf (clientResults rows) =
      { wins := rows.countP GroupPointEvent.won
        losses := rows.countP fun event => !event.won
        current := currentStreak GroupPointEvent.position GroupPointEvent.won rows
        best := bestStreak GroupPointEvent.position GroupPointEvent.won rows } := by
  have hposition : (rows.map GroupPointEvent.position).Nodup := by
    refine List.Nodup.of_map (fun key => (ofLex key).2) ?_
    rw [List.map_map]
    exact hkeys
  have hclient : (rows.map fun row => (ScoreEvent.of row).position).Nodup := by
    refine List.Nodup.of_map (fun key => (ofLex key).2) ?_
    rw [List.map_map]
    exact hkeys
  have hview := pairwise_lt_mergeSort hposition
  have hperm := List.mergeSort_perm rows fun row row' => decide (row.position ≤ row'.position)
  have hsame : (rows.mergeSort fun row row' => row.position ≤ row'.position).map
      GroupPointEvent.won = clientResults rows := by
    rw [clientResults_eq]
    refine map_eq_of_two_orders GroupPointEvent.won (hperm.trans (List.mergeSort_perm rows _).symm)
      hview (pairwise_lt_mergeSort hclient) fun row hrow row' hrow' hwon hlt => ?_
    have hresult := won_ne_iff.mp hwon
    have hrow := hperm.mem_iff.mp hrow
    have hrow' := hperm.mem_iff.mp hrow'
    have hagrees := horder row hrow row' hrow' hresult
    simp only [GroupPointEvent.position, ScoreEvent.position, ScoreEvent.of,
      Prod.Lex.toLex_lt_toLex, timestamp] at hlt hagrees ⊢
    rintro (hbefore | ⟨hms, hmarket⟩)
    · omega
    · rcases hlt with hlt | ⟨-, hlt⟩
      · exact lt_asymm hmarket (hagrees hms.symm hlt)
      · exact lt_asymm hmarket hlt
  rw [← hsame, streaksOf_map_won hview, hperm.countP_eq, hperm.countP_eq,
    currentStreak_perm hperm, bestStreak_perm hperm]

/-! ## what the client reads -/

/-- The tables that the leaderboard is about. -/
structure Database where
  markets : List MarketRow
  settlements : List SettlementRow
  events : List GroupPointEvent
  users : List Int

/-- A market of the group whose results count. -/
def Counts (groupId : Int) (market : MarketRow) : Prop :=
  market.groupId = groupId ∧ market.isReplay = false ∧ market.currency = "sol" ∧
    market.status = "settled"

instance (groupId : Int) (market : MarketRow) : Decidable (Counts groupId market) :=
  inferInstanceAs (Decidable (_ ∧ _ ∧ _ ∧ _))

/-- The settlement says what the event says. -/
def Settles (settlement : SettlementRow) (event : GroupPointEvent) : Prop :=
  settlement.marketId = event.marketId ∧ settlement.settledAt = event.settledAt ∧
    (settlement.outcome = some .claimWon ∧ (event.result = .won ↔ event.side = .back) ∨
      settlement.outcome = some .claimLost ∧ (event.result = .won ↔ event.side = .doubt))

/-- The persisted events of a group, with the keys and references of the tables. -/
structure Persisted (db : Database) (groupId : Int) : Prop where
  keys : (db.events.map GroupPointEvent.key).Nodup
  marketIds : (db.markets.map MarketRow.id).Nodup
  users : ∀ event ∈ db.events, event.userId ∈ db.users
  counts : ∀ event ∈ db.events, event.groupId = groupId →
    ∃ market ∈ db.markets, market.id = event.marketId ∧ Counts groupId market
  settled : ∀ event ∈ db.events, event.groupId = groupId →
    ∃ settlement ∈ db.settlements, Settles settlement event

/-- The responses hold the rows of the tables, in any order, and no event is derived. -/
structure Answers (db : Database) (groupId : Int) (responses : Responses) : Prop where
  group : responses.group.values ≠ []
  markets : responses.markets.values.Perm (db.markets.filter fun market => Counts groupId market)
  persisted : responses.persisted.values.Perm (db.events.filter fun event =>
    event.groupId = groupId ∧ event.marketId ∈ responses.markets.values.map MarketRow.id)
  derive : ∀ marketIds, responses.derive marketIds = .ok []

section

variable {db : Database} {groupId : Int} {responses : Responses}

theorem boundedQuery_ok {response : Response α} {maximum : Nat} {field : String} {values : List α}
    (h : boundedQuery response maximum field = .ok values) : values = response.values := by
  unfold boundedQuery at h
  split at h
  · cases h
  · split at h
    · cases h
    · split at h
      · cases h
      · exact (Except.ok.inj h).symm

theorem parseMarket_ok {row row' : MarketRow} (h : parseMarket row = .ok row') : row' = row := by
  unfold parseMarket at h
  split at h
  · cases h
  · exact (Except.ok.inj h).symm

theorem parsePersistedEvent_ok {row : GroupPointEvent} {event : ScoreEvent}
    (h : parsePersistedEvent row = .ok event) : event = ScoreEvent.of row := by
  unfold parsePersistedEvent at h
  split_ifs at h
  all_goals exact (Except.ok.inj h).symm

def ScoreEvent.key (event : ScoreEvent) : Uuid × Int := (event.marketId, event.userId)

theorem foldlM_addScoreEvent {unique values : List ScoreEvent}
    (h : ((unique ++ values).map ScoreEvent.key).Nodup) :
    values.foldlM addScoreEvent unique = .ok (unique ++ values) := by
  induction values generalizing unique with
  | nil => rw [List.append_nil]; rfl
  | cons value values ih =>
      have hnew : addScoreEvent unique value = .ok (unique ++ [value]) := by
        unfold addScoreEvent
        split
        next => rfl
        next existing hfound =>
          have hmem := List.mem_of_find?_eq_some hfound
          have hsame := List.find?_some hfound
          simp only [decide_eq_true_eq] at hsame
          rw [List.map_append, List.map_cons, List.nodup_append'] at h
          have hkey : existing.key = value.key := Prod.ext hsame.1 hsame.2
          refine absurd (h.2.2 (List.mem_map_of_mem hmem)) (not_not.mpr ?_)
          rw [hkey]
          exact List.mem_cons_self
      rw [List.foldlM_cons, hnew, ok_bind, ih (by rwa [List.append_assoc, List.singleton_append]),
        List.append_assoc, List.singleton_append]

theorem uniqueScoreEvents_of_nodup {values : List ScoreEvent}
    (h : (values.map ScoreEvent.key).Nodup) : uniqueScoreEvents values = .ok values :=
  foldlM_addScoreEvent h

theorem canonicalEscrowProjection_events {marketIds deriveMarketIds : List Uuid}
    {pointsStartedAtMs : Int} {canonical : CanonicalEscrowProjection}
    (hderive : ∀ marketIds, responses.derive marketIds = .ok [])
    (h : canonicalEscrowProjection responses marketIds deriveMarketIds pointsStartedAtMs =
      .ok canonical) : canonical.events = [] := by
  unfold canonicalEscrowProjection at h
  simp only [bind_ok_iff] at h
  obtain ⟨-, -, -, -, -, -, -, -, -, -, -, -, -, -, -, -, -, -, eligible, -, h⟩ := h
  split at h
  · rw [← pure_ok_iff.mp h]
  · simp only [hderive, ok_bind, pure_ok_iff] at h
    rw [← h]

theorem escrowEvents_ok {persisted : List ScoreEvent} {canonical : CanonicalEscrowProjection}
    (hnone : canonical.events = []) {marketId : Uuid} {events : List ScoreEvent}
    (h : escrowEvents persisted canonical marketId = .ok events) :
    events = eventsOf persisted marketId := by
  unfold escrowEvents at h
  dsimp only at h
  split at h
  · simp only [bind_ok_iff, pure_ok_iff] at h
    obtain ⟨-, -, -, -, rfl⟩ := h
    rfl
  next hempty =>
    rw [not_not] at hempty
    rw [← pure_ok_iff.mp h, hnone, hempty]
    rfl

/-- Without derived events, the escrow markets keep their persisted ones. -/
theorem escrowScores_ok {pointsStartedAtMs : Int} {escrowIds : List Uuid}
    {persisted scores : List ScoreEvent}
    (hderive : ∀ marketIds, responses.derive marketIds = .ok [])
    (h : escrowScores responses groupId pointsStartedAtMs escrowIds persisted = .ok scores) :
    scores = escrowIds.flatMap (eventsOf persisted) := by
  unfold escrowScores at h
  split at h
  next hempty =>
    rw [hempty, ← Except.ok.inj h]
    rfl
  · simp only [bind_ok_iff, pure_ok_iff] at h
    obtain ⟨_, _, _, _, canonical, hcanonical, scores', hscores, rfl⟩ := h
    have hnone := canonicalEscrowProjection_events hderive hcanonical
    rw [eq_map_of_mapM_ok (fun marketId _ events => escrowEvents_ok hnone) hscores,
      List.flatMap_def]

theorem persistedScores_ok {markets : List MarketRow} {scores : List ScoreEvent}
    (hkeys : (responses.persisted.values.map GroupPointEvent.key).Nodup)
    (hnone : markets = [] → responses.persisted.values = [])
    (h : persistedScores responses markets = .ok scores) :
    scores = responses.persisted.values.map ScoreEvent.of := by
  unfold persistedScores at h
  split at h
  next hempty =>
    rw [hnone hempty, ← Except.ok.inj h]
    rfl
  · simp only [bind_ok_iff] at h
    obtain ⟨rows, hrows, parsed, hparsed, hunique⟩ := h
    obtain rfl := boundedQuery_ok hrows
    obtain rfl := eq_map_of_mapM_ok (fun row _ event => parsePersistedEvent_ok) hparsed
    have hnodup : ((responses.persisted.values.map ScoreEvent.of).map ScoreEvent.key).Nodup := by
      rw [List.map_map]
      exact hkeys
    rw [uniqueScoreEvents_of_nodup hnodup] at hunique
    exact (Except.ok.inj hunique).symm

/-- Rows grouped by markets that cover them. -/
theorem flatMap_filter_perm {ids : List Uuid} (hnodup : ids.Nodup)
    (hcover : ∀ row ∈ rows, row.marketId ∈ ids) :
    (ids.flatMap fun id => rows.filter fun row => row.marketId = id).Perm rows := by
  induction ids generalizing rows with
  | nil =>
      have hnone : rows = [] := by
        rw [List.eq_nil_iff_forall_not_mem]
        intro row hrow
        cases hcover row hrow
      rw [hnone]
      exact List.Perm.refl _
  | cons id ids ih =>
      obtain ⟨hnew, hnodup⟩ := List.nodup_cons.mp hnodup
      have hrest : (ids.flatMap fun id' => rows.filter fun row => row.marketId = id') =
          ids.flatMap fun id' => (rows.filter fun row => !decide (row.marketId = id)).filter
            fun row => row.marketId = id' := by
        apply List.flatMap_congr
        intro id' hid'
        rw [List.filter_filter]
        apply List.filter_congr
        intro row _
        by_cases hmarket : row.marketId = id'
        · have hne : id' ≠ id := fun heq => hnew (heq ▸ hid')
          simp [hmarket, hne]
        · simp [hmarket]
      rw [List.flatMap_cons, hrest]
      refine (List.Perm.append_left _ (ih hnodup fun row hrow => ?_)).trans
        (List.filter_append_perm _ rows)
      obtain ⟨hmem, hne⟩ := List.mem_filter.mp hrow
      exact (List.mem_cons.mp (hcover row hmem)).resolve_left (by simpa using hne)

theorem filter_of (rows : List GroupPointEvent) (p : ScoreEvent → Bool) :
    (rows.map ScoreEvent.of).filter p =
      (rows.filter fun row => p (ScoreEvent.of row)).map ScoreEvent.of :=
  List.filter_map ..

/-- The legacy events and the escrow events are all the events. -/
theorem exists_perm_split {legacyIds escrowIds : List Uuid} (hnodup : escrowIds.Nodup)
    (hcover : ∀ row ∈ rows, row.marketId ∈ legacyIds ∨
      row.marketId ∈ escrowIds) :
    ∃ rows' : List GroupPointEvent, rows'.Perm rows ∧
      (rows.map ScoreEvent.of).filter (fun event => event.marketId ∈ legacyIds) ++
        escrowIds.flatMap (eventsOf ((rows.map ScoreEvent.of).filter fun event =>
          event.marketId ∉ legacyIds)) = rows'.map ScoreEvent.of := by
  let legacy := rows.filter fun row => row.marketId ∈ legacyIds
  let escrow := rows.filter fun row => !decide (row.marketId ∈ legacyIds)
  refine ⟨legacy ++ escrowIds.flatMap fun id => escrow.filter fun row => row.marketId = id,
    ?_, ?_⟩
  · refine (List.Perm.append_left _ (flatMap_filter_perm hnodup fun row hrow => ?_)).trans
      (List.filter_append_perm _ rows)
    obtain ⟨hmem, hne⟩ := List.mem_filter.mp hrow
    exact (hcover row hmem).resolve_left (by simpa using hne)
  · rw [List.map_append, List.map_flatMap, filter_of]
    refine congrArg₂ (· ++ ·) rfl (List.flatMap_congr fun id _ => ?_)
    rw [eventsOf, filter_of, filter_of]
    simp only [escrow, decide_not]
    rfl

/-! ## what the client returns -/

/-- The entry of a player with these results. -/
structure EntryOf (groupId userId : Int) (results : List Bool) (entry : LeaderboardEntry) :
    Prop where
  groupId : entry.groupId = groupId
  userId : entry.userId = userId
  points : entry.points = (streaksOf results).wins * 10
  wins : entry.wins = (streaksOf results).wins
  losses : entry.losses = (streaksOf results).losses
  currentStreak : entry.currentStreak = (streaksOf results).current
  bestStreak : entry.bestStreak = (streaksOf results).best

/-- The events of one player among those of a group. -/
def userRows (rows : List GroupPointEvent) (userId : Int) : List GroupPointEvent :=
  rows.filter fun row => row.userId = userId

theorem leaderboardEntry_ok {users : List UserRow} {userId : Int} {entry : LeaderboardEntry}
    (h : leaderboardEntry groupId users (rows.map ScoreEvent.of) userId = .ok entry) :
    EntryOf groupId userId (clientResults (userRows rows userId)) entry := by
  unfold leaderboardEntry at h
  simp only [bind_ok_iff, pure_ok_iff] at h
  obtain ⟨-, -, rfl⟩ := h
  have hrows : (rows.map ScoreEvent.of).filter (fun event => event.userId = userId) =
      (userRows rows userId).map ScoreEvent.of := filter_of ..
  simp only [hrows]
  exact ⟨rfl, rfl, rfl, rfl, rfl, rfl, rfl⟩

theorem nodup_eraseDups (xs : List Int) : xs.eraseDups.Nodup := by
  match xs with
  | [] => exact List.nodup_nil
  | x :: xs =>
      rw [List.eraseDups_cons, List.nodup_cons]
      refine ⟨fun hmem => ?_, nodup_eraseDups _⟩
      simp [List.mem_eraseDups] at hmem
termination_by xs.length
decreasing_by
  have hle := List.length_filter_le (fun b => !b == x) xs
  simp only [List.length_cons]
  omega

variable {entries : List LeaderboardEntry}

/-- Of entries for different users, one is a given user's. -/
theorem filter_entries {R : Int → LeaderboardEntry → Prop} (hR : ∀ userId entry, R userId entry →
    entry.userId = userId) {userIds : List Int} (h : List.Forall₂ R userIds entries)
    (hnodup : userIds.Nodup) (userId : Int) :
    if userId ∈ userIds then
      ∃ entry, entries.filter (fun entry => entry.userId = userId) = [entry] ∧ R userId entry
    else entries.filter (fun entry => entry.userId = userId) = [] := by
  induction h with
  | nil => simp
  | @cons id entry userIds entries hentry _ ih =>
      obtain ⟨hnew, hnodup⟩ := List.nodup_cons.mp hnodup
      have ih := ih hnodup
      have hid := hR id entry hentry
      by_cases hsame : userId = id
      · subst hsame
        rw [if_neg hnew] at ih
        simp [hid, ih, hentry]
      · have hne : ¬ id = userId := fun heq => hsame heq.symm
        simpa [hsame, hne, hid] using ih

/-- A player with events has one entry, and nobody else has any. -/
theorem leaderboard_ok (h : leaderboard responses groupId (rows.map ScoreEvent.of) = .ok entries)
    (userId : Int) :
    if userRows rows userId = [] then
      entries.filter (fun entry => entry.userId = userId) = []
    else ∃ entry, entries.filter (fun entry => entry.userId = userId) = [entry] ∧
      EntryOf groupId userId (clientResults (userRows rows userId)) entry := by
  have huserIds : (rows.map ScoreEvent.of).map ScoreEvent.userId =
      rows.map GroupPointEvent.userId := by
    rw [List.map_map]
    rfl
  have hmem : userRows rows userId = [] ↔ userId ∉ (rows.map GroupPointEvent.userId).eraseDups := by
    rw [List.mem_eraseDups, userRows, List.filter_eq_nil_iff]
    simp
  simp only [hmem, ite_not]
  unfold leaderboard at h
  simp only [huserIds] at h
  split at h
  next hempty =>
    rw [hempty, ← Except.ok.inj h]
    simp
  · split at h
    · cases h
    · obtain ⟨users, -, h⟩ := bind_ok_iff.mp h
      split at h
      · cases h
      · split at h
        · cases h
        · simp only [bind_ok_iff, pure_ok_iff] at h
          obtain ⟨unsorted, hunsorted, rfl⟩ := h
          have hperm := (List.mergeSort_perm unsorted fun left right =>
            decide (compareLeaderboard left right ≤ 0)).filter fun entry => entry.userId = userId
          have hentries := filter_entries (fun userId entry hentry =>
            (leaderboardEntry_ok hentry).userId) (mapM_ok_iff_forall₂.mp hunsorted)
            (nodup_eraseDups _) userId
          split at hentries
          next hplayed =>
            obtain ⟨entry, hfilter, hentry⟩ := hentries
            rw [hfilter, List.perm_singleton] at hperm
            rw [if_pos hplayed]
            exact ⟨entry, hperm, leaderboardEntry_ok hentry⟩
          next hplayed =>
            rw [hentries] at hperm
            rw [if_neg hplayed]
            exact hperm.eq_nil

/-- What the fallback returns, from the rows of the tables. -/
theorem fallback_ok (hpersisted : Persisted db groupId) (hanswers : Answers db groupId responses)
    (h : canonicalGroupLeaderboardFallback responses groupId = .ok entries) :
    ∃ rows : List GroupPointEvent,
      rows.Perm (db.events.filter fun event => event.groupId = groupId) ∧ ∀ userId,
        if userRows rows userId = [] then
          entries.filter (fun entry => entry.userId = userId) = []
        else ∃ entry, entries.filter (fun entry => entry.userId = userId) = [entry] ∧
          EntryOf groupId userId (clientResults (userRows rows userId)) entry := by
  have hread : responses.persisted.values.Perm
      (db.events.filter fun event => event.groupId = groupId) := by
    refine hanswers.persisted.trans (List.Perm.of_eq (List.filter_congr fun event hevent => ?_))
    rw [decide_eq_decide, and_iff_left_iff_imp]
    intro hgroup
    obtain ⟨market, hmarket, hid, hcounts⟩ := hpersisted.counts event hevent hgroup
    rw [← hid]
    exact List.mem_map_of_mem (hanswers.markets.mem_iff.mpr
      (List.mem_filter.mpr ⟨hmarket, decide_eq_true hcounts⟩))
  have hnodup : (responses.markets.values.map MarketRow.id).Nodup :=
    ((hanswers.markets.map MarketRow.id).nodup_iff).mpr
      ((List.filter_sublist.map MarketRow.id).nodup hpersisted.marketIds)
  have hkeys : (responses.persisted.values.map GroupPointEvent.key).Nodup :=
    ((hread.map GroupPointEvent.key).nodup_iff).mpr
      ((List.filter_sublist.map GroupPointEvent.key).nodup hpersisted.keys)
  have hmarket : ∀ row ∈ responses.persisted.values,
      row.marketId ∈ responses.markets.values.map MarketRow.id := fun row hrow =>
    (of_decide_eq_true (List.mem_filter.mp (hanswers.persisted.mem_iff.mp hrow)).2).2
  unfold canonicalGroupLeaderboardFallback at h
  obtain ⟨groups, hgroups, h⟩ := bind_ok_iff.mp h
  obtain rfl := boundedQuery_ok hgroups
  cases hgroup : responses.group.values with
  | nil => exact absurd hgroup hanswers.group
  | cons group _ =>
      simp only [hgroup] at h
      split at h
      · cases h
      · simp only [bind_ok_iff] at h
        obtain ⟨selected, hselected, markets, hmarkets, scores, hscores, escrow, hescrow, events,
          hevents, h⟩ := h
        obtain rfl := boundedQuery_ok hselected
        have hmarkets := eq_map_of_mapM_ok (fun row _ row' => parseMarket_ok) hmarkets
        rw [List.map_id'] at hmarkets
        subst hmarkets
        obtain rfl := persistedScores_ok hkeys (fun hnone => by
          rw [List.eq_nil_iff_forall_not_mem]
          intro row hrow
          have := hmarket row hrow
          rw [hnone] at this
          cases this) hscores
        obtain rfl := escrowScores_ok hanswers.derive hescrow
        obtain ⟨rows, hrows, hsplit⟩ := exists_perm_split
          ((List.filter_sublist.map MarketRow.id).nodup hnodup) fun row hrow => by
            obtain ⟨market, hmem, hid⟩ := List.mem_map.mp (hmarket row hrow)
            rw [← hid]
            cases hcustody : market.custodyMode with
            | legacy =>
                exact .inl (List.mem_map_of_mem (List.mem_filter.mpr ⟨hmem, decide_eq_true hcustody⟩))
            | escrow =>
                exact .inr (List.mem_map_of_mem (List.mem_filter.mpr ⟨hmem, decide_eq_true hcustody⟩))
        rw [hsplit, uniqueScoreEvents_of_nodup] at hevents
        · obtain rfl := Except.ok.inj hevents
          exact ⟨rows, hrows.trans hread, leaderboard_ok h⟩
        · rw [List.map_map]
          exact ((hrows.map GroupPointEvent.key).nodup_iff).mpr hkeys

/-! ## the client and the view -/

/-- Both show the same about every player. -/
def Agrees (db : Database) (groupId : Int) (entries : List LeaderboardEntry) : Prop :=
  ∀ userId, match groupPlayerStatsFromEvents db.users db.events groupId userId with
    | none => entries.filter (fun entry => entry.userId = userId) = []
    | some stats => ∃ entry, entries.filter (fun entry => entry.userId = userId) = [entry] ∧
        entry.groupId = groupId ∧ entry.points = stats.points ∧ entry.wins = stats.wins ∧
        entry.losses = stats.losses ∧ entry.currentStreak = stats.currentStreak ∧
        entry.bestStreak = stats.bestStreak

theorem userRows_perm (h : rows.Perm (db.events.filter fun event => event.groupId = groupId))
    (userId : Int) :
    (userRows rows userId).Perm (playerEvents db.events groupId userId) := by
  have hfilter := h.filter fun row => row.userId = userId
  rw [List.filter_filter] at hfilter
  refine hfilter.trans (List.Perm.of_eq (List.filter_congr fun event _ => ?_))
  rw [Bool.decide_and, Bool.and_comm]

section

variable (hpersisted : Persisted db groupId)

include hpersisted

/-- A player has one event of a market. -/
theorem marketIds_nodup {userId : Int}
    (hperm : rows.Perm (playerEvents db.events groupId userId)) :
    (rows.map GroupPointEvent.marketId).Nodup := by
  refine List.Nodup.map_on ?_ (hperm.nodup_iff.mpr
    ((List.Nodup.of_map _ hpersisted.keys).filter _))
  intro row hrow row' hrow' hmarket
  obtain ⟨hmem, -, huser⟩ := mem_playerEvents.mp (hperm.mem_iff.mp hrow)
  obtain ⟨hmem', -, huser'⟩ := mem_playerEvents.mp (hperm.mem_iff.mp hrow')
  have hkey : row.key = row'.key := by
    rw [GroupPointEvent.key, GroupPointEvent.key, hmarket, huser, huser']
  exact List.inj_on_of_nodup_map hpersisted.keys hmem hmem' hkey

theorem fallback_agrees
    (hanswers : Answers db groupId responses) (horder : MillisecondsInOrder db.events groupId)
    (h : canonicalGroupLeaderboardFallback responses groupId = .ok entries) :
    Agrees db groupId entries := by
  obtain ⟨rows, hrows, hentries⟩ := fallback_ok hpersisted hanswers h
  intro userId
  have hperm := userRows_perm hrows userId
  have hview := groupPlayerStatsFromEvents_eq hpersisted.users hperm
  have hentry := hentries userId
  split at hview
  next hnone =>
    rw [if_pos hnone] at hentry
    simpa only [hview] using hentry
  next hsome =>
    obtain ⟨updatedAt, hview⟩ := hview
    rw [if_neg hsome] at hentry
    obtain ⟨entry, hfilter, hentry⟩ := hentry
    have hstreaks := streaksOf_clientResults (marketIds_nodup hpersisted hperm)
      fun row hrow row' hrow' => by
        obtain ⟨hmem, hgroup, huser⟩ := mem_playerEvents.mp (hperm.mem_iff.mp hrow)
        obtain ⟨hmem', hgroup', huser'⟩ := mem_playerEvents.mp (hperm.mem_iff.mp hrow')
        exact horder row hmem row' hmem' hgroup hgroup' (huser.trans huser'.symm)
    have hpoints := hentry.points
    have hwins := hentry.wins
    have hlosses := hentry.losses
    have hcurrent := hentry.currentStreak
    have hbest := hentry.bestStreak
    rw [hstreaks] at hpoints hwins hlosses hcurrent hbest
    simp only [hview]
    exact ⟨entry, hfilter, hentry.groupId, hpoints, hwins, hlosses, hcurrent, hbest⟩

/-- A win and a loss of one player in one millisecond, in one order by time and in the other
by market. -/
structure Inverted (groupId : Int) (event event' : GroupPointEvent) : Prop where
  group : event.groupId = groupId
  group' : event'.groupId = groupId
  user : event.userId = event'.userId
  result : event.result ≠ event'.result
  millisecond : timestamp event.settledAt = timestamp event'.settledAt
  before : event.settledAt < event'.settledAt
  market : event'.marketId < event.marketId

theorem millisecondsInOrder_iff :
    MillisecondsInOrder db.events groupId ↔
      ∀ event ∈ db.events, ∀ event' ∈ db.events, ¬ Inverted groupId event event' := by
  constructor
  · intro horder event hmem event' hmem' hinverted
    have hlt := horder event hmem event' hmem' hinverted.group hinverted.group' hinverted.user
      hinverted.result hinverted.millisecond hinverted.before
    exact lt_asymm hlt hinverted.market
  · intro hnone event hmem event' hmem' hgroup hgroup' huser hresult hms hbefore
    by_contra hmarket
    refine hnone event hmem event' hmem' ⟨hgroup, hgroup', huser, hresult, hms, hbefore,
      lt_of_le_of_ne (not_lt.mp hmarket) fun hsame => hresult ?_⟩
    have hkey : event.key = event'.key := by
      rw [GroupPointEvent.key, GroupPointEvent.key, huser, hsame]
    rw [List.inj_on_of_nodup_map hpersisted.keys hmem hmem' hkey]

/-- The database with these two events only. -/
def Database.only (db : Database) (event event' : GroupPointEvent) : Database :=
  { db with events := [event, event'] }

variable {event : GroupPointEvent}

theorem Persisted.only (hmem : event ∈ db.events)
    (hmem' : event' ∈ db.events)
    (hinverted : Inverted groupId event event') : Persisted (db.only event event') groupId := by
  have hsub : ∀ row ∈ [event, event'], row ∈ db.events := by
    simp [hmem, hmem']
  constructor
  · have hne : event.key ≠ event'.key := fun hkey =>
      ne_of_gt hinverted.market (congrArg Prod.fst hkey)
    simpa [Database.only] using hne
  · exact hpersisted.marketIds
  · exact fun row hrow => hpersisted.users row (hsub row hrow)
  · exact fun row hrow => hpersisted.counts row (hsub row hrow)
  · exact fun row hrow => hpersisted.settled row (hsub row hrow)

end

theorem clientResults_inverted (hinverted : Inverted groupId event event')
    (hperm : rows.Perm [event, event']) :
    clientResults rows = [event'.won, event.won] := by
  have hlt : (ScoreEvent.of event').position < (ScoreEvent.of event).position := by
    simp [ScoreEvent.position, ScoreEvent.of, Prod.Lex.toLex_lt_toLex, hinverted.millisecond,
      hinverted.market]
  have hnodup : (rows.map fun row => (ScoreEvent.of row).position).Nodup := by
    rw [(hperm.map _).nodup_iff]
    simpa using ne_of_gt hlt
  have hsorted := pairwise_lt_mergeSort hnodup
  have hswap := (List.mergeSort_perm rows fun row row' =>
    decide ((ScoreEvent.of row).position ≤ (ScoreEvent.of row').position)).trans
      (hperm.trans (List.Perm.swap event' event []))
  rw [clientResults_eq, hswap.eq_of_pairwise (fun row row' _ _ hbefore hafter =>
    absurd hafter (lt_asymm hbefore)) hsorted (by simpa using hlt)]
  rfl

/-- With the two events alone, the client shows another streak than the view. -/
theorem fallback_disagrees (hpersisted : Persisted db groupId) (hmem : event ∈ db.events)
    (hmem' : event' ∈ db.events) (hinverted : Inverted groupId event event')
    (hanswers : Answers (db.only event event') groupId responses)
    (h : canonicalGroupLeaderboardFallback responses groupId = .ok entries) :
    ¬ Agrees (db.only event event') groupId entries := by
  have honly := hpersisted.only hmem hmem' hinverted
  obtain ⟨rows, hrows, hentries⟩ := fallback_ok honly hanswers h
  have hperm := userRows_perm hrows event.userId
  have hplayer : playerEvents (db.only event event').events groupId event.userId =
      [event, event'] := by
    simp [playerEvents, Database.only, hinverted.group, hinverted.group', hinverted.user]
  rw [hplayer] at hperm
  have hne : userRows rows event.userId ≠ [] := by
    intro hnil
    rw [hnil, List.nil_perm] at hperm
    cases hperm
  have hentry := hentries event.userId
  rw [if_neg hne, clientResults_inverted hinverted hperm] at hentry
  obtain ⟨entry, hfilter, hentry⟩ := hentry
  have hlt : event.position < event'.position := by
    simp [GroupPointEvent.position, Prod.Lex.toLex_lt_toLex, hinverted.before]
  have hsorted : [event, event'].Pairwise fun row row' => row.position < row'.position := by
    simpa using hlt
  have hview := groupPlayerStatsFromEvents_eq honly.users (List.Perm.of_eq hplayer.symm)
  rw [if_neg (List.cons_ne_nil _ _)] at hview
  obtain ⟨updatedAt, hview⟩ := hview
  intro hagrees
  have hsame := hagrees event.userId
  simp only [hview] at hsame
  obtain ⟨entry', hfilter', -, -, -, -, hcurrent, -⟩ := hsame
  obtain rfl : entry = entry' := by
    simpa [hfilter] using hfilter'
  have hstreaks : (streaksOf [event.won, event'.won]).current =
      currentStreak GroupPointEvent.position GroupPointEvent.won [event, event'] :=
    congrArg Streaks.current (streaksOf_map_won hsorted)
  rw [hentry.currentStreak, ← hstreaks] at hcurrent
  have hwon := won_ne_iff.mpr hinverted.result
  cases hfirst : event.won <;> cases hsecond : event'.won <;>
    simp [hfirst, hsecond, streaksOf, Streaks.record] at hcurrent hwon

end

/-- The fallback shows what the view shows, unless a player's win and loss fall into one
millisecond in another order than that of their markets; the two alone make it differ. -/
theorem fallback_agrees_in_order (db : Database) (groupId : Int)
    (hpersisted : Persisted db groupId) :
    (MillisecondsInOrder db.events groupId → ∀ responses entries,
        Answers db groupId responses →
        canonicalGroupLeaderboardFallback responses groupId = .ok entries →
        Agrees db groupId entries) ∧
      (¬ MillisecondsInOrder db.events groupId → ∃ event ∈ db.events, ∃ event' ∈ db.events,
        Persisted (db.only event event') groupId ∧ ∀ responses entries,
          Answers (db.only event event') groupId responses →
          canonicalGroupLeaderboardFallback responses groupId = .ok entries →
          ¬ Agrees (db.only event event') groupId entries) := by
  refine ⟨fun horder responses entries hanswers h =>
    fallback_agrees hpersisted hanswers horder h, fun horder => ?_⟩
  rw [millisecondsInOrder_iff hpersisted] at horder
  push Not at horder
  obtain ⟨event, hmem, event', hmem', hinverted⟩ := horder
  exact ⟨event, hmem, event', hmem', hpersisted.only hmem hmem' hinverted,
    fun responses entries hanswers h => fallback_disagrees hpersisted hmem hmem' hinverted
      hanswers h⟩

/-! ## a win and a loss -/

namespace Sample

def market (id : Uuid) : MarketRow where
  id
  groupId := -5
  custodyMode := .legacy
  isReplay := false
  currency := "sol"
  status := "settled"

/-- A backer's event. -/
def event (marketId : Uuid) (result : PointResult) (settledAt : Int) : GroupPointEvent where
  groupId := -5
  marketId
  userId := 7
  side := .back
  result
  pointsDelta := if result = .won then 10 else 0
  settledAt
  delta_check := by cases result <;> simp

def settlement (event : GroupPointEvent) : SettlementRow where
  marketId := event.marketId
  outcome := some (if event.result = .won then .claimWon else .claimLost)
  tier := .chainProven
  settledAt := event.settledAt

/-- Two markets, with one event each. -/
def database (first second : GroupPointEvent) : Database where
  markets := [market first.marketId, market second.marketId]
  settlements := [settlement first, settlement second]
  events := [first, second]
  users := [7]

def responses (first second : GroupPointEvent) : Responses where
  group := ⟨1, [{ id := -5, pointsStartedAt := 0 }]⟩
  markets := ⟨2, [market first.marketId, market second.marketId]⟩
  persisted := ⟨2, [first, second]⟩
  applied := ⟨0, []⟩
  links := ⟨0, []⟩
  settlements := ⟨2, [settlement first, settlement second]⟩
  chainSettlements := ⟨0, []⟩
  users := ⟨1, [{ id := 7, displayName := "Ada", username := none }]⟩
  derive := fun _ => .ok []

theorem persisted {m m' : Uuid} (hne : m ≠ m') (result result' : PointResult) (t t' : Int) :
    Persisted (database (event m result t) (event m' result' t')) (-5) := by
  constructor
  · simp [database, event, GroupPointEvent.key, hne]
  · simp [database, event, market, hne]
  · simp [database, event]
  · simp [database, event, market, Counts]
  · simp only [database, event, settlement, Settles, List.mem_cons, List.not_mem_nil, or_false]
    rintro row (rfl | rfl) -
    · refine ⟨_, .inl rfl, rfl, rfl, ?_⟩
      cases result <;> simp
    · refine ⟨_, .inr rfl, rfl, rfl, ?_⟩
      cases result' <;> simp

theorem answers (m m' : Uuid) (result result' : PointResult) (t t' : Int) :
    Answers (database (event m result t) (event m' result' t')) (-5)
      (responses (event m result t) (event m' result' t')) := by
  constructor <;> simp [database, responses, event, market, Counts]

end Sample

/-- A win in one millisecond and a loss in the next. -/
theorem fallback_agrees_in_order_sample : ∃ entries,
    canonicalGroupLeaderboardFallback (Sample.responses (Sample.event 2 .won 1000)
      (Sample.event 1 .lost 2000)) (-5) = .ok entries ∧
    Agrees (Sample.database (Sample.event 2 .won 1000) (Sample.event 1 .lost 2000)) (-5)
      entries := by
  have hpersisted := @Sample.persisted 2 1 (by decide) .won .lost 1000 2000
  have horder : MillisecondsInOrder [Sample.event 2 .won 1000, Sample.event 1 .lost 2000]
      (-5) := by
    unfold MillisecondsInOrder
    decide
  exact ⟨_, rfl, (fallback_agrees_in_order _ _ hpersisted).1 horder _ _
    (Sample.answers _ _ _ _ _ _) rfl⟩

/-- A win and then a loss in one millisecond, the loss in the market with the smaller id: in
the view the streak is over, for the client it goes on. -/
theorem fallback_disagrees_within_millisecond : ¬ ∀ db groupId responses entries,
    Persisted db groupId → Answers db groupId responses →
    canonicalGroupLeaderboardFallback responses groupId = .ok entries →
    Agrees db groupId entries := by
  intro hagrees
  have hpersisted := @Sample.persisted 2 1 (by decide) .won .lost 1000 1001
  have hanswers := Sample.answers 2 1 .won .lost 1000 1001
  refine fallback_disagrees hpersisted List.mem_cons_self (List.mem_cons_of_mem _
    List.mem_cons_self) ?_ hanswers rfl (hagrees _ _ _ _ hpersisted hanswers rfl)
  constructor <;> decide

end CalledIt.Points
