import Mathlib.Data.List.Perm.Basic
import CalledIt.Wager.Tables

/-!
# CalledIt.Wager.Balances

Which runs of the database functions overdraw a balance.

What is written is appended to the ledger, so a call changes a balance by its own
rows (`assetBalance_append`).  Stakes stay backed by their debits and starter grants
within their budget in every run (`accounted_perform`); the balances stay above zero
as long as no two-argument withdrawal spends more SOL than there is
(`balances_sound_iff`).
-/

namespace CalledIt.Wager

open Lib
open Engine (PositionState)

/-! ## what the tables promise -/

/-- A stake: who put how much of what on which market. -/
structure Stake where
  userId : Nat
  marketId : Option String
  currency : Currency
  amount : Int
  deriving DecidableEq, Repr

def StakePosition.backing (currencyOf : String → Currency) (position : StakePosition) : Stake :=
  { userId := position.userId
    marketId := some position.marketId
    currency := currencyOf position.marketId
    amount := position.stake }

def LedgerRow.backing (row : LedgerRow) : Stake :=
  { userId := row.userId
    marketId := row.marketId
    currency := .asset row.asset
    amount := -row.lamports }

def stakeRows (tables : WagerTables) : List LedgerRow := tables.ledger.filter (·.kind = .stake)

def starterRows (tables : WagerTables) : List LedgerRow :=
  tables.ledger.filter (·.kind = .starterGrant)

def Solvent (tables : WagerTables) : Prop :=
  ∀ userId asset, 0 ≤ assetBalance tables userId asset

/-- No balance is overdrawn, positions and stake debits match one to one, and the
starter grants keep to one a user and to the budget. -/
structure Sound (currencyOf : String → Currency) (tables : WagerTables) : Prop where
  solvent : Solvent tables
  backed : (tables.positions.map (·.backing currencyOf)).Perm
    ((stakeRows tables).map (·.backing))
  granted : ∀ userId, ((starterRows tables).filter (·.userId = userId)).length ≤ 1
  counted : (starterRows tables).length ≤ tables.budget.maxGrants ∧
    tables.budget.grantedCount ≤ tables.budget.maxGrants
  capped : lamportsOf (starterRows tables) ≤ tables.budget.totalCapLamports ∧
    tables.budget.grantedLamports ≤ tables.budget.totalCapLamports

/-- Nothing has been staked, credited or granted yet. -/
structure Fresh (tables : WagerTables) : Prop where
  ledger : tables.ledger = []
  positions : tables.positions = []
  grants : tables.grants = []
  budget : tables.budget.check = true
  count : tables.budget.grantedCount = 0

/-- The two-argument withdrawal passes its checks. -/
structure Admitted (tables : WagerTables) (call : WithdrawalCall) : Prop where
  positive : 0 < call.lamports
  verified : (tables.surroundings.link call.userId).any (·.verified)
  idle : hasPendingWithdrawal tables call.userId = false
  small : combinedBalance tables call.userId < 2 ^ 63
  enough : call.lamports ≤ combinedBalance tables call.userId
  newId : ∀ request ∈ tables.withdrawals, request.id ≠ call.withdrawalId
  newKey : ∀ row ∈ tables.ledger, row.key ≠ call.ledgerKey

/-- A two-argument withdrawal that passes its checks finds its amount in SOL. -/
def Covered (tables : WagerTables) : WagerCall → Prop
  | .requestSolWithdrawal call =>
      Admitted tables call → call.lamports ≤ assetBalance tables call.userId .sol
  | _ => True

/-! ## inserts -/

variable {tables after : WagerTables} {row : LedgerRow}

theorem insertLedger_eq (h : tables.insertLedger row = some after) :
    after = { tables with ledger := tables.ledger ++ [row] } := by
  unfold WagerTables.insertLedger at h
  split_ifs at h
  exact (Option.some.inj h).symm

theorem insertPosition_eq {position : StakePosition}
    (h : tables.insertPosition position = some after) :
    after = { tables with positions := tables.positions ++ [position] } := by
  unfold WagerTables.insertPosition at h
  split_ifs at h
  exact (Option.some.inj h).symm

theorem insertWithdrawal_iff {request : WithdrawalRequest} :
    tables.insertWithdrawal request = some after ↔
      (∀ w ∈ tables.withdrawals, w.id ≠ request.id) ∧
        after = { tables with withdrawals := tables.withdrawals ++ [request] } := by
  unfold WagerTables.insertWithdrawal
  split_ifs with hany
  · simp only [false_iff, not_and]
    intro hnone
    obtain ⟨w, hw, hid⟩ := List.any_eq_true.mp hany
    exact absurd (of_decide_eq_true hid) (hnone w hw)
  · simp only [Option.some.injEq, eq_comm (a := after), iff_and_self]
    intro _ w hw hid
    exact hany (List.any_eq_true.mpr ⟨w, hw, decide_eq_true hid⟩)

/-- An entry without a market needs a new key. -/
theorem insertLedger_iff (hmarket : row.marketId = none) :
    tables.insertLedger row = some after ↔
      (∀ r ∈ tables.ledger, r.key ≠ row.key) ∧
        after = { tables with ledger := tables.ledger ++ [row] } := by
  unfold WagerTables.insertLedger
  simp only [hmarket, Option.bind_none, Option.any_none, Bool.false_eq_true, if_false]
  split_ifs with hany
  · simp only [false_iff, not_and]
    intro hnone
    obtain ⟨r, hr, hkey⟩ := List.any_eq_true.mp hany
    exact absurd (of_decide_eq_true hkey) (hnone r hr)
  · simp only [Option.some.injEq, eq_comm (a := after), iff_and_self]
    intro _ r hr hkey
    exact hany (List.any_eq_true.mpr ⟨r, hr, decide_eq_true hkey⟩)

theorem insertGrant_eq {grant : StarterGrant} (h : tables.insertGrant grant = some after) :
    grant.lamports = 10000000 ∧ (∀ g ∈ tables.grants, g.userId ≠ grant.userId) ∧
      after = { tables with grants := tables.grants ++ [grant] } := by
  unfold WagerTables.insertGrant at h
  split_ifs at h with hcheck
  obtain ⟨hlamports, hnone⟩ := not_or.mp hcheck
  refine ⟨not_not.mp hlamports, fun g hg huser => hnone ?_, (Option.some.inj h).symm⟩
  exact List.any_eq_true.mpr ⟨g, hg, by simp [huser]⟩

theorem updateBudget_eq {budget : StarterBudget} (h : tables.updateBudget budget = some after) :
    budget.check = true ∧ after = { tables with budget } := by
  unfold WagerTables.updateBudget at h
  split_ifs at h with hcheck
  exact ⟨hcheck, (Option.some.inj h).symm⟩

theorem bigint_iff {value result : Int} :
    bigint value = some result ↔ (-(2 ^ 63) ≤ value ∧ value < 2 ^ 63) ∧ result = value := by
  unfold bigint
  split_ifs with h
  · rw [Option.some.injEq]
    exact ⟨fun heq => ⟨h, heq.symm⟩, fun heq => heq.2.symm⟩
  · simp only [false_iff, not_and]
    exact fun hfits => absurd hfits h

/-! ## what a call writes -/

/-- The tables after a funded stake. -/
def WagerTables.staked (tables : WagerTables) (call : StakeCall) (rows : List LedgerRow) :
    WagerTables :=
  { tables with
    positions := tables.positions ++ [call.position]
    ledger := tables.ledger ++ rows }

/-- The tables after a stake with a starter grant. -/
def WagerTables.started (tables : WagerTables) (call : StakeCall) : WagerTables :=
  { tables.staked call [call.starterCredit tables.budget, call.debit .sol] with
    grants := tables.grants ++ [call.grant tables.budget]
    budget := tables.budget.recordGrant }

/-- The tables after a withdrawal. -/
def WagerTables.withdrawn (tables : WagerTables) (call : WithdrawalCall) (asset : WagerAsset)
    (destPubkey : String) : WagerTables :=
  { tables with
    withdrawals := tables.withdrawals ++ [call.request asset destPubkey]
    ledger := tables.ledger ++ [call.debit asset] }

variable {call : StakeCall} {asset : WagerAsset} {outcome : WagerOutcome}

theorem fundedStake_cases (h : fundedStake tables call asset = some (after, outcome)) :
    after = tables ∨ (call.lamports ≤ assetBalance tables call.userId asset ∧
      after = tables.staked call [call.debit asset]) := by
  unfold fundedStake at h
  split_ifs at h
  · simp_all
  · obtain ⟨balance, hbalance, h⟩ := Option.bind_eq_some_iff.mp h
    split_ifs at h with henough
    · simp_all
    · obtain ⟨first, hfirst, h⟩ := Option.bind_eq_some_iff.mp h
      obtain ⟨second, hsecond, h⟩ := Option.bind_eq_some_iff.mp h
      obtain ⟨-, rfl⟩ := bigint_iff.mp hbalance
      obtain rfl := insertPosition_eq hfirst
      obtain rfl := insertLedger_eq hsecond
      refine .inr ⟨by omega, ?_⟩
      cases h
      rfl

theorem starterStake_cases (h : starterStake tables call asset = some (after, outcome)) :
    after = tables ∨ (asset = .sol ∧ call.lamports = starterGrantLamports ∧
      (call.grant tables.budget).lamports = 10000000 ∧
      (∀ g ∈ tables.grants, g.userId ≠ call.userId) ∧
      tables.budget.recordGrant.check = true ∧ after = tables.started call) := by
  unfold starterStake at h
  simp only at h
  split_ifs at h with hfirst
  · simp_all
  · simp_all
  · simp_all
  · obtain ⟨placed, hplaced, h⟩ := Option.bind_eq_some_iff.mp h
    obtain ⟨credited, hcredited, h⟩ := Option.bind_eq_some_iff.mp h
    obtain ⟨debited, hdebited, h⟩ := Option.bind_eq_some_iff.mp h
    obtain ⟨granted, hgranted, h⟩ := Option.bind_eq_some_iff.mp h
    obtain ⟨recorded, hrecorded, h⟩ := Option.bind_eq_some_iff.mp h
    obtain rfl := insertPosition_eq hplaced
    obtain rfl := insertLedger_eq hcredited
    obtain rfl := insertLedger_eq hdebited
    obtain ⟨hlamports, hfirstGrant, rfl⟩ := insertGrant_eq hgranted
    obtain ⟨hcheck, rfl⟩ := updateBudget_eq hrecorded
    obtain ⟨hsol, hamount, -⟩ := by simpa only [not_or, not_not] using hfirst
    refine .inr ⟨hsol, hamount, hlamports, hfirstGrant, hcheck, ?_⟩
    cases h
    simp [WagerTables.started, WagerTables.staked]

variable {currencyOf : String → Currency}

theorem currencyOf_of_stakeAsset (h : stakeAsset currencyOf tables call = some (.ok asset)) :
    currencyOf call.marketId = .asset asset := by
  unfold stakeAsset at h
  cases hmarket : tables.surroundings.market call.marketId with
  | none => simp [hmarket] at h
  | some market =>
      cases hcurrency : currencyOf call.marketId with
      | rep => simp [hmarket, hcurrency] at h
      | asset other =>
          simp only [hmarket, hcurrency] at h
          split_ifs at h
          · simp at h
          · simp at h
          · simp at h
          · simp at h
          · obtain ⟨paused, -, h⟩ := Option.map_eq_some_iff.mp h
            cases paused <;> simp_all

/-- A stake is refused, or paid from the balance, or paid by a grant. -/
theorem wagerStake_cases (h : wagerStake currencyOf tables call = some (after, outcome)) :
    after = tables ∨
      (∃ asset, currencyOf call.marketId = .asset asset ∧ 0 < call.lamports ∧
        call.lamports ≤ assetBalance tables call.userId asset ∧
        after = tables.staked call [call.debit asset]) ∨
      (currencyOf call.marketId = .asset .sol ∧ call.lamports = starterGrantLamports ∧
        (call.grant tables.budget).lamports = 10000000 ∧
        (∀ g ∈ tables.grants, g.userId ≠ call.userId) ∧
        tables.budget.recordGrant.check = true ∧ after = tables.started call) := by
  unfold wagerStake at h
  cases hasset : stakeAsset currencyOf tables call with
  | none =>
      simp only [hasset] at h
      split_ifs at h <;> simp_all
  | some answer =>
      cases answer with
      | error code =>
          simp only [hasset] at h
          split_ifs at h <;> simp_all
      | ok asset =>
          have hcurrency := currencyOf_of_stakeAsset hasset
          simp only [hasset] at h
          split_ifs at h with hpositive
          · simp_all
          · simp_all
          · rcases starterStake_cases h with rfl | ⟨rfl, hrest⟩
            · exact .inl rfl
            · exact .inr (.inr ⟨hcurrency, hrest⟩)
          · rcases fundedStake_cases h with rfl | ⟨henough, rfl⟩
            · exact .inl rfl
            · exact .inr (.inl ⟨asset, hcurrency, by omega, henough, rfl⟩)

theorem writeWithdrawal_iff {call : WithdrawalCall} {destPubkey : String} :
    writeWithdrawal tables call asset destPubkey = some (after, outcome) ↔
      (∀ w ∈ tables.withdrawals, w.id ≠ call.withdrawalId) ∧
        (∀ r ∈ tables.ledger, r.key ≠ call.ledgerKey) ∧
        after = tables.withdrawn call asset destPubkey ∧
        outcome = .requested call.withdrawalId := by
  unfold writeWithdrawal
  constructor
  · intro h
    obtain ⟨first, hfirst, h⟩ := Option.bind_eq_some_iff.mp h
    obtain ⟨second, hsecond, h⟩ := Option.bind_eq_some_iff.mp h
    obtain ⟨hid, rfl⟩ := insertWithdrawal_iff.mp hfirst
    obtain ⟨hkey, rfl⟩ := (insertLedger_iff rfl).mp hsecond
    cases h
    exact ⟨hid, hkey, rfl, rfl⟩
  · rintro ⟨hid, hkey, rfl, rfl⟩
    have hfirst : tables.insertWithdrawal (call.request asset destPubkey) =
        some { tables with withdrawals := tables.withdrawals ++ [call.request asset destPubkey] } :=
      insertWithdrawal_iff.mpr ⟨hid, rfl⟩
    have hsecond : WagerTables.insertLedger
        { tables with withdrawals := tables.withdrawals ++ [call.request asset destPubkey] }
        (call.debit asset) = some (tables.withdrawn call asset destPubkey) :=
      (insertLedger_iff rfl).mpr ⟨hkey, rfl⟩
    simp only [hfirst, hsecond, Option.bind_eq_bind, Option.bind_some]

theorem requestWithdrawal_cases {call : WithdrawalCall}
    (h : requestWithdrawal tables call asset = some (after, outcome)) :
    after = tables ∨ (call.lamports ≤ assetBalance tables call.userId asset ∧
      ∃ destPubkey, after = tables.withdrawn call asset destPubkey) := by
  unfold requestWithdrawal at h
  split_ifs at h
  · simp_all
  · cases hlink : tables.surroundings.link call.userId with
    | none => simp_all
    | some link =>
        simp only [hlink] at h
        obtain ⟨balance, hbalance, h⟩ := Option.bind_eq_some_iff.mp h
        split_ifs at h with henough
        · simp_all
        · obtain ⟨-, rfl⟩ := bigint_iff.mp hbalance
          exact .inr ⟨by omega, link.pubkey, (writeWithdrawal_iff.mp h).2.2.1⟩

/-- The two-argument withdrawal writes exactly where it is admitted. -/
theorem requestSolWithdrawal_cases {call : WithdrawalCall}
    (h : requestSolWithdrawal tables call = some (after, outcome)) :
    after = tables ∨
      (Admitted tables call ∧ ∃ destPubkey, after = tables.withdrawn call .sol destPubkey) := by
  unfold requestSolWithdrawal at h
  cases hlink : tables.surroundings.link call.userId with
  | none =>
      simp only [hlink] at h
      split_ifs at h
      simp_all
  | some link =>
      simp only [hlink] at h
      split_ifs at h with hpositive hverified hpending
      · simp_all
      · simp_all
      · obtain ⟨balance, hbalance, h⟩ := Option.bind_eq_some_iff.mp h
        split_ifs at h with henough
        · simp_all
        · obtain ⟨hid, hkey, hafter, -⟩ := writeWithdrawal_iff.mp h
          obtain ⟨hsmall, rfl⟩ := bigint_iff.mp hbalance
          refine .inr ⟨?_, link.pubkey, hafter⟩
          exact
            { positive := by omega
              verified := by simpa [hlink] using hverified
              idle := by simpa using hpending
              small := hsmall.2
              enough := by omega
              newId := hid
              newKey := hkey }

theorem requestSolWithdrawal_of_admitted {call : WithdrawalCall} (h : Admitted tables call) :
    ∃ destPubkey, requestSolWithdrawal tables call =
      some (tables.withdrawn call .sol destPubkey, .requested call.withdrawalId) := by
  obtain ⟨link, hlink, hverified⟩ := (Option.any_eq_true _ _).mp h.verified
  have hpositive := h.positive
  have henough := h.enough
  have hbalance : bigint (combinedBalance tables call.userId) =
      some (combinedBalance tables call.userId) :=
    bigint_iff.mpr ⟨⟨by omega, h.small⟩, rfl⟩
  have hwrite : writeWithdrawal tables call .sol link.pubkey =
      some (tables.withdrawn call .sol link.pubkey, .requested call.withdrawalId) :=
    writeWithdrawal_iff.mpr ⟨h.newId, h.newKey, rfl, rfl⟩
  refine ⟨link.pubkey, ?_⟩
  simp only [requestSolWithdrawal, hlink, hverified, h.idle, hbalance]
  rw [if_neg (by omega)]
  simp only [Bool.not_true, Bool.false_eq_true, if_false, Option.bind_eq_bind, Option.bind_some]
  rw [if_neg (by omega), hwrite]

theorem postWagerLedger_cases {credit : Credit}
    (h : postWagerLedger tables credit = some (after, outcome)) :
    after = tables ∨ after = { tables with ledger := tables.ledger ++ [credit.row] } := by
  unfold postWagerLedger at h
  split_ifs at h <;> simp_all

/-- What holds after a call, if it holds before and after what the call writes. -/
theorem commit_of {P : WagerTables → Prop} {result : Option (WagerTables × WagerOutcome)}
    (hsame : P tables) (hwrite : ∀ after outcome, result = some (after, outcome) → P after) :
    P (commit tables result).1 := by
  cases result with
  | none => exact hsame
  | some answer => exact hwrite answer.1 answer.2 rfl

/-! ## balances -/

/-- What the rows change in a balance. -/
def change (rows : List LedgerRow) (userId : Nat) (asset : WagerAsset) : Int :=
  lamportsOf (rows.filter fun r => r.userId = userId ∧ r.asset = asset)

theorem assetBalance_append {rows : List LedgerRow} (h : after.ledger = tables.ledger ++ rows)
    (userId : Nat) (asset : WagerAsset) :
    assetBalance after userId asset =
      assetBalance tables userId asset + change rows userId asset := by
  simp [assetBalance, change, lamportsOf, h]

theorem change_singleton (row : LedgerRow) (userId : Nat) (asset : WagerAsset) :
    change [row] userId asset =
      if row.userId = userId ∧ row.asset = asset then row.lamports else 0 := by
  by_cases h : row.userId = userId ∧ row.asset = asset <;> simp [change, lamportsOf, h]

/-- A row that its owner's balance covers. -/
theorem solvent_append (h : Solvent tables) (hledger : after.ledger = tables.ledger ++ [row])
    (hcovers : 0 ≤ assetBalance tables row.userId row.asset + row.lamports) : Solvent after := by
  intro userId asset
  have hbefore := h userId asset
  rw [assetBalance_append hledger, change_singleton]
  split_ifs with howner
  · obtain ⟨rfl, rfl⟩ := howner
    exact hcovers
  · omega

theorem solvent_of_ledger (h : Solvent tables)
    (hledger : after.ledger = tables.ledger) : Solvent after := by
  intro userId asset
  rw [assetBalance, hledger]
  exact h userId asset

theorem check_iff {budget : StarterBudget} : budget.check = true ↔
    budget.grantLamports = 10000000 ∧ budget.totalCapLamports = 5000000000 ∧
      budget.maxGrants = 500 ∧ budget.grantedCount ≤ budget.maxGrants ∧
      budget.grantedLamports ≤ budget.totalCapLamports ∧
      budget.grantedLamports = budget.grantedCount * budget.grantLamports := by
  simp [StarterBudget.check]

/-- The grant pays for the stake. -/
theorem solvent_started (h : Solvent tables) (hamount : call.lamports = starterGrantLamports)
    (hbudget : tables.budget.recordGrant.check = true) : Solvent (tables.started call) := by
  have hgrant := (check_iff.mp hbudget).1
  simp only [StarterBudget.recordGrant] at hgrant
  have hcredited : Solvent (tables.staked call [call.starterCredit tables.budget]) := by
    refine solvent_append h rfl ?_
    have hbefore := h call.userId .sol
    simp only [StakeCall.starterCredit]
    omega
  have hledger : (tables.started call).ledger =
      (tables.staked call [call.starterCredit tables.budget]).ledger ++ [call.debit .sol] := by
    simp [WagerTables.started, WagerTables.staked]
  refine solvent_append hcredited hledger ?_
  have hbefore := h call.userId .sol
  rw [assetBalance_append rfl, change_singleton]
  simp only [StakeCall.debit, StakeCall.starterCredit, and_self, if_true, hamount, hgrant,
    starterGrantLamports]
  omega

theorem solvent_perform {call : WagerCall} (h : Solvent tables) (hcovered : Covered tables call) :
    Solvent (perform currencyOf tables call).1 := by
  cases call with
  | stake call =>
      refine commit_of h fun after outcome hwrite => ?_
      rcases wagerStake_cases hwrite with rfl | ⟨asset, -, -, henough, rfl⟩ |
        ⟨-, hamount, -, -, hbudget, rfl⟩
      · exact h
      · refine solvent_append h rfl ?_
        simp only [StakeCall.debit]
        omega
      · exact solvent_started h hamount hbudget
  | requestWithdrawal call asset =>
      refine commit_of h fun after outcome hwrite => ?_
      rcases requestWithdrawal_cases hwrite with rfl | ⟨henough, destPubkey, rfl⟩
      · exact h
      · refine solvent_append h rfl ?_
        simp only [WithdrawalCall.debit]
        omega
  | requestSolWithdrawal call =>
      refine commit_of h fun after outcome hwrite => ?_
      rcases requestSolWithdrawal_cases hwrite with rfl | ⟨hadmitted, destPubkey, rfl⟩
      · exact h
      · refine solvent_append h rfl ?_
        have henough := hcovered hadmitted
        simp only [WithdrawalCall.debit]
        omega
  | credit credit =>
      refine commit_of h fun after outcome hwrite => ?_
      rcases postWagerLedger_cases hwrite with rfl | rfl
      · exact h
      · refine solvent_append h rfl ?_
        have hbefore := h credit.row.userId credit.row.asset
        have hcredit := credit.lamports_nonneg
        omega
  | setPositionState id state => exact solvent_of_ledger h rfl
  | setWithdrawalState id state => exact solvent_of_ledger h rfl
  | enableStarter enabled => exact solvent_of_ledger h rfl
  | elsewhere surroundings => exact solvent_of_ledger h rfl

/-- A call that is not covered overdraws the balance. -/
theorem covered_of_solvent {call : WagerCall}
    (hafter : Solvent (perform currencyOf tables call).1) :
    Covered tables call := by
  cases call with
  | requestSolWithdrawal call =>
      intro hadmitted
      obtain ⟨destPubkey, hwrite⟩ := requestSolWithdrawal_of_admitted hadmitted
      have hbalance := hafter call.userId .sol
      rw [perform, hwrite, commit, assetBalance_append rfl, change_singleton] at hbalance
      simp only [WithdrawalCall.debit, and_self, if_true] at hbalance
      omega
  | _ => trivial

/-! ## stakes and grants -/

/-- Positions and stake debits, and grants and their credits, are written together. -/
structure Accounted (currencyOf : String → Currency) (tables : WagerTables) : Prop where
  backed : tables.positions.map (·.backing currencyOf) = (stakeRows tables).map (·.backing)
  granted : (starterRows tables).map (·.userId) = tables.grants.map (·.userId)
  once : (tables.grants.map (·.userId)).Nodup
  amounts : ∀ row ∈ starterRows tables, row.lamports = 10000000
  budget : tables.budget.check = true
  count : tables.budget.grantedCount = tables.grants.length

theorem accounted_of_fresh (h : Fresh tables) : Accounted currencyOf tables where
  backed := by simp [stakeRows, h.ledger, h.positions]
  granted := by simp [starterRows, h.ledger, h.grants]
  once := by simp [h.grants]
  amounts := by simp [starterRows, h.ledger]
  budget := h.budget
  count := by simp [h.count, h.grants]

/-- A row of another kind touches neither stakes nor grants. -/
theorem accounted_append (h : Accounted currencyOf tables) (hstake : row.kind ≠ .stake)
    (hstarter : row.kind ≠ .starterGrant) (withdrawals : List WithdrawalRequest) :
    Accounted currencyOf
      { tables with withdrawals, ledger := tables.ledger ++ [row] } where
  backed := by simpa [stakeRows, hstake] using h.backed
  granted := by simpa [starterRows, hstarter] using h.granted
  once := h.once
  amounts := by simpa [starterRows, hstarter] using h.amounts
  budget := h.budget
  count := h.count

theorem backing_position (hcurrency : currencyOf call.marketId = .asset asset)
    (hpositive : 0 < call.lamports) :
    call.position.backing currencyOf = (call.debit asset).backing := by
  simp [StakePosition.backing, LedgerRow.backing, StakeCall.position, StakeCall.debit, hcurrency]
  omega

theorem accounted_staked (h : Accounted currencyOf tables)
    (hcurrency : currencyOf call.marketId = .asset asset) (hpositive : 0 < call.lamports) :
    Accounted currencyOf (tables.staked call [call.debit asset]) where
  backed := by
    have hbacking := backing_position hcurrency hpositive
    have hbacked := h.backed
    simp only [stakeRows] at hbacked
    simp [WagerTables.staked, stakeRows, hbacked, hbacking, StakeCall.debit]
  granted := by simpa [WagerTables.staked, starterRows, StakeCall.debit] using h.granted
  once := h.once
  amounts := by simpa [WagerTables.staked, starterRows, StakeCall.debit] using h.amounts
  budget := h.budget
  count := h.count

theorem accounted_started (h : Accounted currencyOf tables)
    (hcurrency : currencyOf call.marketId = .asset .sol)
    (hamount : call.lamports = starterGrantLamports)
    (hfirst : ∀ g ∈ tables.grants, g.userId ≠ call.userId)
    (hbudget : tables.budget.recordGrant.check = true) :
    Accounted currencyOf (tables.started call) where
  backed := by
    have hpositive : 0 < call.lamports := by simp [hamount, starterGrantLamports]
    have hbacking := backing_position hcurrency hpositive
    have hbacked := h.backed
    simp only [stakeRows] at hbacked
    simp [WagerTables.started, WagerTables.staked, stakeRows, hbacked, hbacking,
      StakeCall.starterCredit, StakeCall.debit]
  granted := by
    have hgranted := h.granted
    simp only [starterRows] at hgranted
    simp [WagerTables.started, WagerTables.staked, starterRows, hgranted,
      StakeCall.starterCredit, StakeCall.debit, StakeCall.grant]
  once := by
    have honce := h.once
    simp [WagerTables.started, StakeCall.grant, List.nodup_append, honce]
    grind
  amounts := by
    have hgrant := (check_iff.mp hbudget).1
    simp only [StarterBudget.recordGrant] at hgrant
    have hamounts := h.amounts
    simp only [starterRows] at hamounts
    simp [WagerTables.started, WagerTables.staked, starterRows, StakeCall.starterCredit,
      StakeCall.debit, hgrant]
    grind
  budget := hbudget
  count := by simp [WagerTables.started, StarterBudget.recordGrant, h.count]

theorem accounted_perform (call : WagerCall) (h : Accounted currencyOf tables) :
    Accounted currencyOf (perform currencyOf tables call).1 := by
  cases call with
  | stake call =>
      refine commit_of h fun after outcome hwrite => ?_
      rcases wagerStake_cases hwrite with rfl | ⟨asset, hcurrency, hpositive, -, rfl⟩ |
        ⟨hcurrency, hamount, -, hfirst, hbudget, rfl⟩
      · exact h
      · exact accounted_staked h hcurrency hpositive
      · exact accounted_started h hcurrency hamount hfirst hbudget
  | requestWithdrawal call asset =>
      refine commit_of h fun after outcome hwrite => ?_
      rcases requestWithdrawal_cases hwrite with rfl | ⟨-, destPubkey, rfl⟩
      · exact h
      · exact accounted_append h (by simp [WithdrawalCall.debit]) (by simp [WithdrawalCall.debit]) _
  | requestSolWithdrawal call =>
      refine commit_of h fun after outcome hwrite => ?_
      rcases requestSolWithdrawal_cases hwrite with rfl | ⟨-, destPubkey, rfl⟩
      · exact h
      · exact accounted_append h (by simp [WithdrawalCall.debit]) (by simp [WithdrawalCall.debit]) _
  | credit credit =>
      refine commit_of h fun after outcome hwrite => ?_
      rcases postWagerLedger_cases hwrite with rfl | rfl
      · exact h
      · have hkind := credit.kind_mem
        refine accounted_append h ?_ ?_ tables.withdrawals
        · rintro hstake
          simp [hstake] at hkind
        · rintro hstarter
          simp [hstarter] at hkind
  | setPositionState id state =>
      have hsame : (tables.positions.map fun p => if p.id = id then { p with state } else p).map
          (·.backing currencyOf) = tables.positions.map (·.backing currencyOf) := by
        rw [List.map_map]
        refine List.map_congr_left fun p _ => ?_
        by_cases hid : p.id = id <;> simp [hid, StakePosition.backing]
      exact { h with backed := hsame.trans h.backed }
  | setWithdrawalState id state => exact { h with }
  | enableStarter enabled =>
      have hbudget := h.budget
      exact { h with budget := hbudget }
  | elsewhere surroundings => exact { h with }

/-! ## runs -/

theorem sound_of_accounted (h : Accounted currencyOf tables)
    (hsolvent : Solvent tables) : Sound currencyOf tables := by
  obtain ⟨hgrant, hcap, hmax, hcount, hlamports, hproduct⟩ := check_iff.mp h.budget
  have hlength : (starterRows tables).length = tables.budget.grantedCount := by
    rw [h.count, ← List.length_map (·.userId), h.granted, List.length_map]
  have hsum : lamportsOf (starterRows tables) = tables.budget.grantedLamports := by
    have hconst : (starterRows tables).map (·.lamports) =
        List.replicate (starterRows tables).length 10000000 :=
      List.map_eq_replicate_iff.mpr h.amounts
    rw [lamportsOf, hconst, List.sum_replicate, hlength, hproduct, hgrant]
    simp
  exact
    { solvent := hsolvent
      backed := .of_eq h.backed
      granted := fun userId => by
        have honce := List.nodup_iff_count_le_one.mp (h.granted ▸ h.once) userId
        rwa [List.count_eq_countP, List.countP_map, List.countP_eq_length_filter] at honce
      counted := ⟨by omega, hcount⟩
      capped := ⟨by omega, hlamports⟩ }

theorem solvent_of_fresh (h : Fresh tables) : Solvent tables := by
  intro userId asset
  simp [assetBalance, lamportsOf, h.ledger]

/-- Every state of a run is sound exactly when each two-argument withdrawal that
passes its checks finds its amount in SOL. -/
theorem balances_sound_iff (currencyOf : String → Currency) {start : WagerTables}
    (hfresh : Fresh start) (calls : List WagerCall) :
    (∀ done rest, calls = done ++ rest →
      Sound currencyOf (execute (perform currencyOf) start done).1) ↔
      Along (perform currencyOf) Covered start calls := by
  constructor
  · intro h
    refine along_iff.mpr fun done call rest heq => ?_
    have hafter := h (done ++ [call]) rest (by simp [heq])
    rw [execute_concat] at hafter
    exact covered_of_solvent hafter.solvent
  · rintro h done rest rfl
    have hstep : ∀ tables call, (Accounted currencyOf tables ∧ Solvent tables) →
        Covered tables call → (Accounted currencyOf (perform currencyOf tables call).1 ∧
          Solvent (perform currencyOf tables call).1) ∧
          ∀ outcome ∈ (perform currencyOf tables call).2, True :=
      fun tables call hI hcovered =>
        ⟨⟨accounted_perform call hI.1, solvent_perform hI.2 hcovered⟩, fun _ _ => trivial⟩
    have hrun := execute_safe hstep ⟨accounted_of_fresh hfresh, solvent_of_fresh hfresh⟩
      (along_append h)
    exact sound_of_accounted hrun.1.1 hrun.1.2

/-! ## a deposit in the other asset -/

namespace Sample

/-- One user with a verified wallet, and nothing else. -/
def opened : WagerTables where
  ledger := []
  positions := []
  withdrawals := []
  grants := []
  budget := ⟨true, 10000000, 5000000000, 500, 0, 0⟩
  surroundings :=
    { link := fun userId => if userId = 7 then some ⟨"wallet", true⟩ else none
      market := fun _ => none
      groupEnabled := fun _ => none
      paused := fun _ => some false }

def deposit (asset : WagerAsset) : Credit where
  row := ⟨⟨7, asset, 5000000, .other "wager:deposit:signature:0"⟩, .deposit, none⟩
  kind_mem := List.mem_cons_self
  lamports_nonneg := by simp

def withdrawal : WithdrawalCall := ⟨7, 5000000, "first"⟩

/-- A deposit that is withdrawn in SOL. -/
def withdrawingSol (asset : WagerAsset) : List WagerCall :=
  [.credit (deposit asset), .requestSolWithdrawal withdrawal]

theorem fresh_opened : Fresh opened := ⟨rfl, rfl, rfl, rfl, rfl⟩

end Sample

theorem sol_deposit_withdrawn :
    Sound (fun _ => .rep)
      (execute (perform fun _ => .rep) Sample.opened (Sample.withdrawingSol .sol)).1 :=
  (balances_sound_iff (fun _ => .rep) Sample.fresh_opened (Sample.withdrawingSol .sol)).mpr
    ⟨trivial, fun _ => by decide, trivial⟩ _ [] (List.append_nil _).symm

/-- A deposit in USDC pays for a withdrawal in SOL; the other overload refuses it. -/
theorem usdc_overdraws_sol :
    assetBalance (execute (perform fun _ => .rep) Sample.opened
        (Sample.withdrawingSol .usdc)).1 7 .sol = -5000000 ∧
      (execute (perform fun _ => .rep) Sample.opened
        [.credit (Sample.deposit .usdc), .requestWithdrawal Sample.withdrawal .sol]).2 =
          [.posted true, .refused .insufficient] ∧
      ¬ ∀ (currencyOf : String → Currency) (start : WagerTables) (calls : List WagerCall),
        Fresh start → Sound currencyOf (execute (perform currencyOf) start calls).1 := by
  refine ⟨by decide, by decide, fun h => ?_⟩
  have hsolvent := (h (fun _ => .rep) _ (Sample.withdrawingSol .usdc) Sample.fresh_opened).solvent
  exact absurd (hsolvent 7 .sol) (by decide)

end CalledIt.Wager
