import CalledIt.Lib.Checked
import CalledIt.Lib.Run
import Mathlib.Data.Finset.Sort

/-!
# CalledIt.Settlement.ProofJobs

The queue behind a settlement: the table `settlement_proof_jobs` and the functions on it
(`0007_settlement_proof_jobs.sql`, with the currencies of `0022_usdc_assets.sql`).

A row lock makes the calls on one row take turns, so the queue is seen from one market: its
two jobs, and the settlement, the wager marker and the proof that the functions ask for.  A
lease takes the rows that are ready, as many as its limit allows, each on its own.  Every
write is checked by the table and by its trigger.  A timestamp is a number of microseconds;
an argument that the functions test for null is optional, the others the client never leaves
out.
-/

namespace CalledIt.Settlement

open Lib

inductive JobKind
  | settlement
  | proof
  deriving DecidableEq, Repr

inductive JobStatus
  | pending
  | leased
  | retryWait
  | complete
  | dead
  deriving DecidableEq, Repr

/-- A row of `settlement_proof_jobs`, of one market. -/
structure SettlementProofJob where
  jobKind : JobKind
  status : JobStatus
  attempts : Int
  maxAttempts : Int
  leaseMs : Int
  retryBaseMs : Int
  retryMaxMs : Int
  dueAt : Int
  leaseOwner : Option String
  leaseToken : Option String
  leasedAt : Option Int
  leaseExpiresAt : Option Int
  lastErrorCode : Option String
  createdAt : Int
  updatedAt : Int
  completedAt : Option Int
  deadAt : Option Int
  deriving DecidableEq, Repr

inductive MarketStatus
  | pendingLineup
  | open
  | frozen
  | settling
  | settled
  | voided
  deriving DecidableEq, Repr

def MarketStatus.terminal : MarketStatus → Bool
  | .settled | .voided => true
  | _ => false

inductive Outcome
  | claimWon
  | claimLost
  | void
  deriving DecidableEq, Repr

inductive Tier
  | chainProven
  | oracleResolved
  deriving DecidableEq, Repr

inductive ProofStatus
  | pending
  | verified
  | failed
  | unavailable
  deriving DecidableEq, Repr

def ProofStatus.terminal : ProofStatus → Bool
  | .pending => false
  | _ => true

/-- What is read of a row of `markets`; the tier is the `trustTier` of its spec. -/
structure MarketRow where
  currency : String
  status : MarketStatus
  trustTier : Option Tier
  deriving DecidableEq, Repr

structure SettlementRow where
  outcome : Outcome
  decidingSeq : Option Int
  evidenceSeqs : List Int
  tier : Tier
  postedAt : Option Int
  settledAt : Int
  deriving DecidableEq, Repr

/-- The rows of one market: itself, its settlement, its marker in `wager_settlements_applied`,
its proof of kind `stat`, and its jobs. -/
structure MarketState where
  market : Option MarketRow
  settlement : Option SettlementRow
  wagerApplied : Bool
  statProof : Option ProofStatus
  jobs : JobKind → Option SettlementProofJob

/-- What the database raises. -/
inductive QueueError
  | checkViolation
  | jobTerminalImmutable
  deriving DecidableEq, Repr

/-! ## the table -/

/-- `btrim(value) <> ''` -/
def notBlank (value : String) : Bool := value.toList.any (· ≠ ' ')

def isWorker (worker : String) : Bool := worker.toList.length ≤ 128 ∧ notBlank worker

/-- `^[a-z][a-z0-9_]{0,63}$` -/
def isErrorCode (value : String) : Bool :=
  match value.toList with
  | [] => false
  | first :: rest =>
      first.isLower ∧ rest.length ≤ 63 ∧ rest.all fun c => c.isLower || c.isDigit || c = '_'

namespace SettlementProofJob

/-- The columns of a lease, all of them set. -/
def LeaseRecorded (job : SettlementProofJob) : Prop :=
  job.leaseOwner.isSome ∧ job.leaseToken.isSome ∧ job.leasedAt.isSome ∧
    job.leaseExpiresAt.isSome ∧
    ∀ leasedAt ∈ job.leasedAt, ∀ expiresAt ∈ job.leaseExpiresAt, leasedAt < expiresAt

/-- The check over the status and the columns it goes with. -/
def StatusChecks (job : SettlementProofJob) : Prop :=
  (job.status = .pending ∧ job.attempts = 0 ∧ job.leaseOwner = none ∧ job.leaseToken = none ∧
      job.leasedAt = none ∧ job.leaseExpiresAt = none ∧ job.lastErrorCode = none ∧
      job.completedAt = none ∧ job.deadAt = none) ∨
    (job.status = .leased ∧ 1 ≤ job.attempts ∧ job.LeaseRecorded ∧
      job.completedAt = none ∧ job.deadAt = none) ∨
    (job.status = .retryWait ∧ 1 ≤ job.attempts ∧ job.LeaseRecorded ∧
      job.lastErrorCode.isSome ∧ job.completedAt = none ∧ job.deadAt = none) ∨
    (job.status = .complete ∧ 1 ≤ job.attempts ∧ job.LeaseRecorded ∧
      job.lastErrorCode = none ∧ job.completedAt.isSome ∧ job.deadAt = none) ∨
    (job.status = .dead ∧ 1 ≤ job.attempts ∧ job.LeaseRecorded ∧
      job.lastErrorCode.isSome ∧ job.completedAt = none ∧ job.deadAt.isSome)

/-- All checks of the table. -/
structure Checks (job : SettlementProofJob) : Prop where
  attempts : 0 ≤ job.attempts ∧ job.attempts ≤ 100
  maxAttempts : 1 ≤ job.maxAttempts ∧ job.maxAttempts ≤ 100 ∧ job.attempts ≤ job.maxAttempts
  leaseMs : 1000 ≤ job.leaseMs ∧ job.leaseMs ≤ 900000
  retryBaseMs : 0 < job.retryBaseMs
  retryMaxMs : job.retryBaseMs ≤ job.retryMaxMs
  leaseOwner : ∀ owner ∈ job.leaseOwner, isWorker owner
  lastErrorCode : ∀ code ∈ job.lastErrorCode, isErrorCode code
  status : job.StatusChecks

instance (job : SettlementProofJob) : Decidable job.LeaseRecorded :=
  inferInstanceAs (Decidable (_ ∧ _))

instance (job : SettlementProofJob) : Decidable job.StatusChecks :=
  inferInstanceAs (Decidable (_ ∨ _))

theorem checks_iff (job : SettlementProofJob) :
    job.Checks ↔ (0 ≤ job.attempts ∧ job.attempts ≤ 100) ∧
      (1 ≤ job.maxAttempts ∧ job.maxAttempts ≤ 100 ∧ job.attempts ≤ job.maxAttempts) ∧
      (1000 ≤ job.leaseMs ∧ job.leaseMs ≤ 900000) ∧ 0 < job.retryBaseMs ∧
      job.retryBaseMs ≤ job.retryMaxMs ∧ (∀ owner ∈ job.leaseOwner, isWorker owner) ∧
      (∀ code ∈ job.lastErrorCode, isErrorCode code) ∧ job.StatusChecks :=
  ⟨fun ⟨a, b, c, d, e, f, g, h⟩ => ⟨a, b, c, d, e, f, g, h⟩,
    fun ⟨a, b, c, d, e, f, g, h⟩ => ⟨a, b, c, d, e, f, g, h⟩⟩

instance (job : SettlementProofJob) : Decidable job.Checks :=
  decidable_of_iff _ job.checks_iff.symm

def terminal (job : SettlementProofJob) : Bool := job.status = .complete ∨ job.status = .dead

end SettlementProofJob

namespace MarketState

def setJob (s : MarketState) (kind : JobKind) (job : SettlementProofJob) : MarketState :=
  { s with jobs := fun other => if other = kind then some job else s.jobs other }

@[simp] theorem setJob_jobs_self (s : MarketState) (kind : JobKind) (job : SettlementProofJob) :
    (s.setJob kind job).jobs kind = some job := by simp [setJob]

theorem setJob_jobs_of_ne (s : MarketState) {kind other : JobKind} (job : SettlementProofJob)
    (h : other ≠ kind) : (s.setJob kind job).jobs other = s.jobs other := by simp [setJob, h]

@[simp] theorem setJob_market (s : MarketState) (kind : JobKind) (job : SettlementProofJob) :
    (s.setJob kind job).market = s.market := rfl

@[simp] theorem setJob_settlement (s : MarketState) (kind : JobKind) (job : SettlementProofJob) :
    (s.setJob kind job).settlement = s.settlement := rfl

@[simp] theorem setJob_wagerApplied (s : MarketState) (kind : JobKind)
    (job : SettlementProofJob) : (s.setJob kind job).wagerApplied = s.wagerApplied := rfl

@[simp] theorem setJob_statProof (s : MarketState) (kind : JobKind) (job : SettlementProofJob) :
    (s.setJob kind job).statProof = s.statProof := rfl

/-- `insert … on conflict do nothing`; the row is checked before a conflict is looked for. -/
def insertJob (s : MarketState) (job : SettlementProofJob) : Except QueueError MarketState := do
  require job.Checks QueueError.checkViolation
  return if (s.jobs job.jobKind).isSome then s else s.setJob job.jobKind job

/-- An update of a row, which the trigger and the checks look at. -/
def updateJob (s : MarketState) (old job : SettlementProofJob) : Except QueueError MarketState := do
  require (old.terminal = true → old = job) QueueError.jobTerminalImmutable
  require job.Checks QueueError.checkViolation
  return s.setJob old.jobKind job

end MarketState

/-! ## what the functions ask for -/

structure QueuePolicy where
  maxAttempts : Int
  leaseMs : Int
  retryBaseMs : Int
  retryMaxMs : Int
  deriving DecidableEq, Repr

/-- `settlement_proof_valid_policy` -/
def QueuePolicy.Valid (policy : QueuePolicy) : Prop :=
  (1 ≤ policy.maxAttempts ∧ policy.maxAttempts ≤ 100) ∧
    (1000 ≤ policy.leaseMs ∧ policy.leaseMs ≤ 900000) ∧ 0 < policy.retryBaseMs ∧
    policy.retryBaseMs ≤ policy.retryMaxMs

instance (policy : QueuePolicy) : Decidable policy.Valid := inferInstanceAs (Decidable (_ ∧ _))

/-- `settlement_proof_settlement_graph_complete` -/
def GraphComplete (s : MarketState) : Prop :=
  (∃ settlement ∈ s.settlement, settlement.postedAt.isSome) ∧ s.wagerApplied = true ∧
    (s.jobs .proof).isSome

/-- `settlement_proof_proof_completion_allowed` -/
def ProofCompletionAllowed (s : MarketState) : Prop :=
  ∃ settlement ∈ s.settlement, settlement.outcome = .void ∨ settlement.tier = .oracleResolved ∨
    s.statProof = some .verified ∨ s.statProof = some .unavailable

/-- `settlement_proof_proof_dead_allowed` -/
def ProofDeadAllowed (s : MarketState) : Prop :=
  s.statProof = some .failed ∨ s.statProof = some .unavailable

instance (s : MarketState) : Decidable (GraphComplete s) := inferInstanceAs (Decidable (_ ∧ _))

instance (s : MarketState) : Decidable (ProofCompletionAllowed s) :=
  inferInstanceAs (Decidable (∃ settlement ∈ s.settlement, _))

instance (s : MarketState) : Decidable (ProofDeadAllowed s) :=
  inferInstanceAs (Decidable (_ ∨ _))

/-- The currencies of the wagers. -/
def isWagered (currency : String) : Bool := currency = "sol" ∨ currency = "usdc"

/-! ## the functions -/

inductive QueueAnswer
  | rejected (code : String)
  | recorded (duplicate : Bool) (jobStatus : Option JobStatus)
  | enqueued (created : Bool) (job : Option SettlementProofJob)
  | moved (status : JobStatus) (duplicate : Bool)
  deriving DecidableEq, Repr

abbrev Answered := Except QueueError (MarketState × QueueAnswer)

/-- The row that is made for a job. -/
def pendingJob (kind : JobKind) (policy : QueuePolicy) (dueAt now : Int) : SettlementProofJob where
  jobKind := kind
  status := .pending
  attempts := 0
  maxAttempts := policy.maxAttempts
  leaseMs := policy.leaseMs
  retryBaseMs := policy.retryBaseMs
  retryMaxMs := policy.retryMaxMs
  dueAt := dueAt
  leaseOwner := none
  leaseToken := none
  leasedAt := none
  leaseExpiresAt := none
  lastErrorCode := none
  createdAt := now
  updatedAt := now
  completedAt := none
  deadAt := none

structure RecordTerminal where
  outcome : Outcome
  decidingSeq : Option Int
  evidenceSeqs : List Int
  tier : Tier
  now : Option Int
  policy : QueuePolicy
  deriving DecidableEq, Repr

def RecordTerminal.requiredStatus (input : RecordTerminal) : MarketStatus :=
  if input.outcome = .void then .voided else .settled

def RecordTerminal.row (input : RecordTerminal) (now : Int) : SettlementRow where
  outcome := input.outcome
  decidingSeq := input.decidingSeq
  evidenceSeqs := input.evidenceSeqs
  tier := input.tier
  postedAt := none
  settledAt := now

/-- The settlement that is there says what is to be recorded. -/
def RecordTerminal.Matches (input : RecordTerminal) (settlement : SettlementRow) : Prop :=
  settlement.outcome = input.outcome ∧ settlement.decidingSeq = input.decidingSeq ∧
    settlement.evidenceSeqs = input.evidenceSeqs ∧ settlement.tier = input.tier

instance (input : RecordTerminal) (settlement : SettlementRow) :
    Decidable (input.Matches settlement) :=
  inferInstanceAs (Decidable (_ ∧ _))

/-- The market and its settlement, as they are recorded. -/
def recordFacts (s : MarketState) (market : MarketRow) (settlement : SettlementRow)
    (status : MarketStatus) : MarketState :=
  { s with market := some { market with status := status }, settlement := some settlement }

/-- The end of `settlement_record_terminal`: the rows are written and the job is made. -/
def recordAndEnqueue (s : MarketState) (input : RecordTerminal) (now : Int) (market : MarketRow)
    (settlement : SettlementRow) (duplicate : Bool) : Answered := do
  let s ← (recordFacts s market settlement input.requiredStatus).insertJob
    (pendingJob .settlement input.policy now now)
  return (s, .recorded duplicate ((s.jobs .settlement).map SettlementProofJob.status))

def settlementRecordTerminal (input : RecordTerminal) (s : MarketState) : Answered :=
  if ¬ input.policy.Valid then .ok (s, .rejected "invalid_queue_policy")
  else match input.now, s.market with
  | none, _ => .ok (s, .rejected "settlement_fact_conflict")
  | some _, none => .ok (s, .rejected "market_not_found")
  | some now, some market =>
    if ¬ isWagered market.currency then .ok (s, .rejected "market_not_sol")
    else if market.status.terminal ∧ market.status ≠ input.requiredStatus then
      .ok (s, .rejected "terminal_state_conflict")
    else if market.trustTier ≠ some input.tier then .ok (s, .rejected "tier_mismatch")
    else match s.settlement with
    | some settlement =>
      if ¬ input.Matches settlement then .ok (s, .rejected "settlement_fact_conflict")
      else recordAndEnqueue s input now market settlement true
    | none => recordAndEnqueue s input now market (input.row now) false

structure EnqueueJob where
  jobKind : JobKind
  dueAt : Option Int
  now : Option Int
  policy : QueuePolicy
  deriving DecidableEq, Repr

def settlementProofEnqueue (input : EnqueueJob) (s : MarketState) : Answered :=
  match input.dueAt, input.now with
  | some dueAt, some now =>
    if ¬ input.policy.Valid then .ok (s, .rejected "invalid_queue_policy")
    else match s.market with
    | none => .ok (s, .rejected "market_not_found")
    | some market =>
      if ¬ isWagered market.currency then .ok (s, .rejected "market_not_sol")
      else if ¬ market.status.terminal then .ok (s, .rejected "market_not_terminal")
      else if input.jobKind = .proof ∧ s.settlement = none then
        .ok (s, .rejected "settlement_fact_missing")
      else do
        let after ← s.insertJob (pendingJob input.jobKind input.policy dueAt now)
        return (after, .enqueued (s.jobs input.jobKind).isNone (after.jobs input.jobKind))
  | _, _ => .ok (s, .rejected "invalid_queue_policy")

/-- The lease is over. -/
def SettlementProofJob.Expired (job : SettlementProofJob) (now : Int) : Prop :=
  job.status = .leased ∧ job.leaseExpiresAt.any (· ≤ now)

/-- The rows that a lease resolves: the last attempt has expired. -/
def SettlementProofJob.FinalExpired (job : SettlementProofJob) (now : Int) : Prop :=
  job.Expired now ∧ job.maxAttempts ≤ job.attempts

/-- The rows that a lease may take. -/
def SettlementProofJob.Ready (job : SettlementProofJob) (now : Int) : Prop :=
  ((job.status = .pending ∨ job.status = .retryWait) ∧ job.dueAt ≤ now) ∨
    (job.Expired now ∧ job.attempts < job.maxAttempts)

instance (job : SettlementProofJob) (now : Int) : Decidable (job.Expired now) :=
  inferInstanceAs (Decidable (_ ∧ _))

instance (job : SettlementProofJob) (now : Int) : Decidable (job.FinalExpired now) :=
  inferInstanceAs (Decidable (_ ∧ _))

instance (job : SettlementProofJob) (now : Int) : Decidable (job.Ready now) :=
  inferInstanceAs (Decidable (_ ∨ _))

def completed (job : SettlementProofJob) (now : Int) : SettlementProofJob :=
  { job with status := .complete, lastErrorCode := none, completedAt := some now, updatedAt := now }

def deadLettered (job : SettlementProofJob) (errorCode : String) (now : Int) :
    SettlementProofJob :=
  { job with
    status := .dead, lastErrorCode := some errorCode, deadAt := some now, updatedAt := now }

def retrying (job : SettlementProofJob) (errorCode : String) (delayMs now : Int) :
    SettlementProofJob :=
  { job with
    status := .retryWait
    dueAt := now + delayMs * 1000
    lastErrorCode := some errorCode
    updatedAt := now }

def leased (job : SettlementProofJob) (workerId token : String) (now : Int) :
    SettlementProofJob :=
  { job with
    status := .leased
    attempts := job.attempts + 1
    leaseOwner := some workerId
    leaseToken := some token
    leasedAt := some now
    leaseExpiresAt := some (now + job.leaseMs * 1000)
    lastErrorCode := if job.status = .leased then some "lease_expired" else job.lastErrorCode
    updatedAt := now }

/-- The proof is given up: one that is missing is made and fails, one that is pending fails. -/
def failProof (s : MarketState) : MarketState :=
  match s.statProof with
  | none | some .pending => { s with statProof := some .failed }
  | some _ => s

/-- A final expired attempt is resolved. -/
def resolveExpired (now : Int) (job : SettlementProofJob) (s : MarketState) :
    Except QueueError MarketState :=
  match job.jobKind with
  | .settlement =>
      if GraphComplete s then s.updateJob job (completed job now)
      else s.updateJob job (deadLettered job "lease_expired" now)
  | .proof =>
      if s.settlement.any fun row => row.outcome = .void ∨ row.tier = .oracleResolved then
        s.updateJob job (completed job now)
      else if s.statProof = some .verified ∨ s.statProof = some .unavailable then
        s.updateJob job (completed job now)
      else (failProof s).updateJob job (deadLettered job "lease_expired" now)

structure LeaseJobs where
  jobKind : JobKind
  workerId : Option String
  now : Option Int
  limit : Option Int
  deriving DecidableEq, Repr

/-- What else a lease goes by: whether nobody else holds the row while the expired ones are
resolved and whether the row is within the limit of those it takes, and the token it makes. -/
structure LeaseTurn where
  resolves : Bool
  takes : Bool
  token : String
  deriving DecidableEq, Repr

/-- The first loop of a lease. -/
def leaseResolve (kind : JobKind) (now : Int) (resolves : Bool) (s : MarketState) :
    Except QueueError MarketState :=
  match s.jobs kind with
  | none => .ok s
  | some job =>
      if resolves = true ∧ job.FinalExpired now then resolveExpired now job s else .ok s

/-- The second loop of a lease. -/
def leaseTake (kind : JobKind) (workerId : String) (now : Int) (turn : LeaseTurn)
    (s : MarketState) : Except QueueError MarketState :=
  match s.jobs kind with
  | none => .ok s
  | some job =>
      if turn.takes = true ∧ job.Ready now then
        s.updateJob job (leased job workerId turn.token now)
      else .ok s

def settlementProofLease (input : LeaseJobs) (turn : LeaseTurn) (s : MarketState) :
    Except QueueError MarketState :=
  match input.workerId, input.now, input.limit with
  | some workerId, some now, some limit =>
      if ¬ isWorker workerId ∨ limit < 1 ∨ limit > 100 then .ok s
      else do
        let s ← leaseResolve input.jobKind now turn.resolves s
        leaseTake input.jobKind workerId now turn s
  | _, _, _ => .ok s

/-- The lease that a call carries, and its clock. -/
structure Held where
  jobKind : JobKind
  workerId : Option String
  leaseToken : Option String
  now : Option Int
  deriving DecidableEq, Repr

/-- The row has the worker and the token of the call. -/
def Held.Owns (held : Held) (job : SettlementProofJob) : Prop :=
  job.leaseOwner = held.workerId ∧ job.leaseToken = held.leaseToken

/-- The row is leased to the call at this time. -/
def Held.Holds (held : Held) (job : SettlementProofJob) (now : Int) : Prop :=
  job.status = .leased ∧ held.Owns job ∧ ¬ job.leaseExpiresAt.any (· ≤ now)

instance (held : Held) (job : SettlementProofJob) : Decidable (held.Owns job) :=
  inferInstanceAs (Decidable (_ ∧ _))

instance (held : Held) (job : SettlementProofJob) (now : Int) : Decidable (held.Holds job now) :=
  inferInstanceAs (Decidable (_ ∧ _))

def settlementProofComplete (held : Held) (s : MarketState) : Answered :=
  match s.jobs held.jobKind with
  | none => .ok (s, .rejected "lease_lost")
  | some job =>
    if job.status = .complete ∧ held.Owns job then .ok (s, .moved .complete true)
    else match held.now with
    | none => .ok (s, .rejected "lease_lost")
    | some now =>
      if ¬ held.Holds job now then .ok (s, .rejected "lease_lost")
      else if job.jobKind = .settlement ∧ ¬ GraphComplete s then
        .ok (s, .rejected "effects_incomplete")
      else if job.jobKind = .proof ∧ ¬ ProofCompletionAllowed s then
        .ok (s, .rejected "proof_terminal_missing")
      else do
        let s ← s.updateJob job (completed job now)
        return (s, .moved .complete false)

/-- The end of a retry that has no attempt left and of a dead letter. -/
def markDead (errorCode : String) (now : Int) (job : SettlementProofJob) (s : MarketState) :
    Answered :=
  if job.jobKind = .proof ∧ ¬ ProofDeadAllowed s then .ok (s, .rejected "proof_terminal_missing")
  else do
    let s ← s.updateJob job (deadLettered job errorCode now)
    return (s, .moved .dead false)

/-- The longest delay that a retry may ask for. -/
def retryCap (job : SettlementProofJob) : Int :=
  min job.retryMaxMs (job.retryBaseMs * 2 ^ (job.attempts - 1).toNat)

def settlementProofRetry (held : Held) (errorCode : Option String) (delayMs : Option Int)
    (s : MarketState) : Answered :=
  match s.jobs held.jobKind with
  | none => .ok (s, .rejected "lease_lost")
  | some job =>
    if (job.status = .retryWait ∨ job.status = .dead) ∧ held.Owns job then
      .ok (s, .moved job.status true)
    else match held.now, errorCode, delayMs with
    | some now, some errorCode, some delayMs =>
      if ¬ isErrorCode errorCode ∨ ¬ held.Holds job now then .ok (s, .rejected "lease_lost")
      else if delayMs ≤ 0 ∨ delayMs > retryCap job then
        .ok (s, .rejected "invalid_queue_policy")
      else if job.attempts < job.maxAttempts then do
        let s ← s.updateJob job (retrying job errorCode delayMs now)
        return (s, .moved .retryWait false)
      else markDead errorCode now job s
    | _, _, _ => .ok (s, .rejected "lease_lost")

def settlementProofDeadLetter (held : Held) (errorCode : Option String) (s : MarketState) :
    Answered :=
  match s.jobs held.jobKind with
  | none => .ok (s, .rejected "lease_lost")
  | some job =>
    if job.status = .dead ∧ held.Owns job then .ok (s, .moved .dead true)
    else match held.now, errorCode with
    | some now, some errorCode =>
      if ¬ isErrorCode errorCode ∨ ¬ held.Holds job now then .ok (s, .rejected "lease_lost")
      else markDead errorCode now job s
    | _, _ => .ok (s, .rejected "lease_lost")

/-! ## the repair of terminal markets -/

structure ReconcileTerminalJobs where
  now : Option Int
  limit : Option Int
  policy : QueuePolicy
  initialChainProofDelayMs : Option Int
  deriving DecidableEq, Repr

structure Reconciled where
  reasonCodes : List String
  settlementJobCreated : Bool
  proofJobCreated : Bool
  deriving DecidableEq, Repr

/-- A chain proof is not looked for at once. -/
def proofDueAt (settlement : SettlementRow) (now delayMs : Int) : Int :=
  if settlement.outcome = .void ∨ settlement.tier = .oracleResolved then now
  else now + delayMs * 1000

/-- An insert that takes no conflict; the row is not there. -/
def createJob (s : MarketState) (job : SettlementProofJob) : Except QueueError MarketState := do
  require job.Checks QueueError.checkViolation
  return s.setJob job.jobKind job

def reconcileSettlementJob (policy : QueuePolicy) (now : Int) (s : MarketState) :
    Except QueueError (MarketState × List String × Bool) :=
  match s.jobs .settlement with
  | none => do
      let s ← createJob s (pendingJob .settlement policy now now)
      return (s, ["settlement_job_missing"], true)
  | some job =>
      if job.status = .complete ∧ ¬ GraphComplete s then
        .ok (s, ["settlement_terminal_conflict"], false)
      else .ok (s, [], false)

def reconcileProofJob (policy : QueuePolicy) (now delayMs : Int) (s : MarketState) :
    Except QueueError (MarketState × List String × Bool) :=
  match s.settlement, s.jobs .proof with
  | none, _ => .ok (s, ["settlement_fact_missing"], false)
  | some settlement, none => do
      let s ← createJob s (pendingJob .proof policy (proofDueAt settlement now delayMs) now)
      return (s, ["proof_job_missing"], true)
  | some _, some job =>
      if (job.status = .complete ∧ ¬ ProofCompletionAllowed s) ∨
          (job.status = .dead ∧ ¬ ProofDeadAllowed s) then
        .ok (s, ["proof_terminal_conflict"], false)
      else .ok (s, [], false)

/-- The body of the loop of `settlement_reconcile_terminal_jobs`. -/
def reconcileMarket (policy : QueuePolicy) (now delayMs : Int) (s : MarketState) :
    Except QueueError (MarketState × Reconciled) := do
  let (s, reasons, settlementCreated) ← reconcileSettlementJob policy now s
  let (s, more, proofCreated) ← reconcileProofJob policy now delayMs s
  return (s, ⟨reasons ++ more, settlementCreated, proofCreated⟩)

/-- The arguments of a repair that does something: its time, its limit and its delay. -/
def ReconcileTerminalJobs.arguments (input : ReconcileTerminalJobs) : Option (Int × Nat × Int) :=
  match input.now, input.limit, input.initialChainProofDelayMs with
  | some now, some limit, some delayMs =>
      if limit < 1 ∨ limit > 1000 ∨ delayMs < 0 ∨ ¬ input.policy.Valid then none
      else some (now, limit.toNat, delayMs)
  | _, _, _ => none

/-- The markets that the repair looks at. -/
def TerminalMarket (s : MarketState) : Prop :=
  ∃ market ∈ s.market, isWagered market.currency ∧ market.status.terminal

instance (s : MarketState) : Decidable (TerminalMarket s) :=
  inferInstanceAs (Decidable (∃ market ∈ s.market, _))

/-- The repair, seen from one market, which is `looked` at if it is within the limit. -/
def reconcileLooked (input : ReconcileTerminalJobs) (looked : Bool) (s : MarketState) :
    Except QueueError MarketState :=
  match input.arguments with
  | none => .ok s
  | some (now, _, delayMs) =>
      if looked = true ∧ TerminalMarket s then
        (reconcileMarket input.policy now delayMs s).map Prod.fst
      else .ok s

/-! ## the database -/

/-- The markets of the database, each with its rows; `ι` holds the ids. -/
structure Database (ι : Type) where
  ids : Finset ι
  state : ι → MarketState

section

variable {ι : Type} [LinearOrder ι]

def Database.terminalIds (db : Database ι) : Finset ι :=
  db.ids.filter fun id => TerminalMarket (db.state id)

/-- The rows that the repair looks at: the first of all terminal markets. -/
def terminalPage (limit : Nat) (db : Database ι) : List ι :=
  (db.terminalIds.sort (· ≤ ·)).take limit

/-- One turn of the loop. -/
def reconcileTurn (policy : QueuePolicy) (now delayMs : Int)
    (found : Database ι × List (ι × Reconciled)) (id : ι) :
    Except QueueError (Database ι × List (ι × Reconciled)) := do
  let (s, row) ← reconcileMarket policy now delayMs (found.1.state id)
  return ({ found.1 with state := Function.update found.1.state id s }, found.2 ++ [(id, row)])

/-- `settlement_reconcile_terminal_jobs`, while nobody else holds a row. -/
def settlementReconcileTerminalJobs (input : ReconcileTerminalJobs) (db : Database ι) :
    Except QueueError (Database ι × List (ι × Reconciled)) :=
  match input.arguments with
  | none => .ok (db, [])
  | some (now, limit, delayMs) =>
      (terminalPage limit db).foldlM (reconcileTurn input.policy now delayMs) (db, [])

end

end CalledIt.Settlement
