import CalledIt.Lib.Run
import CalledIt.Relayer.RelayerWorker

/-!
# CalledIt.Relayer.JobQueue

The durable queue of the relayer: the table `escrow_relayer_jobs` and the functions on it,
each in its latest version (`0024_escrow.sql`, `0027_escrow_recovery_rearm.sql`,
`0032_escrow_signed_retry.sql`, `0033_escrow_unknown_finality.sql`,
`0036_escrow_position_fast_reconcile.sql`).

A row lock makes the calls on one row take turns, so the queue is seen from one row: the
row of one idempotency key, absent until it is enqueued.  A lease takes any of the rows that
are ready, as many as its limit allows, each on its own.  A timestamp is a number of
microseconds.
-/

namespace CalledIt.Relayer

open Lib
open Sdk (isHexDigit)

/-- A row of `escrow_relayer_jobs`; `π` holds the payloads. -/
structure RelayerJob (π : Type) where
  id : String
  kind : RelayerJobKind
  idempotencyKey : String
  state : RelayerJobState
  cluster : String
  programId : String
  custodyMode : String
  custodyVersion : Int
  marketId : Option String
  ownerPubkey : Option String
  payload : π
  attempts : Nat
  maxAttempts : Nat
  leaseDurationMs : Nat
  dueAt : Int
  leaseOwner : Option String
  leaseToken : Option String
  leasedAt : Option Int
  leaseExpiresAt : Option Int
  rawTransaction : Option String
  expectedSignature : Option String
  transactionMessageHashHex : Option String
  lastValidBlockHeight : Option Nat
  fullHistoryCheckedAt : Option Int
  submittedAt : Option Int
  confirmedAt : Option Int
  errorCode : Option String
  createdAt : Int
  updatedAt : Int
  completedAt : Option Int
  deadAt : Option Int

structure EnqueueRelayerJob (π : Type) where
  kind : RelayerJobKind
  idempotencyKey : String
  cluster : String
  programId : String
  custodyMode : String
  custodyVersion : Int
  marketId : Option String
  ownerPubkey : Option String
  payload : π
  dueAt : Int
  maxAttempts : Nat
  leaseMs : Nat
  now : Int

structure PreparedTransaction where
  rawTransaction : String
  expectedSignature : String
  lastValidBlockHeight : Nat
  transactionMessageHashHex : String

structure RetryJob where
  lease : RelayerLease
  now : Int
  errorCode : String
  retryAt : Int
  confirmationUnknown : Bool
  fullHistoryCheckedAt : Option Int
  currentBlockHeight : Option Nat

/-- What the database raises. -/
inductive RelayerQueueError
  | queuePolicyInvalid
  | idempotencyConflict
  | custodyRefused
  | checkViolation
  deriving DecidableEq, Repr

namespace RelayerJob

variable {π : Type}

def holds (job : RelayerJob π) (lease : RelayerLease) : Bool :=
  job.leaseOwner = some lease.workerId ∧ job.leaseToken = some lease.leaseToken

def released (job : RelayerJob π) : RelayerJob π :=
  { job with leaseOwner := none, leaseToken := none, leasedAt := none, leaseExpiresAt := none }

end RelayerJob

/-! ## the functions -/

namespace Jobs

variable {π : Type}

/-- The arguments that the queue takes. -/
def PolicyValid (input : EnqueueRelayerJob π) : Prop :=
  ¬ (input.custodyMode ≠ "escrow" ∨ input.custodyVersion ≤ 0 ∨ input.maxAttempts ≤ 0 ∨
    input.leaseMs < 1000 ∨ input.leaseMs > 600000)

instance (input : EnqueueRelayerJob π) : Decidable (PolicyValid input) :=
  inferInstanceAs (Decidable (¬ _))

/-- The request is the one that the row was made for. -/
def SameRequest (job : RelayerJob π) (input : EnqueueRelayerJob π) : Prop :=
  job.kind = input.kind ∧ job.cluster = input.cluster ∧ job.programId = input.programId ∧
    job.custodyMode = input.custodyMode ∧ job.custodyVersion = input.custodyVersion ∧
    job.marketId = input.marketId ∧ job.ownerPubkey = input.ownerPubkey ∧
    job.payload = input.payload

instance [DecidableEq π] (job : RelayerJob π) (input : EnqueueRelayerJob π) :
    Decidable (SameRequest job input) :=
  inferInstanceAs (Decidable (_ ∧ _))

/-- The kinds of work that is recovered. -/
def rearmable : RelayerJobKind → Bool
  | .settlementSubmission | .timeoutMonitoring | .autoClaim | .accountClose => true
  | _ => false

/-- An enqueued job starts again.  No event of the chain has the signature of a row that has
none, so the last condition of the source says nothing more. -/
def Rearms (job : RelayerJob π) (now : Int) : Prop :=
  rearmable job.kind ∧ job.kind ≠ .positionPlacement ∧ job.state ≠ .complete ∧
    job.completedAt = none ∧ job.confirmedAt = none ∧
    (job.state = .dead ∨ job.attempts ≥ job.maxAttempts) ∧
    (job.state ≠ .leased ∨ job.leaseExpiresAt.any (· ≤ now)) ∧
    job.rawTransaction = none ∧ job.expectedSignature = none ∧
    job.transactionMessageHashHex = none ∧ job.lastValidBlockHeight = none ∧
    job.submittedAt = none

instance (job : RelayerJob π) (now : Int) : Decidable (Rearms job now) :=
  inferInstanceAs (Decidable (_ ∧ _))

def rearmed (job : RelayerJob π) (dueAt now : Int) : RelayerJob π :=
  { job.released with
    state := .pending
    attempts := 0
    dueAt := dueAt
    fullHistoryCheckedAt := none
    deadAt := none
    errorCode := some (String.ofList
      (("rearmed_after_exhaustion:" ++ job.errorCode.getD "unspecified").toList.take 128))
    updatedAt := now }

def created (input : EnqueueRelayerJob π) (id : String) : RelayerJob π where
  id := id
  kind := input.kind
  idempotencyKey := input.idempotencyKey
  state := .pending
  cluster := input.cluster
  programId := input.programId
  custodyMode := input.custodyMode
  custodyVersion := input.custodyVersion
  marketId := input.marketId
  ownerPubkey := input.ownerPubkey
  payload := input.payload
  attempts := 0
  maxAttempts := input.maxAttempts
  leaseDurationMs := input.leaseMs
  dueAt := input.dueAt
  leaseOwner := none
  leaseToken := none
  leasedAt := none
  leaseExpiresAt := none
  rawTransaction := none
  expectedSignature := none
  transactionMessageHashHex := none
  lastValidBlockHeight := none
  fullHistoryCheckedAt := none
  submittedAt := none
  confirmedAt := none
  errorCode := none
  createdAt := input.now
  updatedAt := input.now
  completedAt := none
  deadAt := none

/-- The id is made up by the database.  Whether a new row is `admitted` is up to the custody
trigger and to the reference to `markets`; neither looks at the queue. -/
def escrowRelayerEnqueue [DecidableEq π] (admitted : Bool) (id : String)
    (row : Option (RelayerJob π)) (input : EnqueueRelayerJob π) :
    Except RelayerQueueError (RelayerJob π) := do
  require (PolicyValid input) RelayerQueueError.queuePolicyInvalid
  match row with
  | some job => do
      require (SameRequest job input) RelayerQueueError.idempotencyConflict
      return if Rearms job input.now then rearmed job input.dueAt input.now else job
  | none => do
      require admitted RelayerQueueError.custodyRefused
      return created input id

/-- The rows that a lease may take. -/
def Candidate (job : RelayerJob π) (now : Int) : Prop :=
  (job.attempts < job.maxAttempts ∨
    (job.rawTransaction.isSome ∧ job.expectedSignature.isSome ∧
      ((job.state = .signed ∨ job.state = .submitted ∨ job.state = .unknown) ∨
        (job.state = .leased ∧ job.leaseExpiresAt.any (· ≤ now))))) ∧
  (((job.state = .pending ∨ job.state = .retryWait ∨ job.state = .signed ∨
      job.state = .submitted ∨ job.state = .unknown) ∧ job.dueAt ≤ now) ∨
    (job.state = .leased ∧ job.leaseExpiresAt.any (· ≤ now)))

instance (job : RelayerJob π) (now : Int) : Decidable (Candidate job now) :=
  inferInstanceAs (Decidable (_ ∧ _))

/-- What a lease makes of a row it takes. -/
def escrowRelayerLease (workerId token : String) (now : Int) (job : RelayerJob π) :
    RelayerJob π :=
  { job with
    state := .leased
    attempts :=
      if job.rawTransaction.isSome ∧ job.expectedSignature.isSome then
        min (job.attempts + 1) job.maxAttempts
      else job.attempts + 1
    leaseOwner := some workerId
    leaseToken := some token
    leasedAt := some now
    leaseExpiresAt := some (now + job.leaseDurationMs * 1000)
    updatedAt := now }

abbrev Answered (π : Type) := RelayerJob π × EscrowRelayerMutationResult

/-- The check of `transaction_message_hash_hex`. -/
def isMessageHash (text : String) : Bool :=
  text.toList.length = 64 ∧ text.toList.all isHexDigit

def lower (text : String) : String := String.ofList (text.toList.map Char.toLower)

def recorded (job : RelayerJob π) (prepared : PreparedTransaction) (dueAt now : Int) :
    RelayerJob π :=
  { job with
    state := .signed
    rawTransaction := some prepared.rawTransaction
    expectedSignature := some prepared.expectedSignature
    lastValidBlockHeight := some prepared.lastValidBlockHeight
    transactionMessageHashHex := some (lower prepared.transactionMessageHashHex)
    dueAt := dueAt
    updatedAt := now }

/-- The update sets `due_at` to `lease_expires_at`, which must not be null. -/
def escrowRelayerRecordSigned (lease : RelayerLease) (now : Int) (prepared : PreparedTransaction)
    (job : RelayerJob π) : Except RelayerQueueError (Answered π) :=
  if !job.holds lease ∨ job.leaseExpiresAt.any (· < now) then
    .ok (job, .rejected "lease_lost")
  else if job.rawTransaction.isSome then
    if job.rawTransaction = some prepared.rawTransaction ∧
        job.expectedSignature = some prepared.expectedSignature ∧
        job.lastValidBlockHeight = some prepared.lastValidBlockHeight ∧
        job.transactionMessageHashHex.map lower =
          some (lower prepared.transactionMessageHashHex) then
      .ok (job, .ok true job.state)
    else .ok (job, .rejected "signature_mismatch")
  else if job.state ≠ .leased then
    .ok (job, .rejected "state_conflict")
  else do
    require (isMessageHash (lower prepared.transactionMessageHashHex))
      RelayerQueueError.checkViolation
    let dueAt ← okOr job.leaseExpiresAt RelayerQueueError.checkViolation
    return (recorded job prepared dueAt now, .ok false .signed)

def submitted (job : RelayerJob π) (now : Int) : RelayerJob π :=
  { job with
    state := .submitted
    submittedAt := some (job.submittedAt.getD now)
    dueAt := now + if job.kind = .positionPlacement then 1000000 else 20000000
    updatedAt := now }

def escrowRelayerMarkSubmitted (lease : RelayerLease) (now : Int) (expectedSignature : String)
    (job : RelayerJob π) : Answered π :=
  if !job.holds lease then (job, .rejected "lease_lost")
  else if job.expectedSignature ≠ some expectedSignature then (job, .rejected "signature_mismatch")
  else if job.state = .submitted then (job, .ok true .submitted)
  else if job.state ≠ .signed then (job, .rejected "state_conflict")
  else (submitted job now, .ok false .submitted)

def toUnknown (job : RelayerJob π) (input : RetryJob) : RelayerJob π :=
  { job.released with
    state := .unknown
    dueAt := input.retryAt
    errorCode := some input.errorCode
    updatedAt := input.now }

def toRetryWait (job : RelayerJob π) (input : RetryJob) : RelayerJob π :=
  { job.released with
    state := .retryWait
    dueAt := input.retryAt
    errorCode := some input.errorCode
    fullHistoryCheckedAt := input.fullHistoryCheckedAt
    rawTransaction := none
    expectedSignature := none
    transactionMessageHashHex := none
    lastValidBlockHeight := none
    submittedAt := none
    updatedAt := input.now }

def escrowRelayerRetry (input : RetryJob) (job : RelayerJob π) : Answered π :=
  if !job.holds input.lease then (job, .rejected "lease_lost")
  else if job.state ≠ .leased ∧ job.state ≠ .signed then (job, .rejected "state_conflict")
  else if input.confirmationUnknown then (toUnknown job input, .ok false .unknown)
  else if job.rawTransaction.isSome ∧ (input.fullHistoryCheckedAt = none ∨
      input.currentBlockHeight = none ∨
      input.currentBlockHeight.any fun height => job.lastValidBlockHeight.any (height ≤ ·)) then
    (job, .rejected "state_conflict")
  else (toRetryWait job input, .ok false .retryWait)

def completed (job : RelayerJob π) (now : Int) : RelayerJob π :=
  { job.released with
    state := .complete
    confirmedAt := some (job.confirmedAt.getD now)
    completedAt := some now
    errorCode := none
    updatedAt := now }

def escrowRelayerComplete (lease : RelayerLease) (now : Int) (job : RelayerJob π) : Answered π :=
  if job.state = .complete then (job, .ok true .complete)
  else if !job.holds lease then (job, .rejected "lease_lost")
  else (completed job now, .ok false .complete)

def deadLettered (job : RelayerJob π) (errorCode : String) (now : Int) : RelayerJob π :=
  { job.released with
    state := .dead
    deadAt := some now
    errorCode := some errorCode
    updatedAt := now }

def escrowRelayerDeadLetter (lease : RelayerLease) (errorCode : String) (now : Int)
    (job : RelayerJob π) : Answered π :=
  if job.state = .dead then (job, .ok true .dead)
  else if !job.holds lease then (job, .rejected "lease_lost")
  else (deadLettered job errorCode now, .ok false .dead)

/-! ## the row as the worker sees it -/

section

variable (iso : Int → String) (payloadOf : π → StoredPayload)

/-- The row behind the client, which reads timestamps as texts. -/
def view (job : RelayerJob π) : EscrowRelayerJobRow where
  id := job.id
  kind := job.kind
  state := job.state
  programId := job.programId
  custodyMode := job.custodyMode
  marketId := job.marketId
  ownerPubkey := job.ownerPubkey
  payload := payloadOf job.payload
  leaseOwner := job.leaseOwner
  leaseToken := job.leaseToken
  leasedAt := job.leasedAt.map iso
  leaseExpiresAt := job.leaseExpiresAt.map iso
  rawTransactionBase64 := job.rawTransaction
  expectedSignature := job.expectedSignature
  transactionMessageHashHex := job.transactionMessageHashHex
  lastValidBlockHeight := job.lastValidBlockHeight
  fullHistoryCheckedAt := job.fullHistoryCheckedAt.map iso
  submittedAt := job.submittedAt.map iso
  confirmedAt := job.confirmedAt.map iso
  dueAt := iso job.dueAt
  errorCode := job.errorCode
  updatedAt := iso job.updatedAt
  completedAt := job.completedAt.map iso
  deadAt := job.deadAt.map iso

def RetryJob.view (input : RetryJob) : RetryRelayerJob where
  lease := input.lease
  errorCode := input.errorCode
  retryAtIso := iso input.retryAt
  confirmationUnknown := input.confirmationUnknown
  fullHistoryCheckedAtIso := input.fullHistoryCheckedAt.map iso
  currentBlockHeight := input.currentBlockHeight
  nowIso := iso input.now

/-- What the worker is told of an answer. -/
def viewed (answered : Answered π) : Mutated := (some (view iso payloadOf answered.1), answered.2)

theorem holds_view (job : RelayerJob π) (lease : RelayerLease) :
    (view iso payloadOf job).holds lease = job.holds lease := rfl

/-- The three functions that the worker's model has are these. -/
theorem retry_view (input : RetryJob) (job : RelayerJob π) :
    Relayer.escrowRelayerRetry (some (view iso payloadOf job)) (RetryJob.view iso input) =
      viewed iso payloadOf (escrowRelayerRetry input job) := by
  unfold Relayer.escrowRelayerRetry escrowRelayerRetry
  simp only [apply_ite (viewed iso payloadOf), RetryJob.view, holds_view, Option.map_eq_none_iff]
  rfl

theorem complete_view (lease : RelayerLease) (now : Int) (job : RelayerJob π) :
    Relayer.escrowRelayerComplete (some (view iso payloadOf job)) lease (iso now) =
      viewed iso payloadOf (escrowRelayerComplete lease now job) := by
  have hconfirmed : ((view iso payloadOf job).confirmedAt.orElse fun _ => some (iso now)) =
      some (iso (job.confirmedAt.getD now)) := by
    cases h : job.confirmedAt <;> simp [view, h]
  unfold Relayer.escrowRelayerComplete escrowRelayerComplete
  simp only [apply_ite (viewed iso payloadOf), holds_view, hconfirmed]
  rfl

theorem deadLetter_view (lease : RelayerLease) (errorCode : String) (now : Int)
    (job : RelayerJob π) :
    Relayer.escrowRelayerDeadLetter (some (view iso payloadOf job)) lease errorCode (iso now) =
      viewed iso payloadOf (escrowRelayerDeadLetter lease errorCode now job) := by
  unfold Relayer.escrowRelayerDeadLetter escrowRelayerDeadLetter
  simp only [apply_ite (viewed iso payloadOf), holds_view]
  rfl

end

/-! ## runs -/

/-- The row of one key, and the lease tokens that have been made for it. -/
structure Slot (π : Type) where
  row : Option (RelayerJob π)
  tokens : List String

def Slot.empty : Slot π := { row := none, tokens := [] }

inductive Call (π : Type)
  | enqueue (input : EnqueueRelayerJob π)
  | lease (workerId token : String) (now : Int)
  | recordSigned (lease : RelayerLease) (now : Int) (prepared : PreparedTransaction)
  | markSubmitted (lease : RelayerLease) (now : Int) (expectedSignature : String)
  | retry (input : RetryJob)
  | complete (lease : RelayerLease) (now : Int)
  | deadLetter (lease : RelayerLease) (errorCode : String) (now : Int)

/-- The lease a call carries. -/
def Call.carries : Call π → Option RelayerLease
  | enqueue _ => none
  | lease _ _ _ => none
  | recordSigned held _ _ => some held
  | markSubmitted held _ _ => some held
  | retry input => some input.lease
  | complete held _ => some held
  | deadLetter held _ _ => some held

/-- A function on the row that carries a lease; what it raises leaves the row as it was. -/
def Call.run : Call π → RelayerJob π → RelayerJob π
  | enqueue _, job => job
  | lease _ _ _, job => job
  | recordSigned held now prepared, job =>
      ((escrowRelayerRecordSigned held now prepared job).toOption.map Prod.fst).getD job
  | markSubmitted held now expectedSignature, job =>
      (escrowRelayerMarkSubmitted held now expectedSignature job).1
  | retry input, job => (escrowRelayerRetry input job).1
  | complete held now, job => (escrowRelayerComplete held now job).1
  | deadLetter held errorCode now, job => (escrowRelayerDeadLetter held errorCode now job).1

/-- A call on the row of `key`.  A lease makes a token that was never made before. -/
inductive Step [DecidableEq π] (key : String) : Slot π → Call π → Slot π → Prop
  | enqueued {slot : Slot π} {input : EnqueueRelayerJob π} {job : RelayerJob π}
      (admitted : Bool) (id : String) : input.idempotencyKey = key →
      escrowRelayerEnqueue admitted id slot.row input = .ok job →
      Step key slot (.enqueue input) { slot with row := some job }
  | refused {slot : Slot π} {input : EnqueueRelayerJob π} {e : RelayerQueueError}
      (admitted : Bool) (id : String) : input.idempotencyKey = key →
      escrowRelayerEnqueue admitted id slot.row input = .error e →
      Step key slot (.enqueue input) slot
  | lease {slot : Slot π} {job : RelayerJob π} (workerId token : String) (now : Int) :
      slot.row = some job → Candidate job now → workerId ≠ "" → token ∉ slot.tokens →
      Step key slot (.lease workerId token now)
        { row := some (escrowRelayerLease workerId token now job), tokens := token :: slot.tokens }
  | called {slot : Slot π} (call : Call π) : call.carries.isSome →
      Step key slot call { slot with row := slot.row.map call.run }

abbrev Runs [DecidableEq π] (key : String) (slot : Slot π) (calls : List (Call π))
    (after : Slot π) : Prop :=
  Run (Step key) slot calls after

end Jobs

end CalledIt.Relayer
