import CalledIt.Lib.Transducer
import CalledIt.Wager.Pot

/-!
# CalledIt.Relayer.JobState

The jobs of the escrow relayer (`engine/src/escrow/job-state.ts`).

`transitionEscrowJob` takes a command or refuses it.  What a command that is taken can
change is said once, as a relation (`Moves`); the rules of a job's life follow from it
(`job_lifecycle`).  A numeric argument that is no integer is refused like one that is
out of range, so the arguments are integers here.
-/

namespace CalledIt.Relayer

open Lib
open Wager (maxSafeInteger)

/-! ## jobs -/

inductive EscrowRelayerJobKind
  | marketInitialization
  | freeze
  | unfreeze
  | positionActivation
  | settlementSubmission
  | timeoutMonitoring
  | autoClaim
  | accountClose
  deriving DecidableEq, Repr

def EscrowRelayerJobKind.text : EscrowRelayerJobKind → String
  | marketInitialization => "market_initialization"
  | freeze => "freeze"
  | unfreeze => "unfreeze"
  | positionActivation => "position_activation"
  | settlementSubmission => "settlement_submission"
  | timeoutMonitoring => "timeout_monitoring"
  | autoClaim => "auto_claim"
  | accountClose => "account_close"

inductive JobOutcome
  | back
  | doubt
  | void
  deriving DecidableEq, Repr

def JobOutcome.text : JobOutcome → String
  | back => "back"
  | doubt => "doubt"
  | void => "void"

/-- What the identity of a job says beside its market. -/
inductive JobSubject
  | marketInitialization
  | freeze (eventEpoch : Int)
  | unfreeze (eventEpoch : Int)
  | positionActivation (owner : String) (lotNonce eventEpoch : Int)
  | settlementSubmission (oracleEpoch : Int) (outcome : JobOutcome) (evidenceHash : String)
  | timeoutMonitoring (resolutionDeadlineUnix : Int)
  | autoClaim (owner : String)
  | accountClose
  deriving DecidableEq, Repr

def JobSubject.kind : JobSubject → EscrowRelayerJobKind
  | marketInitialization => .marketInitialization
  | freeze _ => .freeze
  | unfreeze _ => .unfreeze
  | positionActivation .. => .positionActivation
  | settlementSubmission .. => .settlementSubmission
  | timeoutMonitoring _ => .timeoutMonitoring
  | autoClaim _ => .autoClaim
  | accountClose => .accountClose

structure EscrowRelayerJobIdentity where
  programId : String
  marketPda : String
  subject : JobSubject
  deriving DecidableEq, Repr

inductive EscrowRelayerJobStatus
  | pending
  | leased
  | broadcast
  | retryWait
  | confirmed
  | deadLetter
  deriving DecidableEq, Repr

structure EscrowPreparedTransaction where
  rawTransactionBase64 : String
  expectedSignature : String
  lastValidBlockHeight : Int
  deriving DecidableEq, Repr

structure EscrowJobLease where
  workerId : String
  leaseToken : String
  deriving DecidableEq, Repr

structure EscrowJobConfirmation where
  signature : String
  slot : Int
  deriving DecidableEq, Repr

structure EscrowRelayerJob where
  kind : EscrowRelayerJobKind
  idempotencyKey : String
  status : EscrowRelayerJobStatus
  attempts : Nat
  maxAttempts : Nat
  lease : Option EscrowJobLease
  transaction : Option EscrowPreparedTransaction
  confirmation : Option EscrowJobConfirmation
  nextAttemptAtMs : Option Int
  errorCode : Option String
  deriving DecidableEq, Repr

def isSafeInteger (value : Int) : Bool := value.natAbs ≤ maxSafeInteger

/-! ## a new job -/

/-- A segment is made of printable characters, none of them a blank. -/
def canonicalSegment (value : String) : Option String :=
  if value ≠ "" ∧ value.toList.all (fun c => 0x21 ≤ c.toNat ∧ c.toNat ≤ 0x7E) then
    some (toString value.length ++ "." ++ value)
  else none

def nonNegative (value : Int) : Option String := if value < 0 then none else some (toString value)

def identitySegments (identity : EscrowRelayerJobIdentity) : Option (List String) :=
  let common := [identity.programId, identity.marketPda]
  match identity.subject with
  | .marketInitialization => some common
  | .accountClose => some common
  | .freeze eventEpoch => do some (common ++ [← nonNegative eventEpoch])
  | .unfreeze eventEpoch => do some (common ++ [← nonNegative eventEpoch])
  | .positionActivation owner lotNonce eventEpoch => do
      some (common ++ [owner, ← nonNegative lotNonce, ← nonNegative eventEpoch])
  | .settlementSubmission oracleEpoch outcome evidenceHash => do
      some (common ++ [← nonNegative oracleEpoch, outcome.text, evidenceHash])
  | .timeoutMonitoring resolutionDeadlineUnix => do
      some (common ++ [← nonNegative resolutionDeadlineUnix])
  | .autoClaim owner => some (common ++ [owner])

def createEscrowJobIdempotencyKey (identity : EscrowRelayerJobIdentity) : Option String := do
  let segments ← (← identitySegments identity).mapM canonicalSegment
  some ("escrow:v1:" ++ identity.subject.kind.text ++ ":" ++ ":".intercalate segments)

def createEscrowJob (identity : EscrowRelayerJobIdentity) (maxAttempts : Int) :
    Option EscrowRelayerJob :=
  if isSafeInteger maxAttempts ∧ 0 < maxAttempts then do
    some
      { kind := identity.subject.kind
        idempotencyKey := ← createEscrowJobIdempotencyKey identity
        status := .pending
        attempts := 0
        maxAttempts := maxAttempts.toNat
        lease := none
        transaction := none
        confirmation := none
        nextAttemptAtMs := none
        errorCode := none }
  else none

/-! ## transitions -/

/-- When a job is tried again, and why. -/
structure RetryFields where
  nextAttemptAtMs : Int
  errorCode : String
  deriving DecidableEq, Repr

inductive EscrowJobCommand
  | lease (workerId leaseToken : String) (nowMs : Int)
  | prepareTransaction (transaction : EscrowPreparedTransaction)
  | recordBroadcast (observedSignature : String)
  | recordConfirmation (signature : String) (slot : Int)
  | scheduleRebroadcast (currentBlockHeight : Int) (retry : RetryFields)
  | scheduleResign (currentBlockHeight : Int) (fullHistoryChecked transactionLanded : Bool)
      (retry : RetryFields)
  | scheduleRetryWithoutTransaction (retry : RetryFields)
  | deadLetter (errorCode : String)
  deriving DecidableEq, Repr

inductive EscrowJobTransitionError
  | invalidCommand
  | invalidState
  | retryNotDue
  | maxAttemptsExhausted
  | transactionNotPrepared
  | transactionAlreadyPrepared
  | signatureMismatch
  | blockhashStillLive
  | blockhashExpiredRequiresHistoryCheck
  | fullHistoryCheckRequired
  | transactionLanded
  | signedTransactionMustBeReconciled
  deriving DecidableEq, Repr

structure Transition where
  changed : Bool
  job : EscrowRelayerJob
  deriving DecidableEq, Repr

abbrev TransitionResult := Except EscrowJobTransitionError Transition

def changed (job : EscrowRelayerJob) : TransitionResult := .ok ⟨true, job⟩

def unchanged (job : EscrowRelayerJob) : TransitionResult := .ok ⟨false, job⟩

def retryFields (job : EscrowRelayerJob) (retry : RetryFields) : TransitionResult :=
  if !isSafeInteger retry.nextAttemptAtMs ∨ retry.nextAttemptAtMs < 0 ∨ retry.errorCode = "" then
    .error .invalidCommand
  else
    changed
      { job with
        status := .retryWait
        lease := none
        nextAttemptAtMs := some retry.nextAttemptAtMs
        errorCode := some retry.errorCode }

def leaseJob (job : EscrowRelayerJob) (workerId leaseToken : String) (nowMs : Int) :
    TransitionResult :=
  if !isSafeInteger nowMs ∨ nowMs < 0 ∨ workerId = "" ∨ leaseToken = "" then .error .invalidCommand
  else if job.status = .leased ∧ job.lease = some ⟨workerId, leaseToken⟩ then unchanged job
  else if job.status ≠ .pending ∧ job.status ≠ .retryWait then .error .invalidState
  else if job.nextAttemptAtMs.any (nowMs < ·) then .error .retryNotDue
  else if job.maxAttempts ≤ job.attempts then .error .maxAttemptsExhausted
  else
    changed
      { job with
        status := .leased
        attempts := job.attempts + 1
        lease := some ⟨workerId, leaseToken⟩
        nextAttemptAtMs := none
        errorCode := none }

def prepareTransaction (job : EscrowRelayerJob) (command : EscrowPreparedTransaction) :
    TransitionResult :=
  if job.status ≠ .leased then .error .invalidState
  else if command.rawTransactionBase64 = "" ∨ command.expectedSignature = "" ∨
      command.lastValidBlockHeight < 0 then
    .error .invalidCommand
  else
    match job.transaction with
    | some transaction =>
        if transaction = command then unchanged job else .error .transactionAlreadyPrepared
    | none => changed { job with transaction := some command }

def recordBroadcast (job : EscrowRelayerJob) (observedSignature : String) : TransitionResult :=
  if job.status ≠ .leased ∧ job.status ≠ .broadcast then .error .invalidState
  else
    match job.transaction with
    | none => .error .transactionNotPrepared
    | some transaction =>
        if observedSignature ≠ transaction.expectedSignature then .error .signatureMismatch
        else if job.status = .broadcast then unchanged job
        else changed { job with status := .broadcast }

def recordConfirmation (job : EscrowRelayerJob) (signature : String) (slot : Int) :
    TransitionResult :=
  if job.status = .confirmed then
    if job.confirmation.map (·.signature) ≠ some signature then .error .signatureMismatch
    else if job.confirmation.map (·.slot) = some slot then unchanged job
    else .error .invalidCommand
  else if job.status ≠ .leased ∧ job.status ≠ .broadcast ∧ job.status ≠ .retryWait then
    .error .invalidState
  else
    match job.transaction with
    | none => .error .transactionNotPrepared
    | some transaction =>
        if signature ≠ transaction.expectedSignature then .error .signatureMismatch
        else if slot < 0 then .error .invalidCommand
        else
          changed
            { job with
              status := .confirmed
              lease := none
              confirmation := some ⟨signature, slot⟩
              nextAttemptAtMs := none
              errorCode := none }

def scheduleRebroadcast (job : EscrowRelayerJob) (currentBlockHeight : Int) (retry : RetryFields) :
    TransitionResult :=
  if job.status ≠ .leased ∧ job.status ≠ .broadcast then .error .invalidState
  else
    match job.transaction with
    | none => .error .transactionNotPrepared
    | some transaction =>
        if currentBlockHeight < 0 then .error .invalidCommand
        else if transaction.lastValidBlockHeight < currentBlockHeight then
          .error .blockhashExpiredRequiresHistoryCheck
        else retryFields job retry

def scheduleResign (job : EscrowRelayerJob) (currentBlockHeight : Int)
    (fullHistoryChecked transactionLanded : Bool) (retry : RetryFields) : TransitionResult :=
  if job.status ≠ .leased ∧ job.status ≠ .broadcast ∧ job.status ≠ .retryWait then
    .error .invalidState
  else
    match job.transaction with
    | none => .error .transactionNotPrepared
    | some transaction =>
        if currentBlockHeight ≤ transaction.lastValidBlockHeight then .error .blockhashStillLive
        else if !fullHistoryChecked then .error .fullHistoryCheckRequired
        else if transactionLanded then .error .transactionLanded
        else retryFields { job with transaction := none } retry

def scheduleRetryWithoutTransaction (job : EscrowRelayerJob) (retry : RetryFields) :
    TransitionResult :=
  if job.status ≠ .leased then .error .invalidState
  else if job.transaction.isSome then .error .signedTransactionMustBeReconciled
  else retryFields job retry

def deadLetterJob (job : EscrowRelayerJob) (errorCode : String) : TransitionResult :=
  if job.status = .confirmed ∨ job.status = .deadLetter then .error .invalidState
  else if errorCode = "" then .error .invalidCommand
  else if job.attempts < job.maxAttempts then .error .maxAttemptsExhausted
  else
    changed
      { job with
        status := .deadLetter
        lease := none
        nextAttemptAtMs := none
        errorCode := some errorCode }

def transitionEscrowJob (job : EscrowRelayerJob) : EscrowJobCommand → TransitionResult
  | .lease workerId leaseToken nowMs => leaseJob job workerId leaseToken nowMs
  | .prepareTransaction transaction => prepareTransaction job transaction
  | .recordBroadcast observedSignature => recordBroadcast job observedSignature
  | .recordConfirmation signature slot => recordConfirmation job signature slot
  | .scheduleRebroadcast currentBlockHeight retry => scheduleRebroadcast job currentBlockHeight retry
  | .scheduleResign currentBlockHeight fullHistoryChecked transactionLanded retry =>
      scheduleResign job currentBlockHeight fullHistoryChecked transactionLanded retry
  | .scheduleRetryWithoutTransaction retry => scheduleRetryWithoutTransaction job retry
  | .deadLetter errorCode => deadLetterJob job errorCode

/-- A command that is taken, with the job before and after it. -/
structure Taken where
  command : EscrowJobCommand
  before : EscrowRelayerJob
  after : EscrowRelayerJob
  deriving DecidableEq, Repr

/-- A command that is refused leaves the job as it is. -/
def jobStep (job : EscrowRelayerJob) (command : EscrowJobCommand) :
    EscrowRelayerJob × List Taken :=
  match transitionEscrowJob job command with
  | .ok transition => (transition.job, [⟨command, job, transition.job⟩])
  | .error _ => (job, [])

end CalledIt.Relayer
