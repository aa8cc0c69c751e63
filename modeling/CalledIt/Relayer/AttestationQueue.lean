import CalledIt.Relayer.JobFencing
import CalledIt.Relayer.Workflows

/-!
# CalledIt.Relayer.AttestationQueue

The queue of attestations that are to be signed: the table `escrow_attestation_requests` and
the functions on it (`0026_escrow_release_blockers.sql`).

A function locks the row it works on, so the calls on one row take turns.  What is written is
checked by the table (`Checks`), and a row that fails the check raises.  The jobs of the
relayer, which a request is bound to, go their own way meanwhile.  A timestamp is a number of
microseconds.
-/

namespace CalledIt.Relayer

open Lib
open Indexer (EscrowChainState)
open Jobs (lower)

inductive AttestationOperationKind
  | freeze
  | unfreeze
  | invalidate
  | settle
  | void
  deriving DecidableEq, Repr

inductive AttestationRequestState
  | pending
  | leased
  | signed
  | enqueued
  | completed
  | failed
  deriving DecidableEq, Repr

/-- A row of `escrow_attestation_requests`; `ρ` holds the payloads. -/
structure AttestationRequest (ρ : Type) where
  requestKey : String
  operationKind : AttestationOperationKind
  state : AttestationRequestState
  cluster : String
  genesisHash : String
  programId : String
  custodyVersion : Int
  marketId : String
  marketPda : String
  documentHashHex : String
  oracleEpoch : Int
  eventEpoch : Int
  unsignedPayload : ρ
  unsignedPayloadHashHex : String
  signedPayload : Option ρ
  signedPayloadHashHex : Option String
  dueAt : Int
  debounceUntil : Int
  relayerJobId : Option String
  attempts : Nat
  maxAttempts : Nat
  leaseDurationMs : Nat
  leaseOwner : Option String
  leaseToken : Option String
  leasedAt : Option Int
  leaseExpiresAt : Option Int
  errorCode : Option String
  createdAt : Int
  updatedAt : Int
  signedAt : Option Int
  enqueuedAt : Option Int
  completedAt : Option Int
  failedAt : Option Int

structure EnqueueAttestationRequest (ρ : Type) where
  requestKey : String
  operationKind : AttestationOperationKind
  cluster : String
  genesisHash : String
  programId : String
  custodyVersion : Int
  marketId : String
  marketPda : String
  documentHashHex : String
  oracleEpoch : Int
  eventEpoch : Int
  unsignedPayload : ρ
  unsignedPayloadHashHex : String
  dueAt : Int
  debounceUntil : Int
  maxAttempts : Nat
  leaseMs : Nat
  now : Int

structure AttestationLease where
  requestKey : String
  workerId : String
  leaseToken : String
  deriving DecidableEq, Repr

inductive AttestationMutationResult
  | ok (duplicate : Bool) (state : AttestationRequestState)
  | rejected (code : String)
  deriving DecidableEq, Repr

/-- What the database raises. -/
inductive AttestationError
  | inputInvalid
  | idempotencyConflict
  | marketMissing
  | bindingMismatch
  | marketStateInvalid
  | leaseInputInvalid
  | checkViolation
  | uniqueViolation
  | notNullViolation
  deriving DecidableEq, Repr

def isCluster (cluster : String) : Bool :=
  cluster = "localnet" ∨ cluster = "devnet" ∨ cluster = "mainnet-beta"

/-- A row of `escrow_market_links`, with what its own checks say of it. -/
structure MarketLinkRow where
  custodyMode : String
  custodyVersion : Int
  cluster : String
  genesisHash : String
  programId : String
  marketPda : String
  documentHashHex : String
  oracleEpoch : Int
  eventEpoch : Int
  chainState : EscrowChainState
  finalized : Bool
  canonical : Bool
  projectionStale : Bool
  isCluster : isCluster cluster = true
  genesisHash_ne : genesisHash ≠ ""
  programId_ne : programId ≠ ""
  marketPda_ne : marketPda ≠ ""
  isHash : isHash documentHashHex = true
  oracleEpoch_nonneg : 0 ≤ oracleEpoch
  eventEpoch_nonneg : 0 ≤ eventEpoch

namespace Attestations

/-! ## the checks of the table -/

section

variable {ρ : Type}

/-- The columns of the lease are all there or all missing. -/
def LeaseWhole (row : AttestationRequest ρ) : Prop :=
  row.leaseOwner.isSome = row.leaseToken.isSome ∧ row.leaseOwner.isSome = row.leasedAt.isSome ∧
    row.leaseOwner.isSome = row.leaseExpiresAt.isSome

instance (row : AttestationRequest ρ) : Decidable (LeaseWhole row) :=
  inferInstanceAs (Decidable (_ ∧ _))

/-- What says of what deployment and market a row is. -/
def BindingChecks (row : AttestationRequest ρ) : Prop :=
  isCluster row.cluster ∧ row.genesisHash ≠ "" ∧ row.programId ≠ "" ∧ 0 < row.custodyVersion ∧
    row.marketPda ≠ "" ∧ isHash row.documentHashHex ∧ 0 ≤ row.oracleEpoch ∧ 0 ≤ row.eventEpoch

instance (row : AttestationRequest ρ) : Decidable (BindingChecks row) :=
  inferInstanceAs (Decidable (_ ∧ _))

/-- The columns of the signature are all there or all missing. -/
def SignedWhole (fits : ρ → Bool) (row : AttestationRequest ρ) : Prop :=
  row.signedPayload.isSome = row.signedPayloadHashHex.isSome ∧
    row.signedPayload.isSome = row.signedAt.isSome ∧ row.signedPayload.all fits ∧
    row.signedPayloadHashHex.all isHash

instance (fits : ρ → Bool) (row : AttestationRequest ρ) : Decidable (SignedWhole fits row) :=
  inferInstanceAs (Decidable (_ ∧ _))

def isErrorCode (code : String) : Bool := 1 ≤ code.length ∧ code.length ≤ 128

/-- The `CHECK` constraints.  A payload `fits` when it is an object, of at most 64 KiB, without
a member that names a secret. -/
structure Checks (fits : ρ → Bool) (row : AttestationRequest ρ) : Prop where
  requestKey : isHash row.requestKey
  binding : BindingChecks row
  unsigned : isHash row.unsignedPayloadHashHex ∧ fits row.unsignedPayload
  limits : 0 < row.maxAttempts ∧ 1000 ≤ row.leaseDurationMs ∧ row.leaseDurationMs ≤ 600000
  errorCode : row.errorCode.all isErrorCode
  signed : SignedWhole fits row
  lease : LeaseWhole row
  job : row.relayerJobId.isSome = row.enqueuedAt.isSome
  signedStates : row.state = .signed ∨ row.state = .enqueued ∨ row.state = .completed →
    row.signedPayload.isSome
  jobStates : row.state = .enqueued ∨ row.state = .completed → row.relayerJobId.isSome
  completed : row.state = .completed ↔ row.completedAt.isSome
  failed : row.state = .failed ↔ row.failedAt.isSome

theorem checks_iff (fits : ρ → Bool) (row : AttestationRequest ρ) :
    (isHash row.requestKey ∧ BindingChecks row ∧
      (isHash row.unsignedPayloadHashHex ∧ fits row.unsignedPayload) ∧
      (0 < row.maxAttempts ∧ 1000 ≤ row.leaseDurationMs ∧ row.leaseDurationMs ≤ 600000) ∧
      row.errorCode.all isErrorCode ∧ SignedWhole fits row ∧ LeaseWhole row ∧
      row.relayerJobId.isSome = row.enqueuedAt.isSome ∧
      (row.state = .signed ∨ row.state = .enqueued ∨ row.state = .completed →
        row.signedPayload.isSome) ∧
      (row.state = .enqueued ∨ row.state = .completed → row.relayerJobId.isSome) ∧
      (row.state = .completed ↔ row.completedAt.isSome) ∧
      (row.state = .failed ↔ row.failedAt.isSome)) ↔ Checks fits row :=
  ⟨fun ⟨a, b, c, d, e, f, g, h, i, j, k, l⟩ => ⟨a, b, c, d, e, f, g, h, i, j, k, l⟩,
    fun ⟨a, b, c, d, e, f, g, h, i, j, k, l⟩ => ⟨a, b, c, d, e, f, g, h, i, j, k, l⟩⟩

instance (fits : ρ → Bool) (row : AttestationRequest ρ) : Decidable (Checks fits row) :=
  decidable_of_iff _ (checks_iff fits row)

/-- A row as the table takes it. -/
def stored (fits : ρ → Bool) (row : AttestationRequest ρ) :
    Except AttestationError (AttestationRequest ρ) := do
  require (Checks fits row) AttestationError.checkViolation
  return row

/-! ## enqueue -/

/-- `v_debounce_until` is the argument, which is not null. -/
def InputValid (fits : ρ → Bool) (input : EnqueueAttestationRequest ρ) : Prop :=
  isHash input.requestKey ∧ 0 < input.custodyVersion ∧ 0 ≤ input.oracleEpoch ∧
    0 ≤ input.eventEpoch ∧ isHash input.unsignedPayloadHashHex ∧ fits input.unsignedPayload ∧
    0 < input.maxAttempts ∧ 1000 ≤ input.leaseMs ∧ input.leaseMs ≤ 600000

instance (fits : ρ → Bool) (input : EnqueueAttestationRequest ρ) :
    Decidable (InputValid fits input) :=
  inferInstanceAs (Decidable (_ ∧ _))

/-- The request is the one that the row was made for. -/
def SameRequest (row : AttestationRequest ρ) (input : EnqueueAttestationRequest ρ) : Prop :=
  row.operationKind = input.operationKind ∧ row.cluster = input.cluster ∧
    row.genesisHash = input.genesisHash ∧ row.programId = input.programId ∧
    row.custodyVersion = input.custodyVersion ∧ row.marketId = input.marketId ∧
    row.marketPda = input.marketPda ∧ lower row.documentHashHex = lower input.documentHashHex ∧
    row.oracleEpoch = input.oracleEpoch ∧ row.eventEpoch = input.eventEpoch ∧
    row.unsignedPayload = input.unsignedPayload ∧
    lower row.unsignedPayloadHashHex = lower input.unsignedPayloadHashHex ∧
    row.dueAt = input.dueAt ∧ row.debounceUntil = input.debounceUntil ∧
    row.maxAttempts = input.maxAttempts ∧ row.leaseDurationMs = input.leaseMs

instance [DecidableEq ρ] (row : AttestationRequest ρ) (input : EnqueueAttestationRequest ρ) :
    Decidable (SameRequest row input) :=
  inferInstanceAs (Decidable (_ ∧ _))

/-- Another row has the payload of the request. -/
def IsAlias (input : EnqueueAttestationRequest ρ) (row : AttestationRequest ρ) : Prop :=
  row.cluster = input.cluster ∧ row.programId = input.programId ∧ row.marketId = input.marketId ∧
    row.operationKind = input.operationKind ∧
    lower row.unsignedPayloadHashHex = lower input.unsignedPayloadHashHex

instance (input : EnqueueAttestationRequest ρ) (row : AttestationRequest ρ) :
    Decidable (IsAlias input row) :=
  inferInstanceAs (Decidable (_ ∧ _))

def Binds (link : MarketLinkRow) (input : EnqueueAttestationRequest ρ) : Prop :=
  link.custodyMode = "escrow" ∧ link.custodyVersion = input.custodyVersion ∧
    link.cluster = input.cluster ∧ link.genesisHash = input.genesisHash ∧
    link.programId = input.programId ∧ link.marketPda = input.marketPda ∧
    lower link.documentHashHex = lower input.documentHashHex ∧
    link.oracleEpoch = input.oracleEpoch ∧ link.eventEpoch = input.eventEpoch

instance (link : MarketLinkRow) (input : EnqueueAttestationRequest ρ) :
    Decidable (Binds link input) :=
  inferInstanceAs (Decidable (_ ∧ _))

def MarketLive (link : MarketLinkRow) : Prop :=
  link.finalized = true ∧ link.canonical = true ∧ link.projectionStale = false ∧
    (link.chainState = .open ∨ link.chainState = .frozen)

instance (link : MarketLinkRow) : Decidable (MarketLive link) :=
  inferInstanceAs (Decidable (_ ∧ _))

def created (input : EnqueueAttestationRequest ρ) : AttestationRequest ρ where
  requestKey := lower input.requestKey
  operationKind := input.operationKind
  state := .pending
  cluster := input.cluster
  genesisHash := input.genesisHash
  programId := input.programId
  custodyVersion := input.custodyVersion
  marketId := input.marketId
  marketPda := input.marketPda
  documentHashHex := lower input.documentHashHex
  oracleEpoch := input.oracleEpoch
  eventEpoch := input.eventEpoch
  unsignedPayload := input.unsignedPayload
  unsignedPayloadHashHex := lower input.unsignedPayloadHashHex
  signedPayload := none
  signedPayloadHashHex := none
  dueAt := input.dueAt
  debounceUntil := input.debounceUntil
  relayerJobId := none
  attempts := 0
  maxAttempts := input.maxAttempts
  leaseDurationMs := input.leaseMs
  leaseOwner := none
  leaseToken := none
  leasedAt := none
  leaseExpiresAt := none
  errorCode := none
  createdAt := input.now
  updatedAt := input.now
  signedAt := none
  enqueuedAt := none
  completedAt := none
  failedAt := none

/-- The key and the other columns that two rows must not share. -/
def Distinct (a b : AttestationRequest ρ) : Prop :=
  a.requestKey ≠ b.requestKey ∧
    ¬ (a.cluster = b.cluster ∧ a.programId = b.programId ∧ a.marketId = b.marketId ∧
      a.operationKind = b.operationKind ∧ a.unsignedPayloadHashHex = b.unsignedPayloadHashHex)

instance (a b : AttestationRequest ρ) : Decidable (Distinct a b) :=
  inferInstanceAs (Decidable (_ ∧ _))

def insertRow (fits : ρ → Bool) (rows : List (AttestationRequest ρ)) (row : AttestationRequest ρ) :
    Except AttestationError (List (AttestationRequest ρ)) := do
  require (∀ other ∈ rows, Distinct other row) AttestationError.uniqueViolation
  return rows ++ [← stored fits row]

def escrowAttestationEnqueue [DecidableEq ρ] (fits : ρ → Bool)
    (links : String → Option MarketLinkRow) (rows : List (AttestationRequest ρ))
    (input : EnqueueAttestationRequest ρ) :
    Except AttestationError (List (AttestationRequest ρ)) := do
  require (InputValid fits input) AttestationError.inputInvalid
  match rows.find? fun row => row.requestKey = lower input.requestKey with
  | some existing => do
      require (SameRequest existing input) AttestationError.idempotencyConflict
      return rows
  | none => do
      require (∀ row ∈ rows, ¬ IsAlias input row) AttestationError.idempotencyConflict
      let link ← okOr (links input.marketId) AttestationError.marketMissing
      require (Binds link input) AttestationError.bindingMismatch
      require (MarketLive link) AttestationError.marketStateInvalid
      insertRow fits rows (created input)

/-! ## lease -/

/-- The states that wait, and a lease that has run out. -/
def Ready (row : AttestationRequest ρ) (now : Int) : Prop :=
  row.debounceUntil ≤ now ∧
    (((row.state = .pending ∨ row.state = .signed ∨ row.state = .enqueued) ∧ row.dueAt ≤ now) ∨
      (row.state = .leased ∧ row.leaseExpiresAt.any (· ≤ now)))

instance (row : AttestationRequest ρ) (now : Int) : Decidable (Ready row now) :=
  inferInstanceAs (Decidable (_ ∧ _))

def Exhausted (row : AttestationRequest ρ) (now : Int) : Prop :=
  row.maxAttempts ≤ row.attempts ∧ Ready row now

instance (row : AttestationRequest ρ) (now : Int) : Decidable (Exhausted row now) :=
  inferInstanceAs (Decidable (_ ∧ _))

def Candidate (row : AttestationRequest ρ) (now : Int) : Prop :=
  row.attempts < row.maxAttempts ∧ Ready row now

instance (row : AttestationRequest ρ) (now : Int) : Decidable (Candidate row now) :=
  inferInstanceAs (Decidable (_ ∧ _))

def released (row : AttestationRequest ρ) : AttestationRequest ρ :=
  { row with leaseOwner := none, leaseToken := none, leasedAt := none, leaseExpiresAt := none }

def failed (errorCode : String) (now : Int) (row : AttestationRequest ρ) : AttestationRequest ρ :=
  { released row with
    state := .failed
    errorCode := some errorCode
    failedAt := some now
    updatedAt := now }

def leased (workerId token : String) (now : Int) (row : AttestationRequest ρ) :
    AttestationRequest ρ :=
  { row with
    state := .leased
    attempts := row.attempts + 1
    leaseOwner := some workerId
    leaseToken := some token
    leasedAt := some now
    leaseExpiresAt := some (now + row.leaseDurationMs * 1000)
    updatedAt := now }

/-- What the first update of a lease makes of a row. -/
def sweep (fits : ρ → Bool) (now : Int) (row : AttestationRequest ρ) :
    Except AttestationError (AttestationRequest ρ) :=
  if Exhausted row now then
    stored fits (failed (row.errorCode.getD "attempts_exhausted") now row)
  else .ok row

/-- The order of the candidates. -/
def before (a b : AttestationRequest ρ) : Bool :=
  let ready := fun row : AttestationRequest ρ => max row.dueAt row.debounceUntil
  ready a < ready b ∨ (ready a = ready b ∧
    (a.createdAt < b.createdAt ∨ (a.createdAt = b.createdAt ∧ a.requestKey ≤ b.requestKey)))

/-- The keys that a lease takes.  It skips the rows that another call has locked. -/
def chosen (now : Int) (limit : Nat) (locked : List String) (rows : List (AttestationRequest ρ)) :
    List String :=
  let candidates := rows.filter fun row => Candidate row now ∧ row.requestKey ∉ locked
  ((candidates.mergeSort before).take limit).map fun row => row.requestKey

def take (fits : ρ → Bool) (workerId : String) (tokenOf : String → String) (now : Int)
    (keys : List String) (row : AttestationRequest ρ) :
    Except AttestationError (AttestationRequest ρ) :=
  if row.requestKey ∈ keys then stored fits (leased workerId (tokenOf row.requestKey) now row)
  else .ok row

def LeaseInputValid (workerId : String) (limit : Nat) : Prop :=
  workerId ≠ "" ∧ workerId.length ≤ 128 ∧ 1 ≤ limit ∧ limit ≤ 100

instance (workerId : String) (limit : Nat) : Decidable (LeaseInputValid workerId limit) :=
  inferInstanceAs (Decidable (_ ∧ _))

/-- The rows that a lease leaves, and the keys that it has taken. -/
def escrowAttestationLease (fits : ρ → Bool) (workerId : String) (tokenOf : String → String)
    (now : Int) (limit : Nat) (locked : List String) (rows : List (AttestationRequest ρ)) :
    Except AttestationError (List (AttestationRequest ρ) × List String) := do
  require (LeaseInputValid workerId limit) AttestationError.leaseInputInvalid
  let swept ← rows.mapM (sweep fits now)
  let keys := chosen now limit locked swept
  return (← swept.mapM (take fits workerId tokenOf now keys), keys)

/-! ## the functions on a leased row -/

abbrev Answered (ρ : Type) := AttestationRequest ρ × AttestationMutationResult

/-- The row as it is, with a refusal. -/
def refuse (row : AttestationRequest ρ) (code : String) :
    Except AttestationError (Answered ρ) :=
  .ok (row, .rejected code)

def update (fits : ρ → Bool) (row : AttestationRequest ρ) (duplicate : Bool) :
    Except AttestationError (Answered ρ) := do
  let row ← stored fits row
  return (row, .ok duplicate row.state)

def leaseLost (row : AttestationRequest ρ) (lease : AttestationLease) (now : Int) : Bool :=
  row.leaseOwner ≠ some lease.workerId ∨ row.leaseToken ≠ some lease.leaseToken ∨
    row.leaseExpiresAt.any (· ≤ now)

def resigned (row : AttestationRequest ρ) (dueAt now : Int) : AttestationRequest ρ :=
  { row with state := .signed, dueAt := dueAt, updatedAt := now }

def signed (row : AttestationRequest ρ) (payload : ρ) (hash : String) (dueAt now : Int) :
    AttestationRequest ρ :=
  { row with
    state := .signed
    signedPayload := some payload
    signedPayloadHashHex := some (lower hash)
    signedAt := some now
    dueAt := dueAt
    errorCode := none
    updatedAt := now }

def escrowAttestationRecordSigned [DecidableEq ρ] (fits : ρ → Bool) (lease : AttestationLease)
    (now : Int) (payload : ρ) (hash : String) (row : AttestationRequest ρ) :
    Except AttestationError (Answered ρ) :=
  if leaseLost row lease now then refuse row "lease_lost"
  else if row.state ≠ .leased ∧ row.state ≠ .signed then refuse row "state_conflict"
  else if ¬ (isHash hash ∧ fits payload) then refuse row "payload_mismatch"
  else if row.signedPayload.isSome then
    if row.signedPayload ≠ some payload ∨
        row.signedPayloadHashHex.map lower ≠ some (lower hash) then
      refuse row "payload_mismatch"
    else do
      let dueAt ← okOr row.leaseExpiresAt AttestationError.notNullViolation
      update fits (resigned row dueAt now) true
  else do
    let dueAt ← okOr row.leaseExpiresAt AttestationError.notNullViolation
    update fits (signed row payload hash dueAt now) false

def escrowAttestationRelayerKind : AttestationOperationKind → RelayerJobKind
  | .freeze => .freeze
  | .unfreeze => .unfreeze
  | .invalidate => .positionInvalidation
  | .settle => .settlementSubmission
  | .void => .settlementSubmission

variable {π : Type}

/-- The job is of the deployment and the market of the request. -/
def JobBelongs (row : AttestationRequest ρ) (job : RelayerJob π) : Prop :=
  job.cluster = row.cluster ∧ job.programId = row.programId ∧ job.custodyMode = "escrow" ∧
    job.custodyVersion = row.custodyVersion ∧ job.marketId = some row.marketId

instance (row : AttestationRequest ρ) (job : RelayerJob π) : Decidable (JobBelongs row job) :=
  inferInstanceAs (Decidable (_ ∧ _))

def JobBinds (row : AttestationRequest ρ) (job : RelayerJob π) : Prop :=
  job.kind = escrowAttestationRelayerKind row.operationKind ∧ JobBelongs row job ∧
    job.state ≠ .dead

instance (row : AttestationRequest ρ) (job : RelayerJob π) : Decidable (JobBinds row job) :=
  inferInstanceAs (Decidable (_ ∧ _))

def requeued (row : AttestationRequest ρ) (nextCheckAt now : Int) : AttestationRequest ρ :=
  { row with state := .enqueued, dueAt := nextCheckAt, updatedAt := now }

def enqueued (row : AttestationRequest ρ) (jobId : String) (nextCheckAt now : Int) :
    AttestationRequest ρ :=
  { row with
    state := .enqueued
    relayerJobId := some jobId
    enqueuedAt := some now
    dueAt := nextCheckAt
    errorCode := none
    updatedAt := now }

def escrowAttestationMarkEnqueued (fits : ρ → Bool) (jobs : String → Option (RelayerJob π))
    (lease : AttestationLease) (now : Int) (jobId : String) (nextCheckAt : Int)
    (row : AttestationRequest ρ) : Except AttestationError (Answered ρ) :=
  if leaseLost row lease now then refuse row "lease_lost"
  else if (row.state ≠ .leased ∧ row.state ≠ .signed ∧ row.state ≠ .enqueued) ∨
      row.signedPayload.isNone ∨ nextCheckAt < now then
    refuse row "state_conflict"
  else if row.relayerJobId.isSome ∧ row.relayerJobId ≠ some jobId then
    refuse row "relayer_mismatch"
  else if ¬ (jobs jobId).any (JobBinds row ·) then refuse row "relayer_mismatch"
  else if row.relayerJobId = some jobId then update fits (requeued row nextCheckAt now) true
  else update fits (enqueued row jobId nextCheckAt now) false

def completed (row : AttestationRequest ρ) (now : Int) : AttestationRequest ρ :=
  { released row with
    state := .completed
    completedAt := some now
    errorCode := none
    updatedAt := now }

def escrowAttestationComplete (fits : ρ → Bool) (jobs : String → Option (RelayerJob π))
    (lease : AttestationLease) (now : Int) (row : AttestationRequest ρ) :
    Except AttestationError (Answered ρ) :=
  if leaseLost row lease now then refuse row "lease_lost"
  else if (row.state ≠ .leased ∧ row.state ≠ .enqueued) ∨ row.relayerJobId.isNone then
    refuse row "state_conflict"
  else if ¬ (row.relayerJobId.bind jobs).any
      (fun job => job.state = .complete ∧ JobBelongs row job) then
    refuse row "relayer_mismatch"
  else update fits (completed row now) false

/-- The state says which columns are filled. -/
def nextState (row : AttestationRequest ρ) : AttestationRequestState :=
  if row.relayerJobId.isSome then .enqueued
  else if row.signedPayload.isSome then .signed
  else .pending

def retried (row : AttestationRequest ρ) (errorCode : String) (retryAt now : Int) :
    AttestationRequest ρ :=
  { released row with
    state := nextState row
    dueAt := retryAt
    errorCode := some errorCode
    updatedAt := now }

def escrowAttestationRetry (fits : ρ → Bool) (lease : AttestationLease) (now : Int)
    (errorCode : String) (retryAt : Int) (row : AttestationRequest ρ) :
    Except AttestationError (Answered ρ) :=
  if leaseLost row lease now then refuse row "lease_lost"
  else if (row.state ≠ .leased ∧ row.state ≠ .signed ∧ row.state ≠ .enqueued) ∨
      ¬ isErrorCode errorCode ∨ retryAt < now then
    refuse row "state_conflict"
  else if row.maxAttempts ≤ row.attempts then update fits (failed errorCode now row) false
  else update fits (retried row errorCode retryAt now) false

end

/-! ## runs -/

section

variable {ρ π : Type}

/-- The table, the lease tokens that have been made, and the jobs of the relayer. -/
structure Table (ρ π : Type) where
  rows : List (AttestationRequest ρ)
  tokens : List String
  jobs : String → Option (RelayerJob π)

def Table.empty : Table ρ π := { rows := [], tokens := [], jobs := fun _ => none }

/-- `locked` are the keys of the rows that other calls hold when a lease goes by them. -/
inductive Call (ρ : Type)
  | enqueue (input : EnqueueAttestationRequest ρ)
  | lease (workerId : String) (now : Int) (limit : Nat) (locked : List String)
  | recordSigned (held : AttestationLease) (now : Int) (payload : ρ) (hash : String)
  | markEnqueued (held : AttestationLease) (now : Int) (jobId : String) (nextCheckAt : Int)
  | complete (held : AttestationLease) (now : Int)
  | retry (held : AttestationLease) (now : Int) (errorCode : String) (retryAt : Int)
  | relayer (id : String)

/-- The lease a call carries, and when. -/
def Call.carries : Call ρ → Option (AttestationLease × Int)
  | recordSigned held now _ _ => some (held, now)
  | markEnqueued held now _ _ => some (held, now)
  | complete held now => some (held, now)
  | retry held now _ _ => some (held, now)
  | enqueue _ | lease _ _ _ _ | relayer _ => none

/-- A function on the row that carries a lease. -/
def Call.answer [DecidableEq ρ] (fits : ρ → Bool) (jobs : String → Option (RelayerJob π)) :
    Call ρ → AttestationRequest ρ → Except AttestationError (Answered ρ)
  | recordSigned held now payload hash, row =>
      escrowAttestationRecordSigned fits held now payload hash row
  | markEnqueued held now jobId nextCheckAt, row =>
      escrowAttestationMarkEnqueued fits jobs held now jobId nextCheckAt row
  | complete held now, row => escrowAttestationComplete fits jobs held now row
  | retry held now errorCode retryAt, row =>
      escrowAttestationRetry fits held now errorCode retryAt row
  | enqueue _, row | lease _ _ _ _, row | relayer _, row => refuse row "request_not_found"

/-- What it leaves of the row; what it raises leaves the row as it was. -/
def Call.run [DecidableEq ρ] (fits : ρ → Bool) (jobs : String → Option (RelayerJob π))
    (call : Call ρ) (row : AttestationRequest ρ) : AttestationRequest ρ :=
  ((call.answer fits jobs row).toOption.map Prod.fst).getD row

variable [DecidableEq ρ] [DecidableEq π] (fits : ρ → Bool)

/-- A call on the table.  A lease makes tokens that were never made before, one for each row. -/
inductive Step : Table ρ π → Call ρ → Table ρ π → Prop
  | enqueued {table : Table ρ π} {input : EnqueueAttestationRequest ρ}
      {rows : List (AttestationRequest ρ)} (links : String → Option MarketLinkRow) :
      escrowAttestationEnqueue fits links table.rows input = .ok rows →
      Step table (.enqueue input) { table with rows := rows }
  | refused {table : Table ρ π} {input : EnqueueAttestationRequest ρ} {e : AttestationError}
      (links : String → Option MarketLinkRow) :
      escrowAttestationEnqueue fits links table.rows input = .error e →
      Step table (.enqueue input) table
  | leased {table : Table ρ π} {workerId : String} {now : Int} {limit : Nat}
      {locked : List String} {rows : List (AttestationRequest ρ)} {keys : List String}
      (tokenOf : String → String) : (∀ key, tokenOf key ∉ table.tokens) → Function.Injective tokenOf →
      escrowAttestationLease fits workerId tokenOf now limit locked table.rows =
        .ok (rows, keys) →
      Step table (.lease workerId now limit locked)
        { table with rows := rows, tokens := keys.map tokenOf ++ table.tokens }
  | idle {table : Table ρ π} {workerId : String} {now : Int} {limit : Nat}
      {locked : List String} {e : AttestationError} (tokenOf : String → String) :
      escrowAttestationLease fits workerId tokenOf now limit locked table.rows = .error e →
      Step table (.lease workerId now limit locked) table
  | called {table : Table ρ π} {held : AttestationLease} {now : Int} (call : Call ρ) :
      call.carries = some (held, now) →
      Step table call
        { table with
          rows := table.rows.map fun row =>
            if row.requestKey = lower held.requestKey then call.run fits table.jobs row else row }
  | relayer {table : Table ρ π} {id key : String} {tokens : List String} {call : Jobs.Call π}
      {after : Jobs.Slot π} : Jobs.Step key ⟨table.jobs id, tokens⟩ call after →
      (∀ job, after.row = some job → job.id = id) →
      Step table (.relayer id)
        { table with jobs := Function.update table.jobs id after.row }

abbrev Runs (table : Table ρ π) (calls : List (Call ρ)) (after : Table ρ π) : Prop :=
  Run (Step fits) table calls after

end

end Attestations

end CalledIt.Relayer
