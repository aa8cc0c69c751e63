import CalledIt.Lib.Trace
import CalledIt.Relayer.PlacementRelay

/-!
# CalledIt.Relayer.RelayerWorker

The relayer worker on a job that has its signed transaction
(`processPersisted` of `engine/src/escrow/relayer-worker.ts`), the job's row
(`0024_escrow.sql`, `0032_escrow_signed_retry.sql`) and the chain (`solana-rpc.ts`).

The chain goes on between the calls of the worker: blocks are produced and finalized, and a
transaction that was broadcast may land while its blockhash is valid.  A transaction is
signed over a finalized blockhash, so a blockhash that a commitment does not take is one
that it takes no longer.
-/

namespace CalledIt.Relayer

open Lib Lib.Program

/-! ## the row of a job -/

inductive RelayerJobKind
  | marketInitialization
  | freeze
  | unfreeze
  | positionPlacement
  | positionActivation
  | positionInvalidation
  | settlementSubmission
  | timeoutMonitoring
  | autoClaim
  | accountClose
  deriving DecidableEq, Repr

inductive RelayerJobState
  | pending
  | leased
  | signed
  | submitted
  | unknown
  | retryWait
  | complete
  | dead
  deriving DecidableEq, Repr

structure EscrowRelayerJobRow where
  id : String
  kind : RelayerJobKind
  state : RelayerJobState
  programId : String
  custodyMode : String
  marketId : Option String
  ownerPubkey : Option String
  payload : StoredPayload
  leaseOwner : Option String
  leaseToken : Option String
  leasedAt : Option String
  leaseExpiresAt : Option String
  rawTransactionBase64 : Option String
  expectedSignature : Option String
  transactionMessageHashHex : Option String
  lastValidBlockHeight : Option Nat
  fullHistoryCheckedAt : Option String
  submittedAt : Option String
  confirmedAt : Option String
  dueAt : String
  errorCode : Option String
  updatedAt : String
  completedAt : Option String
  deadAt : Option String

structure RelayerLease where
  workerId : String
  leaseToken : String
  deriving DecidableEq, Repr

inductive EscrowRelayerMutationResult
  | ok (duplicate : Bool) (state : RelayerJobState)
  | rejected (code : String)
  deriving DecidableEq, Repr

structure RetryRelayerJob where
  lease : RelayerLease
  errorCode : String
  retryAtIso : String
  confirmationUnknown : Bool
  fullHistoryCheckedAtIso : Option String
  currentBlockHeight : Option Nat
  nowIso : String

namespace EscrowRelayerJobRow

def holds (job : EscrowRelayerJobRow) (lease : RelayerLease) : Bool :=
  job.leaseOwner = some lease.workerId ∧ job.leaseToken = some lease.leaseToken

def released (job : EscrowRelayerJobRow) : EscrowRelayerJobRow :=
  { job with leaseOwner := none, leaseToken := none, leasedAt := none, leaseExpiresAt := none }

end EscrowRelayerJobRow

/-- A row after a mutation, and the mutation's answer. -/
abbrev Mutated := Option EscrowRelayerJobRow × EscrowRelayerMutationResult

def escrowRelayerRetry (row : Option EscrowRelayerJobRow) (input : RetryRelayerJob) : Mutated :=
  match row with
  | none => (row, .rejected "job_not_found")
  | some job =>
      if !job.holds input.lease then (row, .rejected "lease_lost")
      else if job.state ≠ .leased ∧ job.state ≠ .signed then (row, .rejected "state_conflict")
      else if input.confirmationUnknown then
        (some { job.released with
          state := .unknown
          dueAt := input.retryAtIso
          errorCode := some input.errorCode
          updatedAt := input.nowIso }, .ok false .unknown)
      else if job.rawTransactionBase64.isSome ∧ (input.fullHistoryCheckedAtIso = none ∨
          input.currentBlockHeight = none ∨
          input.currentBlockHeight.any fun height => job.lastValidBlockHeight.any (height ≤ ·)) then
        (row, .rejected "state_conflict")
      else
        (some { job.released with
          state := .retryWait
          dueAt := input.retryAtIso
          errorCode := some input.errorCode
          fullHistoryCheckedAt := input.fullHistoryCheckedAtIso
          rawTransactionBase64 := none
          expectedSignature := none
          transactionMessageHashHex := none
          lastValidBlockHeight := none
          submittedAt := none
          updatedAt := input.nowIso }, .ok false .retryWait)

def escrowRelayerComplete (row : Option EscrowRelayerJobRow) (lease : RelayerLease)
    (nowIso : String) : Mutated :=
  match row with
  | none => (row, .rejected "job_not_found")
  | some job =>
      if job.state = .complete then (row, .ok true .complete)
      else if !job.holds lease then (row, .rejected "lease_lost")
      else
        (some { job.released with
          state := .complete
          confirmedAt := job.confirmedAt.orElse fun _ => some nowIso
          completedAt := some nowIso
          errorCode := none
          updatedAt := nowIso }, .ok false .complete)

def escrowRelayerDeadLetter (row : Option EscrowRelayerJobRow) (lease : RelayerLease)
    (errorCode nowIso : String) : Mutated :=
  match row with
  | none => (row, .rejected "job_not_found")
  | some job =>
      if job.state = .dead then (row, .ok true .dead)
      else if !job.holds lease then (row, .rejected "lease_lost")
      else
        (some { job.released with
          state := .dead
          deadAt := some nowIso
          errorCode := some errorCode
          updatedAt := nowIso }, .ok false .dead)

/-! ## the chain -/

/-- A transaction in the ledger: the block that has it, and whether it failed there. -/
structure Landing where
  slot : Nat
  height : Nat
  failed : Bool
  deriving DecidableEq, Repr

structure Chain where
  genesisHash : String
  /-- The height of the newest block. -/
  tip : Nat
  finalized : Nat
  lastValidBlockHeight : String → Option Nat
  broadcast : List String
  /-- What has landed, by signature. -/
  landed : String → Option Landing

/-- The blockhash is taken in a block at the height. -/
def Chain.isValid (chain : Chain) (blockhash : String) (height : Nat) : Bool :=
  (chain.lastValidBlockHeight blockhash).any (height ≤ ·)

/-- What the chain does on its own. -/
inductive Chain.Step (web3 : Web3) : Chain → Chain → Prop
  | block (chain : Chain) : Chain.Step web3 chain { chain with tip := chain.tip + 1 }
  | finalize {chain : Chain} : chain.finalized < chain.tip →
      Chain.Step web3 chain { chain with finalized := chain.finalized + 1 }
  | land {chain : Chain} {raw signature : String} {transaction : VersionedTransaction}
      (slot : Nat) (failed : Bool) : raw ∈ chain.broadcast →
      web3.deserialize raw = some transaction → web3.signatureOf transaction = some signature →
      chain.isValid transaction.recentBlockhash chain.tip → chain.landed signature = none →
      Chain.Step web3 chain
        { chain with
          landed := Function.update chain.landed signature (some ⟨slot, chain.tip, failed⟩) }

abbrev Chain.Steps (web3 : Web3) : Chain → Chain → Prop := Relation.ReflTransGen (Chain.Step web3)

inductive EscrowRelaySignatureState
  | absent
  | confirmed (slot : Nat)
  | finalized (slot : Nat)
  | failed (errorCode : String)
  deriving DecidableEq, Repr

/-- A transaction is seen as soon as it has landed. -/
def Chain.signatureState (chain : Chain) (signature : String) : EscrowRelaySignatureState :=
  match chain.landed signature with
  | none => .absent
  | some landing =>
      if landing.failed then .failed "transaction_failed"
      else if landing.height ≤ chain.finalized then .finalized landing.slot
      else .confirmed landing.slot

/-! ## calls -/

inductive FinalizedEffect
  | confirmed
  | pending
  | mismatch
  deriving DecidableEq, Repr

inductive RelayerCall
  | signatureState (signature : String)
  | confirm (signature : String) (slot : Nat)
  | isBlockhashValid (blockhash : String)
  | blockHeight
  | genesisHash
  | positionPlacementReadiness
  | broadcast (rawTransactionBase64 : String)
  | retryRelayerJob (input : RetryRelayerJob)
  | completeRelayerJob (lease : RelayerLease) (nowIso : String)
  | deadLetterRelayerJob (lease : RelayerLease) (errorCode nowIso : String)

abbrev RelayerCall.Answer : RelayerCall → Type
  | signatureState _ => EscrowRelaySignatureState
  | confirm _ _ => FinalizedEffect
  | isBlockhashValid _ => Bool
  | blockHeight => Nat
  | genesisHash => String
  | positionPlacementReadiness => Bool
  | broadcast _ => String
  | retryRelayerJob _ => EscrowRelayerMutationResult
  | completeRelayerJob _ _ => EscrowRelayerMutationResult
  | deadLetterRelayerJob _ _ _ => EscrowRelayerMutationResult

/-- A call is answered or throws. -/
abbrev RelayerCall.Reply (call : RelayerCall) : Type := Option call.Answer

structure World where
  chain : Chain
  row : Option EscrowRelayerJobRow

def World.mutated (world : World) (mutation : Mutated) : World := { world with row := mutation.1 }

/-- What an answered call reads and does.  Answers of the node to a broadcast, of a verifier and
of the readiness report are any. -/
def Answers : (call : RelayerCall) → World → call.Answer → World → Prop
  | .signatureState signature, world, answer, after =>
      answer = world.chain.signatureState signature ∧ after = world
  | .confirm _ _, world, _, after => after = world
  | .isBlockhashValid blockhash, world, answer, after =>
      answer = world.chain.isValid blockhash world.chain.finalized ∧ after = world
  | .blockHeight, world, answer, after => answer = world.chain.finalized ∧ after = world
  | .genesisHash, world, answer, after => answer = world.chain.genesisHash ∧ after = world
  | .positionPlacementReadiness, world, _, after => after = world
  | .broadcast raw, world, _, after =>
      after = { world with
        chain := { world.chain with broadcast := raw :: world.chain.broadcast } }
  | .retryRelayerJob input, world, answer, after =>
      answer = (escrowRelayerRetry world.row input).2 ∧
        after = world.mutated (escrowRelayerRetry world.row input)
  | .completeRelayerJob lease nowIso, world, answer, after =>
      answer = (escrowRelayerComplete world.row lease nowIso).2 ∧
        after = world.mutated (escrowRelayerComplete world.row lease nowIso)
  | .deadLetterRelayerJob lease errorCode nowIso, world, answer, after =>
      answer = (escrowRelayerDeadLetter world.row lease errorCode nowIso).2 ∧
        after = world.mutated (escrowRelayerDeadLetter world.row lease errorCode nowIso)

/-- A call that throws may have had its effect. -/
def Exec (call : RelayerCall) (world : World) : call.Reply → World → Prop
  | some answer, after => Answers call world answer after
  | none, after => after = world ∨ ∃ answer, Answers call world answer after

/-- Between two calls the chain goes on, and others may write the row. -/
def Others (web3 : Web3) (world after : World) : Prop :=
  Chain.Steps web3 world.chain after.chain

/-! ## the worker -/

abbrev Relaying := ExceptT RelayError (Program RelayerCall RelayerCall.Reply)

def ask (call : RelayerCall) : Relaying call.Answer := do
  match ← (perform call : Program RelayerCall RelayerCall.Reply call.Reply) with
  | some answer => return answer
  | none => throw .remote

inductive EscrowRelayerRunResult
  | retrying (jobId signature : String)
  | complete (jobId signature : String)
  | terminal (jobId errorCode : String)
  deriving DecidableEq, Repr

structure RelayerOptions where
  web3 : Web3
  retryAt : String → String
  /-- Whether there is a finality verifier for the kind. -/
  verifies : RelayerJobKind → Bool

def placementRelayPayload (job : EscrowRelayerJobRow) : Option EscrowPlacementRelayPayload :=
  if job.kind ≠ .positionPlacement then none else payloadSchema job.payload

section Worker

variable (options : RelayerOptions) (job : EscrowRelayerJobRow) (nowIso : String)

def lease : Except RelayError RelayerLease := do
  require (job.custodyMode = "escrow") (.worker .invalidJob)
  let workerId ← okOr job.leaseOwner (.worker .invalidJob)
  let leaseToken ← okOr job.leaseToken (.worker .invalidJob)
  return { workerId, leaseToken }

def requireMutation : EscrowRelayerMutationResult → Except RelayError Unit
  | .ok _ _ => .ok ()
  | .rejected _ => .error (.worker .transitionRejected)

def unixTimestamp : Except RelayError Int := do
  return (← okOr (options.web3.dateParse nowIso) (.worker .invalidJob)) / 1000

def retryUnknown (errorCode : String) : Relaying Unit := do
  let lease ← lease job
  let result ← ask (.retryRelayerJob {
    lease
    errorCode
    retryAtIso := options.retryAt nowIso
    confirmationUnknown := true
    fullHistoryCheckedAtIso := none
    currentBlockHeight := none
    nowIso })
  requireMutation result

def dead (errorCode : String) : Relaying EscrowRelayerRunResult := do
  let lease ← lease job
  let result ← ask (.deadLetterRelayerJob lease errorCode nowIso)
  requireMutation result
  return .terminal job.id errorCode

def complete (signature : String) : Relaying EscrowRelayerRunResult := do
  let lease ← lease job
  let result ← ask (.completeRelayerJob lease nowIso)
  requireMutation result
  return .complete job.id signature

/-- The transaction did not land, as far as the worker knows: the job is signed again. -/
def retryExpired (currentBlockHeight : Nat) : Relaying Unit := do
  let lease ← lease job
  let result ← ask (.retryRelayerJob {
    lease
    errorCode := "expired_not_landed"
    retryAtIso := options.retryAt nowIso
    confirmationUnknown := false
    fullHistoryCheckedAtIso := some nowIso
    currentBlockHeight := some currentBlockHeight
    nowIso })
  requireMutation result

def placementBroadcastReady : Relaying Bool :=
  if job.kind ≠ .positionPlacement then return true else ask .positionPlacementReadiness

def recentBlockhash (rawTransactionBase64 : String) : Except RelayError String := do
  let transaction ← okOr (options.web3.deserialize rawTransactionBase64) (.worker .invalidJob)
  return transaction.recentBlockhash

def requireIdentity (payload : EscrowPlacementRelayPayload) : Except RelayError Unit := do
  require (job.programId = payload.programId ∧ job.marketId = some payload.marketId ∧
    job.ownerPubkey = some payload.ownerPubkey) (.type "placement relay identity mismatch")
  let address ← okOr (options.web3.marketAddress payload.programId payload.marketId) .library
  require (address = payload.marketPda) (.type "placement relay identity mismatch")

def verifyPlacementRelayTransaction (payload : EscrowPlacementRelayPayload) : Relaying Unit := do
  let nowUnix ← unixTimestamp options nowIso
  requireIdentity options job payload
  let verified ← inspectUserSignedTransaction options.web3 payload.rawTransactionBase64
    payload.transactionMessageHashHex payload.feePayer payload.ownerPubkey
  require (verified.expectedSignature = payload.expectedSignature ∧
    verified.recentBlockhash = payload.recentBlockhash)
    (RelayError.type "placement relay signed identity mismatch")
  let transaction ← okOr (options.web3.deserialize payload.rawTransactionBase64) RelayError.library
  let currentBlockHeight ← ask .blockHeight
  let observedGenesisHash ← ask .genesisHash
  verifySponsoredPositionTransaction options.web3 transaction
    (payload.options currentBlockHeight observedGenesisHash nowUnix)

/-- The transaction is sent once more, unless the deployment is not ready. -/
def rebroadcast (raw signature : String) : Relaying EscrowRelayerRunResult := do
  if !(← placementBroadcastReady job) then
    retryUnknown options job nowIso "deployment_not_ready"
    return .retrying job.id signature
  let observed ← ExceptT.lift (ask (.broadcast raw)).run
  match observed with
  | .ok observed =>
      if observed ≠ signature then
        return ← dead job nowIso "signature_mismatch"
  | .error _ => pure ()
  retryUnknown options job nowIso "confirmation_unknown"
  return .retrying job.id signature

/-- The blockhash is still taken. -/
def processValid (raw signature : String) : Relaying EscrowRelayerRunResult := do
  match placementRelayPayload job with
  | some payload =>
      if payload.rawTransactionBase64 ≠ raw ∨ payload.expectedSignature ≠ signature then
        dead job nowIso "signed_payload_mismatch"
      else
        match ← ExceptT.lift (verifyPlacementRelayTransaction options job nowIso payload).run with
        | .error _ => dead job nowIso "user_signature_invalid_or_expired"
        | .ok _ => rebroadcast options job nowIso raw signature
  | none => rebroadcast options job nowIso raw signature

/-- The blockhash is taken no longer, at the height that was read. -/
def processHeight (signature : String) (lastValidBlockHeight currentBlockHeight : Nat) :
    Relaying EscrowRelayerRunResult := do
  if (placementRelayPayload job).isSome then
    dead job nowIso "user_signature_expired"
  else if currentBlockHeight ≤ lastValidBlockHeight then
    retryUnknown options job nowIso "blockhash_validity_uncertain"
    return .retrying job.id signature
  else
    retryExpired options job nowIso currentBlockHeight
    return .retrying job.id signature

def processInvalid (signature : String) (lastValidBlockHeight : Nat) :
    Relaying EscrowRelayerRunResult := do
  processHeight options job nowIso signature lastValidBlockHeight (← ask .blockHeight)

def processAbsent (raw signature : String) (lastValidBlockHeight : Nat) :
    Relaying EscrowRelayerRunResult := do
  let blockhash ← recentBlockhash options raw
  if ← ask (.isBlockhashValid blockhash) then
    processValid options job nowIso raw signature
  else
    processInvalid options job nowIso signature lastValidBlockHeight

def processFinalized (signature : String) (slot : Nat) : Relaying EscrowRelayerRunResult := do
  if options.verifies job.kind then
    match ← ask (.confirm signature slot) with
    | .pending =>
        retryUnknown options job nowIso "finalized_effect_pending"
        return .retrying job.id signature
    | .mismatch => dead job nowIso "finalized_effect_mismatch"
    | .confirmed => complete job nowIso signature
  else
    complete job nowIso signature

/-- What is done, once it is known whether the transaction has landed. -/
def processState (raw signature : String) (lastValidBlockHeight : Nat) :
    EscrowRelaySignatureState → Relaying EscrowRelayerRunResult
  | .finalized slot => processFinalized options job nowIso signature slot
  | .failed errorCode => dead job nowIso errorCode
  | .confirmed _ => do
      retryUnknown options job nowIso "awaiting_finality"
      return .retrying job.id signature
  | .absent => processAbsent options job nowIso raw signature lastValidBlockHeight

def processPersisted : Relaying EscrowRelayerRunResult := do
  let raw ← okOr job.rawTransactionBase64 (RelayError.worker .invalidJob)
  let signature ← okOr job.expectedSignature (RelayError.worker .invalidJob)
  let lastValidBlockHeight ← okOr job.lastValidBlockHeight (RelayError.worker .invalidJob)
  processState options job nowIso raw signature lastValidBlockHeight
    (← ask (.signatureState signature))

end Worker

end CalledIt.Relayer
