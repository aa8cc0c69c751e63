import CalledIt.Relayer.JobState

/-!
# CalledIt.Relayer.Lifecycle

The rules of a relayer job's life, over all sequences of commands.

`Coherent` couples the status of a job with its lease, its transaction and its
confirmation; every command keeps it.  A prepared transaction goes away only where it
was shown expired and not landed.  The exception to that is a job that is given up:
`dead_letter` does not look at the transaction (`tracked_of_reconciled`).
-/

namespace CalledIt.Relayer

open Lib

/-! ## what a command can change -/

/-- The job is put off. -/
def EscrowRelayerJob.postponed (job : EscrowRelayerJob) (retry : RetryFields) : EscrowRelayerJob :=
  { job with
    status := .retryWait
    lease := none
    nextAttemptAtMs := some retry.nextAttemptAtMs
    errorCode := some retry.errorCode }

/-- A command that changes the job, with what it has found. -/
inductive Moves (job : EscrowRelayerJob) : EscrowJobCommand → EscrowRelayerJob → Prop
  | lease {workerId leaseToken : String} {nowMs : Int}
      (status : job.status = .pending ∨ job.status = .retryWait)
      (attempts : job.attempts < job.maxAttempts) :
      Moves job (.lease workerId leaseToken nowMs)
        { job with
          status := .leased
          attempts := job.attempts + 1
          lease := some ⟨workerId, leaseToken⟩
          nextAttemptAtMs := none
          errorCode := none }
  | prepareTransaction {transaction : EscrowPreparedTransaction} (status : job.status = .leased)
      (unprepared : job.transaction = none) :
      Moves job (.prepareTransaction transaction) { job with transaction := some transaction }
  | recordBroadcast {transaction : EscrowPreparedTransaction} (status : job.status = .leased)
      (prepared : job.transaction = some transaction) :
      Moves job (.recordBroadcast transaction.expectedSignature) { job with status := .broadcast }
  | recordConfirmation {transaction : EscrowPreparedTransaction} {slot : Int}
      (status : job.status = .leased ∨ job.status = .broadcast ∨ job.status = .retryWait)
      (prepared : job.transaction = some transaction) :
      Moves job (.recordConfirmation transaction.expectedSignature slot)
        { job with
          status := .confirmed
          lease := none
          confirmation := some ⟨transaction.expectedSignature, slot⟩
          nextAttemptAtMs := none
          errorCode := none }
  | scheduleRebroadcast {transaction : EscrowPreparedTransaction} {currentBlockHeight : Int}
      {retry : RetryFields} (status : job.status = .leased ∨ job.status = .broadcast)
      (prepared : job.transaction = some transaction) :
      Moves job (.scheduleRebroadcast currentBlockHeight retry) (job.postponed retry)
  | scheduleResign {transaction : EscrowPreparedTransaction} {currentBlockHeight : Int}
      {retry : RetryFields}
      (status : job.status = .leased ∨ job.status = .broadcast ∨ job.status = .retryWait)
      (prepared : job.transaction = some transaction)
      (expired : transaction.lastValidBlockHeight < currentBlockHeight) :
      Moves job (.scheduleResign currentBlockHeight true false retry)
        ({ job with transaction := none }.postponed retry)
  | scheduleRetryWithoutTransaction {retry : RetryFields} (status : job.status = .leased)
      (unprepared : job.transaction = none) :
      Moves job (.scheduleRetryWithoutTransaction retry) (job.postponed retry)
  | deadLetter {errorCode : String}
      (status : job.status ≠ .confirmed ∧ job.status ≠ .deadLetter)
      (attempts : job.maxAttempts ≤ job.attempts) :
      Moves job (.deadLetter errorCode)
        { job with
          status := .deadLetter
          lease := none
          nextAttemptAtMs := none
          errorCode := some errorCode }

variable {job : EscrowRelayerJob} {transition : Transition}

theorem retryFields_ok {retry : RetryFields}
    (h : retryFields job retry = .ok transition) : transition = ⟨true, job.postponed retry⟩ := by
  unfold retryFields at h
  split at h
  · cases h
  · exact (Except.ok.inj h).symm

/-- A resign is scheduled on evidence only. -/
theorem scheduleResign_ok {currentBlockHeight : Int} {fullHistoryChecked transactionLanded : Bool}
    {retry : RetryFields}
    (h : scheduleResign job currentBlockHeight fullHistoryChecked transactionLanded retry =
      .ok transition) :
    ∃ transaction, job.transaction = some transaction ∧ fullHistoryChecked = true ∧
      transactionLanded = false ∧ transaction.lastValidBlockHeight < currentBlockHeight ∧
      (job.status = .leased ∨ job.status = .broadcast ∨ job.status = .retryWait) ∧
      transition = ⟨true, { job with transaction := none }.postponed retry⟩ := by
  unfold scheduleResign at h
  cases hprepared : job.transaction with
  | none =>
      simp only [hprepared] at h
      split_ifs at h
  | some transaction =>
      simp only [hprepared] at h
      split_ifs at h with h₁ h₂ h₃ h₄
      exact ⟨transaction, rfl, by simpa using h₃, by simpa using h₄, by omega, by tauto,
        retryFields_ok h⟩

variable {command : EscrowJobCommand}

/-- A command that is taken changes nothing, or moves the job. -/
theorem transition_cases (h : transitionEscrowJob job command = .ok transition) :
    transition = ⟨false, job⟩ ∨ transition.changed = true ∧ Moves job command transition.job := by
  cases command with
  | lease workerId leaseToken nowMs =>
      simp only [transitionEscrowJob, leaseJob] at h
      split_ifs at h with h₁ h₂ h₃ h₄ h₅
      · exact .inl (Except.ok.inj h).symm
      · obtain rfl := Except.ok.inj h
        exact .inr ⟨rfl, .lease (by tauto) (by omega)⟩
  | prepareTransaction transaction =>
      simp only [transitionEscrowJob, prepareTransaction] at h
      cases hprepared : job.transaction with
      | some prepared =>
          simp only [hprepared] at h
          split_ifs at h
          exact .inl (Except.ok.inj h).symm
      | none =>
          simp only [hprepared] at h
          split_ifs at h with h₁ h₂
          obtain rfl := Except.ok.inj h
          exact .inr ⟨rfl, .prepareTransaction (by simpa using h₁) hprepared⟩
  | recordBroadcast observedSignature =>
      simp only [transitionEscrowJob, recordBroadcast] at h
      cases hprepared : job.transaction with
      | none =>
          simp only [hprepared] at h
          split_ifs at h
      | some transaction =>
          simp only [hprepared] at h
          split_ifs at h with h₁ h₂ h₃
          · exact .inl (Except.ok.inj h).symm
          · obtain rfl := Except.ok.inj h
            obtain rfl : observedSignature = transaction.expectedSignature := by simpa using h₂
            rw [← hprepared]
            exact .inr ⟨rfl, .recordBroadcast (by tauto) hprepared⟩
  | recordConfirmation signature slot =>
      simp only [transitionEscrowJob, recordConfirmation] at h
      cases hprepared : job.transaction with
      | none =>
          simp only [hprepared] at h
          split_ifs at h
          exact .inl (Except.ok.inj h).symm
      | some transaction =>
          simp only [hprepared] at h
          split_ifs at h with h₁ h₂ h₃ h₄ h₅
          · exact .inl (Except.ok.inj h).symm
          · obtain rfl := Except.ok.inj h
            obtain rfl : signature = transaction.expectedSignature := by simpa using h₅
            rw [← hprepared]
            exact .inr ⟨rfl, .recordConfirmation (by tauto) hprepared⟩
  | scheduleRebroadcast currentBlockHeight retry =>
      simp only [transitionEscrowJob, scheduleRebroadcast] at h
      cases hprepared : job.transaction with
      | none =>
          simp only [hprepared] at h
          split_ifs at h
      | some transaction =>
          simp only [hprepared] at h
          split_ifs at h with h₁
          obtain rfl := retryFields_ok h
          exact .inr ⟨rfl, .scheduleRebroadcast (by tauto) hprepared⟩
  | scheduleResign currentBlockHeight fullHistoryChecked transactionLanded retry =>
      obtain ⟨transaction, hprepared, rfl, rfl, hexpired, hstatus, rfl⟩ := scheduleResign_ok h
      exact .inr ⟨rfl, .scheduleResign hstatus hprepared hexpired⟩
  | scheduleRetryWithoutTransaction retry =>
      simp only [transitionEscrowJob, scheduleRetryWithoutTransaction] at h
      split_ifs at h with h₁ h₂
      obtain rfl := retryFields_ok h
      exact .inr ⟨rfl, .scheduleRetryWithoutTransaction (by simpa using h₁) (by simpa using h₂)⟩
  | deadLetter errorCode =>
      simp only [transitionEscrowJob, deadLetterJob] at h
      split_ifs at h with h₁ h₂ h₃
      obtain rfl := Except.ok.inj h
      exact .inr ⟨rfl, .deadLetter (by tauto) (by omega)⟩

/-! ## the invariant -/

/-- The status of a job goes with its lease, its transaction and its confirmation. -/
structure Coherent (job : EscrowRelayerJob) : Prop where
  attempts : job.attempts ≤ job.maxAttempts
  lease : job.lease.isSome = true ↔ job.status = .leased ∨ job.status = .broadcast
  prepared : job.status = .broadcast ∨ job.status = .confirmed → job.transaction.isSome = true
  confirmation : job.confirmation.isSome = true ↔ job.status = .confirmed
  signature : ∀ confirmation ∈ job.confirmation,
    job.transaction.map (·.expectedSignature) = some confirmation.signature

theorem coherent_createEscrowJob {identity : EscrowRelayerJobIdentity} {maxAttempts : Int}
    (h : createEscrowJob identity maxAttempts = some job) :
    Coherent job := by
  unfold createEscrowJob at h
  split at h
  · obtain ⟨key, -, hjob⟩ := Option.bind_eq_some_iff.mp h
    obtain rfl := Option.some.inj hjob
    constructor <;> simp
  · cases h

/-- Before the confirmation there is none. -/
theorem Coherent.unconfirmed (h : Coherent job)
    (hstatus : job.status ≠ .confirmed) : job.confirmation = none := by
  by_contra hsome
  exact hstatus (h.confirmation.mp (Option.isSome_iff_ne_none.mpr hsome))

theorem Coherent.postponed (h : Coherent job) (hstatus : job.status ≠ .confirmed)
    (retry : RetryFields) : Coherent (job.postponed retry) := by
  have hnone := h.unconfirmed hstatus
  constructor <;> simp [EscrowRelayerJob.postponed, hnone, h.attempts]

theorem Coherent.moves {next : EscrowRelayerJob} (h : Coherent job)
    (hmoves : Moves job command next) : Coherent next := by
  cases hmoves with
  | lease status attempts =>
      have hnone := h.unconfirmed (by rcases status with h | h <;> simp [h])
      constructor <;> simp [hnone]
      omega
  | prepareTransaction status unprepared =>
      have hnone := h.unconfirmed (by simp [status])
      have hlease := h.lease
      constructor <;> simp_all [h.attempts]
  | recordBroadcast status prepared =>
      have hnone := h.unconfirmed (by simp [status])
      have hlease := h.lease.mpr (.inl status)
      constructor <;> simp [hnone, hlease, prepared, h.attempts]
  | recordConfirmation status prepared => constructor <;> simp [prepared, h.attempts]
  | scheduleRebroadcast status prepared =>
      exact h.postponed (by rcases status with h | h <;> simp [h]) _
  | scheduleResign status prepared expired =>
      have hnone := h.unconfirmed (by rcases status with h | h | h <;> simp [h])
      constructor <;> simp [EscrowRelayerJob.postponed, hnone, h.attempts]
  | scheduleRetryWithoutTransaction status unprepared => exact h.postponed (by simp [status]) _
  | deadLetter status attempts =>
      have hnone := h.unconfirmed status.1
      constructor <;> simp [hnone, h.attempts]

/-! ## steps -/

theorem jobStep_cases (job : EscrowRelayerJob) (command : EscrowJobCommand) :
    (jobStep job command).1 = job ∨ Moves job command (jobStep job command).1 := by
  unfold jobStep
  cases h : transitionEscrowJob job command with
  | error code => exact .inl rfl
  | ok transition =>
      obtain rfl | ⟨-, hmoves⟩ := transition_cases h
      · exact .inl rfl
      · exact .inr hmoves

theorem Coherent.step (h : Coherent job) (command : EscrowJobCommand) :
    Coherent (jobStep job command).1 := by
  obtain hsame | hmoves := jobStep_cases job command
  · rw [hsame]
    exact h
  · exact h.moves hmoves

/-- The job is tried once more by a lease, and by nothing else. -/
theorem attempts_jobStep (job : EscrowRelayerJob) (command : EscrowJobCommand) :
    (jobStep job command).1.attempts = job.attempts ∨
      (jobStep job command).1.attempts = job.attempts + 1 ∧
        ∃ workerId leaseToken nowMs, command = .lease workerId leaseToken nowMs ∧
          Moves job command (jobStep job command).1 := by
  obtain hsame | hmoves := jobStep_cases job command
  · exact .inl (congrArg _ hsame)
  · generalize (jobStep job command).1 = next at hmoves
    cases hmoves with
    | lease status attempts => exact .inr ⟨rfl, _, _, _, rfl, .lease status attempts⟩
    | _ => exact .inl rfl

/-- The transaction was shown expired and not landed. -/
def Expired (transaction : EscrowPreparedTransaction) (command : EscrowJobCommand) : Prop :=
  ∃ currentBlockHeight retry, command = .scheduleResign currentBlockHeight true false retry ∧
    transaction.lastValidBlockHeight < currentBlockHeight

variable {transaction : EscrowPreparedTransaction}

theorem transaction_jobStep (hprepared : job.transaction = some transaction)
    (command : EscrowJobCommand) :
    (jobStep job command).1.transaction = some transaction ∨
      (jobStep job command).1.transaction = none ∧ Expired transaction command := by
  obtain hsame | hmoves := jobStep_cases job command
  · exact .inl ((congrArg _ hsame).trans hprepared)
  · generalize (jobStep job command).1 = next at hmoves
    cases hmoves with
    | prepareTransaction status unprepared =>
        rw [hprepared] at unprepared
        cases unprepared
    | scheduleResign status prepared expired =>
        obtain rfl := Option.some.inj (hprepared.symm.trans prepared)
        exact .inr ⟨rfl, _, _, rfl, expired⟩
    | _ => exact .inl hprepared

def EscrowRelayerJobStatus.isTerminal (status : EscrowRelayerJobStatus) : Bool :=
  status = .confirmed ∨ status = .deadLetter

theorem jobStep_of_terminal (h : job.status.isTerminal = true)
    (command : EscrowJobCommand) : (jobStep job command).1 = job := by
  obtain hsame | hmoves := jobStep_cases job command
  · exact hsame
  · generalize (jobStep job command).1 = next at hmoves
    obtain hstatus | hstatus : job.status = .confirmed ∨ job.status = .deadLetter :=
      of_decide_eq_true h
    · cases hmoves <;> simp_all
    · cases hmoves <;> simp_all

/-- The same command once more is refused, or changes nothing. -/
theorem repeat_unchanged (h : transitionEscrowJob job command = .ok transition) :
    transitionEscrowJob transition.job command = .ok ⟨false, transition.job⟩ ∨
      ∃ code, transitionEscrowJob transition.job command = .error code := by
  obtain rfl | ⟨-, hmoves⟩ := transition_cases h
  · exact .inl h
  · clear h
    generalize transition.job = next at hmoves
    cases hmoves with
    | lease status attempts =>
        simp only [transitionEscrowJob, leaseJob, and_self, if_true]
        split_ifs
        · exact .inr ⟨_, rfl⟩
        · exact .inl rfl
    | prepareTransaction status unprepared =>
        simp only [transitionEscrowJob, prepareTransaction, status, if_true]
        split_ifs
        · exact .inr ⟨_, rfl⟩
        · exact .inr ⟨_, rfl⟩
        · exact .inl rfl
    | recordBroadcast status prepared =>
        simp [transitionEscrowJob, recordBroadcast, prepared, unchanged]
    | recordConfirmation status prepared =>
        simp [transitionEscrowJob, recordConfirmation, unchanged]
    | scheduleRebroadcast status prepared =>
        exact .inr ⟨.invalidState, by simp [transitionEscrowJob, scheduleRebroadcast,
          EscrowRelayerJob.postponed]⟩
    | scheduleResign status prepared expired =>
        exact .inr ⟨.transactionNotPrepared, by simp [transitionEscrowJob, scheduleResign,
          EscrowRelayerJob.postponed]⟩
    | scheduleRetryWithoutTransaction status unprepared =>
        exact .inr ⟨.invalidState, by simp [transitionEscrowJob, scheduleRetryWithoutTransaction,
          EscrowRelayerJob.postponed]⟩
    | deadLetter status attempts =>
        exact .inr ⟨.invalidState, by simp [transitionEscrowJob, deadLetterJob]⟩

/-! ## runs -/

def runJob (job : EscrowRelayerJob) (commands : List EscrowJobCommand) : EscrowRelayerJob :=
  (execute jobStep job commands).1

theorem runJob_append (job : EscrowRelayerJob) (before after : List EscrowJobCommand) :
    runJob job (before ++ after) = runJob (runJob job before) after := by
  unfold runJob
  rw [execute_append]

theorem coherent_runJob (h : Coherent job)
    (commands : List EscrowJobCommand) : Coherent (runJob job commands) :=
  execute_invariant (fun _ command h => h.step command) h commands

variable {commands : List EscrowJobCommand}

/-- A transaction that is gone was shown expired and not landed while it was there. -/
theorem expired_of_replaced (hprepared : job.transaction = some transaction)
    (hgone : (runJob job commands).transaction ≠ some transaction) :
    ∃ before command after, commands = before ++ command :: after ∧
      (runJob job before).transaction = some transaction ∧ Expired transaction command ∧
      (runJob job (before ++ [command])).transaction = none := by
  induction commands generalizing job with
  | nil => exact absurd hprepared hgone
  | cons command commands ih =>
      obtain hkept | ⟨hnone, hexpired⟩ := transaction_jobStep hprepared command
      · obtain ⟨before, later, after, rfl, hheld, hexpired, hnone⟩ := ih hkept hgone
        exact ⟨command :: before, later, after, rfl, hheld, hexpired, hnone⟩
      · exact ⟨[], command, commands, rfl, hprepared, hexpired, hnone⟩

theorem runJob_of_terminal (h : job.status.isTerminal = true)
    (commands : List EscrowJobCommand) : runJob job commands = job :=
  execute_invariant (I := (· = job)) (fun _ command hsame => by
    subst hsame
    exact jobStep_of_terminal h command) rfl commands

/-- The rules of a job's life: after any commands, and for all that may follow. -/
theorem job_lifecycle {identity : EscrowRelayerJobIdentity} {maxAttempts : Int}
    {job : EscrowRelayerJob} (h : createEscrowJob identity maxAttempts = some job)
    (commands : List EscrowJobCommand) :
    Coherent (runJob job commands) ∧
      (∀ command, (jobStep (runJob job commands) command).1.attempts =
          (runJob job commands).attempts ∨
        (jobStep (runJob job commands) command).1.attempts =
            (runJob job commands).attempts + 1 ∧
          ∃ workerId leaseToken nowMs, command = .lease workerId leaseToken nowMs ∧
            Moves (runJob job commands) command (jobStep (runJob job commands) command).1) ∧
      (∀ transaction later, (runJob job commands).transaction = some transaction →
        (runJob job (commands ++ later)).transaction ≠ some transaction →
          ∃ before command after, later = before ++ command :: after ∧
            (runJob job (commands ++ before)).transaction = some transaction ∧
            Expired transaction command) ∧
      ((runJob job commands).status.isTerminal = true →
        ∀ later, runJob job (commands ++ later) = runJob job commands) ∧
      ∀ command transition, transitionEscrowJob (runJob job commands) command = .ok transition →
        transitionEscrowJob transition.job command = .ok ⟨false, transition.job⟩ ∨
          ∃ code, transitionEscrowJob transition.job command = .error code := by
  refine ⟨coherent_runJob (coherent_createEscrowJob h) commands, attempts_jobStep _,
    fun transaction later hprepared hgone => ?_, fun hterminal later => ?_,
    fun _ _ => repeat_unchanged⟩
  · rw [runJob_append] at hgone
    obtain ⟨before, command, after, rfl, hheld, hexpired, -⟩ := expired_of_replaced hprepared hgone
    refine ⟨before, command, after, rfl, ?_, hexpired⟩
    rw [runJob_append]
    exact hheld
  · rw [runJob_append]
    exact runJob_of_terminal hterminal later

namespace Sample

def identity : EscrowRelayerJobIdentity :=
  { programId := "program-a", marketPda := "market-a", subject := .marketInitialization }

/-- The job on the identity, with one attempt. -/
def newJob : EscrowRelayerJob where
  kind := .marketInitialization
  idempotencyKey := "escrow:v1:market_initialization:9.program-a:8.market-a"
  status := .pending
  attempts := 0
  maxAttempts := 1
  lease := none
  transaction := none
  confirmation := none
  nextAttemptAtMs := none
  errorCode := none

def prepared : EscrowPreparedTransaction := ⟨"AQIDBA==", "signature-a", 50⟩

/-- The transaction is sent, and still live. -/
def sent : List EscrowJobCommand :=
  [.lease "worker-a" "lease-a" 1000, .prepareTransaction prepared, .recordBroadcast "signature-a"]

theorem createEscrowJob_newJob : createEscrowJob identity 1 = some newJob := by decide +kernel

theorem lifecycle_sent : (runJob newJob sent).status = .broadcast ∧
    (runJob newJob sent).lease.isSome = true ∧ (runJob newJob sent).transaction.isSome = true :=
  have hstatus : (runJob newJob sent).status = .broadcast := by decide +kernel
  have hcoherent := (job_lifecycle createEscrowJob_newJob sent).1
  ⟨hstatus, hcoherent.lease.mpr (.inr hstatus), hcoherent.prepared (.inl hstatus)⟩

end Sample

/-! ## a job that is given up -/

/-- The transactions that a resign was scheduled for. -/
def cleared (history : List Taken) : List EscrowPreparedTransaction :=
  history.filterMap fun taken =>
    match taken.command with
    | .scheduleResign .. => taken.before.transaction
    | _ => none

/-- A job that is given up with a prepared transaction: the transaction was shown
expired and not landed. -/
def Tracked (history : List Taken) : Prop :=
  ∀ before taken after errorCode transaction, history = before ++ taken :: after →
    taken.command = .deadLetter errorCode → taken.before.transaction = some transaction →
    ∃ earlier ∈ before, earlier.before.transaction = some transaction ∧
      Expired transaction earlier.command

/-- `dead_letter` is refused, or the job holds no transaction but one that was cleared
before. -/
def Reconciled (reached : EscrowRelayerJob × List Taken) (command : EscrowJobCommand) : Prop :=
  ∀ errorCode, command = .deadLetter errorCode →
    reached.1.status.isTerminal = true ∨ reached.1.attempts < reached.1.maxAttempts ∨
      errorCode = "" ∨
      ∀ transaction, reached.1.transaction = some transaction → transaction ∈ cleared reached.2

/-- A step takes at most its command. -/
theorem taken_jobStep {taken : Taken} {front back : List Taken}
    (h : (jobStep job command).2 = front ++ taken :: back) :
    front = [] ∧ ∃ transition, transitionEscrowJob job command = .ok transition ∧
      taken = ⟨command, job, transition.job⟩ := by
  unfold jobStep at h
  split at h
  · next transition hok =>
    cases front with
    | nil =>
        obtain ⟨rfl, -⟩ := List.cons.inj h
        exact ⟨rfl, transition, hok, rfl⟩
    | cons first front => simp at h
  · simp at h

/-- What a run has taken, it took from the jobs on its way. -/
theorem mem_history {taken : Taken} (h : taken ∈ (execute jobStep job commands).2) :
    ∃ transition, transitionEscrowJob taken.before taken.command = .ok transition ∧
      taken.after = transition.job := by
  obtain ⟨before, command, -, -, hmem⟩ := mem_execute h
  obtain ⟨front, back, hstep⟩ := List.append_of_mem hmem
  obtain ⟨-, transition, hok, rfl⟩ := taken_jobStep hstep
  exact ⟨transition, hok, rfl⟩

theorem mem_cleared :
    transaction ∈ cleared (execute jobStep job commands).2 ↔
      ∃ earlier ∈ (execute jobStep job commands).2,
        earlier.before.transaction = some transaction ∧ Expired transaction earlier.command := by
  unfold cleared
  rw [List.mem_filterMap]
  constructor
  · rintro ⟨earlier, hmem, hcleared⟩
    obtain ⟨transition, hok, -⟩ := mem_history hmem
    refine ⟨earlier, hmem, ?_⟩
    obtain ⟨command, before, after⟩ := earlier
    cases command with
    | scheduleResign currentBlockHeight fullHistoryChecked transactionLanded retry =>
        obtain ⟨held, hheld, rfl, rfl, hexpired, -⟩ := scheduleResign_ok hok
        obtain rfl := Option.some.inj (hheld.symm.trans hcleared)
        exact ⟨hcleared, currentBlockHeight, retry, rfl, hexpired⟩
    | _ => cases hcleared
  · rintro ⟨earlier, hmem, hprepared, currentBlockHeight, retry, hcommand, -⟩
    refine ⟨earlier, hmem, ?_⟩
    rw [hcommand]
    exact hprepared

/-- `dead_letter` as the job takes it. -/
theorem deadLetter_ok_iff {errorCode : String} :
    (∃ transition, transitionEscrowJob job (.deadLetter errorCode) = .ok transition) ↔
      job.status.isTerminal = false ∧ job.maxAttempts ≤ job.attempts ∧ errorCode ≠ "" := by
  unfold EscrowRelayerJobStatus.isTerminal
  simp only [transitionEscrowJob, deadLetterJob, changed]
  split_ifs with hterminal hempty hattempts
  · simp [hterminal]
  · simp [hempty]
  · simp [hattempts]
  · simp [hterminal, hempty, Nat.not_lt.mp hattempts]


theorem tracked_iff (job : EscrowRelayerJob) (commands : List EscrowJobCommand) :
    Tracked (execute jobStep job commands).2 ↔
      ∀ before command after, commands = before ++ command :: after →
        Reconciled (execute jobStep job before) command := by
  constructor
  · rintro h before command after rfl errorCode rfl
    by_cases hok : ∃ transition,
        transitionEscrowJob (execute jobStep job before).1 (.deadLetter errorCode) = .ok transition
    · refine .inr (.inr (.inr fun transaction hprepared => ?_))
      obtain ⟨transition, hok⟩ := hok
      refine mem_cleared.mpr (h _ ⟨.deadLetter errorCode, _, transition.job⟩
        (execute jobStep transition.job after).2 errorCode transaction ?_ rfl hprepared)
      rw [execute_append, execute_cons, jobStep, hok]
      rfl
    · rw [deadLetter_ok_iff] at hok
      by_cases hterminal : (execute jobStep job before).1.status.isTerminal = true
      · exact .inl hterminal
      · by_cases hempty : errorCode = ""
        · exact .inr (.inr (.inl hempty))
        · refine .inr (.inl (Nat.lt_of_not_le fun hle => hok ⟨?_, hle, hempty⟩))
          exact Bool.eq_false_of_not_eq_true hterminal
  · intro h earlier taken later errorCode transaction hhistory hcommand hprepared
    obtain ⟨before, command, after, front, back, rfl, hstep, rfl⟩ := execute_split hhistory
    obtain ⟨rfl, transition, hok, rfl⟩ := taken_jobStep hstep
    obtain rfl : command = .deadLetter errorCode := hcommand
    obtain ⟨hterminal, hattempts, herror⟩ := deadLetter_ok_iff.mp ⟨transition, hok⟩
    obtain hover | hleft | hempty | hcleared := h before _ after rfl errorCode rfl
    · rw [hterminal] at hover
      cases hover
    · omega
    · exact absurd hempty herror
    · rw [List.append_nil]
      exact mem_cleared.mp (hcleared transaction hprepared)

namespace Sample

/-- A job is given up while its transaction is out. -/
theorem gives_up_live_transaction : ¬ ∀ (identity : EscrowRelayerJobIdentity) (maxAttempts : Int)
    (job : EscrowRelayerJob) (commands : List EscrowJobCommand),
    createEscrowJob identity maxAttempts = some job → Tracked (execute jobStep job commands).2 := by
  intro h
  have hshown := h identity 1 newJob (sent ++ [.deadLetter "timeout"]) createEscrowJob_newJob
    (execute jobStep newJob sent).2
    ⟨.deadLetter "timeout", runJob newJob sent, runJob newJob (sent ++ [.deadLetter "timeout"])⟩ []
    "timeout" prepared (by decide +kernel) rfl (by decide +kernel)
  exact absurd (mem_cleared.mpr hshown) (by decide +kernel)

end Sample

end CalledIt.Relayer
