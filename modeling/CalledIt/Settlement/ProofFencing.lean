import CalledIt.Settlement.ProofJobs

/-!
# CalledIt.Settlement.ProofFencing

The jobs behind a settlement are fenced, and finished only when their work is.

`Moves` says once what a call can do to a market, one write at a time, and every function is
a path of moves that never raises (`…_moves`).  A move keeps what holds of every market
(`Sound`), leaves a finished row as it is, and gives a row no token but the one it makes.
-/

namespace CalledIt.Settlement

open Lib

/-! ## what a call does -/

/-- A job is over: what the market must show for it. -/
def Warranted (s : MarketState) : JobKind → JobStatus → Prop
  | .settlement, .complete => GraphComplete s
  | .proof, .complete => ProofCompletionAllowed s
  | .proof, .dead => ProofDeadAllowed s
  | _, _ => True

/-- One write, and the token it makes. -/
inductive Moves (s : MarketState) : List String → MarketState → Prop
  | recorded {market : MarketRow} {settlement : SettlementRow} {status : MarketStatus} :
      (∀ row ∈ s.settlement, row = settlement) →
      Moves s [] (recordFacts s market settlement status)
  | created {kind : JobKind} {policy : QueuePolicy} {dueAt now : Int} : s.jobs kind = none →
      policy.Valid → (kind = .proof → s.settlement.isSome) →
      Moves s [] (s.setJob kind (pendingJob kind policy dueAt now))
  | leased {job : SettlementProofJob} {kind : JobKind} {workerId token : String} {now : Int} :
      s.jobs kind = some job → job.Ready now → isWorker workerId →
      Moves s [token] (s.setJob kind (leased job workerId token now))
  | completed {job : SettlementProofJob} {kind : JobKind} {now : Int} :
      s.jobs kind = some job → job.status = .leased → Warranted s kind .complete →
      Moves s [] (s.setJob kind (completed job now))
  | dead {job : SettlementProofJob} {kind : JobKind} {errorCode : String} {now : Int} :
      s.jobs kind = some job → job.status = .leased → isErrorCode errorCode →
      Warranted s kind .dead → Moves s [] (s.setJob kind (deadLettered job errorCode now))
  | waiting {job : SettlementProofJob} {kind : JobKind} {errorCode : String} {delayMs now : Int} :
      s.jobs kind = some job → job.status = .leased → isErrorCode errorCode →
      job.attempts < job.maxAttempts →
      Moves s [] (s.setJob kind (retrying job errorCode delayMs now))
  | proofFailed : Moves s [] (failProof s)

/-! ## what holds of every market -/

/-- What holds of a job and of the market it belongs to. -/
structure SoundJob (s : MarketState) (kind : JobKind) (job : SettlementProofJob) : Prop where
  jobKind : job.jobKind = kind
  checks : job.Checks
  waiting : job.status = .pending ∨ job.status = .retryWait → job.attempts < job.maxAttempts
  settled : kind = .proof → s.settlement.isSome
  warranted : Warranted s kind job.status

def Sound (s : MarketState) : Prop := ∀ kind job, s.jobs kind = some job → SoundJob s kind job

/-- What is on record stays so: a settlement and its post, a marker, and a proof that is
over; a job is never taken away. -/
structure Keeps (s s' : MarketState) : Prop where
  settlement : ∀ row ∈ s.settlement, ∃ row' ∈ s'.settlement, row'.outcome = row.outcome ∧
    row'.tier = row.tier ∧ (row.postedAt.isSome → row'.postedAt.isSome)
  wagerApplied : s.wagerApplied = true → s'.wagerApplied = true
  statProof : ∀ status ∈ s.statProof, status.terminal → s'.statProof = some status
  jobs : ∀ kind, (s.jobs kind).isSome → (s'.jobs kind).isSome

theorem keeps_setJob (s : MarketState) (kind : JobKind) (job : SettlementProofJob) :
    Keeps s (s.setJob kind job) where
  settlement row hrow := ⟨row, hrow, rfl, rfl, id⟩
  wagerApplied := id
  statProof _ hstatus _ := hstatus
  jobs other := by
    by_cases h : other = kind
    · simp [h]
    · simp [s.setJob_jobs_of_ne job h]

theorem Keeps.statProof_eq {s s' : MarketState} (h : Keeps s s') {status : ProofStatus}
    (hstatus : s.statProof = some status) (hterminal : status.terminal) :
    s'.statProof = some status :=
  h.statProof status hstatus hterminal

theorem Keeps.warranted {s s' : MarketState} (h : Keeps s s') {kind : JobKind}
    {status : JobStatus} (hw : Warranted s kind status) : Warranted s' kind status := by
  cases kind <;> cases status <;> try exact trivial
  · obtain ⟨⟨row, hrow, hposted⟩, happlied, hproof⟩ := hw
    obtain ⟨row', hrow', -, -, hkeeps⟩ := h.settlement row hrow
    exact ⟨⟨row', hrow', hkeeps hposted⟩, h.wagerApplied happlied, h.jobs _ hproof⟩
  · obtain ⟨row, hrow, hallowed⟩ := hw
    obtain ⟨row', hrow', houtcome, htier, -⟩ := h.settlement row hrow
    refine ⟨row', hrow', ?_⟩
    rw [houtcome, htier]
    rcases hallowed with hvoid | horacle | hverified | hunavailable
    · exact .inl hvoid
    · exact .inr (.inl horacle)
    · exact .inr (.inr (.inl (h.statProof_eq hverified rfl)))
    · exact .inr (.inr (.inr (h.statProof_eq hunavailable rfl)))
  · rcases hw with hfailed | hunavailable
    · exact .inl (h.statProof_eq hfailed rfl)
    · exact .inr (h.statProof_eq hunavailable rfl)

theorem Keeps.soundJob {s s' : MarketState} (h : Keeps s s') {kind : JobKind}
    {job : SettlementProofJob} (hs : SoundJob s kind job) : SoundJob s' kind job where
  jobKind := hs.jobKind
  checks := hs.checks
  waiting := hs.waiting
  settled hkind := by
    obtain ⟨row, hrow⟩ := Option.isSome_iff_exists.mp (hs.settled hkind)
    obtain ⟨row', hrow', -⟩ := h.settlement row hrow
    exact Option.isSome_of_mem hrow'
  warranted := h.warranted hs.warranted

theorem Keeps.sound {s s' : MarketState} (h : Keeps s s') (hjobs : s'.jobs = s.jobs)
    (hs : Sound s) : Sound s' := by
  intro kind job hjob
  rw [hjobs] at hjob
  exact h.soundJob (hs kind job hjob)

theorem sound_setJob {s : MarketState} (hs : Sound s) {kind : JobKind} {job : SettlementProofJob}
    (hjob : SoundJob s kind job) : Sound (s.setJob kind job) := by
  intro other job' hjob'
  apply (keeps_setJob s kind job).soundJob
  by_cases h : other = kind
  · subst h
    rw [s.setJob_jobs_self] at hjob'
    rwa [← Option.some.inj hjob']
  · rw [s.setJob_jobs_of_ne job h] at hjob'
    exact hs other job' hjob'

/-! ## the rows that are written -/

theorem checks_pendingJob {policy : QueuePolicy} (h : policy.Valid) (kind : JobKind)
    (dueAt now : Int) : (pendingJob kind policy dueAt now).Checks := by
  obtain ⟨⟨hmax, hmax'⟩, hlease, hbase, hretry⟩ := h
  constructor <;> simp [pendingJob, SettlementProofJob.StatusChecks, *]
  omega

variable {errorCode : String}

variable {now : Int}

section

variable {job : SettlementProofJob}

/-- The columns of a row that is leased. -/
theorem SettlementProofJob.Checks.leased (h : job.Checks) (hstatus : job.status = .leased) :
    1 ≤ job.attempts ∧ job.LeaseRecorded ∧ job.completedAt = none ∧ job.deadAt = none := by
  have hchecks := h.status
  simpa [SettlementProofJob.StatusChecks, hstatus] using hchecks

theorem checks_completed (h : job.Checks) (hstatus : job.status = .leased) (now : Int) :
    (completed job now).Checks := by
  obtain ⟨hattempts, hlease, -, hdead⟩ := h.leased hstatus
  constructor
  · exact h.attempts
  · exact h.maxAttempts
  · exact h.leaseMs
  · exact h.retryBaseMs
  · exact h.retryMaxMs
  · exact h.leaseOwner
  · simp [completed]
  · exact .inr (.inr (.inr (.inl ⟨rfl, hattempts, hlease, rfl, rfl, hdead⟩)))

theorem checks_deadLettered (h : job.Checks) (hstatus : job.status = .leased)
    (hcode : isErrorCode errorCode) (now : Int) : (deadLettered job errorCode now).Checks := by
  obtain ⟨hattempts, hlease, hcompleted, -⟩ := h.leased hstatus
  constructor
  · exact h.attempts
  · exact h.maxAttempts
  · exact h.leaseMs
  · exact h.retryBaseMs
  · exact h.retryMaxMs
  · exact h.leaseOwner
  · simpa [deadLettered] using hcode
  · exact .inr (.inr (.inr (.inr ⟨rfl, hattempts, hlease, rfl, hcompleted, rfl⟩)))

theorem checks_retrying (h : job.Checks) (hstatus : job.status = .leased)
    (hcode : isErrorCode errorCode) (delayMs now : Int) :
    (retrying job errorCode delayMs now).Checks := by
  obtain ⟨hattempts, hlease, hcompleted, hdead⟩ := h.leased hstatus
  constructor
  · exact h.attempts
  · exact h.maxAttempts
  · exact h.leaseMs
  · exact h.retryBaseMs
  · exact h.retryMaxMs
  · exact h.leaseOwner
  · simpa [retrying] using hcode
  · exact .inr (.inr (.inl ⟨rfl, hattempts, hlease, rfl, hcompleted, hdead⟩))

/-- A row that is ready has an attempt left, and is neither complete nor dead. -/
theorem SoundJob.ready {s : MarketState} {kind : JobKind} (h : SoundJob s kind job)
    (hready : job.Ready now) :
    job.attempts < job.maxAttempts ∧ job.completedAt = none ∧ job.deadAt = none := by
  have hchecks := h.checks.status
  rcases hready with ⟨hwaiting, -⟩ | ⟨⟨hleased, -⟩, hattempts⟩
  · refine ⟨h.waiting hwaiting, ?_⟩
    rcases hwaiting with hstatus | hstatus <;>
      simp [SettlementProofJob.StatusChecks, hstatus] at hchecks <;> simp [hchecks]
  · obtain ⟨-, -, hcompleted, hdead⟩ := h.checks.leased hleased
    exact ⟨hattempts, hcompleted, hdead⟩

theorem checks_leased {s : MarketState} {kind : JobKind} (h : SoundJob s kind job)
    (hready : job.Ready now) {workerId : String} (hworker : isWorker workerId) (token : String) :
    (leased job workerId token now).Checks := by
  obtain ⟨hattempts, hcompleted, hdead⟩ := h.ready hready
  obtain ⟨hfloor, -⟩ := h.checks.attempts
  obtain ⟨hmin, hmax, -⟩ := h.checks.maxAttempts
  obtain ⟨hlease, -⟩ := h.checks.leaseMs
  have hexpires : now < now + job.leaseMs * 1000 := by omega
  constructor
  · simp only [leased]
    omega
  · simp only [leased]
    omega
  · exact h.checks.leaseMs
  · exact h.checks.retryBaseMs
  · exact h.checks.retryMaxMs
  · simpa [leased] using hworker
  · intro code hcode
    by_cases hstatus : job.status = .leased
    · simp [leased, hstatus] at hcode
      rw [← hcode]
      decide
    · simp [leased, hstatus] at hcode
      exact h.checks.lastErrorCode code hcode
  · refine .inr (.inl ⟨rfl, ?_, ?_, hcompleted, hdead⟩)
    · simp only [leased]
      omega
    · simpa [leased, SettlementProofJob.LeaseRecorded] using hexpires

end

/-! ## every move -/

theorem failProof_statProof {s : MarketState} {status : ProofStatus}
    (hstatus : s.statProof = some status) (hterminal : status.terminal) :
    (failProof s).statProof = some status := by
  unfold failProof
  cases status <;> simp_all [ProofStatus.terminal]

@[simp] theorem failProof_settlement (s : MarketState) :
    (failProof s).settlement = s.settlement := by
  unfold failProof
  split <;> rfl

@[simp] theorem failProof_wagerApplied (s : MarketState) :
    (failProof s).wagerApplied = s.wagerApplied := by
  unfold failProof
  split <;> rfl

@[simp] theorem failProof_jobs (s : MarketState) : (failProof s).jobs = s.jobs := by
  unfold failProof
  split <;> rfl

theorem keeps_failProof (s : MarketState) : Keeps s (failProof s) where
  settlement row hrow := ⟨row, by rwa [failProof_settlement], rfl, rfl, id⟩
  wagerApplied := by simp
  statProof status hstatus hterminal := failProof_statProof hstatus hterminal
  jobs := by simp

/-- A proof that is given up has failed, unless it was found to be there after all. -/
theorem failProof_dead {s : MarketState} (h : s.statProof ≠ some .verified) :
    ProofDeadAllowed (failProof s) := by
  unfold failProof ProofDeadAllowed
  split
  · simp
  · simp
  next status hpending hstatus =>
    cases status <;> simp_all

theorem keeps_recordFacts {s : MarketState} {market : MarketRow} {settlement : SettlementRow}
    (h : ∀ row ∈ s.settlement, row = settlement) (status : MarketStatus) :
    Keeps s (recordFacts s market settlement status) where
  settlement row hrow := ⟨settlement, rfl, by rw [h row hrow], by rw [h row hrow],
    by rw [h row hrow]; exact id⟩
  wagerApplied := id
  statProof _ hstatus _ := hstatus
  jobs _ := id

theorem Moves.keeps {s s' : MarketState} {tokens : List String} (h : Moves s tokens s') :
    Keeps s s' := by
  cases h with
  | recorded hsame => exact keeps_recordFacts hsame _
  | created | leased | completed | dead | waiting => exact keeps_setJob s _ _
  | proofFailed => exact keeps_failProof s

theorem Moves.sound {s s' : MarketState} {tokens : List String} (h : Moves s tokens s')
    (hs : Sound s) : Sound s' := by
  have hkeeps := h.keeps
  cases h with
  | recorded => exact hkeeps.sound rfl hs
  | proofFailed => exact hkeeps.sound (failProof_jobs s) hs
  | @created kind policy dueAt now _ hvalid hsettled =>
      refine sound_setJob hs ⟨rfl, checks_pendingJob hvalid kind dueAt now, fun _ => ?_, hsettled, ?_⟩
      · exact hvalid.1.1
      · cases kind <;> trivial
  | @leased job kind _ token _ hjob hready hworker =>
      have hold := hs kind job hjob
      refine sound_setJob hs ⟨hold.jobKind, checks_leased hold hready hworker token, ?_, hold.settled, ?_⟩
      · simp [Settlement.leased]
      · cases kind <;> trivial
  | @completed job kind now hjob hstatus hwarranted =>
      have hold := hs kind job hjob
      refine sound_setJob hs
        ⟨hold.jobKind, checks_completed hold.checks hstatus now, ?_, hold.settled, hwarranted⟩
      simp [Settlement.completed]
  | @dead job kind _ now hjob hstatus hcode hwarranted =>
      have hold := hs kind job hjob
      refine sound_setJob hs ⟨hold.jobKind, checks_deadLettered hold.checks hstatus hcode now, ?_,
        hold.settled, hwarranted⟩
      simp [Settlement.deadLettered]
  | @waiting job kind _ delayMs now hjob hstatus hcode hattempts =>
      have hold := hs kind job hjob
      refine sound_setJob hs ⟨hold.jobKind, checks_retrying hold.checks hstatus hcode delayMs now,
        fun _ => hattempts, hold.settled, ?_⟩
      cases kind <;> trivial

/-- A finished row stays as it is. -/
theorem Moves.terminal {s s' : MarketState} {tokens : List String} (h : Moves s tokens s')
    {kind : JobKind} {job : SettlementProofJob} (hjob : s.jobs kind = some job)
    (hterminal : job.terminal) : s'.jobs kind = some job := by
  have hother {kind' : JobKind} {job' new : SettlementProofJob} (hjob' : s.jobs kind' = some job')
      (hopen : job'.terminal = false) : (s.setJob kind' new).jobs kind = some job := by
    rwa [s.setJob_jobs_of_ne]
    rintro rfl
    obtain rfl := Option.some.inj (hjob.symm.trans hjob')
    simp [hopen] at hterminal
  cases h with
  | recorded => exact hjob
  | proofFailed => simpa using hjob
  | created hnone =>
      rwa [s.setJob_jobs_of_ne]
      rintro rfl
      simp [hjob] at hnone
  | leased hjob' hready =>
      apply hother hjob'
      rcases hready with ⟨hstatus | hstatus, -⟩ | ⟨⟨hstatus, -⟩, -⟩ <;>
        simp [SettlementProofJob.terminal, hstatus]
  | completed hjob' hstatus | dead hjob' hstatus | waiting hjob' hstatus =>
      exact hother hjob' (by simp [SettlementProofJob.terminal, hstatus])

/-- A row has the token it had, or the one that was made. -/
theorem Moves.token {s s' : MarketState} {tokens : List String} (h : Moves s tokens s')
    {kind : JobKind} {job : SettlementProofJob} (hjob : s'.jobs kind = some job) {token : String}
    (htoken : job.leaseToken = some token) :
    token ∈ tokens ∨ ∃ old, s.jobs kind = some old ∧ old.leaseToken = some token := by
  have hset {kind' : JobKind} {new : SettlementProofJob}
      (hjob : (s.setJob kind' new).jobs kind = some job) :
      s.jobs kind = some job ∨ (kind = kind' ∧ new = job) := by
    by_cases hkind : kind = kind'
    · subst hkind
      exact .inr ⟨rfl, by simpa using hjob⟩
    · rw [s.setJob_jobs_of_ne new hkind] at hjob
      exact .inl hjob
  cases h with
  | recorded => exact .inr ⟨job, hjob, htoken⟩
  | proofFailed => exact .inr ⟨job, by simpa using hjob, htoken⟩
  | created =>
      rcases hset hjob with hold | ⟨-, rfl⟩
      · exact .inr ⟨job, hold, htoken⟩
      · simp [pendingJob] at htoken
  | leased =>
      rcases hset hjob with hold | ⟨-, rfl⟩
      · exact .inr ⟨job, hold, htoken⟩
      · simp [Settlement.leased] at htoken
        simp [htoken]
  | completed hjob' | dead hjob' | waiting hjob' =>
      rcases hset hjob with hold | ⟨rfl, rfl⟩
      · exact .inr ⟨job, hold, htoken⟩
      · exact .inr ⟨_, hjob', htoken⟩

/-! ## every function -/

/-- A path of moves that makes no other tokens than these. -/
def Path (tokens : List String) (s s' : MarketState) : Prop :=
  ∃ labels, Run Moves s labels s' ∧ ∀ label ∈ labels, label ⊆ tokens

theorem Path.refl (tokens : List String) (s : MarketState) : Path tokens s s :=
  ⟨[], .refl s, by simp⟩

theorem Moves.path {s s' : MarketState} {tokens : List String} (h : Moves s tokens s') :
    Path tokens s s' :=
  ⟨[tokens], .single h, by simp⟩

theorem Path.trans {tokens : List String} {s mid s' : MarketState} (h : Path tokens s mid)
    (h' : Path tokens mid s') : Path tokens s s' := by
  obtain ⟨labels, hrun, htokens⟩ := h
  obtain ⟨labels', hrun', htokens'⟩ := h'
  refine ⟨labels ++ labels', hrun.append hrun', fun label hlabel => ?_⟩
  rcases List.mem_append.mp hlabel with hlabel | hlabel
  · exact htokens label hlabel
  · exact htokens' label hlabel

theorem Path.weaken {s s' : MarketState} (h : Path [] s s') (tokens : List String) :
    Path tokens s s' := by
  obtain ⟨labels, hrun, hnone⟩ := h
  exact ⟨labels, hrun, fun label hlabel => List.Subset.trans (hnone label hlabel) (by simp)⟩

section

variable {tokens : List String} {s s' : MarketState}

theorem Path.sound (h : Path tokens s s') (hs : Sound s) : Sound s' := by
  obtain ⟨labels, hrun, -⟩ := h
  exact hrun.invariant (I := Sound) Moves.sound hs

variable {kind : JobKind}

variable {job : SettlementProofJob}

theorem Path.terminal (h : Path tokens s s') (hjob : s.jobs kind = some job)
    (hterminal : job.terminal) : s'.jobs kind = some job := by
  obtain ⟨labels, hrun, -⟩ := h
  exact hrun.invariant (I := fun mid => mid.jobs kind = some job)
    (fun hmove hmid => hmove.terminal hmid hterminal) hjob

theorem Path.token (h : Path tokens s s') {kind : JobKind} {token : String}
    (hjob : ∃ job, s'.jobs kind = some job ∧ job.leaseToken = some token) :
    token ∈ tokens ∨ ∃ old, s.jobs kind = some old ∧ old.leaseToken = some token := by
  obtain ⟨labels, hrun, htokens⟩ := h
  induction hrun with
  | refl => exact .inr hjob
  | snoc _ hmove ih =>
      obtain ⟨job, hjob, htoken⟩ := hjob
      rcases hmove.token hjob htoken with hmade | hold
      · exact .inl (htokens _ (by simp) hmade)
      · exact ih hold fun label hlabel => htokens label (by simp [hlabel])

/-- A move that writes a row passes the trigger and the checks. -/
theorem Moves.updateJob {old : SettlementProofJob} (h : Moves s tokens (s.setJob kind job))
    (hs : Sound s) (hold : s.jobs kind = some old)
    (hopen : old.terminal = false) : s.updateJob old job = .ok (s.setJob kind job) := by
  have hchecks := (h.sound hs kind job (by simp)).checks
  have hkind := (hs kind old hold).jobKind
  rw [MarketState.updateJob, require_pos (by simp [hopen]), require_pos hchecks, hkind]
  rfl

theorem terminal_of_leased (h : job.status = .leased) :
    job.terminal = false := by
  simp [SettlementProofJob.terminal, h]

theorem SettlementProofJob.Ready.not_terminal (h : job.Ready now) : job.terminal = false := by
  rcases h with ⟨hstatus | hstatus, -⟩ | ⟨⟨hstatus, -⟩, -⟩ <;>
    simp [SettlementProofJob.terminal, hstatus]

variable {policy : QueuePolicy}

/-- An insert makes the job, or finds that it is there. -/
theorem insertJob_moves (hvalid : policy.Valid) (hsettled : kind = .proof → s.settlement.isSome)
    (dueAt now : Int) :
    Yields (Path [] s) (s.insertJob (pendingJob kind policy dueAt now)) := by
  rw [MarketState.insertJob, require_pos (checks_pendingJob hvalid kind dueAt now)]
  have hkind : (pendingJob kind policy dueAt now).jobKind = kind := rfl
  by_cases hjob : (s.jobs kind).isSome
  · simpa [hkind, hjob, pure, Except.pure] using .ok (.refl _ s)
  · have hnone : s.jobs kind = none := by simpa using hjob
    refine ⟨s.setJob kind (pendingJob kind policy dueAt now), ?_, ?_⟩
    · simp [hkind, hnone, pure, Except.pure]
    · exact Moves.path (.created hnone hvalid hsettled)

theorem recordAndEnqueue_moves {input : RecordTerminal} (hvalid : input.policy.Valid)
    {market : MarketRow} {settlement : SettlementRow}
    (hsame : ∀ row ∈ s.settlement, row = settlement) (duplicate : Bool) :
    Yields (Path [] s ·.1) (recordAndEnqueue s input now market settlement duplicate) := by
  have hinsert := @insertJob_moves (recordFacts s market settlement input.requiredStatus)
    .settlement _ hvalid (by simp) now now
  exact hinsert.bind fun _ hpath => .ok ((Moves.recorded hsame).path.trans hpath)

theorem settlementRecordTerminal_moves (input : RecordTerminal) (s : MarketState) :
    Yields (Path [] s ·.1) (settlementRecordTerminal input s) := by
  unfold settlementRecordTerminal
  split
  · exact .ok (.refl _ s)
  next hvalid =>
  have hvalid := not_not.mp hvalid
  split
  · exact .ok (.refl _ s)
  · exact .ok (.refl _ s)
  iterate 3 (split; · exact .ok (.refl _ s))
  split
  next settlement hsettlement =>
    split
    · exact .ok (.refl _ s)
    · exact recordAndEnqueue_moves hvalid (by simp [hsettlement]) true
  next hnone => exact recordAndEnqueue_moves hvalid (by simp [hnone]) false

theorem settlementProofEnqueue_moves (input : EnqueueJob) (s : MarketState) :
    Yields (Path [] s ·.1) (settlementProofEnqueue input s) := by
  unfold settlementProofEnqueue
  split
  case h_2 => exact .ok (.refl _ s)
  next dueAt now _ _ =>
  split
  · exact .ok (.refl _ s)
  next hvalid =>
  iterate 4 (split; · exact .ok (.refl _ s))
  next hsettled =>
  have hsettled (hkind : input.jobKind = .proof) : s.settlement.isSome :=
    Option.isSome_iff_ne_none.mpr fun hnone => hsettled ⟨hkind, hnone⟩
  exact (insertJob_moves (not_not.mp hvalid) hsettled dueAt now).bind fun _ h => .ok h

/-- A row that is completed, with the path that leads there. -/
theorem completed_moves (hs : Sound s) (hjob : s.jobs kind = some job)
    (hstatus : job.status = .leased) (hwarranted : Warranted s kind .complete) (now : Int) :
    Yields (Path [] s) (s.updateJob job (completed job now)) := by
  have hmove : Moves s [] (s.setJob kind (completed job now)) := .completed hjob hstatus hwarranted
  exact ⟨_, hmove.updateJob hs hjob (terminal_of_leased hstatus), hmove.path⟩

theorem deadLettered_moves (hs : Sound s) (hjob : s.jobs kind = some job)
    (hstatus : job.status = .leased) (hcode : isErrorCode errorCode)
    (hwarranted : Warranted s kind .dead) (now : Int) :
    Yields (Path [] s) (s.updateJob job (deadLettered job errorCode now)) := by
  have hmove : Moves s [] (s.setJob kind (deadLettered job errorCode now)) :=
    .dead hjob hstatus hcode hwarranted
  exact ⟨_, hmove.updateJob hs hjob (terminal_of_leased hstatus), hmove.path⟩

/-- Where an attempt has expired for good, the lease decides as the worker would have. -/
theorem resolveExpired_moves (hs : Sound s) (hjob : s.jobs kind = some job)
    (hstatus : job.status = .leased) (now : Int) :
    Yields (Path [] s) (resolveExpired now job s) := by
  have hcode : isErrorCode "lease_expired" := by decide
  have hsound := hs kind job hjob
  rw [resolveExpired, hsound.jobKind]
  cases kind with
  | settlement =>
      dsimp only
      split
      next hcomplete => exact completed_moves hs hjob hstatus hcomplete now
      · exact deadLettered_moves hs hjob hstatus hcode trivial now
  | proof =>
      obtain ⟨row, hrow⟩ := Option.isSome_iff_exists.mp (hsound.settled rfl)
      dsimp only
      split
      next hsettled =>
        refine completed_moves hs hjob hstatus ⟨row, hrow, ?_⟩ now
        simp only [hrow, Option.any_some, decide_eq_true_eq] at hsettled
        rcases hsettled with hvoid | horacle
        · exact .inl hvoid
        · exact .inr (.inl horacle)
      split
      next hproof =>
        refine completed_moves hs hjob hstatus ⟨row, hrow, ?_⟩ now
        exact .inr (.inr hproof)
      next hproof =>
        have hdead : ProofDeadAllowed (failProof s) := failProof_dead fun h => hproof (.inl h)
        have hfailed : Moves s [] (failProof s) := .proofFailed
        have hkept : (failProof s).jobs .proof = some job := by simpa using hjob
        obtain ⟨after, hafter, hpath⟩ :=
          deadLettered_moves (hfailed.sound hs) hkept hstatus hcode hdead now
        exact ⟨after, hafter, hfailed.path.trans hpath⟩

theorem settlementProofLease_moves (input : LeaseJobs) (turn : LeaseTurn) (hs : Sound s) :
    Yields (Path [turn.token] s) (settlementProofLease input turn s) := by
  unfold settlementProofLease
  split
  case h_2 => exact .ok (.refl _ s)
  next workerId now _ _ _ _ =>
  split
  · exact .ok (.refl _ s)
  next harguments =>
  have hworker : isWorker workerId := by
    by_contra hworker
    exact harguments (.inl hworker)
  have hresolve : Yields (Path [turn.token] s)
      (leaseResolve input.jobKind now turn.resolves s) := by
    unfold leaseResolve
    split
    · exact .ok (.refl _ s)
    next job hjob =>
    split
    next hfinal =>
      obtain ⟨mid, hmid, hpath⟩ := resolveExpired_moves hs hjob hfinal.2.1.1 now
      exact ⟨mid, hmid, hpath.weaken _⟩
    · exact .ok (.refl _ s)
  obtain ⟨mid, hmid, hpath⟩ := hresolve
  rw [hmid, ok_bind, leaseTake]
  split
  · exact .ok hpath
  next job hjob =>
  split
  next hready =>
    have hmove := @Moves.leased _ _ _ _ turn.token _ hjob hready.2 hworker
    exact ⟨_, hmove.updateJob (hpath.sound hs) hjob hready.2.not_terminal,
      hpath.trans hmove.path⟩
  · exact .ok hpath

theorem settlementProofComplete_moves (held : Held) (hs : Sound s) :
    Yields (Path [] s ·.1) (settlementProofComplete held s) := by
  unfold settlementProofComplete
  split
  · exact .ok (.refl _ s)
  next job hjob =>
  iterate 2 (split; · exact .ok (.refl _ s))
  next now _ =>
  split
  · exact .ok (.refl _ s)
  next hheld =>
  split
  · exact .ok (.refl _ s)
  next hgraph =>
  split
  · exact .ok (.refl _ s)
  next hallowed =>
  have hkind := (hs _ job hjob).jobKind
  have hwarranted : Warranted s held.jobKind .complete := by
    rw [← hkind]
    cases hjobKind : job.jobKind with
    | settlement => exact not_not.mp fun h => hgraph ⟨hjobKind, h⟩
    | proof => exact not_not.mp fun h => hallowed ⟨hjobKind, h⟩
  exact (completed_moves hs hjob (not_not.mp hheld).1 hwarranted now).bind fun _ h => .ok h

theorem markDead_moves (hs : Sound s) (hjob : s.jobs kind = some job)
    (hstatus : job.status = .leased) (hcode : isErrorCode errorCode) (now : Int) :
    Yields (Path [] s ·.1) (markDead errorCode now job s) := by
  unfold markDead
  split
  · exact .ok (.refl _ s)
  next hallowed =>
  have hwarranted : Warranted s kind .dead := by
    rw [← (hs _ job hjob).jobKind]
    cases hjobKind : job.jobKind with
    | settlement => trivial
    | proof => exact not_not.mp fun h => hallowed ⟨hjobKind, h⟩
  exact (deadLettered_moves hs hjob hstatus hcode hwarranted now).bind fun _ h => .ok h

theorem settlementProofRetry_moves (held : Held) (errorCode : Option String)
    (delayMs : Option Int) (hs : Sound s) :
    Yields (Path [] s ·.1) (settlementProofRetry held errorCode delayMs s) := by
  unfold settlementProofRetry
  split
  · exact .ok (.refl _ s)
  next job hjob =>
  split
  · exact .ok (.refl _ s)
  split
  case h_2 => exact .ok (.refl _ s)
  next now errorCode delayMs _ =>
  split
  · exact .ok (.refl _ s)
  next hlease =>
  obtain ⟨hcode, hheld⟩ := not_or.mp hlease
  have hcode := not_not.mp hcode
  have hstatus := (not_not.mp hheld).1
  split
  · exact .ok (.refl _ s)
  split
  next hattempts =>
    have hmove := @Moves.waiting _ _ _ _ delayMs now hjob hstatus hcode hattempts
    exact ⟨_, by rw [hmove.updateJob hs hjob (terminal_of_leased hstatus)]; rfl, hmove.path⟩
  · exact markDead_moves hs hjob hstatus hcode now

theorem settlementProofDeadLetter_moves (held : Held) (errorCode : Option String) (hs : Sound s) :
    Yields (Path [] s ·.1) (settlementProofDeadLetter held errorCode s) := by
  unfold settlementProofDeadLetter
  split
  · exact .ok (.refl _ s)
  next job hjob =>
  split
  · exact .ok (.refl _ s)
  split
  case h_2 => exact .ok (.refl _ s)
  next now errorCode _ =>
  split
  · exact .ok (.refl _ s)
  next hlease =>
  obtain ⟨hcode, hheld⟩ := not_or.mp hlease
  exact markDead_moves hs hjob (not_not.mp hheld).1 (not_not.mp hcode) now

theorem createJob_moves (hnone : s.jobs kind = none) (hvalid : policy.Valid)
    (hsettled : kind = .proof → s.settlement.isSome) (dueAt now : Int) :
    createJob s (pendingJob kind policy dueAt now) =
        .ok (s.setJob kind (pendingJob kind policy dueAt now)) ∧
      Path [] s (s.setJob kind (pendingJob kind policy dueAt now)) := by
  refine ⟨?_, Moves.path (.created hnone hvalid hsettled)⟩
  rw [createJob, require_pos (checks_pendingJob hvalid kind dueAt now)]
  rfl

theorem reconcileSettlementJob_moves (hvalid : policy.Valid) (now : Int) (s : MarketState) :
    ∃ after made, reconcileSettlementJob policy now s = .ok (after, made) ∧ Path [] s after ∧
      (after.jobs .settlement).isSome ∧ after.settlement = s.settlement ∧
        after.market = s.market ∧ ((s.jobs .settlement).isSome → after = s) := by
  unfold reconcileSettlementJob
  split
  next hnone =>
    obtain ⟨hcreate, hpath⟩ := createJob_moves hnone hvalid (by simp) now now
    exact ⟨_, _, by rw [hcreate]; rfl, hpath, by simp, rfl, rfl, by simp [hnone]⟩
  next job hjob =>
    split <;> exact ⟨s, _, rfl, .refl _ s, by simp [hjob], rfl, rfl, fun _ => rfl⟩

theorem reconcileProofJob_moves (hvalid : policy.Valid) (now delayMs : Int) (s : MarketState) :
    ∃ after made, reconcileProofJob policy now delayMs s = .ok (after, made) ∧ Path [] s after ∧
      ((s.settlement.isSome → (after.jobs .proof).isSome) ∧
        after.jobs .settlement = s.jobs .settlement ∧ after.settlement = s.settlement ∧
          after.market = s.market) ∧ ((s.settlement.isSome → (s.jobs .proof).isSome) → after = s) := by
  unfold reconcileProofJob
  split
  next hnone => exact ⟨s, _, rfl, .refl _ s, by simp [hnone], fun _ => rfl⟩
  next settlement hsettlement hnone =>
    obtain ⟨hcreate, hpath⟩ := createJob_moves hnone hvalid (by simp [hsettlement])
      (proofDueAt settlement now delayMs) now
    refine ⟨_, _, by rw [hcreate]; rfl, hpath, ⟨by simp, ?_, rfl, rfl⟩,
      by simp [hnone, hsettlement]⟩
    exact s.setJob_jobs_of_ne _ (by simp)
  next settlement job hsettlement hjob =>
    split <;> exact ⟨s, _, rfl, .refl _ s, by simp [hjob], fun _ => rfl⟩

/-- A market lacks no job that the repair would make. -/
def Repaired (s : MarketState) : Prop :=
  (s.jobs .settlement).isSome ∧ (s.settlement.isSome → (s.jobs .proof).isSome)

/-- A market that is looked at is repaired, and one that was so stays as it is. -/
theorem reconcileMarket_moves (hvalid : policy.Valid) (now delayMs : Int) (s : MarketState) :
    ∃ after made, reconcileMarket policy now delayMs s = .ok (after, made) ∧ Path [] s after ∧
      Repaired after ∧ after.market = s.market ∧ (Repaired s → after = s) := by
  obtain ⟨mid, made, hmid, hpath, hjob, hsettlement, hmarket, hkept⟩ :=
    reconcileSettlementJob_moves hvalid now s
  obtain ⟨after, made', hafter, hpath', ⟨hproof, hjobs, hsettlement', hmarket'⟩, hkept'⟩ :=
    reconcileProofJob_moves hvalid now delayMs mid
  refine ⟨after, _, by rw [reconcileMarket, hmid, ok_bind]; dsimp only; rw [hafter]; rfl,
    hpath.trans hpath', ⟨by rwa [hjobs], by rwa [hsettlement']⟩, hmarket'.trans hmarket,
    fun hrepaired => ?_⟩
  obtain rfl := hkept hrepaired.1
  exact hkept' hrepaired.2

theorem policy_of_arguments {input : ReconcileTerminalJobs} {found : Int × Nat × Int}
    (h : input.arguments = some found) : input.policy.Valid := by
  unfold ReconcileTerminalJobs.arguments at h
  split at h
  · split at h
    · simp at h
    next hvalid => exact not_not.mp fun hinvalid => hvalid (.inr (.inr (.inr hinvalid)))
  · simp at h

theorem reconcileLooked_moves (input : ReconcileTerminalJobs) (looked : Bool) (s : MarketState) :
    Yields (Path [] s) (reconcileLooked input looked s) := by
  unfold reconcileLooked
  split
  · exact .ok (.refl _ s)
  next now _ delayMs harguments =>
  split
  · obtain ⟨after, made, hafter, hpath, -⟩ :=
      reconcileMarket_moves (policy_of_arguments harguments) now delayMs s
    exact ⟨after, by rw [hafter]; rfl, hpath⟩
  · exact .ok (.refl _ s)

end

/-! ## runs -/

inductive Call
  | recordTerminal (input : RecordTerminal)
  | enqueue (input : EnqueueJob)
  | lease (input : LeaseJobs) (turn : LeaseTurn)
  | complete (held : Held)
  | retry (held : Held) (errorCode : Option String) (delayMs : Option Int)
  | deadLetter (held : Held) (errorCode : Option String)
  | reconcile (input : ReconcileTerminalJobs) (looked : Bool)

namespace Call

/-- What a call makes of a market. -/
def run : Call → MarketState → Except QueueError MarketState
  | recordTerminal input, s => (settlementRecordTerminal input s).map Prod.fst
  | enqueue input, s => (settlementProofEnqueue input s).map Prod.fst
  | lease input turn, s => settlementProofLease input turn s
  | complete held, s => (settlementProofComplete held s).map Prod.fst
  | retry held errorCode delayMs, s =>
      (settlementProofRetry held errorCode delayMs s).map Prod.fst
  | deadLetter held errorCode, s => (settlementProofDeadLetter held errorCode s).map Prod.fst
  | reconcile input looked, s => reconcileLooked input looked s

/-- The lease a call carries. -/
def carries : Call → Option Held
  | complete held => some held
  | retry held _ _ => some held
  | deadLetter held _ => some held
  | _ => none

/-- The tokens a call makes. -/
def makes : Call → List String
  | lease _ turn => [turn.token]
  | _ => []

/-- On a market that is sound no call raises. -/
theorem run_moves (call : Call) {s : MarketState} (hs : Sound s) :
    Yields (Path call.makes s) (call.run s) := by
  cases call with
  | recordTerminal input => exact .map (settlementRecordTerminal_moves input s)
  | enqueue input => exact .map (settlementProofEnqueue_moves input s)
  | lease input turn => exact settlementProofLease_moves input turn hs
  | complete held => exact .map (settlementProofComplete_moves held hs)
  | retry held errorCode delayMs =>
      exact .map (settlementProofRetry_moves held errorCode delayMs hs)
  | deadLetter held errorCode => exact .map (settlementProofDeadLetter_moves held errorCode hs)
  | reconcile input looked => exact reconcileLooked_moves input looked s

/-- Without the lease a call leaves everything as it is. -/
theorem run_of_not_holds {call : Call} {held : Held} (hcarries : call.carries = some held)
    {s : MarketState} {job : SettlementProofJob} (hjob : s.jobs held.jobKind = some job)
    (hlost : ∀ now ∈ held.now, ¬ held.Holds job now) : call.run s = .ok s := by
  cases call with
  | recordTerminal | enqueue | lease | reconcile => simp [carries] at hcarries
  | complete =>
      obtain rfl := Option.some.inj hcarries
      simp only [run, settlementProofComplete, hjob]
      split
      · rfl
      split
      · rfl
      next now hnow => rw [if_pos (hlost now hnow)]; rfl
  | retry _ errorCode delayMs =>
      obtain rfl := Option.some.inj hcarries
      simp only [run, settlementProofRetry, hjob]
      split
      · rfl
      split
      next hnow => rw [if_pos (.inr (hlost _ hnow))]; rfl
      · rfl
  | deadLetter _ errorCode =>
      obtain rfl := Option.some.inj hcarries
      simp only [run, settlementProofDeadLetter, hjob]
      split
      · rfl
      split
      next hnow => rw [if_pos (.inr (hlost _ hnow))]; rfl
      · rfl

end Call

/-- A market, and the lease tokens that have been made for it. -/
structure Queue where
  state : MarketState
  tokens : List String

/-- A market that has no job yet. -/
def Queue.start (s : MarketState) : Queue :=
  { state := { s with jobs := fun _ => none }, tokens := [] }

/-- A call, or a write of somebody else, who does not write the jobs: the triggers of
`settlements` and of `proofs` keep what is on record.  A token that is made is one that never
was. -/
inductive Step : Queue → Option Call → Queue → Prop
  | called {q : Queue} {call : Call} {after : MarketState} :
      (∀ token ∈ call.makes, token ∉ q.tokens) → call.run q.state = .ok after →
      Step q (some call) { state := after, tokens := call.makes ++ q.tokens }
  | raised {q : Queue} {call : Call} {e : QueueError} : call.run q.state = .error e →
      Step q (some call) q
  | outside {q : Queue} {after : MarketState} : Keeps q.state after →
      after.jobs = q.state.jobs → Step q none { q with state := after }

abbrev Runs := Run Step

section

variable {q after : Queue} {call : Option Call} {calls : List (Option Call)}

theorem Step.sound (h : Step q call after) (hs : Sound q.state) : Sound after.state := by
  cases h with
  | @called call _ _ hrun =>
      obtain ⟨after, hafter, hpath⟩ := call.run_moves hs
      obtain rfl := Except.ok.inj (hrun.symm.trans hafter)
      exact hpath.sound hs
  | raised => exact hs
  | outside hkeeps hjobs => exact hkeeps.sound hjobs hs

theorem sound_start (s : MarketState) : Sound (Queue.start s).state := by
  simp [Sound, Queue.start]

theorem Runs.sound {s : MarketState} (h : Runs (.start s) calls q) : Sound q.state :=
  h.invariant (I := fun q => Sound q.state) Step.sound (sound_start s)

/-- The token was made for the market, and no row has it any longer. -/
def Queue.Superseded (q : Queue) (token : String) : Prop :=
  token ∈ q.tokens ∧ ∀ kind job, q.state.jobs kind = some job → job.leaseToken ≠ some token

/-- A row stays, or it moves along a path. -/
theorem Step.path (h : Step q call after) (hs : Sound q.state) :
    after.state.jobs = q.state.jobs ∧ after.tokens = q.tokens ∨
      ∃ tokens, Path tokens q.state after.state ∧ (∀ token ∈ tokens, token ∉ q.tokens) ∧
        after.tokens = tokens ++ q.tokens := by
  cases h with
  | @called call _ hfresh hrun =>
      obtain ⟨after, hafter, hpath⟩ := call.run_moves hs
      obtain rfl := Except.ok.inj (hrun.symm.trans hafter)
      exact .inr ⟨_, hpath, hfresh, rfl⟩
  | raised => exact .inl ⟨rfl, rfl⟩
  | outside _ hjobs => exact .inl ⟨hjobs, rfl⟩

theorem Step.superseded (h : Step q call after) (hs : Sound q.state) {token : String}
    (ht : q.Superseded token) : after.Superseded token := by
  rcases h.path hs with ⟨hjobs, htokens⟩ | ⟨tokens, hpath, hfresh, htokens⟩
  · simpa only [Queue.Superseded, hjobs, htokens] using ht
  · refine ⟨by simp [htokens, ht.1], fun kind job hjob htoken => ?_⟩
    rcases hpath.token ⟨job, hjob, htoken⟩ with hmade | ⟨old, hold, hhad⟩
    · exact hfresh token hmade ht.1
    · exact ht.2 kind old hold hhad

theorem Step.terminal (h : Step q call after) (hs : Sound q.state) {kind : JobKind}
    {job : SettlementProofJob} (hjob : q.state.jobs kind = some job) (hterminal : job.terminal) :
    after.state.jobs kind = some job := by
  rcases h.path hs with ⟨hjobs, -⟩ | ⟨tokens, hpath, -⟩
  · rwa [hjobs]
  · exact hpath.terminal hjob hterminal

/-- What is promised of the jobs of a market, and of the calls that are still to come. -/
structure Fenced (q : Queue) : Prop where
  checks : ∀ kind job, q.state.jobs kind = some job →
    job.Checks ∧ job.attempts ≤ job.maxAttempts
  answers : ∀ call : Call, ∃ after, call.run q.state = .ok after
  lost : ∀ (call : Call) held job, call.carries = some held →
    q.state.jobs held.jobKind = some job →
    job.leaseToken ≠ held.leaseToken ∨
      (∀ now ∈ held.now, job.leaseExpiresAt.any (· ≤ now)) → call.run q.state = .ok q.state
  superseded : ∀ token, q.Superseded token → ∀ calls after, Runs q calls after →
    after.Superseded token
  finished : ∀ kind job, q.state.jobs kind = some job →
    job.status = .complete ∨ job.status = .dead → ∀ calls after, Runs q calls after →
      after.state.jobs kind = some job
  settlementComplete : ∀ job, q.state.jobs .settlement = some job → job.status = .complete →
    GraphComplete q.state
  proofComplete : ∀ job, q.state.jobs .proof = some job → job.status = .complete →
    ProofCompletionAllowed q.state
  proofDead : ∀ job, q.state.jobs .proof = some job → job.status = .dead →
    ProofDeadAllowed q.state

theorem Sound.fenced (hs : Sound q.state) : Fenced q where
  checks kind job hjob := ⟨(hs kind job hjob).checks, (hs kind job hjob).checks.maxAttempts.2.2⟩
  answers call := by
    obtain ⟨after, hafter, -⟩ := call.run_moves hs
    exact ⟨after, hafter⟩
  lost call held job hcarries hjob hlost := by
    apply Call.run_of_not_holds hcarries hjob
    rintro now hnow ⟨-, ⟨-, htoken⟩, hexpires⟩
    rcases hlost with hother | hexpired
    · exact hother htoken
    · exact hexpires (hexpired now hnow)
  superseded token ht calls after hrun :=
    (hrun.invariant (I := fun q => Sound q.state ∧ q.Superseded token)
      (fun hstep ⟨hs, ht⟩ => ⟨hstep.sound hs, hstep.superseded hs ht⟩) ⟨hs, ht⟩).2
  finished kind job hjob hstatus calls after hrun :=
    (hrun.invariant (I := fun q => Sound q.state ∧ q.state.jobs kind = some job)
      (fun hstep ⟨hs, hjob⟩ => ⟨hstep.sound hs,
        hstep.terminal hs hjob (by simpa [SettlementProofJob.terminal] using hstatus)⟩)
      ⟨hs, hjob⟩).2
  settlementComplete job hjob hstatus := by
    have hwarranted := (hs .settlement job hjob).warranted
    rwa [hstatus] at hwarranted
  proofComplete job hjob hstatus := by
    have hwarranted := (hs .proof job hjob).warranted
    rwa [hstatus] at hwarranted
  proofDead job hjob hstatus := by
    have hwarranted := (hs .proof job hjob).warranted
    rwa [hstatus] at hwarranted

/-- **The jobs behind a settlement are fenced**, after any calls of any workers. -/
theorem settlement_jobs_fenced {s : MarketState} (h : Runs (.start s) calls q) : Fenced q :=
  (Runs.sound h).fenced

end

namespace Sample

def policy : QueuePolicy := ⟨2, 1000, 1, 10⟩

def facts : MarketState where
  market := some ⟨"usdc", .settling, some .chainProven⟩
  settlement := none
  wagerApplied := true
  statProof := none
  jobs _ := none

def recordInput : RecordTerminal := ⟨.claimWon, some 7, [3, 7], .chainProven, some 0, policy⟩
def proofInput : EnqueueJob := ⟨.proof, some 0, some 0, policy⟩
def leaseInput (worker : String) (now : Int) : LeaseJobs := ⟨.proof, some worker, some now, some 1⟩
def first : Held := ⟨.proof, some "worker 1", some "token 1", some 500000⟩

/-- Two workers let their attempts expire, and a third one finds the job exhausted. -/
def exhausted : List Call :=
  [.recordTerminal recordInput, .enqueue proofInput,
    .lease (leaseInput "worker 1" 0) ⟨true, true, "token 1"⟩,
    .complete first,
    .lease (leaseInput "worker 2" 2000000) ⟨true, true, "token 2"⟩,
    .lease (leaseInput "worker 3" 4000000) ⟨true, true, "token 3"⟩]

end Sample

/-- One call, if its tokens are new and it does not raise. -/
def Queue.next (q : Queue) (call : Call) : Option Queue :=
  if ∀ token ∈ call.makes, token ∉ q.tokens then
    (call.run q.state).toOption.map fun after =>
      { state := after, tokens := call.makes ++ q.tokens }
  else none

theorem runs_of_calls {calls : List Call} {q after : Queue}
    (h : calls.foldlM Queue.next q = some after) : Runs q (calls.map some) after := by
  induction calls generalizing q with
  | nil =>
      obtain rfl : q = after := by simpa using h
      exact .refl q
  | cons call calls ih =>
      rw [List.foldlM_cons, Option.bind_eq_bind, Option.bind_eq_some_iff] at h
      obtain ⟨mid, hmid, hrest⟩ := h
      unfold Queue.next at hmid
      split at hmid
      next hfresh =>
        obtain ⟨s, hrun, rfl⟩ := Option.map_eq_some_iff.mp hmid
        have hcalled : call.run q.state = .ok s := by
          cases hcall : call.run q.state <;> simp_all [Except.toOption]
        exact (Run.single (.called hfresh hcalled)).append (ih hrest)
      · simp at hmid

open Sample in
/-- Two attempts expire, one worker comes too late, and the next lease gives the proof up. -/
theorem exhausted_proof_fenced :
    ∃ q, Runs (.start facts) (exhausted.map some) q ∧
      (q.state.jobs .proof).map SettlementProofJob.status = some .dead ∧
      q.state.statProof = some .failed ∧ Fenced q := by
  have hreplay : ∃ q ∈ exhausted.foldlM Queue.next (.start facts),
      (q.state.jobs .proof).map SettlementProofJob.status = some .dead ∧
        q.state.statProof = some .failed := by decide +kernel
  obtain ⟨q, hq, hstatus, hproof⟩ := hreplay
  have hrun := runs_of_calls hq
  exact ⟨q, hrun, hstatus, hproof, settlement_jobs_fenced hrun⟩

end CalledIt.Settlement
