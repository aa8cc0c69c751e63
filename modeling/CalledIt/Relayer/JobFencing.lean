import CalledIt.Relayer.JobQueue

/-!
# CalledIt.Relayer.JobFencing

A job of the relayer is fenced, and it does not sign twice.

`Moves` says once what a call can do to a row.  From it follow what holds of every row of
the queue (`Sound`), that a token which has been superseded stays so, and that a stored
transaction gives way to another one only through a retry that looked at the full history
and at the block height (`relayer_jobs_fenced`).
-/

namespace CalledIt.Relayer.Jobs

open Lib

variable {π : Type}

/-! ## what a call does -/

/-- The full history was looked at, and the transaction can land no longer. -/
def Expired (job : RelayerJob π) (input : RetryJob) : Prop :=
  input.fullHistoryCheckedAt.isSome ∧
    ∃ height ∈ input.currentBlockHeight, ∀ stored ∈ job.lastValidBlockHeight, stored < height

inductive Moves (job : RelayerJob π) : Call π → RelayerJob π → Prop
  | same (call : Call π) : Moves job call job
  | rearmed {input : EnqueueRelayerJob π} : Rearms job input.now →
      Moves job (.enqueue input) (rearmed job input.dueAt input.now)
  | leased {workerId token : String} {now : Int} : Candidate job now →
      Moves job (.lease workerId token now) (escrowRelayerLease workerId token now job)
  | signed {lease : RelayerLease} {now dueAt : Int} {prepared : PreparedTransaction} :
      job.holds lease → job.rawTransaction = none → job.state = .leased →
      Moves job (.recordSigned lease now prepared) (recorded job prepared dueAt now)
  | submitted {lease : RelayerLease} {now : Int} {expectedSignature : String} :
      job.holds lease → job.state = .signed →
      Moves job (.markSubmitted lease now expectedSignature) (submitted job now)
  | unknown {input : RetryJob} : job.holds input.lease → input.confirmationUnknown = true →
      Moves job (.retry input) (toUnknown job input)
  | waiting {input : RetryJob} : job.holds input.lease →
      job.state = .leased ∨ job.state = .signed → input.confirmationUnknown = false →
      (job.rawTransaction.isSome → Expired job input) →
      Moves job (.retry input) (toRetryWait job input)
  | completed {lease : RelayerLease} {now : Int} : job.holds lease → job.state ≠ .complete →
      Moves job (.complete lease now) (completed job now)
  | dead {lease : RelayerLease} {errorCode : String} {now : Int} : job.holds lease →
      job.state ≠ .dead →
      Moves job (.deadLetter lease errorCode now) (deadLettered job errorCode now)

theorem moves_recordSigned (lease : RelayerLease) (now : Int) (prepared : PreparedTransaction)
    (job : RelayerJob π) :
    Moves job (.recordSigned lease now prepared)
      ((Call.recordSigned lease now prepared).run job) := by
  simp only [Call.run, escrowRelayerRecordSigned]
  split
  · exact .same _
  next hlease =>
  split
  · split
    · exact .same _
    · exact .same _
  next hraw =>
  split
  · exact .same _
  next hstate =>
  cases hcheck : require (isMessageHash (lower prepared.transactionMessageHashHex))
      RelayerQueueError.checkViolation with
  | error => exact .same _
  | ok =>
      cases hdue : job.leaseExpiresAt with
      | none => exact .same _
      | some dueAt =>
          simp only [not_or, Bool.not_eq_true', Bool.not_eq_false, ne_eq, not_not] at hlease hstate
          exact .signed hlease.1 (by simpa using hraw) hstate

theorem moves_markSubmitted (lease : RelayerLease) (now : Int) (expectedSignature : String)
    (job : RelayerJob π) :
    Moves job (.markSubmitted lease now expectedSignature)
      ((Call.markSubmitted lease now expectedSignature).run job) := by
  simp only [Call.run, escrowRelayerMarkSubmitted]
  split
  · exact .same _
  next hlease =>
  split
  · exact .same _
  split
  · exact .same _
  split
  · exact .same _
  next hstate => exact .submitted (by simpa using hlease) (by simpa using hstate)

theorem moves_retry (input : RetryJob) (job : RelayerJob π) :
    Moves job (.retry input) ((Call.retry input).run job) := by
  simp only [Call.run, escrowRelayerRetry]
  split
  · exact .same _
  next hlease =>
  split
  · exact .same _
  next hstate =>
  split
  next hunknown => exact .unknown (by simpa using hlease) hunknown
  next hunknown =>
  split
  · exact .same _
  next hexpired =>
  have hopen : job.state = .leased ∨ job.state = .signed := by
    rwa [ne_eq, ne_eq, ← not_or, not_not] at hstate
  refine .waiting (by simpa using hlease) hopen (by simpa using hunknown) fun hraw => ?_
  simp only [hraw, true_and, not_or] at hexpired
  obtain ⟨hchecked, hheight, hpast⟩ := hexpired
  obtain ⟨height, hheight⟩ := Option.ne_none_iff_exists'.mp hheight
  refine ⟨Option.isSome_iff_ne_none.mpr hchecked, height, hheight, fun stored hstored => ?_⟩
  rw [hheight, Option.mem_def.mp hstored] at hpast
  simpa using hpast

theorem Call.run_moves (call : Call π) (job : RelayerJob π) : Moves job call (call.run job) := by
  cases call with
  | enqueue | lease => exact .same _
  | recordSigned lease now prepared => exact moves_recordSigned lease now prepared job
  | markSubmitted lease now signature => exact moves_markSubmitted lease now signature job
  | retry input => exact moves_retry input job
  | complete lease now =>
      simp only [Call.run, escrowRelayerComplete]
      split
      · exact .same _
      next hstate =>
      split
      · exact .same _
      next hlease => exact .completed (by simpa using hlease) hstate
  | deadLetter lease errorCode now =>
      simp only [Call.run, escrowRelayerDeadLetter]
      split
      · exact .same _
      next hstate =>
      split
      · exact .same _
      next hlease => exact .dead (by simpa using hlease) hstate

section

variable [DecidableEq π] {key : String} {slot after : Slot π} {call : Call π}

/-- A row that is there moves and stays there. -/
theorem Step.moves (h : Step key slot call after) {job : RelayerJob π}
    (hrow : slot.row = some job) : ∃ job', after.row = some job' ∧ Moves job call job' := by
  cases h with
  | @enqueued input job' _ _ _ h =>
      refine ⟨job', rfl, ?_⟩
      simp only [escrowRelayerEnqueue, hrow, bind_ok_iff, pure_ok_iff] at h
      obtain ⟨_, _, _, _, rfl⟩ := h
      split
      next hrearms => exact .rearmed hrearms
      · exact .same _
  | refused => exact ⟨job, hrow, .same _⟩
  | lease _ _ _ hrow' hready =>
      obtain rfl : job = _ := Option.some.inj (hrow.symm.trans hrow')
      exact ⟨_, rfl, .leased hready⟩
  | called => exact ⟨call.run job, by rw [hrow, Option.map_some], call.run_moves job⟩

/-- A row appears by being created. -/
theorem Step.creates (h : Step key slot call after) (hrow : slot.row = none) :
    after.row = none ∨ ∃ input id, PolicyValid input ∧ after.row = some (created input id) := by
  cases h with
  | @enqueued input job _ id _ h =>
      simp only [escrowRelayerEnqueue, hrow, bind_ok_iff, require_ok_iff, pure_ok_iff] at h
      obtain ⟨_, hvalid, _, _, rfl⟩ := h
      exact .inr ⟨input, id, hvalid, rfl⟩
  | refused => exact .inl hrow
  | lease _ _ _ hrow' => simp [hrow] at hrow'
  | called => exact .inl (by rw [hrow, Option.map_none])

end

/-! ## every row -/

/-- What holds of a row at all times. -/
structure Sound (job : RelayerJob π) : Prop where
  attempts : job.attempts ≤ job.maxAttempts
  policy : job.custodyMode = "escrow" ∧ 0 < job.custodyVersion ∧ 0 < job.maxAttempts
  stored : (job.rawTransaction.isSome = job.expectedSignature.isSome) ∧
    (job.rawTransaction.isSome = job.lastValidBlockHeight.isSome)
  signed : job.state = .signed ∨ job.state = .submitted → job.rawTransaction.isSome
  idle : job.state = .pending ∨ job.state = .retryWait → job.rawTransaction = none
  unsigned : job.rawTransaction = none →
    job.transactionMessageHashHex = none ∧ job.submittedAt = none
  leased : job.state = .leased → job.leaseExpiresAt.isSome
  released : job.state = .complete ∨ job.state = .dead → job.leaseToken = none
  unfinished : job.state ≠ .complete → job.completedAt = none ∧ job.confirmedAt = none

theorem sound_created {input : EnqueueRelayerJob π} {id : String} (h : PolicyValid input) :
    Sound (created input id) := by
  simp only [PolicyValid, not_or, ne_eq, not_not] at h
  obtain ⟨hmode, hversion, hattempts, -, -⟩ := h
  constructor <;> simp [created, hmode]
  omega

variable {lease : RelayerLease}

theorem holds_iff {job : RelayerJob π} :
    job.holds lease ↔
      job.leaseOwner = some lease.workerId ∧ job.leaseToken = some lease.leaseToken := by
  simp [RelayerJob.holds]

/-- Neither a complete nor a dead row has a lease. -/
theorem Sound.open_of_holds {job : RelayerJob π} (hs : Sound job)
    (h : job.holds lease) : job.state ≠ .complete ∧ job.state ≠ .dead := by
  have htoken := (holds_iff.mp h).2
  constructor <;> intro hstate <;> simp [hs.released, hstate] at htoken

variable {job' : RelayerJob π}

theorem Moves.sound {job : RelayerJob π} {call : Call π} (h : Moves job call job')
    (hs : Sound job) : Sound job' := by
  have hpolicy := hs.policy
  cases h with
  | same => exact hs
  | rearmed hr =>
      obtain ⟨-, -, hstate, hcompleted, hconfirmed, -, -, hraw, hsig, hhash, hheight, hsub⟩ := hr
      constructor <;> simp [Jobs.rearmed, RelayerJob.released, *]
  | leased hc =>
      have hlt : job.rawTransaction.isSome ∧ job.expectedSignature.isSome ∨
          job.attempts < job.maxAttempts := by
        rcases hc.1 with hlt | ⟨hraw, hsig, -⟩
        · exact .inr hlt
        · exact .inl ⟨hraw, hsig⟩
      have hstate : job.state ≠ .complete := by
        rintro hstate
        simp [Candidate, hstate] at hc
      constructor
      · simp only [escrowRelayerLease]
        split
        · exact min_le_right _ _
        · next hraw => exact Nat.succ_le_of_lt (hlt.resolve_left hraw)
      · exact hpolicy
      · exact hs.stored
      · simp [escrowRelayerLease]
      · simp [escrowRelayerLease]
      · exact hs.unsigned
      · simp [escrowRelayerLease]
      · simp [escrowRelayerLease]
      · exact fun _ => hs.unfinished hstate
  | signed hl hraw hstate =>
      have hopen := hs.unfinished (hs.open_of_holds hl).1
      constructor
      · exact hs.attempts
      · exact hpolicy
      all_goals simp [recorded, hopen]
  | submitted hl hstate =>
      have hraw := hs.signed (.inl hstate)
      have hopen := hs.unfinished (hs.open_of_holds hl).1
      constructor
      · exact hs.attempts
      · exact hpolicy
      · exact hs.stored
      · exact fun _ => hraw
      · simp [Jobs.submitted]
      · intro hnone
        simp [Jobs.submitted] at hnone
        simp [hnone] at hraw
      all_goals simp [Jobs.submitted, hopen]
  | unknown hl =>
      have hopen := hs.unfinished (hs.open_of_holds hl).1
      constructor
      · exact hs.attempts
      · exact hpolicy
      · exact hs.stored
      · simp [toUnknown]
      · simp [toUnknown]
      · exact hs.unsigned
      all_goals simp [toUnknown, RelayerJob.released, hopen]
  | waiting hl =>
      have hopen := hs.unfinished (hs.open_of_holds hl).1
      constructor
      · exact hs.attempts
      · exact hpolicy
      all_goals simp [toRetryWait, RelayerJob.released, hopen]
  | completed hl =>
      constructor
      · exact hs.attempts
      · exact hpolicy
      · exact hs.stored
      · simp [Jobs.completed]
      · simp [Jobs.completed]
      · exact hs.unsigned
      all_goals simp [Jobs.completed, RelayerJob.released]
  | dead hl =>
      have hopen := hs.unfinished (hs.open_of_holds hl).1
      constructor
      · exact hs.attempts
      · exact hpolicy
      · exact hs.stored
      · simp [deadLettered]
      · simp [deadLettered]
      · exact hs.unsigned
      all_goals simp [deadLettered, RelayerJob.released, hopen]

/-! ## tokens -/

/-- Without its lease a call changes nothing. -/
theorem Moves.eq_of_not_holds {job : RelayerJob π} {call : Call π} (h : Moves job call job')
    (hcarries : call.carries = some lease) (hl : ¬ job.holds lease) :
    job' = job := by
  cases h with
  | same => rfl
  | rearmed | leased => simp [Call.carries] at hcarries
  | signed hl' | submitted hl' | unknown hl' | waiting hl' | completed hl' | dead hl' =>
      obtain rfl := Option.some.inj hcarries
      exact absurd hl' hl

/-- A row has the token it had, or none, or the one of the lease. -/
theorem Moves.token {job : RelayerJob π} {call : Call π} (h : Moves job call job') {token : String}
    (htoken : job'.leaseToken = some token) :
    job.leaseToken = some token ∨ ∃ workerId now, call = .lease workerId token now := by
  cases h with
  | same => exact .inl htoken
  | signed | submitted => exact .inl htoken
  | leased =>
      obtain rfl := Option.some.inj htoken
      exact .inr ⟨_, _, rfl⟩
  | rearmed | unknown | waiting | completed | dead =>
      simp [Jobs.rearmed, toUnknown, toRetryWait, Jobs.completed, deadLettered,
        RelayerJob.released] at htoken

section

variable [DecidableEq π] {key : String} {slot after : Slot π} {call : Call π}

/-- A token that is made is one that never was. -/
theorem Step.tokens (h : Step key slot call after) :
    after.tokens = slot.tokens ∨ ∃ workerId token now, call = .lease workerId token now ∧
      token ∉ slot.tokens ∧ after.tokens = token :: slot.tokens := by
  cases h with
  | lease _ _ _ _ _ _ hfresh => exact .inr ⟨_, _, _, rfl, hfresh, rfl⟩
  | enqueued | refused | called => exact .inl rfl

theorem Step.mem_tokens (h : Step key slot call after) {token : String}
    (ht : token ∈ slot.tokens) : token ∈ after.tokens := by
  rcases h.tokens with htokens | ⟨_, _, _, _, _, htokens⟩
  · rwa [htokens]
  · rw [htokens]
    exact List.mem_cons_of_mem _ ht

theorem Step.token_mem (h : Step key slot call after) {job : RelayerJob π}
    (hrow : slot.row = some job) (hafter : after.row = some job')
    (hs : ∀ token, job.leaseToken = some token → token ∈ slot.tokens) {token : String}
    (htoken : job'.leaseToken = some token) : token ∈ after.tokens := by
  obtain ⟨job'', hafter', hmoves⟩ := h.moves hrow
  obtain rfl := Option.some.inj (hafter.symm.trans hafter')
  rcases hmoves.token htoken with hold | ⟨workerId, now, rfl⟩
  · exact h.mem_tokens (hs token hold)
  · rcases h.tokens with htokens | ⟨_, _, _, hcall, _, htokens⟩
    · cases h with
      | lease => simp at htokens
      | called _ hcarries => simp [Call.carries] at hcarries
    · obtain ⟨-, rfl, -⟩ := Call.lease.inj hcall
      rw [htokens]
      exact List.mem_cons_self

/-- The token was made for the row, and the row has it no longer. -/
def Slot.Superseded (slot : Slot π) (token : String) : Prop :=
  token ∈ slot.tokens ∧ ∀ job, slot.row = some job → job.leaseToken ≠ some token

theorem Slot.Superseded.step {token : String} (h : Step key slot call after)
    (ht : slot.Superseded token) : after.Superseded token := by
  refine ⟨h.mem_tokens ht.1, fun job hjob htoken => ?_⟩
  cases hrow : slot.row with
  | none =>
      rcases h.creates hrow with hnone | ⟨input, id, -, hcreated⟩
      · simp [hnone] at hjob
      · obtain rfl := Option.some.inj (hcreated.symm.trans hjob)
        simp [created] at htoken
  | some old =>
      obtain ⟨job', hafter, hmoves⟩ := h.moves hrow
      obtain rfl := Option.some.inj (hafter.symm.trans hjob)
      rcases hmoves.token htoken with hold | ⟨workerId, now, rfl⟩
      · exact ht.2 old hrow hold
      · cases h with
        | lease _ _ _ _ _ _ hfresh => exact hfresh ht.1
        | called _ hcarries => simp [Call.carries] at hcarries

/-- A call with a superseded token finds the row as it leaves it. -/
theorem Step.row_of_superseded (h : Step key slot call after) (hcarries : call.carries = some lease)
    (ht : slot.Superseded lease.leaseToken) :
    after.row = slot.row := by
  cases hrow : slot.row with
  | none =>
      cases h with
      | enqueued | refused | lease => simp [Call.carries] at hcarries
      | called => rw [hrow, Option.map_none]
  | some job =>
      obtain ⟨job', hafter, hmoves⟩ := h.moves hrow
      have hlost : ¬ job.holds lease := fun hl => ht.2 job hrow (holds_iff.mp hl).2
      rw [hafter, hmoves.eq_of_not_holds hcarries hlost]

end

/-- The row of a slot, and its token among the ones that were made. -/
structure Slot.Sound (slot : Slot π) : Prop where
  row : ∀ job, slot.row = some job → Jobs.Sound job
  token : ∀ job token, slot.row = some job → job.leaseToken = some token → token ∈ slot.tokens

theorem Slot.Sound.step [DecidableEq π] {key : String} {slot after : Slot π} {call : Call π}
    (h : Step key slot call after) (hs : slot.Sound) : after.Sound := by
  cases hrow : slot.row with
  | none =>
      rcases h.creates hrow with hnone | ⟨input, id, hvalid, hcreated⟩
      · exact ⟨by simp [hnone], by simp [hnone]⟩
      · constructor
        · intro job hjob
          obtain rfl := Option.some.inj (hcreated.symm.trans hjob)
          exact sound_created hvalid
        · intro job token hjob htoken
          obtain rfl := Option.some.inj (hcreated.symm.trans hjob)
          simp [created] at htoken
  | some job =>
      obtain ⟨job', hafter, hmoves⟩ := h.moves hrow
      constructor
      · intro job'' hjob
        obtain rfl := Option.some.inj (hafter.symm.trans hjob)
        exact hmoves.sound (hs.row job hrow)
      · intro job'' token hjob htoken
        obtain rfl := Option.some.inj (hafter.symm.trans hjob)
        exact h.token_mem hrow hafter (fun token htoken => hs.token job token hrow htoken) htoken

theorem Sound.all_stored {job : RelayerJob π} (hs : Sound job) (hraw : job.rawTransaction.isSome) :
    job.rawTransaction.isSome ∧ job.expectedSignature.isSome ∧ job.lastValidBlockHeight.isSome := by
  rw [← hs.stored.1, ← hs.stored.2]
  exact ⟨hraw, hraw, hraw⟩

theorem Sound.none_stored {job : RelayerJob π} (hs : Sound job) (hraw : job.rawTransaction = none) :
    job.rawTransaction = none ∧ job.expectedSignature = none ∧ job.lastValidBlockHeight = none := by
  have hstored := hs.stored
  rw [hraw, Option.isSome_none] at hstored
  exact ⟨hraw, Option.isSome_eq_false_iff.mp hstored.1.symm |> Option.isNone_iff_eq_none.mp,
    Option.isSome_eq_false_iff.mp hstored.2.symm |> Option.isNone_iff_eq_none.mp⟩

theorem Moves.eq_of_complete {job : RelayerJob π} {call : Call π} (h : Moves job call job')
    (hs : Sound job) (hstate : job.state = .complete) : job' = job := by
  cases h with
  | same => rfl
  | rearmed hr => exact absurd hstate hr.2.2.1
  | leased hc => simp [Candidate, hstate] at hc
  | signed hl | submitted hl | unknown hl | waiting hl | completed hl | dead hl =>
      exact absurd hstate (hs.open_of_holds hl).1

theorem Moves.eq_of_dead {job : RelayerJob π} {call : Call π} (h : Moves job call job')
    (hs : Sound job) (hstate : job.state = .dead) :
    job' = job ∨ ∃ input, call = .enqueue input ∧ job' = Jobs.rearmed job input.dueAt input.now := by
  cases h with
  | same => exact .inl rfl
  | rearmed => exact .inr ⟨_, rfl, rfl⟩
  | leased hc => simp [Candidate, hstate] at hc
  | signed hl | submitted hl | unknown hl | waiting hl | completed hl | dead hl =>
      exact absurd hstate (hs.open_of_holds hl).2

theorem Moves.enqueued {job : RelayerJob π} {input : EnqueueRelayerJob π}
    (h : Moves job (.enqueue input) job') :
    job' = job ∨ (job' = Jobs.rearmed job input.dueAt input.now ∧ Rearms job input.now) := by
  cases h with
  | same => exact .inl rfl
  | rearmed hr => exact .inr ⟨rfl, hr⟩

/-! ## the stored transaction -/

/-- The columns of the transaction. -/
def storedTransaction (job : RelayerJob π) : Option String × Option String × Option Nat :=
  (job.rawTransaction, job.expectedSignature, job.lastValidBlockHeight)

/-- A stored transaction stays, unless a retry found that it has expired. -/
theorem Moves.stored {job : RelayerJob π} {call : Call π} (h : Moves job call job')
    (hraw : job.rawTransaction.isSome) :
    storedTransaction job' = storedTransaction job ∨
      ∃ input, call = .retry input ∧ input.confirmationUnknown = false ∧ Expired job input := by
  cases h with
  | same | leased | submitted | unknown | completed | dead => exact .inl rfl
  | rearmed hr =>
      obtain ⟨-, -, -, -, -, -, -, hnone, -⟩ := hr
      simp [hnone] at hraw
  | signed _ hnone => simp [hnone] at hraw
  | waiting _ _ hknown hexpired => exact .inr ⟨_, rfl, hknown, hexpired hraw⟩

section

variable [DecidableEq π] {key : String} {slot after : Slot π} {calls : List (Call π)}

variable {job : RelayerJob π}

/-- A row that is there stays there. -/
theorem Runs.row (h : Runs key slot calls after)
    (hrow : slot.row = some job) : ∃ job', after.row = some job' := by
  induction h with
  | refl => exact ⟨job, hrow⟩
  | snoc _ hstep ih =>
      obtain ⟨mid, hmid⟩ := ih
      obtain ⟨job', hafter, -⟩ := hstep.moves hmid
      exact ⟨job', hafter⟩

/-- Among the calls is a retry that found the row with this transaction, and that the
transaction has expired. -/
def Retired (key : String) (slot : Slot π) (calls : List (Call π)) (job : RelayerJob π) : Prop :=
  ∃ before input rest mid old, calls = before ++ Call.retry input :: rest ∧
    Runs key slot before mid ∧ mid.row = some old ∧
    storedTransaction old = storedTransaction job ∧ input.confirmationUnknown = false ∧
    Expired old input

/-- In the end the transaction is the one that was stored, or it was retired. -/
theorem Runs.stored (h : Runs key slot calls after) (hrow : slot.row = some job)
    (hafter : after.row = some job') (hraw : job.rawTransaction.isSome) :
    storedTransaction job' = storedTransaction job ∨ Retired key slot calls job := by
  induction h generalizing job' with
  | refl =>
      rw [Option.some.inj (hrow.symm.trans hafter)]
      exact .inl rfl
  | @snoc mid _ call calls hrun hstep ih =>
      obtain ⟨old, hold⟩ := Runs.row hrun hrow
      rcases ih hold with hsame | ⟨before, input, rest, mid', old', rfl, hretired⟩
      · have hraw' : old.rawTransaction.isSome := by
          rw [show old.rawTransaction = job.rawTransaction from congrArg Prod.fst hsame]
          exact hraw
        obtain ⟨job'', hafter', hmoves⟩ := hstep.moves hold
        obtain rfl := Option.some.inj (hafter.symm.trans hafter')
        rcases hmoves.stored hraw' with hkeeps | ⟨input, rfl, hknown, hexpired⟩
        · exact .inl (hkeeps.trans hsame)
        · exact .inr ⟨calls, input, [], mid, old, rfl, hrun, hold, hsame, hknown, hexpired⟩
      · exact .inr ⟨before, input, rest ++ [call], mid', old', by simp, hretired⟩

/-! ## the queue -/

/-- What is promised of the row of a key, and of the calls that are still to come. -/
structure Fenced (key : String) (slot : Slot π) : Prop where
  attempts : ∀ job, slot.row = some job → job.attempts ≤ job.maxAttempts
  stored : ∀ job, slot.row = some job →
    (job.rawTransaction = none ∧ job.expectedSignature = none ∧ job.lastValidBlockHeight = none) ∨
      (job.rawTransaction.isSome ∧ job.expectedSignature.isSome ∧ job.lastValidBlockHeight.isSome)
  signed : ∀ job, slot.row = some job → job.state = .signed ∨ job.state = .submitted →
    job.rawTransaction.isSome ∧ job.expectedSignature.isSome ∧ job.lastValidBlockHeight.isSome
  superseded : ∀ lease : RelayerLease, slot.Superseded lease.leaseToken →
    ∀ calls mid, Runs key slot calls mid → ∀ call after, call.carries = some lease →
      Step key mid call after → after.row = mid.row
  replaced : ∀ job, slot.row = some job → job.rawTransaction.isSome →
    ∀ calls after job', Runs key slot calls after → after.row = some job' →
      job'.rawTransaction.isSome → storedTransaction job' ≠ storedTransaction job →
        Retired key slot calls job
  complete : ∀ job, slot.row = some job → job.state = .complete →
    ∀ calls after, Runs key slot calls after → after.row = slot.row
  dead : ∀ job, slot.row = some job → job.state = .dead → ∀ call after, Step key slot call after →
    after.row = slot.row ∨ ∃ input, call = .enqueue input ∧
      after.row = some (rearmed job input.dueAt input.now)
  rearmed : ∀ job, slot.row = some job → ∀ input after, Step key slot (.enqueue input) after →
    after.row = slot.row ∨ (after.row = some (Jobs.rearmed job input.dueAt input.now) ∧
      job.rawTransaction = none ∧ job.expectedSignature = none ∧
      job.lastValidBlockHeight = none ∧ job.kind ≠ .positionPlacement)

theorem Runs.sound (h : Runs key .empty calls slot) : slot.Sound :=
  h.invariant Slot.Sound.step ⟨by simp [Slot.empty], by simp [Slot.empty]⟩

/-- A complete row stays as it is. -/
theorem Runs.row_of_complete (h : Runs key slot calls after) (hs : slot.Sound)
    (hrow : slot.row = some job) (hstate : job.state = .complete) :
    after.row = slot.row := by
  induction h with
  | refl => rfl
  | snoc hrun hstep ih =>
      obtain ⟨job', hafter, hmoves⟩ := hstep.moves (ih.trans hrow)
      rw [hafter, hrow, hmoves.eq_of_complete (hs.row job hrow) hstate]

/-- **Fenced, and signed once**: the row of a key, after any calls of any workers. -/
theorem relayer_jobs_fenced (h : Runs key .empty calls slot) : Fenced key slot where
  attempts job hrow := ((Runs.sound h).row job hrow).attempts
  stored job hrow := by
    have hs := (Runs.sound h).row job hrow
    cases hraw : job.rawTransaction with
    | none => exact .inl (hraw ▸ hs.none_stored hraw)
    | some raw => exact .inr (hraw ▸ hs.all_stored (by rw [hraw, Option.isSome_some]))
  signed job hrow hstate := by
    have hs := (Runs.sound h).row job hrow
    exact hs.all_stored (hs.signed hstate)
  superseded lease ht calls mid hrun call after hcarries hstep :=
    hstep.row_of_superseded hcarries
      (hrun.invariant (I := fun slot => slot.Superseded lease.leaseToken) Slot.Superseded.step ht)
  replaced job hrow hraw calls after job' hrun hafter _ hne :=
    (Runs.stored hrun hrow hafter hraw).resolve_left hne
  complete job hrow hstate calls after hrun := Runs.row_of_complete hrun (Runs.sound h) hrow hstate
  dead job hrow hstate call after hstep := by
    obtain ⟨job', hafter, hmoves⟩ := hstep.moves hrow
    rcases hmoves.eq_of_dead ((Runs.sound h).row job hrow) hstate with rfl | ⟨input, rfl, rfl⟩
    · exact .inl (hafter.trans hrow.symm)
    · exact .inr ⟨input, rfl, hafter⟩
  rearmed job hrow input after hstep := by
    obtain ⟨job', hafter, hmoves⟩ := hstep.moves hrow
    rcases hmoves.enqueued with rfl | ⟨rfl, hr⟩
    · exact .inl (hafter.trans hrow.symm)
    · obtain ⟨-, hkind, -, -, -, -, -, hraw, hsig, -, hheight, -⟩ := hr
      exact .inr ⟨hafter, hraw, hsig, hheight, hkind⟩

end

namespace Sample

def input : EnqueueRelayerJob Unit where
  kind := .settlementSubmission
  idempotencyKey := "settle"
  cluster := "devnet"
  programId := "program"
  custodyMode := "escrow"
  custodyVersion := 1
  marketId := some "market"
  ownerPubkey := none
  payload := ()
  dueAt := 0
  maxAttempts := 5
  leaseMs := 1000
  now := 0

def prepared (signature : String) (height : Nat) : PreparedTransaction where
  rawTransaction := "raw " ++ signature
  expectedSignature := signature
  lastValidBlockHeight := height
  transactionMessageHashHex := String.ofList (List.replicate 64 'a')

def first : RelayerLease := ⟨"worker 1", "token 1"⟩
def second : RelayerLease := ⟨"worker 2", "token 2"⟩

def expired : RetryJob where
  lease := second
  now := 1000000
  errorCode := "expired_not_landed"
  retryAt := 2000000
  confirmationUnknown := false
  fullHistoryCheckedAt := some 1000000
  currentBlockHeight := some 101

/-- The first worker stops after signing; the second finds that the transaction has expired. -/
def retried : RelayerJob Unit :=
  (Call.retry expired).run (escrowRelayerLease "worker 2" "token 2" 1000000
    ((Call.recordSigned first 0 (prepared "signature 1" 100)).run
      (escrowRelayerLease "worker 1" "token 1" 0 (created input "job"))))

end Sample

open Sample in
/-- A transaction that has expired gives way to another one, and the first worker, who comes
back, changes nothing. -/
theorem signed_twice_fenced :
    let calls := [.enqueue input, .lease "worker 1" "token 1" 0,
      .recordSigned first 0 (prepared "signature 1" 100), .lease "worker 2" "token 2" 1000000,
      .retry expired, .lease "worker 2" "token 3" 2000000,
      .recordSigned ⟨"worker 2", "token 3"⟩ 2000000 (prepared "signature 2" 200)]
    ∃ slot : Slot Unit, Runs "settle" .empty calls slot ∧
      slot.row.bind RelayerJob.expectedSignature = some "signature 2" ∧
      slot.Superseded "token 1" ∧ Fenced "settle" slot := by
  intro calls
  have hrun : Runs "settle" .empty calls
      { row := some ((Call.recordSigned ⟨"worker 2", "token 3"⟩ 2000000
          (prepared "signature 2" 200)).run (escrowRelayerLease "worker 2" "token 3" 2000000 retried))
        tokens := ["token 3", "token 2", "token 1"] } := by
    have enqueued : Runs "settle" .empty [.enqueue input] ⟨some (created input "job"), []⟩ :=
      .single (.enqueued true "job" rfl rfl)
    have leased := Run.snoc enqueued
      (.lease "worker 1" "token 1" 0 rfl (by decide +kernel) (by decide) (by decide))
    have signed := Run.snoc leased
      (.called (.recordSigned first 0 (prepared "signature 1" 100)) rfl)
    have released := Run.snoc signed
      (.lease "worker 2" "token 2" 1000000 rfl (by decide +kernel) (by decide) (by decide))
    have waiting := Run.snoc released (.called (.retry expired) rfl)
    have releasedAgain := Run.snoc waiting
      (.lease "worker 2" "token 3" 2000000 rfl (by decide +kernel) (by decide) (by decide))
    exact .snoc releasedAgain (.called _ rfl)
  exact ⟨_, hrun, by decide +kernel, ⟨by decide, by decide +kernel⟩, relayer_jobs_fenced hrun⟩

end CalledIt.Relayer.Jobs
