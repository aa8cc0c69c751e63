import CalledIt.Relayer.JobFencing

/-!
# CalledIt.Relayer.Stranded

Which jobs of the relayer are left behind.

A lease passes over a row that has used up its attempts and has no stored transaction, and
enqueueing it again starts only recovery work anew.  Such a row of another kind is neither
complete nor dead and nobody takes it up (`live_iff`).  It is reached by the lease that uses
up the last attempt, and by a retry that throws away a transaction after it
(`never_stranded`).
-/

namespace CalledIt.Relayer.Jobs

open Lib

variable {π : Type}

/-- At some later time a lease may take the row. -/
def Selectable (job : RelayerJob π) : Prop := ∀ now, ∃ later, now ≤ later ∧ Candidate job later

/-- Enqueueing the job once more, late enough, makes it one that a lease may take. -/
def Recoverable [DecidableEq π] (job : RelayerJob π) : Prop :=
  ∃ from_, ∀ input admitted id, PolicyValid input → SameRequest job input → from_ ≤ input.now →
    ∃ job', escrowRelayerEnqueue admitted id (some job) input = .ok job' ∧ Selectable job'

/-- The row is not stranded. -/
def Live [DecidableEq π] (job : RelayerJob π) : Prop :=
  job.state = .complete ∨ job.state = .dead ∨ Selectable job ∨ Recoverable job

/-- No attempt is left, and there is no transaction to look after. -/
def Exhausted (job : RelayerJob π) : Prop :=
  job.attempts = job.maxAttempts ∧ job.rawTransaction = none

/-! ## which rows -/

/-- The request that a row was made for, made again. -/
def again (job : RelayerJob π) (now : Int) : EnqueueRelayerJob π where
  kind := job.kind
  idempotencyKey := job.idempotencyKey
  cluster := job.cluster
  programId := job.programId
  custodyMode := job.custodyMode
  custodyVersion := job.custodyVersion
  marketId := job.marketId
  ownerPubkey := job.ownerPubkey
  payload := job.payload
  dueAt := now
  maxAttempts := job.maxAttempts
  leaseMs := 1000
  now := now

variable {job : RelayerJob π}

theorem Sound.again_valid (hs : Sound job) (now : Int) :
    PolicyValid (again job now) := by
  obtain ⟨hmode, hversion, hattempts⟩ := hs.policy
  simp only [PolicyValid, again, hmode, ne_eq, not_true_eq_false, false_or]
  omega

theorem again_same (job : RelayerJob π) (now : Int) : SameRequest job (again job now) := by
  simp [SameRequest, again]

/-- A row with a transaction is leased or in one of the states that are looked after. -/
theorem Sound.state_of_stored (hs : Sound job) (hraw : job.rawTransaction.isSome)
    (hcomplete : job.state ≠ .complete) (hdead : job.state ≠ .dead) :
    (job.state = .signed ∨ job.state = .submitted ∨ job.state = .unknown) ∨ job.state = .leased := by
  have hidle := hs.idle
  cases hstate : job.state with
  | pending => simp [hidle (.inl hstate)] at hraw
  | retryWait => simp [hidle (.inr hstate)] at hraw
  | complete => exact absurd hstate hcomplete
  | dead => exact absurd hstate hdead
  | leased | signed | submitted | unknown => simp

theorem Sound.selectable (hs : Sound job) (hcomplete : job.state ≠ .complete)
    (hdead : job.state ≠ .dead) (h : ¬ Exhausted job) : Selectable job := by
  intro now
  have hattempts : job.attempts < job.maxAttempts ∨ job.rawTransaction.isSome := by
    by_cases hlt : job.attempts < job.maxAttempts
    · exact .inl hlt
    · have hle := hs.attempts
      exact .inr (Option.isSome_iff_ne_none.mpr fun hraw => h ⟨by omega, hraw⟩)
  refine ⟨max now (max job.dueAt (job.leaseExpiresAt.getD 0)), le_max_left _ _, ?_⟩
  have hdue : job.dueAt ≤ max now (max job.dueAt (job.leaseExpiresAt.getD 0)) := by omega
  have hexpires : job.state = .leased → job.leaseExpiresAt.any
      (· ≤ max now (max job.dueAt (job.leaseExpiresAt.getD 0))) := by
    intro hstate
    obtain ⟨expires, he⟩ := Option.isSome_iff_exists.mp (hs.leased hstate)
    simp [he]
  constructor
  · refine hattempts.imp_right fun hraw => ⟨hraw, (hs.all_stored hraw).2.1, ?_⟩
    exact (hs.state_of_stored hraw hcomplete hdead).imp_right fun hstate =>
      ⟨hstate, hexpires hstate⟩
  · cases hstate : job.state with
    | complete => exact absurd hstate hcomplete
    | dead => exact absurd hstate hdead
    | leased => exact .inr ⟨rfl, hexpires hstate⟩
    | pending | retryWait | signed | submitted | unknown => exact .inl ⟨by simp, hdue⟩

theorem not_candidate_of_exhausted (h : Exhausted job) (now : Int) :
    ¬ Candidate job now := by
  simp [Candidate, h.1, h.2]

/-- Recovery work that is over starts again, where nothing is stored and its lease has run out. -/
theorem Sound.rearms (hs : Sound job) (hcomplete : job.state ≠ .complete)
    (hover : job.state = .dead ∨ job.attempts ≥ job.maxAttempts) (hraw : job.rawTransaction = none)
    (hkind : rearmable job.kind) {now : Int}
    (hlease : job.state = .leased → job.leaseExpiresAt.any (· ≤ now)) : Rearms job now := by
  have hnone := hs.none_stored hraw
  have hfinished := hs.unfinished hcomplete
  have hunsigned := hs.unsigned hraw
  have hplace : job.kind ≠ .positionPlacement := by
    intro hplace
    simp [hplace, rearmable] at hkind
  exact ⟨hkind, hplace, hcomplete, hfinished.1, hfinished.2, hover,
    or_iff_not_imp_left.mpr fun hstate => hlease (not_not.mp hstate), hnone.1, hnone.2.1,
    hunsigned.1, hnone.2.2, hunsigned.2⟩

theorem Sound.selectable_rearmed (hs : Sound job) (dueAt now : Int) :
    Selectable (rearmed job dueAt now) := by
  intro from_
  exact ⟨max from_ dueAt, le_max_left _ _, .inl hs.policy.2.2, .inl ⟨.inl rfl, le_max_right _ _⟩⟩

/-- Exhausted recovery work starts again once its lease has run out. -/
theorem Sound.recoverable [DecidableEq π] (hs : Sound job) (hcomplete : job.state ≠ .complete)
    (h : Exhausted job) (hkind : rearmable job.kind) :
    Recoverable job := by
  refine ⟨job.leaseExpiresAt.getD 0, fun input admitted id hvalid hsame hnow => ?_⟩
  have hlease : job.state = .leased → job.leaseExpiresAt.any (· ≤ input.now) := by
    intro hstate
    obtain ⟨expires, he⟩ := Option.isSome_iff_exists.mp (hs.leased hstate)
    rw [he, Option.getD_some] at hnow
    simp [he, hnow]
  have hrearms := hs.rearms hcomplete (.inr h.1.ge) h.2 hkind hlease
  refine ⟨rearmed job input.dueAt input.now, ?_, hs.selectable_rearmed input.dueAt input.now⟩
  simp [escrowRelayerEnqueue, require, hvalid, hsame, hrearms, bind, Except.bind, pure,
    Except.pure]

/-- **Which rows are stranded**: the exhausted ones that are neither complete nor dead, unless
they are recovery work. -/
theorem live_iff [DecidableEq π] (hs : Sound job) :
    Live job ↔ (job.state = .complete ∨ job.state = .dead) ∨ ¬ Exhausted job ∨
      rearmable job.kind := by
  constructor
  · rintro (hstate | hstate | hselect | ⟨from_, hrecover⟩)
    · exact .inl (.inl hstate)
    · exact .inl (.inr hstate)
    · refine .inr (.inl fun hexhausted => ?_)
      obtain ⟨now, -, hcandidate⟩ := hselect 0
      exact not_candidate_of_exhausted hexhausted now hcandidate
    · refine .inr (or_iff_not_imp_right.mpr fun hkind hexhausted => ?_)
      obtain ⟨job', hjob', hselect⟩ := hrecover (again job from_) true "" (hs.again_valid from_)
        (again_same job from_) le_rfl
      have hrearms : ¬ Rearms job (again job from_).now := fun hr => hkind hr.1
      simp only [escrowRelayerEnqueue, bind_ok_iff, pure_ok_iff] at hjob'
      obtain ⟨_, _, _, _, rfl⟩ := hjob'
      rw [if_neg hrearms] at hselect
      obtain ⟨now, -, hcandidate⟩ := hselect 0
      exact not_candidate_of_exhausted hexhausted now hcandidate
  · rintro (hstate | h)
    · rcases hstate with hstate | hstate
      · exact .inl hstate
      · exact .inr (.inl hstate)
    · by_cases hcomplete : job.state = .complete
      · exact .inl hcomplete
      by_cases hdead : job.state = .dead
      · exact .inr (.inl hdead)
      by_cases hexhausted : Exhausted job
      · exact .inr (.inr (.inr (hs.recoverable hcomplete hexhausted
          (h.resolve_left (not_not.mpr hexhausted)))))
      · exact .inr (.inr (.inl (hs.selectable hcomplete hdead hexhausted)))

/-! ## which calls -/

/-- The retry finds its lease and throws away what is stored. -/
def Releases (job : RelayerJob π) (input : RetryJob) : Prop :=
  job.holds input.lease ∧ (job.state = .leased ∨ job.state = .signed) ∧
    input.confirmationUnknown = false ∧ (job.rawTransaction.isSome → Expired job input)

/-- The call leaves the row without an attempt and without a transaction. -/
def Exhausts (job : RelayerJob π) : Call π → Prop
  | .lease _ _ _ => job.rawTransaction = none ∧ job.attempts + 1 = job.maxAttempts
  | .retry input => Releases job input ∧ job.attempts = job.maxAttempts
  | _ => False

/-- The call leaves what it finds an attempt or a transaction, or it is recovery work. -/
def Spares (slot : Slot π) (call : Call π) : Prop :=
  ∀ job, slot.row = some job → rearmable job.kind ∨ ¬ Exhausts job call

theorem retry_of_releases {input : RetryJob} (h : Releases job input) :
    (Call.retry input).run job = toRetryWait job input := by
  obtain ⟨hl, hstate, hknown, hexpired⟩ := h
  have hopen : ¬ (job.state ≠ .leased ∧ job.state ≠ .signed) := by
    rcases hstate with hstate | hstate <;> simp [hstate]
  have hpast : ¬ (job.rawTransaction.isSome ∧ (input.fullHistoryCheckedAt = none ∨
      input.currentBlockHeight = none ∨
      input.currentBlockHeight.any fun height => job.lastValidBlockHeight.any (height ≤ ·))) := by
    rintro ⟨hraw, hnot⟩
    obtain ⟨hchecked, height, hheight, hpast⟩ := hexpired hraw
    rw [Option.mem_def] at hheight
    rcases hnot with hnone | hnone | hle
    · simp [hnone] at hchecked
    · simp [hnone] at hheight
    · rw [hheight] at hle
      cases hstored : job.lastValidBlockHeight with
      | none => simp [hstored] at hle
      | some stored =>
          have hlt := hpast stored hstored
          simp [hstored] at hle
          omega
  simp only [Call.run, escrowRelayerRetry, hl, hknown]
  rw [if_neg (by simp), if_neg hopen, if_neg (by simp), if_neg hpast]

variable {call : Call π}

theorem Moves.kind {job' : RelayerJob π} (h : Moves job call job') :
    job'.kind = job.kind := by
  cases h <;> rfl

/-- A call that spares the row does not exhaust it. -/
theorem Moves.not_exhausted {job' : RelayerJob π} (h : Moves job call job') (hs : Sound job)
    (hexhausts : ¬ Exhausts job call) (hj : ¬ Exhausted job) :
    (job'.state = .complete ∨ job'.state = .dead) ∨ ¬ Exhausted job' := by
  cases h with
  | same => exact .inr hj
  | rearmed =>
      refine .inr fun he => ?_
      have hpositive := hs.policy.2.2
      have hattempts : 0 = job.maxAttempts := he.1
      omega
  | leased =>
      refine .inr fun he => hexhausts ⟨he.2, ?_⟩
      have hattempts := he.1
      have hraw : job.rawTransaction = none := he.2
      simpa [escrowRelayerLease, hraw] using hattempts
  | signed => exact .inr fun he => by simp [Exhausted, recorded] at he
  | submitted => exact .inr hj
  | unknown => exact .inr hj
  | waiting hl hstate hknown hexpired =>
      refine .inr fun he => hexhausts ⟨⟨hl, hstate, hknown, hexpired⟩, he.1⟩
  | completed => exact .inl (.inl rfl)
  | dead => exact .inl (.inr rfl)

/-- What a call that exhausts a row leaves. -/
theorem Step.exhausted [DecidableEq π] {key : String} {slot after : Slot π}
    (h : Step key slot call after) (hrow : slot.row = some job) (hexhausts : Exhausts job call) :
    ∃ job', after.row = some job' ∧ job'.kind = job.kind ∧ Exhausted job' ∧
      job'.state ≠ .complete ∧ job'.state ≠ .dead := by
  cases h with
  | enqueued | refused => exact hexhausts.elim
  | lease workerId token now hrow' hc =>
      obtain rfl : job = _ := Option.some.inj (hrow.symm.trans hrow')
      refine ⟨_, rfl, rfl, ⟨?_, hexhausts.1⟩, by simp [escrowRelayerLease],
        by simp [escrowRelayerLease]⟩
      simpa [escrowRelayerLease, hexhausts.1] using hexhausts.2
  | called _ hcarries =>
      cases call with
      | retry input =>
          refine ⟨toRetryWait job input, ?_, rfl, ⟨hexhausts.2, rfl⟩, by simp [toRetryWait],
            by simp [toRetryWait]⟩
          rw [hrow, Option.map_some, retry_of_releases hexhausts.1]
      | lease => simp [Call.carries] at hcarries
      | enqueue | recordSigned | markSubmitted | complete | deadLetter => exact hexhausts.elim

/-! ## runs -/

section

variable [DecidableEq π] {key : String}

/-- A call of a run that leaves no row without an attempt and without a transaction. -/
def SparingStep (key : String) (slot : Slot π) (call : Call π) (after : Slot π) : Prop :=
  Step key slot call after ∧ Spares slot call

/-- In a run that spares the row, it is recovery work, or finished, or not exhausted. -/
structure Slot.Spared (slot : Slot π) : Prop where
  sound : slot.Sound
  live : ∀ job, slot.row = some job →
    (job.state = .complete ∨ job.state = .dead) ∨ ¬ Exhausted job ∨ rearmable job.kind

theorem Slot.Spared.step {slot after : Slot π} (h : SparingStep key slot call after)
    (hs : slot.Spared) : after.Spared := by
  refine ⟨hs.sound.step h.1, fun job' hafter => ?_⟩
  cases hrow : slot.row with
  | none =>
      rcases h.1.creates hrow with hnone | ⟨input, id, hvalid, hcreated⟩
      · simp [hnone] at hafter
      · obtain rfl := Option.some.inj (hcreated.symm.trans hafter)
        have hpositive := (sound_created hvalid : Jobs.Sound (created input id)).policy.2.2
        refine .inr (.inl fun he => ?_)
        have hattempts : 0 = (created input id).maxAttempts := he.1
        omega
  | some job =>
      obtain ⟨job'', hafter', hmoves⟩ := h.1.moves hrow
      obtain rfl := Option.some.inj (hafter.symm.trans hafter')
      by_cases hkind : rearmable job.kind
      · exact .inr (.inr (by rwa [hmoves.kind]))
      have hspared := (h.2 job hrow).resolve_left hkind
      have hsound := hs.sound.row job hrow
      rcases hs.live job hrow with (hcomplete | hdead) | hleft | hkind'
      · exact .inl (.inl (by rwa [hmoves.eq_of_complete hsound hcomplete]))
      · rcases hmoves.eq_of_dead hsound hdead with rfl | ⟨input, rfl, rfl⟩
        · exact .inl (.inr hdead)
        · rcases hmoves.enqueued with hsame | ⟨-, hrearms⟩
          · exact .inl (.inr (by rwa [hsame]))
          · exact absurd hrearms.1 hkind
      · exact (hmoves.not_exhausted hsound hspared hleft).imp_right .inl
      · exact absurd hkind' hkind

/-- **When no job is stranded**: in a run whose calls never leave a row that is not recovery
work without an attempt and without a transaction, every row is complete or dead, or a lease
may take it sooner or later, or enqueueing it again makes it so.  A call that does leave such
a row strands it. -/
theorem never_stranded (key : String) :
    (∀ (calls : List (Call π)) (slot : Slot π), Run (SparingStep key) .empty calls slot →
      ∀ job, slot.row = some job → Live job) ∧
    ∀ (calls : List (Call π)) (slot : Slot π), Runs key .empty calls slot →
      ∀ call after, Step key slot call after → ¬ Spares slot call →
        ∃ job, after.row = some job ∧ ¬ Live job := by
  constructor
  · intro calls slot h job hrow
    have hspared : slot.Spared := h.invariant Slot.Spared.step
      ⟨⟨by simp [Slot.empty], by simp [Slot.empty]⟩, by simp [Slot.empty]⟩
    exact (live_iff (hspared.sound.row job hrow)).mpr (hspared.live job hrow)
  · intro calls slot h call after hstep hnot
    simp only [Spares, not_forall, not_or, not_not] at hnot
    obtain ⟨job, hrow, hkind, hexhausts⟩ := hnot
    obtain ⟨job', hafter, hkind', hexhausted, hcomplete, hdead⟩ := hstep.exhausted hrow hexhausts
    refine ⟨job', hafter, ?_⟩
    rw [live_iff (((Runs.sound h).step hstep).row job' hafter), hkind']
    simp [hcomplete, hdead, hexhausted, hkind]

end

/-! ## a placement that is left behind -/

namespace Sample

def placement : EnqueueRelayerJob Unit :=
  { input with kind := .positionPlacement, idempotencyKey := "place", ownerPubkey := some "owner",
               maxAttempts := 120, leaseMs := 5000 }

def token (n : Nat) : String := String.ofList (List.replicate n 't')

/-- When the lease before has run out. -/
def takenAt : Nat → Int
  | 0 => 0
  | n + 1 => takenAt n + placement.leaseMs * 1000

/-- The lease of a worker that stops. -/
def lost (n : Nat) : Call Unit := .lease "worker" (token n) (takenAt n)

def lostRow : Nat → RelayerJob Unit
  | 0 => created placement "job"
  | n + 1 => escrowRelayerLease "worker" (token n) (takenAt n) (lostRow n)

theorem lostRow_columns (n : Nat) :
    (lostRow n).kind = .positionPlacement ∧ (lostRow n).maxAttempts = 120 ∧
      (lostRow n).leaseDurationMs = placement.leaseMs ∧ (lostRow n).attempts = n ∧
      (lostRow n).rawTransaction = none := by
  induction n with
  | zero => exact ⟨rfl, rfl, rfl, rfl, rfl⟩
  | succ n ih =>
      obtain ⟨hkind, hmax, hlease, hattempts, hraw⟩ := ih
      simp [lostRow, escrowRelayerLease, hkind, hmax, hlease, hattempts, hraw]

theorem candidate_lostRow {n : Nat} (h : n < 120) : Candidate (lostRow n) (takenAt n) := by
  obtain ⟨-, hmax, -, hattempts, -⟩ := lostRow_columns n
  refine ⟨.inl (by omega), ?_⟩
  cases n with
  | zero => exact .inl ⟨.inl rfl, le_rfl⟩
  | succ n =>
      obtain ⟨-, -, hlease, -, -⟩ := lostRow_columns n
      refine .inr ⟨rfl, ?_⟩
      simp only [lostRow, escrowRelayerLease, hlease, Option.any_some, decide_eq_true_eq]
      exact le_rfl

theorem runs_lost {n : Nat} (h : n ≤ 120) :
    ∃ slot, Runs "place" .empty (.enqueue placement :: (List.range n).map lost) slot ∧
      slot.row = some (lostRow n) ∧ ∀ t ∈ slot.tokens, t.length < n := by
  induction n with
  | zero => exact ⟨_, .single (.enqueued true "job" rfl rfl), rfl, by simp [Slot.empty]⟩
  | succ n ih =>
      obtain ⟨slot, hrun, hrow, htokens⟩ := ih (by omega)
      have hfresh : token n ∉ slot.tokens := by
        intro hmem
        have hlt := htokens _ hmem
        simp [token] at hlt
      have hstep : Step "place" slot (lost n) ⟨some (lostRow (n + 1)), token n :: slot.tokens⟩ :=
        .lease "worker" (token n) (takenAt n) hrow (candidate_lostRow (by omega)) (by decide)
          hfresh
      refine ⟨⟨some (lostRow (n + 1)), token n :: slot.tokens⟩, ?_, rfl, ?_⟩
      · rw [List.range_succ, List.map_append, List.map_singleton, ← List.cons_append]
        exact hrun.snoc hstep
      · intro t ht
        rcases List.mem_cons.mp ht with rfl | ht
        · simp [token]
        · exact Nat.lt_succ_of_lt (htokens t ht)

end Sample

open Sample in
/-- A placement whose workers stop before they have signed, every time they take it. -/
theorem placement_stranded :
    ∃ calls slot job, Runs "place" .empty calls slot ∧ slot.row = some job ∧
      job.kind = .positionPlacement ∧ ¬ Live (job : RelayerJob Unit) := by
  obtain ⟨slot, hrun, hrow, -⟩ := runs_lost (n := 120) le_rfl
  obtain ⟨hkind, hmax, -, hattempts, hraw⟩ := lostRow_columns 120
  refine ⟨_, slot, _, hrun, hrow, hkind, ?_⟩
  have hexhausted : Exhausted (lostRow 120) := ⟨hattempts.trans hmax.symm, hraw⟩
  rw [live_iff ((Runs.sound hrun).row _ hrow), hkind]
  simp [rearmable, hexhausted, show (lostRow 120).state = .leased from rfl]

end CalledIt.Relayer.Jobs
