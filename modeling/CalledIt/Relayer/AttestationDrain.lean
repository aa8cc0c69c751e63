import CalledIt.Relayer.AttestationFencing

/-!
# CalledIt.Relayer.AttestationDrain

The queue of attestations drains.

A row that is not finished becomes ready at a time of its own (`wakesAt`), and from then on no
call but a lease changes it.  A lease that goes by it without taking it takes another, which
costs an attempt; so, whatever the other calls are, the row is taken or failed before the
leases outnumber the attempts that are left and the ones that are added (`Runs.drains`).
-/

namespace CalledIt.Relayer.Attestations

open Lib
open Jobs (lower)

variable {ρ π : Type}

/-- When a call is made, by the clock of the table. -/
def Call.time : Call ρ → Option Int
  | lease _ now _ _ => some now
  | recordSigned _ now _ _ => some now
  | markEnqueued _ now _ _ => some now
  | complete _ now => some now
  | retry _ now _ _ => some now
  | enqueue _ | relayer _ => none

/-- A lease that does not skip the row. -/
def Call.serves (key : String) : Call ρ → Bool
  | lease workerId _ limit locked => LeaseInputValid workerId limit ∧ key ∉ locked
  | enqueue _ | recordSigned _ _ _ _ | markEnqueued _ _ _ _ | complete _ _ | retry _ _ _ _
  | relayer _ => false

/-- The attempts that a call adds. -/
def Call.adds : Call ρ → Nat
  | enqueue input => input.maxAttempts
  | lease _ _ _ _ | recordSigned _ _ _ _ | markEnqueued _ _ _ _ | complete _ _ | retry _ _ _ _
  | relayer _ => 0

def remaining (row : AttestationRequest ρ) : Nat := row.maxAttempts - row.attempts

/-- The attempts that are left. -/
def supply (rows : List (AttestationRequest ρ)) : Nat := (rows.map remaining).sum

/-- From this time on the row waits for a lease only. -/
def wakesAt (row : AttestationRequest ρ) : Int :=
  max (max row.debounceUntil row.dueAt) (row.leaseExpiresAt.getD row.dueAt)

/-- The call is a lease, and it took the row or failed it. -/
def Call.Served (row : AttestationRequest ρ) (after : Table ρ π) : Call ρ → Prop
  | lease workerId now _ _ =>
      failed (row.errorCode.getD "attempts_exhausted") now row ∈ after.rows ∨
        ∃ token, leased workerId token now row ∈ after.rows
  | enqueue _ | recordSigned _ _ _ _ | markEnqueued _ _ _ _ | complete _ _ | retry _ _ _ _
  | relayer _ => False

/-! ## one row -/

section

variable {fits : ρ → Bool} {jobs : String → Option (RelayerJob π)} {row row' : AttestationRequest ρ}
  {now : Int}

theorem Sound.ready (hs : Sound fits jobs row) (hopen : Open row) (hlate : wakesAt row ≤ now) :
    Ready row now := by
  simp only [wakesAt, max_le_iff] at hlate
  refine ⟨hlate.1.1, ?_⟩
  cases hstate : row.state with
  | pending | signed | enqueued => simp [hlate.1.2]
  | leased =>
      obtain ⟨expiresAt, hexpires⟩ := Option.isSome_iff_exists.mp (hs.leased hstate)
      simpa [hexpires] using hlate.2
  | completed => exact absurd hstate hopen.1
  | failed => exact absurd hstate hopen.2

theorem Sound.lost_of_late (hs : Sound fits jobs row) (hlate : wakesAt row ≤ now)
    (held : AttestationLease) : leaseLost row held now := by
  simp only [wakesAt, max_le_iff] at hlate
  have hwhole := hs.checks.lease.2.2
  cases hexpires : row.leaseExpiresAt with
  | none =>
      have howner : row.leaseOwner = none := by simpa [hexpires] using hwhole
      simp [leaseLost, howner]
  | some expiresAt =>
      have hexpired : expiresAt ≤ now := by simpa [hexpires] using hlate.2
      simp [leaseLost, hexpires, hexpired]

theorem Sound.completed (hs : Sound fits jobs row)
    (hstate : row.state = .completed) : ∃ id job, row.relayerJobId = some id ∧
      jobs id = some job ∧ job.state = .complete ∧ Matches row job := by
  obtain ⟨id, hid⟩ := Option.isSome_iff_exists.mp (hs.checks.jobStates (.inr hstate))
  obtain ⟨job, hjob, hcomplete⟩ := hs.complete hstate id hid
  obtain ⟨job', hjob', hmatches⟩ := hs.bound id hid
  obtain rfl := Option.some.inj (hjob.symm.trans hjob')
  exact ⟨id, job, hid, hjob, hcomplete, hmatches⟩

theorem Moves.remaining_le (h : Moves fits jobs row row') : remaining row' ≤ remaining row := by
  cases h with
  | leased => simp only [remaining, Attestations.leased]; omega
  | _ => simp [remaining, Attestations.failed, Attestations.resigned, Attestations.signed,
      Attestations.requeued, Attestations.enqueued, Attestations.completed,
      Attestations.retried, released]

theorem remaining_leased (h : Candidate row now) (workerId token : String) :
    remaining (leased workerId token now row) < remaining row := by
  have hattempts := h.1
  simp only [remaining, leased]
  omega

end

/-! ## one lease -/

section

variable {rows : List (AttestationRequest ρ)} {row : AttestationRequest ρ} {now : Int} {limit : Nat}
  {locked : List String}

/-- A lease that does not skip a candidate takes something. -/
theorem exists_chosen (hrow : row ∈ rows) (hcandidate : Candidate row now)
    (hlocked : row.requestKey ∉ locked) (hlimit : 1 ≤ limit) :
    ∃ key, key ∈ chosen now limit locked rows := by
  have hmem : row ∈ rows.filter fun row => Candidate row now ∧ row.requestKey ∉ locked := by
    simp [hrow, hcandidate, hlocked]
  have hlength := List.length_pos_of_mem hmem
  refine List.exists_mem_of_length_pos ?_
  simp only [chosen, List.length_map, List.length_take, List.length_mergeSort]
  omega

/-- What the lease makes of a row. -/
def served (workerId : String) (tokenOf : String → String) (now : Int) (limit : Nat)
    (locked : List String) (rows : List (AttestationRequest ρ)) (row : AttestationRequest ρ) :
    AttestationRequest ρ :=
  taken workerId tokenOf now (chosen now limit locked (rows.map (swept now))) (swept now row)

variable {workerId : String} {tokenOf : String → String}

theorem remaining_swept (now : Int) (row : AttestationRequest ρ) :
    remaining (swept now row) = remaining row := by
  unfold swept
  split <;> rfl

theorem served_of_chosen
    (hkey : row.requestKey ∈ chosen now limit locked (rows.map (swept now))) :
    served workerId tokenOf now limit locked rows row =
      leased workerId (tokenOf row.requestKey) now (swept now row) := by
  rw [served, taken, requestKey_swept, if_pos hkey]

theorem served_of_not_chosen
    (hkey : row.requestKey ∉ chosen now limit locked (rows.map (swept now))) :
    served workerId tokenOf now limit locked rows row = swept now row := by
  rw [served, taken, requestKey_swept, if_neg hkey]

theorem candidate_swept (hkeyed : Keyed rows) (hrow : row ∈ rows)
    (hkey : row.requestKey ∈ chosen now limit locked (rows.map (swept now))) :
    Candidate (swept now row) now :=
  candidate_of_chosen (hkeyed.swept now) (List.mem_map_of_mem hrow)
    (by rwa [requestKey_swept])

theorem remaining_served_lt (hkeyed : Keyed rows) (hrow : row ∈ rows)
    (hkey : row.requestKey ∈ chosen now limit locked (rows.map (swept now))) :
    remaining (served workerId tokenOf now limit locked rows row) < remaining row := by
  rw [served_of_chosen hkey, ← remaining_swept now row]
  exact remaining_leased (candidate_swept hkeyed hrow hkey) _ _

theorem remaining_served (hkeyed : Keyed rows) (hrow : row ∈ rows) :
    remaining (served workerId tokenOf now limit locked rows row) ≤ remaining row := by
  by_cases hkey : row.requestKey ∈ chosen now limit locked (rows.map (swept now))
  · exact (remaining_served_lt hkeyed hrow hkey).le
  · rw [served_of_not_chosen hkey, remaining_swept]

theorem supply_served (workerId : String) (tokenOf : String → String) (hkeyed : Keyed rows) :
    supply (rows.map (served workerId tokenOf now limit locked rows)) ≤ supply rows := by
  rw [supply, supply, List.map_map]
  exact List.sum_le_sum fun row hrow => remaining_served hkeyed hrow

/-- Taking costs an attempt. -/
theorem supply_served_lt (workerId : String) (tokenOf : String → String) (hkeyed : Keyed rows)
    {key : String} (hkey : key ∈ chosen now limit locked (rows.map (swept now))) :
    supply (rows.map (served workerId tokenOf now limit locked rows)) < supply rows := by
  obtain ⟨mid, hmid, hsame, -⟩ := mem_chosen hkey
  obtain ⟨row, hrow, rfl⟩ := List.mem_map.mp hmid
  rw [requestKey_swept] at hsame
  have hless : remaining (served workerId tokenOf now limit locked rows row) < remaining row :=
    remaining_served_lt hkeyed hrow (hsame ▸ hkey)
  rw [supply, supply, List.map_map]
  exact List.sum_lt_sum _ _ (fun row hrow => remaining_served hkeyed hrow) ⟨row, hrow, hless⟩

theorem swept_of_not_exhausted (h : ¬ Exhausted row now) : swept now row = row := if_neg h

theorem served_of_exhausted (hkeyed : Keyed rows) (hrow : row ∈ rows) (h : Exhausted row now) :
    served workerId tokenOf now limit locked rows row =
      failed (row.errorCode.getD "attempts_exhausted") now row := by
  have hswept : swept now row = failed (row.errorCode.getD "attempts_exhausted") now row :=
    if_pos h
  rw [served_of_not_chosen, hswept]
  intro hkey
  have hcandidate := candidate_swept hkeyed hrow hkey
  rw [hswept] at hcandidate
  exact hcandidate.2.isOpen.2 rfl

end

/-! ## one call -/

section

variable {fits : ρ → Bool} {table before after : Table ρ π} {call : Call ρ}
  {row : AttestationRequest ρ}

/-- The row is as it was, and the leases that went by it are paid for. -/
structure Waits (table after : Table ρ π) (row : AttestationRequest ρ) (leases added : Nat) :
    Prop where
  row : row ∈ after.rows
  paid : supply after.rows + leases ≤ supply table.rows + added

theorem Waits.trans {leases leases' added added' : Nat}
    (h : Waits table before row leases added) (h' : Waits before after row leases' added') :
    Waits table after row (leases + leases') (added + added') := by
  have hpaid := h.paid
  have hpaid' := h'.paid
  exact ⟨h'.row, by omega⟩

variable {workerId : String} {now : Int} {limit : Nat}

theorem lease_waits {locked : List String} {tokenOf : String → String} (hs : table.Sound fits)
    (hrow : row ∈ table.rows) (hready : Ready row now) (hvalid : LeaseInputValid workerId limit)
    (hrows : after.rows = table.rows.map (served workerId tokenOf now limit locked table.rows)) :
    Call.Served row after (.lease workerId now limit locked) ∨
      Waits table after row (if row.requestKey ∉ locked then 1 else 0) 0 := by
  have hmem : served workerId tokenOf now limit locked table.rows row ∈ after.rows := by
    rw [hrows]
    exact List.mem_map_of_mem hrow
  by_cases hexhausted : Exhausted row now
  · rw [served_of_exhausted hs.keyed hrow hexhausted] at hmem
    exact .inl (.inl hmem)
  have hsame := swept_of_not_exhausted hexhausted
  by_cases hkey : row.requestKey ∈ chosen now limit locked (table.rows.map (swept now))
  · rw [served_of_chosen hkey, hsame] at hmem
    exact .inl (.inr ⟨_, hmem⟩)
  · rw [served_of_not_chosen hkey, hsame] at hmem
    refine .inr ⟨hmem, ?_⟩
    rw [hrows]
    split
    next hlocked =>
      have hcandidate : Candidate row now := by
        refine ⟨?_, hready⟩
        by_contra hattempts
        exact hexhausted ⟨not_lt.mp hattempts, hready⟩
      have hswept : row ∈ table.rows.map (swept now) := by
        rw [← hsame]
        exact List.mem_map_of_mem hrow
      obtain ⟨key, hchosen⟩ := exists_chosen hswept hcandidate hlocked hvalid.2.2.1
      exact supply_served_lt workerId tokenOf hs.keyed hchosen
    · exact supply_served workerId tokenOf hs.keyed

variable [DecidableEq ρ]

/-- A late call that is no lease leaves the row alone. -/
theorem called_waits {held : AttestationLease} (hs : table.Sound fits) (hrow : row ∈ table.rows)
    (hcarries : call.carries = some (held, now)) (hlate : wakesAt row ≤ now)
    (hrows : after.rows = table.rows.map fun other =>
      if other.requestKey = lower held.requestKey then call.run fits table.jobs other else other) :
    Waits table after row 0 0 := by
  constructor
  · have hsame : (if row.requestKey = lower held.requestKey then call.run fits table.jobs row
        else row) = row := by
      rw [Call.run_of_lost hcarries ((hs.rows row hrow).lost_of_late hlate held), ite_self]
    rw [hrows, ← hsame]
    exact List.mem_map_of_mem hrow
  · rw [hrows, supply, supply, List.map_map]
    refine Nat.add_le_add_right (List.sum_le_sum fun other hother => ?_) 0
    simp only [Function.comp_apply]
    split
    · exact (call.run_moves (hs.rows other hother)).1.remaining_le
    · exact le_rfl

variable [DecidableEq π]

theorem Step.waits (h : Step fits table call after) (hs : table.Sound fits)
    (hrow : row ∈ table.rows) (hopen : Open row)
    (hlate : ∀ now, call.time = some now → wakesAt row ≤ now) :
    call.Served row after ∨
      Waits table after row (if call.serves row.requestKey then 1 else 0) call.adds := by
  cases h with
  | @enqueued input rows links henqueue =>
      right
      rcases enqueue_ok henqueue with hrows | ⟨hrows, -, -⟩
      · subst hrows
        exact ⟨hrow, by simp [Call.serves]⟩
      · subst hrows
        refine ⟨List.mem_append_left _ hrow, ?_⟩
        simp [supply, remaining, created, Call.serves, Call.adds]
  | refused | relayer => exact .inr ⟨hrow, by simp [Call.serves]⟩
  | @idle workerId now limit locked e tokenOf hlease =>
      right
      have hinvalid : ¬ LeaseInputValid workerId limit := by
        intro hvalid
        rw [lease_eq hs.rows hs.keyed hvalid] at hlease
        cases hlease
      exact ⟨hrow, by simp [Call.serves, hinvalid]⟩
  | @leased workerId now limit locked rows keys tokenOf hfresh hinjective hlease =>
      have hvalid : LeaseInputValid workerId limit := by
        simp only [escrowAttestationLease, bind_ok_iff, require_ok_iff] at hlease
        exact hlease.choose_spec.1
      rw [lease_eq hs.rows hs.keyed hvalid] at hlease
      obtain ⟨hrows, -⟩ := Prod.mk.inj (Except.ok.inj hlease)
      have hready := (hs.rows row hrow).ready hopen (hlate now rfl)
      rw [List.map_map] at hrows
      simpa [Call.serves, Call.adds, hvalid] using lease_waits hs hrow hready hvalid hrows.symm
  | @called held now call hcarries =>
      right
      have hlate : wakesAt row ≤ now := by
        apply hlate
        cases call <;> cases hcarries <;> rfl
      have hserves : call.serves row.requestKey = false := by
        cases call <;> cases hcarries <;> rfl
      have hadds : call.adds = 0 := by
        cases call <;> cases hcarries <;> rfl
      simpa [hserves, hadds] using called_waits hs hrow hcarries hlate rfl

/-! ## runs -/

/-- Along the calls a lease takes the row as it is, or fails it. -/
def Drained (fits : ρ → Bool) (table : Table ρ π) (calls : List (Call ρ))
    (row : AttestationRequest ρ) : Prop :=
  ∃ earlier call later before after, calls = earlier ++ call :: later ∧
    Runs fits table earlier before ∧ row ∈ before.rows ∧ Step fits before call after ∧
    call.Served row after

theorem Runs.waits {calls : List (Call ρ)} (h : Runs fits table calls after)
    (hs : table.Sound fits) (hrow : row ∈ table.rows) (hopen : Open row)
    (hlate : ∀ call ∈ calls, ∀ now, call.time = some now → wakesAt row ≤ now) :
    Drained fits table calls row ∨
      Waits table after row (calls.countP fun call => call.serves row.requestKey)
        (calls.map Call.adds).sum := by
  induction h with
  | refl => exact .inr ⟨hrow, le_rfl⟩
  | @snoc before after call earlier hrun hstep ih =>
      rcases ih fun call hcall => hlate call (List.mem_append_left _ hcall) with hdrained | hwaits
      · obtain ⟨first, call', later, mid, next, rfl, hdrained⟩ := hdrained
        exact .inl ⟨first, call', later ++ [call], mid, next, by simp, hdrained⟩
      have hlate' := hlate call (List.mem_append_right _ (List.mem_singleton_self _))
      rcases hstep.waits (Runs.sound hrun hs) hwaits.row hopen hlate' with hserved | hwaits'
      · exact .inl ⟨earlier, call, [], before, after, rfl, hrun, hwaits.row, hstep, hserved⟩
      · right
        simpa [List.countP_append, List.countP_cons] using hwaits.trans hwaits'

/-- When the leases that do not skip the row outnumber the attempts, it is drained. -/
theorem Runs.drains {calls : List (Call ρ)} (h : Runs fits table calls after)
    (hs : table.Sound fits) (hrow : row ∈ table.rows) (hopen : Open row)
    (hlate : ∀ call ∈ calls, ∀ now, call.time = some now → wakesAt row ≤ now)
    (hleases : supply table.rows + (calls.map Call.adds).sum <
      calls.countP fun call => call.serves row.requestKey) : Drained fits table calls row := by
  rcases h.waits hs hrow hopen hlate with hdrained | hwaits
  · exact hdrained
  · have hpaid := hwaits.paid
    omega

/-! ## the leases that are made -/

/-- There are always tokens that were never made. -/
theorem exists_tokenOf (tokens : List String) :
    ∃ tokenOf : String → String, (∀ key, tokenOf key ∉ tokens) ∧ Function.Injective tokenOf := by
  let longest := (tokens.map String.length).sum
  refine ⟨fun key => String.ofList (List.replicate (longest + 1) 'x') ++ key, ?_, ?_⟩
  · intro key hmem
    have hle := List.le_sum_of_mem (List.mem_map_of_mem (f := String.length) hmem)
    simp only [String.length_append, String.length_ofList, List.length_replicate] at hle
    omega
  · intro a b hab
    have hlist := congrArg String.toList hab
    exact String.toList_inj.mp (by simpa using hlist)

theorem Table.Sound.lease (hs : table.Sound fits) (hvalid : LeaseInputValid workerId limit)
    (now : Int) (locked : List String) :
    ∃ after, Step fits table (.lease workerId now limit locked) after := by
  obtain ⟨tokenOf, hfresh, hinjective⟩ := exists_tokenOf table.tokens
  exact ⟨_, .leased tokenOf hfresh hinjective (lease_eq hs.rows hs.keyed hvalid locked)⟩

theorem Table.Sound.leases (hs : table.Sound fits) (hvalid : LeaseInputValid workerId limit)
    (now : Int) (n : Nat) :
    ∃ after, Runs fits table (List.replicate n (.lease workerId now limit [])) after := by
  induction n with
  | zero => exact ⟨table, .refl table⟩
  | succ n ih =>
      obtain ⟨before, hrun⟩ := ih
      obtain ⟨after, hstep⟩ := (Runs.sound hrun hs).lease hvalid now []
      rw [List.replicate_succ']
      exact ⟨after, .snoc hrun hstep⟩

/-- Leases alone drain a row, at any time from the one it wakes at. -/
theorem Table.Sound.drains (hs : table.Sound fits) (hrow : row ∈ table.rows) (hopen : Open row)
    (hvalid : LeaseInputValid workerId limit) (hlate : wakesAt row ≤ now) :
    ∃ n after, Runs fits table (List.replicate n (.lease workerId now limit [])) after ∧
      Drained fits table (List.replicate n (.lease workerId now limit [])) row := by
  obtain ⟨after, hrun⟩ := hs.leases hvalid now (supply table.rows + 1)
  refine ⟨_, after, hrun, Runs.drains hrun hs hrow hopen ?_ ?_⟩
  · intro call hcall now' hnow
    obtain rfl := List.eq_of_mem_replicate hcall
    obtain rfl := Option.some.inj hnow
    exact hlate
  · simp [Call.adds, Call.serves, hvalid, List.countP_replicate]

/-! ## the queue -/

/-- The lease of a row has run out. -/
def Table.Expired (table : Table ρ π) (held : AttestationLease) (now : Int) : Prop :=
  ∀ row ∈ table.rows, row.requestKey = lower held.requestKey → row.leaseExpiresAt.any (· ≤ now)

/-- What the queue promises of a table, and of everything that is called on it later. -/
structure Fenced (fits : ρ → Bool) (table : Table ρ π) : Prop where
  checks : ∀ row ∈ table.rows, Checks fits row
  answers : ∀ row ∈ table.rows, ∀ call : Call ρ, ∃ answer,
    call.answer fits table.jobs row = .ok answer
  leases : ∀ workerId tokenOf now limit locked, LeaseInputValid workerId limit → ∃ left,
    escrowAttestationLease fits workerId tokenOf now limit locked table.rows = .ok left
  enqueues : ∀ links input e, escrowAttestationEnqueue fits links table.rows input = .error e →
    e ≠ .checkViolation ∧ e ≠ .uniqueViolation ∧ e ≠ .notNullViolation
  attempts : ∀ row ∈ table.rows, row.attempts ≤ row.maxAttempts
  superseded : ∀ held, table.Superseded held → ∀ calls later call after now,
    Runs fits table calls later → Step fits later call after → call.carries = some (held, now) →
    after = later
  expired : ∀ held call after now, table.Expired held now → Step fits table call after →
    call.carries = some (held, now) → after = table
  keeps : ∀ row ∈ table.rows, ∀ calls later, Runs fits table calls later →
    ∃ row' ∈ later.rows, Keeps row row'
  completed : ∀ row ∈ table.rows, row.state = .completed → ∃ id job,
    row.relayerJobId = some id ∧ table.jobs id = some job ∧ job.state = .complete ∧ Matches row job
  drains : ∀ row ∈ table.rows, Open row → ∀ calls later, Runs fits table calls later →
    (∀ call ∈ calls, ∀ now, call.time = some now → wakesAt row ≤ now) →
    supply table.rows + (calls.map Call.adds).sum <
      (calls.countP fun call => call.serves row.requestKey) → Drained fits table calls row
  drainsAt : ∀ row ∈ table.rows, Open row → ∀ workerId limit, LeaseInputValid workerId limit →
    ∀ now, wakesAt row ≤ now → ∃ n after,
      Runs fits table (List.replicate n (.lease workerId now limit [])) after ∧
        Drained fits table (List.replicate n (.lease workerId now limit [])) row

/-- **The queue is fenced and drains**, after any calls of any workers. -/
theorem attestation_queue_fenced {calls : List (Call ρ)}
    (h : Runs fits Table.empty calls table) : Fenced fits table := by
  have hs : table.Sound fits := Runs.sound h sound_empty
  constructor
  case checks => exact fun row hrow => (hs.rows row hrow).checks
  case answers =>
    intro row hrow call
    obtain ⟨row', result, hanswer, -⟩ := call.answers (hs.rows row hrow)
    exact ⟨_, hanswer⟩
  case leases =>
    intro workerId tokenOf now limit locked hvalid
    exact ⟨_, lease_eq hs.rows hs.keyed hvalid locked⟩
  case enqueues => exact fun links input e he => enqueue_error he
  case attempts => exact fun row hrow => (hs.rows row hrow).attempts
  case superseded =>
    intro held hheld calls later call after now hrun hstep hcarries
    have hlater := hrun.invariant
      (I := fun later => later.Sound fits ∧ later.Superseded held)
      (fun hstep ⟨hs, hheld⟩ => ⟨hs.step hstep, hheld.step hstep hs⟩) ⟨hs, hheld⟩
    exact hstep.rows_of_lost hcarries (hlater.2.lost now)
  case expired =>
    intro held call after now hexpired hstep hcarries
    refine hstep.rows_of_lost hcarries fun row hrow hkey => ?_
    simp [leaseLost, hexpired row hrow hkey]
  case keeps => exact fun row hrow calls later hrun => Runs.keeps hrun hs hrow
  case completed => exact fun row hrow hstate => (hs.rows row hrow).completed hstate
  case drains =>
    exact fun row hrow hopen calls later hrun hlate hleases =>
      Runs.drains hrun hs hrow hopen hlate hleases
  case drainsAt =>
    exact fun row hrow hopen workerId limit hvalid now hlate =>
      hs.drains hrow hopen hvalid hlate

end

/-! ## a settlement -/

namespace Sample

def hash (c : Char) : String := String.ofList (List.replicate 64 c)

def request : EnqueueAttestationRequest Unit where
  requestKey := hash 'a'
  operationKind := .settle
  cluster := "devnet"
  genesisHash := "genesis"
  programId := "program"
  custodyVersion := 1
  marketId := "market"
  marketPda := "market pda"
  documentHashHex := hash 'b'
  oracleEpoch := 0
  eventEpoch := 0
  unsignedPayload := ()
  unsignedPayloadHashHex := hash 'c'
  dueAt := 0
  debounceUntil := 0
  maxAttempts := 3
  leaseMs := 1000
  now := 0

def link : MarketLinkRow where
  custodyMode := "escrow"
  custodyVersion := 1
  cluster := "devnet"
  genesisHash := "genesis"
  programId := "program"
  marketPda := "market pda"
  documentHashHex := hash 'b'
  oracleEpoch := 0
  eventEpoch := 0
  chainState := .open
  finalized := true
  canonical := true
  projectionStale := false
  isCluster := by decide
  genesisHash_ne := by decide
  programId_ne := by decide
  marketPda_ne := by decide
  isHash := by decide +kernel
  oracleEpoch_nonneg := by decide
  eventEpoch_nonneg := by decide

/-- A lease of the only row. -/
theorem lease_single {ρ : Type} {fits : ρ → Bool} {row : AttestationRequest ρ}
    (hs : Sound fits (fun _ => (none : Option (RelayerJob Unit))) row) {workerId : String} {now : Int}
    (hcandidate : Candidate row now) (hvalid : LeaseInputValid workerId 1)
    (tokenOf : String → String) :
    escrowAttestationLease fits workerId tokenOf now 1 [] [row] =
      .ok ([leased workerId (tokenOf row.requestKey) now row], [row.requestKey]) := by
  have hkeyed : Keyed [row] := by simp [Keyed]
  have hexhausted : ¬ Exhausted row now := fun h => not_lt.mpr h.1 hcandidate.1
  have hchosen : chosen now 1 [] [row] = [row.requestKey] := by simp [chosen, hcandidate]
  rw [lease_eq (by simpa using hs) hkeyed hvalid, List.map_singleton,
    swept_of_not_exhausted hexhausted, hchosen]
  simp [taken]

/-- A request for an empty table. -/
theorem enqueue_single {ρ : Type} [DecidableEq ρ] {fits : ρ → Bool}
    {input : EnqueueAttestationRequest ρ} {links : String → Option MarketLinkRow}
    {link : MarketLinkRow} (hvalid : InputValid fits input) (hlink : links input.marketId = some link)
    (hbinds : Binds link input) (hlive : MarketLive link) :
    escrowAttestationEnqueue fits links [] input = .ok [created input] := by
  rw [escrowAttestationEnqueue, require_pos hvalid, ok_bind, List.find?_nil]
  simp [hlink, okOr, hbinds, hlive, insertRow, require, stored_ok (created_checks hvalid hbinds)]

end Sample

open Sample in
/-- A request for a settlement, and the worker that takes it. -/
theorem settlement_taken_fenced :
    ∃ table : Table Unit Unit,
      Runs (fun _ => true) .empty [.enqueue request, .lease "worker" 0 1 []] table ∧
        table.rows = [leased "worker" (created request).requestKey 0 (created request)] ∧
        Fenced (fun _ => true) table := by
  have hvalid : InputValid (fun _ => true) request := by decide +kernel
  have hbinds : Binds link request := by decide +kernel
  have hsound : Sound (fun _ => true) (fun _ => (none : Option (RelayerJob Unit)))
      (created request) := sound_created (created_checks hvalid hbinds)
  have hlease := lease_single hsound (by decide : Candidate (created request) 0)
    (by decide : LeaseInputValid "worker" 1) id
  have requested : Runs (fun _ => true) .empty [.enqueue request]
      (⟨[created request], [], fun _ => none⟩ : Table Unit Unit) :=
    .single (.enqueued (fun _ => some link) (enqueue_single hvalid rfl hbinds (by decide)))
  have taken := requested.snoc (.leased id (by simp) Function.injective_id hlease)
  exact ⟨_, taken, rfl, attestation_queue_fenced taken⟩

end CalledIt.Relayer.Attestations
