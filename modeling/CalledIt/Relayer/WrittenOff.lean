import CalledIt.Relayer.RelayerWorker

/-!
# CalledIt.Relayer.WrittenOff

When the worker writes a signed transaction off.

The worker reads whether the transaction has landed before it reads whether its blockhash is
still taken.  So a transaction that can land when the worker starts is written off by some
run although it lands; every other one is written off only where it never lands
(`written_off_iff`).
-/

namespace CalledIt.Relayer

open Lib Lib.Program

/-! ## landing -/

variable {height : Nat} {errorCode : String}

namespace Chain

/-- The transaction has not landed, was broadcast, and its blockhash is still taken. -/
def CanLand (web3 : Web3) (chain : Chain) (signature : String) : Prop :=
  chain.landed signature = none ∧ ∃ raw ∈ chain.broadcast, ∃ transaction,
    web3.deserialize raw = some transaction ∧ web3.signatureOf transaction = some signature ∧
      chain.isValid transaction.recentBlockhash chain.tip

/-- The transaction has not landed and does not land whatever the chain does. -/
def NeverLands (web3 : Web3) (chain : Chain) (signature : String) : Prop :=
  ∀ later, Steps web3 chain later → later.landed signature = none

variable {web3 : Web3} {chain later : Chain} {signature : String}

theorem NeverLands.steps (h : chain.NeverLands web3 signature) (hsteps : Steps web3 chain later) :
    later.NeverLands web3 signature :=
  fun _ hlater => h _ (hsteps.trans hlater)

theorem isValid_mono {blockhash : String}
    (h : chain.isValid blockhash (height + 1)) : chain.isValid blockhash height := by
  simp only [isValid, Option.any_eq_true, decide_eq_true_eq] at h ⊢
  obtain ⟨last, hlast, hheight⟩ := h
  exact ⟨last, hlast, by omega⟩

/-- A transaction that neither landed nor can land is so after a step. -/
theorem Step.barred (hstep : Step web3 chain later)
    (h : chain.landed signature = none ∧ ¬chain.CanLand web3 signature) :
    later.landed signature = none ∧ ¬later.CanLand web3 signature := by
  obtain ⟨hlanded, hno⟩ := h
  cases hstep with
  | block =>
      refine ⟨hlanded, fun hcan => hno ?_⟩
      obtain ⟨-, raw, hraw, transaction, htransaction, hsignature, hvalid⟩ := hcan
      exact ⟨hlanded, raw, hraw, transaction, htransaction, hsignature, isValid_mono hvalid⟩
  | finalize => exact ⟨hlanded, fun hcan => hno hcan⟩
  | land slot failed hraw htransaction hsignature hvalid hnone =>
      rename_i raw other transaction
      have hother : signature ≠ other := by
        rintro rfl
        exact hno ⟨hlanded, raw, hraw, transaction, htransaction, hsignature, hvalid⟩
      refine ⟨by simp [Function.update_of_ne hother, hlanded], fun hcan => hno ⟨hlanded, hcan.2⟩⟩

theorem neverLands_iff :
    chain.NeverLands web3 signature ↔
      chain.landed signature = none ∧ ¬chain.CanLand web3 signature := by
  constructor
  · intro h
    refine ⟨h chain .refl, fun hcan => ?_⟩
    obtain ⟨hnone, raw, hraw, transaction, htransaction, hsignature, hvalid⟩ := hcan
    have hland := h _ (.single (.land 0 false hraw htransaction hsignature hvalid hnone))
    simp at hland
  · intro h later hsteps
    suffices hlater : later.landed signature = none ∧ ¬later.CanLand web3 signature from hlater.1
    induction hsteps with
    | refl => exact h
    | tail _ hstep ih => exact hstep.barred ih

/-- What has landed stays. -/
theorem Steps.landed (hsteps : Steps web3 chain later) (h : chain.landed signature ≠ none) :
    later.landed signature ≠ none := by
  induction hsteps with
  | refl => exact h
  | tail _ hstep ih =>
      cases hstep with
      | block => exact ih
      | finalize => exact ih
      | @land raw other =>
          by_cases hother : signature = other
          · simp [hother]
          · simpa [Function.update_of_ne hother] using ih

theorem absent_of_landed (h : chain.landed signature = none) :
    chain.signatureState signature = .absent := by
  simp [signatureState, h]

theorem landed_of_absent (h : chain.signatureState signature = .absent) :
    chain.landed signature = none := by
  unfold signatureState at h
  split at h
  · assumption
  · split_ifs at h

/-- The node has one code for a transaction that failed. -/
theorem failed_eq (h : chain.signatureState signature = .failed errorCode) :
    errorCode = "transaction_failed" := by
  unfold signatureState at h
  split at h
  · simp at h
  · split_ifs at h
    exact (EscrowRelaySignatureState.failed.inj h).symm

/-- The chain finalizes any height. -/
theorem exists_finalized (web3 : Web3) (chain : Chain) (height : Nat) :
    ∃ later, Steps web3 chain later ∧ height ≤ later.finalized ∧ later.landed = chain.landed ∧
      later.lastValidBlockHeight = chain.lastValidBlockHeight := by
  induction height with
  | zero => exact ⟨chain, .refl, by omega, rfl, rfl⟩
  | succ height ih =>
      obtain ⟨later, hsteps, hheight, hlanded, hlast⟩ := ih
      have hblocks : ∀ n, Steps web3 later { later with tip := later.tip + n } := by
        intro n
        induction n with
        | zero => exact .refl
        | succ n ih => exact ih.tail (.block _)
      let grown : Chain := { later with tip := later.tip + (later.finalized + 1) }
      have hfinal : Step web3 grown { grown with finalized := grown.finalized + 1 } :=
        .finalize (by simp only [grown]; omega)
      refine ⟨_, (hsteps.trans (hblocks (later.finalized + 1))).tail hfinal, ?_, hlanded, hlast⟩
      simp only [grown]
      omega

end Chain

/-! ## writing off -/

/-- The job is given up as expired or badly signed, or its transaction is cleared as expired. -/
def WritesOff : RelayerCall → Prop
  | .deadLetterRelayerJob _ errorCode _ =>
      errorCode = "user_signature_expired" ∨ errorCode = "user_signature_invalid_or_expired"
  | .retryRelayerJob input =>
      input.confirmationUnknown = false ∧ input.errorCode = "expired_not_landed"
  | _ => False

/-- The mutation is carried out. -/
def Accepted (world : World) : RelayerCall → Prop
  | .deadLetterRelayerJob lease errorCode nowIso =>
      (escrowRelayerDeadLetter world.row lease errorCode nowIso).2 = .ok false .dead
  | .retryRelayerJob input => (escrowRelayerRetry world.row input).2 = .ok false .retryWait
  | _ => False

/-- The calls of a run, each with the world that it found. -/
abbrev RelayLog := List (RelayerCall × World)

/-- Where the transaction is written off, it never lands. -/
def WrittenOffRightly (web3 : Web3) (signature : String) (log : RelayLog) : Prop :=
  ∀ entry ∈ log, WritesOff entry.1 → Accepted entry.2 entry.1 →
    entry.2.chain.NeverLands web3 signature

variable {call : RelayerCall} {p : Program RelayerCall RelayerCall.Reply α}

section Rules

variable {web3 : Web3} {signature : String} {α : Type} {s : World × RelayLog}

abbrev Tracing (web3 : Web3) := Traced Exec (Others web3)

/-- The call broadcasts nothing. -/
def Quiet (call : RelayerCall) : Prop := ∀ raw, call ≠ .broadcast raw

/-- A call that broadcasts nothing leaves the chain as it is. -/
theorem Exec.chain_eq {world after : World} {reply : call.Reply} (hquiet : Quiet call)
    (h : Exec call world reply after) :
    after.chain = world.chain := by
  have hanswers : ∀ answer, Answers call world answer after → after.chain = world.chain := by
    intro answer h
    cases call with
    | broadcast raw => exact absurd rfl (hquiet raw)
    | confirm | positionPlacementReadiness => exact congrArg World.chain h
    | signatureState | isBlockhashValid | blockHeight | genesisHash =>
        exact congrArg World.chain h.2
    | retryRelayerJob | completeRelayerJob | deadLetterRelayerJob =>
        rw [h.2]
        rfl
  cases reply with
  | some answer => exact hanswers answer h
  | none =>
      rcases h with rfl | ⟨answer, h⟩
      · rfl
      · exact hanswers answer h

/-- While the transaction never lands, all is right but a broadcast. -/
theorem meets_quiet (h : p.Only Quiet) (hnever : s.1.chain.NeverLands web3 signature)
    (hs : WrittenOffRightly web3 signature s.2) :
    Meets (Tracing web3) (fun _ _ _ => False) (fun s => WrittenOffRightly web3 signature s.2)
      (fun _ t => t.1.chain.NeverLands web3 signature ∧ WrittenOffRightly web3 signature t.2)
      p s := by
  induction p generalizing s with
  | done a => exact ⟨hs, hnever, hs⟩
  | call call next ih =>
      refine ⟨hs, by simp, fun reply t hcall => ?_⟩
      obtain ⟨found, hothers, hexec, hlog⟩ := hcall
      have hfound : found.chain.NeverLands web3 signature := hnever.steps hothers
      refine ih reply (h.2 reply) ?_ ?_
      · rw [hexec.chain_eq h.1]
        exact hfound
      · rw [hlog]
        intro entry hentry
        rcases List.mem_append.mp hentry with hold | hnew
        · exact hs entry hold
        · obtain rfl := List.mem_singleton.mp hnew
          exact fun _ _ => hfound

theorem WrittenOffRightly.append {log : RelayLog} (hlog : WrittenOffRightly web3 signature log)
    (found : World) (hcall : ¬WritesOff call) :
    WrittenOffRightly web3 signature (log ++ [(call, found)]) := by
  intro entry hentry
  rcases List.mem_append.mp hentry with hold | hnew
  · exact hlog entry hold
  · obtain rfl := List.mem_singleton.mp hnew
    exact fun hwrites => absurd hwrites hcall

/-- Wherever the program stops, all was right. -/
def StaysRight (web3 : Web3) (signature : String) (p : Program RelayerCall RelayerCall.Reply α)
    (s : World × RelayLog) : Prop :=
  Meets (Tracing web3) (fun _ _ _ => False) (fun s => WrittenOffRightly web3 signature s.2)
    (fun _ t => WrittenOffRightly web3 signature t.2) p s

theorem meets_quiet_bind {β : Type} {p : Relaying α} {f : α → Relaying β}
    (h : p.Only Quiet) (hnever : s.1.chain.NeverLands web3 signature)
    (hs : WrittenOffRightly web3 signature s.2)
    (hf : ∀ a t, t.1.chain.NeverLands web3 signature → WrittenOffRightly web3 signature t.2 →
      StaysRight web3 signature (f a) t) :
    StaysRight web3 signature (p >>= f : Relaying β) s := by
  refine Meets.bind (meets_quiet h hnever hs) fun r t ht => ?_
  cases r with
  | ok a => exact hf a t ht.1 ht.2
  | error e => exact ⟨ht.2, ht.2⟩

/-- A call that does not write off, for whatever it finds and answers. -/
theorem StaysRight.ask_bind {f : call.Answer → Relaying α} (hcall : ¬WritesOff call)
    (hs : WrittenOffRightly web3 signature s.2)
    (hf : ∀ answer found after, Others web3 s.1 found → Answers call found answer after →
      WrittenOffRightly web3 signature (s.2 ++ [(call, found)]) →
      StaysRight web3 signature (f answer) (after, s.2 ++ [(call, found)])) :
    StaysRight web3 signature (ask call >>= f : Relaying α) s := by
  refine ⟨hs, by simp, fun reply t htraced => ?_⟩
  obtain ⟨found, hothers, hexec, hlog⟩ := htraced
  obtain ⟨after, log⟩ := t
  obtain rfl : log = s.2 ++ [(call, found)] := hlog
  have hlogged := hs.append found hcall
  cases reply with
  | none => exact ⟨hlogged, hlogged⟩
  | some answer => exact hf answer found after hothers hexec hlogged

theorem StaysRight.of_quiet (h : p.Only Quiet) (hnever : s.1.chain.NeverLands web3 signature)
    (hs : WrittenOffRightly web3 signature s.2) :
    StaysRight web3 signature p s :=
  (meets_quiet h hnever hs).mono fun _ _ ht => ht.2

/-- A program that does not write off keeps the log right. -/
theorem StaysRight.of_harmless (h : p.Only fun call => ¬WritesOff call)
    (hs : WrittenOffRightly web3 signature s.2) :
    StaysRight web3 signature p s := by
  refine Only.meets h (fun call s reply t hcall hs htraced => ?_) hs
  obtain ⟨found, -, -, hlog⟩ := htraced
  rw [hlog]
  exact hs.append found hcall

end Rules

/-! ## the calls of the worker -/

section Calls

variable {allowed : RelayerCall → Prop} {options : RelayerOptions} {job : EscrowRelayerJobRow}
  {nowIso : String}

theorem only_ask (h : allowed call) : Only allowed (ask call) := by
  refine only_bind (only_perform h) fun reply => ?_
  cases reply with
  | some answer => exact only_pure
  | none => exact only_throw

theorem only_dead (h : ∀ lease, allowed (.deadLetterRelayerJob lease errorCode nowIso)) :
    Only allowed (dead job nowIso errorCode) :=
  only_bind only_lift fun lease => only_bind (only_ask (h lease)) fun _ =>
    only_bind only_lift fun _ => only_pure

theorem only_retryUnknown
    (h : ∀ input, input.confirmationUnknown = true → allowed (.retryRelayerJob input)) :
    Only allowed (retryUnknown options job nowIso errorCode) :=
  only_bind only_lift fun _ => only_bind (only_ask (h _ rfl)) fun _ => only_lift

variable {signature : String}

theorem only_retrying
    (h : ∀ input, input.confirmationUnknown = true → allowed (.retryRelayerJob input)) :
    Only allowed (do
      retryUnknown options job nowIso errorCode
      return .retrying job.id signature : Relaying EscrowRelayerRunResult) :=
  only_bind (only_retryUnknown h) fun _ => only_pure

theorem not_writesOff_retry (input : RetryRelayerJob) (h : input.confirmationUnknown = true) :
    ¬WritesOff (.retryRelayerJob input) := by
  simp [WritesOff, h]

theorem not_writesOff_dead (lease : RelayerLease) (hexpired : errorCode ≠ "user_signature_expired")
    (hinvalid : errorCode ≠ "user_signature_invalid_or_expired") :
    ¬WritesOff (.deadLetterRelayerJob lease errorCode nowIso) := by
  simp [WritesOff, hexpired, hinvalid]

/-- Once the transaction was sent again, it is not written off in this run. -/
theorem only_rebroadcast {raw : String} :
    Only (¬WritesOff ·) (rebroadcast options job nowIso raw signature) := by
  refine only_bind ?_ fun ready => ?_
  · unfold placementBroadcastReady
    split
    · exact only_pure
    · exact only_ask id
  · have hretry : ∀ errorCode, Only (¬WritesOff ·) (do
        retryUnknown options job nowIso errorCode
        return .retrying job.id signature : Relaying EscrowRelayerRunResult) :=
      fun errorCode => only_retrying not_writesOff_retry
    cases ready with
    | false => exact hretry _
    | true =>
        refine only_bind (only_catch (only_ask id)) fun observed => ?_
        cases observed with
        | error e => exact hretry _
        | ok observed =>
            by_cases hobserved : observed ≠ signature
            · simp only [if_pos hobserved]
              exact only_dead fun lease => not_writesOff_dead lease (by decide) (by decide)
            · simp only [if_neg hobserved]
              exact hretry _

theorem quiet_dead : Only Quiet (dead job nowIso errorCode) :=
  only_dead fun _ _ => by simp

theorem quiet_retrying :
    Only Quiet (do
      retryUnknown options job nowIso errorCode
      return .retrying job.id signature : Relaying EscrowRelayerRunResult) :=
  only_retrying fun _ _ _ => by simp

theorem quiet_retryExpired {currentBlockHeight : Nat} :
    Only Quiet (retryExpired options job nowIso currentBlockHeight) :=
  only_bind only_lift fun _ => only_bind (only_ask fun _ => by simp) fun _ => only_lift

theorem quiet_verify {payload : EscrowPlacementRelayPayload} :
    Only Quiet (verifyPlacementRelayTransaction options job nowIso payload) := by
  refine only_bind only_lift fun nowUnix => only_bind only_lift fun _ =>
    only_bind only_lift fun verified => only_bind only_lift fun _ =>
    only_bind only_lift fun transaction => ?_
  refine only_bind (only_ask fun _ => by simp) fun height => ?_
  exact only_bind (only_ask fun _ => by simp) fun genesisHash => only_lift

theorem quiet_processHeight {lastValidBlockHeight : Nat} :
    Only Quiet (processHeight options job nowIso signature lastValidBlockHeight height) := by
  unfold processHeight
  split
  · exact quiet_dead
  · split
    · exact quiet_retrying
    · exact only_bind quiet_retryExpired fun _ => only_pure

theorem quiet_processInvalid {lastValidBlockHeight : Nat} :
    Only Quiet (processInvalid options job nowIso signature lastValidBlockHeight) :=
  only_bind (only_ask fun _ => by simp) fun _ => quiet_processHeight

end Calls

/-! ## the worker -/

section Worker

variable {options : RelayerOptions} {job : EscrowRelayerJobRow} {nowIso raw signature : String}
  {lastValidBlockHeight : Nat} {s : World × RelayLog}

/-- A transaction that never lands may be written off. -/
theorem staysRight_processAbsent (hnever : s.1.chain.NeverLands options.web3 signature)
    (hs : WrittenOffRightly options.web3 signature s.2) :
    StaysRight options.web3 signature
      (processAbsent options job nowIso raw signature lastValidBlockHeight) s := by
  refine meets_quiet_bind only_lift hnever hs fun blockhash t hnever hs => ?_
  refine meets_quiet_bind (only_ask fun _ => by simp) hnever hs fun valid t hnever hs => ?_
  cases valid with
  | false => exact .of_quiet quiet_processInvalid hnever hs
  | true =>
      have hrebroadcast : ∀ {t : World × RelayLog}, WrittenOffRightly options.web3 signature t.2 →
          StaysRight options.web3 signature (rebroadcast options job nowIso raw signature) t :=
        fun hs => .of_harmless only_rebroadcast hs
      simp only [if_pos, processValid]
      split
      · split
        · exact .of_quiet quiet_dead hnever hs
        · refine meets_quiet_bind (only_catch quiet_verify) hnever hs fun verified t hnever hs => ?_
          cases verified with
          | error e => exact .of_quiet quiet_dead hnever hs
          | ok _ => exact hrebroadcast hs
      · exact hrebroadcast hs

/-- A transaction that is in the ledger is not written off. -/
theorem harmless_processFinalized {slot : Nat} :
    Only (¬WritesOff ·) (processFinalized options job nowIso signature slot) := by
  have hcomplete : Only (¬WritesOff ·) (complete job nowIso signature) :=
    only_bind only_lift fun _ => only_bind (only_ask id) fun _ =>
      only_bind only_lift fun _ => only_pure
  unfold processFinalized
  split
  · refine only_bind (only_ask id) fun effect => ?_
    cases effect with
    | pending => exact only_retrying not_writesOff_retry
    | mismatch => exact only_dead fun lease => not_writesOff_dead lease (by decide) (by decide)
    | confirmed => exact hcomplete
  · exact hcomplete

end Worker

/-! ## a job with its transaction -/

/-- A job that the worker has leased, with the transaction that was signed for it. -/
structure SignedJob (web3 : Web3) where
  job : EscrowRelayerJobRow
  lease : RelayerLease
  raw : String
  signature : String
  lastValidBlockHeight : Nat
  transaction : VersionedTransaction
  state : job.state = .leased
  custodyMode : job.custodyMode = "escrow"
  leaseOwner : job.leaseOwner = some lease.workerId
  leaseToken : job.leaseToken = some lease.leaseToken
  rawTransactionBase64 : job.rawTransactionBase64 = some raw
  expectedSignature : job.expectedSignature = some signature
  validTo : job.lastValidBlockHeight = some lastValidBlockHeight
  deserialized : web3.deserialize raw = some transaction
  signed : web3.signatureOf transaction = some signature

section SignedJob

variable {web3 : Web3} {options : RelayerOptions} {nowIso : String} {chain : Chain}
  (persisted : SignedJob options.web3)

theorem SignedJob.lease_eq : CalledIt.Relayer.lease persisted.job = .ok persisted.lease := by
  simp [CalledIt.Relayer.lease, persisted.custodyMode, persisted.leaseOwner,
    persisted.leaseToken, okOr, require]

theorem SignedJob.holds : persisted.job.holds persisted.lease := by
  simp [EscrowRelayerJobRow.holds, persisted.leaseOwner, persisted.leaseToken]

theorem SignedJob.recentBlockhash_eq :
    recentBlockhash options persisted.raw = .ok persisted.transaction.recentBlockhash := by
  simp [recentBlockhash, persisted.deserialized, okOr]

theorem SignedJob.processPersisted_eq :
    processPersisted options persisted.job nowIso =
      (do
        processState options persisted.job nowIso persisted.raw persisted.signature
          persisted.lastValidBlockHeight (← ask (.signatureState persisted.signature))) := by
  unfold processPersisted
  rw [persisted.rawTransactionBase64, persisted.expectedSignature, persisted.validTo]
  rfl

/-- A transaction that cannot land when the worker starts is written off rightly. -/
theorem staysRight_processPersisted
    (hcan : ¬chain.CanLand options.web3 persisted.signature) (row : Option EscrowRelayerJobRow) :
    StaysRight options.web3 persisted.signature (processPersisted options persisted.job nowIso)
      (⟨chain, row⟩, []) := by
  rw [persisted.processPersisted_eq]
  refine .ask_bind id (by simp [WrittenOffRightly]) fun state found after hothers hanswers hs => ?_
  obtain ⟨hanswer, rfl⟩ := hanswers
  cases state with
  | finalized slot => exact .of_harmless harmless_processFinalized hs
  | confirmed slot => exact .of_harmless (only_retrying not_writesOff_retry) hs
  | failed errorCode =>
      obtain rfl := Chain.failed_eq hanswer.symm
      exact .of_harmless
        (only_dead fun lease => not_writesOff_dead lease (by decide) (by decide)) hs
  | absent =>
      have hnone := Chain.landed_of_absent hanswer.symm
      have hstart : chain.landed persisted.signature = none :=
        not_not.mp fun hlanded => hothers.landed hlanded hnone
      have hnever := (Chain.neverLands_iff.mpr ⟨hstart, hcan⟩).steps hothers
      exact staysRight_processAbsent hnever hs

/-! ## a run that writes it off -/

theorem executes_ask (call : RelayerCall) {s : World × RelayLog} {found after : World}
    {answer : call.Answer} (hothers : Others web3 s.1 found)
    (hanswers : Answers call found answer after) :
    Executes (Tracing web3) (ask call) s (.ok answer) (after, s.2 ++ [(call, found)]) := by
  have hexec : Exec call found (some answer) after := hanswers
  exact .call (r := some answer) ⟨found, hothers, hexec, rfl⟩ (.done _ _)

variable {log : RelayLog}

theorem SignedJob.accepts_dead (nowIso : String) (chain : Chain) (errorCode : String) :
    Accepted ⟨chain, some persisted.job⟩
      (.deadLetterRelayerJob persisted.lease errorCode nowIso) := by
  simp [Accepted, escrowRelayerDeadLetter, persisted.state, persisted.holds]

/-- The job as it was leased is given up. -/
theorem SignedJob.executes_dead (web3 : Web3) (nowIso : String) (chain : Chain) (log : RelayLog)
    (errorCode : String) :
    ∃ row, Executes (Tracing web3) (dead persisted.job nowIso errorCode)
      (⟨chain, some persisted.job⟩, log) (.ok (.terminal persisted.job.id errorCode))
      (⟨chain, row⟩, log ++ [(.deadLetterRelayerJob persisted.lease errorCode nowIso,
        ⟨chain, some persisted.job⟩)]) := by
  refine ⟨(escrowRelayerDeadLetter (some persisted.job) persisted.lease errorCode nowIso).1, ?_⟩
  unfold dead
  rw [persisted.lease_eq, lift_ok_bind]
  refine executes_bind (executes_ask _ .refl ⟨rfl, rfl⟩) ?_
  rw [show (escrowRelayerDeadLetter _ _ _ _).2 = _ from persisted.accepts_dead nowIso chain _]
  exact .done _ _

/-- The transaction of the job is cleared, past the last height at which it was valid. -/
theorem SignedJob.executes_retryExpired (web3 : Web3) (nowIso : String) (chain : Chain)
    (log : RelayLog) (hheight : persisted.lastValidBlockHeight < height) :
    ∃ world input, Executes (Tracing web3) (retryExpired options persisted.job nowIso height)
      (⟨chain, some persisted.job⟩, log) (.ok ())
      (world, log ++ [(.retryRelayerJob input, ⟨chain, some persisted.job⟩)]) ∧
        WritesOff (.retryRelayerJob input) ∧
        Accepted ⟨chain, some persisted.job⟩ (.retryRelayerJob input) := by
  let input : RetryRelayerJob :=
    { lease := persisted.lease
      errorCode := "expired_not_landed"
      retryAtIso := options.retryAt nowIso
      confirmationUnknown := false
      fullHistoryCheckedAtIso := some nowIso
      currentBlockHeight := some height
      nowIso }
  have haccepted : (escrowRelayerRetry (some persisted.job) input).2 = .ok false .retryWait := by
    simp [input, escrowRelayerRetry, persisted.state, persisted.holds, persisted.validTo,
      Nat.not_le.mpr hheight]
  refine ⟨World.mutated ⟨chain, some persisted.job⟩
    (escrowRelayerRetry (some persisted.job) input), input, ?_, ⟨rfl, rfl⟩, haccepted⟩
  unfold retryExpired
  rw [persisted.lease_eq, lift_ok_bind]
  refine executes_bind (executes_ask _ .refl ⟨rfl, rfl⟩) ?_
  rw [show (escrowRelayerRetry _ _).2 = _ from haccepted]
  exact .done _ _

/-- A write-off that finds the transaction in the ledger. -/
theorem not_writtenOffRightly {found : World} {log : RelayLog} {signature : String}
    (hwrites : WritesOff call) (haccepted : Accepted found call)
    (hlanded : found.chain.landed signature ≠ none) :
    ¬WrittenOffRightly web3 signature (log ++ [(call, found)]) :=
  fun h => hlanded (h (call, found) (by simp) hwrites haccepted found.chain .refl)

/-- Past the last height, the job of a transaction that has landed is written off. -/
theorem SignedJob.executes_processHeight (web3 : Web3) (nowIso : String) (log : RelayLog)
    (hlast : persisted.lastValidBlockHeight < height)
    (hlanded : chain.landed persisted.signature ≠ none) :
    ∃ result world' log', Executes (Tracing web3)
      (processHeight options persisted.job nowIso persisted.signature
        persisted.lastValidBlockHeight height) (⟨chain, some persisted.job⟩, log) result
        (world', log') ∧
      ¬WrittenOffRightly web3 persisted.signature log' := by
  unfold processHeight
  by_cases hplacement : (placementRelayPayload persisted.job).isSome
  · obtain ⟨row, hdead⟩ :=
      persisted.executes_dead web3 nowIso chain log "user_signature_expired"
    have hwrites : WritesOff
        (.deadLetterRelayerJob persisted.lease "user_signature_expired" nowIso) :=
      .inl rfl
    rw [if_pos hplacement]
    exact ⟨_, _, _, hdead,
      not_writtenOffRightly hwrites (persisted.accepts_dead _ _ _) hlanded⟩
  · obtain ⟨world', input, hretry, hwrites, haccepted⟩ :=
      persisted.executes_retryExpired web3 nowIso chain log hlast
    rw [if_neg hplacement, if_neg (Nat.not_le.mpr hlast)]
    exact ⟨_, world', _, executes_bind hretry (.done _ _),
      not_writtenOffRightly hwrites haccepted hlanded⟩

/-- The transaction lands and its blockhash is past before the worker reads it. -/
theorem SignedJob.executes_processAbsent (nowIso : String) (log : RelayLog) {world : World}
    (hsteps : Chain.Steps web3 world.chain chain)
    (hpast : chain.isValid persisted.transaction.recentBlockhash chain.finalized = false)
    (hlast : persisted.lastValidBlockHeight < chain.finalized)
    (hlanded : chain.landed persisted.signature ≠ none) :
    ∃ result world' log', Executes (Tracing web3)
      (processAbsent options persisted.job nowIso persisted.raw persisted.signature
        persisted.lastValidBlockHeight) (world, log) result (world', log') ∧
      ¬WrittenOffRightly web3 persisted.signature log' := by
  let validity : RelayerCall := .isBlockhashValid persisted.transaction.recentBlockhash
  have hvalid : Executes (Tracing web3) (ask validity) (world, log) (.ok false)
      (⟨chain, some persisted.job⟩, log ++ [(validity, ⟨chain, some persisted.job⟩)]) :=
    executes_ask validity hsteps ⟨hpast.symm, rfl⟩
  have hheight : Executes (Tracing web3) (ask .blockHeight)
      (⟨chain, some persisted.job⟩, log ++ [(validity, ⟨chain, some persisted.job⟩)])
      (.ok chain.finalized) (⟨chain, some persisted.job⟩, _) :=
    executes_ask .blockHeight .refl ⟨rfl, rfl⟩
  obtain ⟨result, world', log', hpast, hwrong⟩ :=
    persisted.executes_processHeight web3 nowIso _ hlast hlanded
  refine ⟨result, world', log', ?_, hwrong⟩
  unfold processAbsent
  rw [persisted.recentBlockhash_eq, lift_ok_bind]
  exact executes_bind hvalid (executes_bind hheight hpast)

/-- A transaction that can land is written off by a run in which it lands. -/
theorem exists_written_off (nowIso : String) (hcan : chain.CanLand options.web3 persisted.signature) :
    ∃ result world log, Executes (Tracing options.web3)
      (processPersisted options persisted.job nowIso) (⟨chain, some persisted.job⟩, []) result
      (world, log) ∧ ¬WrittenOffRightly options.web3 persisted.signature log := by
  obtain ⟨hnone, raw, hraw, transaction, htransaction, hsignature, hvalid⟩ := hcan
  have hland := Chain.Step.land 0 false hraw htransaction hsignature hvalid hnone
  obtain ⟨later, hsteps, hheight, hlanded, hlast⟩ := Chain.exists_finalized options.web3
    { chain with
      landed := Function.update chain.landed persisted.signature (some ⟨0, chain.tip, false⟩) }
    (max ((chain.lastValidBlockHeight persisted.transaction.recentBlockhash).getD 0)
      persisted.lastValidBlockHeight + 1)
  have hpast : later.isValid persisted.transaction.recentBlockhash later.finalized = false := by
    rw [Chain.isValid, hlast]
    cases hblockhash : chain.lastValidBlockHeight persisted.transaction.recentBlockhash with
    | none => rfl
    | some last =>
        simp only [hblockhash, Option.getD_some] at hheight
        simp only [Option.any_some, decide_eq_false_iff_not]
        omega
  let start : World := ⟨chain, some persisted.job⟩
  have hlands : Chain.Steps options.web3 start.chain later := hsteps.head hland
  obtain ⟨result, world, log, hrun, hwrong⟩ := persisted.executes_processAbsent nowIso
    [(.signatureState persisted.signature, start)] hlands hpast (by omega) (by simp [hlanded])
  have habsent := Chain.absent_of_landed hnone
  refine ⟨result, world, log, ?_, hwrong⟩
  rw [persisted.processPersisted_eq]
  exact executes_bind (executes_ask _ .refl ⟨habsent.symm, rfl⟩) hrun

/-- No run writes the transaction off before its time just where it cannot land at the start. -/
theorem written_off_iff :
    (∀ world log, Crashes (Tracing options.web3) (fun _ _ _ => False)
      (processPersisted options persisted.job nowIso) (⟨chain, some persisted.job⟩, [])
      (world, log) → WrittenOffRightly options.web3 persisted.signature log) ↔
      ¬chain.CanLand options.web3 persisted.signature := by
  constructor
  · intro h hcan
    obtain ⟨result, world, log, hrun, hwrong⟩ :=
      exists_written_off persisted nowIso hcan
    exact hwrong (h world log hrun.crashes)
  · intro hcan world log hrun
    exact (staysRight_processPersisted persisted hcan (some persisted.job)).crashes hrun

/-! ## a check that could not be made -/

/-- The program throws, with the world as it was. -/
def Throws (web3 : Web3) {α : Type} (p : Relaying α) (world : World) (log : RelayLog) : Prop :=
  ∃ e log', Executes (Tracing web3) p (world, log) (.error e) (world, log')

end SignedJob

/-! ## a placement -/

namespace Worker.Sample

def transaction : VersionedTransaction where
  signatures := [[1], [2]]
  numRequiredSignatures := 2
  staticAccountKeys := []
  recentBlockhash := "blockhash"
  addressTableLookups := 0
  message := []

def web3 : Web3 where
  deserialize text := if text = "AQI=" then some transaction else none
  publicKey _ := none
  base58Encode bytes := if bytes = [1] then "signature" else ""
  sha256Hex _ := ""
  verify _ _ _ := false
  marketAddress _ _ := none
  decompile _ := none
  positionMessage _ _ := none
  dateParse _ := some 0

def options : RelayerOptions where
  web3 := web3
  retryAt nowIso := nowIso
  verifies _ := false

def hash : String := "".pushn 'a' 64

def payload : StoredPayload := fun name =>
  if name = "expectedRatioMilli" then some (.number 2000)
  else (.string ·) <$> List.lookup name
    [("operation", "place_position"), ("rawTransactionBase64", "AQI="),
      ("expectedSignature", "signature"), ("transactionMessageHashHex", hash),
      ("recentBlockhash", "blockhash"), ("lastValidBlockHeight", "7"), ("feePayer", "payer"),
      ("ownerPubkey", "owner"), ("programId", "program"), ("canonicalUsdcMint", "mint"),
      ("marketId", "00000000-0000-0000-0000-000000000000"), ("marketPda", "market"),
      ("marketDocumentHashHex", hash), ("side", "back"), ("asset", "sol"),
      ("amountAtomic", "5"), ("eventEpoch", "0"), ("lotNonce", "0"), ("expiresAt", "9"),
      ("genesisHash", "genesis")]

def job : EscrowRelayerJobRow where
  id := "job"
  kind := .positionPlacement
  state := .leased
  programId := "program"
  custodyMode := "escrow"
  marketId := some "00000000-0000-0000-0000-000000000000"
  ownerPubkey := some "owner"
  payload := payload
  leaseOwner := some "worker"
  leaseToken := some "token"
  leasedAt := some "0"
  leaseExpiresAt := some "1"
  rawTransactionBase64 := some "AQI="
  expectedSignature := some "signature"
  transactionMessageHashHex := some hash
  lastValidBlockHeight := some 7
  fullHistoryCheckedAt := none
  submittedAt := none
  confirmedAt := none
  dueAt := "0"
  errorCode := none
  updatedAt := "0"
  completedAt := none
  deadAt := none

def persisted : SignedJob options.web3 where
  job := job
  lease := ⟨"worker", "token"⟩
  raw := "AQI="
  signature := "signature"
  lastValidBlockHeight := 7
  transaction := transaction
  state := rfl
  custodyMode := rfl
  leaseOwner := rfl
  leaseToken := rfl
  rawTransactionBase64 := rfl
  expectedSignature := rfl
  validTo := rfl
  deserialized := rfl
  signed := rfl

/-- The placement was broadcast and is valid up to height 7. -/
def chain : Chain where
  genesisHash := "genesis"
  tip := 6
  finalized := 4
  lastValidBlockHeight blockhash := if blockhash = "blockhash" then some 7 else none
  broadcast := ["AQI="]
  landed _ := none

theorem canLand : chain.CanLand web3 "signature" :=
  ⟨rfl, "AQI=", by simp [chain], transaction, rfl, rfl, rfl⟩

example : (placementRelayPayload job).isSome := by decide +kernel

/-- The placement lands after its signature was read, and the job is given up as expired. -/
theorem placement_written_off : ∃ result world log,
    Executes (Tracing web3) (processPersisted options job "0") (⟨chain, some job⟩, []) result
      (world, log) ∧ ¬WrittenOffRightly web3 "signature" log :=
  exists_written_off persisted "0" canLand

end Worker.Sample

end CalledIt.Relayer
