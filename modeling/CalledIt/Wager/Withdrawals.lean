import Mathlib.Logic.Function.Basic
import CalledIt.Lib.Transducer
import CalledIt.Wager.Solvency

/-!
# CalledIt.Wager.Withdrawals

The withdrawal outbox (`engine/src/wager/withdrawals.ts`) and the chain it pays on.

The executor handles one row at a time and awaits every call it makes, so a crash or
the chain may come between any two of them.  A signed transfer is *spent* once it has
failed on the chain, or its block height has passed without it.  The executor may
sign anew, or give the money back, only when all earlier transfers are spent.
-/

namespace CalledIt.Wager

open Lib

/-! ## the chain -/

/-- Signed bytes: identical bytes are one transaction. -/
structure SignedTransfer where
  sig : String
  lastValidBlockHeight : Nat
  deriving DecidableEq, Repr

/-- What has been sent to the chain, and what has landed on it, with success or with
an error. -/
structure Chain where
  height : Nat
  broadcast : List SignedTransfer
  landed : SignedTransfer → Option Bool

namespace Chain

def send (chain : Chain) (transfer : SignedTransfer) : Chain :=
  { chain with broadcast := transfer :: chain.broadcast }

/-- A transfer lands once, after it was sent and while its block height has not
passed. -/
def land (chain : Chain) (transfer : SignedTransfer) (succeeds : Bool) : Chain :=
  if transfer ∈ chain.broadcast ∧ chain.landed transfer = none ∧
      chain.height ≤ transfer.lastValidBlockHeight then
    { chain with landed := Function.update chain.landed transfer (some succeeds) }
  else chain

end Chain

/-! ## the outbox -/

/-- The row; its signature, bytes and block height are written together. -/
structure OutboxRow where
  state : WithdrawalState
  transfer : Option SignedTransfer
  deriving DecidableEq, Repr

/-- `RESIGNABLE_WITHDRAWAL_STATES`. -/
def OutboxRow.resignable (row : OutboxRow) : Bool :=
  row.state = .debited ∨ row.state = .submitted

namespace OutboxRow

def markSubmitted (row : OutboxRow) (transfer : SignedTransfer) : OutboxRow :=
  if row.resignable then { state := .submitted, transfer := some transfer } else row

def markConfirmed (row : OutboxRow) : OutboxRow :=
  if row.state = .submitted then { row with state := .confirmed } else row

def markFailed (row : OutboxRow) : OutboxRow :=
  if row.resignable then { row with state := .failed } else row

end OutboxRow

/-- The call that the executor makes next. -/
inductive ExecutorCall
  | idle
  | build
  | persist (transfer : SignedTransfer)
  | broadcast (transfer : SignedTransfer)
  | statusLookup (transfer : SignedTransfer)
  | expiryLookup (transfer : SignedTransfer)
  | refund
  | markFailed
  | markConfirmed
  deriving DecidableEq, Repr

/-- `refunded` tells whether the credit with the key `wager:wrefund` is posted. -/
structure Outbox where
  row : OutboxRow
  refunded : Bool
  chain : Chain
  next : ExecutorCall

inductive ConfirmationLevel
  | processed
  | confirmed
  | finalized
  deriving DecidableEq, Repr

inductive BuildResult
  | signed (transfer : SignedTransfer)
  | failed
  | permanent
  deriving DecidableEq, Repr

/-- What happens: the executor's calls with what the network makes of them, crashes,
and steps of the chain.  The height that an expiry lookup reports lags behind. -/
inductive OutboxAction
  | tick
  | build (result : BuildResult)
  | persist
  | broadcast (arrives : Bool)
  | statusLookup (answer : Option ConfirmationLevel)
  | expiryLookup (lag : Option Nat)
  | refund
  | markFailed
  | markConfirmed
  | crash
  | land (transfer : SignedTransfer) (succeeds : Bool)
  | advance (blocks : Nat)
  deriving DecidableEq, Repr

/-- What the user is told. -/
inductive WithdrawalNotice
  | confirmed
  | failed
  deriving DecidableEq, Repr

namespace Outbox

def goto (outbox : Outbox) (next : ExecutorCall) : Outbox := { outbox with next }

/-- A tick takes up the row by its state. -/
def takeUp (outbox : Outbox) : Outbox :=
  match outbox.row.state, outbox.row.transfer with
  | .debited, _ => outbox.goto .build
  | .submitted, some transfer => outbox.goto (.statusLookup transfer)
  | _, _ => outbox

def built (outbox : Outbox) : BuildResult → Outbox
  | .signed transfer => outbox.goto (.persist transfer)
  | .failed => outbox.goto .idle
  | .permanent => outbox.goto .refund

def afterStatus (outbox : Outbox) (transfer : SignedTransfer) (level : ConfirmationLevel) :
    Outbox :=
  match outbox.chain.landed transfer with
  | none => outbox.goto (.expiryLookup transfer)
  | some false => outbox.goto .refund
  | some true => outbox.goto (if level = .processed then .idle else .markConfirmed)

/-- The window of the transfer has closed, as far as the lookup sees. -/
def Exceeded (outbox : Outbox) (transfer : SignedTransfer) (lag : Nat) : Prop :=
  transfer.lastValidBlockHeight < outbox.chain.height - lag

instance (outbox : Outbox) (transfer : SignedTransfer) (lag : Nat) :
    Decidable (outbox.Exceeded transfer lag) := by
  unfold Exceeded
  infer_instance

def afterExpiry (outbox : Outbox) (transfer : SignedTransfer) (lag : Nat) : Outbox :=
  outbox.goto (if outbox.Exceeded transfer lag then .build else .broadcast transfer)

end Outbox

/-- Actions that are not the executor's next call change nothing. -/
def outboxStep (outbox : Outbox) (action : OutboxAction) : Outbox × List WithdrawalNotice :=
  match action, outbox.next with
  | .land transfer succeeds, _ =>
      ({ outbox with chain := outbox.chain.land transfer succeeds }, [])
  | .advance blocks, _ =>
      ({ outbox with chain := { outbox.chain with height := outbox.chain.height + blocks } }, [])
  | .crash, _ => (outbox.goto .idle, [])
  | .tick, .idle => (outbox.takeUp, [])
  | .build result, .build => (outbox.built result, [])
  | .persist, .persist transfer =>
      ({ outbox with row := outbox.row.markSubmitted transfer, next := .broadcast transfer }, [])
  | .broadcast arrives, .broadcast transfer =>
      ({ outbox with
          chain := if arrives then outbox.chain.send transfer else outbox.chain
          next := .idle }, [])
  | .statusLookup none, .statusLookup _ => (outbox.goto .idle, [])
  | .statusLookup (some level), .statusLookup transfer => (outbox.afterStatus transfer level, [])
  | .expiryLookup none, .expiryLookup _ => (outbox.goto .idle, [])
  | .expiryLookup (some lag), .expiryLookup transfer => (outbox.afterExpiry transfer lag, [])
  | .refund, .refund => ({ outbox with refunded := true, next := .markFailed }, [])
  | .markFailed, .markFailed =>
      ({ outbox with row := outbox.row.markFailed, next := .idle }, [.failed])
  | .markConfirmed, .markConfirmed =>
      ({ outbox with row := outbox.row.markConfirmed, next := .idle }, [.confirmed])
  | _, _ => (outbox, [])

/-- A row that has just been requested. -/
def requested (height : Nat) : Outbox where
  row := { state := .debited, transfer := none }
  refunded := false
  chain := { height, broadcast := [], landed := fun _ => none }
  next := .idle

/-! ## what is promised -/

/-- At most one transfer has landed successfully, and none where the money was given
back. -/
structure PaysOnce (outbox : Outbox) : Prop where
  once : ∀ first second, outbox.chain.landed first = some true →
    outbox.chain.landed second = some true → first = second
  unpaid : outbox.refunded = true → ∀ transfer, outbox.chain.landed transfer ≠ some true

/-- The transfer has not paid and never will. -/
def Spent (chain : Chain) (transfer : SignedTransfer) : Prop :=
  chain.landed transfer = some false ∨
    chain.landed transfer = none ∧ transfer.lastValidBlockHeight < chain.height

/-- An expiry lookup that finds the window closed finds the transfer unpaid, as the
status lookup before it has; and after the money was given back nothing is signed that
may still land. -/
def Undisturbed (outbox : Outbox) : OutboxAction → Prop
  | .expiryLookup (some lag) =>
      ∀ transfer, outbox.next = .expiryLookup transfer → outbox.Exceeded transfer lag →
        outbox.chain.landed transfer ≠ some true
  | .build (.signed transfer) =>
      outbox.next = .build → outbox.refunded = true → Spent outbox.chain transfer
  | _ => True

/-! ## the invariant -/

/-- Sent, or on file to be sent. -/
def Outstanding (outbox : Outbox) (transfer : SignedTransfer) : Prop :=
  transfer ∈ outbox.chain.broadcast ∨ outbox.row.transfer = some transfer

def AllSpent (outbox : Outbox) : Prop :=
  ∀ transfer, Outstanding outbox transfer → Spent outbox.chain transfer

/-- What the executor knows before each of its calls. -/
def Knows (outbox : Outbox) : ExecutorCall → Prop
  | .build => AllSpent outbox ∧ outbox.row.resignable
  | .persist transfer => AllSpent outbox ∧ outbox.row.resignable ∧
      (outbox.refunded = true → Spent outbox.chain transfer)
  | .refund => AllSpent outbox
  | .broadcast transfer => outbox.row.transfer = some transfer
  | .statusLookup transfer => outbox.row.transfer = some transfer ∧ outbox.row.resignable
  | .expiryLookup transfer => outbox.row.transfer = some transfer ∧ outbox.row.resignable
  | _ => True

structure Kept (outbox : Outbox) : Prop where
  sent : ∀ transfer, outbox.chain.landed transfer ≠ none → transfer ∈ outbox.chain.broadcast
  stale : ∀ transfer ∈ outbox.chain.broadcast, outbox.row.transfer ≠ some transfer →
    Spent outbox.chain transfer
  refunded : outbox.refunded = true → AllSpent outbox
  debited : outbox.row.state = .debited → outbox.row.transfer = none
  knows : Knows outbox outbox.next

theorem kept_requested (height : Nat) : Kept (requested height) where
  sent := fun transfer h => absurd rfl h
  stale := fun transfer h => by simp [requested] at h
  refunded := fun h => by simp [requested] at h
  debited := fun _ => rfl
  knows := trivial

variable {outbox : Outbox}

theorem paysOnce_of_kept (h : Kept outbox) : PaysOnce outbox := by
  have hunspent : ∀ transfer, outbox.chain.landed transfer = some true →
      ¬ Spent outbox.chain transfer := by
    rintro transfer hpaid (hfailed | ⟨hnone, -⟩)
    · simp [hfailed] at hpaid
    · simp [hnone] at hpaid
  have hsent : ∀ transfer, outbox.chain.landed transfer = some true →
      transfer ∈ outbox.chain.broadcast := fun transfer hpaid => h.sent transfer (by simp [hpaid])
  have hcurrent : ∀ transfer, outbox.chain.landed transfer = some true →
      outbox.row.transfer = some transfer := fun transfer hpaid => by
    by_contra hstale
    exact hunspent transfer hpaid (h.stale transfer (hsent transfer hpaid) hstale)
  constructor
  · intro first second hfirst hsecond
    have hrow := hcurrent first hfirst
    rw [hcurrent second hsecond] at hrow
    exact (Option.some.inj hrow).symm
  · intro hrefunded transfer hpaid
    exact hunspent transfer hpaid (h.refunded hrefunded transfer (.inl (hsent transfer hpaid)))

/-! ## the chain moves on -/

variable {chain : Chain} {transfer : SignedTransfer}

theorem landed_land {succeeds : Bool} (other : SignedTransfer)
    (h : (chain.land transfer succeeds).landed other ≠
      chain.landed other) :
    other = transfer ∧ transfer ∈ chain.broadcast ∧ chain.landed transfer = none ∧
      chain.height ≤ transfer.lastValidBlockHeight := by
  unfold Chain.land at h
  split_ifs at h with hlands
  · by_cases hother : other = transfer
    · exact ⟨hother, hlands⟩
    · simp [Function.update_of_ne hother] at h
  · exact absurd rfl h

@[simp] theorem height_land (chain : Chain) (transfer : SignedTransfer) (succeeds : Bool) :
    (chain.land transfer succeeds).height = chain.height := by
  unfold Chain.land
  split_ifs <;> rfl

@[simp] theorem broadcast_land (chain : Chain) (transfer : SignedTransfer) (succeeds : Bool) :
    (chain.land transfer succeeds).broadcast = chain.broadcast := by
  unfold Chain.land
  split_ifs <;> rfl

/-- A spent transfer does not land any more. -/
theorem spent_land (h : Spent chain transfer) (other : SignedTransfer) (succeeds : Bool) :
    Spent (chain.land other succeeds) transfer := by
  have hsame : (chain.land other succeeds).landed transfer = chain.landed transfer := by
    by_contra hlands
    obtain ⟨rfl, -, hnone, hheight⟩ := landed_land transfer hlands
    rcases h with hfailed | ⟨-, hpassed⟩
    · simp [hnone] at hfailed
    · omega
  simpa [Spent, hsame] using h

theorem spent_advance (h : Spent chain transfer) (blocks : Nat) :
    Spent { chain with height := chain.height + blocks } transfer := by
  rcases h with hfailed | ⟨hnone, hpassed⟩
  · exact .inl hfailed
  · exact .inr ⟨hnone, Nat.lt_add_right blocks hpassed⟩

/-- What the executor knows stays true where spent transfers stay spent. -/
theorem kept_chain (h : Kept outbox) (hbroadcast : chain.broadcast = outbox.chain.broadcast)
    (hsent : ∀ transfer, chain.landed transfer ≠ none → transfer ∈ chain.broadcast)
    (hspent : ∀ transfer, Spent outbox.chain transfer → Spent chain transfer) :
    Kept { outbox with chain } := by
  have hall : AllSpent outbox → AllSpent { outbox with chain } := by
    intro hspentAll transfer hout
    refine hspent transfer (hspentAll transfer ?_)
    simpa [Outstanding, hbroadcast] using hout
  constructor
  · exact hsent
  · intro transfer hmem hrow
    exact hspent transfer (h.stale transfer (hbroadcast ▸ hmem) hrow)
  · exact fun hrefunded => hall (h.refunded hrefunded)
  · exact h.debited
  · have hknows := h.knows
    cases hnext : outbox.next <;> simp only [hnext, Knows] at hknows ⊢
    · exact ⟨hall hknows.1, hknows.2⟩
    · exact ⟨hall hknows.1, hknows.2.1, fun hrefunded => hspent _ (hknows.2.2 hrefunded)⟩
    · exact hknows
    · exact hknows
    · exact hknows
    · exact hall hknows

theorem kept_land (h : Kept outbox) (transfer : SignedTransfer) (succeeds : Bool) :
    Kept { outbox with chain := outbox.chain.land transfer succeeds } := by
  refine kept_chain h (by simp) (fun other hother => ?_)
    (fun other hother => spent_land hother transfer succeeds)
  rw [broadcast_land]
  by_cases hsame : (outbox.chain.land transfer succeeds).landed other = outbox.chain.landed other
  · exact h.sent other (hsame ▸ hother)
  · obtain ⟨rfl, hmem, -⟩ := landed_land other hsame
    exact hmem

theorem kept_advance (h : Kept outbox) (blocks : Nat) :
    Kept { outbox with chain := { outbox.chain with height := outbox.chain.height + blocks } } :=
  kept_chain h rfl h.sent fun _ hspent => spent_advance hspent blocks

/-! ## the executor's calls -/

theorem kept_goto (h : Kept outbox) {next : ExecutorCall}
    (hknows : Knows outbox next) : Kept (outbox.goto next) where
  sent := h.sent
  stale := h.stale
  refunded := h.refunded
  debited := h.debited
  knows := by cases next <;> exact hknows

/-- All is spent once the transfer on file is. -/
theorem allSpent_of_current (h : Kept outbox)
    (hcurrent : ∀ transfer, outbox.row.transfer = some transfer → Spent outbox.chain transfer) :
    AllSpent outbox := by
  rintro transfer (hmem | hrow)
  · by_cases hrow : outbox.row.transfer = some transfer
    · exact hcurrent transfer hrow
    · exact h.stale transfer hmem hrow
  · exact hcurrent transfer hrow

theorem kept_takeUp (h : Kept outbox) : Kept outbox.takeUp := by
  unfold Outbox.takeUp
  split
  · next hstate =>
    have hnone := h.debited hstate
    refine kept_goto h ⟨allSpent_of_current h fun transfer hrow => ?_, ?_⟩
    · simp [hnone] at hrow
    · simp [OutboxRow.resignable, hstate]
  · next hstate hrow =>
    exact kept_goto h ⟨hrow, by simp [OutboxRow.resignable, hstate]⟩
  · exact h

theorem kept_persist (h : Kept outbox) (hknows : Knows outbox (.persist transfer)) :
    Kept { outbox with row := outbox.row.markSubmitted transfer, next := .broadcast transfer } := by
  obtain ⟨hall, hresignable, hrefunded⟩ := hknows
  have hrow : outbox.row.markSubmitted transfer =
      { state := .submitted, transfer := some transfer } := by
    rw [OutboxRow.markSubmitted, if_pos hresignable]
  rw [hrow]
  constructor
  · exact h.sent
  · exact fun other hmem _ => hall other (.inl hmem)
  · rintro hcredited other (hmem | hother)
    · exact hall other (.inl hmem)
    · obtain rfl := Option.some.inj hother
      exact hrefunded hcredited
  · simp
  · rfl

theorem kept_broadcast (h : Kept outbox) (hrow : outbox.row.transfer = some transfer) :
    Kept { outbox with chain := outbox.chain.send transfer, next := .idle } := by
  constructor
  · exact fun other hlanded => List.mem_cons_of_mem _ (h.sent other hlanded)
  · intro other hmem hother
    rcases List.mem_cons.mp hmem with rfl | hmem
    · exact absurd hrow hother
    · exact h.stale other hmem hother
  · rintro hrefunded other (hmem | hother)
    · rcases List.mem_cons.mp hmem with rfl | hmem
      · exact h.refunded hrefunded other (.inr hrow)
      · exact h.refunded hrefunded other (.inl hmem)
    · exact h.refunded hrefunded other (.inr hother)
  · exact h.debited
  · trivial

theorem kept_afterStatus (h : Kept outbox) (hknows : Knows outbox (.statusLookup transfer))
    (level : ConfirmationLevel) :
    Kept (outbox.afterStatus transfer level) := by
  obtain ⟨hrow, hresignable⟩ := hknows
  unfold Outbox.afterStatus
  split
  · exact kept_goto h ⟨hrow, hresignable⟩
  · next hfailed =>
    refine kept_goto h (allSpent_of_current h fun other hother => ?_)
    obtain rfl := Option.some.inj (hrow.symm.trans hother)
    exact .inl hfailed
  · split_ifs
    · exact kept_goto h trivial
    · exact kept_goto h trivial

theorem kept_afterExpiry {lag : Nat} (h : Kept outbox)
    (hknows : Knows outbox (.expiryLookup transfer))
    (hunpaid : outbox.Exceeded transfer lag → outbox.chain.landed transfer ≠ some true) :
    Kept (outbox.afterExpiry transfer lag) := by
  obtain ⟨hrow, hresignable⟩ := hknows
  unfold Outbox.afterExpiry
  split_ifs with hexceeded
  · refine kept_goto h ⟨allSpent_of_current h fun other hother => ?_, hresignable⟩
    obtain rfl := Option.some.inj (hrow.symm.trans hother)
    have hnot := hunpaid hexceeded
    cases hlanded : outbox.chain.landed transfer with
    | none => exact .inr ⟨hlanded, Nat.lt_of_lt_of_le hexceeded (Nat.sub_le _ _)⟩
    | some succeeded =>
        cases succeeded with
        | false => exact .inl hlanded
        | true => exact absurd hlanded hnot
  · exact kept_goto h hrow

theorem kept_close (h : Kept outbox) {row : OutboxRow}
    (htransfer : row.transfer = outbox.row.transfer)
    (hdebited : row.state = .debited → outbox.row.state = .debited) :
    Kept { outbox with row, next := .idle } where
  sent := h.sent
  stale := fun transfer hmem hrow => h.stale transfer hmem (htransfer ▸ hrow)
  refunded := fun hrefunded transfer hout =>
    h.refunded hrefunded transfer (by simpa [Outstanding, htransfer] using hout)
  debited := fun hstate => htransfer.trans (h.debited (hdebited hstate))
  knows := trivial

/-! ## runs -/

theorem kept_step {action : OutboxAction} (h : Kept outbox)
    (hundisturbed : Undisturbed outbox action) : Kept (outboxStep outbox action).1 := by
  have hknows := h.knows
  unfold outboxStep
  split
  · exact kept_land h _ _
  · exact kept_advance h _
  · exact kept_goto h trivial
  · exact kept_takeUp h
  · next result hnext =>
    rw [hnext] at hknows
    cases result with
    | signed transfer => exact kept_goto h ⟨hknows.1, hknows.2, hundisturbed hnext⟩
    | failed => exact kept_goto h trivial
    | permanent => exact kept_goto h hknows.1
  · next transfer hnext =>
    rw [hnext] at hknows
    exact kept_persist h hknows
  · next arrives transfer hnext =>
    rw [hnext] at hknows
    cases arrives with
    | false => exact kept_goto h trivial
    | true => exact kept_broadcast h hknows
  · exact kept_goto h trivial
  · next level transfer hnext =>
    rw [hnext] at hknows
    exact kept_afterStatus h hknows level
  · exact kept_goto h trivial
  · next lag transfer hnext =>
    rw [hnext] at hknows
    exact kept_afterExpiry h hknows (hundisturbed transfer hnext)
  · next hnext =>
    rw [hnext] at hknows
    exact
      { sent := h.sent
        stale := h.stale
        refunded := fun _ => hknows
        debited := h.debited
        knows := trivial }
  · refine kept_close h ?_ ?_
    · unfold OutboxRow.markFailed
      split_ifs <;> rfl
    · unfold OutboxRow.markFailed
      split_ifs <;> simp
  · refine kept_close h ?_ ?_
    · unfold OutboxRow.markConfirmed
      split_ifs <;> rfl
    · unfold OutboxRow.markConfirmed
      split_ifs <;> simp
  · exact h

theorem kept_execute {actions : List OutboxAction} (h : Kept outbox)
    (hundisturbed : Along outboxStep Undisturbed outbox actions) :
    Kept (execute outboxStep outbox actions).1 :=
  (execute_safe (Q := fun _ => True)
    (fun _ _ hkept haction => ⟨kept_step hkept haction, fun _ _ => trivial⟩) h hundisturbed).1

/-! ## the condition is needed -/

/-- A transfer that has not been sent and may still land. -/
theorem exists_unsent (chain : Chain) :
    ∃ transfer, transfer ∉ chain.broadcast ∧ chain.height ≤ transfer.lastValidBlockHeight := by
  let height := chain.height + (chain.broadcast.map (·.lastValidBlockHeight)).sum + 1
  refine ⟨⟨"", height⟩, fun hmem => ?_, by simp only [height]; omega⟩
  have hle := List.le_sum_of_mem (List.mem_map_of_mem (f := (·.lastValidBlockHeight)) hmem)
  simp only [height] at hle
  omega

/-- The actions by which a signed transfer lands. -/
def landing (transfer : SignedTransfer) : List OutboxAction :=
  [.persist, .broadcast true, .land transfer true]

theorem execute_landing (outbox : Outbox) (hnext : outbox.next = .persist transfer)
    (hnone : outbox.chain.landed transfer = none)
    (hheight : outbox.chain.height ≤ transfer.lastValidBlockHeight) :
    (execute outboxStep outbox (landing transfer)).1.chain.landed =
        Function.update outbox.chain.landed transfer (some true) ∧
      (execute outboxStep outbox (landing transfer)).1.refunded = outbox.refunded := by
  simp [landing, outboxStep, hnext, Chain.send, Chain.land, hnone, hheight]

theorem along_landing (outbox : Outbox) (transfer : SignedTransfer) :
    Along outboxStep Undisturbed outbox (landing transfer) :=
  ⟨trivial, trivial, trivial, trivial⟩

/-- A transfer that may still land after the money was given back. -/
theorem unsafe_of_signed (hnext : outbox.next = .persist transfer)
    (hrefunded : outbox.refunded = true) (hunspent : ¬ Spent outbox.chain transfer) :
    ∃ more, Along outboxStep Undisturbed outbox more ∧
      ¬ PaysOnce (execute outboxStep outbox more).1 := by
  cases hlanded : outbox.chain.landed transfer with
  | some succeeded =>
      refine ⟨[], trivial, fun h => ?_⟩
      cases succeeded with
      | false => exact hunspent (.inl hlanded)
      | true => exact h.unpaid hrefunded transfer hlanded
  | none =>
      have hheight : outbox.chain.height ≤ transfer.lastValidBlockHeight := by
        by_contra hpassed
        exact hunspent (.inr ⟨hlanded, by omega⟩)
      obtain ⟨hlands, hcredit⟩ := execute_landing outbox hnext hlanded hheight
      refine ⟨landing transfer, along_landing _ _, fun h => ?_⟩
      refine h.unpaid (hcredit.trans hrefunded) transfer ?_
      rw [hlands, Function.update_self]

/-- A payment that the executor is about to make a second time. -/
theorem unsafe_of_paid (hnext : outbox.next = .build)
    (hpaid : outbox.chain.landed transfer = some true)
    (hsent : ∀ other, outbox.chain.landed other ≠ none → other ∈ outbox.chain.broadcast) :
    ∃ more, Along outboxStep Undisturbed outbox more ∧
      ¬ PaysOnce (execute outboxStep outbox more).1 := by
  cases hrefunded : outbox.refunded with
  | true => exact ⟨[], trivial, fun h => h.unpaid hrefunded transfer hpaid⟩
  | false =>
      obtain ⟨other, hunsent, hheight⟩ := exists_unsent outbox.chain
      have hnone : outbox.chain.landed other = none := by
        by_contra hlanded
        exact hunsent (hsent other hlanded)
      have hne : transfer ≠ other := by
        rintro rfl
        simp [hpaid] at hnone
      have hbuilt : outboxStep outbox (.build (.signed other)) =
          (outbox.goto (.persist other), []) := by
        simp [outboxStep, hnext, Outbox.built]
      have hlands := (execute_landing (outbox.goto (.persist other)) rfl hnone hheight).1
      refine ⟨.build (.signed other) :: landing other,
        ⟨fun _ hcredit => by simp [hrefunded] at hcredit, along_landing _ _⟩, fun h => hne ?_⟩
      rw [execute_cons, hbuilt] at h
      refine h.once transfer other ?_ ?_
      · rw [hlands, Function.update_of_ne hne]
        exact hpaid
      · rw [hlands, Function.update_self]

/-- After an action, no undisturbed continuation pays twice exactly when the action
was undisturbed itself. -/
theorem undisturbed_iff (h : Kept outbox) (action : OutboxAction) :
    Undisturbed outbox action ↔
      ∀ more, Along outboxStep Undisturbed (outboxStep outbox action).1 more →
        PaysOnce (execute outboxStep (outboxStep outbox action).1 more).1 := by
  constructor
  · exact fun hundisturbed more hmore =>
      paysOnce_of_kept (kept_execute (kept_step h hundisturbed) hmore)
  · intro hsafe
    have hno : ¬ ∃ more, Along outboxStep Undisturbed (outboxStep outbox action).1 more ∧
        ¬ PaysOnce (execute outboxStep (outboxStep outbox action).1 more).1 :=
      fun ⟨more, hmore, hunsafe⟩ => hunsafe (hsafe more hmore)
    cases action with
    | expiryLookup answer =>
        cases answer with
        | none => trivial
        | some lag =>
            intro transfer hnext hexceeded hpaid
            have hstep : (outboxStep outbox (.expiryLookup (some lag))).1 = outbox.goto .build := by
              simp [outboxStep, hnext, Outbox.afterExpiry, hexceeded]
            rw [hstep] at hno
            exact hno (unsafe_of_paid rfl hpaid h.sent)
    | build result =>
        cases result with
        | signed transfer =>
            intro hnext hrefunded
            by_contra hunspent
            have hstep : (outboxStep outbox (.build (.signed transfer))).1 =
                outbox.goto (.persist transfer) := by
              simp [outboxStep, hnext, Outbox.built]
            rw [hstep] at hno
            exact hno (unsafe_of_signed rfl hrefunded hunspent)
        | failed => trivial
        | permanent => trivial
    | _ => trivial

/-- A run pays at most once, and not at all once the money was given back, as long as
all its actions are undisturbed; after the first that is not, it may pay twice. -/
theorem withdrawal_pays_once (height : Nat) (actions : List OutboxAction)
    (h : Along outboxStep Undisturbed (requested height) actions) :
    PaysOnce (execute outboxStep (requested height) actions).1 ∧
      ∀ action, Undisturbed (execute outboxStep (requested height) actions).1 action ↔
        ∀ more, Along outboxStep Undisturbed
            (execute outboxStep (requested height) (actions ++ [action])).1 more →
          PaysOnce (execute outboxStep (requested height) (actions ++ [action] ++ more)).1 := by
  have hkept := kept_execute (kept_requested height) h
  refine ⟨paysOnce_of_kept hkept, fun action => ?_⟩
  simpa [execute_append] using undisturbed_iff hkept action

/-! ## a transfer that lands between the lookups -/

namespace Sample

def firstTransfer : SignedTransfer := ⟨"first", 150⟩

def secondTransfer : SignedTransfer := ⟨"second", 400⟩

/-- The first transfer is never sent, and signed anew once it has expired. -/
def resigned : List OutboxAction :=
  [.tick, .build (.signed firstTransfer), .persist, .crash, .advance 200,
    .tick, .statusLookup (some .processed), .expiryLookup (some 32),
    .build (.signed secondTransfer), .persist, .broadcast true, .land secondTransfer true,
    .tick, .statusLookup (some .finalized), .markConfirmed]

/-- The first transfer lands after its status was looked up, and expires before the
height is. -/
def disturbed : List OutboxAction :=
  [.tick, .build (.signed firstTransfer), .persist, .broadcast true,
    .tick, .statusLookup (some .processed), .land firstTransfer true, .advance 200,
    .expiryLookup (some 32),
    .build (.signed secondTransfer), .persist, .broadcast true, .land secondTransfer true]

/-- A crash after the credit for a transfer that could not be built. -/
def creditedFirst : List OutboxAction :=
  [.tick, .build .permanent, .refund, .crash,
    .tick, .build (.signed firstTransfer), .persist, .broadcast true, .land firstTransfer true]

theorem undisturbed_resigned : Along outboxStep Undisturbed (requested 100) resigned := by
  refine ⟨trivial, fun _ hrefunded => (by cases hrefunded), trivial, trivial, trivial, trivial,
    trivial, fun transfer hnext _ => ?_, fun _ hrefunded => (by cases hrefunded), trivial, trivial,
    trivial, trivial, trivial, trivial, trivial⟩
  cases hnext
  decide

end Sample

theorem resigned_pays_once :
    PaysOnce (execute outboxStep (requested 100) Sample.resigned).1 :=
  (withdrawal_pays_once 100 Sample.resigned Sample.undisturbed_resigned).1

theorem disturbed_pays_twice :
    ((execute outboxStep (requested 100) Sample.disturbed).1.chain.landed
        Sample.firstTransfer = some true ∧
      (execute outboxStep (requested 100) Sample.disturbed).1.chain.landed
        Sample.secondTransfer = some true) ∧
    ((execute outboxStep (requested 100) Sample.creditedFirst).1.refunded = true ∧
      (execute outboxStep (requested 100) Sample.creditedFirst).1.chain.landed
        Sample.firstTransfer = some true) ∧
    ¬ ∀ height actions, PaysOnce (execute outboxStep (requested height) actions).1 := by
  refine ⟨by decide, by decide, fun h => ?_⟩
  exact absurd ((h 100 Sample.disturbed).once Sample.firstTransfer Sample.secondTransfer
    (by decide) (by decide)) (by decide)

end CalledIt.Wager
