import CalledIt.Escrow.Payout

/-!
# CalledIt.Escrow.Solvency

The vault covers what the market owes.

`Funded` is the cash equation of a market: what its vault holds, and what was
paid in, paid out and sent from outside.  With the payout invariant it makes
every outstanding claim payable, so that no claim can run into a missing
balance or a failed addition.
-/

namespace CalledIt.Escrow

open Lib

/-! ## the cash equation -/

/-- What an outside transfer adds. -/
def Entry.gift : Entry → Nat
  | .received amount => amount.toNat
  | _ => 0

def gifts (trace : List Entry) : Nat := (trace.map Entry.gift).sum

@[simp] theorem gifts_snoc (trace : List Entry) (entry : Entry) :
    gifts (trace ++ [entry]) = gifts trace + entry.gift := by
  simp [gifts]

/-- While the vault exists it holds its rent reserve and everything that came
in and did not go out. -/
structure Funded (rt : Runtime) (opening : Ledger) (trace : List Entry) (L : Ledger) : Prop where
  reserved : L.market.state ≠ .closed → Reserved rt L.market.asset L.vault
  funds : L.market.state ≠ .closed →
    L.principal rt + claims trace = opening.principal rt + deposits trace + gifts trace

variable {rt : Runtime} {opening L L' : Ledger} {trace : List Entry} {entry : Entry}

theorem Funded.snoc (h : Funded rt opening trace L) (hopen : L.market.state ≠ .closed)
    (hasset : L'.market.asset = L.market.asset) (hreserved : Reserved rt L.market.asset L'.vault)
    (hprincipal : vaultPrincipal rt L.market.asset L'.vault + entry.claim =
      L.principal rt + entry.deposit + entry.gift) : Funded rt opening (trace ++ [entry]) L' := by
  refine ⟨fun _ => ?_, fun _ => ?_⟩
  · rw [hasset]
    exact hreserved
  · have hfunds := h.funds hopen
    rw [claims_snoc, deposits_snoc, gifts_snoc]
    rw [← hasset] at hprincipal
    change vaultPrincipal rt L'.market.asset L'.vault + _ = _
    omega

/-- A step that leaves the vault alone and moves no money. -/
theorem Funded.quiet (h : Funded rt opening trace L) (hopen : L.market.state ≠ .closed)
    (hasset : L'.market.asset = L.market.asset) (hvault : L'.vault = L.vault)
    (hdeposit : entry.deposit = 0) (hclaim : entry.claim = 0) (hgift : entry.gift = 0) :
    Funded rt opening (trace ++ [entry]) L' := by
  refine h.snoc hopen hasset ?_ ?_
  · rw [hvault]
    exact h.reserved hopen
  · rw [hvault, hdeposit, hclaim, hgift]
    rfl

theorem MarketState.Live.ne_closed {state : MarketState} (h : state.Live) : state ≠ .closed := by
  rintro rfl
  exact absurd h (by decide)

theorem MarketState.Terminal.ne_closed {state : MarketState} (h : state.Terminal) :
    state ≠ .closed := by
  rintro rfl
  rcases h with h | h <;> contradiction

theorem Effect.funded (h : Effect rt L entry L') (hf : Funded rt opening trace L) :
    Funded rt opening (trace ++ [entry]) L' := by
  cases h with
  | froze opens =>
      have hopen : L.market.state ≠ .closed := MarketState.Live.ne_closed (.inl opens)
      exact hf.quiet hopen rfl rfl rfl rfl rfl
  | unfroze frozen =>
      have hopen : L.market.state ≠ .closed := MarketState.Live.ne_closed (.inr frozen)
      exact hf.quiet hopen rfl rfl rfl rfl rfl
  | placed h =>
      have hopen : L.market.state ≠ .closed := MarketState.Live.ne_closed (.inl h.opens)
      exact hf.snoc hopen h.booked.terms.asset h.reserved h.principal
  | activated h => exact hf.quiet h.live.ne_closed h.booked.terms.asset rfl rfl rfl rfl
  | invalidated h => exact hf.quiet h.live.ne_closed h.booked.terms.asset rfl rfl rfl rfl
  | began begins emits =>
      obtain ⟨_, hlive, pots, _, rfl⟩ := beginSettlement_ok_iff.mp begins
      obtain ⟨e, rfl⟩ | ⟨e, rfl⟩ := emits
      · exact hf.quiet hlive.ne_closed rfl rfl rfl rfl rfl
      · exact hf.quiet hlive.ne_closed rfl rfl rfl rfl rfl
  | entitled position h emits =>
      have hopen : L.market.state ≠ .closed := by simp [h.settling]
      have hasset := congrArg Market.asset h.market
      obtain ⟨e, rfl⟩ | ⟨e, rfl⟩ := emits
      · exact hf.quiet hopen hasset rfl rfl rfl rfl
      · exact hf.quiet hopen hasset rfl rfl rfl rfl
  | voided voids =>
      obtain ⟨hlive, rfl⟩ := transitionToVoid_ok_iff.mp voids
      exact hf.quiet hlive.ne_closed rfl rfl rfl rfl rfl
  | claimed h =>
      have hopen := (terminal_of_claimAmount h.amount).ne_closed
      have hasset := congrArg Market.asset h.market
      exact hf.snoc hopen hasset h.reserved h.principal
  | lotsClosed h => exact hf.quiet h.terminal.ne_closed rfl rfl rfl rfl rfl
  | positionClosed terminal => exact hf.quiet terminal.ne_closed rfl rfl rfl rfl rfl
  | closed =>
      refine ⟨fun hopen => ?_, fun hopen => ?_⟩
      · exact absurd rfl hopen
      · exact absurd rfl hopen
  | received exists_ adds =>
      obtain ⟨hprincipal, hreserved⟩ := adds (hf.reserved exists_)
      exact hf.snoc exists_ rfl hreserved hprincipal

theorem funded_of_life (h : Life rt opening trace L) : Funded rt opening trace L := by
  have hfresh := fresh_of_opened h.opened
  have hstart : Funded rt opening [] opening := ⟨fun _ => hfresh.reserved, fun _ => rfl⟩
  exact h.run.invariant_trace (fun hs hi => (effect_of_step hs).funded hi) hstart

/-- What the market owes lies in its vault. -/
theorem owed_le_principal (h : Life rt opening trace L) : L.owed ≤ L.principal rt := by
  by_cases hterminal : L.market.state.Terminal
  · have howed := ((payoutInv_of_life h).terminal hterminal).owed
    have hfunds := (funded_of_life h).funds hterminal.ne_closed
    omega
  · -- before its terminal transition and after its close a market owes nothing yet
    have hzero : L.owed = 0 := by
      apply Store.total_eq_zero
      intro o p _
      unfold owedWeight Market.dueOf
      unfold MarketState.Terminal at hterminal
      cases hs : L.market.state <;> simp_all
    rw [hzero]
    exact Nat.zero_le _

/-- Before its terminal transition a market holds what its positions paid. -/
theorem paidTotal_of_life (h : Life rt opening trace L) (hnot : ¬ L.market.state.Done) :
    L.paidTotal = deposits trace := by
  have hpay := payoutInv_of_life h
  by_cases hlive : L.market.state.Live
  · exact (hpay.live hlive).1.paid
  · have hsettling : L.market.state = .settling := by
      have hstarted := state_ne_opening_of_life h
      unfold MarketState.Done at hnot
      unfold MarketState.Live at hlive
      cases hs : L.market.state <;> simp_all
    exact (hpay.settling hsettling).1.paid

/-! ## claims succeed -/

/-- The errors of a vault that cannot pay or of books that do not add up. -/
def ProgramError.Insolvent (e : ProgramError) : Prop :=
  e = EscrowError.vaultUnderfunded ∨ e = EscrowError.arithmeticOverflow ∨
    e = EscrowError.accountingInvariant

instance (e : ProgramError) : Decidable e.Insolvent :=
  inferInstanceAs (Decidable (_ ∨ _ ∨ _))

/-- The lamports of a cluster fit a `u64`, so those of two accounts do. -/
def Capitalized (vault wallet : AccountInfo) : Prop :=
  vault.lamports.toNat + wallet.lamports.toNat < 2 ^ 64

variable {m : Market} {key : Pubkey} {vault : AccountInfo} {accounts : ClaimPositionAccounts}
  {amount : UInt64}

theorem transferSolClaim_avoids (hfunds : amount.toNat ≤ vaultPrincipal rt .sol vault)
    (hcap : Capitalized vault accounts.owner) :
    Avoids ProgramError.Insolvent (transferSolClaim rt m key vault accounts amount) := by
  unfold transferSolClaim
  iterate 7 refine (Avoids.require fun _ => by decide).bind fun _ _ => ?_
  refine (Avoids.okOr fun _ => by decide).bind fun principal hprincipal => ?_
  rw [okOr_ok_iff, checkedSub_eq_some] at hprincipal
  have henough : amount.toNat ≤ principal.toNat := by
    change amount.toNat ≤ vault.lamports.toNat - rt.rentReserve.toNat at hfunds
    omega
  refine (Avoids.require fun hpoor => ?_).bind fun _ _ => ?_
  · exact absurd (UInt64.le_iff_toNat_le.mpr henough) hpoor
  · unfold Capitalized at hcap
    refine Avoids.bind ?_ fun _ _ => Avoids.ok _
    unfold moveLamports
    refine (Avoids.okOr fun hnone => ?_).bind fun _ _ => (Avoids.okOr fun hnone => ?_).bind
      fun _ _ => Avoids.ok _
    · rw [checkedAdd_eq_none] at hnone
      omega
    · rw [checkedSub_eq_none] at hnone
      omega

theorem createIdempotent_avoids {account : AccountInfo} {owner mintKey : Pubkey} :
    Avoids ProgramError.Insolvent (createIdempotent account owner mintKey) := by
  unfold createIdempotent
  split
  · exact (Avoids.okOr fun _ => by decide).bind fun _ _ =>
      (Avoids.require fun _ => by decide).bind fun _ _ => Avoids.ok _
  · exact (Avoids.require fun _ => by decide).bind fun _ _ => Avoids.ok _

theorem transferChecked_avoids {source destination : TokenAccount} {mintKey authority : Pubkey}
    {mint : Mint} {decimals : UInt8} :
    Avoids ProgramError.Insolvent
      (transferChecked source destination mintKey mint authority amount decimals) := by
  unfold transferChecked
  refine (Avoids.require fun _ => by decide).bind fun _ _ => ?_
  refine (Avoids.okOr fun _ => by decide).bind fun _ _ => ?_
  iterate 2 refine (Avoids.require fun _ => by decide).bind fun _ _ => ?_
  exact (Avoids.okOr fun _ => by decide).bind fun _ _ => Avoids.ok _

theorem validateClaimTokenAccounts_avoids :
    Avoids ProgramError.Insolvent (validateClaimTokenAccounts rt m key vault accounts) := by
  unfold validateClaimTokenAccounts validateUsdcMint
  iterate 2 refine (Avoids.require fun _ => by decide).bind fun _ _ => ?_
  refine (Avoids.okOr fun _ => by decide).bind fun _ _ => ?_
  refine ((Avoids.require fun _ => by decide).bind fun _ _ =>
    Avoids.require fun _ => by decide).bind fun _ _ => ?_
  iterate 2 refine (Avoids.require fun _ => by decide).bind fun _ _ => ?_
  refine (Avoids.okOr fun _ => by decide).bind fun _ _ => ?_
  iterate 5 refine (Avoids.require fun _ => by decide).bind fun _ _ => ?_
  exact Avoids.ok _

theorem transferUsdcClaim_avoids (hfunds : amount.toNat ≤ vaultPrincipal rt .usdc vault) :
    Avoids ProgramError.Insolvent (transferUsdcClaim rt m key vault accounts amount) := by
  unfold transferUsdcClaim
  refine validateClaimTokenAccounts_avoids.bind fun mint _ => ?_
  refine createIdempotent_avoids.bind fun _ _ => ?_
  refine (Avoids.okOr fun _ => by decide).bind fun _ _ => ?_
  iterate 3 refine (Avoids.require fun _ => by decide).bind fun _ _ => ?_
  refine (Avoids.okOr fun _ => by decide).bind fun source hsource => ?_
  have hdata := unpackToken_eq_some (okOr_ok_iff.mp hsource)
  simp only [vaultPrincipal, hdata] at hfunds
  refine (Avoids.require fun hpoor => ?_).bind fun _ _ => ?_
  · exact absurd (UInt64.le_iff_toNat_le.mpr hfunds) hpoor
  · exact transferChecked_avoids.bind fun _ _ => Avoids.ok _

theorem transferClaim_avoids (hfunds : amount.toNat ≤ vaultPrincipal rt m.asset vault)
    (hcap : Capitalized vault accounts.owner) :
    Avoids ProgramError.Insolvent (transferClaim rt m key vault accounts amount) := by
  unfold transferClaim
  cases hasset : m.asset with
  | sol =>
      rw [hasset] at hfunds
      exact transferSolClaim_avoids hfunds hcap
  | usdc =>
      rw [hasset] at hfunds
      exact transferUsdcClaim_avoids hfunds

theorem vaultPrincipal_lt (rt : Runtime) (asset : Asset) (vault : AccountInfo) :
    vaultPrincipal rt asset vault < 2 ^ 64 := by
  unfold vaultPrincipal
  split
  · have hlt := vault.lamports.toNat_lt
    omega
  · split
    · exact UInt64.toNat_lt _
    · decide

variable {p : UserPosition}

theorem dueOf_le_owed {o : Pubkey} (hp : L.positions.lookup o = some p)
    (hunclaimed : p.claimed = false) :
    L.market.dueOf p ≤ L.owed := by
  have hle := Store.le_total (owedWeight L.market) hp
  have hweight : owedWeight L.market o p = L.market.dueOf p := by simp [owedWeight, hunclaimed]
  rw [hweight] at hle
  exact hle

/-- Preparing a claim on a terminal market succeeds, for exactly what is due. -/
theorem exists_prepareClaim (h : Life rt opening trace L) (hterminal : L.market.state.Terminal)
    {o : Pubkey} (hp : L.positions.lookup o = some p) (hunclaimed : p.claimed = false) :
    ∃ m' p' amount, prepareClaim L.market p = .ok (m', p', amount) ∧
      amount.toNat = L.market.dueOf p ∧ m'.asset = L.market.asset := by
  have hpaying := (payoutInv_of_life h).terminal hterminal
  have hbalanced : p.Balanced := (ledgerInv_of_life h).wellFormed.balanced hp
  -- what is due fits a `u64` because it lies in the vault
  have hfits : L.market.dueOf p < 2 ^ 64 := by
    have hdue := dueOf_le_owed hp hunclaimed
    have howed := owed_le_principal h
    have hlt : L.principal rt < 2 ^ 64 := vaultPrincipal_lt rt _ _
    omega
  have hamount : (UInt64.ofNat (L.market.dueOf p)).toNat = L.market.dueOf p := by
    rw [UInt64.toNat_ofNat']
    exact Nat.mod_eq_of_lt hfits
  have hclaim := (hpaying.claimAmount_iff hterminal hp).mpr hamount
  have hcounter : L.market.claimedPositionCount.toNat < L.market.positionCount.toNat := by
    have hle := Store.le_total unclaimedWeight hp
    have hone : unclaimedWeight o p = 1 := by simp [unclaimedWeight, hunclaimed]
    have hcount := hpaying.claims
    unfold Ledger.unclaimed at hcount
    omega
  have hnext : checkedAdd L.market.claimedPositionCount 1 =
      some (L.market.claimedPositionCount + 1) := by
    have hlt := L.market.positionCount.toNat_lt
    rw [checkedAdd_eq_some, UInt64.toNat_add]
    change _ = (_ + 1) % _
    change _ + 1 = _
    omega
  have hopen : ¬ p.claimed = true := by simp [hunclaimed]
  have hprincipal : validatePositionPrincipal p = .ok () :=
    validatePositionPrincipal_ok_iff.mpr hbalanced
  have hroom : L.market.claimedPositionCount < L.market.positionCount :=
    UInt64.lt_iff_toNat_lt.mpr hcounter
  unfold prepareClaim
  simp only [require_pos hopen, hprincipal, hclaim, require_pos hroom, hnext, okOr, ok_bind]
  exact ⟨_, _, _, rfl, hamount, rfl⟩

/-- A claim on an unclaimed position never fails for lack of funds or for books
that do not add up. -/
theorem processClaim_avoids (h : Life rt opening trace L) (hterminal : L.market.state.Terminal)
    (hp : L.positions.lookup accounts.owner.key = some p) (hunclaimed : p.claimed = false)
    (hcap : Capitalized L.vault accounts.owner) :
    Avoids ProgramError.Insolvent (processClaim rt L accounts) := by
  obtain ⟨m', p', amount, hprepare, hamount, hasset⟩ :=
    exists_prepareClaim h hterminal hp hunclaimed
  have hfunds : amount.toNat ≤ vaultPrincipal rt m'.asset L.vault := by
    have hdue := dueOf_le_owed hp hunclaimed
    have howed := owed_le_principal h
    unfold Ledger.principal at howed
    rw [hasset]
    omega
  unfold processClaim
  refine Avoids.bind ?_ fun m hm => ?_
  · unfold Ledger.loadMarket
    exact (Avoids.require fun _ => by decide).bind fun _ _ => Avoids.ok _
  · obtain ⟨_, rfl⟩ := loadMarket_ok hm
    refine (Avoids.okOr fun _ => by decide).bind fun q hq => ?_
    obtain rfl := Option.some.inj (hp.symm.trans (okOr_ok_iff.mp hq))
    iterate 3 refine (Avoids.require fun _ => by decide).bind fun _ _ => ?_
    rw [hprepare, ok_bind]
    exact (transferClaim_avoids hfunds hcap).bind fun _ _ => Avoids.ok _

/-- **The vault is solvent.**  In every state of a market's life its principal
covers everything owed; an unclaimed position of a terminal market can be
claimed for exactly what is due to it, and the claim cannot fail for lack of
funds; and no more is ever paid out than was paid in. -/
theorem vault_solvent {rt : Runtime} {opening L : Ledger} {trace : List Entry}
    (h : Life rt opening trace L) :
    L.owed ≤ L.principal rt ∧
    (¬ L.market.state.Done → L.paidTotal ≤ L.principal rt) ∧
    (∀ o p, L.positions.lookup o = some p → p.claimed = false →
      (L.market.state = .settled ∧ p.settlementProcessed ∨ L.market.state = .voided) →
      (∃ m' p' amount, prepareClaim L.market p = .ok (m', p', amount) ∧
        claimAmount L.market p = .ok amount ∧ amount.toNat = L.market.dueOf p) ∧
      ∀ (clock : Clock) (payer : Pubkey) (accounts : ClaimPositionAccounts),
        accounts.owner.key = o → Capitalized L.vault accounts.owner →
        Avoids ProgramError.Insolvent (execute rt clock L (.claimPosition accounts)) ∧
        Avoids ProgramError.Insolvent (execute rt clock L (.claimPositionFor payer accounts))) ∧
    claims trace ≤ deposits trace := by
  refine ⟨owed_le_principal h, ?_, ?_, (payoutInv_of_life h).bounded⟩
  · intro hnot
    have hopen : L.market.state ≠ .closed := fun hs => hnot (.inr (.inr hs))
    have hfunds := (funded_of_life h).funds hopen
    have hclaims := (payoutInv_of_life h).unpaid hnot
    have hpaid := paidTotal_of_life h hnot
    omega
  · intro o p hp hunclaimed hstate
    have hterminal : L.market.state.Terminal := hstate.imp_left And.left
    obtain ⟨m', p', amount, hprepare, hamount, _⟩ := exists_prepareClaim h hterminal hp hunclaimed
    have hclaim := (prepareClaim_ok hprepare).2.2.1
    refine ⟨⟨m', p', amount, hprepare, hclaim, hamount⟩, ?_⟩
    intro clock payer accounts hkey hcap
    rw [← hkey] at hp
    have havoids := processClaim_avoids h hterminal hp hunclaimed hcap
    exact ⟨havoids, havoids⟩

/-- The settled sample holds what it owes, and its backer's claim is covered. -/
theorem vault_solvent_sample :
    ∃ opening trace L p, Life Sample.runtime opening trace L ∧ L.market.state = .settled ∧
      L.positions.lookup Sample.backer = some p ∧ p.claimed = false ∧
      L.owed ≤ L.principal Sample.runtime ∧ claims trace ≤ deposits trace ∧
      Avoids ProgramError.Insolvent (execute Sample.runtime (Sample.clock 10200) L
        (.claimPosition (Sample.claimAccounts Sample.backer))) := by
  obtain ⟨opening, trace, L, hlife, hstate, hposition, hcap⟩ := Sample.exists_life
    (P := fun _ L => L.market.state = .settled ∧
      (L.positions.lookup Sample.backer).any (fun p => !p.claimed && p.settlementProcessed) ∧
      L.vault.lamports.toNat + 1000000 < 2 ^ 64) 8 (by decide +kernel)
  obtain ⟨p, hlookup, hfacts⟩ := (Option.any_eq_true _ _).mp hposition
  rw [Bool.and_eq_true, Bool.not_eq_true'] at hfacts
  obtain ⟨howed, _, hclaim, hbounded⟩ := vault_solvent hlife
  have havoids := (hclaim Sample.backer p hlookup hfacts.1 (.inl ⟨hstate, hfacts.2⟩)).2
    (Sample.clock 10200) Sample.relayer (Sample.claimAccounts Sample.backer) rfl hcap
  exact ⟨opening, trace, L, p, hlife, hstate, hlookup, hfacts.1, howed, hbounded, havoids.1⟩

/-! ## leaving -/

variable {clock : Clock}

theorem execute_timeoutVoid (rt : Runtime) (hlive : L.market.state.Live)
    (hdeadline : L.market.resolutionDeadline ≤ clock.unixTimestamp) :
    ∃ voided event, transitionToVoid L.market zeroHash = .ok voided ∧
      execute rt clock L .timeoutVoid = .ok ({ L with market := voided }, event) := by
  have hload : L.loadMarket = .ok L.market := by
    rw [Ledger.loadMarket, require_pos hlive.ne_closed]
    rfl
  have htimeout : validateTimeoutDeadline clock.unixTimestamp L.market.resolutionDeadline =
      .ok () := require_pos hdeadline _
  obtain ⟨voided, hvoid⟩ : ∃ voided, transitionToVoid L.market zeroHash = .ok voided :=
    ⟨_, transitionToVoid_ok_iff.mpr ⟨hlive, rfl⟩⟩
  simp only [execute, timeoutVoid, hload, htimeout, hvoid, ok_bind]
  exact ⟨_, _, rfl, rfl⟩

/-- A voided market stays so until it is closed. -/
theorem voided_of_run {later : List Entry} (h : Run (Step rt) L later L')
    (hvoided : L.market.state = .voided) :
    L'.market.state = .voided ∨ L'.market.state = .closed := by
  refine h.invariant (I := fun L => L.market.state = .voided ∨ L.market.state = .closed) ?_
    (.inl hvoided)
  intro s entry t hstep hgone
  have hnext := (effect_of_step hstep).next
  unfold MarketState.Next MarketState.Live MarketState.Terminal at hnext
  grind

/-- **Everyone can leave.**  From the deadline on one instruction voids a live market.  In
every run from there, until the market is closed, a position that has not claimed has paid what
it had paid before, its claim prepares exactly that, and does not fail for lack of funds. -/
theorem exit_after_deadline (h : Life rt opening trace L) (hlive : L.market.state.Live)
    (hdeadline : L.market.resolutionDeadline ≤ clock.unixTimestamp) :
    ∃ voided event, execute rt clock L .timeoutVoid = .ok (voided, event) ∧
      ∀ later L', Run (Step rt) voided later L' → L'.market.state ≠ .closed →
        ∀ o p, L'.positions.lookup o = some p → p.claimed = false →
          (∃ p₀, L.positions.lookup o = some p₀ ∧ p.totalPaidAmount = p₀.totalPaidAmount) ∧
          (∃ m' p', prepareClaim L'.market p = .ok (m', p', p.totalPaidAmount)) ∧
          ∀ clock accounts, accounts.owner.key = o → Capitalized L'.vault accounts.owner →
            Avoids ProgramError.Insolvent (execute rt clock L' (.claimPosition accounts)) := by
  obtain ⟨voided, event, hvoid, hexecute⟩ := execute_timeoutVoid rt hlive hdeadline
  refine ⟨_, event, hexecute, fun later L' hrun hopen o p hp hunclaimed => ?_⟩
  have hvoided : voided.state = .voided := by rw [(transitionToVoid_ok_iff.mp hvoid).2]
  have hstate := (voided_of_run hrun hvoided).resolve_right hopen
  have hlife : Life rt opening _ L' := ⟨h.opened, (h.run.snoc (.call hexecute)).append hrun⟩
  obtain ⟨p₀, hp₀, -, hpaid, -⟩ :=
    (keeps_of_run hrun (MarketState.Terminal.not_live (.inr hvoided))).positions hp
  obtain ⟨m', p', amount, hprepare, hamount, -⟩ :=
    exists_prepareClaim hlife (.inr hstate) hp hunclaimed
  rw [Market.dueOf, hstate] at hamount
  obtain rfl := UInt64.toNat_inj.mp hamount
  refine ⟨⟨p₀, hp₀, hpaid⟩, ⟨m', p', hprepare⟩, fun clock accounts hkey hcap => ?_⟩
  rw [← hkey] at hp
  exact processClaim_avoids hlife (.inr hstate) hp hunclaimed hcap

/-- The frozen sample is voided two hours after its deadline. -/
theorem exit_after_deadline_sample :
    ∃ opening trace L, Life Sample.runtime opening trace L ∧ L.market.state = .frozen ∧
      ∃ voided event,
        execute Sample.runtime (Sample.clock 27200) L .timeoutVoid = .ok (voided, event) := by
  obtain ⟨opening, trace, L, hlife, hstate, hdeadline⟩ := Sample.exists_life
    (P := fun _ L => L.market.state = .frozen ∧
      L.market.resolutionDeadline ≤ (Sample.clock 27200).unixTimestamp) 5 (by decide +kernel)
  obtain ⟨voided, event, hexecute, -⟩ := exit_after_deadline hlife (.inr hstate) hdeadline
  exact ⟨opening, trace, L, hlife, hstate, voided, event, hexecute⟩

end CalledIt.Escrow
