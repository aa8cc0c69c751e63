import CalledIt.Wager.Transfers

/-!
# CalledIt.Wager.Deposited

No deposit is lost or credited twice.

`Sound` is what the tables hold between any two calls of any ticks: a key of a transfer
has at most its own credit, and everything up to a cursor has been handled (`Through`).
A scan has a stretch of the history without gaps above the cursor it read, however the
history grows (`Scanned`); after a signature's last transfer all below it is handled, so
the cursor may move there (`flatMap_split`).
-/

namespace CalledIt.Wager

open Lib

variable {x : IncomingTransfer} {α β : Type}

namespace TreasuryChain

variable (chain : TreasuryChain)

def stream (asset : WagerAsset) : String := depositCursorStream chain.addresses.treasury asset

/-! ## what holds between two calls -/

/-- The transfer is stored, and was handled to its end. -/
def Handled (s : DepositTables) (x : IncomingTransfer) : Prop :=
  (∃ row ∈ s.deposits, row.transfer = x) ∧ ∃ user, (x, user) ∈ s.processed

/-- All transfers of a signature are handled. -/
def Done (s : DepositTables) (asset : WagerAsset) (sig : String) : Prop :=
  ∃ xs, chain.extract asset sig = some xs ∧ ∀ x ∈ xs, Handled s x

/-- The history is handled up to the signature. -/
def Through (s : DepositTables) (asset : WagerAsset) (sig : String) : Prop :=
  ∃ older newer, s.history asset = older ++ sig :: newer ∧
    ∀ sig' ∈ older ++ [sig], chain.Done s asset sig'

structure Sound (s : DepositTables) : Prop where
  signatures : ∀ asset, (s.history asset).Nodup
  keys : (s.ledger.map (·.key)).Nodup
  rows : ∀ r ∈ s.ledger, ∀ x, chain.IsTransfer x → r.key = x.ledgerKey →
    r = (depositCredit x r.userId).row
  deposits : ∀ row ∈ s.deposits, chain.IsTransfer row.transfer
  processed : ∀ x user, (x, some user) ∈ s.processed →
    chain.IsTransfer x ∧ minimumDeposit x.asset ≤ x.lamports ∧
      ∃ r ∈ s.ledger, r.key = x.ledgerKey
  cursor : ∀ asset sig, s.cursors (chain.stream asset) = some sig → chain.Through s asset sig

/-- What stays: history, stored deposits, entries and what was handled. -/
structure Later (s t : DepositTables) : Prop where
  history : ∀ asset, s.history asset <+: t.history asset
  deposits : ∀ row ∈ s.deposits, ∃ row' ∈ t.deposits, row'.transfer = row.transfer
  processed : ∀ e ∈ s.processed, e ∈ t.processed
  ledger : ∀ r ∈ s.ledger, r ∈ t.ledger

/-- What goes on beside the watchers: the chain grows, wallets are linked and unlinked,
and other entries are posted. -/
structure Elsewhere (s t : DepositTables) : Prop where
  history : ∀ asset, s.history asset <+: t.history asset
  signatures : ∀ asset, (t.history asset).Nodup
  ledger : ∃ rows, t.ledger = s.ledger ++ rows ∧
    ∀ r ∈ rows, ∀ x, chain.IsTransfer x → r.key ≠ x.ledgerKey
  keys : (t.ledger.map (·.key)).Nodup
  deposits : t.deposits.map (·.transfer) = s.deposits.map (·.transfer)
  cursors : ∀ asset, t.cursors (chain.stream asset) = s.cursors (chain.stream asset)
  processed : t.processed = s.processed

/-- Before the first tick. -/
structure Fresh (s : DepositTables) : Prop where
  signatures : ∀ asset, (s.history asset).Nodup
  keys : (s.ledger.map (·.key)).Nodup
  rows : ∀ r ∈ s.ledger, ∀ x, chain.IsTransfer x → r.key ≠ x.ledgerKey
  deposits : s.deposits = []
  processed : s.processed = []
  cursors : ∀ asset, s.cursors (chain.stream asset) = none

/-- The ticks of the two watchers. -/
def Watches (program : DepositProgram PUnit) : Prop :=
  ∃ options asset, program = watchDeposits chain.addresses options asset

variable {chain} {s t u : DepositTables} {asset : WagerAsset} {sig : String}

theorem Later.refl (s : DepositTables) : Later s s where
  history _ := List.prefix_rfl
  deposits row h := ⟨row, h, rfl⟩
  processed _ h := h
  ledger _ h := h

theorem Later.trans (h : Later s t) (h' : Later t u) : Later s u where
  history asset := (h.history asset).trans (h'.history asset)
  deposits row hrow := by
    obtain ⟨row', hrow', htransfer⟩ := h.deposits row hrow
    obtain ⟨row'', hrow'', htransfer'⟩ := h'.deposits row' hrow'
    exact ⟨row'', hrow'', htransfer'.trans htransfer⟩
  processed e he := h'.processed e (h.processed e he)
  ledger r hr := h'.ledger r (h.ledger r hr)

theorem relies : Program.Relies Later where
  refl := Later.refl
  trans := Later.trans

theorem Handled.later (h : Handled s x) (hlater : Later s t) :
    Handled t x := by
  obtain ⟨⟨row, hrow, rfl⟩, user, huser⟩ := h
  exact ⟨hlater.deposits row hrow, user, hlater.processed _ huser⟩

theorem Done.later (h : chain.Done s asset sig) (hlater : Later s t) : chain.Done t asset sig := by
  obtain ⟨xs, hxs, hall⟩ := h
  exact ⟨xs, hxs, fun x hx => (hall x hx).later hlater⟩

theorem Through.later (h : chain.Through s asset sig) (hlater : Later s t) :
    chain.Through t asset sig := by
  obtain ⟨older, newer, hhistory, hall⟩ := h
  obtain ⟨more, hmore⟩ := hlater.history asset
  refine ⟨older, newer ++ more, ?_, fun sig' hsig' => (hall sig' hsig').later hlater⟩
  rw [← hmore, hhistory]
  simp

theorem Fresh.sound (h : chain.Fresh s) : chain.Sound s where
  signatures := h.signatures
  keys := h.keys
  rows r hr x hx hkey := absurd hkey (h.rows r hr x hx)
  deposits row hrow := by
    rw [h.deposits] at hrow
    cases hrow
  processed x user hmem := by
    rw [h.processed] at hmem
    cases hmem
  cursor asset sig hcursor := by
    rw [h.cursors] at hcursor
    cases hcursor

/-- A step that keeps the entries, deposits and bookkeeping keeps what rests on them. -/
theorem Sound.frame (h : chain.Sound s) (hlater : Later s t)
    (hsignatures : ∀ asset, (t.history asset).Nodup) (hledger : t.ledger = s.ledger)
    (hdeposits : ∀ row ∈ t.deposits, chain.IsTransfer row.transfer)
    (hprocessed : ∀ x user, (x, some user) ∈ t.processed → (x, some user) ∈ s.processed)
    (hcursor : ∀ asset sig, t.cursors (chain.stream asset) = some sig →
      s.cursors (chain.stream asset) = some sig ∨ chain.Through t asset sig) : chain.Sound t where
  signatures := hsignatures
  keys := hledger ▸ h.keys
  rows := hledger ▸ h.rows
  deposits := hdeposits
  processed x user hmem := by
    rw [hledger]
    exact h.processed x user (hprocessed x user hmem)
  cursor asset sig hsig :=
    (hcursor asset sig hsig).elim (fun hold => (h.cursor asset sig hold).later hlater) id

theorem Elsewhere.later (h : chain.Elsewhere s t) : Later s t where
  history := h.history
  deposits row hrow := by
    have hmem : row.transfer ∈ t.deposits.map (·.transfer) :=
      h.deposits ▸ List.mem_map_of_mem hrow
    exact List.mem_map.mp hmem
  processed e he := h.processed ▸ he
  ledger r hr := by
    obtain ⟨rows, hrows, -⟩ := h.ledger
    exact hrows ▸ List.mem_append_left _ hr

theorem Elsewhere.sound (h : chain.Elsewhere s t) (hs : chain.Sound s) : chain.Sound t where
  signatures := h.signatures
  keys := h.keys
  rows r hr x hx hkey := by
    obtain ⟨rows, hrows, hforeign⟩ := h.ledger
    rw [hrows] at hr
    rcases List.mem_append.mp hr with hr | hr
    · exact hs.rows r hr x hx hkey
    · exact absurd hkey (hforeign r hr x hx)
  deposits row hrow := by
    have hmem : row.transfer ∈ s.deposits.map (·.transfer) :=
      h.deposits ▸ List.mem_map_of_mem hrow
    obtain ⟨row', hrow', htransfer⟩ := List.mem_map.mp hmem
    exact htransfer ▸ hs.deposits row' hrow'
  processed x user hmem := by
    obtain ⟨htransfer, hminimum, r, hr, hkey⟩ := hs.processed x user (h.processed ▸ hmem)
    exact ⟨htransfer, hminimum, r, h.later.ledger r hr, hkey⟩
  cursor asset sig hsig := (hs.cursor asset sig (h.cursors asset ▸ hsig)).later h.later

/-! ## the writes of a tick -/

theorem assetName_inj : ∀ {asset asset' : WagerAsset}, assetName asset = assetName asset' →
    asset = asset'
  | .sol, .sol, _ => rfl
  | .sol, .usdc, h => absurd h (by decide)
  | .usdc, .sol, h => absurd h (by decide)
  | .usdc, .usdc, _ => rfl

theorem stream_inj {asset asset' : WagerAsset} (h : chain.stream asset = chain.stream asset') :
    asset = asset' := by
  have htext := congrArg String.toList h
  unfold stream depositCursorStream at htext
  rw [String.toList_append, String.toList_append, String.toList_append, String.toList_append,
    String.toList_append, String.toList_append] at htext
  have hname := List.append_cancel_right (List.append_cancel_right htext)
  exact assetName_inj (String.toList_inj.mp (List.append_cancel_left hname))

theorem mem_insertDeposit {rows : List DepositRow} {row : DepositRow}
    (h : row ∈ insertDeposit rows x) : row ∈ rows ∨ row.transfer = x := by
  unfold insertDeposit at h
  split at h
  · exact .inl h
  · rcases List.mem_append.mp h with h | h
    · exact .inl h
    · exact .inr (List.mem_singleton.mp h ▸ rfl)

theorem Sound.upsertDeposit (hs : chain.Sound s) (hx : chain.IsTransfer x) :
    chain.Sound { s with deposits := insertDeposit s.deposits x } ∧
      Later s { s with deposits := insertDeposit s.deposits x } ∧
      ∃ row ∈ insertDeposit s.deposits x, row.transfer = x := by
  have hkept : ∀ row ∈ s.deposits, row ∈ insertDeposit s.deposits x := fun row hrow => by
    unfold insertDeposit
    split
    · exact hrow
    · exact List.mem_append_left _ hrow
  have hlater : Later s { s with deposits := insertDeposit s.deposits x } :=
    { Later.refl s with deposits := fun row hrow => ⟨row, hkept row hrow, rfl⟩ }
  refine ⟨hs.frame hlater hs.signatures rfl (fun row hrow => ?_) (fun _ _ h => h)
    (fun _ _ h => .inl h), hlater, ?_⟩
  · rcases mem_insertDeposit hrow with hrow | rfl
    · exact hs.deposits row hrow
    · exact hx
  · by_cases hany : s.deposits.any fun row =>
        row.transfer.sig = x.sig ∧ row.transfer.ixIndex = x.ixIndex
    · -- the row that is there names the same instruction
      obtain ⟨row, hrow, hsame⟩ := List.any_eq_true.mp hany
      obtain ⟨hsig, hindex⟩ := of_decide_eq_true hsame
      exact ⟨row, hkept row hrow, (hs.deposits row hrow).unique hx hsig hindex⟩
    · refine ⟨{ transfer := x, userId := none }, ?_, rfl⟩
      rw [insertDeposit, if_neg hany]
      exact List.mem_append_right _ List.mem_cons_self

theorem Sound.markDepositCredited (hs : chain.Sound s) (sig : String) (ixIndex userId : Nat) :
    chain.Sound { s with deposits := markCredited s.deposits sig ixIndex userId } ∧
      Later s { s with deposits := markCredited s.deposits sig ixIndex userId } := by
  have hsame : ∀ row : DepositRow, (if row.transfer.sig = sig ∧ row.transfer.ixIndex = ixIndex ∧
      row.userId = none then { row with userId := some userId } else row).transfer =
        row.transfer := fun row => by split <;> rfl
  have hlater : Later s { s with deposits := markCredited s.deposits sig ixIndex userId } :=
    { Later.refl s with
      deposits := fun row hrow => ⟨_, List.mem_map_of_mem hrow, hsame row⟩ }
  refine ⟨hs.frame hlater hs.signatures rfl (fun row hrow => ?_) (fun _ _ h => h)
    (fun _ _ h => .inl h), hlater⟩
  obtain ⟨old, hold, rfl⟩ := List.mem_map.mp hrow
  rw [hsame]
  exact hs.deposits old hold

theorem Sound.setCursor (hs : chain.Sound s) (hsig : chain.Through s asset sig) :
    chain.Sound { s with
      cursors := Function.update s.cursors (chain.stream asset) (some sig) } := by
  refine hs.frame ⟨fun _ => List.prefix_rfl, fun row h => ⟨row, h, rfl⟩, fun _ h => h,
    fun _ h => h⟩ hs.signatures rfl hs.deposits (fun _ _ h => h) fun asset' sig' hcursor => ?_
  change Function.update s.cursors (chain.stream asset) (some sig) (chain.stream asset') =
    some sig' at hcursor
  by_cases hstream : chain.stream asset' = chain.stream asset
  · obtain rfl := stream_inj hstream
    rw [Function.update_self] at hcursor
    exact .inr (Option.some.inj hcursor ▸ hsig)
  · rw [Function.update_of_ne hstream] at hcursor
    exact .inl hcursor

/-- The credit of a transfer is posted, or was. -/
theorem Sound.postWagerLedger {userId : Nat} {tables : WagerTables} {inserted : Bool}
    (hs : chain.Sound s) (hx : chain.IsTransfer x)
    (h : Wager.postWagerLedger s.toWagerTables (depositCredit x userId) =
      some (tables, .posted inserted)) :
    chain.Sound { s with toWagerTables := tables } ∧
      Later s { s with toWagerTables := tables } ∧ ∃ r ∈ tables.ledger, r.key = x.ledgerKey := by
  unfold Wager.postWagerLedger at h
  split at h
  · cases h
  split at h
  · next hany =>
      obtain ⟨r, hr, hkey⟩ := List.any_eq_true.mp hany
      obtain ⟨rfl, -⟩ := Prod.mk.inj (Option.some.inj h)
      exact ⟨hs, Later.refl s, r, hr, of_decide_eq_true hkey⟩
  · next hnew =>
      obtain ⟨rfl, -⟩ := Prod.mk.inj (Option.some.inj h)
      have hkept : ∀ r ∈ s.ledger, r ∈ s.ledger ++ [(depositCredit x userId).row] := fun r hr =>
        List.mem_append_left _ hr
      refine ⟨?_, { Later.refl s with ledger := hkept }, _,
        List.mem_append_right _ List.mem_cons_self, rfl⟩
      exact
        { hs with
          keys := by
            rw [List.map_append]
            refine List.nodup_append.mpr ⟨hs.keys, List.nodup_singleton _, ?_⟩
            intro a ha b hb hab
            obtain ⟨row, hrow, rfl⟩ := List.mem_map.mp ha
            obtain rfl := List.mem_singleton.mp hb
            exact hnew (List.any_eq_true.mpr ⟨row, hrow, decide_eq_true hab⟩)
          rows := fun r hr y hy hkey => by
            rcases List.mem_append.mp hr with hr | hr
            · exact hs.rows r hr y hy hkey
            · obtain rfl := List.mem_singleton.mp hr
              obtain ⟨hsig, hindex⟩ := ledgerKey_inj hkey
              obtain rfl := hx.unique hy hsig hindex
              rfl
          processed := fun y user hmem => by
            obtain ⟨htransfer, hminimum, r, hr, hkey⟩ := hs.processed y user hmem
            exact ⟨htransfer, hminimum, r, hkept r hr, hkey⟩ }

theorem Sound.processedCall {user : Option Nat} (hs : chain.Sound s)
    (hx : ∀ userId, user = some userId → chain.IsTransfer x ∧
      minimumDeposit x.asset ≤ x.lamports ∧ ∃ r ∈ s.ledger, r.key = x.ledgerKey) :
    chain.Sound { s with processed := s.processed ++ [(x, user)] } ∧
      Later s { s with processed := s.processed ++ [(x, user)] } := by
  have hlater : Later s { s with processed := s.processed ++ [(x, user)] } :=
    { Later.refl s with processed := fun e he => List.mem_append_left _ he }
  refine ⟨{ hs with
    processed := fun y userId hmem => ?_
    cursor := fun asset sig h => (hs.cursor asset sig h).later hlater }, hlater⟩
  rcases List.mem_append.mp hmem with hmem | hmem
  · exact hs.processed y userId hmem
  · obtain ⟨rfl, hsome⟩ := Prod.mk.inj (List.mem_singleton.mp hmem)
    exact hx userId hsome.symm

/-! ## one transfer -/

open Program

/-- What a program returns, whatever goes on beside it. -/
abbrev Secured {α : Type} (chain : TreasuryChain) (Q : α → DepositTables → Prop)
    (p : DepositProgram α) (s : DepositTables) : Prop :=
  Guarantees (DepositCall.Answers chain) chain.Sound Later Q p s

theorem secured_bind {p : DepositProgram α} {f : α → DepositProgram β}
    {Q : α → DepositTables → Prop} {Q' : β → DepositTables → Prop} (hs : chain.Sound s)
    (h : chain.Secured Q p s)
    (hf : ∀ a t, Later s t → chain.Sound t → Q a t → chain.Secured Q' (f a) t) :
    chain.Secured Q' (p >>= f) s :=
  Guarantees.bind relies hs h hf

theorem secured_processed {user : Option Nat} (hstored : ∃ row ∈ s.deposits, row.transfer = x)
    (hx : ∀ userId, user = some userId → chain.IsTransfer x ∧
      minimumDeposit x.asset ≤ x.lamports ∧ ∃ r ∈ s.ledger, r.key = x.ledgerKey) :
    chain.Secured (fun _ t => Handled t x) (DepositProgram.processed x user) s := by
  rintro t hst ht - u rfl
  obtain ⟨hu, htu⟩ := ht.processedCall fun userId huser => by
    obtain ⟨htransfer, hminimum, r, hr, hkey⟩ := hx userId huser
    exact ⟨htransfer, hminimum, r, hst.ledger r hr, hkey⟩
  refine ⟨hu, htu, ?_, user, List.mem_append_right _ List.mem_cons_self⟩
  obtain ⟨row, hrow, rfl⟩ := hstored
  exact hst.deposits row hrow

theorem secured_processTransfer (hs : chain.Sound s) (hx : chain.IsTransfer x) :
    chain.Secured (fun _ t => Handled t x) (processTransfer x) s := by
  have hupsert : chain.Secured (fun _ t => ∃ row ∈ t.deposits, row.transfer = x)
      (DepositProgram.upsertDeposit x) s := by
    rintro t - ht - u ⟨-, -, rfl⟩
    exact ht.upsertDeposit hx
  refine secured_bind hs hupsert fun _ t _ ht hstored => ?_
  split
  · exact secured_processed hstored fun _ h => by cases h
  · next hminimum =>
      have hlink : chain.Secured (fun _ _ => True)
          (DepositProgram.getWalletLinkByPubkey x.sender) t := by
        rintro t - ht user u ⟨-, -, rfl⟩
        exact ⟨ht, Later.refl _, trivial⟩
      refine secured_bind ht hlink fun user u htu hu _ => ?_
      obtain ⟨row, hrow, hrowx⟩ := hstored
      obtain ⟨row', hrow', hrowx'⟩ := htu.deposits row hrow
      cases user with
      | none => exact secured_processed ⟨row', hrow', hrowx'.trans hrowx⟩ fun _ h => by cases h
      | some userId =>
          have hpost : chain.Secured (fun _ t => ∃ r ∈ t.ledger, r.key = x.ledgerKey)
              (DepositProgram.postWagerLedger (depositCredit x userId)) u := by
            rintro v - hv inserted w ⟨-, tables, hposted, rfl⟩
            exact hv.postWagerLedger hx hposted
          refine secured_bind hu hpost fun _ v huv hv hr => ?_
          have hmark : chain.Secured (fun _ _ => True)
              (DepositProgram.markDepositCredited x.sig x.ixIndex userId) v := by
            rintro w - hw - y rfl
            obtain ⟨hy, hwy⟩ := hw.markDepositCredited x.sig x.ixIndex userId
            exact ⟨hy, hwy, trivial⟩
          refine secured_bind hv hmark fun _ w hvw hw _ => ?_
          obtain ⟨row'', hrow'', hrowx''⟩ := (huv.trans hvw).deposits row' hrow'
          refine secured_processed ⟨row'', hrow'', hrowx''.trans (hrowx'.trans hrowx)⟩ ?_
          intro _ _
          obtain ⟨r, hr, hkey⟩ := hr
          exact ⟨hx, Nat.le_of_not_lt hminimum, r, hvw.ledger r hr, hkey⟩

/-! ## one scan -/

def infoOf (chain : TreasuryChain) (sig : String) : SignatureInfo :=
  { signature := sig, err := (chain.transaction sig).failed }

/-- A cursor was read, up to which all is done. -/
def Starts (chain : TreasuryChain) (asset : WagerAsset) (till : Option String)
    (s : DepositTables) : Prop :=
  ∃ old rest, s.history asset = old ++ rest ∧ UpTo id till old ∧
    ∀ sig ∈ old, chain.Done s asset sig

variable {till : Option String}

theorem Starts.later (h : chain.Starts asset till s) (hlater : Later s t) :
    chain.Starts asset till t := by
  obtain ⟨old, rest, hhistory, hold, hall⟩ := h
  obtain ⟨more, hmore⟩ := hlater.history asset
  refine ⟨old, rest ++ more, ?_, hold, fun sig hsig => (hall sig hsig).later hlater⟩
  rw [← hmore, hhistory, List.append_assoc]

theorem Sound.starts (h : chain.Sound s) (asset : WagerAsset) :
    chain.Starts asset (s.cursors (chain.stream asset)) s := by
  cases hcursor : s.cursors (chain.stream asset) with
  | none => exact ⟨[], s.history asset, rfl, rfl, fun _ h => absurd h List.not_mem_nil⟩
  | some sig =>
      obtain ⟨older, newer, hhistory, hall⟩ := h.cursor asset sig hcursor
      refine ⟨older ++ [sig], newer, ?_, ⟨older, sig, rfl, rfl⟩, hall⟩
      rw [hhistory, List.append_assoc, List.singleton_append]

/-- The signatures so far, and the oldest of them. -/
def Collecting (asset : WagerAsset) (till : Option String) (limit : Nat) (sigs : List String)
    (before : Option String) (s : DepositTables) : Prop :=
  (sigs = [] ∧ before = none) ∨
    (0 < limit ∧ Paged id till (s.history asset) sigs ∧
      ∃ newer oldest, sigs = newer ++ [oldest] ∧ before = some oldest)

/-- Signatures without a gap, down to the cursor. -/
def Collected (asset : WagerAsset) (till : Option String) (sigs : List String)
    (s : DepositTables) : Prop :=
  sigs = [] ∨ Complete id till (s.history asset) sigs

theorem Collected.later {sigs : List String} (h : Collected asset till sigs s)
    (hlater : Later s t) : Collected asset till sigs t :=
  h.imp_right fun hcomplete => hcomplete.grow (hlater.history asset)

/-- One more page. -/
theorem Collecting.page {limit : Nat} {sigs : List String} {before : Option String}
    (h : Collecting asset till limit sigs before s) (hs : chain.Sound s)
    (hstart : chain.Starts asset till s) :
    Paged id till (s.history asset)
        (sigs ++ pageBack id (s.history asset) before till limit) ∧
      ((pageBack id (s.history asset) before till limit).length < limit →
        Complete id till (s.history asset)
          (sigs ++ pageBack id (s.history asset) before till limit)) := by
  have hnodup : ((s.history asset).map id).Nodup := by
    rw [List.map_id]
    exact hs.signatures asset
  rcases h with ⟨rfl, rfl⟩ | ⟨-, hpaged, newer, oldest, rfl, rfl⟩
  · obtain ⟨old, rest, hhistory, hold, -⟩ := hstart
    rw [hhistory] at hnodup ⊢
    exact paged_first limit hold hnodup
  · exact hpaged.next limit hnodup

theorem gives_collectSignatureInfos {limit : Nat} (pages : Nat) (sigs : List String)
    {before : Option String} (hs : chain.Sound s) (hstart : chain.Starts asset till s)
    (h : Collecting asset till limit sigs before s) :
    chain.Secured (Gives fun infos t => ∃ sigs, infos = sigs.map chain.infoOf ∧
        Collected asset till sigs t)
      (collectSignatureInfos asset till limit pages (sigs.map chain.infoOf) before) s := by
  induction pages generalizing s sigs before with
  | zero => exact gives_failure
  | succ pages ih =>
      have hread : chain.Secured (fun infos t => ∃ page, infos = page.map chain.infoOf ∧
          page.length ≤ limit ∧ Paged id till (t.history asset) (sigs ++ page) ∧
          (page.length < limit → Complete id till (t.history asset) (sigs ++ page)))
          (DepositProgram.getSignaturesForAddress asset before till limit) s := by
        rintro t hst ht infos u ⟨rfl, rfl⟩
        have hnow : Collecting asset till limit sigs before u :=
          h.imp_right fun ⟨hlimit, hpaged, holdest⟩ =>
            ⟨hlimit, hpaged.grow (hst.history asset), holdest⟩
        exact ⟨ht, Later.refl _, _, rfl, length_pageBack_le _ _ _ _,
          hnow.page ht (hstart.later hst)⟩
      refine gives_bind relies hs (gives_lift hread relies hs) fun infos t hst ht hpage => ?_
      obtain ⟨page, rfl, hlength, hpaged, hcomplete⟩ := hpage
      rw [← List.map_append, List.length_map]
      split
      · next hshort => exact gives_pure ⟨_, rfl, .inr (hcomplete hshort)⟩
      · next hfull =>
          rcases List.eq_nil_or_concat page with rfl | ⟨init, oldest, rfl⟩
          · -- an empty page is full only where pages hold nothing
            refine gives_pure ⟨_, rfl, ?_⟩
            rcases h with ⟨rfl, -⟩ | ⟨hlimit, -⟩
            · exact .inl rfl
            · exact absurd hlimit (by simpa using hfull)
          · have hlast : ((init ++ [oldest]).map chain.infoOf).getLast? =
                some (chain.infoOf oldest) := by simp
            simp only [List.concat_eq_append, hlast] at hlength hpaged ⊢
            refine ih (sigs ++ (init ++ [oldest])) ht (hstart.later hst) (.inr ⟨?_, hpaged, sigs ++ init, oldest, ?_, rfl⟩)
            · have hpos : 0 < (init ++ [oldest]).length := by simp
              omega
            · rw [List.append_assoc]

/-! ## transactions in batches -/

theorem mapM_zipIdx {f : α × ℕ → Option β} {g : α → Option β} {xs : List α} {ys : List β} {k : ℕ}
    (h : ∀ (i : ℕ) x y, xs[i]? = some x → f (x, i + k) = some y → g x = some y)
    (hf : (xs.zipIdx k).mapM f = some ys) : xs.mapM g = some ys := by
  induction xs generalizing ys k with
  | nil => exact hf
  | cons x xs ih =>
      rw [List.zipIdx_cons, List.mapM_cons] at hf
      obtain ⟨first, hfirst, hf⟩ := Option.bind_eq_some_iff.mp hf
      obtain ⟨rest, hrest, hf⟩ := Option.bind_eq_some_iff.mp hf
      obtain rfl := Option.some.inj hf
      have hhead := h 0 x first rfl (by simpa using hfirst)
      have htail := ih (k := k + 1) (fun i x y hx hy => h (i + 1) x y hx (by
        rwa [Nat.add_right_comm, Nat.add_assoc])) hrest
      rw [List.mapM_cons, hhead, htail]
      rfl

theorem mapM_extract_of_batch {sigs : List String} {parsed : List (Option ParsedTransaction)}
    {extracted : List (List IncomingTransfer)} (hparsed : ParsedFor chain sigs parsed)
    (h : extractBatch chain.addresses asset sigs parsed = some extracted) :
    sigs.mapM (chain.extract asset) = some extracted := by
  refine mapM_zipIdx (fun i sig xs hsig hxs => ?_) h
  obtain ⟨tx, htx, hxs⟩ := Option.bind_eq_some_iff.mp hxs
  rw [hparsed i sig tx hsig htx] at hxs
  exact hxs

theorem gives_scanBatches (asset : WagerAsset) (batchSize batches : Nat) (sigs : List String)
    (hs : chain.Sound s) :
    chain.Secured (Gives fun per _ => sigs.mapM (chain.extract asset) = some per)
      (scanBatches chain.addresses asset batchSize batches sigs) s := by
  induction batches generalizing s sigs with
  | zero =>
      cases sigs with
      | nil => exact gives_pure rfl
      | cons sig sigs => exact gives_failure
  | succ batches ih =>
      cases sigs with
      | nil => exact gives_pure rfl
      | cons sig rest =>
          have hread : chain.Secured
              (fun parsed _ => ParsedFor chain ((sig :: rest).take batchSize) parsed)
              (DepositProgram.getParsedTransactions ((sig :: rest).take batchSize)) s := by
            rintro t - ht parsed u ⟨hparsed, rfl⟩
            exact ⟨ht, Later.refl _, hparsed⟩
          rw [scanBatches]
          · refine gives_bind relies hs (gives_lift hread relies hs) fun parsed t _ ht hparsed => ?_
            cases hbatch : extractBatch chain.addresses asset ((sig :: rest).take batchSize)
                parsed with
            | none => exact gives_failure
            | some extracted =>
                refine gives_bind relies ht (ih _ ht) fun more u _ _ hmore => gives_pure ?_
                have htake := mapM_extract_of_batch hparsed hbatch
                rw [← List.take_append_drop batchSize (sig :: rest), List.mapM_append, htake, hmore]
                rfl
          · exact List.cons_ne_nil _ _

/-- What a scan found, by the signatures it collected. -/
def Found (chain : TreasuryChain) (asset : WagerAsset) (till : Option String)
    (sigs : List String) (scan : DepositScan) : Prop :=
  ∃ per, (sigs.filter fun sig => !(chain.transaction sig).failed ∧ some sig ≠ till).mapM
      (chain.extract asset) = some per ∧
    scan.transfers = per.reverse.flatten ∧ scan.newestSig = sigs.head?

theorem gives_fetchIncomingTransfers {options : ScanOptions} (hs : chain.Sound s)
    (hstart : chain.Starts asset till s) :
    chain.Secured (Gives fun scan t => ∃ sigs, Collected asset till sigs t ∧
        chain.Found asset till sigs scan)
      (fetchIncomingTransfers chain.addresses options asset till) s := by
  have hcollect : chain.Secured _ (collectSignatureInfos asset till options.pageLimit
      maxSignaturePages [] none) s :=
    gives_collectSignatureInfos maxSignaturePages [] hs hstart (.inl ⟨rfl, rfl⟩)
  refine gives_bind relies hs hcollect fun infos t _ ht hinfos => ?_
  obtain ⟨sigs, rfl, hcollected⟩ := hinfos
  have hcandidates : ((sigs.map chain.infoOf).filter fun info =>
      !info.err ∧ some info.signature ≠ till).map (·.signature) =
        sigs.filter fun sig => !(chain.transaction sig).failed ∧ some sig ≠ till := by
    rw [List.filter_map, List.map_map]
    exact List.map_id _
  have hhead : (sigs.map chain.infoOf).head?.map (·.signature) = sigs.head? := by
    cases sigs <;> rfl
  simp only [hcandidates, hhead]
  have hbatches := gives_scanBatches asset options.batchSize
    (sigs.filter fun sig => !(chain.transaction sig).failed ∧ some sig ≠ till).length
    (sigs.filter fun sig => !(chain.transaction sig).failed ∧ some sig ≠ till) ht
  refine gives_bind relies ht hbatches fun per u htu _ hper => gives_pure ?_
  exact ⟨sigs, hcollected.later htu, per, hper, rfl, rfl⟩

/-! ## where the cursor may move -/

theorem mapM_eq_map {f : α → Option β} {xs : List α} {ys : List β} (fallback : β)
    (h : xs.mapM f = some ys) :
    ys = xs.map (fun x => (f x).getD fallback) ∧ ∀ x ∈ xs, ∃ y, f x = some y := by
  induction xs generalizing ys with
  | nil =>
      obtain rfl := Option.some.inj h
      exact ⟨rfl, fun _ h => absurd h List.not_mem_nil⟩
  | cons x xs ih =>
      rw [List.mapM_cons] at h
      obtain ⟨first, hfirst, h⟩ := Option.bind_eq_some_iff.mp h
      obtain ⟨rest, hrest, h⟩ := Option.bind_eq_some_iff.mp h
      obtain rfl := Option.some.inj h
      obtain ⟨rfl, hall⟩ := ih hrest
      refine ⟨by rw [List.map_cons, hfirst]; rfl, fun z hz => ?_⟩
      rcases List.mem_cons.mp hz with rfl | hz
      · exact ⟨first, hfirst⟩
      · exact hall z hz

/-- Where the next entry is of another key, the entries so far are all those of the keys
so far. -/
theorem flatMap_split {κ : Type} {key : α → κ} {T : κ → List α} (htag : ∀ k, ∀ y ∈ T k, key y = k)
    {keys : List κ} {pre rest : List α} {x : α} (h : keys.flatMap T = pre ++ x :: rest)
    (hnext : rest.head?.map key ≠ some (key x)) :
    ∃ before after, keys = before ++ key x :: after ∧
      ∀ k ∈ before ++ [key x], ∀ y ∈ T k, y ∈ pre ++ [x] := by
  induction keys generalizing pre with
  | nil => simp at h
  | cons k keys ih =>
      rw [List.flatMap_cons] at h
      -- the entry is one of a later key
      have hlater : ∀ pre', pre = T k ++ pre' → keys.flatMap T = pre' ++ x :: rest →
          ∃ before after, k :: keys = before ++ key x :: after ∧
            ∀ k' ∈ before ++ [key x], ∀ y ∈ T k', y ∈ pre ++ [x] := by
        rintro pre' rfl hrest
        obtain ⟨before, after, rfl, hall⟩ := ih hrest
        refine ⟨k :: before, after, rfl, fun k' hk' y hy => ?_⟩
        rw [List.append_assoc]
        rcases List.mem_cons.mp hk' with rfl | hk'
        · exact List.mem_append_left _ hy
        · exact List.mem_append_right _ (hall k' hk' y hy)
      rcases List.append_eq_append_iff.mp h with ⟨pre', rfl, hrest⟩ | ⟨own, hown, hrest⟩
      · exact hlater pre' rfl hrest
      · cases own with
        | nil => exact hlater [] (by simpa using hown.symm) hrest.symm
        | cons z own =>
            obtain ⟨rfl, rfl⟩ := List.cons.inj hrest
            have hk : key x = k := htag k x (hown ▸ List.mem_append_right _ List.mem_cons_self)
            have hnone : own = [] := by
              cases own with
              | nil => rfl
              | cons y own =>
                  have hy : key y = k := htag k y (hown ▸ List.mem_append_right _
                    (List.mem_cons_of_mem _ List.mem_cons_self))
                  exact absurd (by simp [hy, hk]) hnext
            subst hk hnone
            refine ⟨[], keys, rfl, fun k' hk' y hy => ?_⟩
            obtain rfl := List.mem_singleton.mp hk'
            exact hown ▸ hy

/-- All that the scan can tell of the history, at one time. -/
structure Scanned (chain : TreasuryChain) (asset : WagerAsset) (till : Option String)
    (sigs : List String) (scan : DepositScan) (s : DepositTables) : Prop where
  starts : chain.Starts asset till s
  collected : Collected asset till sigs s
  found : chain.Found asset till sigs scan

variable {sigs : List String} {scan : DepositScan}

theorem Scanned.later (h : chain.Scanned asset till sigs scan s) (hlater : Later s t) :
    chain.Scanned asset till sigs scan t where
  starts := h.starts.later hlater
  collected := h.collected.later hlater
  found := h.found

def transfersOf (chain : TreasuryChain) (asset : WagerAsset) (sig : String) :
    List IncomingTransfer :=
  (chain.extract asset sig).getD []

theorem transfersOf_sig (chain : TreasuryChain) (asset : WagerAsset) (sig : String) :
    ∀ x ∈ chain.transfersOf asset sig, chain.IsTransfer x ∧ x.sig = sig := by
  intro x hx
  unfold transfersOf at hx
  cases hextract : chain.extract asset sig with
  | none =>
      rw [hextract] at hx
      cases hx
  | some xs =>
      rw [hextract] at hx
      obtain ⟨htransfer, hsig, -⟩ := (mem_extractTransfers hextract).mp hx
      exact ⟨htransfer, hsig⟩

/-- The transfers of a scan are those of its candidates, oldest first. -/
theorem Scanned.transfers (h : chain.Scanned asset till sigs scan s) :
    scan.transfers = (sigs.reverse.filter fun sig =>
        !(chain.transaction sig).failed ∧ some sig ≠ till).flatMap (chain.transfersOf asset) ∧
      ∀ sig ∈ sigs, (chain.transaction sig).failed = false → some sig ≠ till →
        chain.extract asset sig = some (chain.transfersOf asset sig) := by
  obtain ⟨per, hper, htransfers, -⟩ := h.found
  obtain ⟨rfl, hall⟩ := mapM_eq_map [] hper
  constructor
  · rw [htransfers, List.filter_reverse, ← List.map_reverse, List.flatMap]
    rfl
  · intro sig hsig hsucceeded hnot
    obtain ⟨xs, hxs⟩ := hall sig (List.mem_filter.mpr ⟨hsig, by simp [hsucceeded, hnot]⟩)
    rw [transfersOf, hxs]
    rfl

/-- What was collected lies above what is done, in one piece. -/
theorem Scanned.stretch (h : chain.Scanned asset till sigs scan s) (hs : chain.Sound s)
    (hsome : sigs ≠ []) :
    ∃ old newer, s.history asset = old ++ sigs.reverse ++ newer ∧
      ∀ sig, sig ∈ old ∨ some sig = till → chain.Done s asset sig := by
  obtain ⟨old, newer, hhistory, hold⟩ := h.collected.resolve_left hsome
  obtain ⟨done, rest, hhistory', hdone, hall⟩ := h.starts
  cases till with
  | none =>
      obtain rfl : old = [] := hold
      exact ⟨[], newer, hhistory, fun sig hsig => by simp at hsig⟩
  | some t =>
      obtain ⟨older, last, rfl, rfl⟩ := hold
      obtain ⟨older', last', rfl, hlast⟩ := hdone
      obtain rfl : last' = last := hlast
      -- both stretches end with the same signature
      have hnodup := hs.signatures asset
      have hsplit : older ++ last' :: (sigs.reverse ++ newer) = older' ++ last' :: rest := by
        rw [hhistory] at hhistory'
        simpa using hhistory'
      have hrest : ∀ a b : List String, s.history asset = a ++ last' :: b → last' ∉ b := by
        intro a b hab hmem
        rw [hab] at hnodup
        exact (List.nodup_cons.mp (List.nodup_append.mp hnodup).2.1).1 hmem
      obtain ⟨rfl, -⟩ := split_last_inj hsplit
        (hrest older _ (by rw [hhistory]; simp)) (hrest older' _ (by rw [hhistory']; simp))
      refine ⟨older ++ [last'], newer, hhistory, fun sig hsig => hall sig ?_⟩
      rcases hsig with hsig | hsig
      · exact hsig
      · exact Option.some.inj hsig ▸ List.mem_append_right _ List.mem_cons_self

theorem done_of_failed (h : (chain.transaction sig).failed = true) :
    chain.Done s asset sig :=
  ⟨[], if_pos h, fun _ h => absurd h List.not_mem_nil⟩

section

variable (h : chain.Scanned asset till sigs scan s)

include h

/-- Everything up to a signature of the scan is done where its candidates up to there
are. -/
theorem Scanned.through (hs : chain.Sound s)
    {c d : List String} (hsplit : sigs.reverse = c ++ sig :: d)
    (hall : ∀ sig' ∈ c ++ [sig], (chain.transaction sig').failed = false → some sig' ≠ till →
      ∀ x ∈ chain.transfersOf asset sig', Handled s x) : chain.Through s asset sig := by
  have hsome : sigs ≠ [] := by
    rintro rfl
    simp at hsplit
  obtain ⟨old, newer, hhistory, hdone⟩ := h.stretch hs hsome
  refine ⟨old ++ c, d ++ newer, ?_, fun sig' hsig' => ?_⟩
  · rw [hhistory, hsplit]
    simp
  · rw [List.append_assoc] at hsig'
    rcases List.mem_append.mp hsig' with hsig' | hsig'
    · exact hdone sig' (.inl hsig')
    cases hfailed : (chain.transaction sig').failed with
    | true => exact done_of_failed hfailed
    | false =>
        by_cases htill : some sig' = till
        · exact hdone sig' (.inr htill)
        · have hmem : sig' ∈ sigs := by
            have hboth : sig' ∈ sigs.reverse := by
              rw [hsplit]
              rcases List.mem_append.mp hsig' with hsig' | hsig'
              · exact List.mem_append_left _ hsig'
              · obtain rfl := List.mem_singleton.mp hsig'
                exact List.mem_append_right _ List.mem_cons_self
            exact List.mem_reverse.mp hboth
          exact ⟨_, h.transfers.2 sig' hmem hfailed htill, hall sig' hsig' hfailed htill⟩

/-- After the last transfer of a signature. -/
theorem Scanned.through_transfer (hs : chain.Sound s)
    {pre rest : List IncomingTransfer} (hsplit : scan.transfers = pre ++ x :: rest)
    (hnext : rest.head?.map (·.sig) ≠ some x.sig)
    (hall : ∀ y ∈ pre ++ [x], Handled s y) : chain.Through s asset x.sig := by
  rw [h.transfers.1] at hsplit
  obtain ⟨before, after, hkeys, hpre⟩ := flatMap_split
    (fun sig y hy => (chain.transfersOf_sig asset sig y hy).2) hsplit hnext
  -- the place of the signature among all that were collected
  obtain ⟨c, d, hcd, hc⟩ : ∃ c d, sigs.reverse = c ++ x.sig :: d ∧
      c.filter (fun sig => !(chain.transaction sig).failed ∧ some sig ≠ till) = before := by
    obtain ⟨c, e, hce, hc, he⟩ := List.filter_eq_append_iff.mp hkeys
    obtain ⟨f, d, rfl, hf, -, -⟩ := List.filter_eq_cons_iff.mp he
    refine ⟨c ++ f, d, by rw [hce, List.append_assoc], ?_⟩
    rw [List.filter_append, hc, List.filter_eq_nil_iff.mpr hf, List.append_nil]
  refine h.through hs hcd fun sig' hsig' hfailed htill y hy => hall y (hpre sig' ?_ y hy)
  rcases List.mem_append.mp hsig' with hsig' | hsig'
  · refine List.mem_append_left _ (hc ▸ List.mem_filter.mpr ⟨hsig', ?_⟩)
    simp [hfailed, htill]
  · exact List.mem_append_right _ hsig'

/-- After all transfers. -/
theorem Scanned.through_newest (hs : chain.Sound s)
    (hnewest : scan.newestSig = some sig) (hall : ∀ y ∈ scan.transfers, Handled s y) :
    chain.Through s asset sig := by
  obtain ⟨-, -, -, hhead⟩ := h.found
  rw [hhead] at hnewest
  cases sigs with
  | nil => cases hnewest
  | cons first more =>
      obtain rfl : first = sig := Option.some.inj hnewest
      refine h.through hs (c := more.reverse) (d := []) (by simp) ?_
      intro sig' hsig' hfailed htill y hy
      refine hall y ?_
      rw [h.transfers.1]
      refine List.mem_flatMap.mpr ⟨sig', List.mem_filter.mpr ⟨?_, by simp [hfailed, htill]⟩, hy⟩
      simpa using hsig'

end

/-! ## one tick -/

theorem secured_setCursor (hthrough : chain.Through s asset sig) :
    chain.Secured (fun _ _ => True) (DepositProgram.setCursor (chain.stream asset) sig) s := by
  rintro t hst ht - u rfl
  exact ⟨ht.setCursor (hthrough.later hst),
    ⟨fun _ => List.prefix_rfl, fun row h => ⟨row, h, rfl⟩, fun _ h => h, fun _ h => h⟩, trivial⟩

/-- Transfers that follow others which are handled. -/
theorem secured_processTransfers (pre : List IncomingTransfer) {rest : List IncomingTransfer}
    (hs : chain.Sound s) (h : chain.Scanned asset till sigs scan s) (hsplit : scan.transfers = pre ++ rest)
    (hpre : ∀ y ∈ pre, Handled s y) :
    chain.Secured (fun _ t => ∀ y ∈ scan.transfers, Handled t y)
      (processTransfers (chain.stream asset) rest) s := by
  induction rest generalizing pre s with
  | nil =>
      intro y hy
      rw [hsplit, List.append_nil] at hy
      exact hpre y hy
  | cons x rest ih =>
      have hx : chain.IsTransfer x := by
        have hmem : x ∈ scan.transfers := hsplit ▸ List.mem_append_right _ List.mem_cons_self
        rw [h.transfers.1] at hmem
        obtain ⟨sig, -, hmem⟩ := List.mem_flatMap.mp hmem
        exact (chain.transfersOf_sig asset sig x hmem).1
      refine secured_bind hs (secured_processTransfer hs hx) fun _ t hst ht hhandled => ?_
      have hpre' : ∀ u, Later t u → ∀ y ∈ pre ++ [x], Handled u y := fun u htu y hy => by
        rcases List.mem_append.mp hy with hy | hy
        · exact (hpre y hy).later (hst.trans htu)
        · exact List.mem_singleton.mp hy ▸ hhandled.later htu
      have hsplit' : scan.transfers = (pre ++ [x]) ++ rest := by simpa using hsplit
      split
      · next hnext =>
          have hthrough := (h.later hst).through_transfer ht hsplit hnext (hpre' t (Later.refl t))
          refine secured_bind ht (secured_setCursor hthrough) fun _ u htu hu _ => ?_
          exact ih (pre ++ [x]) hu (h.later (hst.trans htu)) hsplit' (hpre' u htu)
      · exact ih (pre ++ [x]) ht (h.later hst) hsplit' (hpre' t (Later.refl t))

theorem secured_watchDeposits {options : ScanOptions} (hs : chain.Sound s) :
    chain.Secured (fun _ _ => True) (watchDeposits chain.addresses options asset) s := by
  have hcursor : chain.Secured (fun till t => chain.Starts asset till t)
      (DepositProgram.getCursor (chain.stream asset)) s := by
    rintro t - ht till u ⟨rfl, rfl⟩
    exact ⟨ht, Later.refl _, ht.starts asset⟩
  refine secured_bind hs hcursor fun till t _ ht hstart => ?_
  refine secured_bind ht (gives_fetchIncomingTransfers ht hstart) fun found u htu hu hfound => ?_
  cases found with
  | none => trivial
  | some scan =>
      obtain ⟨sigs, hcollected, hscan⟩ := hfound scan rfl
      have hscanned : chain.Scanned asset till sigs scan u := ⟨hstart.later htu, hcollected, hscan⟩
      have hprocess := secured_processTransfers [] hu hscanned rfl
        fun _ h => absurd h List.not_mem_nil
      refine secured_bind hu hprocess fun _ v huv hv hall => ?_
      cases hnewest : scan.newestSig with
      | none => trivial
      | some sig =>
          exact secured_setCursor ((hscanned.later huv).through_newest hv hnewest hall)

/-! ## all ticks -/

/-- The credits that the ledger has for a transfer. -/
def creditsFor (s : DepositTables) (x : IncomingTransfer) : List LedgerRow :=
  s.ledger.filter (·.key = x.ledgerKey)

/-- What the tables owe to the transfers on the chain. -/
structure Deposited (chain : TreasuryChain) (s : DepositTables) : Prop where
  /-- A transfer has no two credits, and none but for its amount of its asset. -/
  credited : ∀ x, chain.IsTransfer x → (creditsFor s x).length ≤ 1 ∧
    ∀ r ∈ creditsFor s x, r.kind = .deposit ∧ r.asset = x.asset ∧ r.lamports = x.lamports
  /-- Where the sender was found linked, there is the credit. -/
  linked : ∀ x userId, (x, some userId) ∈ s.processed → (creditsFor s x).length = 1
  /-- A transfer at or below a cursor is stored, and was handled. -/
  passed : ∀ asset sig older newer, s.cursors (chain.stream asset) = some sig →
    s.history asset = older ++ sig :: newer → ∀ x, chain.IsTransfer x → x.asset = asset →
      x.sig ∈ older ++ [sig] → Handled s x

theorem Sound.credited (hs : chain.Sound s) (hx : chain.IsTransfer x) :
    (creditsFor s x).length ≤ 1 ∧
      ∀ r ∈ creditsFor s x, r.kind = .deposit ∧ r.asset = x.asset ∧ r.lamports = x.lamports := by
  have hkeys : ((creditsFor s x).map (·.key)).Nodup :=
    hs.keys.sublist (List.filter_sublist.map _)
  refine ⟨length_le_one hkeys x.ledgerKey fun r hr => ?_, fun r hr => ?_⟩
  · exact of_decide_eq_true (List.mem_filter.mp hr).2
  · obtain ⟨hr, hkey⟩ := List.mem_filter.mp hr
    rw [hs.rows r hr x hx (of_decide_eq_true hkey)]
    exact ⟨rfl, rfl, rfl⟩

theorem Sound.passed (hs : chain.Sound s) (hcursor : s.cursors (chain.stream asset) = some sig)
    {older newer : List String} (hhistory : s.history asset = older ++ sig :: newer)
    (hx : chain.IsTransfer x) (hasset : x.asset = asset)
    (hmem : x.sig ∈ older ++ [sig]) : Handled s x := by
  obtain ⟨older', newer', hhistory', hall⟩ := hs.cursor asset sig hcursor
  have hnotin : ∀ a b : List String, s.history asset = a ++ sig :: b → sig ∉ b := by
    intro a b hab hb
    have hnodup := hs.signatures asset
    rw [hab] at hnodup
    exact (List.nodup_cons.mp (List.nodup_append.mp hnodup).2.1).1 hb
  obtain ⟨rfl, -⟩ := split_last_inj (hhistory.symm.trans hhistory')
    (hnotin older newer hhistory) (hnotin older' newer' hhistory')
  obtain ⟨xs, hxs, hdone⟩ := hall x.sig hmem
  exact hdone x ((mem_extractTransfers hxs).mpr ⟨hx, rfl, hasset⟩)

theorem Sound.deposited (hs : chain.Sound s) : chain.Deposited s where
  credited x hx := hs.credited hx
  linked x userId hmem := by
    obtain ⟨hx, -, r, hr, hkey⟩ := hs.processed x userId hmem
    have hone : r ∈ creditsFor s x := List.mem_filter.mpr ⟨hr, decide_eq_true hkey⟩
    exact le_antisymm (hs.credited hx).1 (List.length_pos_of_mem hone)
  passed asset sig older newer hcursor hhistory x hx hasset hmem :=
    hs.passed hcursor hhistory hx hasset hmem

end TreasuryChain

namespace Sample

/-- Every transaction pays the treasury from one wallet. -/
def depositChain : TreasuryChain where
  addresses := ⟨"t", "u", "v"⟩
  transaction _ :=
    { slot := 7
      failed := false
      instructions :=
        [⟨"system", "transfer", ⟨some "p", some "t", none, none, none, none, some 2000000⟩⟩] }

def transferIn : IncomingTransfer := ⟨"a", 0, "p", 2000000, 7, .sol, none⟩

/-- One transaction, from a wallet that is linked. -/
def depositTables : DepositTables where
  ledger := []
  positions := []
  withdrawals := []
  grants := []
  budget := ⟨false, 10000000, 5000000000, 500, 0, 0⟩
  surroundings :=
    ⟨fun user => if user = 1 then some ⟨"p", true⟩ else none, fun _ => none, fun _ => none,
      fun _ => none⟩
  deposits := []
  cursors := fun _ => none
  history := fun asset => if asset = .sol then ["a"] else []
  processed := []

def depositedTables : DepositTables :=
  { depositTables with
    ledger := [(depositCredit transferIn 1).row]
    deposits := [⟨transferIn, some 1⟩]
    cursors := Function.update (Function.update depositTables.cursors "wager:deposits:sol:t"
      (some "a")) "wager:deposits:sol:t" (some "a")
    processed := [(transferIn, some 1)] }

theorem crashes_deposit : Program.Crashes (DepositCall.Answers depositChain) (fun _ _ _ => False)
    (watchDeposits depositChain.addresses ⟨1000, 100⟩ .sol) depositTables depositedTables := by
  refine .after (r := none) ⟨rfl, rfl⟩ ?_
  refine .after (r := [⟨"a", false⟩]) ⟨rfl, rfl⟩ ?_
  refine .after (r := [some (depositChain.transaction "a")]) ⟨?_, rfl⟩ ?_
  · rintro (_ | i) sig tx hsig htx
    · obtain rfl := Option.some.inj hsig
      exact (Option.some.inj htx).symm
    · cases htx
  refine .after (r := ()) ⟨by decide, by decide, rfl⟩ ?_
  refine .after (r := some 1) ⟨fun user huser => ?_, nofun, rfl⟩ ?_
  · obtain rfl := Option.some.inj huser
    exact ⟨⟨"p", true⟩, rfl, rfl⟩
  refine .after (r := true) ⟨by decide, _, rfl, rfl⟩ ?_
  refine .after (r := ()) rfl ?_
  refine .after (r := ()) rfl ?_
  refine .after (r := ()) rfl ?_
  exact .after (r := ()) rfl (.before _ _)

theorem depositChain_fresh : depositChain.Fresh depositTables where
  signatures asset := by cases asset <;> decide
  keys := List.nodup_nil
  rows _ hr := absurd hr List.not_mem_nil
  deposits := rfl
  processed := rfl
  cursors _ := rfl

end Sample

end CalledIt.Wager
