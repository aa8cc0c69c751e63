import CalledIt.Escrow.Solvency

/-!
# CalledIt.Escrow.Closing

Every position is claimed once, and nothing is stranded at the close.

The trace of a life records who placed, claimed and closed; `CloseInv` ties
these lists to the counters and accounts of the ledger.  A position leaves the
ledger only claimed and without lots, and its lots leave it from the newest
down.
-/

namespace CalledIt.Escrow

open Lib

/-! ## reading the trace -/

def Entry.placedOwner : Entry → Option Pubkey
  | .emitted _ (.positionPlaced e) => some e.owner
  | _ => none

def Entry.claimedOwner : Entry → Option Pubkey
  | .emitted _ (.positionClaimed e) => some e.owner
  | _ => none

def Entry.closedOwner : Entry → Option Pubkey
  | .emitted _ (.positionClosed e) => some e.owner
  | _ => none

/-- The nonces of an owner's lots that an entry closes, in order. -/
def Entry.closedNonces (o : Pubkey) : Entry → List Nat
  | .emitted _ (.positionLotsClosed e) => if e.owner = o then e.nonces.map UInt64.toNat else []
  | _ => []

/-- The owners of all placements, one occurrence for each lot. -/
def placedOwners (trace : List Entry) : List Pubkey := trace.filterMap Entry.placedOwner

def claimedOwners (trace : List Entry) : List Pubkey := trace.filterMap Entry.claimedOwner

def closedOwners (trace : List Entry) : List Pubkey := trace.filterMap Entry.closedOwner

def closedNonces (o : Pubkey) (trace : List Entry) : List Nat :=
  trace.flatMap (Entry.closedNonces o)

@[simp] theorem placedOwners_snoc (trace : List Entry) (entry : Entry) :
    placedOwners (trace ++ [entry]) = placedOwners trace ++ entry.placedOwner.toList := by
  unfold placedOwners
  rw [List.filterMap_append]
  cases h : entry.placedOwner <;> simp [h]

@[simp] theorem claimedOwners_snoc (trace : List Entry) (entry : Entry) :
    claimedOwners (trace ++ [entry]) = claimedOwners trace ++ entry.claimedOwner.toList := by
  unfold claimedOwners
  rw [List.filterMap_append]
  cases h : entry.claimedOwner <;> simp [h]

@[simp] theorem closedOwners_snoc (trace : List Entry) (entry : Entry) :
    closedOwners (trace ++ [entry]) = closedOwners trace ++ entry.closedOwner.toList := by
  unfold closedOwners
  rw [List.filterMap_append]
  cases h : entry.closedOwner <;> simp [h]

@[simp] theorem closedNonces_snoc (o : Pubkey) (trace : List Entry) (entry : Entry) :
    closedNonces o (trace ++ [entry]) = closedNonces o trace ++ entry.closedNonces o := by
  simp [closedNonces]

/-- `hi - 1, hi - 2, …, lo`. -/
def descending (hi lo : Nat) : List Nat := (List.range (hi - lo)).map fun i => hi - 1 - i

@[simp] theorem descending_self (n : Nat) : descending n n = [] := by
  simp [descending]

/-- Two descents one after the other. -/
theorem descending_append {a b c : Nat} (hab : b ≤ a) (hbc : c ≤ b) :
    descending a b ++ descending b c = descending a c := by
  have hlen : a - c = (a - b) + (b - c) := by omega
  unfold descending
  rw [hlen, List.range_add, List.map_append, List.map_map]
  congr 1
  apply List.map_congr_left
  intro i _
  change b - 1 - i = a - 1 - (a - b + i)
  omega

/-! ## the invariant -/

/-- Whether an owner's position is claimed, and its next nonce. -/
def Ledger.standing (L : Ledger) (o : Pubkey) : Option (Bool × UInt64) :=
  (L.positions.lookup o).map fun p => (p.claimed, p.nextLotNonce)

variable {L : Ledger} {o : Pubkey} {p : UserPosition}

theorem standing_of_lookup
    (h : L.positions.lookup o = some p) : L.standing o = some (p.claimed, p.nextLotNonce) := by
  simp [Ledger.standing, h]

variable {L' : Ledger} {p' : UserPosition}

theorem standing_insert (hp : L'.positions = L.positions.insert o p') (o' : Pubkey) :
    L'.standing o' = if o' = o then some (p'.claimed, p'.nextLotNonce) else L.standing o' := by
  unfold Ledger.standing
  rw [hp]
  by_cases ho : o' = o
  · subst ho
    simp [AList.lookup_insert]
  · simp [AList.lookup_insert_ne ho, ho]

theorem standing_erase (hp : L'.positions = L.positions.erase o) (o' : Pubkey) :
    L'.standing o' = if o' = o then none else L.standing o' := by
  unfold Ledger.standing
  rw [hp]
  by_cases ho : o' = o
  · subst ho
    simp [AList.lookup_erase]
  · simp [AList.lookup_erase_ne ho, ho]

structure CloseInv (trace : List Entry) (L : Ledger) : Prop where
  once : (claimedOwners trace).Nodup
  count : L.market.claimedPositionCount.toNat = (claimedOwners trace).length
  claimed : ∀ o, o ∈ claimedOwners trace ↔
    (∃ n, L.standing o = some (true, n)) ∨ o ∈ closedOwners trace
  placed : ∀ o, o ∈ placedOwners trace ↔ (L.standing o).isSome ∨ o ∈ closedOwners trace
  gone : ∀ {o}, o ∈ closedOwners trace → L.standing o = none
  nonces : ∀ {o c n}, L.standing o = some (c, n) → n.toNat ≤ (placedOwners trace).count o ∧
    closedNonces o trace = descending ((placedOwners trace).count o) n.toNat
  intact : ¬ L.market.state.Done → closedOwners trace = [] ∧ ∀ o, closedNonces o trace = []

variable {trace : List Entry}

/-- What the trace says of one owner, whose position stands so. -/
structure OwnerInv (trace : List Entry) (standing : Option (Bool × UInt64)) (o : Pubkey) :
    Prop where
  claimed : o ∈ claimedOwners trace ↔
    (∃ n, standing = some (true, n)) ∨ o ∈ closedOwners trace
  placed : o ∈ placedOwners trace ↔ standing.isSome ∨ o ∈ closedOwners trace
  gone : o ∈ closedOwners trace → standing = none
  nonces : ∀ {c n}, standing = some (c, n) → n.toNat ≤ (placedOwners trace).count o ∧
    closedNonces o trace = descending ((placedOwners trace).count o) n.toNat

theorem CloseInv.owner (h : CloseInv trace L) (o : Pubkey) : OwnerInv trace (L.standing o) o :=
  ⟨h.claimed o, h.placed o, h.gone, h.nonces⟩

theorem CloseInv.of_owners (howners : ∀ o, OwnerInv trace (L.standing o) o)
    (honce : (claimedOwners trace).Nodup)
    (hcount : L.market.claimedPositionCount.toNat = (claimedOwners trace).length)
    (hintact : ¬ L.market.state.Done →
      closedOwners trace = [] ∧ ∀ o, closedNonces o trace = []) : CloseInv trace L :=
  ⟨honce, hcount, fun o => (howners o).claimed, fun o => (howners o).placed,
    fun {o} => (howners o).gone, fun {o _ _} => (howners o).nonces, hintact⟩

variable {entry : Entry}

/-- An entry about others. -/
theorem OwnerInv.quiet {standing : Option (Bool × UInt64)} (h : OwnerInv trace standing o)
    (hplaced : entry.placedOwner ≠ some o) (hclaimed : entry.claimedOwner ≠ some o)
    (hclosed : entry.closedOwner ≠ some o) (hnonces : entry.closedNonces o = []) :
    OwnerInv (trace ++ [entry]) standing o := by
  have hcount : (placedOwners (trace ++ [entry])).count o = (placedOwners trace).count o := by
    rw [placedOwners_snoc, List.count_append, Nat.add_eq_left]
    exact List.count_eq_zero_of_not_mem (by simpa using hplaced)
  refine ⟨?_, ?_, ?_, fun hs => ?_⟩
  · simpa [hclaimed, hclosed] using h.claimed
  · simpa [hplaced, hclosed] using h.placed
  · simpa [hclosed] using h.gone
  · rw [hcount, closedNonces_snoc, hnonces, List.append_nil]
    exact h.nonces hs

/-- A step that no list and no standing notices. -/
theorem CloseInv.quiet (h : CloseInv trace L) (hplaced : entry.placedOwner = none)
    (hclaimed : entry.claimedOwner = none) (hclosed : entry.closedOwner = none)
    (hnonces : ∀ o, entry.closedNonces o = []) (hstanding : ∀ o, L'.standing o = L.standing o)
    (hcount : L'.market.claimedPositionCount = L.market.claimedPositionCount)
    (hdone : ¬ L'.market.state.Done → ¬ L.market.state.Done) :
    CloseInv (trace ++ [entry]) L' := by
  refine .of_owners (fun o => ?_) ?_ ?_ fun hnot => ?_
  · rw [hstanding]
    exact (h.owner o).quiet (by simp [hplaced]) (by simp [hclaimed]) (by simp [hclosed]) (hnonces o)
  · simpa [hclaimed] using h.once
  · simpa [hclaimed, hcount] using h.count
  · simpa [hclosed, hnonces] using h.intact (hdone hnot)

/-! ## the steps that show -/

theorem descending_eq_nil {hi lo : Nat} (h : descending hi lo = []) : hi ≤ lo := by
  have hlen := congrArg List.length h
  simp only [descending, List.length_map, List.length_range, List.length_nil] at hlen
  omega

/-- While nothing is closed, the next nonce counts the owner's placements. -/
theorem CloseInv.next_eq (h : CloseInv trace L) (hnot : ¬ L.market.state.Done)
    (hstands : L.Stands o p) :
    p.nextLotNonce.toNat = (placedOwners trace).count o := by
  obtain ⟨hclosed, hnonces⟩ := h.intact hnot
  rcases hstands with hlookup | ⟨hnone, _, hzero⟩
  · obtain ⟨hle, hlist⟩ := h.nonces (standing_of_lookup hlookup)
    rw [hnonces o] at hlist
    have hge := descending_eq_nil hlist.symm
    omega
  · have habsent : o ∉ placedOwners trace := by
      rw [h.placed o, hclosed]
      simp [Ledger.standing, hnone]
    rw [hzero, List.count_eq_zero_of_not_mem habsent]
    rfl

variable {rt : Runtime} {clock : Clock}

theorem Placed.closeInv {e : PositionPlaced} {lot : PositionLot} {vault' : AccountInfo}
    (h : Placed rt L clock e p L'.market p' lot vault') (hw : L.WellFormed)
    (hinv : CloseInv trace L) (hp : L'.positions = L.positions.insert e.owner p') :
    CloseInv (trace ++ [.emitted clock (.positionPlaced e)]) L' := by
  have hnot : ¬ L.market.state.Done := MarketState.Live.not_done (.inl h.opens)
  obtain ⟨hclosed, hnonces⟩ := hinv.intact hnot
  have hnext : p'.nextLotNonce.toNat = (placedOwners trace).count e.owner + 1 := by
    rw [h.next, hinv.next_eq hnot (h.stands hw).1]
  have hopen : p'.claimed = false := by
    rw [h.booked.holder.claimed]
    rcases h.base with ⟨_, _, _, hclaimed, _⟩ | ⟨_, ⟨_, _, rfl⟩, _⟩
    · exact hclaimed
    · rfl
  have hbefore : ∀ n, L.standing e.owner ≠ some (true, n) := by
    intro n hs
    rcases h.base with ⟨hlookup, _, _, hclaimed, _⟩ | ⟨hnew, _, _⟩
    · rw [standing_of_lookup hlookup, hclaimed] at hs
      simp at hs
    · cases hlookup : L.positions.lookup e.owner with
      | none => simp [Ledger.standing, hlookup] at hs
      | some q => exact hw.version hlookup (hnew q hlookup)
  have hnew : e.owner ∉ claimedOwners trace := by simp [hinv.claimed, hclosed, hbefore]
  refine .of_owners (fun o => ?_) ?_ ?_ fun _ => ?_
  · rw [standing_insert hp]
    split
    next ho =>
      subst ho
      refine ⟨?_, ?_, ?_, fun hs => ?_⟩
      · simp [Entry.claimedOwner, Entry.closedOwner, hopen, hclosed, hnew]
      · simp [Entry.placedOwner]
      · simp [Entry.closedOwner, hclosed]
      · rw [Option.some.injEq, Prod.mk.injEq] at hs
        simp [Entry.placedOwner, Entry.closedNonces, hnonces, ← hs.2, hnext]
    next ho =>
      exact (hinv.owner o).quiet (fun heq => ho (Option.some.inj heq).symm)
        (by simp [Entry.claimedOwner]) (by simp [Entry.closedOwner]) rfl
  · simpa [Entry.claimedOwner] using hinv.once
  · rw [h.booked.terms.claimedPositionCount]
    simpa [Entry.claimedOwner] using hinv.count
  · simp [Entry.closedOwner, Entry.closedNonces, hclosed, hnonces]

theorem Claimed.closeInv {e : PositionClaimed} {vault' : AccountInfo}
    (h : Claimed rt L e p L'.market vault') (hinv : CloseInv trace L)
    (hp : L'.positions = L.positions.insert e.owner { p with claimed := true }) :
    CloseInv (trace ++ [.emitted clock (.positionClaimed e)]) L' := by
  have hterminal := terminal_of_claimAmount h.amount
  have hstanding : L.standing e.owner = some (false, p.nextLotNonce) := by
    rw [standing_of_lookup h.position, h.unclaimed]
  have hkept : e.owner ∉ closedOwners trace := by
    intro ho
    rw [hinv.gone ho] at hstanding
    contradiction
  -- the owner is not on the list yet
  have hnew : e.owner ∉ claimedOwners trace := by
    rw [hinv.claimed, hstanding]
    simp [hkept]
  have hown := hinv.owner e.owner
  rw [hstanding] at hown
  refine .of_owners (fun o => ?_) ?_ ?_ fun hnot => ?_
  · rw [standing_insert hp]
    split
    next ho =>
      subst ho
      refine ⟨?_, ?_, ?_, fun hs => ?_⟩
      · simp [Entry.claimedOwner]
      · simpa [Entry.placedOwner, Entry.closedOwner] using hown.placed
      · simp [Entry.closedOwner, hkept]
      · rw [Option.some.injEq, Prod.mk.injEq] at hs
        have hn : p.nextLotNonce = _ := hs.2
        simpa [Entry.placedOwner, Entry.closedNonces, hn] using hown.nonces rfl
    next ho =>
      exact (hinv.owner o).quiet (by simp [Entry.placedOwner])
        (fun heq => ho (Option.some.inj heq).symm) (by simp [Entry.closedOwner]) rfl
  · rw [claimedOwners_snoc]
    exact List.nodup_append_comm.mp (List.nodup_cons.mpr ⟨hnew, hinv.once⟩)
  · rw [claimedOwners_snoc, List.length_append, ← hinv.count]
    exact h.count
  · rw [h.market] at hnot
    exact absurd hterminal.done hnot

theorem LotsClosed.closeInv {e : PositionLotsClosed} {lots' : Store (Pubkey × UInt64) PositionLot}
    (h : LotsClosed L e p p' lots') (hinv : CloseInv trace L) (hm : L'.market = L.market)
    (hp : L'.positions = L.positions.insert e.owner p') :
    CloseInv (trace ++ [.emitted clock (.positionLotsClosed e)]) L' := by
  have hflag : p'.claimed = true := by
    rw [h.holder]
    exact h.claimed
  have hstanding : L.standing e.owner = some (true, p.nextLotNonce) := by
    rw [standing_of_lookup h.position, h.claimed]
  have hbatch : e.nonces.map UInt64.toNat =
      descending p.nextLotNonce.toNat p'.nextLotNonce.toNat := by
    have hlen : p.nextLotNonce.toNat - p'.nextLotNonce.toNat = e.nonces.length := by
      have hcount := h.count
      omega
    unfold descending
    rw [h.nonces, hlen]
  have hown := hinv.owner e.owner
  rw [hstanding] at hown
  refine .of_owners (fun o => ?_) ?_ ?_ fun hnot => ?_
  · rw [standing_insert hp]
    split
    next ho =>
      subst ho
      refine ⟨?_, ?_, ?_, fun hs => ?_⟩
      · simpa [Entry.claimedOwner, Entry.closedOwner, hflag] using hown.claimed
      · simpa [Entry.placedOwner, Entry.closedOwner] using hown.placed
      · simpa [Entry.closedOwner] using hown.gone
      · rw [Option.some.injEq, Prod.mk.injEq] at hs
        obtain ⟨_, rfl⟩ := hs
        obtain ⟨hle, hlist⟩ := hown.nonces rfl
        have hcount := h.count
        simp only [placedOwners_snoc, closedNonces_snoc, Entry.placedOwner, Entry.closedNonces,
          if_true, Option.toList_none, List.append_nil, hlist, hbatch]
        exact ⟨by omega, descending_append hle (by omega)⟩
    next ho =>
      exact (hinv.owner o).quiet (by simp [Entry.placedOwner]) (by simp [Entry.claimedOwner])
        (by simp [Entry.closedOwner]) (if_neg (Ne.symm ho))
  · simpa [Entry.claimedOwner] using hinv.once
  · rw [hm]
    simpa [Entry.claimedOwner] using hinv.count
  · rw [hm] at hnot
    exact absurd h.terminal.done hnot

theorem CloseInv.close {e : PositionClosed} (hinv : CloseInv trace L) (hdone : L'.market.state.Done)
    (hlookup : L.positions.lookup e.owner = some p) (hclaimed : p.claimed = true)
    (hcount : L'.market.claimedPositionCount = L.market.claimedPositionCount)
    (hp : L'.positions = L.positions.erase e.owner) :
    CloseInv (trace ++ [.emitted clock (.positionClosed e)]) L' := by
  have hstanding : L.standing e.owner = some (true, p.nextLotNonce) := by
    rw [standing_of_lookup hlookup, hclaimed]
  have hown := hinv.owner e.owner
  rw [hstanding] at hown
  refine .of_owners (fun o => ?_) ?_ ?_ fun hnot => absurd hdone hnot
  · rw [standing_erase hp]
    split
    next ho =>
      subst ho
      refine ⟨?_, ?_, fun _ => rfl, nofun⟩
      · simpa [Entry.claimedOwner, Entry.closedOwner] using hown.claimed
      · simpa [Entry.placedOwner, Entry.closedOwner] using hown.placed
    next ho =>
      exact (hinv.owner o).quiet (by simp [Entry.placedOwner]) (by simp [Entry.claimedOwner])
        (fun heq => ho (Option.some.inj heq).symm) rfl
  · simpa [Entry.claimedOwner] using hinv.once
  · rw [hcount]
    simpa [Entry.claimedOwner] using hinv.count

/-! ## along a run -/

theorem Moved.standing {n : UInt64} {lot : PositionLot} {target : LotState} {m' : Market}
    (h : Moved L o n p lot target m' p') (hp : L'.positions = L.positions.insert o p')
    (o' : Pubkey) :
    L'.standing o' = L.standing o' := by
  rw [standing_insert hp]
  split
  · next ho =>
    rw [ho, standing_of_lookup h.position, h.booked.holder.claimed, h.next]
  · rfl

theorem Effect.closeInv {entry : Entry} (h : Effect rt L entry L') (hinv : L.Inv)
    (hclose : CloseInv trace L) :
    CloseInv (trace ++ [entry]) L' := by
  cases h with
  | froze opens =>
      have hlive : L.market.state.Live := .inl opens
      exact hclose.quiet rfl rfl rfl (fun _ => rfl) (fun _ => rfl) rfl fun _ => hlive.not_done
  | unfroze frozen =>
      have hlive : L.market.state.Live := .inr frozen
      exact hclose.quiet rfl rfl rfl (fun _ => rfl) (fun _ => rfl) rfl fun _ => hlive.not_done
  | placed h => exact h.closeInv hinv.wellFormed hclose rfl
  | activated h =>
      exact hclose.quiet rfl rfl rfl (fun _ => rfl) (h.standing rfl)
        h.booked.terms.claimedPositionCount fun _ => h.live.not_done
  | invalidated h =>
      exact hclose.quiet rfl rfl rfl (fun _ => rfl) (h.standing rfl)
        h.booked.terms.claimedPositionCount fun _ => h.live.not_done
  | began begins emits =>
      have hlive := (beginSettlement_ok_iff.mp begins).2.1
      have hcount := beginSettlement_claimedPositionCount begins
      obtain ⟨e, rfl⟩ | ⟨e, rfl⟩ := emits
      · exact hclose.quiet rfl rfl rfl (fun _ => rfl) (fun _ => rfl) hcount
          fun _ => hlive.not_done
      · exact hclose.quiet rfl rfl rfl (fun _ => rfl) (fun _ => rfl) hcount
          fun _ => hlive.not_done
  | @entitled clock event o p p' m' winner position h emits =>
      have hnot : ¬ L.market.state.Done := by simp [MarketState.Done, h.settling]
      have hcount := congrArg Market.claimedPositionCount h.market
      have hstanding : ∀ o', Ledger.standing
          { L with market := m', positions := L.positions.insert o p' } o' = L.standing o' := by
        intro o'
        rw [standing_insert (L := L) rfl]
        split
        · next ho =>
          rw [ho, standing_of_lookup position, h.position]
        · rfl
      obtain ⟨e, rfl⟩ | ⟨e, rfl⟩ := emits
      · exact hclose.quiet rfl rfl rfl (fun _ => rfl) hstanding hcount fun _ => hnot
      · exact hclose.quiet rfl rfl rfl (fun _ => rfl) hstanding hcount fun _ => hnot
  | voided voids =>
      obtain ⟨hlive, rfl⟩ := transitionToVoid_ok_iff.mp voids
      exact hclose.quiet rfl rfl rfl (fun _ => rfl) (fun _ => rfl) rfl fun _ => hlive.not_done
  | claimed h => exact h.closeInv hclose rfl
  | lotsClosed h => exact h.closeInv hclose rfl rfl
  | positionClosed terminal position claimed =>
      exact hclose.close terminal.done position claimed rfl rfl
  | closed =>
      exact hclose.quiet rfl rfl rfl (fun _ => rfl) (fun _ => rfl) rfl
        fun hnot => absurd (.inr (.inr rfl)) hnot
  | received => exact hclose.quiet rfl rfl rfl (fun _ => rfl) (fun _ => rfl) rfl fun hnot => hnot

theorem Fresh.closeInv (h : Fresh rt L) : CloseInv [] L := by
  have hnone : ∀ o, L.standing o = none := by
    intro o
    simp [Ledger.standing, h.positions]
  refine ⟨List.nodup_nil, ?_, ?_, ?_, ?_, ?_, fun _ => ⟨rfl, fun _ => rfl⟩⟩
  · rw [h.claimedPositionCount]
    rfl
  · intro o
    simp [hnone, claimedOwners, closedOwners]
  · intro o
    simp [hnone, placedOwners, closedOwners]
  · intro o _
    exact hnone o
  · intro o c n hs
    rw [hnone] at hs
    contradiction

variable {opening : Ledger}

section

variable (h : Life rt opening trace L)

include h

theorem closeInv_of_life : CloseInv trace L := by
  have hfresh := fresh_of_opened h.opened
  have hboth := h.run.invariant_trace (I := fun trace L => L.Inv ∧ CloseInv trace L)
    (fun hs hi => ⟨(effect_of_step hs).inv hi.1, (effect_of_step hs).closeInv hi.1 hi.2⟩)
    ⟨hfresh.inv, hfresh.closeInv⟩
  exact hboth.2

/-! ## exactly once, and nothing left -/

/-- A successful claim is for an owner who has not been paid. -/
theorem unclaimed_of_processClaim {event : Event}
    {accounts : ClaimPositionAccounts} (hclaim : processClaim rt L accounts = .ok (L', event)) :
    accounts.owner.key ∉ claimedOwners trace ∧
      ∃ e, event = .positionClaimed e ∧ e.owner = accounts.owner.key := by
  obtain ⟨e, p, m', vault', hevent, howner, hclaimed, _⟩ := processClaim_ok hclaim
  refine ⟨?_, e, hevent, howner⟩
  have hinv := closeInv_of_life h
  have hstanding : L.standing e.owner = some (false, p.nextLotNonce) := by
    rw [standing_of_lookup hclaimed.position, hclaimed.unclaimed]
  rw [← howner, hinv.claimed, hstanding]
  rintro (⟨n, hn⟩ | hgone)
  · simp at hn
  · rw [hinv.gone hgone] at hstanding
    contradiction

/-- A position closes claimed, and after all its lots from the newest down. -/
theorem claimed_of_closePosition {event : Event}
    {accounts : ClosePositionAccounts} {owner : Pubkey}
    (hclose : closePosition rt L accounts owner = .ok (L', event)) :
    owner ∈ claimedOwners trace ∧ (∀ n, L.lots.lookup (owner, n) = none) ∧
      closedNonces owner trace = descending ((placedOwners trace).count owner) 0 := by
  obtain ⟨_, p, _, _, _, _, hposition, hclaimed, hnonce, _⟩ := closePosition_ok hclose
  have hinv := closeInv_of_life h
  have hw := (ledgerInv_of_life h).wellFormed
  have hstanding : L.standing owner = some (true, 0) := by
    rw [standing_of_lookup hposition, hclaimed, hnonce]
  refine ⟨(hinv.claimed owner).mpr (.inl ⟨0, hstanding⟩), ?_, (hinv.nonces hstanding).2⟩
  intro n
  cases hlot : L.lots.lookup (owner, n) with
  | none => rfl
  | some lot =>
      obtain ⟨q, hq, _, hn⟩ := hw.lotOwner hlot
      obtain rfl := Option.some.inj (hposition.symm.trans hq)
      rw [hnonce] at hn
      exact absurd hn (Nat.not_lt_zero _)

/-- A market that may close has no position left. -/
theorem standing_of_closeMarket (hterminal : L.market.state.Terminal)
    (hclosed : L.market.settlementProcessedPositionCount = 0) (o : Pubkey) :
    L.standing o = none := by
  have haccounts := ((payoutInv_of_life h).terminal hterminal).accounts
  rw [hclosed] at haccounts
  have hnone := Store.lookup_of_size_zero haccounts.symm o
  simp [Ledger.standing, hnone]

end

/-- A SOL vault starts out with its rent reserve and nothing else. -/
theorem principal_of_opened (h : Opened rt L)
    (hasset : L.market.asset = .sol) : L.principal rt = 0 := by
  obtain ⟨clock, accounts, args, event, h⟩ := h
  unfold initializeMarket at h
  simp only [bind_ok_iff, Prod.exists, pure_ok_iff, Prod.mk.injEq] at h
  obtain ⟨_, _, _, _, _, _, _, _, _, _, _, _, _, _, hash, _, _, _, vaultKey, bump, vault, hvault,
    rfl, rfl⟩ := h
  have hsol : args.asset = .sol := hasset
  unfold initializeVault at hvault
  simp only [hsol, initializeSolVault, bind_ok_iff, pure_ok_iff, Prod.mk.injEq] at hvault
  obtain ⟨_, _, _, _, _, _, _, _, _, _, _, _, _, _, rfl⟩ := hvault
  unfold Ledger.principal
  rw [hasset]
  exact Nat.sub_self _

/-- **Every position is claimed at most once, and nothing is stranded.**  The
counters of a terminal market count claims and open accounts; nobody is paid
twice; a position closes only claimed and after all its lots, newest first; and
when the market closes, everyone who ever placed has been paid and closed, so
the dust is what came in less what was claimed. -/
theorem exactly_once_then_closed {rt : Runtime} {opening L : Ledger} {trace : List Entry}
    (h : Life rt opening trace L) :
    (L.market.state.Terminal →
      L.market.claimedPositionCount.toNat = (claimedOwners trace).length ∧
      L.market.settlementProcessedPositionCount.toNat = L.positions.size) ∧
    (claimedOwners trace).Nodup ∧
    (∀ clock payer accounts L' event,
      (execute rt clock L (.claimPosition accounts) = .ok (L', event) ∨
        execute rt clock L (.claimPositionFor payer accounts) = .ok (L', event)) →
      accounts.owner.key ∉ claimedOwners trace ∧
      ∃ e, event = .positionClaimed e ∧ e.owner = accounts.owner.key) ∧
    (∀ clock accounts owner L' event,
      execute rt clock L (.closePosition accounts owner) = .ok (L', event) →
      owner ∈ claimedOwners trace ∧ (∀ n, L.lots.lookup (owner, n) = none) ∧
      closedNonces owner trace = descending ((placedOwners trace).count owner) 0) ∧
    (∀ clock accounts L' event, execute rt clock L (.closeMarket accounts) = .ok (L', event) →
      (∀ o ∈ placedOwners trace, o ∈ claimedOwners trace ∧ o ∈ closedOwners trace) ∧
      ∃ e, event = .marketClosed e ∧
        e.dustAmount.toNat + claims trace = opening.principal rt + deposits trace + gifts trace) ∧
    (opening.market.asset = .sol → opening.principal rt = 0) := by
  have hinv := closeInv_of_life h
  refine ⟨?_, hinv.once, ?_, ?_, ?_, principal_of_opened h.opened⟩
  · intro hterminal
    exact ⟨hinv.count, ((payoutInv_of_life h).terminal hterminal).accounts⟩
  · intro clock payer accounts L' event hclaim
    rcases hclaim with hclaim | hclaim
    · exact unclaimed_of_processClaim h hclaim
    · exact unclaimed_of_processClaim h hclaim
  · intro clock accounts owner L' event hclose
    exact claimed_of_closePosition h hclose
  · intro clock accounts L' event hclose
    obtain ⟨e, hevent, hterminal, _, hclosed, hdust, _⟩ := closeMarket_ok hclose
    have hnone := standing_of_closeMarket h hterminal hclosed
    refine ⟨?_, e, hevent, ?_⟩
    · intro o ho
      have hgone : o ∈ closedOwners trace := by simpa [hinv.placed, hnone] using ho
      exact ⟨(hinv.claimed o).mpr (.inr hgone), hgone⟩
    · have hfunds := (funded_of_life h).funds hterminal.ne_closed
      omega

/-- The sample closes with both owners paid, and sweeps the stray transfer. -/
theorem exactly_once_then_closed_sample :
    ∃ opening trace L, Life Sample.runtime opening trace L ∧ L.market.state = .settled ∧
      placedOwners trace = [Sample.backer, Sample.doubter] ∧
      (claimedOwners trace).length = 2 ∧ Sample.backer ∈ closedOwners trace ∧
      ∃ L' e, execute Sample.runtime (Sample.clock 10400) L (.closeMarket Sample.closeAccounts) =
          .ok (L', .marketClosed e) ∧
        e.dustAmount.toNat + claims trace =
          opening.principal Sample.runtime + deposits trace + gifts trace := by
  obtain ⟨opening, trace, L, hlife, hstate, hplaced, hcount, hcloses⟩ := Sample.exists_life
    (P := fun trace L => L.market.state = .settled ∧
      placedOwners trace = [Sample.backer, Sample.doubter] ∧
      L.market.claimedPositionCount.toNat = 2 ∧
      (execute Sample.runtime (Sample.clock 10400) L
        (.closeMarket Sample.closeAccounts)).toBool) 14 (by decide +kernel)
  obtain ⟨hcounters, _, _, _, hclose, _⟩ := exactly_once_then_closed hlife
  have hclaimed := (hcounters (.inl hstate)).1
  rw [hcount] at hclaimed
  cases hexecute : execute Sample.runtime (Sample.clock 10400) L
      (.closeMarket Sample.closeAccounts) with
  | error e =>
      rw [hexecute] at hcloses
      contradiction
  | ok r =>
      obtain ⟨hall, e, hevent, hdust⟩ := hclose _ _ r.1 r.2 hexecute
      have hbacker := (hall Sample.backer (by simp [hplaced])).2
      obtain ⟨L', event⟩ := r
      have hevent : event = .marketClosed e := hevent
      subst hevent
      exact ⟨opening, trace, L, hlife, hstate, hplaced, hclaimed.symm, hbacker, L', e, hexecute,
        hdust⟩

end CalledIt.Escrow
