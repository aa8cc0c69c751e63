import CalledIt.Lib.Texts
import CalledIt.Wager.DepositScan

/-!
# CalledIt.Wager.Transfers

The transfers to the treasury that are on the chain.

`IsTransfer` says which instruction of which transaction a transfer is; the scan of a
transaction finds exactly those (`mem_extractTransfers`).  A signature and an index name
at most one transfer, of either asset (`IsTransfer.unique`), and so does its key in the
ledger (`ledgerKey_inj`).
-/

namespace CalledIt.Wager

open Lib

namespace TreasuryChain

variable (chain : TreasuryChain)

/-- The transfer is an instruction of its transaction. -/
structure IsTransfer (x : IncomingTransfer) : Prop where
  succeeded : (chain.transaction x.sig).failed = false
  instruction : ∃ ix, (chain.transaction x.sig).instructions[x.ixIndex]? = some ix ∧
    readTransfer chain.addresses x.asset ix = .found x.sender x.lamports
  slot : x.slot = (chain.transaction x.sig).slot
  mint : x.mintPubkey = mintOf chain.addresses x.asset

/-- What the scan finds under a signature. -/
def extract (asset : WagerAsset) (sig : String) : Option (List IncomingTransfer) :=
  extractTransfers chain.addresses asset sig (chain.transaction sig)

end TreasuryChain

/-! ## one transaction -/

theorem mem_mapM_option {α β : Type} {f : α → Option β} {xs : List α} {ys : List β}
    (h : xs.mapM f = some ys) {y : β} : y ∈ ys ↔ ∃ x ∈ xs, f x = some y := by
  induction xs generalizing ys with
  | nil =>
      obtain rfl := Option.some.inj h
      simp
  | cons x xs ih =>
      rw [List.mapM_cons] at h
      obtain ⟨first, hfirst, h⟩ := Option.bind_eq_some_iff.mp h
      obtain ⟨rest, hrest, h⟩ := Option.bind_eq_some_iff.mp h
      obtain rfl := Option.some.inj h
      simp only [List.mem_cons, ih hrest, exists_eq_or_imp, hfirst, Option.some.injEq]
      exact or_congr_left eq_comm

theorem mem_extractTransfers {chain : TreasuryChain} {asset : WagerAsset} {sig : String}
    {xs : List IncomingTransfer} (h : chain.extract asset sig = some xs) {x : IncomingTransfer} :
    x ∈ xs ↔ chain.IsTransfer x ∧ x.sig = sig ∧ x.asset = asset := by
  unfold TreasuryChain.extract extractTransfers at h
  split at h
  · next hfailed =>
      obtain rfl := Option.some.inj h
      refine iff_of_false List.not_mem_nil fun ⟨htransfer, hsig, _⟩ => ?_
      subst hsig
      rw [htransfer.succeeded] at hfailed
      cases hfailed
  · next hsucceeded =>
      obtain ⟨parts, hparts, rfl⟩ := Option.map_eq_some_iff.mp h
      simp only [List.mem_flatten, mem_mapM_option hparts, List.mem_zipIdx_iff_getElem?]
      constructor
      · rintro ⟨found, ⟨⟨ix, i⟩, hix, hfound⟩, hx⟩
        unfold readInstruction at hfound
        cases hread : readTransfer chain.addresses asset ix with
        | ignored =>
            simp only [hread, Option.some.injEq] at hfound
            simp [← hfound] at hx
        | unreadable => simp [hread] at hfound
        | found sender lamports =>
            simp only [hread, Option.some.injEq] at hfound
            subst hfound
            obtain rfl := List.mem_singleton.mp hx
            exact ⟨⟨Bool.eq_false_iff.mpr hsucceeded, ⟨ix, hix, hread⟩, rfl, rfl⟩, rfl, rfl⟩
      · rintro ⟨⟨-, ⟨ix, hix, hread⟩, hslot, hmint⟩, rfl, rfl⟩
        refine ⟨[x], ⟨(ix, x.ixIndex), hix, ?_⟩, List.mem_singleton.mpr rfl⟩
        simp only [readInstruction, hread, incomingTransfer, ← hslot, ← hmint]

/-! ## names of transfers -/

theorem readTransfer_program {addresses : TreasuryAddresses} {asset : WagerAsset}
    {ix : ParsedInstruction} {sender : String} {lamports : Nat}
    (h : readTransfer addresses asset ix = .found sender lamports) :
    ix.program = match asset with
      | .sol => "system"
      | .usdc => "spl-token" := by
  cases asset with
  | sol =>
      by_contra hother
      have hignored : readTransfer addresses .sol ix = .ignored := if_pos (.inl hother)
      rw [hignored] at h
      cases h
  | usdc =>
      by_contra hother
      have hignored : readTransfer addresses .usdc ix = .ignored := if_pos (.inl hother)
      rw [hignored] at h
      cases h

namespace TreasuryChain

/-- An instruction is a transfer of one asset at most. -/
theorem IsTransfer.unique {chain : TreasuryChain} {x y : IncomingTransfer}
    (hx : chain.IsTransfer x) (hy : chain.IsTransfer y) (hsig : x.sig = y.sig)
    (hindex : x.ixIndex = y.ixIndex) : x = y := by
  obtain ⟨-, ⟨ix, hix, hreadx⟩, hslotx, hmintx⟩ := hx
  obtain ⟨-, ⟨iy, hiy, hready⟩, hsloty, hminty⟩ := hy
  obtain ⟨sig, ixIndex, sender, lamports, slot, asset, mintPubkey⟩ := x
  obtain ⟨sig', ixIndex', sender', lamports', slot', asset', mintPubkey'⟩ := y
  simp only at hsig hindex hix hiy hreadx hready hslotx hsloty hmintx hminty
  subst hsig hindex
  obtain rfl : ix = iy := Option.some.inj (hix.symm.trans hiy)
  obtain rfl : asset = asset' := by
    have hprogram := (readTransfer_program hreadx).symm.trans (readTransfer_program hready)
    cases asset <;> cases asset' <;> simp_all
  rw [hreadx] at hready
  obtain ⟨rfl, rfl⟩ := TransferReading.found.inj hready
  rw [hslotx, hsloty, hmintx, hminty]

end TreasuryChain

/-- The index is what follows the last colon. -/
theorem ledgerKey_inj {x y : IncomingTransfer} (h : x.ledgerKey = y.ledgerKey) :
    x.sig = y.sig ∧ x.ixIndex = y.ixIndex := by
  have hdigits : ∀ n : Nat, ':' ∉ Nat.toDigits 10 n := fun n hmem =>
    absurd (mem_toDigits_isDigit hmem) (by decide)
  have htext := congrArg String.toList (LedgerKey.other.inj h)
  have hchars : ∀ z : IncomingTransfer,
      ("wager:deposit:" ++ z.sig ++ ":" ++ toString z.ixIndex).toList =
        ("wager:deposit:".toList ++ z.sig.toList) ++ ':' :: Nat.toDigits 10 z.ixIndex := by
    intro z
    simp
  rw [hchars, hchars] at htext
  obtain ⟨hsig, hindex⟩ := split_last_inj htext (hdigits _) (hdigits _)
  exact ⟨String.toList_inj.mp (List.append_cancel_left hsig), toDigits_inj hindex⟩

end CalledIt.Wager
