import CalledIt.Escrow.Settlement

/-!
# CalledIt.Escrow.Claims

Paying out positions and closing accounts (`instructions/claims.rs`).

A terminal market pays each position once, then its lots are closed in
descending nonce order, then the position, and at last the market with its
vault.
-/

namespace CalledIt.Escrow

open Lib

structure ClaimPositionAccounts where
  owner : AccountInfo
  /-- The address supplied as the vault. -/
  vault : Pubkey
  tokenMint : AccountInfo
  ownerTokenAccount : AccountInfo

/-- A lot account passed among the remaining accounts. -/
structure LotAccountInfo where
  key : Pubkey
  owner : Pubkey
  isWritable : Bool
  lamports : UInt64

structure ClosePositionLotsArgs where
  nonces : List UInt64

structure ClosePositionLotsAccounts where
  config : ProtocolConfig
  rentRecipient : AccountInfo
  remaining : List LotAccountInfo

structure ClosePositionAccounts where
  config : ProtocolConfig
  rentRecipient : Pubkey

structure CloseMarketAccounts where
  /-- The address supplied as the vault. -/
  vault : Pubkey
  residualRecipient : AccountInfo
  tokenMint : AccountInfo
  residualTokenAccount : AccountInfo

/-! ## amounts -/

/-- `map_math_error` of the claim instructions. -/
def mapClaimMathError : MathError → ProgramError
  | .overflow => EscrowError.arithmeticOverflow
  | _ => EscrowError.accountingInvariant

/-- The side a settled market pays. -/
def claimWinningSide (outcome : SettlementOutcome) : Result PositionSide :=
  match outcome with
  | .claimWon => .ok .back
  | .claimLost => .ok .doubt
  | .unresolved | .void => .error EscrowError.accountingInvariant

def settledClaimAmount (market : Market) (position : UserPosition) : Result UInt64 := do
  let winner ← claimWinningSide market.settlementOutcome
  if position.side ≠ winner then
    return position.settlementBaseEntitlement
  else
    let totalWinning := if winner = .back then market.activeBackTotal else market.activeDoubtTotal
    let winnings ← (winnerWinnings position.activeAmount market.finalForfeitedTotal
      totalWinning).mapError mapClaimMathError
    okOr (checkedAdd position.settlementBaseEntitlement winnings) EscrowError.arithmeticOverflow

/-- What the market's state entitles a position to. -/
def claimAmount (market : Market) (position : UserPosition) : Result UInt64 :=
  match market.state with
  | .settled => do
      require position.settlementProcessed EscrowError.entitlementNotCalculated
      settledClaimAmount market position
  | .voided => .ok position.totalPaidAmount
  | .settling => .error EscrowError.settlementInProgress
  | .opening | .open | .frozen | .closed => .error EscrowError.positionNotClaimable

def prepareClaim (market : Market) (position : UserPosition) :
    Result (Market × UserPosition × UInt64) := do
  require (¬ position.claimed) EscrowError.alreadyClaimed
  validatePositionPrincipal position
  let amount ← claimAmount market position
  require (market.claimedPositionCount < market.positionCount) EscrowError.accountingInvariant
  let claimedPositionCount ← okOr (checkedAdd market.claimedPositionCount 1)
    EscrowError.arithmeticOverflow
  return ({ market with claimedPositionCount }, { position with claimed := true }, amount)

def claimDestination (asset : Asset) (owner ownerTokenAccount : Pubkey) : Pubkey :=
  match asset with
  | .sol => owner
  | .usdc => ownerTokenAccount

/-! ## transfers -/

/-- The balances of source and destination after a direct lamport move. -/
def moveLamports (source destination amount : UInt64) : Result (UInt64 × UInt64) := do
  let destinationBalance ← okOr (checkedAdd destination amount) EscrowError.arithmeticOverflow
  let sourceBalance ← okOr (checkedSub source amount) EscrowError.vaultUnderfunded
  return (sourceBalance, destinationBalance)

/-- Empty a program account; the destination's new balance. -/
def closeProgramAccount (sourceKey : Pubkey) (sourceLamports : UInt64)
    (destination : AccountInfo) : Result UInt64 := do
  require (sourceKey ≠ destination.key) EscrowError.accountingInvariant
  let (_, balance) ← moveLamports sourceLamports destination.lamports sourceLamports
  return balance

/-- The vault after the payment. -/
def transferSolClaim (rt : Runtime) (market : Market) (marketKey : Pubkey) (vault : AccountInfo)
    (accounts : ClaimPositionAccounts) (amount : UInt64) : Result AccountInfo := do
  require (market.tokenMint = defaultPubkey) EscrowError.invalidMint
  require (accounts.tokenMint.key = defaultPubkey) EscrowError.invalidMint
  require (accounts.ownerTokenAccount.key = accounts.owner.key) EscrowError.invalidClaimDestination
  let (expectedVault, bump) := rt.solVaultAddress marketKey
  require (accounts.vault = expectedVault) EscrowError.invalidVault
  require (bump = market.vaultBump) EscrowError.invalidVault
  require (vault.owner = programId) EscrowError.invalidVaultOwner
  require vault.dataIsEmpty EscrowError.invalidVaultOwner
  let principal ← okOr (checkedSub vault.lamports rt.rentReserve)
    EscrowError.invalidVaultRentReserve
  require (principal ≥ amount) EscrowError.vaultUnderfunded
  let (lamports, _) ← moveLamports vault.lamports accounts.owner.lamports amount
  return { vault with lamports }

/-- Checks of the token accounts; returns the mint for the later transfer. -/
def validateClaimTokenAccounts (rt : Runtime) (market : Market) (marketKey : Pubkey)
    (vault : AccountInfo) (accounts : ClaimPositionAccounts) : Result Mint := do
  require (market.tokenMint = accounts.tokenMint.key) EscrowError.invalidMint
  require (accounts.tokenMint.owner = splTokenId) EscrowError.invalidTokenProgram
  let mint ← okOr accounts.tokenMint.unpackMint EscrowError.invalidMint
  validateUsdcMint mint
  require (accounts.vault = rt.usdcVaultAddress marketKey market.tokenMint)
    EscrowError.invalidVault
  require (vault.owner = splTokenId) EscrowError.invalidTokenProgram
  let source ← okOr vault.unpackToken EscrowError.invalidTokenAccount
  require (source.owner = marketKey) EscrowError.invalidVaultOwner
  require (source.mint = market.tokenMint) EscrowError.invalidMint
  -- the source makes this check twice in a row
  require (source.state = .initialized) EscrowError.invalidTokenAccount
  require (source.state = .initialized) EscrowError.invalidTokenAccount
  require (accounts.ownerTokenAccount.key =
      rt.associatedTokenAddress accounts.owner.key market.tokenMint splTokenId)
    EscrowError.invalidClaimDestination
  return mint

def transferUsdcClaim (rt : Runtime) (market : Market) (marketKey : Pubkey) (vault : AccountInfo)
    (accounts : ClaimPositionAccounts) (amount : UInt64) : Result AccountInfo := do
  let mint ← validateClaimTokenAccounts rt market marketKey vault accounts
  let ownerTokenAccount ← createIdempotent accounts.ownerTokenAccount accounts.owner.key
    accounts.tokenMint.key
  let destination ← okOr ownerTokenAccount.unpackToken EscrowError.invalidTokenAccount
  require (destination.owner = accounts.owner.key) EscrowError.invalidClaimDestination
  require (destination.mint = market.tokenMint) EscrowError.invalidMint
  require (destination.state = .initialized) EscrowError.invalidTokenAccount
  let source ← okOr vault.unpackToken EscrowError.invalidTokenAccount
  require (source.amount ≥ amount) EscrowError.vaultUnderfunded
  let (source, _) ← transferChecked source destination accounts.tokenMint.key mint marketKey
    amount usdcDecimals
  return { vault with data := .token source }

def transferClaim (rt : Runtime) (market : Market) (marketKey : Pubkey) (vault : AccountInfo)
    (accounts : ClaimPositionAccounts) (amount : UInt64) : Result AccountInfo :=
  match market.asset with
  | .sol => transferSolClaim rt market marketKey vault accounts amount
  | .usdc => transferUsdcClaim rt market marketKey vault accounts amount

/-! ## claiming -/

/-- `process_claim`, after loading the position of the supplied owner. -/
def processClaim (rt : Runtime) (ledger : Ledger) (accounts : ClaimPositionAccounts) :
    Result (Ledger × Event) := do
  let market ← ledger.loadMarket
  let owner := accounts.owner.key
  let position ← okOr (ledger.positions.lookup owner) .accountNotInitialized
  require (position.market = ledger.marketKey) EscrowError.configMismatch
  require (position.owner = owner) EscrowError.invalidClaimDestination
  require (accounts.vault = market.vault) EscrowError.invalidVault
  let (market, position, amount) ← prepareClaim market position
  let destination := claimDestination market.asset owner accounts.ownerTokenAccount.key
  let vault ← transferClaim rt market ledger.marketKey ledger.vault accounts amount
  return (
    { ledger with market, positions := ledger.positions.insert owner position, vault },
    .positionClaimed
      { market := ledger.marketKey
        position := (rt.positionAddress ledger.marketKey owner).1
        owner := position.owner
        amount
        asset := market.asset
        destination })

/-- The owner claims and pays for the transaction. -/
def claimPosition (rt : Runtime) (ledger : Ledger) (accounts : ClaimPositionAccounts) :
    Result (Ledger × Event) := processClaim rt ledger accounts

/-- Anyone may claim on the owner's behalf; the payer receives nothing. -/
def claimPositionFor (rt : Runtime) (ledger : Ledger) (_payer : Pubkey)
    (accounts : ClaimPositionAccounts) : Result (Ledger × Event) := processClaim rt ledger accounts

/-! ## closing -/

def requireTerminalMarket (state : MarketState) : Result Unit :=
  require (state = .settled ∨ state = .voided) EscrowError.invalidMarketState

/-- Nonces must descend one by one from the position's next nonce. -/
def validateDescending (expected : UInt64) : List UInt64 → Result Unit
  | [] => .ok ()
  | nonce :: rest => do
      let expected ← okOr (checkedSub expected 1) EscrowError.lotCloseOrderMismatch
      require (nonce = expected) EscrowError.lotCloseOrderMismatch
      validateDescending expected rest

def validateLotCloseBatch (nextLotNonce : UInt64) (nonces : List UInt64) (accountCount : Nat) :
    Result Unit := do
  require (nonces ≠ [] ∧ nonces.length = accountCount) EscrowError.lotCloseOrderMismatch
  validateDescending nextLotNonce nonces

/-- Check one lot and pay its rent out; the recipient's new balance. -/
def closeOneLot (rt : Runtime) (ledger : Ledger) (position : UserPosition)
    (lots : Store (Pubkey × UInt64) PositionLot) (lotInfo : LotAccountInfo) (nonce : UInt64)
    (rentRecipient : AccountInfo) : Result UInt64 := do
  require (lotInfo.owner = programId) EscrowError.invalidLotState
  require lotInfo.isWritable EscrowError.invalidLotState
  let (expectedKey, expectedBump) := rt.lotAddress ledger.marketKey position.owner nonce
  require (lotInfo.key = expectedKey) EscrowError.lotNonceMismatch
  let lot ← okOr (lots.lookup (position.owner, nonce)) .accountNotInitialized
  require (lot.bump = expectedBump ∧ lot.market = ledger.marketKey ∧
    lot.owner = position.owner ∧ lot.nonce = nonce) EscrowError.lotNonceMismatch
  closeProgramAccount lotInfo.key lotInfo.lamports rentRecipient

/-- The loop of `close_position_lots`: the remaining lots and the position with
its lowered nonce. -/
def closeLots (rt : Runtime) (ledger : Ledger) : List (UInt64 × LotAccountInfo) →
    UserPosition → Store (Pubkey × UInt64) PositionLot → AccountInfo →
    Result (UserPosition × Store (Pubkey × UInt64) PositionLot)
  | [], position, lots, _ => .ok (position, lots)
  | (nonce, lotInfo) :: rest, position, lots, rentRecipient => do
      let expectedNonce ← okOr (checkedSub position.nextLotNonce 1)
        EscrowError.lotCloseOrderMismatch
      require (nonce = expectedNonce) EscrowError.lotCloseOrderMismatch
      let lamports ← closeOneLot rt ledger position lots lotInfo nonce rentRecipient
      closeLots rt ledger rest { position with nextLotNonce := expectedNonce }
        (lots.erase (position.owner, nonce)) { rentRecipient with lamports }

/-- `close_position_lots` on the position of `owner`. -/
def closePositionLots (rt : Runtime) (ledger : Ledger) (accounts : ClosePositionLotsAccounts)
    (owner : Pubkey) (args : ClosePositionLotsArgs) : Result (Ledger × Event) := do
  let market ← ledger.loadMarket
  let position ← ledger.loadPosition owner
  require (accounts.rentRecipient.key = accounts.config.relayerFeePayer)
    EscrowError.invalidRentRecipient
  requireTerminalMarket market.state
  require position.claimed EscrowError.positionNotClaimable
  validateLotCloseBatch position.nextLotNonce args.nonces accounts.remaining.length
  let (position, lots) ← closeLots rt ledger (args.nonces.zip accounts.remaining) position
    ledger.lots accounts.rentRecipient
  return (
    { ledger with positions := ledger.positions.insert owner position, lots },
    .positionLotsClosed
      { market := ledger.marketKey
        position := (rt.positionAddress ledger.marketKey owner).1
        owner := position.owner
        nonces := args.nonces
        rentRecipient := accounts.rentRecipient.key })

/-- `close_position` on the position of `owner`. -/
def closePosition (rt : Runtime) (ledger : Ledger) (accounts : ClosePositionAccounts)
    (owner : Pubkey) : Result (Ledger × Event) := do
  let market ← ledger.loadMarket
  let position ← ledger.loadPosition owner
  require (accounts.rentRecipient = accounts.config.relayerFeePayer)
    EscrowError.invalidRentRecipient
  requireTerminalMarket market.state
  require position.claimed EscrowError.positionNotClaimable
  require (position.nextLotNonce = 0) EscrowError.outstandingLots
  require (market.settlementProcessedPositionCount > 0) EscrowError.accountingInvariant
  let settlementProcessedPositionCount ← okOr
    (checkedSub market.settlementProcessedPositionCount 1) EscrowError.arithmeticOverflow
  return (
    { ledger with
      market := { market with settlementProcessedPositionCount }
      positions := ledger.positions.erase owner },
    .positionClosed
      { market := ledger.marketKey
        position := (rt.positionAddress ledger.marketKey owner).1
        owner := position.owner
        rentRecipient := accounts.rentRecipient })

def validateMarketClose (market : Market) : Result Unit := do
  requireTerminalMarket market.state
  require (market.claimedPositionCount = market.positionCount) EscrowError.outstandingClaims
  require (market.settlementProcessedPositionCount = 0) EscrowError.outstandingPositions

/-- The dust swept out of a SOL vault. -/
def closeSolVault (rt : Runtime) (ledger : Ledger) (accounts : CloseMarketAccounts) :
    Result UInt64 := do
  require (ledger.market.tokenMint = defaultPubkey) EscrowError.invalidMint
  require (accounts.tokenMint.key = defaultPubkey) EscrowError.invalidMint
  require (accounts.residualTokenAccount.key = accounts.residualRecipient.key)
    EscrowError.invalidResidualRecipient
  let (expectedVault, bump) := rt.solVaultAddress ledger.marketKey
  require (accounts.vault = expectedVault) EscrowError.invalidVault
  require (bump = ledger.market.vaultBump) EscrowError.invalidVault
  require (ledger.vault.owner = programId) EscrowError.invalidVaultOwner
  require ledger.vault.dataIsEmpty EscrowError.invalidVaultOwner
  let dust ← okOr (checkedSub ledger.vault.lamports rt.rentReserve)
    EscrowError.invalidVaultRentReserve
  let _ ← closeProgramAccount accounts.vault ledger.vault.lamports accounts.residualRecipient
  return dust

/-- The dust swept out of a USDC vault. -/
def closeUsdcVault (rt : Runtime) (ledger : Ledger) (accounts : CloseMarketAccounts) :
    Result UInt64 := do
  let market := ledger.market
  require (market.tokenMint = accounts.tokenMint.key) EscrowError.invalidMint
  require (accounts.tokenMint.owner = splTokenId) EscrowError.invalidTokenProgram
  let mint ← okOr accounts.tokenMint.unpackMint EscrowError.invalidMint
  validateUsdcMint mint
  require (accounts.vault = rt.usdcVaultAddress ledger.marketKey market.tokenMint)
    EscrowError.invalidVault
  require (ledger.vault.owner = splTokenId) EscrowError.invalidTokenProgram
  let source ← okOr ledger.vault.unpackToken EscrowError.invalidTokenAccount
  require (source.owner = ledger.marketKey) EscrowError.invalidVaultOwner
  require (source.mint = market.tokenMint) EscrowError.invalidMint
  require (accounts.residualTokenAccount.key =
      rt.associatedTokenAddress market.residualRecipient market.tokenMint splTokenId)
    EscrowError.invalidResidualRecipient
  require (accounts.residualTokenAccount.owner = splTokenId) EscrowError.invalidTokenProgram
  let destination ← okOr accounts.residualTokenAccount.unpackToken
    EscrowError.invalidTokenAccount
  require (destination.owner = market.residualRecipient) EscrowError.invalidResidualRecipient
  require (destination.mint = market.tokenMint) EscrowError.invalidMint
  require (destination.state = .initialized) EscrowError.invalidTokenAccount
  if source.amount > 0 then
    let _ ← transferChecked source destination accounts.tokenMint.key mint ledger.marketKey
      source.amount usdcDecimals
    return source.amount
  else
    return source.amount

def closeVault (rt : Runtime) (ledger : Ledger) (accounts : CloseMarketAccounts) :
    Result UInt64 :=
  match ledger.market.asset with
  | .sol => closeSolVault rt ledger accounts
  | .usdc => closeUsdcVault rt ledger accounts

def closeMarket (rt : Runtime) (ledger : Ledger) (accounts : CloseMarketAccounts) :
    Result (Ledger × Event) := do
  let market ← ledger.loadMarket
  require (accounts.residualRecipient.key = market.residualRecipient)
    EscrowError.invalidResidualRecipient
  validateMarketClose market
  require (accounts.vault = market.vault) EscrowError.invalidVault
  let dust ← closeVault rt ledger accounts
  return (
    { ledger with market := { market with state := .closed }, vault := ledger.vault.emptied },
    .marketClosed
      { market := ledger.marketKey
        dustAmount := dust
        asset := market.asset })

/-! ## what a claim pays -/

/-- A terminal market still holds funds to be paid out. -/
def MarketState.Terminal (state : MarketState) : Prop := state = .settled ∨ state = .voided

theorem claimWinningSide_ok_iff {outcome : SettlementOutcome} {winner : PositionSide} :
    claimWinningSide outcome = .ok winner ↔ winningSide outcome = .ok winner := by
  cases outcome <;> simp [claimWinningSide, winningSide]

/-- The floored share of a winning stake in the forfeited total. -/
def Market.winningsOf (m : Market) (winner : PositionSide) (p : UserPosition) : Nat :=
  if p.side = winner then
    share p.activeAmount.toNat m.finalForfeitedTotal.toNat (m.activeTotal winner).toNat
  else 0

variable {m : Market} {p : UserPosition} {amount : UInt64}

/-- A settled claim is the base entitlement plus the winnings, whenever that
fits. -/
theorem settledClaimAmount_ok_iff {winner : PositionSide}
    (hwinner : winningSide m.settlementOutcome = .ok winner) :
    settledClaimAmount m p = .ok amount ↔
      amount.toNat = p.settlementBaseEntitlement.toNat + m.winningsOf winner p := by
  have hclaim := claimWinningSide_ok_iff.mpr hwinner
  have htotal : (if winner = .back then m.activeBackTotal else m.activeDoubtTotal) =
      m.activeTotal winner := by
    cases winner <;> rfl
  unfold settledClaimAmount Market.winningsOf
  rw [hclaim, ok_bind, htotal]
  by_cases hside : p.side = winner
  · simp only [hside, ne_eq, not_true_eq_false, if_false, if_true, bind_ok_iff, mapError_ok_iff,
      winnerWinnings_ok_iff, okOr_ok_iff, checkedAdd_eq_some]
    constructor
    · rintro ⟨w, hw, ha⟩
      omega
    · intro ha
      have hlt := amount.toNat_lt
      have hw : (UInt64.ofNat (share p.activeAmount.toNat m.finalForfeitedTotal.toNat
          (m.activeTotal winner).toNat)).toNat = share p.activeAmount.toNat
          m.finalForfeitedTotal.toNat (m.activeTotal winner).toNat := by
        rw [UInt64.toNat_ofNat']
        exact Nat.mod_eq_of_lt (by omega)
      exact ⟨_, hw, by omega⟩
  · simp only [hside, ne_eq, not_false_eq_true, if_true, if_false, pure_ok_iff, Nat.add_zero]
    rw [eq_comm, UInt64.toNat_inj]

theorem prepareClaim_ok {m' : Market} {p' : UserPosition}
    (h : prepareClaim m p = .ok (m', p', amount)) :
    p.claimed = false ∧ p.Balanced ∧ claimAmount m p = .ok amount ∧
    m.claimedPositionCount.toNat < m.positionCount.toNat ∧
    m'.claimedPositionCount.toNat = m.claimedPositionCount.toNat + 1 ∧
    m' = { m with claimedPositionCount := m'.claimedPositionCount } ∧
    p' = { p with claimed := true } := by
  unfold prepareClaim at h
  simp only [bind_ok_iff, require_ok_iff, validatePositionPrincipal_ok_iff, okOr_ok_iff,
    checkedAdd_eq_some, pure_ok_iff, Prod.mk.injEq, UInt64.lt_iff_toNat_lt,
    Bool.not_eq_true] at h
  obtain ⟨_, hclaimed, _, hbalanced, a, ha, _, hlt, count, hcount, rfl, rfl, rfl⟩ := h
  exact ⟨hclaimed, hbalanced, ha, hlt, hcount.symm, rfl, rfl⟩

/-- Only a terminal market has an amount to claim. -/
theorem terminal_of_claimAmount (h : claimAmount m p = .ok amount) : m.state.Terminal := by
  unfold claimAmount at h
  unfold MarketState.Terminal
  cases hs : m.state <;> simp_all

/-! ## what leaves the vault -/

theorem unpackToken_eq_some {account : AccountInfo} {token : TokenAccount}
    (h : account.unpackToken = some token) : account.data = .token token := by
  unfold AccountInfo.unpackToken at h
  split at h
  · next t ht =>
    split at h
    · contradiction
    · rw [ht, Option.some.inj h]
  · contradiction

theorem transferChecked_ok {source destination source' destination' : TokenAccount}
    {mintKey authority : Pubkey} {mint : Mint} {decimals : UInt8}
    (h : transferChecked source destination mintKey mint authority amount decimals =
      .ok (source', destination')) :
    source'.amount.toNat + amount.toNat = source.amount.toNat ∧
    destination'.amount.toNat = destination.amount.toNat + amount.toNat := by
  unfold transferChecked at h
  simp only [bind_ok_iff, require_ok_iff, okOr_ok_iff, checkedSub_eq_some, checkedAdd_eq_some,
    pure_ok_iff, Prod.mk.injEq] at h
  obtain ⟨_, _, s, hs, _, _, _, _, d, hd, rfl, rfl⟩ := h
  exact ⟨hs, hd.symm⟩

variable {rt : Runtime} {key : Pubkey} {vault vault' : AccountInfo}
  {accounts : ClaimPositionAccounts}

theorem transferSolClaim_ok (h : transferSolClaim rt m key vault accounts amount = .ok vault') :
    vaultPrincipal rt .sol vault' + amount.toNat = vaultPrincipal rt .sol vault ∧
    rt.rentReserve.toNat ≤ vault'.lamports.toNat := by
  unfold transferSolClaim moveLamports at h
  simp only [bind_ok_iff, require_ok_iff, okOr_ok_iff, checkedSub_eq_some, checkedAdd_eq_some,
    Prod.exists, pure_ok_iff, Prod.mk.injEq, ge_iff_le, UInt64.le_iff_toNat_le] at h
  obtain ⟨_, _, _, _, _, _, _, _, _, _, _, _, _, _, principal, hprincipal, _, hle, src, dst,
    ⟨_, _, s, hs, rfl, rfl⟩, rfl⟩ := h
  constructor
  · change s.toNat - _ + _ = vault.lamports.toNat - _
    omega
  · change _ ≤ s.toNat
    omega

theorem transferUsdcClaim_ok (h : transferUsdcClaim rt m key vault accounts amount = .ok vault') :
    vaultPrincipal rt .usdc vault' + amount.toNat = vaultPrincipal rt .usdc vault := by
  unfold transferUsdcClaim at h
  simp only [bind_ok_iff, require_ok_iff, okOr_ok_iff, Prod.exists, pure_ok_iff] at h
  obtain ⟨mint, _, account, _, destination, _, _, _, _, _, _, _, source, hsource, _, _, source',
    destination', htransfer, rfl⟩ := h
  have hdata := unpackToken_eq_some hsource
  have hamount := (transferChecked_ok htransfer).1
  simpa only [vaultPrincipal, hdata] using hamount

/-- A claim takes exactly its amount out of the principal. -/
theorem transferClaim_ok (h : transferClaim rt m key vault accounts amount = .ok vault') :
    vaultPrincipal rt m.asset vault' + amount.toNat = vaultPrincipal rt m.asset vault ∧
    Reserved rt m.asset vault' := by
  unfold transferClaim at h
  cases hasset : m.asset with
  | sol =>
      simp only [hasset] at h
      obtain ⟨hp, hr⟩ := transferSolClaim_ok h
      exact ⟨hp, fun _ => hr⟩
  | usdc =>
      simp only [hasset] at h
      exact ⟨transferUsdcClaim_ok h, fun hsol => by contradiction⟩

/-- The dust swept at the end is the whole principal. -/
theorem closeVault_ok {ledger : Ledger} {accounts : CloseMarketAccounts} {dust : UInt64}
    (h : closeVault rt ledger accounts = .ok dust) :
    dust.toNat = ledger.principal rt := by
  unfold closeVault at h
  unfold Ledger.principal vaultPrincipal
  cases hasset : ledger.market.asset with
  | sol =>
      simp only [hasset, closeSolVault, bind_ok_iff, okOr_ok_iff, checkedSub_eq_some,
        pure_ok_iff] at h
      obtain ⟨_, _, _, _, _, _, _, _, _, _, _, _, _, _, d, hd, _, _, rfl⟩ := h
      change d.toNat = ledger.vault.lamports.toNat - _
      omega
  | usdc =>
      simp only [hasset, closeUsdcVault, bind_ok_iff, okOr_ok_iff] at h
      obtain ⟨_, _, _, _, _, _, _, _, _, _, _, _, source, hsource, _, _, _, _, _, _, _, _, _, _, _,
        _, _, _, _, _, h⟩ := h
      have hdata := unpackToken_eq_some hsource
      have hdust : dust = source.amount := by
        split at h
        · obtain ⟨_, _, h⟩ := bind_ok_iff.mp h
          exact (pure_ok_iff.mp h).symm
        · exact (pure_ok_iff.mp h).symm
      rw [hdust]
      simp only [hdata]

/-! ## what closing lots does -/

/-- Closing walks the nonces down one by one and erases each lot. -/
theorem closeLots_ok {ledger : Ledger} {batch : List (UInt64 × LotAccountInfo)} {p' : UserPosition}
    {lots lots' : Store (Pubkey × UInt64) PositionLot} {rentRecipient : AccountInfo}
    (h : closeLots rt ledger batch p lots rentRecipient = .ok (p', lots')) :
    p' = { p with nextLotNonce := p'.nextLotNonce } ∧
    p'.nextLotNonce.toNat + batch.length = p.nextLotNonce.toNat ∧
    (batch.map fun b => b.1.toNat) =
      ((List.range batch.length).map fun i => p.nextLotNonce.toNat - 1 - i) ∧
    (∀ k, lots'.lookup k = if k.1 = p.owner ∧ p'.nextLotNonce ≤ k.2 ∧ k.2 < p.nextLotNonce
      then none else lots.lookup k) := by
  induction batch generalizing p lots rentRecipient with
  | nil =>
      simp only [closeLots, Except.ok.injEq, Prod.mk.injEq] at h
      obtain ⟨rfl, rfl⟩ := h
      refine ⟨rfl, rfl, rfl, fun k => ?_⟩
      rw [if_neg]
      rintro ⟨_, h1, h2⟩
      rw [UInt64.le_iff_toNat_le] at h1
      rw [UInt64.lt_iff_toNat_lt] at h2
      omega
  | cons b batch ih =>
      obtain ⟨nonce, info⟩ := b
      simp only [closeLots, bind_ok_iff, okOr_ok_iff, checkedSub_eq_some, require_ok_iff] at h
      obtain ⟨next, hnext, _, rfl, lamports, _, hrest⟩ := h
      have hone : (1 : UInt64).toNat = 1 := rfl
      rw [hone] at hnext
      obtain ⟨hframe, hcount, hnonces, hlots⟩ := ih hrest
      change p'.nextLotNonce.toNat + batch.length = nonce.toNat at hcount
      refine ⟨?_, ?_, ?_, ?_⟩
      · rw [hframe]
      · rw [List.length_cons]
        omega
      · rw [List.map_cons, hnonces, List.length_cons, List.range_succ_eq_map, List.map_cons,
          List.map_map]
        change nonce.toNat :: _ = _
        congr 1
        · omega
        · apply List.map_congr_left
          intro i _
          change nonce.toNat - 1 - i = p.nextLotNonce.toNat - 1 - (i + 1)
          omega
      · intro k
        rw [hlots k]
        change (if k.1 = p.owner ∧ p'.nextLotNonce ≤ k.2 ∧ k.2 < nonce then none
          else (lots.erase (p.owner, nonce)).lookup k) = _
        simp only [UInt64.le_iff_toNat_le, UInt64.lt_iff_toNat_lt]
        by_cases hk : k = (p.owner, nonce)
        · subst hk
          rw [AList.lookup_erase]
          simp only [ite_self]
          rw [if_pos ⟨trivial, by omega, by omega⟩]
        · rw [AList.lookup_erase_ne hk]
          have hiff : (k.1 = p.owner ∧ p'.nextLotNonce.toNat ≤ k.2.toNat ∧
              k.2.toNat < nonce.toNat) ↔ (k.1 = p.owner ∧ p'.nextLotNonce.toNat ≤ k.2.toNat ∧
              k.2.toNat < p.nextLotNonce.toNat) := by
            constructor
            · rintro ⟨h1, h2, h3⟩
              exact ⟨h1, h2, by omega⟩
            · rintro ⟨h1, h2, h3⟩
              refine ⟨h1, h2, ?_⟩
              have hne : k.2.toNat ≠ nonce.toNat := by
                intro heq
                exact hk (Prod.ext h1 (UInt64.toNat_inj.mp heq))
              omega
          simp only [hiff]

end CalledIt.Escrow
