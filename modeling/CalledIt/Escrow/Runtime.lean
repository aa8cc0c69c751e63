import CalledIt.Lib.Store
import CalledIt.Escrow.Encoding

/-!
# CalledIt.Escrow.Runtime

What the escrow program sees of the chain.

The addresses, the digest, the curve check and the rent-exempt minimum come
from code outside the repository, so they are the parameters of a `Runtime`.
The system, token and associated-token programs are modelled by the part of
their documented behaviour the escrow calls on.

A `Ledger` holds the accounts the program owns for one market.  Positions and
lots live at addresses derived from `(market, owner)` and
`(market, owner, nonce)`, so they are kept in stores with these keys: looking a
key up is loading the account at the derived address.  A market whose state is
`closed` stands for an account that no longer exists.
-/

namespace CalledIt.Escrow

open Lib

/-- The parts of the runtime the program calls without reading them. -/
structure Runtime where
  /-- `Rent::minimum_balance(0)`. -/
  rentReserve : UInt64
  /-- `Pubkey::find_program_address`. -/
  findProgramAddress : List (List UInt8) → Pubkey → Pubkey × UInt8
  /-- `get_associated_token_address_with_program_id(owner, mint, token_program)`. -/
  associatedTokenAddress : Pubkey → Pubkey → Pubkey → Pubkey
  sha256 : List UInt8 → Bytes 32
  /-- Whether the bytes are a point of the Ed25519 curve. -/
  validateEdwards : Pubkey → Bool

structure Clock where
  slot : UInt64
  unixTimestamp : Int64

inductive TokenAccountState
  | uninitialized
  | initialized
  | frozen
  deriving DecidableEq, Repr

structure TokenAccount where
  mint : Pubkey
  owner : Pubkey
  amount : UInt64
  state : TokenAccountState

structure Mint where
  isInitialized : Bool
  decimals : UInt8

inductive AccountData
  | empty
  | token (account : TokenAccount)
  | mint (mint : Mint)
  /-- Bytes that are neither a token account nor a mint. -/
  | other

structure AccountInfo where
  key : Pubkey
  owner : Pubkey
  lamports : UInt64
  data : AccountData

def AccountInfo.dataIsEmpty (account : AccountInfo) : Bool :=
  match account.data with
  | .empty => true
  | _ => false

/-- `spl_token::state::Account::unpack`, which refuses uninitialised accounts. -/
def AccountInfo.unpackToken (account : AccountInfo) : Option TokenAccount :=
  match account.data with
  | .token t => if t.state = .uninitialized then none else some t
  | _ => none

/-- `spl_token::state::Mint::unpack`, which refuses uninitialised mints. -/
def AccountInfo.unpackMint (account : AccountInfo) : Option Mint :=
  match account.data with
  | .mint m => if m.isInitialized then some m else none
  | _ => none

/-! ## called programs -/

/-- `system_program::transfer`: the new balances of both accounts. -/
def systemTransfer (source destination amount : UInt64) : Result (UInt64 × UInt64) := do
  let source ← okOr (checkedSub source amount) .insufficientFunds
  let destination ← okOr (checkedAdd destination amount) .balanceOverflow
  return (source, destination)

/-- `token::transfer_checked` between two different accounts. -/
def transferChecked (source destination : TokenAccount) (mintKey : Pubkey) (mint : Mint)
    (authority : Pubkey) (amount : UInt64) (decimals : UInt8) :
    Result (TokenAccount × TokenAccount) := do
  require (source.state ≠ .frozen ∧ destination.state ≠ .frozen) .tokenAccountFrozen
  let sourceAmount ← okOr (checkedSub source.amount amount) .insufficientFunds
  require (source.mint = destination.mint ∧ source.mint = mintKey ∧ mint.decimals = decimals)
    .tokenMismatch
  require (source.owner = authority) .tokenMismatch
  let destinationAmount ← okOr (checkedAdd destination.amount amount) .balanceOverflow
  return ({ source with amount := sourceAmount }, { destination with amount := destinationAmount })

/-- `associated_token::create_idempotent`: create the account, or accept one
that already belongs to the owner and the mint.  The rent of a token account is
not tracked. -/
def createIdempotent (account : AccountInfo) (owner mintKey : Pubkey) : Result AccountInfo :=
  if account.owner = splTokenId then do
    let token ← okOr account.unpackToken .illegalOwner
    require (token.owner = owner ∧ token.mint = mintKey) .illegalOwner
    return account
  else do
    require (account.owner = systemProgramId) .illegalOwner
    return { account with
      owner := splTokenId
      data := .token { mint := mintKey, owner, amount := 0, state := .initialized } }

/-- An address that holds no account. -/
def AccountInfo.emptied (account : AccountInfo) : AccountInfo :=
  { account with owner := systemProgramId, lamports := 0, data := .empty }

/-! ## the accounts of one market -/

structure Ledger where
  marketKey : Pubkey
  market : Market
  /-- Aggregate positions, by owner. -/
  positions : Store Pubkey UserPosition
  /-- Lots, by owner and nonce. -/
  lots : Store (Pubkey × UInt64) PositionLot
  vault : AccountInfo

/-- The principal in a vault: its balance in the market's asset, less the rent
reserve when the asset is native SOL. -/
def vaultPrincipal (rt : Runtime) (asset : Asset) (vault : AccountInfo) : Nat :=
  match asset with
  | .sol => vault.lamports.toNat - rt.rentReserve.toNat
  | .usdc =>
      match vault.data with
      | .token t => t.amount.toNat
      | _ => 0

/-- A SOL vault keeps its rent reserve. -/
def Reserved (rt : Runtime) (asset : Asset) (vault : AccountInfo) : Prop :=
  asset = .sol → rt.rentReserve.toNat ≤ vault.lamports.toNat

def Ledger.principal (rt : Runtime) (ledger : Ledger) : Nat :=
  vaultPrincipal rt ledger.market.asset ledger.vault

/-- Load the market account, which is gone once the market is closed. -/
def Ledger.loadMarket (ledger : Ledger) : Result Market := do
  require (ledger.market.state ≠ .closed) .accountNotInitialized
  return ledger.market

/-- Load the position account at the address its own `owner` field derives. -/
def Ledger.loadPosition (ledger : Ledger) (owner : Pubkey) : Result UserPosition := do
  let position ← okOr (ledger.positions.lookup owner) .accountNotInitialized
  require (position.owner = owner) .constraintSeeds
  require (position.market = ledger.marketKey) EscrowError.configMismatch
  return position

/-- Load a lot account of a position. -/
def Ledger.loadLot (ledger : Ledger) (position : UserPosition) (nonce : UInt64) :
    Result PositionLot := do
  let lot ← okOr (ledger.lots.lookup (position.owner, nonce)) .accountNotInitialized
  require (lot.market = ledger.marketKey) EscrowError.configMismatch
  require (lot.owner = position.owner) EscrowError.invalidUserSigner
  require (lot.nonce = nonce) EscrowError.lotNonceMismatch
  return lot

/-! ## derived addresses -/

/-- The eight little-endian bytes of a nonce or an epoch in a seed. -/
def seedOf (n : UInt64) : List UInt8 := leBytes 8 n.toNat

namespace Runtime

variable (rt : Runtime)

def configAddress : Pubkey × UInt8 := rt.findProgramAddress [configSeed] programId

def oracleSetAddress (epoch : UInt64) : Pubkey × UInt8 :=
  rt.findProgramAddress [oracleSetSeed, seedOf epoch] programId

def marketAddress (marketUuid : Bytes 16) : Pubkey × UInt8 :=
  rt.findProgramAddress [marketSeed, marketUuid.toList] programId

def positionAddress (market owner : Pubkey) : Pubkey × UInt8 :=
  rt.findProgramAddress [positionSeed, market.toList, owner.toList] programId

def lotAddress (market owner : Pubkey) (nonce : UInt64) : Pubkey × UInt8 :=
  rt.findProgramAddress [lotSeed, market.toList, owner.toList, seedOf nonce] programId

def solVaultAddress (market : Pubkey) : Pubkey × UInt8 :=
  rt.findProgramAddress [solVaultSeed, market.toList] programId

def usdcVaultAddress (market mint : Pubkey) : Pubkey :=
  rt.associatedTokenAddress market mint splTokenId

end Runtime

end CalledIt.Escrow
