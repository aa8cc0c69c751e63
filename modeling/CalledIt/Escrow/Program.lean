import CalledIt.Lib.Run
import CalledIt.Escrow.Claims

/-!
# CalledIt.Escrow.Program

The program as a transition system on the ledger of one market.

A life of a market starts with a successful `initialize_market` (`Opened`) and
goes on with any calls of the other instructions, each with any clock, accounts
and arguments, interleaved with foreign transfers into the vault.  A failed
call leaves no trace: transactions are atomic.
-/

namespace CalledIt.Escrow

open Lib

/-- A call of an instruction on an existing market. -/
inductive Call
  | freezeMarket (accounts : FreezeMarketAccounts) (args : FreezeMarketArgs)
  | unfreezeMarket (accounts : AttestedAccounts) (args : UnfreezeMarketArgs)
  | placePosition (accounts : PlacePositionAccounts) (args : PlacePositionArgs)
  | activatePositionLot (owner : Pubkey) (args : ActivatePositionLotArgs)
  | invalidatePositionLot (accounts : AttestedAccounts) (owner : Pubkey)
      (args : InvalidatePositionLotArgs)
  | settleMarket (accounts : AttestedAccounts) (args : SettleMarketArgs)
  | calculatePositionEntitlement (owner : Pubkey)
  | voidMarket (accounts : AttestedAccounts) (args : VoidMarketArgs)
  | timeoutVoid
  | claimPosition (accounts : ClaimPositionAccounts)
  | claimPositionFor (payer : Pubkey) (accounts : ClaimPositionAccounts)
  | closePositionLots (accounts : ClosePositionLotsAccounts) (owner : Pubkey)
      (args : ClosePositionLotsArgs)
  | closePosition (accounts : ClosePositionAccounts) (owner : Pubkey)
  | closeMarket (accounts : CloseMarketAccounts)

def execute (rt : Runtime) (clock : Clock) (ledger : Ledger) : Call → Result (Ledger × Event)
  | .freezeMarket accounts args => freezeMarket ledger accounts args
  | .unfreezeMarket accounts args => unfreezeMarket rt clock ledger accounts args
  | .placePosition accounts args => placePosition rt clock ledger accounts args
  | .activatePositionLot owner args => activatePositionLot rt clock ledger owner args
  | .invalidatePositionLot accounts owner args =>
      invalidatePositionLot rt clock ledger accounts owner args
  | .settleMarket accounts args => settleMarket rt clock ledger accounts args
  | .calculatePositionEntitlement owner => calculatePositionEntitlement rt clock ledger owner
  | .voidMarket accounts args => voidMarket rt clock ledger accounts args
  | .timeoutVoid => timeoutVoid clock ledger
  | .claimPosition accounts => claimPosition rt ledger accounts
  | .claimPositionFor payer accounts => claimPositionFor rt ledger payer accounts
  | .closePositionLots accounts owner args => closePositionLots rt ledger accounts owner args
  | .closePosition accounts owner => closePosition rt ledger accounts owner
  | .closeMarket accounts => closeMarket rt ledger accounts

/-- The ledger after a transaction: a failed call changes nothing. -/
def submit (rt : Runtime) (clock : Clock) (ledger : Ledger) (c : Call) : Ledger :=
  match execute rt clock ledger c with
  | .ok (ledger', _) => ledger'
  | .error _ => ledger

/-- A transfer into the vault from outside the program.  It can only add to the
balance, and only while the vault exists. -/
def Ledger.receive (ledger : Ledger) (amount : UInt64) : Option Ledger :=
  if ledger.market.state = .closed then
    none
  else
    match ledger.market.asset with
    | .sol =>
        (checkedAdd ledger.vault.lamports amount).map fun lamports =>
          { ledger with vault := { ledger.vault with lamports } }
    | .usdc =>
        match ledger.vault.data with
        | .token t =>
            (checkedAdd t.amount amount).map fun amount =>
              { ledger with vault := { ledger.vault with data := .token { t with amount } } }
        | _ => none

/-- What a run records: the event of a successful instruction with its clock,
or a foreign transfer. -/
inductive Entry
  | emitted (clock : Clock) (event : Event)
  | received (amount : UInt64)

inductive Step (rt : Runtime) : Ledger → Entry → Ledger → Prop
  | call {ledger ledger' : Ledger} {clock : Clock} {c : Call} {event : Event} :
      execute rt clock ledger c = .ok (ledger', event) →
      Step rt ledger (.emitted clock event) ledger'
  | foreign {ledger ledger' : Ledger} {amount : UInt64} :
      ledger.receive amount = some ledger' → Step rt ledger (.received amount) ledger'

/-- The ledger as a successful `initialize_market` leaves it. -/
def Opened (rt : Runtime) (ledger : Ledger) : Prop :=
  ∃ clock accounts args event, initializeMarket rt clock accounts args = .ok (ledger, event)

/-- A life of a market up to `ledger`: its opening and the trace since then. -/
structure Life (rt : Runtime) (opening : Ledger) (trace : List Entry) (ledger : Ledger) :
    Prop where
  opened : Opened rt opening
  run : Run (Step rt) opening trace ledger

end CalledIt.Escrow
