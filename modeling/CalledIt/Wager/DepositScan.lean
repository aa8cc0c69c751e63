import CalledIt.Lib.Pages
import CalledIt.Lib.Threads
import CalledIt.Wager.Tables

/-!
# CalledIt.Wager.DepositScan

The deposit watcher (`engine/src/wager/deposits.ts`) and its scan of the chain
(`solana/src/deposits.ts`).

A tick reads its cursor, collects the newer signatures page by page, reads their
transactions in batches and handles the transfers in them, oldest first.  The chain grows
all the while, and so may the tables change between any two calls.
-/

namespace CalledIt.Wager

open Lib

/-! ## transactions -/

/-- The payload of an instruction: a field that is missing, or has another type, is
`none`. -/
structure ParsedInfo where
  source : Option String
  destination : Option String
  authority : Option String
  mint : Option String
  amount : Option String
  tokenAmount : Option String
  lamports : Option ℚ
  deriving DecidableEq

structure ParsedInstruction where
  program : String
  type : String
  info : ParsedInfo
  deriving DecidableEq

/-- A finalized transaction; `failed` is for `err` in its metadata and in the list of
signatures. -/
structure ParsedTransaction where
  slot : Nat
  failed : Bool
  instructions : List ParsedInstruction
  deriving DecidableEq

structure IncomingTransfer where
  sig : String
  ixIndex : Nat
  sender : String
  lamports : Nat
  slot : Nat
  asset : WagerAsset
  mintPubkey : Option String
  deriving DecidableEq

/-- The treasury's address, its token account and the token. -/
structure TreasuryAddresses where
  treasury : String
  tokenAccount : String
  mint : String

/-- What an instruction is to the scan; an amount that cannot be read fails it. -/
inductive TransferReading
  | ignored
  | unreadable
  | found (sender : String) (lamports : Nat)
  deriving DecidableEq

def isSafeInteger (q : ℚ) : Bool := q.den = 1 ∧ q.num.natAbs ≤ maxSafeInteger

/-- `asSystemTransfer`, to the treasury from elsewhere. -/
def readSystemTransfer (treasury : String) (ix : ParsedInstruction) : TransferReading :=
  if ix.program ≠ "system" ∨ ix.type ≠ "transfer" then .ignored
  else
    match ix.info.source, ix.info.destination, ix.info.lamports with
    | some source, some destination, some lamports =>
        if destination ≠ treasury ∨ source = treasury then .ignored
        else if !isSafeInteger lamports ∨ lamports < 0 then .unreadable
        else .found source lamports.num.toNat
    | _, _, _ => .ignored

/-- The value of a string of decimal digits. -/
def decimal? (text : String) : Option Nat :=
  if text ≠ "" ∧ text.toList.all Char.isDigit then
    some (text.toList.foldl (fun n c => 10 * n + (c.toNat - 48)) 0)
  else none

/-- The amount of a `transferChecked` is read only where its mint is the token. -/
def readTokenTransfer (addresses : TreasuryAddresses) (ix : ParsedInstruction) : TransferReading :=
  if ix.program ≠ "spl-token" ∨ (ix.type ≠ "transfer" ∧ ix.type ≠ "transferChecked") then .ignored
  else
    match ix.info.source, ix.info.destination, ix.info.authority with
    | some source, some destination, some authority =>
        if destination ≠ addresses.tokenAccount ∨ source = addresses.tokenAccount then .ignored
        else if ix.type = "transferChecked" ∧ ix.info.mint ≠ some addresses.mint then .ignored
        else
          let amount := if ix.type = "transferChecked" then ix.info.tokenAmount else ix.info.amount
          match amount.bind decimal? with
          | none => .unreadable
          | some atomic => .found authority atomic
    | _, _, _ => .ignored

def readTransfer (addresses : TreasuryAddresses) : WagerAsset → ParsedInstruction → TransferReading
  | .sol => readSystemTransfer addresses.treasury
  | .usdc => readTokenTransfer addresses

def mintOf (addresses : TreasuryAddresses) : WagerAsset → Option String
  | .sol => none
  | .usdc => some addresses.mint

def incomingTransfer (addresses : TreasuryAddresses) (asset : WagerAsset) (sig : String)
    (tx : ParsedTransaction) (ixIndex : Nat) (sender : String) (lamports : Nat) :
    IncomingTransfer :=
  { sig, ixIndex, sender, lamports, slot := tx.slot, asset, mintPubkey := mintOf addresses asset }

def readInstruction (addresses : TreasuryAddresses) (asset : WagerAsset) (sig : String)
    (tx : ParsedTransaction) (place : ParsedInstruction × Nat) : Option (List IncomingTransfer) :=
  match readTransfer addresses asset place.1 with
  | .ignored => some []
  | .unreadable => none
  | .found sender lamports =>
      some [incomingTransfer addresses asset sig tx place.2 sender lamports]

/-- `extractTreasuryTransfers` and `extractTokenTransfers`.  The watcher sets no minimum
here. -/
def extractTransfers (addresses : TreasuryAddresses) (asset : WagerAsset) (sig : String)
    (tx : ParsedTransaction) : Option (List IncomingTransfer) :=
  if tx.failed then some []
  else (tx.instructions.zipIdx.mapM (readInstruction addresses asset sig tx)).map List.flatten

/-! ## chain and tables -/

/-- What is known of the chain for good: every signature has its transaction. -/
structure TreasuryChain where
  addresses : TreasuryAddresses
  transaction : String → ParsedTransaction

structure DepositRow where
  transfer : IncomingTransfer
  userId : Option Nat
  deriving DecidableEq

/-- The tables of the watcher and the finalized history of the treasury's addresses,
oldest signature first.  `processed` is bookkeeping: the transfers that were handled to
the end, with the user that the sender was found linked to. -/
structure DepositTables extends WagerTables where
  deposits : List DepositRow
  cursors : String → Option String
  history : WagerAsset → List String
  processed : List (IncomingTransfer × Option Nat)

structure SignatureInfo where
  signature : String
  err : Bool
  deriving DecidableEq

/-! ## calls -/

inductive DepositCall
  | getCursor (stream : String)
  | setCursor (stream sig : String)
  | getSignaturesForAddress (asset : WagerAsset) (before till : Option String) (limit : Nat)
  | getParsedTransactions (sigs : List String)
  | upsertDeposit (transfer : IncomingTransfer)
  | getWalletLinkByPubkey (pubkey : String)
  | postWagerLedger (credit : Credit)
  | markDepositCredited (sig : String) (ixIndex userId : Nat)
  | processed (transfer : IncomingTransfer) (userId : Option Nat)

namespace DepositCall

def Reply : DepositCall → Type
  | getCursor _ => Option String
  | setCursor _ _ => Unit
  | getSignaturesForAddress _ _ _ _ => List SignatureInfo
  | getParsedTransactions _ => List (Option ParsedTransaction)
  | upsertDeposit _ => Unit
  | getWalletLinkByPubkey _ => Option Nat
  | postWagerLedger _ => Bool
  | markDepositCredited _ _ _ => Unit
  | processed _ _ => Unit

end DepositCall

def markCredited (rows : List DepositRow) (sig : String) (ixIndex userId : Nat) :
    List DepositRow :=
  rows.map fun row =>
    if row.transfer.sig = sig ∧ row.transfer.ixIndex = ixIndex ∧ row.userId = none then
      { row with userId := some userId }
    else row

/-- A row that is there already stays as it is. -/
def insertDeposit (rows : List DepositRow) (transfer : IncomingTransfer) : List DepositRow :=
  if rows.any fun row =>
      row.transfer.sig = transfer.sig ∧ row.transfer.ixIndex = transfer.ixIndex then rows
  else rows ++ [{ transfer, userId := none }]

/-- Transactions may be missing from the answer, and none is another's. -/
def ParsedFor (chain : TreasuryChain) (sigs : List String)
    (parsed : List (Option ParsedTransaction)) : Prop :=
  ∀ (i : Nat) (sig : String) (tx : ParsedTransaction), sigs[i]? = some sig →
    parsed[i]?.join = some tx → tx = chain.transaction sig

/-- What a call answers and leaves.  A call that raises has no answer; its tick stops
there. -/
def DepositCall.Answers (chain : TreasuryChain) :
    (c : DepositCall) → DepositTables → c.Reply → DepositTables → Prop
  | getCursor stream, s, cursor, t => cursor = s.cursors stream ∧ t = s
  | setCursor stream sig, s, _, t =>
      t = { s with cursors := Function.update s.cursors stream (some sig) }
  | getSignaturesForAddress asset before till limit, s, infos, t =>
      infos = (pageBack id (s.history asset) before till limit).map (fun sig =>
        { signature := sig, err := (chain.transaction sig).failed }) ∧ t = s
  | getParsedTransactions sigs, s, parsed, t => ParsedFor chain sigs parsed ∧ t = s
  | upsertDeposit transfer, s, _, t =>
      transfer.slot ≤ maxSafeInteger ∧ transfer.lamports ≤ maxSafeInteger ∧
        t = { s with deposits := insertDeposit s.deposits transfer }
  | getWalletLinkByPubkey pubkey, s, user, t =>
      (∀ u, user = some u → ∃ link, s.surroundings.link u = some link ∧ link.pubkey = pubkey) ∧
        (user = none → ∀ u link, s.surroundings.link u = some link → link.pubkey ≠ pubkey) ∧ t = s
  | postWagerLedger credit, s, inserted, t =>
      credit.row.lamports.natAbs ≤ maxSafeInteger ∧
        ∃ tables, Wager.postWagerLedger s.toWagerTables credit = some (tables, .posted inserted) ∧
          t = { s with toWagerTables := tables }
  | markDepositCredited sig ixIndex userId, s, _, t =>
      t = { s with deposits := markCredited s.deposits sig ixIndex userId }
  | processed transfer userId, s, _, t =>
      t = { s with processed := s.processed ++ [(transfer, userId)] }

abbrev DepositProgram := Program DepositCall DepositCall.Reply

namespace DepositProgram

def getCursor (stream : String) : DepositProgram (Option String) :=
  Program.perform (DepositCall.getCursor stream)

def setCursor (stream sig : String) : DepositProgram PUnit :=
  .call (.setCursor stream sig) fun _ => .done ⟨⟩

def getSignaturesForAddress (asset : WagerAsset) (before till : Option String) (limit : Nat) :
    DepositProgram (List SignatureInfo) :=
  Program.perform (DepositCall.getSignaturesForAddress asset before till limit)

def getParsedTransactions (sigs : List String) :
    DepositProgram (List (Option ParsedTransaction)) :=
  Program.perform (DepositCall.getParsedTransactions sigs)

def upsertDeposit (transfer : IncomingTransfer) : DepositProgram PUnit :=
  .call (.upsertDeposit transfer) fun _ => .done ⟨⟩

def getWalletLinkByPubkey (pubkey : String) : DepositProgram (Option Nat) :=
  Program.perform (DepositCall.getWalletLinkByPubkey pubkey)

/-- A new entry is also told to the user, which reads the balance and writes nothing. -/
def postWagerLedger (credit : Credit) : DepositProgram PUnit :=
  .call (.postWagerLedger credit) fun _ => .done ⟨⟩

def markDepositCredited (sig : String) (ixIndex userId : Nat) : DepositProgram PUnit :=
  .call (.markDepositCredited sig ixIndex userId) fun _ => .done ⟨⟩

def processed (transfer : IncomingTransfer) (userId : Option Nat) : DepositProgram PUnit :=
  .call (.processed transfer userId) fun _ => .done ⟨⟩

end DepositProgram

open DepositProgram

/-! ## the scan -/

/-- A part of a scan, which may fail. -/
abbrev ScanProgram := OptionT DepositProgram

structure ScanOptions where
  pageLimit : Nat
  batchSize : Nat
  deriving DecidableEq, Repr

structure DepositScan where
  transfers : List IncomingTransfer
  newestSig : Option String

/-- `MAX_SIGNATURE_PAGES`. -/
def maxSignaturePages : Nat := 100

/-- Pages down to the cursor, as long as they are full.  The last argument is the oldest
signature so far. -/
def collectSignatureInfos (asset : WagerAsset) (untilSig : Option String) (pageLimit : Nat) :
    Nat → List SignatureInfo → Option String → ScanProgram (List SignatureInfo)
  | 0, _, _ => failure
  | pages + 1, collected, before => do
      let infos ← getSignaturesForAddress asset before untilSig pageLimit
      if infos.length < pageLimit then pure (collected ++ infos)
      else
        match infos.getLast? with
        | none => pure (collected ++ infos)
        | some oldest =>
            collectSignatureInfos asset untilSig pageLimit pages (collected ++ infos)
              (some oldest.signature)

/-- The transfers of a batch; a transaction that is missing fails the scan. -/
def extractBatch (addresses : TreasuryAddresses) (asset : WagerAsset) (sigs : List String)
    (parsed : List (Option ParsedTransaction)) : Option (List (List IncomingTransfer)) :=
  sigs.zipIdx.mapM fun (sig, i) => do
    let tx ← parsed[i]?.join
    extractTransfers addresses asset sig tx

/-- Batch after batch; there are no more of them than signatures. -/
def scanBatches (addresses : TreasuryAddresses) (asset : WagerAsset) (batchSize : Nat) :
    Nat → List String → ScanProgram (List (List IncomingTransfer))
  | _, [] => pure []
  | 0, _ => failure
  | batches + 1, sigs => do
      let parsed ← getParsedTransactions (sigs.take batchSize)
      match extractBatch addresses asset (sigs.take batchSize) parsed with
      | none => failure
      | some extracted => do
          let more ← scanBatches addresses asset batchSize batches (sigs.drop batchSize)
          pure (extracted ++ more)

def fetchIncomingTransfers (addresses : TreasuryAddresses) (options : ScanOptions)
    (asset : WagerAsset) (untilSig : Option String) : ScanProgram DepositScan := do
  let infos ← collectSignatureInfos asset untilSig options.pageLimit maxSignaturePages [] none
  let candidates := infos.filter fun info => !info.err ∧ some info.signature ≠ untilSig
  let sigs := candidates.map (·.signature)
  let transfersPerTx ← scanBatches addresses asset options.batchSize sigs.length sigs
  pure { transfers := transfersPerTx.reverse.flatten
         newestSig := infos.head?.map (·.signature) }

/-! ## the watcher -/

def minimumDeposit : WagerAsset → Nat
  | .sol => 1000000
  | .usdc => 100000

def assetName : WagerAsset → String
  | .sol => "sol"
  | .usdc => "usdc"

def depositCursorStream (treasury : String) (asset : WagerAsset) : String :=
  "wager:deposits:" ++ assetName asset ++ ":" ++ treasury

def IncomingTransfer.ledgerKey (transfer : IncomingTransfer) : LedgerKey :=
  .other ("wager:deposit:" ++ transfer.sig ++ ":" ++ toString transfer.ixIndex)

theorem deposit_mem : LedgerKind.deposit ∈
    [LedgerKind.deposit, .payout, .refund, .withdrawalRefund] :=
  List.mem_cons_self

def depositCredit (transfer : IncomingTransfer) (userId : Nat) : Credit where
  row :=
    { userId
      asset := transfer.asset
      lamports := transfer.lamports
      key := transfer.ledgerKey
      kind := .deposit
      marketId := none }
  kind_mem := deposit_mem
  lamports_nonneg := Int.natCast_nonneg _

/-- `processTransfer` with `creditTransfer`. -/
def processTransfer (transfer : IncomingTransfer) : DepositProgram PUnit := do
  upsertDeposit transfer
  if transfer.lamports < minimumDeposit transfer.asset then processed transfer none
  else
    match ← getWalletLinkByPubkey transfer.sender with
    | none => processed transfer none
    | some userId => do
        DepositProgram.postWagerLedger (depositCredit transfer userId)
        markDepositCredited transfer.sig transfer.ixIndex userId
        processed transfer (some userId)

/-- The transfers one by one; the cursor moves where the next one is of another
signature. -/
def processTransfers (stream : String) : List IncomingTransfer → DepositProgram PUnit
  | [] => pure ⟨⟩
  | transfer :: rest => do
      processTransfer transfer
      if rest.head?.map (·.sig) ≠ some transfer.sig then setCursor stream transfer.sig
      processTransfers stream rest

def watchDeposits (addresses : TreasuryAddresses) (options : ScanOptions) (asset : WagerAsset) :
    DepositProgram PUnit := do
  let stream := depositCursorStream addresses.treasury asset
  let untilSig ← getCursor stream
  match ← (fetchIncomingTransfers addresses options asset untilSig).run with
  | none => pure ⟨⟩
  | some scan => do
      processTransfers stream scan.transfers
      match scan.newestSig with
      | none => pure ⟨⟩
      | some sig => setCursor stream sig

end CalledIt.Wager
