import CalledIt.Escrow.Events
import CalledIt.Lib.Pages
import CalledIt.Lib.Program

/-!
# CalledIt.Indexer.FinalizedIndexer

The indexer of finalized transactions (`engine/src/escrow/finalized-indexer.ts`) and its
source (`solana-finalized-source.ts`).

A run reads the cursor, collects the newer signatures page by page, reads their
transactions, and handles them in order: each event is resolved to a projection and
recorded, then the cursor moves to the transaction.  What a projection is resolved from,
and what recording it does to the rest of the database, is a parameter here.
-/

namespace CalledIt.Indexer

open Lib Escrow

/-! ## logs -/

/-- An event of the program; those of the protocol's own accounts are never projected. -/
inductive EscrowProgramEvent
  | market (event : Event)
  | protocol

/-- A line of a transaction's log, as the patterns of the source tell them apart. -/
inductive LogLine
  | invoke (program : String) (depth : Nat)
  | completion (program : String)
  | data (event : Option EscrowProgramEvent)
  | other

structure LocatedEvent where
  instructionIndex : Int
  event : EscrowProgramEvent

/-- The programs that run, outermost first, and the events so far. -/
structure LogState where
  stack : List (Option String)
  topLevelInstruction : Int
  events : List LocatedEvent

/-- Setting the length of the stack fills it up with holes. -/
def setLength (stack : List (Option String)) (length : Nat) : List (Option String) :=
  stack.take length ++ List.replicate (length - stack.length) none

def readLine (programId : String) (state : LogState) : LogLine → Option LogState
  | .invoke program depth =>
      if depth < 1 then none
      else
        some { state with
          stack := setLength state.stack (depth - 1) ++ [some program]
          topLevelInstruction := state.topLevelInstruction + if depth = 1 then 1 else 0 }
  | .completion program =>
      if state.stack.getLast? = some (some program) then
        some { state with stack := state.stack.dropLast }
      else some state
  | .data event =>
      if state.stack.getLast? = some (some programId) then
        some { state with
          events := state.events ++ event.toList.map fun event =>
            { instructionIndex := state.topLevelInstruction, event } }
      else some state
  | .other => some state

def eventLogs (programId : String) (logs : List LogLine) : Option (List LocatedEvent) :=
  (logs.foldlM (readLine programId) ⟨[], -1, []⟩).map (·.events)

/-! ## projections -/

inductive ProjectionKind
  | market
  | position
  | settlement
  | claim
  | marketClosed
  | marketState
  deriving DecidableEq, Repr

structure MarketProjection where
  marketId : Bytes 16
  custodyVersion : Nat
  marketPda : Pubkey
  vaultPda : Pubkey
  asset : Asset
  mintPubkey : Option Pubkey
  documentHash : Bytes 32
  oracleEpoch : UInt64
  eventEpoch : UInt64
  ratioMilli : Nat

inductive EscrowPositionEventKind
  | placed
  | activated
  | invalidated
  deriving DecidableEq, Repr

inductive EscrowPositionState
  | pending
  | active
  | invalidated
  deriving DecidableEq, Repr

structure PositionProjection where
  marketId : Bytes 16
  positionPda : Pubkey
  ownerPubkey : Pubkey
  lotNonce : UInt64
  eventKind : EscrowPositionEventKind
  side : PositionSide
  asset : Asset
  amountAtomic : UInt64
  eventEpoch : UInt64
  state : EscrowPositionState

structure SettlementProjection where
  marketId : Bytes 16
  outcome : SettlementOutcome
  evidenceHash : Bytes 32
  documentHash : Bytes 32
  oracleEpoch : UInt64

inductive ClaimKind
  | payout
  | refund
  deriving DecidableEq, Repr

structure ClaimProjection where
  marketId : Bytes 16
  ownerPubkey : Pubkey
  destinationPubkey : Pubkey
  asset : Asset
  amountAtomic : UInt64
  claimKind : ClaimKind

structure MarketClosedProjection where
  marketId : Bytes 16
  marketPda : Pubkey
  documentHash : Bytes 32
  asset : Asset
  dustAmountAtomic : UInt64

/-- The state of a market link. -/
inductive EscrowChainState
  | open
  | frozen
  | settled
  | voided
  | closed
  deriving DecidableEq, Repr

structure MarketStateProjection where
  marketId : Bytes 16
  state : EscrowChainState
  eventEpoch : UInt64
  evidenceHash : Bytes 32

inductive EscrowFinalizedProjection
  | market (value : MarketProjection)
  | position (value : PositionProjection)
  | settlement (value : SettlementProjection)
  | claim (value : ClaimProjection)
  | marketClosed (value : MarketClosedProjection)
  | marketState (value : MarketStateProjection)

def EscrowFinalizedProjection.kind : EscrowFinalizedProjection → ProjectionKind
  | market _ => .market
  | position _ => .position
  | settlement _ => .settlement
  | claim _ => .claim
  | marketClosed _ => .marketClosed
  | marketState _ => .marketState

inductive ProjectionError
  | marketUnavailable
  | positionUnavailable
  | accountOwnerMismatch
  | eventMismatch
  | historyUnavailable
  deriving DecidableEq, Repr

/-- A row that a recorder wrote, under its key. -/
structure RecordedEvent where
  signature : String
  instructionIndex : Int
  projection : EscrowFinalizedProjection

/-! ## chain and tables -/

structure ConfirmedSignatureInfo where
  signature : String
  slot : Nat
  deriving DecidableEq, Repr

structure TransactionMeta where
  failed : Bool
  logs : List LogLine

structure EscrowFinalizedCursor where
  slot : Nat
  signature : Option String
  deriving DecidableEq, Repr

/-- The finalized history of the program, oldest first, the slot it goes up to, and the
tables of the indexer.  `skipped` is bookkeeping: the events that were passed over because
there was nothing to record.  `rest` is everything else. -/
structure IndexTables (ρ : Type) where
  history : List ConfirmedSignatureInfo
  finalizedSlot : Nat
  cursor : Option EscrowFinalizedCursor
  records : List RecordedEvent
  skipped : List (String × Int)
  rest : ρ

/-- What is not the indexer's: the transactions behind the signatures, how an event is
resolved, what recording does to the rest, and what the hooks do. -/
structure IndexWorld (ρ : Type) where
  transaction : String → TransactionMeta
  resolve : ρ → EscrowProgramEvent →
    Except ProjectionError (Option EscrowFinalizedProjection) → ρ → Prop
  record : ρ → RecordedEvent → ρ → Prop
  hook : ρ → ρ → Prop

/-- `escrow_advance_chain_cursor`, for finalized transactions. -/
def advanceChainCursor (cursor : Option EscrowFinalizedCursor) (slot : Nat) (signature : String) :
    Option EscrowFinalizedCursor :=
  match cursor with
  | none => some ⟨slot, some signature⟩
  | some row =>
      if slot < row.slot ∨ (slot = row.slot ∧ row.signature = some signature) then some row
      else some ⟨slot, some signature⟩

/-! ## calls -/

inductive IndexCall
  | getChainCursor
  | getGenesisHash
  | getSignaturesForAddress (before till : Option String) (limit : Nat)
  | getTransaction (signature : String)
  | getSlot
  | resolve (event : EscrowProgramEvent)
  | record (row : RecordedEvent)
  | skip (signature : String) (instructionIndex : Int)
  | afterTransaction (signature : String) (projections : List EscrowFinalizedProjection)
  | afterEconomicProjection (row : RecordedEvent)
  | advanceChainCursor (slot : Nat) (signature : String)

namespace IndexCall

def Reply : IndexCall → Type
  | getChainCursor => Option EscrowFinalizedCursor
  | getGenesisHash => String
  | getSignaturesForAddress _ _ _ => List ConfirmedSignatureInfo
  | getTransaction _ => Option TransactionMeta
  | getSlot => Nat
  | resolve _ => Except ProjectionError (Option EscrowFinalizedProjection)
  | record _ => Bool
  | skip _ _ => Unit
  | afterTransaction _ _ => Unit
  | afterEconomicProjection _ => Unit
  | advanceChainCursor _ _ => Unit

end IndexCall

/-- The recorders ignore a key that is there already. -/
def insertRecord (records : List RecordedEvent) (row : RecordedEvent) : List RecordedEvent :=
  if records.any fun r =>
      r.signature = row.signature ∧ r.instructionIndex = row.instructionIndex then records
  else records ++ [row]

/-- What a call answers and leaves.  A call that raises has no answer; its run stops
there. -/
def IndexCall.Answers {ρ : Type} (world : IndexWorld ρ) :
    (c : IndexCall) → IndexTables ρ → c.Reply → IndexTables ρ → Prop
  | getChainCursor, s, cursor, t => cursor = s.cursor ∧ t = s
  | getGenesisHash, s, _, t => t = s
  | getSignaturesForAddress before till limit, s, page, t =>
      page = pageBack ConfirmedSignatureInfo.signature s.history before till limit ∧ t = s
  | getTransaction signature, s, transaction, t =>
      (∀ found, transaction = some found → found = world.transaction signature) ∧ t = s
  | getSlot, s, slot, t => slot = s.finalizedSlot ∧ t = s
  | resolve event, s, projection, t =>
      ∃ rest, world.resolve s.rest event projection rest ∧ t = { s with rest }
  | record row, s, _, t =>
      ∃ rest, world.record s.rest row rest ∧
        t = { s with records := insertRecord s.records row, rest }
  | skip signature instructionIndex, s, _, t =>
      t = { s with skipped := s.skipped ++ [(signature, instructionIndex)] }
  | afterTransaction _ _, s, _, t => ∃ rest, world.hook s.rest rest ∧ t = { s with rest }
  | afterEconomicProjection _, s, _, t => ∃ rest, world.hook s.rest rest ∧ t = { s with rest }
  | advanceChainCursor slot signature, s, _, t =>
      t = { s with cursor := Indexer.advanceChainCursor s.cursor slot signature }

inductive IndexerError
  | invalidPage
  | chainIdentityMismatch
  | cursorRegression
  | cursorUnavailable
  | networkMismatch
  | backlogLimitExceeded
  | transactionUnavailable
  | malformedLogs
  | projection (error : ProjectionError)
  deriving DecidableEq, Repr

abbrev IndexProgram := ExceptT IndexerError (Program IndexCall IndexCall.Reply)

namespace IndexProgram

def getChainCursor : IndexProgram (Option EscrowFinalizedCursor) :=
  liftM (Program.perform IndexCall.getChainCursor : Program IndexCall IndexCall.Reply _)

def getGenesisHash : IndexProgram String :=
  liftM (Program.perform IndexCall.getGenesisHash : Program IndexCall IndexCall.Reply _)

def getSignaturesForAddress (before till : Option String) (limit : Nat) :
    IndexProgram (List ConfirmedSignatureInfo) :=
  liftM (Program.perform (IndexCall.getSignaturesForAddress before till limit) :
    Program IndexCall IndexCall.Reply _)

def getTransaction (signature : String) : IndexProgram (Option TransactionMeta) :=
  liftM (Program.perform (IndexCall.getTransaction signature) :
    Program IndexCall IndexCall.Reply _)

def getSlot : IndexProgram Nat :=
  liftM (Program.perform IndexCall.getSlot : Program IndexCall IndexCall.Reply _)

def resolve (event : EscrowProgramEvent) :
    IndexProgram (Except ProjectionError (Option EscrowFinalizedProjection)) :=
  liftM (Program.perform (IndexCall.resolve event) : Program IndexCall IndexCall.Reply _)

/-- Whether the row was there before. -/
def record (row : RecordedEvent) : IndexProgram Bool :=
  liftM (Program.perform (IndexCall.record row) : Program IndexCall IndexCall.Reply _)

def skip (signature : String) (instructionIndex : Int) : IndexProgram Unit :=
  liftM (Program.perform (IndexCall.skip signature instructionIndex) :
    Program IndexCall IndexCall.Reply _)

def afterTransaction (signature : String) (projections : List EscrowFinalizedProjection) :
    IndexProgram Unit :=
  liftM (Program.perform (IndexCall.afterTransaction signature projections) :
    Program IndexCall IndexCall.Reply _)

def afterEconomicProjection (row : RecordedEvent) : IndexProgram Unit :=
  liftM (Program.perform (IndexCall.afterEconomicProjection row) :
    Program IndexCall IndexCall.Reply _)

def advanceChainCursor (slot : Nat) (signature : String) : IndexProgram Unit :=
  liftM (Program.perform (IndexCall.advanceChainCursor slot signature) :
    Program IndexCall IndexCall.Reply _)

end IndexProgram

open IndexProgram

/-! ## the source -/

structure SourceOptions where
  genesisHash : String
  programId : String
  maximumBacklog : Nat
  deriving DecidableEq, Repr

structure EscrowFinalizedTransaction where
  signature : String
  slot : Nat
  genesisHash : String
  programId : String
  events : List LocatedEvent

/-- How many signatures a page has at most. -/
def signaturePageLimit : Nat := 1000

/-- What the cursor leaves of a page. -/
def sinceCursor (cursor : EscrowFinalizedCursor) (page : List ConfirmedSignatureInfo) :
    List ConfirmedSignatureInfo :=
  page.filter fun item =>
    !(item.slot < cursor.slot ∨ (cursor.signature = none ∧ item.slot = cursor.slot))

/-- Pages down to the cursor, newest first.  The backlog bounds them. -/
def collectSignatures (options : SourceOptions) (cursor : EscrowFinalizedCursor) :
    Nat → List ConfirmedSignatureInfo → Option String → IndexProgram (List ConfirmedSignatureInfo)
  | 0, _, _ => throw .backlogLimitExceeded
  | pages + 1, collected, before => do
      let page ← getSignaturesForAddress before cursor.signature signaturePageLimit
      let signatures := collected ++ sinceCursor cursor page
      if options.maximumBacklog < signatures.length then throw .backlogLimitExceeded
      else
        match page.getLast? with
        | none => pure signatures
        | some last =>
            if page.length < signaturePageLimit ∨
                (cursor.signature = none ∧ last.slot ≤ cursor.slot) then pure signatures
            else collectSignatures options cursor pages signatures (some last.signature)

/-- `signaturesSince`: oldest first. -/
def signaturesSince (options : SourceOptions) (cursor : EscrowFinalizedCursor) :
    IndexProgram (List ConfirmedSignatureInfo) := do
  let signatures ← collectSignatures options cursor (options.maximumBacklog + 1) [] none
  pure signatures.reverse

/-- The events of a transaction; a failed one has none. -/
def locatedEvents (programId : String) (transaction : TransactionMeta) :
    Option (List LocatedEvent) :=
  eventLogs programId (if transaction.failed then [] else transaction.logs)

def readTransactions (options : SourceOptions) :
    List ConfirmedSignatureInfo → IndexProgram (List EscrowFinalizedTransaction)
  | [] => pure []
  | info :: rest => do
      match ← getTransaction info.signature with
      | none => throw .transactionUnavailable
      | some transaction =>
          match locatedEvents options.programId transaction with
          | none => throw .malformedLogs
          | some events => do
              let more ← readTransactions options rest
              pure ({ signature := info.signature, slot := info.slot,
                      genesisHash := options.genesisHash, programId := options.programId,
                      events } :: more)

structure EscrowFinalizedScan where
  transactions : List EscrowFinalizedTransaction
  scannedThroughSlot : Nat

def scan (options : SourceOptions) (cursor : EscrowFinalizedCursor) (limit : Nat) :
    IndexProgram EscrowFinalizedScan := do
  let genesisHash ← getGenesisHash
  if genesisHash ≠ options.genesisHash then throw .networkMismatch
  else do
    let signatures ← signaturesSince options cursor
    let transactions ← readTransactions options (signatures.take limit)
    -- the head is read after the page
    let finalizedScanSlot ← getSlot
    pure { transactions
           scannedThroughSlot :=
             if limit < signatures.length then (transactions.getLast?.map (·.slot)).getD cursor.slot
             else finalizedScanSlot }

/-! ## the indexer -/

structure IndexerOptions where
  genesisHash : String
  programId : String
  allowSlotOnlyCursor : Bool
  deriving DecidableEq, Repr

/-- What was done of a page. -/
structure IndexCounts where
  events : Nat
  duplicates : Nat
  deriving DecidableEq, Repr

structure TransactionProgress where
  counts : IndexCounts
  resolved : List EscrowFinalizedProjection
  economic : List RecordedEvent

/-- The slots of a page never fall. -/
def checkPage (options : IndexerOptions) (pageSlot : Nat) :
    List EscrowFinalizedTransaction → Except IndexerError Nat
  | [] => .ok pageSlot
  | transaction :: rest =>
      if transaction.genesisHash ≠ options.genesisHash ∨
          transaction.programId ≠ options.programId then .error .chainIdentityMismatch
      else if transaction.slot < pageSlot then .error .cursorRegression
      else checkPage options transaction.slot rest

/-- `project`: a market state has no recorder. -/
def project (signature : String) (instructionIndex : Int)
    (projection : EscrowFinalizedProjection) : IndexProgram Bool :=
  if projection.kind = .marketState then do
    skip signature instructionIndex
    pure false
  else record ⟨signature, instructionIndex, projection⟩

def TransactionProgress.add (progress : TransactionProgress) (signature : String)
    (instructionIndex : Int) (projection : EscrowFinalizedProjection) (duplicate : Bool) :
    TransactionProgress :=
  { counts :=
      { events := progress.counts.events + 1
        duplicates := progress.counts.duplicates + if duplicate then 1 else 0 }
    resolved := progress.resolved ++ [projection]
    economic :=
      if projection.kind = .settlement ∨ projection.kind = .claim then
        progress.economic ++ [⟨signature, instructionIndex, projection⟩]
      else progress.economic }

/-- The events of a transaction, with the instruction indexes so far. -/
def projectEvents (signature : String) :
    List LocatedEvent → List Int → TransactionProgress → IndexProgram TransactionProgress
  | [], _, progress => pure progress
  | located :: rest, indexes, progress =>
      if located.instructionIndex < 0 ∨ located.instructionIndex ∈ indexes then throw .invalidPage
      else do
        match ← resolve located.event with
        | .error error => throw (.projection error)
        | .ok none => do
            skip signature located.instructionIndex
            projectEvents signature rest (located.instructionIndex :: indexes) progress
        | .ok (some projection) => do
            let duplicate ← project signature located.instructionIndex projection
            projectEvents signature rest (located.instructionIndex :: indexes)
              (progress.add signature located.instructionIndex projection duplicate)

def afterEconomicProjections : List RecordedEvent → IndexProgram Unit
  | [] => pure ()
  | row :: rest => do
      afterEconomicProjection row
      afterEconomicProjections rest

def indexTransaction (counts : IndexCounts) (transaction : EscrowFinalizedTransaction) :
    IndexProgram IndexCounts := do
  let progress ← projectEvents transaction.signature transaction.events [] ⟨counts, [], []⟩
  afterTransaction transaction.signature progress.resolved
  afterEconomicProjections progress.economic
  IndexProgram.advanceChainCursor transaction.slot transaction.signature
  pure progress.counts

def indexTransactions :
    IndexCounts → List EscrowFinalizedTransaction → IndexProgram IndexCounts
  | counts, [] => pure counts
  | counts, transaction :: rest => do
      let counts ← indexTransaction counts transaction
      indexTransactions counts rest

/-- What a run reports, with the watermark that it leaves. -/
structure IndexReport where
  cursor : EscrowFinalizedCursor
  transactions : Nat
  counts : IndexCounts
  watermark : Nat
  deriving DecidableEq, Repr

def cursorAfter (cursor : EscrowFinalizedCursor)
    (transactions : List EscrowFinalizedTransaction) : EscrowFinalizedCursor :=
  match transactions.getLast? with
  | none => cursor
  | some last => ⟨last.slot, some last.signature⟩

def runOnce (source : SourceOptions) (options : IndexerOptions) (limit : Nat) :
    IndexProgram IndexReport := do
  if limit < 1 ∨ 1000 < limit then throw .invalidPage
  else do
    let stored ← getChainCursor
    let cursor := stored.getD ⟨0, none⟩
    if 0 < cursor.slot ∧ cursor.signature = none ∧ !options.allowSlotOnlyCursor then
      throw .cursorUnavailable
    else do
      let found ← scan source cursor limit
      match checkPage options cursor.slot found.transactions with
      | .error error => throw error
      | .ok pageSlot =>
          if found.scannedThroughSlot < pageSlot ∧ !options.allowSlotOnlyCursor then
            throw .cursorRegression
          else do
            let counts ← indexTransactions ⟨0, 0⟩ found.transactions
            pure { cursor := cursorAfter cursor found.transactions
                   transactions := found.transactions.length
                   counts
                   watermark := max found.scannedThroughSlot pageSlot }

end CalledIt.Indexer
