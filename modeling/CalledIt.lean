import CalledIt.Lib.Checked
import CalledIt.Lib.Store
import CalledIt.Lib.FloorSum
import CalledIt.Lib.Run
import CalledIt.Lib.Transducer
import CalledIt.Lib.Codec
import CalledIt.Lib.Double
import CalledIt.Lib.Json
import CalledIt.Escrow.State
import CalledIt.Escrow.Math
import CalledIt.Escrow.Encoding
import CalledIt.Sdk.Codec
import CalledIt.Sdk.MathReference
import CalledIt.Sdk.Agreement
import CalledIt.Escrow.Documents
import CalledIt.Escrow.Admin
import CalledIt.Escrow.Attestations
import CalledIt.Escrow.Runtime
import CalledIt.Escrow.Events
import CalledIt.Escrow.Market
import CalledIt.Escrow.Position
import CalledIt.Escrow.Settlement
import CalledIt.Escrow.Claims
import CalledIt.Escrow.Program
import CalledIt.Escrow.Replay
import CalledIt.Escrow.Effects
import CalledIt.Escrow.Staged
import CalledIt.Escrow.Ledger
import CalledIt.Escrow.Outcome
import CalledIt.Escrow.Epoch
import CalledIt.Escrow.Payout
import CalledIt.Escrow.Solvency
import CalledIt.Escrow.Closing
import CalledIt.Escrow.Conservation
import CalledIt.Sdk.Attestations
import CalledIt.Sdk.Encoders
import CalledIt.Signer.Contracts
import CalledIt.Signer.Renewal
import CalledIt.Signer.Quorum
import CalledIt.Engine.Evaluate
import CalledIt.Engine.Reduce
import CalledIt.Engine.Steps
import CalledIt.Sdk.Evidence
import CalledIt.Signer.Verifier
import CalledIt.Txline.NormalizeScores
import CalledIt.Signer.Decisions
import CalledIt.Engine.Scheduler
import CalledIt.Engine.Payload
import CalledIt.Engine.Requests
import CalledIt.Engine.Signals
import CalledIt.Engine.Evidence
import CalledIt.Engine.Terminal
import CalledIt.Sdk.CanonicalJson
import CalledIt.Engine.Compile
import CalledIt.Engine.Winnable
import CalledIt.Engine.Stability
import CalledIt.Signer.Specification
import CalledIt.Engine.Runs
import CalledIt.Engine.Invariant
import CalledIt.Engine.Freezes
import CalledIt.Engine.Positions
import CalledIt.Engine.Delivery
import CalledIt.Engine.Suspensions
import CalledIt.Engine.Deciding
import CalledIt.Engine.Confirming
import CalledIt.Engine.Snipes
import CalledIt.Engine.GoalIds
import CalledIt.Signer.Progress
import CalledIt.Signer.Witnessed
import CalledIt.Lib.JsonLine
import CalledIt.Lib.Program
import CalledIt.Signer.Journal
import CalledIt.Signer.Recovery
import CalledIt.Signer.Sessions
import CalledIt.Signer.Instances
import CalledIt.Engine.Attribution
import CalledIt.Engine.Complement
import CalledIt.Txline.Context
import CalledIt.Txline.History
import CalledIt.Txline.Framing
import CalledIt.Lib.Delimiter
import CalledIt.Txline.Sse
import CalledIt.Txline.NormalizeOdds
import CalledIt.Txline.ReplaySource
import CalledIt.Txline.ReplaySteps
import CalledIt.Txline.LiveSource
import CalledIt.Wager.Pot
import CalledIt.Wager.Solvency
import CalledIt.Wager.Tables
import CalledIt.Wager.Balances
import CalledIt.Wager.Withdrawals
import CalledIt.Engine.Settler
import CalledIt.Engine.Serializing
import CalledIt.Engine.Serializability
import CalledIt.Engine.Docket
import CalledIt.Engine.Reconciling
import CalledIt.Engine.Handling
import CalledIt.Engine.Markers
import CalledIt.Relayer.JobState
import CalledIt.Relayer.Lifecycle
import CalledIt.Lib.Threads
import CalledIt.Wager.Settling
import CalledIt.Wager.CreditRows
import CalledIt.Wager.Conservation
import CalledIt.Wager.SettledOnce
import CalledIt.Lib.Pages
import CalledIt.Wager.DepositScan
import CalledIt.Wager.Transfers
import CalledIt.Wager.Deposited
import CalledIt.Indexer.FinalizedIndexer
import CalledIt.Lib.Trace
import CalledIt.Indexer.Indexed
import CalledIt.Indexer.Scanned
import CalledIt.Indexer.IndexRun
import CalledIt.Indexer.ExactlyOnce
import CalledIt.Indexer.Watermark
import CalledIt.Indexer.EventProjector
import CalledIt.Indexer.Invocations
import CalledIt.Indexer.Working
import CalledIt.Indexer.Blocking
import CalledIt.Relayer.PlacementRelay
import CalledIt.Relayer.RelayerWorker
import CalledIt.Relayer.WrittenOff
import CalledIt.Escrow.Arguments
import CalledIt.Sdk.Instructions
import CalledIt.Sdk.InstructionData
import CalledIt.Relayer.JobQueue
import CalledIt.Relayer.JobFencing
import CalledIt.Relayer.Stranded
import CalledIt.Relayer.Workflows
import CalledIt.Relayer.Captured
import CalledIt.Relayer.AttestationQueue
import CalledIt.Relayer.AttestationFencing
import CalledIt.Relayer.AttestationDrain
import CalledIt.Indexer.ReadModel
import CalledIt.Escrow.History
import CalledIt.Indexer.Linked
import CalledIt.Indexer.Stored
import CalledIt.Settlement.ProofFencing
import CalledIt.Settlement.TerminalReconcile
import CalledIt.Escrow.Layout
import CalledIt.Lib.Base58
import CalledIt.Sdk.BorshReader
import CalledIt.Sdk.AccountDecoders
import CalledIt.Sdk.EventDecoders
import CalledIt.Sdk.Verification
import CalledIt.Indexer.TransactionLogs
import CalledIt.Indexer.Attribution
import CalledIt.Recovery.Eligibility
import CalledIt.Lib.Islands
import CalledIt.Points.Stats
import CalledIt.Points.Apply
import CalledIt.Points.Fallback
import CalledIt.Telegram.SendQueue
import CalledIt.Telegram.NewestEdit
import CalledIt.Solana.Codecs
import CalledIt.Wager.Amounts
import CalledIt.Telegram.FloodControl
import CalledIt.Relayer.Reconciliation
