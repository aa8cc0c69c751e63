import CalledIt.Engine.Payload

/-!
# CalledIt.Relayer.PlacementRelay

A placement to relay (`engine/src/escrow/placement-relay.ts`) and what is checked of its
transaction (`transaction-signatures.ts`, `escrow-sdk/src/verification.ts`).

What the checks use of libraries outside the repository is `Web3`.
-/

namespace CalledIt.Relayer

open Lib Escrow
open Sdk (isHexDigit uuidPattern)
open Engine.Payload (isDigits bigInt)

/-! ## transactions -/

/-- A versioned transaction, with the parts of its message that are read. -/
structure VersionedTransaction where
  signatures : List (List UInt8)
  numRequiredSignatures : Nat
  staticAccountKeys : List Pubkey
  recentBlockhash : String
  addressTableLookups : Nat
  message : List UInt8
  deriving DecidableEq

/-- The terms that a user signs. -/
structure SponsoredPositionTerms where
  programId : String
  relayerFeePayer : String
  userWallet : String
  canonicalUsdcMint : String
  marketUuid : String
  marketDocumentHash : String
  side : String
  amount : Int
  asset : String
  expectedRatioMilli : Int
  expectedEventEpoch : Int
  expectedLotNonce : Int
  expiresAt : Int

/-- The libraries of the chain; `none` is a throw. -/
structure Web3 where
  /-- `VersionedTransaction.deserialize(Buffer.from(text, 'base64'))`. -/
  deserialize : String → Option VersionedTransaction
  publicKey : String → Option Pubkey
  base58Encode : List UInt8 → String
  sha256Hex : List UInt8 → String
  /-- Ed25519, of a key, a signature and a message. -/
  verify : Pubkey → List UInt8 → List UInt8 → Bool
  marketAddress : String → String → Option String
  /-- The programs of the instructions of a decompiled message. -/
  decompile : VersionedTransaction → Option (List Pubkey)
  /-- The message of the one position instruction, over a blockhash. -/
  positionMessage : SponsoredPositionTerms → String → Option (List UInt8)
  /-- `Date.parse`, where it is a number. -/
  dateParse : String → Option Int

/-- The name of a transaction in the ledger: its first signature. -/
def Web3.signatureOf (web3 : Web3) (transaction : VersionedTransaction) : Option String :=
  transaction.signatures.head?.map web3.base58Encode

inductive EscrowTransactionSignatureErrorCode
  | malformedTransaction
  | invalidSignerLayout
  | userAndSponsorMustDiffer
  | transactionMessageMismatch
  | sponsorSignatureMissing
  | sponsorSignatureInvalid
  | userSignatureMissing
  | userSignatureInvalid
  deriving DecidableEq, Repr

inductive EscrowVerificationErrorCode
  | networkMismatch
  | expiredBlockhash
  | staleIntent
  | feePayerMismatch
  | lookupTableForbidden
  | unexpectedInstruction
  | programMismatch
  | messageMismatch
  | requiredSignerMismatch
  | missingUserSignature
  | invalidUserSignature
  | missingRelayerSignature
  | invalidRelayerSignature
  deriving DecidableEq, Repr

inductive EscrowRelayerWorkerErrorCode
  | invalidJob
  | transitionRejected
  | builderUnavailable
  deriving DecidableEq, Repr

/-- What is thrown on the way. -/
inductive RelayError
  | type (message : String)
  | signature (code : EscrowTransactionSignatureErrorCode)
  | verification (code : EscrowVerificationErrorCode)
  | worker (code : EscrowRelayerWorkerErrorCode)
  | library
  | remote
  deriving DecidableEq, Repr

/-! ## the payload of a placement -/

/-- A member of a stored payload. -/
inductive PayloadValue
  | string (text : String)
  | number (value : ℚ)
  | other

abbrev StoredPayload := String → Option PayloadValue

structure EscrowPlacementRelayPayload where
  rawTransactionBase64 : String
  expectedSignature : String
  transactionMessageHashHex : String
  recentBlockhash : String
  lastValidBlockHeight : String
  feePayer : String
  ownerPubkey : String
  programId : String
  canonicalUsdcMint : String
  marketId : String
  marketPda : String
  marketDocumentHashHex : String
  side : String
  asset : String
  amountAtomic : String
  expectedRatioMilli : Int
  eventEpoch : String
  lotNonce : String
  expiresAt : String
  genesisHash : String

def nonEmpty (text : String) : Bool := text ≠ ""

def isHash (text : String) : Bool := text.toList.length = 64 ∧ text.toList.all isHexDigit

def isUnsigned (text : String) : Bool := isDigits text.toList

def textField (payload : StoredPayload) (name : String) (pattern : String → Bool) :
    Option String :=
  match payload name with
  | some (.string text) => if pattern text then some text else none
  | _ => none

/-- A member that is a positive integer. -/
def positiveField (payload : StoredPayload) (name : String) : Option Int :=
  match payload name with
  | some (.number value) => if value.den = 1 ∧ 0 < value.num then some value.num else none
  | _ => none

def payloadSchema (payload : StoredPayload) : Option EscrowPlacementRelayPayload := do
  let _ ← textField payload "operation" (· = "place_position")
  some
    { rawTransactionBase64 := ← textField payload "rawTransactionBase64" nonEmpty
      expectedSignature := ← textField payload "expectedSignature" nonEmpty
      transactionMessageHashHex := ← textField payload "transactionMessageHashHex" isHash
      recentBlockhash := ← textField payload "recentBlockhash" nonEmpty
      lastValidBlockHeight := ← textField payload "lastValidBlockHeight" isUnsigned
      feePayer := ← textField payload "feePayer" nonEmpty
      ownerPubkey := ← textField payload "ownerPubkey" nonEmpty
      programId := ← textField payload "programId" nonEmpty
      canonicalUsdcMint := ← textField payload "canonicalUsdcMint" nonEmpty
      marketId := ← textField payload "marketId" (uuidPattern ·.toList)
      marketPda := ← textField payload "marketPda" nonEmpty
      marketDocumentHashHex := ← textField payload "marketDocumentHashHex" isHash
      side := ← textField payload "side" (fun text => text = "back" || text = "doubt")
      asset := ← textField payload "asset" (fun text => text = "sol" || text = "usdc")
      amountAtomic := ← textField payload "amountAtomic" isUnsigned
      expectedRatioMilli := ← positiveField payload "expectedRatioMilli"
      eventEpoch := ← textField payload "eventEpoch" isUnsigned
      lotNonce := ← textField payload "lotNonce" isUnsigned
      expiresAt := ← textField payload "expiresAt" isUnsigned
      genesisHash := ← textField payload "genesisHash" nonEmpty }

/-! ## the signatures -/

structure VerifiedUserTransaction where
  rawTransactionBase64 : String
  messageHashHex : String
  expectedSignature : String
  recentBlockhash : String
  deriving DecidableEq, Repr

section Signatures

variable (web3 : Web3)

def signatureIsPresent (signature : List UInt8) : Bool := signature.any (· ≠ 0)

/-- The index of an address among those that have to sign. -/
def signerIndex (transaction : VersionedTransaction) (address : Pubkey) : Option Nat :=
  (transaction.staticAccountKeys.take transaction.numRequiredSignatures).findIdx? (· = address)

/-- A base64 text: some digits of the alphabet, at most two signs of padding. -/
def isBase64 (text : String) : Bool :=
  let isDigit (c : Char) : Bool := c.isAlphanum || c = '+' || c = '/'
  let padding := text.toList.dropWhile isDigit
  text.toList.head?.any isDigit && padding.length ≤ 2 && padding.all (· = '=')

def deserialize (rawTransactionBase64 : String) : Except RelayError VersionedTransaction := do
  require (isBase64 rawTransactionBase64) (.signature .malformedTransaction)
  okOr (web3.deserialize rawTransactionBase64) (.signature .malformedTransaction)

/-- The signature at the index, present and valid; the errors are those of its signer. -/
def requireSignature (transaction : VersionedTransaction) (index : Nat) (signer : Pubkey)
    (missing invalid : EscrowTransactionSignatureErrorCode) : Except RelayError (List UInt8) := do
  let signature ← okOr (transaction.signatures[index]?) (.signature missing)
  require (signatureIsPresent signature) (.signature missing)
  require (web3.verify signer signature transaction.message) (.signature invalid)
  return signature

def inspectUserSignedTransaction (rawTransactionBase64 expectedMessageHashHex feePayer
    owner : String) : Except RelayError VerifiedUserTransaction := do
  require (feePayer ≠ owner) (.signature .userAndSponsorMustDiffer)
  let transaction ← deserialize web3 rawTransactionBase64
  let sponsorKey ← okOr (web3.publicKey feePayer) .library
  let ownerKey ← okOr (web3.publicKey owner) .library
  require (transaction.numRequiredSignatures = 2 ∧ signerIndex transaction sponsorKey = some 0 ∧
    signerIndex transaction ownerKey = some 1) (.signature .invalidSignerLayout)
  let observedMessageHashHex := web3.sha256Hex transaction.message
  require (isHash expectedMessageHashHex ∧
    observedMessageHashHex = expectedMessageHashHex.toLower)
    (.signature .transactionMessageMismatch)
  let sponsorSignature ←
    requireSignature web3 transaction 0 sponsorKey .sponsorSignatureMissing .sponsorSignatureInvalid
  let _ ← requireSignature web3 transaction 1 ownerKey .userSignatureMissing .userSignatureInvalid
  return {
    rawTransactionBase64, messageHashHex := observedMessageHashHex
    expectedSignature := web3.base58Encode sponsorSignature
    recentBlockhash := transaction.recentBlockhash }

end Signatures

/-! ## the message -/

structure SponsoredPositionVerificationOptions extends SponsoredPositionTerms where
  expectedGenesisHash : String
  observedGenesisHash : String
  recentBlockhash : String
  lastValidBlockHeight : Int
  currentBlockHeight : Int
  currentUnixTimestamp : Int
  requireRelayerSignature : Bool

structure VerifiedSponsoredPositionMessage where
  feePayer : Pubkey
  userWallet : Pubkey
  message : List UInt8
  userSignatureIndex : Nat
  relayerSignatureIndex : Nat

section Message

variable (web3 : Web3)

def verifySponsoredPositionMessage (transaction : VersionedTransaction)
    (options : SponsoredPositionVerificationOptions) :
    Except RelayError VerifiedSponsoredPositionMessage := do
  require (options.expectedGenesisHash ≠ "" ∧
    options.observedGenesisHash = options.expectedGenesisHash) (.verification .networkMismatch)
  require (options.currentBlockHeight ≤ options.lastValidBlockHeight)
    (.verification .expiredBlockhash)
  require (options.currentUnixTimestamp ≤ options.expiresAt) (.verification .staleIntent)
  require (transaction.addressTableLookups = 0) (.verification .lookupTableForbidden)
  let feePayer ← okOr (web3.publicKey options.relayerFeePayer) .library
  let userWallet ← okOr (web3.publicKey options.userWallet) .library
  require (transaction.staticAccountKeys[0]? = some feePayer) (.verification .feePayerMismatch)
  require (transaction.recentBlockhash = options.recentBlockhash) (.verification .messageMismatch)
  let instructions ← okOr (web3.decompile transaction) .library
  require (instructions.length = 1) (.verification .unexpectedInstruction)
  let programId ← okOr (web3.publicKey options.programId) .library
  require (instructions[0]? = some programId) (.verification .programMismatch)
  let expectedMessage ←
    okOr (web3.positionMessage options.toSponsoredPositionTerms options.recentBlockhash) .library
  require (transaction.message = expectedMessage) (.verification .messageMismatch)
  let requiredSigners := transaction.staticAccountKeys.take transaction.numRequiredSignatures
  require (requiredSigners = [feePayer, userWallet]) (.verification .requiredSignerMismatch)
  let userSignatureIndex ←
    okOr (signerIndex transaction userWallet) (.verification .requiredSignerMismatch)
  let relayerSignatureIndex ←
    okOr (signerIndex transaction feePayer) (.verification .requiredSignerMismatch)
  return {
    feePayer, userWallet, message := transaction.message, userSignatureIndex
    relayerSignatureIndex }

/-- The signature at the index, unless it is missing or all zero. -/
def presentSignature (transaction : VersionedTransaction) (index : Nat)
    (missing : EscrowVerificationErrorCode) : Except RelayError (List UInt8) := do
  let signature ← okOr (transaction.signatures[index]?) (.verification missing)
  require (signatureIsPresent signature) (.verification missing)
  return signature

def verifySponsoredPositionTransaction (transaction : VersionedTransaction)
    (options : SponsoredPositionVerificationOptions) : Except RelayError Unit := do
  let verified ← verifySponsoredPositionMessage web3 transaction options
  let userSignature ←
    presentSignature transaction verified.userSignatureIndex .missingUserSignature
  require (web3.verify verified.userWallet userSignature verified.message)
    (.verification .invalidUserSignature)
  if options.requireRelayerSignature then
    let signature ←
      presentSignature transaction verified.relayerSignatureIndex .missingRelayerSignature
    require (web3.verify verified.feePayer signature verified.message)
      (.verification .invalidRelayerSignature)

end Message

/-! ## a placement's transaction -/

/-- What the payload says is checked, at the height and the time of now. -/
def EscrowPlacementRelayPayload.options (payload : EscrowPlacementRelayPayload)
    (currentBlockHeight : Nat) (observedGenesisHash : String) (nowUnix : Int) :
    SponsoredPositionVerificationOptions where
  programId := payload.programId
  relayerFeePayer := payload.feePayer
  userWallet := payload.ownerPubkey
  canonicalUsdcMint := payload.canonicalUsdcMint
  marketUuid := payload.marketId
  marketDocumentHash := payload.marketDocumentHashHex
  side := payload.side
  amount := bigInt payload.amountAtomic.toList
  asset := payload.asset
  expectedRatioMilli := payload.expectedRatioMilli
  expectedEventEpoch := bigInt payload.eventEpoch.toList
  expectedLotNonce := bigInt payload.lotNonce.toList
  expiresAt := bigInt payload.expiresAt.toList
  expectedGenesisHash := payload.genesisHash
  observedGenesisHash := observedGenesisHash
  recentBlockhash := payload.recentBlockhash
  lastValidBlockHeight := bigInt payload.lastValidBlockHeight.toList
  currentBlockHeight := currentBlockHeight
  currentUnixTimestamp := nowUnix
  requireRelayerSignature := true

end CalledIt.Relayer
