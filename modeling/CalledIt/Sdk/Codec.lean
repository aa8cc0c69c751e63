import CalledIt.Lib.Codec
import CalledIt.Escrow.State

/-!
# CalledIt.Sdk.Codec

The client's canonical writer (`escrow-sdk/src/codec.ts`) and the signing
intent it encodes (`escrow-sdk/src/transactions.ts`).

A JavaScript `bigint` or integer `number` is an `Int`: every writer method
checks the range of what it is given, so a value that is not an integer of the
right width is refused and never reaches the bytes.
-/

namespace CalledIt.Sdk

open Lib
open Escrow (Pubkey Asset PositionSide utf8)

/-- A thrown JavaScript error with its message. -/
inductive JsError
  | rangeError (message : String)
  | error (message : String)
  deriving DecidableEq, Repr

abbrev JsResult := Except JsError

def u8Max : Int := 0xff
def u16Max : Int := 0xffff
def u32Max : Int := 0xffffffff
def u64Max : Int := 2 ^ 64 - 1
def i64Min : Int := -(2 ^ 63)
def i64Max : Int := 2 ^ 63 - 1

def assertInteger (value : Int) (name : String) (min max : Int) : JsResult Int := do
  require (¬ (value < min ∨ value > max)) (JsError.rangeError
    (name ++ " must be an integer in [" ++ toString min ++ ", " ++ toString max ++ "]"))
  return value

def assertU64 (value : Int) (name : String) : JsResult Int := do
  require (¬ (value < 0 ∨ value > u64Max)) (JsError.rangeError (name ++ " must be a u64 bigint"))
  return value

def assertI64 (value : Int) (name : String) : JsResult Int := do
  require (¬ (value < i64Min ∨ value > i64Max))
    (JsError.rangeError (name ++ " must be an i64 bigint"))
  return value

def assertLength (value : List UInt8) (length : Nat) (name : String) : JsResult (List UInt8) := do
  require (value.length = length)
    (JsError.rangeError (name ++ " must be exactly " ++ toString length ++ " bytes"))
  return value

/-- `utf8` of the client: bounded in bytes. -/
def boundedUtf8 (value : String) (name : String) (maximumBytes : Nat) :
    JsResult (List UInt8) := do
  require ((utf8 value).length ≤ maximumBytes) (JsError.rangeError
    (name ++ " must be at most " ++ toString maximumBytes ++ " UTF-8 bytes"))
  return utf8 value

/-! ## hexadecimal text -/

/-- The value of a digit that `[0-9a-fA-F]` matches. -/
def hexDigit (c : Char) : Option Nat :=
  if '0' ≤ c ∧ c ≤ '9' then some (c.toNat - 48)
  else if 'a' ≤ c ∧ c ≤ 'f' then some (c.toNat - 87)
  else if 'A' ≤ c ∧ c ≤ 'F' then some (c.toNat - 55)
  else none

def isHexDigit (c : Char) : Bool := (hexDigit c).isSome

/-- `Number.parseInt(…, 16)` on each pair of digits. -/
def hexPairs : List Char → List UInt8
  | high :: low :: rest =>
      UInt8.ofNat ((hexDigit high).getD 0 * 16 + (hexDigit low).getD 0) :: hexPairs rest
  | _ => []

def hexToBytes (value : List Char) : JsResult (List UInt8) := do
  require (¬ (value.length % 2 ≠ 0 ∨ value.any fun c => !isHexDigit c))
    (JsError.error "invalid hexadecimal string")
  return hexPairs value

def hexAlphabet : List Char :=
  ['0', '1', '2', '3', '4', '5', '6', '7', '8', '9', 'a', 'b', 'c', 'd', 'e', 'f']

def bytesToHex (value : List UInt8) : List Char :=
  value.flatMap fun byte =>
    [hexAlphabet.getD (byte.toNat / 16) '0', hexAlphabet.getD (byte.toNat % 16) '0']

/-- `[0-9a-fA-F]{n}` at the front of the text. -/
def hexRun : Nat → List Char → Option (List Char)
  | 0, text => some text
  | n + 1, c :: text => if isHexDigit c then hexRun n text else none
  | _ + 1, [] => none

def dash : List Char → Option (List Char)
  | c :: text => if c = '-' then some text else none
  | [] => none

/-- `UUID_PATTERN`, matched from left to right. -/
def uuidPattern (text : List Char) : Bool :=
  let rest := do
    let text ← dash (← hexRun 8 text)
    let text ← dash (← hexRun 4 text)
    let text ← dash (← hexRun 4 text)
    let text ← dash (← hexRun 4 text)
    hexRun 12 text
  rest = some []

def uuidToBytes (value : String) : JsResult (List UInt8) := do
  require (uuidPattern value.toList)
    (JsError.error "market UUID must use canonical 8-4-4-4-12 form")
  hexToBytes ((value.toList.filter (· ≠ '-')).map Char.toLower)

/-! ## the writer -/

/-- The chunks written so far, concatenated. -/
structure CanonicalWriter where
  chunks : List UInt8

namespace CanonicalWriter

def bytes (writer : CanonicalWriter) (value : List UInt8) : CanonicalWriter :=
  ⟨writer.chunks ++ value⟩

def fixed (writer : CanonicalWriter) (value : List UInt8) (length : Nat) (name : String) :
    JsResult CanonicalWriter := do
  return writer.bytes (← assertLength value length name)

def u8 (writer : CanonicalWriter) (value : Int) (name : String) : JsResult CanonicalWriter := do
  return writer.bytes (leBytes 1 (← assertInteger value name 0 u8Max).toNat)

def bool (writer : CanonicalWriter) (value : Bool) (name : String) : JsResult CanonicalWriter :=
  writer.u8 (if value then 1 else 0) name

def u16 (writer : CanonicalWriter) (value : Int) (name : String) : JsResult CanonicalWriter := do
  return writer.bytes (leBytes 2 (← assertInteger value name 0 u16Max).toNat)

def u32 (writer : CanonicalWriter) (value : Int) (name : String) : JsResult CanonicalWriter := do
  return writer.bytes (leBytes 4 (← assertInteger value name 0 u32Max).toNat)

def u64 (writer : CanonicalWriter) (value : Int) (name : String) : JsResult CanonicalWriter := do
  return writer.bytes (leBytes 8 (← assertU64 value name).toNat)

/-- `setBigInt64`: two's complement. -/
def i64 (writer : CanonicalWriter) (value : Int) (name : String) : JsResult CanonicalWriter := do
  return writer.bytes (leBytes 8 ((← assertI64 value name) % 2 ^ 64).toNat)

def string16 (writer : CanonicalWriter) (value : String) (name : String) (maximumBytes : Nat) :
    JsResult CanonicalWriter := do
  let encoded ← boundedUtf8 value name (min maximumBytes 65535)
  let writer ← writer.u16 encoded.length (name ++ " length")
  return writer.bytes encoded

def finish (writer : CanonicalWriter) : List UInt8 := writer.chunks

end CanonicalWriter

/-- `writeDomain` with its default version. -/
def writeDomain (writer : CanonicalWriter) (domain : String) : JsResult CanonicalWriter := do
  let writer ← writer.string16 domain "domain separator" 96
  writer.u8 1 "schema version"

/-! ## the signing intent -/

/-- `PositionIntentV1`; a `PublicKeyInput` is taken as the key it denotes. -/
structure PositionIntentV1 where
  escrowProgramId : Pubkey
  marketPda : Pubkey
  marketDocumentHash : List UInt8
  userWallet : Pubkey
  side : PositionSide
  amount : Int
  asset : Asset
  expectedRatioMilli : Int
  expectedEventEpoch : Int
  expectedLotNonce : Int
  expiresAt : Int

def encodePositionIntentV1 (intent : PositionIntentV1) : JsResult (List UInt8) := do
  let writer ← writeDomain ⟨[]⟩ Escrow.positionIntentDomainV1
  let writer ← writer.fixed intent.escrowProgramId.toList 32 "escrow program ID"
  let writer ← writer.fixed intent.marketPda.toList 32 "market PDA"
  let writer ← writer.fixed intent.marketDocumentHash 32 "market document hash"
  let writer ← writer.fixed intent.userWallet.toList 32 "user wallet"
  let writer ← writer.u8 (if intent.side = .back then 0 else 1) "position side"
  let writer ← writer.u64 intent.amount "position amount"
  let writer ← writer.u8 (if intent.asset = .sol then 0 else 1) "asset"
  let writer ← writer.u32 intent.expectedRatioMilli "expected ratio milli"
  let writer ← writer.u64 intent.expectedEventEpoch "expected event epoch"
  let writer ← writer.u64 intent.expectedLotNonce "expected lot nonce"
  let writer ← writer.i64 intent.expiresAt "intent expiry"
  return writer.finish

end CalledIt.Sdk
