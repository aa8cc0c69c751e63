import CalledIt.Engine.Compile
import CalledIt.Txline.NormalizeScores

/-!
# CalledIt.Txline.NormalizeOdds

Which odds records count, and when a market is off the board
(`txline/src/normalize-odds.ts`).

The percentages and the line of a record stay the texts they are: prices are floating
point, and only `combineOddsSnapshot` reads them.
-/

namespace CalledIt.Txline

open Engine (GamePhase MatchEvent ScoreState trim)

structure OddsRecord where
  fixtureId : Nat
  messageId : String
  ts : Nat
  superOddsType : String
  gameState : Option String
  marketParameters : Option String
  marketPeriod : Option String
  priceNames : Option (List String)
  pct : Option (List String)

/-! ## market classification -/

inductive OddsMarketKind
  | oneXTwo
  | totals
  deriving DecidableEq, Repr

/-- One character of `toUpperCase`, as far as it ends in ASCII: the others become no
letter that a token can have. -/
def upperCase (c : Char) : List Char :=
  match c.toNat with
  | 0xDF => ['S', 'S']
  | 0x131 => ['I']
  | 0x149 => [Char.ofNat 0x2BC, 'N']
  | 0x17F => ['S']
  | 0x1F0 => ['J', Char.ofNat 0x30C]
  | 0x1E96 => ['H', Char.ofNat 0x331]
  | 0x1E97 => ['T', Char.ofNat 0x308]
  | 0x1E98 => ['W', Char.ofNat 0x30A]
  | 0x1E99 => ['Y', Char.ofNat 0x30A]
  | 0x1E9A => ['A', Char.ofNat 0x2BE]
  | 0xFB00 => ['F', 'F']
  | 0xFB01 => ['F', 'I']
  | 0xFB02 => ['F', 'L']
  | 0xFB03 => ['F', 'F', 'I']
  | 0xFB04 => ['F', 'F', 'L']
  | 0xFB05 => ['S', 'T']
  | 0xFB06 => ['S', 'T']
  | _ => [c.toUpper]

def normalizeToken (value : String) : String :=
  String.ofList ((value.toList.flatMap upperCase).filter fun c =>
    ('A' ≤ c ∧ c ≤ 'Z') ∨ ('0' ≤ c ∧ c ≤ '9'))

def oneXTwoTypeAliases : List String :=
  ["1X2", "3W", "WDW", "MR", "MRES", "MATCHRESULT", "FT1X2", "1X2FT", "MATCHODDS",
    "1X2_PARTICIPANT_RESULT"].map normalizeToken

def totalsTypeAliases : List String :=
  ["OU", "OVERUNDER", "TOTAL", "TOTALS", "TOTALGOALS", "TG", "GOALS", "GOALSOU", "TO",
    "OVERUNDER_PARTICIPANT_GOALS"].map normalizeToken

/-- Known, and no market uses them. -/
def knownUnpricedTypeAliases : List String :=
  ["AH", "ASIANHANDICAP", "HANDICAP", "ASIANHANDICAP_PARTICIPANT_GOALS"].map normalizeToken

def homePriceNames : List String := ["1", "HOME", "H", "P1", "PART1"]
def drawPriceNames : List String := ["X", "DRAW", "D"]
def awayPriceNames : List String := ["2", "AWAY", "A", "P2", "PART2"]
def overPriceNames : List String := ["OVER", "O"]
def underPriceNames : List String := ["UNDER", "U"]

def classifyByPriceNames (priceNames : Option (List String)) : Option OddsMarketKind :=
  priceNames.bind fun priceNames =>
    let names := priceNames.map normalizeToken
    if names.length = 3 ∧ names.any (· ∈ homePriceNames) ∧ names.any (· ∈ drawPriceNames) ∧
        names.any (· ∈ awayPriceNames) then some .oneXTwo
    else if names.length = 2 ∧ names.any (· ∈ overPriceNames) ∧ names.any (· ∈ underPriceNames)
    then some .totals
    else none

def classifyOddsRecord (record : OddsRecord) : Option OddsMarketKind :=
  let token := normalizeToken record.superOddsType
  if token ∈ oneXTwoTypeAliases then some .oneXTwo
  else if token ∈ totalsTypeAliases then some .totals
  else if token ∈ knownUnpricedTypeAliases then none
  else classifyByPriceNames record.priceNames

/-! ## periods and suspensions -/

def fullMatchPeriodTokens : List String :=
  ["M", "FT", "MATCH", "FULL", "FULLTIME", "90", "REG", "REGULAR"]

/-- A missing period is the full match. -/
def isFullMatchPeriod (marketPeriod : Option String) : Bool :=
  let token := String.ofList ((trim (marketPeriod.getD "").toList).flatMap upperCase)
  token = "" ∨ token ∈ fullMatchPeriodTokens

/-- `/susp|otb|off.?the.?board|stop/i` -/
def suspendedGameStatePattern : List (List PatternItem) :=
  [pattern "susp", pattern "otb",
    pattern "off" ++ [.anyOptional] ++ pattern "the" ++ [.anyOptional] ++ pattern "board",
    pattern "stop"]

def isOddsSuspended (record : OddsRecord) : Bool :=
  record.gameState.any (occurs suspendedGameStatePattern)

def unknownScoreState : ScoreState := ⟨zeroTeamStats, zeroTeamStats, none, none⟩

/-- The time of the record doubles as its sequence number. -/
def buildOddsSuspensionEvent (record : OddsRecord) (receivedAtMs : Int)
    (phase : Option GamePhase) (score : Option ScoreState) : MatchEvent where
  kind := .oddsSuspension
  fixtureId := record.fixtureId
  seq := record.ts
  tsMs := record.ts
  receivedAtMs
  confirmed := true
  phase := phase.getD .ns
  minute := none
  score := score.getD unknownScoreState
  detail := none

end CalledIt.Txline
