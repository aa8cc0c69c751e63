import CalledIt.Engine.Evaluate
import CalledIt.Lib.Checked
import CalledIt.Lib.Json
import Mathlib.Algebra.Order.Round

/-!
# CalledIt.Engine.Compile

The claim compiler (`market-engine/src/compile.ts`): what becomes a market
specification, what needs a clarifying question, what is offered instead and what
is refused.

Unicode normalization and lower-casing are tables of the platform and stand as a
parameter.  A threshold is read as any number of a script; every other number
here is an identifier, a sequence number, or compared only.
-/

namespace CalledIt.Engine

open Lib

/-! ## what the compiler reads -/

/-- A number of the model's parse. -/
inductive RawNumber
  | finite (q : ℚ)
  | nonFinite
  deriving DecidableEq

structure RawClaimParse where
  claimType : Option ClaimType
  fixtureId : Option Nat
  entityName : Option String
  comparator : Option Comparator
  threshold : Option RawNumber
  period : Option Period
  unresolved : Option String
  deriving DecidableEq

structure Fixture where
  fixtureId : Nat
  p1Name : String
  p2Name : String
  kickoffMs : ℚ
  phase : GamePhase
  minute : Option ℚ
  p1Goals : ℚ
  p2Goals : ℚ
  lastSeq : Nat
  coverageUnreliable : Bool
  deriving DecidableEq

structure PlayerRef where
  normativeId : Nat
  name : String
  participant : Option Participant
  deriving DecidableEq, Repr

structure CompileContext where
  fixture : Option Fixture
  knownPlayers : List PlayerRef
  nowMs : ℚ
  deriving DecidableEq

/-! ## what it answers -/

inductive RejectReason
  | noFixture
  | unknownEntity
  | unsupportedClaimType
  | monetaryForfeit
  | windowClosed
  | outOfRange
  | unresolvable
  deriving DecidableEq, Repr

structure ClarifyOption where
  label : String
  spec : MarketSpec
  deriving DecidableEq

inductive CompileResult
  | ok (spec : MarketSpec)
  | clarify (question : String) (options : List ClarifyOption)
  | counterOffer (reason : String) (asStated upgrade : MarketSpec)
  | reject (reason : RejectReason) (message : String)
  deriving DecidableEq

/-- Every specification a result offers. -/
def CompileResult.specs : CompileResult → List MarketSpec
  | ok spec => [spec]
  | clarify _ options => options.map ClarifyOption.spec
  | counterOffer _ asStated upgrade => [asStated, upgrade]
  | reject _ _ => []

/-! ## tunables -/

def teamGoalsThresholdMin : ℚ := 1
def teamGoalsThresholdMax : ℚ := 10
def playerGoalsThresholdMin : ℚ := 1
def playerGoalsThresholdMax : ℚ := 5
def totalsLineMin : ℚ := 1 / 2
def totalsLineMax : ℚ := 19 / 2
def totalsLineStep : ℚ := 1 / 2
def totalsClarifyLines : List ℚ := [3 / 2, 5 / 2, 7 / 2]
def inplayMintCutoffMinute : ℚ := 75

def preMatchPhases : List GamePhase := [.ns]
def regulationInplayPhases : List GamePhase := [.h1, .ht, .h2]

def claimTypes : List ClaimType :=
  [.matchWinner, .totalsOu, .teamScoresN, .btts, .playerScoresN, .comeback]

/-! ## the deny list -/

def currencySymbols : List Char := ['$', '£', '€', '¥', '₿', '₹']

/-- The denied words, and whether a plural `s` may follow. -/
def monetaryWords : List (String × Bool) :=
  [("dollar", true), ("buck", true), ("quid", false), ("fiver", true), ("tenner", true),
    ("euro", true), ("pound", true), ("cent", true), ("pence", false), ("usd", false),
    ("eur", false), ("gbp", false), ("usdc", false), ("usdt", false), ("sol", false),
    ("eth", false), ("btc", false), ("bitcoin", false), ("crypto", false), ("cash", false),
    ("money", false), ("venmo", false), ("paypal", false), ("cashapp", false), ("zelle", false),
    ("revolut", false), ("wire", false), ("pay", true), ("buy", true), ("owe", true)]

def isWordChar (c : Char) : Bool := c.isAlphanum || c = '_'

/-- A denied word between word boundaries is a whole run of word characters. -/
def mentionsMonetaryWord (text : String) : Bool :=
  (text.toList.splitOnP fun c => !isWordChar c).any fun run =>
    monetaryWords.any fun w =>
      run.map Char.toLower = w.1.toList || w.2 && run.map Char.toLower = w.1.toList ++ ['s']

def mentionsMonetaryStake (text : Option String) : Bool :=
  match text with
  | none => false
  | some text =>
      text ≠ "" && (text.toList.any (currencySymbols.contains ·) || mentionsMonetaryWord text)

/-! ## copy -/

def rejectCopy : RejectReason → String
  | .noFixture => "Can't find that match on the card, call it when the fixture's on the slate."
  | .unknownEntity => "That name isn't on this card, who are we talking about?"
  | .unsupportedClaimType =>
      "That one's outside my playbook, call a winner, goals, or a scorer and I'm in."
  | .monetaryForfeit =>
      "Rep only in this game, nothing with a price tag on the line. Keep it social and I will book it."
  | .windowClosed => "Calls are locked for this one, that ship has sailed."
  | .outOfRange => "That number's off the scale, keep it between the posts."
  | .unresolvable =>
      "I couldn't pin the terms down, give it to me straight and I'll put a number on it."

def unknownPlayerCopy : String := "Can't ground him yet, try me once lineups drop."
def playerWindowCopy : String := "Scorer calls lock at kickoff, catch him in the next match."
def comebackPrematchCopy : String :=
  "A comeback needs a deficit, call it once the match is live and your side is behind."
def comebackNotTrailingCopy : String := "A comeback needs a deficit, you're not behind right now."
def mintCutoffCopy : String :=
  "Too deep into the match to open a new call, calls lock at minute 75."
def coverageCopy : String :=
  "Coverage on this match is shaky, no fair market without a clean feed."

def reject (reason : RejectReason) (message : Option String) : CompileResult :=
  .reject reason (message.getD (rejectCopy reason))

/-- A number inside a copy. -/
def numberString (q : ℚ) : String :=
  String.ofList ((Json.numberText q).map fun u => Char.ofNat u.toNat)

/-! ## entities -/

/-- What the platform knows about Unicode. -/
structure UnicodeTables where
  normalizeNFD : String → String
  toLowerCase : String → String

section

variable (tables : UnicodeTables)

/-- White space and line terminators, as `String.prototype.trim` knows them. -/
def isTrimmed (c : Char) : Bool :=
  0x09 ≤ c.toNat && c.toNat ≤ 0x0D || 0x2000 ≤ c.toNat && c.toNat ≤ 0x200A ||
    [0x20, 0xA0, 0x1680, 0x2028, 0x2029, 0x202F, 0x205F, 0x3000, 0xFEFF].contains c.toNat

def trim (cs : List Char) : List Char :=
  ((cs.dropWhile isTrimmed).reverse.dropWhile isTrimmed).reverse

def isCombiningMark (c : Char) : Bool := 0x0300 ≤ c.toNat && c.toNat ≤ 0x036F

def normalizeName (value : String) : List Char :=
  let stripped := (tables.normalizeNFD value).toList.filter fun c => !isCombiningMark c
  trim (tables.toLowerCase (String.ofList stripped)).toList

def namesMatch (a b : String) : Bool :=
  let na := normalizeName tables a
  let nb := normalizeName tables b
  if na = [] ∨ nb = [] then false
  else na = nb ∨ nb <:+: na ∨ na <:+: nb

structure TeamRef where
  participant : Participant
  name : String
  deriving DecidableEq, Repr

def TeamRef.toEntityRef (team : TeamRef) : EntityRef := .team team.participant team.name

def PlayerRef.toEntityRef (player : PlayerRef) : EntityRef :=
  .player player.normativeId player.name player.participant

def resolveTeam (name : String) (fixture : Fixture) : Option TeamRef :=
  if namesMatch tables name fixture.p1Name then some ⟨.one, fixture.p1Name⟩
  else if namesMatch tables name fixture.p2Name then some ⟨.two, fixture.p2Name⟩
  else none

def resolvePlayer (name : String) (ctx : CompileContext) : Option PlayerRef :=
  ctx.knownPlayers.find? fun p => namesMatch tables name p.name

/-! ## windows and thresholds -/

def teamMintWindowOpen (fixture : Fixture) : Bool :=
  if preMatchPhases.contains fixture.phase then true
  else if regulationInplayPhases.contains fixture.phase then
    match fixture.minute with
    | none => true
    | some minute => minute ≤ inplayMintCutoffMinute
  else false

def isPreKickoff (fixture : Fixture) (nowMs : ℚ) : Bool :=
  preMatchPhases.contains fixture.phase && nowMs < fixture.kickoffMs

/-- The double nearest to `1e-9`. -/
def stepTolerance : ℚ := 4835703278458517 / 2 ^ 82

def isOnStep (value step : ℚ) : Bool := |value / step - round (value / step)| < stepTolerance

def isInteger (value : ℚ) : Bool := value.den = 1

def validIntThreshold (value : RawNumber) (min max : ℚ) : Option ℚ :=
  match value with
  | .nonFinite => none
  | .finite q => if isInteger q ∧ min ≤ q ∧ q ≤ max then some q else none

/-! ## specifications -/

def trustTierFor (claimType : ClaimType) : TrustTier :=
  if claimType = .playerScoresN then .oracleResolved else .chainProven

def buildSpec (claimType : ClaimType) (fixtureId : Nat) (entityRef : EntityRef)
    (comparator : Comparator) (threshold : ℚ) (period : Period) (anchor : Option ClaimAnchor) :
    MarketSpec where
  claimType := claimType
  fixtureId := fixtureId
  entityRef := entityRef
  comparator := comparator
  threshold := threshold
  period := period
  anchor := anchor
  trustTier := trustTierFor claimType

/-! ## the compilers -/

def requireTeam (parse : RawClaimParse) (fixture : Fixture) : Except CompileResult TeamRef :=
  match parse.entityName with
  | none => .error (reject .unknownEntity none)
  | some name =>
      if name = "" then .error (reject .unknownEntity none)
      else okOr (resolveTeam tables name fixture) (reject .unknownEntity none)

def compileMatchWinner (parse : RawClaimParse) (fixture : Fixture) : CompileResult :=
  if teamMintWindowOpen fixture then
    match requireTeam tables parse fixture with
    | .error rejected => rejected
    | .ok team =>
        let base := fun period =>
          buildSpec .matchWinner fixture.fixtureId team.toEntityRef .gte 1 period none
        match parse.period with
        | none =>
            .clarify (team.name ++ " to win, in 90 minutes, or advancing however it takes?")
              [⟨"In 90 minutes", base .ft90⟩,
                ⟨"Advancing, extra time and shootout count", base .ft⟩]
        | some period => .ok (base period)
  else reject .windowClosed (some mintCutoffCopy)

/-- The entity is the first participant by convention. -/
def compileTotals (parse : RawClaimParse) (fixture : Fixture) : CompileResult :=
  if teamMintWindowOpen fixture then
    let comparator := parse.comparator.getD .gte
    let base := fun line => buildSpec .totalsOu fixture.fixtureId
      (TeamRef.toEntityRef ⟨.one, fixture.p1Name⟩) comparator line (parse.period.getD .ft90) none
    match parse.threshold with
    | none =>
        let word := if comparator = .lte then "Under" else "Over"
        .clarify "Goals claim, where's the line?" (totalsClarifyLines.map fun line =>
          ⟨word ++ " " ++ numberString line, base line⟩)
    -- no difference of infinities, nor of `NaN`, is on a step
    | some .nonFinite => reject .outOfRange none
    | some (.finite line) =>
        if isOnStep line totalsLineStep = false ∨ line < totalsLineMin ∨ totalsLineMax < line then
          reject .outOfRange none
        else if comparator = .eq ∧ isInteger line = false then reject .outOfRange none
        else .ok (base line)
  else reject .windowClosed (some mintCutoffCopy)

def compileTeamScoresN (parse : RawClaimParse) (fixture : Fixture) : CompileResult :=
  if teamMintWindowOpen fixture then
    match requireTeam tables parse fixture with
    | .error rejected => rejected
    | .ok team =>
        match validIntThreshold (parse.threshold.getD (.finite teamGoalsThresholdMin))
          teamGoalsThresholdMin teamGoalsThresholdMax with
        | none => reject .outOfRange none
        | some threshold =>
            .ok (buildSpec .teamScoresN fixture.fixtureId team.toEntityRef
              (parse.comparator.getD .gte) threshold (parse.period.getD .ft90) none)
  else reject .windowClosed (some mintCutoffCopy)

def compileBtts (parse : RawClaimParse) (fixture : Fixture) : CompileResult :=
  if teamMintWindowOpen fixture then
    .ok (buildSpec .btts fixture.fixtureId (TeamRef.toEntityRef ⟨.one, fixture.p1Name⟩) .gte 1
      (parse.period.getD .ft90) none)
  else reject .windowClosed (some mintCutoffCopy)

/-- The goals of a side and of the other one. -/
def goalsFor (fixture : Fixture) : Participant → ℚ × ℚ
  | .one => (fixture.p1Goals, fixture.p2Goals)
  | .two => (fixture.p2Goals, fixture.p1Goals)

def compileComeback (parse : RawClaimParse) (fixture : Fixture) : CompileResult :=
  if preMatchPhases.contains fixture.phase then reject .windowClosed (some comebackPrematchCopy)
  else if teamMintWindowOpen fixture then
    match requireTeam tables parse fixture with
    | .error rejected => rejected
    | .ok team =>
        let (own, opp) := goalsFor fixture team.participant
        if opp ≤ own then reject .windowClosed (some comebackNotTrailingCopy)
        else .ok (buildSpec .comeback fixture.fixtureId team.toEntityRef .gte 1
          (parse.period.getD .ft) (some ⟨fixture.lastSeq, fixture.p1Goals, fixture.p2Goals⟩))
  else reject .windowClosed (some mintCutoffCopy)

def compilePlayerScoresN (parse : RawClaimParse) (fixture : Fixture) (ctx : CompileContext) :
    CompileResult :=
  if isPreKickoff fixture ctx.nowMs then
    match parse.entityName.bind fun name =>
        if name = "" then none else resolvePlayer tables name ctx with
    | none => reject .unknownEntity (some unknownPlayerCopy)
    | some player =>
        match validIntThreshold (parse.threshold.getD (.finite playerGoalsThresholdMin))
          playerGoalsThresholdMin playerGoalsThresholdMax with
        | none => reject .outOfRange none
        | some threshold =>
            let period := parse.period.getD .ft90
            let asStated := buildSpec .playerScoresN fixture.fixtureId player.toEntityRef
              (parse.comparator.getD .gte) threshold period none
            match player.participant with
            | none => .ok asStated
            | some participant =>
                let teamName := match participant with
                  | .one => fixture.p1Name
                  | .two => fixture.p2Name
                let upgrade := buildSpec .teamScoresN fixture.fixtureId
                  (TeamRef.toEntityRef ⟨participant, teamName⟩) .gte threshold period none
                let plural := if threshold = 1 then "goal" else "goals"
                .counterOffer
                  ("I can't chain-prove " ++ player.name ++ " personally, on-chain stats are " ++
                    "team-level. Book it Oracle-resolved as stated, or upgrade to \"" ++ teamName ++
                    " scores " ++ numberString threshold ++ "+ " ++ plural ++ "\" Chain-proven?")
                  asStated upgrade
  else reject .windowClosed (some playerWindowCopy)

def compileFor (parse : RawClaimParse) (ctx : CompileContext) (fixture : Fixture) :
    ClaimType → CompileResult
  | .matchWinner => compileMatchWinner tables parse fixture
  | .totalsOu => compileTotals parse fixture
  | .teamScoresN => compileTeamScoresN tables parse fixture
  | .btts => compileBtts parse fixture
  | .comeback => compileComeback tables parse fixture
  | .playerScoresN => compilePlayerScoresN tables parse fixture ctx

def compileClaim (parse : RawClaimParse) (ctx : CompileContext) : CompileResult :=
  if mentionsMonetaryStake parse.unresolved then reject .monetaryForfeit none
  else
    match parse.claimType with
    | none =>
        if parse.unresolved.getD "" ≠ "" then reject .unresolvable none
        else reject .unsupportedClaimType none
    | some claimType =>
        if claimTypes.contains claimType = false then reject .unsupportedClaimType none
        else
          match ctx.fixture with
          | none => reject .noFixture none
          | some fixture =>
              if (parse.fixtureId.any fun id => id ≠ fixture.fixtureId) then reject .noFixture none
              else if fixture.coverageUnreliable then reject .windowClosed (some coverageCopy)
              else compileFor tables parse ctx fixture claimType

end

/-! ## what a compiled specification is -/

/-- A specification made from the fixture and the players of the context: its
numbers are the fixture's, its entity is one of the sides, or a known player for
a claim about a player. -/
structure Compiled (ctx : CompileContext) (fixture : Fixture) (spec : MarketSpec) : Prop where
  fixtureId : spec.fixtureId = fixture.fixtureId
  entityRef : (∃ team : TeamRef, (team = ⟨.one, fixture.p1Name⟩ ∨ team = ⟨.two, fixture.p2Name⟩) ∧
      spec.entityRef = team.toEntityRef ∧ spec.claimType ≠ .playerScoresN) ∨
    ∃ player ∈ ctx.knownPlayers, spec.entityRef = player.toEntityRef ∧
      spec.claimType = .playerScoresN
  threshold : spec.threshold ≤ 10
  anchor : ∀ anchor ∈ spec.anchor, anchor = ⟨fixture.lastSeq, fixture.p1Goals, fixture.p2Goals⟩

/-- A number that counts something. -/
def IsWhole (q : ℚ) : Prop := ∃ n : ℕ, q = n

/-- The threshold and the score a claim starts from are whole numbers. -/
structure MarketSpec.Whole (spec : MarketSpec) : Prop where
  threshold : IsWhole spec.threshold
  anchor : ∀ anchor ∈ spec.anchor, IsWhole anchor.scoreP1 ∧ IsWhole anchor.scoreP2

theorem isWhole_iff {q : ℚ} : IsWhole q ↔ isInteger q = true ∧ 0 ≤ q := by
  rw [isInteger, decide_eq_true_eq]
  constructor
  · rintro ⟨n, rfl⟩
    exact ⟨Rat.den_natCast n, Nat.cast_nonneg n⟩
  · rintro ⟨hden, hq⟩
    obtain ⟨n, hn⟩ := Int.eq_ofNat_of_zero_le (Rat.num_nonneg.mpr hq)
    refine ⟨n, ?_⟩
    rw [← Rat.num_div_den q, hden, hn]
    simp

@[simp] theorem reject_specs (reason : RejectReason) (message : Option String) :
    (reject reason message).specs = [] := rfl

theorem validIntThreshold_eq_some {value : RawNumber} {min max q : ℚ}
    (h : validIntThreshold value min max = some q) : isInteger q = true ∧ min ≤ q ∧ q ≤ max := by
  cases value with
  | nonFinite => simp [validIntThreshold] at h
  | finite q' =>
      simp only [validIntThreshold] at h
      split at h
      · cases h; assumption
      · exact absurd h (by simp)

variable {claimType : ClaimType}

section

variable {tables : UnicodeTables} {parse : RawClaimParse} {ctx : CompileContext} {fixture : Fixture}
  {spec : MarketSpec}

theorem requireTeam_ok {team : TeamRef} (h : requireTeam tables parse fixture = .ok team) :
    team = ⟨.one, fixture.p1Name⟩ ∨ team = ⟨.two, fixture.p2Name⟩ := by
  unfold requireTeam at h
  split at h
  · exact absurd h (by simp)
  split at h
  · exact absurd h (by simp)
  rw [okOr_ok_iff, resolveTeam] at h
  split at h
  · exact .inl (Option.some.inj h).symm
  split at h
  · exact .inr (Option.some.inj h).symm
  · exact absurd h (by simp)

theorem requireTeam_error {rejected : CompileResult}
    (h : requireTeam tables parse fixture = .error rejected) : rejected.specs = [] := by
  unfold requireTeam at h
  split at h
  · cases h; rfl
  split at h
  · cases h; rfl
  rw [okOr_error_iff] at h
  rw [← h.2, reject_specs]

/-- A claim about a side of the fixture with a small threshold. -/
theorem compiled_of_team {team : TeamRef} {comparator : Comparator} {threshold : ℚ}
    {period : Period} {anchor : Option ClaimAnchor}
    (hteam : team = ⟨.one, fixture.p1Name⟩ ∨ team = ⟨.two, fixture.p2Name⟩)
    (hclaim : claimType ≠ .playerScoresN) (hthreshold : threshold ≤ 10)
    (hanchor : ∀ a ∈ anchor, a = ⟨fixture.lastSeq, fixture.p1Goals, fixture.p2Goals⟩) :
    Compiled ctx fixture (buildSpec claimType fixture.fixtureId team.toEntityRef comparator
      threshold period anchor) where
  fixtureId := rfl
  entityRef := .inl ⟨team, hteam, rfl, hclaim⟩
  threshold := hthreshold
  anchor := hanchor

theorem whole_of_integer {fixtureId : ℕ} {entityRef : EntityRef} {comparator : Comparator}
    {threshold : ℚ} {period : Period} (hint : isInteger threshold = true) (hpos : 1 ≤ threshold) :
    (buildSpec claimType fixtureId entityRef comparator threshold period none).Whole where
  threshold := isWhole_iff.mpr ⟨hint, zero_le_one.trans hpos⟩
  anchor := by simp [buildSpec]

theorem compileMatchWinner_specs (h : spec ∈ (compileMatchWinner tables parse fixture).specs) :
    Compiled ctx fixture spec ∧ spec.Whole := by
  unfold compileMatchWinner at h
  split at h
  · split at h
    · rename_i hteam
      simp [requireTeam_error hteam] at h
    rename_i team hteam
    have hspec : ∀ period, Compiled ctx fixture
        (buildSpec .matchWinner fixture.fixtureId team.toEntityRef .gte 1 period none) ∧
        (buildSpec .matchWinner fixture.fixtureId team.toEntityRef .gte 1 period none).Whole :=
      fun period => ⟨compiled_of_team (requireTeam_ok hteam) (by decide) (by norm_num) (by simp),
        whole_of_integer rfl le_rfl⟩
    split at h
    · simp only [CompileResult.specs, List.map_cons, List.map_nil, List.mem_cons, List.not_mem_nil,
        or_false] at h
      obtain rfl | rfl := h
      · exact hspec .ft90
      · exact hspec .ft
    · obtain rfl := List.mem_singleton.mp h
      exact hspec _
  · simp at h

theorem compileTeamScoresN_specs (h : spec ∈ (compileTeamScoresN tables parse fixture).specs) :
    Compiled ctx fixture spec ∧ spec.Whole := by
  unfold compileTeamScoresN at h
  split at h
  · split at h
    · rename_i hteam
      simp [requireTeam_error hteam] at h
    rename_i team hteam
    split at h
    · simp at h
    rename_i threshold hthreshold
    obtain ⟨hint, hmin, hmax⟩ := validIntThreshold_eq_some hthreshold
    obtain rfl := List.mem_singleton.mp h
    exact ⟨compiled_of_team (requireTeam_ok hteam) (by decide) hmax (by simp),
      whole_of_integer hint hmin⟩
  · simp at h

theorem compileBtts_specs (h : spec ∈ (compileBtts parse fixture).specs) :
    Compiled ctx fixture spec ∧ spec.Whole := by
  unfold compileBtts at h
  split at h
  · obtain rfl := List.mem_singleton.mp h
    exact ⟨compiled_of_team (.inl rfl) (by decide) (by norm_num) (by simp),
      whole_of_integer rfl le_rfl⟩
  · simp at h

theorem compilePlayerScoresN_specs
    (h : spec ∈ (compilePlayerScoresN tables parse fixture ctx).specs) :
    Compiled ctx fixture spec ∧ spec.Whole := by
  unfold compilePlayerScoresN at h
  split at h
  · split at h
    · simp at h
    rename_i player hplayer
    have hknown : player ∈ ctx.knownPlayers := by
      obtain ⟨name, -, hname⟩ := Option.bind_eq_some_iff.mp hplayer
      split at hname
      · exact absurd hname (by simp)
      · exact List.mem_of_find?_eq_some hname
    split at h
    · simp at h
    rename_i threshold hthreshold
    obtain ⟨hint, hmin, hmax⟩ := validIntThreshold_eq_some hthreshold
    have hten : threshold ≤ 10 := hmax.trans (by norm_num [playerGoalsThresholdMax])
    have hstated : ∀ comparator period, Compiled ctx fixture
        (buildSpec .playerScoresN fixture.fixtureId player.toEntityRef comparator threshold period
          none) := fun comparator period =>
      ⟨rfl, .inr ⟨player, hknown, rfl, rfl⟩, hten, by simp [buildSpec]⟩
    split at h
    · obtain rfl := List.mem_singleton.mp h
      exact ⟨hstated _ _, whole_of_integer hint hmin⟩
    · rename_i participant _
      simp only [CompileResult.specs, List.mem_cons, List.not_mem_nil, or_false] at h
      obtain rfl | rfl := h
      · exact ⟨hstated _ _, whole_of_integer hint hmin⟩
      · refine ⟨compiled_of_team ?_ (by decide) hten (by simp), whole_of_integer hint hmin⟩
        cases participant with
        | one => exact .inl rfl
        | two => exact .inr rfl
  · simp at h

end

/-! ## where a specification may have a fraction -/

/-- The compiler books a totals claim at the line. -/
def TakesLine (comparator : Comparator) (line : ℚ) : Prop :=
  isOnStep line totalsLineStep = true ∧ totalsLineMin ≤ line ∧ line ≤ totalsLineMax ∧
    (comparator = .eq → isInteger line = true)

/-- A totals claim names its line, and the line, where the compiler books it, is a
whole number. -/
def WholeLine (parse : RawClaimParse) : Prop :=
  ∃ line, parse.threshold = some line ∧
    ∀ q, line = .finite q → TakesLine (parse.comparator.getD .gte) q → isInteger q = true

/-- Where the compiler books a comeback, the score it starts from is whole. -/
def WholeScore (tables : UnicodeTables) (parse : RawClaimParse) (fixture : Fixture) : Prop :=
  fixture.phase ∉ preMatchPhases → ∀ team, requireTeam tables parse fixture = .ok team →
    (goalsFor fixture team.participant).1 < (goalsFor fixture team.participant).2 →
    IsWhole fixture.p1Goals ∧ IsWhole fixture.p2Goals

section

variable {tables : UnicodeTables} {parse : RawClaimParse} {ctx : CompileContext} {fixture : Fixture}

variable {spec : MarketSpec}

theorem compileTotals_specs (h : spec ∈ (compileTotals parse fixture).specs) :
    Compiled ctx fixture spec := by
  unfold compileTotals at h
  split at h
  · simp only at h
    split at h
    · simp only [CompileResult.specs, List.map_map, List.mem_map, Function.comp_apply] at h
      obtain ⟨line, hline, rfl⟩ := h
      refine compiled_of_team (.inl rfl) (by decide) ?_ (by simp)
      simp only [totalsClarifyLines, List.mem_cons, List.not_mem_nil, or_false] at hline
      obtain rfl | rfl | rfl := hline <;> norm_num
    · simp at h
    · split at h
      · simp at h
      rename_i hrange
      split at h
      · simp at h
      obtain rfl := List.mem_singleton.mp h
      refine compiled_of_team (.inl rfl) (by decide) ?_ (by simp)
      simp only [not_or, not_lt] at hrange
      exact hrange.2.2.trans (by norm_num [totalsLineMax])
  · simp at h

theorem isWhole_line {line : ℚ} (h : totalsLineMin ≤ line) :
    IsWhole line ↔ isInteger line = true := by
  have hpos : 0 ≤ line := le_trans (by norm_num [totalsLineMin]) h
  rw [isWhole_iff, and_iff_left hpos]

theorem compileTotals_whole_iff :
    (∀ spec ∈ (compileTotals parse fixture).specs, spec.Whole) ↔
      (teamMintWindowOpen fixture = true → WholeLine parse) := by
  have hbuild : ∀ {fixtureId entityRef comparator line period},
      (buildSpec .totalsOu fixtureId entityRef comparator line period none).Whole ↔ IsWhole line :=
    ⟨fun h => h.threshold, fun h => ⟨h, by simp [buildSpec]⟩⟩
  unfold compileTotals
  split
  · rename_i hopen
    simp only [hopen, true_imp_iff]
    split
    · -- without a line the compiler offers half-goal lines only
      rename_i hnone
      have hhalf : ¬ IsWhole (3 / 2) := by rw [isWhole_iff]; decide +kernel
      constructor
      · intro h
        have hfirst := h _ (List.mem_map.mpr ⟨_, List.mem_map.mpr
          ⟨3 / 2, by simp [totalsClarifyLines], rfl⟩, rfl⟩)
        exact absurd (hbuild.mp hfirst) hhalf
      · rintro ⟨line, hline, -⟩
        exact absurd (hnone.symm.trans hline) (by simp)
    · rename_i hline
      simp only [reject_specs, List.not_mem_nil, false_imp_iff, implies_true, true_iff]
      exact ⟨_, hline, by simp⟩
    · rename_i line hline
      have hiff : WholeLine parse ↔
          (TakesLine (parse.comparator.getD .gte) line → isInteger line = true) := by
        constructor
        · rintro ⟨_, hline', h⟩
          exact h line (Option.some.inj (hline'.symm.trans hline))
        · exact fun h => ⟨_, hline, fun q hq => by cases hq; exact h⟩
      rw [hiff]
      split
      · rename_i hout
        simp only [reject_specs, List.not_mem_nil, false_imp_iff, implies_true, true_iff]
        rintro ⟨hstep, hmin, hmax, -⟩
        simp [hstep, not_lt.mpr hmin, not_lt.mpr hmax] at hout
      rename_i hin
      simp only [not_or, not_lt, Bool.not_eq_false] at hin
      split
      · rename_i heq
        simp only [reject_specs, List.not_mem_nil, false_imp_iff, implies_true, true_iff]
        exact fun h => h.2.2.2 heq.1
      · rename_i heq
        simp only [CompileResult.specs, List.mem_singleton, forall_eq, hbuild, isWhole_line hin.2.1]
        refine ⟨fun h _ => h, fun h => h ⟨hin.1, hin.2.1, hin.2.2, fun hcomparator => ?_⟩⟩
        simpa [hcomparator] using heq
  · rename_i hclosed
    simp [hclosed]

theorem compileComeback_specs
    (h : spec ∈ (compileComeback tables parse fixture).specs) : Compiled ctx fixture spec := by
  unfold compileComeback at h
  split at h
  · simp at h
  split at h
  · split at h
    · rename_i hteam
      simp [requireTeam_error hteam] at h
    rename_i team hteam
    simp only at h
    split at h
    · simp at h
    obtain rfl := List.mem_singleton.mp h
    exact compiled_of_team (requireTeam_ok hteam) (by decide) (by norm_num) (by simp)
  · simp at h

theorem compileComeback_whole_iff :
    (∀ spec ∈ (compileComeback tables parse fixture).specs, spec.Whole) ↔
      (teamMintWindowOpen fixture = true → WholeScore tables parse fixture) := by
  unfold compileComeback WholeScore
  split
  · rename_i hpre
    simp [List.contains_iff_mem.mp hpre]
  rename_i hpre
  have hphase : fixture.phase ∉ preMatchPhases := by simpa using hpre
  simp only [hphase, not_false_eq_true, true_imp_iff]
  split
  · rename_i hopen
    simp only [hopen, true_imp_iff]
    split
    · rename_i rejected hteam
      simp [requireTeam_error hteam, hteam]
    rename_i team hteam
    simp only [hteam, Except.ok.injEq, forall_eq']
    split
    · rename_i hnot
      simp [not_lt.mpr hnot]
    · rename_i htrailing
      have hwhole : IsWhole 1 := ⟨1, by simp⟩
      simp only [not_le.mp htrailing, true_imp_iff, CompileResult.specs, List.mem_singleton,
        forall_eq]
      exact ⟨fun h => h.anchor _ rfl, fun h => ⟨hwhole, by simpa [buildSpec] using h⟩⟩
  · rename_i hclosed
    simp [hclosed]

/-! ## every claim -/

/-- The claim gets past the gates in front of its compiler. -/
structure Admitted (parse : RawClaimParse) (ctx : CompileContext) (fixture : Fixture) : Prop where
  stake : mentionsMonetaryStake parse.unresolved = false
  listed : ctx.fixture = some fixture
  named : ∀ id ∈ parse.fixtureId, id = fixture.fixtureId
  covered : fixture.coverageUnreliable = false

/-- Where the compiler books a totals line or a comeback, its numbers are whole. -/
structure WholeNumbers (tables : UnicodeTables) (parse : RawClaimParse) (ctx : CompileContext) :
    Prop where
  line : ∀ fixture, Admitted parse ctx fixture → parse.claimType = some .totalsOu →
    teamMintWindowOpen fixture = true → WholeLine parse
  score : ∀ fixture, Admitted parse ctx fixture → parse.claimType = some .comeback →
    teamMintWindowOpen fixture = true → WholeScore tables parse fixture

theorem compileClaim_of_admitted (h : Admitted parse ctx fixture)
    (hclaim : parse.claimType = some claimType) :
    compileClaim tables parse ctx = compileFor tables parse ctx fixture claimType := by
  have hknown : claimTypes.contains claimType = true := by cases claimType <;> decide
  have hnamed : (parse.fixtureId.any fun id => id ≠ fixture.fixtureId) = false := by
    cases hid : parse.fixtureId with
    | none => rfl
    | some id => simpa using h.named id hid
  unfold compileClaim
  simp only [h.stake, hclaim, hknown, h.listed, hnamed, h.covered, Bool.false_eq_true,
    Bool.true_eq_false, if_false]

/-- A claim that offers anything got past the gates. -/
theorem exists_admitted (h : spec ∈ (compileClaim tables parse ctx).specs) :
    ∃ fixture claimType, Admitted parse ctx fixture ∧ parse.claimType = some claimType := by
  unfold compileClaim at h
  split at h
  · simp at h
  rename_i hstake
  split at h
  · split at h <;> simp at h
  rename_i claimType hclaim
  split at h
  · simp at h
  split at h
  · simp at h
  rename_i fixture hfixture
  split at h
  · simp at h
  rename_i hnamed
  split at h
  · simp at h
  rename_i hcovered
  refine ⟨fixture, claimType,
    ⟨by simpa using hstake, hfixture, ?_, by simpa using hcovered⟩, hclaim⟩
  intro id hid
  rw [Option.mem_def.mp hid] at hnamed
  simpa using hnamed

theorem compileFor_compiled (h : spec ∈ (compileFor tables parse ctx fixture claimType).specs) :
    Compiled ctx fixture spec := by
  cases claimType with
  | matchWinner => exact (compileMatchWinner_specs h).1
  | totalsOu => exact compileTotals_specs h
  | teamScoresN => exact (compileTeamScoresN_specs h).1
  | btts => exact (compileBtts_specs h).1
  | comeback => exact compileComeback_specs h
  | playerScoresN => exact (compilePlayerScoresN_specs h).1

theorem compileClaim_compiled (h : spec ∈ (compileClaim tables parse ctx).specs) :
    ∃ fixture, ctx.fixture = some fixture ∧ Compiled ctx fixture spec := by
  obtain ⟨fixture, claimType, hadmitted, hclaim⟩ := exists_admitted h
  rw [compileClaim_of_admitted hadmitted hclaim] at h
  exact ⟨fixture, hadmitted.listed, compileFor_compiled h⟩

theorem compileClaim_whole_iff :
    (∀ spec ∈ (compileClaim tables parse ctx).specs, spec.Whole) ↔
      WholeNumbers tables parse ctx := by
  constructor
  · intro h
    constructor
    · intro fixture hadmitted hclaim
      rw [compileClaim_of_admitted hadmitted hclaim] at h
      exact compileTotals_whole_iff.mp h
    · intro fixture hadmitted hclaim
      rw [compileClaim_of_admitted hadmitted hclaim] at h
      exact compileComeback_whole_iff.mp h
  · intro hwhole spec h
    obtain ⟨fixture, claimType, hadmitted, hclaim⟩ := exists_admitted h
    rw [compileClaim_of_admitted hadmitted hclaim] at h
    cases claimType with
    | matchWinner => exact (show Compiled ctx fixture spec ∧ _ from compileMatchWinner_specs h).2
    | totalsOu => exact compileTotals_whole_iff.mpr (hwhole.line fixture hadmitted hclaim) spec h
    | teamScoresN => exact (show Compiled ctx fixture spec ∧ _ from compileTeamScoresN_specs h).2
    | btts => exact (show Compiled ctx fixture spec ∧ _ from compileBtts_specs h).2
    | comeback => exact compileComeback_whole_iff.mpr (hwhole.score fixture hadmitted hclaim) spec h
    | playerScoresN => exact (compilePlayerScoresN_specs h).2

end

end CalledIt.Engine
