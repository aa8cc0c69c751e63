import CalledIt.Engine.Compile
import CalledIt.Sdk.CanonicalJson

/-!
# CalledIt.Signer.Specification

How a signer reads a claim's specification (`oracle-signer/src/verifier.ts`): the
text has to be JSON, in canonical form, and of the market specification's shape.

The schema is strict: every member of an object is a known field and passes the
field's check, and no field that has to be there is missing.
-/

namespace CalledIt.Signer

open Lib Lib.Json Sdk
open Engine (MarketSpec ClaimType Comparator Period TrustTier Participant EntityRef ClaimAnchor
  IsWhole isWhole_iff)

/-! ## a specification as JSON -/

/-- The code units of a character. -/
def charUnits (c : Char) : Text :=
  if c.toNat < 0x10000 then [UInt16.ofNat c.toNat]
  else [UInt16.ofNat (0xD800 + (c.toNat - 0x10000) / 0x400),
    UInt16.ofNat (0xDC00 + (c.toNat - 0x10000) % 0x400)]

def utf16 (s : String) : Text := s.toList.flatMap charUnits

def claimTypeText : ClaimType → Text
  | .matchWinner => ascii "match_winner"
  | .totalsOu => ascii "totals_ou"
  | .teamScoresN => ascii "team_scores_n"
  | .btts => ascii "btts"
  | .playerScoresN => ascii "player_scores_n"
  | .comeback => ascii "comeback"

def comparatorText : Comparator → Text
  | .gte => ascii "gte"
  | .lte => ascii "lte"
  | .eq => ascii "eq"

def periodText : Period → Text
  | .ft => ascii "FT"
  | .ft90 => ascii "FT_90"

def trustTierText : TrustTier → Text
  | .chainProven => ascii "chain_proven"
  | .oracleResolved => ascii "oracle_resolved"

def participantJson : Participant → Json
  | .one => .number 1
  | .two => .number 2

def entityJson : EntityRef → Json
  | .team participant name => .object
      [(ascii "kind", .string (ascii "team")), (ascii "participant", participantJson participant),
        (ascii "name", .string (utf16 name))]
  | .player normativeId name participant => .object
      [(ascii "kind", .string (ascii "player")), (ascii "normativeId", .number normativeId),
        (ascii "name", .string (utf16 name)),
        (ascii "participant", (participant.map participantJson).getD .null)]

def anchorJson (anchor : ClaimAnchor) : Json := .object
  [(ascii "seq", .number anchor.seq), (ascii "scoreP1", .number anchor.scoreP1),
    (ascii "scoreP2", .number anchor.scoreP2)]

def specJson (spec : MarketSpec) : Json := .object
  ([(ascii "claimType", .string (claimTypeText spec.claimType)),
    (ascii "fixtureId", .number spec.fixtureId),
    (ascii "entityRef", entityJson spec.entityRef),
    (ascii "comparator", .string (comparatorText spec.comparator)),
    (ascii "threshold", .number spec.threshold),
    (ascii "period", .string (periodText spec.period)),
    (ascii "trustTier", .string (trustTierText spec.trustTier))] ++
    spec.anchor.toList.map fun anchor => (ascii "anchor", anchorJson anchor))

/-! ## the schema -/

/-- A field of a strict object. -/
structure Field where
  name : Text
  check : Json → Bool
  optional : Bool

def strictObject (fields : List Field) : Json → Bool
  | .object ms =>
      (fields.all fun f => f.optional || ms.any fun m => m.1 = f.name) &&
        ms.all fun m => fields.any fun f => f.name = m.1 && f.check m.2
  | _ => false

/-- `z.number().int().nonnegative()` -/
def countSchema : Json → Bool
  | .number q => Engine.isInteger q && decide (0 ≤ q)
  | _ => false

/-- `z.string().min(1)` -/
def nameSchema : Json → Bool
  | .string s => s ≠ []
  | _ => false

/-- One of the given strings. -/
def enumSchema (values : List Text) : Json → Bool
  | .string s => values.contains s
  | _ => false

def participantSchema : Json → Bool
  | .number q => q = 1 || q = 2
  | _ => false

def nullable (check : Json → Bool) : Json → Bool
  | .null => true
  | v => check v

def team : Json → Bool := strictObject
  [⟨ascii "kind", enumSchema [ascii "team"], false⟩,
    ⟨ascii "participant", participantSchema, false⟩, ⟨ascii "name", nameSchema, false⟩]

def player : Json → Bool := strictObject
  [⟨ascii "kind", enumSchema [ascii "player"], false⟩, ⟨ascii "normativeId", countSchema, false⟩,
    ⟨ascii "name", nameSchema, false⟩, ⟨ascii "participant", nullable participantSchema, false⟩]

def anchorSchema : Json → Bool := strictObject
  [⟨ascii "seq", countSchema, false⟩, ⟨ascii "scoreP1", countSchema, false⟩,
    ⟨ascii "scoreP2", countSchema, false⟩]

def marketSpecSchema : Json → Bool := strictObject
  [⟨ascii "claimType", enumSchema [ascii "match_winner", ascii "totals_ou", ascii "team_scores_n",
      ascii "btts", ascii "player_scores_n", ascii "comeback"], false⟩,
    ⟨ascii "fixtureId", countSchema, false⟩,
    ⟨ascii "entityRef", fun v => team v || player v, false⟩,
    ⟨ascii "comparator", enumSchema [ascii "gte", ascii "lte", ascii "eq"], false⟩,
    ⟨ascii "threshold", countSchema, false⟩,
    ⟨ascii "period", enumSchema [ascii "FT", ascii "FT_90"], false⟩,
    ⟨ascii "anchor", anchorSchema, true⟩,
    ⟨ascii "trustTier", enumSchema [ascii "chain_proven", ascii "oracle_resolved"], false⟩]

/-- An error of the verifier's own, or the schema's. -/
inductive SpecificationError
  | error (message : String)
  | zodError
  deriving DecidableEq, Repr

/-- What `verify` does with the text of a claim's specification. -/
def readClaimSpecification (claimSpecificationJson : Text) : Except SpecificationError Json := do
  let rawSpec ← okOr (parse claimSpecificationJson)
    (SpecificationError.error "claim specification is not JSON")
  require (canonicalJson rawSpec = claimSpecificationJson)
    (SpecificationError.error "claim specification is not canonical")
  require (marketSpecSchema rawSpec = true) SpecificationError.zodError
  return rawSpec

/-! ## the schema does not see the order of members -/

/-- A check that accepts a value exactly when it accepts the sorted one. -/
def Stable (check : Json → Bool) : Prop := ∀ v, check (sortKeys v) = check v

theorem stable_strictObject {fields : List Field} (h : ∀ f ∈ fields, Stable f.check) :
    Stable (strictObject fields) := by
  intro v
  cases v with
  | object ms =>
      have hperm := List.perm_insertionSort byKey (sortMembers ms)
      rw [sortKeys, strictObject, strictObject]
      congr 1
      · congr 1
        funext f
        rw [hperm.any_eq, sortMembers_eq_map, List.any_map]
        rfl
      · rw [hperm.all_eq, sortMembers_eq_map, List.all_map]
        congr 1
        funext m
        rw [Bool.eq_iff_iff, Function.comp_apply, List.any_eq_true, List.any_eq_true]
        exact exists_congr fun f => and_congr_right fun hf => by rw [h f hf]
  | _ => rfl

theorem stable_countSchema : Stable countSchema := by intro v; cases v <;> rfl

theorem stable_nameSchema : Stable nameSchema := by intro v; cases v <;> rfl

theorem stable_enumSchema (values : List Text) : Stable (enumSchema values) := by
  intro v; cases v <;> rfl

theorem stable_participantSchema : Stable participantSchema := by intro v; cases v <;> rfl

theorem stable_nullable {check : Json → Bool} (h : Stable check) : Stable (nullable check) := by
  intro v
  cases v with
  | null => rfl
  | _ => exact h _

theorem stable_team : Stable team := by
  refine stable_strictObject ?_
  simp [stable_enumSchema, stable_participantSchema, stable_nameSchema]

theorem stable_player : Stable player := by
  refine stable_strictObject ?_
  simp [stable_enumSchema, stable_nullable stable_participantSchema, stable_nameSchema,
    stable_countSchema]

theorem stable_anchorSchema : Stable anchorSchema := by
  refine stable_strictObject ?_
  simp [stable_countSchema]

theorem stable_marketSpecSchema : Stable marketSpecSchema := by
  have hentity : Stable fun v => team v || player v := fun v => by
    simp only [stable_team v, stable_player v]
  refine stable_strictObject ?_
  simp [stable_enumSchema, stable_countSchema, stable_anchorSchema, hentity]

/-! ## what the schema accepts -/

@[simp] theorem countSchema_number (q : ℚ) : countSchema (.number q) = true ↔ IsWhole q := by
  rw [isWhole_iff, countSchema, Bool.and_eq_true, decide_eq_true_eq]

theorem utf16_ne_nil {s : String} (h : s ≠ "") : utf16 s ≠ [] := by
  obtain ⟨c, cs, hcs⟩ := List.exists_cons_of_ne_nil fun hnil => h (String.toList_eq_nil_iff.mp hnil)
  rw [utf16, hcs, List.flatMap_cons, charUnits]
  split <;> simp

theorem participantSchema_participantJson (participant : Participant) :
    participantSchema (participantJson participant) = true := by
  cases participant <;> simp [participantSchema, participantJson]

theorem anchorSchema_anchorJson (anchor : ClaimAnchor) :
    anchorSchema (anchorJson anchor) = true ↔ IsWhole anchor.scoreP1 ∧ IsWhole anchor.scoreP2 := by
  have hseq : IsWhole anchor.seq := ⟨anchor.seq, rfl⟩
  simp +decide [anchorSchema, anchorJson, strictObject, hseq]

/-- The name of the entity has a character. -/
def NamedEntity : EntityRef → Prop
  | .team _ name => name ≠ ""
  | .player _ name _ => name ≠ ""

theorem entitySchema_entityJson {entityRef : EntityRef} (h : NamedEntity entityRef) :
    (team (entityJson entityRef) || player (entityJson entityRef)) = true := by
  cases entityRef with
  | team participant name =>
      have hteam : team (entityJson (.team participant name)) = true := by
        simp +decide [team, entityJson, strictObject, enumSchema, nameSchema, utf16_ne_nil h,
          participantSchema_participantJson]
      rw [hteam, Bool.true_or]
  | player normativeId name participant =>
      have hid : IsWhole normativeId := ⟨normativeId, rfl⟩
      have hside : nullable participantSchema ((participant.map participantJson).getD .null) =
          true := by
        cases participant with
        | none => rfl
        | some participant =>
            cases participant <;> simp [nullable, participantJson, participantSchema]
      have hplayer : player (entityJson (.player normativeId name participant)) = true := by
        simp +decide [player, entityJson, strictObject, enumSchema, nameSchema, utf16_ne_nil h, hid,
          hside]
      rw [hplayer, Bool.or_true]

variable {spec : MarketSpec}

/-- The schema accepts a specification with a named entity exactly when its
numbers are whole. -/
theorem marketSpecSchema_specJson (h : NamedEntity spec.entityRef) :
    marketSpecSchema (specJson spec) = true ↔ spec.Whole := by
  have hid : IsWhole spec.fixtureId := ⟨spec.fixtureId, rfl⟩
  have hentity := entitySchema_entityJson h
  have hclaim : (enumSchema [ascii "match_winner", ascii "totals_ou", ascii "team_scores_n",
      ascii "btts", ascii "player_scores_n", ascii "comeback"]
      (.string (claimTypeText spec.claimType))) = true := by cases spec.claimType <;> decide
  have hcomparator : (enumSchema [ascii "gte", ascii "lte", ascii "eq"]
      (.string (comparatorText spec.comparator))) = true := by cases spec.comparator <;> decide
  have hperiod : (enumSchema [ascii "FT", ascii "FT_90"] (.string (periodText spec.period))) =
      true := by cases spec.period <;> decide
  have htier : (enumSchema [ascii "chain_proven", ascii "oracle_resolved"]
      (.string (trustTierText spec.trustTier))) = true := by cases spec.trustTier <;> decide
  have hwhole : spec.Whole ↔ IsWhole spec.threshold ∧
      ∀ anchor ∈ spec.anchor, anchorSchema (anchorJson anchor) = true := by
    simp only [anchorSchema_anchorJson]
    exact ⟨fun h => ⟨h.threshold, h.anchor⟩, fun h => ⟨h.1, h.2⟩⟩
  rw [hwhole]
  cases hanchor : spec.anchor with
  | none =>
      simp +decide [marketSpecSchema, specJson, strictObject, hid, hentity, hclaim, hcomparator,
        hperiod, htier, hanchor]
  | some anchor =>
      simp +decide [marketSpecSchema, specJson, strictObject, hid, hentity, hclaim, hcomparator,
        hperiod, htier, hanchor]

/-! ## every whole specification can be attested -/

/-- The numbers of a specification are numbers of a script. -/
structure Representable (spec : MarketSpec) : Prop where
  fixtureId : IsDouble spec.fixtureId
  entityRef : ∀ normativeId name participant,
    spec.entityRef = .player normativeId name participant → IsDouble normativeId
  threshold : IsDouble |spec.threshold|
  anchor : ∀ anchor ∈ spec.anchor,
    IsDouble anchor.seq ∧ IsDouble |anchor.scoreP1| ∧ IsDouble |anchor.scoreP2|

theorem printable_natCast {n : ℕ} (h : IsDouble (n : ℚ)) : Printable (.number (n : ℚ)) :=
  .number (by rwa [Nat.abs_cast])

theorem printable_participantJson (participant : Participant) :
    Printable (participantJson participant) := by
  cases participant with
  | one => exact printable_natCast (n := 1) (isDouble_natCast (by norm_num))
  | two => exact printable_natCast (n := 2) (isDouble_natCast (by norm_num))

theorem printable_entityJson {entityRef : EntityRef}
    (h : ∀ normativeId name participant, entityRef = .player normativeId name participant →
      IsDouble normativeId) : Printable (entityJson entityRef) := by
  cases entityRef with
  | team participant name =>
      refine .object (by simp +decide) ?_
      simp only [List.forall_mem_cons, List.not_mem_nil, false_imp_iff, implies_true, and_true]
      exact ⟨.string _, printable_participantJson participant, .string _⟩
  | player normativeId name participant =>
      refine .object (by simp +decide) ?_
      simp only [List.forall_mem_cons, List.not_mem_nil, false_imp_iff, implies_true, and_true]
      refine ⟨.string _, printable_natCast (h _ _ _ rfl), .string _, ?_⟩
      cases participant with
      | none => exact .null
      | some participant => exact printable_participantJson participant

theorem printable_specJson (h : Representable spec) :
    Printable (specJson spec) := by
  refine .object ?_ ?_
  · cases spec.anchor with
    | none => simp +decide
    | some anchor => simp +decide
  · simp only [List.mem_append, or_imp, forall_and, List.forall_mem_cons, List.not_mem_nil,
      false_imp_iff, implies_true, and_true]
    refine ⟨⟨.string _, printable_natCast h.fixtureId, printable_entityJson h.entityRef, .string _,
      .number h.threshold, .string _, .string _⟩, ?_⟩
    intro m hm
    obtain ⟨anchor, hanchor, rfl⟩ := List.mem_map.mp hm
    obtain ⟨hseq, h₁, h₂⟩ := h.anchor anchor (Option.mem_toList.mp hanchor)
    refine .object (by simp +decide) ?_
    simp only [List.forall_mem_cons, List.not_mem_nil, false_imp_iff, implies_true, and_true]
    exact ⟨printable_natCast hseq, .number h₁, .number h₂⟩

/-- The signer's schema accepts the specification, and its canonical text passes
the signer's checks. -/
structure Signable (spec : MarketSpec) : Prop where
  accepted : marketSpecSchema (specJson spec) = true
  attested : readClaimSpecification (canonicalJson (specJson spec)) = .ok (sortKeys (specJson spec))

theorem signable_iff_whole (hname : NamedEntity spec.entityRef)
    (hnumbers : Representable spec) : Signable spec ↔ spec.Whole := by
  rw [← marketSpecSchema_specJson hname]
  refine ⟨Signable.accepted, fun h => ⟨h, ?_⟩⟩
  have hprint := printable_specJson hnumbers
  have hschema : marketSpecSchema (sortKeys (specJson spec)) = true := by
    rw [stable_marketSpecSchema, h]
  unfold readClaimSpecification
  rw [parse_canonicalJson hprint]
  simp [okOr, canonicalJson_sortKeys hprint, hschema, require_pos]

/-! ## every compiled specification -/

open Engine (UnicodeTables RawClaimParse CompileContext Fixture Compiled compileClaim
  compileClaim_compiled compileClaim_whole_iff WholeNumbers)

/-- What is promised of a context: its names have characters, and its identifiers,
sequence numbers and goals are numbers of a script. -/
structure SoundContext (ctx : CompileContext) : Prop where
  names : ∀ fixture ∈ ctx.fixture, fixture.p1Name ≠ "" ∧ fixture.p2Name ≠ ""
  fixtures : ∀ fixture ∈ ctx.fixture, IsDouble fixture.fixtureId ∧ IsDouble fixture.lastSeq ∧
    IsDouble |fixture.p1Goals| ∧ IsDouble |fixture.p2Goals|
  players : ∀ player ∈ ctx.knownPlayers, player.name ≠ "" ∧ IsDouble player.normativeId

theorem namedEntity_of_compiled {ctx : CompileContext} (hctx : SoundContext ctx) {fixture : Fixture}
    (hfixture : ctx.fixture = some fixture) (h : Compiled ctx fixture spec) :
    NamedEntity spec.entityRef := by
  obtain ⟨team, hteam, hspec, -⟩ | ⟨player, hplayer, hspec, -⟩ := h.entityRef
  · obtain ⟨h₁, h₂⟩ := hctx.names fixture hfixture
    rw [hspec]
    obtain rfl | rfl := hteam
    · exact h₁
    · exact h₂
  · rw [hspec]
    exact (hctx.players player hplayer).1

/-- A whole threshold is small, so it is a number of a script whenever it is whole. -/
theorem representable_of_compiled {ctx : CompileContext} (hctx : SoundContext ctx)
    {fixture : Fixture} (hfixture : ctx.fixture = some fixture) (h : Compiled ctx fixture spec)
    (hwhole : IsWhole spec.threshold) : Representable spec := by
  obtain ⟨hid, hseq, h₁, h₂⟩ := hctx.fixtures fixture hfixture
  refine ⟨by rwa [h.fixtureId], ?_, ?_, ?_⟩
  · intro normativeId name participant heq
    obtain ⟨team, -, hspec, -⟩ | ⟨player, hplayer, hspec, -⟩ := h.entityRef
    · exact absurd (heq.symm.trans hspec) (by simp [Engine.TeamRef.toEntityRef])
    · cases heq.symm.trans hspec
      exact (hctx.players player hplayer).2
  · obtain ⟨n, hn⟩ := hwhole
    have hle : (n : ℚ) ≤ 10 := hn ▸ h.threshold
    have hten : n ≤ 10 := by exact_mod_cast hle
    rw [hn, Nat.abs_cast]
    exact isDouble_natCast (hten.trans_lt (by norm_num))
  · intro anchor hanchor
    rw [h.anchor anchor hanchor]
    exact ⟨hseq, h₁, h₂⟩

/-- Every specification the compiler offers can be attested, exactly when the
numbers it books are whole. -/
theorem compiled_signable_iff (tables : UnicodeTables) (parse : RawClaimParse)
    {ctx : CompileContext} (hctx : SoundContext ctx) :
    (∀ spec ∈ (compileClaim tables parse ctx).specs, Signable spec) ↔
      WholeNumbers tables parse ctx := by
  rw [← compileClaim_whole_iff]
  refine forall₂_congr fun spec hspec => ?_
  obtain ⟨fixture, hfixture, hcompiled⟩ := compileClaim_compiled hspec
  have hname := namedEntity_of_compiled hctx hfixture hcompiled
  constructor
  · exact fun h => (marketSpecSchema_specJson hname).mp h.accepted
  · exact fun h => (signable_iff_whole hname
      (representable_of_compiled hctx hfixture hcompiled h.threshold)).mpr h

/-! ## a totals claim without a line -/

/-- The tables on lower-case names without accents. -/
private def plainTables : UnicodeTables := ⟨id, id⟩

private def semifinal : Fixture :=
  { fixtureId := 17
    p1Name := "brazil"
    p2Name := "spain"
    kickoffMs := 1000
    phase := .ns
    minute := none
    p1Goals := 0
    p2Goals := 0
    lastSeq := 0
    coverageUnreliable := false }

private def semifinalContext : CompileContext := ⟨some semifinal, [], 0⟩

private def bareClaim (claimType : ClaimType) : RawClaimParse :=
  { claimType := some claimType
    fixtureId := none
    entityName := some "brazil"
    comparator := none
    threshold := none
    period := none
    unresolved := none }

private theorem semifinalContext_sound : SoundContext semifinalContext := by
  have hzero : IsDouble |(0 : ℚ)| := by rw [abs_zero]; exact isDouble_zero
  refine ⟨?_, ?_, by simp [semifinalContext]⟩
  · rintro fixture ⟨⟩
    decide
  · rintro fixture ⟨⟩
    exact ⟨isDouble_natCast (by norm_num [semifinal]), isDouble_natCast (by norm_num [semifinal]),
      hzero, hzero⟩

/-- Both readings of a claim on the winner can be attested. -/
theorem winner_claim_signable :
    (compileClaim plainTables (bareClaim .matchWinner) semifinalContext).specs.length = 2 ∧
      ∀ spec ∈ (compileClaim plainTables (bareClaim .matchWinner) semifinalContext).specs,
        Signable spec :=
  ⟨by decide +kernel, (compiled_signable_iff plainTables (bareClaim .matchWinner)
    semifinalContext_sound).mpr
      ⟨fun _ _ h => absurd h (by decide), fun _ _ h => absurd h (by decide)⟩⟩

/-- A totals claim without a line is offered at one and a half goals, and that
offer cannot be attested. -/
theorem half_goal_line_rejected :
    SoundContext semifinalContext ∧
      ∃ spec ∈ (compileClaim plainTables (bareClaim .totalsOu) semifinalContext).specs,
        spec.threshold = 3 / 2 ∧ ¬ Signable spec := by
  refine ⟨semifinalContext_sound, Engine.buildSpec .totalsOu 17 (.team .one "brazil") .gte (3 / 2)
    .ft90 none, by decide +kernel, rfl, fun h => ?_⟩
  exact absurd h.accepted (by decide +kernel)

end CalledIt.Signer
