import CalledIt.Engine.Compile

/-!
# CalledIt.Engine.Winnable

Which specifications can be won and lost, and which of them the compiler emits.

Six compilers build specifications of a few shapes; `wellFormed_team` and
`wellFormed_player` say what a shape needs.  Only the suggested lines of a totals claim are
built before any check: they are half-goal lines, which an exact claim without a line
takes over (`compileClaim_wellFormed_iff`).
-/

namespace CalledIt.Engine

open Lib

/-! ## what can be won -/

/-- The thresholds of a type of claim. -/
def InBounds : ClaimType → ℚ → Prop
  | .totalsOu, t => totalsLineMin ≤ t ∧ t ≤ totalsLineMax
  | .teamScoresN, t =>
      isInteger t = true ∧ teamGoalsThresholdMin ≤ t ∧ t ≤ teamGoalsThresholdMax
  | .playerScoresN, t =>
      isInteger t = true ∧ playerGoalsThresholdMin ≤ t ∧ t ≤ playerGoalsThresholdMax
  | .matchWinner, t | .btts, t | .comeback, t => t = 1

/-- A final score, and a final tally of the player, has the outcome. -/
def CanEnd (spec : MarketSpec) (outcome : SettlementOutcome) : Prop :=
  ∃ score phase playerGoals, phase ∈ terminalPhases ∧
    evaluateSpec spec score phase (some playerGoals) = some outcome

def Winnable (spec : MarketSpec) : Prop := CanEnd spec .claimWon ∧ CanEnd spec .claimLost

/-- The end of a match in regulation. -/
def finalScore (p1 p2 : Nat) : ScoreState := ⟨⟨p1, 0, 0, 0⟩, ⟨p2, 0, 0, 0⟩, none, none⟩

def scoreOf : Participant → Nat → Nat → ScoreState
  | .one, mine, theirs => finalScore mine theirs
  | .two, mine, theirs => finalScore theirs mine

variable {comparator : Comparator}

section

variable {spec : MarketSpec} {participant : Participant}

theorem goalsForPeriod_final (participant : Participant) (period : Period) (mine theirs : Nat) :
    goalsForPeriod (scoreOf participant mine theirs) participant period .f = some mine ∧
      goalsForPeriod (scoreOf participant mine theirs) participant.other period .f =
        some theirs := by
  cases participant <;> cases period <;> exact ⟨rfl, rfl⟩

theorem isPeriodComplete_f (period : Period) : isPeriodComplete period .f = true :=
  isPeriodComplete_of_terminal period (by decide)

/-- A finished tally wins and loses, if a whole number can meet the threshold. -/
theorem compareTally_winnable {t : ℚ} (hpos : 0 < t) (hten : t ≤ 10)
    (hwhole : comparator = .eq → isInteger t = true) :
    (∃ n, compareTally n comparator t true = some .claimWon) ∧
      ∃ n, compareTally n comparator t true = some .claimLost := by
  have hover : t < (11 : ℕ) := lt_of_le_of_lt hten (by norm_num)
  have hunder : ¬ ((0 : ℕ) : ℚ) ≥ t := by simpa using hpos
  cases comparator with
  | gte => exact ⟨⟨11, if_pos hover.le⟩, ⟨0, by simp [compareTally, hpos]⟩⟩
  | lte => exact ⟨⟨0, by simp [compareTally, hpos.le]⟩, ⟨11, if_pos hover⟩⟩
  | eq =>
      obtain ⟨n, rfl⟩ := isWhole_iff.mpr ⟨hwhole rfl, hpos.le⟩
      exact ⟨⟨n, by simp [compareTally]⟩, ⟨11, if_pos hover⟩⟩

theorem winner_winnable
    (hclaim : spec.claimType = .matchWinner ∨ spec.claimType = .comeback)
    (hside : spec.entityRef.participant = some participant) : Winnable spec := by
  have hplayed : ∀ mine theirs, evaluateSpec spec (scoreOf participant mine theirs) .f (some 0) =
      compareGoals spec.period .f mine theirs := fun mine theirs => by
    obtain ⟨hmine, htheirs⟩ := goalsForPeriod_final participant spec.period mine theirs
    rcases hclaim with hclaim | hclaim <;>
      simp [evaluateSpec, hclaim, winnerOutcome, isPeriodComplete_f, hside, hmine, htheirs,
        voidPhases]
  exact ⟨⟨scoreOf participant 1 0, .f, 0, by decide, by simp [hplayed, compareGoals]⟩,
    ⟨scoreOf participant 0 1, .f, 0, by decide, by simp [hplayed, compareGoals]⟩⟩

theorem btts_winnable (hclaim : spec.claimType = .btts) : Winnable spec := by
  have hplayed : ∀ p1 p2, evaluateSpec spec (finalScore p1 p2) .f (some 0) =
      bttsOutcome (some p1) (some p2) true := fun p1 p2 => by
    obtain ⟨h1, h2⟩ := goalsForPeriod_final .one spec.period p1 p2
    simp only [scoreOf, Participant.other] at h1 h2
    simp [evaluateSpec, hclaim, isPeriodComplete_f, h1, h2, voidPhases]
  exact ⟨⟨finalScore 1 1, .f, 0, by decide, by simp [hplayed, bttsOutcome]⟩,
    ⟨finalScore 0 0, .f, 0, by decide, by simp [hplayed, bttsOutcome]⟩⟩

/-- A tally that some final score brings to any number. -/
theorem tally_winnable
    (hplayed : ∀ n, ∃ score goals, evaluateSpec spec score .f (some goals) =
      compareTally n spec.comparator spec.threshold true)
    (hpos : 0 < spec.threshold) (hten : spec.threshold ≤ 10)
    (hwhole : spec.comparator = .eq → isInteger spec.threshold = true) : Winnable spec := by
  obtain ⟨⟨won, hwon⟩, lost, hlost⟩ := compareTally_winnable hpos hten hwhole
  obtain ⟨score, goals, hscore⟩ := hplayed won
  obtain ⟨score', goals', hscore'⟩ := hplayed lost
  exact ⟨⟨score, .f, goals, by decide, hscore.trans hwon⟩,
    ⟨score', .f, goals', by decide, hscore'.trans hlost⟩⟩

/-- A claim within its bounds is won by one final score and lost by another, but for an
exact claim that no tally meets. -/
theorem winnable_of_inBounds (hbounds : InBounds spec.claimType spec.threshold)
    (hwhole : spec.comparator = .eq → isInteger spec.threshold = true)
    (hside : spec.claimType ≠ .playerScoresN →
      ∃ participant, spec.entityRef.participant = some participant) : Winnable spec := by
  cases hclaim : spec.claimType with
  | matchWinner =>
      obtain ⟨participant, hside⟩ := hside (by rw [hclaim]; decide)
      exact winner_winnable (.inl hclaim) hside
  | comeback =>
      obtain ⟨participant, hside⟩ := hside (by rw [hclaim]; decide)
      exact winner_winnable (.inr hclaim) hside
  | btts => exact btts_winnable hclaim
  | totalsOu =>
      rw [hclaim] at hbounds
      refine tally_winnable (fun n => ⟨finalScore n 0, 0, ?_⟩)
        (lt_of_lt_of_le (by norm_num [totalsLineMin]) hbounds.1)
        (hbounds.2.trans (by norm_num [totalsLineMax])) hwhole
      obtain ⟨h1, h2⟩ := goalsForPeriod_final .one spec.period n 0
      simp only [scoreOf, Participant.other] at h1 h2
      simp [evaluateSpec, hclaim, isPeriodComplete_f, h1, h2, voidPhases]
  | teamScoresN =>
      rw [hclaim] at hbounds
      obtain ⟨participant, hside⟩ := hside (by rw [hclaim]; decide)
      refine tally_winnable (fun n => ⟨scoreOf participant n 0, 0, ?_⟩)
        (lt_of_lt_of_le zero_lt_one hbounds.2.1) hbounds.2.2 hwhole
      obtain ⟨hmine, -⟩ := goalsForPeriod_final participant spec.period n 0
      simp [evaluateSpec, hclaim, isPeriodComplete_f, hside, hmine, voidPhases]
  | playerScoresN =>
      rw [hclaim] at hbounds
      refine tally_winnable (fun n => ⟨finalScore n 0, n, ?_⟩)
        (lt_of_lt_of_le zero_lt_one hbounds.2.1)
        (hbounds.2.2.trans (by norm_num [playerGoalsThresholdMax])) hwhole
      simp [evaluateSpec, hclaim, isPeriodComplete_f, voidPhases]

/-- No score of any phase wins an exact claim about a fraction of a goal. -/
theorem not_claimWon_of_fraction (hclaim : spec.claimType = .totalsOu)
    (heq : spec.comparator = .eq) (hfraction : isInteger spec.threshold = false)
    (score : ScoreState) (phase : GamePhase) (playerGoals : Option Nat) :
    evaluateSpec spec score phase playerGoals ≠ some .claimWon := by
  have hne : ∀ n : ℕ, (n : ℚ) ≠ spec.threshold := fun n hn => by
    rw [← hn] at hfraction
    simp [isInteger] at hfraction
  unfold evaluateSpec
  rw [hclaim, heq]
  split
  · simp
  · simp only [Option.bind_eq_bind, ne_eq, Option.bind_eq_some_iff, not_exists, not_and]
    intro g1 _ g2 _
    unfold compareTally
    have hsum := hne (g1 + g2)
    simp only [hsum, if_false]
    split_ifs <;> simp

end

/-! ## what is well formed -/

/-- Play has not begun, or is in regulation and not known to be past the cutoff. -/
def MintWindow (fixture : Fixture) : Prop :=
  fixture.phase = .ns ∨
    fixture.phase ∈ regulationInplayPhases ∧
      ∀ minute ∈ fixture.minute, minute ≤ inplayMintCutoffMinute

/-- What the compiler owes a specification it emits. -/
structure WellFormed (ctx : CompileContext) (fixture : Fixture) (spec : MarketSpec) : Prop where
  fixtureId : spec.fixtureId = fixture.fixtureId
  trustTier : spec.trustTier = .oracleResolved ↔ spec.claimType = .playerScoresN
  threshold : InBounds spec.claimType spec.threshold
  whole : spec.comparator = .eq → isInteger spec.threshold = true
  comeback : spec.claimType = .comeback → ∃ participant,
    spec.entityRef.participant = some participant ∧
      spec.anchor = some ⟨fixture.lastSeq, fixture.p1Goals, fixture.p2Goals⟩ ∧
      (goalsFor fixture participant).1 < (goalsFor fixture participant).2
  player : spec.claimType = .playerScoresN →
    fixture.phase = .ns ∧ ctx.nowMs < fixture.kickoffMs
  team : spec.claimType ≠ .playerScoresN → MintWindow fixture
  winnable : Winnable spec

theorem trustTierFor_iff (claimType : ClaimType) :
    trustTierFor claimType = .oracleResolved ↔ claimType = .playerScoresN := by
  cases claimType <;> decide

variable {tables : UnicodeTables} {parse : RawClaimParse} {ctx : CompileContext} {fixture : Fixture}
  {spec : MarketSpec}

theorem mintWindow_of_open (h : teamMintWindowOpen fixture = true) : MintWindow fixture := by
  unfold teamMintWindowOpen at h
  split at h
  · next hpre => exact .inl (by simpa [preMatchPhases] using hpre)
  · split at h
    · next hinplay =>
      refine .inr ⟨List.contains_iff_mem.mp hinplay, fun minute hminute => ?_⟩
      rw [Option.mem_def.mp hminute] at h
      exact of_decide_eq_true h
    · cases h

theorem wellFormed_team {claimType : ClaimType} {team : TeamRef} {threshold : ℚ} {period : Period}
    {anchor : Option ClaimAnchor} (hwindow : MintWindow fixture)
    (hclaim : claimType ≠ .playerScoresN) (hbounds : InBounds claimType threshold)
    (hwhole : comparator = .eq → isInteger threshold = true) (hanchor : claimType = .comeback →
      anchor = some ⟨fixture.lastSeq, fixture.p1Goals, fixture.p2Goals⟩ ∧
        (goalsFor fixture team.participant).1 < (goalsFor fixture team.participant).2) :
    WellFormed ctx fixture (buildSpec claimType fixture.fixtureId team.toEntityRef comparator
      threshold period anchor) where
  fixtureId := rfl
  trustTier := trustTierFor_iff claimType
  threshold := hbounds
  whole := hwhole
  comeback h := ⟨team.participant, rfl, hanchor h⟩
  player h := absurd h hclaim
  team _ := hwindow
  winnable := winnable_of_inBounds hbounds hwhole fun _ => ⟨team.participant, rfl⟩

theorem wellFormed_player {player : PlayerRef} {threshold : ℚ} {period : Period}
    (hopen : fixture.phase = .ns ∧ ctx.nowMs < fixture.kickoffMs)
    (hbounds : InBounds .playerScoresN threshold) :
    WellFormed ctx fixture (buildSpec .playerScoresN fixture.fixtureId player.toEntityRef
      comparator threshold period none) where
  fixtureId := rfl
  trustTier := trustTierFor_iff .playerScoresN
  threshold := hbounds
  whole _ := hbounds.1
  comeback h := by cases h
  player _ := hopen
  team h := absurd rfl h
  winnable := winnable_of_inBounds hbounds (fun _ => hbounds.1) fun h => absurd rfl h

/-! ## the compilers -/

theorem compileMatchWinner_wellFormed (h : spec ∈ (compileMatchWinner tables parse fixture).specs) :
    WellFormed ctx fixture spec := by
  unfold compileMatchWinner at h
  split at h
  · next hopen =>
    split at h
    · next hteam => simp [requireTeam_error hteam] at h
    · next team hteam =>
      have hspec : ∀ period, WellFormed ctx fixture
          (buildSpec .matchWinner fixture.fixtureId team.toEntityRef .gte 1 period none) :=
        fun period => wellFormed_team (mintWindow_of_open hopen) (by decide) rfl (by simp) (by simp)
      split at h
      · simp only [CompileResult.specs, List.map_cons, List.map_nil, List.mem_cons,
          List.not_mem_nil, or_false] at h
        obtain rfl | rfl := h
        · exact hspec .ft90
        · exact hspec .ft
      · obtain rfl := List.mem_singleton.mp h
        exact hspec _
  · simp at h

theorem compileTeamScoresN_wellFormed
    (h : spec ∈ (compileTeamScoresN tables parse fixture).specs) :
    WellFormed ctx fixture spec := by
  unfold compileTeamScoresN at h
  split at h
  · next hopen =>
    split at h
    · next hteam => simp [requireTeam_error hteam] at h
    · split at h
      · simp at h
      · next threshold hthreshold =>
        have hbounds := validIntThreshold_eq_some hthreshold
        obtain rfl := List.mem_singleton.mp h
        exact wellFormed_team (mintWindow_of_open hopen) (by decide) hbounds (fun _ => hbounds.1)
          (by simp)
  · simp at h

theorem compileBtts_wellFormed (h : spec ∈ (compileBtts parse fixture).specs) :
    WellFormed ctx fixture spec := by
  unfold compileBtts at h
  split at h
  · next hopen =>
    obtain rfl := List.mem_singleton.mp h
    exact wellFormed_team (mintWindow_of_open hopen) (by decide) rfl (by simp) (by simp)
  · simp at h

theorem compileComeback_wellFormed (h : spec ∈ (compileComeback tables parse fixture).specs) :
    WellFormed ctx fixture spec := by
  unfold compileComeback at h
  split at h
  · simp at h
  split at h
  · next hopen =>
    split at h
    · next hteam => simp [requireTeam_error hteam] at h
    · next team hteam =>
      simp only at h
      split at h
      · simp at h
      · next htrailing =>
        obtain rfl := List.mem_singleton.mp h
        exact wellFormed_team (mintWindow_of_open hopen) (by decide) rfl (by simp)
          fun _ => ⟨rfl, not_le.mp htrailing⟩
  · simp at h

theorem compilePlayerScoresN_wellFormed
    (h : spec ∈ (compilePlayerScoresN tables parse fixture ctx).specs) :
    WellFormed ctx fixture spec := by
  unfold compilePlayerScoresN at h
  split at h
  · next hopen =>
    have hkickoff : fixture.phase = .ns ∧ ctx.nowMs < fixture.kickoffMs := by
      simpa [isPreKickoff, preMatchPhases] using hopen
    split at h
    · simp at h
    · split at h
      · simp at h
      · next threshold hthreshold =>
        have hbounds := validIntThreshold_eq_some hthreshold
        split at h
        · obtain rfl := List.mem_singleton.mp h
          exact wellFormed_player hkickoff hbounds
        · simp only [CompileResult.specs, List.mem_cons, List.not_mem_nil, or_false] at h
          obtain rfl | rfl := h
          · exact wellFormed_player hkickoff hbounds
          -- a player's threshold is in the bounds of a team's
          · have hteam : InBounds .teamScoresN threshold :=
              ⟨hbounds.1, hbounds.2.1, hbounds.2.2.trans
                (by norm_num [playerGoalsThresholdMax, teamGoalsThresholdMax])⟩
            exact wellFormed_team (.inl hkickoff.1) (by decide) hteam (fun _ => hbounds.1) (by simp)
  · simp at h

/-- The suggested lines are taken before the check that an exact claim has a whole
number. -/
theorem compileTotals_wellFormed_iff :
    (∀ spec ∈ (compileTotals parse fixture).specs, WellFormed ctx fixture spec) ↔
      ¬ (teamMintWindowOpen fixture = true ∧ parse.comparator = some .eq ∧
        parse.threshold = none) := by
  have hspec : ∀ {line period}, teamMintWindowOpen fixture = true →
      totalsLineMin ≤ line → line ≤ totalsLineMax →
      (parse.comparator.getD .gte = .eq → isInteger line = true) →
      WellFormed ctx fixture (buildSpec .totalsOu fixture.fixtureId
        (TeamRef.toEntityRef ⟨.one, fixture.p1Name⟩) (parse.comparator.getD .gte) line period
          none) := fun hopen hmin hmax hwhole =>
    wellFormed_team (mintWindow_of_open hopen) (by decide) ⟨hmin, hmax⟩ hwhole (by simp)
  have hexact : parse.comparator.getD .gte = .eq ↔ parse.comparator = some .eq := by
    cases parse.comparator <;> simp
  unfold compileTotals
  split
  · next hopen =>
    simp only [hopen, true_and]
    split
    · next hnone =>
      simp only [hnone, and_true, CompileResult.specs, List.map_map, List.mem_map,
        Function.comp_apply, forall_exists_index, and_imp, forall_apply_eq_imp_iff₂]
      constructor
      · intro h heq
        have hhalf : isInteger (3 / 2) = true :=
          (h (3 / 2) (by simp [totalsClarifyLines])).whole (hexact.mpr heq)
        exact absurd hhalf (by decide +kernel)
      · intro hother line hline
        simp only [totalsClarifyLines, List.mem_cons, List.not_mem_nil, or_false] at hline
        obtain rfl | rfl | rfl := hline <;>
          exact hspec hopen (by norm_num [totalsLineMin]) (by norm_num [totalsLineMax])
            fun heq => absurd (hexact.mp heq) hother
    · next hline => simp [hline]
    · next line hline =>
      simp only [hline, reduceCtorEq, and_false, not_false_eq_true, iff_true]
      split
      · simp
      · next hin =>
        simp only [not_or, not_lt] at hin
        split
        · simp
        · next hfraction =>
          intro spec h
          obtain rfl := List.mem_singleton.mp h
          exact hspec hopen hin.2.1 hin.2.2 fun heq => by simpa [heq] using hfraction
  · next hclosed => simp [hclosed]

/-! ## every claim -/

/-- An exact claim about the goals of a match that names no number, where the compiler
takes it up. -/
def ExactWithoutLine (parse : RawClaimParse) (ctx : CompileContext) : Prop :=
  ∃ fixture, Admitted parse ctx fixture ∧ parse.claimType = some .totalsOu ∧
    teamMintWindowOpen fixture = true ∧ parse.comparator = some .eq ∧ parse.threshold = none

/-- The compiler emits well-formed specifications, but for the lines it suggests to an
exact claim. -/
theorem compileClaim_wellFormed_iff (tables : UnicodeTables) (parse : RawClaimParse)
    (ctx : CompileContext) :
    (∀ spec ∈ (compileClaim tables parse ctx).specs,
        ∃ fixture, ctx.fixture = some fixture ∧ WellFormed ctx fixture spec) ↔
      ¬ ExactWithoutLine parse ctx := by
  constructor
  · rintro h ⟨fixture, hadmitted, hclaim, hexact⟩
    rw [compileClaim_of_admitted hadmitted hclaim] at h
    have hwell : ∀ spec ∈ (compileTotals parse fixture).specs, WellFormed ctx fixture spec :=
      fun spec hspec => by
        obtain ⟨fixture', hlisted, hwell⟩ := h spec hspec
        obtain rfl := Option.some.inj (hadmitted.listed.symm.trans hlisted)
        exact hwell
    exact compileTotals_wellFormed_iff.mp hwell hexact
  · intro hother spec h
    obtain ⟨fixture, claimType, hadmitted, hclaim⟩ := exists_admitted h
    rw [compileClaim_of_admitted hadmitted hclaim] at h
    refine ⟨fixture, hadmitted.listed, ?_⟩
    cases claimType with
    | matchWinner => exact compileMatchWinner_wellFormed h
    | totalsOu =>
        exact compileTotals_wellFormed_iff.mpr
          (fun hexact => hother ⟨fixture, hadmitted, hclaim, hexact⟩) spec h
    | teamScoresN => exact compileTeamScoresN_wellFormed h
    | btts => exact compileBtts_wellFormed h
    | comeback => exact compileComeback_wellFormed h
    | playerScoresN => exact compilePlayerScoresN_wellFormed h

namespace Sample

def beforeKickoff : CompileContext where
  fixture := some
    { fixtureId := 17
      p1Name := "Reds"
      p2Name := "Blues"
      kickoffMs := 1000
      phase := .ns
      minute := none
      p1Goals := 0
      p2Goals := 0
      lastSeq := 0
      coverageUnreliable := false }
  knownPlayers := []
  nowMs := 0

/-- An exact number of goals, and no number. -/
def exactlySomeGoals : RawClaimParse where
  claimType := some .totalsOu
  fixtureId := none
  entityName := none
  comparator := some .eq
  threshold := none
  period := none
  unresolved := none

end Sample

/-- "Over 1.5" is offered as exactly one and a half goals, which no score wins. -/
theorem exactly_one_and_a_half :
    ∃ spec ∈ (compileClaim ⟨id, id⟩ Sample.exactlySomeGoals Sample.beforeKickoff).specs,
      spec.comparator = .eq ∧ isInteger spec.threshold = false ∧
        ∀ score phase playerGoals,
          evaluateSpec spec score phase playerGoals ≠ some .claimWon := by
  refine ⟨buildSpec .totalsOu 17 (.team .one "Reds") .eq (3 / 2) .ft90 none, ?_, rfl,
    by decide +kernel, ?_⟩
  · simp [compileClaim, Sample.exactlySomeGoals, Sample.beforeKickoff, mentionsMonetaryStake,
      claimTypes, compileFor, compileTotals, teamMintWindowOpen, preMatchPhases,
      CompileResult.specs, totalsClarifyLines, TeamRef.toEntityRef]
  · exact not_claimWon_of_fraction rfl rfl (by decide +kernel)

end CalledIt.Engine
