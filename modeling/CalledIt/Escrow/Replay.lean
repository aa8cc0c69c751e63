import CalledIt.Escrow.Program

/-!
# CalledIt.Escrow.Replay

Lives of a market, executed.

`replay` performs a list of moves one after the other.  It reaches exactly the
ledgers the step relation reaches (`run_iff_replay`), so statements about every
run can be evaluated on concrete ones.  `Sample` is such a run, from the opening
of a market to its close, with the addresses, the digest and the signatures the
chain computes for it.
-/

namespace CalledIt.Escrow

open Lib

/-- A call at some clock, or a transfer from outside. -/
inductive Move
  | call (clock : Clock) (c : Call)
  | transfer (amount : UInt64)

def Move.perform (rt : Runtime) (ledger : Ledger) : Move → Option (Entry × Ledger)
  | .call clock c =>
      match execute rt clock ledger c with
      | .ok (ledger', event) => some (.emitted clock event, ledger')
      | .error _ => none
  | .transfer amount => (ledger.receive amount).map fun ledger' => (.received amount, ledger')

/-- Perform the moves in order; a move that fails ends the replay. -/
def replay (rt : Runtime) : Ledger → List Move → Option (List Entry × Ledger)
  | ledger, [] => some ([], ledger)
  | ledger, move :: moves =>
      (move.perform rt ledger).bind fun (entry, ledger') =>
        (replay rt ledger' moves).map fun (trace, last) => (entry :: trace, last)

/-! ## replays are runs -/

section

variable {rt : Runtime} {L L' : Ledger} {entry : Entry} {trace : List Entry}

theorem step_iff_perform :
    Step rt L entry L' ↔ ∃ move : Move, move.perform rt L = some (entry, L') := by
  constructor
  · intro h
    cases h with
    | @call _ clock c event h =>
        refine ⟨.call clock c, ?_⟩
        simp only [Move.perform, h]
    | @foreign _ amount h =>
        refine ⟨.transfer amount, ?_⟩
        simp only [Move.perform, h, Option.map_some]
  · rintro ⟨move, h⟩
    cases move with
    | call clock c =>
        simp only [Move.perform] at h
        split at h
        · next hcall =>
          obtain ⟨rfl, rfl⟩ := Prod.mk.inj (Option.some.inj h)
          exact .call hcall
        · contradiction
    | transfer amount =>
        obtain ⟨_, hreceive, heq⟩ := Option.map_eq_some_iff.mp h
        obtain ⟨rfl, rfl⟩ := Prod.mk.inj heq
        exact .foreign hreceive

theorem replay_cons {move : Move} {moves : List Move} :
    replay rt L (move :: moves) = some (trace, L') ↔
      ∃ entry mid rest, move.perform rt L = some (entry, mid) ∧
        replay rt mid moves = some (rest, L') ∧ trace = entry :: rest := by
  simp only [replay, Option.bind_eq_some_iff, Option.map_eq_some_iff, Prod.exists, Prod.mk.injEq]
  constructor
  · rintro ⟨entry, mid, hmove, rest, last, hrest, rfl, rfl⟩
    exact ⟨entry, mid, rest, hmove, hrest, rfl⟩
  · rintro ⟨entry, mid, rest, hmove, hrest, rfl⟩
    exact ⟨entry, mid, hmove, rest, L', hrest, rfl, rfl⟩

theorem run_of_replay {moves : List Move} (h : replay rt L moves = some (trace, L')) :
    Run (Step rt) L trace L' := by
  induction moves generalizing L trace with
  | nil =>
      obtain ⟨rfl, rfl⟩ := Prod.mk.inj (Option.some.inj h)
      exact .refl L
  | cons move moves ih =>
      obtain ⟨entry, mid, rest, hmove, hrest, rfl⟩ := replay_cons.mp h
      have hstep : Step rt L entry mid := step_iff_perform.mpr ⟨move, hmove⟩
      exact (Run.single hstep).append (ih hrest)

end

/-! ## a sample life -/

namespace Sample

/-- The key whose bytes, read little-endian, are `n`. -/
def pubkey (n : Nat) : Pubkey := ⟨leBytes 32 n, length_leBytes 32 n⟩

def backer : Pubkey :=
  pubkey 0x5c6f0fb4018874f31b12941dbf0967ca725dba3c2ddb52fd95f10974dde3888a
def doubter : Pubkey :=
  pubkey 0x94b3c98f5b0ff65da237eeb4918a8dcbcc7e4cc36654a3565f177da80e773981
def relayer : Pubkey :=
  pubkey 0xdae8e3f02400c0fded4f18428a5a2db5752ebcc2fedb6af4dc774919da0742d5
def firstOracle : Pubkey :=
  pubkey 0x3a470c81b69fb3986da6ad061aefc5f555b07d7f0a9dbd3233457a2c337ebe66
def secondOracle : Pubkey :=
  pubkey 0x2d9fe3b68eda108c94066f30c2be5dacd3449007ed0209ca154092b4d93a510b
def thirdOracle : Pubkey :=
  pubkey 0x3a4b9aba9e9b3544769b83c882adc8af268920799546d9a4931538740b8aa291

def marketUuid : Bytes 16 := ⟨leBytes 16 0x0f0e0d0c0b0a09080706050403020100, rfl⟩
def evidence : Bytes 32 := List.Vector.replicate 32 7

/-- The digest of the sample's market document. -/
def documentHash : Bytes 32 :=
  pubkey 0xb88f00353cbb5cd062627630f2773aad3baa89eb5e29a2061086fc971d49e880

def configKey : Pubkey :=
  pubkey 0xe249ff19fd094d37bd45ede2cf361f955fb3086340cf0b404dd81dfd63af825b
def oracleSetKey : Pubkey :=
  pubkey 0x6208f422746bf1b73ac83ecb81e8084f41e44aa8e8a983080dc79a5b8ff97e94
def marketKey : Pubkey :=
  pubkey 0x929ba804894fa07408ac3d837f8cc5e67055086f58275f21af29f4e30855e83d
def vaultKey : Pubkey :=
  pubkey 0x1960d2370535dfb269eadcf9af56151057becb2ad498f49fdee1265f3697d6cd
def backerPosition : Pubkey :=
  pubkey 0x2dfb111a335ac0f338c335525a265a566691723c28a079056eb4718c67655ad4
def doubterPosition : Pubkey :=
  pubkey 0xf763c2989414f269755d92748d42a0d0753aeb6b7062c705378532d3074a0599
def backerLot : Pubkey :=
  pubkey 0xa213aa145a7416d5957e9107bb56243110570d100ce5499d3e175a8a23131a07
def doubterLot : Pubkey :=
  pubkey 0x537b4b6960909df6764abafca16b286babbe21fd93e29575319a71c1723716e4

/-- The derived addresses of the sample with their bumps. -/
def addresses : List (List (List UInt8) × Pubkey × UInt8) :=
  [([configSeed], configKey, 255),
   ([oracleSetSeed, seedOf 1], oracleSetKey, 255),
   ([marketSeed, marketUuid.toList], marketKey, 254),
   ([solVaultSeed, marketKey.toList], vaultKey, 253),
   ([positionSeed, marketKey.toList, backer.toList], backerPosition, 254),
   ([positionSeed, marketKey.toList, doubter.toList], doubterPosition, 254),
   ([lotSeed, marketKey.toList, backer.toList, seedOf 0], backerLot, 255),
   ([lotSeed, marketKey.toList, doubter.toList, seedOf 0], doubterLot, 255)]

/-- The chain as the sample meets it. -/
def runtime : Runtime :=
  { rentReserve := 890880
    findProgramAddress := fun seeds _ => (addresses.lookup seeds).getD (defaultPubkey, 0)
    associatedTokenAddress := fun _ _ _ => defaultPubkey
    sha256 := fun _ => documentHash
    validateEdwards := fun key => key = backer ∨ key = doubter }

def config : ProtocolConfig :=
  { version := 1
    bump := 255
    paused := false
    configAuthority := relayer
    pauseAuthority := relayer
    marketCreationAuthority := relayer
    feedOperatorAuthority := relayer
    oracleSet := oracleSetKey
    relayerFeePayer := relayer
    residualRecipient := relayer
    clusterGenesisHash := zeroHash
    canonicalUsdcMint := defaultPubkey
    allowedTokenProgram := splTokenId
    maxSolPosition := 1000000000
    maxUsdcPosition := 1000000000
    minSolPosition := 1000000
    minUsdcPosition := 1000000
    maxMarketDurationSeconds := 86400
    maxResolutionDelaySeconds := 86400 }

def oracleSet : OracleSetAccount :=
  { key := oracleSetKey
    oracleSet :=
      { version := 1
        bump := 255
        epoch := 1
        signers := [firstOracle, secondOracle, thirdOracle]
        threshold := 2
        activationSlot := 0
        retirementSlot := none } }

def wallet (key : Pubkey) (lamports : UInt64) : AccountInfo :=
  { key, owner := systemProgramId, lamports, data := .empty }

/-- Some seconds after the market was created. -/
def clock (seconds : Int64) : Clock := { slot := 100, unixTimestamp := 1750000000 + seconds }

/-- Kickoff ten minutes after creation, the cutoff after two hours. -/
def marketArgs : InitializeMarketArgs :=
  { expectedClusterGenesisHash := zeroHash
    expectedProgramId := programId
    expectedConfig := configKey
    expectedOracleSet := oracleSetKey
    marketUuid
    fixtureId := 42
    claimSpecHash := zeroHash
    displayTermsHash := zeroHash
    oddsSourceMessageHash := zeroHash
    marketDocumentHash := documentHash
    quoteTimestamp := 1750000000
    probabilityPpm := 300000
    ratioMilli := 2333
    asset := .sol
    tokenMint := defaultPubkey
    feeBps := 0
    replay := false
    inPlayStartTimestamp := 1750000600
    activationDelaySeconds := 150
    positionCutoffTimestamp := 1750007200
    resolutionDeadline := 1750020000
    oracleSetEpoch := 1 }

def opening : Result (Ledger × Event) :=
  initializeMarket runtime (clock 0)
    { config
      oracleSet
      marketCreationAuthority := relayer
      payer := wallet relayer 5000000000
      vault := wallet vaultKey 0
      tokenMint := wallet defaultPubkey 1 }
    marketArgs

def place (seconds : Int64) (owner : Pubkey) (side : PositionSide) (amount : UInt64) : Move :=
  .call (clock seconds) (.placePosition
    { config
      owner := wallet owner 50000000
      vault := vaultKey
      assetSource := wallet owner 50000000
      tokenMint := wallet defaultPubkey 1 }
    { marketUuid
      side
      amount
      expectedAsset := .sol
      expectedRatioMilli := 2333
      expectedMarketDocumentHash := documentHash
      expectedEventEpoch := 0
      expectedLotNonce := 0
      clientIntentHash := zeroHash
      clientExpiryTimestamp := 1750007200 })

/-- An Ed25519 precompile instruction over one message. -/
def ed25519Instruction (message : List UInt8) (signed : List (Pubkey × List UInt8)) :
    Instruction :=
  let count := signed.length
  let start := 2 + count * 14
  let descriptor (i : Nat) : List UInt8 :=
    [start + i * 96, 65535, start + i * 96 + 64, 65535, start + count * 96, message.length,
      65535].flatMap (leBytes 2)
  { programId := ed25519ProgramId
    data := [UInt8.ofNat count, 0] ++ (List.range count).flatMap descriptor ++
      (signed.flatMap fun (key, signature) => signature ++ key.toList) ++ message }

/-- The attestation that the claim was won. -/
def attestation : SettlementAttestationV1 :=
  { common :=
      { clusterGenesisHash := zeroHash
        escrowProgramId := programId
        marketPda := marketKey
        marketDocumentHash := documentHash
        fixtureId := 42
        oracleSetEpoch := 1
        issuedAt := 1750010000
        expiresAt := 1750010600
        evidenceHash := evidence }
    outcome := .claimWon
    decidingSequence := 9
    terminalPhase := "F"
    regulationScore := none
    fullMatchScore := none
    evidenceSequenceCommitment := evidence
    normalizedEvidenceRoot := evidence }

/-- Two oracles sign the attestation. -/
def signatures : List (Pubkey × List UInt8) :=
  [(firstOracle, leBytes 64
      0x04a00059934a02113e8267b7c0e3e104b6a534886fca908bb070d06d05c0735387849c6323b2a12b4a08fc987b42fa6f55d6b54ffcfbfa3526f78f98d00b861b),
   (secondOracle, leBytes 64
      0x00a577e2b619053e26b07cc114fc56962a4cf2272f90c1cd310e197a739cc8a5d6b694621be46b21d7ad05239d13234534ee0df2ed15b58534e59c563a54e58f)]

def settle : Move :=
  .call (clock 10100) (.settleMarket
    { config
      oracleSet
      preceding := [ed25519Instruction (attestation.encode.toOption.getD []) signatures] }
    { outcome := .claimWon
      decidingSequence := 9
      terminalPhase := "F"
      regulationScore := none
      fullMatchScore := none
      evidenceSequenceCommitment := evidence
      normalizedEvidenceRoot := evidence
      issuedAt := 1750010000
      expiresAt := 1750010600
      evidenceHash := evidence })

def claimAccounts (owner : Pubkey) : ClaimPositionAccounts :=
  { owner := wallet owner 1000000
    vault := vaultKey
    tokenMint := wallet defaultPubkey 1
    ownerTokenAccount := wallet owner 1000000 }

def claim (owner : Pubkey) : Move := .call (clock 10200) (.claimPosition (claimAccounts owner))

def closeLot (owner lot : Pubkey) : Move :=
  .call (clock 10300) (.closePositionLots
    { config
      rentRecipient := wallet relayer 1000000
      remaining := [{ key := lot, owner := programId, isWritable := true, lamports := 2000000 }] }
    owner { nonces := [0] })

def closePosition (owner : Pubkey) : Move :=
  .call (clock 10300) (.closePosition { config, rentRecipient := relayer } owner)

def closeAccounts : CloseMarketAccounts :=
  { vault := vaultKey
    residualRecipient := wallet relayer 5
    tokenMint := wallet defaultPubkey 1
    residualTokenAccount := wallet relayer 5 }

/-- A bet before kickoff, a bet in play that outlives its window, a freeze, a
stray transfer, a settlement, and everything paid out and closed. -/
def moves : List Move :=
  [place 100 backer .back 3000001,
   place 700 doubter .doubt 2000000,
   .call (clock 850) (.activatePositionLot doubter { nonce := 0, expectedEventEpoch := 0 }),
   .call (clock 900) (.freezeMarket { config, feedOperatorAuthority := relayer }
     { expectedEventEpoch := 0, evidenceHash := evidence }),
   .transfer 7,
   settle,
   .call (clock 10150) (.calculatePositionEntitlement doubter),
   .call (clock 10150) (.calculatePositionEntitlement backer),
   claim backer,
   claim doubter,
   closeLot backer backerLot,
   closeLot doubter doubterLot,
   closePosition doubter,
   closePosition backer,
   .call (clock 10400) (.closeMarket closeAccounts)]

/-- The owners as keys of the reference settlement. -/
def userKey (owner : Pubkey) : UInt64 := if owner = backer then 1 else 2

/-- The sample after its first `n` moves. -/
def after (n : Nat) : Option (List Entry × Ledger) :=
  match opening with
  | .ok (ledger, _) => replay runtime ledger (moves.take n)
  | .error _ => none

/-- The sample market after other moves. -/
def played (moves : List Move) : Option (List Entry × Ledger) :=
  match opening with
  | .ok (ledger, _) => replay runtime ledger moves
  | .error _ => none

/-- What can be computed of a replay holds of a life. -/
theorem exists_life_of_played {P : List Entry → Ledger → Prop}
    [∀ trace L, Decidable (P trace L)] (moves : List Move)
    (h : (played moves).any fun r => P r.1 r.2) :
    ∃ opening trace L, Life runtime opening trace L ∧ P trace L := by
  unfold played at h
  split at h
  · next ledger event hopening =>
    obtain ⟨⟨trace, L⟩, hreplay, hP⟩ := (Option.any_eq_true _ _).mp h
    have hopened : Opened runtime ledger := ⟨_, _, _, _, hopening⟩
    exact ⟨ledger, trace, L, ⟨hopened, run_of_replay hreplay⟩, of_decide_eq_true hP⟩
  · simp at h

theorem exists_life {P : List Entry → Ledger → Prop} [∀ trace L, Decidable (P trace L)] (n : Nat)
    (h : (after n).any fun r => P r.1 r.2) :
    ∃ opening trace L, Life runtime opening trace L ∧ P trace L :=
  exists_life_of_played (moves.take n) h

end Sample

end CalledIt.Escrow
