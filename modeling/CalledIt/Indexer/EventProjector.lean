import CalledIt.Indexer.FinalizedIndexer

/-!
# CalledIt.Indexer.EventProjector

What an event is resolved to (`engine/src/escrow/event-projector.ts`).

The projector reads the market's link in the database and, for some events, accounts that
are on the chain now; the sides of the positions that it has seen placed are in memory.
`Projectable` says what an event needs so that it is resolved at all
(`project_ok_iff`).
-/

namespace CalledIt.Indexer

open Escrow

/-! ## what the projector reads -/

/-- An account of the chain, with the program that owns it. -/
structure DecodedEscrowAccount (α : Type) where
  ownerProgramId : String
  value : α

structure EscrowMarketLink where
  marketId : Bytes 16
  custodyVersion : Nat
  cluster : String
  genesisHash : String
  programId : String
  marketPda : Pubkey
  vaultPda : Pubkey
  asset : Asset
  mintPubkey : Option Pubkey
  documentHash : Bytes 32
  oracleEpoch : UInt64
  eventEpoch : UInt64
  ratioMilli : Nat
  chainState : EscrowChainState
  finalized : Bool
  projectionStale : Bool

/-- `EscrowPlacementMarketLinkResult`. -/
inductive MarketLinkResult
  | notFound
  | found (link : EscrowMarketLink)
  | rejected

structure ProjectorState where
  hasMarket : Bytes 16 → Bool
  getMarketLink : Pubkey → MarketLinkResult
  market : Pubkey → Option (DecodedEscrowAccount Market)
  position : Pubkey → Option (DecodedEscrowAccount UserPosition)
  /-- The only part that is in memory. -/
  positionSides : Pubkey → Option PositionSide

structure ProjectorDeployment where
  cluster : String
  genesisHash : String
  programId : String
  custodyVersion : Nat

/-! ## the projector -/

section Projector

variable (deployment : ProjectorDeployment) (state : ProjectorState)

/-- The link is of this deployment, final and up to date. -/
def EscrowMarketLink.Current (deployment : ProjectorDeployment) (address : Pubkey)
    (link : EscrowMarketLink) : Prop :=
  link.marketPda = address ∧ link.cluster = deployment.cluster ∧
    link.genesisHash = deployment.genesisHash ∧ link.programId = deployment.programId ∧
      link.finalized = true ∧ link.projectionStale = false

instance (address : Pubkey) (link : EscrowMarketLink) :
    Decidable (link.Current deployment address) :=
  inferInstanceAs (Decidable (_ ∧ _))

def historicalMarket (address : Pubkey) : Except ProjectionError (Option EscrowMarketLink) :=
  match state.getMarketLink address with
  | .notFound => .ok none
  | .rejected => .error .historyUnavailable
  | .found link =>
      if link.Current deployment address then .ok (some link) else .error .historyUnavailable

/-- `market`. -/
def readMarket (address : Pubkey) : Except ProjectionError Market :=
  match state.market address with
  | none => .error .marketUnavailable
  | some account =>
      if account.ownerProgramId ≠ deployment.programId then .error .accountOwnerMismatch
      else .ok account.value

/-- `position`. -/
def readPosition (address : Pubkey) : Except ProjectionError UserPosition :=
  match state.position address with
  | none => .error .positionUnavailable
  | some account =>
      if account.ownerProgramId ≠ deployment.programId then .error .accountOwnerMismatch
      else .ok account.value

def linkMatches (link : EscrowMarketLink) (event : MarketInitialized) : Prop :=
  link.marketId = event.marketUuid ∧ link.marketPda = event.market ∧ link.asset = event.asset ∧
    link.vaultPda = event.vault ∧ link.ratioMilli = event.ratioMilli.toNat ∧
      link.documentHash = event.marketDocumentHash ∧ link.finalized = true ∧
        link.projectionStale = false

instance (link : EscrowMarketLink) (event : MarketInitialized) : Decidable (linkMatches link event) :=
  inferInstanceAs (Decidable (_ ∧ _))

def accountMatches (market : Market) (event : MarketInitialized) : Prop :=
  market.marketUuid = event.marketUuid ∧ market.marketDocumentHash = event.marketDocumentHash ∧
    market.asset = event.asset ∧ market.ratioMilli = event.ratioMilli ∧ market.vault = event.vault

instance (market : Market) (event : MarketInitialized) : Decidable (accountMatches market event) :=
  inferInstanceAs (Decidable (_ ∧ _))

def projectMarketInitialized (event : MarketInitialized) :
    Except ProjectionError (Option EscrowFinalizedProjection) :=
  match state.getMarketLink event.market with
  | .found link =>
      if linkMatches link event then
        .ok (some (.market
          { marketId := link.marketId, custodyVersion := link.custodyVersion,
            marketPda := link.marketPda, vaultPda := link.vaultPda, asset := link.asset,
            mintPubkey := link.mintPubkey, documentHash := link.documentHash,
            oracleEpoch := link.oracleEpoch, eventEpoch := link.eventEpoch,
            ratioMilli := link.ratioMilli }))
      else .error .eventMismatch
  | .rejected => .error .historyUnavailable
  | .notFound =>
      if state.hasMarket event.marketUuid = false then .ok none
      else do
        let market ← readMarket deployment state event.market
        if accountMatches market event then
          .ok (some (.market
            { marketId := event.marketUuid, custodyVersion := deployment.custodyVersion,
              marketPda := event.market, vaultPda := event.vault, asset := event.asset,
              mintPubkey := if event.asset = .usdc then some market.tokenMint else none,
              documentHash := event.marketDocumentHash, oracleEpoch := market.oracleSetEpoch,
              eventEpoch := 0, ratioMilli := event.ratioMilli.toNat }))
        else .error .eventMismatch

/-- The side of a position: from memory, else from its account. -/
def positionSide (market position owner : Pubkey) : Except ProjectionError PositionSide :=
  match state.positionSides position with
  | some side => .ok side
  | none => do
      let account ← readPosition deployment state position
      if account.market = market ∧ account.owner = owner then .ok account.side
      else .error .eventMismatch

/-- What comes of an event of a market with a link. -/
def projectKnown (link : EscrowMarketLink) :
    Event → Except ProjectionError (Option EscrowFinalizedProjection)
  | .positionPlaced event =>
      .ok (some (.position
        { marketId := link.marketId, positionPda := event.position, ownerPubkey := event.owner,
          lotNonce := event.nonce, eventKind := .placed, side := event.side, asset := event.asset,
          amountAtomic := event.amount, eventEpoch := event.eventEpoch,
          state := if event.pending then .pending else .active }))
  | .positionActivated event => do
      let side ← positionSide deployment state event.market event.position event.owner
      .ok (some (.position
        { marketId := link.marketId, positionPda := event.position, ownerPubkey := event.owner,
          lotNonce := event.nonce, eventKind := .activated, side, asset := link.asset,
          amountAtomic := event.amount, eventEpoch := event.eventEpoch, state := .active }))
  | .positionInvalidated event => do
      let side ← positionSide deployment state event.market event.position event.owner
      .ok (some (.position
        { marketId := link.marketId, positionPda := event.position, ownerPubkey := event.owner,
          lotNonce := event.nonce, eventKind := .invalidated, side, asset := link.asset,
          amountAtomic := event.amount, eventEpoch := event.eventEpoch, state := .invalidated }))
  | .marketSettled event =>
      if event.outcome = .unresolved then .error .eventMismatch
      else
        .ok (some (.settlement
          { marketId := link.marketId, outcome := event.outcome,
            evidenceHash := event.evidenceHash, documentHash := link.documentHash,
            oracleEpoch := link.oracleEpoch }))
  | .marketVoided event =>
      .ok (some (.settlement
        { marketId := link.marketId, outcome := .void, evidenceHash := event.evidenceHash,
          documentHash := link.documentHash, oracleEpoch := link.oracleEpoch }))
  | .positionClaimed event =>
      if link.asset ≠ event.asset ∨ (link.chainState ≠ .settled ∧ link.chainState ≠ .voided) then
        .error .eventMismatch
      else
        .ok (some (.claim
          { marketId := link.marketId, ownerPubkey := event.owner,
            destinationPubkey := event.destination, asset := event.asset,
            amountAtomic := event.amount,
            claimKind := if link.chainState = .voided then .refund else .payout }))
  | .marketClosed event =>
      if link.asset ≠ event.asset then .error .eventMismatch
      else
        .ok (some (.marketClosed
          { marketId := link.marketId, marketPda := event.market,
            documentHash := link.documentHash, asset := event.asset,
            dustAmountAtomic := event.dustAmount }))
  | .marketFrozen event => projectEpoch .frozen event
  | .marketUnfrozen event => projectEpoch .open event
  | _ => .ok none
where
  projectEpoch (state : EscrowChainState) (event : EpochChanged) :
      Except ProjectionError (Option EscrowFinalizedProjection) :=
    if event.eventEpoch < link.eventEpoch then .ok none
    else if event.eventEpoch = link.eventEpoch then
      if link.chainState = state ∨ link.chainState = .settled ∨ link.chainState = .voided ∨
          link.chainState = .closed then .ok none
      else .error .eventMismatch
    else
      .ok (some (.marketState
        { marketId := link.marketId, state, eventEpoch := event.eventEpoch,
          evidenceHash := event.evidenceHash }))

/-- The market whose link an event needs. -/
def linkedMarket : Event → Option Pubkey
  | .positionPlaced event => some event.market
  | .positionActivated event => some event.market
  | .positionInvalidated event => some event.market
  | .marketSettled event => some event.market
  | .marketVoided event => some event.market
  | .positionClaimed event => some event.market
  | .marketClosed event => some event.market
  | .marketFrozen event => some event.market
  | .marketUnfrozen event => some event.market
  | _ => none

def projectEvent (event : Event) : Except ProjectionError (Option EscrowFinalizedProjection) :=
  match event, linkedMarket event with
  | .marketInitialized event, _ => projectMarketInitialized deployment state event
  | _, none => .ok none
  | event, some market => do
      match ← historicalMarket deployment state market with
      | none => .ok none
      | some link => projectKnown deployment state link event

/-- The sides in memory after a placement of a market with a link. -/
def rememberSide (event : Event) : ProjectorState :=
  match event with
  | .positionPlaced placed =>
      match historicalMarket deployment state placed.market with
      | .ok (some _) =>
          { state with
            positionSides := fun position =>
              if position = placed.position then some placed.side
              else state.positionSides position }
      | _ => state
  | _ => state

/-- `SolanaEscrowEventProjector.project`. -/
def projectProgramEvent :
    EscrowProgramEvent → Except ProjectionError (Option EscrowFinalizedProjection) × ProjectorState
  | .protocol => (.ok none, state)
  | .market event => (projectEvent deployment state event, rememberSide deployment state event)

/-! ## what an event needs -/

/-- The side of a position is in memory, or its account is still there. -/
def HasSide (market position owner : Pubkey) : Prop :=
  (∃ side, state.positionSides position = some side) ∨
    ∃ account, state.position position = some account ∧
      account.ownerProgramId = deployment.programId ∧ account.value.market = market ∧
        account.value.owner = owner

/-- The epoch of a freeze is old or new, or the link has the state, or is terminal. -/
def EpochAllows (link : EscrowMarketLink) (state : EscrowChainState) (event : EpochChanged) : Prop :=
  event.eventEpoch = link.eventEpoch →
    link.chainState ∈ [state, .settled, .voided, .closed]

def LinkAllows (link : EscrowMarketLink) : Event → Prop
  | .positionActivated event => HasSide deployment state event.market event.position event.owner
  | .positionInvalidated event => HasSide deployment state event.market event.position event.owner
  | .marketSettled event => event.outcome ≠ .unresolved
  | .positionClaimed event =>
      link.asset = event.asset ∧ link.chainState ∈ [EscrowChainState.settled, .voided]
  | .marketClosed event => link.asset = event.asset
  | .marketFrozen event => EpochAllows link .frozen event
  | .marketUnfrozen event => EpochAllows link .open event
  | _ => True

def InitializedAllows (event : MarketInitialized) : Prop :=
  match state.getMarketLink event.market with
  | .found link => linkMatches link event
  | .rejected => False
  | .notFound => state.hasMarket event.marketUuid = true →
      ∃ account, state.market event.market = some account ∧
        account.ownerProgramId = deployment.programId ∧ accountMatches account.value event

def EventProjectable (event : Event) : Prop :=
  match event, linkedMarket event with
  | .marketInitialized event, _ => InitializedAllows deployment state event
  | _, none => True
  | event, some market => match state.getMarketLink market with
      | .notFound => True
      | .rejected => False
      | .found link => link.Current deployment market ∧ LinkAllows deployment state link event

/-- The event is resolved to something, or to nothing. -/
def Projectable : EscrowProgramEvent → Prop
  | .protocol => True
  | .market event => EventProjectable deployment state event

end Projector

variable {event : Event}

section Projectable

variable {deployment : ProjectorDeployment} {state : ProjectorState}

theorem isOk_positionSide {market position owner : Pubkey} :
    (∃ side, positionSide deployment state market position owner = .ok side) ↔
      HasSide deployment state market position owner := by
  unfold positionSide HasSide readPosition
  cases state.positionSides position with
  | some side => simp
  | none =>
      cases state.position position with
      | none => simp [bind, Except.bind]
      | some account =>
          by_cases howner : account.ownerProgramId = deployment.programId
          · by_cases hsame : account.value.market = market ∧ account.value.owner = owner
            · simp [bind, Except.bind, howner, hsame]
            · simp [bind, Except.bind, howner, hsame]
          · simp [bind, Except.bind, howner]

theorem isOk_projectMarketInitialized {event : MarketInitialized} :
    (∃ r, projectMarketInitialized deployment state event = .ok r) ↔
      InitializedAllows deployment state event := by
  unfold projectMarketInitialized InitializedAllows readMarket
  cases state.getMarketLink event.market with
  | found link => by_cases hsame : linkMatches link event <;> simp [hsame]
  | rejected => simp
  | notFound =>
      cases state.hasMarket event.marketUuid with
      | false => simp
      | true =>
          cases state.market event.market with
          | none => simp [bind, Except.bind]
          | some account =>
              by_cases howner : account.ownerProgramId = deployment.programId
              · by_cases hsame : accountMatches account.value event <;>
                  simp [bind, Except.bind, howner, hsame]
              · simp [bind, Except.bind, howner]

theorem isOk_projectEpoch {link : EscrowMarketLink} {chainState : EscrowChainState}
    {event : EpochChanged} :
    (∃ r, projectKnown.projectEpoch link chainState event = .ok r) ↔
      EpochAllows link chainState event := by
  unfold projectKnown.projectEpoch EpochAllows
  split
  · next hold =>
      have hne : event.eventEpoch ≠ link.eventEpoch := fun h => by simp [h] at hold
      simp [hne]
  · split
    · next hsame =>
        by_cases hstate : link.chainState ∈ [chainState, .settled, .voided, .closed]
        · simp_all
        · simp_all
    · next hne => simp [hne]

theorem isOk_bind_ok {α β : Type} {x : Except ProjectionError α} {f : α → β} :
    (∃ r, (do let a ← x; .ok (f a) : Except ProjectionError β) = .ok r) ↔ ∃ a, x = .ok a := by
  cases x <;> simp [bind, Except.bind]

theorem isOk_projectKnown {link : EscrowMarketLink} :
    (∃ r, projectKnown deployment state link event = .ok r) ↔
      LinkAllows deployment state link event := by
  cases event with
  | positionActivated event | positionInvalidated event =>
      simp only [projectKnown, LinkAllows]
      rw [isOk_bind_ok]
      exact isOk_positionSide
  | marketFrozen event | marketUnfrozen event => exact isOk_projectEpoch
  | marketSettled event =>
      simp only [projectKnown, LinkAllows]
      split <;> simp_all
  | positionClaimed event =>
      simp only [projectKnown, LinkAllows, List.mem_cons, List.not_mem_nil, or_false]
      split <;> simp_all <;> tauto
  | marketClosed event =>
      simp only [projectKnown, LinkAllows]
      split <;> simp_all
  | _ => simp [projectKnown, LinkAllows]

/-- An event that needs its market's link. -/
theorem isOk_linked {market : Pubkey} :
    (∃ r, (do
      match ← historicalMarket deployment state market with
      | none => .ok none
      | some link => projectKnown deployment state link event :
        Except ProjectionError (Option EscrowFinalizedProjection)) = .ok r) ↔
      match state.getMarketLink market with
      | .notFound => True
      | .rejected => False
      | .found link => link.Current deployment market ∧ LinkAllows deployment state link event := by
  unfold historicalMarket
  cases state.getMarketLink market with
  | notFound => simp [bind, Except.bind]
  | rejected => simp [bind, Except.bind]
  | found link =>
      by_cases hcurrent : link.Current deployment market
      · simp only [bind, Except.bind, hcurrent, if_true, true_and]
        exact isOk_projectKnown
      · simp [bind, Except.bind, hcurrent]

theorem isOk_projectEvent :
    (∃ r, projectEvent deployment state event = .ok r) ↔
      EventProjectable deployment state event := by
  cases event with
  | marketInitialized event => exact isOk_projectMarketInitialized
  | positionPlaced | positionActivated | positionInvalidated | marketSettled | marketVoided
  | positionClaimed | marketClosed | marketFrozen | marketUnfrozen => exact isOk_linked
  | _ => simp [projectEvent, EventProjectable, linkedMarket]

/-- An event is resolved where it finds what it needs, and nowhere else. -/
theorem project_ok_iff {event : EscrowProgramEvent} :
    (∃ r, (projectProgramEvent deployment state event).1 = .ok r) ↔
      Projectable deployment state event := by
  cases event with
  | protocol => simp [projectProgramEvent, Projectable]
  | market event => exact isOk_projectEvent

end Projectable

end CalledIt.Indexer
