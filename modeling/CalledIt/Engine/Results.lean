import CalledIt.Engine.Positions

/-!
# CalledIt.Engine.Results

How a result ends a market: with its last effect, or not at all (`Concluded`).
-/

namespace CalledIt.Engine

/-- A result that ends the market does so with its last effect, any other has no
effect that would. -/
def ReduceResult.Concluded (result : ReduceResult) : Prop :=
  if result.state.status.isTerminal then
    ∃ effects last, result.effects = effects ++ [last] ∧ last.isTerminal = true ∧
      ∀ effect ∈ effects, effect.isTerminal = false
  else ∀ effect ∈ result.effects, effect.isTerminal = false

def Unended (effects : List MarketEffect) : Prop := ∀ effect ∈ effects, effect.isTerminal = false

variable {effects : List MarketEffect}

theorem Unended.append {more : List MarketEffect} (h : Unended effects)
    (hmore : Unended more) : Unended (effects ++ more) := by
  intro effect heffect
  rcases List.mem_append.mp heffect with heffect | heffect
  · exact h effect heffect
  · exact hmore effect heffect

theorem unended_singleton {effect : MarketEffect} (h : effect.isTerminal = false) :
    Unended [effect] := by
  simpa [Unended] using h

theorem unended_movePending {positions : List Position} {p : Position → Bool}
    {target : PositionState} {effect : List String → MarketEffect}
    (h : ∀ ids, (effect ids).isTerminal = false) :
    Unended (movePending positions p target effect).2 := fun moved hmem => by
  simpa using List.filter_eq_nil_iff.mp (terminal_movePending h) moved hmem

theorem concluded_of_live {result : ReduceResult}
    (hlive : result.state.status.isTerminal = false) (h : Unended result.effects) :
    result.Concluded := by
  rw [ReduceResult.Concluded, hlive]
  exact h

theorem concluded_voidMarket (h : Unended effects) (state : MarketState)
    (reason : String) : (voidMarket state reason effects).Concluded :=
  ⟨effects, .void reason, rfl, rfl, h⟩

variable {state : MarketState}

theorem concluded_settleNow (hlive : state.status.isTerminal = false) (h : Unended effects) :
    (settleNow state effects).Concluded := by
  unfold settleNow
  split
  · exact concluded_of_live hlive h
  · exact ⟨_, _, rfl, rfl, h.append (unended_movePending fun _ => rfl)⟩

theorem concluded_settlementStage {stage : Stage}
    (hlive : stage.state.status.isTerminal = false) (h : Unended stage.effects)
    (event : MatchEvent) : (settlementStage stage event).Concluded := by
  have hrule : StageRule event
      (fun st => st.state.status.isTerminal = false ∧ Unended st.effects) (·.Concluded) :=
    { hold := fun h _ => by
        unfold applyHold
        dsimp only
        split
        · exact concluded_of_live rfl (h.2.append (unended_singleton rfl))
        · exact concluded_of_live h.1 h.2
      resolution := fun h => by
        unfold applyResolution
        split_ifs
        · exact h
        · exact ⟨rfl, h.2.append (unended_singleton rfl)⟩
        · exact h
        · exact h
      void := fun h _ => concluded_voidMarket h.2 _ _
      arm := fun h _ _ _ _ => concluded_of_live rfl h.2
      reprice := fun h => by
        unfold applyReprice
        split
        · exact concluded_of_live h.1 (h.2.append (unended_singleton rfl))
        · exact concluded_of_live h.1 h.2 }
  refine hrule.settlement (fun _ => ⟨hlive, h⟩)
    (fun _ => concluded_of_live rfl (h.append (unended_singleton rfl))) ⟨?_, h⟩
    fun _ _ => concluded_settleNow hlive h
  dsimp only [dropCandidate]
  split <;> rfl

theorem concluded_reducePendingLineup (hlive : state.status.isTerminal = false) (event : MatchEvent)
    (scratch : ReducerScratch) :
    (reducePendingLineup state event scratch).Concluded := by
  have hnone : Unended [] := by simp [Unended]
  unfold reducePendingLineup
  dsimp only
  split
  · exact concluded_voidMarket hnone _ _
  · split
    · refine concluded_of_live rfl ?_
      exact (unended_singleton rfl).append (unended_movePending fun _ => rfl)
    · split
      · exact concluded_voidMarket hnone _ _
      · exact concluded_of_live hlive hnone

theorem concluded_reduceMarket (hlive : state.status.isTerminal = false)
    (event : MatchEvent) : (reduceMarket state event).Concluded := by
  have hnone : Unended [] := by simp [Unended]
  refine reduceMarket_cases (fun _ => concluded_of_live hlive hnone)
    (fun _ _ => concluded_reducePendingLineup hlive event _)
    (fun _ _ _ => concluded_voidMarket hnone _ _) fun _ => ?_
  have hguards : Unended (ledgerStage state event (advance (scratchOf state) event)).effects :=
    (unended_movePending fun _ => rfl).append (unended_movePending fun _ => rfl)
  unfold cutoffStage applyCutoff
  split_ifs
  · exact concluded_settlementStage rfl (hguards.append (unended_singleton rfl)) event
  · refine concluded_settlementStage ?_ ?_ event
    · exact hlive
    · exact hguards
  · exact concluded_settlementStage hlive hguards event

theorem concluded_checkDebounce (hlive : state.status.isTerminal = false)
    (nowMs : Int) : (checkDebounce state nowMs).Concluded := by
  have hmatured : (maturePositions state nowMs).state.status.isTerminal = false ∧
      Unended (maturePositions state nowMs).effects := by
    unfold maturePositions
    dsimp only
    split_ifs
    · exact ⟨hlive, by simp [Unended]⟩
    · exact ⟨hlive, unended_singleton rfl⟩
  unfold checkDebounce
  split
  · exact concluded_of_live hlive (by simp [Unended])
  · dsimp only
    split
    · exact concluded_settleNow hmatured.1 hmatured.2
    · exact concluded_of_live hmatured.1 hmatured.2

end CalledIt.Engine
