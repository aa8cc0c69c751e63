import Mathlib.Data.List.Permutation
import CalledIt.Engine.Serializing

/-!
# CalledIt.Engine.Serializability

The settler's runs, as runs of one call after the other.

Every call takes effect exactly once, in the order of its caller's calls
(`balanced_step`), and no market ends twice (`EndsOnce`).
-/

namespace CalledIt.Engine

open Lib

/-! ## calls and effects of a caller -/

section Callers

variable (caller other : Nat) (call : SettlerCall) (row : MarketStatus) (positions : List Position)
  (notes : List SettlerNote)

@[simp] theorem callsBy_nil : callsBy caller [] = [] := rfl

@[simp] theorem effectsBy_nil : effectsBy caller [] = [] := rfl

@[simp] theorem callsBy_called :
    callsBy caller (.called caller call :: notes) = call :: callsBy caller notes := by
  simp [callsBy, SettlerNote.callOf]

@[simp] theorem effectsBy_called :
    effectsBy caller (.called other call :: notes) = effectsBy caller notes := rfl

@[simp] theorem callsBy_tookEffect :
    callsBy caller (.tookEffect other call :: notes) = callsBy caller notes := rfl

@[simp] theorem effectsBy_tookEffect :
    effectsBy caller (.tookEffect caller call :: notes) = call :: effectsBy caller notes := by
  simp [effectsBy, SettlerNote.effectOf]

@[simp] theorem callsBy_hydrated :
    callsBy caller (.hydrated row positions :: notes) = callsBy caller notes := rfl

@[simp] theorem effectsBy_hydrated :
    effectsBy caller (.hydrated row positions :: notes) = effectsBy caller notes := rfl

end Callers

/-! ## every call takes effect once -/

/-- The step at which a call takes effect. -/
def EffectStep.isDecisive : EffectStep → Bool
  | apply effect => effect.isTerminal
  | store _ => true
  | _ => false

/-- A call that has not taken effect yet. -/
def CallState.owed : CallState → List SettlerCall
  | listing event => [.onEvent event]
  | hydrating event _ => [.onEvent event]
  | reducing event _ _ => [.onEvent event]
  | looking nowMs _ => [.tick nowMs]
  | checking nowMs _ _ => [.tick nowMs]
  | applying call _ rest => if rest.any (·.isDecisive) then [call] else []

def owedBy (calls : Nat → Option CallState) (caller : Nat) : List SettlerCall :=
  match calls caller with
  | none => []
  | some state => state.owed

variable {result : ReduceResult} {rest : List EffectStep}

theorem decisive_of_ahead {reference : Nat} {applied : List MarketEffect}
    (h : Ahead result reference applied rest) :
    rest.any (·.isDecisive) = true := by
  unfold Ahead at h
  split_ifs at h
  · obtain ⟨effects, last, -, -, hlast, rfl⟩ := h
    simp [EffectStep.isDecisive, hlast]
  · obtain ⟨effects, moves, -, -, -, rfl⟩ := h
    simp [EffectStep.isDecisive]

/-- What a caller shows of itself in a step. -/
inductive Shown (caller : Nat) : List SettlerNote → Prop
  | nothing : Shown caller []
  | called (call : SettlerCall) : Shown caller [.called caller call]
  | answered (call : SettlerCall) : Shown caller [.called caller call, .tookEffect caller call]
  | hydrated (row : MarketStatus) (positions : List Position) :
      Shown caller [.hydrated row positions]
  | tookEffect (call : SettlerCall) : Shown caller [.tookEffect caller call]

/-- The step of a caller is no other's. -/
structure Apart (world next : SettlerWorld) (notes : List SettlerNote) (caller : Nat) : Prop where
  fixed : next.fixed = world.fixed
  calls : ∃ state, next.calls = Function.update world.calls caller state
  shown : Shown caller notes

namespace Apart

section

variable (world : SettlerWorld)

include world

theorem apart_self {caller : Nat} {notes : List SettlerNote}
    (hshown : Shown caller notes) : Apart world world notes caller where
  fixed := rfl
  calls := ⟨_, (Function.update_eq_self caller world.calls).symm⟩
  shown := hshown

theorem reduce (caller : Nat) (call : SettlerCall) (row : MarketStatus)
    (base : Nat) : Apart world (world.reduce caller call row base) [] caller := by
  unfold SettlerWorld.reduce
  dsimp only
  split_ifs <;> exact ⟨rfl, ⟨_, rfl⟩, .nothing⟩

theorem advance (caller : Nat) (call : SettlerCall) (base : Nat)
    (rest : List EffectStep) (step : EffectStep) :
    Apart world (world.advance caller call base rest step).1
      (world.advance caller call base rest step).2 caller := by
  cases step with
  | apply effect =>
      refine ⟨rfl, ⟨_, rfl⟩, ?_⟩
      unfold SettlerWorld.advance
      dsimp only
      split_ifs
      · exact .tookEffect call
      · exact .nothing
  | store reference => exact ⟨rfl, ⟨_, rfl⟩, .tookEffect call⟩
  | forget => exact ⟨rfl, ⟨_, rfl⟩, .nothing⟩
  | move status => exact ⟨rfl, ⟨_, rfl⟩, .nothing⟩
  | drop => exact ⟨rfl, ⟨_, rfl⟩, .nothing⟩

theorem accept (caller : Nat) (call : SettlerCall) :
    Apart world (world.accept caller call).1 (world.accept caller call).2 caller := by
  unfold SettlerWorld.accept
  cases call with
  | onEvent event => exact ⟨rfl, ⟨_, rfl⟩, .called _⟩
  | tick nowMs =>
      dsimp only
      split
      · exact apart_self world (.answered _)
      · split_ifs
        · exact apart_self world (.answered _)
        · exact ⟨rfl, ⟨_, rfl⟩, .called _⟩

theorem resume (caller : Nat) (positions : List Position) :
    Apart world (world.resume caller positions).1 (world.resume caller positions).2 caller := by
  unfold SettlerWorld.resume
  split
  · exact apart_self world .nothing
  · split_ifs
    · exact ⟨rfl, ⟨_, rfl⟩, .tookEffect _⟩
    · exact ⟨rfl, ⟨_, rfl⟩, .nothing⟩
  · unfold SettlerWorld.hydrate
    split <;> exact ⟨rfl, ⟨_, rfl⟩, .hydrated _ _⟩
  · exact reduce _ _ _ _ _
  · exact ⟨rfl, ⟨_, rfl⟩, .nothing⟩
  · split_ifs
    · exact ⟨rfl, ⟨_, rfl⟩, .tookEffect _⟩
    · exact reduce _ _ _ _ _
  · exact ⟨rfl, ⟨_, rfl⟩, .nothing⟩
  · exact advance _ _ _ _ _ _

end

variable {world next : SettlerWorld} {notes : List SettlerNote} {caller other : Nat}

section

variable (h : Apart world next notes caller)

include h

theorem calls_of_ne (hother : other ≠ caller) :
    next.calls other = world.calls other := by
  obtain ⟨state, hcalls⟩ := h.calls
  rw [hcalls, Function.update_of_ne hother]

theorem callsBy_of_ne (hother : other ≠ caller) :
    callsBy other notes = [] := by
  cases h.shown <;> simp [callsBy, SettlerNote.callOf, hother.symm]

theorem effectsBy_of_ne (hother : other ≠ caller) :
    effectsBy other notes = [] := by
  cases h.shown <;> simp [effectsBy, SettlerNote.effectOf, hother.symm]

theorem length_effects :
    (notes.filter (!·.isCalled)).length ≤ 1 := by
  cases h.shown <;> simp [SettlerNote.isCalled]

end

end Apart

def SettlerAction.caller : SettlerAction → Nat
  | call caller _ => caller
  | resume caller _ => caller

theorem apart_step (world : SettlerWorld) (action : SettlerAction) :
    Apart world (settlerStep world action).1 (settlerStep world action).2 action.caller := by
  cases action with
  | call caller call =>
      unfold settlerStep
      dsimp only
      split_ifs
      · exact Apart.apart_self world .nothing
      · exact Apart.accept world caller call
  | resume caller positions => exact Apart.resume world caller positions

/-- What a caller was owed before a step and asks for in it, it gets in the step or is
still owed after it. -/
def Balanced (world next : SettlerWorld) (notes : List SettlerNote) (caller : Nat) : Prop :=
  owedBy world.calls caller ++ callsBy caller notes =
    effectsBy caller notes ++ owedBy next.calls caller

theorem Apart.balanced {world next : SettlerWorld} {notes : List SettlerNote} {caller : Nat}
    (h : Apart world next notes caller) (hself : Balanced world next notes caller) (other : Nat) :
    Balanced world next notes other := by
  by_cases hother : other = caller
  · exact hother ▸ hself
  · rw [Balanced, h.callsBy_of_ne hother, h.effectsBy_of_ne hother]
    simp [owedBy, h.calls_of_ne hother]

@[simp] theorem owedBy_update_self (calls : Nat → Option CallState) (caller : Nat)
    (state : Option CallState) :
    owedBy (Function.update calls caller state) caller = state.elim [] CallState.owed := by
  cases state <;> simp [owedBy]

@[simp] theorem owedBy_await (world : SettlerWorld) (caller : Nat) (state : CallState) :
    owedBy (world.await caller state).calls caller = state.owed := owedBy_update_self _ _ _

@[simp] theorem owedBy_done (world : SettlerWorld) (caller : Nat) :
    owedBy (world.done caller).calls caller = [] := owedBy_update_self _ _ _

theorem owedBy_of_calls {world : SettlerWorld} {caller : Nat} {state : CallState}
    (h : world.calls caller = some state) : owedBy world.calls caller = state.owed := by
  simp [owedBy, h]

/-- A result is still to be stored, or to end the market. -/
theorem Mirrors.owed_reduce {world : SettlerWorld} {market : SerialMarket}
    (h : Mirrors world market)
    (hrow : world.row.isTerminal = false) {base : Nat} (hstates : world.states = some base)
    (call : SettlerCall) (caller : Nat) (row : MarketStatus) :
    owedBy (world.reduce caller call row base).calls caller = [call] := by
  have hended : market.ended = false := h.ended.trans hrow
  have hcached : market.cached = some (world.objects base) := by
    rw [h.cached hended, hstates]
    rfl
  have hdecisive : ∀ reference, (effectSteps row (call.result (world.objects base)) reference).any
      (·.isDecisive) = true := fun reference =>
    decisive_of_ahead (ahead_effectSteps (call.concluded (h.live _ hcached)) row reference)
  unfold SettlerWorld.reduce
  dsimp only
  split_ifs <;> simp [CallState.owed, hdecisive]

theorem balanced_accept (world : SettlerWorld) {caller : Nat} (hfree : world.calls caller = none)
    (call : SettlerCall) :
    Balanced world (world.accept caller call).1 (world.accept caller call).2 caller := by
  have howed : owedBy world.calls caller = [] := by simp [owedBy, hfree]
  unfold Balanced
  unfold SettlerWorld.accept
  cases call with
  | onEvent event => simp [howed, CallState.owed]
  | tick nowMs =>
      dsimp only
      split
      · simp [howed]
      · split_ifs <;> simp [howed, CallState.owed]

theorem Mirrors.balanced_advance {world : SettlerWorld} {market : SerialMarket}
    (h : Mirrors world market) {caller : Nat} {call : SettlerCall} {base : Nat} {step : EffectStep}
    (hcalls : world.calls caller = some (.applying call base (step :: rest))) :
    Balanced world (world.advance caller call base rest step).1
      (world.advance caller call base rest step).2 caller := by
  rw [Balanced, owedBy_of_calls hcalls]
  obtain ⟨-, -, hsteps | hsteps⟩ | ⟨-, -, -, reference, applied, -, -, -, hahead⟩ :=
    (h.single caller call base _ hcalls).1
  · obtain ⟨rfl, rfl⟩ := List.cons.inj hsteps
    simp [SettlerWorld.advance, CallState.owed, EffectStep.isDecisive]
  · obtain ⟨rfl, rfl⟩ := List.cons.inj hsteps
    simp [SettlerWorld.advance, CallState.owed, EffectStep.isDecisive]
  · have howed : CallState.owed (.applying call base (step :: rest)) = [call] :=
      if_pos (decisive_of_ahead hahead)
    rw [howed]
    obtain ⟨effect, rfl, hopen, hrest⟩ | ⟨last, rfl, hlast, -, -, rfl⟩ | ⟨status, rfl, -, hrest⟩ |
      ⟨rfl, -, -, rfl⟩ := hahead.step
    · simp [SettlerWorld.advance, hopen, CallState.owed, decisive_of_ahead hrest]
    · simp [SettlerWorld.advance, hlast, CallState.owed, EffectStep.isDecisive]
    · simp [SettlerWorld.advance, CallState.owed, decisive_of_ahead hrest]
    · simp [SettlerWorld.advance]

theorem Mirrors.balanced_resume {world : SettlerWorld} {market : SerialMarket}
    (h : Mirrors world market) {caller : Nat} {positions : List Position}
    (hundivided : Undivided world (.resume caller positions)) :
    Balanced world (world.resume caller positions).1 (world.resume caller positions).2 caller := by
  unfold SettlerWorld.resume
  unfold Undivided at hundivided
  cases hcalls : world.calls caller with
  | none => simp [Balanced]
  | some state =>
      have howed := owedBy_of_calls hcalls
      cases state with
      | listing event =>
          dsimp only
          split_ifs
          · simp [Balanced, howed, CallState.owed]
          · simp [Balanced, howed, CallState.owed]
      | hydrating event row =>
          simp [Balanced, howed, CallState.owed]
      | reducing event row reference =>
          simp only [hcalls] at hundivided
          simp [Balanced, howed, CallState.owed, h.owed_reduce hundivided.2.1 hundivided.2.2]
      | looking nowMs reference => simp [Balanced, howed, CallState.owed]
      | checking nowMs reference row =>
          simp only [hcalls] at hundivided
          dsimp only
          split_ifs with hover
          · simp [Balanced, howed, CallState.owed]
          · obtain ⟨-, hrow, hstates⟩ := hundivided (by simpa using hover)
            simp [Balanced, howed, CallState.owed, h.owed_reduce hrow hstates]
      | applying call base rest =>
          cases rest with
          | nil => simp [Balanced, howed, CallState.owed]
          | cons step rest => exact h.balanced_advance hcalls

theorem balanced_step {world : SettlerWorld} {market : SerialMarket} {action : SettlerAction}
    (h : Mirrors world market) (hundivided : Undivided world action) (caller : Nat) :
    Balanced world (settlerStep world action).1 (settlerStep world action).2 caller := by
  refine (apart_step world action).balanced ?_ caller
  cases action with
  | call acting call =>
      unfold settlerStep
      dsimp only
      split_ifs with hbusy
      · simp [Balanced]
      · exact balanced_accept world (by simpa [SettlerAction.caller] using hbusy) call
  | resume acting positions => exact h.balanced_resume hundivided

/-! ## at most one end -/

/-- A market that has not ended has had no effect that ends it, and no market has had
two. -/
structure EndsOnce (market : SerialMarket) : Prop where
  unended : market.ended = false → Unended market.applied
  once : (market.applied.filter (·.isTerminal)).length ≤ 1

theorem filter_of_unended {effects : List MarketEffect} (h : Unended effects) :
    effects.filter (·.isTerminal) = [] :=
  List.filter_eq_nil_iff.mpr fun effect heffect => by simp [h effect heffect]

theorem EndsOnce.take {market : SerialMarket} (h : EndsOnce market) (hended : market.ended = false)
    (hconcluded : result.Concluded) : EndsOnce (market.take result) := by
  have hbefore := h.unended hended
  cases hterminal : result.state.status.isTerminal with
  | true =>
      rw [ReduceResult.Concluded, hterminal] at hconcluded
      obtain ⟨effects, last, heffects, hlast, hunended⟩ := hconcluded
      refine ⟨fun hopen => ?_, ?_⟩
      · exact absurd (hterminal.symm.trans hopen) (by simp)
      · simp [SerialMarket.take, heffects, filter_of_unended hbefore, filter_of_unended hunended,
          hlast]
  | false =>
      rw [ReduceResult.Concluded, hterminal] at hconcluded
      have hafter : Unended (market.take result).applied := hbefore.append hconcluded
      exact ⟨fun _ => hafter, by simp [filter_of_unended hafter]⟩

theorem EndsOnce.step {world : SettlerWorld} {market : SerialMarket} (h : EndsOnce market)
    (hmirrors : Mirrors world market) (fixed : MarketRow) (note : SettlerNote) :
    EndsOnce (market.step fixed note) := by
  cases note with
  | called caller call => exact h
  | hydrated row positions =>
      unfold SerialMarket.step SerialMarket.refresh
      dsimp only
      split_ifs
      · exact h
      · exact ⟨h.unended, h.once⟩
  | tookEffect caller call =>
      cases hcached : market.cached with
      | none =>
          change EndsOnce (market.perform call)
          rwa [SerialMarket.perform_of_none hcached]
      | some state =>
          have hended : market.ended = false := by
            by_contra hended
            simp [hmirrors.closed (by simpa using hended)] at hcached
          have hconcluded := call.concluded (hmirrors.live state hcached)
          cases call with
          | onEvent event =>
              simp only [SerialMarket.step, SerialMarket.perform, hcached]
              exact h.take hended hconcluded
          | tick nowMs =>
              simp only [SerialMarket.step, SerialMarket.perform, hcached]
              split_ifs
              · exact h
              · exact h.take hended hconcluded

/-- What a call has applied before it takes effect does not end the market. -/
theorem unended_of_ahead (hconcluded : result.Concluded) {reference : Nat}
    {applied : List MarketEffect} (h : Ahead result reference applied rest) : Unended applied := by
  cases hterminal : result.state.status.isTerminal with
  | true =>
      rw [Ahead, hterminal] at h
      rw [ReduceResult.Concluded, hterminal] at hconcluded
      obtain ⟨effects, last, heffects, -, -, -⟩ := h
      obtain ⟨before, last', hbefore, -, hunended⟩ := hconcluded
      have hsame : applied ++ effects = before :=
        (List.append_inj' (heffects.trans hbefore) rfl).1
      exact fun effect heffect => hunended effect (hsame ▸ List.mem_append_left _ heffect)
  | false =>
      rw [Ahead, hterminal] at h
      rw [ReduceResult.Concluded, hterminal] at hconcluded
      obtain ⟨effects, moves, heffects, -, -, -⟩ := h
      exact fun effect heffect => hconcluded effect (heffects ▸ List.mem_append_left _ heffect)

theorem Mirrors.endsOnce {world : SettlerWorld} {market : SerialMarket} (h : Mirrors world market)
    (honce : EndsOnce market) : (world.applied.filter (·.isTerminal)).length ≤ 1 := by
  by_cases hunshared : Unshared world
  · rw [(h.unshared hunshared).1]
    exact honce.once
  · simp only [Unshared, not_forall, not_not] at hunshared
    obtain ⟨caller, call, base, rest, hcalls⟩ := hunshared
    obtain ⟨-, happlied, -⟩ | ⟨hended, hstates, -, reference, applied, -, -, happlied, hahead⟩ :=
      (h.single caller call base rest hcalls).1
    · rw [happlied]
      exact honce.once
    · have hcached : market.cached = some (world.objects base) := by
        rw [h.cached hended, hstates]
        rfl
      have happlying := unended_of_ahead (call.concluded (h.live _ hcached)) hahead
      rw [happlied, filter_of_unended ((honce.unended hended).append happlying)]
      exact Nat.zero_le 1

/-! ## runs -/

theorem SerialMarket.run_append (fixed : MarketRow) (market : SerialMarket)
    (notes more : List SettlerNote) :
    run fixed market (notes ++ more) = run fixed (run fixed market notes) more :=
  List.foldl_append

theorem SerialMarket.run_filter (fixed : MarketRow) (market : SerialMarket)
    (notes : List SettlerNote) :
    run fixed market (notes.filter (!·.isCalled)) = run fixed market notes := by
  induction notes generalizing market with
  | nil => rfl
  | cons note notes ih =>
      cases note with
      | called caller call => exact ih market
      | hydrated row positions => exact ih _
      | tookEffect caller call => exact ih _

theorem effectsBy_filter (caller : Nat) (notes : List SettlerNote) :
    effectsBy caller (notes.filter (!·.isCalled)) = effectsBy caller notes := by
  unfold effectsBy
  rw [List.filterMap_filter]
  refine congrArg (List.filterMap · notes) (funext fun note => ?_)
  cases note <;> rfl

/-- What a run has shown, against where it stands. -/
structure Traced (start world : SettlerWorld) (notes : List SettlerNote) : Prop where
  fixed : world.fixed = start.fixed
  mirrors : Mirrors world (SerialMarket.run start.fixed start.serial notes)
  served : ∀ caller,
    callsBy caller notes = effectsBy caller notes ++ owedBy world.calls caller
  endsOnce : EndsOnce (SerialMarket.run start.fixed start.serial notes)

theorem Ready.traced {start : SettlerWorld} (h : Ready start) : Traced start start [] where
  fixed := rfl
  mirrors :=
    { ended := rfl
      closed := fun hended => by simp [SettlerWorld.serial, h.ended hended]
      live := by
        intro state hstate
        obtain ⟨reference, hreference, rfl⟩ := Option.map_eq_some_iff.mp hstate
        exact (h.cached reference hreference).2
      cached := fun _ => rfl
      bounded := fun reference hreference => (h.cached reference hreference).1
      holds := fun caller state hstate => by simp [h.idle caller] at hstate
      single := fun caller call base rest hcalls => by simp [h.idle caller] at hcalls
      unshared := fun _ => ⟨rfl, h.ended⟩ }
  served := fun caller => by simp [owedBy, h.idle caller]
  endsOnce :=
    { unended := fun _ => by simp [SerialMarket.run, SettlerWorld.serial, h.untouched, Unended]
      once := by simp [SerialMarket.run, SettlerWorld.serial, h.untouched] }

theorem Traced.step {start world : SettlerWorld} {notes : List SettlerNote}
    (h : Traced start world notes) {action : SettlerAction} (hundivided : Undivided world action) :
    Traced start (settlerStep world action).1 (notes ++ (settlerStep world action).2) where
  fixed := (apart_step world action).fixed.trans h.fixed
  mirrors := by
    rw [SerialMarket.run_append, ← h.fixed]
    have hmirrors := h.mirrors
    rw [← h.fixed] at hmirrors
    exact mirrors_step hmirrors hundivided
  served := by
    intro caller
    have hbalanced := balanced_step h.mirrors hundivided caller
    calc
      callsBy caller (notes ++ (settlerStep world action).2)
          = callsBy caller notes ++ callsBy caller (settlerStep world action).2 :=
        List.filterMap_append
      _ = effectsBy caller notes ++
            (owedBy world.calls caller ++ callsBy caller (settlerStep world action).2) := by
        rw [h.served caller, List.append_assoc]
      _ = effectsBy caller notes ++ (effectsBy caller (settlerStep world action).2 ++
            owedBy (settlerStep world action).1.calls caller) := by
        rw [hbalanced]
      _ = effectsBy caller (notes ++ (settlerStep world action).2) ++
            owedBy (settlerStep world action).1.calls caller := by
        rw [← List.append_assoc]
        exact congrArg (· ++ _) List.filterMap_append.symm
  endsOnce := by
    rw [SerialMarket.run_append, ← SerialMarket.run_filter]
    have hlength := (apart_step world action).length_effects
    generalize (settlerStep world action).2.filter (!·.isCalled) = effects at hlength
    cases effects with
    | nil => exact h.endsOnce
    | cons note effects =>
        obtain rfl : effects = [] := List.eq_nil_of_length_eq_zero (Nat.le_zero.mp
          (Nat.le_of_succ_le_succ hlength))
        exact h.endsOnce.step h.mirrors start.fixed note

/-- A caller that does not act has no call under way at the end either. -/
theorem calls_execute_of_ne {start : SettlerWorld} {actions : List SettlerAction} {other : Nat}
    (h : ∀ action ∈ actions, other ≠ action.caller) :
    (execute settlerStep start actions).1.calls other = start.calls other := by
  induction actions generalizing start with
  | nil => rfl
  | cons action actions ih =>
      rw [execute_cons, ih fun next hnext => h next (List.mem_cons_of_mem _ hnext)]
      exact (apart_step start action).calls_of_ne (h action List.mem_cons_self)

theorem idle_execute {start : SettlerWorld} {actions : List SettlerAction} (hidle : start.Idle)
    (h : ∀ action ∈ actions,
      (execute settlerStep start actions).1.calls action.caller = none) :
    (execute settlerStep start actions).1.Idle := by
  intro other
  by_cases hacts : ∃ action ∈ actions, other = action.caller
  · obtain ⟨action, haction, rfl⟩ := hacts
    exact h action haction
  · rw [calls_execute_of_ne fun action haction hother => hacts ⟨action, haction, hother⟩,
      hidle other]

theorem unshared_of_alone {world : SettlerWorld} (caller : Nat) (state : CallState)
    (hcalls : world.calls = Function.update (fun _ => none) caller (some state))
    (hstate : ∀ call base rest, state ≠ .applying call base rest) : Unshared world := by
  intro other call base rest h
  rw [hcalls] at h
  obtain ⟨-, h⟩ | ⟨-, h⟩ := update_cases h
  · exact hstate call base rest (Option.some.inj h)
  · cases h

/-- At every point of a run at most one effect has ended the market, and once all calls
have returned they are as good as one after the other. -/
theorem settler_serializable {start : SettlerWorld} {actions : List SettlerAction}
    (hready : Ready start) (hundivided : Along settlerStep Undivided start actions) :
    ((execute settlerStep start actions).1.applied.filter (·.isTerminal)).length ≤ 1 ∧
      ((execute settlerStep start actions).1.Idle → Serializable start actions) := by
  have htraced := execute_trace_along (I := Traced start)
    (fun world notes action htraced => htraced.step) hready.traced hundivided
  rw [List.nil_append] at htraced
  refine ⟨htraced.mirrors.endsOnce htraced.endsOnce, fun hidle => ?_⟩
  have hunshared : Unshared (execute settlerStep start actions).1 := by
    intro caller call base rest hcalls
    simp [hidle caller] at hcalls
  obtain ⟨happlied, hclosed⟩ := htraced.mirrors.unshared hunshared
  refine ⟨_, List.Perm.refl _, fun caller => ?_, ?_, ?_⟩
  · rw [effectsBy_filter, htraced.served caller]
    simp [owedBy, hidle caller]
  · rw [SerialMarket.run_filter, happlied]
  · rw [SerialMarket.run_filter]
    cases hended : (SerialMarket.run start.fixed start.serial
        (execute settlerStep start actions).2).ended with
    | true =>
        rw [htraced.mirrors.closed hended]
        simp [SettlerWorld.serial, hclosed hended]
    | false => exact htraced.mirrors.cached hended

/-! ## a check within a tick -/

namespace Sample

/-- The market's two goals are in, and wait for their confirmation. -/
def confirmingWorld : SettlerWorld where
  fixed := { spec := twoGoals, isReplay := false }
  row := .settling
  objects := fun _ => (reduceMarket (market twoGoals []) (feedEvent .goal 10 .h1 2)).state
  allocated := 1
  states := some 0
  applied := []
  calls := fun _ => none

/-- The check that cancels the candidate. -/
def reviewed : MatchEvent := feedEvent .varCheck 100 .h1 2

def reviewedAlone : List SettlerAction :=
  .call 1 (.onEvent reviewed) :: List.replicate 6 (.resume 1 [])

/-- A tick that comes in before the check, and goes on after it. -/
def tickAround : List SettlerAction :=
  [.call 0 (.tick 100000)] ++ reviewedAlone ++ List.replicate 5 (.resume 0 [])

theorem ready_confirmingWorld : Ready confirmingWorld where
  idle := fun _ => rfl
  untouched := rfl
  ended := fun h => by simp [confirmingWorld, MarketStatus.isTerminal] at h
  cached := fun reference h => by
    obtain rfl := Option.some.inj h
    exact ⟨by decide, by decide +kernel⟩

theorem undivided_reviewedAlone : Along settlerStep Undivided confirmingWorld reviewedAlone := by
  refine ⟨trivial, trivial, ⟨?_, rfl⟩, ⟨?_, rfl, rfl⟩, trivial, trivial, trivial, trivial⟩
  · refine unshared_of_alone 1 (.hydrating reviewed .settling) ?_ (by simp)
    exact Function.update_idem _ _ _
  · refine unshared_of_alone 1 (.reducing reviewed .settling 0) ?_ (by simp)
    exact (Function.update_idem _ _ _).trans (Function.update_idem _ _ _)

theorem reviewed_serializable :
    ((execute settlerStep confirmingWorld reviewedAlone).1.applied.filter
        (·.isTerminal)).length ≤ 1 ∧
      Serializable confirmingWorld reviewedAlone :=
  have h := settler_serializable ready_confirmingWorld undivided_reviewedAlone
  ⟨h.1, h.2 (idle_execute (fun _ => rfl) (by decide +kernel))⟩

/-- The tick settles the candidate that the check has cancelled. -/
theorem tick_settles_cancelled : ¬ ∀ (start : SettlerWorld) (actions : List SettlerAction),
    Ready start → (execute settlerStep start actions).1.Idle → Serializable start actions := by
  intro h
  obtain ⟨order, horder, -, happlied, -⟩ := h confirmingWorld tickAround ready_confirmingWorld
    (idle_execute (fun _ => rfl) (by decide +kernel))
  have hnone : ∀ order ∈ ((execute settlerStep confirmingWorld tickAround).2.filter
      (!·.isCalled)).permutations',
      (SerialMarket.run confirmingWorld.fixed confirmingWorld.serial order).applied ≠
        (execute settlerStep confirmingWorld tickAround).1.applied := by
    decide +kernel
  exact hnone order (List.mem_permutations'.mpr horder) happlied

end Sample

end CalledIt.Engine
