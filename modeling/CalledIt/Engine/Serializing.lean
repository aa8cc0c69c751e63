import CalledIt.Engine.Results
import CalledIt.Engine.Settler

/-!
# CalledIt.Engine.Serializing

When the settler's calls are as good as one after the other.

A call works on a state that it took from the map some awaits ago, and stores its
result some awaits later.  Where no other call comes in between (`Undivided`), the
world mirrors a market that takes the calls in the order in which they store their
results or end the market (`mirrors_step`).
-/

namespace CalledIt.Engine

open Lib

theorem SettlerCall.concluded (call : SettlerCall) {state : MarketState}
    (hlive : state.status.isTerminal = false) : (call.result state).Concluded := by
  cases call with
  | onEvent event => exact concluded_reduceMarket hlive event
  | tick nowMs => exact concluded_checkDebounce hlive nowMs

/-! ## what is still to do -/

/-- What remains of the steps for a result, once some of its effects are applied. -/
def Ahead (result : ReduceResult) (reference : Nat) (applied : List MarketEffect)
    (rest : List EffectStep) : Prop :=
  if result.state.status.isTerminal then
    ∃ effects last, applied ++ effects ++ [last] = result.effects ∧ Unended effects ∧
      last.isTerminal = true ∧ rest = effects.map .apply ++ [.apply last, .forget, .drop]
  else
    ∃ (effects : List MarketEffect) (moves : List MarketStatus),
      applied ++ effects = result.effects ∧ Unended effects ∧
      (∀ status ∈ moves, status.isTerminal = false) ∧
      rest = effects.map .apply ++ moves.map .move ++ [.store reference]

theorem flatMap_steps {effects : List MarketEffect} (h : Unended effects) :
    effects.flatMap (·.steps) = effects.map .apply := by
  induction effects with
  | nil => rfl
  | cons effect effects ih =>
      have hhead : effect.steps = [.apply effect] := by
        simp [MarketEffect.steps, h effect List.mem_cons_self]
      rw [List.flatMap_cons, hhead, ih fun e he => h e (List.mem_cons_of_mem _ he)]
      rfl

theorem ahead_effectSteps {result : ReduceResult} (h : result.Concluded) (row : MarketStatus)
    (reference : Nat) : Ahead result reference [] (effectSteps row result reference) := by
  cases hterminal : result.state.status.isTerminal with
  | true =>
      rw [ReduceResult.Concluded, hterminal] at h
      obtain ⟨effects, last, heffects, hlast, hunended⟩ := h
      have hsteps : last.steps = [.apply last, .forget] := by simp [MarketEffect.steps, hlast]
      rw [Ahead, hterminal]
      refine ⟨effects, last, heffects.symm, hunended, hlast, ?_⟩
      simp [effectSteps, hterminal, heffects, flatMap_steps hunended, hsteps]
  | false =>
      rw [ReduceResult.Concluded, hterminal] at h
      rw [Ahead, hterminal]
      by_cases hmoves : result.state.status = row
      · exact ⟨result.effects, [], rfl, h, by simp, by
          simp [effectSteps, ← hmoves, hterminal, flatMap_steps h]⟩
      · refine ⟨result.effects, [result.state.status], rfl, h, by simpa using hterminal, ?_⟩
        simp [effectSteps, hterminal, flatMap_steps h, hmoves]

variable {reference : Nat} {rest : List EffectStep}

/-- The next step, by its kind. -/
theorem Ahead.step {result : ReduceResult} {applied : List MarketEffect} {step : EffectStep}
    (h : Ahead result reference applied (step :: rest)) :
    (∃ effect, step = .apply effect ∧ effect.isTerminal = false ∧
        Ahead result reference (applied ++ [effect]) rest) ∨
      (∃ last, step = .apply last ∧ last.isTerminal = true ∧
        result.state.status.isTerminal = true ∧ applied ++ [last] = result.effects ∧
        rest = [.forget, .drop]) ∨
      (∃ status, step = .move status ∧ status.isTerminal = false ∧
        Ahead result reference applied rest) ∨
      (step = .store reference ∧ result.state.status.isTerminal = false ∧
        applied = result.effects ∧ rest = []) := by
  cases hterminal : result.state.status.isTerminal with
  | true =>
      rw [Ahead, hterminal] at h
      obtain ⟨effects, last, heffects, hunended, hlast, hrest⟩ := h
      cases effects with
      | nil =>
          obtain ⟨rfl, rfl⟩ := List.cons.inj hrest
          exact .inr (.inl ⟨last, rfl, hlast, rfl, by simpa using heffects, rfl⟩)
      | cons effect effects =>
          obtain ⟨rfl, rfl⟩ := List.cons.inj hrest
          refine .inl ⟨effect, rfl, hunended effect List.mem_cons_self, ?_⟩
          rw [Ahead, hterminal]
          exact ⟨effects, last, by simpa using heffects,
            fun e he => hunended e (List.mem_cons_of_mem _ he), hlast, rfl⟩
  | false =>
      rw [Ahead, hterminal] at h
      obtain ⟨effects, moves, heffects, hunended, hmoves, hrest⟩ := h
      cases effects with
      | cons effect effects =>
          obtain ⟨rfl, rfl⟩ := List.cons.inj hrest
          refine .inl ⟨effect, rfl, hunended effect List.mem_cons_self, ?_⟩
          rw [Ahead, hterminal]
          exact ⟨effects, moves, by simpa using heffects,
            fun e he => hunended e (List.mem_cons_of_mem _ he), hmoves, rfl⟩
      | nil =>
          cases moves with
          | nil =>
              obtain ⟨rfl, rfl⟩ := List.cons.inj hrest
              exact .inr (.inr (.inr ⟨rfl, rfl, by simpa using heffects, rfl⟩))
          | cons status moves =>
              obtain ⟨rfl, rfl⟩ := List.cons.inj hrest
              refine .inr (.inr (.inl ⟨status, rfl, hmoves status List.mem_cons_self, ?_⟩))
              rw [Ahead, hterminal]
              exact ⟨[], moves, heffects, hunended,
                fun s hs => hmoves s (List.mem_cons_of_mem _ hs), rfl⟩

theorem rowStatus_of_unended {effect : MarketEffect} (h : effect.isTerminal = false)
    {row : MarketStatus} (hrow : row.isTerminal = false) :
    (effect.rowStatus.getD row).isTerminal = false := by
  cases effect <;> first | exact hrow | rfl | simp [MarketEffect.isTerminal] at h

theorem rowStatus_of_terminal {effect : MarketEffect} (h : effect.isTerminal = true)
    (row : MarketStatus) : (effect.rowStatus.getD row).isTerminal = true := by
  cases effect with
  | settle outcome decidingSeq evidenceSeqs => cases outcome <;> rfl
  | void reason => rfl
  | _ => simp [MarketEffect.isTerminal] at h

/-! ## the condition -/

/-- No call is between its result and storing it. -/
def Unshared (world : SettlerWorld) : Prop :=
  ∀ caller call base rest, world.calls caller ≠ some (.applying call base rest)

/-- The market has not ended, and no other call is about to store a result. -/
def Undivided (world : SettlerWorld) : SettlerAction → Prop
  | .call _ _ => True
  | .resume caller _ =>
      match world.calls caller with
      | some (.hydrating _ _) => Unshared world ∧ world.row.isTerminal = false
      | some (.reducing _ _ reference) =>
          Unshared world ∧ world.row.isTerminal = false ∧ world.states = some reference
      | some (.checking _ reference row) => row.isTerminal = false →
          Unshared world ∧ world.row.isTerminal = false ∧ world.states = some reference
      | _ => True

/-- A market between calls, with none of its effects applied yet. -/
structure Ready (start : SettlerWorld) : Prop where
  idle : start.Idle
  untouched : start.applied = []
  ended : start.row.isTerminal = true → start.states = none
  cached : ∀ reference, start.states = some reference →
    reference < start.allocated ∧ (start.objects reference).status.isTerminal = false

/-! ## the invariant -/

/-- A reference that a tick captured, to an object with a candidate. -/
def Captured (world : SettlerWorld) (reference : Nat) : Prop :=
  reference < world.allocated ∧ (world.objects reference).pendingSettlement ≠ none

/-- What a waiting call holds on to. -/
def Holds (world : SettlerWorld) : CallState → Prop
  | .hydrating _ row => row.isTerminal = false
  | .looking _ reference => Captured world reference
  | .checking _ reference row =>
      Captured world reference ∧ (row.isTerminal = true → world.row.isTerminal = true)
  | _ => True

/-- Where the call that has a result stands: it has ended the market, or its result is
the next to take effect. -/
def Applying (world : SettlerWorld) (market : SerialMarket) (call : SettlerCall) (base : Nat)
    (rest : List EffectStep) : Prop :=
  (market.ended = true ∧ world.applied = market.applied ∧
    (rest = [.forget, .drop] ∨ rest = [.drop])) ∨
  (market.ended = false ∧ world.states = some base ∧
    (∀ nowMs, call = .tick nowMs → (world.objects base).pendingSettlement ≠ none) ∧
    ∃ reference applied, reference < world.allocated ∧
      world.objects reference = (call.result (world.objects base)).state ∧
      world.applied = market.applied ++ applied ∧
      Ahead (call.result (world.objects base)) reference applied rest)

/-- The world mirrors the market that takes one call after the other. -/
structure Mirrors (world : SettlerWorld) (market : SerialMarket) : Prop where
  ended : market.ended = world.row.isTerminal
  closed : market.ended = true → market.cached = none
  live : ∀ state, market.cached = some state → state.status.isTerminal = false
  cached : market.ended = false → market.cached = world.states.map world.objects
  bounded : ∀ reference, world.states = some reference → reference < world.allocated
  holds : ∀ caller state, world.calls caller = some state → Holds world state
  single : ∀ caller call base rest, world.calls caller = some (.applying call base rest) →
    Applying world market call base rest ∧
      ∀ other call base rest, world.calls other = some (.applying call base rest) → other = caller
  unshared : Unshared world → world.applied = market.applied ∧
    (market.ended = true → world.states = none)

variable {caller : Nat}

theorem update_cases {calls : Nat → Option CallState} {other : Nat} {state held : Option CallState}
    (h : Function.update calls caller state other = held) :
    other = caller ∧ state = held ∨ other ≠ caller ∧ calls other = held := by
  by_cases hother : other = caller
  · subst hother
    rw [Function.update_self] at h
    exact .inl ⟨rfl, h⟩
  · rw [Function.update_of_ne hother] at h
    exact .inr ⟨hother, h⟩

variable {world : SettlerWorld} {market : SerialMarket}

/-- A call that goes on waiting, without a result before or after. -/
theorem Mirrors.update (h : Mirrors world market) {state : Option CallState}
    (hbefore : ∀ call base rest, world.calls caller ≠ some (.applying call base rest))
    (hholds : ∀ held, state = some held → Holds world held)
    (hafter : ∀ call base rest, state ≠ some (.applying call base rest)) :
    Mirrors { world with calls := Function.update world.calls caller state } market where
  ended := h.ended
  closed := h.closed
  live := h.live
  cached := h.cached
  bounded := h.bounded
  holds := by
    intro other held hheld
    have hsame : Holds world held := by
      obtain ⟨-, hstate⟩ | ⟨-, hcalls⟩ := update_cases hheld
      · exact hholds held hstate
      · exact h.holds other held hcalls
    cases held <;> exact hsame
  single := by
    intro other call base rest hother
    obtain ⟨-, hstate⟩ | ⟨-, hcalls⟩ := update_cases hother
    · exact absurd hstate (hafter _ _ _)
    · obtain ⟨happlying, hsingle⟩ := h.single other call base rest hcalls
      refine ⟨happlying, fun third call' base' rest' hthird => ?_⟩
      obtain ⟨-, hstate⟩ | ⟨-, hthird⟩ := update_cases hthird
      · exact absurd hstate (hafter _ _ _)
      · exact hsingle third call' base' rest' hthird
  unshared := by
    intro hunshared
    refine h.unshared fun other call base rest hother => ?_
    by_cases hcaller : other = caller
    · subst hcaller
      exact hbefore _ _ _ hother
    · exact hunshared other call base rest ((Function.update_of_ne hcaller _ _).trans hother)

theorem Mirrors.await (h : Mirrors world market) {state : CallState}
    (hbefore : ∀ call base rest, world.calls caller ≠ some (.applying call base rest))
    (hholds : Holds world state) (hafter : ∀ call base rest, state ≠ .applying call base rest) :
    Mirrors (world.await caller state) market :=
  h.update hbefore (fun _ hheld => Option.some.inj hheld ▸ hholds)
    fun call base rest hstate => hafter call base rest (Option.some.inj hstate)

theorem Mirrors.done (h : Mirrors world market)
    (hbefore : ∀ call base rest, world.calls caller ≠ some (.applying call base rest)) :
    Mirrors (world.done caller) market :=
  h.update hbefore (fun _ hheld => by cases hheld) fun _ _ _ hstate => by cases hstate

/-! ## calls that change nothing -/

open SerialMarket

@[simp] theorem SerialMarket.perform_of_none (h : market.cached = none)
    (call : SettlerCall) : market.perform call = market := by
  simp [perform, h]

theorem Mirrors.perform_tick (h : Mirrors world market) (nowMs : Int)
    (hnone : ∀ reference, world.states = some reference →
      (world.objects reference).pendingSettlement = none) :
    market.perform (.tick nowMs) = market := by
  cases hended : market.ended with
  | true => exact perform_of_none (h.closed hended) _
  | false =>
      cases hstates : world.states with
      | none => exact perform_of_none (by rw [h.cached hended, hstates]; rfl) _
      | some reference =>
          have hcached : market.cached = some (world.objects reference) := by
            rw [h.cached hended, hstates]
            rfl
          simp [perform, hcached, hnone reference hstates]

/-! ## hydrating -/

theorem captured_allocate (h : Captured world reference) (state : MarketState) :
    Captured (world.allocate state) reference := by
  refine ⟨Nat.lt_succ_of_lt h.1, ?_⟩
  simpa [SettlerWorld.allocate, Function.update_of_ne (Nat.ne_of_lt h.1)] using h.2

theorem captured_hydrate (h : Captured world reference) (row : MarketStatus)
    (positions : List Position) :
    Captured (world.hydrate row positions).1 reference := by
  unfold SettlerWorld.hydrate
  split
  · next cached hstates =>
    refine ⟨h.1, ?_⟩
    by_cases hsame : reference = cached
    · subst hsame
      simpa using h.2
    · simpa [Function.update_of_ne hsame] using h.2
  · exact captured_allocate h _

theorem Mirrors.hydrate (h : Mirrors world market) (hunshared : Unshared world)
    (hrow : world.row.isTerminal = false) {row : MarketStatus} (hlisted : row.isTerminal = false)
    (positions : List Position) :
    Mirrors (world.hydrate row positions).1 (market.refresh world.fixed row positions) := by
  have hended : market.ended = false := h.ended.trans hrow
  have hcached := h.cached hended
  have hholds : ∀ caller state, (world.hydrate row positions).1.calls caller = some state →
      Holds (world.hydrate row positions).1 state := by
    intro caller state hstate
    have hcalls : (world.hydrate row positions).1.calls = world.calls := by
      unfold SettlerWorld.hydrate
      split <;> rfl
    have hsame : (world.hydrate row positions).1.row = world.row := by
      unfold SettlerWorld.hydrate
      split <;> rfl
    have hold := h.holds caller state (hcalls ▸ hstate)
    cases state with
    | hydrating event listed => exact hold
    | looking nowMs reference => exact captured_hydrate hold row positions
    | checking nowMs reference seen =>
        exact ⟨captured_hydrate hold.1 row positions, fun hseen => hsame ▸ hold.2 hseen⟩
    | _ => trivial
  unfold SettlerWorld.hydrate at hholds ⊢
  unfold SerialMarket.refresh
  cases hstates : world.states with
  | some reference =>
      rw [hstates] at hcached
      simp only [hstates, hended, hcached, Option.map_some] at hholds ⊢
      exact
        { ended := hrow.symm
          closed := fun hclosed => by cases hclosed
          live := by
            intro state hstate
            obtain rfl := Option.some.inj hstate
            exact h.live (world.objects reference) hcached
          cached := fun _ => by simp
          bounded := fun other hother => h.bounded other (hstates.trans hother)
          holds := hholds
          single := fun caller call base rest hcaller => absurd hcaller (hunshared _ _ _ _)
          unshared := fun _ => ⟨(h.unshared hunshared).1, fun hclosed => by cases hclosed⟩ }
  | none =>
      rw [hstates] at hcached
      simp only [hstates, hended, hcached, Option.map_none] at hholds ⊢
      unfold SettlerWorld.allocate at hholds ⊢
      exact
        { ended := hrow.symm
          closed := fun hclosed => by cases hclosed
          live := by
            intro state hstate
            obtain rfl := Option.some.inj hstate
            exact hlisted
          cached := fun _ => by simp
          bounded := fun other hother => by
            obtain rfl := Option.some.inj hother
            exact Nat.lt_succ_self _
          holds := hholds
          single := fun caller call base rest hcaller => absurd hcaller (hunshared _ _ _ _)
          unshared := fun _ => ⟨(h.unshared hunshared).1, fun hclosed => by cases hclosed⟩ }

/-! ## reducing -/

variable {call : SettlerCall}

theorem state_of_keeps {state : MarketState} (h : call.keeps state = true) :
    (call.result state).state = state := by
  cases call with
  | onEvent event => rw [SettlerCall.result, reduceMarket_of_ignored h]
  | tick nowMs =>
      have hnone : (checkDebounce state nowMs).effects = [] := of_decide_eq_true h
      have hmatured : (maturePositions state nowMs).effects = [] →
          (maturePositions state nowMs).state = state := by
        unfold maturePositions
        dsimp only
        split_ifs
        · exact fun _ => rfl
        · exact fun heffects => by cases heffects
      rw [SettlerCall.result]
      unfold checkDebounce at hnone ⊢
      by_cases hover : state.status = .settled ∨ state.status = .voided
      · rw [if_pos hover]
      · rw [if_neg hover] at hnone ⊢
        dsimp only at hnone ⊢
        cases helapsed : debounceElapsed (maturePositions state nowMs).state nowMs with
        | false =>
            simp only [helapsed, Bool.false_eq_true, if_false] at hnone ⊢
            exact hmatured hnone
        | true =>
            cases hpending : (maturePositions state nowMs).state.pendingSettlement with
            | none => simp [debounceElapsed, hpending] at helapsed
            | some pending => simp [helapsed, settleNow, hpending] at hnone

theorem Mirrors.allocate (h : Mirrors world market) (hunshared : Unshared world)
    (state : MarketState) :
    Mirrors (world.allocate state) market where
  ended := h.ended
  closed := h.closed
  live := h.live
  cached := by
    intro hopen
    rw [h.cached hopen]
    cases hstates : world.states with
    | none => simp [SettlerWorld.allocate, hstates]
    | some reference =>
        have hne := Nat.ne_of_lt (h.bounded reference hstates)
        simp [SettlerWorld.allocate, hstates, Function.update_of_ne hne]
  bounded := fun reference hreference => Nat.lt_succ_of_lt (h.bounded reference hreference)
  holds := by
    intro caller held hheld
    have hold := h.holds caller held hheld
    cases held with
    | hydrating event listed => exact hold
    | looking nowMs reference => exact captured_allocate hold state
    | checking nowMs reference seen => exact ⟨captured_allocate hold.1 state, hold.2⟩
    | _ => trivial
  single := fun caller call base rest hcaller => absurd hcaller (hunshared _ _ _ _)
  unshared := h.unshared

variable {base : Nat}

/-! ## applying -/

/-- The part of `Mirrors` about the row and the map. -/
structure Tracks (world : SettlerWorld) (market : SerialMarket) : Prop where
  ended : market.ended = world.row.isTerminal
  closed : market.ended = true → market.cached = none
  live : ∀ state, market.cached = some state → state.status.isTerminal = false
  cached : market.ended = false → market.cached = world.states.map world.objects
  bounded : ∀ reference, world.states = some reference → reference < world.allocated

/-- The next world differs in the row, the map and the effects; an ended row stays so. -/
structure Adjacent (world next : SettlerWorld) : Prop where
  objects : next.objects = world.objects
  allocated : next.allocated = world.allocated
  calls : next.calls = world.calls
  row : world.row.isTerminal = true → next.row.isTerminal = true

theorem Adjacent.holds {next : SettlerWorld} (h : Adjacent world next) {held : CallState}
    (hold : Holds world held) : Holds next held := by
  have hcaptured : ∀ reference, Captured world reference → Captured next reference := by
    intro reference hreference
    rw [Captured, h.objects, h.allocated]
    exact hreference
  cases held with
  | hydrating event listed => exact hold
  | looking nowMs reference => exact hcaptured reference hold
  | checking nowMs reference seen =>
      exact ⟨hcaptured reference hold.1, fun hseen => h.row (hold.2 hseen)⟩
  | _ => trivial

section

variable (h : Mirrors world market)

include h

/-- A call that goes on in an adjacent world, where no other call has a result. -/
theorem Mirrors.set {market' : SerialMarket} (next : SettlerWorld) (hadjacent : Adjacent world next)
    (hothers : ∀ other call base rest,
      world.calls other = some (.applying call base rest) → other = caller)
    (htracks : Tracks next market') {state : Option CallState}
    (hholds : ∀ held, state = some held → Holds next held)
    (happlying : ∀ call base rest, state = some (.applying call base rest) →
      Applying next market' call base rest)
    (hunshared : (∀ call base rest, state ≠ some (.applying call base rest)) →
      next.applied = market'.applied ∧ (market'.ended = true → next.states = none)) :
    Mirrors { next with calls := Function.update next.calls caller state } market' where
  ended := htracks.ended
  closed := htracks.closed
  live := htracks.live
  cached := htracks.cached
  bounded := htracks.bounded
  holds := by
    intro other held hheld
    have hnext : Holds next held := by
      obtain ⟨-, hstate⟩ | ⟨-, hcalls⟩ := update_cases hheld
      · exact hholds held hstate
      · exact hadjacent.holds (h.holds other held (hadjacent.calls ▸ hcalls))
    cases held <;> exact hnext
  single := by
    have hcaller : ∀ {other call base rest},
        Function.update next.calls caller state other = some (.applying call base rest) →
        other = caller ∧ state = some (.applying call base rest) := by
      intro other call base rest hother
      obtain hcaller | ⟨hne, hcalls⟩ := update_cases hother
      · exact hcaller
      · exact absurd (hothers other _ _ _ (hadjacent.calls ▸ hcalls)) hne
    intro other call base rest hother
    obtain ⟨rfl, hstate⟩ := hcaller hother
    exact ⟨happlying _ _ _ hstate, fun third _ _ _ hthird => (hcaller hthird).1⟩
  unshared := fun hnone => hunshared fun call base rest hstate =>
    hnone caller call base rest ((Function.update_self _ _ _).trans hstate)

/-- A call that has its result, with the object it is in. -/
theorem Mirrors.apply (hunshared : Unshared world)
    (happlying : Applying world market call base rest) (caller : Nat) :
    Mirrors (world.await caller (.applying call base rest)) market :=
  h.set world ⟨rfl, rfl, rfl, id⟩ (fun _ _ _ _ hother => absurd hother (hunshared _ _ _ _))
    ⟨h.ended, h.closed, h.live, h.cached, h.bounded⟩ (fun _ hheld => by cases hheld; trivial)
    (fun _ _ _ hstate => by cases hstate; exact happlying) fun hnone => absurd rfl (hnone _ _ _)

/-- A call that has changed the row or the effects, and goes on applying its own. -/
theorem Mirrors.advance {market' : SerialMarket} (next : SettlerWorld)
    (hadjacent : Adjacent world next) {rest' : List EffectStep}
    (hcalls : world.calls caller = some (.applying call base rest)) (htracks : Tracks next market')
    (happlying : Applying next market' call base rest') :
    Mirrors (next.await caller (.applying call base rest')) market' :=
  h.set next hadjacent (h.single caller call base rest hcalls).2 htracks
    (fun _ hheld => by cases hheld; trivial)
    (fun _ _ _ hstate => by cases hstate; exact happlying) fun hnone => absurd rfl (hnone _ _ _)

/-- A call that returns: its result is in the map, or the market has ended. -/
theorem Mirrors.finish {market' : SerialMarket} (next : SettlerWorld)
    (hadjacent : Adjacent world next)
    (hcalls : world.calls caller = some (.applying call base rest)) (htracks : Tracks next market')
    (happlied : next.applied = market'.applied)
    (hstates : market'.ended = true → next.states = none) :
    Mirrors (next.done caller) market' :=
  h.set next hadjacent (h.single caller call base rest hcalls).2 htracks
    (fun _ hheld => by cases hheld) (fun _ _ _ hstate => by cases hstate)
    fun _ => ⟨happlied, hstates⟩

/-- What is in the map is dropped once the market has ended. -/
theorem Mirrors.tracks_forget (hended : market.ended = true) :
    Tracks { world with states := none } market :=
  ⟨h.ended, h.closed, h.live, fun hopen => by simp [hended] at hopen, fun _ hnone => by cases hnone⟩

/-- The result of the call, as the market takes it. -/
theorem Mirrors.perform (hended : market.ended = false)
    (hstates : world.states = some base) (hcandidate : ∀ nowMs, call = .tick nowMs →
      (world.objects base).pendingSettlement ≠ none) :
    market.perform call = market.take (call.result (world.objects base)) := by
  have hcached : market.cached = some (world.objects base) := by
    rw [h.cached hended, hstates]
    rfl
  cases call with
  | onEvent event => simp [perform, hcached, SettlerCall.result]
  | tick nowMs => simp [perform, hcached, hcandidate nowMs rfl, SettlerCall.result]

/-- The last steps of a call that has ended the market. -/
theorem Mirrors.close {step : EffectStep}
    (hcalls : world.calls caller = some (.applying call base (step :: rest)))
    (hended : market.ended = true) (happlied : world.applied = market.applied)
    (hsteps : step :: rest = [.forget, .drop] ∨ step :: rest = [.drop]) :
    Mirrors (world.advance caller call base rest step).1 market ∧
      (world.advance caller call base rest step).2 = [] := by
  rcases hsteps with hsteps | hsteps
  · obtain ⟨rfl, rfl⟩ := List.cons.inj hsteps
    refine ⟨?_, rfl⟩
    exact h.advance { world with states := none } ⟨rfl, rfl, rfl, id⟩ hcalls
      (h.tracks_forget hended) (.inl ⟨hended, happlied, .inr rfl⟩)
  · obtain ⟨rfl, rfl⟩ := List.cons.inj hsteps
    refine ⟨?_, rfl⟩
    exact h.finish { world with states := none } ⟨rfl, rfl, rfl, id⟩ hcalls
      (h.tracks_forget hended) happlied fun _ => rfl

end

theorem Mirrors.reduce (h : Mirrors world market) (hunshared : Unshared world)
    (hrow : world.row.isTerminal = false) (hstates : world.states = some base)
    (hcandidate : ∀ nowMs, call = .tick nowMs →
      (world.objects base).pendingSettlement ≠ none) (caller : Nat) (row : MarketStatus) :
    Mirrors (world.reduce caller call row base) market := by
  have hended : market.ended = false := h.ended.trans hrow
  have hcached : market.cached = some (world.objects base) := by
    rw [h.cached hended, hstates]
    rfl
  have hbase := h.bounded base hstates
  have hconcluded := call.concluded (h.live _ hcached)
  have happlied : world.applied = market.applied ++ [] := by
    rw [List.append_nil]
    exact (h.unshared hunshared).1
  unfold SettlerWorld.reduce
  dsimp only
  split_ifs with hkeeps
  · exact h.apply hunshared (.inr ⟨hended, hstates, hcandidate, base, [], hbase,
      (state_of_keeps hkeeps).symm, happlied, ahead_effectSteps hconcluded row base⟩) caller
  · have hsame : (world.allocate (call.result (world.objects base)).state).objects base =
        world.objects base := Function.update_of_ne (Nat.ne_of_lt hbase) _ _
    refine (h.allocate hunshared _).apply hunshared (.inr ⟨hended, hstates, ?_, world.allocated, [],
      Nat.lt_succ_self _, ?_, happlied, ?_⟩) caller
    · rw [hsame]
      exact hcandidate
    · rw [hsame]
      exact Function.update_self _ _ _
    · rw [hsame]
      exact ahead_effectSteps hconcluded row world.allocated

@[simp] theorem SerialMarket.run_nil (fixed : MarketRow) (market : SerialMarket) :
    SerialMarket.run fixed market [] = market := rfl

@[simp] theorem SerialMarket.run_tookEffect (fixed : MarketRow) (market : SerialMarket)
    (caller : Nat) (call : SettlerCall) :
    SerialMarket.run fixed market [.tookEffect caller call] = market.perform call := rfl

/-- An effect that leaves the market open, or a move of the row's status. -/
theorem Mirrors.continue {next : SettlerWorld} (h : Mirrors world market) {rest' : List EffectStep}
    (hcalls : world.calls caller = some (.applying call base rest)) (hended : market.ended = false)
    (hrow : next.row.isTerminal = false)
    (hnext : next = { world with row := next.row, applied := next.applied })
    (happlying : Applying next market call base rest') :
    Mirrors (next.await caller (.applying call base rest')) market := by
  rw [hnext] at happlying ⊢
  refine h.advance { world with row := next.row, applied := next.applied }
    ⟨rfl, rfl, rfl, fun hover => ?_⟩ hcalls
    ⟨hended.trans hrow.symm, h.closed, h.live, h.cached, h.bounded⟩ happlying
  rw [← h.ended, hended] at hover
  cases hover

theorem mirrors_advance (fixed : MarketRow) (h : Mirrors world market) {step : EffectStep}
    (hcalls : world.calls caller = some (.applying call base (step :: rest))) :
    Mirrors (world.advance caller call base rest step).1
      (SerialMarket.run fixed market (world.advance caller call base rest step).2) := by
  obtain ⟨hended, happlied, hsteps⟩ | ⟨hended, hstates, hcandidate, reference, applied,
    hreference, hresult, happlied, hahead⟩ := (h.single caller call base _ hcalls).1
  · obtain ⟨hmirrors, hnotes⟩ := h.close hcalls hended happlied hsteps
    rw [hnotes]
    exact hmirrors
  have hperform := h.perform hended hstates hcandidate
  have hrow : world.row.isTerminal = false := h.ended.symm.trans hended
  obtain ⟨effect, rfl, hopen, hrest⟩ | ⟨last, rfl, hlast, hterminal, heffects, rfl⟩ |
    ⟨status, rfl, hopen, hrest⟩ | ⟨rfl, hlive, heffects, rfl⟩ := hahead.step
  · simp only [SettlerWorld.advance, hopen, Bool.false_eq_true, if_false, run_nil]
    refine h.continue hcalls hended (rowStatus_of_unended hopen hrow) rfl
      (.inr ⟨hended, hstates, hcandidate, reference, applied ++ [effect], hreference, hresult, ?_,
        hrest⟩)
    simp [SettlerWorld.applyEffect, happlied]
  · have hover := rowStatus_of_terminal hlast world.row
    simp only [SettlerWorld.advance, hlast, if_true, run_tookEffect, hperform]
    refine h.advance (world.applyEffect last) ⟨rfl, rfl, rfl, fun _ => hover⟩ hcalls
      ⟨?_, ?_, ?_, ?_, h.bounded⟩ (.inl ⟨hterminal, ?_, .inl rfl⟩)
    · exact hterminal.trans hover.symm
    · exact fun _ => if_pos hterminal
    · intro state hstate
      simp [take, hterminal] at hstate
    · intro hstill
      simp [take, hterminal] at hstill
    · simp [SettlerWorld.applyEffect, take, happlied, ← heffects]
  · exact h.continue hcalls hended hopen rfl
      (.inr ⟨hended, hstates, hcandidate, reference, applied, hreference, hresult, happlied,
        hrest⟩)
  · simp only [SettlerWorld.advance, run_tookEffect, hperform]
    refine h.finish { world with states := some reference } ⟨rfl, rfl, rfl, id⟩ hcalls
      ⟨?_, ?_, ?_, ?_, ?_⟩ ?_ ?_
    · exact hlive.trans hrow.symm
    · intro hclosed
      simp [take, hlive] at hclosed
    · intro state hstate
      simp only [take, hlive, Bool.false_eq_true, if_false] at hstate
      obtain rfl := Option.some.inj hstate
      exact hlive
    · simp [take, hlive, hresult]
    · intro other hother
      obtain rfl := Option.some.inj hother
      exact hreference
    · simp [take, happlied, heffects]
    · intro hclosed
      simp [take, hlive] at hclosed

/-! ## steps -/

theorem mirrors_accept (fixed : MarketRow) (h : Mirrors world market)
    (hfree : world.calls caller = none) (call : SettlerCall) :
    Mirrors (world.accept caller call).1
      (SerialMarket.run fixed market (world.accept caller call).2) := by
  have hbefore : ∀ call base rest, world.calls caller ≠ some (.applying call base rest) := by
    simp [hfree]
  cases call with
  | onEvent event => exact h.await hbefore trivial fun _ _ _ hstate => by cases hstate
  | tick nowMs =>
      unfold SettlerWorld.accept
      cases hstates : world.states with
      | none =>
          change Mirrors world (market.perform (.tick nowMs))
          rw [h.perform_tick nowMs fun reference hreference => by simp [hstates] at hreference]
          exact h
      | some reference =>
          dsimp only
          split_ifs with hnone
          · change Mirrors world (market.perform (.tick nowMs))
            rw [h.perform_tick nowMs fun other hother => by
              obtain rfl := Option.some.inj (hstates.symm.trans hother)
              exact hnone]
            exact h
          · exact h.await hbefore ⟨h.bounded reference hstates, hnone⟩ fun _ _ _ hstate => by
              cases hstate

/-- A tick that finds the row ended deletes what is in the map. -/
theorem Mirrors.forget (h : Mirrors world market)
    (hended : market.ended = true) : Mirrors { world with states := none } market where
  ended := h.ended
  closed := h.closed
  live := h.live
  cached := fun hopen => by simp [hended] at hopen
  bounded := fun _ hnone => by cases hnone
  holds := by
    intro caller held hheld
    have hold := h.holds caller held hheld
    cases held <;> exact hold
  single := by
    intro caller call base rest hcalls
    obtain ⟨happlying, hothers⟩ := h.single caller call base rest hcalls
    refine ⟨?_, hothers⟩
    rcases happlying with hclosing | ⟨hopen, -⟩
    · exact .inl hclosing
    · simp [hended] at hopen
  unshared := fun hunshared => ⟨(h.unshared hunshared).1, fun _ => rfl⟩

theorem mirrors_resume (h : Mirrors world market) {positions : List Position}
    (hundivided : Undivided world (.resume caller positions)) :
    Mirrors (world.resume caller positions).1
      (SerialMarket.run world.fixed market (world.resume caller positions).2) := by
  unfold SettlerWorld.resume
  unfold Undivided at hundivided
  cases hcalls : world.calls caller with
  | none => exact h
  | some state =>
      have hholds := h.holds caller state hcalls
      cases state with
      | listing event =>
          have hbefore : ∀ call base rest,
              world.calls caller ≠ some (.applying call base rest) := by
            simp [hcalls]
          dsimp only
          split_ifs with hover
          · change Mirrors (world.done caller) (market.perform (.onEvent event))
            rw [perform_of_none (h.closed (h.ended.trans hover))]
            exact h.done hbefore
          · exact h.await hbefore (by simpa [Holds] using hover) fun _ _ _ hstate => by cases hstate
      | hydrating event row =>
          simp only [hcalls] at hundivided
          have hhydrated := h.hydrate hundivided.1 hundivided.2 hholds positions
          refine hhydrated.await ?_ trivial fun _ _ _ hstate => by cases hstate
          intro call base rest hother
          refine hundivided.1 caller call base rest ?_
          unfold SettlerWorld.hydrate at hother
          split at hother <;> exact hother
      | reducing event row reference =>
          simp only [hcalls] at hundivided
          exact h.reduce hundivided.1 hundivided.2.1 hundivided.2.2
            (fun nowMs hcall => by cases hcall) caller row
      | looking nowMs reference =>
          exact h.await (by simp [hcalls]) ⟨hholds, id⟩ fun _ _ _ hstate => by cases hstate
      | checking nowMs reference row =>
          simp only [hcalls] at hundivided
          dsimp only
          split_ifs with hover
          · have hended := h.ended.trans (hholds.2 hover)
            change Mirrors _ (market.perform (.tick nowMs))
            rw [perform_of_none (h.closed hended)]
            exact (h.forget hended).done (by simp [hcalls])
          · obtain ⟨hunshared, hrow, hstates⟩ := hundivided (by simpa using hover)
            exact h.reduce hunshared hrow hstates (fun _ _ => hholds.1.2) caller row
      | applying call base rest =>
          cases rest with
          | nil =>
              obtain ⟨-, -, hrest | hrest⟩ | ⟨-, -, -, reference, applied, -, -, -, hahead⟩ :=
                (h.single caller call base _ hcalls).1
              · cases hrest
              · cases hrest
              · unfold Ahead at hahead
                split_ifs at hahead
                · obtain ⟨effects, last, -, -, -, hrest⟩ := hahead
                  simp at hrest
                · obtain ⟨effects, moves, -, -, -, hrest⟩ := hahead
                  simp at hrest
          | cons step rest => exact mirrors_advance world.fixed h hcalls

theorem mirrors_step {action : SettlerAction} (h : Mirrors world market)
    (hundivided : Undivided world action) :
    Mirrors (settlerStep world action).1
      (SerialMarket.run world.fixed market (settlerStep world action).2) := by
  cases action with
  | call caller call =>
      unfold settlerStep
      dsimp only
      split_ifs with hbusy
      · exact h
      · exact mirrors_accept world.fixed h (by simpa using hbusy) call
  | resume caller positions => exact mirrors_resume h hundivided

end CalledIt.Engine
