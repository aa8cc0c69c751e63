import Mathlib.Tactic.Common

/-!
# CalledIt.Lib.Program

Programs that call on a state, and crash.

A `Program` is a sequence of atomic calls, each of which has replies of its own
type; what a call does is a relation between states.  A program runs to its end
(`Executes`) or stops on the way (`Crashes`): before a call, or in the middle of one
that tears.  `Meets` says of a program what it returns and what every crash leaves,
and goes through a program call by call.  `Secures` says what a program returns when
others call on the state as well.
-/

namespace Lib

/-- A sequence of calls, each chosen by the replies to those before. -/
inductive Program (C : Type) (R : C → Type) (α : Type) : Type
  | done (a : α)
  | call (c : C) (next : R c → Program C R α)

namespace Program

section Syntax

variable {C : Type} {R : C → Type} {α β : Type}

def bind : Program C R α → (α → Program C R β) → Program C R β
  | done a, f => f a
  | call c next, f => call c fun r => (next r).bind f

instance : Monad (Program C R) where
  pure := done
  bind := bind

def perform (c : C) : Program C R (R c) := call c done

end Syntax

section Semantics

variable {C : Type} {R : C → Type} {α β σ : Type} (exec : (c : C) → σ → R c → σ → Prop)
  (tear : C → σ → σ → Prop)

/-- The program ran to its end. -/
inductive Executes : Program C R α → σ → α → σ → Prop
  | done (a : α) (s : σ) : Executes (done a) s a s
  | call {c : C} {next : R c → Program C R α} {s t u : σ} {r : R c} {a : α} :
      exec c s r t → Executes (next r) t a u → Executes (call c next) s a u

/-- What a crash on the way leaves behind. -/
inductive Crashes : Program C R α → σ → σ → Prop
  | before (p : Program C R α) (s : σ) : Crashes p s s
  | torn {c : C} {next : R c → Program C R α} {s t : σ} :
      tear c s t → Crashes (call c next) s t
  | after {c : C} {next : R c → Program C R α} {s t u : σ} {r : R c} :
      exec c s r t → Crashes (next r) t u → Crashes (call c next) s u

/-- Every run from the state ends in `Q`, and every crash on the way leaves `K`. -/
def Meets (K : σ → Prop) (Q : α → σ → Prop) : Program C R α → σ → Prop
  | done a, s => K s ∧ Q a s
  | call c next, s => K s ∧ (∀ t, tear c s t → K t) ∧ ∀ r t, exec c s r t → Meets K Q (next r) t

variable {exec tear} {K : σ → Prop} {Q : α → σ → Prop} {p : Program C R α} {s : σ}

section

variable (h : Meets exec tear K Q p s)

include h

theorem Meets.crash : K s := by
  cases p with
  | done a => exact h.1
  | call c next => exact h.1

theorem Meets.executes {t : σ} {a : α}
    (hrun : Executes exec p s a t) : Q a t := by
  induction hrun with
  | done a s => exact h.2
  | call hexec _ ih => exact ih (h.2.2 _ _ hexec)

theorem Meets.crashes {t : σ} (hrun : Crashes exec tear p s t) :
    K t := by
  induction hrun with
  | before p s => exact h.crash
  | torn htear => exact h.2.1 _ htear
  | after hexec _ ih => exact ih (h.2.2 _ _ hexec)

theorem Meets.mono {Q' : α → σ → Prop}
    (hQ : ∀ a t, Q a t → Q' a t) : Meets exec tear K Q' p s := by
  induction p generalizing s with
  | done a => exact ⟨h.1, hQ a s h.2⟩
  | call c next ih => exact ⟨h.1, h.2.1, fun r t hexec => ih r (h.2.2 r t hexec)⟩

theorem Meets.and {Q' : α → σ → Prop}
    (h' : Meets exec tear K Q' p s) : Meets exec tear K (fun a t => Q a t ∧ Q' a t) p s := by
  induction p generalizing s with
  | done a => exact ⟨h.1, h.2, h'.2⟩
  | call c next ih =>
      exact ⟨h.1, h.2.1, fun r t hexec => ih r (h.2.2 r t hexec) (h'.2.2 r t hexec)⟩

theorem Meets.bind {f : α → Program C R β} {Q' : β → σ → Prop}
    (hf : ∀ a t, Q a t → Meets exec tear K Q' (f a) t) :
    Meets exec tear K Q' (p.bind f) s := by
  induction p generalizing s with
  | done a => exact hf a s h.2
  | call c next ih => exact ⟨h.1, h.2.1, fun r t hexec => ih r (h.2.2 r t hexec)⟩

end

theorem Executes.bind {f : α → Program C R β} {t u : σ} {a : α} {b : β}
    (h : Executes exec p s a t) (hf : Executes exec (f a) t b u) :
    Executes exec (p.bind f) s b u := by
  induction h with
  | done a s => exact hf
  | call hexec _ ih => exact .call hexec (ih hf)

/-- Every call of the program, whatever was replied before, is one of these. -/
def Only (allowed : C → Prop) : Program C R α → Prop
  | done _ => True
  | call c next => allowed c ∧ ∀ r, Only allowed (next r)

variable {allowed : C → Prop}

theorem Only.bind {f : α → Program C R β} (h : Only allowed p) (hf : ∀ a, Only allowed (f a)) :
    Only allowed (p.bind f) := by
  induction p with
  | done a => exact hf a
  | call c next ih => exact ⟨h.1, fun r => ih r (h.2 r)⟩

/-- What the calls of a program keep, the program keeps. -/
theorem Only.meets {I : σ → Prop} (h : Only allowed p)
    (hkeeps : ∀ c s r t, allowed c → I s → exec c s r t → I t) (hs : I s) :
    Meets exec (fun _ _ _ => False) I (fun _ => I) p s := by
  induction p generalizing s with
  | done a => exact ⟨hs, hs⟩
  | call c next ih =>
      exact ⟨hs, by simp, fun r t hexec => ih r (h.2 r) (hkeeps c s r t h.1 hs hexec)⟩

/-- A program whose calls all have replies runs to its end. -/
theorem exists_executes (htotal : ∀ c s, ∃ r t, exec c s r t) (p : Program C R α) (s : σ) :
    ∃ a t, Executes exec p s a t := by
  induction p generalizing s with
  | done a => exact ⟨a, s, .done a s⟩
  | call c next ih =>
      obtain ⟨r, t, hexec⟩ := htotal c s
      obtain ⟨a, u, hrun⟩ := ih r t
      exact ⟨a, u, .call hexec hrun⟩

end Semantics

/-! ## calls that compute -/

section Function

variable {C : Type} {R : C → Type} {α σ : Type} (f : (c : C) → σ → R c × σ)

def run : Program C R α → σ → α × σ
  | done a, s => (a, s)
  | call c next, s => run (next (f c s).1) (f c s).2

/-- The program and the state after some calls. -/
def advance : ℕ → Program C R α → σ → Program C R α × σ
  | n + 1, call c next, s => advance n (next (f c s).1) (f c s).2
  | _, p, s => (p, s)

/-- The next call of a program. -/
def head? : Program C R α → Option C
  | done _ => none
  | call c _ => some c

variable {f} {exec : (c : C) → σ → R c → σ → Prop} {tear : C → σ → σ → Prop}

theorem executes_run (hf : ∀ c s, exec c s (f c s).1 (f c s).2) (p : Program C R α) (s : σ) :
    Executes exec p s (run f p s).1 (run f p s).2 := by
  induction p generalizing s with
  | done a => exact .done a s
  | call c next ih => exact .call (hf c s) (ih _ _)

theorem crashes_advance (hf : ∀ c s, exec c s (f c s).1 (f c s).2) (n : ℕ) {p : Program C R α}
    {s t : σ} {c : C} (hhead : (advance f n p s).1.head? = some c)
    (htear : tear c (advance f n p s).2 t) : Crashes exec tear p s t := by
  have hhere : ∀ {p : Program C R α} {s : σ}, p.head? = some c → tear c s t →
      Crashes exec tear p s t := by
    intro p s hhead htear
    cases p with
    | done a => simp [head?] at hhead
    | call c' next =>
        obtain rfl : c' = c := by simpa [head?] using hhead
        exact .torn htear
  induction n generalizing p s with
  | zero => exact hhere hhead htear
  | succ n ih =>
      cases p with
      | done a => exact hhere hhead htear
      | call c' next => exact .after (hf c' s) (ih hhead htear)

end Function

/-! ## programs that throw -/

section Throws

variable {C : Type} {R : C → Type} {α β σ ε : Type} {exec : (c : C) → σ → R c → σ → Prop}
  {tear : C → σ → σ → Prop} {K : σ → Prop} {s : σ}

/-- A result that is no throw, with its property. -/
def Returns (P : α → σ → Prop) (r : Except ε α) (t : σ) : Prop := ∃ a, r = .ok a ∧ P a t

theorem meets_pure {Q : Except ε α → σ → Prop} {a : α} (hK : K s) (hQ : Q (.ok a) s) :
    Meets exec tear K Q (pure a : ExceptT ε (Program C R) α) s :=
  ⟨hK, hQ⟩

theorem meets_throw {Q : Except ε α → σ → Prop} {e : ε} (hK : K s) (hQ : Q (.error e) s) :
    Meets exec tear K Q (throw e : ExceptT ε (Program C R) α) s :=
  ⟨hK, hQ⟩

theorem meets_bind {p : ExceptT ε (Program C R) α} {f : α → ExceptT ε (Program C R) β}
    {Q : Except ε β → σ → Prop} {P : α → σ → Prop}
    (hp : Meets exec tear K (fun r t => Returns P r t ∨ ∃ e, r = .error e ∧ K t ∧ Q (.error e) t)
      p s)
    (hf : ∀ a t, P a t → Meets exec tear K Q (f a) t) :
    Meets exec tear K Q (p >>= f : ExceptT ε (Program C R) β) s := by
  refine Meets.bind hp fun r t h => ?_
  rcases h with ⟨a, rfl, ha⟩ | ⟨e, rfl, hK, hQ⟩
  · exact hf a t ha
  · exact ⟨hK, hQ⟩

/-- The rule for a first part that throws nothing. -/
theorem meets_bind_ok {p : ExceptT ε (Program C R) α} {f : α → ExceptT ε (Program C R) β}
    {Q : Except ε β → σ → Prop} {P : α → σ → Prop}
    (hp : Meets exec tear K (Returns P) p s)
    (hf : ∀ a t, P a t → Meets exec tear K Q (f a) t) :
    Meets exec tear K Q (p >>= f : ExceptT ε (Program C R) β) s :=
  meets_bind (hp.mono fun _ _ h => .inl h) hf

/-- One call, lifted. -/
theorem meets_perform {c : C} {Q : Except ε (R c) → σ → Prop} (hK : K s)
    (htear : ∀ t, tear c s t → K t) (hQ : ∀ r t, exec c s r t → K t ∧ Q (.ok r) t) :
    Meets exec tear K Q (liftM (perform c : Program C R (R c)) : ExceptT ε (Program C R) (R c)) s :=
  ⟨hK, htear, hQ⟩

theorem lift_ok_bind {a : α} {f : α → ExceptT ε (Program C R) β} :
    (liftM (Except.ok a : Except ε α) >>= f : ExceptT ε (Program C R) β) = f a :=
  rfl

theorem only_pure {allowed : C → Prop} {a : α} :
    Only allowed (pure a : ExceptT ε (Program C R) α) :=
  trivial

theorem only_throw {allowed : C → Prop} {e : ε} :
    Only allowed (throw e : ExceptT ε (Program C R) α) :=
  trivial

theorem only_lift {allowed : C → Prop} {r : Except ε α} :
    Only allowed (liftM r : ExceptT ε (Program C R) α) :=
  trivial

theorem only_perform {allowed : C → Prop} {c : C} (h : allowed c) :
    Only allowed (liftM (perform c : Program C R (R c)) : ExceptT ε (Program C R) (R c)) :=
  ⟨h, fun _ => trivial⟩

theorem only_bind {allowed : C → Prop} {p : ExceptT ε (Program C R) α}
    {f : α → ExceptT ε (Program C R) β} (hp : Only allowed p) (hf : ∀ a, Only allowed (f a)) :
    Only allowed (p >>= f : ExceptT ε (Program C R) β) := by
  refine Only.bind hp fun r => ?_
  cases r with
  | ok a => exact hf a
  | error e => exact trivial

/-- What is caught is a reply like any other. -/
theorem only_catch {allowed : C → Prop} {p : ExceptT ε (Program C R) α} (hp : Only allowed p) :
    Only allowed (ExceptT.lift p.run : ExceptT ε (Program C R) (Except ε α)) :=
  Only.bind hp fun _ => trivial

/-- A program that goes on after what was returned. -/
theorem executes_bind {p : ExceptT ε (Program C R) α} {f : α → ExceptT ε (Program C R) β}
    {t u : σ} {a : α} {r : Except ε β} (hp : Executes exec p s (.ok a) t)
    (hf : Executes exec (f a) t r u) :
    Executes exec (p >>= f : ExceptT ε (Program C R) β) s r u :=
  Executes.bind hp hf

end Throws

/-! ## programs among others -/

section Interference

variable {C : Type} {R : C → Type} {α β σ ε : Type}

/-- What the others may do between two calls; a call itself does no more. -/
structure Interference (exec : (c : C) → σ → R c → σ → Prop) (rely : σ → σ → Prop) : Prop where
  refl : ∀ s, rely s s
  trans : ∀ {s t u}, rely s t → rely t u → rely s u
  call : ∀ {c s r t}, exec c s r t → rely s t

variable (exec : (c : C) → σ → R c → σ → Prop) (rely : σ → σ → Prop)

/-- A call after something the others did. -/
def Among (c : C) (s : σ) (r : R c) (u : σ) : Prop := ∃ t, rely s t ∧ exec c t r u

/-- Whatever the others do, the program returns `P` or throws. -/
def Secures (P : α → σ → Prop) (p : ExceptT ε (Program C R) α) (s : σ) : Prop :=
  Meets (Among exec rely) (fun _ _ _ => False) (fun _ => True) (fun r t => ∀ a, r = .ok a → P a t)
    p s

variable {exec rely} {P : α → σ → Prop} {s t : σ}

/-- A program runs where the others allow it. -/
theorem Meets.relies {Q : α → σ → Prop} {p : Program C R α} (hrely : Interference exec rely)
    (h : Meets (Among exec rely) (fun _ _ _ => False) (fun _ => True) Q p s) :
    Meets (Among exec rely) (fun _ _ _ => False) (fun _ => True) (fun a t => rely s t ∧ Q a t)
      p s := by
  induction p generalizing s with
  | done a => exact ⟨trivial, hrely.refl s, h.2⟩
  | call c next ih =>
      refine ⟨trivial, by simp, fun r u hexec => ?_⟩
      obtain ⟨t, hothers, hcall⟩ := hexec
      have hlater : rely s u := hrely.trans hothers (hrely.call hcall)
      refine (ih r (h.2.2 r u ⟨t, hothers, hcall⟩)).mono fun a v hv => ?_
      exact ⟨hrely.trans hlater hv.1, hv.2⟩

/-- What the others do in between is no harm to a property they keep. -/
theorem Secures.later {p : ExceptT ε (Program C R) α} (hrely : Interference exec rely)
    (hP : ∀ a s t, rely s t → P a s → P a t) (h : Secures exec rely P p s) (hst : rely s t) :
    Secures exec rely P p t := by
  cases p with
  | done r => exact ⟨trivial, fun a ha => hP a s t hst (h.2 a ha)⟩
  | call c next =>
      refine ⟨trivial, by simp, fun r u hexec => ?_⟩
      obtain ⟨v, htv, hcall⟩ := hexec
      exact h.2.2 r u ⟨v, hrely.trans hst htv, hcall⟩

theorem Secures.call {c : C} {next : R c → ExceptT ε (Program C R) α} {r : R c}
    (hrely : Interference exec rely) (h : Secures exec rely P (Program.call c next) s)
    (hcall : exec c s r t) : Secures exec rely P (next r) t :=
  h.2.2 r t ⟨s, hrely.refl s, hcall⟩

theorem secures_pure {a : α} (h : P a s) :
    Secures exec rely P (pure a : ExceptT ε (Program C R) α) s :=
  meets_pure trivial fun _ ha => Except.ok.inj ha ▸ h

theorem secures_throw {e : ε} : Secures exec rely P (throw e : ExceptT ε (Program C R) α) s :=
  meets_throw trivial fun _ ha => by cases ha

/-- Nothing is asked of the program. -/
theorem secures_true (p : ExceptT ε (Program C R) α) :
    Secures exec rely (fun _ _ => True) p s := by
  induction p generalizing s with
  | done r => exact ⟨trivial, fun _ _ => trivial⟩
  | call c next ih => exact ⟨trivial, by simp, fun r t _ => ih r⟩

/-- A result that was there already. -/
theorem secures_lift {r : Except ε α} (h : ∀ a, r = .ok a → P a s) :
    Secures exec rely P (liftM r : ExceptT ε (Program C R) α) s :=
  ⟨trivial, h⟩

theorem secures_perform {c : C} {P : R c → σ → Prop}
    (h : ∀ r t u, rely s t → exec c t r u → P r u) :
    Secures exec rely P (liftM (perform c : Program C R (R c)) : ExceptT ε (Program C R) (R c)) s :=
  meets_perform trivial (by simp) fun r u ⟨t, hothers, hcall⟩ =>
    ⟨trivial, fun _ ha => Except.ok.inj ha ▸ h r t u hothers hcall⟩

theorem secures_bind {p : ExceptT ε (Program C R) α} {f : α → ExceptT ε (Program C R) β}
    {Q : β → σ → Prop} (hrely : Interference exec rely) (hp : Secures exec rely P p s)
    (hf : ∀ a t, rely s t → P a t → Secures exec rely Q (f a) t) :
    Secures exec rely Q (p >>= f : ExceptT ε (Program C R) β) s := by
  refine Meets.bind (hp.relies hrely) fun r t h => ?_
  cases r with
  | error e => exact ⟨trivial, fun _ ha => by cases ha⟩
  | ok a => exact hf a t h.1 (h.2 a rfl)

end Interference

end Program

end Lib
