import Mathlib.Logic.Relation
import CalledIt.Lib.Program

/-!
# CalledIt.Lib.Threads

Programs that run side by side on one state.

Each thread is a program; a step is one call of one of them, and any thread may stop at
any call.  `Guarantees` is the obligation of one program on its own, against others
that keep the invariant and do no more than they may; where every program has met it,
the invariant holds in every state of every interleaving (`Runs.keeps`).
-/

namespace Lib

namespace Program

/-- The threads that are still running, and the state that they share. -/
structure Threads (C : Type) (R : C → Type) (α σ : Type) where
  shared : σ
  running : List (Program C R α)

section Steps

variable {C : Type} {R : C → Type} {α σ : Type} (exec : (c : C) → σ → R c → σ → Prop)
  (starts : Program C R α → Prop) (others : σ → σ → Prop)

/-- A thread starts, makes a call or stops, or something else changes the state. -/
inductive Step : Threads C R α σ → Threads C R α σ → Prop
  | start {p : Program C R α} (s : σ) (threads : List (Program C R α)) :
      starts p → Step ⟨s, threads⟩ ⟨s, p :: threads⟩
  | call {c : C} {next : R c → Program C R α} {s t : σ} {r : R c}
      (before after : List (Program C R α)) : exec c s r t →
        Step ⟨s, before ++ call c next :: after⟩ ⟨t, before ++ next r :: after⟩
  | stop (p : Program C R α) (s : σ) (before after : List (Program C R α)) :
      Step ⟨s, before ++ p :: after⟩ ⟨s, before ++ after⟩
  | elsewhere {s t : σ} (threads : List (Program C R α)) :
      others s t → Step ⟨s, threads⟩ ⟨t, threads⟩

/-- What a run of the threads leads to. -/
abbrev Runs : Threads C R α σ → Threads C R α σ → Prop :=
  Relation.ReflTransGen (Step exec starts others)

variable {exec starts others} {p : Program C R α} {s t : σ}

theorem Crashes.steps (h : Crashes exec (fun _ _ _ => False) p s t)
    (threads : List (Program C R α)) :
    Runs exec starts others ⟨s, p :: threads⟩ ⟨t, threads⟩ := by
  induction h with
  | before p s => exact .single (.stop p s [] threads)
  | torn htear => exact htear.elim
  | after hexec _ ih => exact .head (.call [] threads hexec) ih

/-- A thread that starts, and stops somewhere before another takes a turn. -/
theorem Crashes.runs (h : Crashes exec (fun _ _ _ => False) p s t) (hstarts : starts p)
    (threads : List (Program C R α)) : Runs exec starts others ⟨s, threads⟩ ⟨t, threads⟩ :=
  .head (.start s threads hstarts) (h.steps threads)

end Steps

/-! ## one thread among others -/

section Guarantees

variable {C : Type} {R : C → Type} {α β σ : Type} (exec : (c : C) → σ → R c → σ → Prop)
  (J : σ → Prop) (rely : σ → σ → Prop)

/-- Against others that keep `J` and do no more than `rely`, every call keeps `J` and
does no more either, and the program returns `Q`. -/
def Guarantees (Q : α → σ → Prop) : Program C R α → σ → Prop
  | done a, s => Q a s
  | call c next, s => ∀ t, rely s t → J t → ∀ r u, exec c t r u →
      J u ∧ rely t u ∧ Guarantees Q (next r) u

/-- What is found once stays found. -/
structure Relies : Prop where
  refl : ∀ s, rely s s
  trans : ∀ {s t u}, rely s t → rely t u → rely s u

variable {exec J rely} {Q : α → σ → Prop} {p : Program C R α} {s t : σ}

theorem Guarantees.later (hrely : Relies rely) (hQ : ∀ a {s t}, rely s t → Q a s → Q a t)
    (h : Guarantees exec J rely Q p s) (hst : rely s t) : Guarantees exec J rely Q p t := by
  cases p with
  | done a => exact hQ a hst h
  | call c next => exact fun u htu => h u (hrely.trans hst htu)

theorem Guarantees.bind {Q' : β → σ → Prop} {f : α → Program C R β} (hrely : Relies rely)
    (hJ : J s) (h : Guarantees exec J rely Q p s)
    (hf : ∀ a t, rely s t → J t → Q a t → Guarantees exec J rely Q' (f a) t) :
    Guarantees exec J rely Q' (p.bind f) s := by
  induction p generalizing s with
  | done a => exact hf a s (hrely.refl s) hJ h
  | call c next ih =>
      intro t hst ht r u hexec
      obtain ⟨hu, htu, hnext⟩ := h t hst ht r u hexec
      refine ⟨hu, htu, ih r hu hnext fun a v huv => ?_⟩
      exact hf a v (hrely.trans hst (hrely.trans htu huv))

/-- What was found before the program is still there after it. -/
theorem Guarantees.frame {F : σ → Prop} (hF : ∀ {s t}, rely s t → F s → F t)
    (h : Guarantees exec J rely Q p s) (hs : F s) :
    Guarantees exec J rely (fun a t => Q a t ∧ F t) p s := by
  induction p generalizing s with
  | done a => exact ⟨h, hs⟩
  | call c next ih =>
      intro t hst ht r u hexec
      obtain ⟨hu, htu, hnext⟩ := h t hst ht r u hexec
      exact ⟨hu, htu, ih r hnext (hF htu (hF hst hs))⟩

theorem Guarantees.mono {Q' : α → σ → Prop} (h : Guarantees exec J rely Q p s)
    (hQ : ∀ a t, Q a t → Q' a t) : Guarantees exec J rely Q' p s := by
  induction p generalizing s with
  | done a => exact hQ a s h
  | call c next ih =>
      intro t hst ht r u hexec
      obtain ⟨hu, htu, hnext⟩ := h t hst ht r u hexec
      exact ⟨hu, htu, ih r hnext⟩

/-- One call. -/
theorem guarantees_perform {c : C} {Q : R c → σ → Prop}
    (h : ∀ t, rely s t → J t → ∀ r u, exec c t r u → J u ∧ rely t u ∧ Q r u) :
    Guarantees exec J rely Q (perform c : Program C R (R c)) s :=
  h

/-- One call after the other, with what each leaves behind. -/
theorem guarantees_forM {γ : Type} {f : γ → Program C R PUnit} {I : γ → σ → Prop}
    (hrely : Relies rely) (hI : ∀ x {s t}, rely s t → I x s → I x t) {xs : List γ}
    (hf : ∀ x ∈ xs, ∀ t, Guarantees exec J rely (fun _ => I x) (f x) t) (hJ : J s) :
    Guarantees exec J rely (fun _ t => ∀ x ∈ xs, I x t) (xs.forM f) s := by
  induction xs generalizing s with
  | nil => exact fun x hx => absurd hx List.not_mem_nil
  | cons x xs ih =>
      refine Guarantees.bind hrely hJ (hf x List.mem_cons_self s) fun _ t _ ht hx => ?_
      have hrest := ih (fun y hy => hf y (List.mem_cons_of_mem _ hy)) ht
      refine (hrest.frame (F := I x) (hI x) hx).mono fun _ u hu => ?_
      exact List.forall_mem_cons.mpr ⟨hu.2, hu.1⟩

/-! ## programs that may fail -/

/-- What is returned, where something is. -/
def Gives (P : α → σ → Prop) (r : Option α) (t : σ) : Prop := ∀ a, r = some a → P a t

variable {P : α → σ → Prop}

theorem gives_pure {a : α} (h : P a s) :
    Guarantees exec J rely (Gives P) (pure a : OptionT (Program C R) α) s := fun _ ha =>
  Option.some.inj ha ▸ h

theorem gives_failure :
    Guarantees exec J rely (Gives P) (failure : OptionT (Program C R) α) s := fun _ ha => by
  cases ha

theorem gives_bind {P' : β → σ → Prop} {p : OptionT (Program C R) α}
    {f : α → OptionT (Program C R) β} (hrely : Relies rely) (hJ : J s)
    (h : Guarantees exec J rely (Gives P) p s)
    (hf : ∀ a t, rely s t → J t → P a t → Guarantees exec J rely (Gives P') (f a) t) :
    Guarantees exec J rely (Gives P') (p >>= f : OptionT (Program C R) β) s := by
  refine Guarantees.bind hrely hJ h fun r t hst ht hr => ?_
  cases r with
  | none => exact gives_failure
  | some a => exact hf a t hst ht (hr a rfl)

theorem gives_lift {p : Program C R α} (h : Guarantees exec J rely P p s) (hrely : Relies rely)
    (hJ : J s) :
    Guarantees exec J rely (Gives P) (liftM p : OptionT (Program C R) α) s :=
  Guarantees.bind hrely hJ h fun _ _ _ _ hP _ ha => Option.some.inj ha ▸ hP

end Guarantees

/-! ## all threads -/

section Runs

variable {C : Type} {R : C → Type} {α σ : Type} {exec : (c : C) → σ → R c → σ → Prop}
  {J : σ → Prop} {rely : σ → σ → Prop} {starts : Program C R α → Prop} {others : σ → σ → Prop}

/-- The invariant holds, and every thread meets its obligation from here. -/
structure Threads.Keeps (exec : (c : C) → σ → R c → σ → Prop) (J : σ → Prop)
    (rely : σ → σ → Prop) (threads : Threads C R α σ) : Prop where
  invariant : J threads.shared
  guarantees : ∀ p ∈ threads.running,
    Guarantees exec J rely (fun _ _ => True) p threads.shared

variable {threads next : Threads C R α σ}

theorem Step.keeps (hrely : Relies rely)
    (hstarts : ∀ p, starts p → ∀ s, J s → Guarantees exec J rely (fun _ _ => True) p s)
    (hothers : ∀ s t, others s t → J s → J t ∧ rely s t)
    (hstep : Step exec starts others threads next)
    (h : threads.Keeps exec J rely) : next.Keeps exec J rely := by
  obtain ⟨hJ, hall⟩ := h
  cases hstep with
  | start s running hp =>
      refine ⟨hJ, fun q hq => ?_⟩
      rcases List.mem_cons.mp hq with rfl | hq
      · exact hstarts _ hp s hJ
      · exact hall q hq
  | @call c after s t r before rest hexec =>
      obtain ⟨hnow, hst, hnext⟩ :=
        hall _ (List.mem_append_right _ List.mem_cons_self) s (hrely.refl s) hJ r t hexec
      refine ⟨hnow, fun q hq => ?_⟩
      rcases List.mem_append.mp hq with hq | hq
      · exact (hall q (List.mem_append_left _ hq)).later hrely (fun _ _ _ _ h => h) hst
      · rcases List.mem_cons.mp hq with rfl | hq
        · exact hnext
        · exact (hall q (List.mem_append_right _ (List.mem_cons_of_mem _ hq))).later hrely
            (fun _ _ _ _ h => h) hst
  | stop p s before after =>
      refine ⟨hJ, fun q hq => hall q ?_⟩
      rcases List.mem_append.mp hq with hq | hq
      · exact List.mem_append_left _ hq
      · exact List.mem_append_right _ (List.mem_cons_of_mem _ hq)
  | elsewhere running hst =>
      obtain ⟨hnow, hst⟩ := hothers _ _ hst hJ
      exact ⟨hnow, fun q hq => (hall q hq).later hrely (fun _ _ _ _ h => h) hst⟩

/-- Obligations that each program meets on its own hold of all of them together. -/
theorem Runs.keeps (hrely : Relies rely)
    (hstarts : ∀ p, starts p → ∀ s, J s → Guarantees exec J rely (fun _ _ => True) p s)
    (hothers : ∀ s t, others s t → J s → J t ∧ rely s t)
    (hrun : Runs exec starts others threads next) (h : threads.Keeps exec J rely) :
    next.Keeps exec J rely := by
  induction hrun with
  | refl => exact h
  | tail _ hstep ih => exact hstep.keeps hrely hstarts hothers ih

end Runs

end Program

end Lib
