import CalledIt.Lib.Program

/-!
# CalledIt.Lib.Trace

Programs among others, with a log of their calls.

A log has each call with the state that it found, so that what a run returns can be said
in terms of what the state was at one call and at another.  `Traces` says of a program what
every crash leaves and what it returns, in terms of the log.  The log changes nothing: a
crash without one is a crash with one (`Crashes.traced`).
-/

namespace Lib

namespace Program

section Traced

variable {C : Type} {R : C → Type} {α β σ ε : Type} (exec : (c : C) → σ → R c → σ → Prop)
  (rely : σ → σ → Prop)

/-- A call after something the others did, logged with what it found. -/
def Traced (c : C) (s : σ × List (C × σ)) (r : R c) (t : σ × List (C × σ)) : Prop :=
  ∃ u, rely s.1 u ∧ exec c u r t.1 ∧ t.2 = s.2 ++ [(c, u)]

/-- Whatever the others do, every crash leaves `K`, and the program returns `P` or throws. -/
def Traces (K : σ → Prop) (P : α → σ × List (C × σ) → Prop) (p : ExceptT ε (Program C R) α)
    (s : σ × List (C × σ)) : Prop :=
  Meets (Traced exec rely) (fun _ _ _ => False) (fun s => K s.1)
    (fun r t => K t.1 ∧ ∀ a, r = .ok a → P a t) p s

variable {exec rely} {K : σ → Prop}

theorem Crashes.traced {p : Program C R α} {s t : σ}
    (h : Crashes (Among exec rely) (fun _ _ _ => False) p s t) (log : List (C × σ)) :
    ∃ log', Crashes (Traced exec rely) (fun _ _ _ => False) p (s, log) (t, log') := by
  induction h generalizing log with
  | before p s => exact ⟨log, .before p (s, log)⟩
  | torn htear => exact htear.elim
  | @after c next s t u r hexec _ ih =>
      obtain ⟨v, hothers, hcall⟩ := hexec
      obtain ⟨log', hrest⟩ := ih (log ++ [(c, v)])
      exact ⟨log', .after ⟨v, hothers, hcall, rfl⟩ hrest⟩

/-- A run that ends may also stop there. -/
theorem Executes.crashes {tear : C → σ → σ → Prop} {p : Program C R α} {s t : σ} {a : α}
    (h : Executes exec p s a t) : Crashes exec tear p s t := by
  induction h with
  | done a s => exact .before _ s
  | call hexec _ ih => exact .after hexec ih

/-- A run may stop after any number of calls. -/
theorem crashes_after {tear : C → σ → σ → Prop} {f : (c : C) → σ → R c × σ}
    (hf : ∀ c s, exec c s (f c s).1 (f c s).2) (n : ℕ) (p : Program C R α) (s : σ) :
    Crashes exec tear p s (advance f n p s).2 := by
  induction n generalizing p s with
  | zero => exact .before p s
  | succ n ih =>
      cases p with
      | done a => exact .before _ s
      | call c next => exact .after (hf c s) (ih _ _)

section Later

variable {order : σ → σ → Prop}

/-- A run leads to something later. -/
theorem Crashes.later {p : Program C R α} {s t : σ} (horder : Interference exec order)
    (hrely : ∀ {s t}, rely s t → order s t)
    (h : Crashes (Among exec rely) (fun _ _ _ => False) p s t) : order s t := by
  induction h with
  | before p s => exact horder.refl s
  | torn htear => exact htear.elim
  | after hcall _ ih =>
      obtain ⟨v, hothers, hcall⟩ := hcall
      exact horder.trans (hrely hothers) (horder.trans (horder.call hcall) ih)

/-- Everything in the log of a run is later than its start. -/
theorem meets_logged (horder : Interference exec order) (hrely : ∀ {s t}, rely s t → order s t)
    (p : Program C R α) (s : σ × List (C × σ)) :
    Meets (Traced exec rely) (fun _ _ _ => False) (fun _ => True)
      (fun _ t => ∀ entry ∈ t.2, entry ∈ s.2 ∨ order s.1 entry.2) p s := by
  induction p generalizing s with
  | done a => exact ⟨trivial, fun entry hentry => .inl hentry⟩
  | call c next ih =>
      refine ⟨trivial, by simp, fun r t hcall => ?_⟩
      obtain ⟨v, hothers, hcall, hlog⟩ := hcall
      refine (ih r t).mono fun a u hu entry hentry => ?_
      rcases hu entry hentry with hold | hlater
      · rw [hlog] at hold
        refine (List.mem_append.mp hold).imp_right fun hnew => ?_
        obtain rfl := List.mem_singleton.mp hnew
        exact hrely hothers
      · exact .inr (horder.trans (hrely hothers) (horder.trans (horder.call hcall) hlater))

end Later

section Rules

variable {s : σ × List (C × σ)} {P : α → σ × List (C × σ) → Prop}

theorem Traces.crashes {p : ExceptT ε (Program C R) α} {s t : σ}
    (h : Traces exec rely K P p (s, []))
    (hrun : Crashes (Among exec rely) (fun _ _ _ => False) p s t) : K t := by
  obtain ⟨log, hrun⟩ := hrun.traced []
  unfold Traces at h
  have hK := Meets.crashes h hrun
  exact hK

theorem traces_pure {a : α} (hK : K s.1) (h : P a s) :
    Traces exec rely K P (pure a : ExceptT ε (Program C R) α) s :=
  ⟨hK, hK, fun _ ha => Except.ok.inj ha ▸ h⟩

theorem traces_throw {e : ε} (hK : K s.1) :
    Traces exec rely K P (throw e : ExceptT ε (Program C R) α) s :=
  ⟨hK, hK, fun _ ha => by cases ha⟩

/-- One call: from every state that it may find, to the state that it leaves. -/
theorem traces_perform {c : C} {P : R c → σ × List (C × σ) → Prop} (hK : K s.1)
    (h : ∀ u r t, rely s.1 u → exec c u r t → K t ∧ P r (t, s.2 ++ [(c, u)])) :
    Traces exec rely K P
      (liftM (perform c : Program C R (R c)) : ExceptT ε (Program C R) (R c)) s := by
  refine meets_perform hK (by simp) fun r (t, log) ⟨u, hothers, hcall, hlog⟩ => ?_
  obtain rfl : log = s.2 ++ [(c, u)] := hlog
  obtain ⟨hKt, hP⟩ := h u r t hothers hcall
  exact ⟨hKt, hKt, fun _ hr => Except.ok.inj hr ▸ hP⟩

theorem traces_bind {p : ExceptT ε (Program C R) α} {f : α → ExceptT ε (Program C R) β}
    {Q : β → σ × List (C × σ) → Prop} (hp : Traces exec rely K P p s)
    (hf : ∀ a t, K t.1 → P a t → Traces exec rely K Q (f a) t) :
    Traces exec rely K Q (p >>= f : ExceptT ε (Program C R) β) s := by
  refine Meets.bind hp fun r t h => ?_
  cases r with
  | error e => exact ⟨h.1, h.1, fun _ ha => by cases ha⟩
  | ok a => exact hf a t h.1 (h.2 a rfl)

end Rules

/-! ## every result -/

section Results

variable (exec rely)

/-- Whatever the others do, the program ends in `Q`, thrown or not. -/
def Ends (Q : Except ε α → σ × List (C × σ) → Prop) (p : ExceptT ε (Program C R) α)
    (s : σ × List (C × σ)) : Prop :=
  Meets (Traced exec rely) (fun _ _ _ => False) (fun _ => True) Q p s

variable {exec rely} {s : σ × List (C × σ)} {Q : Except ε α → σ × List (C × σ) → Prop}

theorem Ends.executes {p : ExceptT ε (Program C R) α} {t : σ × List (C × σ)} {r : Except ε α}
    (h : Ends exec rely Q p s) (hrun : Executes (Traced exec rely) p s r t) : Q r t :=
  Meets.executes h hrun

theorem Ends.and {Q' : Except ε α → σ × List (C × σ) → Prop} {p : ExceptT ε (Program C R) α}
    (h : Ends exec rely Q p s) (h' : Ends exec rely Q' p s) :
    Ends exec rely (fun r t => Q r t ∧ Q' r t) p s :=
  Meets.and h h'

theorem Ends.mono {Q' : Except ε α → σ × List (C × σ) → Prop} {p : ExceptT ε (Program C R) α}
    (h : Ends exec rely Q p s) (hQ : ∀ r t, Q r t → Q' r t) : Ends exec rely Q' p s :=
  Meets.mono h hQ

theorem ends_pure {a : α} (h : Q (.ok a) s) :
    Ends exec rely Q (pure a : ExceptT ε (Program C R) α) s :=
  ⟨trivial, h⟩

theorem returns_pure {P : α → σ × List (C × σ) → Prop} {a : α} (h : P a s) :
    Ends exec rely (Returns P) (pure a : ExceptT ε (Program C R) α) s :=
  ends_pure ⟨a, rfl, h⟩

theorem ends_throw {e : ε} (h : Q (.error e) s) :
    Ends exec rely Q (throw e : ExceptT ε (Program C R) α) s :=
  ⟨trivial, h⟩

theorem ends_perform {c : C} {P : R c → σ × List (C × σ) → Prop}
    (h : ∀ u r t, rely s.1 u → exec c u r t → P r (t, s.2 ++ [(c, u)])) :
    Ends exec rely (Returns P)
      (liftM (perform c : Program C R (R c)) : ExceptT ε (Program C R) (R c)) s := by
  refine meets_perform trivial (by simp) fun r (t, log) ⟨u, hothers, hcall, hlog⟩ => ?_
  obtain rfl : log = s.2 ++ [(c, u)] := hlog
  exact ⟨trivial, r, rfl, h u r t hothers hcall⟩

theorem ends_bind {p : ExceptT ε (Program C R) α} {f : α → ExceptT ε (Program C R) β}
    {Q : Except ε β → σ × List (C × σ) → Prop} {P : α → σ × List (C × σ) → Prop}
    (hp : Ends exec rely (fun r t => Returns P r t ∨ ∃ e, r = .error e ∧ Q (.error e) t) p s)
    (hf : ∀ a t, P a t → Ends exec rely Q (f a) t) :
    Ends exec rely Q (p >>= f : ExceptT ε (Program C R) β) s :=
  meets_bind (hp.mono fun _ _ h => h.imp_right fun ⟨e, he, hQ⟩ => ⟨e, he, trivial, hQ⟩) hf

/-- The rule for a first part that throws nothing. -/
theorem ends_bind_ok {p : ExceptT ε (Program C R) α} {f : α → ExceptT ε (Program C R) β}
    {Q : Except ε β → σ × List (C × σ) → Prop} {P : α → σ × List (C × σ) → Prop}
    (hp : Ends exec rely (Returns P) p s) (hf : ∀ a t, P a t → Ends exec rely Q (f a) t) :
    Ends exec rely Q (p >>= f : ExceptT ε (Program C R) β) s :=
  ends_bind (hp.mono fun _ _ h => .inl h) hf

/-- A call throws nothing. -/
theorem Traces.performs {c : C} {P : R c → σ × List (C × σ) → Prop}
    (h : Traces exec rely K P
      (liftM (perform c : Program C R (R c)) : ExceptT ε (Program C R) (R c)) s) {u t : σ} {r : R c}
    (hothers : rely s.1 u) (hcall : exec c u r t) : P r (t, s.2 ++ [(c, u)]) :=
  (h.2.2 r (t, s.2 ++ [(c, u)]) ⟨u, hothers, hcall, rfl⟩).2.2 r rfl

/-- What every crash leaves is left where fewer calls are answered, and the log grows. -/
theorem Traces.ends {exec' : (c : C) → σ → R c → σ → Prop} {P : α → σ × List (C × σ) → Prop}
    {p : ExceptT ε (Program C R) α} (h : Traces exec rely K P p s)
    (hexec : ∀ {c s r t}, exec' c s r t → exec c s r t) :
    Ends exec' rely (fun r t => K t.1 ∧ s.2 <+: t.2 ∧ ∀ a, r = .ok a → P a t) p s := by
  unfold Traces at h
  unfold Ends
  induction p generalizing s with
  | done r => exact ⟨trivial, h.2.1, List.prefix_rfl, h.2.2⟩
  | call c next ih =>
      refine ⟨trivial, by simp, fun r t ⟨u, hothers, hcall, hlog⟩ => ?_⟩
      refine (ih r (h.2.2 r t ⟨u, hothers, hexec hcall, hlog⟩)).mono fun a v hv => ?_
      exact ⟨hv.1, (hlog ▸ List.prefix_append _ _ : s.2 <+: t.2).trans hv.2.1, hv.2.2⟩

end Results

end Traced

end Program

end Lib
