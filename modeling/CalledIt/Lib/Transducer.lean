import Mathlib.Tactic.Common

/-!
# CalledIt.Lib.Transducer

Deterministic machines that answer each input with a new state and outputs.

`execute` feeds a list of inputs and collects the outputs in order.  `Along P`
says that every input, where it is fed, meets the condition `P`.  A few rules lift
a fact about one step to whole executions:

* `execute_flatten` — inputs that come in frames;
* `along_iff` — the condition as one of every point of the execution;
* `execute_safe` — an invariant, and what it allows to be put out;
* `execute_trace`, `execute_trace_along` — a relation between the state and everything
  put out so far;
* `execute_history_along` — the same with everything fed in;
* `execute_simulation` — two executions that stay related and put out the same, the
  second without some of the inputs;
* `execute_of_constant` — a state that no input changes.
-/

namespace Lib

section

variable {σ α ε β : Type} (step : σ → α → σ × List ε)

def execute : σ → List α → σ × List ε
  | s, [] => (s, [])
  | s, a :: as => ((execute (step s a).1 as).1, (step s a).2 ++ (execute (step s a).1 as).2)

/-- Every input meets the condition in the state it is fed to. -/
def Along (P : σ → α → Prop) : σ → List α → Prop
  | _, [] => True
  | s, a :: as => P s a ∧ Along P (step s a).1 as

variable {step}

@[simp] theorem execute_nil (s : σ) : execute step s [] = (s, []) := rfl

@[simp] theorem execute_cons (s : σ) (a : α) (as : List α) :
    execute step s (a :: as) =
      ((execute step (step s a).1 as).1, (step s a).2 ++ (execute step (step s a).1 as).2) := rfl

theorem execute_append (s : σ) (as bs : List α) :
    execute step s (as ++ bs) =
      ((execute step (execute step s as).1 bs).1,
        (execute step s as).2 ++ (execute step (execute step s as).1 bs).2) := by
  induction as generalizing s with
  | nil => simp
  | cons a as ih => simp [ih, List.append_assoc]

theorem execute_concat (s : σ) (as : List α) (a : α) :
    execute step s (as ++ [a]) = ((step (execute step s as).1 a).1,
      (execute step s as).2 ++ (step (execute step s as).1 a).2) := by
  simp [execute_append]

/-- Inputs that come in frames are the inputs of the frames. -/
theorem execute_flatten (s : σ) (frames : List (List α)) :
    execute (execute step) s frames = execute step s frames.flatten := by
  induction frames generalizing s with
  | nil => rfl
  | cons frame frames ih => rw [execute_cons, ih, List.flatten_cons, execute_append]

/-- Two machines that answer every one of the inputs alike. -/
theorem execute_congr {step' : σ → α → σ × List ε} {as : List α}
    (h : ∀ a ∈ as, ∀ s, step s a = step' s a) (s : σ) : execute step s as = execute step' s as := by
  induction as generalizing s with
  | nil => rfl
  | cons a as ih =>
      rw [execute_cons, execute_cons, h a List.mem_cons_self,
        ih fun b hb => h b (List.mem_cons_of_mem a hb)]

/-- Every output was put out by one of the inputs. -/
theorem mem_execute {s : σ} {as : List α} {o : ε} (h : o ∈ (execute step s as).2) :
    ∃ pre a post, as = pre ++ a :: post ∧ o ∈ (step (execute step s pre).1 a).2 := by
  induction as generalizing s with
  | nil => simp at h
  | cons a as ih =>
      obtain h | h := List.mem_append.mp h
      · exact ⟨[], a, as, rfl, h⟩
      · obtain ⟨pre, b, post, rfl, hmem⟩ := ih h
        exact ⟨a :: pre, b, post, rfl, hmem⟩

/-- The same, with everything put out before it. -/
theorem execute_split {s : σ} {as : List α} {os os' : List ε} {o : ε}
    (h : (execute step s as).2 = os ++ o :: os') :
    ∃ pre a post us us', as = pre ++ a :: post ∧
      (step (execute step s pre).1 a).2 = us ++ o :: us' ∧ os = (execute step s pre).2 ++ us := by
  induction as generalizing s os with
  | nil => simp at h
  | cons a as ih =>
      obtain ⟨us, hbefore, hrest⟩ | ⟨us, hhere, hrest⟩ := List.append_eq_append_iff.mp h
      · obtain ⟨pre, b, post, vs, vs', rfl, hstep, hus⟩ := ih hrest
        exact ⟨a :: pre, b, post, vs, vs', rfl, hstep, by
          rw [hbefore, hus, execute_cons, List.append_assoc]⟩
      · cases us with
        | nil =>
            have hlater : (execute step (step s a).1 as).2 = [] ++ o :: os' := hrest.symm
            obtain ⟨pre, b, post, vs, vs', rfl, hstep, hvs⟩ := ih hlater
            refine ⟨a :: pre, b, post, vs, vs', rfl, hstep, ?_⟩
            rw [execute_cons, List.append_assoc, ← hvs, List.append_nil, hhere, List.append_nil]
        | cons o' us =>
            obtain ⟨rfl, -⟩ := List.cons.inj hrest
            exact ⟨[], a, as, os, us, rfl, hhere, rfl⟩

theorem along_iff {P : σ → α → Prop} {s : σ} {as : List α} :
    Along step P s as ↔ ∀ pre a post, as = pre ++ a :: post → P (execute step s pre).1 a := by
  induction as generalizing s with
  | nil => simp [Along]
  | cons b as ih =>
      rw [Along, ih]
      constructor
      · rintro ⟨hb, has⟩ pre a post heq
        cases pre with
        | nil =>
            obtain ⟨rfl, -⟩ := List.cons.inj heq
            exact hb
        | cons c pre =>
            obtain ⟨rfl, hrest⟩ := List.cons.inj heq
            exact has pre a post hrest
      · intro h
        exact ⟨h [] b as rfl, fun pre a post heq =>
          h (b :: pre) a post (by rw [heq, List.cons_append])⟩

instance Along.decidable {P : σ → α → Prop} [∀ s a, Decidable (P s a)] :
    ∀ s as, Decidable (Along step P s as)
  | _, [] => isTrue trivial
  | s, a :: as =>
      have := Along.decidable (P := P) (step s a).1 as
      inferInstanceAs (Decidable (P s a ∧ Along step P (step s a).1 as))

theorem along_append {P : σ → α → Prop} {s : σ} {as bs : List α}
    (h : Along step P s (as ++ bs)) : Along step P s as := by
  induction as generalizing s with
  | nil => trivial
  | cons a as ih => exact ⟨h.1, ih h.2⟩

/-- An invariant kept by the steps that meet the condition, and the outputs it
allows. -/
theorem execute_safe {I : σ → Prop} {P : σ → α → Prop} {Q : ε → Prop} {s : σ} {as : List α}
    (hstep : ∀ s a, I s → P s a → I (step s a).1 ∧ ∀ o ∈ (step s a).2, Q o)
    (hs : I s) (hP : Along step P s as) :
    I (execute step s as).1 ∧ ∀ o ∈ (execute step s as).2, Q o := by
  induction as generalizing s with
  | nil => simp [hs]
  | cons a as ih =>
      obtain ⟨ha, has⟩ := hP
      obtain ⟨hI, hQ⟩ := hstep s a hs ha
      obtain ⟨hfinal, hrest⟩ := ih hI has
      refine ⟨hfinal, fun o ho => ?_⟩
      obtain ho | ho := List.mem_append.mp ho
      · exact hQ o ho
      · exact hrest o ho

/-- A property kept by every step holds at the end of every execution. -/
theorem execute_invariant {I : σ → Prop} (hstep : ∀ s a, I s → I (step s a).1) {s : σ} (hs : I s)
    (as : List α) : I (execute step s as).1 := by
  induction as generalizing s with
  | nil => exact hs
  | cons a as ih => exact ih (hstep s a hs)

/-- A relation between the state and the outputs so far. -/
theorem execute_trace {I : σ → List ε → Prop}
    (hstep : ∀ s os a, I s os → I (step s a).1 (os ++ (step s a).2)) {s : σ} {os : List ε}
    (hs : I s os) (as : List α) : I (execute step s as).1 (os ++ (execute step s as).2) := by
  induction as generalizing s os with
  | nil => simpa using hs
  | cons a as ih => simpa [List.append_assoc] using ih (hstep s os a hs)

/-- The same where every input meets a condition. -/
theorem execute_trace_along {I : σ → List ε → Prop} {P : σ → α → Prop}
    (hstep : ∀ s os a, I s os → P s a → I (step s a).1 (os ++ (step s a).2)) {s : σ} {os : List ε}
    {as : List α} (hs : I s os) (hP : Along step P s as) :
    I (execute step s as).1 (os ++ (execute step s as).2) := by
  induction as generalizing s os with
  | nil => simpa using hs
  | cons a as ih => simpa [List.append_assoc] using ih (hstep s os a hs hP.1) hP.2

/-- A relation between the state, everything fed in and everything put out so far. -/
theorem execute_history_along {I : σ → List α → List ε → Prop} {P : σ → α → Prop}
    (hstep : ∀ s as os a, I s as os → P s a → I (step s a).1 (as ++ [a]) (os ++ (step s a).2))
    {s : σ} {as bs : List α} {os : List ε} (hs : I s as os) (hP : Along step P s bs) :
    I (execute step s bs).1 (as ++ bs) (os ++ (execute step s bs).2) := by
  induction bs generalizing s as os with
  | nil => simpa using hs
  | cons b bs ih => simpa [List.append_assoc] using ih (hstep s as os b hs hP.1) hP.2

/-- Two executions stay related, and put out the same where it is observed, when
the second does without the dropped inputs. -/
theorem execute_simulation {R : σ → σ → Prop} {P : σ → α → Prop} {drop : α → Bool}
    {f : ε → Option β} {s t : σ} {as : List α}
    (hkeep : ∀ s t a, R s t → P s a → drop a = false → R (step s a).1 (step t a).1 ∧
      (step s a).2.filterMap f = (step t a).2.filterMap f)
    (hdrop : ∀ s t a, R s t → P s a → drop a = true → R (step s a).1 t ∧
      (step s a).2.filterMap f = [])
    (hR : R s t) (hP : Along step P s as) :
    R (execute step s as).1 (execute step t (as.filter fun a => !drop a)).1 ∧
      (execute step s as).2.filterMap f =
        (execute step t (as.filter fun a => !drop a)).2.filterMap f := by
  induction as generalizing s t with
  | nil => simp [hR]
  | cons a as ih =>
      obtain ⟨ha, has⟩ := hP
      cases hd : drop a with
      | false =>
          obtain ⟨hnext, hout⟩ := hkeep s t a hR ha hd
          simpa [hd, hout] using ih hnext has
      | true =>
          obtain ⟨hnext, hout⟩ := hdrop s t a hR ha hd
          simpa [hd, hout] using ih hnext has

/-- Where no input changes the state, nothing is put out either. -/
theorem execute_of_constant {s : σ} (h : ∀ a, step s a = (s, [])) (as : List α) :
    execute step s as = (s, []) := by
  induction as with
  | nil => rfl
  | cons a as ih => simp [h a, ih]

end

end Lib
