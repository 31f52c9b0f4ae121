import Seenet.Lib.Machine

/-!
# What goes into a machine comes out of it

A machine with a queue somewhere in its state: a step may put items in at the back, and take items out at the
front.  Which items, depends on the state and the action.

* `collect` — what the steps of a run put in, or take out.
* **`run_fifo_of_steps`** — what was there and what went in is what came out and what is there, in this order.
* `run_count` — a counter that is raised by one in every step of a kind.
-/

namespace Machine

variable {σ α β ε : Type*} {step : σ → α → Except ε σ}

/-- What the steps put in, or take out, one after the other. -/
def collect (f : σ → α → List β) (ps : List (σ × α)) : List β := ps.flatMap fun p => f p.1 p.2

@[simp] lemma collect_nil (f : σ → α → List β) : collect f [] = [] := rfl

@[simp] lemma collect_none (ps : List (σ × α)) : collect (fun _ _ => ([] : List β)) ps = [] := by
  induction ps with
  | nil => rfl
  | cons p ps ih => exact ih

@[simp] lemma collect_cons (f : σ → α → List β) (s : σ) (a : α) (ps : List (σ × α)) :
    collect f ((s, a) :: ps) = f s a ++ collect f ps := rfl

/-- **First in, first out.**  If no step that meets `C` loses, invents or swaps items, no run of such steps does. -/
theorem run_fifo_of_steps {I : σ → Prop} {C : σ → α → Prop} (held : σ → List β) (into out : σ → α → List β)
    (hstep : ∀ s a s', I s → C s a → step s a = .ok s' → I s' ∧ held s ++ into s a = out s a ++ held s')
    {s t : σ} {as : List α} (h0 : I s) (hC : ∀ p ∈ steps step s as, C p.1 p.2) (h : run step s as = .ok t) :
    held s ++ collect into (steps step s as) = collect out (steps step s as) ++ held t := by
  induction as generalizing s with
  | nil =>
      rw [run_nil, Except.ok.injEq] at h
      rw [← h]
      simp [steps]
  | cons a as ih =>
      cases hs : step s a with
      | error e => simp [run, hs] at h
      | ok s' =>
          rw [run_cons_ok hs] at h
          rw [steps_cons_ok hs, List.forall_mem_cons] at hC
          obtain ⟨hI, heq⟩ := hstep s a s' h0 hC.1 hs
          rw [steps_cons_ok hs, collect_cons, collect_cons, ← List.append_assoc, heq, List.append_assoc,
            ih hI hC.2 h, List.append_assoc]

/-- The same without a condition on the steps. -/
theorem run_fifo {I : σ → Prop} (held : σ → List β) (into out : σ → α → List β)
    (hstep : ∀ s a s', I s → step s a = .ok s' → I s' ∧ held s ++ into s a = out s a ++ held s')
    {s t : σ} {as : List α} (h0 : I s) (h : run step s as = .ok t) :
    held s ++ collect into (steps step s as) = collect out (steps step s as) ++ held t :=
  run_fifo_of_steps (C := fun _ _ => True) held into out (fun s a s' hI _ hs => hstep s a s' hI hs) h0
    (fun _ _ => trivial) h

/-- A counter that says how often something has happened. -/
theorem run_count {I : σ → Prop} (count : σ → ℕ) (D : σ → α → Bool)
    (hstep : ∀ s a s', I s → step s a = .ok s' → I s' ∧ count s' = count s + if D s a then 1 else 0)
    {s t : σ} {as : List α} (h0 : I s) (h : run step s as = .ok t) :
    count t = count s + (steps step s as).countP fun p => D p.1 p.2 := by
  induction as generalizing s with
  | nil =>
      rw [run_nil, Except.ok.injEq] at h
      rw [← h]
      simp [steps]
  | cons a as ih =>
      cases hs : step s a with
      | error e => simp [run, hs] at h
      | ok s' =>
          rw [run_cons_ok hs] at h
          obtain ⟨hI, heq⟩ := hstep s a s' h0 hs
          rw [steps_cons_ok hs, List.countP_cons, ih hI h, heq]
          dsimp only
          omega

end Machine
