import Mathlib.Data.List.Basic
import Mathlib.Tactic.Common

/-!
# Runs of a machine that may stop

A machine is a partial step function `σ → α → Except ε σ`: from a state and an action it gives the
next state, or the reason why there is none.  Everything here is about finite runs, written as the
list of actions they perform.

* `run` — the state after a list of actions, or the first error met on the way.
* `states`, `steps` — what a run visits, and what it performs.  A run whose `k`-th action is an
  error still visits the states before it, so a property of `states` is a property of every
  state reached, whether or not the run goes on.  `attempts` has that action as well.
* **`states_invariant`** — the induction every safety proof uses: an invariant that each step keeps
  holds in every state visited.  `states_invariant_of_steps` is the same with a condition on the
  steps performed; `states_of_run` is the rule backwards, from the end of a run.
* **`forall_states_iff`** — the two-sided form: when a step that breaks the condition makes the
  property fail at once, the property holds throughout a run *exactly* when every step performed
  meets the condition.  `pairwise_states` and `pairwise_states_iff` are the same for what a state has to do with
  all later ones.
* `countP_steps_le_one` — what happens at most once: it leads to where it cannot happen again.
* `run_countdown` — a bound on how long something takes, counted in actions of one kind.
* `run_error_source` — an error comes out of a state the run visits; `run_eq_error_iff` says which step it is.
* `ReachesBy` — some run leads from one state to another, by actions of a kind.
* `simulation` — a machine whose steps are matched by runs of another one.
-/

namespace Machine

variable {σ α ε : Type*}

/-! ## Runs -/

/-- The state after performing the actions in order, or the first error met. -/
def run (step : σ → α → Except ε σ) : σ → List α → Except ε σ
  | s, [] => .ok s
  | s, a :: as =>
      match step s a with
      | .ok s' => run step s' as
      | .error e => .error e

/-- Every state a run is in, its first one included, up to the first error. -/
def states (step : σ → α → Except ε σ) : σ → List α → List σ
  | s, [] => [s]
  | s, a :: as =>
      s :: match step s a with
        | .ok s' => states step s' as
        | .error _ => []

/-- The steps a run performs, each with the state it starts from, up to the first error. -/
def steps (step : σ → α → Except ε σ) : σ → List α → List (σ × α)
  | _, [] => []
  | s, a :: as =>
      match step s a with
      | .ok s' => (s, a) :: steps step s' as
      | .error _ => []

/-- The steps a run performs, with the one that fails if there is one. -/
def attempts (step : σ → α → Except ε σ) : σ → List α → List (σ × α)
  | _, [] => []
  | s, a :: as =>
      (s, a) :: match step s a with
        | .ok s' => attempts step s' as
        | .error _ => []

variable {step : σ → α → Except ε σ}

@[simp] lemma run_nil (s : σ) : run step s [] = .ok s := rfl

lemma run_cons_ok {s s' : σ} {a : α} (h : step s a = .ok s') (as : List α) :
    run step s (a :: as) = run step s' as := by
  simp only [run, h]

lemma states_cons_ok {s s' : σ} {a : α} (h : step s a = .ok s') (as : List α) :
    states step s (a :: as) = s :: states step s' as := by
  simp only [states, h]

lemma steps_cons_ok {s s' : σ} {a : α} (h : step s a = .ok s') (as : List α) :
    steps step s (a :: as) = (s, a) :: steps step s' as := by
  simp only [steps, h]

lemma states_cons_error {s : σ} {a : α} {e : ε} (h : step s a = .error e) (as : List α) :
    states step s (a :: as) = [s] := by
  simp only [states, h]

lemma steps_cons_error {s : σ} {a : α} {e : ε} (h : step s a = .error e) (as : List α) :
    steps step s (a :: as) = [] := by
  simp only [steps, h]

/-- The first state is visited. -/
lemma self_mem_states (s : σ) (as : List α) : s ∈ states step s as := by
  cases as with
  | nil => simp [states]
  | cons a as => simp [states]

/-- The last state of a run that succeeds is visited. -/
lemma mem_states_of_run {s t : σ} {as : List α} (h : run step s as = .ok t) :
    t ∈ states step s as := by
  induction as generalizing s with
  | nil =>
      rw [run_nil, Except.ok.injEq] at h
      subst h
      exact self_mem_states s []
  | cons a as ih =>
      cases hs : step s a with
      | ok s' =>
          rw [run_cons_ok hs] at h
          rw [states_cons_ok hs]
          exact List.mem_cons_of_mem _ (ih h)
      | error e => simp [run, hs] at h

/-- Running two lists of actions one after the other. -/
lemma run_append {s t : σ} {as : List α} (h : run step s as = .ok t) (bs : List α) :
    run step s (as ++ bs) = run step t bs := by
  induction as generalizing s with
  | nil =>
      rw [run_nil, Except.ok.injEq] at h
      rw [List.nil_append, h]
  | cons a as ih =>
      cases hs : step s a with
      | ok s' =>
          rw [run_cons_ok hs] at h
          rw [List.cons_append, run_cons_ok hs, ih h]
      | error e => simp [run, hs] at h

/-- The steps of two lists of actions performed one after the other. -/
lemma steps_append {s t : σ} {as : List α} (h : run step s as = .ok t) (bs : List α) :
    steps step s (as ++ bs) = steps step s as ++ steps step t bs := by
  induction as generalizing s with
  | nil =>
      rw [run_nil, Except.ok.injEq] at h
      rw [List.nil_append, h]
      rfl
  | cons a as ih =>
      cases hs : step s a with
      | ok s' =>
          rw [run_cons_ok hs] at h
          rw [List.cons_append, steps_cons_ok hs, steps_cons_ok hs, ih h, List.cons_append]
      | error e => simp [run, hs] at h

/-! ## Observed runs

Where the states themselves cannot be compared, a run on given actions is evaluated through an
observation of its last state. -/

/-- A run whose last state is observed to be `v`. -/
lemma ok_of_map {β : Type*} {r : Except ε σ} {g : σ → β} {v : β} (h : r.map g = .ok v) :
    ∃ t, r = .ok t ∧ g t = v := by
  cases r with
  | ok t => exact ⟨t, rfl, Except.ok.inj h⟩
  | error e => simp [Except.map] at h

/-- A run that is observed to end with an error. -/
lemma error_of_map {β : Type*} {r : Except ε σ} {g : σ → β} {e : ε} (h : r.map g = .error e) :
    r = .error e := by
  cases r with
  | ok t => simp [Except.map] at h
  | error e' => rw [Except.error.inj h]

/-! ## Invariants -/

/-- **The invariant rule, under a condition on the steps.**  If every step the run performs meets
`C`, and steps that meet `C` keep `I`, then `I` holds in every state visited. -/
theorem states_invariant_of_steps {I : σ → Prop} {C : σ → α → Prop}
    (hstep : ∀ s a s', I s → C s a → step s a = .ok s' → I s')
    {s : σ} {as : List α} (h0 : I s) (hC : ∀ p ∈ steps step s as, C p.1 p.2) :
    ∀ t ∈ states step s as, I t := by
  induction as generalizing s with
  | nil =>
      intro t ht
      rw [states, List.mem_singleton] at ht
      rw [ht]
      exact h0
  | cons a as ih =>
      intro t ht
      cases hs : step s a with
      | error e =>
          rw [states_cons_error hs, List.mem_singleton] at ht
          rw [ht]
          exact h0
      | ok s' =>
          rw [states_cons_ok hs, List.mem_cons] at ht
          rw [steps_cons_ok hs] at hC
          rcases ht with rfl | ht
          · exact h0
          · refine ih (hstep s a s' h0 (hC (s, a) List.mem_cons_self) hs) ?_ t ht
            exact fun p hp => hC p (List.mem_cons_of_mem _ hp)

/-- **The invariant rule.**  What every step keeps holds in every state visited. -/
theorem states_invariant {I : σ → Prop} (hstep : ∀ s a s', I s → step s a = .ok s' → I s')
    {s : σ} {as : List α} (h0 : I s) : ∀ t ∈ states step s as, I t :=
  states_invariant_of_steps (C := fun _ _ => True) (fun s a s' hI _ h => hstep s a s' hI h) h0
    (fun _ _ => trivial)

/-- What every step keeps holds in the last state of a run. -/
lemma run_invariant {I : σ → Prop} (hstep : ∀ s a s', I s → step s a = .ok s' → I s')
    {s t : σ} {as : List α} (h0 : I s) (h : run step s as = .ok t) : I t :=
  states_invariant hstep h0 t (mem_states_of_run h)

/-- **The rule backwards.**  What no step brings about holds in every state of a run that ends with it. -/
theorem states_of_run {I P : σ → Prop} (hstep : ∀ s a s', I s → step s a = .ok s' → I s')
    (hback : ∀ s a s', I s → step s a = .ok s' → P s' → P s) {s t : σ} {as : List α} (h0 : I s)
    (h : run step s as = .ok t) (hP : P t) : ∀ u ∈ states step s as, P u := by
  induction as generalizing s with
  | nil =>
      rw [run_nil, Except.ok.injEq] at h
      intro u hu
      rw [states, List.mem_singleton] at hu
      rwa [hu, h]
  | cons a as ih =>
      cases hs : step s a with
      | error e => simp [run, hs] at h
      | ok s' =>
          rw [run_cons_ok hs] at h
          have hrest := ih (hstep s a s' h0 hs) h
          rw [states_cons_ok hs]
          exact List.forall_mem_cons.mpr
            ⟨hback s a s' h0 hs (hrest s' (self_mem_states s' as)), hrest⟩

/-- What a run performs is among the actions it was given. -/
lemma action_of_mem_steps {s : σ} {as : List α} {p : σ × α} (hp : p ∈ steps step s as) :
    p.2 ∈ as := by
  induction as generalizing s with
  | nil => simp [steps] at hp
  | cons a as ih =>
      cases hs : step s a with
      | error e => simp [steps_cons_error hs] at hp
      | ok s' =>
          rw [steps_cons_ok hs, List.mem_cons] at hp
          rcases hp with rfl | hp
          · exact List.mem_cons_self
          · exact List.mem_cons_of_mem _ (ih hp)

/-- A step is performed in a state the run visits. -/
lemma state_of_mem_steps {s : σ} {as : List α} {p : σ × α} (hp : p ∈ steps step s as) :
    p.1 ∈ states step s as := by
  induction as generalizing s with
  | nil => simp [steps] at hp
  | cons a as ih =>
      cases hs : step s a with
      | error e => simp [steps_cons_error hs] at hp
      | ok s' =>
          rw [steps_cons_ok hs, List.mem_cons] at hp
          rw [states_cons_ok hs]
          rcases hp with rfl | hp
          · exact List.mem_cons_self
          · exact List.mem_cons_of_mem _ (ih hp)

/-- A step that is performed leads somewhere. -/
lemma ok_of_mem_steps {s : σ} {as : List α} {p : σ × α} (hp : p ∈ steps step s as) :
    ∃ s', step p.1 p.2 = .ok s' := by
  induction as generalizing s with
  | nil => simp [steps] at hp
  | cons a as ih =>
      cases hs : step s a with
      | error e => simp [steps_cons_error hs] at hp
      | ok s' =>
          rw [steps_cons_ok hs, List.mem_cons] at hp
          rcases hp with rfl | hp
          · exact ⟨s', hs⟩
          · exact ih hp

/-- **The two-sided rule.**  Let steps that meet `C` keep `I`, and let a step from an `I`-state that
does not meet `C` lead to a state where `P` fails.  If `I` implies `P`, then `P` holds in every
state visited exactly when every step performed meets `C`. -/
theorem forall_states_iff {I P : σ → Prop} {C : σ → α → Prop}
    (hP : ∀ s, I s → P s)
    (hgood : ∀ s a s', I s → C s a → step s a = .ok s' → I s')
    (hbad : ∀ s a s', I s → ¬ C s a → step s a = .ok s' → ¬ P s')
    {s : σ} (h0 : I s) (as : List α) :
    (∀ t ∈ states step s as, P t) ↔ ∀ p ∈ steps step s as, C p.1 p.2 := by
  constructor
  · intro h
    induction as generalizing s with
    | nil => simp [steps]
    | cons a as ih =>
        cases hs : step s a with
        | error e => simp [steps_cons_error hs]
        | ok s' =>
            rw [states_cons_ok hs] at h
            have htail : ∀ t ∈ states step s' as, P t :=
              fun t ht => h t (List.mem_cons_of_mem _ ht)
            have hC : C s a := by
              by_contra hne
              exact hbad s a s' h0 hne hs (htail s' (self_mem_states s' as))
            intro p hp
            rw [steps_cons_ok hs, List.mem_cons] at hp
            rcases hp with rfl | hp
            · exact hC
            · exact ih (hgood s a s' h0 hC hs) htail p hp
  · intro h t ht
    exact hP t (states_invariant_of_steps hgood h0 h t ht)

/-- **The two-sided rule, for what a state has to do with all later ones.**  Let steps that meet `C` keep `I`
and be related by `R`, and other steps from an `I`-state not be.  Then every state visited is related to
every later one exactly when every step performed meets `C`. -/
theorem pairwise_states_iff {I : σ → Prop} {R : σ → σ → Prop} {C : σ → α → Prop}
    (hrefl : ∀ s, R s s) (htrans : ∀ s t u, R s t → R t u → R s u)
    (hgood : ∀ s a s', I s → C s a → step s a = .ok s' → I s' ∧ R s s')
    (hbad : ∀ s a s', I s → ¬ C s a → step s a = .ok s' → ¬ R s s')
    {s : σ} (h0 : I s) (as : List α) :
    (states step s as).Pairwise R ↔ ∀ p ∈ steps step s as, C p.1 p.2 := by
  induction as generalizing s with
  | nil => simp [states, steps]
  | cons a as ih =>
      cases hs : step s a with
      | error e => simp [states_cons_error hs, steps_cons_error hs]
      | ok s' =>
          rw [states_cons_ok hs, steps_cons_ok hs, List.pairwise_cons, List.forall_mem_cons]
          constructor
          · rintro ⟨hhead, htail⟩
            have hC : C s a := by
              by_contra hne
              exact hbad s a s' h0 hne hs (hhead s' (self_mem_states s' as))
            exact ⟨hC, (ih (hgood s a s' h0 hC hs).1).mp htail⟩
          · rintro ⟨hC, hrest⟩
            obtain ⟨hI, hR⟩ := hgood s a s' h0 hC hs
            refine ⟨fun t ht => htrans s s' t hR ?_, (ih hI).mpr hrest⟩
            refine (states_invariant_of_steps (I := fun t => I t ∧ R s' t) ?_ ⟨hI, hrefl s'⟩ hrest t
              ht).2
            rintro u b u' ⟨hu, hR'⟩ hCu hstep
            obtain ⟨hu', hR''⟩ := hgood u b u' hu hCu hstep
            exact ⟨hu', htrans s' u u' hR' hR''⟩

/-- **Every state and all later ones.**  Let steps that meet `C` keep `I` and be related by `R`.  If every step
performed meets `C`, then every state visited is related to every later one. -/
theorem pairwise_states {I : σ → Prop} {R : σ → σ → Prop} {C : σ → α → Prop}
    (htrans : ∀ s t u, R s t → R t u → R s u)
    (hgood : ∀ s a s', I s → C s a → step s a = .ok s' → I s' ∧ R s s')
    {s : σ} (h0 : I s) {as : List α} (hC : ∀ p ∈ steps step s as, C p.1 p.2) : (states step s as).Pairwise R := by
  induction as generalizing s with
  | nil => simp [states]
  | cons a as ih =>
      cases hs : step s a with
      | error e => simp [states_cons_error hs]
      | ok s' =>
          rw [steps_cons_ok hs, List.forall_mem_cons] at hC
          obtain ⟨hI, hR⟩ := hgood s a s' h0 hC.1 hs
          rw [states_cons_ok hs, List.pairwise_cons]
          refine ⟨fun t ht => ?_, ih hI hC.2⟩
          refine (states_invariant_of_steps (I := fun t => I t ∧ R s t) ?_ ⟨hI, hR⟩ hC.2 t ht).2
          rintro u b u' ⟨hu, hR'⟩ hCu hstep
          obtain ⟨hu', hR''⟩ := hgood u b u' hu hCu hstep
          exact ⟨hu', htrans s u u' hR' hR''⟩

/-- **At most once.**  A step for which `D` holds leads into `Z`, where no step leaves `Z` and `D` holds of
none.  Then `D` holds of at most one of the steps performed. -/
theorem countP_steps_le_one {I Z : σ → Prop} {C : σ → α → Prop} {D : σ → α → Bool}
    (hgood : ∀ s a s', I s → C s a → step s a = .ok s' → I s')
    (henter : ∀ s a s', I s → C s a → step s a = .ok s' → D s a = true → Z s')
    (hstay : ∀ s a s', I s → Z s → C s a → step s a = .ok s' → Z s' ∧ D s a = false)
    {s : σ} {as : List α} (h0 : I s) (hC : ∀ p ∈ steps step s as, C p.1 p.2) :
    (steps step s as).countP (fun p => D p.1 p.2) ≤ 1 ∧
      (Z s → (steps step s as).countP (fun p => D p.1 p.2) = 0) := by
  induction as generalizing s with
  | nil => simp [steps]
  | cons a as ih =>
      cases hs : step s a with
      | error e => simp [steps_cons_error hs]
      | ok s' =>
          rw [steps_cons_ok hs] at hC ⊢
          have hCa := hC (s, a) List.mem_cons_self
          obtain ⟨hle, hzero⟩ := ih (hgood s a s' h0 hCa hs)
            fun p hp => hC p (List.mem_cons_of_mem _ hp)
          rw [List.countP_cons]
          constructor
          · cases hD : D s a with
            | true => simp [hzero (henter s a s' h0 hCa hs hD)]
            | false => simpa using hle
          · intro hZ
            obtain ⟨hZ', hD⟩ := hstay s a s' h0 hZ hCa hs
            simp [hD, hzero hZ']

/-- **The countdown rule.**  Let no step lead away from `Q k`, and an action of the kind `D` from `Q (k + 1)` to
`Q k`.  Then a run with `n` such actions leads from `Q n` to `Q 0`. -/
theorem run_countdown {I : σ → Prop} {C : σ → α → Prop} {Q : ℕ → σ → Prop} {D : α → Bool}
    (hgood : ∀ s a s', I s → C s a → step s a = .ok s' → I s')
    (hkeep : ∀ k s a s', I s → C s a → step s a = .ok s' → Q k s → Q k s')
    (htick : ∀ k s a s', I s → C s a → step s a = .ok s' → D a = true → Q (k + 1) s → Q k s')
    {n : ℕ} {s t : σ} {as : List α} (h0 : I s) (hC : ∀ p ∈ steps step s as, C p.1 p.2) (hQ : Q n s)
    (h : run step s as = .ok t) (hn : n ≤ as.countP D) : Q 0 t := by
  induction as generalizing s n with
  | nil =>
      rw [run_nil, Except.ok.injEq] at h
      obtain rfl : n = 0 := by simpa using hn
      rwa [← h]
  | cons a as ih =>
      cases hs : step s a with
      | error e => simp [run, hs] at h
      | ok s' =>
          rw [run_cons_ok hs] at h
          rw [steps_cons_ok hs] at hC
          have hCa := hC (s, a) List.mem_cons_self
          have hrest : ∀ {m}, Q m s' → m ≤ as.countP D → Q 0 t := fun hQ' hm =>
            ih (hgood s a s' h0 hCa hs) (fun p hp => hC p (List.mem_cons_of_mem _ hp)) hQ' h hm
          rw [List.countP_cons] at hn
          cases hD : D a with
          | false => exact hrest (hkeep n s a s' h0 hCa hs hQ) (by simpa [hD] using hn)
          | true =>
              cases n with
              | zero => exact hrest (hkeep 0 s a s' h0 hCa hs hQ) (Nat.zero_le _)
              | succ n => exact hrest (htick n s a s' h0 hCa hs hD hQ) (by simpa [hD] using hn)

/-- An error that ends a run is the error of one step, taken in a state the run visits. -/
lemma run_error_source {s : σ} {as : List α} {e : ε} (h : run step s as = .error e) :
    ∃ t ∈ states step s as, ∃ a ∈ as, step t a = .error e := by
  induction as generalizing s with
  | nil => simp at h
  | cons a as ih =>
      cases hs : step s a with
      | error e' =>
          simp only [run, hs, Except.error.injEq] at h
          subst h
          exact ⟨s, self_mem_states s _, a, List.mem_cons_self, hs⟩
      | ok s' =>
          rw [run_cons_ok hs] at h
          obtain ⟨t, ht, b, hb, hstep⟩ := ih h
          rw [states_cons_ok hs]
          exact ⟨t, List.mem_cons_of_mem _ ht, b, List.mem_cons_of_mem _ hb, hstep⟩

lemma attempts_cons_ok {s s' : σ} {a : α} (h : step s a = .ok s') (as : List α) :
    attempts step s (a :: as) = (s, a) :: attempts step s' as := by
  simp only [attempts, h]

lemma attempts_cons_error {s : σ} {a : α} {e : ε} (h : step s a = .error e) (as : List α) :
    attempts step s (a :: as) = [(s, a)] := by
  simp only [attempts, h]

/-- A step is attempted in a state the run visits. -/
lemma state_of_mem_attempts {s : σ} {as : List α} {p : σ × α} (hp : p ∈ attempts step s as) :
    p.1 ∈ states step s as := by
  induction as generalizing s with
  | nil => simp [attempts] at hp
  | cons a as ih =>
      cases hs : step s a with
      | error e =>
          rw [attempts_cons_error hs, List.mem_singleton] at hp
          rw [hp]
          exact self_mem_states s _
      | ok s' =>
          rw [attempts_cons_ok hs, List.mem_cons] at hp
          rw [states_cons_ok hs]
          rcases hp with rfl | hp
          · exact List.mem_cons_self
          · exact List.mem_cons_of_mem _ (ih hp)

/-- **How a run fails**: with an error of one of the steps it attempts. -/
theorem run_eq_error_iff {s : σ} {as : List α} {e : ε} :
    run step s as = .error e ↔ ∃ p ∈ attempts step s as, step p.1 p.2 = .error e := by
  induction as generalizing s with
  | nil => simp [attempts]
  | cons a as ih =>
      cases hs : step s a with
      | error e' => simp [run, attempts_cons_error hs, hs]
      | ok s' => simp [run_cons_ok hs, attempts_cons_ok hs, hs, ih]

/-! ## Reaching a state -/

/-- Some run leads from `s` to `t`, and all its actions satisfy `C`. -/
def ReachesBy (step : σ → α → Except ε σ) (C : α → Prop) (s t : σ) : Prop :=
  ∃ as, (∀ a ∈ as, C a) ∧ run step s as = .ok t

section ReachesBy

variable {C : α → Prop}

lemma ReachesBy.refl (s : σ) : ReachesBy step C s s := ⟨[], by simp, rfl⟩

lemma ReachesBy.of_step {s t : σ} {a : α} (ha : C a) (h : step s a = .ok t) :
    ReachesBy step C s t :=
  ⟨[a], by simpa using ha, by rw [run_cons_ok h, run_nil]⟩

lemma ReachesBy.trans {s t u : σ} (h : ReachesBy step C s t) (h' : ReachesBy step C t u) :
    ReachesBy step C s u := by
  obtain ⟨as, hC, has⟩ := h
  obtain ⟨bs, hC', hbs⟩ := h'
  refine ⟨as ++ bs, ?_, by rw [run_append has, hbs]⟩
  intro a ha
  exact (List.mem_append.mp ha).elim (hC a) (hC' a)

/-- What every step keeps holds in the state reached. -/
lemma ReachesBy.invariant {I : σ → Prop} (hstep : ∀ s a s', I s → step s a = .ok s' → I s')
    {s t : σ} (h0 : I s) (h : ReachesBy step C s t) : I t := by
  obtain ⟨as, -, has⟩ := h
  exact run_invariant hstep h0 has

/-- A machine that another one is part of: `emb` puts a state of the part in its place, and `act` is what
the whole performs for an action of the part. -/
lemma ReachesBy.map {τ β ε' : Type*} {step' : τ → β → Except ε' τ} {D : β → Prop} (emb : σ → τ)
    (act : α → β)
    (h : ∀ s a s', C a → step s a = .ok s' → D (act a) ∧ step' (emb s) (act a) = .ok (emb s'))
    {s t : σ} (hreach : ReachesBy step C s t) : ReachesBy step' D (emb s) (emb t) := by
  obtain ⟨as, hC, has⟩ := hreach
  induction as generalizing s with
  | nil =>
      rw [run_nil, Except.ok.injEq] at has
      rw [has]
      exact .refl _
  | cons a as ih =>
      cases hs : step s a with
      | error e => simp [run, hs] at has
      | ok s' =>
          rw [run_cons_ok hs] at has
          obtain ⟨hD, hstep'⟩ := h s a s' (hC a List.mem_cons_self) hs
          exact (ReachesBy.of_step hD hstep').trans
            (ih (fun b hb => hC b (List.mem_cons_of_mem _ hb)) has)

end ReachesBy

/-! ## Simulation -/

/-- **Simulation.**  If every step of a machine, from a state that satisfies `I`, is matched by a
run of an abstract machine between the abstractions of its two ends, then every state visited is
an abstract state the abstract machine reaches. -/
theorem simulation {τ β ε' : Type*} {astep : τ → β → Except ε' τ} {abs : σ → τ} {I : σ → Prop}
    (hI : ∀ s a s', I s → step s a = .ok s' → I s')
    (hsim : ∀ s a s', I s → step s a = .ok s' → ∃ bs, run astep (abs s) bs = .ok (abs s'))
    {s : σ} {as : List α} (h0 : I s) :
    ∀ t ∈ states step s as, ∃ bs, run astep (abs s) bs = .ok (abs t) := by
  intro t ht
  refine (states_invariant
    (I := fun t => I t ∧ ∃ bs, run astep (abs s) bs = .ok (abs t)) ?_ ⟨h0, [], rfl⟩ t ht).2
  rintro u a u' ⟨hu, bs, hbs⟩ hstep
  obtain ⟨cs, hcs⟩ := hsim u a u' hu hstep
  exact ⟨hI u a u' hu hstep, bs ++ cs, by rw [run_append hbs, hcs]⟩

end Machine
