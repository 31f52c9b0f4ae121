import Seenet.EventLoop.TaskQueue

/-!
# Quitting a loop

`quit` stores `false` in the flag that `loop` tests before each round, and `loop` ends at the next test.
It does not look at the functors once more.  So a functor queued after the last swap is never called.

* `Quitted` — the loop is running, or has run, and its flag is down.  Every step keeps it
  (`quitted_step`), and the loop's thread can come to its end by itself (`Quitted.ends`).
* **`called_iff_of_quit`** — a thread queues a functor and calls `quit`; once `loop` has ended, the
  functor has been called exactly when it had been taken by a swap before `quit`, or the loop was in a
  round and before its swap.
* **`not_called_of_quit`** — a functor that is not called.
-/

namespace Seenet

namespace EventLoop

variable {F : Type} {l l' : EventLoop F} {a : Action F}

/-! ## The flag is down -/

/-- `loop` has been called, and its flag is down. -/
def Quitted (l : EventLoop F) : Prop := l.pc ≠ .notStarted ∧ l.looping = false

/-- Only the start of `loop` raises the flag. -/
lemma quitted_step (h : l.Quitted) (hstep : l.step a = .ok l') : l'.Quitted := by
  obtain ⟨hpc, hlooping⟩ := h
  cases Step.of_step hstep with
  | push => exact ⟨hpc, hlooping⟩
  | quit => exact ⟨hpc, rfl⟩
  | wakeup =>
      rw [wakeup_eq, ite_self]
      exact ⟨hpc, hlooping⟩
  | «return» => exact ⟨hpc, hlooping⟩
  | start hgo hnot => exact absurd hnot hpc
  | exit => exact ⟨by simp, rfl⟩
  | handleRead =>
      rw [handleRead_eq]
      exact ⟨by simp, hlooping⟩
  | _ => exact ⟨by simp, hlooping⟩

/-- A running loop that is told to quit. -/
lemma quitted_of_quit {t : Thread} (hpc : l.pc ≠ .notStarted) (hquit : l.step (.quit t) = .ok l') :
    l'.Quitted := by
  cases Step.of_step hquit with
  | quit => exact ⟨hpc, rfl⟩

/-- A loop that has been started stays so. -/
lemma started_step (h : l.pc ≠ .notStarted) (hstep : l.step a = .ok l') : l'.pc ≠ .notStarted := by
  cases Step.of_step hstep with
  | push => exact h
  | quit => exact h
  | wakeup =>
      rw [wakeup_eq, ite_self]
      exact h
  | «return» => exact h
  | _ => simp

/-- A loop that has ended stays so. -/
lemma exited_step (h : l.pc = .exited) (hstep : l.step a = .ok l') : l'.pc = .exited := by
  cases Step.of_step hstep with
  | push => exact h
  | quit => exact h
  | wakeup =>
      rw [wakeup_eq, ite_self]
      exact h
  | «return» => exact h
  | _ hgo hpc => simp [h] at hpc

/-- Nobody has called `quit`: the flag is up from the start of `loop` on, and `loop` does not end. -/
def Unquit (l : EventLoop F) : Prop :=
  (l.pc ≠ .notStarted → l.looping = true) ∧ l.pc ≠ .exited

lemma unquit_step (h : l.Unquit) (hquit : ∀ t, a ≠ .quit t) (hstep : l.step a = .ok l') :
    l'.Unquit := by
  obtain ⟨hlooping, hpc⟩ := h
  have hup : ∀ {pc}, l.pc = pc → pc ≠ .notStarted → l.looping = true := by
    rintro pc rfl hne
    exact hlooping hne
  cases Step.of_step hstep with
  | push => exact ⟨hlooping, hpc⟩
  | @quit t => exact absurd rfl (hquit t)
  | wakeup =>
      rw [wakeup_eq, ite_self]
      exact ⟨hlooping, hpc⟩
  | «return» => exact ⟨hlooping, hpc⟩
  | start => exact ⟨fun _ => rfl, by simp⟩
  | poll hgo hpc' hlooping' => exact ⟨fun _ => hlooping', by simp⟩
  | exit hgo hpc' hdown =>
      have hraised := hup hpc' (by simp)
      simp [hdown] at hraised
  | handleRead hgo hpc' =>
      rw [handleRead_eq]
      exact ⟨fun _ => hup hpc' (by simp), by simp⟩
  | _ hgo hpc' => exact ⟨fun _ => hup hpc' (by simp), by simp⟩

/-- Before `loop` is called, its thread is in no user code, and the flag is down. -/
def Fresh (l : EventLoop F) : Prop := l.pc = .notStarted → l.CanGoOn ∧ l.looping = false

lemma fresh_step (h : l.Fresh) (hstep : l.step a = .ok l') : l'.Fresh := by
  have hother : ∀ {t : Thread} {c : Caller}, l.pc = .notStarted → l.CanCall t →
      l.inUser = false ∧ Function.update l.callers t c .loop = .idle := by
    intro t c hpc hcall
    obtain ⟨⟨huser, hidle⟩, -⟩ := h hpc
    refine ⟨huser, ?_⟩
    rw [Function.update_of_ne, hidle]
    rintro rfl
    have hin := hcall.2 rfl
    simp [huser] at hin
  cases Step.of_step hstep with
  | push hcall => exact fun hpc => ⟨hother hpc hcall, (h hpc).2⟩
  | quit hcall => exact fun hpc => ⟨hother hpc hcall, rfl⟩
  | @wakeup t =>
      rw [wakeup_eq, ite_self]
      intro hpc
      obtain ⟨⟨huser, hidle⟩, hdown⟩ := h hpc
      refine ⟨⟨huser, ?_⟩, hdown⟩
      rcases eq_or_ne t .loop with rfl | hne
      · simp
      · simp [Function.update_of_ne hne.symm, hidle]
  | «return» huser =>
      intro hpc
      have hnone := (h hpc).1.1
      simp [huser] at hnone
  | _ => exact fun hpc => absurd hpc (by simp)

/-! ## What becomes of a functor -/

/-- The loop is in a round, and has yet to come to the swap. -/
def Pc.BeforeSwap : Pc F → Prop
  | .polling => True
  | .dispatching _ => True
  | .entering => True
  | _ => False

/-- The `k`-th functor pushed has been taken by a swap. -/
def Taken (l : EventLoop F) (k : ℕ) : Prop := k < l.executed.length + (Pc.batch l.pc).length

/-- The account balances, and the `k`-th functor pushed is `f`. -/
structure Pushed (l : EventLoop F) (k : ℕ) (f : F) : Prop where
  balanced : l.abs.Balanced
  pushed_eq : ∃ e, l.pushed[k]? = some (f, e)

/-- The account is only added to. -/
lemma Pushed.step {k : ℕ} {f : F} (h : l.Pushed k f) (hstep : l.step a = .ok l') :
    l'.Pushed k f := by
  obtain ⟨e, he⟩ := h.pushed_eq
  obtain ⟨bs, hbs⟩ := step_simulates hstep
  refine ⟨BatchQueue.balanced_of_run h.balanced hbs, e, ?_⟩
  cases Step.of_step hstep with
  | push =>
      have hlt := (List.getElem?_eq_some_iff.mp he).1
      rw [queueInLoop, List.getElem?_append_left hlt]
      exact he
  | wakeup =>
      rw [wakeup_eq, ite_self]
      exact he
  | handleRead =>
      rw [handleRead_eq]
      exact he
  | _ => exact he

/-- What has been taken stays so. -/
lemma Taken.step {k : ℕ} (h : l.Taken k) (hstep : l.step a = .ok l') : l'.Taken k := by
  rw [Taken] at h ⊢
  cases Step.of_step hstep with
  | push => exact h
  | quit => exact h
  | wakeup =>
      rw [wakeup_eq, ite_self]
      exact h
  | «return» => exact h
  | start hgo hpc => simpa [hpc, Pc.batch] using h
  | poll hgo hpc => simpa [hpc, Pc.batch] using h
  | exit hgo hpc => simpa [hpc, Pc.batch] using h
  | pollReturn hgo hpc => simpa [hpc, Pc.batch] using h
  | handleRead hgo hpc =>
      rw [handleRead_eq]
      simpa [hpc, Pc.batch] using h
  | handleEvent hgo hpc => simpa [hpc, Pc.batch] using h
  | enterPending hgo hpc => simpa [hpc, Pc.batch] using h
  | swap hgo hpc =>
      simp only [hpc, Pc.batch, List.length_nil] at h ⊢
      omega
  | callFunctor hgo hpc =>
      simp only [hpc, Pc.batch, List.length_cons, List.length_append, List.length_nil] at h ⊢
      omega
  | leavePending hgo hpc => simpa [hpc, Pc.batch] using h

/-- A loop that has yet to come to the swap takes what is pending there. -/
lemma due_step {k : ℕ} {f : F} (hp : l.Pushed k f) (h : l.Taken k ∨ Pc.BeforeSwap l.pc)
    (hstep : l.step a = .ok l') : l'.Taken k ∨ Pc.BeforeSwap l'.pc := by
  rcases h with h | h
  · exact Or.inl (h.step hstep)
  cases Step.of_step hstep with
  | push => exact Or.inr h
  | quit => exact Or.inr h
  | wakeup =>
      rw [wakeup_eq, ite_self]
      exact Or.inr h
  | «return» => exact Or.inr h
  | start hgo hpc => simp [hpc, Pc.BeforeSwap] at h
  | poll hgo hpc => simp [hpc, Pc.BeforeSwap] at h
  | exit hgo hpc => simp [hpc, Pc.BeforeSwap] at h
  | pollReturn => exact Or.inr trivial
  | handleRead => exact Or.inr trivial
  | handleEvent => exact Or.inr trivial
  | enterPending => exact Or.inr trivial
  | swap hgo hpc =>
      -- everything pushed has been called or is in the batch now
      obtain ⟨e, he⟩ := hp.pushed_eq
      have hlt := (List.getElem?_eq_some_iff.mp he).1
      have hlen := congrArg List.length hp.balanced.tasks_eq
      simp only [abs, hpc, Pc.batch, List.append_nil, List.length_append, List.length_map] at hlen
      left
      rw [Taken]
      simp only [Pc.batch]
      omega
  | callFunctor hgo hpc => simp [hpc, Pc.BeforeSwap] at h
  | leavePending hgo hpc => simp [hpc, Pc.BeforeSwap] at h

/-- Once the flag is down, a loop that is past its swap takes nothing any more. -/
lemma stranded_step {k : ℕ} (h : l.Quitted ∧ ¬ l.Taken k ∧ ¬ Pc.BeforeSwap l.pc)
    (hstep : l.step a = .ok l') : l'.Quitted ∧ ¬ l'.Taken k ∧ ¬ Pc.BeforeSwap l'.pc := by
  obtain ⟨hquitted, htaken, hround⟩ := h
  refine ⟨quitted_step hquitted hstep, ?_⟩
  rw [Taken] at htaken ⊢
  cases Step.of_step hstep with
  | push => exact ⟨htaken, hround⟩
  | quit => exact ⟨htaken, hround⟩
  | wakeup =>
      rw [wakeup_eq, ite_self]
      exact ⟨htaken, hround⟩
  | «return» => exact ⟨htaken, hround⟩
  | start hgo hpc => exact absurd hpc hquitted.1
  | poll hgo hpc hlooping => simp [hquitted.2] at hlooping
  | exit hgo hpc => exact ⟨by simpa [hpc, Pc.batch] using htaken, by simp [Pc.BeforeSwap]⟩
  | pollReturn hgo hpc => simp [hpc, Pc.BeforeSwap] at hround
  | handleRead hgo hpc => simp [hpc, Pc.BeforeSwap] at hround
  | handleEvent hgo hpc => simp [hpc, Pc.BeforeSwap] at hround
  | enterPending hgo hpc => simp [hpc, Pc.BeforeSwap] at hround
  | swap hgo hpc => simp [hpc, Pc.BeforeSwap] at hround
  | callFunctor hgo hpc =>
      refine ⟨?_, by simp [Pc.BeforeSwap]⟩
      simp only [hpc, Pc.batch, List.length_cons, List.length_append, List.length_nil] at htaken ⊢
      omega
  | leavePending hgo hpc => exact ⟨by simpa [hpc, Pc.batch] using htaken, by simp [Pc.BeforeSwap]⟩

/-- When `loop` has ended, what has been taken has been called. -/
lemma Pushed.called_iff {k : ℕ} {f : F} (h : l.Pushed k f) (hpc : l.pc = .exited) :
    (∃ e, l.executed[k]? = some (f, e)) ↔ l.Taken k := by
  simp only [Taken, hpc, Pc.batch, List.length_nil, Nat.add_zero]
  constructor
  · rintro ⟨e, he⟩
    exact (List.getElem?_eq_some_iff.mp he).1
  · intro hlt
    obtain ⟨e, he⟩ := h.pushed_eq
    obtain ⟨⟨g, called⟩, hg⟩ : ∃ p, l.executed[k]? = some p := ⟨_, List.getElem?_eq_getElem hlt⟩
    obtain ⟨queued, hqueued, -⟩ := h.balanced.executed_epoch hg
    have heq : (g, queued) = (f, e) := by
      rw [← Option.some.injEq, ← hqueued, ← he]
      rfl
    rw [Prod.mk.injEq] at heq
    exact ⟨called, by rw [hg, heq.1]⟩

/-- **When a functor queued before `quit` is called.**  The thread `t` queues `f` on a running loop, and
calls `quit` later on.  Whatever the other threads and the loop do in between and afterwards: when `loop`
has ended, `f` has been called if and only if, as `quit` lowered the flag, `f` had been taken by a swap, or
the loop was in a round and had yet to come to the swap. -/
theorem called_iff_of_quit {as bs cs : List (Action F)} {l₁ l₂ l₃ l₄ l₅ : EventLoop F} {t : Thread}
    {f : F} (has : Machine.run step create as = .ok l₁) (hrunning : l₁.pc ≠ .notStarted)
    (hpush : l₁.step (.push t f) = .ok l₂) (hbs : Machine.run step l₂ bs = .ok l₃)
    (hquit : l₃.step (.quit t) = .ok l₄) (hcs : Machine.run step l₄ cs = .ok l₅)
    (hexited : l₅.pc = .exited) :
    (∃ e, l₅.executed[l₁.pushed.length]? = some (f, e))
      ↔ l₃.Taken l₁.pushed.length ∨ Pc.BeforeSwap l₃.pc := by
  have hpushed₂ : l₂.Pushed l₁.pushed.length f := by
    have hbalanced := balanced_states as l₁ (Machine.mem_states_of_run has)
    obtain ⟨ds, hds⟩ := step_simulates hpush
    refine ⟨BatchQueue.balanced_of_run hbalanced hds, l₁.swaps, ?_⟩
    cases Step.of_step hpush with
    | push => simp [queueInLoop]
  have hpushed₃ := Machine.run_invariant (fun _ _ _ h hs => Pushed.step h hs) hpushed₂ hbs
  have hpushed₄ := hpushed₃.step hquit
  have hpushed₅ := Machine.run_invariant (fun _ _ _ h hs => Pushed.step h hs) hpushed₄ hcs
  rw [hpushed₅.called_iff hexited]
  constructor
  · intro htaken
    by_contra hnot
    rw [not_or] at hnot
    have hstarted := Machine.run_invariant (fun _ _ _ h hs => started_step h hs)
      (started_step hrunning hpush) hbs
    have hquitted := quitted_of_quit hstarted hquit
    have hstranded : l₄.Quitted ∧ ¬ l₄.Taken l₁.pushed.length ∧ ¬ Pc.BeforeSwap l₄.pc := by
      cases Step.of_step hquit with
      | quit => exact ⟨hquitted, hnot⟩
    exact (Machine.run_invariant (fun _ _ _ h hs => stranded_step h hs) hstranded hcs).2.1 htaken
  · intro hdue
    have hdue₅ := Machine.run_invariant
      (I := fun l => l.Pushed l₁.pushed.length f ∧ (l.Taken l₁.pushed.length ∨ Pc.BeforeSwap l.pc))
      (fun _ _ _ h hs => ⟨h.1.step hs, due_step h.1 h.2 hs⟩)
      ⟨hpushed₄, due_step hpushed₃ hdue hquit⟩ hcs
    rcases hdue₅.2 with htaken | hround
    · exact htaken
    · simp [hexited, Pc.BeforeSwap] at hround

/-- A functor is queued while the loop sleeps in `poll`, and `quit` follows at once: it is called. -/
theorem called_iff_of_quit_polling :
    ∃ l₁ l₂ l₃ l₄ l₅ : EventLoop ℕ,
      Machine.run step create [.start, .testLooping] = .ok l₁ ∧
      l₁.step (.push (.other 0) 7) = .ok l₂ ∧
      Machine.run step l₂ [.wakeup (.other 0)] = .ok l₃ ∧ l₃.step (.quit (.other 0)) = .ok l₄ ∧
      Machine.run step l₄ [.pollReturn [], .enterPending, .swap, .callFunctor, .return,
        .leavePending, .testLooping] = .ok l₅ ∧
      l₅.pc = .exited ∧ ∃ e, l₅.executed[l₁.pushed.length]? = some (7, e) := by
  let l₁ : EventLoop ℕ := ⟨true, false, [], 0, .polling, false, fun _ => .idle, 0, [], []⟩
  let l₂ := l₁.queueInLoop (.other 0) 7
  let l₃ := { l₂ with callers := Function.update l₂.callers (.other 0) .idle }
  let l₄ := { l₃ with looping := false, callers := Function.update l₃.callers (.other 0) .quitting }
  have hrun : (Machine.run step l₄ [.pollReturn [], .enterPending, .swap, .callFunctor, .return,
      .leavePending, .testLooping]).map (fun l => l.pc) = .ok .exited := by
    decide +kernel
  obtain ⟨l₅, hl₅, hexited⟩ := Machine.ok_of_map hrun
  have hl₁ : Machine.run step create [.start, .testLooping] = .ok l₁ := rfl
  have hl₂ : l₁.step (.push (.other 0) 7) = .ok l₂ := rfl
  have hl₃ : Machine.run step l₂ [.wakeup (.other 0)] = .ok l₃ := rfl
  have hl₄ : l₃.step (.quit (.other 0)) = .ok l₄ := rfl
  have hround : Pc.BeforeSwap l₃.pc := trivial
  exact ⟨l₁, l₂, l₃, l₄, l₅, hl₁, hl₂, hl₃, hl₄, hl₅, hexited,
    (called_iff_of_quit hl₁ (by simp [l₁]) hl₂ hl₃ hl₄ hl₅ hexited).mpr (Or.inr hround)⟩

/-- **A functor that is not called.**  It is queued while the loop runs the functors of a batch, and
`quit` follows before the batch is done. -/
theorem not_called_of_quit :
    ∃ l, Machine.run step (create : EventLoop ℕ)
        [.start, .testLooping, .pollReturn [], .enterPending, .swap, .push (.other 0) 7,
          .wakeup (.other 0), .quit (.other 0), .wakeup (.other 0), .leavePending, .testLooping]
        = .ok l ∧
      l.pc = .exited ∧ l.pushed = [(7, 1)] ∧ l.executed = [] ∧ l.pendingFunctors = [7] := by
  refine ⟨_, rfl, rfl, rfl, rfl, rfl⟩

/-! ## The loop can end -/

/-- What the loop's thread does by itself: it calls neither `queueInLoop` nor `quit`. -/
def Action.Own : Action F → Prop
  | .push _ _ => False
  | .quit _ => False
  | .wakeup t => t = .loop
  | _ => True

/-- The loop's thread comes out of user code, and out of the call made there. -/
lemma reaches_canGoOn (l : EventLoop F) :
    ∃ l', Machine.ReachesBy step Action.Own l l' ∧ l'.pc = l.pc ∧ l'.CanGoOn := by
  have hreturn : ∀ l₁ : EventLoop F, l₁.callers .loop = .idle →
      ∃ l', Machine.ReachesBy step Action.Own l₁ l' ∧ l'.pc = l₁.pc ∧ l'.CanGoOn := by
    intro l₁ hidle
    cases huser : l₁.inUser with
    | false => exact ⟨l₁, .refl l₁, rfl, huser, hidle⟩
    | true =>
        refine ⟨{ l₁ with inUser := false }, .of_step (a := .return) trivial ?_, rfl, rfl,
          hidle⟩
        rw [step, if_pos ⟨huser, hidle⟩]
  by_cases hidle : l.callers .loop = .idle
  · exact hreturn l hidle
  · have hwakeup : l.step (.wakeup .loop)
        = .ok { l with callers := Function.update l.callers .loop .idle } := by
      simp only [step, if_neg hidle, wakeup_eq, ite_self]
    obtain ⟨l', hreach, hpc, hgo⟩ :=
      hreturn { l with callers := Function.update l.callers .loop .idle } (by simp)
    have hown : (Action.wakeup .loop : Action F).Own := rfl
    exact ⟨l', (Machine.ReachesBy.of_step hown hwakeup).trans hreach, hpc, hgo⟩

/-- The loop's thread can come to the end of `loop` by itself. -/
def Ends (l : EventLoop F) : Prop := ∃ l', Machine.ReachesBy step Action.Own l l' ∧ l'.pc = .exited

/-- The next step in `loop`, once the loop's thread is out of user code. -/
lemma Quitted.ends_of_step (h : l.Quitted)
    (hnext : ∀ l₁ : EventLoop F, l₁.Quitted → l₁.pc = l.pc → l₁.CanGoOn →
      ∃ (a : Action F) (l₂ : EventLoop F), a.Own ∧ l₁.step a = .ok l₂ ∧ (l₂.Quitted → l₂.Ends)) :
    l.Ends := by
  obtain ⟨l₁, hreach, hpc, hgo⟩ := reaches_canGoOn l
  have hquitted := hreach.invariant (fun _ _ _ h hs => quitted_step h hs) h
  obtain ⟨a, l₂, hown, hstep, hends⟩ := hnext l₁ hquitted hpc hgo
  obtain ⟨l', hreach', hexited⟩ := hends (quitted_step hquitted hstep)
  exact ⟨l', (hreach.trans (.of_step hown hstep)).trans hreach', hexited⟩

lemma Quitted.ends_whileTest (h : l.Quitted) (hpc : l.pc = .whileTest) : l.Ends := by
  refine h.ends_of_step ?_
  intro l₁ hquitted hpc₁ hgo
  refine ⟨.testLooping, { l₁ with looping := false, pc := .exited }, trivial, ?_, ?_⟩
  · simp only [step, if_pos hgo, loopStep, hpc₁, hpc, hquitted.2, Bool.false_eq_true, if_false]
  · exact fun _ => ⟨_, .refl _, rfl⟩

lemma Quitted.ends_running (h : l.Quitted) {functors : List F} (hpc : l.pc = .running functors) :
    l.Ends := by
  induction functors generalizing l with
  | nil =>
      refine h.ends_of_step ?_
      intro l₁ hquitted hpc₁ hgo
      refine ⟨.leavePending, { l₁ with callingPendingFactors := false, pc := .whileTest }, trivial, ?_, ?_⟩
      · simp only [step, if_pos hgo, loopStep, hpc₁, hpc]
      · exact fun h₂ => h₂.ends_whileTest rfl
  | cons f functors ih =>
      refine h.ends_of_step ?_
      intro l₁ hquitted hpc₁ hgo
      refine ⟨.callFunctor, { l₁ with
        pc := .running functors, inUser := true, executed := l₁.executed ++ [(f, l₁.swaps)] },
        trivial, ?_, ?_⟩
      · simp only [step, if_pos hgo, loopStep, hpc₁, hpc]
      · exact fun h₂ => ih h₂ rfl

lemma Quitted.ends_entering (h : l.Quitted) (hpc : l.pc = .entering) : l.Ends := by
  refine h.ends_of_step ?_
  intro l₁ hquitted hpc₁ hgo
  refine ⟨.swap, { l₁ with
    pendingFunctors := [], pc := .running l₁.pendingFunctors, swaps := l₁.swaps + 1 }, trivial, ?_, ?_⟩
  · simp only [step, if_pos hgo, loopStep, hpc₁, hpc]
  · exact fun h₂ => h₂.ends_running rfl

lemma Quitted.ends_dispatching (h : l.Quitted) {active : List Active}
    (hpc : l.pc = .dispatching active) : l.Ends := by
  induction active generalizing l with
  | nil =>
      refine h.ends_of_step ?_
      intro l₁ hquitted hpc₁ hgo
      refine ⟨.enterPending, { l₁ with callingPendingFactors := true, pc := .entering }, trivial, ?_, ?_⟩
      · simp only [step, if_pos hgo, loopStep, hpc₁, hpc]
      · exact fun h₂ => h₂.ends_entering rfl
  | cons ch active ih =>
      refine h.ends_of_step ?_
      intro l₁ hquitted hpc₁ hgo
      cases ch with
      | wakeupChannel =>
          refine ⟨.handleEvent, { l₁.handleRead with pc := .dispatching active }, trivial, ?_, ?_⟩
          · simp only [step, if_pos hgo, loopStep, hpc₁, hpc]
          · exact fun h₂ => ih h₂ rfl
      | other n =>
          refine ⟨.handleEvent, { l₁ with pc := .dispatching active, inUser := true }, trivial, ?_, ?_⟩
          · simp only [step, if_pos hgo, loopStep, hpc₁, hpc]
          · exact fun h₂ => ih h₂ rfl

/-- `poll` returns, with the wakeup channel if its counter says so. -/
lemma Quitted.ends_polling (h : l.Quitted) (hpc : l.pc = .polling) : l.Ends := by
  refine h.ends_of_step ?_
  intro l₁ hquitted hpc₁ hgo
  by_cases hcounter : l₁.wakeupFd = 0
  · refine ⟨.pollReturn [], { l₁ with pc := .dispatching [] }, trivial, ?_, ?_⟩
    · simp [step, hgo, loopStep, hpc₁, hpc, hcounter]
    · exact fun h₂ => h₂.ends_dispatching rfl
  · refine ⟨.pollReturn [.wakeupChannel], { l₁ with pc := .dispatching [.wakeupChannel] }, trivial, ?_, ?_⟩
    · simp [step, hgo, loopStep, hpc₁, hpc, hcounter]
    · exact fun h₂ => h₂.ends_dispatching rfl

/-- **A loop whose flag is down can come to its end**, wherever it is. -/
theorem Quitted.ends (h : l.Quitted) : l.Ends := by
  cases hpc : l.pc with
  | notStarted => exact absurd hpc h.1
  | whileTest => exact h.ends_whileTest hpc
  | polling => exact h.ends_polling hpc
  | dispatching active => exact h.ends_dispatching hpc
  | entering => exact h.ends_entering hpc
  | running functors => exact h.ends_running hpc
  | exited => exact ⟨l, .refl l, hpc⟩

end EventLoop

end Seenet
