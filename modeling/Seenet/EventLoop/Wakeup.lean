import Seenet.EventLoop.Basic

/-!
# Waking the loop

A loop that sleeps in `poll` while functors are pending has to be woken, by a counter that is not zero or
by a caller that still has its `wakeup()` to execute.  That is what `queueInLoop` is written for; but
`wakeup()` writes two bytes where the `eventfd` wants eight, so it never does anything (`wakeup_eq`).

* `Consistent` — the flag and the user code are where the position of the loop's thread says.
* `Covered` — functors are pending only if something will make the loop take them.  Every step keeps
  it but one (`covered_step`): the `wakeup()` of the last caller that owes one, when it is needed
  (`LoneWakeup`).
* **`noLostWakeup_of_no_loneWakeup`** — in a run without such a step no wakeup is lost.
* `not_covered_of_loneWakeup` — after such a step nothing is left that would wake the loop.
-/

namespace Seenet

namespace EventLoop

variable {F : Type} {l l' : EventLoop F} {a : Action F}

/-! ## What there is to wake the loop -/

/-- The thread has pushed its functor and still has its `wakeup()` to execute. -/
def Owes (l : EventLoop F) (t : Thread) : Prop := l.callers t = .queueing ∧ l.wakes t = true

/-- The loop is blocked in `poll`, or about to be. -/
def MayBlock (l : EventLoop F) : Prop :=
  l.pc = .polling ∨ (l.pc = .whileTest ∧ l.looping = true)

/-- **No lost wakeup.** -/
def NoLostWakeup (l : EventLoop F) : Prop :=
  l.MayBlock → l.pendingFunctors ≠ [] → l.wakeupFd ≠ 0 ∨ ∃ t, l.Owes t

/-- The loop is between the return of `poll` and the swap. -/
def Pc.WillSwap : Pc F → Prop
  | .dispatching _ => True
  | .entering => True
  | _ => False

/-- If functors are pending, then the loop is about to take them, or something will wake it. -/
def Covered (l : EventLoop F) : Prop :=
  l.pendingFunctors ≠ [] → Pc.WillSwap l.pc ∨ l.wakeupFd ≠ 0 ∨ ∃ t, l.Owes t

/-- The step is the `wakeup()` of the only caller that still owes one, with functors pending, the counter
zero, and the loop not about to take them. -/
def LoneWakeup (l : EventLoop F) (a : Action F) : Prop :=
  l.pendingFunctors ≠ [] ∧ ¬ Pc.WillSwap l.pc ∧ l.wakeupFd = 0 ∧
    ∃ t, a = .wakeup t ∧ l.Owes t ∧ ∀ t', l.Owes t' → t' = t

lemma Covered.noLostWakeup (h : l.Covered) : l.NoLostWakeup := by
  intro hblock hpending
  rcases h hpending with hswap | hwake
  · rcases hblock with hpc | ⟨hpc, -⟩ <;> simp [hpc, Pc.WillSwap] at hswap
  · exact hwake

/-! ## Where the loop's thread is -/

/-- User code runs among handlers and functors only, and the flag is up exactly in
`doPendingFunctors`. -/
structure Consistent (l : EventLoop F) : Prop where
  inUser_pc : l.inUser = true →
    (∃ active, l.pc = .dispatching active) ∨ ∃ functors, l.pc = .running functors
  calling_iff : l.callingPendingFactors = true ↔
    l.pc = .entering ∨ ∃ functors, l.pc = .running functors

lemma consistent_create : (create : EventLoop F).Consistent :=
  ⟨by simp [create], by simp [create]⟩

lemma consistent_step (h : l.Consistent) (hstep : l.step a = .ok l') : l'.Consistent := by
  have huser := h.inUser_pc
  have hcalling := h.calling_iff
  cases Step.of_step hstep with
  | push => exact ⟨huser, hcalling⟩
  | quit => exact ⟨huser, hcalling⟩
  | wakeup => simp only [wakeup_eq, ite_self]; exact ⟨huser, hcalling⟩
  | «return» => exact ⟨by simp, hcalling⟩
  | start hgo hpc => exact ⟨by simp [hgo.1], by simpa [hpc] using hcalling⟩
  | poll hgo hpc => exact ⟨by simp [hgo.1], by simpa [hpc] using hcalling⟩
  | exit hgo hpc => exact ⟨by simp [hgo.1], by simpa [hpc] using hcalling⟩
  | pollReturn hgo hpc => exact ⟨by simp [hgo.1], by simpa [hpc] using hcalling⟩
  | handleRead hgo hpc =>
      rw [handleRead_eq]
      exact ⟨by simp [hgo.1], by simpa [hpc] using hcalling⟩
  | handleEvent hgo hpc => exact ⟨by simp, by simpa [hpc] using hcalling⟩
  | enterPending hgo hpc => exact ⟨by simp [hgo.1], by simp⟩
  | swap hgo hpc => exact ⟨by simp [hgo.1], by simpa [hpc] using hcalling⟩
  | callFunctor hgo hpc => exact ⟨by simp, by simpa [hpc] using hcalling⟩
  | leavePending hgo hpc => exact ⟨by simp [hgo.1], by simp⟩

/-! ## The cover -/

/-- Another thread that has pushed owes a wakeup; the loop's thread owes one while the flag is up. -/
lemma owes_iff {t : Thread} :
    l.Owes t ↔ l.callers t = .queueing ∧ (t ≠ .loop ∨ l.callingPendingFactors = true) := by
  rw [Owes]
  constructor
  · rintro ⟨hcaller, hwakes⟩
    simp only [wakes, hcaller, Bool.or_eq_true, decide_eq_true_eq] at hwakes
    exact ⟨hcaller, hwakes⟩
  · rintro ⟨hcaller, hwakes⟩
    refine ⟨hcaller, ?_⟩
    simp only [wakes, hcaller, Bool.or_eq_true, decide_eq_true_eq]
    exact hwakes

/-- A step that changes neither the callers nor the flag leaves every debt as it is. -/
lemma Owes.of_eq {t : Thread} (h : l.Owes t) (hcallers : l'.callers = l.callers)
    (hflag : l'.callingPendingFactors = l.callingPendingFactors) : l'.Owes t := by
  rw [owes_iff] at h ⊢
  rwa [hcallers, hflag]

/-- What covers a state in which the loop's thread is at neither of the two places covers a later one
with the same functors, counter, callers and flag. -/
lemma Covered.of_eq (h : l.Covered) (hpc : ¬ Pc.WillSwap l.pc)
    (hpending : l'.pendingFunctors = l.pendingFunctors) (hcounter : l'.wakeupFd = l.wakeupFd)
    (hcallers : l'.callers = l.callers)
    (hflag : l'.callingPendingFactors = l.callingPendingFactors) : l'.Covered := by
  intro hne
  rw [hpending] at hne
  rcases h hne with hswap | hpos | ⟨t, ht⟩
  · exact absurd hswap hpc
  · exact Or.inr (Or.inl (by rwa [hcounter]))
  · exact Or.inr (Or.inr ⟨t, ht.of_eq hcallers hflag⟩)

/-- When one caller's state changes, the debts of the others stay. -/
lemma Owes.update {t t' : Thread} {c : Caller} (h : l.Owes t) (hne : t ≠ t')
    (hcallers : l'.callers = Function.update l.callers t' c)
    (hflag : l'.callingPendingFactors = l.callingPendingFactors) : l'.Owes t := by
  rw [owes_iff] at h ⊢
  rwa [hcallers, Function.update_of_ne hne, hflag]

/-- After `queueInLoop` there is something that makes the loop take the functor: the caller owes a
wakeup, unless it is a handler, and then the loop is on its way to the swap. -/
lemma covered_queueInLoop {t : Thread} {f : F} (hc : l.Consistent) (hcall : l.CanCall t) :
    (l.queueInLoop t f).Covered := by
  intro _
  have howes : (t ≠ .loop ∨ l.callingPendingFactors = true) → (l.queueInLoop t f).Owes t := by
    intro hwakes
    rw [owes_iff, queueInLoop]
    exact ⟨Function.update_self .., hwakes⟩
  rcases eq_or_ne t .loop with heq | hne
  · rcases hc.inUser_pc (hcall.2 heq) with ⟨active, hpc⟩ | hpc
    · left
      simp [queueInLoop, hpc, Pc.WillSwap]
    · exact Or.inr (Or.inr ⟨t, howes (Or.inr (hc.calling_iff.mpr (Or.inr hpc)))⟩)
  · exact Or.inr (Or.inr ⟨t, howes (Or.inl hne)⟩)

/-- **Every step but a lone wakeup keeps the cover.** -/
lemma covered_step (hc : l.Consistent) (h : l.Covered) (hlone : ¬ l.LoneWakeup a)
    (hstep : l.step a = .ok l') : l'.Covered := by
  cases Step.of_step hstep with
  | push hcall => exact covered_queueInLoop hc hcall
  | @quit t hcall =>
      intro hne
      rcases h hne with hswap | hpos | ⟨t', ht'⟩
      · exact Or.inl hswap
      · exact Or.inr (Or.inl hpos)
      · have hne' : t' ≠ t := by
          rintro rfl
          have hidle := hcall.1
          rw [ht'.1] at hidle
          exact absurd hidle (by simp)
        exact Or.inr (Or.inr ⟨t', ht'.update hne' rfl rfl⟩)
  | @wakeup t hcaller =>
      simp only [wakeup_eq, ite_self]
      intro hne
      rcases h hne with hswap | hpos | ⟨t', ht'⟩
      · exact Or.inl hswap
      · exact Or.inr (Or.inl hpos)
      · by_contra hnone
        -- nothing else is left, so this was the wakeup that was needed
        simp only [not_or, not_exists] at hnone
        obtain ⟨hswap, hzero, howes⟩ := hnone
        have hsame : ∀ u, l.Owes u → u = t := by
          intro u hu
          by_contra hut
          exact howes u (hu.update hut rfl rfl)
        have heq := hsame t' ht'
        subst heq
        exact hlone ⟨hne, hswap, not_not.mp hzero, t', rfl, ht', hsame⟩
  | «return» =>
      intro hne
      rcases h hne with hswap | hpos | ⟨t, ht⟩
      · exact Or.inl hswap
      · exact Or.inr (Or.inl hpos)
      · exact Or.inr (Or.inr ⟨t, ht.of_eq rfl rfl⟩)
  | start hgo hpc => exact h.of_eq (by simp [hpc, Pc.WillSwap]) rfl rfl rfl rfl
  | poll hgo hpc => exact h.of_eq (by simp [hpc, Pc.WillSwap]) rfl rfl rfl rfl
  | exit hgo hpc => exact h.of_eq (by simp [hpc, Pc.WillSwap]) rfl rfl rfl rfl
  | pollReturn => exact fun _ => Or.inl trivial
  | handleRead => exact fun _ => Or.inl trivial
  | handleEvent => exact fun _ => Or.inl trivial
  | enterPending => exact fun _ => Or.inl trivial
  | swap => exact fun hne => absurd rfl hne
  | callFunctor hgo hpc => exact h.of_eq (by simp [hpc, Pc.WillSwap]) rfl rfl rfl rfl
  | leavePending hgo hpc =>
      intro hne
      rcases h hne with hswap | hpos | ⟨t, ht⟩
      · simp [hpc, Pc.WillSwap] at hswap
      · exact Or.inr (Or.inl hpos)
      · -- the flag goes down, but the loop's thread owes nothing here
        have hother : t ≠ .loop := by
          rintro rfl
          have hidle := hgo.2
          rw [ht.1] at hidle
          exact absurd hidle (by simp)
        exact Or.inr (Or.inr ⟨t, owes_iff.mpr ⟨ht.1, Or.inl hother⟩⟩)

/-- **No wakeup is lost in a run without a lone wakeup.**  Whenever the loop is blocked in `poll` or
about to be, with functors pending, the counter is not zero or some caller still has its `wakeup()`
to execute. -/
theorem noLostWakeup_of_no_loneWakeup (as : List (Action F))
    (hsteps : ∀ p ∈ Machine.steps step (create : EventLoop F) as, ¬ p.1.LoneWakeup p.2) :
    ∀ l ∈ Machine.states step (create : EventLoop F) as, l.NoLostWakeup := by
  intro l hl
  have h := Machine.states_invariant_of_steps
    (I := fun l : EventLoop F => l.Consistent ∧ l.Covered) (C := fun l a => ¬ l.LoneWakeup a)
    (fun l a l' hI hC hs => ⟨consistent_step hI.1 hs, covered_step hI.1 hI.2 hC hs⟩)
    ⟨consistent_create, fun hne => absurd rfl hne⟩ hsteps l hl
  exact h.2.noLostWakeup

/-- A functor is queued while the loop is handling an event; the loop comes back to `poll` before the
caller has come to the wakeup. -/
theorem noLostWakeup_of_no_loneWakeup_dispatching :
    ∃ l, Machine.run step (create : EventLoop ℕ)
        [.start, .testLooping, .pollReturn [.other 0], .push (.other 0) 7, .handleEvent, .return,
          .enterPending, .swap, .callFunctor, .return, .leavePending, .testLooping] = .ok l ∧
      l.executed = [(7, 1)] ∧ l.NoLostWakeup := by
  have hrun : (Machine.run step (create : EventLoop ℕ)
      [.start, .testLooping, .pollReturn [.other 0], .push (.other 0) 7, .handleEvent, .return,
        .enterPending, .swap, .callFunctor, .return, .leavePending, .testLooping]).map
      (fun l => l.executed) = .ok [(7, 1)] := by
    decide +kernel
  obtain ⟨l, hl, hexecuted⟩ := Machine.ok_of_map hrun
  refine ⟨l, hl, hexecuted,
    noLostWakeup_of_no_loneWakeup _ ?_ l (Machine.mem_states_of_run hl)⟩
  rintro p hp ⟨-, -, -, t, ha, -⟩
  have hmem := Machine.action_of_mem_steps hp
  rw [ha] at hmem
  simp at hmem

/-- **A lone wakeup leaves the loop uncovered**: functors are pending, and nothing will wake it. -/
theorem not_covered_of_loneWakeup (hlone : l.LoneWakeup a) (hstep : l.step a = .ok l') :
    ¬ l'.Covered := by
  obtain ⟨hne, hswap, hzero, t, rfl, howes, hsame⟩ := hlone
  cases Step.of_step hstep with
  | wakeup hcaller =>
      simp only [wakeup_eq, ite_self]
      intro hcov
      rcases hcov hne with h | h | ⟨t', ht'⟩
      · exact hswap h
      · exact h hzero
      · rw [owes_iff] at ht'
        rcases eq_or_ne t' t with rfl | hne'
        · simp at ht'
        · simp only [Function.update_of_ne hne'] at ht'
          exact hne' (hsame t' (owes_iff.mpr ht'))

/-- **A lost wakeup.**  A functor is queued by another thread while the loop sleeps in `poll`; after the
caller's `wakeup()` the loop still sleeps, the counter is zero, and nobody is left to wake it. -/
theorem not_noLostWakeup :
    ∃ l, Machine.run step (create : EventLoop ℕ)
        [.start, .testLooping, .push (.other 0) 7, .wakeup (.other 0)] = .ok l ∧
      ¬ l.NoLostWakeup := by
  refine ⟨⟨true, false, [7], 0, .polling, false,
    Function.update (Function.update (fun _ => .idle) (.other 0) .queueing) (.other 0) .idle,
    0, [(7, 0)], []⟩, rfl, ?_⟩
  intro h
  rcases h (Or.inl rfl) (List.cons_ne_nil 7 []) with hpos | ⟨t, howes, -⟩
  · exact hpos rfl
  · rcases eq_or_ne t (.other 0) with rfl | hne
    · simp at howes
    · simp [hne] at howes

end EventLoop

end Seenet
