import Seenet.EventLoop.Basic
import Seenet.Lib.BatchQueue

/-!
# The functors of a loop

To its functors an `EventLoop` is a task queue served in batches (`abs`): `queueInLoop` pushes, the
swap takes a batch, and a functor called starts a task.  No other step touches the queue, so every
step of the loop is at most one step of the queue (`step_simulates`), and the account of the queue is
that of the loop.

* **`functors_accounted`** — no functor is lost, duplicated or called out of turn, and one pushed while
  a batch is run waits for a later one.
-/

namespace Seenet

namespace EventLoop

variable {F : Type} {l l' : EventLoop F} {a : Action F}

/-- What is left of the batch being run. -/
def Pc.batch : Pc F → List F
  | .running functors => functors
  | _ => []

/-- The queue a loop is to its functors. -/
def abs (l : EventLoop F) : BatchQueue F :=
  ⟨l.pendingFunctors, Pc.batch l.pc, l.swaps, l.pushed, l.executed⟩

/-- A step leaves the queue alone, or is one step of it. -/
lemma step_simulates (h : l.step a = .ok l') :
    ∃ bs, Machine.run BatchQueue.step l.abs bs = .ok l'.abs := by
  have hone : ∀ b, l.abs.step b = .ok l'.abs →
      ∃ bs, Machine.run BatchQueue.step l.abs bs = .ok l'.abs := by
    intro b hb
    exact ⟨[b], by rw [Machine.run_cons_ok hb, Machine.run_nil]⟩
  have hnone : l'.abs = l.abs → ∃ bs, Machine.run BatchQueue.step l.abs bs = .ok l'.abs :=
    fun heq => ⟨[], by rw [heq, Machine.run_nil]⟩
  cases Step.of_step h with
  | @push t f => exact hone (.push f) rfl
  | quit => exact hnone rfl
  | wakeup => exact hnone (by simp [abs])
  | «return» => exact hnone rfl
  | start hgo hpc => exact hnone (by simp [abs, hpc, Pc.batch])
  | poll hgo hpc => exact hnone (by simp [abs, hpc, Pc.batch])
  | exit hgo hpc => exact hnone (by simp [abs, hpc, Pc.batch])
  | pollReturn hgo hpc => exact hnone (by simp [abs, hpc, Pc.batch])
  | handleRead hgo hpc => exact hnone (by rw [handleRead_eq]; simp [abs, hpc, Pc.batch])
  | handleEvent hgo hpc => exact hnone (by simp [abs, hpc, Pc.batch])
  | enterPending hgo hpc => exact hnone (by simp [abs, hpc, Pc.batch])
  | swap hgo hpc => exact hone .take (by simp [abs, hpc, Pc.batch, BatchQueue.step, BatchQueue.take])
  | callFunctor hgo hpc =>
      exact hone .start (by simp [abs, hpc, Pc.batch, BatchQueue.step, BatchQueue.start])
  | leavePending hgo hpc => exact hnone (by simp [abs, hpc, Pc.batch])

/-- In every state of every run the account of the queue balances. -/
lemma balanced_states (as : List (Action F)) :
    ∀ l ∈ Machine.states step (create : EventLoop F) as, l.abs.Balanced := by
  intro l hl
  obtain ⟨bs, hbs⟩ := Machine.simulation (I := fun _ => True) (fun _ _ _ _ _ => trivial)
    (fun _ _ _ _ h => step_simulates h) trivial l hl
  exact BatchQueue.balanced_of_run BatchQueue.balanced_empty hbs

/-- **No functor is lost, duplicated or called out of turn.**  At every moment the functors called, then
the rest of the batch, then the pending ones are all the functors pushed, in the order they were
pushed.  The `k`-th functor called is the `k`-th pushed, and the swap that took it is the first one
after it was pushed; so a functor pushed while a batch is run waits for a later round. -/
theorem functors_accounted (as : List (Action F)) :
    ∀ l ∈ Machine.states step (create : EventLoop F) as,
      l.executed.map Prod.fst ++ Pc.batch l.pc ++ l.pendingFunctors = l.pushed.map Prod.fst ∧
      ∀ (k : ℕ) (f : F) (called : ℕ), l.executed[k]? = some (f, called) →
        ∃ queued : ℕ, l.pushed[k]? = some (f, queued) ∧ called = queued + 1 := by
  intro l hl
  have h := balanced_states as l hl
  exact ⟨h.tasks_eq, fun k f called hk => h.executed_epoch hk⟩

/-- A functor is queued before the swap, and another one while the first one runs. -/
theorem functors_accounted_two_rounds :
    ∃ l, Machine.run step (create : EventLoop ℕ)
        [.start, .testLooping, .pollReturn [], .push (.other 0) 7, .enterPending, .swap,
          .callFunctor, .push .loop 8] = .ok l ∧
      l.executed.map Prod.fst ++ Pc.batch l.pc ++ l.pendingFunctors = [7, 8] ∧
      ∃ queued : ℕ, l.pushed[0]? = some (7, queued) ∧ 1 = queued + 1 := by
  have hrun : (Machine.run step (create : EventLoop ℕ)
      [.start, .testLooping, .pollReturn [], .push (.other 0) 7, .enterPending, .swap,
        .callFunctor, .push .loop 8]).map (fun l => (l.executed, l.pushed.map Prod.fst))
      = .ok ([(7, 1)], [7, 8]) := by
    decide +kernel
  obtain ⟨l, hl, hobs⟩ := Machine.ok_of_map hrun
  rw [Prod.mk.injEq] at hobs
  obtain ⟨htasks, hepoch⟩ := functors_accounted _ l (Machine.mem_states_of_run hl)
  exact ⟨l, hl, htasks.trans hobs.2, hepoch 0 7 1 (by rw [hobs.1]; rfl)⟩

end EventLoop

end Seenet
