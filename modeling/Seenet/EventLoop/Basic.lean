import Seenet.Kernel
import Seenet.Lib.Machine
import Mathlib.Logic.Function.Basic

/-!
# `EventLoop`

The rounds of `EventLoop::loop` on the loop's own thread, interleaved with `queueInLoop` and `quit` on
any thread.  A step is what a thread does between two points where another thread can see it:
`queueInLoop` and `quit` are two steps each, the change and the conditional `wakeup()`; a round of
`loop` is one step for the test of `m_bLooping`, for the return of `poll`, for each handler and each
functor, and for the swap.

What handlers and functors do is not said, but that they may call `queueInLoop` and `quit`: a step
enters user code, and until another one returns from it (`inUser`) the loop's thread may make such
calls.

The account at the end of the state is not in the source: the functors pushed and the functors
called, each with the number of swaps done by then.
-/

namespace Seenet

/-- The loop's own thread, and all others. -/
inductive Thread
  | loop
  | other (n : ℕ)
  deriving DecidableEq, Repr

/-- What a thread still has to do: nothing, the second half of `queueInLoop`, or that of `quit`. -/
inductive Caller
  | idle
  | queueing
  | quitting
  deriving DecidableEq, Repr

/-- The active channels of a round: the wakeup channel, and others. -/
inductive Active
  | wakeupChannel
  | other (n : ℕ)
  deriving DecidableEq, Repr

/-- Where the loop's thread is. -/
inductive Pc (F : Type)
  /-- before `loop()` -/
  | notStarted
  /-- at `while(m_bLooping.load())` -/
  | whileTest
  /-- in `m_poller->poll` -/
  | polling
  /-- in the loop over the active channels, with these to go -/
  | dispatching (active : List Active)
  /-- in `doPendingFunctors`, before the swap -/
  | entering
  /-- in `doPendingFunctors`, with these to go -/
  | running (functors : List F)
  /-- after `loop()` -/
  | exited
  deriving DecidableEq, Repr

structure EventLoop (F : Type) where
  looping : Bool
  callingPendingFactors : Bool
  pendingFunctors : List F
  /-- the counter of the `eventfd` -/
  wakeupFd : ℕ
  pc : Pc F
  inUser : Bool
  callers : Thread → Caller
  -- the account
  swaps : ℕ
  pushed : List (F × ℕ)
  executed : List (F × ℕ)

namespace EventLoop

variable {F : Type}

/-- `EventLoop::EventLoop` -/
def create : EventLoop F :=
  ⟨false, false, [], 0, .notStarted, false, fun _ => .idle, 0, [], []⟩

/-! ## The `eventfd` -/

/-- `sizeof(uint16_t)`, the size of what `wakeup` writes -/
def sizeofOne : ℕ := 2

/-- `sizeof(uint64_t)`, the size of what `handleRead` reads -/
def sizeofCounter : ℕ := 8

/-- `EventLoop::wakeup` -/
def wakeup (l : EventLoop F) : EventLoop F :=
  match eventfdWrite sizeofOne 1 l.wakeupFd with
  | .ok counter => { l with wakeupFd := counter }
  | .error _ => l

/-- `EventLoop::handleRead` -/
def handleRead (l : EventLoop F) : EventLoop F :=
  match eventfdRead sizeofCounter l.wakeupFd with
  | .ok (_, counter) => { l with wakeupFd := counter }
  | .error _ => l

/-! ## Steps -/

inductive Action (F : Type)
  /-- `queueInLoop`, until the lock is released -/
  | push (t : Thread) (f : F)
  /-- `quit`, until the flag is stored -/
  | quit (t : Thread)
  /-- the rest of `queueInLoop` or `quit` -/
  | wakeup (t : Thread)
  /-- `loop()` is called -/
  | start
  | testLooping
  | pollReturn (active : List Active)
  | handleEvent
  /-- user code returns -/
  | return
  | enterPending
  | swap
  | callFunctor
  | leavePending
  deriving DecidableEq, Repr

/-- A thread can make a call: it is not in the middle of another one, and the loop's thread is in user
code. -/
def CanCall (l : EventLoop F) (t : Thread) : Prop :=
  l.callers t = .idle ∧ (t = .loop → l.inUser = true)

/-- The loop's thread can go on in `loop()`: it is not in user code. -/
def CanGoOn (l : EventLoop F) : Prop := l.inUser = false ∧ l.callers .loop = .idle

instance (l : EventLoop F) (t : Thread) : Decidable (l.CanCall t) := inferInstanceAs (Decidable (_ ∧ _))

instance (l : EventLoop F) : Decidable l.CanGoOn := inferInstanceAs (Decidable (_ ∧ _))

def queueInLoop (l : EventLoop F) (t : Thread) (f : F) : EventLoop F :=
  { l with
    pendingFunctors := l.pendingFunctors ++ [f]
    pushed := l.pushed ++ [(f, l.swaps)]
    callers := Function.update l.callers t .queueing }

/-- The condition under which the second half of a call writes to the `eventfd`. -/
def wakes (l : EventLoop F) (t : Thread) : Bool :=
  match l.callers t with
  | .queueing => decide (t ≠ .loop) || l.callingPendingFactors
  | .quitting => decide (t ≠ .loop)
  | .idle => false

/-- A step of the loop's thread in `loop()`. -/
def loopStep (l : EventLoop F) : Action F → Res (EventLoop F)
  | .start =>
      match l.pc with
      | .notStarted => do
          assertThat (l.looping = false) .loop
          return { l with looping := true, pc := .whileTest }
      | _ => .error .disabled
  | .testLooping =>
      match l.pc with
      | .whileTest =>
          if l.looping then .ok { l with pc := .polling }
          else .ok { l with looping := false, pc := .exited }
      | _ => .error .disabled
  | .pollReturn active =>
      match l.pc with
      -- the wakeup channel is reported exactly while the counter is not zero
      | .polling =>
          if Active.wakeupChannel ∈ active ↔ l.wakeupFd ≠ 0 then
            .ok { l with pc := .dispatching active }
          else .error .disabled
      | _ => .error .disabled
  | .handleEvent =>
      match l.pc with
      | .dispatching (.wakeupChannel :: active) =>
          .ok { l.handleRead with pc := .dispatching active }
      | .dispatching (.other _ :: active) =>
          .ok { l with pc := .dispatching active, inUser := true }
      | _ => .error .disabled
  | .enterPending =>
      match l.pc with
      | .dispatching [] => .ok { l with callingPendingFactors := true, pc := .entering }
      | _ => .error .disabled
  | .swap =>
      match l.pc with
      | .entering =>
          .ok { l with pendingFunctors := [], pc := .running l.pendingFunctors, swaps := l.swaps + 1 }
      | _ => .error .disabled
  | .callFunctor =>
      match l.pc with
      | .running (f :: functors) =>
          .ok { l with
            pc := .running functors, inUser := true, executed := l.executed ++ [(f, l.swaps)] }
      | _ => .error .disabled
  | .leavePending =>
      match l.pc with
      | .running [] => .ok { l with callingPendingFactors := false, pc := .whileTest }
      | _ => .error .disabled
  | _ => .error .disabled

/-- One step of one thread. -/
def step (l : EventLoop F) : Action F → Res (EventLoop F)
  | .push t f => if l.CanCall t then .ok (l.queueInLoop t f) else .error .disabled
  | .quit t =>
      if l.CanCall t then
        .ok { l with looping := false, callers := Function.update l.callers t .quitting }
      else .error .disabled
  | .wakeup t =>
      if l.callers t = .idle then .error .disabled
      else
        let l' := if l.wakes t then l.wakeup else l
        .ok { l' with callers := Function.update l.callers t .idle }
  | .return =>
      if l.inUser = true ∧ l.callers .loop = .idle then .ok { l with inUser := false }
      else .error .disabled
  | a => if l.CanGoOn then l.loopStep a else .error .disabled

/-! ## What a step can do -/

/-- The steps, by what they need and what they do. -/
inductive Step : EventLoop F → Action F → EventLoop F → Prop
  | push {l t f} (hcall : l.CanCall t) : Step l (.push t f) (l.queueInLoop t f)
  | quit {l t} (hcall : l.CanCall t) :
      Step l (.quit t) { l with looping := false, callers := Function.update l.callers t .quitting }
  | wakeup {l t} (hcaller : l.callers t ≠ .idle) :
      Step l (.wakeup t)
        { (if l.wakes t then l.wakeup else l) with callers := Function.update l.callers t .idle }
  | return {l} (huser : l.inUser = true) (hcaller : l.callers .loop = .idle) :
      Step l .return { l with inUser := false }
  | start {l} (hgo : l.CanGoOn) (hpc : l.pc = .notStarted) (hlooping : l.looping = false) :
      Step l .start { l with looping := true, pc := .whileTest }
  | poll {l} (hgo : l.CanGoOn) (hpc : l.pc = .whileTest) (hlooping : l.looping = true) :
      Step l .testLooping { l with pc := .polling }
  | exit {l} (hgo : l.CanGoOn) (hpc : l.pc = .whileTest) (hlooping : l.looping = false) :
      Step l .testLooping { l with looping := false, pc := .exited }
  | pollReturn {l active} (hgo : l.CanGoOn) (hpc : l.pc = .polling)
      (hready : Active.wakeupChannel ∈ active ↔ l.wakeupFd ≠ 0) :
      Step l (.pollReturn active) { l with pc := .dispatching active }
  | handleRead {l active} (hgo : l.CanGoOn) (hpc : l.pc = .dispatching (.wakeupChannel :: active)) :
      Step l .handleEvent { l.handleRead with pc := .dispatching active }
  | handleEvent {l n active} (hgo : l.CanGoOn) (hpc : l.pc = .dispatching (.other n :: active)) :
      Step l .handleEvent { l with pc := .dispatching active, inUser := true }
  | enterPending {l} (hgo : l.CanGoOn) (hpc : l.pc = .dispatching []) :
      Step l .enterPending { l with callingPendingFactors := true, pc := .entering }
  | swap {l} (hgo : l.CanGoOn) (hpc : l.pc = .entering) :
      Step l .swap
        { l with pendingFunctors := [], pc := .running l.pendingFunctors, swaps := l.swaps + 1 }
  | callFunctor {l f functors} (hgo : l.CanGoOn) (hpc : l.pc = .running (f :: functors)) :
      Step l .callFunctor
        { l with
          pc := .running functors, inUser := true, executed := l.executed ++ [(f, l.swaps)] }
  | leavePending {l} (hgo : l.CanGoOn) (hpc : l.pc = .running []) :
      Step l .leavePending { l with callingPendingFactors := false, pc := .whileTest }

/-- **Inversion of a step.** -/
lemma Step.of_step {l l' : EventLoop F} {a : Action F} (h : l.step a = .ok l') : Step l a l' := by
  cases a with
  | push t f =>
      simp only [step, guard_eq_ok, Except.ok.injEq] at h
      obtain ⟨hcall, rfl⟩ := h
      exact .push hcall
  | quit t =>
      simp only [step, guard_eq_ok, Except.ok.injEq] at h
      obtain ⟨hcall, rfl⟩ := h
      exact .quit hcall
  | wakeup t =>
      simp only [step] at h
      split at h
      · simp at h
      · rename_i hcaller
        cases h
        exact .wakeup hcaller
  | «return» =>
      simp only [step, guard_eq_ok, Except.ok.injEq] at h
      obtain ⟨⟨huser, hcaller⟩, rfl⟩ := h
      exact .return huser hcaller
  | start =>
      simp only [step, loopStep, guard_eq_ok] at h
      obtain ⟨hgo, h⟩ := h
      split at h
      · rename_i hpc
        simp only [bind_eq_ok, assertThat_eq_ok, pure_eq_ok, Except.ok.injEq] at h
        obtain ⟨-, hlooping, rfl⟩ := h
        exact .start hgo hpc hlooping
      · simp at h
  | testLooping =>
      simp only [step, loopStep, guard_eq_ok] at h
      obtain ⟨hgo, h⟩ := h
      split at h
      · rename_i hpc
        split at h
        · rename_i hlooping
          cases h
          exact .poll hgo hpc hlooping
        · rename_i hlooping
          cases h
          exact .exit hgo hpc (by simpa using hlooping)
      · simp at h
  | pollReturn active =>
      simp only [step, loopStep, guard_eq_ok] at h
      obtain ⟨hgo, h⟩ := h
      split at h
      · rename_i hpc
        simp only [guard_eq_ok, Except.ok.injEq] at h
        obtain ⟨hready, rfl⟩ := h
        exact .pollReturn hgo hpc hready
      · simp at h
  | handleEvent =>
      simp only [step, loopStep, guard_eq_ok] at h
      obtain ⟨hgo, h⟩ := h
      split at h
      · rename_i hpc
        cases h
        exact .handleRead hgo hpc
      · rename_i hpc
        cases h
        exact .handleEvent hgo hpc
      · simp at h
  | enterPending =>
      simp only [step, loopStep, guard_eq_ok] at h
      obtain ⟨hgo, h⟩ := h
      split at h
      · rename_i hpc
        cases h
        exact .enterPending hgo hpc
      · simp at h
  | swap =>
      simp only [step, loopStep, guard_eq_ok] at h
      obtain ⟨hgo, h⟩ := h
      split at h
      · rename_i hpc
        cases h
        exact .swap hgo hpc
      · simp at h
  | callFunctor =>
      simp only [step, loopStep, guard_eq_ok] at h
      obtain ⟨hgo, h⟩ := h
      split at h
      · rename_i hpc
        cases h
        exact .callFunctor hgo hpc
      · simp at h
  | leavePending =>
      simp only [step, loopStep, guard_eq_ok] at h
      obtain ⟨hgo, h⟩ := h
      split at h
      · rename_i hpc
        cases h
        exact .leavePending hgo hpc
      · simp at h

/-! ## What wakes the loop -/

/-- **A wakeup does nothing.**  What is written is shorter than the counter, and the kernel refuses
it. -/
@[simp] lemma wakeup_eq (l : EventLoop F) : l.wakeup = l := rfl

/-- `handleRead` changes the counter only. -/
lemma handleRead_eq (l : EventLoop F) :
    l.handleRead = { l with wakeupFd := l.handleRead.wakeupFd } := by
  rw [handleRead]
  split <;> rfl

end EventLoop

end Seenet
