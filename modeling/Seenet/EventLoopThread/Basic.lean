import Seenet.EventLoop.Quit

/-!
# `EventLoopThread`

An `EventLoop` on a thread of its own.  Its owner creates the thread (`startLoop`) and waits until the
thread has published its loop in `m_loop`; the thread then runs `loop()`, and when that has ended it
clears `m_loop`.  The destructor tests `m_loop`, calls `quit` through it, and joins the thread.

A step is one read or write of `m_loop`, one call to the thread library, or a step of the `EventLoop`.
The owner's thread is `Thread.other 0`, and the thread created is `Thread.loop`.  Whoever calls
`queueInLoop` or `quit` has the loop from `startLoop`; a `ThreadInitCallback` is taken to keep it to
itself.

A call through a null pointer is undefined.  Here the owner stays where it is (`Owner.crashed`).
-/

namespace Seenet

/-- Where the owner is. -/
inductive Owner
  /-- before `startLoop` -/
  | idle
  /-- in `m_condVar.wait` -/
  | waiting
  /-- at `return m_loop` -/
  | returning
  /-- after `startLoop` -/
  | started
  /-- in `~EventLoopThread`, at `m_loop != NULL` -/
  | testing
  /-- at `m_loop.get() != NULL` -/
  | testingGet
  /-- at `m_loop->quit()` -/
  | dereferencing
  /-- in `quit` -/
  | quitting
  /-- at `m_thread.join()` -/
  | joining
  /-- after `~EventLoopThread` -/
  | destroyed
  /-- `m_loop->quit()` was called through a null pointer -/
  | crashed
  deriving DecidableEq, Repr

/-- Where `threadFunc` is. -/
inductive ThreadFunc
  /-- the thread has not been created -/
  | notCreated
  /-- before `m_loop = loop` -/
  | constructing
  /-- in `loop->loop()` -/
  | looping
  /-- after `m_loop.reset()` -/
  | ended
  deriving DecidableEq, Repr

structure EventLoopThread (F : Type) where
  existing : Bool
  /-- `m_thread.joinable()` -/
  joinable : Bool
  /-- `m_loop` is not null -/
  loop : Bool
  /-- what `startLoop` has returned is not null -/
  returned : Option Bool
  owner : Owner
  threadFunc : ThreadFunc
  /-- the loop that `threadFunc` creates -/
  eventLoop : EventLoop F

namespace EventLoopThread

variable {F : Type}

/-- `EventLoopThread::EventLoopThread` -/
def create : EventLoopThread F :=
  ⟨false, false, false, none, .idle, .notCreated, .create⟩

/-- The thread of the owner. -/
def ownThread : Thread := .other 0

inductive Action (F : Type)
  /-- `startLoop`, until the thread has been created -/
  | startLoop
  /-- `m_condVar.wait` returns -/
  | waited
  /-- `return m_loop` -/
  | returnLoop
  /-- `threadFunc`, until `m_loop` is published -/
  | publish
  /-- a step of the loop, or of a thread that calls it -/
  | loop (a : EventLoop.Action F)
  /-- `m_loop.reset()`, and the end of `threadFunc` -/
  | reset
  /-- `~EventLoopThread` is called -/
  | destroy
  | testLoop
  | testGet
  /-- `m_loop->quit()`, until the flag is stored -/
  | quit
  /-- the rest of `quit` -/
  | quitReturns
  | join
  deriving DecidableEq, Repr

/-- The call can be made: the thread has the loop from `startLoop`, and if it is the owner's, it is in
neither `startLoop` nor `~EventLoopThread`. -/
def MayCall (s : EventLoopThread F) (t : Thread) : Prop :=
  s.returned = some true ∧ (t = ownThread → s.owner = .started)

/-- The thread that makes a step of the loop is there to make it. -/
def MayStep (s : EventLoopThread F) : EventLoop.Action F → Prop
  | .push t _ => s.MayCall t ∧ (t = .loop → s.threadFunc = .looping)
  | .quit t => s.MayCall t ∧ (t = .loop → s.threadFunc = .looping)
  | .wakeup t => (t = ownThread → s.owner = .started) ∧ (t = .loop → s.threadFunc = .looping)
  | _ => s.threadFunc = .looping

instance (s : EventLoopThread F) (t : Thread) : Decidable (s.MayCall t) :=
  inferInstanceAs (Decidable (_ ∧ _))

instance (s : EventLoopThread F) : (a : EventLoop.Action F) → Decidable (s.MayStep a)
  | .push t _ | .quit t =>
      inferInstanceAs (Decidable (s.MayCall t ∧ (t = .loop → s.threadFunc = .looping)))
  | .wakeup t => inferInstanceAs (Decidable
      ((t = ownThread → s.owner = .started) ∧ (t = .loop → s.threadFunc = .looping)))
  | .start | .testLooping | .pollReturn _ | .handleEvent | .return | .enterPending | .swap
  | .callFunctor | .leavePending => inferInstanceAs (Decidable (s.threadFunc = .looping))

/-- One step of one thread. -/
def step (s : EventLoopThread F) : Action F → Res (EventLoopThread F)
  | .startLoop =>
      if s.owner = .idle then do
        assertThat (s.joinable = false) .startLoop
        return { s with joinable := true, owner := .waiting, threadFunc := .constructing }
      else .error .disabled
  | .waited =>
      if s.owner = .waiting ∧ s.loop = true then .ok { s with owner := .returning }
      else .error .disabled
  | .returnLoop =>
      if s.owner = .returning then .ok { s with returned := some s.loop, owner := .started }
      else .error .disabled
  | .publish =>
      if s.threadFunc = .constructing then .ok { s with loop := true, threadFunc := .looping }
      else .error .disabled
  | .loop a =>
      if s.MayStep a then do
        let eventLoop ← s.eventLoop.step a
        return { s with eventLoop := eventLoop }
      else .error .disabled
  | .reset =>
      match s.threadFunc, s.eventLoop.pc with
      | .looping, .exited => .ok { s with loop := false, threadFunc := .ended }
      | _, _ => .error .disabled
  | .destroy =>
      if (s.owner = .idle ∨ s.owner = .started) ∧ s.eventLoop.callers ownThread = .idle then
        .ok { s with existing := true, owner := .testing }
      else .error .disabled
  | .testLoop =>
      if s.owner = .testing then
        .ok { s with owner := if s.loop then .testingGet else .destroyed }
      else .error .disabled
  | .testGet =>
      if s.owner = .testingGet then
        .ok { s with owner := if s.loop then .dereferencing else .destroyed }
      else .error .disabled
  | .quit =>
      if s.owner = .dereferencing then
        if s.loop then do
          let eventLoop ← s.eventLoop.step (.quit ownThread)
          return { s with owner := .quitting, eventLoop := eventLoop }
        else .ok { s with owner := .crashed }
      else .error .disabled
  | .quitReturns =>
      if s.owner = .quitting then do
        let eventLoop ← s.eventLoop.step (.wakeup ownThread)
        return { s with owner := .joining, eventLoop := eventLoop }
      else .error .disabled
  | .join =>
      if s.owner = .joining ∧ s.threadFunc = .ended then
        .ok { s with joinable := false, owner := .destroyed }
      else .error .disabled

/-! ## What a step can do -/

/-- The steps, by what they need and what they do. -/
inductive Step : EventLoopThread F → Action F → EventLoopThread F → Prop
  | startLoop {s} (howner : s.owner = .idle) (hjoinable : s.joinable = false) :
      Step s .startLoop
        { s with joinable := true, owner := .waiting, threadFunc := .constructing }
  | waited {s} (howner : s.owner = .waiting) (hloop : s.loop = true) :
      Step s .waited { s with owner := .returning }
  | returnLoop {s} (howner : s.owner = .returning) :
      Step s .returnLoop { s with returned := some s.loop, owner := .started }
  | publish {s} (hfunc : s.threadFunc = .constructing) :
      Step s .publish { s with loop := true, threadFunc := .looping }
  | loop {s a l} (hmay : s.MayStep a) (hstep : s.eventLoop.step a = .ok l) :
      Step s (.loop a) { s with eventLoop := l }
  | reset {s} (hfunc : s.threadFunc = .looping) (hpc : s.eventLoop.pc = .exited) :
      Step s .reset { s with loop := false, threadFunc := .ended }
  | destroy {s} (howner : s.owner = .idle ∨ s.owner = .started)
      (hcaller : s.eventLoop.callers ownThread = .idle) :
      Step s .destroy { s with existing := true, owner := .testing }
  | testLoop {s} (howner : s.owner = .testing) :
      Step s .testLoop { s with owner := if s.loop then .testingGet else .destroyed }
  | testGet {s} (howner : s.owner = .testingGet) :
      Step s .testGet { s with owner := if s.loop then .dereferencing else .destroyed }
  | quit {s l} (howner : s.owner = .dereferencing) (hloop : s.loop = true)
      (hstep : s.eventLoop.step (.quit ownThread) = .ok l) :
      Step s .quit { s with owner := .quitting, eventLoop := l }
  | crash {s} (howner : s.owner = .dereferencing) (hloop : s.loop = false) :
      Step s .quit { s with owner := .crashed }
  | quitReturns {s l} (howner : s.owner = .quitting)
      (hstep : s.eventLoop.step (.wakeup ownThread) = .ok l) :
      Step s .quitReturns { s with owner := .joining, eventLoop := l }
  | join {s} (howner : s.owner = .joining) (hfunc : s.threadFunc = .ended) :
      Step s .join { s with joinable := false, owner := .destroyed }

/-- **Inversion of a step.** -/
lemma Step.of_step {s s' : EventLoopThread F} {a : Action F} (h : s.step a = .ok s') :
    Step s a s' := by
  cases a with
  | startLoop =>
      simp only [step, guard_eq_ok, bind_eq_ok, assertThat_eq_ok, pure_eq_ok, Except.ok.injEq] at h
      obtain ⟨howner, -, hjoinable, rfl⟩ := h
      exact .startLoop howner hjoinable
  | waited =>
      simp only [step, guard_eq_ok, Except.ok.injEq] at h
      obtain ⟨⟨howner, hloop⟩, rfl⟩ := h
      exact .waited howner hloop
  | returnLoop =>
      simp only [step, guard_eq_ok, Except.ok.injEq] at h
      obtain ⟨howner, rfl⟩ := h
      exact .returnLoop howner
  | publish =>
      simp only [step, guard_eq_ok, Except.ok.injEq] at h
      obtain ⟨hfunc, rfl⟩ := h
      exact .publish hfunc
  | loop a =>
      simp only [step, guard_eq_ok, bind_eq_ok, pure_eq_ok, Except.ok.injEq] at h
      obtain ⟨hmay, l, hstep, rfl⟩ := h
      exact .loop hmay hstep
  | reset =>
      simp only [step] at h
      split at h
      · rename_i hfunc hpc
        cases h
        exact .reset hfunc hpc
      · simp at h
  | destroy =>
      simp only [step, guard_eq_ok, Except.ok.injEq] at h
      obtain ⟨⟨howner, hcaller⟩, rfl⟩ := h
      exact .destroy howner hcaller
  | testLoop =>
      simp only [step, guard_eq_ok, Except.ok.injEq] at h
      obtain ⟨howner, rfl⟩ := h
      exact .testLoop howner
  | testGet =>
      simp only [step, guard_eq_ok, Except.ok.injEq] at h
      obtain ⟨howner, rfl⟩ := h
      exact .testGet howner
  | quit =>
      simp only [step, guard_eq_ok] at h
      obtain ⟨howner, h⟩ := h
      split_ifs at h with hloop
      · simp only [bind_eq_ok, pure_eq_ok, Except.ok.injEq] at h
        obtain ⟨l, hstep, rfl⟩ := h
        exact .quit howner hloop hstep
      · rw [Except.ok.injEq] at h
        rw [← h]
        exact .crash howner (by simpa using hloop)
  | quitReturns =>
      simp only [step, guard_eq_ok, bind_eq_ok, pure_eq_ok, Except.ok.injEq] at h
      obtain ⟨howner, l, hstep, rfl⟩ := h
      exact .quitReturns howner hstep
  | join =>
      simp only [step, guard_eq_ok, Except.ok.injEq] at h
      obtain ⟨⟨howner, hfunc⟩, rfl⟩ := h
      exact .join howner hfunc

end EventLoopThread

end Seenet
