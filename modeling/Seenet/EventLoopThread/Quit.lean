import Seenet.EventLoopThread.Protocol

/-!
# Quitting a loop's thread

`startLoop` returns the loop as soon as the thread has published it, and `loop()` raises its flag only
after that.  A `quit` in between lowers a flag that `loop()` then raises.

* `Holds` — every later test of the flag finds it down, and the thread can come to its end, which is what
  the destructor waits for.
* **`quit_holds_iff`** — a `quit` holds exactly when `loop()` has raised its flag before.
* **`quit_lost`** — a destructor that waits for a loop that goes on.
-/

namespace Seenet

namespace EventLoopThread

variable {F : Type} {s s' : EventLoopThread F} {a : Action F}

/-- The step executes `quit()` of the loop, until the flag is stored: in the destructor, or on any thread
that has the loop. -/
def Quits (s : EventLoopThread F) (a : Action F) : Prop :=
  (a = .quit ∧ s.loop = true) ∨ ∃ t, a = .loop (.quit t)

/-- What the thread does by itself. -/
def Action.Own : Action F → Prop
  | .loop a => a.Own
  | .reset => True
  | _ => False

/-- **The loop has been told to quit for good.**  Whatever happens from here on, `loop()` finds its flag
down whenever it tests it, and the thread can come to its end by itself. -/
def Holds (s : EventLoopThread F) : Prop :=
  ∀ as, (∀ p ∈ Machine.steps step s as,
      p.2 = .loop .testLooping → p.1.eventLoop.looping = false) ∧
    ∀ s', Machine.run step s as = .ok s' →
      ∃ s'', Machine.ReachesBy step Action.Own s' s'' ∧ s''.threadFunc = .ended

/-- The loop is running with its flag down, or has ended. -/
structure Quitting (s : EventLoopThread F) : Prop where
  sound : s.Sound
  started : s.Started
  quitted : s.eventLoop.Quitted

lemma Quitting.step (h : s.Quitting) (hstep : s.step a = .ok s') : s'.Quitting := by
  refine ⟨h.sound.step hstep, ?_, ?_⟩
  · have hfunc := h.started.1
    cases Step.of_step hstep with
    | startLoop howner =>
        have hs := h.sound.owner
        simp only [OwnerSound, howner, Unstarted] at hs
        simp [hs.1] at hfunc
    | returnLoop howner =>
        have hs := h.sound.owner
        simp only [OwnerSound, howner] at hs
        exact ⟨hfunc, by simp [h.sound.loop_iff.mpr hs.1]⟩
    | publish hcon => simp [hcon] at hfunc
    | reset => exact ⟨Or.inr rfl, h.started.2⟩
    | _ => exact h.started
  · cases Step.of_step hstep with
    | loop hmay hb => exact EventLoop.quitted_step h.quitted hb
    | quit howner hloop hb => exact EventLoop.quitted_step h.quitted hb
    | quitReturns howner hb => exact EventLoop.quitted_step h.quitted hb
    | _ => exact h.quitted

/-- A step of its own of the loop is one of the thread. -/
lemma step_loop {e : EventLoopThread F} (hfunc : e.threadFunc = .looping) {l l' : EventLoop F}
    {b : EventLoop.Action F} (hown : b.Own) (hstep : l.step b = .ok l') :
    step { e with eventLoop := l } (.loop b) = .ok { e with eventLoop := l' } := by
  have hmay : MayStep { e with eventLoop := l } b := by
    cases b with
    | push t f => exact absurd hown id
    | quit t => exact absurd hown id
    | wakeup t =>
        have ht : t = .loop := hown
        exact ⟨fun hne => by simp [ht, ownThread] at hne, fun _ => hfunc⟩
    | _ => exact hfunc
  simp only [EventLoopThread.step, if_pos hmay, hstep, bind_ok, pure_eq_ok]

/-- The thread can come to its end. -/
lemma Quitting.ends (h : s.Quitting) :
    ∃ s', Machine.ReachesBy EventLoopThread.step Action.Own s s' ∧ s'.threadFunc = .ended := by
  rcases h.started.1 with hfunc | hended
  · obtain ⟨l, hreach, hexited⟩ := h.quitted.ends
    have hlift : Machine.ReachesBy EventLoopThread.step Action.Own s { s with eventLoop := l } :=
      hreach.map (fun l => { s with eventLoop := l }) Action.loop
        fun l₁ b l₂ hown hb => ⟨hown, step_loop hfunc hown hb⟩
    have hreset : EventLoopThread.step { s with eventLoop := l } .reset
        = .ok { s with eventLoop := l, loop := false, threadFunc := .ended } := by
      simp only [EventLoopThread.step, hfunc, hexited]
    have hown : (Action.reset : Action F).Own := trivial
    exact ⟨_, hlift.trans (.of_step hown hreset), rfl⟩
  · exact ⟨s, .refl s, hended⟩

lemma Quitting.holds (h : s.Quitting) : s.Holds := by
  intro as
  constructor
  · intro p hp htest
    have hstate := Machine.state_of_mem_steps hp
    exact (Machine.states_invariant (fun _ _ _ h hs => Quitting.step h hs) h _ hstate).quitted.2
  · intro s' hrun
    exact (Machine.run_invariant (fun _ _ _ h hs => Quitting.step h hs) h hrun).ends

/-! ## A `quit` that is lost -/

/-- A `quit` is executed by a thread that has the loop. -/
lemma Sound.started_of_quits (h : s.Sound) (hquits : s.Quits a) (hstep : s.step a = .ok s') :
    s.Started := by
  rcases hquits with ⟨rfl, hloop⟩ | ⟨t, rfl⟩
  · have hs := h.owner
    cases Step.of_step hstep with
    | quit howner => simpa only [OwnerSound, howner] using hs
    | crash howner => simpa only [OwnerSound, howner] using hs
  · cases Step.of_step hstep with
    | loop hmay => exact h.owner.started_of_returned hmay.1.1

/-- It lowers the flag, and changes nothing else that matters to `loop()`. -/
lemma Quits.spec (hquits : s.Quits a) (hstep : s.step a = .ok s') :
    s'.eventLoop.looping = false ∧ s'.eventLoop.pc = s.eventLoop.pc ∧
      s'.threadFunc = s.threadFunc ∧ s'.returned = s.returned := by
  have hquit : ∀ {t : Thread} {l : EventLoop F}, s.eventLoop.step (.quit t) = .ok l →
      l.looping = false ∧ l.pc = s.eventLoop.pc := by
    intro t l hl
    cases EventLoop.Step.of_step hl with
    | quit => exact ⟨rfl, rfl⟩
  rcases hquits with ⟨rfl, hloop⟩ | ⟨t, rfl⟩
  · cases Step.of_step hstep with
    | quit howner hset hl => exact ⟨(hquit hl).1, (hquit hl).2, rfl, rfl⟩
    | crash howner hnull => simp [hloop] at hnull
  · cases Step.of_step hstep with
    | loop hmay hl => exact ⟨(hquit hl).1, (hquit hl).2, rfl, rfl⟩

/-- `loop()` raises its flag, and finds it up. -/
lemma Sound.not_holds (h : s.Sound) (hfunc : s.threadFunc = .looping)
    (hpc : s.eventLoop.pc = .notStarted) : ¬ s.Holds := by
  intro hholds
  obtain ⟨hgo, hdown⟩ := h.fresh hpc
  have hstart : s.step (.loop .start)
      = .ok { s with eventLoop := { s.eventLoop with looping := true, pc := .whileTest } } := by
    have hmay : s.MayStep .start := hfunc
    have hl : s.eventLoop.step .start
        = .ok { s.eventLoop with looping := true, pc := .whileTest } := by
      simp only [EventLoop.step, if_pos hgo, EventLoop.loopStep, hpc, assertThat_pos hdown, bind_ok,
        pure_eq_ok]
    simp only [EventLoopThread.step, if_pos hmay, hl, bind_ok, pure_eq_ok]
  have htest : EventLoopThread.step
      { s with eventLoop := { s.eventLoop with looping := true, pc := .whileTest } }
      (.loop .testLooping)
      = .ok { s with eventLoop := { s.eventLoop with looping := true, pc := .polling } } := by
    have hmay : MayStep { s with
        eventLoop := { s.eventLoop with looping := true, pc := .whileTest } } .testLooping := hfunc
    have hgo' : EventLoop.CanGoOn { s.eventLoop with looping := true, pc := .whileTest } := hgo
    simp only [EventLoopThread.step, if_pos hmay, EventLoop.step, if_pos hgo', EventLoop.loopStep,
      if_true, bind_ok, pure_eq_ok]
  have hfound := (hholds [.loop .start, .loop .testLooping]).1
    (_, .loop .testLooping) (by
      rw [Machine.steps_cons_ok hstart, Machine.steps_cons_ok htest]
      exact List.mem_cons_of_mem _ List.mem_cons_self) rfl
  simp at hfound

/-- **When a `quit` is not lost.**  A `quit` is executed in a state that a run reaches, by the destructor or
by any thread that has the loop from `startLoop`.  Every later test of `loop()` finds the flag down and
the thread can come to its end, if and only if `loop()` has raised its flag before. -/
theorem quit_holds_iff {as : List (Action F)} (has : Machine.run step create as = .ok s)
    (hquits : s.Quits a) (hstep : s.step a = .ok s') :
    s'.Holds ↔ s.eventLoop.pc ≠ .notStarted := by
  have hsound := sound_of_run has
  have hstarted := hsound.started_of_quits hquits hstep
  obtain ⟨hdown, hpc, hfunc, hreturned⟩ := hquits.spec hstep
  constructor
  · intro hholds hnot
    have hlooping : s.threadFunc = .looping := by
      refine hstarted.1.resolve_right ?_
      intro hended
      simp [hsound.ended hended] at hnot
    exact (hsound.step hstep).not_holds (hfunc.trans hlooping) (hpc.trans hnot) hholds
  · intro hne
    refine Quitting.holds ⟨hsound.step hstep, ?_, ?_⟩
    · rw [Started, hfunc, hreturned]
      exact hstarted
    · exact ⟨by rwa [hpc], hdown⟩

/-- The loop sleeps in `poll` when the destructor calls `quit`. -/
theorem quit_holds_iff_polling :
    ∃ s s' : EventLoopThread ℕ,
      Machine.run step create [.startLoop, .publish, .waited, .returnLoop, .loop .start,
        .loop .testLooping, .destroy, .testLoop, .testGet] = .ok s ∧
      s.step .quit = .ok s' ∧ s'.Holds := by
  let l : EventLoop ℕ := ⟨true, false, [], 0, .polling, false, fun _ => .idle, 0, [], []⟩
  let s : EventLoopThread ℕ := ⟨true, true, true, some true, .dereferencing, .looping, l⟩
  let s' : EventLoopThread ℕ := { s with
    owner := .quitting
    eventLoop := { l with looping := false, callers := Function.update l.callers ownThread .quitting } }
  have hs : Machine.run step create [.startLoop, .publish, .waited, .returnLoop, .loop .start,
      .loop .testLooping, .destroy, .testLoop, .testGet] = .ok s := rfl
  have hs' : s.step .quit = .ok s' := rfl
  exact ⟨s, s', hs, hs', (quit_holds_iff hs (Or.inl ⟨rfl, rfl⟩) hs').mpr (by simp [s, l])⟩

/-- **A `quit` that is lost.**  The destructor is called before the thread has come to `loop()`; it waits
for the thread, and the thread's loop goes on. -/
theorem quit_lost :
    ∃ s, Machine.run step (create : EventLoopThread ℕ)
        [.startLoop, .publish, .waited, .returnLoop, .destroy, .testLoop, .testGet, .quit, .quitReturns,
          .loop .start, .loop .testLooping] = .ok s ∧
      s.owner = .joining ∧ s.eventLoop.pc = .polling ∧ s.eventLoop.looping = true :=
  ⟨_, rfl, rfl, rfl, rfl⟩

end EventLoopThread

end Seenet
