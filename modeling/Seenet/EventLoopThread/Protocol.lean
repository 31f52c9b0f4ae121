import Seenet.EventLoopThread.Basic

/-!
# Starting and stopping a loop's thread

`m_loop` says two things at once: that the thread is ready, and that it still runs.  The thread clears it
by itself when its loop has ended, for whatever reason; the destructor takes a cleared `m_loop` for a thread
that was never started, and does not join it.

* `Sound` — what holds throughout every run: where the owner is, where the thread is, and what `m_loop`
  holds.
* `Safe` — `startLoop` returns the loop, the destructor does not call through a null pointer, and it
  returns only when the thread has been joined.
* **`safe_iff`** — a run is safe exactly when the destructor never reads `m_loop` after the thread has
  cleared it.
* **`not_safe`** — two runs that are not: another thread calls `quit`, and the loop ends too early.
-/

namespace Seenet

namespace EventLoopThread

variable {F : Type} {s s' : EventLoopThread F} {a : Action F}

/-! ## What holds throughout -/

/-- The thread has not been created. -/
def Unstarted (s : EventLoopThread F) : Prop := s.threadFunc = .notCreated ∧ s.returned = none

/-- The thread has published its loop, and `startLoop` has returned it. -/
def Started (s : EventLoopThread F) : Prop :=
  (s.threadFunc = .looping ∨ s.threadFunc = .ended) ∧ s.returned = some true

/-- Where the thread is, by where the owner is. -/
def OwnerSound (s : EventLoopThread F) : Prop :=
  match s.owner with
  | .idle => s.Unstarted
  | .waiting => (s.threadFunc = .constructing ∨ s.threadFunc = .looping) ∧ s.returned = none
  | .returning => s.threadFunc = .looping ∧ s.returned = none
  | .testing | .destroyed => s.Unstarted ∨ s.Started
  | .started | .testingGet | .dereferencing | .quitting | .joining | .crashed => s.Started

structure Sound (s : EventLoopThread F) : Prop where
  owner : s.OwnerSound
  loop_iff : s.loop = true ↔ s.threadFunc = .looping
  joinable_iff : s.owner ≠ .destroyed → (s.joinable = true ↔ s.threadFunc ≠ .notCreated)
  unquit : s.returned = none → s.eventLoop.Unquit
  ended : s.threadFunc = .ended → s.eventLoop.pc = .exited
  fresh : s.eventLoop.Fresh

lemma sound_create : (create : EventLoopThread F).Sound where
  owner := ⟨rfl, rfl⟩
  loop_iff := by simp [create]
  joinable_iff := by simp [create]
  unquit _ := ⟨fun h => absurd rfl h, by simp [create, EventLoop.create]⟩
  ended h := by simp [create] at h
  fresh _ := ⟨⟨rfl, rfl⟩, rfl⟩

/-- How far the thread is: it has not been created, it is under construction while the owner waits, it loops
while the owner still waits, or `startLoop` has returned. -/
lemma OwnerSound.phases (h : s.OwnerSound) :
    s.Unstarted ∨ (s.owner = .waiting ∧ s.threadFunc = .constructing ∧ s.returned = none) ∨
      (s.threadFunc = .looping ∧ s.returned = none) ∨ s.Started := by
  rw [OwnerSound] at h
  cases howner : s.owner with
  | idle =>
      rw [howner] at h
      exact Or.inl h
  | waiting =>
      rw [howner] at h
      obtain ⟨hfunc | hfunc, hnone⟩ := h
      · exact Or.inr (Or.inl ⟨rfl, hfunc, hnone⟩)
      · exact Or.inr (Or.inr (Or.inl ⟨hfunc, hnone⟩))
  | returning =>
      rw [howner] at h
      exact Or.inr (Or.inr (Or.inl h))
  | testing | destroyed =>
      rw [howner] at h
      exact h.imp_right fun hs => Or.inr (Or.inr hs)
  | started | testingGet | dereferencing | quitting | joining | crashed =>
      rw [howner] at h
      exact Or.inr (Or.inr (Or.inr h))

lemma OwnerSound.waiting_of_constructing (h : s.OwnerSound) (hfunc : s.threadFunc = .constructing) :
    s.owner = .waiting := by
  rcases h.phases with ⟨hnot, -⟩ | ⟨howner, -⟩ | ⟨hlooping, -⟩ | ⟨hstarted | hstarted, -⟩
  · simp [hfunc] at hnot
  · exact howner
  · simp [hfunc] at hlooping
  · simp [hfunc] at hstarted
  · simp [hfunc] at hstarted

lemma OwnerSound.started_of_returned (h : s.OwnerSound) (hreturned : s.returned = some true) :
    s.Started := by
  rcases h.phases with ⟨-, hnone⟩ | ⟨-, -, hnone⟩ | ⟨-, hnone⟩ | hstarted
  · simp [hreturned] at hnone
  · simp [hreturned] at hnone
  · simp [hreturned] at hnone
  · exact hstarted

/-- Once the thread has been started, the owner has no say in where it is. -/
lemma OwnerSound.of_started (h : s.OwnerSound) (hs : s.Started) (howner : s'.owner = s.owner)
    (hs' : s'.Started) : s'.OwnerSound := by
  rw [OwnerSound, howner]
  rw [OwnerSound] at h
  cases ho : s.owner with
  | idle =>
      rw [ho] at h
      exact absurd h.2 (by simp [hs.2])
  | waiting | returning =>
      rw [ho] at h
      simp [hs.2] at h
  | testing | destroyed => exact Or.inr hs'
  | started | testingGet | dereferencing | quitting | joining | crashed => exact hs'

/-- A step of the loop leaves the owner and the thread where they are. -/
lemma Sound.eventLoop_step (h : s.Sound) {b : EventLoop.Action F} {l : EventLoop F}
    (hcall : ∀ t, b = .quit t → s.returned = some true) (hstep : s.eventLoop.step b = .ok l) :
    Sound { s with eventLoop := l } where
  owner := h.owner
  loop_iff := h.loop_iff
  joinable_iff := h.joinable_iff
  unquit := by
    intro hnone
    refine EventLoop.unquit_step (h.unquit hnone) ?_ hstep
    intro t ht
    have hsome := (hcall t ht).symm.trans hnone
    simp at hsome
  ended hended := EventLoop.exited_step (h.ended hended) hstep
  fresh := EventLoop.fresh_step h.fresh hstep

/-- The owner goes on. -/
lemma Sound.setOwner (h : s.Sound) {owner : Owner} (howner : OwnerSound { s with owner := owner })
    (hne : s.owner ≠ .destroyed) : Sound { s with owner := owner } :=
  ⟨howner, h.loop_iff, fun _ => h.joinable_iff hne, h.unquit, h.ended, h.fresh⟩

lemma Sound.step (h : s.Sound) (hstep : s.step a = .ok s') : s'.Sound := by
  have hs := h.owner
  cases Step.of_step hstep with
  | startLoop howner hjoinable =>
      simp only [OwnerSound, howner, Unstarted] at hs
      have hloop : s.loop = false := by simpa [hs.1] using h.loop_iff
      exact ⟨⟨Or.inl rfl, hs.2⟩, by simp [hloop], by simp, h.unquit, by simp, h.fresh⟩
  | waited howner hloop =>
      simp only [OwnerSound, howner] at hs
      exact h.setOwner ⟨h.loop_iff.mp hloop, hs.2⟩ (by simp [howner])
  | returnLoop howner =>
      simp only [OwnerSound, howner] at hs
      have hloop := h.loop_iff.mpr hs.1
      refine ⟨⟨Or.inl hs.1, by simp [hloop]⟩, h.loop_iff, ?_, by simp, h.ended, h.fresh⟩
      exact fun _ => h.joinable_iff (by simp [howner])
  | publish hfunc =>
      have howner := h.owner.waiting_of_constructing hfunc
      simp only [OwnerSound, howner] at hs
      have hjoinable := h.joinable_iff (by simp [howner])
      refine ⟨?_, by simp, ?_, h.unquit, by simp, h.fresh⟩
      · simp only [OwnerSound, howner]
        exact ⟨Or.inr trivial, hs.2⟩
      · intro _
        simpa [hfunc] using hjoinable
  | @loop b l hmay hb =>
      refine h.eventLoop_step ?_ hb
      rintro t rfl
      exact hmay.1.1
  | reset hfunc hpc =>
      have hreturned : s.returned = some true := by
        by_contra hne
        have hnone : s.returned = none := by
          rcases h.owner.phases with ⟨-, hnone⟩ | ⟨-, -, hnone⟩ | ⟨-, hnone⟩ | ⟨-, hsome⟩
          · exact hnone
          · exact hnone
          · exact hnone
          · exact absurd hsome hne
        exact (h.unquit hnone).2 hpc
      refine ⟨?_, by simp, ?_, by simp [hreturned], fun _ => hpc, h.fresh⟩
      · exact h.owner.of_started (h.owner.started_of_returned hreturned) rfl
          ⟨Or.inr rfl, hreturned⟩
      · intro hne
        have hjoinable := h.joinable_iff hne
        simpa [hfunc] using hjoinable
  | destroy howner hcaller =>
      have hne : s.owner ≠ .destroyed := by
        rcases howner with ho | ho <;> simp [ho]
      refine ⟨?_, h.loop_iff, fun _ => h.joinable_iff hne, h.unquit, h.ended, h.fresh⟩
      rcases howner with ho | ho
      · simp only [OwnerSound, ho] at hs
        exact Or.inl hs
      · simp only [OwnerSound, ho] at hs
        exact Or.inr hs
  | testLoop howner =>
      simp only [OwnerSound, howner] at hs
      refine h.setOwner ?_ (by simp [howner])
      split_ifs with hloop
      · refine hs.resolve_left ?_
        rintro ⟨hnot, -⟩
        simp [h.loop_iff.mp hloop] at hnot
      · exact hs
  | testGet howner =>
      simp only [OwnerSound, howner] at hs
      refine h.setOwner ?_ (by simp [howner])
      split_ifs with hloop
      · exact hs
      · exact Or.inr hs
  | quit howner hloop hb =>
      simp only [OwnerSound, howner] at hs
      have hnext := h.eventLoop_step (fun _ _ => hs.2) hb
      exact hnext.setOwner hs (by simp [howner])
  | crash howner hloop =>
      simp only [OwnerSound, howner] at hs
      exact h.setOwner hs (by simp [howner])
  | quitReturns howner hb =>
      simp only [OwnerSound, howner] at hs
      have hnext := h.eventLoop_step (fun _ _ => hs.2) hb
      exact hnext.setOwner hs (by simp [howner])
  | join howner hfunc =>
      simp only [OwnerSound, howner] at hs
      exact ⟨Or.inr hs, h.loop_iff, by simp, h.unquit, h.ended, h.fresh⟩

lemma sound_of_run {as : List (Action F)} (has : Machine.run step create as = .ok s) : s.Sound :=
  Machine.run_invariant (fun _ _ _ h hs => h.step hs) sound_create has

/-! ## Safe runs -/

/-- **`startLoop` has returned the loop, the destructor has not called through a null pointer, and if it
has returned, then the thread has been joined.** -/
structure Safe (s : EventLoopThread F) : Prop where
  returned : s.returned ≠ some false
  owner : s.owner ≠ .crashed
  joined : s.owner = .destroyed → s.joinable = false

/-- The destructor reads `m_loop`, and the thread has executed `m_loop.reset()`. -/
def ReadsReset (s : EventLoopThread F) (a : Action F) : Prop :=
  (a = .testLoop ∨ a = .testGet ∨ a = .quit) ∧ s.threadFunc = .ended

lemma Sound.safe_step (h : s.Sound) (hsafe : s.Safe) (hread : ¬ s.ReadsReset a)
    (hstep : s.step a = .ok s') : s'.Safe := by
  have hs := h.owner
  cases Step.of_step hstep with
  | startLoop => exact ⟨hsafe.returned, by simp, by simp⟩
  | waited => exact ⟨hsafe.returned, by simp, by simp⟩
  | returnLoop howner =>
      simp only [OwnerSound, howner] at hs
      exact ⟨by simp [h.loop_iff.mpr hs.1], by simp, by simp⟩
  | publish => exact ⟨hsafe.returned, hsafe.owner, hsafe.joined⟩
  | loop => exact ⟨hsafe.returned, hsafe.owner, hsafe.joined⟩
  | reset => exact ⟨hsafe.returned, hsafe.owner, hsafe.joined⟩
  | destroy => exact ⟨hsafe.returned, by simp, by simp⟩
  | testLoop howner =>
      simp only [OwnerSound, howner] at hs
      refine ⟨hsafe.returned, by split_ifs <;> simp, ?_⟩
      intro hdestroyed
      have hloop : s.loop = false := by
        by_contra hne
        simp [hne] at hdestroyed
      -- the thread has not cleared `m_loop`, so it was never started
      have hnot : s.threadFunc = .notCreated := by
        rcases hs with hs | ⟨hfunc | hfunc, -⟩
        · exact hs.1
        · simp [h.loop_iff.mpr hfunc] at hloop
        · exact absurd ⟨Or.inl rfl, hfunc⟩ hread
      have hjoinable := h.joinable_iff (by simp [howner])
      simpa [hnot] using hjoinable
  | testGet howner =>
      simp only [OwnerSound, howner] at hs
      have hfunc : s.threadFunc = .looping :=
        hs.1.resolve_right fun hended => hread ⟨Or.inr (Or.inl rfl), hended⟩
      simp only [h.loop_iff.mpr hfunc, if_true]
      exact ⟨hsafe.returned, by simp, by simp⟩
  | quit => exact ⟨hsafe.returned, by simp, by simp⟩
  | crash howner hloop =>
      simp only [OwnerSound, howner] at hs
      have hfunc : s.threadFunc = .looping :=
        hs.1.resolve_right fun hended => hread ⟨Or.inr (Or.inr rfl), hended⟩
      simp [h.loop_iff.mpr hfunc] at hloop
  | quitReturns => exact ⟨hsafe.returned, by simp, by simp⟩
  | join => exact ⟨hsafe.returned, by simp, fun _ => rfl⟩

/-- A destructor that reads a cleared `m_loop` returns without a join, or calls through it. -/
lemma Sound.unsafe_step (h : s.Sound) (hread : s.ReadsReset a) (hstep : s.step a = .ok s') :
    ¬ s'.Safe := by
  obtain ⟨ha, hended⟩ := hread
  have hloop : s.loop = false := by
    have hiff := h.loop_iff
    simpa [hended] using hiff
  have hjoinable : s.owner ≠ .destroyed → s.joinable = true := fun hne =>
    (h.joinable_iff hne).mpr (by simp [hended])
  intro hsafe
  cases Step.of_step hstep with
  | testLoop howner =>
      have hjoined := hsafe.joined (by simp [hloop])
      simp [hjoinable (by simp [howner])] at hjoined
  | testGet howner =>
      have hjoined := hsafe.joined (by simp [hloop])
      simp [hjoinable (by simp [howner])] at hjoined
  | quit howner hset => simp [hloop] at hset
  | crash => exact hsafe.owner rfl
  | _ => simp at ha

/-- **When starting and stopping a loop's thread is safe.**  In every state of a run, `startLoop` has
returned the loop, the destructor has not called through a null pointer and has returned only after the
thread was joined, if and only if in no step of the run the destructor reads `m_loop` after the thread has
cleared it. -/
theorem safe_iff (as : List (Action F)) :
    (∀ s ∈ Machine.states step (create : EventLoopThread F) as, s.Safe)
      ↔ ∀ p ∈ Machine.steps step (create : EventLoopThread F) as, ¬ p.1.ReadsReset p.2 := by
  refine Machine.forall_states_iff (I := fun s : EventLoopThread F => s.Sound ∧ s.Safe)
    (C := fun s a => ¬ s.ReadsReset a) (fun s h => h.2) ?_ ?_ ⟨sound_create, ?_⟩ as
  · intro s a s' h hread hstep
    exact ⟨h.1.step hstep, h.1.safe_step h.2 hread hstep⟩
  · intro s a s' h hread hstep
    exact h.1.unsafe_step (not_not.mp hread) hstep
  · exact ⟨by simp [create], by simp [create], by simp [create]⟩

/-- **A thread that is not joined, and a call through a null pointer.**  Another thread calls `quit`, and the
loop ends before the destructor is called; or it ends between the tests of the destructor and its call. -/
theorem not_safe :
    (∃ s, Machine.run step (create : EventLoopThread ℕ)
        [.startLoop, .publish, .waited, .returnLoop, .loop .start, .loop (.quit (.other 1)),
          .loop .testLooping, .reset, .destroy, .testLoop] = .ok s ∧
      s.owner = .destroyed ∧ s.joinable = true ∧ ¬ s.Safe) ∧
    ∃ s, Machine.run step (create : EventLoopThread ℕ)
        [.startLoop, .publish, .waited, .returnLoop, .loop .start, .loop (.quit (.other 1)),
          .loop .testLooping, .destroy, .testLoop, .testGet, .reset, .quit] = .ok s ∧
      s.owner = .crashed ∧ ¬ s.Safe := by
  have hfirst : (Machine.run step (create : EventLoopThread ℕ)
      [.startLoop, .publish, .waited, .returnLoop, .loop .start, .loop (.quit (.other 1)),
        .loop .testLooping, .reset, .destroy, .testLoop]).map (fun s => (s.owner, s.joinable))
      = .ok (.destroyed, true) := by
    decide +kernel
  have hsecond : (Machine.run step (create : EventLoopThread ℕ)
      [.startLoop, .publish, .waited, .returnLoop, .loop .start, .loop (.quit (.other 1)),
        .loop .testLooping, .destroy, .testLoop, .testGet, .reset, .quit]).map (fun s => s.owner)
      = .ok .crashed := by
    decide +kernel
  obtain ⟨s, hs, hobs⟩ := Machine.ok_of_map hfirst
  obtain ⟨t, ht, hcrashed⟩ := Machine.ok_of_map hsecond
  rw [Prod.mk.injEq] at hobs
  refine ⟨⟨s, hs, hobs.1, hobs.2, ?_⟩, t, ht, hcrashed, fun h => h.owner hcrashed⟩
  intro h
  have hjoined := h.joined hobs.1
  simp [hobs.2] at hjoined

end EventLoopThread

end Seenet
