import Seenet.System.Plain

/-!
# What a server that is used as it should be does

* **`stages_agree`** — the state of every connection, its channel, what the kernel has been told of it and the
  calls of its connection callback agree in every state.
* **`never_aborts`** — no step fails an assertion, nor reads or writes outside of a buffer.
-/

namespace Seenet

open Channel

namespace System

open TcpConnection

variable {cfg : Setting} {mem : Memory} {s s' : System} {l : LoopId} {i : ℕ} {a : Action}

/-- Every state of a proper run is good. -/
lemma good_of_mem {as : List Action}
    (hproper : ∀ p ∈ Machine.steps (step cfg.mem) cfg.start as, p.1.Proper p.2)
    (htimely : ∀ p ∈ Machine.steps (step cfg.mem) cfg.start as, p.1.Timely p.2) :
    ∀ s ∈ Machine.states (step cfg.mem) cfg.start as, s.Good cfg :=
  Machine.states_invariant_of_steps (C := fun s a => s.Proper a ∧ s.Timely a)
    (fun _ _ _ hgood hstep hok => hgood.step hstep.1 hstep.2 hok) (good_start cfg)
    fun p hp => ⟨hproper p hp, htimely p hp⟩

/-! ## No step aborts -/

lemma handleClose_lives {c : TcpConnection ChannelId} (h : c.Wf) (hopen : c.IsOpen) (l : LoopId) (i : ℕ) :
    Lives (s.handleClose l i c) := .bind (beginClose_lives h hopen) fun _ _ => .ok _

/-- A functor that the thread of a loop has taken. -/
lemma runTask_lives {t : Task} (hs : s.Sound cfg [t]) (h : s.Tidy) (halive : s.alive t.conn = true)
    (hplain : ∀ i f, t = .functor i f → f.Plain) (l : LoopId) (o : WriteOutcome) : Lives (s.runTask mem l o t) := by
  have hwf := hs.view_wf halive
  cases t with
  | connectEstablished i =>
      refine establish_avoids hwf halive (hs.accounted.starting i ?_) l o
      simp [waiting]
  | removeConnectionInLoop i => exact .bind (deref_avoids halive) fun _ _ => .ok _
  | functor i f =>
      refine .bind (deref_avoids halive) fun _ _ => ?_
      split_ifs with hforce
      · rw [forceCloseInLoopWith]
        split_ifs with hopen
        · exact handleClose_lives (hwf.does_nothing.log (.ran .forceCloseInLoop)).wf hopen l i
        · exact .ok _
      · refine .bind (runFunctor_lives hwf (h.stage i halive) (hplain i f rfl) hforce ?_ o) fun _ _ => .ok _
        rintro rfl
        obtain ⟨-, hran, hstate⟩ := hs.accounted.destroying (hs.accounted.born i halive)
        exact ⟨hstate, List.count_eq_zero.mp hran⟩

/-- A callback that the thread of a loop has taken. -/
lemma callback_lives (hs : s.Sound cfg []) (h : s.Tidy) (hfed : s.Fed) (halive : s.alive i = true) {cb : Callback}
    (hopen : cb = .close ∨ cb = .read → (s.view i).IsOpen) (readOutcome : ReadOutcome) (writeOutcome : WriteOutcome) :
    Lives (s.callback mem l i readOutcome writeOutcome cb) := by
  have hwf := hs.view_wf halive
  cases cb with
  | close => exact handleClose_lives hwf (hopen (Or.inl rfl)) l i
  | error => exact .ok _
  | read =>
      refine handleReadWith_lives (hfed.wf i (hfed.born i halive)) fun buffer _ => ?_
      have hread : Wf { s.view i with inputBuffer := buffer } := ⟨hwf.coherent, hwf.outputBuffer⟩
      exact handleClose_lives hread (hopen (Or.inr rfl)) l i
  | write => exact .bind (handleWrite_lives (h.stage i halive) writeOutcome) fun _ _ => .ok _

/-- **No proper step aborts.** -/
lemma step_lives (h : s.Good cfg) (hproper : s.Proper a) : Lives (s.step mem a) := by
  refine step_avoids h.sound rfl Buffer.create_lives a ?_ ?_ ?_ ?_
  · intro l i cb rest r w htodo
    have halive := (h.sound.agenda.active l (.callback i cb) (by simp [htodo]) i rfl).1
    have hsound : (s.setLoop l { s.loops l with todo := rest }).Sound cfg [] :=
      h.sound.setTodo (h.sound.agenda.pop htodo)
    refine callback_lives hsound (h.tidy.pop htodo) ⟨h.fed.born, h.fed.wf⟩ halive ?_ r w
    intro hcb
    refine h.tidy.isOpen l i (List.countP_pos_iff.mpr ⟨.callback i cb, by simp [htodo], ?_⟩)
    rcases hcb with rfl | rfl
    · exact decide_eq_true rfl
    · exact decide_eq_true rfl
  · intro l t rest o htodo hphase hbatch
    have hplain := h.tidy.plain l
    rw [hbatch] at hplain
    have halive := (h.sound.accounted.placed l t (by simp [Loop.tasks, hbatch])).1
    refine runTask_lives (h.sound.startFunctor htodo hphase hbatch) ?_ halive (hplain t (by simp)) l o
    refine h.tidy.setLoop rfl (fun t' ht' => hplain t' ?_) (h.tidy.once l) (h.tidy.isOpen l) (h.tidy.regular l)
    simp only [List.mem_append, List.mem_cons] at ht' ⊢
    tauto
  · rintro i m o rfl halive
    exact call_lives (h.sound.view_wf halive) (h.tidy.stage i halive) .loop hproper o
  · rintro i len rfl halive
    exact (h.fed.wf i (h.fed.born i halive)).retrieve_lives hproper

/-- **The process never aborts.**  In a run of the server, with any number of loops and connections, let the users
not start or stop reading, not take more out of a buffer than is in it, and send no message of `2 ^ 63` bytes or
more; let no report of the kernel be one for which `handleEvent` calls both the close and the read callback; let fewer
than `2 ^ 32` connections be accepted; and let every step be in time.  Then in every state no such step fails an
assertion, follows a pointer to what is not there, or reads or writes outside of a buffer: if it stops at all, there
is no memory, or it was not possible. -/
theorem never_aborts (cfg : Setting) (as : List Action)
    (hproper : ∀ p ∈ Machine.steps (step cfg.mem) cfg.start as, p.1.Proper p.2)
    (htimely : ∀ p ∈ Machine.steps (step cfg.mem) cfg.start as, p.1.Timely p.2) :
    ∀ s ∈ Machine.states (step cfg.mem) cfg.start as, ∀ a, s.Proper a →
      ∀ e, s.step cfg.mem a = .error e → e.fatal = false :=
  fun s hs _ ha => step_lives (good_of_mem hproper htimely s hs) ha

/-- The thread of its loop sends on the second connection. -/
theorem never_aborts_reuse :
    ∃ s, Machine.run (step oneThread.mem) oneThread.start reuse = .ok s ∧ (s.conn 1).state = .kConnected ∧
      ∀ e, s.step oneThread.mem (.call 1 (.send [6]) (.wrote 0)) = .error e → e.fatal = false := by
  have hrun : (Machine.run (step oneThread.mem) oneThread.start reuse).map (fun s => (s.conn 1).state)
      = .ok .kConnected := by
    decide +kernel
  obtain ⟨s, hs, hstate⟩ := Machine.ok_of_map hrun
  have hproper : ∀ p ∈ Machine.steps (step oneThread.mem) oneThread.start reuse, p.1.Proper p.2 := by decide +kernel
  have htimely : ∀ p ∈ Machine.steps (step oneThread.mem) oneThread.start reuse, p.1.Timely p.2 := by decide +kernel
  have hplain : Call.Plain (.send [6]) := by decide
  exact ⟨s, hs, hstate,
    never_aborts oneThread reuse hproper htimely s (Machine.mem_states_of_run hs) _ hplain⟩

/-! ## The stages -/

/-- What the kernel has been told of a connection. -/
lemma Good.epollSet_eq (h : s.Good cfg) (halive : s.alive i = true) :
    (s.loopOf i).registry.poller.epollSet (s.conn i).fd
      = if (s.view i).IsOpen then some ⟨kReadEvent, .conn i⟩ else none := by
  have hset := (h.sound.wired.coherent (s.conn i).loop).epoll_eq (.conn i)
  rw [h.sound.wired.present _ i ⟨halive, rfl⟩] at hset
  have hch : (s.view i).ch = (s.loops (s.conn i).loop).registry.heap (.conn i) := rfl
  rw [loopOf, hset, ← hch]
  cases h.tidy.stage i halive with
  | opened hopen _ hindex hevents => rw [if_pos hindex, if_pos hopen, hevents]
  | connecting hstate _ hindex | closed hstate _ hindex | removed hstate _ hindex =>
      rw [if_neg (by simp [hindex]), if_neg (by simp [TcpConnection.IsOpen, hstate])]

/-- **The stages of every connection.**  In every state of such a run each connection there is waits for
`connectEstablished`, is open, is closed, or has been removed; and its state, the channel, what the kernel has been
told of its descriptor, and how often `m_connCallback` was called agree on which. -/
theorem stages_agree (cfg : Setting) (as : List Action)
    (hproper : ∀ p ∈ Machine.steps (step cfg.mem) cfg.start as, p.1.Proper p.2)
    (htimely : ∀ p ∈ Machine.steps (step cfg.mem) cfg.start as, p.1.Timely p.2) :
    ∀ s ∈ Machine.states (step cfg.mem) cfg.start as, ∀ i, s.alive i = true →
      (s.view i).Stage ∧
      (s.loopOf i).registry.poller.epollSet (s.conn i).fd
        = if (s.view i).IsOpen then some ⟨kReadEvent, .conn i⟩ else none := by
  intro s hs i halive
  have h := good_of_mem hproper htimely s hs
  exact ⟨h.tidy.stage i halive, h.epollSet_eq halive⟩

/-- The kernel waits for input on the second connection, whose connection callback has been called once. -/
theorem stages_agree_reuse :
    ∃ s, Machine.run (step oneThread.mem) oneThread.start reuse = .ok s ∧ (s.view 1).Stage ∧ (s.view 1).ups = 1 ∧
      (s.loopOf 1).registry.poller.epollSet (s.conn 1).fd = some ⟨kReadEvent, .conn 1⟩ := by
  have hrun : (Machine.run (step oneThread.mem) oneThread.start reuse).map
      (fun s => (s.alive 1, (s.conn 1).state, (s.view 1).ups)) = .ok (true, .kConnected, 1) := by
    decide +kernel
  obtain ⟨s, hs, hobs⟩ := Machine.ok_of_map hrun
  obtain ⟨halive, hstate, hups⟩ : s.alive 1 = true ∧ (s.conn 1).state = .kConnected ∧ (s.view 1).ups = 1 := by
    simpa using hobs
  have hproper : ∀ p ∈ Machine.steps (step oneThread.mem) oneThread.start reuse, p.1.Proper p.2 := by decide +kernel
  have htimely : ∀ p ∈ Machine.steps (step oneThread.mem) oneThread.start reuse, p.1.Timely p.2 := by decide +kernel
  obtain ⟨hstage, hset⟩ :=
    stages_agree oneThread reuse hproper htimely s (Machine.mem_states_of_run hs) 1 halive
  have hopen : (s.view 1).IsOpen := Or.inl hstate
  rw [if_pos hopen] at hset
  exact ⟨s, hs, hstage, hups, hset⟩

end System

end Seenet
