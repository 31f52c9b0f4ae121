import Seenet.TcpConnection.Steps

/-!
# Graceful shutdown

`shutdownInLoop` is to send a FIN once there is nothing left to be written: at once if the output buffer
is empty, and otherwise when `handleWrite` has drained it.  Its test has lost its negation, so it sends
one only while the channel waits to write, and that is never (`WriteInterest.lean`).

* `CleanShutdown` — no byte is cut off by the FIN, and the FIN is sent when it should be.
* `ShutsIdle` — the step runs the `shutdownInLoop` of a `shutdown()`, with nothing left to be written.
* **`cleanShutdown_iff`** — the connection shuts down cleanly throughout a run exactly when no step of
  it does that.
-/

namespace Seenet

namespace TcpConnection

variable {ι : Type}

/-- **A clean shutdown.**  `shutdownWrite` is called only with an empty output buffer; and after
`shutdown()` has moved the connection to `kDisconnecting` and its `shutdownInLoop` has run, it has been
called if the output buffer is empty and the connection not yet disconnected. -/
def CleanShutdown (c : TcpConnection ι) : Prop :=
  (∀ backlog, .shutdownWrite backlog ∈ c.trace → backlog = []) ∧
    (.shutdown ∈ c.trace → .ran .shutdownInLoop ∈ c.trace → c.output = [] →
      c.state ≠ .kDisconnected → ∃ backlog, .shutdownWrite backlog ∈ c.trace)

/-- The step runs the `shutdownInLoop` of a `shutdown()`: at once, or from the queue. -/
def RunsShutdown (c : TcpConnection ι) : Action → Prop
  | .call t m _ => t = .loop ∧ m = .shutdown ∧ c.state = .kConnected
  | .nextFunctor _ => ∃ rest, c.functors.batch = .shutdownInLoop :: rest
  | _ => False

/-- It does so with an empty output buffer, on a connection that is not disconnected. -/
def ShutsIdle (c : TcpConnection ι) (a : Action) : Prop :=
  c.RunsShutdown a ∧ c.output = [] ∧ c.state ≠ .kDisconnected

/-! ## What holds as long as no step does that -/

/-- The channel does not wait to write, `shutdownWrite` has not been called, and if a `shutdownInLoop`
has run, then there were bytes left to be written, or the connection was closed.  A `shutdownInLoop` in
the queue comes from a `shutdown()`. -/
structure Unshut (c : TcpConnection ι) : Prop where
  wf : c.Wf
  isWriting_eq : c.isWriting = false
  not_shutdownWrite : ∀ backlog, .shutdownWrite backlog ∉ c.trace
  output_of_ran : .ran .shutdownInLoop ∈ c.trace → c.output ≠ [] ∨ c.state = .kDisconnected
  shutdown_of_queued : .shutdownInLoop ∈ c.functors.batch ++ c.functors.pending →
    .shutdown ∈ c.trace

variable {c c' : TcpConnection ι}

lemma Unshut.cleanShutdown (h : c.Unshut) : c.CleanShutdown := by
  refine ⟨?_, ?_⟩
  · intro backlog hmem
    exact absurd hmem (h.not_shutdownWrite backlog)
  · intro _ hran hout hstate
    rcases h.output_of_ran hran with hne | hdisc
    · exact absurd hout hne
    · exact absurd hdisc hstate

/-- Effects and functors that have nothing to do with a shutdown. -/
def Unrelated (es : List Effect) (fs : List Functor) : Prop :=
  (∀ backlog, .shutdownWrite backlog ∉ es) ∧ .ran .shutdownInLoop ∉ es ∧ .shutdownInLoop ∉ fs

/-- A part of a step that has nothing to do with a shutdown, and takes no byte out of the output
buffer. -/
lemma Unshut.does (h : c.Unshut) {o : List UInt8} {es : List Effect} {fs : List Functor}
    (hdoes : c.Does c' o es fs) (hun : Unrelated es fs) (hw : c'.isWriting = false)
    (hout : c.output ≠ [] → o ≠ []) (hstate : c.state = .kDisconnected → c'.state = .kDisconnected) :
    c'.Unshut := by
  obtain ⟨hwrite, hran, hqueued⟩ := hun
  refine ⟨hdoes.wf, hw, ?_, ?_, ?_⟩
  · intro backlog hmem
    rw [hdoes.trace_eq, List.mem_append] at hmem
    rcases hmem with hmem | hmem
    · exact h.not_shutdownWrite backlog hmem
    · exact hwrite backlog hmem
  · intro hmem
    rw [hdoes.trace_eq, List.mem_append] at hmem
    rcases hmem with hmem | hmem
    · rw [hdoes.output_eq]
      exact (h.output_of_ran hmem).imp hout hstate
    · exact absurd hmem hran
  · intro hmem
    rw [hdoes.batch_eq, hdoes.pending_eq, ← List.append_assoc, List.mem_append] at hmem
    rw [hdoes.trace_eq, List.mem_append]
    rcases hmem with hmem | hmem
    · exact Or.inl (h.shutdown_of_queued hmem)
    · exact absurd hmem hqueued

lemma Unshut.log (h : c.Unshut) {e : Effect} (hun : Unrelated [e] []) : (c.log e).Unshut :=
  h.does (h.wf.does_nothing.log e) hun h.isWriting_eq id id

lemma Unshut.queueInLoop (h : c.Unshut) {f : Functor} (hf : f ≠ .shutdownInLoop) :
    (c.queueInLoop f).Unshut :=
  h.does (h.wf.does_nothing.queueInLoop f) (by simpa [Unrelated] using hf.symm) h.isWriting_eq id id

lemma Unshut.setState (h : c.Unshut) {s : StateE} (hs : c.state ≠ .kDisconnected) :
    (c.setState s).Unshut :=
  h.does (h.wf.does_nothing.setState s) (by simp [Unrelated]) h.isWriting_eq id
    fun hdisc => absurd hdisc hs

lemma Unshut.spares (h : c.Unshut) (hs : c.Spares c') : c'.Unshut := by
  obtain ⟨es, fs, hdoes, hes, hfs⟩ := hs.does
  refine h.does hdoes ⟨?_, ?_, ?_⟩ ?_ id hs.disconnected
  · exact fun backlog hmem => hes _ hmem
  · exact fun hmem => hes _ hmem
  · exact fun hmem => absurd (hfs _ hmem) (by simp)
  · rw [Bool.eq_false_iff]
    intro hw
    exact absurd (hs.isWriting_le hw) (by simp [h.isWriting_eq])

/-- A `shutdownInLoop` runs with bytes left to be written, or on a closed connection. -/
lemma Unshut.ran (h : c.Unshut) (hout : c.output ≠ [] ∨ c.state = .kDisconnected) :
    (c.log (.ran .shutdownInLoop)).Unshut := by
  refine ⟨(h.wf.does_nothing.log _).wf, h.isWriting_eq, ?_, fun _ => hout, ?_⟩
  · intro backlog hmem
    simp only [TcpConnection.log, List.mem_append, List.mem_singleton, reduceCtorEq, or_false] at hmem
    exact h.not_shutdownWrite backlog hmem
  · intro hmem
    exact List.mem_append_left _ (h.shutdown_of_queued hmem)

/-- `shutdown()` on another thread. -/
lemma Unshut.queueShutdown (h : c.Unshut) (hmem : .shutdown ∈ c.trace) :
    (c.queueInLoop .shutdownInLoop).Unshut :=
  ⟨(h.wf.does_nothing.queueInLoop _).wf, h.isWriting_eq, h.not_shutdownWrite, h.output_of_ran,
    fun _ => hmem⟩

lemma Unshut.takeFunctors (h : c.Unshut) (hbatch : c.functors.batch = []) :
    c.takeFunctors.Unshut := by
  refine ⟨⟨h.wf.coherent, h.wf.outputBuffer⟩, h.isWriting_eq, h.not_shutdownWrite, h.output_of_ran,
    ?_⟩
  intro hmem
  apply h.shutdown_of_queued
  simpa [TcpConnection.takeFunctors, BatchQueue.take, hbatch] using hmem

lemma Unshut.startFunctor (h : c.Unshut) {f : Functor} {rest : List Functor}
    (hbatch : c.functors.batch = f :: rest) : (c.startFunctor f rest).Unshut := by
  refine ⟨⟨h.wf.coherent, h.wf.outputBuffer⟩, h.isWriting_eq, h.not_shutdownWrite, h.output_of_ran,
    ?_⟩
  intro hmem
  apply h.shutdown_of_queued
  rw [hbatch]
  exact List.mem_cons_of_mem _ hmem

/-- `shutdown()` has just moved the connection. -/
lemma Unshut.moved (h : c.Unshut) (hstate : c.state = .kConnected) :
    ((c.setState .kDisconnecting).log .shutdown).Unshut ∧
      .shutdown ∈ ((c.setState .kDisconnecting).log .shutdown).trace := by
  refine ⟨(h.setState (by simp [hstate])).log (by simp [Unrelated]), ?_⟩
  simp [TcpConnection.log]

/-! ## Steps -/

variable [DecidableEq ι] {mem : Memory}

lemma Unshut.sendInLoop (h : c.Unshut) {t : Thread} {data : List UInt8} {o : WriteOutcome}
    (hok : c.sendInLoop mem t data o = .ok c') : c'.Unshut := by
  rcases sendInLoop_spec h.wf hok with ⟨-, rfl⟩ | ⟨-, hst, hev, kept, es, fs, hs, hfs, hdoes⟩
  · exact h
  · refine h.does hdoes ⟨?_, ?_, ?_⟩ ((isWriting_eq_of_events hev).trans h.isWriting_eq) ?_ ?_
    · intro backlog
      cases hs <;> simp
    · cases hs <;> simp
    · exact fun hmem => hfs _ hmem
    · intro hne
      simp [hne]
    · exact fun hdisc => hst.trans hdisc

/-- A functor is run: any but `shutdownInLoop`, or that one with bytes left to be written. -/
lemma Unshut.runFunctor (h : c.Unshut) {f : Functor} {o : WriteOutcome}
    (hshut : f = .shutdownInLoop → c.output ≠ [] ∨ c.state = .kDisconnected)
    (hok : c.runFunctor mem f o = .ok c') : c'.Unshut := by
  by_cases hsend : ∃ t data, f = .sendInLoop t data
  · obtain ⟨t, data, rfl⟩ := hsend
    exact (h.log (by simp [Unrelated])).sendInLoop hok
  · by_cases hshutdown : f = .shutdownInLoop
    · subst hshutdown
      rw [TcpConnection.runFunctor, Except.ok.injEq,
        shutdownInLoop_of_not_isWriting (h.ran (hshut rfl)).isWriting_eq] at hok
      rw [← hok]
      exact h.ran (hshut rfl)
    · exact (h.log (by simpa [Unrelated] using Ne.symm hshutdown)).spares
        (runFunctor_spares h.wf (fun t data heq => hsend ⟨t, data, heq⟩) hshutdown hok)

lemma Unshut.runInLoop (h : c.Unshut) {t : Thread} {f : Functor} {o : WriteOutcome}
    (hf : f ≠ .shutdownInLoop) (hok : c.runInLoop mem t f o = .ok c') : c'.Unshut := by
  rw [TcpConnection.runInLoop] at hok
  split_ifs at hok with ht
  · exact h.runFunctor (fun heq => absurd heq hf) hok
  · rw [Except.ok.injEq] at hok
    rw [← hok]
    exact h.queueInLoop hf

lemma Unshut.call (h : c.Unshut) {t : Thread} {m : Call} {o : WriteOutcome}
    (hno : ¬ c.ShutsIdle (.call t m o)) (hok : c.call mem t o m = .ok c') : c'.Unshut := by
  cases m with
  | send message =>
      simp only [TcpConnection.call] at hok
      split_ifs at hok with hstate
      · exact (h.log (by simp [Unrelated])).runInLoop (by simp) hok
      · rw [Except.ok.injEq] at hok
        rwa [← hok]
  | shutdown =>
      simp only [TcpConnection.call] at hok
      split_ifs at hok with hstate
      · obtain ⟨hmoved, hmem⟩ := h.moved hstate
        rw [TcpConnection.runInLoop] at hok
        split_ifs at hok with ht
        · refine hmoved.runFunctor (fun _ => Or.inl fun hout => hno ?_) hok
          exact ⟨⟨ht, rfl, hstate⟩, hout, by simp [hstate]⟩
        · rw [Except.ok.injEq] at hok
          rw [← hok]
          exact hmoved.queueShutdown hmem
      · rw [Except.ok.injEq] at hok
        rwa [← hok]
  | forceClose =>
      simp only [TcpConnection.call] at hok
      split_ifs at hok with hstate
      · rw [Except.ok.injEq] at hok
        rw [← hok]
        refine (h.setState ?_).queueInLoop (by simp)
        rcases hstate with hs | hs <;> simp [hs]
      · rw [Except.ok.injEq] at hok
        rwa [← hok]
  | startRead => exact h.runInLoop (by simp) hok
  | stopRead => exact h.runInLoop (by simp) hok

/-- **A step that does not shut an idle connection down** leaves things as they are. -/
lemma Unshut.step (h : c.Unshut) {a : Action} (hno : ¬ c.ShutsIdle a)
    (hok : c.step mem a = .ok c') : c'.Unshut := by
  cases a with
  | call t m o => exact h.call hno hok
  | takePending =>
      simp only [TcpConnection.step, guard_eq_ok, Except.ok.injEq] at hok
      obtain ⟨hbatch, rfl⟩ := hok
      exact h.takeFunctors hbatch
  | nextFunctor o =>
      simp only [TcpConnection.step] at hok
      split at hok
      · simp at hok
      · rename_i f rest hbatch
        refine (h.startFunctor hbatch).runFunctor ?_ hok
        rintro rfl
        by_contra hidle
        rw [not_or, not_not] at hidle
        exact hno ⟨⟨rest, hbatch⟩, hidle.1, hidle.2⟩
  | handleRead o => exact h.spares (handleRead_spares h.wf hok)
  | handleWrite o =>
      rw [handleWrite_of_not_isWriting h.isWriting_eq hok]
      exact h
  | retrieveInput len =>
      simp only [TcpConnection.step, bind_eq_ok, pure_eq_ok, Except.ok.injEq] at hok
      obtain ⟨buffer, -, rfl⟩ := hok
      exact ⟨⟨h.wf.coherent, h.wf.outputBuffer⟩, h.isWriting_eq, h.not_shutdownWrite,
        h.output_of_ran, h.shutdown_of_queued⟩

/-- After `shutdownInLoop` has run with nothing left to be written, the FIN is missing. -/
lemma Unshut.missing (h : c.Unshut) (hmem : .shutdown ∈ c.trace) (hout : c.output = [])
    (hstate : c.state ≠ .kDisconnected) {o : WriteOutcome}
    (hok : c.runFunctor mem .shutdownInLoop o = .ok c') : ¬ c'.CleanShutdown := by
  have hw : (c.log (.ran .shutdownInLoop)).isWriting = false := h.isWriting_eq
  rw [TcpConnection.runFunctor, Except.ok.injEq, shutdownInLoop_of_not_isWriting hw] at hok
  subst hok
  rintro ⟨-, hfin⟩
  obtain ⟨backlog, hwrite⟩ := hfin (List.mem_append_left _ hmem)
    (List.mem_append_right _ List.mem_cons_self) hout hstate
  simp only [TcpConnection.log, List.mem_append, List.mem_singleton, reduceCtorEq, or_false] at hwrite
  exact h.not_shutdownWrite backlog hwrite

/-- **A step that shuts an idle connection down**: the FIN is missing. -/
lemma Unshut.shutsIdle (h : c.Unshut) {a : Action} (hidle : c.ShutsIdle a)
    (hok : c.step mem a = .ok c') : ¬ c'.CleanShutdown := by
  obtain ⟨hruns, hout, hstate⟩ := hidle
  cases a with
  | call t m o =>
      obtain ⟨rfl, rfl, hconn⟩ := hruns
      obtain ⟨hmoved, hmem⟩ := h.moved hconn
      simp only [TcpConnection.step, TcpConnection.call, if_pos hconn, TcpConnection.runInLoop,
        if_true] at hok
      exact hmoved.missing hmem hout (by simp) hok
  | nextFunctor o =>
      obtain ⟨rest, hbatch⟩ := hruns
      have hmem : .shutdown ∈ c.trace := h.shutdown_of_queued (by simp [hbatch])
      simp only [TcpConnection.step, hbatch] at hok
      exact (h.startFunctor hbatch).missing hmem hout hstate hok
  | takePending => exact absurd hruns id
  | handleRead o => exact absurd hruns id
  | handleWrite o => exact absurd hruns id
  | retrieveInput len => exact absurd hruns id

/-- **When a connection shuts down cleanly.**  Throughout a run of an established connection no byte is cut
off by a FIN, and the FIN is sent when it should be, if and only if no `shutdownInLoop` of a
`shutdown()` ran with an empty output buffer on a connection that was not disconnected. -/
theorem cleanShutdown_iff (s : Setting ι) (as : List Action) :
    (∀ c ∈ Machine.states (step s.mem) s.start as, c.CleanShutdown)
      ↔ ∀ p ∈ Machine.steps (step s.mem) s.start as, ¬ p.1.ShutsIdle p.2 := by
  have hstart := s.established.2
  refine Machine.forall_states_iff (I := Unshut) (C := fun c a => ¬ c.ShutsIdle a)
    (fun c h => h.cleanShutdown) (fun c a c' h hno hok => h.step hno hok)
    (fun c a c' h hno hok => h.shutsIdle (not_not.mp hno) hok) ?_ as
  refine ⟨hstart.wf, hstart.isWriting_eq, ?_, ?_, ?_⟩
  · simp [hstart.trace_eq]
  · simp [hstart.trace_eq]
  · simp [hstart.batch_eq, hstart.pending_eq]

/-- **A missing FIN.**  `shutdown()` is called by the loop's thread with nothing to be written; its
`shutdownInLoop` has run, and `shutdownWrite` has not been called. -/
theorem not_cleanShutdown :
    ∃ c, Machine.run (step Setting.plain.mem) Setting.plain.start
        [.call .loop .shutdown (.wrote 0)] = .ok c ∧
      c.state = .kDisconnecting ∧ c.output = [] ∧
      c.trace = [.connCallback, .shutdown, .ran .shutdownInLoop] ∧ ¬ c.CleanShutdown := by
  have hrun : (Machine.run (step Setting.plain.mem) Setting.plain.start
      [.call .loop .shutdown (.wrote 0)]).map (fun c => (c.state, c.output, c.trace))
      = .ok (.kDisconnecting, [], [.connCallback, .shutdown, .ran .shutdownInLoop]) := by
    decide +kernel
  obtain ⟨c, hc, hobs⟩ := Machine.ok_of_map hrun
  simp only [Prod.mk.injEq] at hobs
  obtain ⟨hstate, hout, htrace⟩ := hobs
  refine ⟨c, hc, hstate, hout, htrace, ?_⟩
  rintro ⟨-, hfin⟩
  obtain ⟨backlog, hwrite⟩ := hfin (by simp [htrace]) (by simp [htrace]) hout (by simp [hstate])
  simp [htrace] at hwrite

end TcpConnection

end Seenet
