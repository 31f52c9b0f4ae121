import Seenet.TcpConnection.Steps

/-!
# What closes no connection

Of the functors only `forceCloseInLoop` closes a connection, and of the calls by the loop's own thread
none does: `forceClose` queues.  All others are `Quiet`.

* **`runFunctor_ok`**, **`call_ok`** — what a functor or a call does to the state, the trace and the queue.
* `runFunctor_ch`, `call_ch` — on a disconnected connection they leave the channel alone, but for starting
  and stopping to read (`Touches`).
-/

namespace Seenet

open Channel

/-- What the loop's thread queues while it calls a connection. -/
def Functor.MayQueue (f : Functor) : Prop := f.IsCallback ∨ f = .forceCloseInLoop

lemma Functor.MayQueue.ne {f : Functor} (h : f.MayQueue) :
    f ≠ .startReadInLoop ∧ f ≠ .stopReadInLoop ∧ f ≠ .connectDestroyed := by
  rcases h with h | rfl
  · refine ⟨?_, ?_, ?_⟩
    all_goals
      rintro rfl
      exact h
  · decide

namespace TcpConnection

variable {ι : Type} {c c' : TcpConnection ι}

/-- The call updates the channel, whatever the state of the connection. -/
def Touches (c : TcpConnection ι) : Call → Prop
  | .startRead => ¬ c.reading ∨ ¬ c.ch.isReading
  | .stopRead => c.reading ∨ c.ch.isReading
  | _ => False

instance (c : TcpConnection ι) : (m : Call) → Decidable (c.Touches m)
  | .send _ | .shutdown | .forceClose => inferInstanceAs (Decidable False)
  | .startRead => inferInstanceAs (Decidable (¬ c.reading ∨ ¬ c.ch.isReading))
  | .stopRead => inferInstanceAs (Decidable (c.reading ∨ c.ch.isReading))

/-- Effects of a step that neither hands data to the user nor closes, and destroys nothing. -/
def Quiet (es : List Effect) : Prop :=
  .closeCallback ∉ es ∧ .messageCallback ∉ es ∧ .ran .connectDestroyed ∉ es

lemma Quiet.append {es es' : List Effect} (h : Quiet es) (h' : Quiet es') : Quiet (es ++ es') := by
  simp only [Quiet, List.mem_append, not_or] at h h' ⊢
  exact ⟨⟨h.1, h'.1⟩, ⟨h.2.1, h'.2.1⟩, h.2.2, h'.2.2⟩

lemma Sends.quiet {t : Thread} {data kept : List UInt8} {o : WriteOutcome} {es : List Effect}
    (h : c.Sends t data o kept es) : Quiet es := by
  cases h <;> simp [Quiet]

lemma Drains.quiet {left : List UInt8} {o : WriteOutcome} {es : List Effect}
    (h : c.Drains o left es) : Quiet es := by
  cases h <;> simp [Quiet]

variable [DecidableEq ι] {mem : Memory}

/-- **A functor** other than `forceCloseInLoop` and `connectDestroyed` closes nothing. -/
lemma runFunctor_ok (h : c.Wf) {f : Functor} {o : WriteOutcome}
    (hforce : f ≠ .forceCloseInLoop) (hdestroyed : f ≠ .connectDestroyed)
    (hok : c.runFunctor mem f o = .ok c') :
    ∃ out es fs, c.Does c' out es fs ∧ c'.state = c.state ∧ Quiet es ∧ (∀ f ∈ fs, f.IsCallback) := by
  have hlog : c.Does (c.log (.ran f)) c.output [.ran f] [] := h.does_nothing.log _
  have hquiet : Quiet [.ran f] := by simpa [Quiet] using hdestroyed.symm
  cases f with
  | sendInLoop t message =>
      rcases sendInLoop_spec hlog.wf hok with
        ⟨-, rfl⟩ | ⟨-, hstate, -, kept, es, fs, hs, hfs, hdoes⟩
      · exact ⟨_, _, _, hlog, rfl, hquiet, by simp⟩
      · exact ⟨_, _, _, hlog.trans hdoes, hstate, hquiet.append hs.quiet, hfs⟩
  | shutdownInLoop =>
      rw [runFunctor, Except.ok.injEq] at hok
      rw [← hok]
      obtain ⟨hdoes, hstate, -⟩ := shutdownInLoop_spec hlog.wf
      refine ⟨_, _, _, hlog.then hdoes, hstate, hquiet.append ?_, by simp⟩
      split_ifs <;> simp [Quiet]
  | forceCloseInLoop => exact absurd rfl hforce
  | startReadInLoop =>
      obtain ⟨hdoes, hstate, -⟩ := startReadInLoop_ok hlog.wf hok
      exact ⟨_, _, _, hlog.then hdoes, hstate, by simpa using hquiet, by simp⟩
  | stopReadInLoop =>
      obtain ⟨hdoes, hstate, -⟩ := stopReadInLoop_ok hlog.wf hok
      exact ⟨_, _, _, hlog.then hdoes, hstate, by simpa using hquiet, by simp⟩
  | writeCompleteCallback =>
      rw [runFunctor, Except.ok.injEq] at hok
      rw [← hok]
      exact ⟨_, _, _, hlog, rfl, hquiet, by simp⟩
  | highWateMarkCallback size =>
      rw [runFunctor, Except.ok.injEq] at hok
      rw [← hok]
      exact ⟨_, _, _, hlog, rfl, hquiet, by simp⟩
  | connectDestroyed => exact absurd rfl hdestroyed

/-- On a disconnected connection it leaves the channel alone, unless it starts or stops reading. -/
lemma runFunctor_ch (h : c.Wf) (hstate : c.state = .kDisconnected) {f : Functor} {o : WriteOutcome}
    (hstart : f ≠ .startReadInLoop) (hstop : f ≠ .stopReadInLoop) (hdestroyed : f ≠ .connectDestroyed)
    (hok : c.runFunctor mem f o = .ok c') : c'.ch = c.ch := by
  have hlog := (h.does_nothing.log (.ran f)).wf
  cases f with
  | sendInLoop t message =>
      rcases sendInLoop_spec hlog hok with ⟨-, rfl⟩ | ⟨hne, -⟩
      · rfl
      · exact absurd hstate hne
  | shutdownInLoop =>
      rw [runFunctor, Except.ok.injEq] at hok
      rw [← hok]
      exact (shutdownInLoop_spec hlog).2.2
  | forceCloseInLoop =>
      rw [runFunctor, forceCloseInLoop, forceCloseInLoopWith, if_neg (by simp [hstate]),
        Except.ok.injEq] at hok
      rw [← hok]
      rfl
  | startReadInLoop => exact absurd rfl hstart
  | stopReadInLoop => exact absurd rfl hstop
  | writeCompleteCallback =>
      rw [runFunctor, Except.ok.injEq] at hok
      rw [← hok]
      rfl
  | highWateMarkCallback size =>
      rw [runFunctor, Except.ok.injEq] at hok
      rw [← hok]
      rfl
  | connectDestroyed => exact absurd rfl hdestroyed

/-- **A call by the loop's thread** closes nothing. -/
lemma call_ok (h : c.Wf) {m : Call} {o : WriteOutcome} (hok : c.call mem .loop o m = .ok c') :
    ∃ out es fs, c.Does c' out es fs ∧
      (c'.state = c.state ∨ c.state ≠ .kDisconnected ∧ c'.state = .kDisconnecting) ∧
      Quiet es ∧ (∀ f ∈ fs, f.MayQueue) := by
  have hnothing : c' = c → ∃ out es fs, c.Does c' out es fs ∧
      (c'.state = c.state ∨ c.state ≠ .kDisconnected ∧ c'.state = .kDisconnecting) ∧
      Quiet es ∧ (∀ f ∈ fs, f.MayQueue) := by
    rintro rfl
    exact ⟨_, _, _, h.does_nothing, Or.inl rfl, by simp [Quiet], by simp⟩
  have hfunctor : ∀ f, f ≠ .forceCloseInLoop → f ≠ .connectDestroyed →
      c.runFunctor mem f o = .ok c' → ∃ out es fs, c.Does c' out es fs ∧
      (c'.state = c.state ∨ c.state ≠ .kDisconnected ∧ c'.state = .kDisconnecting) ∧
      Quiet es ∧ (∀ f ∈ fs, f.MayQueue) := by
    intro f hforce hdestroyed hrun
    obtain ⟨out, es, fs, hdoes, hstate, hes, hfs⟩ := runFunctor_ok h hforce hdestroyed hrun
    exact ⟨out, es, fs, hdoes, Or.inl hstate, hes, fun f hf => Or.inl (hfs f hf)⟩
  cases m with
  | send message =>
      rw [call, runInLoop, if_pos rfl] at hok
      split_ifs at hok with hstate
      · have hlog := h.does_nothing.log (.send .loop message)
        obtain ⟨out, es, fs, hdoes, hst, hes, hfs⟩ :=
          runFunctor_ok hlog.wf (by simp) (by simp) hok
        refine ⟨_, _, _, hlog.trans hdoes, Or.inl hst, Quiet.append ?_ hes, ?_⟩
        · simp [Quiet]
        · intro f hf
          exact Or.inl (hfs f hf)
      · rw [Except.ok.injEq] at hok
        exact hnothing hok.symm
  | shutdown =>
      rw [call, runInLoop, if_pos rfl] at hok
      split_ifs at hok with hstate
      · have hlog := (h.does_nothing.setState .kDisconnecting).log .shutdown
        obtain ⟨out, es, fs, hdoes, hst, hes, hfs⟩ :=
          runFunctor_ok hlog.wf (by simp) (by simp) hok
        refine ⟨_, _, _, hlog.trans hdoes, Or.inr ⟨by simp [hstate], hst⟩, Quiet.append ?_ hes, ?_⟩
        · simp [Quiet]
        · intro f hf
          exact Or.inl (hfs f hf)
      · rw [Except.ok.injEq] at hok
        exact hnothing hok.symm
  | forceClose =>
      rw [call] at hok
      split_ifs at hok with hstate
      · rw [Except.ok.injEq] at hok
        rw [← hok]
        refine ⟨_, _, _, (h.does_nothing.setState _).queueInLoop .forceCloseInLoop,
          Or.inr ⟨?_, rfl⟩, by simp [Quiet], by simp [Functor.MayQueue]⟩
        rcases hstate with hstate | hstate <;> simp [hstate]
      · rw [Except.ok.injEq] at hok
        exact hnothing hok.symm
  | startRead =>
      rw [call, runInLoop, if_pos rfl] at hok
      exact hfunctor _ (by decide) (by decide) hok
  | stopRead =>
      rw [call, runInLoop, if_pos rfl] at hok
      exact hfunctor _ (by decide) (by decide) hok

/-- On a disconnected connection, a call that does not touch the channel leaves it as it is. -/
lemma call_ch (hstate : c.state = .kDisconnected) {m : Call} (htouches : ¬ c.Touches m)
    {o : WriteOutcome} (hok : c.call mem .loop o m = .ok c') : c'.ch = c.ch := by
  cases m with
  | send message =>
      rw [call, if_neg (by simp [hstate]), Except.ok.injEq] at hok
      rw [hok]
  | shutdown =>
      rw [call, if_neg (by simp [hstate]), Except.ok.injEq] at hok
      rw [hok]
  | forceClose =>
      rw [call, if_neg (by simp [hstate]), Except.ok.injEq] at hok
      rw [hok]
  | startRead =>
      rw [call, runInLoop, if_pos rfl, runFunctor] at hok
      rw [startReadInLoop, if_neg (by exact htouches), pure_eq_ok, Except.ok.injEq] at hok
      rw [← hok, log_ch]
  | stopRead =>
      rw [call, runInLoop, if_pos rfl, runFunctor] at hok
      rw [stopReadInLoop, if_neg (by exact htouches), pure_eq_ok, Except.ok.injEq] at hok
      rw [← hok, log_ch]

end TcpConnection

end Seenet
