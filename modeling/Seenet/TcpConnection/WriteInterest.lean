import Seenet.TcpConnection.Steps

/-!
# Buffered bytes and the interest in writing

`sendInLoop` puts what it could not write in the output buffer, and means to have the channel wait to
write; but it asks for that only if the channel waits already.  So no connection ever waits to write,
and bytes in the output buffer stay there.

* `WriteInterest` — the output buffer is non-empty exactly while the channel waits to write.
* `Strands` — the step is a `sendInLoop` that leaves something to be written later.
* **`writeInterest_iff`** — a run keeps `WriteInterest` exactly when none of its steps does that.
-/

namespace Seenet

namespace TcpConnection

variable {ι : Type}

/-- **The output buffer is non-empty exactly while the channel waits to write**, unless the connection is
disconnected. -/
def WriteInterest (c : TcpConnection ι) : Prop :=
  c.state ≠ .kDisconnected → (c.output ≠ [] ↔ c.isWriting = true)

/-- A write with this outcome leaves something of the message that `sendInLoop` does not give up. -/
def LeavesRest (data : List UInt8) : WriteOutcome → Prop
  | .wrote n => n < data.length
  | .error errno => (errno = EWOULDBLOCK ∨ errno = EPIPE) ∧ data ≠ []

/-- The step is a `sendInLoop` on a connection that is not disconnected, and its write leaves something
of the message. -/
def Strands (c : TcpConnection ι) (call : LoopCall) : Prop :=
  c.state ≠ .kDisconnected ∧
    ∃ t data o, call = .functor (.sendInLoop t data) o ∧ LeavesRest data o

lemma faultError_eq_false_iff {errno : Errno} :
    faultError errno = false ↔ errno = EWOULDBLOCK ∨ errno = EPIPE := by
  rw [faultError]
  split_ifs with h
  · simp only [ne_eq, decide_eq_false_iff_not, not_or, not_not]
    constructor
    · exact fun hp => Or.inr hp.1
    · rintro (he | he)
      · exact absurd he h
      · exact ⟨he, by rw [he]; decide⟩
  · simp only [ne_eq, not_not] at h
    exact ⟨fun _ => Or.inl h, fun _ => rfl⟩

/-- Nothing is buffered, and nothing waits to be written. -/
structure Clear (c : TcpConnection ι) : Prop where
  wf : c.Wf
  isWriting_eq : c.isWriting = false
  output_eq : c.state ≠ .kDisconnected → c.output = []

variable {c c' : TcpConnection ι}

lemma Clear.writeInterest (h : c.Clear) : c.WriteInterest := by
  intro hstate
  simp [h.output_eq hstate, h.isWriting_eq]

lemma Clear.log (h : c.Clear) (e : Effect) : (c.log e).Clear :=
  ⟨(h.wf.does_nothing.log e).wf, h.isWriting_eq, h.output_eq⟩

lemma Clear.idle (h : c.Clear) (hstate : c.state ≠ .kDisconnected) : c.Idle :=
  ⟨h.isWriting_eq, h.output_eq hstate⟩

/-- Steps that leave the bytes alone. -/
lemma Clear.spares (h : c.Clear) (hs : c.Spares c') : c'.Clear := by
  obtain ⟨es, fs, hdoes, -, -⟩ := hs.does
  refine ⟨hdoes.wf, ?_, ?_⟩
  · rw [Bool.eq_false_iff]
    intro hw
    exact absurd (hs.isWriting_le hw) (by simp [h.isWriting_eq])
  · intro hstate
    rw [hdoes.output_eq]
    exact h.output_eq fun hd => hstate (hs.disconnected hd)

/-- On an idle connection, what a message leaves in the buffer is what its write leaves. -/
lemma Sends.kept_eq_nil_iff {t : Thread} {data kept : List UInt8} {o : WriteOutcome}
    {es : List Effect} (hs : c.Sends t data o kept es) (hidle : c.Idle) :
    kept = [] ↔ ¬ LeavesRest data o := by
  cases hs with
  | busy hbusy => exact absurd hidle hbusy
  | direct _ hn => rw [LeavesRest, List.drop_eq_nil_iff, not_lt]
  | failed _ he =>
      rw [faultError_eq_false_iff] at he
      simp [LeavesRest, he]
  | fault _ he =>
      have hne : ¬ _ := fun hf => by
        rw [faultError_eq_false_iff.mpr hf] at he
        exact absurd he (by simp)
      simp [LeavesRest, hne]

variable [DecidableEq ι] {mem : Memory}

/-- `sendInLoop` on a connection with nothing buffered. -/
lemma Clear.sendInLoop (h : c.Clear) {t : Thread} {data : List UInt8} {o : WriteOutcome}
    (hok : c.sendInLoop mem t data o = .ok c') :
    c'.Wf ∧ c'.isWriting = false ∧ c'.state = c.state ∧
      (c.state ≠ .kDisconnected → (c'.output = [] ↔ ¬ LeavesRest data o)) := by
  rcases sendInLoop_spec h.wf hok with ⟨hstate, rfl⟩ | ⟨hstate, hst, hev, kept, es, fs, hs, -, hdoes⟩
  · exact ⟨h.wf, h.isWriting_eq, rfl, fun hne => absurd hstate hne⟩
  · have hidle := h.idle hstate
    refine ⟨hdoes.wf, (isWriting_eq_of_events hev).trans h.isWriting_eq, hst, ?_⟩
    intro _
    rw [hdoes.output_eq, h.output_eq hstate, List.nil_append, hs.kept_eq_nil_iff hidle]

/-- **A step that strands nothing** leaves the connection with nothing buffered. -/
lemma Clear.perform (h : c.Clear) {call : LoopCall} (hno : ¬ c.Strands call)
    (hok : c.perform mem call = .ok c') : c'.Clear := by
  cases call with
  | handleRead o => exact h.spares (handleRead_spares h.wf hok)
  | handleWrite o =>
      rw [handleWrite_of_not_isWriting h.isWriting_eq hok]
      exact h
  | functor f o =>
      by_cases hsend : ∃ t data, f = .sendInLoop t data
      · obtain ⟨t, data, rfl⟩ := hsend
        obtain ⟨hwf, hw, hst, hout⟩ := (h.log (.ran (.sendInLoop t data))).sendInLoop hok
        refine ⟨hwf, hw, ?_⟩
        intro hstate
        have hne : c.state ≠ .kDisconnected := by rwa [hst] at hstate
        exact (hout hne).mpr fun hleaves => hno ⟨hne, t, data, o, rfl, hleaves⟩
      · by_cases hshutdown : f = .shutdownInLoop
        · subst hshutdown
          rw [TcpConnection.perform, runFunctor, Except.ok.injEq,
            shutdownInLoop_of_not_isWriting (h.log _).isWriting_eq] at hok
          rw [← hok]
          exact h.log _
        · exact (h.log _).spares (runFunctor_spares h.wf
            (fun t data heq => hsend ⟨t, data, heq⟩) hshutdown hok)

/-- **A step that strands bytes**: they are in the output buffer, and the channel does not wait to write
them. -/
lemma Clear.strands (h : c.Clear) {call : LoopCall} (hstrands : c.Strands call)
    (hok : c.perform mem call = .ok c') : ¬ c'.WriteInterest := by
  obtain ⟨hstate, t, data, o, rfl, hleaves⟩ := hstrands
  obtain ⟨-, hw, hst, hout⟩ := (h.log (.ran (.sendInLoop t data))).sendInLoop hok
  intro hinterest
  have hne : c'.output ≠ [] := fun hnil => (hout hstate).mp hnil hleaves
  rw [hinterest (by rw [hst]; exact hstate), hw] at hne
  exact absurd hne (by simp)

/-- **When the output buffer and the interest in writing stay in step.**  Throughout a run of an
established connection the output buffer is non-empty exactly while the channel waits to write, if and
only if no `sendInLoop` of the run, made while the connection was not disconnected, left anything to be
written later. -/
theorem writeInterest_iff (s : Setting ι) (calls : List LoopCall) :
    (∀ c ∈ Machine.states (perform s.mem) s.start calls, c.WriteInterest)
      ↔ ∀ p ∈ Machine.steps (perform s.mem) s.start calls, ¬ p.1.Strands p.2 := by
  have hstart := s.established.2
  refine Machine.forall_states_iff (I := Clear) (C := fun c call => ¬ c.Strands call)
    (fun c h => h.writeInterest) (fun c call c' h hno hok => h.perform hno hok)
    (fun c call c' h hno hok => h.strands (not_not.mp hno) hok) ?_ calls
  exact ⟨hstart.wf, hstart.isWriting_eq, fun _ => hstart.output_eq⟩

/-- **Stranded bytes.**  Three bytes are sent and the kernel takes one; the other two are in the output
buffer, and the channel does not wait to write. -/
theorem not_writeInterest :
    ∃ c, Machine.run (perform Setting.plain.mem) Setting.plain.start
        [.functor (.sendInLoop .loop [1, 2, 3]) (.wrote 1)] = .ok c ∧
      c.state = .kConnected ∧ c.output = [2, 3] ∧ c.isWriting = false ∧ ¬ c.WriteInterest := by
  have hrun : (Machine.run (perform Setting.plain.mem) Setting.plain.start
      [.functor (.sendInLoop .loop [1, 2, 3]) (.wrote 1)]).map
      (fun c => (c.state, c.output, c.isWriting)) = .ok (.kConnected, [2, 3], false) := by
    decide +kernel
  obtain ⟨c, hc, hobs⟩ := Machine.ok_of_map hrun
  simp only [Prod.mk.injEq] at hobs
  obtain ⟨hstate, hout, hw⟩ := hobs
  refine ⟨c, hc, hstate, hout, hw, ?_⟩
  intro h
  have hiff := h (by simp [hstate])
  simp [hout, hw] at hiff

end TcpConnection

end Seenet
