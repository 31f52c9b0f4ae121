import Seenet.TcpConnection.Frame

/-!
# What stops a connection

A connection may run out of memory, read outside of a buffer, or fail an assertion of its own.  It never stops
because of a pointer (`Stop.dangling`): it follows none but to its own channel.

* `Avoids`, `Firm` — a call that does not stop for such a reason.
* `…_firm` — for every function.
-/

namespace Seenet

open Channel

/-- A pointer is used to what is not there, or an assertion about what such pointers lead to fails. -/
def Stop.dangling : Stop → Bool
  | .noObject => true
  | .assertFailed .updateChannel => true
  | .assertFailed .fillActiveChannels => true
  | .assertFailed .connectEstablished => true
  | .assertFailed .getNextLoop => true
  | _ => false

/-- The call does not stop for a reason of that kind. -/
def Avoids {α : Type*} (bad : Stop → Bool) (x : Res α) : Prop := ∀ e, x = .error e → bad e = false

namespace Avoids

universe u

variable {α β : Type u} {x : Res α} {f : α → Res β} {e : Stop} {p : Prop} [Decidable p] {site : Site}
variable {bad : Stop → Bool}

lemma ok (a : α) : Avoids bad (.ok a) := by simp [Avoids]

lemma of_eq_ok {a : α} (h : x = .ok a) : Avoids bad x := by
  rw [h]
  exact ok a

lemma error (h : bad e = false) : Avoids bad (.error e : Res α) := by
  rintro e' ⟨⟩
  exact h

/-- A sequence of two calls. -/
lemma bind (hx : Avoids bad x) (hf : ∀ a, x = .ok a → Avoids bad (f a)) : Avoids bad (x >>= f) := by
  intro e he
  rcases bind_eq_error.mp he with he | ⟨a, ha, he⟩
  · exact hx e he
  · exact hf a ha e he

lemma assertThat (h : bad (.assertFailed site) = false) : Avoids bad (assertThat p site) := by
  intro e he
  rw [(assertThat_eq_error.mp he).2]
  exact h

lemma assertThat_of_pos (h : p) : Avoids bad (Seenet.assertThat p site) := of_eq_ok (assertThat_pos h)

/-- A guarded step. -/
lemma guard (hbad : bad .disabled = false) (h : p → Avoids bad x) :
    Avoids bad (if p then x else .error .disabled) := by
  split_ifs with hp
  · exact h hp
  · exact error hbad

end Avoids

/-- The call does not stop because of a pointer. -/
abbrev Firm {α : Type*} (x : Res α) : Prop := Avoids Stop.dangling x

/-! ## Buffers -/

namespace Buffer

variable {mem : Memory} {b : Buffer}

lemma resize_firm (l : List UInt8) (n : ℕ) : Firm (resize mem l n) := by
  rw [resize]
  split_ifs
  · exact .ok _
  · exact .ok _
  · exact .error rfl

lemma copyOut_firm (l : List UInt8) (i j : ℕ) : Firm (copyOut l i j) := by
  rw [copyOut]
  split_ifs
  · exact .ok _
  · exact .error rfl

lemma copyIn_firm (l : List UInt8) (p : ℕ) (d : List UInt8) : Firm (copyIn l p d) := by
  rw [copyIn]
  split_ifs
  · exact .ok _
  · exact .error rfl

lemma create_firm (initialSize : ℕ) : Firm (create mem initialSize) := by
  refine .bind (resize_firm _ _) fun _ _ => ?_
  exact .bind (.assertThat rfl) fun _ _ => .bind (.assertThat rfl) fun _ _ => .bind (.assertThat rfl) fun _ _ => .ok _

lemma retrieve_firm (len : ℕ) : Firm (b.retrieve len) := by
  refine .bind (.assertThat rfl) fun _ _ => ?_
  split_ifs
  · exact .ok _
  · exact .ok _

lemma makeSpace_firm (len : ℕ) : Firm (makeSpace mem b len) := by
  rw [makeSpace]
  split_ifs
  · exact .bind (resize_firm _ _) fun _ _ => .ok _
  · refine .bind (.assertThat rfl) fun _ _ => ?_
    refine .bind (copyOut_firm _ _ _) fun _ _ => ?_
    refine .bind (copyIn_firm _ _ _) fun _ _ => ?_
    exact .bind (.assertThat rfl) fun _ _ => .ok _

lemma append_firm (data : List UInt8) : Firm (b.append mem data) := by
  have hensure : Firm (b.ensureWritableBytes mem data.length) := by
    rw [ensureWritableBytes]
    split_ifs
    · exact .bind (makeSpace_firm _) fun _ _ => .bind (.assertThat rfl) fun _ _ => .ok _
    · exact .bind (.ok _) fun _ _ => .bind (.assertThat rfl) fun _ _ => .ok _
  refine .bind hensure fun _ _ => .bind (copyIn_firm _ _ _) fun _ _ => ?_
  exact .bind (.assertThat rfl) fun _ _ => .ok _

lemma readFd_firm (o : ReadOutcome) : Firm (b.readFd mem o) := by
  cases o with
  | error e => exact .ok _
  | bytes data =>
      simp only [readFd, throw_eq_error, bind_error, pure_eq_ok]
      have hrest : Firm (do
          let buff ← copyIn b.buff b.wirterIndex (data.take b.wirtableBytes)
          if data.length ≤ b.wirtableBytes then
            .ok (.ok data.length, ⟨buff, b.readerIndex, sizeAdd b.wirterIndex data.length⟩)
          else do
            let b ← append mem ⟨buff, b.readerIndex, buff.length⟩ (data.drop b.wirtableBytes)
            .ok (.ok data.length, b) : Res (Except Errno ℕ × Buffer)) := by
        refine .bind (copyIn_firm _ _ _) fun _ _ => ?_
        split_ifs
        · exact .ok _
        · exact .bind (append_firm _) fun _ _ => .ok _
      split_ifs at hrest ⊢
      all_goals first | exact .error rfl | exact hrest

end Buffer

/-! ## Connections -/

namespace TcpConnection

variable {ι : Type} {c : TcpConnection ι} {mem : Memory} {bad : Stop → Bool}

lemma write_avoids (hbad : bad .disabled = false) (len : ℕ) (o : WriteOutcome) : Avoids bad (sockets.write len o) := by
  cases o with
  | error e => exact .ok _
  | wrote n => exact .guard hbad fun _ => .ok _

lemma directWrite_avoids (hbad : bad .disabled = false) (data : List UInt8) (o : WriteOutcome) :
    Avoids bad (c.directWrite data o) := by
  rw [directWrite]
  split_ifs
  · refine .bind (write_avoids hbad _ _) fun n _ => ?_
    cases n with
    | error e => exact .ok _
    | ok n =>
        dsimp only
        split_ifs
        · exact .ok _
        · exact .ok _
  · exact .ok _

/-- `handleRead` is firm if `handleClose` is. -/
lemma handleReadWith_firm {β : Type} {close : TcpConnection ι → Res β} {done : TcpConnection ι → β}
    {o : ReadOutcome} (hclose : ∀ buffer, Firm (close { c with inputBuffer := buffer })) :
    Firm (c.handleReadWith close done mem o) := by
  refine .bind (Buffer.readFd_firm o) ?_
  rintro ⟨n, buffer⟩ -
  cases n with
  | error e => exact .ok _
  | ok n =>
      dsimp only
      split_ifs
      · exact .ok _
      · exact hclose buffer

variable [DecidableEq ι]

/-- An operation on the channel that sets its mask: the poller has what it expects. -/
lemma onChannel_avoids (h : c.Wf) {op : Registry ι → ι → Res (Registry ι)} {events : Finset Event}
    (hop : op c.registry c.channel = c.registry.update c.channel events) : Avoids bad (c.onChannel op) := by
  obtain ⟨c', hok, -⟩ := onChannel_spec h hop
  exact .of_eq_ok hok

lemma onChannel_remove_firm : Firm (c.onChannel Registry.remove) := by
  refine .bind (.bind ?_ fun _ _ => .ok _) fun _ _ => .ok _
  refine .bind (.assertThat rfl) fun _ _ => .bind (.assertThat rfl) fun _ _ => ?_
  exact .bind (.assertThat rfl) fun _ _ => .bind (.assertThat rfl) fun _ _ => .ok _

lemma beginClose_firm (h : c.Wf) : Firm c.beginClose := by
  refine .bind (.assertThat rfl) fun _ _ => ?_
  exact .bind (onChannel_avoids (h.does_nothing.setState _).wf rfl) fun _ _ => .ok _

lemma connectEstablished_avoids (h : c.Wf) (hstate : c.state = .kConnecting) : Avoids bad c.connectEstablished := by
  refine .bind (.assertThat_of_pos hstate) fun _ _ => ?_
  exact .bind (onChannel_avoids (h.does_nothing.setState _).wf rfl) fun _ _ => .ok _

lemma connectDestroyed_firm (h : c.Wf) : Firm c.connectDestroyed := by
  rw [connectDestroyed_eq]
  split_ifs
  · refine .bind ?_ fun _ _ => onChannel_remove_firm
    exact .bind (onChannel_avoids (h.does_nothing.setState _).wf rfl) fun _ _ => .ok _
  · exact .bind (.ok _) fun _ _ => onChannel_remove_firm

lemma startReadInLoop_firm (h : c.Wf) : Firm c.startReadInLoop := by
  obtain ⟨c', hok, -⟩ := startReadInLoop_spec h
  exact .of_eq_ok hok

lemma stopReadInLoop_firm (h : c.Wf) : Firm c.stopReadInLoop := by
  obtain ⟨c', hok, -⟩ := stopReadInLoop_spec h
  exact .of_eq_ok hok

lemma bufferRemaining_firm (h : c.Wf) (data : List UInt8) (nwrote remaining : ℕ) :
    Firm (c.bufferRemaining mem data nwrote remaining) := by
  rw [bufferRemaining_eq]
  refine .bind (Buffer.append_firm _) fun buffer hbuffer => ?_
  have hnotify := (notify_does h (sizeAdd c.outputBuffer.readableBytes remaining)).1.wf
  have hwf : Wf { c.notify (sizeAdd c.outputBuffer.readableBytes remaining) with outputBuffer := buffer } :=
    ⟨hnotify.coherent, (h.outputBuffer.append hbuffer).1⟩
  split_ifs
  · exact onChannel_avoids hwf rfl
  · exact .ok _

lemma sendInLoop_firm (h : c.Wf) (t : Thread) (data : List UInt8) (o : WriteOutcome) :
    Firm (c.sendInLoop mem t data o) := by
  rw [sendInLoop]
  split_ifs
  · exact .ok _
  · refine .bind (directWrite_avoids rfl data o) ?_
    rintro ⟨c₁, nwrote, remaining, fault⟩ hwrite
    refine .bind (.assertThat rfl) fun _ _ => ?_
    have hwf : c₁.Wf := by
      cases directWrite_spec h hwrite with
      | busy => exact h
      | direct _ _ _ hdoes => exact hdoes.wf
      | error => exact h
    cases fault with
    | true => exact .ok _
    | false =>
        simp only [Bool.false_eq_true, if_false, not_false_eq_true, true_and]
        split_ifs
        · exact bufferRemaining_firm (hwf.does_nothing.log _).wf _ _ _
        · exact .ok _

lemma drained_firm (h : c.Wf) : Firm c.drained := by
  refine .bind (onChannel_avoids h rfl) fun _ _ => ?_
  dsimp only
  split_ifs
  all_goals exact .ok _

lemma handleWrite_firm (h : c.Wf) (o : WriteOutcome) : Firm (c.handleWrite o) := by
  rw [handleWrite]
  split_ifs
  · refine .bind (write_avoids rfl _ _) fun n hn => ?_
    cases n with
    | error e => exact .ok _
    | ok n =>
        dsimp only
        split_ifs
        · refine .bind (Buffer.retrieve_firm _) fun buffer hbuffer => ?_
          have hle : n ≤ c.outputBuffer.readableBytes := by
            cases o with
            | error e => simp [sockets.write] at hn
            | wrote m =>
                rw [sockets.write, guard_eq_ok, Except.ok.injEq, Except.ok.injEq] at hn
                rw [← hn.2]
                exact hn.1
          have hwf := (h.outputBuffer.retrieve hle hbuffer).1
          split_ifs
          · exact drained_firm ⟨h.coherent, hwf⟩
          · exact .ok _
        · exact .ok _
  · exact .ok _

/-- A functor other than `forceCloseInLoop`. -/
lemma runFunctor_firm (h : c.Wf) {f : Functor} (hf : f ≠ .forceCloseInLoop) (o : WriteOutcome) :
    Firm (c.runFunctor mem f o) := by
  have hlog := (h.does_nothing.log (.ran f)).wf
  cases f with
  | sendInLoop t message => exact sendInLoop_firm hlog _ _ _
  | shutdownInLoop => exact .ok _
  | forceCloseInLoop => exact absurd rfl hf
  | startReadInLoop => exact startReadInLoop_firm hlog
  | stopReadInLoop => exact stopReadInLoop_firm hlog
  | writeCompleteCallback => exact .ok _
  | highWateMarkCallback size => exact .ok _
  | connectDestroyed => exact connectDestroyed_firm hlog

lemma runInLoop_firm (h : c.Wf) {f : Functor} (hf : f ≠ .forceCloseInLoop) (t : Thread) (o : WriteOutcome) :
    Firm (c.runInLoop mem t f o) := by
  rw [runInLoop]
  split_ifs
  · exact runFunctor_firm h hf o
  · exact .ok _

/-- A call by any thread. -/
lemma call_firm (h : c.Wf) (t : Thread) (m : Call) (o : WriteOutcome) : Firm (c.call mem t o m) := by
  cases m with
  | send message =>
      rw [call]
      split_ifs
      · exact runInLoop_firm (h.does_nothing.log _).wf (by simp) t o
      · exact .ok _
  | shutdown =>
      rw [call]
      split_ifs
      · exact runInLoop_firm ((h.does_nothing.setState _).log _).wf (by simp) t o
      · exact .ok _
  | forceClose =>
      rw [call]
      split_ifs
      · exact .ok _
      · exact .ok _
  | startRead => exact runInLoop_firm h (by simp) t o
  | stopRead => exact runInLoop_firm h (by simp) t o

end TcpConnection

end Seenet
