import Seenet.TcpConnection.Round

/-!
# Where the assertion of `handleClose` can fail

Only in `handleClose` itself, which its callers reach with the connection as it is when they call it.
Everything else a connection does, from the poller to the buffers, may stop for a reason of its own, but
`Passes .handleClose`.
-/

namespace Seenet

/-! ## Buffers -/

namespace Buffer

variable {mem : Memory} {b : Buffer}

lemma resize_passes (l : List UInt8) (n : ℕ) : Passes .handleClose (resize mem l n) := by
  rw [resize]
  split_ifs
  · exact .ok _
  · exact .ok _
  · exact .error (by decide)

lemma copyOut_passes (l : List UInt8) (i j : ℕ) : Passes .handleClose (copyOut l i j) := by
  rw [copyOut]
  split_ifs
  · exact .ok _
  · exact .error (by decide)

lemma copyIn_passes (l : List UInt8) (p : ℕ) (d : List UInt8) :
    Passes .handleClose (copyIn l p d) := by
  rw [copyIn]
  split_ifs
  · exact .ok _
  · exact .error (by decide)

lemma retrieve_passes (len : ℕ) : Passes .handleClose (b.retrieve len) := by
  refine .bind (.assertThat_of_ne (by decide)) fun _ _ => ?_
  split_ifs
  · exact .ok _
  · exact .ok _

lemma makeSpace_passes (len : ℕ) : Passes .handleClose (makeSpace mem b len) := by
  rw [makeSpace]
  split_ifs
  · exact .bind (resize_passes _ _) fun _ _ => .ok _
  · refine .bind (.assertThat_of_ne (by decide)) fun _ _ => ?_
    refine .bind (copyOut_passes _ _ _) fun _ _ => ?_
    refine .bind (copyIn_passes _ _ _) fun _ _ => ?_
    exact .bind (.assertThat_of_ne (by decide)) fun _ _ => .ok _

lemma ensureWritableBytes_passes (len : ℕ) :
    Passes .handleClose (b.ensureWritableBytes mem len) := by
  rw [ensureWritableBytes]
  split_ifs
  · exact .bind (makeSpace_passes len) fun _ _ =>
      .bind (.assertThat_of_ne (by decide)) fun _ _ => .ok _
  · exact .bind (.ok _) fun _ _ => .bind (.assertThat_of_ne (by decide)) fun _ _ => .ok _

lemma append_passes (data : List UInt8) : Passes .handleClose (b.append mem data) := by
  refine .bind (ensureWritableBytes_passes _) fun _ _ => ?_
  refine .bind (copyIn_passes _ _ _) fun _ _ => ?_
  exact .bind (.assertThat_of_ne (by decide)) fun _ _ => .ok _

lemma readFd_passes (o : ReadOutcome) : Passes .handleClose (b.readFd mem o) := by
  cases o with
  | error e => exact .ok _
  | bytes data =>
      simp only [readFd, throw_eq_error, bind_error, pure_eq_ok]
      have hrest : Passes .handleClose (do
          let buff ← copyIn b.buff b.wirterIndex (data.take b.wirtableBytes)
          if data.length ≤ b.wirtableBytes then
            .ok (.ok data.length, ⟨buff, b.readerIndex, sizeAdd b.wirterIndex data.length⟩)
          else do
            let b ← append mem ⟨buff, b.readerIndex, buff.length⟩ (data.drop b.wirtableBytes)
            .ok (.ok data.length, b) : Res (Except Errno ℕ × Buffer)) := by
        refine .bind (copyIn_passes _ _ _) fun _ _ => ?_
        split_ifs
        · exact .ok _
        · exact .bind (append_passes _) fun _ _ => .ok _
      split_ifs at hrest ⊢
      all_goals first | exact .error (by decide) | exact hrest

end Buffer

/-! ## The poller -/

namespace Registry

variable {ι : Type} [DecidableEq ι] {r : Registry ι} {c : ι}

lemma remove_passes : Passes .handleClose (r.remove c) := by
  refine .bind ?_ fun _ _ => .ok _
  refine .bind (.assertThat_of_ne (by decide)) fun _ _ => ?_
  refine .bind (.assertThat_of_ne (by decide)) fun _ _ => ?_
  refine .bind (.assertThat_of_ne (by decide)) fun _ _ => ?_
  exact .bind (.assertThat_of_ne (by decide)) fun _ _ => .ok _

lemma poll_passes (h : r.Coherent) (report : List (ℤ × Finset Event)) :
    Passes .handleClose (r.poll report) := by
  rcases poll_spec h report with ⟨e, hwait, hpoll⟩ | ⟨r', active, hpoll, -⟩
  · rw [hpoll, EPollPoller.epollWait_error hwait]
    exact .error (by decide)
  · exact .of_eq_ok hpoll

end Registry

/-! ## Connections -/

namespace TcpConnection

variable {ι : Type} {c : TcpConnection ι} {mem : Memory}

lemma write_passes (len : ℕ) (o : WriteOutcome) : Passes .handleClose (sockets.write len o) := by
  cases o with
  | error e => exact .ok _
  | wrote n =>
      rw [sockets.write]
      split_ifs
      · exact .ok _
      · exact .error (by decide)

lemma directWrite_passes (data : List UInt8) (o : WriteOutcome) :
    Passes .handleClose (c.directWrite data o) := by
  rw [directWrite]
  split_ifs
  · refine .bind (write_passes _ _) fun n _ => ?_
    cases n with
    | error e => exact .ok _
    | ok n =>
        dsimp only
        split_ifs
        · exact .ok _
        · exact .ok _
  · exact .ok _

/-- `handleRead` passes if `handleClose` does, which it calls at the end of the stream. -/
lemma handleReadWith_passes {β : Type} {close : TcpConnection ι → Res β}
    {done : TcpConnection ι → β} {o : ReadOutcome}
    (hclose : ∀ buffer, c.inputBuffer.readFd mem o = .ok (.ok 0, buffer) →
      Passes .handleClose (close { c with inputBuffer := buffer })) :
    Passes .handleClose (c.handleReadWith close done mem o) := by
  refine .bind (Buffer.readFd_passes o) ?_
  rintro ⟨n, buffer⟩ hread
  cases n with
  | error e => exact .ok _
  | ok n =>
      dsimp only
      split_ifs with hpos
      · exact .ok _
      · obtain rfl : n = 0 := by omega
        exact hclose buffer hread

variable [DecidableEq ι]

/-- An operation on the channel that sets its mask. -/
lemma onChannel_passes (h : c.Wf) {op : Registry ι → ι → Res (Registry ι)} {events : Finset Event}
    (hop : op c.registry c.channel = c.registry.update c.channel events) :
    Passes .handleClose (c.onChannel op) := by
  obtain ⟨c', hok, -⟩ := onChannel_spec h hop
  exact .of_eq_ok hok

/-- `handleClose` passes while the connection is open. -/
lemma beginClose_passes (h : c.Wf) (hopen : c.state = .kConnected ∨ c.state = .kDisconnecting) :
    Passes .handleClose c.beginClose := by
  refine .bind (.assertThat_of_pos hopen) fun _ _ => ?_
  exact .bind (onChannel_passes (h.does_nothing.setState _).wf rfl) fun _ _ => .ok _

lemma connectDestroyed_passes (h : c.Wf) : Passes .handleClose c.connectDestroyed := by
  have hremove : ∀ c₁ : TcpConnection ι, Passes .handleClose (c₁.onChannel Registry.remove) :=
    fun _ => .bind Registry.remove_passes fun _ _ => .ok _
  rw [connectDestroyed]
  split_ifs
  · have hset := h.does_nothing.setState .kDisconnected
    refine .bind (onChannel_passes hset.wf rfl) fun c₁ _ => ?_
    exact .bind (.ok _) fun c₂ _ => hremove c₂
  · exact .bind (.ok _) fun c₁ _ => hremove c₁

lemma startReadInLoop_passes (h : c.Wf) : Passes .handleClose c.startReadInLoop := by
  rw [startReadInLoop]
  split_ifs
  · exact .bind (onChannel_passes h rfl) fun _ _ => .ok _
  · exact .ok _

lemma stopReadInLoop_passes (h : c.Wf) : Passes .handleClose c.stopReadInLoop := by
  rw [stopReadInLoop]
  split_ifs
  · exact .bind (onChannel_passes h rfl) fun _ _ => .ok _
  · exact .ok _

lemma bufferRemaining_passes (h : c.Wf) (data : List UInt8) (nwrote remaining : ℕ) :
    Passes .handleClose (c.bufferRemaining mem data nwrote remaining) := by
  rw [bufferRemaining]
  generalize hc₁ : (if c.highWaterMark ≤ sizeAdd c.outputBuffer.readableBytes remaining ∧
      c.highWateMarkCallback then
    c.queueInLoop (.highWateMarkCallback (sizeAdd c.outputBuffer.readableBytes remaining))
      else c) = c₁
  have hwf : c₁.Wf := by
    rw [← hc₁]
    split_ifs
    · exact (h.does_nothing.queueInLoop _).wf
    · exact h
  refine .bind (Buffer.append_passes _) fun buffer hbuffer => ?_
  have hwf' : Wf { c₁ with outputBuffer := buffer } :=
    ⟨hwf.coherent, (hwf.outputBuffer.append hbuffer).1⟩
  dsimp only
  split_ifs
  · exact onChannel_passes hwf' rfl
  · exact .ok _

lemma sendInLoop_passes (h : c.Wf) (t : Thread) (data : List UInt8) (o : WriteOutcome) :
    Passes .handleClose (c.sendInLoop mem t data o) := by
  rw [sendInLoop]
  split_ifs
  · exact .ok _
  · refine .bind (directWrite_passes data o) ?_
    rintro ⟨c₁, nwrote, remaining, fault⟩ hwrite
    refine .bind (.assertThat_of_ne (by decide)) fun _ _ => ?_
    have hwf : c₁.Wf := by
      cases directWrite_spec h hwrite with
      | busy => exact h
      | direct _ _ _ hdoes => exact hdoes.wf
      | error => exact h
    cases fault with
    | true => exact .ok _
    | false =>
        simp only [Bool.false_eq_true, if_false, not_false_eq_true, true_and]
        split_ifs
        · exact bufferRemaining_passes (hwf.does_nothing.log _).wf _ _ _
        · exact .ok _

lemma drained_passes (h : c.Wf) : Passes .handleClose c.drained := by
  refine .bind (onChannel_passes h rfl) fun _ _ => ?_
  dsimp only
  split_ifs
  all_goals exact .ok _

lemma handleWrite_passes (h : c.Wf) (o : WriteOutcome) : Passes .handleClose (c.handleWrite o) := by
  rw [handleWrite]
  split_ifs
  · refine .bind (write_passes _ _) fun n hn => ?_
    cases n with
    | error e => exact .ok _
    | ok n =>
        dsimp only
        split_ifs
        · refine .bind (Buffer.retrieve_passes _) fun buffer hbuffer => ?_
          have hle : n ≤ c.outputBuffer.readableBytes := by
            cases o with
            | error e => simp [sockets.write] at hn
            | wrote m =>
                rw [sockets.write, guard_eq_ok, Except.ok.injEq, Except.ok.injEq] at hn
                rw [← hn.2]
                exact hn.1
          have hwf := (h.outputBuffer.retrieve hle hbuffer).1
          split_ifs
          · exact drained_passes ⟨h.coherent, hwf⟩
          · exact .ok _
        · exact .ok _
  · exact .ok _

/-- A functor other than `forceCloseInLoop`. -/
lemma runFunctor_passes (h : c.Wf) {f : Functor} (hf : f ≠ .forceCloseInLoop) (o : WriteOutcome) :
    Passes .handleClose (c.runFunctor mem f o) := by
  have hlog := (h.does_nothing.log (.ran f)).wf
  cases f with
  | sendInLoop t message => exact sendInLoop_passes hlog _ _ _
  | shutdownInLoop => exact .ok _
  | forceCloseInLoop => exact absurd rfl hf
  | startReadInLoop => exact startReadInLoop_passes hlog
  | stopReadInLoop => exact stopReadInLoop_passes hlog
  | writeCompleteCallback => exact .ok _
  | highWateMarkCallback size => exact .ok _
  | connectDestroyed => exact connectDestroyed_passes hlog

/-- A call by the loop's thread: a forced close is only queued. -/
lemma call_passes (h : c.Wf) (m : Call) (o : WriteOutcome) :
    Passes .handleClose (c.call mem .loop o m) := by
  cases m with
  | send message =>
      rw [call, runInLoop, if_pos rfl]
      split_ifs
      · exact runFunctor_passes (h.does_nothing.log _).wf (by simp) o
      · exact .ok _
  | shutdown =>
      rw [call]
      split_ifs
      · exact .ok _
      · exact .ok _
  | forceClose =>
      rw [call]
      split_ifs
      · exact .ok _
      · exact .ok _
  | startRead =>
      rw [call, runInLoop, if_pos rfl]
      exact runFunctor_passes h (by decide) o
  | stopRead =>
      rw [call, runInLoop, if_pos rfl]
      exact runFunctor_passes h (by decide) o

end TcpConnection

end Seenet
