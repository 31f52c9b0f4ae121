import Seenet.Poller.Turnover
import Seenet.TcpConnection.Lifecycle
import Seenet.TcpConnection.Quiet

/-!
# What a connection leaves alone

A loop has many channels, and a connection has one of them.  Whatever the functions of a connection do, the
other channels stay as they are (`Frames`), and to the functors of the loop they add at the end.

* `…_frames` — for every function.
* `Ordinary` — a function that neither closes the connection nor destroys it, as the loop sees it.
* **`runFunctor_ordinary`**, **`call_loop_ordinary`**, `sets_ordinary`, `posts_ordinary`, `handleWrite_ordinary`,
  `handleReadWith_ordinary` — which functions are.
-/

namespace Seenet

open Channel

namespace TcpConnection

variable {ι : Type} {c c' c'' : TcpConnection ι} {mem : Memory}

/-- From `c` to `c'` no channel but that of the connection has changed, which waits to write only if it did before;
and the output buffer is in order if it was. -/
structure Local (c c' : TcpConnection ι) : Prop where
  channel_eq : c'.channel = c.channel
  alters : Registry.Alters c.channel c.registry c'.registry
  writing : c'.isWriting = true → c.isWriting = true
  outputBuffer : c.outputBuffer.Wf → c'.outputBuffer.Wf

/-- How often `m_messageCallback` was called. -/
def messages (c : TcpConnection ι) : ℕ := c.trace.count .messageCallback

/-- Nor has anything been read; what has happened and what waits only grow; and no connection is connecting again. -/
structure Frames (c c' : TcpConnection ι) : Prop extends c.Local c' where
  inputBuffer_eq : c'.inputBuffer = c.inputBuffer
  messages_eq : c'.messages = c.messages
  trace : c.trace <+: c'.trace
  pending : c.functors.pending <+: c'.functors.pending
  settled : c.state ≠ .kConnecting → c'.state ≠ .kConnecting

lemma Local.refl (c : TcpConnection ι) : c.Local c := ⟨rfl, .refl _ _, id, id⟩

lemma Local.trans (h : c.Local c') (h' : c'.Local c'') : c.Local c'' :=
  ⟨h'.channel_eq.trans h.channel_eq, h.alters.trans (h.channel_eq ▸ h'.alters), h.writing ∘ h'.writing,
    h'.outputBuffer ∘ h.outputBuffer⟩

/-- What does not touch the channels. -/
lemma Local.of_eq (h : c.Local c') (hchannel : c''.channel = c'.channel) (hregistry : c''.registry = c'.registry)
    (houtput : c'.outputBuffer.Wf → c''.outputBuffer.Wf) : c.Local c'' := by
  refine ⟨hchannel.trans h.channel_eq, hregistry ▸ h.alters, fun hwriting => h.writing ?_, houtput ∘ h.outputBuffer⟩
  rwa [isWriting, ch, hchannel, hregistry] at hwriting

lemma Frames.refl (c : TcpConnection ι) : c.Frames c := ⟨.refl c, rfl, rfl, List.prefix_rfl, List.prefix_rfl, id⟩

lemma Frames.trans (h : c.Frames c') (h' : c'.Frames c'') : c.Frames c'' :=
  ⟨h.toLocal.trans h'.toLocal, h'.inputBuffer_eq.trans h.inputBuffer_eq, h'.messages_eq.trans h.messages_eq,
    h.trace.trans h'.trace, h.pending.trans h'.pending, fun hstate => h'.settled (h.settled hstate)⟩

/-- What touches neither the channels nor the input buffer. -/
lemma Frames.of_eq (h : c.Frames c') (hchannel : c''.channel = c'.channel) (hregistry : c''.registry = c'.registry)
    (houtput : c'.outputBuffer.Wf → c''.outputBuffer.Wf) (hinput : c''.inputBuffer = c'.inputBuffer)
    (htrace : c''.trace = c'.trace) (hpending : c''.functors.pending = c'.functors.pending)
    (hstate : c''.state = c'.state) : c.Frames c'' := by
  refine ⟨h.toLocal.of_eq hchannel hregistry houtput, hinput.trans h.inputBuffer_eq, ?_, htrace ▸ h.trace,
    hpending ▸ h.pending, hstate ▸ h.settled⟩
  rw [messages, htrace]
  exact h.messages_eq

lemma Frames.setState (h : c.Frames c') {s : StateE} (hs : s ≠ .kConnecting) : c.Frames (c'.setState s) :=
  ⟨h.toLocal.of_eq rfl rfl id, h.inputBuffer_eq, h.messages_eq, h.trace, h.pending, fun _ => hs⟩

lemma Frames.queueInLoop (h : c.Frames c') (f : Functor) : c.Frames (c'.queueInLoop f) :=
  ⟨h.toLocal.of_eq rfl rfl id, h.inputBuffer_eq, h.messages_eq, h.trace, h.pending.trans (List.prefix_append _ _),
    h.settled⟩

lemma Frames.log (h : c.Frames c') {e : Effect} (he : e ≠ .messageCallback) : c.Frames (c'.log e) := by
  refine ⟨h.toLocal.of_eq rfl rfl id, h.inputBuffer_eq, ?_, h.trace.trans (List.prefix_append _ _), h.pending,
    h.settled⟩
  rw [messages, TcpConnection.log, List.count_append, List.count_singleton, if_neg (by simpa using he)]
  exact h.messages_eq

/-- An operation on the channel. -/
lemma onChannel_frames {op : Registry ι → ι → Res (Registry ι)}
    (hop : ∀ r, op c.registry c.channel = .ok r → Registry.Alters c.channel c.registry r)
    (hwriting : ∀ r, op c.registry c.channel = .ok r → .epollout ∈ (r.heap c.channel).events → c.isWriting = true)
    (hok : c.onChannel op = .ok c') : c.Frames c' := by
  simp only [onChannel, bind_eq_ok, pure_eq_ok, Except.ok.injEq] at hok
  obtain ⟨r, hr, rfl⟩ := hok
  exact ⟨⟨rfl, hop r hr, fun h => hwriting r hr (isWriting_iff.mp h), id⟩, rfl, rfl, List.prefix_rfl,
    List.prefix_rfl, id⟩

/-! ## Function by function -/

lemma directWrite_frames {data : List UInt8} {o : WriteOutcome} {nwrote remaining : ℕ} {fault : Bool}
    (hok : c.directWrite data o = .ok (c', nwrote, remaining, fault)) : c.Frames c' := by
  rw [directWrite] at hok
  split_ifs at hok
  · obtain ⟨n, -, hok⟩ := bind_eq_ok.mp hok
    cases n with
    | error e =>
        obtain ⟨rfl, -⟩ := Prod.mk.inj (Except.ok.inj hok)
        exact .refl c
    | ok n =>
        dsimp only at hok
        have hwrote : c.Frames (c.log (.wrote (data.take n))) := (Frames.refl c).log (by simp)
        split_ifs at hok
        all_goals
          obtain ⟨rfl, -⟩ := Prod.mk.inj (Except.ok.inj hok)
        · exact hwrote.queueInLoop _
        · exact hwrote
  · obtain ⟨rfl, -⟩ := Prod.mk.inj (Except.ok.inj hok)
    exact .refl c

lemma shutdownInLoop_frames : c.Frames c.shutdownInLoop := by
  rw [shutdownInLoop]
  split_ifs
  · exact (Frames.refl c).log (by simp)
  · exact .refl c

/-! ## What neither closes nor destroys -/

/-- The functor updates the channel, whatever the state of the connection. -/
def TouchesBy (c : TcpConnection ι) : Functor → Prop
  | .startReadInLoop => c.Touches .startRead
  | .stopReadInLoop => c.Touches .stopRead
  | _ => False

instance (c : TcpConnection ι) : (f : Functor) → Decidable (c.TouchesBy f)
  | .startReadInLoop => inferInstanceAs (Decidable (c.Touches .startRead))
  | .stopReadInLoop => inferInstanceAs (Decidable (c.Touches .stopRead))
  | .sendInLoop _ _ | .shutdownInLoop | .forceCloseInLoop | .writeCompleteCallback
  | .highWateMarkCallback _ | .connectDestroyed => inferInstanceAs (Decidable False)

/-- From `c` to `c'` the connection was neither closed nor destroyed: `connectDestroyed` was neither run nor
queued, an open connection may have begun to disconnect; and unless the function touches the channel in any
case, a channel that waits for nothing is as before. -/
structure Ordinary (touches : Prop) (c c' : TcpConnection ι) : Prop where
  wf : c'.Wf
  unchanged : c.Local c'
  trace : ∃ es, c'.trace = c.trace ++ es ∧ .ran .connectDestroyed ∉ es
  pending : ∃ fs, c'.functors.pending = c.functors.pending ++ fs ∧ .connectDestroyed ∉ fs
  batch_eq : c'.functors.batch = c.functors.batch
  state_eq : c'.state = c.state ∨ c.state ≠ .kDisconnected ∧ c'.state = .kDisconnecting
  ch_eq : ¬ touches → c.ch.events = ∅ → c'.ch = c.ch

variable {touches : Prop}

lemma Ordinary.of_does {out : List UInt8} {es : List Effect} {fs : List Functor} (hdoes : c.Does c' out es fs)
    (hlocal : c.Local c') (hes : .ran .connectDestroyed ∉ es) (hfs : .connectDestroyed ∉ fs)
    (hstate : c'.state = c.state ∨ c.state ≠ .kDisconnected ∧ c'.state = .kDisconnecting)
    (hch : ¬ touches → c.ch.events = ∅ → c'.ch = c.ch) : c.Ordinary touches c' :=
  ⟨hdoes.wf, hlocal, ⟨es, hdoes.trace_eq, hes⟩, ⟨fs, hdoes.pending_eq, hfs⟩, hdoes.batch_eq, hstate, hch⟩

lemma Wf.ordinary_self (h : c.Wf) : c.Ordinary touches c :=
  .of_does h.does_nothing (.refl c) (by simp) (by simp) (Or.inl rfl) fun _ _ => rfl

/-- A function that touches the channel only when it starts or stops reading. -/
lemma Changes.ch_eq {k : Kind} (h : c.Changes k c') (hk : ¬ touches → k = .rest ∨ k = .disconnecting)
    (htouches : ¬ touches) (hevents : c.ch.events = ∅) : c'.ch = c.ch := by
  rcases hk htouches with rfl | rfl
  · cases h with
    | rest _ hch _ => exact hch hevents
  · cases h with
    | disconnecting _ hch _ => exact hch

/-- `handleRead` returns, or closes the connection. -/
lemma handleReadWith_returns {β : Type} {close : TcpConnection ι → Res β} {done : TcpConnection ι → β}
    {o : ReadOutcome} {r : β} (hok : c.handleReadWith close done mem o = .ok r) :
    ∃ c', c'.state = c.state ∧ c.Local c' ∧ (r = done c' ∨ close c' = .ok r) := by
  simp only [handleReadWith, bind_eq_ok, Prod.exists] at hok
  obtain ⟨n, buffer, -, hok⟩ := hok
  cases n with
  | error e =>
      exact ⟨{ c with inputBuffer := buffer }, rfl, (Local.refl c).of_eq rfl rfl id, Or.inl (Except.ok.inj hok).symm⟩
  | ok n =>
      dsimp only at hok
      split_ifs at hok
      · exact ⟨{ c with inputBuffer := buffer }.log .messageCallback, rfl, (Local.refl c).of_eq rfl rfl id,
          Or.inl (Except.ok.inj hok).symm⟩
      · exact ⟨{ c with inputBuffer := buffer }, rfl, (Local.refl c).of_eq rfl rfl id, Or.inr hok⟩

/-- `handleRead`, until it returns or closes the connection. -/
lemma handleReadWith_ordinary {β : Type} {close : TcpConnection ι → Res β} {done : TcpConnection ι → β}
    {o : ReadOutcome} {r : β} (h : c.Wf) (hok : c.handleReadWith close done mem o = .ok r) :
    ∃ c' es, c.Ordinary False c' ∧ c.Does c' c.output es [] ∧ (∀ e ∈ es, Effect.IsCallback e) ∧
      c'.state = c.state ∧ (r = done c' ∨ close c' = .ok r) := by
  simp only [handleReadWith, bind_eq_ok, Prod.exists] at hok
  obtain ⟨n, buffer, -, hok⟩ := hok
  have hlocal : c.Local { c with inputBuffer := buffer } := (Local.refl c).of_eq rfl rfl id
  have hdoes : c.Does { c with inputBuffer := buffer } c.output [] [] :=
    ⟨⟨h.coherent, h.outputBuffer⟩, rfl, rfl, (List.append_nil _).symm, (List.append_nil _).symm, rfl⟩
  have hordinary : c.Ordinary False { c with inputBuffer := buffer } :=
    .of_does hdoes hlocal (by simp) (by simp) (Or.inl rfl) fun _ _ => rfl
  cases n with
  | error e => exact ⟨_, _, hordinary, hdoes, by simp, rfl, Or.inl (Except.ok.inj hok).symm⟩
  | ok n =>
      dsimp only at hok
      split_ifs at hok
      · obtain ⟨hwf, -, -, hpending, hbatch, hstate, hch⟩ := hordinary
        refine ⟨{ c with inputBuffer := buffer }.log .messageCallback, _, ⟨⟨hwf.coherent, hwf.outputBuffer⟩,
          hlocal.of_eq rfl rfl id, ⟨[.messageCallback], rfl, by simp⟩, hpending, hbatch, hstate, hch⟩,
          hdoes.log .messageCallback, ?_, rfl, Or.inl (Except.ok.inj hok).symm⟩
        simp [Effect.IsCallback]
      · exact ⟨_, _, hordinary, hdoes, by simp, rfl, Or.inr hok⟩

/-- Another thread sets the state. -/
lemma sets_frames (c : TcpConnection ι) (m : Call) : c.Frames (c.sets m) := by
  cases m with
  | shutdown => exact ((Frames.refl c).setState (by simp)).log (by simp)
  | forceClose => exact (Frames.refl c).setState (by simp)
  | _ => exact .refl c

/-- Another thread queues a functor. -/
lemma posts_frames (c : TcpConnection ι) (n : ℕ) (m : Call) : c.Frames (c.posts n m) := by
  cases m with
  | send message => exact ((Frames.refl c).log (by simp)).queueInLoop _
  | _ => exact (Frames.refl c).queueInLoop _

/-- **Another thread sets the state** of an open connection. -/
lemma sets_ordinary (h : c.Wf) (hopen : c.IsOpen) (m : Call) : c.Ordinary touches (c.sets m) := by
  have hlocal := (sets_frames c m).toLocal
  have hset := h.does_nothing.setState .kDisconnecting
  have hstate : c.state ≠ .kDisconnected := by rcases hopen with hstate | hstate <;> simp [hstate]
  cases m with
  | shutdown => exact .of_does (hset.log .shutdown) hlocal (by simp) (by simp) (Or.inr ⟨hstate, rfl⟩) fun _ _ => rfl
  | forceClose => exact .of_does hset hlocal (by simp) (by simp) (Or.inr ⟨hstate, rfl⟩) fun _ _ => rfl
  | _ => exact h.ordinary_self

/-- **Another thread queues a functor.** -/
lemma posts_ordinary (h : c.Wf) (n : ℕ) (m : Call) : c.Ordinary touches (c.posts n m) := by
  have hlocal := (posts_frames c n m).toLocal
  have hdoes := h.does_nothing
  cases m with
  | send message =>
      exact .of_does ((hdoes.log _).queueInLoop _) hlocal (by simp) (by simp) (Or.inl rfl) fun _ _ => rfl
  | _ => exact .of_does (hdoes.queueInLoop _) hlocal (by simp) (by simp) (Or.inl rfl) fun _ _ => rfl

variable [DecidableEq ι]

/-! ## Functions that use the channel -/

/-- The operations that set the mask. -/
lemma onChannel_update_frames {op : Registry ι → ι → Res (Registry ι)} {events : Finset Event}
    (hop : op c.registry c.channel = c.registry.update c.channel events)
    (hwriting : .epollout ∈ events → c.isWriting = true) (hok : c.onChannel op = .ok c') : c.Frames c' := by
  refine onChannel_frames (fun _ hr => Registry.update_alters (hop ▸ hr)) (fun r hr hmem => hwriting ?_) hok
  rwa [Registry.update_events (hop ▸ hr)] at hmem

lemma onChannel_remove_frames (hok : c.onChannel Registry.remove = .ok c') : c.Frames c' := by
  refine onChannel_frames (fun _ hr => Registry.remove_alters hr) (fun r hr hmem => isWriting_iff.mpr ?_) hok
  rwa [Registry.remove_events hr] at hmem

lemma enableReading_frames (hok : c.onChannel Registry.enableReading = .ok c') : c.Frames c' := by
  refine onChannel_update_frames rfl (fun hmem => isWriting_iff.mpr ?_) hok
  simpa [kReadEvent, ch] using hmem

lemma disableReading_frames (hok : c.onChannel Registry.disableReading = .ok c') : c.Frames c' :=
  onChannel_update_frames rfl (fun hmem => isWriting_iff.mpr (Finset.mem_sdiff.mp hmem).1) hok

lemma disableWriting_frames (hok : c.onChannel Registry.disableWriting = .ok c') : c.Frames c' :=
  onChannel_update_frames rfl (fun hmem => isWriting_iff.mpr (Finset.mem_sdiff.mp hmem).1) hok

lemma disableAll_frames (hok : c.onChannel Registry.disableAll = .ok c') : c.Frames c' :=
  onChannel_update_frames rfl (fun hmem => by simp [kNoneEvent] at hmem) hok

lemma startReadInLoop_frames (hok : c.startReadInLoop = .ok c') : c.Frames c' := by
  rw [startReadInLoop] at hok
  split_ifs at hok
  · simp only [bind_eq_ok, pure_eq_ok, Except.ok.injEq] at hok
    obtain ⟨c₁, h₁, rfl⟩ := hok
    exact (enableReading_frames h₁).of_eq rfl rfl id rfl rfl rfl rfl
  · rw [← Except.ok.inj hok]
    exact .refl c

lemma stopReadInLoop_frames (hok : c.stopReadInLoop = .ok c') : c.Frames c' := by
  rw [stopReadInLoop] at hok
  split_ifs at hok
  · simp only [bind_eq_ok, pure_eq_ok, Except.ok.injEq] at hok
    obtain ⟨c₁, h₁, rfl⟩ := hok
    exact (disableReading_frames h₁).of_eq rfl rfl id rfl rfl rfl rfl
  · rw [← Except.ok.inj hok]
    exact .refl c

lemma beginClose_frames (hok : c.beginClose = .ok c') : c.Frames c' := by
  simp only [beginClose, bind_eq_ok, pure_eq_ok, Except.ok.injEq] at hok
  obtain ⟨-, -, c₁, h₁, rfl⟩ := hok
  have hset : c.Frames (c.setState .kDisconnected) := (Frames.refl c).setState (by simp)
  exact (hset.trans (disableAll_frames h₁)).log (by simp)

lemma connectEstablished_frames (hok : c.connectEstablished = .ok c') : c.Frames c' := by
  simp only [connectEstablished, bind_eq_ok, pure_eq_ok, Except.ok.injEq] at hok
  obtain ⟨-, -, c₁, h₁, rfl⟩ := hok
  have hset : c.Frames (c.setState .kConnected) := (Frames.refl c).setState (by simp)
  exact (hset.trans (enableReading_frames h₁)).log (by simp)

lemma connectEstablished_spec (h : c.Wf) (hok : c.connectEstablished = .ok c') :
    c.Does c' c.output [.connCallback] [] ∧ c.state = .kConnecting ∧ c'.state = .kConnected := by
  simp only [connectEstablished, bind_eq_ok, assertThat_eq_ok, pure_eq_ok, Except.ok.injEq] at hok
  obtain ⟨-, hstate, c₁, h₁, rfl⟩ := hok
  have hset := h.does_nothing.setState .kConnected
  obtain ⟨hdoes, hstate', -, -⟩ := onChannel_ok hset.wf rfl h₁
  exact ⟨(hset.trans hdoes).log _, hstate, hstate'⟩

lemma connectDestroyed_frames (hok : c.connectDestroyed = .ok c') : c.Frames c' := by
  rw [connectDestroyed_eq, bind_eq_ok] at hok
  obtain ⟨c₁, h₁, hok⟩ := hok
  refine Frames.trans ?_ (onChannel_remove_frames hok)
  split_ifs at h₁
  · simp only [beginDestroy, bind_eq_ok, pure_eq_ok, Except.ok.injEq] at h₁
    obtain ⟨c₂, h₂, rfl⟩ := h₁
    have hset : c.Frames (c.setState .kDisconnected) := (Frames.refl c).setState (by simp)
    exact (hset.trans (disableAll_frames h₂)).log (by simp)
  · rw [← Except.ok.inj h₁]
    exact .refl c

lemma bufferRemaining_frames {data : List UInt8} {nwrote remaining : ℕ}
    (hok : c.bufferRemaining mem data nwrote remaining = .ok c') : c.Frames c' := by
  rw [bufferRemaining_eq, bind_eq_ok] at hok
  obtain ⟨buffer, hbuffer, hok⟩ := hok
  have hnotify : ∀ size, c.Frames (c.notify size) := by
    intro size
    rw [notify]
    split_ifs
    · exact (Frames.refl c).queueInLoop _
    · exact .refl c
  have houtput : ∀ size, (c.notify size).outputBuffer = c.outputBuffer := by
    intro size
    rw [notify]
    split_ifs <;> rfl
  have hkept : c.Frames { c.notify (sizeAdd c.outputBuffer.readableBytes remaining) with outputBuffer := buffer } :=
    (hnotify _).of_eq rfl rfl (fun hwf => (((houtput _) ▸ hwf).append hbuffer).1) rfl rfl rfl rfl
  split_ifs at hok with hwriting
  · -- it waits to write already
    refine hkept.trans (onChannel_update_frames rfl (fun _ => ?_) hok)
    rw [← hwriting, notify]
    split_ifs <;> rfl
  · rw [← Except.ok.inj hok]
    exact hkept

lemma sendInLoop_frames {t : Thread} {data : List UInt8} {o : WriteOutcome}
    (hok : c.sendInLoop mem t data o = .ok c') : c.Frames c' := by
  rw [sendInLoop] at hok
  split_ifs at hok
  · rw [← Except.ok.inj hok]
    exact .refl c
  · simp only [bind_eq_ok, Prod.exists] at hok
    obtain ⟨c₁, nwrote, remaining, fault, hwrite, -, -, hok⟩ := hok
    have hwritten := directWrite_frames hwrite
    cases fault with
    | true =>
        simp only [if_true, not_true_eq_false, false_and, if_false, pure_eq_ok] at hok
        rwa [← Except.ok.inj hok]
    | false =>
        simp only [Bool.false_eq_true, if_false, not_false_eq_true, true_and] at hok
        have hlog : c.Frames (c₁.log (.accepted t data)) := hwritten.log (by simp)
        split_ifs at hok
        · exact hlog.trans (bufferRemaining_frames hok)
        · rw [← Except.ok.inj hok]
          exact hlog

lemma drained_frames (hok : c.drained = .ok c') : c.Frames c' := by
  simp only [drained, bind_eq_ok] at hok
  obtain ⟨c₁, h₁, hok⟩ := hok
  have hwrite := disableWriting_frames h₁
  have hqueue : c.Frames (c₁.queueInLoop .writeCompleteCallback) := hwrite.queueInLoop _
  split_ifs at hok
  all_goals
    rw [← Except.ok.inj hok]
  · exact hqueue.trans shutdownInLoop_frames
  · exact hqueue
  · exact hwrite.trans shutdownInLoop_frames
  · exact hwrite

lemma handleWrite_frames {o : WriteOutcome} (hok : c.handleWrite o = .ok c') : c.Frames c' := by
  rw [handleWrite] at hok
  split_ifs at hok
  · obtain ⟨n, hn, hok⟩ := bind_eq_ok.mp hok
    cases n with
    | error e =>
        rw [← Except.ok.inj hok]
        exact .refl c
    | ok n =>
        dsimp only at hok
        split_ifs at hok
        · obtain ⟨buffer, hretrieve, hok⟩ := bind_eq_ok.mp hok
          have hbuffer : c.Frames { c.log (.wrote (c.output.take n)) with outputBuffer := buffer } :=
            ((Frames.refl c).log (by simp)).of_eq rfl rfl
              (fun hwf => (hwf.retrieve (sockets.le_of_write hn) hretrieve).1) rfl rfl rfl rfl
          split_ifs at hok
          · exact hbuffer.trans (drained_frames hok)
          · rw [← Except.ok.inj hok]
            exact hbuffer
        · rw [← Except.ok.inj hok]
          exact .refl c
  · rw [← Except.ok.inj hok]
    exact .refl c

/-- A functor other than `forceCloseInLoop`, once it has been called. -/
lemma ran_frames {f : Functor} {o : WriteOutcome} (hforce : f ≠ .forceCloseInLoop)
    (hok : c.runFunctor mem f o = .ok c') : (c.log (.ran f)).Frames c' := by
  cases f with
  | sendInLoop t message => exact sendInLoop_frames hok
  | shutdownInLoop =>
      rw [← Except.ok.inj hok]
      exact shutdownInLoop_frames
  | forceCloseInLoop => exact absurd rfl hforce
  | startReadInLoop => exact startReadInLoop_frames hok
  | stopReadInLoop => exact stopReadInLoop_frames hok
  | writeCompleteCallback | highWateMarkCallback size =>
      rw [← Except.ok.inj hok]
      exact .refl _
  | connectDestroyed => exact connectDestroyed_frames hok

/-- A functor other than `forceCloseInLoop`. -/
lemma runFunctor_frames {f : Functor} {o : WriteOutcome} (hforce : f ≠ .forceCloseInLoop)
    (hok : c.runFunctor mem f o = .ok c') : c.Frames c' :=
  ((Frames.refl c).log (by simp)).trans (ran_frames hforce hok)

lemma runInLoop_frames {t : Thread} {f : Functor} {o : WriteOutcome} (hforce : f ≠ .forceCloseInLoop)
    (hok : c.runInLoop mem t f o = .ok c') : c.Frames c' := by
  rw [runInLoop] at hok
  split_ifs at hok
  · exact runFunctor_frames hforce hok
  · rw [← Except.ok.inj hok]
    exact (Frames.refl c).queueInLoop f

/-- A call by whichever thread. -/
lemma call_frames {t : Thread} {m : Call} {o : WriteOutcome} (hok : c.call mem t o m = .ok c') : c.Frames c' := by
  cases m with
  | send message =>
      rw [call] at hok
      split_ifs at hok
      · exact ((Frames.refl c).log (by simp)).trans (runInLoop_frames (by simp) hok)
      · rw [← Except.ok.inj hok]
        exact .refl c
  | shutdown =>
      rw [call] at hok
      split_ifs at hok
      · have hset : c.Frames ((c.setState .kDisconnecting).log .shutdown) :=
          ((Frames.refl c).setState (by simp)).log (by simp)
        exact hset.trans (runInLoop_frames (by simp) hok)
      · rw [← Except.ok.inj hok]
        exact .refl c
  | forceClose =>
      rw [call] at hok
      split_ifs at hok
      · rw [← Except.ok.inj hok]
        exact ((Frames.refl c).setState (by simp)).queueInLoop _
      · rw [← Except.ok.inj hok]
        exact .refl c
  | startRead => exact runInLoop_frames (by simp) hok
  | stopRead => exact runInLoop_frames (by simp) hok

/-! ## Which functions are ordinary -/

/-- **A functor** that neither closes nor destroys. -/
lemma runFunctor_ordinary (h : c.Wf) {f : Functor} {o : WriteOutcome} (hforce : f ≠ .forceCloseInLoop)
    (hdestroyed : f ≠ .connectDestroyed) (hok : c.runFunctor mem f o = .ok c') :
    c.Ordinary (c.TouchesBy f) c' := by
  obtain ⟨out, es, fs, hdoes, hstate, hes, hfs⟩ := runFunctor_ok h hforce hdestroyed hok
  refine .of_does hdoes (runFunctor_frames hforce hok).toLocal hes.2.2 (fun hmem => hfs _ hmem) (Or.inl hstate) ?_
  refine (runFunctor_changes h hforce hdestroyed hok).2.ch_eq fun htouches => Or.inl ?_
  cases f with
  | startReadInLoop => exact if_neg htouches
  | stopReadInLoop => exact if_neg htouches
  | forceCloseInLoop => exact absurd rfl hforce
  | connectDestroyed => exact absurd rfl hdestroyed
  | _ => rfl

/-- **A call by the loop's thread.** -/
lemma call_loop_ordinary (h : c.Wf) {m : Call} {o : WriteOutcome} (hok : c.call mem .loop o m = .ok c') :
    c.Ordinary (c.Touches m) c' := by
  obtain ⟨out, es, fs, hdoes, hstate, hes, hfs⟩ := call_ok h hok
  refine .of_does hdoes (call_frames hok).toLocal hes.2.2 (fun hmem => (hfs _ hmem).ne.2.2 rfl) hstate ?_
  refine (call_changes h hok).2.ch_eq fun htouches => ?_
  cases m with
  | send message => exact Or.inl rfl
  | shutdown =>
      rw [callKind]
      split_ifs <;> simp
  | forceClose =>
      rw [callKind]
      split_ifs <;> simp
  | startRead => exact Or.inl (if_neg htouches)
  | stopRead => exact Or.inl (if_neg htouches)

lemma handleWrite_ordinary (h : c.Wf) {o : WriteOutcome} (hok : c.handleWrite o = .ok c') :
    c.Ordinary False c' := by
  have hlocal := (handleWrite_frames hok).toLocal
  have hch : ¬ False → c.ch.events = ∅ → c'.ch = c.ch := (handleWrite_changes h hok).2.ch_eq fun _ => Or.inl rfl
  rcases handleWrite_spec h hok with ⟨-, rfl⟩ | ⟨-, hstate, left, es, fs, hdrains, hfs, hdoes, -⟩
  · exact h.ordinary_self
  · exact .of_does hdoes hlocal hdrains.quiet.2.2 (fun hmem => hfs _ hmem) (Or.inl hstate) hch

end TcpConnection

end Seenet
