import Seenet.System.Input
import Seenet.System.Steady

/-!
# What becomes of the output

`sendInLoop` switches the interest in writing on only when it is on already, so the channel of a connection never
waits to write: what `sendInLoop` has put into the output buffer stays there.  No condition is needed for that, as
no connection waits to write in any run (`Steady`).

* `Dry` — nothing is sent, and nothing is accepted for sending.
* `step_dry` — that is so for every connection in every step but the calls of `send` and the runs of `sendInLoop`.
* `Stalls` — the output buffer is not drained, and as long as there is something in it nothing is sent.
* **`backlog_stalls`**
-/

namespace Seenet

open Channel

namespace TcpConnection

variable {ι : Type} {c c' c'' : TcpConnection ι} {mem : Memory}

/-- Nothing has happened to the stream. -/
structure Dry (c c' : TcpConnection ι) : Prop where
  output_eq : c'.output = c.output
  effects : ∃ es, c'.trace = c.trace ++ es ∧ Silent es ∧ ∀ backlog, .shutdownWrite backlog ∉ es

lemma Dry.of_eq (houtput : c'.output = c.output) (htrace : c'.trace = c.trace) : c.Dry c' :=
  ⟨houtput, [], by rw [htrace, List.append_nil], ⟨rfl, rfl, rfl, rfl⟩, by simp⟩

lemma Dry.trans (h : c.Dry c') (h' : c'.Dry c'') : c.Dry c'' := by
  obtain ⟨houtput, es, htrace, hsilent, hshut⟩ := h
  obtain ⟨houtput', es', htrace', hsilent', hshut'⟩ := h'
  refine ⟨houtput'.trans houtput, es ++ es', by rw [htrace', htrace, List.append_assoc], ?_, fun backlog hmem => ?_⟩
  · obtain ⟨hwire, hsent, hran, haccepted⟩ := hsilent
    obtain ⟨hwire', hsent', hran', haccepted'⟩ := hsilent'
    refine ⟨?_, ?_, ?_, ?_⟩
    · rw [wire_append, hwire, hwire', List.append_nil]
    · rw [sentMessages_append, hsent, hsent', List.append_nil]
    · rw [ranMessages_append, hran, hran', List.append_nil]
    · rw [acceptedMessages_append, haccepted, haccepted', List.append_nil]
  · exact (List.mem_append.mp hmem).elim (hshut backlog) (hshut' backlog)

/-- One more effect. -/
lemma Dry.log (h : c.Dry c') {e : Effect} (hsilent : Silent [e]) (hshut : ∀ backlog, e ≠ .shutdownWrite backlog) :
    c.Dry (c'.log e) :=
  h.trans ⟨rfl, [e], rfl, hsilent, fun backlog => by simpa using (hshut backlog).symm⟩

/-- The start of a functor that sends nothing. -/
lemma log_ran_dry {f : Functor} (hsend : ∀ t message, f ≠ .sendInLoop t message) : c.Dry (c.log (.ran f)) := by
  refine (Dry.of_eq rfl rfl).log ?_ (by simp)
  cases f with
  | sendInLoop t message => exact absurd rfl (hsend t message)
  | _ => exact ⟨rfl, rfl, rfl, rfl⟩

/-- Another thread sets the state. -/
lemma sets_dry (m : Call) : c.Dry (c.sets m) := by
  cases m with
  | shutdown =>
      have hset : c.Dry (c.setState .kDisconnecting) := .of_eq rfl rfl
      exact hset.log ⟨rfl, rfl, rfl, rfl⟩ (by simp)
  | _ => exact .of_eq rfl rfl

/-- Another thread queues a functor, which is not `sendInLoop`. -/
lemma posts_dry (n : ℕ) {m : Call} (hsend : ∀ message, m ≠ .send message) : c.Dry (c.posts n m) := by
  cases m with
  | send message => exact absurd rfl (hsend message)
  | _ => exact .of_eq rfl rfl

variable [DecidableEq ι]

lemma connectEstablished_dry (hok : c.connectEstablished = .ok c') : c.Dry c' := by
  simp only [connectEstablished, onChannel, bind_eq_ok, pure_eq_ok, Except.ok.injEq] at hok
  obtain ⟨-, -, -, ⟨r, -, rfl⟩, rfl⟩ := hok
  exact ⟨rfl, [.connCallback], rfl, ⟨rfl, rfl, rfl, rfl⟩, by simp⟩

lemma beginClose_dry (hok : c.beginClose = .ok c') : c.Dry c' := by
  simp only [beginClose, onChannel, bind_eq_ok, pure_eq_ok, Except.ok.injEq] at hok
  obtain ⟨-, -, -, ⟨r, -, rfl⟩, rfl⟩ := hok
  exact ⟨rfl, [.connCallback], rfl, ⟨rfl, rfl, rfl, rfl⟩, by simp⟩

omit [DecidableEq ι] in
/-- An operation on the channel. -/
lemma onChannel_dry {op : Registry ι → ι → Res (Registry ι)} (hok : c.onChannel op = .ok c') : c.Dry c' := by
  simp only [onChannel, bind_eq_ok, pure_eq_ok, Except.ok.injEq] at hok
  obtain ⟨r, -, rfl⟩ := hok
  exact .of_eq rfl rfl

lemma startReadInLoop_dry (hok : c.startReadInLoop = .ok c') : c.Dry c' := by
  rw [startReadInLoop] at hok
  split_ifs at hok
  · simp only [bind_eq_ok, pure_eq_ok, Except.ok.injEq] at hok
    obtain ⟨c₁, h₁, rfl⟩ := hok
    exact (onChannel_dry h₁).trans (.of_eq rfl rfl)
  · rw [← Except.ok.inj hok]
    exact .of_eq rfl rfl

lemma stopReadInLoop_dry (hok : c.stopReadInLoop = .ok c') : c.Dry c' := by
  rw [stopReadInLoop] at hok
  split_ifs at hok
  · simp only [bind_eq_ok, pure_eq_ok, Except.ok.injEq] at hok
    obtain ⟨c₁, h₁, rfl⟩ := hok
    exact (onChannel_dry h₁).trans (.of_eq rfl rfl)
  · rw [← Except.ok.inj hok]
    exact .of_eq rfl rfl

lemma connectDestroyed_dry (hok : c.connectDestroyed = .ok c') : c.Dry c' := by
  rw [connectDestroyed_eq, bind_eq_ok] at hok
  obtain ⟨c₁, h₁, hok⟩ := hok
  refine Dry.trans ?_ (onChannel_dry hok)
  split_ifs at h₁
  · simp only [beginDestroy, bind_eq_ok, pure_eq_ok, Except.ok.injEq] at h₁
    obtain ⟨c₂, h₂, rfl⟩ := h₁
    have hset : c.Dry (c.setState .kDisconnected) := .of_eq rfl rfl
    exact (hset.trans (onChannel_dry h₂)).log ⟨rfl, rfl, rfl, rfl⟩ (by simp)
  · rw [← Except.ok.inj h₁]
    exact .of_eq rfl rfl

/-- Every functor but `sendInLoop`, of a connection that does not wait to write. -/
lemma runFunctor_dry (hwriting : c.isWriting = false) {f : Functor} {o : WriteOutcome}
    (hsend : ∀ t message, f ≠ .sendInLoop t message) (hforce : f ≠ .forceCloseInLoop)
    (hok : c.runFunctor mem f o = .ok c') : c.Dry c' := by
  have hdry : c.Dry (c.log (.ran f)) := log_ran_dry hsend
  cases f with
  | sendInLoop t message => exact absurd rfl (hsend t message)
  | shutdownInLoop =>
      rw [← Except.ok.inj hok, shutdownInLoop_of_not_isWriting]
      · exact hdry
      · exact hwriting
  | forceCloseInLoop => exact absurd rfl hforce
  | startReadInLoop => exact hdry.trans (startReadInLoop_dry hok)
  | stopReadInLoop => exact hdry.trans (stopReadInLoop_dry hok)
  | writeCompleteCallback | highWateMarkCallback _ =>
      rw [← Except.ok.inj hok]
      exact hdry
  | connectDestroyed => exact hdry.trans (connectDestroyed_dry hok)

/-- Every call but `send`. -/
lemma call_dry (hwriting : c.isWriting = false) {t : Thread} {m : Call} {o : WriteOutcome}
    (hsend : ∀ message, m ≠ .send message) (hok : c.call mem t o m = .ok c') : c.Dry c' := by
  have hrun : ∀ {c₁ : TcpConnection ι} {f : Functor}, c₁.isWriting = false → c.Dry c₁ →
      (∀ t message, f ≠ .sendInLoop t message) → f ≠ .forceCloseInLoop → c₁.runInLoop mem t f o = .ok c' →
      c.Dry c' := by
    intro c₁ f hwriting₁ hdry hf hforce hrun
    rw [runInLoop] at hrun
    split_ifs at hrun
    · exact hdry.trans (runFunctor_dry hwriting₁ hf hforce hrun)
    · rw [← Except.ok.inj hrun]
      exact hdry.trans (.of_eq rfl rfl)
  cases m with
  | send message => exact absurd rfl (hsend message)
  | shutdown =>
      rw [call] at hok
      split_ifs at hok
      · have hdry : c.Dry ((c.setState .kDisconnecting).log .shutdown) :=
          ⟨rfl, [.shutdown], rfl, ⟨rfl, rfl, rfl, rfl⟩, by simp⟩
        have hwriting₁ : ((c.setState .kDisconnecting).log .shutdown).isWriting = false := hwriting
        exact hrun hwriting₁ hdry (by simp) (by simp) hok
      · rw [← Except.ok.inj hok]
        exact .of_eq rfl rfl
  | forceClose =>
      rw [call] at hok
      split_ifs at hok
      · rw [← Except.ok.inj hok]
        exact .of_eq rfl rfl
      · rw [← Except.ok.inj hok]
        exact .of_eq rfl rfl
  | startRead => exact hrun hwriting (.of_eq rfl rfl) (by simp) (by simp) hok
  | stopRead => exact hrun hwriting (.of_eq rfl rfl) (by simp) (by simp) hok

/-! ## What is sent -/

/-- The output buffer keeps what is in it, and as long as that is something nothing is sent; and the connection has
not been shut down for writing. -/
structure Stalls (c c' : TcpConnection ι) : Prop where
  output : c.output <+: c'.output
  wire_eq : c.output ≠ [] → wire c'.trace = wire c.trace
  effects : ∃ es, c'.trace = c.trace ++ es ∧ ∀ backlog, .shutdownWrite backlog ∉ es

omit [DecidableEq ι] in
lemma Stalls.trans (h : c.Stalls c') (h' : c'.Stalls c'') : c.Stalls c'' := by
  obtain ⟨es, htrace, hshut⟩ := h.effects
  obtain ⟨es', htrace', hshut'⟩ := h'.effects
  refine ⟨h.output.trans h'.output, fun hne => ?_, es ++ es', by rw [htrace', htrace, List.append_assoc], ?_⟩
  · have hne' : c'.output ≠ [] := by
      rintro hnil
      exact hne (List.prefix_nil.mp (hnil ▸ h.output))
    rw [h'.wire_eq hne', h.wire_eq hne]
  · exact fun backlog hmem => (List.mem_append.mp hmem).elim (hshut backlog) (hshut' backlog)

omit [DecidableEq ι] in
lemma Dry.stalls (h : c.Dry c') : c.Stalls c' := by
  obtain ⟨houtput, es, htrace, hsilent, hshut⟩ := h
  refine ⟨by rw [houtput], fun _ => ?_, es, htrace, hshut⟩
  rw [htrace, wire_append, hsilent.1, List.append_nil]

omit [DecidableEq ι] in
/-- An effect that is no write. -/
lemma log_stalls {e : Effect} (hwire : wire [e] = []) (hshut : ∀ backlog, e ≠ .shutdownWrite backlog) :
    c.Stalls (c.log e) := by
  refine ⟨List.prefix_rfl, fun _ => ?_, [e], rfl, fun backlog => by simpa using (hshut backlog).symm⟩
  rw [TcpConnection.log, wire_append, hwire, List.append_nil]

omit [DecidableEq ι] in
/-- Another thread queues a message. -/
lemma posts_send_stalls (n : ℕ) (message : List UInt8) : c.Stalls (c.posts n (.send message)) := by
  have hlog : c.Stalls (c.log (.send (.other n) message)) := log_stalls rfl (by simp)
  have hqueue : (c.log (.send (.other n) message)).Dry (c.posts n (.send message)) := .of_eq rfl rfl
  exact hlog.trans hqueue.stalls

omit [DecidableEq ι] in
/-- The direct write is one only when there is nothing in the output buffer, which it leaves alone. -/
lemma directWrite_stalls (hbuffer : c.outputBuffer.Wf) {message : List UInt8} {o : WriteOutcome} {nwrote remaining : ℕ}
    {fault : Bool} (hok : c.directWrite message o = .ok (c', nwrote, remaining, fault)) :
    c.Stalls c' ∧ c'.outputBuffer = c.outputBuffer := by
  rw [directWrite] at hok
  split_ifs at hok with hidle
  · have hnil : c.output = [] := hbuffer.readableBytes_eq_zero.mp hidle.2
    obtain ⟨n, -, hok⟩ := bind_eq_ok.mp hok
    cases n with
    | error e =>
        obtain ⟨rfl, -⟩ := Prod.mk.inj (Except.ok.inj hok)
        exact ⟨(Dry.of_eq rfl rfl).stalls, rfl⟩
    | ok n =>
        dsimp only at hok
        have hwrote : c.Stalls (c.log (.wrote (message.take n))) :=
          ⟨List.prefix_rfl, fun hne => absurd hnil hne, [.wrote (message.take n)], rfl, by simp⟩
        split_ifs at hok
        all_goals
          obtain ⟨rfl, -⟩ := Prod.mk.inj (Except.ok.inj hok)
        · have hqueue : (c.log (.wrote (message.take n))).Dry
              ((c.log (.wrote (message.take n))).queueInLoop .writeCompleteCallback) := .of_eq rfl rfl
          exact ⟨hwrote.trans hqueue.stalls, rfl⟩
        · exact ⟨hwrote, rfl⟩
  · obtain ⟨rfl, -⟩ := Prod.mk.inj (Except.ok.inj hok)
    exact ⟨(Dry.of_eq rfl rfl).stalls, rfl⟩

/-- The rest of a message goes behind what is in the output buffer. -/
lemma bufferRemaining_stalls (hbuffer : c.outputBuffer.Wf) {message : List UInt8} {nwrote remaining : ℕ}
    (hok : c.bufferRemaining mem message nwrote remaining = .ok c') : c.Stalls c' := by
  rw [bufferRemaining_eq, bind_eq_ok] at hok
  obtain ⟨buffer, happend, hok⟩ := hok
  obtain ⟨-, hlist⟩ := hbuffer.append happend
  generalize hsize : sizeAdd c.outputBuffer.readableBytes remaining = size at hok
  have htrace : (c.notify size).trace = c.trace := by
    rw [notify]
    split_ifs <;> rfl
  have hkept : c.Stalls { c.notify size with outputBuffer := buffer } := by
    refine ⟨⟨message.drop nwrote, hlist.symm⟩, fun _ => congrArg wire htrace, [], ?_, by simp⟩
    rw [List.append_nil]
    exact htrace
  split_ifs at hok
  · exact hkept.trans (onChannel_dry hok).stalls
  · rw [← Except.ok.inj hok]
    exact hkept

/-- **`sendInLoop`** only adds to the output buffer, and writes only when there is nothing in it. -/
lemma sendInLoop_stalls (hbuffer : c.outputBuffer.Wf) {t : Thread} {message : List UInt8} {o : WriteOutcome}
    (hok : c.sendInLoop mem t message o = .ok c') : c.Stalls c' := by
  rw [sendInLoop] at hok
  split_ifs at hok
  · rw [← Except.ok.inj hok]
    exact (Dry.of_eq rfl rfl).stalls
  · simp only [bind_eq_ok, Prod.exists] at hok
    obtain ⟨c₁, nwrote, remaining, fault, hwrite, -, -, hok⟩ := hok
    obtain ⟨hstalls, hsame⟩ := directWrite_stalls hbuffer hwrite
    have hlog : c₁.Stalls (c₁.log (.accepted t message)) := log_stalls rfl (by simp)
    cases fault with
    | true =>
        simp only [if_true, not_true_eq_false, false_and, if_false, pure_eq_ok] at hok
        rwa [← Except.ok.inj hok]
    | false =>
        simp only [Bool.false_eq_true, if_false, not_false_eq_true, true_and] at hok
        have hbuffer₁ : (c₁.log (.accepted t message)).outputBuffer.Wf := hsame ▸ hbuffer
        split_ifs at hok
        · exact (hstalls.trans hlog).trans (bufferRemaining_stalls hbuffer₁ hok)
        · rw [← Except.ok.inj hok]
          exact hstalls.trans hlog

lemma runFunctor_sendInLoop_stalls (hbuffer : c.outputBuffer.Wf) {t : Thread} {message : List UInt8}
    {o : WriteOutcome} (hok : c.runFunctor mem (.sendInLoop t message) o = .ok c') : c.Stalls c' := by
  have hlog : c.Stalls (c.log (.ran (.sendInLoop t message))) := log_stalls rfl (by simp)
  exact hlog.trans (sendInLoop_stalls hbuffer hok)

lemma call_send_stalls (hbuffer : c.outputBuffer.Wf) {t : Thread} {message : List UInt8} {o : WriteOutcome}
    (hok : c.call mem t o (.send message) = .ok c') : c.Stalls c' := by
  have hlog : c.Stalls (c.log (.send t message)) := log_stalls rfl (by simp)
  rw [call] at hok
  split_ifs at hok
  · rw [runInLoop] at hok
    split_ifs at hok
    · exact hlog.trans (runFunctor_sendInLoop_stalls hbuffer hok)
    · rw [← Except.ok.inj hok]
      have hqueue : (c.log (.send t message)).Dry ((c.log (.send t message)).queueInLoop (.sendInLoop t message)) :=
        .of_eq rfl rfl
      exact hlog.trans hqueue.stalls
  · rw [← Except.ok.inj hok]
    exact (Dry.of_eq rfl rfl).stalls

end TcpConnection

namespace System

open TcpConnection

variable {cfg : Setting} {mem : Memory} {s s' : System} {l : LoopId} {i j : ℕ} {a : Action}
variable {c : TcpConnection ChannelId}

/-- The step calls `send` of the connection, or runs its `sendInLoop`. -/
def Sends (s : System) (i : ℕ) : Action → Prop
  | .call j (.send _) _ => j = i
  | .queue u => u.conn = i ∧ ∃ message, u.function = .send message
  | .nextFunctor l _ => ∃ t message, (s.loops l).batch.head? = some (.functor i (.sendInLoop t message))
  | _ => False

/-- The members of the connection are as they were. -/
lemma dry_of_conn (h : s'.conn j = s.conn j) : (s.view j).Dry (s'.view j) := by
  refine .of_eq ?_ ?_
  · rw [output, output, view, view, h]
  · rw [view, view, h]

/-- A function of the connection `i` has done nothing to the stream. -/
lemma put_dry (h : (s.view i).Dry c) (j : ℕ) : (s.view j).Dry ((s.put i c).view j) := by
  by_cases hji : j = i
  · subst hji
    refine h.trans (.of_eq ?_ ?_)
    · simp [output, view, System.put]
    · simp [view, System.put]
  · exact dry_of_conn (put_conn_of_ne hji c)

lemma handleClose_dry (h : (s.view i).Dry c) (hok : s.handleClose l i c = .ok s') (j : ℕ) :
    (s.view j).Dry (s'.view j) := by
  rw [handleClose, bind_eq_ok] at hok
  obtain ⟨c', hclose, hs'⟩ := hok
  rw [← Except.ok.inj hs']
  exact (put_dry (h.trans (beginClose_dry hclose)) j).trans (dry_of_conn rfl)

/-- A functor that is not `sendInLoop` of the connection. -/
lemma runTask_dry {t : Task} (h : s.Steady) {o : WriteOutcome}
    (hsend : ∀ u message, t ≠ .functor j (.sendInLoop u message)) (hok : s.runTask mem l o t = .ok s') :
    (s.view j).Dry (s'.view j) := by
  cases t with
  | connectEstablished i =>
      simp only [runTask, bind_eq_ok, pure_eq_ok, Except.ok.injEq] at hok
      obtain ⟨-, -, c, hc, rfl⟩ := hok
      exact put_dry (connectEstablished_dry hc) j
  | removeConnectionInLoop i =>
      simp only [runTask, bind_eq_ok, pure_eq_ok, Except.ok.injEq] at hok
      obtain ⟨-, -, rfl⟩ := hok
      exact dry_of_conn rfl
  | functor i f =>
      simp only [runTask, bind_eq_ok] at hok
      obtain ⟨-, -, hok⟩ := hok
      split_ifs at hok with hforce
      · have hlog : (s.view i).Dry ((s.view i).log (.ran .forceCloseInLoop)) := log_ran_dry (by simp)
        rw [forceCloseInLoopWith] at hok
        split_ifs at hok
        · exact handleClose_dry hlog hok j
        · rw [← Except.ok.inj hok]
          exact put_dry hlog j
      · simp only [bind_eq_ok, pure_eq_ok, Except.ok.injEq] at hok
        obtain ⟨c, hc, rfl⟩ := hok
        by_cases hji : j = i
        · subst hji
          refine put_dry (runFunctor_dry (h.isWriting_eq j) (fun u message heq => ?_) hforce hc) j
          exact hsend u message (by rw [heq])
        · exact dry_of_conn (put_conn_of_ne hji c)

lemma callback_dry (h : s.Steady) {readOutcome : ReadOutcome} {writeOutcome : WriteOutcome} {cb : Callback}
    (hok : s.callback mem l i readOutcome writeOutcome cb = .ok s') (j : ℕ) : (s.view j).Dry (s'.view j) := by
  cases cb with
  | close => exact handleClose_dry (.of_eq rfl rfl) hok j
  | error =>
      rw [← Except.ok.inj hok]
      exact dry_of_conn rfl
  | read =>
      simp only [callback, handleReadWith, bind_eq_ok, Prod.exists] at hok
      obtain ⟨n, buffer, -, hok⟩ := hok
      have hread : (s.view i).Dry { s.view i with inputBuffer := buffer } := .of_eq rfl rfl
      cases n with
      | error e =>
          rw [← Except.ok.inj hok]
          exact put_dry hread j
      | ok n =>
          dsimp only at hok
          split_ifs at hok
          · rw [← Except.ok.inj hok]
            exact put_dry (hread.log ⟨rfl, rfl, rfl, rfl⟩ (by simp)) j
          · exact handleClose_dry hread hok j
  | write =>
      simp only [callback, bind_eq_ok, pure_eq_ok, Except.ok.injEq] at hok
      obtain ⟨c, hc, rfl⟩ := hok
      rw [handleWrite_of_not_isWriting (h.isWriting_eq i) hc]
      exact put_dry (.of_eq rfl rfl) j

lemma closeCallback_dry (hl : (s.conn i).loop = l) (hok : s.closeCallback mem l i = .ok s') (j : ℕ) :
    (s.view j).Dry (s'.view j) := by
  simp only [closeCallback, bind_eq_ok] at hok
  obtain ⟨-, -, hok⟩ := hok
  have hlog : (s.view i).Dry ((s.view i).log .closeCallback) := (Dry.of_eq rfl rfl).log ⟨rfl, rfl, rfl, rfl⟩ (by simp)
  rw [runInLoop, if_pos hl.symm, runTask, bind_eq_ok] at hok
  obtain ⟨-, -, hs'⟩ := hok
  rw [← Except.ok.inj hs']
  exact (put_dry hlog j).trans (dry_of_conn rfl)

/-- A connection is established, now or later. -/
lemma establish_dry {t : LoopId} (hok : s.runInLoop mem t l (.connectEstablished i) = .ok s') (j : ℕ) :
    (s.view j).Dry (s'.view j) := by
  rw [runInLoop] at hok
  split_ifs at hok
  · simp only [runTask, bind_eq_ok, pure_eq_ok, Except.ok.injEq] at hok
    obtain ⟨-, -, c, hc, rfl⟩ := hok
    exact put_dry (connectEstablished_dry hc) j
  · rw [← Except.ok.inj hok]
    exact dry_of_conn rfl

/-- A connection that was there when another one is accepted. -/
lemma newConnection_dry {fd : ℤ} (hok : s.newConnection mem l fd = .ok s') (hj : j < s.accepted) :
    (s.view j).Dry (s'.view j) := by
  simp only [newConnection, bind_eq_ok, Prod.exists] at hok
  obtain ⟨ioLoop, pool, -, inputBuffer, -, outputBuffer, -, hok⟩ := hok
  have hconn : (System.construct { s with threadPool := pool } ioLoop fd inputBuffer outputBuffer).conn j = s.conn j :=
    Function.update_of_ne hj.ne ..
  exact (dry_of_conn hconn).trans (establish_dry hok j)

/-! ## Steps -/

/-- **The thread of a loop calls what is next.** -/
lemma next_dry (h : s.Steady) {item : Item} {rest : List Item} (htodo : (s.loops l).todo = item :: rest)
    {accepted : Option ℤ} {readOutcome : ReadOutcome} {writeOutcome : WriteOutcome}
    (hok : (s.setLoop l { s.loops l with todo := rest }).call mem l accepted readOutcome writeOutcome item = .ok s')
    (hj : j < s.accepted) : (s.view j).Dry (s'.view j) := by
  have hmem : item ∈ (s.loops l).todo := by simp [htodo]
  have h₁ := h.pop htodo
  have hpop : (s.view j).Dry ((s.setLoop l { s.loops l with todo := rest }).view j) := dry_of_conn rfl
  refine hpop.trans ?_
  cases item with
  | channel ch =>
      simp only [System.call, bind_eq_ok, pure_eq_ok, Except.ok.injEq] at hok
      obtain ⟨-, -, rfl⟩ := hok
      exact dry_of_conn rfl
  | callback i cb =>
      simp only [System.call, bind_eq_ok] at hok
      obtain ⟨-, -, hok⟩ := hok
      exact callback_dry h₁ hok j
  | accept =>
      cases accepted with
      | none =>
          rw [← Except.ok.inj hok]
          exact dry_of_conn rfl
      | some fd =>
          rw [System.call, acceptorHandleRead, guard_eq_ok] at hok
          exact newConnection_dry hok.2 hj
  | closeCallback i =>
      have hl : ((s.setLoop l { s.loops l with todo := rest }).conn i).loop = l :=
        (h.known l i (.todo hmem (Or.inr rfl))).2
      exact closeCallback_dry hl hok j

/-- **A step** that does not send on the connection. -/
lemma step_dry (h : s.Steady) (hsends : ¬ s.Sends j a) (hok : s.step mem a = .ok s') (hj : j < s.accepted) :
    (s.view j).Dry (s'.view j) := by
  cases a with
  | poll l report =>
      simp only [System.step, guard_eq_ok, bind_eq_ok, pure_eq_ok, Except.ok.injEq, Prod.exists] at hok
      obtain ⟨-, -, -, -, -, r, active, -, rfl⟩ := hok
      exact dry_of_conn rfl
  | next l accepted readOutcome writeOutcome =>
      simp only [System.step] at hok
      split at hok
      · simp at hok
      · rename_i item rest htodo
        exact next_dry h htodo hok hj
  | nextFunctor l outcome =>
      simp only [System.step, guard_eq_ok] at hok
      obtain ⟨-, hok⟩ := hok
      split at hok
      · simp at hok
      · rename_i t rest hbatch
        have htaken : (s.view j).Dry ((s.setLoop l { s.loops l with
            batch := rest, called := (s.loops l).called ++ [t] }).view j) := dry_of_conn rfl
        refine htaken.trans (runTask_dry (h.takeFunctor hbatch) ?_ hok)
        rintro u message rfl
        exact hsends ⟨u, message, by rw [hbatch]; rfl⟩
  | call i m outcome =>
      simp only [System.step, guard_eq_ok, bind_eq_ok, pure_eq_ok, Except.ok.injEq] at hok
      obtain ⟨-, c, hc, rfl⟩ := hok
      by_cases hji : j = i
      · subst hji
        refine put_dry (call_dry (h.isWriting_eq j) ?_ hc) j
        rintro message rfl
        exact hsends rfl
      · exact dry_of_conn (put_conn_of_ne hji c)
  | test i n m =>
      simp only [System.step, guard_eq_ok] at hok
      obtain ⟨-, hok⟩ := hok
      split_ifs at hok
      · rw [← Except.ok.inj hok]
        exact dry_of_conn rfl
      · rw [← Except.ok.inj hok]
        exact dry_of_conn rfl
  | store u =>
      simp only [System.step, guard_eq_ok, bind_eq_ok, pure_eq_ok, Except.ok.injEq] at hok
      obtain ⟨-, -, -, rfl⟩ := hok
      exact put_dry (s := (s.leave u).enter { u with stored := true }) (sets_dry u.function) j
  | queue u =>
      simp only [System.step, guard_eq_ok, bind_eq_ok, pure_eq_ok, Except.ok.injEq] at hok
      obtain ⟨-, -, -, rfl⟩ := hok
      by_cases hji : j = u.conn
      · refine put_dry (s := s.leave u) (posts_dry u.thread fun message heq => ?_) j
        exact hsends ⟨hji.symm, message, heq⟩
      · exact dry_of_conn (put_conn_of_ne (s := s.leave u) hji _)
  | retrieveInput i len =>
      simp only [System.step, guard_eq_ok, bind_eq_ok, pure_eq_ok, Except.ok.injEq] at hok
      obtain ⟨-, buffer, -, rfl⟩ := hok
      have hdry : (s.view i).Dry { s.view i with inputBuffer := buffer } := .of_eq rfl rfl
      exact put_dry hdry j
  | setHighWaterMarkCallback i highWaterMark =>
      simp only [System.step, guard_eq_ok, Except.ok.injEq] at hok
      rw [← hok.2]
      have hdry : (s.view i).Dry { s.view i with highWaterMark := highWaterMark, highWateMarkCallback := true } :=
        .of_eq rfl rfl
      exact put_dry hdry j
  | drop i =>
      rw [← Except.ok.inj hok]
      exact dry_of_conn rfl
  | takePending _ | endRound _ | keep _ | destroy _ | openFd _ | closeFd _ =>
      simp only [System.step, guard_eq_ok, Except.ok.injEq] at hok
      rw [← hok.2]
      exact dry_of_conn rfl

/-- A function of the connection `i` that sends. -/
lemma put_stalls (h : (s.view i).Stalls c) : (s.view i).Stalls ((s.put i c).view i) := by
  have hsame : c.Dry ((s.put i c).view i) := by
    refine .of_eq ?_ ?_
    · simp [output, view, System.put]
    · simp [view, System.put]
  exact h.trans hsame.stalls

/-- **Every step.** -/
lemma step_stalls (h : s.Steady) (hok : s.step mem a = .ok s') (hj : j < s.accepted) :
    (s.view j).Stalls (s'.view j) := by
  by_cases hsends : s.Sends j a
  · cases a with
    | call i m outcome =>
        cases m with
        | send message =>
            obtain rfl : i = j := hsends
            simp only [System.step, guard_eq_ok, bind_eq_ok, pure_eq_ok, Except.ok.injEq] at hok
            obtain ⟨-, c, hc, rfl⟩ := hok
            exact put_stalls (call_send_stalls (h.outputBuffer i hj) hc)
        | _ => exact hsends.elim
    | nextFunctor l outcome =>
        obtain ⟨t, message, hhead⟩ := hsends
        simp only [System.step, guard_eq_ok] at hok
        obtain ⟨-, hok⟩ := hok
        split at hok
        · simp at hok
        · rename_i u rest hbatch
          rw [hbatch, List.head?_cons, Option.some.injEq] at hhead
          subst hhead
          simp only [runTask, bind_eq_ok, pure_eq_ok, Except.ok.injEq, reduceCtorEq, if_false] at hok
          obtain ⟨-, -, c, hc, rfl⟩ := hok
          have htaken : (s.view j).Dry ((s.setLoop l { s.loops l with batch := rest, called := (s.loops l).called ++
              [.functor j (.sendInLoop t message)] }).view j) := dry_of_conn rfl
          exact htaken.stalls.trans (put_stalls (runFunctor_sendInLoop_stalls (h.outputBuffer j hj) hc))
    | queue u =>
        obtain ⟨rfl, message, hfunction⟩ := hsends
        simp only [System.step, guard_eq_ok, bind_eq_ok, pure_eq_ok, Except.ok.injEq] at hok
        obtain ⟨-, -, -, rfl⟩ := hok
        have hposts : ((s.leave u).view u.conn).Stalls ((s.view u.conn).posts u.thread u.function) := by
          rw [hfunction]
          exact posts_send_stalls u.thread message
        exact put_stalls hposts
    | _ => exact hsends.elim
  · exact (step_dry h hsends hok hj).stalls

/-! ## Runs -/

/-- No connection has been shut down for writing. -/
def Unshut (s : System) : Prop := ∀ i < s.accepted, ∀ backlog, .shutdownWrite backlog ∉ (s.conn i).trace

lemma step_unshut (h : s.Steady) (hunshut : s.Unshut) (hok : s.step mem a = .ok s') : s'.Unshut := by
  intro i hi backlog
  by_cases hlt : i < s.accepted
  · obtain ⟨es, htrace, hshut⟩ := (step_stalls h hok hlt).effects
    have heq : (s'.conn i).trace = (s.conn i).trace ++ es := htrace
    rw [heq, List.mem_append]
    exact not_or.mpr ⟨hunshut i hlt backlog, hshut backlog⟩
  · -- the connection has been accepted in this step
    cases step_feeds hok with
    | still hstill => exact absurd (hstill.accepted_eq ▸ hi) hlt
    | reads _ _ _ _ _ hstill => exact absurd (hstill.accepted_eq ▸ hi) hlt
    | takes => exact absurd hi hlt
    | @accepts _ s₁ _ _ _ _ haccepted _ _ _ _ _ hempty hestablish hstill =>
        obtain rfl : i = s.accepted := by
          rw [hstill.accepted_eq, haccepted] at hi
          omega
        obtain ⟨es, htrace, -, hshut⟩ := (establish_dry hestablish s.accepted).effects
        have heq : (s'.conn s.accepted).trace = (s₁.conn s.accepted).trace ++ es := htrace
        rw [heq, hempty, List.nil_append]
        exact hshut backlog

/-- From `s` to `s'` no backlog has been sent. -/
structure Backs (s s' : System) : Prop where
  accepted_le : s.accepted ≤ s'.accepted
  stalls : ∀ i < s.accepted, (s.view i).Stalls (s'.view i)

/-- **What is left over is never sent.**  In every run of the server, once `sendInLoop` has put bytes into the output
buffer of a connection they stay there, in the front of it, in every later state; the kernel is given nothing more on
that connection, whatever else is sent on it; and no connection is ever shut down for writing. -/
theorem backlog_stalls (cfg : Setting) (as : List Action) :
    (Machine.states (step cfg.mem) cfg.start as).Pairwise (fun s s' => ∀ i < s.accepted,
      (s.conn i).outputBuffer.toList <+: (s'.conn i).outputBuffer.toList ∧
      ((s.conn i).outputBuffer.toList ≠ [] → wire (s'.conn i).trace = wire (s.conn i).trace)) ∧
    ∀ s ∈ Machine.states (step cfg.mem) cfg.start as, s.Unshut := by
  refine ⟨List.Pairwise.imp (R := Backs) (fun hbacks i hi => ?_) ?_, ?_⟩
  · exact ⟨(hbacks.stalls i hi).output, (hbacks.stalls i hi).wire_eq⟩
  · refine Machine.pairwise_states (I := Steady) (C := fun _ _ => True) ?_ ?_ (steady_start cfg) fun _ _ => trivial
    · exact fun s t u h h' => ⟨h.accepted_le.trans h'.accepted_le, fun i hi =>
        (h.stalls i hi).trans (h'.stalls i (hi.trans_le h.accepted_le))⟩
    · exact fun s a s' h _ hok =>
        ⟨h.step hok, (step_continues hok).accepted_le, fun i hi => step_stalls h hok hi⟩
  · have hall : ∀ s ∈ Machine.states (step cfg.mem) cfg.start as, s.Steady ∧ s.Unshut :=
      Machine.states_invariant (fun s a s' h hok => ⟨h.1.step hok, step_unshut h.1 h.2 hok⟩)
        ⟨steady_start cfg, fun i hi => absurd hi (Nat.not_lt_zero i)⟩
    exact fun s hs => (hall s hs).2

/-- One more byte is sent on the second connection, and the kernel would take it; and the user shuts it down. -/
def leftOver : List Action :=
  reuse ++ [.endRound (.io 0), .call 1 (.send [6]) (.wrote 1), .call 1 .shutdown (.wrote 0)]

/-- Two of the three bytes sent stay where they are. -/
theorem backlog_stalls_leftOver :
    ∃ s, Machine.run (step oneThread.mem) oneThread.start leftOver = .ok s ∧ (s.conn 1).state = .kDisconnecting ∧
      wire (s.conn 1).trace = [4] ∧ (s.conn 1).outputBuffer.toList = [5, 6] ∧ s.Unshut := by
  have hrun : (Machine.run (step oneThread.mem) oneThread.start leftOver).map
      (fun s => ((s.conn 1).state, wire (s.conn 1).trace, (s.conn 1).outputBuffer.toList))
        = .ok (.kDisconnecting, [4], [5, 6]) := by
    decide +kernel
  obtain ⟨s, hs, hobs⟩ := Machine.ok_of_map hrun
  obtain ⟨hstate, hwire, houtput⟩ : (s.conn 1).state = .kDisconnecting ∧ wire (s.conn 1).trace = [4] ∧
      (s.conn 1).outputBuffer.toList = [5, 6] := by
    simpa using hobs
  obtain ⟨-, hunshut⟩ := backlog_stalls oneThread leftOver
  exact ⟨s, hs, hstate, hwire, houtput, hunshut s (Machine.mem_states_of_run hs)⟩

end System

end Seenet
