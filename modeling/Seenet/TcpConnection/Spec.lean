import Seenet.TcpConnection.Basic
import Seenet.Poller.Coherence
import Seenet.Buffer.Refinement

/-!
# What the functions of a connection do

Each function gets one lemma: from a connection whose loop and output buffer are in order (`Wf`), if it
returns, then it leaves them in order, and what it has done to the output buffer, to the trace and to
the functors of the loop is said by `Does`; next to that stand the state and the channel afterwards.

* `Does` — and how it composes.
* **`sendInLoop_spec`**, **`handleWrite_spec`** — the two functions that move bytes; `sendInLoop_does` and
  `handleWrite_does` say which callbacks they queue.
* `beginClose_spec`, `startReadInLoop_spec`, … — the others, which leave the output buffer alone.
* `Spares` — what all of these but `sendInLoop`, `shutdownInLoop` and `handleWrite` have in common.
-/

namespace Seenet

open Channel

/-- The user's callbacks, which a connection queues. -/
def Functor.IsCallback : Functor → Prop
  | .writeCompleteCallback => True
  | .highWateMarkCallback _ => True
  | _ => False

/-- The callbacks of the server and the user. -/
def Effect.IsCallback : Effect → Prop
  | .connCallback => True
  | .messageCallback => True
  | .closeCallback => True
  | _ => False

/-- A call of `write` that did not fail. -/
def Effect.isWrote : Effect → Bool
  | .wrote _ => true
  | _ => false

namespace TcpConnection

variable {ι : Type}

/-- The loop's poller agrees with its channels, and the output buffer is one. -/
structure Wf (c : TcpConnection ι) : Prop where
  coherent : c.registry.Coherent
  outputBuffer : c.outputBuffer.Wf

/-- `c'` is a later state of `c`: the output buffer holds `output`, the trace has grown by `effects`, and
`queued` has been queued. -/
structure Does (c c' : TcpConnection ι) (output : List UInt8) (effects : List Effect)
    (queued : List Functor) : Prop where
  wf : c'.Wf
  channel_eq : c'.channel = c.channel
  output_eq : c'.output = output
  trace_eq : c'.trace = c.trace ++ effects
  pending_eq : c'.functors.pending = c.functors.pending ++ queued
  batch_eq : c'.functors.batch = c.functors.batch

variable {c c' c'' : TcpConnection ι}

section Does

variable {o o' : List UInt8} {es es' : List Effect} {fs fs' : List Functor}

lemma Does.trans (h : c.Does c' o es fs) (h' : c'.Does c'' o' es' fs') :
    c.Does c'' o' (es ++ es') (fs ++ fs') where
  wf := h'.wf
  channel_eq := h'.channel_eq.trans h.channel_eq
  output_eq := h'.output_eq
  trace_eq := by rw [h'.trace_eq, h.trace_eq, List.append_assoc]
  pending_eq := by rw [h'.pending_eq, h.pending_eq, List.append_assoc]
  batch_eq := h'.batch_eq.trans h.batch_eq

/-- A second part that leaves the output buffer alone. -/
lemma Does.then (h : c.Does c' o es fs) (h' : c'.Does c'' c'.output es' fs') :
    c.Does c'' o (es ++ es') (fs ++ fs') :=
  h.trans (h.output_eq ▸ h')

lemma Wf.does_nothing (h : c.Wf) : c.Does c c.output [] [] :=
  ⟨h, rfl, rfl, (List.append_nil _).symm, (List.append_nil _).symm, rfl⟩

lemma Does.setState (h : c.Does c' o es fs) (s : StateE) : c.Does (c'.setState s) o es fs :=
  ⟨⟨h.wf.coherent, h.wf.outputBuffer⟩, h.channel_eq, h.output_eq, h.trace_eq, h.pending_eq,
    h.batch_eq⟩

lemma Does.setReading (h : c.Does c' o es fs) (b : Bool) :
    c.Does { c' with reading := b } o es fs :=
  ⟨⟨h.wf.coherent, h.wf.outputBuffer⟩, h.channel_eq, h.output_eq, h.trace_eq, h.pending_eq,
    h.batch_eq⟩

lemma Does.log (h : c.Does c' o es fs) (e : Effect) : c.Does (c'.log e) o (es ++ [e]) fs :=
  ⟨⟨h.wf.coherent, h.wf.outputBuffer⟩, h.channel_eq, h.output_eq,
    by rw [TcpConnection.log, h.trace_eq, List.append_assoc], h.pending_eq, h.batch_eq⟩

lemma Does.queueInLoop (h : c.Does c' o es fs) (f : Functor) :
    c.Does (c'.queueInLoop f) o es (fs ++ [f]) :=
  ⟨⟨h.wf.coherent, h.wf.outputBuffer⟩, h.channel_eq, h.output_eq, h.trace_eq,
    by rw [TcpConnection.queueInLoop, BatchQueue.push, h.pending_eq, List.append_assoc],
    h.batch_eq⟩

end Does

/-! ## The state and the channel through the small steps -/

@[simp] lemma setState_state (s : StateE) : (c.setState s).state = s := rfl
@[simp] lemma setState_ch (s : StateE) : (c.setState s).ch = c.ch := rfl
@[simp] lemma setState_output (s : StateE) : (c.setState s).output = c.output := rfl
@[simp] lemma log_state (e : Effect) : (c.log e).state = c.state := rfl
@[simp] lemma log_ch (e : Effect) : (c.log e).ch = c.ch := rfl
@[simp] lemma log_isWriting (e : Effect) : (c.log e).isWriting = c.isWriting := rfl
@[simp] lemma log_output (e : Effect) : (c.log e).output = c.output := rfl
@[simp] lemma queueInLoop_state (f : Functor) : (c.queueInLoop f).state = c.state := rfl
@[simp] lemma queueInLoop_ch (f : Functor) : (c.queueInLoop f).ch = c.ch := rfl
@[simp] lemma queueInLoop_output (f : Functor) : (c.queueInLoop f).output = c.output := rfl

lemma isWriting_iff : c.isWriting = true ↔ .epollout ∈ c.ch.events := Channel.isWriting_iff

lemma isWriting_eq_of_events (h : c'.ch.events = c.ch.events) : c'.isWriting = c.isWriting := by
  rw [isWriting, isWriting, Channel.isWriting, Channel.isWriting, h]

lemma Wf.readableBytes_eq (h : c.Wf) : c.outputBuffer.readableBytes = c.output.length :=
  h.outputBuffer.length_toList.symm

lemma Wf.readableBytes_eq_zero (h : c.Wf) : c.outputBuffer.readableBytes = 0 ↔ c.output = [] :=
  h.outputBuffer.readableBytes_eq_zero

/-! ## Functions that do not touch the channel -/

/-- `shutdownInLoop` calls `shutdownWrite` if the channel waits to write, whatever is in the output
buffer. -/
lemma shutdownInLoop_spec (h : c.Wf) :
    c.Does c.shutdownInLoop c.output (if c.isWriting then [.shutdownWrite c.output] else []) [] ∧
      c.shutdownInLoop.state = c.state ∧ c.shutdownInLoop.ch = c.ch := by
  rw [shutdownInLoop]
  split_ifs with hw
  · exact ⟨h.does_nothing.log _, rfl, rfl⟩
  · exact ⟨h.does_nothing, rfl, rfl⟩

lemma shutdownInLoop_of_not_isWriting (hw : c.isWriting = false) : c.shutdownInLoop = c := by
  rw [shutdownInLoop, hw]
  rfl

lemma handleWrite_of_not_isWriting [DecidableEq ι] {o : WriteOutcome} (hw : c.isWriting = false)
    (hok : c.handleWrite o = .ok c') : c' = c := by
  rw [handleWrite, hw, if_neg (by simp), pure_eq_ok, Except.ok.injEq] at hok
  exact hok.symm

lemma closeCallback_spec (h : c.Wf) :
    c.Does c.closeCallback c.output [.closeCallback] [.connectDestroyed] ∧
      c.closeCallback.state = c.state ∧ c.closeCallback.ch = c.ch :=
  ⟨(h.does_nothing.log _).queueInLoop _, rfl, rfl⟩

/-! ## What is done with a message -/

/-- Nothing is queued: a message is written at once. -/
def Idle (c : TcpConnection ι) : Prop := c.isWriting = false ∧ c.output = []

instance (c : TcpConnection ι) : Decidable c.Idle := inferInstanceAs (Decidable (_ ∧ _))

/-- What `sendInLoop` does with a message on a connection that is not disconnected: how much of it is put
in the output buffer, and what is recorded. -/
inductive Sends (c : TcpConnection ι) (t : Thread) (data : List UInt8) :
    WriteOutcome → List UInt8 → List Effect → Prop
  | busy {o} (hbusy : ¬ c.Idle) : Sends c t data o data [.accepted t data]
  | direct {n} (hidle : c.Idle) (hn : n ≤ data.length) :
      Sends c t data (.wrote n) (data.drop n) [.wrote (data.take n), .accepted t data]
  | failed {e} (hidle : c.Idle) (he : faultError e = false) :
      Sends c t data (.error e) data [.accepted t data]
  | fault {e} (hidle : c.Idle) (he : faultError e = true) : Sends c t data (.error e) [] []

/-- The callbacks that are set, and the mark. -/
def callbacks (c : TcpConnection ι) : Bool × Bool × ℕ :=
  (c.writeCompleteCallback, c.highWateMarkCallback, c.highWaterMark)

/-- The write-complete callback, if it is set. -/
def writeComplete (c : TcpConnection ι) : List Functor :=
  if c.writeCompleteCallback then [.writeCompleteCallback] else []

/-- The high-water callback, if it is set and `size` bytes reach the mark. -/
def highWater (c : TcpConnection ι) (size : ℕ) : List Functor :=
  if c.highWaterMark ≤ size ∧ c.highWateMarkCallback then [.highWateMarkCallback size] else []

/-- What `sendInLoop` queues when `kept` goes into the output buffer. -/
def overMark (c : TcpConnection ι) (kept : List UInt8) : List Functor :=
  if kept = [] then [] else c.highWater (c.output.length + kept.length)

/-- What a write queues that leaves `left` bytes to be written. -/
def completes (c : TcpConnection ι) (es : List Effect) (left : List UInt8) : List Functor :=
  if es.any Effect.isWrote ∧ left = [] then c.writeComplete else []

lemma isCallback_of_writeComplete : ∀ f ∈ c.writeComplete, Functor.IsCallback f := by
  rw [writeComplete]
  split_ifs <;> simp [Functor.IsCallback]

lemma isCallback_of_highWater (size : ℕ) : ∀ f ∈ c.highWater size, Functor.IsCallback f := by
  rw [highWater]
  split_ifs <;> simp [Functor.IsCallback]

lemma isCallback_of_overMark (kept : List UInt8) : ∀ f ∈ c.overMark kept, Functor.IsCallback f := by
  rw [overMark]
  split_ifs
  · simp
  · exact isCallback_of_highWater _

lemma isCallback_of_completes (es : List Effect) (left : List UInt8) :
    ∀ f ∈ c.completes es left, Functor.IsCallback f := by
  rw [completes]
  split_ifs
  · exact isCallback_of_writeComplete
  · simp

lemma idle_iff (h : c.Wf) : c.Idle ↔ ¬ c.isWriting = true ∧ c.outputBuffer.readableBytes = 0 := by
  rw [Idle, h.readableBytes_eq_zero, Bool.not_eq_true]

/-- The direct write: not made, made, or failed. -/
inductive DirectWrites (c : TcpConnection ι) (data : List UInt8) :
    WriteOutcome → TcpConnection ι → ℕ → ℕ → Bool → Prop
  | busy {o} (hbusy : ¬ c.Idle) : DirectWrites c data o c 0 data.length false
  | direct {n c₁ fs} (hidle : c.Idle) (hn : n ≤ data.length) (hfs : ∀ f ∈ fs, Functor.IsCallback f)
      (hdoes : c.Does c₁ c.output [.wrote (data.take n)] fs) (hstate : c₁.state = c.state)
      (hch : c₁.ch = c.ch) : DirectWrites c data (.wrote n) c₁ n (data.length - n) false
  | error {e} (hidle : c.Idle) : DirectWrites c data (.error e) c 0 data.length (faultError e)

/-- The notification about the mark. -/
def notify (c : TcpConnection ι) (size : ℕ) : TcpConnection ι :=
  if c.highWaterMark ≤ size ∧ c.highWateMarkCallback then c.queueInLoop (.highWateMarkCallback size) else c

lemma notify_does (h : c.Wf) (size : ℕ) :
    c.Does (c.notify size) c.output [] (c.highWater size) ∧ (c.notify size).state = c.state ∧
      (c.notify size).ch = c.ch ∧ (c.notify size).callbacks = c.callbacks ∧
      (c.notify size).outputBuffer = c.outputBuffer := by
  rw [notify, highWater]
  split_ifs
  · exact ⟨h.does_nothing.queueInLoop _, rfl, rfl, rfl, rfl⟩
  · exact ⟨h.does_nothing, rfl, rfl, rfl, rfl⟩

/-- The connection after a direct write of `n` bytes. -/
def directWritten (c : TcpConnection ι) (data : List UInt8) (n : ℕ) : TcpConnection ι :=
  if data.length - n = 0 ∧ c.writeCompleteCallback then
    (c.log (.wrote (data.take n))).queueInLoop .writeCompleteCallback
  else c.log (.wrote (data.take n))

lemma directWritten_does (h : c.Wf) {data : List UInt8} {n : ℕ} (hn : n ≤ data.length) (t : Thread) :
    c.Does (c.directWritten data n) c.output [.wrote (data.take n)]
        (c.completes [.wrote (data.take n), .accepted t data] (data.drop n)) ∧
      (c.directWritten data n).state = c.state ∧ (c.directWritten data n).ch = c.ch ∧
      (c.directWritten data n).callbacks = c.callbacks := by
  have hleft : data.drop n = [] ↔ data.length - n = 0 := by
    rw [List.drop_eq_nil_iff]
    omega
  have hcompletes : c.completes [.wrote (data.take n), .accepted t data] (data.drop n)
      = if data.length - n = 0 ∧ c.writeCompleteCallback then [.writeCompleteCallback] else [] := by
    simp only [completes, List.any_cons, Effect.isWrote, Bool.true_or, true_and, hleft, writeComplete,
      ite_and]
  rw [hcompletes, directWritten]
  split_ifs
  · exact ⟨(h.does_nothing.log _).queueInLoop _, rfl, rfl, rfl⟩
  · exact ⟨h.does_nothing.log _, rfl, rfl, rfl⟩

lemma directWrite_of_busy (h : c.Wf) (hbusy : ¬ c.Idle) (data : List UInt8) (o : WriteOutcome) :
    c.directWrite data o = .ok (c, 0, data.length, false) := by
  rw [directWrite, if_neg (mt (idle_iff h).mpr hbusy), pure_eq_ok]

lemma directWrite_wrote (h : c.Wf) (hidle : c.Idle) {data : List UInt8} {n : ℕ} (hn : n ≤ data.length) :
    c.directWrite data (.wrote n) = .ok (c.directWritten data n, n, data.length - n, false) := by
  rw [directWrite, if_pos ((idle_iff h).mp hidle), sockets.write, if_pos hn, bind_ok, directWritten]
  dsimp only
  have hcb : (c.log (.wrote (data.take n))).writeCompleteCallback = c.writeCompleteCallback := rfl
  rw [hcb]
  split_ifs <;> rfl

lemma directWrite_error (h : c.Wf) (hidle : c.Idle) (data : List UInt8) (e : Errno) :
    c.directWrite data (.error e) = .ok (c, 0, data.length, faultError e) := by
  rw [directWrite, if_pos ((idle_iff h).mp hidle), sockets.write, bind_ok]
  rfl

lemma le_of_directWrite (h : c.Wf) (hidle : c.Idle) {data : List UInt8} {n : ℕ}
    {r : TcpConnection ι × ℕ × ℕ × Bool} (hok : c.directWrite data (.wrote n) = .ok r) : n ≤ data.length := by
  rw [directWrite, if_pos ((idle_iff h).mp hidle), sockets.write] at hok
  by_contra hnot
  simp [hnot] at hok

lemma directWrite_spec (h : c.Wf) {data : List UInt8} {o : WriteOutcome} {nwrote remaining : ℕ}
    {fault : Bool} (hok : c.directWrite data o = .ok (c', nwrote, remaining, fault)) :
    DirectWrites c data o c' nwrote remaining fault := by
  by_cases hidle : c.Idle
  · cases o with
    | wrote n =>
        have hn := le_of_directWrite h hidle hok
        rw [directWrite_wrote h hidle hn] at hok
        obtain ⟨rfl, rfl, rfl, rfl⟩ := Except.ok.inj hok
        obtain ⟨hdoes, hstate, hch, -⟩ := directWritten_does h hn .loop
        exact .direct hidle hn (isCallback_of_completes _ _) hdoes hstate hch
    | error e =>
        rw [directWrite_error h hidle] at hok
        obtain ⟨rfl, rfl, rfl, rfl⟩ := Except.ok.inj hok
        exact .error hidle
  · rw [directWrite_of_busy h hidle] at hok
    obtain ⟨rfl, rfl, rfl, rfl⟩ := Except.ok.inj hok
    exact .busy hidle

/-! ## Functions that move no byte -/

/-- `handleRead` hands what it read to the user, or closes the connection at the end of the stream, or does
nothing after an error. -/
lemma handleReadWith_ok {β : Type} {close : TcpConnection ι → Res β} {done : TcpConnection ι → β}
    {mem : Memory} {o : ReadOutcome} {r : β} (h : c.Wf)
    (hok : c.handleReadWith close done mem o = .ok r) :
    ∃ c₁, c.Does c₁ c.output [] [] ∧ c₁.state = c.state ∧ c₁.ch = c.ch ∧
      (r = done c₁ ∨ r = done (c₁.log .messageCallback) ∨ close c₁ = .ok r) := by
  simp only [handleReadWith, bind_eq_ok, Prod.exists] at hok
  obtain ⟨n, buffer, -, hok⟩ := hok
  have hdoes : c.Does { c with inputBuffer := buffer } c.output [] [] :=
    ⟨⟨h.coherent, h.outputBuffer⟩, rfl, rfl, (List.append_nil _).symm, (List.append_nil _).symm,
      rfl⟩
  refine ⟨{ c with inputBuffer := buffer }, hdoes, rfl, rfl, ?_⟩
  cases n with
  | error e =>
      simp only [pure_eq_ok, Except.ok.injEq] at hok
      exact Or.inl hok.symm
  | ok n =>
      simp only at hok
      split_ifs at hok with hpos
      · rw [pure_eq_ok, Except.ok.injEq] at hok
        exact Or.inr (Or.inl hok.symm)
      · exact Or.inr (Or.inr hok)

/-- From `c` to `c'` no byte moves and no message is taken: callbacks may have been called, and the
connection may have been closed; the channel has not begun to wait to write. -/
structure Spares (c c' : TcpConnection ι) : Prop where
  does : ∃ es fs, c.Does c' c.output es fs ∧ (∀ e ∈ es, Effect.IsCallback e) ∧
    ∀ f ∈ fs, f = .connectDestroyed
  isWriting_le : c'.isWriting = true → c.isWriting = true
  state_eq : c'.state = c.state ∨ c'.state = .kDisconnected

/-- A disconnected connection stays disconnected. -/
lemma Spares.disconnected (h : c.Spares c') (hstate : c.state = .kDisconnected) :
    c'.state = .kDisconnected := by
  rcases h.state_eq with heq | heq
  · rw [heq, hstate]
  · exact heq

lemma Wf.spares_self (h : c.Wf) : c.Spares c :=
  ⟨⟨[], [], h.does_nothing, by simp, by simp⟩, id, Or.inl rfl⟩

/-- The mask has lost bits, or gained such as are not for writing. -/
lemma isWriting_le_of_events {events : Finset Event} (hev : c'.ch.events = events)
    (hsub : .epollout ∈ events → .epollout ∈ c.ch.events) :
    c'.isWriting = true → c.isWriting = true := by
  intro hw
  rw [isWriting_iff] at hw ⊢
  rw [hev] at hw
  exact hsub hw

/-- Interest in reading says nothing about writing. -/
lemma Does.spares_of_read {touch : Prop} [Decidable touch] {events : Finset Event}
    (hdoes : c.Does c' c.output [] []) (hstate : c'.state = c.state)
    (hcase : if touch then c'.ch = c.ch.updated events else c' = c)
    (hsub : .epollout ∈ events → .epollout ∈ c.ch.events) : c.Spares c' := by
  refine ⟨⟨[], [], hdoes, by simp, by simp⟩, ?_, Or.inl hstate⟩
  split_ifs at hcase
  · exact isWriting_le_of_events (congrArg Channel.events hcase) hsub
  · rw [hcase]
    exact id

lemma onChannel_callbacks {op : Registry ι → ι → Res (Registry ι)} (hok : c.onChannel op = .ok c') :
    c'.callbacks = c.callbacks := by
  simp only [onChannel, bind_eq_ok, pure_eq_ok, Except.ok.injEq] at hok
  obtain ⟨r, -, rfl⟩ := hok
  rfl

variable [DecidableEq ι]

/-! ## The channel -/

/-- **An operation on the channel** that sets its mask to `events` returns, and does only that. -/
lemma onChannel_spec (h : c.Wf) {op : Registry ι → ι → Res (Registry ι)} {events : Finset Event}
    (hop : op c.registry c.channel = c.registry.update c.channel events) :
    ∃ c', c.onChannel op = .ok c' ∧ c.Does c' c.output [] [] ∧ c'.state = c.state ∧
      c'.reading = c.reading ∧ c'.ch = c.ch.updated events := by
  obtain ⟨p, hp, hcoh⟩ := Registry.update_spec h.coherent c.channel events
  refine ⟨{ c with registry :=
    ⟨Function.update c.registry.heap c.channel (c.ch.updated events), p⟩ }, ?_, ?_, rfl, rfl, ?_⟩
  · rw [onChannel, hop, hp, bind_ok, pure_eq_ok]
    rfl
  · exact ⟨⟨hcoh, h.outputBuffer⟩, rfl, rfl, (List.append_nil _).symm, (List.append_nil _).symm,
      rfl⟩
  · exact Function.update_self ..

/-- The same, when the operation is known to have returned. -/
lemma onChannel_ok (h : c.Wf) {op : Registry ι → ι → Res (Registry ι)} {events : Finset Event}
    (hop : op c.registry c.channel = c.registry.update c.channel events)
    (hok : c.onChannel op = .ok c') :
    c.Does c' c.output [] [] ∧ c'.state = c.state ∧ c'.reading = c.reading ∧
      c'.ch = c.ch.updated events := by
  have hspec := spec_of_ok (onChannel_spec h hop) hok
  exact hspec

/-- `m_Channel->remove()`, when it returns. -/
lemma onChannel_remove_ok (h : c.Wf) (hok : c.onChannel Registry.remove = .ok c') :
    c.Does c' c.output [] [] ∧ c'.state = c.state ∧ c'.ch.index = .kNew ∧ c'.ch.events = ∅ := by
  simp only [onChannel, bind_eq_ok, pure_eq_ok, Except.ok.injEq] at hok
  obtain ⟨r, hr, rfl⟩ := hok
  obtain ⟨hcoh, hevents, hch⟩ := Registry.remove_ok h.coherent hr
  refine ⟨⟨⟨hcoh, h.outputBuffer⟩, rfl, rfl, (List.append_nil _).symm, (List.append_nil _).symm,
    rfl⟩, rfl, ?_, ?_⟩
  · simp only [ch, hch, setIdnex]
  · simp only [ch, hch, setIdnex]
    exact hevents

/-! ## Reading on and off -/

/-- Interest in reading is switched on or off, if the test `touch` passes. -/
lemma switchRead_spec (h : c.Wf) {touch : Prop} [Decidable touch]
    {op : Registry ι → ι → Res (Registry ι)} {events : Finset Event}
    (hop : op c.registry c.channel = c.registry.update c.channel events) (reading : Bool) :
    ∃ c', (if touch then do
          let c ← c.onChannel op
          return { c with reading := reading }
        else return c) = .ok c' ∧
      c.Does c' c.output [] [] ∧ c'.state = c.state ∧
      if touch then c'.ch = c.ch.updated events else c' = c := by
  split_ifs
  · obtain ⟨c₁, h₁, hdoes, hstate, -, hch⟩ := onChannel_spec h hop
    exact ⟨_, by rw [h₁, bind_ok, pure_eq_ok], hdoes.setReading reading, hstate, hch⟩
  · exact ⟨c, rfl, h.does_nothing, rfl, rfl⟩

/-- `startReadInLoop` either has nothing to do, or asks for read events. -/
lemma startReadInLoop_spec (h : c.Wf) :
    ∃ c', c.startReadInLoop = .ok c' ∧ c.Does c' c.output [] [] ∧ c'.state = c.state ∧
      if ¬ c.reading ∨ ¬ c.ch.isReading then c'.ch = c.ch.updated (c.ch.events ∪ kReadEvent)
      else c' = c := by
  rw [startReadInLoop]
  exact switchRead_spec h rfl true

lemma startReadInLoop_ok (h : c.Wf) (hok : c.startReadInLoop = .ok c') :
    c.Does c' c.output [] [] ∧ c'.state = c.state ∧
      if ¬ c.reading ∨ ¬ c.ch.isReading then c'.ch = c.ch.updated (c.ch.events ∪ kReadEvent)
      else c' = c := by
  have hspec := spec_of_ok (startReadInLoop_spec h) hok
  exact hspec

/-- `stopReadInLoop` either has nothing to do, or stops asking for read events. -/
lemma stopReadInLoop_spec (h : c.Wf) :
    ∃ c', c.stopReadInLoop = .ok c' ∧ c.Does c' c.output [] [] ∧ c'.state = c.state ∧
      if c.reading ∨ c.ch.isReading then c'.ch = c.ch.updated (c.ch.events \ kReadEvent)
      else c' = c := by
  rw [stopReadInLoop]
  exact switchRead_spec h rfl false

lemma stopReadInLoop_ok (h : c.Wf) (hok : c.stopReadInLoop = .ok c') :
    c.Does c' c.output [] [] ∧ c'.state = c.state ∧
      if c.reading ∨ c.ch.isReading then c'.ch = c.ch.updated (c.ch.events \ kReadEvent)
      else c' = c := by
  have hspec := spec_of_ok (stopReadInLoop_spec h) hok
  exact hspec

/-! ## Closing -/

/-- `handleClose`, as far as `m_connCallback`: the channel waits for nothing any more. -/
lemma beginClose_spec (h : c.Wf) (hok : c.beginClose = .ok c') :
    c.Does c' c.output [.connCallback] [] ∧ (c.state = .kConnected ∨ c.state = .kDisconnecting) ∧
      c'.state = .kDisconnected ∧ c'.ch = c.ch.updated ∅ := by
  simp only [beginClose, bind_eq_ok, assertThat_eq_ok, pure_eq_ok, Except.ok.injEq] at hok
  obtain ⟨-, hstate, c₁, h₁, rfl⟩ := hok
  have hset := h.does_nothing.setState .kDisconnected
  obtain ⟨hdoes, hstate', -, hch⟩ := onChannel_ok hset.wf rfl h₁
  exact ⟨(hset.trans hdoes).log _, hstate, hstate', hch⟩

lemma handleClose_spec (h : c.Wf) (hok : c.handleClose = .ok c') :
    c.Does c' c.output [.connCallback, .closeCallback] [.connectDestroyed] ∧
      (c.state = .kConnected ∨ c.state = .kDisconnecting) ∧
      c'.state = .kDisconnected ∧ c'.ch = c.ch.updated ∅ := by
  simp only [handleClose, bind_eq_ok, pure_eq_ok, Except.ok.injEq] at hok
  obtain ⟨c₁, h₁, rfl⟩ := hok
  obtain ⟨hdoes, hopen, hstate, hch⟩ := beginClose_spec h h₁
  exact ⟨(hdoes.log _).queueInLoop _, hopen, hstate, hch⟩

/-- `connectDestroyed` takes the channel out of the poller; a connection that was still connected is
disconnected first. -/
lemma connectDestroyed_spec (h : c.Wf) (hok : c.connectDestroyed = .ok c') :
    (∃ es, c.Does c' c.output es [] ∧ (es = [] ∨ es = [.connCallback])) ∧
      c'.state = (if c.state = .kConnected then .kDisconnected else c.state) ∧
      c'.ch.index = .kNew ∧ c'.ch.events = ∅ := by
  rw [connectDestroyed] at hok
  split_ifs at hok with hconn
  · simp only [bind_eq_ok, pure_eq_ok, Except.ok.injEq] at hok
    obtain ⟨c₁, h₁, c₂, rfl, hok⟩ := hok
    have hset := h.does_nothing.setState .kDisconnected
    obtain ⟨hdoes, hstate, -, hch⟩ := onChannel_ok hset.wf rfl h₁
    obtain ⟨hdoes', hstate', hindex, hevents⟩ := onChannel_remove_ok ((hset.trans hdoes).log _).wf hok
    refine ⟨⟨_, ((hset.trans hdoes).log .connCallback).then hdoes', Or.inr rfl⟩, ?_, hindex,
      hevents⟩
    rw [if_pos hconn]
    exact hstate'.trans hstate
  · simp only [bind_eq_ok, pure_eq_ok, Except.ok.injEq] at hok
    obtain ⟨c₁, rfl, hok⟩ := hok
    obtain ⟨hdoes, hstate, hindex, hevents⟩ := onChannel_remove_ok h hok
    refine ⟨⟨_, hdoes, Or.inl rfl⟩, ?_, hindex, hevents⟩
    rw [if_neg hconn]
    exact hstate

/-! ## Sending -/

lemma bufferRemaining_eq (mem : Memory) (c : TcpConnection ι) (data : List UInt8) (nwrote remaining : ℕ) :
    c.bufferRemaining mem data nwrote remaining
      = (c.outputBuffer.append mem (data.drop nwrote) >>= fun outputBuffer =>
          if c.isWriting then
            { c.notify (sizeAdd c.outputBuffer.readableBytes remaining) with
              outputBuffer := outputBuffer }.onChannel Registry.enableWriting
          else pure { c.notify (sizeAdd c.outputBuffer.readableBytes remaining) with
            outputBuffer := outputBuffer }) := by
  rw [bufferRemaining, notify]
  by_cases hmark : c.highWaterMark ≤ sizeAdd c.outputBuffer.readableBytes remaining ∧ c.highWateMarkCallback
  · simp only [if_pos hmark]
    rfl
  · simp only [if_neg hmark]
    rfl

/-- The rest of a message goes behind what is in the output buffer. -/
lemma bufferRemaining_does {mem : Memory} (h : c.Wf) {data : List UInt8} {nwrote remaining : ℕ}
    (hremaining : remaining = (data.drop nwrote).length)
    (hok : c.bufferRemaining mem data nwrote remaining = .ok c') :
    c.Does c' (c.output ++ data.drop nwrote) [] (c.highWater (c.output.length + remaining)) ∧
      c'.state = c.state ∧ c'.ch.events = c.ch.events ∧ c'.callbacks = c.callbacks := by
  rw [bufferRemaining_eq, bind_eq_ok] at hok
  obtain ⟨buffer, hbuffer, hok⟩ := hok
  obtain ⟨hwf, hlist⟩ := h.outputBuffer.append hbuffer
  -- what is in a buffer can be counted
  have hlen : c.output.length + remaining < 2 ^ 63 := by
    have hlength := hwf.length_toList
    have hs := hwf.length_lt
    have hw := hwf.wirter_le
    rw [hlist, List.length_append, ← hremaining, hwf.readableBytes_eq] at hlength
    rw [output]
    omega
  have hsize : sizeAdd c.outputBuffer.readableBytes remaining = c.output.length + remaining := by
    rw [h.readableBytes_eq]
    exact sizeAdd_eq (by omega)
  rw [hsize] at hok
  obtain ⟨hdoes, hstate, hch, hcb, -⟩ := notify_does h (c.output.length + remaining)
  generalize c.notify (c.output.length + remaining) = c₁ at hok hdoes hstate hch hcb
  have hdoes' : c.Does { c₁ with outputBuffer := buffer } (c.output ++ data.drop nwrote) []
      (c.highWater (c.output.length + remaining)) :=
    ⟨⟨hdoes.wf.coherent, hwf⟩, hdoes.channel_eq, hlist, hdoes.trace_eq, hdoes.pending_eq,
      hdoes.batch_eq⟩
  split_ifs at hok with hwriting
  · obtain ⟨hdoes'', hstate', -, hch'⟩ := onChannel_ok hdoes'.wf rfl hok
    refine ⟨by simpa using hdoes'.then hdoes'', hstate'.trans hstate, ?_, (onChannel_callbacks hok).trans hcb⟩
    -- it waits to write already
    have hout : kWriteEvent ⊆ c.ch.events := by
      rw [isWriting_iff] at hwriting
      rw [kWriteEvent, Finset.singleton_subset_iff]
      exact hwriting
    have hevents : c₁.ch.events ∪ kWriteEvent = c.ch.events := by
      rw [hch, Finset.union_eq_left]
      exact hout
    rw [hch', updated_events]
    exact hevents
  · rw [pure_eq_ok, Except.ok.injEq] at hok
    subst hok
    exact ⟨hdoes', hstate, congrArg Channel.events hch, hcb⟩

/-- The end of `sendInLoop`, once the message is accepted: what is left of it is kept, if anything is. -/
lemma keepRest_does {mem : Memory} {c₁ : TcpConnection ι} {es : List Effect} {fs : List Functor}
    (hdoes : c.Does c₁ c.output es fs) (hstate : c₁.state = c.state) (hch : c₁.ch = c.ch)
    (hcb : c₁.callbacks = c.callbacks) {data : List UInt8} {nwrote remaining : ℕ}
    (hok : (if 0 < remaining then c₁.bufferRemaining mem data nwrote remaining
      else pure c₁) = .ok c')
    (hremaining : remaining = data.length - nwrote) :
    c.Does c' (c.output ++ data.drop nwrote) es (fs ++ c.overMark (data.drop nwrote)) ∧
      c'.state = c.state ∧ c'.ch.events = c.ch.events ∧ c'.callbacks = c.callbacks := by
  have hlength : (data.drop nwrote).length = remaining := by rw [List.length_drop, hremaining]
  split_ifs at hok with hpos
  · obtain ⟨hdoes', hstate', hevents, hcb'⟩ := bufferRemaining_does hdoes.wf hlength.symm hok
    refine ⟨?_, hstate'.trans hstate, hevents.trans (congrArg Channel.events hch), hcb'.trans hcb⟩
    have hsome : data.drop nwrote ≠ [] := List.ne_nil_of_length_pos (by omega)
    have hmark : c₁.highWater (c₁.output.length + remaining) = c.overMark (data.drop nwrote) := by
      simp only [callbacks, Prod.mk.injEq] at hcb
      rw [overMark, if_neg hsome, hlength, highWater, highWater, hcb.2.1, hcb.2.2, hdoes.output_eq]
    have hboth := hdoes.trans hdoes'
    rwa [List.append_nil, hdoes.output_eq, ← hdoes.output_eq, hmark, hdoes.output_eq] at hboth
  · rw [pure_eq_ok, Except.ok.injEq] at hok
    subst hok
    have hnone : data.drop nwrote = [] := List.drop_eq_nil_of_le (by omega)
    rw [hnone, List.append_nil, overMark, if_pos rfl, List.append_nil]
    exact ⟨hdoes, hstate, congrArg Channel.events hch, hcb⟩

/-- **`sendInLoop`**, with the callbacks that it queues: the write-complete callback after a direct write that
leaves nothing, and the high-water callback when what is kept reaches the mark. -/
lemma sendInLoop_does {mem : Memory} (h : c.Wf) {t : Thread} {data : List UInt8} {o : WriteOutcome}
    (hstate : c.state ≠ .kDisconnected) (hok : c.sendInLoop mem t data o = .ok c') :
    c'.state = c.state ∧ c'.ch.events = c.ch.events ∧ c'.callbacks = c.callbacks ∧
      ∃ kept es, c.Sends t data o kept es ∧
        c.Does c' (c.output ++ kept) es (c.completes es kept ++ c.overMark kept) := by
  rw [sendInLoop, if_neg hstate] at hok
  simp only [bind_eq_ok, assertThat_eq_ok, Prod.exists] at hok
  obtain ⟨c₁, nwrote, remaining, fault, hwrite, -, -, hok⟩ := hok
  by_cases hidle : c.Idle
  · cases o with
    | wrote n =>
        have hn := le_of_directWrite h hidle hwrite
        rw [directWrite_wrote h hidle hn] at hwrite
        obtain ⟨rfl, rfl, rfl, rfl⟩ := Except.ok.inj hwrite
        simp only [Bool.false_eq_true, if_false, not_false_eq_true, true_and] at hok
        obtain ⟨hdoes₁, hst₁, hch₁, hcb₁⟩ := directWritten_does h hn t
        obtain ⟨hdoes, hst, hev, hcb⟩ := keepRest_does (hdoes₁.log (.accepted t data)) hst₁ hch₁ hcb₁ hok rfl
        exact ⟨hst, hev, hcb, _, _, .direct hidle hn, hdoes⟩
    | error e =>
        rw [directWrite_error h hidle] at hwrite
        obtain ⟨rfl, rfl, rfl, rfl⟩ := Except.ok.inj hwrite
        cases he : faultError e with
        | true =>
            simp only [he, if_true, not_true_eq_false, false_and, if_false, pure_eq_ok,
              Except.ok.injEq] at hok
            subst hok
            exact ⟨rfl, rfl, rfl, _, _, .fault hidle he, by simpa [completes, overMark] using h.does_nothing⟩
        | false =>
            simp only [he, Bool.false_eq_true, if_false, not_false_eq_true, true_and] at hok
            obtain ⟨hdoes, hst, hev, hcb⟩ := keepRest_does
              (h.does_nothing.log (.accepted t data)) rfl rfl rfl hok rfl
            exact ⟨hst, hev, hcb, _, _, .failed hidle he, hdoes⟩
  · rw [directWrite_of_busy h hidle] at hwrite
    obtain ⟨rfl, rfl, rfl, rfl⟩ := Except.ok.inj hwrite
    simp only [Bool.false_eq_true, if_false, not_false_eq_true, true_and] at hok
    obtain ⟨hdoes, hst, hev, hcb⟩ := keepRest_does
      (h.does_nothing.log (.accepted t data)) rfl rfl rfl hok rfl
    exact ⟨hst, hev, hcb, _, _, .busy hidle, hdoes⟩

/-- **`sendInLoop`** does nothing on a disconnected connection; otherwise what it does not write or give
up goes behind what is in the output buffer, and the interest in writing stays as it is. -/
lemma sendInLoop_spec {mem : Memory} (h : c.Wf) {t : Thread} {data : List UInt8} {o : WriteOutcome}
    (hok : c.sendInLoop mem t data o = .ok c') :
    (c.state = .kDisconnected ∧ c' = c) ∨
      (c.state ≠ .kDisconnected ∧ c'.state = c.state ∧ c'.ch.events = c.ch.events ∧
        ∃ kept es fs, c.Sends t data o kept es ∧ (∀ f ∈ fs, Functor.IsCallback f) ∧
          c.Does c' (c.output ++ kept) es fs) := by
  by_cases hstate : c.state = .kDisconnected
  · rw [sendInLoop, if_pos hstate, pure_eq_ok, Except.ok.injEq] at hok
    exact Or.inl ⟨hstate, hok.symm⟩
  · obtain ⟨hst, hev, -, kept, es, hsends, hdoes⟩ := sendInLoop_does h hstate hok
    refine Or.inr ⟨hstate, hst, hev, kept, es, _, hsends, ?_, hdoes⟩
    intro f hf
    exact (List.mem_append.mp hf).elim (isCallback_of_completes _ _ f) (isCallback_of_overMark _ f)

/-! ## Handlers -/

/-- What `handleWrite` does to the output buffer: how much is left in it, and what is recorded. -/
inductive Drains (c : TcpConnection ι) : WriteOutcome → List UInt8 → List Effect → Prop
  | none {o} : Drains c o c.output []
  | some {n} (hn : n ≤ c.output.length) (hpos : 0 < n) :
      Drains c (.wrote n) (c.output.drop n) [.wrote (c.output.take n)]

/-- The end of a drain.  The channel has just stopped waiting to write, so `shutdownInLoop` does
nothing. -/
lemma drained_does (h : c.Wf) (hok : c.drained = .ok c') :
    c.Does c' c.output [] c.writeComplete ∧ c'.state = c.state ∧ c'.ch.events ⊆ c.ch.events ∧
      c'.callbacks = c.callbacks := by
  simp only [drained, bind_eq_ok] at hok
  obtain ⟨c₁, h₁, hok⟩ := hok
  obtain ⟨hdoes, hstate, -, hch⟩ := onChannel_ok h rfl h₁
  have hcb := onChannel_callbacks h₁
  have hevents : c₁.ch.events = c.ch.events \ kWriteEvent := congrArg Channel.events hch
  have hout : c₁.isWriting = false := by
    rw [Bool.eq_false_iff, ne_eq, isWriting_iff, hevents, kWriteEvent]
    simp
  have hsub : c₁.ch.events ⊆ c.ch.events := by
    rw [hevents]
    exact Finset.sdiff_subset
  -- the notification, if there is one
  obtain ⟨c₂, hdoes₂, hstate₂, hch₂, hcb₂, hc₂⟩ : ∃ c₂ : TcpConnection ι,
      c.Does c₂ c.output [] c.writeComplete ∧ c₂.state = c₁.state ∧ c₂.ch = c₁.ch ∧
      c₂.callbacks = c₁.callbacks ∧
      c₂ = if c₁.writeCompleteCallback then c₁.queueInLoop .writeCompleteCallback else c₁ := by
    rw [writeComplete, show c.writeCompleteCallback = c₁.writeCompleteCallback from (congrArg Prod.fst hcb).symm]
    split_ifs
    · exact ⟨_, hdoes.queueInLoop _, rfl, rfl, rfl, rfl⟩
    · exact ⟨_, hdoes, rfl, rfl, rfl, rfl⟩
  rw [← hc₂] at hok
  have hshutdown : c₂.shutdownInLoop = c₂ :=
    shutdownInLoop_of_not_isWriting
      ((isWriting_eq_of_events (congrArg Channel.events hch₂)).trans hout)
  rw [hshutdown, ite_self, pure_eq_ok, Except.ok.injEq] at hok
  subst hok
  exact ⟨hdoes₂, hstate₂.trans hstate, by rw [hch₂]; exact hsub, hcb₂.trans hcb⟩

/-- **`handleWrite`**, with the callback that it queues when the last byte has left. -/
lemma handleWrite_does (h : c.Wf) {o : WriteOutcome} (hwriting : c.isWriting = true)
    (hok : c.handleWrite o = .ok c') :
    c'.state = c.state ∧ c'.ch.events ⊆ c.ch.events ∧ c'.callbacks = c.callbacks ∧
      ∃ left es, c.Drains o left es ∧ c.Does c' left es (c.completes es left) := by
  rw [handleWrite, if_pos hwriting] at hok
  -- nothing happens when nothing was written
  have hnone : c' = c → c'.state = c.state ∧ c'.ch.events ⊆ c.ch.events ∧ c'.callbacks = c.callbacks ∧
      ∃ left es, c.Drains o left es ∧ c.Does c' left es (c.completes es left) := by
    rintro rfl
    exact ⟨rfl, Finset.Subset.refl _, rfl, _, _, .none, by simpa [completes] using h.does_nothing⟩
  cases o with
  | error e =>
      rw [sockets.write, bind_ok] at hok
      dsimp only at hok
      rw [pure_eq_ok, Except.ok.injEq] at hok
      exact hnone hok.symm
  | wrote n =>
      rw [sockets.write] at hok
      split_ifs at hok with hn
      · rw [bind_ok] at hok
        dsimp only at hok
        split_ifs at hok with hpos
        · rw [bind_eq_ok] at hok
          obtain ⟨buffer, hbuffer, hok⟩ := hok
          obtain ⟨hwf, hlist⟩ := h.outputBuffer.retrieve hn hbuffer
          rw [h.readableBytes_eq] at hn
          have hdoes : c.Does { c.log (.wrote (c.output.take n)) with outputBuffer := buffer }
              (c.output.drop n) [.wrote (c.output.take n)] [] :=
            ⟨⟨h.coherent, hwf⟩, rfl, hlist, rfl, (List.append_nil _).symm, rfl⟩
          have hleft : c.completes [.wrote (c.output.take n)] (c.output.drop n)
              = if c.output.drop n = [] then c.writeComplete else [] := by
            simp only [completes, List.any_cons, Effect.isWrote, Bool.true_or, true_and]
          split_ifs at hok with hempty
          · obtain ⟨hdoes', hstate, hevents, hcb⟩ := drained_does hdoes.wf hok
            have hdrained : c.output.drop n = [] := by
              rw [← hdoes.output_eq]
              exact hdoes.wf.readableBytes_eq_zero.mp hempty
            refine ⟨hstate, hevents, hcb, _, _, .some hn hpos, ?_⟩
            rw [hleft, if_pos hdrained]
            exact hdoes.then hdoes'
          · rw [pure_eq_ok, Except.ok.injEq] at hok
            subst hok
            have hsome : c.output.drop n ≠ [] := by
              rw [← hdoes.output_eq]
              exact mt hdoes.wf.readableBytes_eq_zero.mpr hempty
            refine ⟨rfl, Finset.Subset.refl _, rfl, _, _, .some hn hpos, ?_⟩
            rw [hleft, if_neg hsome]
            exact hdoes
        · rw [pure_eq_ok, Except.ok.injEq] at hok
          exact hnone hok.symm
      · simp at hok

/-- **`handleWrite`** does nothing on a channel that does not wait to write.  Otherwise the bytes the
kernel accepts leave the output buffer, and when the last one has left, the channel stops waiting. -/
lemma handleWrite_spec (h : c.Wf) {o : WriteOutcome} (hok : c.handleWrite o = .ok c') :
    (c.isWriting = false ∧ c' = c) ∨
      (c.isWriting = true ∧ c'.state = c.state ∧ ∃ left es fs, c.Drains o left es ∧
        (∀ f ∈ fs, Functor.IsCallback f) ∧ c.Does c' left es fs ∧
        c'.ch.events ⊆ c.ch.events) := by
  cases hwriting : c.isWriting with
  | false => exact Or.inl ⟨rfl, handleWrite_of_not_isWriting hwriting hok⟩
  | true =>
      obtain ⟨hstate, hevents, -, left, es, hdrains, hdoes⟩ := handleWrite_does h hwriting hok
      exact Or.inr ⟨rfl, hstate, left, es, _, hdrains, isCallback_of_completes es left, hdoes, hevents⟩

/-! ## Everything that leaves the bytes alone -/

lemma startReadInLoop_spares (h : c.Wf) (hok : c.startReadInLoop = .ok c') : c.Spares c' := by
  obtain ⟨hdoes, hstate, hcase⟩ := startReadInLoop_ok h hok
  exact hdoes.spares_of_read hstate hcase (by simp [kReadEvent])

lemma stopReadInLoop_spares (h : c.Wf) (hok : c.stopReadInLoop = .ok c') : c.Spares c' := by
  obtain ⟨hdoes, hstate, hcase⟩ := stopReadInLoop_ok h hok
  exact hdoes.spares_of_read hstate hcase (by simp [kReadEvent])

lemma handleClose_spares (h : c.Wf) (hok : c.handleClose = .ok c') : c.Spares c' := by
  obtain ⟨hdoes, -, hstate, hch⟩ := handleClose_spec h hok
  exact ⟨⟨_, _, hdoes, by simp [Effect.IsCallback], by simp⟩,
    isWriting_le_of_events (congrArg Channel.events hch) (by simp), Or.inr hstate⟩

lemma forceCloseInLoop_spares (h : c.Wf) (hok : c.forceCloseInLoop = .ok c') : c.Spares c' := by
  rw [forceCloseInLoop, forceCloseInLoopWith] at hok
  split_ifs at hok with hopen
  · exact handleClose_spares h hok
  · rw [Except.ok.injEq] at hok
    rw [← hok]
    exact h.spares_self

lemma connectDestroyed_spares (h : c.Wf) (hok : c.connectDestroyed = .ok c') : c.Spares c' := by
  obtain ⟨⟨es, hdoes, hes⟩, hstate, -, hevents⟩ := connectDestroyed_spec h hok
  refine ⟨⟨es, [], hdoes, ?_, by simp⟩, isWriting_le_of_events hevents (by simp), ?_⟩
  · rcases hes with rfl | rfl <;> simp [Effect.IsCallback]
  · split_ifs at hstate
    · exact Or.inr hstate
    · exact Or.inl hstate

lemma handleRead_spares {mem : Memory} {o : ReadOutcome} (h : c.Wf)
    (hok : c.handleRead mem o = .ok c') : c.Spares c' := by
  obtain ⟨c₁, hdoes, hstate, hch, hcase⟩ := handleReadWith_ok h hok
  have hwriting : c₁.isWriting = c.isWriting := isWriting_eq_of_events (congrArg Channel.events hch)
  rcases hcase with rfl | rfl | hclose
  · exact ⟨⟨[], [], hdoes, by simp, by simp⟩, by rw [hwriting]; exact id, Or.inl hstate⟩
  · exact ⟨⟨_, _, hdoes.log _, by simp [Effect.IsCallback], by simp⟩,
      by rw [id_eq, log_isWriting, hwriting]; exact id, Or.inl hstate⟩
  · obtain ⟨⟨es, fs, hdoes', hes, hfs⟩, hle, hstate'⟩ := handleClose_spares hdoes.wf hclose
    refine ⟨⟨es, fs, by simpa using hdoes.then hdoes', hes, hfs⟩, ?_, ?_⟩
    · intro hw
      rw [← hwriting]
      exact hle hw
    · rwa [hstate] at hstate'

end TcpConnection

end Seenet
