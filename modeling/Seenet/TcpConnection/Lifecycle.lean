import Seenet.TcpConnection.Steps

/-!
# The life of a connection

A connection from its constructor on, used from every side: by its loop, by the user on the loop's thread
and in the callbacks, by other threads, and by `~TcpServer`.

* `Life`, `Life.step` — the machine.  The loop calls its functions in any order, which is more than it
  does.  A thread other than the loop's takes three steps through `shutdown`, `forceClose` and
  `forceCloseWithDelay`: it tests `m_state`, sets it, and queues.  `handleClose` and `connectDestroyed` are
  two steps each, with the user's `m_connCallback` in between.
* `Kind`, `Life.kind` — what a step does to the state and the channel, read off the state before it.
* **`changes_of_step`** — and that it does only that.

The delay of `forceCloseWithDelay` ends in a call of `forceClose` on the loop's thread, a step of its own.
-/

namespace Seenet

open Channel TcpConnection

/-- The functions that close a connection and can be called by any thread. -/
inductive CloseCall
  | shutdown | forceClose | forceCloseWithDelay
  deriving DecidableEq, Repr

/-- Where a thread is in one of them. -/
inductive Closer
  | idle
  /-- it has found the connection open -/
  | tested (m : CloseCall)
  /-- it has set the state -/
  | stored (m : CloseCall)
  deriving DecidableEq, Repr

/-- The function in which the loop's thread has called `m_connCallback`. -/
inductive Inside
  | handleClose | connectDestroyed
  deriving DecidableEq, Repr

/-- A connection and those who use it. -/
structure Life (ι : Type) where
  conn : TcpConnection ι
  inside : Option Inside
  closers : ℕ → Closer
  /-- the server has the connection in `m_connections` -/
  inTable : Bool
  /-- the connection has been `kDisconnected`; not in the source -/
  disconnected : Bool
  /-- `m_Channel->remove()` has returned; not in the source -/
  removed : Bool

namespace TcpConnection

variable {ι : Type}

/-- `m_state` is `kConnected` or `kDisconnecting`. -/
def IsOpen (c : TcpConnection ι) : Prop := c.state = .kConnected ∨ c.state = .kDisconnecting

instance (c : TcpConnection ι) : Decidable c.IsOpen := inferInstanceAs (Decidable (_ ∨ _))

/-- The test of `m_state` in a function that closes. -/
def tests (c : TcpConnection ι) : CloseCall → Bool
  | .shutdown => decide (c.state = .kConnected)
  | .forceClose => decide c.IsOpen
  | .forceCloseWithDelay => decide c.IsOpen

/-- `setState(kDisconnecting)` in a function that closes. -/
def stores (c : TcpConnection ι) : CloseCall → TcpConnection ι
  | .shutdown => (c.setState .kDisconnecting).log .shutdown
  | .forceClose => c.setState .kDisconnecting
  | .forceCloseWithDelay => c.setState .kDisconnecting

/-- What a function that closes gives the loop to run, on a thread other than the loop's. -/
def queues (c : TcpConnection ι) : CloseCall → TcpConnection ι
  | .shutdown => c.queueInLoop .shutdownInLoop
  | .forceClose => c.queueInLoop .forceCloseInLoop
  -- the timer is queued, which the connection does not see
  | .forceCloseWithDelay => c

/-- `connectDestroyed` of a connected connection, until `m_connCallback` is called. -/
def beginDestroy [DecidableEq ι] (c : TcpConnection ι) : Res (TcpConnection ι) := do
  let c := c.setState .kDisconnected
  let c ← c.onChannel Registry.disableAll
  return c.log .connCallback

lemma connectDestroyed_eq [DecidableEq ι] (c : TcpConnection ι) : c.connectDestroyed
    = (if c.state = .kConnected then c.beginDestroy else .ok c) >>=
        fun c => c.onChannel Registry.remove := by
  rw [connectDestroyed]
  split_ifs with hstate
  · simp only [beginDestroy, bind_assoc, pure_bind]
  · simp only [pure_eq_ok, bind_ok]

end TcpConnection

namespace Life

variable {ι : Type}

/-- The connection has been constructed, and is in the table. -/
def create (s : Setting ι) : Life ι := ⟨s.connection, none, fun _ => .idle, true, false, false⟩

/-- The function called returns with the connection `c`. -/
def returned (l : Life ι) (c : TcpConnection ι) : Life ι := { l with conn := c }

variable [DecidableEq ι]

/-- `handleClose`, until `m_connCallback` is called. -/
def handleClose (l : Life ι) (c : TcpConnection ι) : Res (Life ι) := do
  let c ← c.beginClose
  return { l with conn := c, inside := some .handleClose }

/-- `m_Channel->remove()` in `connectDestroyed` -/
def remove (l : Life ι) (c : TcpConnection ι) : Res (Life ι) := do
  let c ← c.onChannel Registry.remove
  return { l with conn := c, inside := none, removed := true }

/-- `connectDestroyed`, until `m_connCallback` is called, or to its end. -/
def connectDestroyed (l : Life ι) (c : TcpConnection ι) : Res (Life ι) :=
  if c.state = .kConnected then do
    let c ← c.beginDestroy
    return { l with conn := c, inside := some .connectDestroyed }
  else l.remove c

/-- A functor is run. -/
def runFunctor (mem : Memory) (l : Life ι) (f : Functor) (outcome : WriteOutcome) : Res (Life ι) :=
  if f = .forceCloseInLoop then
    (l.conn.log (.ran .forceCloseInLoop)).forceCloseInLoopWith l.handleClose l.returned
  else if f = .connectDestroyed then
    l.connectDestroyed (l.conn.log (.ran .connectDestroyed))
  else do
    let c ← l.conn.runFunctor mem f outcome
    return l.returned c

inductive Action
  | connectEstablished
  | handleRead (outcome : ReadOutcome)
  | handleWrite (outcome : WriteOutcome)
  /-- the close callback of the channel -/
  | handleClose
  /-- the swap in `doPendingFunctors` -/
  | takePending
  /-- the next functor of the batch -/
  | nextFunctor (outcome : WriteOutcome)
  /-- `~TcpServer` on the loop's thread, when it comes to the connection -/
  | destroy (outcome : WriteOutcome)
  /-- `~TcpServer` on another thread -/
  | postDestroy
  /-- the user calls the connection on the loop's thread, in a callback or elsewhere -/
  | call (m : Call) (outcome : WriteOutcome)
  | forceCloseWithDelay
  /-- the callback returns -/
  | return
  /-- another thread calls `send`, `startRead` or `stopRead` -/
  | post (n : ℕ) (m : Call)
  /-- another thread, in a function that closes -/
  | test (n : ℕ) (m : CloseCall)
  | store (n : ℕ)
  | queue (n : ℕ)
  deriving DecidableEq, Repr

/-- The functions of the loop's thread, which the user's callback is not one of. -/
def loopStep (mem : Memory) (l : Life ι) : Action → Res (Life ι)
  | .handleRead outcome => l.conn.handleReadWith l.handleClose l.returned mem outcome
  | .handleWrite outcome => do
      let c ← l.conn.handleWrite outcome
      return l.returned c
  | .handleClose => l.handleClose l.conn
  | .takePending =>
      if l.conn.functors.batch = [] then .ok (l.returned l.conn.takeFunctors)
      else .error .disabled
  | .nextFunctor outcome =>
      match l.conn.functors.batch with
      | [] => .error .disabled
      | f :: rest => (l.returned (l.conn.startFunctor f rest)).runFunctor mem f outcome
  | .destroy outcome =>
      if l.inTable then { l with inTable := false }.runFunctor mem .connectDestroyed outcome
      else .error .disabled
  | _ => .error .disabled

/-- A step of an established connection. -/
def move (mem : Memory) (l : Life ι) : Action → Res (Life ι)
  | .postDestroy =>
      if l.inTable then
        .ok { l with conn := l.conn.queueInLoop .connectDestroyed, inTable := false }
      else .error .disabled
  | .call m outcome => do
      let c ← l.conn.call mem .loop outcome m
      return l.returned c
  | .forceCloseWithDelay =>
      if l.conn.IsOpen then .ok (l.returned (l.conn.setState .kDisconnecting)) else .ok l
  | .return =>
      match l.inside with
      | none => .error .disabled
      | some .handleClose => .ok { l with conn := l.conn.closeCallback, inside := none, inTable := false }
      | some .connectDestroyed => l.remove l.conn
  | .post n m =>
      if m = .shutdown ∨ m = .forceClose then .error .disabled
      else do
        let c ← l.conn.call mem (.other n) (.wrote 0) m
        return l.returned c
  | .test n m =>
      if l.closers n ≠ .idle then .error .disabled
      else if l.conn.tests m then .ok { l with closers := Function.update l.closers n (.tested m) }
      else .ok l
  | .store n =>
      match l.closers n with
      | .tested m =>
          .ok { l with conn := l.conn.stores m, closers := Function.update l.closers n (.stored m) }
      | _ => .error .disabled
  | .queue n =>
      match l.closers n with
      | .stored m =>
          .ok { l with conn := l.conn.queues m, closers := Function.update l.closers n .idle }
      | _ => .error .disabled
  | a => if l.inside = none then l.loopStep mem a else .error .disabled

/-- One step.  The server establishes a connection before anybody else has it. -/
def step (mem : Memory) (l : Life ι) (a : Action) : Res (Life ι) := do
  let l' ←
    if a = .connectEstablished then do
      let c ← l.conn.connectEstablished
      pure (l.returned c)
    else if l.conn.state = .kConnecting then .error .disabled
    else l.move mem a
  return { l' with disconnected := l'.disconnected || decide (l'.conn.state = .kDisconnected) }

end Life

/-! ## What a step does -/

/-- What a step does to the state and the channel. -/
inductive Kind
  | rest | establish | disconnecting | close | startRead | stopRead | remove
  deriving DecidableEq, Repr

namespace TcpConnection

variable {ι : Type}

/-- Of a functor. -/
def functorKind (c : TcpConnection ι) : Functor → Kind
  | .forceCloseInLoop => if c.IsOpen then .close else .rest
  | .startReadInLoop => if ¬ c.reading ∨ ¬ c.ch.isReading then .startRead else .rest
  | .stopReadInLoop => if c.reading ∨ c.ch.isReading then .stopRead else .rest
  | .connectDestroyed => if c.state = .kConnected then .close else .remove
  | _ => .rest

/-- **What a functor can do.** -/
lemma functorKind_cases (c : TcpConnection ι) (f : Functor) :
    c.functorKind f ∈ [.rest, .close, .startRead, .stopRead] ∨
      f = .connectDestroyed ∧ c.functorKind f = .remove := by
  cases f with
  | connectDestroyed => rw [functorKind]; split_ifs <;> simp
  | forceCloseInLoop => rw [functorKind]; split_ifs <;> simp
  | startReadInLoop => rw [functorKind]; split_ifs <;> simp
  | stopReadInLoop => rw [functorKind]; split_ifs <;> simp
  | _ => simp [functorKind]

/-- Of a call on the loop's thread. -/
def callKind (c : TcpConnection ι) : Call → Kind
  | .send _ => .rest
  | .shutdown => if c.state = .kConnected then .disconnecting else .rest
  | .forceClose => if c.IsOpen then .disconnecting else .rest
  | .startRead => c.functorKind .startReadInLoop
  | .stopRead => c.functorKind .stopReadInLoop

/-- How often `m_connCallback` was called. -/
def ups (c : TcpConnection ι) : ℕ := c.trace.count .connCallback

/-- A step of the kind leads from `c` to `c'`, as far as the state, the channel and `m_connCallback` are
concerned. -/
inductive Changes (c : TcpConnection ι) : Kind → TcpConnection ι → Prop
  | rest {c'} (hstate : c'.state = c.state) (hch : c.ch.events = ∅ → c'.ch = c.ch)
      (hups : c'.ups = c.ups) : Changes c .rest c'
  | establish {c'} (hstate : c.state = .kConnecting) (hstate' : c'.state = .kConnected)
      (hups : c'.ups = c.ups + 1) : Changes c .establish c'
  | disconnecting {c'} (hstate' : c'.state = .kDisconnecting) (hch : c'.ch = c.ch)
      (hups : c'.ups = c.ups) : Changes c .disconnecting c'
  | close {c'} (hopen : c.IsOpen) (hstate' : c'.state = .kDisconnected)
      (hch : c'.ch = c.ch.updated ∅) (hups : c'.ups = c.ups + 1) : Changes c .close c'
  | startRead {c'} (hstate : c'.state = c.state)
      (hch : c'.ch = c.ch.updated (c.ch.events ∪ kReadEvent)) (hups : c'.ups = c.ups) :
      Changes c .startRead c'
  | stopRead {c'} (hstate : c'.state = c.state)
      (hch : c'.ch = c.ch.updated (c.ch.events \ kReadEvent)) (hups : c'.ups = c.ups) :
      Changes c .stopRead c'
  | remove {c'} (hstate : c'.state = c.state) (hevents : c.ch.events = ∅)
      (hindex : c'.ch.index = .kNew) (hevents' : c'.ch.events = ∅) (hups : c'.ups = c.ups) :
      Changes c .remove c'

variable {c c' c₁ : TcpConnection ι} {k : Kind}

/-- A step that starts a little later. -/
lemma Changes.of_eq (h : c₁.Changes k c') (hstate : c₁.state = c.state) (hch : c₁.ch = c.ch)
    (hups : c₁.ups = c.ups) : c.Changes k c' := by
  cases h with
  | rest hs hc hu => exact .rest (hs.trans hstate) (by rwa [← hch]) (hu.trans hups)
  | establish hs hs' hu => exact .establish (hstate.symm.trans hs) hs' (by rw [hu, hups])
  | disconnecting hs hc hu => exact .disconnecting hs (hc.trans hch) (hu.trans hups)
  | close ho hs hc hu =>
      exact .close (by rwa [TcpConnection.IsOpen, ← hstate]) hs (by rw [hc, hch]) (by rw [hu, hups])
  | startRead hs hc hu => exact .startRead (hs.trans hstate) (by rw [hc, hch]) (hu.trans hups)
  | stopRead hs hc hu => exact .stopRead (hs.trans hstate) (by rw [hc, hch]) (hu.trans hups)
  | remove hs he hi he' hu =>
      exact .remove (hs.trans hstate) (by rwa [← hch]) hi he' (hu.trans hups)

lemma Does.ups_eq {o : List UInt8} {es : List Effect} {fs : List Functor} (h : c.Does c' o es fs) :
    c'.ups = c.ups + es.count .connCallback := by
  rw [ups, ups, h.trace_eq, List.count_append]

/-- Effects of the user's bytes. -/
lemma Sends.count_eq {t : Thread} {data kept : List UInt8} {o : WriteOutcome} {es : List Effect}
    (h : c.Sends t data o kept es) : es.count .connCallback = 0 := by
  cases h <;> rfl

lemma Drains.count_eq {left : List UInt8} {o : WriteOutcome} {es : List Effect}
    (h : c.Drains o left es) : es.count .connCallback = 0 := by
  cases h <;> rfl

lemma isWriting_eq_false (h : c.ch.events = ∅) : c.isWriting = false := by
  rw [Bool.eq_false_iff, Ne, isWriting_iff, h]
  simp

lemma shutdownInLoop_changes (h : c.Wf) :
    c.shutdownInLoop.Wf ∧ c.Changes .rest c.shutdownInLoop := by
  obtain ⟨hdoes, hstate, hch⟩ := shutdownInLoop_spec h
  refine ⟨hdoes.wf, .rest hstate (fun _ => hch) ?_⟩
  rw [hdoes.ups_eq]
  split_ifs <;> rfl

/-- `handleRead` closes at the end of the stream, and only there. -/
lemma handleReadWith_cases {β : Type} {close : TcpConnection ι → Res β}
    {done : TcpConnection ι → β} {mem : Memory} {o : ReadOutcome} {r : β} (h : c.Wf)
    (hok : c.handleReadWith close done mem o = .ok r) :
    ∃ c₁, c.Does c₁ c.output [] [] ∧ c₁.state = c.state ∧ c₁.ch = c.ch ∧
      if o = .bytes [] then close c₁ = .ok r
      else r = done c₁ ∨ r = done (c₁.log .messageCallback) := by
  simp only [handleReadWith, bind_eq_ok, Prod.exists] at hok
  obtain ⟨n, buffer, hread, hok⟩ := hok
  have hdoes : c.Does { c with inputBuffer := buffer } c.output [] [] :=
    ⟨⟨h.coherent, h.outputBuffer⟩, rfl, rfl, (List.append_nil _).symm, (List.append_nil _).symm, rfl⟩
  refine ⟨{ c with inputBuffer := buffer }, hdoes, rfl, rfl, ?_⟩
  cases o with
  | error e =>
      obtain ⟨rfl, -⟩ := Prod.mk.inj (Except.ok.inj hread)
      exact Or.inl (Except.ok.inj hok).symm
  | bytes data =>
      obtain rfl := Buffer.readFd_length hread
      dsimp only at hok
      by_cases hzero : data = []
      · rw [if_neg (by simp [hzero])] at hok
        rwa [if_pos (by rw [hzero])]
      · rw [if_pos (List.length_pos_of_ne_nil hzero)] at hok
        rw [if_neg (by simpa using hzero)]
        exact Or.inr (Except.ok.inj hok).symm

variable [DecidableEq ι] {mem : Memory}

/-- What remains of a message is put in the output buffer; a channel that does not wait to write is left
alone. -/
lemma bufferRemaining_ch {data : List UInt8} {nwrote remaining : ℕ} (hw : c.isWriting = false)
    (hok : c.bufferRemaining mem data nwrote remaining = .ok c') : c'.ch = c.ch := by
  simp only [bufferRemaining, bind_eq_ok] at hok
  obtain ⟨buffer, -, hok⟩ := hok
  have hnot : ¬ c.isWriting = true := by simp [hw]
  split_ifs at hok with hmark hwriting hwriting
  · exact absurd hwriting hnot
  · rw [← Except.ok.inj hok]
    rfl
  · exact absurd hwriting hnot
  · rw [← Except.ok.inj hok]
    rfl

lemma sendInLoop_ch (h : c.Wf) (hw : c.isWriting = false) {t : Thread} {data : List UInt8}
    {o : WriteOutcome} (hok : c.sendInLoop mem t data o = .ok c') : c'.ch = c.ch := by
  rw [sendInLoop] at hok
  split_ifs at hok with hstate
  · rw [Except.ok.inj hok]
  · simp only [bind_eq_ok, assertThat_eq_ok, Prod.exists] at hok
    obtain ⟨c₁, nwrote, remaining, fault, hwrite, -, -, hok⟩ := hok
    have hch₁ : c₁.ch = c.ch := by
      cases directWrite_spec h hwrite with
      | busy => rfl
      | direct hidle hn hfs hdoes hst hch => exact hch
      | error => rfl
    have hw₁ : c₁.isWriting = false :=
      (isWriting_eq_of_events (congrArg Channel.events hch₁)).trans hw
    cases fault with
    | true =>
        simp only [if_true, not_true_eq_false, false_and, if_false, pure_eq_ok] at hok
        rw [← Except.ok.inj hok, hch₁]
    | false =>
        simp only [Bool.false_eq_true, if_false, not_false_eq_true, true_and] at hok
        split_ifs at hok with hrest
        · exact (bufferRemaining_ch (c := c₁.log (.accepted t data)) hw₁ hok).trans hch₁
        · rw [← Except.ok.inj hok, log_ch, hch₁]

lemma startReadInLoop_changes (h : c.Wf) (hok : c.startReadInLoop = .ok c') :
    c'.Wf ∧ c.Changes (c.functorKind .startReadInLoop) c' := by
  obtain ⟨hdoes, hstate, hcase⟩ := startReadInLoop_ok h hok
  rw [functorKind]
  split_ifs at hcase ⊢
  · exact ⟨hdoes.wf, .startRead hstate hcase hdoes.ups_eq⟩
  · exact ⟨hdoes.wf, .rest hstate (fun _ => by rw [hcase]) hdoes.ups_eq⟩

lemma stopReadInLoop_changes (h : c.Wf) (hok : c.stopReadInLoop = .ok c') :
    c'.Wf ∧ c.Changes (c.functorKind .stopReadInLoop) c' := by
  obtain ⟨hdoes, hstate, hcase⟩ := stopReadInLoop_ok h hok
  rw [functorKind]
  split_ifs at hcase ⊢
  · exact ⟨hdoes.wf, .stopRead hstate hcase hdoes.ups_eq⟩
  · exact ⟨hdoes.wf, .rest hstate (fun _ => by rw [hcase]) hdoes.ups_eq⟩

lemma sendInLoop_changes (h : c.Wf) {t : Thread} {data : List UInt8} {o : WriteOutcome}
    (hok : c.sendInLoop mem t data o = .ok c') : c'.Wf ∧ c.Changes .rest c' := by
  have hch : c.ch.events = ∅ → c'.ch = c.ch := fun hnone =>
    sendInLoop_ch h (isWriting_eq_false hnone) hok
  rcases sendInLoop_spec h hok with ⟨-, rfl⟩ | ⟨-, hstate, -, kept, es, fs, hs, -, hdoes⟩
  · exact ⟨h, .rest rfl hch rfl⟩
  · refine ⟨hdoes.wf, .rest hstate hch ?_⟩
    rw [hdoes.ups_eq, hs.count_eq, Nat.add_zero]

/-- A functor other than those with a step of their own. -/
lemma runFunctor_changes (h : c.Wf) {f : Functor} {o : WriteOutcome}
    (hforce : f ≠ .forceCloseInLoop) (hdestroyed : f ≠ .connectDestroyed)
    (hok : c.runFunctor mem f o = .ok c') : c'.Wf ∧ c.Changes (c.functorKind f) c' := by
  have hlog : c.Does (c.log (.ran f)) c.output [.ran f] [] := h.does_nothing.log _
  have hups : (c.log (.ran f)).ups = c.ups := hlog.ups_eq
  have hafter : ∀ {k : Kind}, c'.Wf ∧ (c.log (.ran f)).Changes k c' → c'.Wf ∧ c.Changes k c' :=
    fun hchanges => ⟨hchanges.1, hchanges.2.of_eq rfl rfl hups⟩
  cases f with
  | sendInLoop t message => exact hafter (sendInLoop_changes hlog.wf hok)
  | shutdownInLoop =>
      obtain rfl := Except.ok.inj hok
      exact hafter (shutdownInLoop_changes hlog.wf)
  | forceCloseInLoop => exact absurd rfl hforce
  | startReadInLoop => exact hafter (startReadInLoop_changes hlog.wf hok)
  | stopReadInLoop => exact hafter (stopReadInLoop_changes hlog.wf hok)
  | writeCompleteCallback =>
      obtain rfl := Except.ok.inj hok
      exact ⟨hlog.wf, .rest rfl (fun _ => rfl) hups⟩
  | highWateMarkCallback size =>
      obtain rfl := Except.ok.inj hok
      exact ⟨hlog.wf, .rest rfl (fun _ => rfl) hups⟩
  | connectDestroyed => exact absurd rfl hdestroyed

/-- A call on the loop's thread. -/
lemma call_changes (h : c.Wf) {m : Call} {o : WriteOutcome} (hok : c.call mem .loop o m = .ok c') :
    c'.Wf ∧ c.Changes (c.callKind m) c' := by
  cases m with
  | send message =>
      rw [call, runInLoop, if_pos rfl] at hok
      split_ifs at hok with hstate
      · have hlog := h.does_nothing.log (.send .loop message)
        obtain ⟨hwf, hchanges⟩ := runFunctor_changes hlog.wf (by simp) (by simp) hok
        exact ⟨hwf, hchanges.of_eq rfl rfl hlog.ups_eq⟩
      · obtain rfl := Except.ok.inj hok
        exact ⟨h, .rest rfl (fun _ => rfl) rfl⟩
  | shutdown =>
      rw [call, runInLoop, if_pos rfl] at hok
      rw [callKind]
      split_ifs at hok ⊢ with hstate
      · obtain rfl := Except.ok.inj hok
        have hlog := ((h.does_nothing.setState .kDisconnecting).log .shutdown).log
          (.ran .shutdownInLoop)
        obtain ⟨hdoes, hstate', hch⟩ := shutdownInLoop_spec hlog.wf
        refine ⟨hdoes.wf, .disconnecting hstate' hch ?_⟩
        rw [hdoes.ups_eq, hlog.ups_eq]
        split_ifs <;> rfl
      · obtain rfl := Except.ok.inj hok
        exact ⟨h, .rest rfl (fun _ => rfl) rfl⟩
  | forceClose =>
      rw [callKind]
      by_cases hstate : c.state = .kConnected ∨ c.state = .kDisconnecting
      · rw [call, if_pos hstate] at hok
        rw [if_pos (by exact hstate)]
        obtain rfl := Except.ok.inj hok
        have hdoes := (h.does_nothing.setState .kDisconnecting).queueInLoop .forceCloseInLoop
        exact ⟨hdoes.wf, .disconnecting rfl rfl hdoes.ups_eq⟩
      · rw [call, if_neg hstate] at hok
        rw [if_neg (by exact hstate)]
        obtain rfl := Except.ok.inj hok
        exact ⟨h, .rest rfl (fun _ => rfl) rfl⟩
  | startRead =>
      rw [call, runInLoop, if_pos rfl] at hok
      exact runFunctor_changes h (by decide) (by decide) hok
  | stopRead =>
      rw [call, runInLoop, if_pos rfl] at hok
      exact runFunctor_changes h (by decide) (by decide) hok

lemma handleWrite_changes (h : c.Wf) {o : WriteOutcome} (hok : c.handleWrite o = .ok c') :
    c'.Wf ∧ c.Changes .rest c' := by
  rcases handleWrite_spec h hok with
    ⟨-, rfl⟩ | ⟨hw, hstate, left, es, fs, hdrains, -, hdoes, -⟩
  · exact ⟨h, .rest rfl (fun _ => rfl) rfl⟩
  · refine ⟨hdoes.wf, .rest hstate (fun hnone => ?_) ?_⟩
    · simp [isWriting_eq_false hnone] at hw
    · rw [hdoes.ups_eq, hdrains.count_eq, Nat.add_zero]

/-- A part of `handleClose` or `connectDestroyed`: the channel waits for nothing any more. -/
lemma beginClose_changes (h : c.Wf) (hok : c.beginClose = .ok c') :
    c'.Wf ∧ c.Changes .close c' := by
  obtain ⟨hdoes, hopen, hstate, hch⟩ := beginClose_spec h hok
  exact ⟨hdoes.wf, .close hopen hstate hch hdoes.ups_eq⟩

lemma beginDestroy_changes (h : c.Wf) (hstate : c.state = .kConnected)
    (hok : c.beginDestroy = .ok c') : c'.Wf ∧ c.Changes .close c' := by
  simp only [beginDestroy, bind_eq_ok, pure_eq_ok, Except.ok.injEq] at hok
  obtain ⟨c₁, h₁, rfl⟩ := hok
  have hset := h.does_nothing.setState .kDisconnected
  obtain ⟨hdoes, hstate', -, hch⟩ := onChannel_ok hset.wf rfl h₁
  have hall := (hset.trans hdoes).log .connCallback
  exact ⟨hall.wf, .close (Or.inl hstate) hstate' hch hall.ups_eq⟩

lemma remove_changes (h : c.Wf) (hok : c.onChannel Registry.remove = .ok c') :
    c'.Wf ∧ c.Changes .remove c' := by
  obtain ⟨hdoes, hstate, hindex, hevents'⟩ := onChannel_remove_ok h hok
  simp only [onChannel, bind_eq_ok, pure_eq_ok, Except.ok.injEq] at hok
  obtain ⟨r, hr, rfl⟩ := hok
  obtain ⟨-, hevents, -⟩ := Registry.remove_ok h.coherent hr
  exact ⟨hdoes.wf, .remove hstate hevents hindex hevents' hdoes.ups_eq⟩

lemma connectEstablished_changes (h : c.Wf) (hok : c.connectEstablished = .ok c') :
    c'.Wf ∧ c.Changes .establish c' := by
  simp only [connectEstablished, bind_eq_ok, assertThat_eq_ok, pure_eq_ok, Except.ok.injEq] at hok
  obtain ⟨-, hstate, c₁, h₁, rfl⟩ := hok
  have hset := h.does_nothing.setState .kConnected
  obtain ⟨hdoes, hstate', -, -⟩ := onChannel_ok hset.wf rfl h₁
  have hall := (hset.trans hdoes).log .connCallback
  exact ⟨hall.wf, .establish hstate hstate' hall.ups_eq⟩

end TcpConnection

namespace Life

variable {ι : Type}

/-- Of a step. -/
def kind (l : Life ι) : Action → Kind
  | .connectEstablished => .establish
  | .handleRead outcome => if outcome = .bytes [] then .close else .rest
  | .handleWrite _ => .rest
  | .handleClose => .close
  | .takePending => .rest
  | .nextFunctor _ =>
      match l.conn.functors.batch with
      | [] => .rest
      | f :: _ => l.conn.functorKind f
  | .destroy _ => l.conn.functorKind .connectDestroyed
  | .postDestroy => .rest
  | .call m _ => l.conn.callKind m
  | .forceCloseWithDelay => if l.conn.IsOpen then .disconnecting else .rest
  | .return => if l.inside = some .connectDestroyed then .remove else .rest
  | .post _ _ => .rest
  | .test _ _ => .rest
  | .store _ => .disconnecting
  | .queue _ => .rest

/-- A function of the given kind, called with the connection `c`, leads to `l'`. -/
structure Becomes (l : Life ι) (c : TcpConnection ι) (k : Kind) (l' : Life ι) : Prop where
  wf : l'.conn.Wf
  changes : c.Changes k l'.conn
  removed : l'.removed = (l.removed || decide (k = .remove))
  disconnected : l'.disconnected = l.disconnected

lemma create_wf (s : Setting ι) : (create s).conn.Wf :=
  ⟨s.coherent, (Buffer.represents_of_create (by decide) s.new_outputBuffer).wf⟩

variable {l l' l₁ : Life ι} {c c' c₁ : TcpConnection ι} {k : Kind}

lemma Becomes.of_eq (h : l₁.Becomes c₁ k l') (hremoved : l₁.removed = l.removed)
    (hdisconnected : l₁.disconnected = l.disconnected) (hstate : c₁.state = c.state)
    (hch : c₁.ch = c.ch) (hups : c₁.ups = c.ups) : l.Becomes c k l' :=
  ⟨h.wf, h.changes.of_eq hstate hch hups, by rw [h.removed, hremoved],
    h.disconnected.trans hdisconnected⟩

lemma returned_becomes (hk : k ≠ .remove) (h : c'.Wf ∧ c.Changes k c') :
    l.Becomes c k (l.returned c') :=
  ⟨h.1, h.2, by simp [returned, hk], rfl⟩

lemma functorKind_ne_remove {f : Functor} (hdestroyed : f ≠ .connectDestroyed) :
    c.functorKind f ≠ .remove := by
  intro hkind
  rcases c.functorKind_cases f with hmem | ⟨rfl, -⟩
  · simp [hkind] at hmem
  · exact hdestroyed rfl

lemma callKind_ne_remove (c : TcpConnection ι) (m : Call) : c.callKind m ≠ .remove := by
  cases m with
  | send message => simp [callKind]
  | shutdown => rw [callKind]; split_ifs <;> simp
  | forceClose => rw [callKind]; split_ifs <;> simp
  | startRead => exact functorKind_ne_remove (f := .startReadInLoop) (by simp)
  | stopRead => exact functorKind_ne_remove (f := .stopReadInLoop) (by simp)

variable [DecidableEq ι] {mem : Memory}

lemma handleClose_becomes (h : c.Wf) (hok : l.handleClose c = .ok l') :
    l.Becomes c .close l' := by
  simp only [handleClose, bind_eq_ok, pure_eq_ok, Except.ok.injEq] at hok
  obtain ⟨c₁, h₁, rfl⟩ := hok
  obtain ⟨hwf, hchanges⟩ := beginClose_changes h h₁
  exact ⟨hwf, hchanges, by simp, rfl⟩

lemma remove_becomes (h : c.Wf) (hok : l.remove c = .ok l') : l.Becomes c .remove l' := by
  simp only [remove, bind_eq_ok, pure_eq_ok, Except.ok.injEq] at hok
  obtain ⟨c₁, h₁, rfl⟩ := hok
  obtain ⟨hwf, hchanges⟩ := remove_changes h h₁
  exact ⟨hwf, hchanges, by simp, rfl⟩

lemma connectDestroyed_becomes (h : c.Wf) (hok : l.connectDestroyed c = .ok l') :
    l.Becomes c (c.functorKind .connectDestroyed) l' := by
  rw [connectDestroyed] at hok
  rw [functorKind]
  split_ifs at hok ⊢ with hstate
  · simp only [bind_eq_ok, pure_eq_ok, Except.ok.injEq] at hok
    obtain ⟨c₁, h₁, rfl⟩ := hok
    obtain ⟨hwf, hchanges⟩ := beginDestroy_changes h hstate h₁
    exact ⟨hwf, hchanges, by simp, rfl⟩
  · exact remove_becomes h hok

lemma runFunctor_becomes (h : l.conn.Wf) {f : Functor} {o : WriteOutcome}
    (hok : l.runFunctor mem f o = .ok l') : l.Becomes l.conn (l.conn.functorKind f) l' := by
  have hlog : l.conn.Does (l.conn.log (.ran f)) l.conn.output [.ran f] [] := h.does_nothing.log _
  have hups : (l.conn.log (.ran f)).ups = l.conn.ups := hlog.ups_eq
  rw [runFunctor] at hok
  split_ifs at hok with hforce hdestroyed
  · subst hforce
    rw [forceCloseInLoopWith] at hok
    by_cases hopen : l.conn.state = .kConnected ∨ l.conn.state = .kDisconnecting
    · rw [if_pos (by exact hopen)] at hok
      rw [functorKind, if_pos (by exact hopen)]
      exact (handleClose_becomes hlog.wf hok).of_eq rfl rfl rfl rfl hups
    · rw [if_neg (by exact hopen)] at hok
      rw [functorKind, if_neg (by exact hopen)]
      obtain rfl := Except.ok.inj hok
      exact returned_becomes (by simp) ⟨hlog.wf, .rest rfl (fun _ => rfl) hups⟩
  · subst hdestroyed
    exact (connectDestroyed_becomes hlog.wf hok).of_eq rfl rfl rfl rfl hups
  · obtain ⟨c₁, h₁, hok⟩ := bind_eq_ok.mp hok
    obtain rfl := Except.ok.inj hok
    exact returned_becomes (functorKind_ne_remove hdestroyed)
      (runFunctor_changes h hforce hdestroyed h₁)

/-- `send`, `startRead` or `stopRead` on a thread other than the loop's queues, if it does anything. -/
lemma post_becomes (h : l.conn.Wf) {n : ℕ} {m : Call} (hshutdown : m ≠ .shutdown)
    (hforce : m ≠ .forceClose) (hok : l.conn.call mem (.other n) (.wrote 0) m = .ok c') :
    l.Becomes l.conn .rest (l.returned c') := by
  have hqueue : ∀ f : Functor, l.conn.queueInLoop f = c' →
      l.Becomes l.conn .rest (l.returned c') := by
    rintro f rfl
    exact returned_becomes (by simp)
      ⟨(h.does_nothing.queueInLoop f).wf, .rest rfl (fun _ => rfl) rfl⟩
  cases m with
  | send message =>
      rw [call] at hok
      split_ifs at hok with hstate
      · rw [runInLoop, if_neg (by simp)] at hok
        obtain rfl := Except.ok.inj hok
        have hdoes := (h.does_nothing.log (.send (.other n) message)).queueInLoop
          (.sendInLoop (.other n) message)
        exact returned_becomes (by simp) ⟨hdoes.wf, .rest rfl (fun _ => rfl) hdoes.ups_eq⟩
      · obtain rfl := Except.ok.inj hok
        exact returned_becomes (by simp) ⟨h, .rest rfl (fun _ => rfl) rfl⟩
  | shutdown => exact absurd rfl hshutdown
  | forceClose => exact absurd rfl hforce
  | startRead =>
      rw [call, runInLoop, if_neg (by simp)] at hok
      exact hqueue _ (Except.ok.inj hok)
  | stopRead =>
      rw [call, runInLoop, if_neg (by simp)] at hok
      exact hqueue _ (Except.ok.inj hok)

/-- The functions of the loop's thread. -/
lemma loopStep_becomes (h : l.conn.Wf) {a : Action} (hok : l.loopStep mem a = .ok l') :
    l.Becomes l.conn (l.kind a) l' := by
  cases a with
  | handleRead outcome =>
      obtain ⟨c₁, hdoes, hstate, hch, hcase⟩ := handleReadWith_cases h hok
      have hups : c₁.ups = l.conn.ups := hdoes.ups_eq
      rw [kind]
      split_ifs at hcase ⊢ with heof
      · exact (handleClose_becomes hdoes.wf hcase).of_eq rfl rfl hstate hch hups
      · rcases hcase with rfl | rfl
        · exact returned_becomes (by simp) ⟨hdoes.wf, .rest hstate (fun _ => hch) hups⟩
        · have hlog := hdoes.log .messageCallback
          exact returned_becomes (by simp) ⟨hlog.wf, .rest hstate (fun _ => hch) hlog.ups_eq⟩
  | handleWrite outcome =>
      obtain ⟨c₁, h₁, hok⟩ := bind_eq_ok.mp hok
      obtain rfl := Except.ok.inj hok
      exact returned_becomes (by simp [kind]) (handleWrite_changes h h₁)
  | handleClose => exact handleClose_becomes h hok
  | takePending =>
      rw [loopStep, guard_eq_ok] at hok
      obtain rfl := Except.ok.inj hok.2
      exact returned_becomes (by simp [kind])
        ⟨⟨h.coherent, h.outputBuffer⟩, .rest rfl (fun _ => rfl) rfl⟩
  | nextFunctor outcome =>
      rw [loopStep] at hok
      rw [kind]
      cases hbatch : l.conn.functors.batch with
      | nil => simp [hbatch] at hok
      | cons f rest =>
          simp only [hbatch] at hok ⊢
          have hwf : (l.conn.startFunctor f rest).Wf := ⟨h.coherent, h.outputBuffer⟩
          exact (runFunctor_becomes hwf hok).of_eq rfl rfl rfl rfl rfl
  | destroy outcome =>
      rw [loopStep, guard_eq_ok] at hok
      exact (runFunctor_becomes (l := { l with inTable := false }) h hok.2).of_eq rfl rfl rfl rfl rfl
  | _ => simp [loopStep] at hok

/-- A step of an established connection. -/
lemma move_becomes (h : l.conn.Wf) {a : Action} (hok : l.move mem a = .ok l') :
    l.Becomes l.conn (l.kind a) l' := by
  cases a with
  | postDestroy =>
      rw [move, guard_eq_ok] at hok
      obtain rfl := Except.ok.inj hok.2
      exact ⟨(h.does_nothing.queueInLoop .connectDestroyed).wf, .rest rfl (fun _ => rfl) rfl,
        by simp [kind], rfl⟩
  | call m outcome =>
      obtain ⟨c₁, h₁, hok⟩ := bind_eq_ok.mp hok
      obtain rfl := Except.ok.inj hok
      exact returned_becomes (callKind_ne_remove _ m) (call_changes h h₁)
  | forceCloseWithDelay =>
      rw [move] at hok
      rw [kind]
      split_ifs at hok ⊢ with hopen
      · obtain rfl := Except.ok.inj hok
        exact returned_becomes (by simp)
          ⟨(h.does_nothing.setState .kDisconnecting).wf, .disconnecting rfl rfl rfl⟩
      · obtain rfl := Except.ok.inj hok
        exact ⟨h, .rest rfl (fun _ => rfl) rfl, by simp, rfl⟩
  | «return» =>
      rw [move] at hok
      rw [kind]
      cases hinside : l.inside with
      | none => simp [hinside] at hok
      | some f =>
          cases f with
          | handleClose =>
              simp only [hinside] at hok
              obtain rfl := Except.ok.inj hok
              obtain ⟨hdoes, hstate, hch⟩ := closeCallback_spec h
              exact ⟨hdoes.wf, .rest hstate (fun _ => hch) hdoes.ups_eq, by simp, rfl⟩
          | connectDestroyed =>
              simp only [hinside] at hok
              exact remove_becomes h hok
  | post n m =>
      rw [move] at hok
      split_ifs at hok with hm
      rw [not_or] at hm
      obtain ⟨c₁, h₁, hok⟩ := bind_eq_ok.mp hok
      obtain rfl := Except.ok.inj hok
      exact post_becomes h hm.1 hm.2 h₁
  | test n m =>
      rw [move] at hok
      split_ifs at hok with hidle htest
      all_goals
        obtain rfl := Except.ok.inj hok
        exact ⟨h, .rest rfl (fun _ => rfl) rfl, by simp [kind], rfl⟩
  | store n =>
      rw [move] at hok
      cases hcloser : l.closers n with
      | tested m =>
          simp only [hcloser] at hok
          obtain rfl := Except.ok.inj hok
          have hset := h.does_nothing.setState .kDisconnecting
          cases m with
          | shutdown =>
              have hlog := hset.log .shutdown
              exact ⟨hlog.wf, .disconnecting rfl rfl hlog.ups_eq, by simp [kind], rfl⟩
          | forceClose => exact ⟨hset.wf, .disconnecting rfl rfl rfl, by simp [kind], rfl⟩
          | forceCloseWithDelay => exact ⟨hset.wf, .disconnecting rfl rfl rfl, by simp [kind], rfl⟩
      | _ => simp [hcloser] at hok
  | queue n =>
      rw [move] at hok
      cases hcloser : l.closers n with
      | stored m =>
          simp only [hcloser] at hok
          obtain rfl := Except.ok.inj hok
          cases m with
          | forceCloseWithDelay => exact ⟨h, .rest rfl (fun _ => rfl) rfl, by simp [kind], rfl⟩
          | shutdown =>
              exact ⟨(h.does_nothing.queueInLoop .shutdownInLoop).wf, .rest rfl (fun _ => rfl) rfl,
                by simp [kind], rfl⟩
          | forceClose =>
              exact ⟨(h.does_nothing.queueInLoop .forceCloseInLoop).wf, .rest rfl (fun _ => rfl) rfl,
                by simp [kind], rfl⟩
      | _ => simp [hcloser] at hok
  | connectEstablished => simp [move, loopStep] at hok
  | _ =>
      simp only [move, guard_eq_ok] at hok
      exact loopStep_becomes h hok.2

/-- What a step leads to, with what it records. -/
structure Steps (l : Life ι) (a : Action) (l' : Life ι) : Prop where
  wf : l'.conn.Wf
  changes : l.conn.Changes (l.kind a) l'.conn
  removed : l'.removed = (l.removed || decide (l.kind a = .remove))
  disconnected : l'.disconnected = (l.disconnected || decide (l'.conn.state = .kDisconnected))
  established : a = .connectEstablished ∨ l.conn.state ≠ .kConnecting

/-- **A step does what its kind says**, and nothing more. -/
theorem changes_of_step (h : l.conn.Wf) {a : Action} (hstep : l.step mem a = .ok l') :
    l.Steps a l' := by
  rw [step] at hstep
  split_ifs at hstep with ha hstate
  · subst ha
    obtain ⟨c₁, h₁, hstep⟩ := bind_eq_ok.mp hstep
    obtain rfl := Except.ok.inj hstep
    obtain ⟨hwf, hchanges⟩ := connectEstablished_changes h h₁
    exact ⟨hwf, hchanges, by simp [returned, kind], rfl, Or.inl rfl⟩
  · simp at hstep
  · obtain ⟨l₁, h₁, hstep⟩ := bind_eq_ok.mp hstep
    obtain rfl := Except.ok.inj hstep
    obtain ⟨hwf, hchanges, hremoved, hdisconnected⟩ := move_becomes h h₁
    exact ⟨hwf, hchanges, hremoved, by rw [hdisconnected], Or.inr hstate⟩

end Life

end Seenet
