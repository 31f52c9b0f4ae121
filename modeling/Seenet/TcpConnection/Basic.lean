import Seenet.Buffer.Basic
import Seenet.Poller.EPollPoller
import Seenet.EventLoop.Basic
import Seenet.Lib.BatchQueue

/-!
# `TcpConnection`

One connection, with what it uses of its loop: the channels (`Registry`) and the functors
(`BatchQueue`).  The outcome of every system call is an argument.  The user's callbacks do nothing
here; what they call is a step of its own (`Call`), taken after the function that called them.

`trace` is not in the source.  It records what happens at the boundary of the connection: calls of
`send` and `shutdown` that found it connected, functors that ran, bytes the kernel accepted, calls of
`Socket::shutdownWrite`, callbacks; and, in the place where the source decides it, that `sendInLoop`
accepted a message.
-/

namespace Seenet

open Channel

inductive StateE
  | kDisconnected | kConnecting | kConnected | kDisconnecting
  deriving DecidableEq, Repr

/-- What a connection gives its loop to run.  A message is with the thread that sent it. -/
inductive Functor
  | sendInLoop (t : Thread) (message : List UInt8)
  | shutdownInLoop
  | forceCloseInLoop
  | startReadInLoop
  | stopReadInLoop
  | writeCompleteCallback
  | highWateMarkCallback (size : ℕ)
  | connectDestroyed
  deriving DecidableEq, Repr

/-- What happens at the boundary of a connection. -/
inductive Effect
  | send (t : Thread) (message : List UInt8)
  | shutdown
  | ran (f : Functor)
  | accepted (t : Thread) (message : List UInt8)
  | wrote (data : List UInt8)
  | shutdownWrite (backlog : List UInt8)
  | connCallback
  | messageCallback
  | closeCallback
  deriving DecidableEq, Repr

structure TcpConnection (ι : Type) where
  /-- the channels of `m_loop` -/
  registry : Registry ι
  /-- the functors of `m_loop` -/
  functors : BatchQueue Functor
  channel : ι
  state : StateE
  reading : Bool
  inputBuffer : Buffer
  outputBuffer : Buffer
  highWaterMark : ℕ
  /-- `m_writeCompleteCallback` is set -/
  writeCompleteCallback : Bool
  /-- `m_highWateMarkCallback` is set -/
  highWateMarkCallback : Bool
  trace : List Effect

namespace TcpConnection

variable {ι : Type}

/-! ## The connection and its loop -/

/-- `m_Channel` -/
def ch (c : TcpConnection ι) : Channel := c.registry.heap c.channel

def isWriting (c : TcpConnection ι) : Bool := c.ch.isWriting

/-- The bytes in `m_outputBuffer`. -/
def output (c : TcpConnection ι) : List UInt8 := c.outputBuffer.toList

def setState (c : TcpConnection ι) (s : StateE) : TcpConnection ι := { c with state := s }

def log (c : TcpConnection ι) (e : Effect) : TcpConnection ι := { c with trace := c.trace ++ [e] }

/-- `m_loop->queueInLoop` -/
def queueInLoop (c : TcpConnection ι) (f : Functor) : TcpConnection ι :=
  { c with functors := c.functors.push f }

variable [DecidableEq ι]

/-- An operation on `m_Channel`. -/
def onChannel (c : TcpConnection ι) (op : Registry ι → ι → Res (Registry ι)) :
    Res (TcpConnection ι) := do
  let registry ← op c.registry c.channel
  return { c with registry := registry }

/-! ## Sending -/

/-- The errors of a write after which `sendInLoop` gives the message up. -/
def faultError (errno : Errno) : Bool :=
  if errno ≠ EWOULDBLOCK then decide (errno ≠ EPIPE ∨ errno = ECONNRESET) else false

/-- The first part of `sendInLoop`: the direct write, if nothing is queued.  The result is the number
of bytes written, the number remaining, and whether there was a fault. -/
def directWrite (c : TcpConnection ι) (data : List UInt8) (outcome : WriteOutcome) :
    Res (TcpConnection ι × ℕ × ℕ × Bool) := do
  let len := data.length
  if ¬ c.isWriting ∧ c.outputBuffer.readableBytes = 0 then
    match ← sockets.write len outcome with
    | .ok nwrote =>
        let c := c.log (.wrote (data.take nwrote))
        let remaining := len - nwrote
        if remaining = 0 ∧ c.writeCompleteCallback then
          return (c.queueInLoop .writeCompleteCallback, nwrote, remaining, false)
        else
          return (c, nwrote, remaining, false)
    | .error errno => return (c, 0, len, faultError errno)
  else
    return (c, 0, len, false)

/-- The second part of `sendInLoop`: what remains is put in the output buffer. -/
def bufferRemaining (mem : Memory) (c : TcpConnection ι) (data : List UInt8)
    (nwrote remaining : ℕ) : Res (TcpConnection ι) := do
  let oldLen := c.outputBuffer.readableBytes
  let c :=
    if c.highWaterMark ≤ sizeAdd oldLen remaining ∧ c.highWateMarkCallback then
      c.queueInLoop (.highWateMarkCallback (sizeAdd oldLen remaining))
    else c
  let outputBuffer ← c.outputBuffer.append mem (data.drop nwrote)
  let c := { c with outputBuffer := outputBuffer }
  if c.isWriting then c.onChannel Registry.enableWriting else return c

def sendInLoop (mem : Memory) (c : TcpConnection ι) (t : Thread) (data : List UInt8)
    (outcome : WriteOutcome) : Res (TcpConnection ι) := do
  if c.state = .kDisconnected then
    -- log warn
    return c
  let (c, nwrote, remaining, fault) ← c.directWrite data outcome
  assertThat (remaining ≤ data.length) .sendInLoop
  let c := if fault then c else c.log (.accepted t data)
  if ¬ fault ∧ 0 < remaining then c.bufferRemaining mem data nwrote remaining else return c

/-! ## Closing -/

def shutdownInLoop (c : TcpConnection ι) : TcpConnection ι :=
  if c.isWriting then c.log (.shutdownWrite c.output) else c

/-- `handleClose`, until `m_connCallback` is called. -/
def beginClose (c : TcpConnection ι) : Res (TcpConnection ι) := do
  assertThat (c.state = .kConnected ∨ c.state = .kDisconnecting) .handleClose
  let c := c.setState .kDisconnected
  let c ← c.onChannel Registry.disableAll
  return c.log .connCallback

/-- `m_closeCallback`: the server's `removeConnection` and `removeConnectionInLoop`. -/
def closeCallback (c : TcpConnection ι) : TcpConnection ι :=
  (c.log .closeCallback).queueInLoop .connectDestroyed

def handleClose (c : TcpConnection ι) : Res (TcpConnection ι) := do
  let c ← c.beginClose
  return c.closeCallback

def connectEstablished (c : TcpConnection ι) : Res (TcpConnection ι) := do
  assertThat (c.state = .kConnecting) .connectEstablished
  let c := c.setState .kConnected
  let c ← c.onChannel Registry.enableReading
  return c.log .connCallback

def connectDestroyed (c : TcpConnection ι) : Res (TcpConnection ι) := do
  let c ← if c.state = .kConnected then do
      let c := c.setState .kDisconnected
      let c ← c.onChannel Registry.disableAll
      pure (c.log .connCallback)
    else pure c
  c.onChannel Registry.remove

/-- `forceCloseInLoop`, with `close` for the call of `handleClose` and `done` for a return. -/
def forceCloseInLoopWith {β : Type} (close : TcpConnection ι → Res β) (done : TcpConnection ι → β)
    (c : TcpConnection ι) : Res β :=
  if c.state = .kConnected ∨ c.state = .kDisconnecting then close c else .ok (done c)

def forceCloseInLoop (c : TcpConnection ι) : Res (TcpConnection ι) :=
  c.forceCloseInLoopWith handleClose id

/-! ## Reading -/

def startReadInLoop (c : TcpConnection ι) : Res (TcpConnection ι) := do
  if ¬ c.reading ∨ ¬ c.ch.isReading then
    let c ← c.onChannel Registry.enableReading
    return { c with reading := true }
  else return c

def stopReadInLoop (c : TcpConnection ι) : Res (TcpConnection ι) := do
  if c.reading ∨ c.ch.isReading then
    let c ← c.onChannel Registry.disableReading
    return { c with reading := false }
  else return c

/-! ## Handlers -/

/-- `handleRead`, with `close` for the call of `handleClose` and `done` for a return. -/
def handleReadWith {β : Type} (close : TcpConnection ι → Res β) (done : TcpConnection ι → β)
    (mem : Memory) (c : TcpConnection ι) (outcome : ReadOutcome) : Res β := do
  let (n, inputBuffer) ← c.inputBuffer.readFd mem outcome
  let c := { c with inputBuffer := inputBuffer }
  match n with
  | .ok n => if 0 < n then return done (c.log .messageCallback) else close c
  | .error _ => return done c

def handleRead (mem : Memory) (c : TcpConnection ι) (outcome : ReadOutcome) :
    Res (TcpConnection ι) :=
  c.handleReadWith handleClose id mem outcome

/-- `handleWrite`, after the kernel has accepted the last byte of the backlog. -/
def drained (c : TcpConnection ι) : Res (TcpConnection ι) := do
  let c ← c.onChannel Registry.disableWriting
  let c := if c.writeCompleteCallback then c.queueInLoop .writeCompleteCallback else c
  if c.state = .kDisconnecting then return c.shutdownInLoop else return c

def handleWrite (c : TcpConnection ι) (outcome : WriteOutcome) : Res (TcpConnection ι) := do
  if c.isWriting then
    match ← sockets.write c.outputBuffer.readableBytes outcome with
    | .ok n =>
        if 0 < n then
          let c := c.log (.wrote (c.output.take n))
          let outputBuffer ← c.outputBuffer.retrieve n
          let c := { c with outputBuffer := outputBuffer }
          if c.outputBuffer.readableBytes = 0 then c.drained else return c
        else return c
    | .error _ => return c
  else return c

/-! ## Functors and public calls -/

/-- A functor is run. -/
def runFunctor (mem : Memory) (c : TcpConnection ι) (f : Functor) (outcome : WriteOutcome) :
    Res (TcpConnection ι) :=
  let c := c.log (.ran f)
  match f with
  | .sendInLoop t message => c.sendInLoop mem t message outcome
  | .shutdownInLoop => .ok c.shutdownInLoop
  | .forceCloseInLoop => c.forceCloseInLoop
  | .startReadInLoop => c.startReadInLoop
  | .stopReadInLoop => c.stopReadInLoop
  | .writeCompleteCallback => .ok c
  | .highWateMarkCallback _ => .ok c
  | .connectDestroyed => c.connectDestroyed

/-- `m_loop->runInLoop` -/
def runInLoop (mem : Memory) (c : TcpConnection ι) (t : Thread) (f : Functor)
    (outcome : WriteOutcome) : Res (TcpConnection ι) :=
  if t = .loop then c.runFunctor mem f outcome else .ok (c.queueInLoop f)

/-- The public member functions. -/
inductive Call
  | send (message : List UInt8)
  | shutdown
  | forceClose
  | startRead
  | stopRead
  deriving DecidableEq, Repr

/-- A public member function is called by the thread `t`. -/
def call (mem : Memory) (c : TcpConnection ι) (t : Thread) (outcome : WriteOutcome) :
    Call → Res (TcpConnection ι)
  | .send message =>
      if c.state = .kConnected then
        (c.log (.send t message)).runInLoop mem t (.sendInLoop t message) outcome
      else .ok c
  | .shutdown =>
      if c.state = .kConnected then
        ((c.setState .kDisconnecting).log .shutdown).runInLoop mem t .shutdownInLoop outcome
      else .ok c
  | .forceClose =>
      if c.state = .kConnected ∨ c.state = .kDisconnecting then
        .ok ((c.setState .kDisconnecting).queueInLoop .forceCloseInLoop)
      else .ok c
  | .startRead => c.runInLoop mem t .startReadInLoop outcome
  | .stopRead => c.runInLoop mem t .stopReadInLoop outcome

/-! ## A public call by another thread, in steps -/

/-- The test of `m_state` in a public member function. -/
def passes (c : TcpConnection ι) : Call → Bool
  | .send _ => decide (c.state = .kConnected)
  | .shutdown => decide (c.state = .kConnected)
  | .forceClose => decide (c.state = .kConnected ∨ c.state = .kDisconnecting)
  | .startRead => true
  | .stopRead => true

/-- The function sets `m_state`. -/
def Call.setsState : Call → Bool
  | .send _ => false
  | .shutdown => true
  | .forceClose => true
  | .startRead => false
  | .stopRead => false

/-- `setState` in the function. -/
def sets (c : TcpConnection ι) : Call → TcpConnection ι
  | .send _ => c
  | .shutdown => (c.setState .kDisconnecting).log .shutdown
  | .forceClose => c.setState .kDisconnecting
  | .startRead => c
  | .stopRead => c

/-- What the thread `n`, which is not the loop's, gives the loop to run. -/
def posts (c : TcpConnection ι) (n : ℕ) : Call → TcpConnection ι
  | .send message => (c.log (.send (.other n) message)).queueInLoop (.sendInLoop (.other n) message)
  | .shutdown => c.queueInLoop .shutdownInLoop
  | .forceClose => c.queueInLoop .forceCloseInLoop
  | .startRead => c.queueInLoop .startReadInLoop
  | .stopRead => c.queueInLoop .stopReadInLoop

omit [DecidableEq ι] in
@[simp] lemma posts_state (c : TcpConnection ι) (n : ℕ) (m : Call) : (c.posts n m).state = c.state := by
  cases m <;> rfl

omit [DecidableEq ι] in
@[simp] lemma sets_functors (c : TcpConnection ι) (m : Call) : (c.sets m).functors = c.functors := by
  cases m <;> rfl

omit [DecidableEq ι] in
lemma posts_pending (c : TcpConnection ι) (n : ℕ) (m : Call) :
    ∃ fs, (c.posts n m).functors.pending = c.functors.pending ++ fs := by
  cases m <;> exact ⟨_, rfl⟩

/-- The steps make up the call. -/
lemma call_other_eq (mem : Memory) (c : TcpConnection ι) (n : ℕ) (outcome : WriteOutcome) (m : Call) :
    c.call mem (.other n) outcome m = .ok (if c.passes m then (c.sets m).posts n m else c) := by
  have hother : ¬ Thread.other n = .loop := by simp
  cases m with
  | send message | shutdown | forceClose =>
      simp only [call, runInLoop, if_neg hother, passes, decide_eq_true_eq]
      split_ifs <;> rfl
  | startRead | stopRead =>
      simp only [call, runInLoop, if_neg hother, passes, if_true]
      rfl

/-! ## A connection that has been established -/

/-- `TcpConnection::TcpConnection`, on a loop with other channels, and the callbacks set. -/
def create (registry : Registry ι) (functors : BatchQueue Functor) (channel : ι)
    (inputBuffer outputBuffer : Buffer) (highWaterMark : ℕ)
    (writeCompleteCallback highWateMarkCallback : Bool) : TcpConnection ι :=
  ⟨registry, functors, channel, .kConnecting, true, inputBuffer, outputBuffer, highWaterMark,
    writeCompleteCallback, highWateMarkCallback, []⟩

end TcpConnection

end Seenet
