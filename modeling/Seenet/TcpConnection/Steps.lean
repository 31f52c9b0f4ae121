import Seenet.TcpConnection.Spec

/-!
# Runs of a connection

Two machines over the functions of a connection.

* `perform` — the functions that run on the loop, in any order: the functors and the handlers.
* `step` — the connection as a whole: public calls by any thread, the swap of `doPendingFunctors`, the
  functors it then runs, and the handlers.  That handlers and functors take turns as they like is more
  than the loop does (it runs a whole batch before it polls again), and so is that the user may take
  bytes out of the input buffer at any time.

`Setting` is what a connection is constructed from, and `Setting.start` is where its runs start: the
connection has been established.
-/

namespace Seenet

namespace TcpConnection

open Channel

variable {ι : Type}

/-! ## Machines -/

/-- What runs on the loop. -/
inductive LoopCall
  | functor (f : Functor) (outcome : WriteOutcome)
  | handleRead (outcome : ReadOutcome)
  | handleWrite (outcome : WriteOutcome)
  deriving DecidableEq, Repr

/-- One function runs on the loop. -/
def perform [DecidableEq ι] (mem : Memory) (c : TcpConnection ι) : LoopCall → Res (TcpConnection ι)
  | .functor f outcome => c.runFunctor mem f outcome
  | .handleRead outcome => c.handleRead mem outcome
  | .handleWrite outcome => c.handleWrite outcome

inductive Action
  | call (t : Thread) (m : Call) (outcome : WriteOutcome)
  /-- the swap in `doPendingFunctors` -/
  | takePending
  /-- the next functor of the batch -/
  | nextFunctor (outcome : WriteOutcome)
  | handleRead (outcome : ReadOutcome)
  | handleWrite (outcome : WriteOutcome)
  /-- the user takes bytes out of `inputBuffer()` -/
  | retrieveInput (len : ℕ)
  deriving DecidableEq, Repr

/-- The batch has been taken. -/
def takeFunctors (c : TcpConnection ι) : TcpConnection ι := { c with functors := c.functors.take }

/-- The functor `f` has been taken from the batch. -/
def startFunctor (c : TcpConnection ι) (f : Functor) (rest : List Functor) : TcpConnection ι :=
  { c with functors := c.functors.start f rest }

/-- One step of a connection. -/
def step [DecidableEq ι] (mem : Memory) (c : TcpConnection ι) : Action → Res (TcpConnection ι)
  | .call t m outcome => c.call mem t outcome m
  | .takePending => if c.functors.batch = [] then .ok c.takeFunctors else .error .disabled
  | .nextFunctor outcome =>
      match c.functors.batch with
      | [] => .error .disabled
      | f :: rest => (c.startFunctor f rest).runFunctor mem f outcome
  | .handleRead outcome => c.handleRead mem outcome
  | .handleWrite outcome => c.handleWrite outcome
  | .retrieveInput len => do
      let inputBuffer ← c.inputBuffer.retrieve len
      return { c with inputBuffer := inputBuffer }

/-! ## Where runs start -/

/-- What the constructor of a connection is given: a new channel of a loop in order, and new buffers. -/
structure Setting (ι : Type) where
  mem : Memory
  registry : Registry ι
  coherent : registry.Coherent
  channel : ι
  new_channel : registry.heap channel = Channel.create (registry.heap channel).fd
  inputBuffer : Buffer
  outputBuffer : Buffer
  new_outputBuffer : Buffer.create mem Buffer.kInitialSize = .ok outputBuffer
  highWaterMark : ℕ
  writeCompleteCallback : Bool
  highWateMarkCallback : Bool

/-- The connection constructed. -/
def Setting.connection (s : Setting ι) : TcpConnection ι :=
  create s.registry .empty s.channel s.inputBuffer s.outputBuffer s.highWaterMark
    s.writeCompleteCallback s.highWateMarkCallback

/-- The connection established. -/
def Setting.start [DecidableEq ι] (s : Setting ι) : TcpConnection ι :=
  match s.connection.connectEstablished with
  | .ok c => c
  | .error _ => s.connection

/-- The state of a connection that has just been established. -/
structure JustEstablished (c : TcpConnection ι) : Prop where
  wf : c.Wf
  state_eq : c.state = .kConnected
  output_eq : c.output = []
  trace_eq : c.trace = [.connCallback]
  pending_eq : c.functors.pending = []
  batch_eq : c.functors.batch = []
  events_eq : c.ch.events = kReadEvent
  index_eq : c.ch.index = .kAdded

lemma JustEstablished.isWriting_eq {c : TcpConnection ι} (h : c.JustEstablished) :
    c.isWriting = false := by
  rw [Bool.eq_false_iff, ne_eq, isWriting_iff, h.events_eq]
  simp [kReadEvent]

variable [DecidableEq ι]

/-- **A new connection can be established.** -/
lemma Setting.established (s : Setting ι) :
    s.connection.connectEstablished = .ok s.start ∧ s.start.JustEstablished := by
  have hbuffer := Buffer.represents_of_create (by decide) s.new_outputBuffer
  have hwf : s.connection.Wf := ⟨s.coherent, hbuffer.wf⟩
  have hnew : s.connection.ch = Channel.create (s.registry.heap s.channel).fd := s.new_channel
  have hset := hwf.does_nothing.setState .kConnected
  obtain ⟨c₁, h₁, hdoes, hstate, -, hch⟩ := onChannel_spec hset.wf
    (show Registry.enableReading _ _ = _ from rfl)
  have hok : s.connection.connectEstablished = .ok (c₁.log .connCallback) := by
    have hconnecting : s.connection.state = .kConnecting := rfl
    rw [connectEstablished, assertThat_pos hconnecting, bind_ok]
    simp only [h₁, bind_ok, pure_eq_ok]
  have hstart : s.start = c₁.log .connCallback := by rw [start, hok]
  have hall := (hset.trans hdoes).log .connCallback
  have hch' : c₁.ch = s.connection.ch.updated (s.connection.ch.events ∪ kReadEvent) := hch
  rw [hnew] at hch'
  rw [hstart]
  refine ⟨hok, hall.wf, hstate, ?_, ?_, ?_, ?_, ?_, ?_⟩
  · rw [hall.output_eq]
    exact hbuffer.toList_eq
  · rw [hall.trace_eq]
    rfl
  · rw [hall.pending_eq]
    rfl
  · rw [hall.batch_eq]
    rfl
  · rw [log_ch, hch']
    simp [Channel.create]
  · rw [log_ch, hch']
    simp [Channel.create, nextIndex]

/-- A loop with one channel, and a connection on it that has no callbacks set. -/
def Setting.plain : Setting Unit where
  mem := Buffer.ampleMemory
  registry := Registry.create fun _ => 5
  coherent := Registry.coherent_create ⟨fun _ => 5, fun _ _ _ => rfl⟩
  channel := ()
  new_channel := rfl
  inputBuffer := ⟨List.replicate 1032 0, 8, 8⟩
  outputBuffer := ⟨List.replicate 1032 0, 8, 8⟩
  new_outputBuffer := by decide +kernel
  highWaterMark := 64 * 1024 * 1024
  writeCompleteCallback := false
  highWateMarkCallback := false

/-! ## What a step does -/

/-- A functor that is neither `sendInLoop` nor `shutdownInLoop` leaves the bytes alone. -/
lemma runFunctor_spares {mem : Memory} {c c' : TcpConnection ι} (h : c.Wf) {f : Functor}
    {o : WriteOutcome} (hsend : ∀ t message, f ≠ .sendInLoop t message)
    (hshutdown : f ≠ .shutdownInLoop) (hok : c.runFunctor mem f o = .ok c') :
    (c.log (.ran f)).Spares c' := by
  have hwf := (h.does_nothing.log (.ran f)).wf
  cases f with
  | sendInLoop t message => exact absurd rfl (hsend t message)
  | shutdownInLoop => exact absurd rfl hshutdown
  | forceCloseInLoop => exact forceCloseInLoop_spares hwf hok
  | startReadInLoop => exact startReadInLoop_spares hwf hok
  | stopReadInLoop => exact stopReadInLoop_spares hwf hok
  | writeCompleteCallback =>
      simp only [runFunctor, Except.ok.injEq] at hok
      rw [← hok]
      exact hwf.spares_self
  | highWateMarkCallback size =>
      simp only [runFunctor, Except.ok.injEq] at hok
      rw [← hok]
      exact hwf.spares_self
  | connectDestroyed => exact connectDestroyed_spares hwf hok

end TcpConnection

end Seenet
