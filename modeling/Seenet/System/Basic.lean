import Seenet.TcpConnection.Round
import Seenet.TcpServer.Basic

/-!
# The whole server

A `TcpServer` with all its loops and all its connections, from the call of `start` on: each loop goes through
its rounds, with its own channels and functors, and the threads take turns as they like.

The functions of a connection are those of `TcpConnection`.  `view` is the connection as its functions see
it, with the channels of its loop and those functors there that are its own; `put` is the server after such
a function.

A thread other than the loop's takes up to three steps through a public function: it tests `m_state`, sets it, and
queues a functor.  `calls` are those on their way.  All accesses to `m_connections`, which has
no lock, are taken as indivisible, although with threads they are made by several of them: by `newConnection` on
the base loop's, and by `removeConnectionInLoop` on those of the connections.

A connection is an object that ends.  `shared_ptr`s to it are in the table, in the functors (`Loop.called` are
those that have run and wait for the end of `doPendingFunctors` in its vector), on the stack while it is
closed or called, and with the user; channels, active lists and the kernel only have plain pointers.  When nobody holds
it, `destroy` runs its destructor: its channel is no longer there, and the kernel may give its descriptor
away.  `alive` says which connections there are, and `deref` is what a plain pointer is for.
-/

namespace Seenet

open Channel

/-- The channels of a loop. -/
inductive ChannelId
  | wakeup | timer | acceptor
  | conn (i : ℕ)
  deriving DecidableEq, Repr

/-- The descriptor in the place of a channel that is not there.  The kernel gives no such descriptors. -/
def absentFd : ChannelId → ℤ
  | .wakeup => -1
  | .timer => -2
  | .acceptor => -3
  | .conn i => -4 - i

/-- What a loop is given to run. -/
inductive Task
  | connectEstablished (i : ℕ)
  | removeConnectionInLoop (i : ℕ)
  | functor (i : ℕ) (f : Functor)
  deriving DecidableEq, Repr

namespace Task

/-- The connection a task has a `shared_ptr` to. -/
def conn : Task → ℕ
  | connectEstablished i => i
  | removeConnectionInLoop i => i
  | functor i _ => i

/-- The functors of one connection. -/
def functorOf (i : ℕ) : Task → Option Functor
  | functor j f => if j = i then some f else none
  | _ => none

end Task

/-- What the thread of a loop has to call before it goes on. -/
inductive Item
  /-- `handleEvent` of an active channel -/
  | channel (ch : ChannelId)
  /-- a callback of a connection's channel -/
  | callback (i : ℕ) (cb : Callback)
  /-- `Acceptor::handleRead` -/
  | accept
  /-- `m_closeCallback` of a connection, which `handleClose` holds by `guardThis` -/
  | closeCallback (i : ℕ)
  deriving DecidableEq, Repr

/-- An `EventLoop`, with its channels, and where its thread is. -/
structure Loop where
  registry : Registry ChannelId
  pending : List Task
  /-- of the functors of `doPendingFunctors`, those to be called -/
  batch : List Task
  /-- those that have been called -/
  called : List Task
  phase : Phase
  todo : List Item

/-- Everything that holds a connection on the loop, but for the stack. -/
def Loop.tasks (l : Loop) : List Task := l.pending ++ l.batch ++ l.called

/-- Whose a descriptor is. -/
inductive Holder
  | library
  | socket (i : ℕ)
  | user
  deriving DecidableEq, Repr

/-- The members of a `TcpConnection`. -/
structure Member where
  name : String
  loop : LoopId
  /-- the descriptor of `m_socket` -/
  fd : ℤ
  state : StateE
  reading : Bool
  inputBuffer : Buffer
  outputBuffer : Buffer
  highWaterMark : ℕ
  writeCompleteCallback : Bool
  highWateMarkCallback : Bool
  trace : List Effect

/-- Where a thread is in a call of a connection whose loop is not its own. -/
structure UserCall where
  conn : ℕ
  thread : ℕ
  function : TcpConnection.Call
  /-- `m_state` is set, or is not to be set: there is only the functor left to queue -/
  stored : Bool
  deriving DecidableEq, Repr

structure System where
  ipPort : String
  name : String
  threadPool : EventLoopThreadPool
  nextConnID : BitVec 32
  connections : String → Option ℕ
  /-- the server's `m_writeCompleteCallback` is set -/
  writeCompleteCallback : Bool
  loops : LoopId → Loop
  /-- the number of connections accepted -/
  accepted : ℕ
  conn : ℕ → Member
  alive : ℕ → Bool
  /-- how many `shared_ptr`s the user has to a connection -/
  users : ℕ → ℕ
  /-- the threads that have found the state in order which the function tests -/
  calls : List UserCall
  /-- the open descriptors of the process -/
  fds : ℤ → Option Holder

namespace System

/-- The loop of a connection. -/
def loopOf (s : System) (i : ℕ) : Loop := s.loops (s.conn i).loop

def setLoop (s : System) (l : LoopId) (loop : Loop) : System :=
  { s with loops := Function.update s.loops l loop }

/-! ## Connections -/

/-- A connection, as its functions see it. -/
def view (s : System) (i : ℕ) : TcpConnection ChannelId where
  registry := (s.loopOf i).registry
  functors :=
    ⟨(s.loopOf i).pending.filterMap (Task.functorOf i), (s.loopOf i).batch.filterMap (Task.functorOf i), 0, [], []⟩
  channel := .conn i
  state := (s.conn i).state
  reading := (s.conn i).reading
  inputBuffer := (s.conn i).inputBuffer
  outputBuffer := (s.conn i).outputBuffer
  highWaterMark := (s.conn i).highWaterMark
  writeCompleteCallback := (s.conn i).writeCompleteCallback
  highWateMarkCallback := (s.conn i).highWateMarkCallback
  trace := (s.conn i).trace

/-- What `c` has queued beyond what the connection had in the queue. -/
def queuedBy (s : System) (i : ℕ) (c : TcpConnection ChannelId) : List Functor :=
  c.functors.pending.drop (s.view i).functors.pending.length

/-- The connection `i` becomes `c`, after one of its functions. -/
def put (s : System) (i : ℕ) (c : TcpConnection ChannelId) : System :=
  { s.setLoop (s.conn i).loop { s.loopOf i with
      registry := c.registry
      pending := (s.loopOf i).pending ++ (s.queuedBy i c).map (.functor i) } with
    conn := Function.update s.conn i { s.conn i with
      state := c.state
      reading := c.reading
      inputBuffer := c.inputBuffer
      outputBuffer := c.outputBuffer
      highWaterMark := c.highWaterMark
      writeCompleteCallback := c.writeCompleteCallback
      highWateMarkCallback := c.highWateMarkCallback
      trace := c.trace } }

/-- A pointer to a connection is used. -/
def deref (s : System) (i : ℕ) : Res Unit := if s.alive i then .ok () else .error .noObject

/-- A pointer to a channel is used. -/
def derefChannel (s : System) : ChannelId → Res Unit
  | .conn i => s.deref i
  | _ => .ok ()

/-! ## Loops -/

/-- `EventLoop::queueInLoop` -/
def queueInLoop (s : System) (l : LoopId) (t : Task) : System :=
  s.setLoop l { s.loops l with pending := (s.loops l).pending ++ [t] }

/-- The thread of the loop has something to call first. -/
def callFirst (s : System) (l : LoopId) (items : List Item) : System :=
  s.setLoop l { s.loops l with todo := items ++ (s.loops l).todo }

/-- `handleClose` on the thread of `l`, until it has called `m_connCallback`. -/
def handleClose (l : LoopId) (s : System) (i : ℕ) (c : TcpConnection ChannelId) : Res System := do
  let c ← c.beginClose
  return (s.put i c).callFirst l [.closeCallback i]

/-- A callback of the channel of a connection. -/
def callback (mem : Memory) (l : LoopId) (s : System) (i : ℕ) (readOutcome : ReadOutcome)
    (writeOutcome : WriteOutcome) : Callback → Res System
  | .close => s.handleClose l i (s.view i)
  -- `handleError` only reads the error of the socket
  | .error => .ok s
  | .read => (s.view i).handleReadWith (s.handleClose l i) (s.put i) mem readOutcome
  | .write => do
      let c ← (s.view i).handleWrite writeOutcome
      return s.put i c

/-- `TcpServer::removeConnectionInLoop` -/
def removeConnectionInLoop (s : System) (i : ℕ) : System :=
  { s with connections := Function.update s.connections (s.conn i).name none }.queueInLoop
    (s.conn i).loop (.functor i .connectDestroyed)

/-- A functor is called on the thread of `l`. -/
def runTask (mem : Memory) (l : LoopId) (s : System) (outcome : WriteOutcome) : Task → Res System
  | .connectEstablished i => do
      s.deref i
      let c ← (s.view i).connectEstablished
      return s.put i c
  | .removeConnectionInLoop i => do
      s.deref i
      return s.removeConnectionInLoop i
  | .functor i f => do
      s.deref i
      if f = .forceCloseInLoop then
        ((s.view i).log (.ran .forceCloseInLoop)).forceCloseInLoopWith (s.handleClose l i) (s.put i)
      else do
        let c ← (s.view i).runFunctor mem f outcome
        return s.put i c

/-- `EventLoop::runInLoop` of the loop `l`, on the thread of `t`. -/
def runInLoop (mem : Memory) (t : LoopId) (s : System) (l : LoopId) (task : Task) : Res System :=
  if t = l then s.runTask mem l (.wrote 0) task else .ok (s.queueInLoop l task)

/-- `m_closeCallback`: `TcpServer::removeConnection` on the thread of `l`. -/
def closeCallback (mem : Memory) (l : LoopId) (s : System) (i : ℕ) : Res System := do
  s.deref i
  (s.put i ((s.view i).log .closeCallback)).runInLoop mem l (s.conn i).loop (.removeConnectionInLoop i)

/-! ## Accepting -/

/-- The name of the next connection. -/
def connName (s : System) : String :=
  s.name ++ snprintf 64 ("-" ++ s.ipPort ++ "#" ++ toString s.nextConnID.toInt)

/-- `newConnection`, until the connection is in the table. -/
def construct (s : System) (ioLoop : LoopId) (fd : ℤ) (inputBuffer outputBuffer : Buffer) : System :=
  let connName := s.connName
  let i := s.accepted
  { s.setLoop ioLoop { s.loops ioLoop with
      registry := (s.loops ioLoop).registry.setChannel (.conn i) (Channel.create fd) } with
    nextConnID := s.nextConnID + 1
    connections := Function.update s.connections connName (some i)
    accepted := i + 1
    conn := Function.update s.conn i
      ⟨connName, ioLoop, fd, .kConnecting, true, inputBuffer, outputBuffer, 64 * 1024 * 1024,
        s.writeCompleteCallback, false, []⟩
    alive := Function.update s.alive i true
    users := Function.update s.users i 0
    fds := Function.update s.fds fd (some (.socket i)) }

/-- `TcpServer::newConnection` on the thread of `t`. -/
def newConnection (mem : Memory) (t : LoopId) (s : System) (fd : ℤ) : Res System := do
  let (ioLoop, threadPool) ← s.threadPool.getNextLoop
  let inputBuffer ← Buffer.create mem Buffer.kInitialSize
  let outputBuffer ← Buffer.create mem Buffer.kInitialSize
  let i := s.accepted
  ({ s with threadPool := threadPool }.construct ioLoop fd inputBuffer outputBuffer).runInLoop mem t ioLoop
    (.connectEstablished i)

/-- `Acceptor::handleRead`: the kernel gives a descriptor that is not open, or an error. -/
def acceptorHandleRead (mem : Memory) (l : LoopId) (s : System) : Option ℤ → Res System
  | some fd => if 0 ≤ fd ∧ s.fds fd = none then s.newConnection mem l fd else .error .disabled
  | none => .ok s

/-! ## The end of a connection -/

/-- The table has an entry for the connection. -/
def Held (s : System) (i : ℕ) : Prop := s.connections (s.conn i).name = some i

/-- The user has a `shared_ptr` to the connection, or a thread is in a call of it. -/
def Used (s : System) (i : ℕ) : Prop := 0 < s.users i ∨ i ∈ s.calls.map UserCall.conn

/-- Somebody has a `shared_ptr` to the connection. -/
def Owned (s : System) (i : ℕ) : Prop :=
  s.Held i ∨ i ∈ (s.loopOf i).tasks.map Task.conn ∨ .closeCallback i ∈ (s.loopOf i).todo ∨ s.Used i

instance (s : System) (i : ℕ) : Decidable (s.Held i) := inferInstanceAs (Decidable (_ = _))

instance (s : System) (i : ℕ) : Decidable (s.Used i) := inferInstanceAs (Decidable (_ ∨ _))

instance (s : System) (i : ℕ) : Decidable (s.Owned i) := inferInstanceAs (Decidable (_ ∨ _ ∨ _ ∨ _))

/-- `close(fd)`: the kernel takes the descriptor out of its set. -/
def closeFd (r : Registry ChannelId) (fd : ℤ) : Registry ChannelId :=
  { r with poller := { r.poller with epollSet := Function.update r.poller.epollSet fd none } }

/-- `~TcpConnection`, with the channel and the socket. -/
def destroy (s : System) (i : ℕ) : System :=
  { s.setLoop (s.conn i).loop { s.loopOf i with
      registry := (closeFd (s.loopOf i).registry (s.conn i).fd).setChannel (.conn i)
        (Channel.create (absentFd (.conn i))) } with
    alive := Function.update s.alive i false
    fds := Function.update s.fds (s.conn i).fd none }

/-! ## Calls by other threads -/

/-- A thread is in a call from now on. -/
def enter (s : System) (u : UserCall) : System := { s with calls := s.calls ++ [u] }

/-- A thread is in this call no longer. -/
def leave (s : System) (u : UserCall) : System := { s with calls := s.calls.erase u }

/-! ## Steps -/

inductive Action
  /-- `m_poller->poll`, when `epoll_wait` reports `report` -/
  | poll (l : LoopId) (report : List (ℤ × Finset Event))
  /-- the thread of the loop calls what is next -/
  | next (l : LoopId) (accepted : Option ℤ) (readOutcome : ReadOutcome) (writeOutcome : WriteOutcome)
  /-- the swap in `doPendingFunctors` -/
  | takePending (l : LoopId)
  /-- the next functor of the batch -/
  | nextFunctor (l : LoopId) (outcome : WriteOutcome)
  /-- `doPendingFunctors` returns -/
  | endRound (l : LoopId)
  /-- the user calls a connection on the thread of its loop -/
  | call (i : ℕ) (m : TcpConnection.Call) (outcome : WriteOutcome)
  /-- the thread `n` calls a connection of a loop that is not its own, and tests `m_state` -/
  | test (i n : ℕ) (m : TcpConnection.Call)
  /-- it sets `m_state` -/
  | store (u : UserCall)
  /-- it queues a functor, and returns -/
  | queue (u : UserCall)
  /-- the user takes bytes out of `inputBuffer()` -/
  | retrieveInput (i len : ℕ)
  | setHighWaterMarkCallback (i highWaterMark : ℕ)
  /-- the user copies a `shared_ptr`, and lets one go -/
  | keep (i : ℕ)
  | drop (i : ℕ)
  /-- the last `shared_ptr` is gone -/
  | destroy (i : ℕ)
  /-- the user opens and closes files -/
  | openFd (fd : ℤ)
  | closeFd (fd : ℤ)
  deriving DecidableEq

/-- The callbacks of a channel that are called for the events reported, with those who have none set left
out.  The handlers of `wakeup` and `timer` do nothing that is seen here. -/
def callbacks (revents : Finset Event) : ChannelId → List Item
  | .conn i => (handleEvent revents).map (.callback i)
  | .acceptor => if .read ∈ handleEvent revents then [.accept] else []
  | .wakeup => []
  | .timer => []

/-- The thread of `l` calls `item`, which has been taken from `todo`. -/
def call (mem : Memory) (l : LoopId) (s : System) (accepted : Option ℤ) (readOutcome : ReadOutcome)
    (writeOutcome : WriteOutcome) : Item → Res System
  | .channel ch => do
      s.derefChannel ch
      return s.callFirst l (callbacks ((s.loops l).registry.heap ch).revents ch)
  | .callback i cb => do
      s.deref i
      s.callback mem l i readOutcome writeOutcome cb
  | .accept => s.acceptorHandleRead mem l accepted
  | .closeCallback i => s.closeCallback mem l i

/-- One step of one thread.  The user gets a connection with the first call of the connection callback. -/
def step (mem : Memory) (s : System) : Action → Res System
  | .poll l report =>
      if (s.loops l).phase = .polling ∧ (s.loops l).todo = [] then do
        let events ← (s.loops l).registry.poller.epollWait report
        -- `fillActiveChannels` reads the channels
        events.forM fun e => s.derefChannel e.ptr
        let (registry, active) ← (s.loops l).registry.poll report
        return s.setLoop l { s.loops l with
          registry := registry, phase := .dispatching, todo := active.map .channel }
      else .error .disabled
  | .next l accepted readOutcome writeOutcome =>
      match (s.loops l).todo with
      | [] => .error .disabled
      | item :: rest =>
          (s.setLoop l { s.loops l with todo := rest }).call mem l accepted readOutcome writeOutcome item
  | .takePending l =>
      if (s.loops l).phase = .dispatching ∧ (s.loops l).todo = [] then
        .ok (s.setLoop l { s.loops l with
          pending := [], batch := (s.loops l).pending, called := [], phase := .draining })
      else .error .disabled
  | .nextFunctor l outcome =>
      if (s.loops l).phase = .draining ∧ (s.loops l).todo = [] then
        match (s.loops l).batch with
        | [] => .error .disabled
        | t :: rest =>
            (s.setLoop l { s.loops l with batch := rest, called := (s.loops l).called ++ [t] }).runTask mem l
              outcome t
      else .error .disabled
  | .endRound l =>
      if (s.loops l).phase = .draining ∧ (s.loops l).todo = [] ∧ (s.loops l).batch = [] then
        .ok (s.setLoop l { s.loops l with called := [], phase := .polling })
      else .error .disabled
  | .call i m outcome =>
      if s.alive i ∧ (s.conn i).state ≠ .kConnecting then do
        let c ← (s.view i).call mem .loop outcome m
        return s.put i c
      else .error .disabled
  | .test i n m =>
      if (s.alive i ∧ (s.conn i).state ≠ .kConnecting) ∧ n ∉ s.calls.map UserCall.thread then
        if (s.view i).passes m then .ok (s.enter ⟨i, n, m, !m.setsState⟩) else .ok s
      else .error .disabled
  | .store u =>
      if u ∈ s.calls ∧ u.stored = false then do
        s.deref u.conn
        return ((s.leave u).enter { u with stored := true }).put u.conn
          ((s.view u.conn).sets u.function)
      else .error .disabled
  | .queue u =>
      if u ∈ s.calls ∧ u.stored = true then do
        s.deref u.conn
        return (s.leave u).put u.conn ((s.view u.conn).posts u.thread u.function)
      else .error .disabled
  | .retrieveInput i len =>
      if s.alive i ∧ (s.conn i).state ≠ .kConnecting then do
        let inputBuffer ← (s.view i).inputBuffer.retrieve len
        return s.put i { s.view i with inputBuffer := inputBuffer }
      else .error .disabled
  | .setHighWaterMarkCallback i highWaterMark =>
      if s.alive i ∧ (s.conn i).state ≠ .kConnecting then
        .ok (s.put i { s.view i with highWaterMark := highWaterMark, highWateMarkCallback := true })
      else .error .disabled
  | .keep i =>
      if s.alive i ∧ (s.conn i).state ≠ .kConnecting then
        .ok { s with users := Function.update s.users i (s.users i + 1) }
      else .error .disabled
  | .drop i => .ok { s with users := Function.update s.users i (s.users i - 1) }
  | .destroy i => if s.alive i ∧ ¬ s.Owned i then .ok (s.destroy i) else .error .disabled
  | .openFd fd =>
      if 0 ≤ fd ∧ s.fds fd = none then .ok { s with fds := Function.update s.fds fd (some .user) }
      else .error .disabled
  | .closeFd fd =>
      if s.fds fd = some .user then .ok { s with fds := Function.update s.fds fd none } else .error .disabled

end System

end Seenet
