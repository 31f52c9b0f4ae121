import Seenet.EventLoopThreadPool
import Seenet.Lib.Machine
import Seenet.TcpConnection.Basic
import Seenet.Util.InetAddress

/-!
# `TcpServer`

The server, the loops it hands connections to, and what of a connection concerns the server: its name,
its loop and its state.  A function is given the thread that runs it (`t`).  `assertInLoopThread` does
nothing on the wrong thread, since `abortNotInLoopThread` is empty.

`mutations` is not in the source.  It records every insertion into `m_connections` and every erasure,
with the thread that made it.
-/

namespace Seenet

/-- What the server and its connections give a loop to run.  A connection is given by its number. -/
inductive TcpServer.Functor
  | connectEstablished (conn : ℕ)
  | removeConnectionInLoop (conn : ℕ)
  | connectDestroyed (conn : ℕ)
  deriving DecidableEq, Repr

/-- A change of `m_connections`. -/
inductive TcpServer.Mutation
  | insert (name : String)
  | erase (name : String)
  deriving DecidableEq, Repr

/-- What the server knows of a `TcpConnection`. -/
structure TcpServer.Connection where
  name : String
  loop : LoopId
  state : StateE
  deriving DecidableEq, Repr

structure TcpServer where
  ipPort : String
  name : String
  threadPool : EventLoopThreadPool
  /-- how often `start` has been called; that `m_started` has 32 bits is part of `Starting` only -/
  started : ℕ
  nextConnID : BitVec 32
  connections : String → Option ℕ
  /-- the number of connections accepted -/
  accepted : ℕ
  conn : ℕ → TcpServer.Connection
  /-- the functors of every loop -/
  functors : LoopId → BatchQueue TcpServer.Functor
  mutations : List (TcpServer.Mutation × LoopId)

namespace TcpServer

/-- `m_loop`, the base loop of the pool -/
def loop : LoopId := .base

/-- `TcpServer::TcpServer` -/
def create (ipPort name : String) : TcpServer where
  ipPort := ipPort
  name := name
  threadPool := .create
  started := 0
  nextConnID := 1
  connections := fun _ => none
  accepted := 0
  conn := fun _ => ⟨"", loop, .kConnecting⟩
  functors := fun _ => .empty
  mutations := []

def setThreadNum (s : TcpServer) (numThreads : ℕ) : TcpServer :=
  { s with threadPool := s.threadPool.setThreadNum numThreads }

/-- `TcpServer::start`, but for the acceptor. -/
def start (s : TcpServer) : Res TcpServer := do
  let s' := { s with started := s.started + 1 }
  if s.started = 0 then
    let threadPool ← s'.threadPool.start
    return { s' with threadPool := threadPool }
  else return s'

/-! ## Connections -/

def setState (s : TcpServer) (i : ℕ) (state : StateE) : TcpServer :=
  { s with conn := Function.update s.conn i { s.conn i with state := state } }

def queueInLoop (s : TcpServer) (l : LoopId) (f : Functor) : TcpServer :=
  { s with functors := Function.update s.functors l ((s.functors l).push f) }

/-- `m_connections[name] = conn` -/
def insert (t : LoopId) (s : TcpServer) (name : String) (i : ℕ) : TcpServer :=
  { s with
    connections := Function.update s.connections name (some i)
    mutations := s.mutations ++ [(.insert name, t)] }

/-- `m_connections.erase(name)` -/
def erase (t : LoopId) (s : TcpServer) (name : String) : TcpServer :=
  { s with
    connections := Function.update s.connections name none
    mutations := s.mutations ++ [(.erase name, t)] }

/-- `TcpConnection::connectEstablished` -/
def connectEstablished (s : TcpServer) (i : ℕ) : Res TcpServer := do
  assertThat ((s.conn i).state = .kConnecting) .connectEstablished
  return s.setState i .kConnected

/-- `TcpConnection::connectDestroyed` -/
def connectDestroyed (s : TcpServer) (i : ℕ) : TcpServer :=
  if (s.conn i).state = .kConnected then s.setState i .kDisconnected else s

def removeConnectionInLoop (t : LoopId) (s : TcpServer) (i : ℕ) : TcpServer :=
  (s.erase t (s.conn i).name).queueInLoop (s.conn i).loop (.connectDestroyed i)

/-- A functor is run. -/
def runFunctor (t : LoopId) (s : TcpServer) : Functor → Res TcpServer
  | .connectEstablished i => s.connectEstablished i
  | .removeConnectionInLoop i => .ok (s.removeConnectionInLoop t i)
  | .connectDestroyed i => .ok (s.connectDestroyed i)

/-- `EventLoop::runInLoop` of the loop `l`. -/
def runInLoop (t : LoopId) (s : TcpServer) (l : LoopId) (f : Functor) : Res TcpServer :=
  if t = l then s.runFunctor t f else .ok (s.queueInLoop l f)

def removeConnection (t : LoopId) (s : TcpServer) (i : ℕ) : Res TcpServer :=
  s.runInLoop t (s.conn i).loop (.removeConnectionInLoop i)

/-- `TcpConnection::handleClose`, with `m_closeCallback` bound to `removeConnection`. -/
def handleClose (t : LoopId) (s : TcpServer) (i : ℕ) : Res TcpServer := do
  assertThat ((s.conn i).state = .kConnected ∨ (s.conn i).state = .kDisconnecting) .handleClose
  (s.setState i .kDisconnected).removeConnection t i

/-- The name of the next connection. -/
def connName (s : TcpServer) : String :=
  s.name ++ snprintf 64 ("-" ++ s.ipPort ++ "#" ++ toString s.nextConnID.toInt)

/-- `newConnection`, from the name on: the connection is constructed and put into the table. -/
def construct (t : LoopId) (s : TcpServer) (ioLoop : LoopId) : TcpServer :=
  let connName := s.connName
  let i := s.accepted
  let s := { s with
    nextConnID := s.nextConnID + 1
    accepted := i + 1
    conn := Function.update s.conn i ⟨connName, ioLoop, .kConnecting⟩ }
  s.insert t connName i

def newConnection (t : LoopId) (s : TcpServer) : Res TcpServer := do
  let (ioLoop, threadPool) ← s.threadPool.getNextLoop
  let i := s.accepted
  let s := { s with threadPool := threadPool }
  (s.construct t ioLoop).runInLoop t ioLoop (.connectEstablished i)

/-! ## Runs -/

inductive Action
  /-- the acceptor, which is on `m_loop`, accepts a connection -/
  | accept
  /-- a connection is closed, by an event or a functor of its loop -/
  | handleClose (conn : ℕ)
  /-- the swap in `doPendingFunctors` of a loop -/
  | takePending (l : LoopId)
  /-- the next functor of the batch of a loop -/
  | nextFunctor (l : LoopId)
  deriving DecidableEq, Repr

/-- One step of one thread.  A connection has no events before it is established. -/
def step (s : TcpServer) : Action → Res TcpServer
  | .accept => s.newConnection loop
  | .handleClose i =>
      if (s.conn i).state = .kConnecting then .error .disabled
      else s.handleClose (s.conn i).loop i
  | .takePending l =>
      if (s.functors l).batch = [] then
        .ok { s with functors := Function.update s.functors l (s.functors l).take }
      else .error .disabled
  | .nextFunctor l =>
      match (s.functors l).batch with
      | [] => .error .disabled
      | f :: rest =>
          let s := { s with functors := Function.update s.functors l ((s.functors l).start f rest) }
          s.runFunctor l f

/-- A server that has been started with `numThreads` threads. -/
def serving (ipPort name : String) (numThreads : ℕ) : TcpServer :=
  match ((create ipPort name).setThreadNum numThreads).start with
  | .ok s => s
  | .error _ => create ipPort name

end TcpServer

end Seenet
