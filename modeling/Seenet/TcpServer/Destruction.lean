import Seenet.TcpServer.Table

/-!
# The destruction of the server

`~TcpServer` runs on the thread of `m_loop`.  It goes through `m_connections`, copies and resets each entry and
gives `connectDestroyed` to the loop of the connection; then its members are destroyed, where the pool waits for
its threads to end, unless somebody else has a reference to it.  Meanwhile the loops of the pool go on: between
any two statements of the destructor, and after it, a connection may be closed as usual, and the close callback is
still bound to the server.  It erases the entry, which may be the one the destructor's iterator is at.  (The table
is the first of the members to go, so a close while the pool waits is undefined behaviour by itself.)

`m_connections` has no lock.  Every single access to it is taken to be indivisible here, whichever thread makes it.

Some of the state is not in the source: `closeCalls` records every call of a connection's close callback and
how far the destructor was, and `destroyed` the connections `connectDestroyed` was run for.

* `Safe` — no close callback after the destructor's end, and `connectDestroyed` at most once for a
  connection.
* `ClosesHeld` — a connection that is closed still has its entry, and the destructor is not at it.
* `Accounted` — the invariant: a connection is in the table, or its `connectDestroyed` is queued, or it has
  been run, and only one of these.
* **`safe_of_closesHeld`** — a run where no other connection is closed is safe, and uses no entry that is erased.
* **`destruction_not_safe`** — three runs where the destructor has been there first.
-/

namespace Seenet

namespace TcpServer

/-! ## What is done for a connection in the end -/

variable {s s' : TcpServer} {destroyed : List ℕ} {numThreads i : ℕ} {l t : LoopId}

/-- The table has an entry for the connection. -/
def Held (s : TcpServer) (i : ℕ) : Prop := s.connections (s.conn i).name = some i

instance : Decidable (s.Held i) := inferInstanceAs (Decidable (_ = _))

/-- What is queued on a loop, or left of its batch. -/
def queued (s : TcpServer) (l : LoopId) : List Functor := (s.functors l).batch ++ (s.functors l).pending

/-- What is still to be done for a connection, or has been done. -/
def tickets (s : TcpServer) (destroyed : List ℕ) (i : ℕ) : ℕ :=
  destroyed.count i + (s.queued (s.conn i).loop).count (.connectDestroyed i) + if s.Held i then 1 else 0

/-- Each connection is in the table, or its `connectDestroyed` is queued on its loop, or has been run. -/
structure Accounted (s : TcpServer) (destroyed : List ℕ) : Prop where
  entries : ∀ name i, s.connections name = some i → i < s.accepted ∧ (s.conn i).name = name
  placed : ∀ l i, .connectDestroyed i ∈ s.queued l → i < s.accepted ∧ l = (s.conn i).loop
  past : ∀ i ∈ destroyed, i < s.accepted
  tickets_le : ∀ i, s.tickets destroyed i ≤ 1

lemma setState_name (s : TcpServer) (i : ℕ) (state : StateE) (j : ℕ) :
    ((s.setState i state).conn j).name = (s.conn j).name := by
  rcases eq_or_ne j i with rfl | hne
  · simp only [setState, Function.update_self]
  · simp only [setState, Function.update_of_ne hne]

lemma setState_loop (s : TcpServer) (i : ℕ) (state : StateE) (j : ℕ) :
    ((s.setState i state).conn j).loop = (s.conn j).loop := by
  rcases eq_or_ne j i with rfl | hne
  · simp only [setState, Function.update_self]
  · simp only [setState, Function.update_of_ne hne]

/-- The states of the connections do not matter, nor how the queues are divided into batches. -/
lemma Accounted.congr (h : s.Accounted destroyed) (haccepted : s'.accepted = s.accepted)
    (hconnections : s'.connections = s.connections)
    (hname : ∀ j, (s'.conn j).name = (s.conn j).name)
    (hloop : ∀ j, (s'.conn j).loop = (s.conn j).loop) (hqueued : ∀ l, s'.queued l = s.queued l) :
    s'.Accounted destroyed where
  entries name i := by
    rw [hconnections, haccepted, hname]
    exact h.entries name i
  placed l i := by
    rw [hqueued, haccepted, hloop]
    exact h.placed l i
  past := by
    rw [haccepted]
    exact h.past
  tickets_le i := by
    have hle := h.tickets_le i
    simp only [tickets, Held, hconnections, hname, hloop, hqueued] at hle ⊢
    exact hle

lemma Accounted.setState (h : s.Accounted destroyed) (i : ℕ) (state : StateE) :
    (s.setState i state).Accounted destroyed :=
  h.congr rfl rfl (setState_name s i state) (setState_loop s i state) fun _ => rfl

@[simp] lemma setState_held {state : StateE} {j : ℕ} : (s.setState i state).Held j ↔ s.Held j := by
  rw [Held, Held, setState_name]
  rfl

/-- Nothing is known of a connection that has not been accepted. -/
lemma Accounted.tickets_new (h : s.Accounted destroyed) (hi : s.accepted ≤ i) (l : LoopId) :
    destroyed.count i = 0 ∧ (s.queued l).count (.connectDestroyed i) = 0 ∧ ¬ s.Held i := by
  refine ⟨?_, ?_, ?_⟩
  · exact List.count_eq_zero.mpr fun hmem => absurd (h.past i hmem) (Nat.not_lt.mpr hi)
  · exact List.count_eq_zero.mpr fun hmem => absurd (h.placed l i hmem).1 (Nat.not_lt.mpr hi)
  · exact fun hheld => absurd (h.entries _ i hheld).1 (Nat.not_lt.mpr hi)

/-- `newConnection` queues no `connectDestroyed`. -/
lemma Accepts.queued_eq (haccepts : Accepts s s') (l : LoopId) :
    s'.queued l = s.queued l ∨ s'.queued l = s.queued l ++ [.connectEstablished s.accepted] := by
  rcases haccepts.functors with hfunctors | ⟨l', hfunctors⟩
  · left
    rw [queued, queued, hfunctors]
  · rcases eq_or_ne l l' with rfl | hne
    · right
      simp only [queued, hfunctors, Function.update_self, BatchQueue.push, List.append_assoc]
    · left
      rw [queued, queued, hfunctors, Function.update_of_ne hne]

lemma Accepts.count_queued (haccepts : Accepts s s') (l : LoopId) (i : ℕ) :
    (s'.queued l).count (.connectDestroyed i) = (s.queued l).count (.connectDestroyed i) := by
  rcases haccepts.queued_eq l with heq | heq
  · rw [heq]
  · rw [heq, List.count_append, List.count_singleton]
    simp

lemma Accounted.newConnection (h : s.Accounted destroyed) (haccepts : Accepts s s') :
    s'.Accounted destroyed where
  entries name i hentry := by
    rw [haccepts.connections] at hentry
    rw [haccepts.accepted]
    by_cases hname : name = s.connName
    · rw [hname, Function.update_self, Option.some.injEq] at hentry
      rw [← hentry, hname]
      exact ⟨Nat.lt_succ_self _, haccepts.conn_name_self⟩
    · rw [Function.update_of_ne hname] at hentry
      obtain ⟨hi, hi'⟩ := h.entries name i hentry
      exact ⟨Nat.lt_succ_of_lt hi, by rwa [haccepts.conn_of_ne hi.ne]⟩
  placed l i hmem := by
    have hold : .connectDestroyed i ∈ s.queued l := by
      rw [← List.count_pos_iff, haccepts.count_queued, List.count_pos_iff] at hmem
      exact hmem
    obtain ⟨hi, hl⟩ := h.placed l i hold
    rw [haccepts.accepted, haccepts.conn_of_ne hi.ne]
    exact ⟨Nat.lt_succ_of_lt hi, hl⟩
  past i hi := by
    rw [haccepts.accepted]
    exact Nat.lt_succ_of_lt (h.past i hi)
  tickets_le i := by
    rw [tickets, haccepts.count_queued]
    rcases eq_or_ne i s.accepted with rfl | hne
    · obtain ⟨hdestroyed, hqueued, -⟩ := h.tickets_new (le_refl _) (s'.conn s.accepted).loop
      rw [hdestroyed, hqueued]
      split_ifs <;> omega
    · have hle := h.tickets_le i
      rw [tickets] at hle
      have hheld : s'.Held i → s.Held i := by
        intro hheld
        rw [Held, haccepts.connections, haccepts.conn_of_ne hne] at hheld
        by_cases hname : (s.conn i).name = s.connName
        · rw [hname, Function.update_self, Option.some.injEq] at hheld
          exact absurd hheld.symm hne
        · rwa [Function.update_of_ne hname] at hheld
      rw [haccepts.conn_of_ne hne]
      split_ifs at hle ⊢ with hnew hold hold
      · exact hle
      · exact absurd (hheld hnew) hold
      · omega
      · exact hle

@[simp] lemma erase_conn (s : TcpServer) (t : LoopId) (name : String) :
    (s.erase t name).conn = s.conn := rfl

@[simp] lemma erase_queued (s : TcpServer) (t : LoopId) (name : String) (l : LoopId) :
    (s.erase t name).queued l = s.queued l := rfl

lemma erase_not_held (s : TcpServer) (t : LoopId) (i : ℕ) :
    ¬ (s.erase t (s.conn i).name).Held i := by
  simp [Held, erase]

/-- **The entry of a connection is taken away.** -/
lemma Accounted.erase (h : s.Accounted destroyed) (hheld : s.Held i) (t : LoopId) :
    (s.erase t (s.conn i).name).Accounted destroyed ∧
      (s.erase t (s.conn i).name).tickets destroyed i = 0 := by
  have hsub : ∀ name j, (s.erase t (s.conn i).name).connections name = some j →
      s.connections name = some j := by
    intro name j hentry
    by_cases hname : name = (s.conn i).name
    · rw [hname] at hentry
      exact absurd hentry (by simp [TcpServer.erase])
    · simpa only [TcpServer.erase, Function.update_of_ne hname] using hentry
  have hle : ∀ j, (s.erase t (s.conn i).name).tickets destroyed j ≤ s.tickets destroyed j := by
    intro j
    have hheld' : (s.erase t (s.conn i).name).Held j → s.Held j := hsub _ j
    rw [tickets, tickets, erase_conn, erase_queued]
    split_ifs with h₁ h₂
    · exact le_refl _
    · exact absurd (hheld' h₁) h₂
    · omega
    · exact le_refl _
  refine ⟨⟨fun name j hentry => h.entries name j (hsub name j hentry), h.placed, h.past,
    fun j => (hle j).trans (h.tickets_le j)⟩, ?_⟩
  have hone := h.tickets_le i
  rw [tickets, if_pos hheld] at hone
  rw [tickets, if_neg (s.erase_not_held t i), erase_conn, erase_queued]
  omega

@[simp] lemma queueInLoop_conn (s : TcpServer) (l : LoopId) (f : Functor) :
    (s.queueInLoop l f).conn = s.conn := rfl

@[simp] lemma queueInLoop_held {f : Functor} : (s.queueInLoop l f).Held i ↔ s.Held i := Iff.rfl

lemma queued_queueInLoop (s : TcpServer) (l l' : LoopId) (f : Functor) :
    (s.queueInLoop l f).queued l' = s.queued l' ++ if l' = l then [f] else [] := by
  split_ifs with hl
  · rw [hl]
    simp only [queued, queueInLoop, Function.update_self, BatchQueue.push, List.append_assoc]
  · simp only [queued, queueInLoop, Function.update_of_ne hl, List.append_nil]

/-- `connectDestroyed` is queued. -/
lemma Accounted.queueInLoop (h : s.Accounted destroyed) (hi : i < s.accepted)
    (hnone : s.tickets destroyed i = 0) :
    (s.queueInLoop (s.conn i).loop (.connectDestroyed i)).Accounted destroyed := by
  refine ⟨h.entries, ?_, h.past, ?_⟩
  · intro l j hmem
    rw [queued_queueInLoop, List.mem_append] at hmem
    rcases hmem with hmem | hmem
    · exact h.placed l j hmem
    · split_ifs at hmem with hl
      · rw [List.mem_singleton, Functor.connectDestroyed.injEq] at hmem
        rw [hmem]
        exact ⟨hi, hl⟩
      · simp at hmem
  · intro j
    rw [tickets, queueInLoop_conn, queued_queueInLoop, List.count_append]
    simp only [queueInLoop_held]
    have hle := h.tickets_le j
    rcases eq_or_ne j i with rfl | hne
    · rw [tickets] at hnone
      rw [if_pos rfl, List.count_singleton_self]
      omega
    · have hzero : (if (s.conn j).loop = (s.conn i).loop then [Functor.connectDestroyed i]
          else []).count (.connectDestroyed j) = 0 := by
        split_ifs
        · rw [List.count_singleton]
          simp [hne.symm]
        · rfl
      rw [tickets] at hle
      rw [hzero]
      omega

/-- Only how often a connection has been destroyed matters. -/
lemma Accounted.perm {destroyed' : List ℕ} (h : s.Accounted destroyed) (hperm : destroyed.Perm destroyed') :
    s.Accounted destroyed' where
  entries := h.entries
  placed := h.placed
  past i hi := h.past i (hperm.mem_iff.mpr hi)
  tickets_le i := by
    have hle := h.tickets_le i
    rwa [tickets, hperm.count_eq] at hle

/-- `connectDestroyed` of the connection `i` is in hand. -/
lemma Accounted.in_hand (h : s.Accounted (destroyed ++ [i])) :
    s.Accounted destroyed ∧ s.tickets destroyed i = 0 := by
  have hcount : ∀ j, s.tickets (destroyed ++ [i]) j = s.tickets destroyed j + [i].count j := by
    intro j
    rw [tickets, tickets, List.count_append]
    omega
  refine ⟨⟨h.entries, h.placed, fun j hj => h.past j (List.mem_append_left _ hj), fun j => ?_⟩, ?_⟩
  · have hle := h.tickets_le j
    rw [hcount] at hle
    omega
  · have hle := h.tickets_le i
    rw [hcount, List.count_singleton_self] at hle
    omega

/-- `connectDestroyed` is run. -/
lemma Accounted.ran (h : s.Accounted destroyed) (hi : i < s.accepted)
    (hnone : s.tickets destroyed i = 0) : s.Accounted (destroyed ++ [i]) := by
  refine ⟨h.entries, h.placed, ?_, ?_⟩
  · intro j hj
    rcases List.mem_append.mp hj with hj | hj
    · exact h.past j hj
    · rwa [List.mem_singleton.mp hj]
  · intro j
    have hle := h.tickets_le j
    rw [tickets] at hnone hle ⊢
    rw [List.count_append]
    rcases eq_or_ne j i with rfl | hne
    · rw [List.count_singleton_self]
      omega
    · rw [List.count_singleton, beq_false_of_ne hne.symm]
      simpa using hle

/-- A functor is taken from the batch. -/
lemma Accounted.start (h : s.Accounted destroyed) {f : Functor} {rest : List Functor}
    (hbatch : (s.functors l).batch = f :: rest) :
    Accounted { s with
      functors := Function.update s.functors l ((s.functors l).start f rest) } destroyed ∧
    ∀ i, f = .connectDestroyed i → tickets { s with
      functors := Function.update s.functors l ((s.functors l).start f rest) } destroyed i = 0 := by
  set s₁ : TcpServer := { s with
    functors := Function.update s.functors l ((s.functors l).start f rest) } with hs₁
  have hself : s.queued l = f :: s₁.queued l := by
    simp only [queued, hs₁, Function.update_self, BatchQueue.start, hbatch, List.cons_append]
  have hother : ∀ l', l' ≠ l → s₁.queued l' = s.queued l' := by
    intro l' hne
    simp only [queued, hs₁, Function.update_of_ne hne]
  have hsub : ∀ l', (s₁.queued l').Sublist (s.queued l') := by
    intro l'
    rcases eq_or_ne l' l with rfl | hne
    · rw [hself]
      exact List.sublist_cons_self ..
    · rw [hother l' hne]
  have hle : ∀ j, s₁.tickets destroyed j ≤ s.tickets destroyed j := by
    intro j
    have hcount := (hsub (s.conn j).loop).count_le (Functor.connectDestroyed j)
    have htickets : s₁.tickets destroyed j = destroyed.count j +
      (s₁.queued (s.conn j).loop).count (.connectDestroyed j) + if s.Held j then 1 else 0 := rfl
    rw [htickets, tickets]
    omega
  refine ⟨⟨h.entries, fun l' j hmem => h.placed l' j ((hsub l').subset hmem), h.past,
    fun j => (hle j).trans (h.tickets_le j)⟩, ?_⟩
  rintro i rfl
  -- it was counted in the queue of its loop
  have hl := (h.placed l i (by rw [hself]; exact List.mem_cons_self)).2
  have hone := h.tickets_le i
  have htickets : s₁.tickets destroyed i = destroyed.count i +
    (s₁.queued (s.conn i).loop).count (.connectDestroyed i) + if s.Held i then 1 else 0 := rfl
  rw [tickets, ← hl, hself, List.count_cons_self] at hone
  rw [htickets, ← hl]
  omega

/-- A functor that does not change the table sets a state at most. -/
lemma Harmless.runFunctor_eq {f : Functor} (hf : s.Harmless f) (hok : s.runFunctor t f = .ok s') :
    s' = s ∨ ∃ i state, s' = s.setState i state := by
  cases f with
  | connectEstablished i =>
      simp only [runFunctor, connectEstablished, bind_eq_ok, pure_eq_ok, Except.ok.injEq] at hok
      obtain ⟨-, -, rfl⟩ := hok
      exact Or.inr ⟨i, _, rfl⟩
  | removeConnectionInLoop i => exact absurd hf id
  | connectDestroyed i =>
      rw [runFunctor, Except.ok.injEq, connectDestroyed] at hok
      rw [← hok]
      split_ifs
      · exact Or.inr ⟨i, _, rfl⟩
      · exact Or.inl rfl

end TcpServer

/-! ## The machine -/

/-- The connections `connectDestroyed` is run for. -/
def TcpServer.Functor.destroys : TcpServer.Functor → List ℕ
  | .connectDestroyed i => [i]
  | _ => []

/-- How far `~TcpServer` is. -/
inductive Destruction.Phase
  /-- the server is in use -/
  | serving
  /-- in the loop over `m_connections` -/
  | visiting
  /-- the members are destroyed -/
  | joining
  | finished
  deriving DecidableEq, Repr

/-- What the destructor does next at an entry. -/
inductive Destruction.Statement
  /-- `TcpConnection_sPt conn(item.second)` -/
  | copy
  /-- `item.second.reset()` -/
  | reset
  /-- `conn->getLoop()->runInLoop(...)` -/
  | post
  /-- the iterator goes on -/
  | next
  deriving DecidableEq, Repr

/-- The entry the destructor is at. -/
structure Destruction.Item where
  conn : ℕ
  statement : Destruction.Statement
  /-- the entry has been erased since -/
  erased : Bool
  deriving DecidableEq, Repr

structure Destruction where
  server : TcpServer
  phase : Destruction.Phase
  item : Option Destruction.Item
  /-- somebody else has a reference to the pool -/
  poolShared : Bool
  /-- the threads of the pool whose loop has ended -/
  ended : List ℕ
  closeCalls : List (ℕ × Destruction.Phase)
  destroyed : List ℕ

namespace Destruction

open TcpServer (Serves Accounted Accepts)

/-- A server that has been started with `numThreads` threads. -/
def create (ipPort name : String) (numThreads : ℕ) (poolShared : Bool) : Destruction where
  server := .serving ipPort name numThreads
  phase := .serving
  item := none
  poolShared := poolShared
  ended := []
  closeCalls := []
  destroyed := []

/-- The loop goes on.  While the destructor runs, the thread of `m_loop` does nothing else. -/
def running (s : Destruction) : LoopId → Bool
  | .base => s.phase = .serving ∨ s.phase = .finished
  | .io k => k ∉ s.ended

/-- The function `f` is run, on the thread `t`. -/
def runFunctor (s : Destruction) (t : LoopId) (f : TcpServer.Functor) : Res Destruction := do
  let server ← s.server.runFunctor t f
  return { s with server := server, destroyed := s.destroyed ++ f.destroys }

/-- `EventLoop::runInLoop` of the loop `l`. -/
def runInLoop (s : Destruction) (t : LoopId) (l : LoopId) (f : TcpServer.Functor) : Res Destruction :=
  if t = l then s.runFunctor t f
  else .ok { s with server := s.server.queueInLoop l f }

/-- The entry with this name is erased; the iterator of the destructor may be at it. -/
def eraseItem (s : Destruction) (name : String) : Option Item :=
  s.item.map fun x => if (s.server.conn x.conn).name = name then { x with erased := true } else x

/-- `m_closeCallback`, which is bound to `removeConnection` of the server.  If that is no more, the call is
undefined, and only recorded. -/
def closeCallback (s : Destruction) (i : ℕ) : Res Destruction := do
  let s := { s with closeCalls := s.closeCalls ++ [(i, s.phase)] }
  if s.phase = .finished then return s
  -- `m_connections` is the first of the members to be destroyed
  else if s.phase = .joining then throw .noObject
  else
    let server ← s.server.removeConnection (s.server.conn i).loop i
    return { s with server := server, item := s.eraseItem (s.server.conn i).name }

/-- `TcpConnection::handleClose` -/
def handleClose (s : Destruction) (i : ℕ) : Res Destruction := do
  assertThat ((s.server.conn i).state = .kConnected ∨ (s.server.conn i).state = .kDisconnecting)
    .handleClose
  closeCallback { s with server := s.server.setState i .kDisconnected } i

/-- `item.second.reset()` in the entry of a connection. -/
def reset (s : Destruction) (i : ℕ) : Destruction :=
  { s with server := { s.server with
    connections := Function.update s.server.connections (s.server.conn i).name none } }

/-- The next statement of the destructor, which is at the entry `x`. -/
def visit (s : Destruction) (x : Item) : Res Destruction :=
  match x.statement with
  | .copy =>
      if x.erased then .error .noObject else .ok { s with item := some { x with statement := .reset } }
  | .reset =>
      if x.erased then .error .noObject
      else .ok { s.reset x.conn with item := some { x with statement := .post } }
  -- `conn` is a copy, so the entry is not needed
  | .post =>
      runInLoop { s with item := some { x with statement := .next } } TcpServer.loop
        (s.server.conn x.conn).loop (.connectDestroyed x.conn)
  | .next => if x.erased then .error .noObject else .ok { s with item := none }

inductive Action
  /-- the acceptor, which is on `m_loop`, accepts a connection -/
  | accept
  /-- a thread that has found the state `kConnected`, in `shutdown` or `forceClose`, changes it -/
  | setDisconnecting (conn : ℕ)
  /-- a connection is closed, by an event or a functor of its loop -/
  | handleClose (conn : ℕ)
  /-- the swap in `doPendingFunctors` of a loop -/
  | takePending (l : LoopId)
  /-- the next functor of the batch of a loop -/
  | nextFunctor (l : LoopId)
  /-- `loop()` of a thread of the pool returns -/
  | endLoop (k : ℕ)
  | beginDestructor
  /-- the iterator of the destructor comes to an entry -/
  | arrive (conn : ℕ)
  /-- the next statement at this entry -/
  | visit
  /-- there are no connections left to visit -/
  | endVisits
  | endDestructor
  deriving DecidableEq, Repr

/-- One step of one thread.  The destructor visits the entries in the order of their names; here it may
take any order. -/
def step (s : Destruction) : Action → Res Destruction
  | .accept =>
      if s.phase = .serving then do
        let server ← s.server.newConnection TcpServer.loop
        return { s with server := server }
      else .error .disabled
  | .setDisconnecting i =>
      if (s.server.conn i).state ≠ .kConnecting then
        .ok { s with server := s.server.setState i .kDisconnecting }
      else .error .disabled
  | .handleClose i =>
      if s.running (s.server.conn i).loop ∧ (s.server.conn i).state ≠ .kConnecting then s.handleClose i
      else .error .disabled
  | .takePending l =>
      if s.running l ∧ (s.server.functors l).batch = [] then
        .ok { s with server := { s.server with
          functors := Function.update s.server.functors l (s.server.functors l).take } }
      else .error .disabled
  | .nextFunctor l =>
      if s.running l then
        match (s.server.functors l).batch with
        | [] => .error .disabled
        | f :: rest =>
            let server := { s.server with
              functors := Function.update s.server.functors l ((s.server.functors l).start f rest) }
            runFunctor { s with server := server } l f
      else .error .disabled
  | .endLoop k =>
      if (s.server.functors (.io k)).batch = [] then .ok { s with ended := k :: s.ended }
      else .error .disabled
  | .beginDestructor =>
      if s.phase = .serving then .ok { s with phase := .visiting } else .error .disabled
  | .arrive i =>
      if s.phase = .visiting ∧ s.item = none ∧ s.server.Held i then
        .ok { s with item := some ⟨i, .copy, false⟩ }
      else .error .disabled
  | .visit =>
      match s.item with
      | none => .error .disabled
      | some x => s.visit x
  | .endVisits =>
      if s.phase = .visiting ∧ s.item = none ∧ ∀ i < s.server.accepted, ¬ s.server.Held i then
        .ok { s with phase := .joining }
      else .error .disabled
  | .endDestructor =>
      if s.phase = .joining ∧
          (s.poolShared ∨ ∀ k < s.server.threadPool.numThreads, k ∈ s.ended) then
        .ok { s with phase := .finished }
      else .error .disabled

/-! ## Safety -/

/-- No close callback after the destructor has finished, and `connectDestroyed` at most once for a
connection. -/
def Safe (s : Destruction) : Prop := (∀ c ∈ s.closeCalls, c.2 ≠ .finished) ∧ s.destroyed.Nodup

/-- A connection that is closed still has its entry: the destructor has not come to it and is not at it, and it
has not been closed before. -/
def ClosesHeld (s : Destruction) : Action → Prop
  | .handleClose i => s.server.Held i ∧ ∀ x ∈ s.item, x.conn ≠ i
  | _ => True

instance (s : Destruction) (a : Action) : Decidable (s.ClosesHeld a) :=
  match a with
  | .handleClose i => inferInstanceAs (Decidable (s.server.Held i ∧ ∀ x ∈ s.item, x.conn ≠ i))
  | .accept | .setDisconnecting _ | .takePending _ | .nextFunctor _ | .endLoop _ | .beginDestructor
  | .arrive _ | .visit | .endVisits | .endDestructor => .isTrue trivial

/-- The connection whose entry has been reset and whose `connectDestroyed` is not posted yet. -/
def hand (s : Destruction) : List ℕ :=
  match s.item with
  | none => []
  | some x => if x.statement = .post then [x.conn] else []

/-- The entry the destructor is at is there.  It has the connection until `reset`, and nothing after it. -/
structure At (s : Destruction) (x : Item) : Prop where
  visiting : s.phase = .visiting
  there : x.erased = false
  lt_accepted : x.conn < s.server.accepted
  entry : s.server.connections (s.server.conn x.conn).name
    = if x.statement = .copy ∨ x.statement = .reset then some x.conn else none

structure Sound (s : Destruction) (numThreads : ℕ) : Prop where
  serves : s.server.Serves numThreads
  accounted : s.server.Accounted (s.destroyed ++ s.hand)
  item : ∀ x ∈ s.item, s.At x
  calls : ∀ c ∈ s.closeCalls, c.2 ≠ .finished
  emptied : s.phase = .joining ∨ s.phase = .finished → ∀ i, ¬ s.server.Held i

variable {s s' : Destruction} {numThreads i : ℕ} {t l : LoopId} {f : TcpServer.Functor} {a : Action}

lemma hand_eq_nil (hitem : s.item = none) : s.hand = [] := by rw [hand, hitem]

lemma hand_eq {x : Item} (hitem : s.item = some x) :
    s.hand = if x.statement = .post then [x.conn] else [] := by
  rw [hand, hitem]

/-- The destructor is at no entry before it begins and after it has been at all of them. -/
lemma Sound.item_eq_none (h : s.Sound numThreads) (hphase : s.phase ≠ .visiting) : s.item = none := by
  rw [Option.eq_none_iff_forall_not_mem]
  exact fun x hx => hphase (h.item x hx).visiting

lemma Sound.safe (h : s.Sound numThreads) : s.Safe := by
  refine ⟨h.calls, List.nodup_iff_count_le_one.mpr fun i => ?_⟩
  have hle := h.accounted.tickets_le i
  rw [TcpServer.tickets, List.count_append] at hle
  omega

lemma create_sound (ipPort name : String) (numThreads : ℕ) (poolShared : Bool) :
    (create ipPort name numThreads poolShared).Sound numThreads := by
  obtain ⟨p, -, heq⟩ := TcpServer.serving_eq ipPort name numThreads
  refine ⟨(TcpServer.serving_serves ipPort name numThreads).1, ?_, by simp [create], by simp [create],
    by simp [create]⟩
  have hserver : (create ipPort name numThreads poolShared).server
      = { TcpServer.create ipPort name with threadPool := p, started := 1 } := heq
  rw [hserver, hand_eq_nil rfl]
  refine ⟨by simp [TcpServer.create], ?_, by simp [create], ?_⟩
  · simp [TcpServer.queued, TcpServer.create, BatchQueue.empty]
  · simp [TcpServer.tickets, TcpServer.Held, TcpServer.queued, TcpServer.create, BatchQueue.empty, create]

/-! ## What the parts of a step keep -/

/-- The server changes, but not this entry. -/
lemma At.congr {x : Item} (h : s.At x) (hphase : s'.phase = s.phase)
    (haccepted : s'.server.accepted = s.server.accepted)
    (hentry : s'.server.connections (s'.server.conn x.conn).name
      = s.server.connections (s.server.conn x.conn).name) : s'.At x :=
  ⟨hphase.trans h.visiting, h.there, by rw [haccepted]; exact h.lt_accepted, hentry.trans h.entry⟩

/-- A function of a connection is run.  If it is `connectDestroyed`, nothing else was left to do for it. -/
lemma Sound.runFunctor (h : s.Sound numThreads) (hf : s.server.Harmless f)
    (hnone : ∀ i, f = .connectDestroyed i → s.server.tickets (s.destroyed ++ s.hand) i = 0)
    (hok : s.runFunctor t f = .ok s') : s'.Sound numThreads := by
  simp only [Destruction.runFunctor, bind_eq_ok, pure_eq_ok, Except.ok.injEq] at hok
  obtain ⟨server, hrun, rfl⟩ := hok
  have hserves := (h.serves.runFunctor hf hrun).1
  have hran : s.server.Accounted (s.destroyed ++ f.destroys ++ s.hand) := by
    have hperm : (s.destroyed ++ s.hand ++ f.destroys).Perm (s.destroyed ++ f.destroys ++ s.hand) := by
      rw [List.append_assoc, List.append_assoc]
      exact List.perm_append_comm.append_left _
    refine TcpServer.Accounted.perm ?_ hperm
    cases f with
    | connectDestroyed i => exact h.accounted.ran hf (hnone i rfl)
    | _ => simpa only [TcpServer.Functor.destroys, List.append_nil] using h.accounted
  rcases hf.runFunctor_eq hrun with rfl | ⟨i, state, rfl⟩
  · exact ⟨hserves, hran, fun x hx => (h.item x hx).congr rfl rfl rfl, h.calls, h.emptied⟩
  · refine ⟨hserves, hran.setState i state, fun x hx => ?_, h.calls, fun hphase j => ?_⟩
    · refine (h.item x hx).congr rfl rfl ?_
      rw [TcpServer.setState_name]
      rfl
    · rw [TcpServer.setState_held]
      exact h.emptied hphase j

/-- **The next statement of the destructor.** -/
lemma Sound.visit (h : s.Sound numThreads) {x : Item} (hitem : s.item = some x) (hok : s.visit x = .ok s') :
    s'.Sound numThreads := by
  have hat := h.item x hitem
  have haccounted := h.accounted
  have hphase : ¬ (s.phase = .joining ∨ s.phase = .finished) := by simp [hat.visiting]
  have hitem' : ∀ {y z : Item}, z ∈ some y → z = y := fun hz => (Option.mem_some_iff.mp hz).symm
  rw [hand_eq hitem] at haccounted
  rw [Destruction.visit] at hok
  cases hst : x.statement with
  | copy =>
      simp only [hst, hat.there, Bool.false_eq_true, if_false, Except.ok.injEq] at hok
      rw [← hok]
      rw [hst, if_neg (by decide)] at haccounted
      refine ⟨h.serves, haccounted, fun y hy => ?_, h.calls, h.emptied⟩
      rw [hitem' hy]
      exact ⟨hat.visiting, rfl, hat.lt_accepted, by rw [hat.entry, hst]; rfl⟩
  | reset =>
      simp only [hst, hat.there, Bool.false_eq_true, if_false, Except.ok.injEq] at hok
      rw [← hok]
      rw [hst, if_neg (by decide), List.append_nil] at haccounted
      have hheld : s.server.Held x.conn := by
        rw [TcpServer.Held, hat.entry, if_pos (Or.inr hst)]
      obtain ⟨herase, hnone⟩ := haccounted.erase hheld TcpServer.loop
      have hran := herase.ran hat.lt_accepted hnone
      refine ⟨⟨h.serves.pool, h.serves.loop_iff, h.serves.fresh, h.serves.queues⟩,
        ⟨hran.entries, hran.placed, hran.past, hran.tickets_le⟩, fun y hy => ?_, h.calls,
        fun hphase' => absurd hphase' hphase⟩
      rw [hitem' hy]
      exact ⟨hat.visiting, rfl, hat.lt_accepted, by simp [Destruction.reset]⟩
  | post =>
      simp only [hst] at hok
      rw [hst, if_pos rfl] at haccounted
      obtain ⟨hold, hnone⟩ := haccounted.in_hand
      have hnext : Sound { s with item := some { x with statement := .next } } numThreads := by
        refine ⟨h.serves, ?_, fun y hy => ?_, h.calls, h.emptied⟩
        · simpa [hand] using hold
        · rw [hitem' hy]
          exact ⟨hat.visiting, hat.there, hat.lt_accepted, by rw [hat.entry, hst]; rfl⟩
      rw [runInLoop] at hok
      split_ifs at hok with hloop
      · refine hnext.runFunctor (f := .connectDestroyed x.conn) hat.lt_accepted ?_ hok
        intro j hj
        rw [TcpServer.Functor.connectDestroyed.injEq] at hj
        rw [← hj]
        simpa [hand] using hnone
      · rw [Except.ok.injEq] at hok
        rw [← hok]
        refine ⟨hnext.serves.queueInLoop (f := .connectDestroyed x.conn) _ hat.lt_accepted, ?_,
          fun y hy => (hnext.item y hy).congr rfl rfl rfl, h.calls, h.emptied⟩
        have hqueued := hold.queueInLoop hat.lt_accepted hnone
        simpa [hand] using hqueued
  | next =>
      simp only [hst, hat.there, Bool.false_eq_true, if_false, Except.ok.injEq] at hok
      rw [← hok]
      rw [hst, if_neg (by decide)] at haccounted
      exact ⟨h.serves, haccounted, fun y hy => absurd hy (by simp), h.calls, h.emptied⟩

/-- While the server is there, its close callback removes the connection. -/
lemma handleClose_ok (hlasts : s.phase ≠ .finished) (hok : s.handleClose i = .ok s') :
    s' = { s with
      server := (s.server.setState i .kDisconnected).removeConnectionInLoop
        ((s.server.setState i .kDisconnected).conn i).loop i
      closeCalls := s.closeCalls ++ [(i, s.phase)]
      item := s.item.map fun x =>
        if (s.server.conn x.conn).name = (s.server.conn i).name then { x with erased := true } else x } := by
  have hmembers : s.phase ≠ .joining := by
    intro hjoining
    simp [Destruction.handleClose, closeCallback, bind_eq_ok, hjoining] at hok
  simp only [Destruction.handleClose, closeCallback, eraseItem, bind_eq_ok, assertThat_eq_ok, if_neg hlasts,
    if_neg hmembers, pure_eq_ok, Except.ok.injEq, TcpServer.setState_name] at hok
  obtain ⟨-, -, server, hremove, rfl⟩ := hok
  rw [TcpServer.removeConnection, TcpServer.runInLoop, if_pos rfl, TcpServer.runFunctor,
    Except.ok.injEq] at hremove
  rw [← hremove]

/-- The destructor is at another entry than that of the connection. -/
lemma Sound.name_ne (h : s.Sound numThreads) (hheld : s.server.Held i) {x : Item} (hx : x ∈ s.item)
    (hne : x.conn ≠ i) : (s.server.conn x.conn).name ≠ (s.server.conn i).name := by
  intro hname
  have hentry := (h.item x hx).entry
  rw [hname, hheld] at hentry
  split_ifs at hentry
  exact hne (Option.some.inj hentry).symm

/-- **A connection that has its entry is closed**, and the destructor is at none or another. -/
lemma Sound.handleClose (h : s.Sound numThreads) (hheld : s.server.Held i) (hitem : ∀ x ∈ s.item, x.conn ≠ i)
    (hok : s.handleClose i = .ok s') : s'.Sound numThreads := by
  have hi := (h.accounted.entries _ i hheld).1
  have hphase : ¬ (s.phase = .joining ∨ s.phase = .finished) := fun hphase =>
    h.emptied hphase i hheld
  have hlasts : s.phase ≠ .finished := fun hfinished => hphase (Or.inr hfinished)
  have hname : ∀ x ∈ s.item, (s.server.conn x.conn).name ≠ (s.server.conn i).name := fun x hx =>
    h.name_ne hheld hx (hitem x hx)
  have hsame : (s.item.map fun x =>
      if (s.server.conn x.conn).name = (s.server.conn i).name then { x with erased := true } else x)
      = s.item := by
    refine (Option.map_congr fun x hx => ?_).trans Option.map_id'
    rw [if_neg (hname x hx)]
  rw [handleClose_ok hlasts hok, hsame]
  have hset := h.accounted.setState i .kDisconnected
  obtain ⟨herase, hnone⟩ := hset.erase (TcpServer.setState_held.mpr hheld)
    ((s.server.setState i .kDisconnected).conn i).loop
  refine ⟨(h.serves.setState hi _).removeConnectionInLoop _ hi, herase.queueInLoop hi hnone, fun x hx => ?_, ?_,
    fun hphase' => absurd hphase' hphase⟩
  · refine (h.item x hx).congr rfl rfl ?_
    have hother := hname x hx
    simp only [TcpServer.removeConnectionInLoop, TcpServer.queueInLoop, TcpServer.erase, TcpServer.setState_name,
      Function.update_of_ne hother]
    rfl
  · intro c hc
    rcases List.mem_append.mp hc with hc | hc
    · exact h.calls c hc
    · rw [List.mem_singleton.mp hc]
      exact hlasts

/-! ## Runs -/

/-- **What a step keeps**, if it closes no connection without its entry. -/
lemma Sound.step (h : s.Sound numThreads) (hcloses : s.ClosesHeld a) (hok : s.step a = .ok s') :
    s'.Sound numThreads := by
  cases a with
  | accept =>
      rw [Destruction.step, guard_eq_ok] at hok
      obtain ⟨hserving, hok⟩ := hok
      simp only [bind_eq_ok, pure_eq_ok, Except.ok.injEq] at hok
      obtain ⟨server, hnew, rfl⟩ := hok
      obtain ⟨server', hnew', -, haccepts⟩ :=
        TcpServer.newConnection_spec h.serves.pool TcpServer.loop
      obtain rfl := Except.ok.inj (hnew'.symm.trans hnew)
      have hnone := h.item_eq_none (by simp [hserving])
      refine ⟨(h.serves.newConnection hnew).1, h.accounted.newConnection haccepts, ?_, h.calls, ?_⟩
      · exact fun x hx => absurd hx (by simp [hnone])
      · simp [hserving]
  | setDisconnecting i =>
      rw [Destruction.step, guard_eq_ok, Except.ok.injEq] at hok
      obtain ⟨hstate, rfl⟩ := hok
      refine ⟨h.serves.setState (h.serves.lt_accepted hstate) _, h.accounted.setState i _, fun x hx => ?_,
        h.calls, fun hphase j => ?_⟩
      · refine (h.item x hx).congr rfl rfl ?_
        rw [TcpServer.setState_name]
        rfl
      · rw [TcpServer.setState_held]
        exact h.emptied hphase j
  | handleClose i =>
      rw [Destruction.step, guard_eq_ok] at hok
      exact h.handleClose hcloses.1 hcloses.2 hok.2
  | takePending l =>
      rw [Destruction.step, guard_eq_ok, Except.ok.injEq] at hok
      obtain ⟨⟨-, hbatch⟩, rfl⟩ := hok
      refine ⟨h.serves.requeue l ?_, h.accounted.congr rfl rfl (fun _ => rfl) (fun _ => rfl) ?_,
        fun x hx => (h.item x hx).congr rfl rfl rfl, h.calls, h.emptied⟩
      · intro f hf
        rw [BatchQueue.take, List.append_nil] at hf
        exact List.mem_append_right _ hf
      · intro l'
        rcases eq_or_ne l' l with rfl | hne
        · simp only [TcpServer.queued, Function.update_self, BatchQueue.take, hbatch, List.append_nil,
            List.nil_append]
        · simp only [TcpServer.queued, Function.update_of_ne hne]
  | nextFunctor l =>
      rw [Destruction.step, guard_eq_ok] at hok
      obtain ⟨-, hok⟩ := hok
      split at hok
      · simp at hok
      · rename_i f rest hbatch
        obtain ⟨hstart, hnone⟩ := h.accounted.start hbatch
        have hf : s.server.Harmless f := h.serves.queues l f (by rw [hbatch]; exact List.mem_cons_self)
        have hrest := h.serves.requeue (q := (s.server.functors l).start f rest) l (by
          intro g hg
          rw [hbatch]
          exact List.mem_cons_of_mem _ hg)
        have hsound : Sound { s with server := { s.server with
            functors := Function.update s.server.functors l
              ((s.server.functors l).start f rest) } } numThreads :=
          ⟨hrest, hstart, fun x hx => (h.item x hx).congr rfl rfl rfl, h.calls, h.emptied⟩
        exact hsound.runFunctor hf hnone hok
  | endLoop k =>
      rw [Destruction.step, guard_eq_ok, Except.ok.injEq] at hok
      obtain ⟨-, rfl⟩ := hok
      exact ⟨h.serves, h.accounted, fun x hx => (h.item x hx).congr rfl rfl rfl, h.calls, h.emptied⟩
  | beginDestructor =>
      rw [Destruction.step, guard_eq_ok, Except.ok.injEq] at hok
      obtain ⟨hserving, rfl⟩ := hok
      have hnone := h.item_eq_none (by simp [hserving])
      exact ⟨h.serves, h.accounted, fun x hx => absurd hx (by simp [hnone]), h.calls, by simp⟩
  | arrive i =>
      rw [Destruction.step, guard_eq_ok, Except.ok.injEq] at hok
      obtain ⟨⟨hvisiting, hnone, hheld⟩, rfl⟩ := hok
      have haccounted := h.accounted
      rw [hand_eq_nil hnone] at haccounted
      refine ⟨h.serves, haccounted, fun x hx => ?_, h.calls, h.emptied⟩
      rw [← Option.mem_some_iff.mp hx]
      exact ⟨hvisiting, rfl, (h.accounted.entries _ i hheld).1, hheld⟩
  | visit =>
      rw [Destruction.step] at hok
      split at hok
      · simp at hok
      · rename_i x hitem
        exact h.visit hitem hok
  | endVisits =>
      rw [Destruction.step, guard_eq_ok, Except.ok.injEq] at hok
      obtain ⟨⟨-, hitem, hnone⟩, rfl⟩ := hok
      refine ⟨h.serves, h.accounted, fun x hx => absurd hx (by simp [hitem]), h.calls, fun _ i hheld => ?_⟩
      exact hnone i (h.accounted.entries _ i hheld).1 hheld
  | endDestructor =>
      rw [Destruction.step, guard_eq_ok, Except.ok.injEq] at hok
      obtain ⟨⟨hjoining, -⟩, rfl⟩ := hok
      have hnone := h.item_eq_none (by simp [hjoining])
      exact ⟨h.serves, h.accounted, fun x hx => absurd hx (by simp [hnone]), h.calls,
        fun _ => h.emptied (Or.inl hjoining)⟩

/-! ## What is used is there -/

lemma serverRunFunctor_there (server : TcpServer) (t : LoopId) (f : TcpServer.Functor) :
    server.runFunctor t f ≠ .error .noObject := by
  cases f with
  | connectEstablished i =>
      intro herror
      rcases bind_eq_error.mp herror with hassert | ⟨-, -, hreturn⟩
      · simp [assertThat_eq_error] at hassert
      · simp at hreturn
  | removeConnectionInLoop i => simp [TcpServer.runFunctor]
  | connectDestroyed i => simp [TcpServer.runFunctor]

lemma runFunctor_there (s : Destruction) (t : LoopId) (f : TcpServer.Functor) :
    s.runFunctor t f ≠ .error .noObject := by
  intro herror
  rcases bind_eq_error.mp herror with hrun | ⟨server, -, hreturn⟩
  · exact serverRunFunctor_there _ _ _ hrun
  · simp at hreturn

/-- **Neither the table nor an entry is used after its end**, in a step that closes no connection without its
entry. -/
lemma Sound.there (h : s.Sound numThreads) (hcloses : s.ClosesHeld a) : s.step a ≠ .error .noObject := by
  have hguard : ∀ {p : Prop} [Decidable p] {x : Res Destruction}, x ≠ .error .noObject →
      (if p then x else .error .disabled) ≠ .error .noObject := by
    intro p _ x hx
    split_ifs
    · exact hx
    · simp
  cases a with
  | accept =>
      refine hguard fun herror => ?_
      obtain ⟨server, hnew, -⟩ := TcpServer.newConnection_spec h.serves.pool TcpServer.loop
      rw [hnew, bind_ok] at herror
      simp at herror
  | handleClose i =>
      refine hguard fun herror => ?_
      have hmembers : s.phase ≠ .joining := fun hjoining => h.emptied (Or.inl hjoining) i hcloses.1
      rcases bind_eq_error.mp herror with hassert | ⟨-, -, hcall⟩
      · simp [assertThat_eq_error] at hassert
      · rw [closeCallback] at hcall
        by_cases hlasts : s.phase = .finished
        · simp [hlasts] at hcall
        · rw [if_neg hlasts, if_neg hmembers] at hcall
          rcases bind_eq_error.mp hcall with hremove | ⟨server, -, hreturn⟩
          · rw [TcpServer.removeConnection, TcpServer.runInLoop] at hremove
            split_ifs at hremove
            exact serverRunFunctor_there _ _ _ hremove
          · simp at hreturn
  | nextFunctor l =>
      rw [Destruction.step]
      refine hguard ?_
      cases (s.server.functors l).batch with
      | nil => simp
      | cons f rest => exact runFunctor_there _ _ _
  | visit =>
      rw [Destruction.step]
      cases hitem : s.item with
      | none => simp
      | some x =>
          have hthere := (h.item x hitem).there
          simp only [Destruction.visit, hthere, Bool.false_eq_true, if_false]
          cases x.statement with
          | post =>
              dsimp only
              rw [runInLoop]
              split_ifs
              · exact runFunctor_there _ _ _
              · simp
          | _ => simp
  | _ =>
      rw [Destruction.step]
      exact hguard (by simp)

end Destruction

end Seenet
