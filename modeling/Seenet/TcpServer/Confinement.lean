import Seenet.TcpServer.Basic

/-!
# Which thread changes the connection table

`m_connections` is a `std::map` without a lock, so only the thread of `m_loop` may change it.
`newConnection` does so there.  But `removeConnection` goes through the loop of the connection, and not
through `m_loop`; it is called on that loop's thread, and so `removeConnectionInLoop` erases there at
once.

* `Confined` — all changes were made by the thread of `m_loop`.
* `Serves` — the invariant: where the connections are, and that no `removeConnectionInLoop` is queued.
* **`confined_iff`** — a run is confined exactly when there are no threads but that of `m_loop`, or no
  connection is closed.
* **`not_confined`** — with one thread and one connection, that is closed.
-/

namespace Seenet

namespace TcpServer

/-- Every change of the connection table was made by the thread of `m_loop`. -/
def Confined (s : TcpServer) : Prop := ∀ m ∈ s.mutations, m.2 = loop

/-- A functor of one of the connections accepted, which does not change the connection table. -/
def Harmless (s : TcpServer) : Functor → Prop
  | .connectEstablished i => i < s.accepted
  | .removeConnectionInLoop _ => False
  | .connectDestroyed i => i < s.accepted

/-- A server with a pool of `numThreads` threads: its connections are on `m_loop` exactly when there are
no threads, and what is queued on its loops does not change the connection table. -/
structure Serves (s : TcpServer) (numThreads : ℕ) : Prop where
  pool : s.threadPool.Running numThreads
  loop_iff : ∀ i, i < s.accepted → ((s.conn i).loop = loop ↔ numThreads = 0)
  fresh : ∀ i, s.accepted ≤ i → (s.conn i).state = .kConnecting
  queues : ∀ l, ∀ f ∈ (s.functors l).batch ++ (s.functors l).pending, s.Harmless f

variable {s s' : TcpServer} {numThreads : ℕ} {t l : LoopId}

lemma serving_eq (ipPort name : String) (numThreads : ℕ) :
    ∃ p : EventLoopThreadPool, p.InTurn numThreads 0 ∧
      serving ipPort name numThreads = { create ipPort name with threadPool := p, started := 1 } := by
  obtain ⟨p, hstart, hturn⟩ := EventLoopThreadPool.start_inTurn numThreads
  have hok : ((create ipPort name).setThreadNum numThreads).start
      = .ok { create ipPort name with threadPool := p, started := 1 } := by
    have hnew : ((create ipPort name).setThreadNum numThreads).started = 0 := rfl
    have hpool : ((create ipPort name).setThreadNum numThreads).threadPool.start = .ok p := hstart
    rw [start, if_pos hnew, hpool, bind_ok, pure_eq_ok]
    rfl
  exact ⟨p, hturn, by rw [serving, hok]⟩

lemma serving_serves (ipPort name : String) (numThreads : ℕ) :
    (serving ipPort name numThreads).Serves numThreads ∧
      (serving ipPort name numThreads).mutations = [] := by
  obtain ⟨p, hturn, heq⟩ := serving_eq ipPort name numThreads
  rw [heq]
  refine ⟨⟨hturn.toRunning, ?_, ?_, ?_⟩, rfl⟩
  · intro i hi
    exact absurd hi (Nat.not_lt_zero i)
  · intro i _
    rfl
  · simp [create, BatchQueue.empty]

/-! ## What the parts of a step keep -/

lemma Serves.setState (h : s.Serves numThreads) {i : ℕ} (hi : i < s.accepted) (state : StateE) :
    (s.setState i state).Serves numThreads := by
  refine ⟨h.pool, ?_, ?_, h.queues⟩
  · intro j hj
    rcases eq_or_ne j i with rfl | hne
    · simp only [TcpServer.setState, Function.update_self]
      exact h.loop_iff j hj
    · simp only [TcpServer.setState, Function.update_of_ne hne]
      exact h.loop_iff j hj
  · intro j hj
    have hne : j ≠ i := by
      rintro rfl
      exact absurd hi (Nat.not_lt.mpr hj)
    simp only [TcpServer.setState, Function.update_of_ne hne]
    exact h.fresh j hj

lemma Serves.queueInLoop (h : s.Serves numThreads) (l : LoopId) {f : Functor} (hf : s.Harmless f) :
    (s.queueInLoop l f).Serves numThreads := by
  refine ⟨h.pool, h.loop_iff, h.fresh, ?_⟩
  intro l' g hg
  rcases eq_or_ne l' l with rfl | hne
  · simp only [TcpServer.queueInLoop, Function.update_self, BatchQueue.push, ← List.append_assoc] at hg
    rcases List.mem_append.mp hg with hg | hg
    · exact h.queues l' g hg
    · rw [List.mem_singleton.mp hg]
      exact hf
  · simp only [TcpServer.queueInLoop, Function.update_of_ne hne] at hg
    exact h.queues l' g hg

/-- The queue of the loop `l` changes, and nothing comes into it. -/
lemma Serves.requeue (h : s.Serves numThreads) (l : LoopId) {q : BatchQueue Functor}
    (hq : ∀ f ∈ q.batch ++ q.pending, f ∈ (s.functors l).batch ++ (s.functors l).pending) :
    Serves { s with functors := Function.update s.functors l q } numThreads := by
  refine ⟨h.pool, h.loop_iff, h.fresh, ?_⟩
  intro l' f hf
  rcases eq_or_ne l' l with rfl | hne
  · simp only [Function.update_self] at hf
    exact h.queues l' f (hq f hf)
  · simp only [Function.update_of_ne hne] at hf
    exact h.queues l' f hf

/-- Only a connection that has been accepted is past `kConnecting`. -/
lemma Serves.lt_accepted (h : s.Serves numThreads) {i : ℕ} (hi : (s.conn i).state ≠ .kConnecting) :
    i < s.accepted := by
  by_contra hle
  exact hi (h.fresh i (Nat.le_of_not_lt hle))

lemma Serves.removeConnectionInLoop (h : s.Serves numThreads) (t : LoopId) {i : ℕ}
    (hi : i < s.accepted) : (s.removeConnectionInLoop t i).Serves numThreads := by
  have herase : (s.erase t (s.conn i).name).Serves numThreads :=
    ⟨h.pool, h.loop_iff, h.fresh, h.queues⟩
  exact herase.queueInLoop _ (f := .connectDestroyed i) hi

/-- A harmless functor does not change the connection table. -/
lemma Serves.runFunctor (h : s.Serves numThreads) {f : Functor} (hf : s.Harmless f)
    (hok : s.runFunctor t f = .ok s') : s'.Serves numThreads ∧ s'.mutations = s.mutations := by
  cases f with
  | connectEstablished i =>
      simp only [TcpServer.runFunctor, TcpServer.connectEstablished, bind_eq_ok, pure_eq_ok,
        Except.ok.injEq] at hok
      obtain ⟨-, -, rfl⟩ := hok
      exact ⟨h.setState hf _, rfl⟩
  | removeConnectionInLoop i => exact absurd hf id
  | connectDestroyed i =>
      rw [TcpServer.runFunctor, Except.ok.injEq, TcpServer.connectDestroyed] at hok
      rw [← hok]
      split_ifs
      · exact ⟨h.setState hf _, rfl⟩
      · exact ⟨h, rfl⟩

lemma Serves.runInLoop (h : s.Serves numThreads) {f : Functor} (hf : s.Harmless f)
    (hok : s.runInLoop t l f = .ok s') : s'.Serves numThreads ∧ s'.mutations = s.mutations := by
  rw [TcpServer.runInLoop] at hok
  split_ifs at hok
  · exact h.runFunctor hf hok
  · rw [Except.ok.injEq] at hok
    rw [← hok]
    exact ⟨h.queueInLoop l hf, rfl⟩

/-! ## The two functions that change the table -/

lemma Harmless.mono {f : Functor} (h : s.Harmless f) (hle : s.accepted ≤ s'.accepted) :
    s'.Harmless f := by
  cases f with
  | connectEstablished i => exact Nat.lt_of_lt_of_le h hle
  | removeConnectionInLoop i => exact h
  | connectDestroyed i => exact Nat.lt_of_lt_of_le h hle

lemma Serves.construct (h : s.Serves numThreads) (t : LoopId) {ioLoop : LoopId}
    (hloop : ioLoop = loop ↔ numThreads = 0) : (s.construct t ioLoop).Serves numThreads := by
  refine ⟨h.pool, ?_, ?_, ?_⟩
  · intro i hi
    rcases eq_or_ne i s.accepted with rfl | hne
    · simpa [TcpServer.construct, TcpServer.insert] using hloop
    · simp only [TcpServer.construct, TcpServer.insert, Function.update_of_ne hne]
      exact h.loop_iff i (Nat.lt_of_le_of_ne (Nat.le_of_lt_succ hi) hne)
  · intro i hi
    have hne : i ≠ s.accepted := by
      rintro rfl
      exact absurd hi (Nat.not_succ_le_self _)
    simp only [TcpServer.construct, TcpServer.insert, Function.update_of_ne hne]
    exact h.fresh i (Nat.le_of_succ_le hi)
  · intro l f hf
    exact (h.queues l f hf).mono (Nat.le_succ _)

/-- **`newConnection`** changes the table on the thread that runs it. -/
lemma Serves.newConnection (h : s.Serves numThreads) (hok : s.newConnection t = .ok s') :
    s'.Serves numThreads ∧ s'.mutations = s.mutations ++ [(.insert s.connName, t)] := by
  obtain ⟨ioLoop, threadPool, hnext, hrunning, hloop⟩ := EventLoopThreadPool.getNextLoop_spec h.pool
  rw [TcpServer.newConnection, hnext, bind_ok] at hok
  have hpool : Serves { s with threadPool := threadPool } numThreads :=
    ⟨hrunning, h.loop_iff, h.fresh, h.queues⟩
  exact (hpool.construct t hloop).runInLoop (f := .connectEstablished s.accepted)
    (Nat.lt_succ_self s.accepted) hok

/-- **`handleClose`** changes the table on the thread that runs it, if that is the thread of the
connection's loop. -/
lemma Serves.handleClose (h : s.Serves numThreads) {i : ℕ}
    (hok : s.handleClose (s.conn i).loop i = .ok s') :
    s'.Serves numThreads ∧ i < s.accepted ∧
      s'.mutations = s.mutations ++ [(.erase (s.conn i).name, (s.conn i).loop)] := by
  simp only [TcpServer.handleClose, bind_eq_ok, assertThat_eq_ok] at hok
  obtain ⟨-, hopen, hok⟩ := hok
  have hi : i < s.accepted := h.lt_accepted (by rcases hopen with hopen | hopen <;> simp [hopen])
  have hset := h.setState hi .kDisconnected
  have hconn : (s.setState i .kDisconnected).conn i = { s.conn i with state := .kDisconnected } :=
    Function.update_self ..
  rw [TcpServer.removeConnection, TcpServer.runInLoop, hconn, if_pos rfl, TcpServer.runFunctor,
    Except.ok.injEq] at hok
  rw [← hok]
  refine ⟨hset.removeConnectionInLoop _ hi, hi, ?_⟩
  rw [TcpServer.removeConnectionInLoop, hconn]
  rfl

/-! ## Runs -/

/-- A step that closes a connection whose loop is not `m_loop`. -/
def ClosesOffLoop (numThreads : ℕ) (a : Action) : Prop := numThreads ≠ 0 ∧ ∃ i, a = .handleClose i

/-- **What a step does to the table.** -/
lemma Serves.step (h : s.Serves numThreads) {a : Action} (hok : s.step a = .ok s') :
    s'.Serves numThreads ∧
      ((s'.mutations = s.mutations ∧ ∀ i, a ≠ .handleClose i) ∨
        ∃ m, s'.mutations = s.mutations ++ [m] ∧ (m.2 = loop ↔ ¬ ClosesOffLoop numThreads a)) := by
  cases a with
  | accept =>
      obtain ⟨hs, hmut⟩ := h.newConnection hok
      exact ⟨hs, Or.inr ⟨_, hmut, by simp [ClosesOffLoop]⟩⟩
  | handleClose i =>
      rw [TcpServer.step] at hok
      split_ifs at hok
      obtain ⟨hs, hi, hmut⟩ := h.handleClose hok
      refine ⟨hs, Or.inr ⟨_, hmut, ?_⟩⟩
      simpa [ClosesOffLoop] using h.loop_iff i hi
  | takePending l =>
      simp only [TcpServer.step, guard_eq_ok, Except.ok.injEq] at hok
      obtain ⟨-, rfl⟩ := hok
      refine ⟨h.requeue l ?_, Or.inl ⟨rfl, by simp⟩⟩
      intro f hf
      rw [BatchQueue.take, List.append_nil] at hf
      exact List.mem_append_right _ hf
  | nextFunctor l =>
      rw [TcpServer.step] at hok
      split at hok
      · simp at hok
      · rename_i f rest hbatch
        have hf : s.Harmless f := h.queues l f (by rw [hbatch]; exact List.mem_cons_self)
        have hrest := h.requeue (q := (s.functors l).start f rest) l (by
          intro g hg
          rw [hbatch]
          exact List.mem_cons_of_mem _ hg)
        obtain ⟨hs, hmut⟩ := hrest.runFunctor hf hok
        exact ⟨hs, Or.inl ⟨hmut, by simp⟩⟩

lemma Serves.confined (h : s.Serves numThreads) (hconf : s.Confined) {a : Action}
    (hon : ¬ ClosesOffLoop numThreads a) (hok : s.step a = .ok s') : s'.Confined := by
  rcases (h.step hok).2 with ⟨hmut, -⟩ | ⟨m, hmut, hloop⟩
  · rwa [Confined, hmut]
  · rw [Confined, hmut]
    intro m' hm'
    rcases List.mem_append.mp hm' with hm' | hm'
    · exact hconf m' hm'
    · rw [List.mem_singleton.mp hm']
      exact hloop.mpr hon

lemma Serves.unconfined (h : s.Serves numThreads) {a : Action}
    (hoff : ClosesOffLoop numThreads a) (hok : s.step a = .ok s') : ¬ s'.Confined := by
  intro hconf
  rcases (h.step hok).2 with ⟨-, hne⟩ | ⟨m, hmut, hloop⟩
  · obtain ⟨i, hi⟩ := hoff.2
    exact hne i hi
  · have hm := hconf m (by rw [hmut]; simp)
    exact hloop.mp hm hoff

/-- **When the connection table is confined to the thread of `m_loop`.**  All changes of the table in a run
of a server are made there, if and only if the server has no other threads or the run closes no
connection. -/
theorem confined_iff (ipPort name : String) (numThreads : ℕ) (as : List Action) :
    (∀ s ∈ Machine.states step (serving ipPort name numThreads) as, s.Confined)
      ↔ numThreads = 0 ∨
        ∀ p ∈ Machine.steps step (serving ipPort name numThreads) as, ∀ i, p.2 ≠ .handleClose i := by
  obtain ⟨hserves, hnone⟩ := serving_serves ipPort name numThreads
  have hiff : (∀ s ∈ Machine.states step (serving ipPort name numThreads) as, s.Confined)
      ↔ ∀ p ∈ Machine.steps step (serving ipPort name numThreads) as,
        ¬ ClosesOffLoop numThreads p.2 :=
    Machine.forall_states_iff (I := fun s : TcpServer => s.Serves numThreads ∧ s.Confined)
      (C := fun _ a => ¬ ClosesOffLoop numThreads a) (fun s h => h.2)
      (fun s a s' h hon hok => ⟨(h.1.step hok).1, h.1.confined h.2 hon hok⟩)
      (fun s a s' h hoff hok => h.1.unconfined (not_not.mp hoff) hok)
      ⟨hserves, by simp [Confined, hnone]⟩ as
  rw [hiff]
  simp only [ClosesOffLoop, not_and, not_exists]
  rcases eq_or_ne numThreads 0 with rfl | hne
  · simp
  · simp [hne]

/-- **The wrong thread.**  With one I/O thread, a connection is accepted, established and closed; the
thread of its loop erases it from the table. -/
theorem not_confined :
    ∃ s, Machine.run step (serving "127.0.0.1:9981" "echo" 1)
        [.accept, .takePending (.io 0), .nextFunctor (.io 0), .handleClose 0] = .ok s ∧
      s.mutations = [(.insert "echo-127.0.0.1:9981#1", .base),
        (.erase "echo-127.0.0.1:9981#1", .io 0)] ∧ ¬ s.Confined := by
  have hrun : (Machine.run step (serving "127.0.0.1:9981" "echo" 1)
      [.accept, .takePending (.io 0), .nextFunctor (.io 0), .handleClose 0]).map
      (fun s => s.mutations) = .ok [(.insert "echo-127.0.0.1:9981#1", .base),
        (.erase "echo-127.0.0.1:9981#1", .io 0)] := by
    decide +kernel
  obtain ⟨s, hs, hmut⟩ := Machine.ok_of_map hrun
  refine ⟨s, hs, hmut, ?_⟩
  intro hconf
  rw [Confined, hmut] at hconf
  exact absurd (hconf _ (List.mem_cons_of_mem _ List.mem_cons_self)) (by decide)

end TcpServer

end Seenet
