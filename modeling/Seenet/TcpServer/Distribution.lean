import Seenet.TcpServer.Confinement

/-!
# How the connections are spread over the loops

`newConnection` gives a connection the loop whose turn it is, and a connection keeps its loop.

* `Keeps` — what all that comes after leaves alone.
* `Distributes` — the invariant: the connection `i` is on the loop of the turn `i`.
* **`handed_out_in_turn`** — the loops that `getNextLoop` returns, and the loops of the connections of a server,
  are handed out in turn.
-/

namespace Seenet

namespace TcpServer

open EventLoopThreadPool

variable {s s' s'' : TcpServer} {numThreads : ℕ} {t l : LoopId}

/-- The loops of the connections, in the order these were accepted. -/
def loops (s : TcpServer) : List LoopId := (List.range s.accepted).map fun i => (s.conn i).loop

/-! ## What leaves the loops alone -/

/-- No connection is accepted, and none gets another loop. -/
structure Keeps (s s' : TcpServer) : Prop where
  threadPool : s'.threadPool = s.threadPool
  accepted : s'.accepted = s.accepted
  loop : ∀ i, (s'.conn i).loop = (s.conn i).loop

namespace Keeps

lemma trans (h : s.Keeps s') (h' : s'.Keeps s'') : s.Keeps s'' :=
  ⟨h'.threadPool.trans h.threadPool, h'.accepted.trans h.accepted, fun i => (h'.loop i).trans (h.loop i)⟩

lemma setState (s : TcpServer) (i : ℕ) (state : StateE) : s.Keeps (s.setState i state) := by
  refine ⟨rfl, rfl, ?_⟩
  intro j
  rcases eq_or_ne j i with rfl | hne
  · simp only [TcpServer.setState, Function.update_self]
  · simp only [TcpServer.setState, Function.update_of_ne hne]

/-- A functor changes at most a state. -/
lemma runFunctor {f : Functor} (hok : s.runFunctor t f = .ok s') : s.Keeps s' := by
  cases f with
  | connectEstablished i =>
      simp only [TcpServer.runFunctor, TcpServer.connectEstablished, bind_eq_ok, pure_eq_ok,
        Except.ok.injEq] at hok
      obtain ⟨-, -, rfl⟩ := hok
      exact setState s i .kConnected
  | removeConnectionInLoop i =>
      rw [TcpServer.runFunctor, Except.ok.injEq] at hok
      rw [← hok]
      exact ⟨rfl, rfl, fun _ => rfl⟩
  | connectDestroyed i =>
      rw [TcpServer.runFunctor, Except.ok.injEq, TcpServer.connectDestroyed] at hok
      rw [← hok]
      split_ifs
      · exact setState s i .kDisconnected
      · exact ⟨rfl, rfl, fun _ => rfl⟩

lemma runInLoop {f : Functor} (hok : s.runInLoop t l f = .ok s') : s.Keeps s' := by
  rw [TcpServer.runInLoop] at hok
  split_ifs at hok
  · exact runFunctor hok
  · rw [Except.ok.injEq] at hok
    rw [← hok]
    exact ⟨rfl, rfl, fun _ => rfl⟩

lemma handleClose {i : ℕ} (hok : s.handleClose t i = .ok s') : s.Keeps s' := by
  simp only [TcpServer.handleClose, bind_eq_ok] at hok
  obtain ⟨-, -, hok⟩ := hok
  exact (setState s i .kDisconnected).trans (runInLoop hok)

end Keeps

/-! ## Runs -/

/-- The connections have been given their loops in turn. -/
structure Distributes (s : TcpServer) (numThreads : ℕ) : Prop where
  pool : s.threadPool.InTurn numThreads s.accepted
  loop_eq : ∀ i < s.accepted, (s.conn i).loop = turn numThreads i

lemma serving_distributes (ipPort name : String) (numThreads : ℕ) :
    (serving ipPort name numThreads).Distributes numThreads := by
  obtain ⟨p, hturn, heq⟩ := serving_eq ipPort name numThreads
  rw [heq]
  exact ⟨hturn, fun i hi => absurd hi (Nat.not_lt_zero i)⟩

lemma Distributes.keep (h : s.Distributes numThreads) (hkeeps : s.Keeps s') : s'.Distributes numThreads := by
  refine ⟨?_, ?_⟩
  · rw [hkeeps.threadPool, hkeeps.accepted]
    exact h.pool
  · intro i hi
    rw [hkeeps.accepted] at hi
    rw [hkeeps.loop, h.loop_eq i hi]

/-- **`newConnection`** gives the connection the loop whose turn it is. -/
lemma Distributes.newConnection (h : s.Distributes numThreads) (hok : s.newConnection t = .ok s') :
    s'.Distributes numThreads := by
  obtain ⟨threadPool, hnext, hturn⟩ := getNextLoop_inTurn h.pool
  rw [TcpServer.newConnection, hnext, bind_ok] at hok
  refine Distributes.keep ?_ (Keeps.runInLoop hok)
  refine ⟨hturn, ?_⟩
  intro i hi
  rcases eq_or_ne i s.accepted with rfl | hne
  · simp only [construct, insert, Function.update_self]
  · simp only [construct, insert, Function.update_of_ne hne]
    exact h.loop_eq i (Nat.lt_of_le_of_ne (Nat.le_of_lt_succ hi) hne)

lemma Distributes.step (h : s.Distributes numThreads) {a : Action} (hok : s.step a = .ok s') :
    s'.Distributes numThreads := by
  cases a with
  | accept => exact h.newConnection hok
  | handleClose i =>
      rw [TcpServer.step] at hok
      split_ifs at hok
      exact h.keep (Keeps.handleClose hok)
  | takePending l =>
      simp only [TcpServer.step, guard_eq_ok, Except.ok.injEq] at hok
      obtain ⟨-, rfl⟩ := hok
      exact h.keep ⟨rfl, rfl, fun _ => rfl⟩
  | nextFunctor l =>
      rw [TcpServer.step] at hok
      split at hok
      · simp at hok
      · rename_i f rest hbatch
        have hstart : s.Keeps { s with functors := Function.update s.functors l ((s.functors l).start f rest) } :=
          ⟨rfl, rfl, fun _ => rfl⟩
        exact h.keep (hstart.trans (Keeps.runFunctor hok))

lemma Distributes.loops_eq (h : s.Distributes numThreads) :
    s.loops = (List.range s.accepted).map (turn numThreads) :=
  List.map_congr_left fun i hi => h.loop_eq i (List.mem_range.mp hi)

/-- **Round robin.**  However often `getNextLoop` is called on a pool that has been started, its counter is a valid
index and the loops are handed out in turn; and so are the connections of a server, in any run. -/
theorem handed_out_in_turn (numThreads : ℕ) :
    (∃ p, (EventLoopThreadPool.create.setThreadNum numThreads).start = .ok p ∧
      ∀ k, ∃ loops p', p.getNextLoops k = .ok (loops, p') ∧ loops.length = k ∧
        HandedOut numThreads loops ∧ p'.loops = (List.range numThreads).map .io ∧
        (0 < numThreads → p'.next < p'.loops.length)) ∧
    ∀ ipPort name as, ∀ s ∈ Machine.states step (serving ipPort name numThreads) as,
      HandedOut numThreads s.loops := by
  constructor
  · obtain ⟨p, hstart, hturn⟩ := start_inTurn numThreads
    refine ⟨p, hstart, ?_⟩
    intro k
    obtain ⟨p', hloops, hturn'⟩ := getNextLoops_inTurn hturn k
    refine ⟨_, p', hloops, by rw [List.length_map, List.length_range], handedOut numThreads k,
      hturn'.loops_eq, ?_⟩
    intro hpos
    rw [hturn'.loops_eq, List.length_map, List.length_range]
    exact hturn'.next_lt hpos
  · intro ipPort name as s hs
    have hdistributes : s.Distributes numThreads :=
      Machine.states_invariant (I := fun s : TcpServer => s.Distributes numThreads)
        (fun _ _ _ h hok => h.step hok) (serving_distributes ipPort name numThreads) s hs
    rw [hdistributes.loops_eq]
    exact handedOut numThreads s.accepted

end TcpServer

end Seenet
