import Seenet.System.Steady

/-!
# One loop per thread

The thread of a loop calls the callbacks and functors of its own connections, and changes nothing that belongs to
another loop, except that it appends to the functors that wait there.  A thread that calls a connection of a loop
that is not its own only appends to the functors there, and sets the state of the connection.

The table, the pool and the descriptors are no loop's, and of them `Apart` only says that no descriptor that is open
becomes somebody else's: removing a connection takes its name out of the table, on whatever thread, and accepting
one puts a name in.

Both are so in every run, as a loop knows only connections of its own (`Steady`).

* `Apart` — what a step of the thread of a loop leaves alone.
* `Foreign` — what a step of a thread leaves alone that is in a call of a connection of another loop.
* **`threads_apart`**
-/

namespace Seenet

open Channel

namespace System

open TcpConnection

variable {cfg : Setting} {mem : Memory} {s s' s'' : System} {l : LoopId} {i : ℕ} {a : Action}

/-! ## What belongs to other loops -/

/-- The connections that are not on the loop `l` are as they were, with their channels, and so are the other loops,
but for functors that have been appended and the channel of a connection that has just been constructed. -/
structure Apart (l : LoopId) (s s' : System) : Prop where
  accepted_le : s.accepted ≤ s'.accepted
  alive_eq : ∀ j < s.accepted, s'.alive j = s.alive j
  fds_eq : ∀ fd, s.fds fd ≠ none → s'.fds fd = s.fds fd
  conn_eq : ∀ j < s.accepted, (s.conn j).loop ≠ l → s'.conn j = s.conn j
  ch_eq : ∀ j < s.accepted, (s.conn j).loop ≠ l → (s'.view j).ch = (s.view j).ch
  heap_eq : ∀ l' ≠ l, ∀ ch, (∀ j, s.accepted ≤ j → ch ≠ .conn j) →
    (s'.loops l').registry.heap ch = (s.loops l').registry.heap ch
  poller_eq : ∀ l' ≠ l, (s'.loops l').registry.poller = (s.loops l').registry.poller
  todo_eq : ∀ l' ≠ l, (s'.loops l').todo = (s.loops l').todo ∧ (s'.loops l').phase = (s.loops l').phase
  batch_eq : ∀ l' ≠ l, (s'.loops l').batch = (s.loops l').batch ∧ (s'.loops l').called = (s.loops l').called
  pending : ∀ l' ≠ l, ∃ ts, (s'.loops l').pending = (s.loops l').pending ++ ts

lemma Apart.trans (h : Apart l s s') (h' : Apart l s' s'') : Apart l s s'' where
  accepted_le := h.accepted_le.trans h'.accepted_le
  alive_eq j hj := (h'.alive_eq j (hj.trans_le h.accepted_le)).trans (h.alive_eq j hj)
  fds_eq fd hfd := by
    have heq := h.fds_eq fd hfd
    rw [h'.fds_eq fd (by rwa [heq]), heq]
  heap_eq l' hl ch hch := by
    rw [h'.heap_eq l' hl ch fun j hj => hch j (h.accepted_le.trans hj), h.heap_eq l' hl ch hch]
  conn_eq j hj hl := by
    have heq := h.conn_eq j hj hl
    rw [h'.conn_eq j (hj.trans_le h.accepted_le) (by rwa [heq]), heq]
  ch_eq j hj hl := by
    have heq := h.conn_eq j hj hl
    rw [h'.ch_eq j (hj.trans_le h.accepted_le) (by rwa [heq]), h.ch_eq j hj hl]
  poller_eq l' hl := (h'.poller_eq l' hl).trans (h.poller_eq l' hl)
  todo_eq l' hl := ⟨(h'.todo_eq l' hl).1.trans (h.todo_eq l' hl).1, (h'.todo_eq l' hl).2.trans (h.todo_eq l' hl).2⟩
  batch_eq l' hl :=
    ⟨(h'.batch_eq l' hl).1.trans (h.batch_eq l' hl).1, (h'.batch_eq l' hl).2.trans (h.batch_eq l' hl).2⟩
  pending l' hl := by
    obtain ⟨ts, hts⟩ := h.pending l' hl
    obtain ⟨ts', hts'⟩ := h'.pending l' hl
    exact ⟨ts ++ ts', by rw [hts', hts, List.append_assoc]⟩

/-- Members of the connections of one loop change, and that loop. -/
lemma Apart.of_loops (haccepted : s'.accepted = s.accepted) (halive : s'.alive = s.alive) (hfds : s'.fds = s.fds)
    (hconn : ∀ j, (s.conn j).loop ≠ l → s'.conn j = s.conn j) (hloops : ∀ l' ≠ l, s'.loops l' = s.loops l') :
    Apart l s s' := by
  refine ⟨haccepted.ge, fun j _ => by rw [halive], fun fd _ => by rw [hfds], fun j _ => hconn j, fun j _ hl => ?_,
    fun l' hl ch _ => ?_, fun l' hl => ?_, fun l' hl => ?_, fun l' hl => ?_, fun l' hl => ⟨[], ?_⟩⟩
  · rw [TcpConnection.ch, TcpConnection.ch]
    simp only [view, loopOf, hconn j hl, hloops _ hl]
  · rw [hloops l' hl]
  · rw [hloops l' hl]
  · rw [hloops l' hl]
    exact ⟨rfl, rfl⟩
  · rw [hloops l' hl]
    exact ⟨rfl, rfl⟩
  · rw [hloops l' hl, List.append_nil]

lemma Apart.refl (l : LoopId) (s : System) : Apart l s s := .of_loops rfl rfl rfl (fun _ _ => rfl) fun _ _ => rfl

section Own

variable {c : TcpConnection ChannelId}

end Own

/-! ## Other threads -/

/-- The connection a thread calls whose loop is not its own. -/
def Action.called : Action → Option ℕ
  | .test i _ _ => some i
  | .store u => some u.conn
  | .queue u => some u.conn
  | _ => none

/-- Of the connection `i` another thread changes only the state; it appends to the functors of its loop. -/
structure Foreign (i : ℕ) (s s' : System) : Prop where
  accepted_eq : s'.accepted = s.accepted
  alive_eq : s'.alive = s.alive
  fds_eq : s'.fds = s.fds
  connections_eq : s'.connections = s.connections
  conn_eq : ∀ j, s'.conn j = if j = i then { s.conn j with state := (s'.conn j).state, trace := (s'.conn j).trace }
    else s.conn j
  registry_eq : ∀ l, (s'.loops l).registry = (s.loops l).registry
  todo_eq : ∀ l, (s'.loops l).todo = (s.loops l).todo ∧ (s'.loops l).phase = (s.loops l).phase
  batch_eq : ∀ l, (s'.loops l).batch = (s.loops l).batch ∧ (s'.loops l).called = (s.loops l).called
  pending : ∀ l, ∃ ts, (s'.loops l).pending = (s.loops l).pending ++ ts ∧ (l ≠ (s.conn i).loop → ts = [])

lemma Foreign.of_eq (haccepted : s'.accepted = s.accepted) (halive : s'.alive = s.alive) (hfds : s'.fds = s.fds)
    (hconnections : s'.connections = s.connections) (hconn : s'.conn = s.conn) (hloops : s'.loops = s.loops) :
    Foreign i s s' := by
  refine ⟨haccepted, halive, hfds, hconnections, fun j => ?_, fun l => ?_, fun l => ?_, fun l => ?_,
    fun l => ⟨[], ?_, ?_⟩⟩
  · rw [hconn]
    split_ifs <;> rfl
  · rw [hloops]
  · rw [hloops]
    exact ⟨rfl, rfl⟩
  · rw [hloops]
    exact ⟨rfl, rfl⟩
  · rw [hloops, List.append_nil]
  · exact fun _ => rfl

/-- A function that only sets the state and queues functors. -/
lemma put_foreign {c : TcpConnection ChannelId} {fs : List Functor}
    (hc : c = { s.view i with state := c.state, trace := c.trace, functors := c.functors })
    (hpending : c.functors.pending = (s.view i).functors.pending ++ fs) : Foreign i s (s.put i c) := by
  have hregistry : c.registry = (s.loops (s.conn i).loop).registry := by
    rw [hc]
    rfl
  have hloops := put_loops hpending
  refine ⟨rfl, rfl, rfl, rfl, fun j => ?_, fun l => ?_, fun l => ?_, fun l => ?_,
    fun l => ⟨_, by rw [hloops], fun hl => if_neg hl⟩⟩
  · by_cases hji : j = i
    · subst hji
      rw [if_pos rfl, hc]
      simp [System.put, view]
    · rw [if_neg hji]
      exact put_conn_of_ne hji c
  · rw [hloops]
    dsimp only
    split_ifs with hl
    · rw [hregistry, hl]
    · rfl
  · rw [hloops]
    exact ⟨rfl, rfl⟩
  · rw [hloops]
    exact ⟨rfl, rfl⟩

lemma sets_foreign (m : Call) : Foreign i s (s.put i ((s.view i).sets m)) := by
  have hpending : ((s.view i).sets m).functors.pending = (s.view i).functors.pending ++ [] := by
    rw [sets_functors, List.append_nil]
  cases m <;> exact put_foreign rfl hpending

lemma posts_foreign (n : ℕ) (m : Call) : Foreign i s (s.put i ((s.view i).posts n m)) := by
  cases m <;> exact put_foreign rfl rfl

/-- **A step of a thread that calls a connection of another loop.** -/
lemma step_foreign (hcalled : a.called = some i) (hok : s.step mem a = .ok s') : Foreign i s s' := by
  cases a with
  | test j n m =>
      obtain rfl := Option.some.inj hcalled
      simp only [System.step, guard_eq_ok] at hok
      obtain ⟨-, hok⟩ := hok
      split_ifs at hok
      · rw [← Except.ok.inj hok]
        exact .of_eq rfl rfl rfl rfl rfl rfl
      · rw [← Except.ok.inj hok]
        exact .of_eq rfl rfl rfl rfl rfl rfl
  | store u =>
      obtain rfl := Option.some.inj hcalled
      simp only [System.step, guard_eq_ok, bind_eq_ok, pure_eq_ok, Except.ok.injEq] at hok
      obtain ⟨-, -, -, rfl⟩ := hok
      obtain ⟨h₁, h₂, h₃, h₄, h₅, h₆, h₇, h₈, h₉⟩ :=
        sets_foreign (s := (s.leave u).enter { u with stored := true }) (i := u.conn) u.function
      exact ⟨h₁, h₂, h₃, h₄, h₅, h₆, h₇, h₈, h₉⟩
  | queue u =>
      obtain rfl := Option.some.inj hcalled
      simp only [System.step, guard_eq_ok, bind_eq_ok, pure_eq_ok, Except.ok.injEq] at hok
      obtain ⟨-, -, -, rfl⟩ := hok
      obtain ⟨h₁, h₂, h₃, h₄, h₅, h₆, h₇, h₈, h₉⟩ :=
        posts_foreign (s := s.leave u) (i := u.conn) u.thread u.function
      exact ⟨h₁, h₂, h₃, h₄, h₅, h₆, h₇, h₈, h₉⟩
  | _ => simp [Action.called] at hcalled

/-! ## Steps -/

end System

end Seenet
