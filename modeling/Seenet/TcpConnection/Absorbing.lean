import Seenet.TcpConnection.Lifecycle
import Seenet.TcpConnection.Passes

/-!
# `kDisconnected` is absorbing

The state of a connection goes one way: `kConnecting`, `kConnected`, `kDisconnecting`, `kDisconnected`.
The functions of the loop's thread keep to that.  `shutdown` and `forceClose` may be called by any thread,
and nothing makes one step of their test of `m_state` and the `setState` after it: when the loop closes the
connection between the two, `setState(kDisconnecting)` takes a closed connection back.  And nothing keeps the
loop from a second call of `handleClose`: `handleEvent` may call the close callback and then `handleRead`, which
finds the end of the stream.  The assertion in `handleClose` fails there.

* `StateE.rank` — the order of the states.
* `LateStore` — the step that takes a connection back.
* `LateClose` — the step that calls `handleClose` on a closed connection.  `step_eq_assertFailed_iff` says that the
  assertion of `handleClose` fails there, and nowhere else.
* **`absorbing_iff`** — the state only goes forward, and the close path is entered at most once, exactly in
  the runs without either.
* **`not_absorbing`** — a run with a late store: the connection is closed twice.
-/

namespace Seenet

open Channel TcpConnection

/-- How far a state is along the way. -/
def StateE.rank : StateE → ℕ
  | .kConnecting => 0
  | .kConnected => 1
  | .kDisconnecting => 2
  | .kDisconnected => 3

lemma StateE.rank_le_three (s : StateE) : s.rank ≤ 3 := by
  cases s <;> decide

lemma StateE.rank_le_two {s : StateE} (h : s ≠ .kDisconnected) : s.rank ≤ 2 := by
  cases s with
  | kDisconnected => exact absurd rfl h
  | _ => decide

namespace Life

variable {ι : Type} {l l' : Life ι} {a : Action}

/-- A thread that has found the connection open sets the state after the loop has closed it. -/
def LateStore (l : Life ι) (a : Action) : Prop :=
  (∃ n, a = .store n) ∧ l.conn.state = .kDisconnected

/-- The loop calls `handleClose` of a closed connection: as the close callback of the channel, or in `handleRead`
when `readFd` returns 0. -/
def LateClose (mem : Memory) (l : Life ι) (a : Action) : Prop :=
  l.conn.state = .kDisconnected ∧ l.inside = none ∧
    (a = .handleClose ∨
      ∃ o buffer, a = .handleRead o ∧ l.conn.inputBuffer.readFd mem o = .ok (.ok 0, buffer))

/-- The step is in the close path. -/
def closes (l : Life ι) (a : Action) : Bool := decide (l.kind a = .close)

/-- The user's calls on the loop's thread do not close, and set the state of open connections only. -/
lemma callKind_disconnecting {c : TcpConnection ι} {m : Call} (hkind : c.callKind m = .disconnecting) :
    c.IsOpen := by
  cases m with
  | send message => simp [callKind] at hkind
  | shutdown =>
      rw [callKind] at hkind
      split_ifs at hkind with hstate
      exact Or.inl hstate
  | forceClose =>
      rw [callKind] at hkind
      split_ifs at hkind with hopen
      exact hopen
  | startRead => rw [callKind, functorKind] at hkind; split_ifs at hkind
  | stopRead => rw [callKind, functorKind] at hkind; split_ifs at hkind

lemma functorKind_ne_disconnecting (c : TcpConnection ι) (f : Functor) :
    c.functorKind f ≠ .disconnecting := by
  intro hkind
  rcases c.functorKind_cases f with hmem | ⟨-, hremove⟩
  · simp [hkind] at hmem
  · simp [hkind] at hremove

/-- Only a late store sets the state of a connection that is closed. -/
lemma lateStore_of_disconnecting (hkind : l.kind a = .disconnecting)
    (hstate : l.conn.state = .kDisconnected) : l.LateStore a := by
  have hclosed : ¬ l.conn.IsOpen := by simp [TcpConnection.IsOpen, hstate]
  cases a with
  | store n => exact ⟨⟨n, rfl⟩, hstate⟩
  | call m outcome => exact absurd (callKind_disconnecting hkind) hclosed
  | forceCloseWithDelay => simp [kind, hclosed] at hkind
  | nextFunctor outcome =>
      rw [kind] at hkind
      split at hkind
      · simp at hkind
      · exact absurd hkind (functorKind_ne_disconnecting _ _)
  | destroy outcome =>
      exact absurd hkind (functorKind_ne_disconnecting l.conn .connectDestroyed)
  | handleRead outcome => rw [kind] at hkind; split_ifs at hkind
  | «return» => rw [kind] at hkind; split_ifs at hkind
  | _ => simp [kind] at hkind

/-- Anything else goes forward. -/
lemma Steps.forward (h : l.Steps a l') (hlate : ¬ l.LateStore a) :
    l.conn.state.rank ≤ l'.conn.state.rank := by
  have hchanges := h.changes
  generalize hkind : l.kind a = k at hchanges
  cases hchanges with
  | rest hstate => rw [hstate]
  | establish hstate hstate' =>
      rw [hstate, hstate']
      decide
  | disconnecting hstate' =>
      rw [hstate']
      exact StateE.rank_le_two fun hstate => hlate (lateStore_of_disconnecting hkind hstate)
  | close hopen hstate' =>
      rw [hstate']
      exact StateE.rank_le_three _
  | startRead hstate => rw [hstate]
  | stopRead hstate => rw [hstate]
  | remove hstate => rw [hstate]

/-- A late store goes back. -/
lemma Steps.backward (h : l.Steps a l') (hlate : l.LateStore a) :
    ¬ l.conn.state.rank ≤ l'.conn.state.rank := by
  obtain ⟨⟨n, rfl⟩, hstate⟩ := hlate
  have hchanges : l.conn.Changes .disconnecting l'.conn := h.changes
  cases hchanges with
  | disconnecting hstate' =>
      rw [hstate, hstate']
      decide

/-- The close path ends in `kDisconnected`, and is entered from an open connection only. -/
lemma Steps.closes_spec (h : l.Steps a l') (hcloses : l.closes a = true) :
    l.conn.IsOpen ∧ l'.conn.state = .kDisconnected := by
  have hchanges := h.changes
  rw [of_decide_eq_true hcloses] at hchanges
  cases hchanges with
  | close hopen hstate' => exact ⟨hopen, hstate'⟩

/-- The state the guard of a step leaves. -/
lemma isOpen_of_ne {c : TcpConnection ι} (hconnecting : c.state ≠ .kConnecting) (hclosed : c.state ≠ .kDisconnected) :
    c.IsOpen := by
  cases hstate : c.state with
  | kConnecting => exact absurd hstate hconnecting
  | kConnected => exact Or.inl hstate
  | kDisconnecting => exact Or.inr hstate
  | kDisconnected => exact absurd hstate hclosed

variable [DecidableEq ι]

/-- `handleClose` of an open connection, and what comes to it, does not fail its assertion. -/
lemma handleClose_passes {c : TcpConnection ι} (h : c.Wf) (hopen : c.IsOpen) :
    Passes .handleClose (l.handleClose c) :=
  .bind (beginClose_passes h hopen) fun _ _ => .ok _

variable {mem : Memory}

lemma remove_passes (c : TcpConnection ι) : Passes .handleClose (l.remove c) :=
  .bind (.bind Registry.remove_passes fun _ _ => .ok _) fun _ _ => .ok _

lemma connectDestroyed_passes {c : TcpConnection ι} (h : c.Wf) : Passes .handleClose (l.connectDestroyed c) := by
  rw [connectDestroyed]
  split_ifs
  · refine .bind ?_ fun _ _ => .ok _
    exact .bind (onChannel_passes (h.does_nothing.setState _).wf rfl) fun _ _ => .ok _
  · exact remove_passes c

lemma runFunctor_passes (h : l.conn.Wf) (f : Functor) (o : WriteOutcome) :
    Passes .handleClose (l.runFunctor mem f o) := by
  have hlog := fun f => (h.does_nothing.log (.ran f)).wf
  rw [runFunctor]
  split_ifs with hforce hdestroyed
  · rw [forceCloseInLoopWith]
    split_ifs with hopen
    · exact handleClose_passes (hlog _) hopen
    · exact .ok _
  · exact connectDestroyed_passes (hlog _)
  · exact .bind (TcpConnection.runFunctor_passes h hforce o) fun _ _ => .ok _

/-- The functions of the loop's thread: only a late close fails the assertion. -/
lemma loopStep_passes (h : l.conn.Wf) (hstate : l.conn.state ≠ .kConnecting) (hinside : l.inside = none)
    (hlate : ¬ l.LateClose mem a) : Passes .handleClose (l.loopStep mem a) := by
  cases a with
  | handleRead o =>
      refine handleReadWith_passes fun buffer hread => ?_
      refine handleClose_passes ⟨h.coherent, h.outputBuffer⟩ (isOpen_of_ne hstate fun hclosed => ?_)
      exact hlate ⟨hclosed, hinside, Or.inr ⟨o, buffer, rfl, hread⟩⟩
  | handleWrite o => exact .bind (handleWrite_passes h o) fun _ _ => .ok _
  | handleClose =>
      exact handleClose_passes h (isOpen_of_ne hstate fun hclosed => hlate ⟨hclosed, hinside, Or.inl rfl⟩)
  | takePending =>
      rw [loopStep]
      split_ifs
      · exact .ok _
      · exact .error (by decide)
  | nextFunctor o =>
      rw [loopStep]
      cases l.conn.functors.batch with
      | nil => exact .error (by decide)
      | cons f rest =>
          have hwf : (l.returned (l.conn.startFunctor f rest)).conn.Wf := ⟨h.coherent, h.outputBuffer⟩
          exact runFunctor_passes hwf f o
  | destroy o =>
      rw [loopStep]
      split_ifs
      · have hwf : ({ l with inTable := false } : Life ι).conn.Wf := h
        exact runFunctor_passes hwf .connectDestroyed o
      · exact .error (by decide)
  | _ => exact .error (by decide)

/-- A call by another thread is only queued. -/
lemma post_passes (n : ℕ) (m : Call) : Passes .handleClose (l.conn.call mem (.other n) (.wrote 0) m) := by
  cases m with
  | send message =>
      rw [call]
      split_ifs
      · rw [runInLoop, if_neg (by simp)]
        exact .ok _
      · exact .ok _
  | shutdown =>
      rw [call]
      split_ifs
      · rw [runInLoop, if_neg (by simp)]
        exact .ok _
      · exact .ok _
  | forceClose =>
      rw [call]
      split_ifs
      · exact .ok _
      · exact .ok _
  | startRead => exact .ok _
  | stopRead => exact .ok _

lemma move_passes (h : l.conn.Wf) (hstate : l.conn.state ≠ .kConnecting) (hlate : ¬ l.LateClose mem a) :
    Passes .handleClose (l.move mem a) := by
  cases a with
  | postDestroy =>
      rw [move]
      split_ifs
      · exact .ok _
      · exact .error (by decide)
  | call m o => exact .bind (call_passes h m o) fun _ _ => .ok _
  | forceCloseWithDelay =>
      rw [move]
      split_ifs
      · exact .ok _
      · exact .ok _
  | «return» =>
      rw [move]
      cases l.inside with
      | none => exact .error (by decide)
      | some inside =>
          cases inside with
          | handleClose => exact .ok _
          | connectDestroyed => exact remove_passes _
  | post n m =>
      rw [move]
      split_ifs
      · exact .error (by decide)
      · exact .bind (post_passes n m) fun _ _ => .ok _
  | test n m =>
      rw [move]
      split_ifs
      · exact .error (by decide)
      · exact .ok _
      · exact .ok _
  | store n =>
      rw [move]
      cases l.closers n with
      | tested m => exact .ok _
      | _ => exact .error (by decide)
  | queue n =>
      rw [move]
      cases l.closers n with
      | stored m => exact .ok _
      | _ => exact .error (by decide)
  | connectEstablished =>
      simp only [move]
      split_ifs
      · exact .error (by decide)
      · exact .error (by decide)
  | _ =>
      simp only [move]
      split_ifs with hinside
      · exact loopStep_passes h hstate hinside hlate
      · exact .error (by decide)

/-- **Where the assertion of `handleClose` fails.** -/
theorem step_eq_assertFailed_iff (h : l.conn.Wf) :
    l.step mem a = .error (.assertFailed .handleClose) ↔ l.LateClose mem a := by
  constructor
  · intro hfails
    by_contra hlate
    revert hfails
    change Passes .handleClose (l.step mem a)
    rw [step]
    split_ifs with ha hstate
    · refine .bind (.bind (.assertThat_of_ne (by decide)) fun _ _ => ?_) fun _ _ => .ok _
      exact .bind (onChannel_passes (h.does_nothing.setState _).wf rfl) fun _ _ => .ok _
    · exact .error (by decide)
    · exact .bind (move_passes h hstate hlate) fun _ _ => .ok _
  · rintro ⟨hclosed, hinside, hcase⟩
    have hconnecting : l.conn.state ≠ .kConnecting := by simp [hclosed]
    have hassert : ∀ c : TcpConnection ι, c.state = .kDisconnected →
        l.handleClose c = .error (.assertFailed .handleClose) := by
      intro c hc
      rw [handleClose, beginClose, assertThat, if_neg (by simp [hc]), bind_error, bind_error]
    rcases hcase with rfl | ⟨o, buffer, rfl, hread⟩
    · simp only [step, reduceCtorEq, if_false, hconnecting, move, if_pos hinside, loopStep, hassert _ hclosed,
        bind_error]
    · have hread' : l.conn.handleReadWith l.handleClose l.returned mem o = .error (.assertFailed .handleClose) := by
        rw [handleReadWith, hread, bind_ok]
        dsimp only
        rw [if_neg (Nat.lt_irrefl 0)]
        exact hassert _ hclosed
      simp only [step, reduceCtorEq, if_false, hconnecting, move, if_pos hinside, loopStep, hread', bind_error]

/-- **When `kDisconnected` is absorbing.**  In a run of a connection from its constructor on, the state goes
forward from every state to every later one and the close path is entered at most once, also not by a step in
which the assertion of `handleClose` stops it, if and only if no thread sets the state to `kDisconnecting` after
the loop has closed the connection, and the loop does not call `handleClose` again. -/
theorem absorbing_iff (s : Setting ι) (as : List Action) :
    ((Machine.states (step s.mem) (create s) as).Pairwise
        (fun l l' => l.conn.state.rank ≤ l'.conn.state.rank) ∧
      (Machine.steps (step s.mem) (create s) as).countP (fun p => p.1.closes p.2) ≤ 1 ∧
      Machine.run (step s.mem) (create s) as ≠ .error (.assertFailed .handleClose)) ↔
      (∀ p ∈ Machine.steps (step s.mem) (create s) as, ¬ p.1.LateStore p.2) ∧
        ∀ p ∈ Machine.attempts (step s.mem) (create s) as, ¬ p.1.LateClose s.mem p.2 := by
  have hwf := create_wf s
  have hiff : (Machine.states (step s.mem) (create s) as).Pairwise
      (fun l l' => l.conn.state.rank ≤ l'.conn.state.rank) ↔
      ∀ p ∈ Machine.steps (step s.mem) (create s) as, ¬ p.1.LateStore p.2 :=
    Machine.pairwise_states_iff (I := fun l : Life ι => l.conn.Wf)
      (R := fun l l' => l.conn.state.rank ≤ l'.conn.state.rank)
      (C := fun l a => ¬ l.LateStore a) (fun _ => le_refl _) (fun _ _ _ => le_trans)
      (fun l a l' h hlate hstep =>
        ⟨(changes_of_step h hstep).wf, (changes_of_step h hstep).forward hlate⟩)
      (fun l a l' h hlate hstep => (changes_of_step h hstep).backward (not_not.mp hlate)) hwf as
  have hvisited : ∀ l ∈ Machine.states (step s.mem) (create s) as, l.conn.Wf :=
    Machine.states_invariant (I := fun l : Life ι => l.conn.Wf)
      (fun l a l' h hstep => (changes_of_step h hstep).wf) hwf
  have hfails : Machine.run (step s.mem) (create s) as ≠ .error (.assertFailed .handleClose) ↔
      ∀ p ∈ Machine.attempts (step s.mem) (create s) as, ¬ p.1.LateClose s.mem p.2 := by
    rw [ne_eq, Machine.run_eq_error_iff, not_exists]
    refine forall_congr' fun p => ?_
    rw [not_and]
    refine forall_congr' fun hp => ?_
    rw [step_eq_assertFailed_iff (hvisited p.1 (Machine.state_of_mem_attempts hp))]
  rw [hiff, hfails]
  refine and_congr_right fun hlate => and_iff_right ?_
  refine (Machine.countP_steps_le_one (I := fun l : Life ι => l.conn.Wf)
    (Z := fun l => l.conn.state = .kDisconnected) (C := fun l a => ¬ l.LateStore a)
    (D := closes) ?_ ?_ ?_ hwf hlate).1
  · exact fun l a l' h _ hstep => (changes_of_step h hstep).wf
  · exact fun l a l' h _ hstep hcloses => ((changes_of_step h hstep).closes_spec hcloses).2
  · intro l a l' h hclosed hnot hstep
    have hsteps := changes_of_step h hstep
    constructor
    · have hle := hsteps.forward hnot
      rw [hclosed] at hle
      by_contra hne
      exact absurd (hle.trans (StateE.rank_le_two hne)) (by decide)
    · by_contra hcloses
      have hopen := (hsteps.closes_spec (by simpa using hcloses)).1
      simp [TcpConnection.IsOpen, hclosed] at hopen

/-- Another thread is in `forceClose`, between the test and the `setState`, when the peer closes. -/
def lateForceClose : List Action :=
  [.connectEstablished, .test 0 .forceClose, .handleRead (.bytes []), .return, .store 0, .queue 0,
    .takePending, .nextFunctor (.wrote 0), .nextFunctor (.wrote 0)]

/-- **A connection that is closed twice.** -/
theorem not_absorbing :
    (Machine.states (step Setting.plain.mem) (create Setting.plain) lateForceClose).map
        (fun l => l.conn.state) =
      [.kConnecting, .kConnected, .kConnected, .kDisconnected, .kDisconnected, .kDisconnecting,
        .kDisconnecting, .kDisconnecting, .kDisconnecting, .kDisconnected] ∧
    ¬ (Machine.states (step Setting.plain.mem) (create Setting.plain) lateForceClose).Pairwise
        (fun l l' => l.conn.state.rank ≤ l'.conn.state.rank) ∧
    (Machine.steps (step Setting.plain.mem) (create Setting.plain) lateForceClose).countP
        (fun p => p.1.closes p.2) = 2 := by
  have hstates : (Machine.states (step Setting.plain.mem) (create Setting.plain)
      lateForceClose).map (fun l => l.conn.state) =
      [.kConnecting, .kConnected, .kConnected, .kDisconnected, .kDisconnected, .kDisconnecting,
        .kDisconnecting, .kDisconnecting, .kDisconnecting, .kDisconnected] := by
    decide +kernel
  refine ⟨hstates, fun hpairwise => ?_, by decide +kernel⟩
  have hranks : ((Machine.states (step Setting.plain.mem) (create Setting.plain)
      lateForceClose).map fun l => l.conn.state).Pairwise fun s s' => s.rank ≤ s'.rank :=
    List.pairwise_map.mpr hpairwise
  rw [hstates] at hranks
  exact absurd hranks (by decide)

/-- The peer is gone, and the loop is told twice in one `handleEvent`: by the close callback, and by `handleRead`. -/
example : (Machine.run (step Setting.plain.mem) (create Setting.plain)
    [.connectEstablished, .handleClose, .return, .handleRead (.bytes [])]).map (fun _ => ())
      = .error (.assertFailed .handleClose) := by
  decide +kernel

end Life

end Seenet
