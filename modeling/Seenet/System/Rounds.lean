import Seenet.System.Stages

/-!
# How long a closed connection stays

When a connection is closed, its entry in the table and its channel are taken care of by its loop: `m_closeCallback`
is called at once, and `connectDestroyed` is queued.

* `Spent` — the connection is closed, and `m_closeCallback` has been called.
* `Rests` — what a step does not do: a connection that is spent stays so, and nothing is queued for it.
* **`released_after_two_rounds`** — when its loop has ended two rounds, nobody but the user holds the connection.
-/

namespace Seenet

open Channel

namespace TcpConnection

variable {ι : Type} {c c' : TcpConnection ι} {mem : Memory}

/-- Another thread finds nothing to do with a connection that is closed. -/
lemma not_passes_of_disconnected (hstate : c.state = .kDisconnected) {m : Call} (hplain : m.Plain) :
    c.passes m = false := by
  cases m with
  | send message | shutdown | forceClose => simp [passes, hstate]
  | startRead | stopRead => exact hplain.elim

variable [DecidableEq ι]

/-- A functor of a connection that is closed queues nothing. -/
lemma runFunctor_disconnected (h : c.Wf) (hstate : c.state = .kDisconnected) {f : Functor} {o : WriteOutcome}
    (hforce : f ≠ .forceCloseInLoop) (hok : c.runFunctor mem f o = .ok c') :
    c'.functors.pending = c.functors.pending := by
  have hlog := h.does_nothing.log (.ran f)
  cases f with
  | sendInLoop t message =>
      have hsend : (c.log (.ran (.sendInLoop t message))).sendInLoop mem t message o
          = .ok (c.log (.ran (.sendInLoop t message))) := by
        rw [sendInLoop, log_state, if_pos hstate]
        rfl
      rw [runFunctor, hsend] at hok
      rw [← Except.ok.inj hok]
      rfl
  | shutdownInLoop =>
      rw [← Except.ok.inj hok]
      obtain ⟨hdoes, -⟩ := shutdownInLoop_spec hlog.wf
      rw [hdoes.pending_eq]
      exact List.append_nil _
  | forceCloseInLoop => exact absurd rfl hforce
  | startReadInLoop =>
      obtain ⟨hdoes, -⟩ := startReadInLoop_ok hlog.wf hok
      rw [hdoes.pending_eq]
      exact List.append_nil _
  | stopReadInLoop =>
      obtain ⟨hdoes, -⟩ := stopReadInLoop_ok hlog.wf hok
      rw [hdoes.pending_eq]
      exact List.append_nil _
  | writeCompleteCallback | highWateMarkCallback _ =>
      rw [← Except.ok.inj hok]
      rfl
  | connectDestroyed =>
      obtain ⟨⟨es, hdoes, -⟩, -⟩ := connectDestroyed_spec hlog.wf hok
      rw [hdoes.pending_eq]
      exact List.append_nil _

/-- A call of a connection that is closed does nothing. -/
lemma call_disconnected (hstate : c.state = .kDisconnected) {t : Thread} {m : Call} {o : WriteOutcome}
    (hplain : m.Plain) (hok : c.call mem t o m = .ok c') : c' = c := by
  cases m with
  | send message | shutdown | forceClose =>
      simp only [call, hstate] at hok
      exact (Except.ok.inj hok).symm
  | startRead | stopRead => exact hplain.elim

end TcpConnection

namespace System

open TcpConnection

variable {cfg : Setting} {mem : Memory} {s s' s'' : System} {l : LoopId} {i : ℕ} {a : Action}

/-- The connection is closed, and `m_closeCallback` has been called. -/
def Spent (s : System) (i : ℕ) : Prop :=
  (s.conn i).state = .kDisconnected ∧ .closeCallback i ∉ (s.loopOf i).todo

/-- No thread is in a call of the connection. -/
def Uncalled (s : System) (i : ℕ) : Prop := ∀ u ∈ s.calls, u.conn ≠ i

instance (s : System) (i : ℕ) : Decidable (s.Uncalled i) := inferInstanceAs (Decidable (∀ u ∈ s.calls, u.conn ≠ i))

/-- The connections that are closed stay closed, and those that are spent stay so; nothing is queued for them by a
thread that was not in a call of them before, and a connection that has become spent is not in the table. -/
structure Rests (s s' : System) : Prop where
  accepted_le : s.accepted ≤ s'.accepted
  loop_eq : ∀ i < s.accepted, (s'.conn i).loop = (s.conn i).loop
  state : ∀ i < s.accepted, (s.conn i).state = .kDisconnected → (s'.conn i).state = .kDisconnected
  spent : ∀ i < s.accepted, s.Spent i → s'.Spent i
  uncalled : ∀ i < s.accepted, (s.conn i).state = .kDisconnected → s.Uncalled i → s'.Uncalled i
  tasks : ∀ i < s.accepted, s.Spent i → s.Uncalled i → ∀ l, ∀ t ∈ (s'.loops l).tasks, t.conn = i →
    t ∈ (s.loops l).tasks
  pending : ∀ i < s.accepted, s.Spent i → s.Uncalled i → ∀ l, ∀ t ∈ (s'.loops l).pending, t.conn = i →
    t ∈ (s.loops l).pending
  held : ∀ i < s.accepted, s'.Held i → s.Held i
  fresh : ∀ i < s'.accepted, s'.Spent i → (i < s.accepted ∧ s.Spent i) ∨ ¬ s'.Held i
  draining : ∀ i < s.accepted, (s.conn i).state = .kDisconnected → s.Uncalled i → (s'.loopOf i).phase = .draining →
    (s.loopOf i).phase = .draining ∨ (s'.Spent i ∧ ∀ t ∈ (s'.loopOf i).pending, t.conn ≠ i)

lemma Rests.refl (s : System) : s.Rests s :=
  ⟨le_rfl, fun _ _ => rfl, fun _ _ h => h, fun _ _ h => h, fun _ _ _ h => h, fun _ _ _ _ _ _ h _ => h,
    fun _ _ _ _ _ _ h _ => h, fun _ _ h => h, fun _ hi h => Or.inl ⟨hi, h⟩, fun _ _ _ _ h => Or.inl h⟩

lemma Rests.trans (h : s.Rests s') (h' : s'.Rests s'') : s.Rests s'' where
  accepted_le := h.accepted_le.trans h'.accepted_le
  loop_eq i hi := (h'.loop_eq i (hi.trans_le h.accepted_le)).trans (h.loop_eq i hi)
  state i hi hstate := h'.state i (hi.trans_le h.accepted_le) (h.state i hi hstate)
  spent i hi hspent := h'.spent i (hi.trans_le h.accepted_le) (h.spent i hi hspent)
  uncalled i hi hstate huncalled :=
    h'.uncalled i (hi.trans_le h.accepted_le) (h.state i hi hstate) (h.uncalled i hi hstate huncalled)
  tasks i hi hspent huncalled l t ht hti := by
    have huncalled' := h.uncalled i hi hspent.1 huncalled
    exact h.tasks i hi hspent huncalled l t
      (h'.tasks i (hi.trans_le h.accepted_le) (h.spent i hi hspent) huncalled' l t ht hti) hti
  pending i hi hspent huncalled l t ht hti := by
    have huncalled' := h.uncalled i hi hspent.1 huncalled
    exact h.pending i hi hspent huncalled l t
      (h'.pending i (hi.trans_le h.accepted_le) (h.spent i hi hspent) huncalled' l t ht hti) hti
  held i hi hheld := h.held i hi (h'.held i (hi.trans_le h.accepted_le) hheld)
  fresh i hi hspent := by
    rcases h'.fresh i hi hspent with ⟨hi', hspent'⟩ | hheld
    · rcases h.fresh i hi' hspent' with hold | hheld
      · exact Or.inl hold
      · exact Or.inr fun hheld' => hheld (h'.held i hi' hheld')
    · exact Or.inr hheld
  draining i hi hstate huncalled hphase := by
    have hi' := hi.trans_le h.accepted_le
    have huncalled' := h.uncalled i hi hstate huncalled
    rcases h'.draining i hi' (h.state i hi hstate) huncalled' hphase with hphase' | hspent
    · rcases h.draining i hi hstate huncalled hphase' with hphase'' | ⟨hspent, hnone⟩
      · exact Or.inl hphase''
      · refine Or.inr ⟨h'.spent i hi' hspent, fun t ht hti => hnone t ?_ hti⟩
        rw [loopOf, h'.loop_eq i hi'] at ht
        exact h'.pending i hi' hspent huncalled' _ t ht hti
    · exact Or.inr hspent

/-- Only what the loops hold changes, and it gets less. -/
lemma Rests.of_loops (haccepted : s'.accepted = s.accepted) (hconn : s'.conn = s.conn)
    (hconnections : s'.connections = s.connections)
    (hcalls : ∀ i, (s.conn i).state = .kDisconnected → s.Uncalled i → s'.Uncalled i)
    (htodo : ∀ l i, .closeCallback i ∈ (s'.loops l).todo ↔ .closeCallback i ∈ (s.loops l).todo)
    (htasks : ∀ l, ∀ t ∈ (s'.loops l).tasks, t ∈ (s.loops l).tasks)
    (hpending : ∀ l, ∀ t ∈ (s'.loops l).pending, t ∈ (s.loops l).pending)
    (hphase : ∀ l, (s'.loops l).phase = .draining → (s.loops l).phase = .draining) : s.Rests s' := by
  have hspent : ∀ i, s'.Spent i ↔ s.Spent i := fun i => by rw [Spent, Spent, loopOf, loopOf, hconn, htodo]
  refine ⟨haccepted.ge, fun i _ => by rw [hconn], fun i _ hstate => by rwa [hconn], fun i _ => (hspent i).mpr,
    fun i _ => hcalls i, ?_, ?_, ?_, fun i hi h => Or.inl ⟨haccepted ▸ hi, (hspent i).mp h⟩,
    fun i _ _ _ h => Or.inl (hphase _ ?_)⟩
  · exact fun i _ _ _ l t ht _ => htasks l t ht
  · exact fun i _ _ _ l t ht _ => hpending l t ht
  · intro i _ hheld
    rwa [Held, hconn, hconnections] at hheld
  · rwa [loopOf, hconn] at h

/-- The loops, the connections and the table are as they were. -/
lemma Rests.of_calls (haccepted : s'.accepted = s.accepted) (hconn : s'.conn = s.conn)
    (hconnections : s'.connections = s.connections) (hloops : s'.loops = s.loops)
    (hcalls : ∀ i, (s.conn i).state = .kDisconnected → s.Uncalled i → s'.Uncalled i) : s.Rests s' := by
  refine .of_loops haccepted hconn hconnections hcalls ?_ ?_ ?_ ?_
  · exact fun l i => by rw [hloops]
  · exact fun l t ht => by rwa [hloops] at ht
  · exact fun l t ht => by rwa [hloops] at ht
  · exact fun l hphase => by rwa [hloops] at hphase

/-- One loop changes, and what it holds gets less. -/
lemma Rests.setLoop {loop : Loop} (htodo : ∀ i, .closeCallback i ∈ loop.todo ↔ .closeCallback i ∈ (s.loops l).todo)
    (htasks : ∀ t ∈ loop.tasks, t ∈ (s.loops l).tasks) (hpending : ∀ t ∈ loop.pending, t ∈ (s.loops l).pending)
    (hphase : loop.phase = .draining → (s.loops l).phase = .draining) : s.Rests (s.setLoop l loop) := by
  have hself : (s.setLoop l loop).loops l = loop := Function.update_self ..
  have hothers : ∀ l', l' ≠ l → (s.setLoop l loop).loops l' = s.loops l' := fun l' hl => Function.update_of_ne hl ..
  refine .of_loops rfl rfl rfl (fun _ _ h => h) (fun l' i => ?_) (fun l' t ht => ?_) (fun l' t ht => ?_) fun l' h => ?_
  all_goals by_cases hl : l' = l
  · rw [hl, hself]
    exact htodo i
  · rw [hothers l' hl]
  · rw [hl, hself] at ht
    rw [hl]
    exact htasks t ht
  · rwa [hothers l' hl] at ht
  · rw [hl, hself] at ht
    rw [hl]
    exact hpending t ht
  · rwa [hothers l' hl] at ht
  · rw [hl, hself] at h
    rw [hl]
    exact hphase h
  · rwa [hothers l' hl] at h

/-! ## Functions of a connection -/

section Put

variable {c : TcpConnection ChannelId} {fs : List Functor}

/-- **A function of a connection** that queues nothing when the connection is closed, unless a thread is in a call of it,
and does not close it. -/
lemma put_rests (hpending : c.functors.pending = (s.view i).functors.pending ++ fs)
    (hfs : (s.conn i).state = .kDisconnected → s.Uncalled i → fs = [])
    (hstate : (s.conn i).state = .kDisconnected ↔ c.state = .kDisconnected) : s.Rests (s.put i c) := by
  have htodo : ∀ l, ((s.put i c).loops l).todo = (s.loops l).todo := fun l => by rw [put_loops hpending]
  have hstates : ∀ j, ((s.put i c).conn j).state = .kDisconnected ↔ (s.conn j).state = .kDisconnected := by
    intro j
    by_cases hji : j = i
    · rw [hji, hstate]
      simp [System.put]
    · rw [put_conn_of_ne hji]
  have hspent : ∀ j, (s.put i c).Spent j ↔ s.Spent j := by
    intro j
    rw [Spent, Spent, hstates, loopOf, loopOf, (s.put_conn_const i c j).2.1, htodo]
  -- what is new belongs to the connection, which is not closed
  have hnew : ∀ j, s.Spent j → s.Uncalled j → ∀ t, t ∈ fs.map (Task.functor i) → t.conn ≠ j := by
    rintro j hj huncalled t ht rfl
    obtain ⟨f, hf, rfl⟩ := List.mem_map.mp ht
    rw [hfs hj.1 huncalled] at hf
    simp at hf
  refine ⟨le_rfl, fun j _ => (s.put_conn_const i c j).2.1, fun j _ => (hstates j).mpr, fun j _ => (hspent j).mpr,
    fun _ _ _ h => h, ?_, ?_, fun j _ => put_held.mp, fun j hj h => Or.inl ⟨hj, (hspent j).mp h⟩,
    fun j _ _ _ h => Or.inl ?_⟩
  · intro j _ hj huncalled l t ht htj
    rw [put_loops hpending, Loop.tasks] at ht
    simp only [List.mem_append] at ht
    rcases ht with ((ht | ht) | ht) | ht
    · simp [Loop.tasks, ht]
    · split_ifs at ht
      · exact absurd htj (hnew j hj huncalled t ht)
      · simp at ht
    · simp [Loop.tasks, ht]
    · simp [Loop.tasks, ht]
  · intro j _ hj huncalled l t ht htj
    rw [put_loops hpending] at ht
    simp only [List.mem_append] at ht
    rcases ht with ht | ht
    · exact ht
    · split_ifs at ht
      · exact absurd htj (hnew j hj huncalled t ht)
      · simp at ht
  · rwa [loopOf, (s.put_conn_const i c j).2.1, put_loops hpending] at h

/-- **`handleClose`**: the connection is closed, and `m_closeCallback` is to be called. -/
lemma handleClose_rests (hwf : c.Wf) (hpending : c.functors.pending = (s.view i).functors.pending)
    (hstate : c.state = (s.conn i).state) (hl : (s.conn i).loop = l) (hok : s.handleClose l i c = .ok s') :
    s.Rests s' := by
  rw [handleClose, bind_eq_ok] at hok
  obtain ⟨c', hclose, hs'⟩ := hok
  obtain ⟨hdoes, hopen, -, -⟩ := beginClose_spec hwf hclose
  have hlive : ¬ (s.conn i).state = .kDisconnected := by
    rw [← hstate]
    rcases hopen with hopen | hopen <;> simp [hopen]
  have hpending' : c'.functors.pending = (s.view i).functors.pending ++ [] := by
    rw [hdoes.pending_eq, hpending]
  have hloops : ∀ l', (s'.loops l').pending = (s.loops l').pending ∧ (s'.loops l').tasks = (s.loops l').tasks ∧
      (s'.loops l').phase = (s.loops l').phase ∧ ∀ j, .closeCallback j ∈ (s'.loops l').todo ↔
        (l' = l ∧ j = i) ∨ .closeCallback j ∈ (s.loops l').todo := by
    intro l'
    rw [← Except.ok.inj hs']
    by_cases hl' : l' = l
    · simp only [callFirst, System.setLoop, hl', Function.update_self, put_loops hpending', Loop.tasks]
      simp
    · simp only [callFirst, System.setLoop, Function.update_of_ne hl', put_loops hpending', Loop.tasks]
      simp [hl']
  have hmember : (∀ j, (s'.conn j).loop = (s.conn j).loop ∧ (s'.conn j).name = (s.conn j).name) ∧
      (∀ j ≠ i, (s'.conn j).state = (s.conn j).state) ∧ s'.connections = s.connections ∧
      s'.accepted = s.accepted := by
    rw [← Except.ok.inj hs']
    refine ⟨fun j => ⟨(s.put_conn_const i c' j).2.1, (s.put_conn_const i c' j).1⟩, fun j hji => ?_, rfl, rfl⟩
    exact congrArg Member.state (put_conn_of_ne hji c')
  obtain ⟨hconst, hothers, hconnections, haccepted⟩ := hmember
  have hspent : ∀ j, s'.Spent j ↔ j ≠ i ∧ s.Spent j := by
    intro j
    rw [Spent, Spent, loopOf, loopOf, (hconst j).1, (hloops _).2.2.2]
    by_cases hji : j = i
    · simp [hji, hl]
    · simp [hji, hothers j hji]
  have hne : ∀ j, (s.conn j).state = .kDisconnected → j ≠ i := by
    rintro j hj rfl
    exact hlive hj
  have hcalls : s'.calls = s.calls := by
    rw [← Except.ok.inj hs']
    rfl
  refine ⟨haccepted.ge, fun j _ => (hconst j).1, fun j _ hj => ?_, fun j _ hj => ?_, ?_, ?_, ?_, fun j _ hheld => ?_,
    fun j hj h => Or.inl ⟨haccepted ▸ hj, ((hspent j).mp h).2⟩, fun j _ _ _ h => Or.inl ?_⟩
  · rw [hothers j (hne j hj)]
    exact hj
  · exact (hspent j).mpr ⟨hne j hj.1, hj⟩
  · exact fun j _ _ h => by rwa [Uncalled, hcalls]
  · exact fun j _ _ _ l' t ht _ => (hloops l').2.1 ▸ ht
  · exact fun j _ _ _ l' t ht _ => (hloops l').1 ▸ ht
  · rwa [Held, (hconst j).2, hconnections] at hheld
  · rwa [loopOf, (hconst j).1, (hloops _).2.2.1] at h

end Put

/-! ## Functors and callbacks -/

/-- **A functor** that the thread of a loop has taken. -/
lemma runTask_rests {t : Task} (h : s.Sound cfg [t]) (hl : (s.conn t.conn).loop = l)
    (hkind : ∀ i, t ≠ .removeConnectionInLoop i) {o : WriteOutcome} (hok : s.runTask mem l o t = .ok s') :
    s.Rests s' := by
  cases t with
  | connectEstablished i =>
      simp only [runTask, bind_eq_ok, pure_eq_ok, Except.ok.injEq] at hok
      obtain ⟨_, halive, c, hc, rfl⟩ := hok
      obtain ⟨hdoes, hconnecting, hconnected⟩ := connectEstablished_spec (h.view_wf (deref_eq_ok.mp halive)) hc
      have hstate : (s.conn i).state = .kConnecting := hconnecting
      exact put_rests hdoes.pending_eq (fun _ _ => rfl) (by simp [hstate, hconnected])
  | removeConnectionInLoop i => exact absurd rfl (hkind i)
  | functor i f =>
      simp only [runTask, bind_eq_ok] at hok
      obtain ⟨_, halive, hok⟩ := hok
      rw [deref_eq_ok] at halive
      have hwf := h.view_wf halive
      split_ifs at hok with hforce
      · have hlog := hwf.does_nothing.log (.ran .forceCloseInLoop)
        rw [forceCloseInLoopWith] at hok
        split_ifs at hok
        · exact handleClose_rests hlog.wf rfl rfl hl hok
        · rw [← Except.ok.inj hok]
          exact put_rests hlog.pending_eq (fun _ _ => rfl) Iff.rfl
      · simp only [bind_eq_ok, pure_eq_ok, Except.ok.injEq] at hok
        obtain ⟨c, hc, rfl⟩ := hok
        by_cases hdestroyed : f = .connectDestroyed
        · subst hdestroyed
          obtain ⟨-, -, hstate⟩ := h.accounted.destroying (h.accounted.born i halive)
          obtain ⟨⟨es, hdoes, -⟩, hstate', -⟩ := connectDestroyed_spec (hwf.does_nothing.log _).wf hc
          refine put_rests hdoes.pending_eq (fun _ _ => rfl) (iff_of_true hstate ?_)
          split_ifs at hstate'
          · exact hstate'
          · exact hstate'.trans hstate
        · obtain ⟨out, es, fs, hdoes, hstate, -⟩ := runFunctor_ok hwf hforce hdestroyed hc
          refine put_rests hdoes.pending_eq (fun hdisconnected _ => ?_) (by rw [hstate]; rfl)
          have hnothing := runFunctor_disconnected hwf hdisconnected hforce hc
          rw [hdoes.pending_eq] at hnothing
          exact List.append_right_eq_self.mp hnothing

/-- **A callback of the channel of a connection.** -/
lemma callback_rests (h : s.Sound cfg []) (htidy : s.Tidy) (halive : s.alive i = true) (hl : (s.conn i).loop = l)
    {readOutcome : ReadOutcome} {writeOutcome : WriteOutcome} {cb : Callback}
    (hok : s.callback mem l i readOutcome writeOutcome cb = .ok s') : s.Rests s' := by
  have hwf := h.view_wf halive
  cases cb with
  | close => exact handleClose_rests hwf rfl rfl hl hok
  | error =>
      rw [← Except.ok.inj hok]
      exact .refl s
  | read =>
      simp only [callback, handleReadWith, bind_eq_ok, Prod.exists] at hok
      obtain ⟨n, buffer, -, hok⟩ := hok
      cases n with
      | error e =>
          rw [← Except.ok.inj hok]
          exact put_rests (List.append_nil _).symm (fun _ _ => rfl) Iff.rfl
      | ok n =>
          dsimp only at hok
          split_ifs at hok
          · rw [← Except.ok.inj hok]
            exact put_rests (List.append_nil _).symm (fun _ _ => rfl) Iff.rfl
          · have hread : Wf { s.view i with inputBuffer := buffer } := ⟨hwf.coherent, hwf.outputBuffer⟩
            exact handleClose_rests hread rfl rfl hl hok
  | write =>
      simp only [callback, bind_eq_ok, pure_eq_ok, Except.ok.injEq] at hok
      obtain ⟨c, hc, rfl⟩ := hok
      rw [handleWrite_of_not_isWriting (htidy.stage i halive).isWriting_eq hc]
      exact put_rests (List.append_nil _).symm (fun _ _ => rfl) Iff.rfl

/-- What `m_closeCallback` does. -/
lemma closeCallback_ok (hl : (s.conn i).loop = l) (hok : s.closeCallback mem l i = .ok s') :
    (∀ j, (s'.conn j).loop = (s.conn j).loop ∧ (s'.conn j).name = (s.conn j).name ∧
      (s'.conn j).state = (s.conn j).state) ∧
    (∀ l', (s'.loops l').pending
        = (s.loops l').pending ++ (if l' = l then [.functor i .connectDestroyed] else []) ∧
      (s'.loops l').batch = (s.loops l').batch ∧ (s'.loops l').called = (s.loops l').called ∧
      (s'.loops l').phase = (s.loops l').phase ∧ (s'.loops l').todo = (s.loops l').todo) ∧
    s'.connections = Function.update s.connections (s.conn i).name none ∧ s'.accepted = s.accepted ∧
    s'.calls = s.calls := by
  simp only [closeCallback, bind_eq_ok] at hok
  obtain ⟨-, -, hok⟩ := hok
  rw [runInLoop, if_pos hl.symm, runTask, bind_eq_ok] at hok
  obtain ⟨-, -, hs'⟩ := hok
  rw [← Except.ok.inj hs']
  have hconst := s.put_conn_const i ((s.view i).log .closeCallback)
  refine ⟨fun j => ⟨(hconst j).2.1, (hconst j).1, ?_⟩, fun l' => ?_, ?_, rfl, rfl⟩
  · by_cases hji : j = i
    · rw [hji]
      simp [removeConnectionInLoop, System.queueInLoop, System.put, System.setLoop, view]
    · exact congrArg Member.state (put_conn_of_ne hji _)
  · have hput := put_loops (s := s) (i := i) (c := (s.view i).log .closeCallback) (List.append_nil _).symm l'
    rw [removeConnectionInLoop, System.queueInLoop, (hconst i).2.1, hl]
    by_cases hl' : l' = l
    · subst hl'
      simp only [System.setLoop, Function.update_self, hput, if_pos hl.symm, List.map_nil, List.append_nil, and_self]
      simp
    · simp only [System.setLoop, Function.update_of_ne hl', hput, if_neg hl']
      simp [hl]
  · rw [removeConnectionInLoop, (hconst i).1]
    rfl

/-- **`m_closeCallback`**: the entry of the connection is erased. -/
lemma closeCallback_rests {rest : List Item} (htodo : (s.loops l).todo = .closeCallback i :: rest)
    (hl : (s.conn i).loop = l)
    (hok : (s.setLoop l { s.loops l with todo := rest }).closeCallback mem l i = .ok s') : s.Rests s' := by
  have hown : ((s.setLoop l { s.loops l with todo := rest }).conn i).loop = l := hl
  obtain ⟨hmember, hdoes, htable, haccepted, hcalls⟩ := closeCallback_ok hown hok
  have hconn : ∀ j, (s'.conn j).loop = (s.conn j).loop ∧ (s'.conn j).name = (s.conn j).name ∧
      (s'.conn j).state = (s.conn j).state := hmember
  have hconnections : s'.connections = Function.update s.connections (s.conn i).name none := htable
  have hloops : ∀ l', (s'.loops l').pending
        = (s.loops l').pending ++ (if l' = l then [.functor i .connectDestroyed] else []) ∧
      (s'.loops l').batch = (s.loops l').batch ∧ (s'.loops l').called = (s.loops l').called ∧
      (s'.loops l').phase = (s.loops l').phase ∧
        ∀ j ≠ i, (.closeCallback j ∈ (s'.loops l').todo ↔ .closeCallback j ∈ (s.loops l').todo) := by
    intro l'
    obtain ⟨hpending, hbatch, hcalled, hphase, htodo'⟩ := hdoes l'
    rw [hpending, hbatch, hcalled, hphase, htodo']
    by_cases hl' : l' = l
    · subst hl'
      simp only [System.setLoop, Function.update_self, htodo, true_and]
      simp +contextual
    · simp only [System.setLoop, Function.update_of_ne hl', true_and]
      simp
  -- the connection was not spent
  have hne : ∀ j, s.Spent j → j ≠ i := by
    rintro j ⟨-, hnot⟩ rfl
    rw [loopOf, hl, htodo] at hnot
    exact hnot List.mem_cons_self
  have hspent : ∀ j ≠ i, s'.Spent j ↔ s.Spent j := by
    intro j hji
    rw [Spent, Spent, loopOf, loopOf, (hconn j).1, (hconn j).2.2, (hloops _).2.2.2.2 j hji]
  have hnew : ∀ j, s.Spent j → ∀ l', ∀ t ∈ (if l' = l then [Task.functor i .connectDestroyed] else []), t.conn ≠ j := by
    intro j hj l' t ht
    split_ifs at ht
    · rw [List.mem_singleton.mp ht]
      exact (hne j hj).symm
    · simp at ht
  refine ⟨haccepted.ge, fun j _ => (hconn j).1, fun j _ hj => (hconn j).2.2.trans hj,
    fun j _ hj => (hspent j (hne j hj)).mpr hj, fun j _ _ h => ?_, ?_, ?_, fun j _ hheld => ?_, fun j hlt hj => ?_,
    fun j _ _ _ h => Or.inl ?_⟩
  · rw [Uncalled, hcalls]
    exact h
  · intro j _ hj _ l' t ht htj
    rw [Loop.tasks, (hloops l').1, (hloops l').2.1, (hloops l').2.2.1] at ht
    simp only [List.mem_append] at ht
    rcases ht with ((ht | ht) | ht) | ht
    · simp [Loop.tasks, ht]
    · exact absurd htj (hnew j hj l' t ht)
    · simp [Loop.tasks, ht]
    · simp [Loop.tasks, ht]
  · intro j _ hj _ l' t ht htj
    rw [(hloops l').1, List.mem_append] at ht
    exact ht.resolve_right fun hmem => hnew j hj l' t hmem htj
  · rw [Held, (hconn j).2.1, hconnections] at hheld
    by_cases hname : (s.conn j).name = (s.conn i).name
    · rw [hname, Function.update_self] at hheld
      simp at hheld
    · rwa [Function.update_of_ne hname] at hheld
  · by_cases hji : j = i
    · refine Or.inr ?_
      rw [Held, (hconn j).2.1, hconnections, hji, Function.update_self]
      simp
    · exact Or.inl ⟨haccepted ▸ hlt, (hspent j hji).mp hj⟩
  · rwa [loopOf, (hconn j).1, (hloops _).2.2.2.1] at h

/-- **`newConnection`**: those that are there have nothing to do with it. -/
lemma newConnection_rests (h : s.Sound cfg []) (hname : s.connections s.connName = none) {fd : ℤ}
    (hfd : 0 ≤ fd ∧ s.fds fd = none) (hok : s.newConnection mem l fd = .ok s') : s.Rests s' := by
  obtain ⟨ioLoop, pool, hpool, hrunning, -⟩ := EventLoopThreadPool.getNextLoop_spec h.accounted.running
  simp only [System.newConnection, hpool, bind_ok, bind_eq_ok] at hok
  obtain ⟨inputBuffer, -, outputBuffer, hbuffer, hok⟩ := hok
  have h₁ := (h.setPool hrunning).construct hname hfd hbuffer ioLoop inputBuffer
  generalize hs₁ : System.construct { s with threadPool := pool } ioLoop fd inputBuffer outputBuffer = s₁ at h₁ hok
  obtain ⟨haccepted, hself, hloop⟩ : s₁.accepted = s.accepted + 1 ∧ (s₁.conn s.accepted).state = .kConnecting ∧
      (s₁.conn s.accepted).loop = ioLoop := by
    rw [← hs₁]
    simp [System.construct]
  have hconn : ∀ j < s.accepted, s₁.conn j = s.conn j := by
    rw [← hs₁]
    exact fun j hj => Function.update_of_ne hj.ne ..
  have hloops : ∀ l', (s₁.loops l').todo = (s.loops l').todo ∧ (s₁.loops l').tasks = (s.loops l').tasks ∧
      (s₁.loops l').pending = (s.loops l').pending ∧ (s₁.loops l').phase = (s.loops l').phase := by
    intro l'
    rw [← hs₁]
    by_cases hl : l' = ioLoop
    · subst hl
      simp [System.construct, System.setLoop, Loop.tasks]
    · simp [System.construct, System.setLoop, Function.update_of_ne hl, Loop.tasks]
  have hspent : ∀ j < s.accepted, s₁.Spent j ↔ s.Spent j := by
    intro j hj
    rw [Spent, Spent, loopOf, loopOf, hconn j hj, (hloops _).1]
  have hheld : ∀ j < s.accepted, s₁.Held j → s.Held j := by
    intro j hj hheld
    have hconnections : s₁.connections = Function.update s.connections s.connName (some s.accepted) := by
      rw [← hs₁]
      rfl
    rw [Held, hconn j hj, hconnections] at hheld
    by_cases heq : (s.conn j).name = s.connName
    · rw [heq, Function.update_self, Option.some.injEq] at hheld
      exact absurd hheld.symm hj.ne
    · rwa [Function.update_of_ne heq] at hheld
  have hconstruct : s.Rests s₁ := by
    refine ⟨by omega, fun j hj => by rw [hconn j hj], fun j hj hstate => by rwa [hconn j hj],
      fun j hj => (hspent j hj).mpr, fun j _ _ h => ?_, ?_, ?_, hheld, fun j hj hspent' => Or.inl ?_,
      fun j hj _ _ h => Or.inl ?_⟩
    · rw [← hs₁]
      exact h
    · exact fun j _ _ _ l' t ht _ => (hloops l').2.1 ▸ ht
    · exact fun j _ _ _ l' t ht _ => (hloops l').2.2.1 ▸ ht
    · have hne : j ≠ s.accepted := by
        rintro rfl
        have hstate := hself.symm.trans hspent'.1
        simp at hstate
      have hlt : j < s.accepted := by omega
      exact ⟨hlt, (hspent j hlt).mp hspent'⟩
    · rwa [loopOf, hconn j hj, (hloops _).2.2.2] at h
  refine hconstruct.trans ?_
  rw [runInLoop] at hok
  split_ifs at hok with hl
  · exact runTask_rests h₁ hloop (by simp) hok
  · -- `connectEstablished` of the new connection, which is not closed
    rw [← Except.ok.inj hok]
    have hqueue : ∀ l', ((s₁.queueInLoop ioLoop (.connectEstablished s.accepted)).loops l').todo = (s₁.loops l').todo ∧
        ((s₁.queueInLoop ioLoop (.connectEstablished s.accepted)).loops l').phase = (s₁.loops l').phase ∧
          ∀ j, s₁.Spent j → ∀ t, t.conn = j →
          (t ∈ ((s₁.queueInLoop ioLoop (.connectEstablished s.accepted)).loops l').tasks → t ∈ (s₁.loops l').tasks) ∧
          (t ∈ ((s₁.queueInLoop ioLoop (.connectEstablished s.accepted)).loops l').pending →
            t ∈ (s₁.loops l').pending) := by
      intro l'
      have hne : ∀ j, s₁.Spent j → ∀ t : Task, t.conn = j → t ≠ .connectEstablished s.accepted := by
        rintro j hj t htj rfl
        have hstate : (s₁.conn s.accepted).state = .kDisconnected := by
          rw [show s.accepted = j from htj]
          exact hj.1
        simp [hself] at hstate
      by_cases hl' : l' = ioLoop
      · simp only [System.queueInLoop, System.setLoop, hl', Function.update_self, true_and, Loop.tasks]
        intro j hj t htj
        have := hne j hj t htj
        simp [this]
      · simp only [System.queueInLoop, System.setLoop, Function.update_of_ne hl', true_and]
        exact fun _ _ _ _ => ⟨id, id⟩
    have hsame : ∀ j, (s₁.queueInLoop ioLoop (.connectEstablished s.accepted)).Spent j ↔ s₁.Spent j := by
      intro j
      rw [Spent, Spent, loopOf, loopOf, (hqueue _).1]
      rfl
    refine ⟨le_rfl, fun _ _ => rfl, fun _ _ hj => hj, fun j _ => (hsame j).mpr, fun _ _ _ h => h, ?_, ?_,
      fun _ _ hj => hj, fun j hj h => Or.inl ⟨hj, (hsame j).mp h⟩,
      fun j _ _ _ h => Or.inl ((hqueue _).2.1.symm.trans h)⟩
    · exact fun j _ hj _ l' t ht htj => ((hqueue l').2.2 j hj t htj).1 ht
    · exact fun j _ hj _ l' t ht htj => ((hqueue l').2.2 j hj t htj).2 ht

/-! ## Steps -/

/-- **The thread of a loop calls what is next.** -/
lemma next_rests (h : s.Sound cfg []) (htidy : s.Tidy) {item : Item} {rest : List Item}
    (htodo : (s.loops l).todo = item :: rest) {accepted : Option ℤ} {readOutcome : ReadOutcome}
    {writeOutcome : WriteOutcome}
    (hname : item = .accept → accepted ≠ none → s.connections s.connName = none)
    (hok : (s.setLoop l { s.loops l with todo := rest }).call mem l accepted readOutcome writeOutcome item = .ok s') :
    s.Rests s' := by
  have hmem : item ∈ (s.loops l).todo := by simp [htodo]
  have h₁ : (s.setLoop l { s.loops l with todo := rest }).Sound cfg [] := h.setTodo (h.agenda.pop htodo)
  have hpop : (∀ i, item ≠ .closeCallback i) → s.Rests (s.setLoop l { s.loops l with todo := rest }) := fun hitem =>
    .setLoop (fun i => by simp [htodo, (hitem i).symm]) (fun t ht => ht) (fun t ht => ht) id
  cases item with
  | channel ch =>
      simp only [System.call, bind_eq_ok, pure_eq_ok, Except.ok.injEq] at hok
      obtain ⟨-, -, rfl⟩ := hok
      refine (hpop (by simp)).trans (.setLoop (fun i => ?_) (fun t ht => ht) (fun t ht => ht) id)
      have hnone : ∀ revents, .closeCallback i ∉ callbacks revents ch := by
        intro revents hmem'
        cases ch with
        | conn j => simp [callbacks] at hmem'
        | acceptor =>
            rw [callbacks] at hmem'
            split_ifs at hmem' <;> simp at hmem'
        | _ => simp [callbacks] at hmem'
      rw [List.mem_append, or_iff_right (hnone _)]
  | callback i cb =>
      simp only [System.call, bind_eq_ok] at hok
      obtain ⟨-, -, hok⟩ := hok
      obtain ⟨halive, hl, -⟩ := h.agenda.active l _ hmem i rfl
      exact (hpop (by simp)).trans (callback_rests h₁ (htidy.pop htodo) halive hl hok)
  | accept =>
      cases accepted with
      | none =>
          rw [← Except.ok.inj hok]
          exact hpop (by simp)
      | some fd =>
          rw [System.call, acceptorHandleRead, guard_eq_ok] at hok
          exact (hpop (by simp)).trans (newConnection_rests h₁ (hname rfl (by simp)) hok.1 hok.2)
  | closeCallback i => exact closeCallback_rests htodo (h.agenda.closing l i hmem).2.1 hok

/-- **The swap in `doPendingFunctors`**: nothing of what was to be done before is left. -/
lemma takePending_rests (htodo : (s.loops l).todo = []) :
    s.Rests (s.setLoop l { s.loops l with
      pending := [], batch := (s.loops l).pending, called := [], phase := .draining }) := by
  generalize hs' : s.setLoop l { s.loops l with
    pending := [], batch := (s.loops l).pending, called := [], phase := .draining } = s'
  have hself : s'.loops l = { s.loops l with
      pending := [], batch := (s.loops l).pending, called := [], phase := .draining } := by
    rw [← hs']
    exact Function.update_self ..
  have hothers : ∀ l', l' ≠ l → s'.loops l' = s.loops l' := by
    intro l' hl'
    rw [← hs']
    exact Function.update_of_ne hl' ..
  have hsame : s'.conn = s.conn ∧ s'.accepted = s.accepted ∧ s'.connections = s.connections := by
    rw [← hs']
    exact ⟨rfl, rfl, rfl⟩
  have hcalls : s'.calls = s.calls := by
    rw [← hs']
    rfl
  have hspent : ∀ i, s'.Spent i ↔ s.Spent i := by
    intro i
    rw [Spent, Spent, loopOf, loopOf, hsame.1]
    by_cases hl : (s.conn i).loop = l
    · rw [hl, hself]
    · rw [hothers _ hl]
  refine ⟨hsame.2.1.ge, fun i _ => by rw [hsame.1], fun i _ h => by rwa [hsame.1], fun i _ => (hspent i).mpr,
    fun i _ _ h => by rwa [Uncalled, hcalls], ?_, ?_, fun i _ h => ?_,
    fun i hi h => Or.inl ⟨hsame.2.1 ▸ hi, (hspent i).mp h⟩, fun i _ hstate _ hphase => ?_⟩
  · intro i _ _ _ l' t ht _
    by_cases hl : l' = l
    · rw [hl, hself, Loop.tasks] at ht
      rw [hl]
      exact List.mem_append_left _ (List.mem_append_left _ (by simpa using ht))
    · rwa [hothers l' hl] at ht
  · intro i _ _ _ l' t ht _
    by_cases hl : l' = l
    · simp [hl, hself] at ht
    · rwa [hothers l' hl] at ht
  · rwa [Held, hsame.1, hsame.2.2] at h
  · have hloop : s'.loopOf i = s'.loops (s.conn i).loop := by rw [loopOf, hsame.1]
    rw [hloop] at hphase ⊢
    by_cases hl : (s.conn i).loop = l
    · refine Or.inr ⟨(hspent i).mpr ⟨hstate, ?_⟩, ?_⟩
      · rw [loopOf, hl, htodo]
        simp
      · rw [hl, hself]
        simp
    · rw [hothers _ hl] at hphase
      exact Or.inl hphase

/-- A thread that tests a closed connection returns. -/
lemma test_rests {n : ℕ} {m : TcpConnection.Call} (hproper : s.Proper (.test i n m))
    (hok : s.step mem (.test i n m) = .ok s') : s.Rests s' := by
  have huncalled : ∀ j, (s.conn j).state = .kDisconnected → s.Uncalled j → s'.Uncalled j := by
    intro j hstate huncalled u hmem
    rcases mem_calls hok hmem with ⟨v, hv, hconn, -⟩ | ⟨htest, hpasses⟩
    · rw [← hconn]
      exact huncalled v hv
    · rintro rfl
      rw [Action.test.injEq] at htest
      rw [htest.2.2] at hproper
      have hnot : (s.view u.conn).passes u.function = false := not_passes_of_disconnected hstate hproper
      rw [hnot] at hpasses
      simp at hpasses
  simp only [System.step, guard_eq_ok] at hok
  obtain ⟨-, hok⟩ := hok
  split_ifs at hok
  · rw [← Except.ok.inj hok] at huncalled ⊢
    exact .of_calls rfl rfl rfl rfl huncalled
  · rw [← Except.ok.inj hok]
    exact .refl s

/-- A store in time leaves the connection open. -/
lemma store_rests {u : UserCall} (hmem : u ∈ s.calls) (htimely : s.Timely (.store u)) :
    s.Rests (((s.leave u).enter { u with stored := true }).put u.conn ((s.view u.conn).sets u.function)) := by
  have hopen : (s.conn u.conn).state ≠ .kDisconnected := by
    intro hstate
    rcases htimely with hopen | hopen <;> simp [view, hstate] at hopen
  have hcalls : s.Rests ((s.leave u).enter { u with stored := true }) := by
    refine .of_calls rfl rfl rfl rfl fun j _ huncalled v hv => ?_
    rcases List.mem_append.mp hv with hv | hv
    · exact huncalled v (List.mem_of_mem_erase hv)
    · rw [List.mem_singleton.mp hv]
      exact huncalled u hmem
  have hpending : ((s.view u.conn).sets u.function).functors.pending
      = (s.view u.conn).functors.pending ++ [] := by
    rw [sets_functors, List.append_nil]
  refine hcalls.trans (put_rests hpending (fun _ _ => rfl) (iff_of_false hopen ?_))
  cases hfunction : u.function <;> simp [sets, setState, view, hopen]

/-- A thread that queues a functor was in a call, and leaves it. -/
lemma queue_rests {u : UserCall} (hmem : u ∈ s.calls) :
    s.Rests ((s.leave u).put u.conn ((s.view u.conn).posts u.thread u.function)) := by
  have hput : s.Rests (s.put u.conn ((s.view u.conn).posts u.thread u.function)) := by
    obtain ⟨fs, hpending⟩ := posts_pending (s.view u.conn) u.thread u.function
    exact put_rests hpending (fun _ huncalled => absurd rfl (huncalled u hmem)) (by rw [posts_state]; rfl)
  exact hput.trans (.of_calls rfl rfl rfl rfl fun j _ huncalled v hv => huncalled v (List.mem_of_mem_erase hv))

/-- **Every proper step.** -/
lemma step_rests (h : s.Good cfg) (hproper : s.Proper a) (htimely : s.Timely a)
    (hok : s.step mem a = .ok s') : s.Rests s' := by
  have hallowed := h.allowed hproper
  cases a with
  | poll l report =>
      simp only [System.step, guard_eq_ok, bind_eq_ok, pure_eq_ok, Except.ok.injEq, Prod.exists] at hok
      obtain ⟨⟨-, htodo⟩, -, -, -, -, r, active, -, rfl⟩ := hok
      exact .setLoop (fun i => by simp [htodo]) (fun t ht => ht) (fun t ht => ht) (by simp)
  | next l accepted readOutcome writeOutcome =>
      simp only [System.step] at hok
      split at hok
      · simp at hok
      · rename_i item rest htodo
        refine next_rests h.sound h.tidy htodo ?_ hok
        rintro rfl hsome
        cases accepted with
        | none => exact absurd rfl hsome
        | some fd => exact hallowed (by rw [htodo]; rfl)
  | takePending l =>
      simp only [System.step, guard_eq_ok, Except.ok.injEq] at hok
      rw [← hok.2]
      exact takePending_rests hok.1.2
  | nextFunctor l outcome =>
      simp only [System.step, guard_eq_ok] at hok
      obtain ⟨⟨hphase, htodo⟩, hok⟩ := hok
      split at hok
      · simp at hok
      · rename_i t rest hbatch
        obtain ⟨-, hl, hkind⟩ := h.sound.accounted.placed l t (by simp [Loop.tasks, hbatch])
        refine Rests.trans ?_ (runTask_rests (h.sound.startFunctor htodo hphase hbatch) hl hkind hok)
        refine .setLoop (fun i => Iff.rfl) (fun t' ht' => ?_) (fun t' ht' => ht') id
        simp only [Loop.tasks, hbatch, List.mem_append, List.mem_cons] at ht' ⊢
        tauto
  | endRound l =>
      simp only [System.step, guard_eq_ok, Except.ok.injEq] at hok
      rw [← hok.2]
      exact .setLoop (fun i => Iff.rfl) (fun t ht => by simp_all [Loop.tasks]) (fun t ht => ht) (by simp)
  | call i m outcome =>
      simp only [System.step, guard_eq_ok, bind_eq_ok, pure_eq_ok, Except.ok.injEq] at hok
      obtain ⟨⟨halive, -⟩, c, hc, rfl⟩ := hok
      have hcalm := call_calm (h.sound.view_wf halive) (h.tidy.stage i halive) hproper hc
      obtain ⟨fs, hpending, -⟩ := hcalm.pending
      refine put_rests hpending (fun hstate _ => ?_) ⟨fun hstate => ?_, fun hstate => ?_⟩
      · rw [call_disconnected hstate hproper hc] at hpending
        exact List.append_right_eq_self.mp hpending.symm
      · rw [call_disconnected hstate hproper hc]
        exact hstate
      · rcases hcalm.state_eq with heq | ⟨-, heq⟩
        · exact heq.symm.trans hstate
        · simp [heq] at hstate
  | test i n m =>
      exact test_rests hproper hok
  | store u =>
      simp only [System.step, guard_eq_ok, bind_eq_ok, pure_eq_ok, Except.ok.injEq] at hok
      obtain ⟨⟨hmem, -⟩, -, -, rfl⟩ := hok
      exact store_rests hmem htimely
  | queue u =>
      simp only [System.step, guard_eq_ok, bind_eq_ok, pure_eq_ok, Except.ok.injEq] at hok
      obtain ⟨⟨hmem, -⟩, -, -, rfl⟩ := hok
      exact queue_rests hmem
  | retrieveInput i len =>
      simp only [System.step, guard_eq_ok, bind_eq_ok, pure_eq_ok, Except.ok.injEq] at hok
      obtain ⟨-, buffer, -, rfl⟩ := hok
      exact put_rests (List.append_nil _).symm (fun _ _ => rfl) Iff.rfl
  | setHighWaterMarkCallback i highWaterMark =>
      simp only [System.step, guard_eq_ok, Except.ok.injEq] at hok
      rw [← hok.2]
      exact put_rests (List.append_nil _).symm (fun _ _ => rfl) Iff.rfl
  | keep i =>
      simp only [System.step, guard_eq_ok, Except.ok.injEq] at hok
      rw [← hok.2]
      exact .of_calls rfl rfl rfl rfl fun _ _ h => h
  | drop i =>
      rw [← Except.ok.inj hok]
      exact .of_calls rfl rfl rfl rfl fun _ _ h => h
  | destroy i =>
      simp only [System.step, guard_eq_ok, Except.ok.injEq] at hok
      rw [← hok.2]
      have hchannel : s.Rests (s.setLoop (s.conn i).loop { s.loopOf i with
          registry := (closeFd (s.loopOf i).registry (s.conn i).fd).setChannel (.conn i)
            (Channel.create (absentFd (.conn i))) }) :=
        .setLoop (fun _ => Iff.rfl) (fun _ ht => ht) (fun _ ht => ht) id
      exact hchannel.trans (.of_calls rfl rfl rfl rfl fun _ _ h => h)
  | openFd fd =>
      simp only [System.step, guard_eq_ok, Except.ok.injEq] at hok
      rw [← hok.2]
      exact .of_calls rfl rfl rfl rfl fun _ _ h => h
  | closeFd fd =>
      simp only [System.step, guard_eq_ok, Except.ok.injEq] at hok
      rw [← hok.2]
      exact .of_calls rfl rfl rfl rfl fun _ _ h => h

/-! ## Runs -/

/-- A connection that is spent is not in the table. -/
def Erased (s : System) : Prop := ∀ i < s.accepted, s.Spent i → ¬ s.Held i

lemma Rests.erased (h : s.Rests s') (herased : s.Erased) : s'.Erased := by
  intro i hi hspent
  rcases h.fresh i hi hspent with ⟨hi', hspent'⟩ | hheld
  · exact fun hheld => herased i hi' hspent' (h.held i hi' hheld)
  · exact hheld

/-- The server is in order, and the connection is where it was. -/
structure Kept (cfg : Setting) (i : ℕ) (l : LoopId) (fd : ℤ) (s : System) : Prop where
  good : s.Good cfg
  erased : s.Erased
  lt_accepted : i < s.accepted
  loop_eq : (s.conn i).loop = l
  fd_eq : (s.conn i).fd = fd

lemma Kept.step {fd : ℤ} (h : s.Kept cfg i l fd) (hproper : s.Proper a)
    (htimely : s.Timely a) (hok : s.step cfg.mem a = .ok s') : s'.Kept cfg i l fd := by
  have hrests := step_rests h.good hproper htimely hok
  obtain ⟨-, hloop, hfd⟩ := (step_continues hok).conn_eq i h.lt_accepted
  exact ⟨h.good.step hproper htimely hok, hrests.erased h.erased, h.lt_accepted.trans_le hrests.accepted_le,
    hloop.trans h.loop_eq, hfd.trans h.fd_eq⟩

end System

end Seenet
