import Seenet.System.Rounds

/-!
# What waits is done

A functor that waits on a loop is called before the loop has ended two rounds more: the batch it is in now, or the one
it is swapped into next, is called to its end.

* `Grows` — what a step does to the functors of the loops but for the swap and the calls of `doPendingFunctors`.
* `Waits` — where the functors of a connection are that have waited since some time.
* **`queued_run_in_two_rounds`** — every functor that waits is called, and in their order.
* **`sent_run_in_two_rounds`** — so is `sendInLoop` for every message that has been sent.
* **`forced_close_in_two_rounds`** — and a connection that was told to close is closed.
-/

namespace Seenet

open Channel

namespace TcpConnection

/-- The functors that have been called. -/
def ranFunctors (es : List Effect) : List Functor :=
  es.filterMap fun
    | .ran f => some f
    | _ => none

lemma ranFunctors_append (es es' : List Effect) : ranFunctors (es ++ es') = ranFunctors es ++ ranFunctors es' :=
  List.filterMap_append ..

end TcpConnection

namespace System

open TcpConnection

variable {cfg : Setting} {mem : Memory} {s s' s'' : System} {l : LoopId} {i : ℕ} {a : Action}

/-! ## What only grows -/

/-- The batches are as they were, and to what waits and what has happened something is appended. -/
structure Grows (s s' : System) : Prop where
  accepted_le : s.accepted ≤ s'.accepted
  trace : ∀ i < s.accepted, (s.conn i).trace <+: (s'.conn i).trace
  batch_eq : ∀ l, (s'.loops l).batch = (s.loops l).batch
  phase : ∀ l, (s'.loops l).phase = .draining ↔ (s.loops l).phase = .draining
  pending : ∀ l, (s.loops l).pending <+: (s'.loops l).pending

lemma Grows.trans (h : s.Grows s') (h' : s'.Grows s'') : s.Grows s'' where
  accepted_le := h.accepted_le.trans h'.accepted_le
  trace i hi := (h.trace i hi).trans (h'.trace i (hi.trans_le h.accepted_le))
  batch_eq l := (h'.batch_eq l).trans (h.batch_eq l)
  phase l := (h'.phase l).trans (h.phase l)
  pending l := (h.pending l).trans (h'.pending l)

/-- Neither the members of the connections nor the loops change, but for channels and what is dispatched. -/
lemma Grows.of_eq (haccepted : s'.accepted = s.accepted) (hconn : s'.conn = s.conn)
    (hbatch : ∀ l, (s'.loops l).batch = (s.loops l).batch) (hpending : ∀ l, (s'.loops l).pending = (s.loops l).pending)
    (hphase : ∀ l, (s'.loops l).phase = .draining ↔ (s.loops l).phase = .draining) : s.Grows s' := by
  refine ⟨haccepted.ge, fun i _ => ?_, hbatch, hphase, fun l => ?_⟩
  · rw [hconn]
  · rw [hpending]

lemma Grows.refl (s : System) : s.Grows s := .of_eq rfl rfl (fun _ => rfl) (fun _ => rfl) fun _ => Iff.rfl

/-- One loop changes, but neither its functors nor whether they are called. -/
lemma setLoop_grows {loop : Loop} (hbatch : loop.batch = (s.loops l).batch)
    (hpending : loop.pending = (s.loops l).pending)
    (hphase : loop.phase = .draining ↔ (s.loops l).phase = .draining) : s.Grows (s.setLoop l loop) := by
  have hself : (s.setLoop l loop).loops l = loop := Function.update_self ..
  have hothers : ∀ l', l' ≠ l → (s.setLoop l loop).loops l' = s.loops l' := fun l' hl => Function.update_of_ne hl ..
  refine .of_eq rfl rfl (fun l' => ?_) (fun l' => ?_) fun l' => ?_
  all_goals by_cases hl : l' = l
  · rw [hl, hself, hbatch]
  · rw [hothers l' hl]
  · rw [hl, hself, hpending]
  · rw [hothers l' hl]
  · rw [hl, hself, hphase]
  · rw [hothers l' hl]

lemma queueInLoop_grows (l : LoopId) (t : Task) : s.Grows (s.queueInLoop l t) := by
  have hself : (s.queueInLoop l t).loops l = { s.loops l with pending := (s.loops l).pending ++ [t] } :=
    Function.update_self ..
  have hothers : ∀ l', l' ≠ l → (s.queueInLoop l t).loops l' = s.loops l' := fun l' hl => Function.update_of_ne hl ..
  refine ⟨le_rfl, fun _ _ => List.prefix_rfl, fun l' => ?_, fun l' => ?_, fun l' => ?_⟩
  all_goals by_cases hl : l' = l
  · rw [hl, hself]
  · rw [hothers l' hl]
  · rw [hl, hself]
  · rw [hothers l' hl]
  · rw [hl, hself]
    exact List.prefix_append ..
  · rw [hothers l' hl]

/-! ## Functions -/

section Functions

variable {c : TcpConnection ChannelId}

/-- A function of a connection. -/
lemma put_grows (htrace : (s.conn i).trace <+: c.trace)
    (hpending : (s.view i).functors.pending <+: c.functors.pending) :
    s.Grows (s.put i c) := by
  obtain ⟨fs, hfs⟩ := hpending
  have hloops := put_loops hfs.symm
  refine ⟨le_rfl, fun j _ => ?_, fun l => ?_, fun l => ?_, fun l => ?_⟩
  · by_cases hji : j = i
    · subst hji
      simpa [System.put] using htrace
    · rw [put_conn_of_ne hji]
  · rw [hloops]
  · rw [hloops]
  · rw [hloops]
    exact List.prefix_append ..

lemma Frames.put_grows (h : (s.view i).Frames c) : s.Grows (s.put i c) := System.put_grows h.trace h.pending

lemma handleClose_grows (htrace : (s.conn i).trace <+: c.trace)
    (hpending : (s.view i).functors.pending <+: c.functors.pending) (hok : s.handleClose l i c = .ok s') :
    s.Grows s' := by
  rw [handleClose, bind_eq_ok] at hok
  obtain ⟨c', hclose, hs'⟩ := hok
  rw [← Except.ok.inj hs']
  have hframes := beginClose_frames hclose
  exact (put_grows (htrace.trans hframes.trace) (hpending.trans hframes.pending)).trans (setLoop_grows rfl rfl Iff.rfl)

lemma runTask_grows {t : Task} {o : WriteOutcome} (hok : s.runTask mem l o t = .ok s') : s.Grows s' := by
  cases t with
  | connectEstablished i =>
      simp only [runTask, bind_eq_ok, pure_eq_ok, Except.ok.injEq] at hok
      obtain ⟨-, -, c, hc, rfl⟩ := hok
      exact Frames.put_grows (connectEstablished_frames hc)
  | removeConnectionInLoop i =>
      simp only [runTask, bind_eq_ok, pure_eq_ok, Except.ok.injEq] at hok
      obtain ⟨-, -, rfl⟩ := hok
      have htable : s.Grows { s with connections := Function.update s.connections (s.conn i).name none } :=
        .of_eq rfl rfl (fun _ => rfl) (fun _ => rfl) fun _ => Iff.rfl
      exact htable.trans (queueInLoop_grows _ _)
  | functor i f =>
      simp only [runTask, bind_eq_ok] at hok
      obtain ⟨-, -, hok⟩ := hok
      split_ifs at hok with hforce
      · have hpending : (s.view i).functors.pending <+: ((s.view i).log (.ran .forceCloseInLoop)).functors.pending :=
          List.prefix_rfl
        rw [forceCloseInLoopWith] at hok
        split_ifs at hok
        · exact handleClose_grows (List.prefix_append ..) hpending hok
        · rw [← Except.ok.inj hok]
          exact put_grows (List.prefix_append ..) hpending
      · simp only [bind_eq_ok, pure_eq_ok, Except.ok.injEq] at hok
        obtain ⟨c, hc, rfl⟩ := hok
        exact Frames.put_grows (runFunctor_frames hforce hc)

lemma callback_grows {readOutcome : ReadOutcome} {writeOutcome : WriteOutcome} {cb : Callback}
    (hok : s.callback mem l i readOutcome writeOutcome cb = .ok s') : s.Grows s' := by
  cases cb with
  | close => exact handleClose_grows List.prefix_rfl List.prefix_rfl hok
  | error =>
      rw [← Except.ok.inj hok]
      exact .refl s
  | read =>
      simp only [callback, handleReadWith, bind_eq_ok, Prod.exists] at hok
      obtain ⟨n, buffer, -, hok⟩ := hok
      cases n with
      | error e =>
          rw [← Except.ok.inj hok]
          exact put_grows List.prefix_rfl List.prefix_rfl
      | ok n =>
          dsimp only at hok
          split_ifs at hok
          · rw [← Except.ok.inj hok]
            exact put_grows (List.prefix_append ..) List.prefix_rfl
          · have hpending : (s.view i).functors.pending <+: { s.view i with inputBuffer := buffer }.functors.pending :=
              List.prefix_rfl
            exact handleClose_grows List.prefix_rfl hpending hok
  | write =>
      simp only [callback, bind_eq_ok, pure_eq_ok, Except.ok.injEq] at hok
      obtain ⟨c, hc, rfl⟩ := hok
      exact Frames.put_grows (handleWrite_frames hc)

lemma runInLoop_grows {t : LoopId} {task : Task} (hok : s.runInLoop mem t l task = .ok s') : s.Grows s' := by
  rw [runInLoop] at hok
  split_ifs at hok
  · exact runTask_grows hok
  · rw [← Except.ok.inj hok]
    exact queueInLoop_grows _ _

lemma closeCallback_grows (hok : s.closeCallback mem l i = .ok s') : s.Grows s' := by
  simp only [closeCallback, bind_eq_ok] at hok
  obtain ⟨-, -, hok⟩ := hok
  have hlog : s.Grows (s.put i ((s.view i).log .closeCallback)) :=
    put_grows (List.prefix_append ..) List.prefix_rfl
  exact hlog.trans (runInLoop_grows hok)

lemma newConnection_grows {fd : ℤ} (hok : s.newConnection mem l fd = .ok s') : s.Grows s' := by
  simp only [newConnection, bind_eq_ok, Prod.exists] at hok
  obtain ⟨ioLoop, pool, -, inputBuffer, -, outputBuffer, -, hok⟩ := hok
  refine Grows.trans ?_ (runInLoop_grows hok)
  have hloops : ∀ l', ((System.construct { s with threadPool := pool } ioLoop fd inputBuffer outputBuffer).loops l')
      = { s.loops l' with registry :=
          ((System.construct { s with threadPool := pool } ioLoop fd inputBuffer outputBuffer).loops l').registry } := by
    intro l'
    by_cases hl : l' = ioLoop
    · subst hl
      simp [construct, System.setLoop]
    · simp [construct, System.setLoop, Function.update_of_ne hl]
  refine ⟨Nat.le_succ _, fun j hj => ?_, fun l' => ?_, fun l' => ?_, fun l' => ?_⟩
  · rw [show (System.construct { s with threadPool := pool } ioLoop fd inputBuffer outputBuffer).conn j = s.conn j from
      Function.update_of_ne hj.ne ..]
  · rw [hloops]
  · rw [hloops]
  · rw [hloops]

end Functions

/-! ## Steps -/

/-- The swap of the functors, a call of one of them, or the end of a round. -/
def OfFunctors : Action → Prop
  | .takePending _ | .nextFunctor _ _ | .endRound _ => True
  | _ => False

/-- **Every other step** only appends. -/
lemma step_grows (ha : ¬ OfFunctors a) (hok : s.step mem a = .ok s') : s.Grows s' := by
  cases a with
  | poll l report =>
      simp only [System.step, guard_eq_ok, bind_eq_ok, pure_eq_ok, Except.ok.injEq, Prod.exists] at hok
      obtain ⟨⟨hphase, -⟩, -, -, -, -, r, active, -, rfl⟩ := hok
      exact setLoop_grows rfl rfl (by simp [hphase])
  | next l accepted readOutcome writeOutcome =>
      simp only [System.step] at hok
      split at hok
      · simp at hok
      · rename_i item rest htodo
        have hpop : s.Grows (s.setLoop l { s.loops l with todo := rest }) := setLoop_grows rfl rfl Iff.rfl
        refine hpop.trans ?_
        cases item with
        | channel ch =>
            simp only [System.call, bind_eq_ok, pure_eq_ok, Except.ok.injEq] at hok
            obtain ⟨-, -, rfl⟩ := hok
            exact setLoop_grows rfl rfl Iff.rfl
        | callback i cb =>
            simp only [System.call, bind_eq_ok] at hok
            obtain ⟨-, -, hok⟩ := hok
            exact callback_grows hok
        | accept =>
            cases accepted with
            | none =>
                rw [← Except.ok.inj hok]
                exact .refl _
            | some fd =>
                rw [System.call, acceptorHandleRead, guard_eq_ok] at hok
                exact newConnection_grows hok.2
        | closeCallback i => exact closeCallback_grows hok
  | takePending _ | nextFunctor _ _ | endRound _ => exact absurd trivial ha
  | call i m outcome =>
      simp only [System.step, guard_eq_ok, bind_eq_ok, pure_eq_ok, Except.ok.injEq] at hok
      obtain ⟨-, c, hc, rfl⟩ := hok
      exact Frames.put_grows (call_frames hc)
  | test i n m =>
      simp only [System.step, guard_eq_ok] at hok
      obtain ⟨-, hok⟩ := hok
      split_ifs at hok
      · rw [← Except.ok.inj hok]
        exact .of_eq rfl rfl (fun _ => rfl) (fun _ => rfl) fun _ => Iff.rfl
      · rw [← Except.ok.inj hok]
        exact .refl s
  | store u =>
      simp only [System.step, guard_eq_ok, bind_eq_ok, pure_eq_ok, Except.ok.injEq] at hok
      obtain ⟨-, -, -, rfl⟩ := hok
      have hstored : s.Grows ((s.leave u).enter { u with stored := true }) :=
        .of_eq rfl rfl (fun _ => rfl) (fun _ => rfl) fun _ => Iff.rfl
      exact hstored.trans (Frames.put_grows (sets_frames (s.view u.conn) u.function))
  | queue u =>
      simp only [System.step, guard_eq_ok, bind_eq_ok, pure_eq_ok, Except.ok.injEq] at hok
      obtain ⟨-, -, -, rfl⟩ := hok
      have hleft : s.Grows (s.leave u) := .of_eq rfl rfl (fun _ => rfl) (fun _ => rfl) fun _ => Iff.rfl
      exact hleft.trans (Frames.put_grows (posts_frames (s.view u.conn) u.thread u.function))
  | retrieveInput i len =>
      simp only [System.step, guard_eq_ok, bind_eq_ok, pure_eq_ok, Except.ok.injEq] at hok
      obtain ⟨-, buffer, -, rfl⟩ := hok
      exact put_grows List.prefix_rfl List.prefix_rfl
  | setHighWaterMarkCallback i highWaterMark =>
      simp only [System.step, guard_eq_ok, Except.ok.injEq] at hok
      rw [← hok.2]
      exact put_grows List.prefix_rfl List.prefix_rfl
  | drop i =>
      rw [← Except.ok.inj hok]
      exact .of_eq rfl rfl (fun _ => rfl) (fun _ => rfl) fun _ => Iff.rfl
  | destroy i =>
      simp only [System.step, guard_eq_ok, Except.ok.injEq] at hok
      rw [← hok.2]
      have hchannel : s.Grows (s.setLoop (s.conn i).loop { s.loopOf i with
          registry := (closeFd (s.loopOf i).registry (s.conn i).fd).setChannel (.conn i)
            (Channel.create (absentFd (.conn i))) }) := setLoop_grows rfl rfl Iff.rfl
      exact hchannel.trans (.of_eq rfl rfl (fun _ => rfl) (fun _ => rfl) fun _ => Iff.rfl)
  | keep _ | openFd _ | closeFd _ =>
      simp only [System.step, guard_eq_ok, Except.ok.injEq] at hok
      rw [← hok.2]
      exact .of_eq rfl rfl (fun _ => rfl) (fun _ => rfl) fun _ => Iff.rfl

/-- A functor of the connection `i`, when it is called. -/
lemma runTask_calls {f : Functor} {o : WriteOutcome} (hok : s.runTask mem l o (.functor i f) = .ok s') :
    (s.conn i).trace ++ [.ran f] <+: (s'.conn i).trace := by
  have hput : ∀ c : TcpConnection ChannelId, ((s.put i c).conn i).trace = c.trace := by simp [System.put]
  simp only [runTask, bind_eq_ok] at hok
  obtain ⟨-, -, hok⟩ := hok
  split_ifs at hok with hforce
  · subst hforce
    rw [forceCloseInLoopWith] at hok
    split_ifs at hok
    · rw [handleClose, bind_eq_ok] at hok
      obtain ⟨c', hclose, hs'⟩ := hok
      rw [← Except.ok.inj hs', show ((s.put i c').callFirst l [.closeCallback i]).conn = (s.put i c').conn from rfl,
        hput]
      exact (beginClose_frames hclose).trace
    · rw [← Except.ok.inj hok, hput]
      exact List.prefix_rfl
  · simp only [bind_eq_ok, pure_eq_ok, Except.ok.injEq] at hok
    obtain ⟨c, hc, rfl⟩ := hok
    rw [hput]
    exact (ran_frames hforce hc).trace

/-! ## Where the functors are -/

/-- The functors of the connection that wait on its loop, which are those that its own functions queue and
`removeConnectionInLoop` queues for it; a `connectEstablished` that `newConnection` has queued is not among them. -/
def owing (s : System) (i : ℕ) : List Functor :=
  ((s.loopOf i).batch ++ (s.loopOf i).pending).filterMap (Task.functorOf i)

/-- What the thread of the loop calls before it ends another `k` rounds. -/
def first : ℕ → Loop → List Task
  | 0, _ => []
  | 1, loop => if loop.phase = .draining then loop.batch else loop.pending
  | _, loop => loop.batch ++ loop.pending

/-- Only a loop that calls functors has some left to call. -/
def Idle (s : System) : Prop := ∀ l, (s.loops l).phase ≠ .draining → (s.loops l).batch = []

/-- Of the functors `ws` of a connection, those that are not called in the next `k` rounds of its loop have been called
since the trace was `base`. -/
structure Waits (base : List Effect) (ws : List Functor) (i k : ℕ) (s : System) : Prop where
  born : i < s.accepted
  split : ∃ done left since, ws = done ++ left ∧ (s.conn i).trace = base ++ since ∧ done.Sublist (ranFunctors since) ∧
    left <+: (first k (s.loopOf i)).filterMap (Task.functorOf i)

variable {base : List Effect} {ws : List Functor} {k k' : ℕ}

lemma eq_of_functorOf {t : Task} {f : Functor} (h : Task.functorOf i t = some f) : t = .functor i f := by
  cases t with
  | functor j g =>
      rw [Task.functorOf] at h
      split_ifs at h with hji
      rw [hji, Option.some.inj h]
  | connectEstablished | removeConnectionInLoop => simp [Task.functorOf] at h

/-- What was first is still first. -/
lemma Waits.of_first (h : Waits base ws i k s) (haccepted : s.accepted ≤ s'.accepted)
    (htrace : (s.conn i).trace <+: (s'.conn i).trace) (hfirst : first k (s.loopOf i) <+: first k' (s'.loopOf i)) :
    Waits base ws i k' s' := by
  obtain ⟨done, left, since, hws, hbase, hdone, hleft⟩ := h.split
  obtain ⟨es, hes⟩ := htrace
  refine ⟨h.born.trans_le haccepted, done, left, since ++ es, hws, ?_, ?_, hleft.trans (hfirst.filterMap _)⟩
  · rw [← hes, hbase, List.append_assoc]
  · rw [ranFunctors_append]
    exact hdone.trans (List.sublist_append_left ..)

/-- What was first but for a task that has been called. -/
lemma Waits.called (h : Waits base ws i k s) {t : Task} {tail : List Task} (haccepted : s.accepted ≤ s'.accepted)
    (hhead : first k (s.loopOf i) = t :: tail) (htail : tail <+: first k (s'.loopOf i))
    (htrace : (s.conn i).trace <+: (s'.conn i).trace)
    (hcalled : ∀ f, t = .functor i f → (s.conn i).trace ++ [.ran f] <+: (s'.conn i).trace) :
    Waits base ws i k s' := by
  obtain ⟨done, left, since, hws, hbase, hdone, hleft⟩ := h.split
  rw [hhead, List.filterMap_cons] at hleft
  cases ht : Task.functorOf i t with
  | none =>
      rw [ht] at hleft
      obtain ⟨es, hes⟩ := htrace
      refine ⟨h.born.trans_le haccepted, done, left, since ++ es, hws, ?_, ?_, hleft.trans (htail.filterMap _)⟩
      · rw [← hes, hbase, List.append_assoc]
      · rw [ranFunctors_append]
        exact hdone.trans (List.sublist_append_left ..)
  | some f =>
      rw [ht] at hleft
      obtain ⟨es, hes⟩ := hcalled f (eq_of_functorOf ht)
      have htrace' : (s'.conn i).trace = base ++ (since ++ .ran f :: es) := by
        rw [← hes, hbase]
        simp
      have hcalls : ranFunctors (since ++ .ran f :: es) = ranFunctors since ++ f :: ranFunctors es :=
        ranFunctors_append ..
      cases left with
      | nil =>
          refine ⟨h.born.trans_le haccepted, done, [], _, hws, htrace', ?_, List.nil_prefix⟩
          rw [hcalls]
          exact hdone.trans (List.sublist_append_left ..)
      | cons g left =>
          -- the first of those that wait is the one called
          obtain ⟨rfl, hrest⟩ := List.cons_prefix_cons.mp hleft
          refine ⟨h.born.trans_le haccepted, done ++ [g], left, _, ?_, htrace', ?_, hrest.trans (htail.filterMap _)⟩
          · rw [hws, List.append_assoc]
            rfl
          · rw [hcalls]
            exact hdone.append (List.singleton_sublist.mpr List.mem_cons_self)

/-- What only grows keeps what is first. -/
lemma Grows.first (h : s.Grows s') (k : ℕ) (l : LoopId) :
    System.first k (s.loops l) <+: System.first k (s'.loops l) := by
  rcases k with _ | _ | k
  · exact List.nil_prefix
  · simp only [System.first, h.phase, h.batch_eq]
    split_ifs
    · exact List.prefix_rfl
    · exact h.pending l
  · simp only [System.first, h.batch_eq]
    exact (List.prefix_append_right_inj _).mpr (h.pending l)

/-- **Every step** leaves a loop without a batch unless it calls functors. -/
lemma step_idle (hidle : s.Idle) (hok : s.step mem a = .ok s') : s'.Idle := by
  have hgrows : ∀ {t : System}, t.Idle → t.Grows s' → s'.Idle := fun ht h l hphase => by
    rw [h.batch_eq]
    exact ht l fun hdraining => hphase ((h.phase l).mpr hdraining)
  have hset : ∀ {loop : Loop} (l), (loop.phase ≠ .draining → loop.batch = []) → (s.setLoop l loop).Idle := by
    intro loop l hloop l' hphase
    by_cases hl : l' = l
    · subst hl
      simp only [System.setLoop, Function.update_self] at hphase ⊢
      exact hloop hphase
    · simp only [System.setLoop, Function.update_of_ne hl] at hphase ⊢
      exact hidle l' hphase
  by_cases ha : OfFunctors a
  · cases a with
    | takePending l =>
        simp only [System.step, guard_eq_ok, Except.ok.injEq] at hok
        rw [← hok.2]
        exact hset l (by simp)
    | nextFunctor l outcome =>
        simp only [System.step, guard_eq_ok] at hok
        obtain ⟨⟨hphase, -⟩, hok⟩ := hok
        split at hok
        · simp at hok
        · rename_i t rest hbatch
          refine hgrows ?_ (runTask_grows hok)
          exact hset l fun hnot => absurd hphase hnot
    | endRound l =>
        simp only [System.step, guard_eq_ok, Except.ok.injEq] at hok
        obtain ⟨⟨-, -, hbatch⟩, rfl⟩ := hok
        exact hset l fun _ => hbatch
    | _ => exact ha.elim
  · exact hgrows hidle (step_grows ha hok)

/-- **Every step** keeps first what is first, or calls the first functor. -/
lemma step_first (hidle : s.Idle) (hi : i < s.accepted) (hok : s.step mem a = .ok s') (k : ℕ) :
    first k (s.loopOf i) <+: first k (s'.loopOf i) ∨
      ∃ o t tail t', first k (s.loopOf i) = t :: tail ∧ tail <+: first k (s'.loopOf i) ∧
        t'.conn = s.conn ∧ t'.alive = s.alive ∧ runTask mem (s.conn i).loop t' o t = .ok s' := by
  obtain ⟨-, hloop, -⟩ := (step_continues hok).conn_eq i hi
  rw [loopOf, loopOf, hloop]
  generalize (s.conn i).loop = m at hloop ⊢
  by_cases ha : OfFunctors a
  · cases a with
    | takePending l =>
        simp only [System.step, guard_eq_ok, Except.ok.injEq] at hok
        obtain ⟨⟨hphase, -⟩, rfl⟩ := hok
        refine Or.inl ?_
        by_cases hl : m = l
        · -- the batch is empty, and what is pending becomes the batch
          have hbatch := hidle l (by simp [hphase])
          subst hl
          simp only [System.setLoop, Function.update_self]
          rcases k with _ | _ | k
          · exact List.nil_prefix
          · simp [first, hphase]
          · simp [first, hbatch]
        · simp only [System.setLoop, Function.update_of_ne hl]
          exact List.prefix_rfl
    | nextFunctor l outcome =>
        simp only [System.step, guard_eq_ok] at hok
        obtain ⟨⟨hphase, -⟩, hok⟩ := hok
        split at hok
        · simp at hok
        · rename_i t rest hbatch
          have hfirst := (runTask_grows hok).first k m
          by_cases hl : m = l
          · subst hl
            simp only [System.setLoop, Function.update_self] at hfirst
            rcases k with _ | k
            · exact Or.inl List.nil_prefix
            · refine Or.inr ⟨outcome, t, _, _, ?_, hfirst, ?_, ?_, hok⟩
              · cases k <;> simp [first, hphase, hbatch]
              · rfl
              · rfl
          · simp only [System.setLoop, Function.update_of_ne hl] at hfirst
            exact Or.inl hfirst
    | endRound l =>
        simp only [System.step, guard_eq_ok, Except.ok.injEq] at hok
        obtain ⟨⟨hphase, -, hbatch⟩, rfl⟩ := hok
        refine Or.inl ?_
        by_cases hl : m = l
        · subst hl
          simp only [System.setLoop, Function.update_self]
          rcases k with _ | _ | k
          · exact List.nil_prefix
          · simp [first, hphase, hbatch]
          · simp [first]
        · simp only [System.setLoop, Function.update_of_ne hl]
          exact List.prefix_rfl
    | _ => exact ha.elim
  · exact Or.inl ((step_grows ha hok).first k m)

/-- **The end of a round**: what was first is so for one round less. -/
lemma endRound_first (hl : (s.conn i).loop = l) (hok : s.step mem (.endRound l) = .ok s') (k : ℕ) :
    first (k + 1) (s.loopOf i) <+: first k (s'.loopOf i) ∧ s'.conn = s.conn ∧ s'.accepted = s.accepted := by
  simp only [System.step, guard_eq_ok, Except.ok.injEq] at hok
  obtain ⟨⟨hphase, -, hbatch⟩, rfl⟩ := hok
  subst hl
  refine ⟨?_, rfl, rfl⟩
  simp only [loopOf, System.setLoop, Function.update_self]
  rcases k with _ | _ | k
  · simp [first, hphase, hbatch]
  · simp [first, hbatch]
  · simp [first]

/-- The trace of a connection is never cut. -/
lemma step_trace (hi : i < s.accepted) (hok : s.step mem a = .ok s') : (s.conn i).trace <+: (s'.conn i).trace := by
  by_cases ha : OfFunctors a
  · cases a with
    | takePending l | endRound l =>
        simp only [System.step, guard_eq_ok, Except.ok.injEq] at hok
        rw [← hok.2]
        exact List.prefix_rfl
    | nextFunctor l outcome =>
        simp only [System.step, guard_eq_ok] at hok
        obtain ⟨-, hok⟩ := hok
        split at hok
        · simp at hok
        · exact (runTask_grows hok).trace i hi
    | _ => exact ha.elim
  · exact (step_grows ha hok).trace i hi

/-- **Every step** brings those that wait no further back. -/
lemma Waits.step (h : Waits base ws i k s) (hidle : s.Idle) (hok : s.step mem a = .ok s') : Waits base ws i k s' := by
  have haccepted := (step_continues hok).accepted_le
  have htrace := step_trace h.born hok
  rcases step_first hidle h.born hok k with hfirst | ⟨o, t, tail, s₁, hhead, htail, hconn, -, htask⟩
  · exact h.of_first haccepted htrace hfirst
  · refine h.called haccepted hhead htail htrace ?_
    rintro f rfl
    have hcalls := runTask_calls htask
    rwa [hconn] at hcalls

/-- **The end of a round** brings them nearer. -/
lemma Waits.endRound (h : Waits base ws i (k + 1) s) (hl : (s.conn i).loop = l)
    (hok : s.step mem (.endRound l) = .ok s') : Waits base ws i k s' := by
  obtain ⟨hfirst, hconn, haccepted⟩ := endRound_first hl hok k
  exact h.of_first haccepted.ge (by rw [hconn]) hfirst

/-! ## Runs -/

/-- What holds of a loop through a run. -/
structure Bound (i : ℕ) (l : LoopId) (s : System) : Prop where
  idle : s.Idle
  born : i < s.accepted
  loop_eq : (s.conn i).loop = l

lemma Bound.step (h : s.Bound i l) (hok : s.step mem a = .ok s') : s'.Bound i l := by
  have hcontinues := step_continues hok
  exact ⟨step_idle h.idle hok, h.born.trans_le hcontinues.accepted_le,
    (hcontinues.conn_eq i h.born).2.1.trans h.loop_eq⟩

lemma bound_of_run {as : List Action} (has : Machine.run (step cfg.mem) cfg.start as = .ok s) (hi : i < s.accepted) :
    s.Bound i (s.conn i).loop :=
  ⟨Machine.run_invariant (I := Idle) (fun _ _ _ h hok => step_idle h hok) (fun _ _ => rfl) has, hi, rfl⟩

/-- **Two rounds.**  Then nobody waits any more. -/
lemma calls_of_run {bs : List Action} (h : s.Bound i l) (hbs : Machine.run (step mem) s bs = .ok s')
    (htwo : 2 ≤ bs.count (.endRound l)) :
    ∃ es, (s'.conn i).trace = (s.conn i).trace ++ es ∧ (s.owing i).Sublist (ranFunctors es) := by
  obtain ⟨-, done, left, since, hws, htrace, hdone, hleft⟩ : Waits (s.conn i).trace (s.owing i) i 0 s' := by
    refine Machine.run_countdown (I := fun t : System => t.Bound i l) (C := fun _ _ => True)
      (D := (· == .endRound l)) ?_ ?_ ?_ h (fun _ _ => trivial) ?_ hbs htwo
    · exact fun t a t' hbound _ hok => hbound.step hok
    · exact fun k t a t' hbound _ hok hwaits => hwaits.step hbound.idle hok
    · rintro k t a t' hbound - hok ha hwaits
      obtain rfl := beq_iff_eq.mp ha
      exact hwaits.endRound hbound.loop_eq hok
    · exact ⟨h.born, [], s.owing i, [], rfl, (List.append_nil _).symm, List.Sublist.refl _, List.prefix_rfl⟩
  have hnil : left = [] := List.prefix_nil.mp hleft
  refine ⟨since, htrace, ?_⟩
  rwa [hws, hnil, List.append_nil]

/-- **No functor is left waiting.**  In every run of the server, whatever the threads do, let the loop of a connection
end two rounds.  Then each of the functors that were `owing` on the loop before has been called, each as often and in
the order as they waited. -/
theorem queued_run_in_two_rounds (cfg : Setting) (as bs : List Action) {s s' : System}
    (has : Machine.run (step cfg.mem) cfg.start as = .ok s) (hbs : Machine.run (step cfg.mem) s bs = .ok s') :
    ∀ i < s.accepted, 2 ≤ bs.count (.endRound (s.conn i).loop) →
      ∃ es, (s'.conn i).trace = (s.conn i).trace ++ es ∧ (s.owing i).Sublist (ranFunctors es) :=
  fun _ hi htwo => calls_of_run (bound_of_run has hi) hbs htwo

/-- Two threads send on a connection, one of them twice. -/
def threeSends : List Action :=
  [.poll .base [(7, {.epollin})], .next .base none (.error 0) (.wrote 0), .next .base (some 8) (.error 0) (.wrote 0),
    .poll (.io 0) [], .takePending (.io 0), .nextFunctor (.io 0) (.wrote 0), .endRound (.io 0),
    .test 0 0 (.send [1, 2]), .test 0 1 (.send [3]), .queue ⟨0, 0, .send [1, 2], true⟩,
    .queue ⟨0, 1, .send [3], true⟩, .poll (.io 0) [], .takePending (.io 0), .nextFunctor (.io 0) (.wrote 2),
    .test 0 0 (.send [4]), .queue ⟨0, 0, .send [4], true⟩]

/-- The rest of the round of its loop, and another one. -/
def restOfRounds : List Action :=
  [.nextFunctor (.io 0) (.wrote 1), .endRound (.io 0), .poll (.io 0) [], .takePending (.io 0),
    .nextFunctor (.io 0) (.wrote 0), .endRound (.io 0)]

/-- One of the messages is in the batch, and the other one waits for the next. -/
theorem queued_run_in_two_rounds_threeSends :
    ∃ s s', Machine.run (step oneThread.mem) oneThread.start threeSends = .ok s ∧
      s.owing 0 = [.sendInLoop (.other 1) [3], .sendInLoop (.other 0) [4]] ∧
      Machine.run (step oneThread.mem) s restOfRounds = .ok s' ∧
      ∃ es, (s'.conn 0).trace = (s.conn 0).trace ++ es ∧
        [.sendInLoop (.other 1) [3], .sendInLoop (.other 0) [4]].Sublist (ranFunctors es) := by
  have hrun : (Machine.run (step oneThread.mem) oneThread.start threeSends).map
      (fun s => (s.accepted, (s.conn 0).loop, s.owing 0))
        = .ok (1, .io 0, [.sendInLoop (.other 1) [3], .sendInLoop (.other 0) [4]]) := by
    decide +kernel
  obtain ⟨s, hs, hobs⟩ := Machine.ok_of_map hrun
  obtain ⟨haccepted, hloop, howing⟩ : s.accepted = 1 ∧ (s.conn 0).loop = .io 0 ∧
      s.owing 0 = [.sendInLoop (.other 1) [3], .sendInLoop (.other 0) [4]] := by
    simpa using hobs
  have hrun' : (Machine.run (step oneThread.mem) oneThread.start (threeSends ++ restOfRounds)).map
      (fun s => s.accepted) = .ok 1 := by
    decide +kernel
  obtain ⟨s', hs', -⟩ := Machine.ok_of_map hrun'
  rw [Machine.run_append hs] at hs'
  have htwo : 2 ≤ restOfRounds.count (.endRound (s.conn 0).loop) := by
    rw [hloop]
    decide
  refine ⟨s, s', hs, howing, hs', ?_⟩
  rw [← howing]
  exact queued_run_in_two_rounds oneThread threeSends restOfRounds hs hs' 0 (by omega) htwo

/-! ## Messages -/

lemma ranMessages_eq (es : List Effect) : ranMessages es = queuedMessages (ranFunctors es) := by
  rw [ranMessages, queuedMessages, ranFunctors, List.filterMap_filterMap]
  refine List.filterMap_congr fun e _ => ?_
  cases e with
  | ran f => cases f <;> rfl
  | _ => rfl

lemma queued_view (s : System) (i : ℕ) : (s.view i).queued = queuedMessages (s.owing i) := by
  rw [queued, owing, List.filterMap_append]
  rfl

/-- Nothing waits for a connection that nobody holds. -/
lemma owing_eq_nil (h : ¬ s.Owned i) : s.owing i = [] := by
  rw [owing, List.filterMap_eq_nil_iff]
  intro t ht
  cases hf : Task.functorOf i t with
  | none => rfl
  | some f =>
      obtain rfl := eq_of_functorOf hf
      have htask : .functor i f ∈ (s.loopOf i).tasks := by
        rw [List.mem_append] at ht
        simp only [Loop.tasks, List.mem_append]
        exact Or.inl ht.symm
      have howned : s.Owned i := Or.inr (Or.inl (List.mem_map.mpr ⟨_, htask, rfl⟩))
      exact absurd howned h

/-- What has been sent has run, or is queued. -/
lemma Sound.order_eq (h : s.Sound cfg []) (halive : s.alive i = true) (t : Thread) :
    ofThread t (ranMessages (s.conn i).trace) ++ ofThread t (queuedMessages (s.owing i))
      = ofThread t (sentMessages (s.conn i).trace) := by
  have horder := (h.intact i halive).order t
  rwa [inHand_nil, List.nil_append, ← queued, queued_view] at horder

/-- The messages sent before have all run. -/
def TakenUp (base : List Effect) (i : ℕ) (s : System) : Prop :=
  ∀ t, ofThread t (sentMessages base) <+: ofThread t (ranMessages (s.conn i).trace)

lemma TakenUp.step (h : TakenUp base i s) (hi : i < s.accepted) (hok : s.step mem a = .ok s') : TakenUp base i s' := by
  intro t
  obtain ⟨es, hes⟩ := step_trace hi hok
  rw [← hes, ranMessages_append, ofThread_append]
  exact (h t).trans (List.prefix_append ..)

lemma ofThread_sent_mono {es es' : List Effect} (h : es <+: es') (t : Thread) :
    ofThread t (sentMessages es) <+: ofThread t (sentMessages es') := by
  obtain ⟨since, rfl⟩ := h
  rw [sentMessages_append, ofThread_append]
  exact List.prefix_append ..

/-- **Of a connection that is destroyed** every message has run. -/
lemma takenUp_of_destroy (h : s.Sound cfg []) (htrace : base <+: (s.conn i).trace)
    (hok : s.step mem (.destroy i) = .ok s') : TakenUp base i s' := by
  simp only [System.step, guard_eq_ok, Except.ok.injEq] at hok
  obtain ⟨⟨halive, howned⟩, rfl⟩ := hok
  intro t
  have horder := h.order_eq halive t
  have hnone : ofThread t (queuedMessages (s.owing i)) = [] := by
    rw [owing_eq_nil howned]
    rfl
  rw [hnone, List.append_nil] at horder
  have hconn : (s.destroy i).conn = s.conn := rfl
  rw [hconn, horder]
  exact ofThread_sent_mono htrace t

/-- **Every message sent is taken up.**  In a run of the server whose steps are allowed and in time, let the loop of a
connection end two rounds.  Then of each thread `sendInLoop` has run for every message it had sent before, in the
order it sent them; also if the connection has been destroyed meanwhile. -/
theorem sent_run_in_two_rounds (cfg : Setting) (as bs : List Action) {s s' : System}
    (hallowed : ∀ p ∈ Machine.steps (step cfg.mem) cfg.start (as ++ bs), p.1.Allowed p.2)
    (htimely : ∀ p ∈ Machine.steps (step cfg.mem) cfg.start (as ++ bs), p.1.Timely p.2)
    (has : Machine.run (step cfg.mem) cfg.start as = .ok s) (hbs : Machine.run (step cfg.mem) s bs = .ok s') {i : ℕ}
    (halive : s.alive i = true) (htwo : 2 ≤ bs.count (.endRound (s.conn i).loop)) :
    ∀ t, ofThread t (sentMessages (s.conn i).trace) <+: ofThread t (ranMessages (s'.conn i).trace) := by
  rw [Machine.steps_append has] at hallowed htimely
  obtain ⟨hbefore, hafter⟩ := List.forall_mem_append.mp hallowed
  obtain ⟨hbefore', hafter'⟩ := List.forall_mem_append.mp htimely
  have hsound := sound_of_mem hbefore hbefore' s (Machine.mem_states_of_run has)
  have hborn := hsound.accounted.born i halive
  -- the connection is there, or all has been taken up
  have hrun := Machine.states_invariant_of_steps (C := fun t a => t.Allowed a ∧ t.Timely a)
    (I := fun u : System => u.Sound cfg [] ∧ i < u.accepted ∧ (s.conn i).trace <+: (u.conn i).trace ∧
      (u.alive i = true ∨ TakenUp (s.conn i).trace i u)) ?_
    ⟨hsound, hborn, List.prefix_rfl, Or.inl halive⟩ (fun p hp => ⟨hafter p hp, hafter' p hp⟩) s'
    (Machine.mem_states_of_run hbs)
  · obtain ⟨hsound', -, -, halive' | htaken⟩ := hrun
    · intro t
      obtain ⟨es, htrace, hcalled⟩ := calls_of_run (bound_of_run has hborn) hbs htwo
      have horder := congrArg List.length (hsound.order_eq halive t)
      have hran : ofThread t (ranMessages (s'.conn i).trace) <+: ofThread t (sentMessages (s'.conn i).trace) :=
        ⟨_, hsound'.order_eq halive' t⟩
      refine List.prefix_of_prefix_length_le (ofThread_sent_mono (htrace ▸ List.prefix_append ..) t) hran ?_
      -- what was queued has run
      have hqueued : (ofThread t (queuedMessages (s.owing i))).Sublist (ofThread t (ranMessages es)) := by
        rw [ranMessages_eq]
        exact (hcalled.filterMap _).filter _
      have hle := hqueued.length_le
      rw [List.length_append] at horder
      rw [htrace, ranMessages_append, ofThread_append, List.length_append]
      omega
    · exact htaken
  · rintro u a u' ⟨hu, hi, htrace, htaken⟩ hfair hok
    refine ⟨hu.step hfair.1 hfair.2 hok, hi.trans_le (step_continues hok).accepted_le,
      htrace.trans (step_trace hi hok), ?_⟩
    rcases htaken with halive | htaken
    · rcases step_alive hok halive with halive' | rfl
      · exact Or.inl halive'
      · exact Or.inr (takenUp_of_destroy hu htrace hok)
    · exact Or.inr (htaken.step hi hok)

/-- The second message of the first thread has been taken up as well. -/
theorem sent_run_in_two_rounds_threeSends :
    ∃ s s', Machine.run (step oneThread.mem) oneThread.start threeSends = .ok s ∧
      Machine.run (step oneThread.mem) s restOfRounds = .ok s' ∧
      sentMessages (s.conn 0).trace = [(.other 0, [1, 2]), (.other 1, [3]), (.other 0, [4])] ∧
      [(Thread.other 0, [1, 2]), (Thread.other 0, [4])] <+: ofThread (.other 0) (ranMessages (s'.conn 0).trace) := by
  have hrun : (Machine.run (step oneThread.mem) oneThread.start threeSends).map
      (fun s => (s.alive 0, (s.conn 0).loop, sentMessages (s.conn 0).trace))
        = .ok (true, .io 0, [(.other 0, [1, 2]), (.other 1, [3]), (.other 0, [4])]) := by
    decide +kernel
  obtain ⟨s, hs, hobs⟩ := Machine.ok_of_map hrun
  obtain ⟨halive, hloop, hsent⟩ : s.alive 0 = true ∧ (s.conn 0).loop = .io 0 ∧
      sentMessages (s.conn 0).trace = [(.other 0, [1, 2]), (.other 1, [3]), (.other 0, [4])] := by
    simpa using hobs
  have hrun' : (Machine.run (step oneThread.mem) oneThread.start (threeSends ++ restOfRounds)).map
      (fun s => s.alive 0) = .ok true := by
    decide +kernel
  obtain ⟨s', hs', -⟩ := Machine.ok_of_map hrun'
  rw [Machine.run_append hs] at hs'
  have hallowed : ∀ p ∈ Machine.steps (step oneThread.mem) oneThread.start (threeSends ++ restOfRounds),
      p.1.Allowed p.2 := by
    decide +kernel
  have htimely : ∀ p ∈ Machine.steps (step oneThread.mem) oneThread.start (threeSends ++ restOfRounds),
      p.1.Timely p.2 := by
    decide +kernel
  have htwo : 2 ≤ restOfRounds.count (.endRound (s.conn 0).loop) := by
    rw [hloop]
    decide
  refine ⟨s, s', hs, hs', hsent, ?_⟩
  have hall := sent_run_in_two_rounds oneThread threeSends restOfRounds hallowed htimely hs hs' halive htwo (.other 0)
  rwa [hsent] at hall

/-! ## Closing -/

/-- The connection is no longer connecting, and it is closed, or will be in the next `k` rounds of its loop. -/
structure Closing (i k : ℕ) (s : System) : Prop where
  born : i < s.accepted
  settled : (s.conn i).state ≠ .kConnecting
  closes : (s.conn i).state = .kDisconnected ∨ .functor i .forceCloseInLoop ∈ first k (s.loopOf i)

lemma eq_disconnected {state : StateE} (hstate : state ≠ .kConnecting)
    (hopen : ¬ (state = .kConnected ∨ state = .kDisconnecting)) : state = .kDisconnected := by
  cases state with
  | kDisconnected => rfl
  | kConnecting => exact absurd rfl hstate
  | kConnected | kDisconnecting => simp at hopen

/-- **`forceCloseInLoop`** of a connection that is no longer connecting. -/
lemma runTask_closes {o : WriteOutcome} (hstate : (s.conn i).state ≠ .kConnecting)
    (hok : s.runTask mem l o (.functor i .forceCloseInLoop) = .ok s') : (s'.conn i).state = .kDisconnected := by
  have hput : ∀ c : TcpConnection ChannelId, ((s.put i c).conn i).state = c.state := by simp [System.put]
  simp only [runTask, bind_eq_ok, if_true, forceCloseInLoopWith] at hok
  obtain ⟨-, -, hok⟩ := hok
  split_ifs at hok with hopen
  · simp only [handleClose, beginClose, onChannel, bind_eq_ok, pure_eq_ok, Except.ok.injEq] at hok
    obtain ⟨c', ⟨-, -, -, ⟨r, -, rfl⟩, rfl⟩, rfl⟩ := hok
    exact hput _
  · rw [← Except.ok.inj hok, hput]
    exact eq_disconnected hstate hopen

lemma Closing.step {k : ℕ} (h : Closing i k s) (hgood : s.Good cfg)
    (hproper : s.Proper a) (htimely : s.Timely a) (hidle : s.Idle) (hok : s.step mem a = .ok s') : Closing i k s' := by
  have hrests := step_rests hgood hproper htimely hok
  refine ⟨h.born.trans_le hrests.accepted_le, (step_continues hok).settled i h.born h.settled, ?_⟩
  rcases h.closes with hstate | hmem
  · exact Or.inl (hrests.state i h.born hstate)
  · rcases step_first hidle h.born hok k with hfirst | ⟨o, t, tail, s₁, hhead, htail, hconn, -, htask⟩
    · exact Or.inr (hfirst.subset hmem)
    · rw [hhead, List.mem_cons] at hmem
      rcases hmem with rfl | hmem
      · exact Or.inl (runTask_closes (hconn ▸ h.settled) htask)
      · exact Or.inr (htail.subset hmem)

/-- No connection is called that is still connecting. -/
def CallsSettled (s : System) : Prop := ∀ u ∈ s.calls, u.conn < s.accepted ∧ (s.conn u.conn).state ≠ .kConnecting

lemma CallsSettled.step (h : s.CallsSettled) (hborn : ∀ i, s.alive i = true → i < s.accepted)
    (hok : s.step mem a = .ok s') : s'.CallsSettled := by
  intro u hu
  have hcontinues := step_continues hok
  have hbefore : u.conn < s.accepted ∧ (s.conn u.conn).state ≠ .kConnecting := by
    rcases mem_calls hok hu with ⟨v, hv, hconn, -⟩ | ⟨rfl, -⟩
    · exact hconn ▸ h v hv
    · simp only [System.step, guard_eq_ok] at hok
      obtain ⟨⟨⟨halive, hstate⟩, -⟩, -⟩ := hok
      exact ⟨hborn _ halive, hstate⟩
  exact ⟨hbefore.1.trans_le hcontinues.accepted_le, hcontinues.settled _ hbefore.1 hbefore.2⟩

/-- In the step a thread calls `forceClose` of the connection, or returns from it. -/
def Forces (i : ℕ) : Action → Prop
  | .call j m _ => j = i ∧ m = .forceClose
  | .queue u => u.conn = i ∧ u.function = .forceClose
  | _ => False

/-- Then `forceCloseInLoop` waits, or the connection is closed. -/
lemma closing_of_forces (hborn : ∀ i, s.alive i = true → i < s.accepted) (hcalls : s.CallsSettled) (ha : Forces i a)
    (hok : s.step mem a = .ok s') : i < s.accepted ∧ Closing i 2 s' := by
  have hcontinues := step_continues hok
  cases a with
  | call j m o =>
      obtain ⟨rfl, rfl⟩ := ha
      simp only [System.step, guard_eq_ok, bind_eq_ok, pure_eq_ok, Except.ok.injEq] at hok
      obtain ⟨⟨halive, hstate⟩, c, hc, rfl⟩ := hok
      refine ⟨hborn j halive, hborn j halive, hcontinues.settled j (hborn j halive) hstate, ?_⟩
      rw [TcpConnection.call] at hc
      split_ifs at hc with hopen
      · have hpending : c.functors.pending = (s.view j).functors.pending ++ [.forceCloseInLoop] := by
          rw [← Except.ok.inj hc]
          rfl
        refine Or.inr ?_
        rw [put_loopOf, put_loops hpending]
        simp [first]
      · rw [← Except.ok.inj hc]
        refine Or.inl ?_
        simp only [System.put, Function.update_self]
        exact eq_disconnected hstate hopen
  | queue u =>
      obtain ⟨rfl, hforce⟩ := ha
      simp only [System.step, guard_eq_ok, bind_eq_ok, pure_eq_ok, Except.ok.injEq] at hok
      obtain ⟨⟨hmem, -⟩, -, -, rfl⟩ := hok
      obtain ⟨hlt, hstate⟩ := hcalls u hmem
      refine ⟨hlt, hlt, hcontinues.settled _ hlt hstate, Or.inr ?_⟩
      have hpending : ((s.view u.conn).posts u.thread u.function).functors.pending
          = ((s.leave u).view u.conn).functors.pending ++ [.forceCloseInLoop] := by
        rw [hforce]
        rfl
      rw [put_loopOf, put_loops hpending]
      simp [first]
  | _ => exact ha.elim

/-- **A connection that is told to close is closed.**  In a run of the server that is used as it should be, with every
step in time, let any thread return from a call of `forceClose`, and then let the loop of the connection end two
rounds, whatever else happens.  Then it is disconnected. -/
theorem forced_close_in_two_rounds (cfg : Setting) (as bs : List Action)
    {s s' : System} {i : ℕ} {a : Action} (hforces : Forces i a)
    (hproper : ∀ p ∈ Machine.steps (step cfg.mem) cfg.start (as ++ a :: bs), p.1.Proper p.2)
    (htimely : ∀ p ∈ Machine.steps (step cfg.mem) cfg.start (as ++ a :: bs), p.1.Timely p.2)
    (has : Machine.run (step cfg.mem) cfg.start as = .ok s) (hbs : Machine.run (step cfg.mem) s (a :: bs) = .ok s')
    (htwo : 2 ≤ bs.count (.endRound (s.conn i).loop)) : (s'.conn i).state = .kDisconnected := by
  have hfair : ∀ p ∈ Machine.steps (step cfg.mem) cfg.start (as ++ a :: bs), p.1.Proper p.2 ∧ p.1.Timely p.2 :=
    fun p hp => ⟨hproper p hp, htimely p hp⟩
  rw [Machine.steps_append has] at hfair
  obtain ⟨hbefore, hafter⟩ := List.forall_mem_append.mp hfair
  obtain ⟨hgood, hcalls⟩ := Machine.states_invariant_of_steps (I := fun t : System => t.Good cfg ∧ t.CallsSettled)
    (C := fun t a => t.Proper a ∧ t.Timely a)
    (fun t a t' ht hstep hok => ⟨ht.1.step hstep.1 hstep.2 hok, ht.2.step ht.1.sound.accounted.born hok⟩)
    ⟨good_start cfg, by simp [CallsSettled, System.Setting.start]⟩ hbefore s (Machine.mem_states_of_run has)
  cases hok : s.step cfg.mem a with
  | error e => simp [Machine.run, hok] at hbs
  | ok s₁ =>
      rw [Machine.run_cons_ok hok] at hbs
      rw [Machine.steps_cons_ok hok, List.forall_mem_cons] at hafter
      obtain ⟨hstep, hrest⟩ := hafter
      have hgood₁ := hgood.step hstep.1 hstep.2 hok
      obtain ⟨hborn, hclosing⟩ := closing_of_forces hgood.sound.accounted.born hcalls hforces hok
      have hbound : s₁.Bound i (s.conn i).loop := (bound_of_run has hborn).step hok
      obtain ⟨-, -, hstate⟩ : Closing i 0 s' := by
        refine Machine.run_countdown (I := fun t : System => t.Good cfg ∧ t.Bound i (s.conn i).loop)
          (C := fun t a => t.Proper a ∧ t.Timely a) (D := (· == .endRound (s.conn i).loop)) ?_ ?_ ?_ ⟨hgood₁, hbound⟩
          hrest hclosing hbs htwo
        · exact fun u a u' h hfair hstep => ⟨h.1.step hfair.1 hfair.2 hstep, h.2.step hstep⟩
        · exact fun k u a u' h hfair hstep hclosing => hclosing.step h.1 hfair.1 hfair.2 h.2.idle hstep
        · rintro k u a u' h - hstep ha ⟨hborn, hsettled, hcloses⟩
          obtain rfl := beq_iff_eq.mp ha
          obtain ⟨hfirst, hconn, haccepted⟩ := endRound_first h.2.loop_eq hstep k
          refine ⟨haccepted.symm ▸ hborn, hconn.symm ▸ hsettled, ?_⟩
          rw [hconn]
          exact hcloses.imp_right fun hmem => hfirst.subset hmem
      simpa [first] using hstate

/-- A connection is established, and another thread has told it to close. -/
def toldToClose : List Action :=
  [.poll .base [(7, {.epollin})], .next .base none (.error 0) (.wrote 0), .next .base (some 8) (.error 0) (.wrote 0),
    .poll (.io 0) [], .takePending (.io 0), .nextFunctor (.io 0) (.wrote 0), .test 0 0 .forceClose,
    .store ⟨0, 0, .forceClose, false⟩]

/-- The loop ends the round it is in, and another one. -/
def closingRounds : List Action :=
  [.endRound (.io 0), .poll (.io 0) [], .takePending (.io 0), .nextFunctor (.io 0) (.wrote 0),
    .next (.io 0) none (.error 0) (.wrote 0), .endRound (.io 0)]

/-- The thread returns while the loop is in a round. -/
theorem forced_close_in_two_rounds_toldToClose :
    ∃ s s', Machine.run (step oneThread.mem) oneThread.start toldToClose = .ok s ∧
      (s.conn 0).state = .kDisconnecting ∧
      Machine.run (step oneThread.mem) s (.queue ⟨0, 0, .forceClose, true⟩ :: closingRounds) = .ok s' ∧
      (s'.conn 0).state = .kDisconnected := by
  have hrun : (Machine.run (step oneThread.mem) oneThread.start toldToClose).map
      (fun s => ((s.conn 0).state, (s.conn 0).loop)) = .ok (.kDisconnecting, .io 0) := by
    decide +kernel
  obtain ⟨s, hs, hobs⟩ := Machine.ok_of_map hrun
  obtain ⟨hstate, hloop⟩ : (s.conn 0).state = .kDisconnecting ∧ (s.conn 0).loop = .io 0 := by simpa using hobs
  have hrun' : (Machine.run (step oneThread.mem) oneThread.start
      (toldToClose ++ .queue ⟨0, 0, .forceClose, true⟩ :: closingRounds)).map (fun s => s.accepted) = .ok 1 := by
    decide +kernel
  obtain ⟨s', hs', -⟩ := Machine.ok_of_map hrun'
  rw [Machine.run_append hs] at hs'
  have hproper : ∀ p ∈ Machine.steps (step oneThread.mem) oneThread.start
      (toldToClose ++ .queue ⟨0, 0, .forceClose, true⟩ :: closingRounds), p.1.Proper p.2 := by
    decide +kernel
  have htimely : ∀ p ∈ Machine.steps (step oneThread.mem) oneThread.start
      (toldToClose ++ .queue ⟨0, 0, .forceClose, true⟩ :: closingRounds), p.1.Timely p.2 := by
    decide +kernel
  have htwo : 2 ≤ closingRounds.count (.endRound (s.conn 0).loop) := by
    rw [hloop]
    decide
  have hforces : Forces 0 (.queue ⟨0, 0, .forceClose, true⟩) := ⟨rfl, rfl⟩
  exact ⟨s, s', hs, hstate, hs', forced_close_in_two_rounds oneThread toldToClose closingRounds hforces
    hproper htimely hs hs' htwo⟩

end System

end Seenet
