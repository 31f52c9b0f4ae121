import Seenet.System.Steps
import Seenet.TcpConnection.Firm

/-!
# Safety of the whole server

What holds in every state of every run of the server, with any number of loops and connections, whatever the
kernel reports and the user calls, while every step is `Allowed` and `Timely`.  A single access to `m_connections`
is taken as indivisible, also when several threads make them: what a `std::map` does otherwise is not defined.

* **`no_dangling_pointer`** — the plain pointers of the loops lead to connections that exist, and no step stops
  because of one.
* **`descriptors_owned`** — the kernel hands out the same descriptors again and again, and they are never mixed up.
* **`connections_accounted`** — each connection is in one place, and it is destroyed once, after it has been
  disconnected and its `connectDestroyed` has run.
-/

namespace Seenet

open Channel

namespace System

open TcpConnection

variable {cfg : Setting} {mem : Memory} {s s' : System} {l : LoopId} {i : ℕ} {a : Action}

/-! ## What a step does not stop for -/

section Avoids

variable {bad : Stop → Bool}

lemma deref_avoids (halive : s.alive i = true) : Avoids bad (s.deref i) := .of_eq_ok (if_pos halive)

/-- `connectEstablished` of a connection that waits for it. -/
lemma establish_avoids (hwf : (s.view i).Wf) (halive : s.alive i = true) (hstate : (s.conn i).state = .kConnecting)
    (l : LoopId) (o : WriteOutcome) : Avoids bad (s.runTask mem l o (.connectEstablished i)) := by
  refine .bind (deref_avoids halive) fun _ _ => ?_
  exact .bind (connectEstablished_avoids hwf hstate) fun _ _ => .ok _

lemma newConnection_avoids (h : s.Sound cfg []) (hcreate : Avoids bad (Buffer.create mem Buffer.kInitialSize))
    {fd : ℤ} (hfd : 0 ≤ fd ∧ s.fds fd = none) (l : LoopId) : Avoids bad (s.newConnection mem l fd) := by
  obtain ⟨ioLoop, pool, hpool, -, -⟩ := EventLoopThreadPool.getNextLoop_spec h.accounted.running
  rw [newConnection, hpool, bind_ok]
  refine .bind hcreate fun inputBuffer _ => .bind hcreate fun outputBuffer hbuffer => ?_
  have hnew : s.alive s.accepted = false := by
    by_contra hlive
    exact lt_irrefl _ (h.accounted.born _ (by simpa using hlive))
  have hpooled : Wired cfg { s with threadPool := pool } :=
    h.wired.congr (fun _ => rfl) rfl (fun _ => rfl) (fun _ => rfl) rfl
  have hwired := hpooled.construct hfd hnew ioLoop inputBuffer outputBuffer
  dsimp only
  generalize hs₁ : System.construct { s with threadPool := pool } ioLoop fd inputBuffer outputBuffer = s₁ at hwired
  obtain ⟨halive, hstate, hself⟩ : s₁.alive s.accepted = true ∧ (s₁.conn s.accepted).state = .kConnecting ∧
      (s₁.view s.accepted).outputBuffer = outputBuffer := by
    rw [← hs₁]
    simp [construct, view]
  have hwf : (s₁.view s.accepted).Wf :=
    ⟨hwired.coherent _, hself ▸ (Buffer.represents_of_create (by decide) hbuffer).wf⟩
  rw [runInLoop]
  split_ifs
  · exact establish_avoids hwf halive hstate ioLoop (.wrote 0)
  · exact .ok _

/-- What the thread of a loop calls stops only as the callbacks of the channels of connections do. -/
lemma call_avoids (h : s.Sound cfg []) (hdisabled : bad .disabled = false)
    (hcreate : Avoids bad (Buffer.create mem Buffer.kInitialSize)) {item : Item} {rest : List Item}
    (htodo : (s.loops l).todo = item :: rest) (accepted : Option ℤ) (readOutcome : ReadOutcome)
    (writeOutcome : WriteOutcome)
    (hcallback : ∀ i cb, item = .callback i cb →
      Avoids bad ((s.setLoop l { s.loops l with todo := rest }).callback mem l i readOutcome writeOutcome cb)) :
    Avoids bad ((s.setLoop l { s.loops l with todo := rest }).call mem l accepted readOutcome writeOutcome item) := by
  have hmem : item ∈ (s.loops l).todo := by simp [htodo]
  have h₁ : (s.setLoop l { s.loops l with todo := rest }).Sound cfg [] := h.setTodo (h.agenda.pop htodo)
  cases item with
  | channel ch =>
      refine .bind ?_ fun _ _ => .ok _
      cases ch with
      | conn i => exact deref_avoids (h.agenda.active l _ hmem i rfl).1
      | _ => exact .ok _
  | callback i cb =>
      have halive := (h.agenda.active l _ hmem i rfl).1
      exact .bind (deref_avoids halive) fun _ _ => hcallback i cb rfl
  | accept =>
      cases accepted with
      | none => exact .ok _
      | some fd =>
          rw [System.call, acceptorHandleRead]
          split_ifs with hfd
          · exact newConnection_avoids h₁ hcreate hfd l
          · exact .error hdisabled
  | closeCallback i =>
      obtain ⟨halive, hl, -⟩ := h.agenda.closing l i hmem
      refine .bind (deref_avoids halive) fun _ _ => ?_
      rw [runInLoop]
      split_ifs
      · exact .bind (deref_avoids halive) fun _ _ => .ok _
      · exact .ok _

/-- What a poll reports comes from channels that exist. -/
lemma poll_avoids (h : s.Sound cfg []) (hdisabled : bad .disabled = false) (report : List (ℤ × Finset Event)) :
    Avoids bad (do
      let events ← (s.loops l).registry.poller.epollWait report
      events.forM fun e => s.derefChannel e.ptr
      let (registry, active) ← (s.loops l).registry.poll report
      return s.setLoop l { s.loops l with
        registry := registry, phase := .dispatching, todo := active.map .channel }) := by
  have hcoh := h.wired.coherent l
  cases hwait : (s.loops l).registry.poller.epollWait report with
  | error e =>
      rw [EPollPoller.epollWait_error hwait]
      exact .error hdisabled
  | ok events =>
      rw [bind_ok]
      refine .bind ?_ fun _ _ => .bind ?_ fun _ _ => .ok _
      · have hevents : ∀ e ∈ events, s.derefChannel e.ptr = .ok () := by
          intro e he
          obtain ⟨-, hadded, -⟩ := (Registry.epollWait_ok hcoh hwait).2 e he
          cases hptr : e.ptr with
          | conn i =>
              rw [hptr] at hadded
              have hon : s.On l i := by
                by_contra hoff
                rw [(h.wired.absent l i hoff).index_eq] at hadded
                simp at hadded
              exact if_pos hon.1
          | _ => rfl
        refine .of_eq_ok (a := ()) ?_
        clear hwait
        induction events with
        | nil => rfl
        | cons e es ih =>
            have hrest := ih fun e' he' => hevents e' (List.mem_cons_of_mem _ he')
            change (s.derefChannel e.ptr >>= fun _ => es.forM _) = .ok ()
            rw [hevents e List.mem_cons_self, bind_ok]
            exact hrest
      · rcases Registry.poll_spec hcoh report with ⟨e, herror, -⟩ | ⟨r, active, hok, -⟩
        · rw [hwait] at herror
          simp at herror
        · exact .of_eq_ok hok

/-- **What a step stops for** comes from a callback, a functor or a call of a connection, from `retrieve`, or from
the construction of a buffer. -/
lemma step_avoids (h : s.Sound cfg []) (hdisabled : bad .disabled = false)
    (hcreate : Avoids bad (Buffer.create mem Buffer.kInitialSize)) (a : Action)
    (hcallback : ∀ l i cb rest r w, (s.loops l).todo = .callback i cb :: rest →
      Avoids bad ((s.setLoop l { s.loops l with todo := rest }).callback mem l i r w cb))
    (htask : ∀ l t rest o, (s.loops l).todo = [] → (s.loops l).phase = .draining → (s.loops l).batch = t :: rest →
      Avoids bad ((s.setLoop l { s.loops l with
        batch := rest, called := (s.loops l).called ++ [t] }).runTask mem l o t))
    (hcall : ∀ i m o, a = .call i m o → s.alive i = true → Avoids bad ((s.view i).call mem .loop o m))
    (hretrieve : ∀ i len, a = .retrieveInput i len → s.alive i = true →
      Avoids bad ((s.conn i).inputBuffer.retrieve len)) : Avoids bad (s.step mem a) := by
  cases a with
  | poll l report => exact .guard hdisabled fun _ => poll_avoids h hdisabled report
  | next l accepted readOutcome writeOutcome =>
      simp only [System.step]
      split
      · exact .error hdisabled
      · rename_i item rest htodo
        refine call_avoids h hdisabled hcreate htodo accepted readOutcome writeOutcome ?_
        rintro i cb rfl
        exact hcallback l i cb rest readOutcome writeOutcome htodo
  | takePending l => exact .guard hdisabled fun _ => .ok _
  | nextFunctor l outcome =>
      rw [System.step]
      split_ifs with hcond
      · split
        · exact .error hdisabled
        · rename_i t rest hbatch
          exact htask l t rest outcome hcond.2 hcond.1 hbatch
      · exact .error hdisabled
  | endRound l => exact .guard hdisabled fun _ => .ok _
  | call i m outcome =>
      exact .guard hdisabled fun hcond => .bind (hcall i m outcome rfl hcond.1) fun _ _ => .ok _
  | test i n m =>
      refine .guard hdisabled fun _ => ?_
      split_ifs <;> exact .ok _
  | store u =>
      exact .guard hdisabled fun hcond => .bind (deref_avoids (h.accounted.alive_of_call hcond.1)) fun _ _ => .ok _
  | queue u =>
      exact .guard hdisabled fun hcond => .bind (deref_avoids (h.accounted.alive_of_call hcond.1)) fun _ _ => .ok _
  | retrieveInput i len =>
      exact .guard hdisabled fun hcond => .bind (hretrieve i len rfl hcond.1) fun _ _ => .ok _
  | setHighWaterMarkCallback i highWaterMark => exact .guard hdisabled fun _ => .ok _
  | keep i => exact .guard hdisabled fun _ => .ok _
  | drop i => exact .ok _
  | destroy i => exact .guard hdisabled fun _ => .ok _
  | openFd fd => exact .guard hdisabled fun _ => .ok _
  | closeFd fd => exact .guard hdisabled fun _ => .ok _

end Avoids

/-! ## No step stops because of a pointer -/

lemma handleClose_firm {c : TcpConnection ChannelId} (h : c.Wf) (l : LoopId) (i : ℕ) :
    Firm (s.handleClose l i c) := .bind (beginClose_firm h) fun _ _ => .ok _

/-- A functor that waits, or that is run at once. -/
lemma runTask_firm {t : Task} (hwf : (s.view t.conn).Wf) (halive : s.alive t.conn = true)
    (hstarting : ∀ i, t = .connectEstablished i → (s.conn i).state = .kConnecting) (l : LoopId) (o : WriteOutcome) :
    Firm (s.runTask mem l o t) := by
  cases t with
  | connectEstablished i => exact establish_avoids hwf halive (hstarting i rfl) l o
  | removeConnectionInLoop i => exact .bind (deref_avoids halive) fun _ _ => .ok _
  | functor i f =>
      refine .bind (deref_avoids halive) fun _ _ => ?_
      split_ifs with hforce
      · have hlog := (hwf.does_nothing.log (.ran .forceCloseInLoop)).wf
        rw [forceCloseInLoopWith]
        split_ifs
        · exact handleClose_firm hlog l i
        · exact .ok _
      · exact .bind (runFunctor_firm hwf hforce o) fun _ _ => .ok _

lemma callback_firm (hwf : (s.view i).Wf) (readOutcome : ReadOutcome) (writeOutcome : WriteOutcome) (cb : Callback) :
    Firm (s.callback mem l i readOutcome writeOutcome cb) := by
  cases cb with
  | close => exact handleClose_firm hwf l i
  | error => exact .ok _
  | read =>
      refine handleReadWith_firm fun buffer => handleClose_firm ?_ l i
      exact ⟨hwf.coherent, hwf.outputBuffer⟩
  | write => exact .bind (handleWrite_firm hwf writeOutcome) fun _ _ => .ok _

/-- **No step stops because of a pointer.** -/
lemma step_firm (h : s.Sound cfg []) (a : Action) : Firm (s.step mem a) := by
  refine step_avoids h rfl (Buffer.create_firm _) a ?_ ?_ ?_ fun i len _ _ => Buffer.retrieve_firm len
  · intro l i cb rest r w htodo
    have h₁ : (s.setLoop l { s.loops l with todo := rest }).Sound cfg [] := h.setTodo (h.agenda.pop htodo)
    exact callback_firm (h₁.view_wf (h.agenda.active l (.callback i cb) (by simp [htodo]) i rfl).1) r w cb
  · intro l t rest o htodo hphase hbatch
    have h₁ := h.startFunctor htodo hphase hbatch
    have halive := (h.accounted.placed l t (by simp [Loop.tasks, hbatch])).1
    refine runTask_firm (h₁.view_wf halive) halive ?_ l o
    rintro i rfl
    refine h₁.accounted.starting i ?_
    simp [waiting]
  · exact fun i m o _ halive => TcpConnection.call_firm (h.view_wf halive) .loop m o

/-! ## Connections do not come back -/

/-- Of the connections there were, none has another name, loop or descriptor, none is connecting again, and none
that was destroyed is back. -/
structure Continues (s s' : System) : Prop where
  accepted_le : s.accepted ≤ s'.accepted
  conn_eq : ∀ i < s.accepted, (s'.conn i).name = (s.conn i).name ∧ (s'.conn i).loop = (s.conn i).loop ∧
    (s'.conn i).fd = (s.conn i).fd
  settled : ∀ i < s.accepted, (s.conn i).state ≠ .kConnecting → (s'.conn i).state ≠ .kConnecting
  dead : ∀ i < s.accepted, s.alive i = false → s'.alive i = false

lemma Continues.refl (s : System) : s.Continues s :=
  ⟨le_rfl, fun _ _ => ⟨rfl, rfl, rfl⟩, fun _ _ h => h, fun _ _ h => h⟩

lemma Continues.trans {s'' : System} (h : s.Continues s') (h' : s'.Continues s'') : s.Continues s'' := by
  refine ⟨h.accepted_le.trans h'.accepted_le, ?_, ?_, ?_⟩
  · intro i hi
    obtain ⟨hname, hloop, hfd⟩ := h'.conn_eq i (hi.trans_le h.accepted_le)
    obtain ⟨hname', hloop', hfd'⟩ := h.conn_eq i hi
    exact ⟨hname.trans hname', hloop.trans hloop', hfd.trans hfd'⟩
  · exact fun i hi hstate => h'.settled i (hi.trans_le h.accepted_le) (h.settled i hi hstate)
  · exact fun i hi hdead => h'.dead i (hi.trans_le h.accepted_le) (h.dead i hi hdead)

/-- What leaves the connections alone. -/
lemma Continues.of_eq (haccepted : s'.accepted = s.accepted) (hconn : s'.conn = s.conn) (halive : s'.alive = s.alive) :
    s.Continues s' := by
  refine ⟨haccepted.ge, fun i _ => ?_, fun i _ hstate => ?_, fun i _ hdead => ?_⟩
  · rw [hconn]
    exact ⟨rfl, rfl, rfl⟩
  · rwa [hconn]
  · rwa [halive]

lemma put_continues {c : TcpConnection ChannelId} (hstate : (s.conn i).state ≠ .kConnecting → c.state ≠ .kConnecting) :
    s.Continues (s.put i c) := by
  refine ⟨le_rfl, fun j _ => s.put_conn_const i c j, fun j _ hj => ?_, fun _ _ hdead => hdead⟩
  by_cases hji : j = i
  · subst hji
    simpa [System.put] using hstate hj
  · rwa [put_conn_of_ne hji]

lemma construct_continues (s : System) (ioLoop : LoopId) (fd : ℤ) (inputBuffer outputBuffer : Buffer) :
    s.Continues (s.construct ioLoop fd inputBuffer outputBuffer) := by
  have hold : ∀ i < s.accepted, (s.construct ioLoop fd inputBuffer outputBuffer).conn i = s.conn i := fun i hi =>
    Function.update_of_ne hi.ne ..
  refine ⟨Nat.le_succ _, fun i hi => ?_, fun i hi hstate => ?_, fun i hi hdead => ?_⟩
  · rw [hold i hi]
    exact ⟨rfl, rfl, rfl⟩
  · rwa [hold i hi]
  · rw [← hdead]
    exact Function.update_of_ne hi.ne ..

lemma handleClose_continues {c : TcpConnection ChannelId} (hstate : c.state = (s.conn i).state)
    (hok : s.handleClose l i c = .ok s') : s.Continues s' := by
  rw [handleClose, bind_eq_ok] at hok
  obtain ⟨c', hclose, hs'⟩ := hok
  rw [← Except.ok.inj hs']
  have hput : s.Continues (s.put i c') := put_continues (hstate ▸ (beginClose_frames hclose).settled)
  exact hput.trans (.of_eq rfl rfl rfl)

lemma runTask_continues {t : Task} {o : WriteOutcome} (hok : s.runTask mem l o t = .ok s') : s.Continues s' := by
  cases t with
  | connectEstablished i =>
      simp only [runTask, bind_eq_ok, pure_eq_ok, Except.ok.injEq] at hok
      obtain ⟨-, -, c, hc, rfl⟩ := hok
      exact put_continues (connectEstablished_frames hc).settled
  | removeConnectionInLoop i =>
      simp only [runTask, bind_eq_ok, pure_eq_ok, Except.ok.injEq] at hok
      obtain ⟨-, -, rfl⟩ := hok
      exact .of_eq rfl rfl rfl
  | functor i f =>
      simp only [runTask, bind_eq_ok] at hok
      obtain ⟨-, -, hok⟩ := hok
      split_ifs at hok with hforce
      · rw [forceCloseInLoopWith] at hok
        split_ifs at hok
        · exact handleClose_continues rfl hok
        · rw [← Except.ok.inj hok]
          exact put_continues id
      · simp only [bind_eq_ok, pure_eq_ok, Except.ok.injEq] at hok
        obtain ⟨c, hc, rfl⟩ := hok
        exact put_continues (runFunctor_frames hforce hc).settled

lemma runInLoop_continues {t : Task} {l' : LoopId} (hok : s.runInLoop mem l l' t = .ok s') : s.Continues s' := by
  rw [runInLoop] at hok
  split_ifs at hok
  · exact runTask_continues hok
  · rw [← Except.ok.inj hok]
    exact .of_eq rfl rfl rfl

lemma callback_continues {readOutcome : ReadOutcome} {writeOutcome : WriteOutcome} {cb : Callback}
    (hok : s.callback mem l i readOutcome writeOutcome cb = .ok s') : s.Continues s' := by
  cases cb with
  | close => exact handleClose_continues rfl hok
  | error =>
      rw [← Except.ok.inj hok]
      exact .refl s
  | read =>
      obtain ⟨c, hstate, -, hdone⟩ := handleReadWith_returns hok
      rcases hdone with rfl | hclose
      · exact put_continues (hstate ▸ id)
      · exact handleClose_continues hstate hclose
  | write =>
      simp only [callback, bind_eq_ok, pure_eq_ok, Except.ok.injEq] at hok
      obtain ⟨c, hc, rfl⟩ := hok
      exact put_continues (handleWrite_frames hc).settled

lemma call_continues {item : Item} {accepted : Option ℤ} {readOutcome : ReadOutcome} {writeOutcome : WriteOutcome}
    (hok : s.call mem l accepted readOutcome writeOutcome item = .ok s') : s.Continues s' := by
  cases item with
  | channel ch =>
      simp only [System.call, bind_eq_ok, pure_eq_ok, Except.ok.injEq] at hok
      obtain ⟨-, -, rfl⟩ := hok
      exact .of_eq rfl rfl rfl
  | callback i cb =>
      simp only [System.call, bind_eq_ok] at hok
      obtain ⟨-, -, hok⟩ := hok
      exact callback_continues hok
  | accept =>
      cases accepted with
      | none =>
          rw [← Except.ok.inj hok]
          exact .refl s
      | some fd =>
          rw [System.call, acceptorHandleRead, guard_eq_ok] at hok
          simp only [newConnection, bind_eq_ok, Prod.exists] at hok
          obtain ⟨-, ioLoop, pool, -, inputBuffer, -, outputBuffer, -, hok⟩ := hok
          have hpool : s.Continues { s with threadPool := pool } := .of_eq rfl rfl rfl
          exact (hpool.trans (construct_continues _ ioLoop fd inputBuffer outputBuffer)).trans (runInLoop_continues hok)
  | closeCallback i =>
      simp only [System.call, closeCallback, bind_eq_ok] at hok
      obtain ⟨-, -, hok⟩ := hok
      have hlog : s.Continues (s.put i ((s.view i).log .closeCallback)) := put_continues id
      exact hlog.trans (runInLoop_continues hok)

/-- **No step brings a connection back.** -/
lemma step_continues (hok : s.step mem a = .ok s') : s.Continues s' := by
  have hloop : ∀ l loop, s.Continues (s.setLoop l loop) := fun l loop => .of_eq rfl rfl rfl
  cases a with
  | poll l report =>
      simp only [System.step, guard_eq_ok, bind_eq_ok, pure_eq_ok, Except.ok.injEq, Prod.exists] at hok
      obtain ⟨-, -, -, -, -, r, active, -, rfl⟩ := hok
      exact hloop l _
  | next l accepted readOutcome writeOutcome =>
      simp only [System.step] at hok
      split at hok
      · simp at hok
      · exact (hloop l _).trans (call_continues hok)
  | takePending l =>
      simp only [System.step, guard_eq_ok, Except.ok.injEq] at hok
      rw [← hok.2]
      exact hloop l _
  | nextFunctor l outcome =>
      simp only [System.step, guard_eq_ok] at hok
      obtain ⟨-, hok⟩ := hok
      split at hok
      · simp at hok
      · exact (hloop l _).trans (runTask_continues hok)
  | endRound l =>
      simp only [System.step, guard_eq_ok, Except.ok.injEq] at hok
      rw [← hok.2]
      exact hloop l _
  | call i m outcome =>
      simp only [System.step, guard_eq_ok, bind_eq_ok, pure_eq_ok, Except.ok.injEq] at hok
      obtain ⟨-, c, hc, rfl⟩ := hok
      exact put_continues (call_frames hc).settled
  | test i n m =>
      simp only [System.step, guard_eq_ok] at hok
      obtain ⟨-, hok⟩ := hok
      split_ifs at hok
      · rw [← Except.ok.inj hok]
        exact .of_eq rfl rfl rfl
      · rw [← Except.ok.inj hok]
        exact .refl s
  | store u =>
      simp only [System.step, guard_eq_ok, bind_eq_ok, pure_eq_ok, Except.ok.injEq] at hok
      obtain ⟨-, -, -, rfl⟩ := hok
      have hstore : s.Continues ((s.leave u).enter { u with stored := true }) := .of_eq rfl rfl rfl
      exact hstore.trans (put_continues (sets_frames (s.view u.conn) u.function).settled)
  | queue u =>
      simp only [System.step, guard_eq_ok, bind_eq_ok, pure_eq_ok, Except.ok.injEq] at hok
      obtain ⟨-, -, -, rfl⟩ := hok
      have hleave : s.Continues (s.leave u) := .of_eq rfl rfl rfl
      exact hleave.trans (put_continues (posts_frames (s.view u.conn) u.thread u.function).settled)
  | retrieveInput i len =>
      simp only [System.step, guard_eq_ok, bind_eq_ok, pure_eq_ok, Except.ok.injEq] at hok
      obtain ⟨-, buffer, -, rfl⟩ := hok
      exact put_continues id
  | setHighWaterMarkCallback i highWaterMark =>
      simp only [System.step, guard_eq_ok, Except.ok.injEq] at hok
      rw [← hok.2]
      exact put_continues id
  | keep i =>
      simp only [System.step, guard_eq_ok, Except.ok.injEq] at hok
      rw [← hok.2]
      exact .of_eq rfl rfl rfl
  | drop i =>
      rw [← Except.ok.inj hok]
      exact .of_eq rfl rfl rfl
  | destroy i =>
      simp only [System.step, guard_eq_ok, Except.ok.injEq] at hok
      rw [← hok.2]
      refine ⟨le_rfl, fun _ _ => ⟨rfl, rfl, rfl⟩, fun _ _ h => h, fun j _ hdead => ?_⟩
      by_cases hji : j = i
      · rw [hji]
        exact Function.update_self ..
      · rw [← hdead]
        exact Function.update_of_ne hji ..
  | openFd fd =>
      simp only [System.step, guard_eq_ok, Except.ok.injEq] at hok
      rw [← hok.2]
      exact .of_eq rfl rfl rfl
  | closeFd fd =>
      simp only [System.step, guard_eq_ok, Except.ok.injEq] at hok
      rw [← hok.2]
      exact .of_eq rfl rfl rfl

/-! ## Runs -/

/-- A server with one thread.  The channels of the base loop have the descriptors 3, 4 and 7, those of the
thread's loop 5 and 6. -/
def oneThread : Setting where
  mem := Buffer.ampleMemory
  ipPort := "127.0.0.1:80"
  name := "s"
  numThreads := 1
  writeCompleteCallback := false
  fd
    | .base, .wakeup => 3
    | .base, .timer => 4
    | .base, .acceptor => 7
    | .io 0, .wakeup => 5
    | .io 0, .timer => 6
    | _, ch => absentFd ch
  fds fd := if 3 ≤ fd ∧ fd ≤ 7 then some .library else none
  ipPort_le := by decide
  fd_inj := by
    intro l ch ch' heq
    rcases l with _ | _ | n <;> cases ch <;> cases ch' <;> simp only [absentFd] at heq ⊢ <;>
      first | rfl | (exfalso; omega) | (congr; omega)
  fd_conn := by
    intro l i
    rcases l with _ | _ | n <;> rfl
  library := by
    intro l ch hch
    rcases l with _ | _ | n <;> cases ch <;> simp only [absentFd] at hch ⊢ <;> first | rfl | (exfalso; omega)
  noSocket := by
    intro fd i
    split_ifs <;> simp

/-- The connection 0 gets the descriptor 8, sends, is closed by its peer, and is destroyed; the connection 1 gets
the same descriptor, and sends. -/
def reuse : List Action :=
  [.poll .base [(7, {.epollin})], .next .base none (.error 0) (.wrote 0), .next .base (some 8) (.error 0) (.wrote 0),
    .poll (.io 0) [], .takePending (.io 0), .nextFunctor (.io 0) (.wrote 0), .endRound (.io 0),
    .call 0 (.send [1, 2, 3]) (.wrote 2), .poll (.io 0) [(8, {.epollin})],
    .next (.io 0) none (.error 0) (.wrote 0), .next (.io 0) none (.bytes []) (.wrote 0),
    .next (.io 0) none (.error 0) (.wrote 0), .takePending (.io 0), .nextFunctor (.io 0) (.wrote 0),
    .endRound (.io 0), .destroy 0, .takePending .base, .endRound .base, .poll .base [(7, {.epollin})],
    .next .base none (.error 0) (.wrote 0), .next .base (some 8) (.error 0) (.wrote 0), .poll (.io 0) [],
    .takePending (.io 0), .nextFunctor (.io 0) (.wrote 0), .endRound (.io 0),
    .test 1 0 (.send [4, 5]), .queue ⟨1, 0, .send [4, 5], true⟩, .poll (.io 0) [], .takePending (.io 0),
    .nextFunctor (.io 0) (.wrote 1)]

/-- Every state of a run whose steps are allowed and in time is in order. -/
lemma sound_of_mem {as : List Action}
    (hallowed : ∀ p ∈ Machine.steps (step cfg.mem) cfg.start as, p.1.Allowed p.2)
    (htimely : ∀ p ∈ Machine.steps (step cfg.mem) cfg.start as, p.1.Timely p.2) :
    ∀ s ∈ Machine.states (step cfg.mem) cfg.start as, s.Sound cfg [] :=
  Machine.states_invariant_of_steps (C := fun s a => s.Allowed a ∧ s.Timely a)
    (fun _ _ _ hsound hstep hok => hsound.step hstep.1 hstep.2 hok) (sound_start cfg)
    fun p hp => ⟨hallowed p hp, htimely p hp⟩

/-- The plain pointers of the loops lead to connections that exist, on their own loops, and with the descriptors
they are kept for. -/
structure PointersGood (s : System) : Prop where
  map : ∀ l fd i, (s.loops l).registry.poller.channels fd = some (.conn i) → s.On l i ∧ (s.conn i).fd = fd
  kernel : ∀ l fd e i, (s.loops l).registry.poller.epollSet fd = some e → e.ptr = .conn i →
    s.On l i ∧ (s.conn i).fd = fd
  todo : ∀ l, ∀ item ∈ (s.loops l).todo, ∀ i, item.pointsTo = some i → s.On l i

/-- An entry for a connection is good if the channel of the connection has its descriptor, and is not new. -/
lemma Wired.on_of_entry (h : s.Wired cfg) {fd : ℤ} (hfd : ((s.loops l).registry.heap (.conn i)).fd = fd)
    (hindex : ((s.loops l).registry.heap (.conn i)).index ≠ .kNew) : s.On l i ∧ (s.conn i).fd = fd := by
  have hon : s.On l i := by
    by_contra hoff
    exact hindex (h.absent l i hoff).index_eq
  exact ⟨hon, (h.present l i hon).symm.trans hfd⟩

lemma Sound.pointersGood (h : s.Sound cfg []) : s.PointersGood := by
  refine ⟨?_, ?_, ?_⟩
  · intro l fd i hentry
    have hfd := h.wired.covered l fd _ hentry
    have hmap := (h.wired.coherent l).channels_eq (.conn i)
    rw [hfd, hentry] at hmap
    refine h.wired.on_of_entry hfd fun hnew => ?_
    rw [if_pos hnew] at hmap
    simp at hmap
  · intro l fd e i hentry hptr
    have hfd := (h.wired.coherent l).epoll_fd fd e hentry
    rw [hptr] at hfd
    have hset := (h.wired.coherent l).epoll_eq (.conn i)
    rw [hfd, hentry] at hset
    refine h.wired.on_of_entry hfd fun hnew => ?_
    rw [if_neg (by simp [hnew])] at hset
    simp at hset
  · intro l item hmem i hitem
    obtain ⟨halive, hl, -⟩ := h.agenda.active l item hmem i hitem
    exact ⟨halive, hl⟩

/-- **No dangling pointer.**  In a run of the server, with any number of loops and connections, let no connection
be constructed under a name that is in the table, let nobody switch the reading of a connection whose channel has
been removed, and let no thread set the state of a connection that has been closed since the thread tested it.  Then
in every state whatever the poller's map, the kernel's set and the active channels of a
loop point to is a connection that exists, on that loop and with that descriptor, although connections end and
their descriptors are used again.  No step stops because it uses what is not there, nor in an assertion of
`updateChannel`, `fillActiveChannels`, `connectEstablished` or `getNextLoop`. -/
theorem no_dangling_pointer (cfg : Setting) (as : List Action)
    (hallowed : ∀ p ∈ Machine.steps (step cfg.mem) cfg.start as, p.1.Allowed p.2)
    (htimely : ∀ p ∈ Machine.steps (step cfg.mem) cfg.start as, p.1.Timely p.2) :
    (∀ s ∈ Machine.states (step cfg.mem) cfg.start as, s.PointersGood) ∧
      ∀ e, Machine.run (step cfg.mem) cfg.start as = .error e → e.dangling = false := by
  refine ⟨fun s hs => (sound_of_mem hallowed htimely s hs).pointersGood, ?_⟩
  intro e he
  obtain ⟨s, hs, a, -, hstep⟩ := Machine.run_error_source he
  exact step_firm (sound_of_mem hallowed htimely s hs) a e hstep

/-- The poller points to the connection 1, when the connection 0, which had the descriptor before, is gone. -/
theorem no_dangling_pointer_reuse :
    ∃ s, Machine.run (step oneThread.mem) oneThread.start reuse = .ok s ∧ s.alive 0 = false ∧
      (s.loops (.io 0)).registry.poller.channels 8 = some (.conn 1) ∧ s.PointersGood := by
  have hrun : (Machine.run (step oneThread.mem) oneThread.start reuse).map
      (fun s => (s.alive 0, (s.loops (.io 0)).registry.poller.channels 8)) = .ok (false, some (.conn 1)) := by
    decide +kernel
  obtain ⟨s, hs, hobs⟩ := Machine.ok_of_map hrun
  rw [Prod.mk.injEq] at hobs
  exact ⟨s, hs, hobs.1, hobs.2,
    (no_dangling_pointer oneThread reuse (by decide +kernel) (by decide +kernel)).1 s (Machine.mem_states_of_run hs)⟩

/-- **Descriptors are never mixed up.**  In every state of such a run the descriptors that belong to a connection
are those of the connections that exist, each to one; the pollers know a descriptor of a connection only by the
channel of that connection, on its own loop; a descriptor that is not open, or that the user has, is in no
poller; and the library keeps the descriptors of the loops' own channels. -/
theorem descriptors_owned (cfg : Setting) (as : List Action)
    (hallowed : ∀ p ∈ Machine.steps (step cfg.mem) cfg.start as, p.1.Allowed p.2)
    (htimely : ∀ p ∈ Machine.steps (step cfg.mem) cfg.start as, p.1.Timely p.2) :
    ∀ s ∈ Machine.states (step cfg.mem) cfg.start as,
      (∀ fd i, s.fds fd = some (.socket i) ↔ s.alive i = true ∧ (s.conn i).fd = fd) ∧
      (∀ l fd i ch, s.fds fd = some (.socket i) →
        (s.loops l).registry.poller.channels fd = some ch ∨
          (∃ e, (s.loops l).registry.poller.epollSet fd = some e ∧ e.ptr = ch) →
        ch = .conn i ∧ (s.conn i).loop = l) ∧
      (∀ l fd, 0 ≤ fd → s.fds fd = none ∨ s.fds fd = some .user →
        (s.loops l).registry.poller.channels fd = none ∧ (s.loops l).registry.poller.epollSet fd = none) ∧
      ∀ l ch, 0 ≤ cfg.fd l ch → s.fds (cfg.fd l ch) = some .library := by
  intro s hs
  have h := (sound_of_mem hallowed htimely s hs).wired
  -- the channel an entry leads to has the descriptor
  have hentry : ∀ l fd ch, (s.loops l).registry.poller.channels fd = some ch ∨
      (∃ e, (s.loops l).registry.poller.epollSet fd = some e ∧ e.ptr = ch) →
      ((s.loops l).registry.heap ch).fd = fd := by
    rintro l fd ch (hmap | ⟨e, hset, rfl⟩)
    · exact h.covered l fd ch hmap
    · exact (h.coherent l).epoll_fd fd e hset
  refine ⟨h.sockets, ?_, ?_, h.library⟩
  · intro l fd i ch hsocket hknown
    have hfd := hentry l fd ch hknown
    have hnonneg : 0 ≤ fd := by
      obtain ⟨halive, hconn⟩ := (h.sockets fd i).mp hsocket
      rw [← hconn]
      exact h.nonneg i halive
    rcases h.holder l ch (hfd ▸ hnonneg) with ⟨j, rfl, hon, hsocket'⟩ | ⟨-, hlibrary⟩
    · rw [hfd, hsocket, Option.some.injEq, Holder.socket.injEq] at hsocket'
      rw [hsocket']
      exact ⟨rfl, hon.2⟩
    · rw [hfd, hsocket] at hlibrary
      simp at hlibrary
  · intro l fd hnonneg hfree
    have hnot : ∀ ch, ((s.loops l).registry.heap ch).fd ≠ fd := by
      rintro ch rfl
      rcases h.holder l ch hnonneg with ⟨j, -, -, hsocket⟩ | ⟨-, hlibrary⟩
      · rcases hfree with hfree | hfree <;> simp [hfree] at hsocket
      · rcases hfree with hfree | hfree <;> simp [hfree] at hlibrary
    refine ⟨Option.eq_none_iff_forall_ne_some.mpr fun ch hmap => ?_,
      Option.eq_none_iff_forall_ne_some.mpr fun e hset => ?_⟩
    · exact hnot ch (hentry l fd ch (Or.inl hmap))
    · exact hnot e.ptr (hentry l fd e.ptr (Or.inr ⟨e, hset, rfl⟩))

/-- The descriptor 8 belongs to the second connection that got it, and to that one only. -/
theorem descriptors_owned_reuse :
    ∃ s, Machine.run (step oneThread.mem) oneThread.start reuse = .ok s ∧ s.fds 8 = some (.socket 1) ∧
      (s.conn 1).fd = 8 ∧ s.fds 3 = some .library := by
  have hrun : (Machine.run (step oneThread.mem) oneThread.start reuse).map (fun s => s.fds 8)
      = .ok (some (.socket 1)) := by
    decide +kernel
  obtain ⟨s, hs, hfd⟩ := Machine.ok_of_map hrun
  obtain ⟨hsockets, -, -, hlibrary⟩ := descriptors_owned oneThread reuse (by decide +kernel) (by decide +kernel) s
    (Machine.mem_states_of_run hs)
  exact ⟨s, hs, hfd, ((hsockets 8 1).mp hfd).2, hlibrary .base .wakeup (by decide)⟩

/-- Where a connection is: in the table; or its `connectDestroyed` is queued on its loop, once; or it has run,
once, and the connection is disconnected and in no poller. -/
inductive Placed (s : System) (i : ℕ) : Prop
  | inTable (hheld : s.Held i) (hqueued : .functor i .connectDestroyed ∉ s.waiting i []) (hran : ¬ s.Removed i)
  | closing (hheld : ¬ s.Held i) (hqueued : (s.waiting i []).count (.functor i .connectDestroyed) = 1)
      (hran : ¬ s.Removed i) (hstate : (s.conn i).state = .kDisconnected)
  | removed (hheld : ¬ s.Held i) (hqueued : .functor i .connectDestroyed ∉ s.waiting i [])
      (hran : (s.conn i).trace.count (.ran .connectDestroyed) = 1) (hstate : (s.conn i).state = .kDisconnected)
      (hindex : (s.view i).ch.index = .kNew)

lemma Accounted.placed_of_lt (h : s.Accounted cfg []) (hi : i < s.accepted) : s.Placed i := by
  have hone := h.one i hi
  have hstate : ¬ s.Held i → (s.conn i).state = .kDisconnected := by
    intro hheld
    by_contra hne
    exact hheld (h.held i hi hne)
  rw [places] at hone
  split_ifs at hone with hheld
  · refine .inTable hheld ?_ ?_
    · rw [← List.count_eq_zero]
      omega
    · rw [Removed, ← List.count_eq_zero]
      omega
  · by_cases hran : s.Removed i
    · have hpos := List.count_pos_iff.mpr hran
      refine .removed hheld ?_ (by omega) (hstate hheld) (h.off i hi hran).1
      rw [← List.count_eq_zero]
      omega
    · have hzero := List.count_eq_zero.mpr hran
      exact .closing hheld (by omega) hran (hstate hheld)

/-- **Every connection is accounted for.**  In every state of such a run each connection accepted is in exactly one
place: in the table, on its way out with `connectDestroyed` queued once, or removed.  One that is not disconnected
is in the table; one that is removed stays; and the destructor runs at most once, when `connectDestroyed` has run
and the state is `kDisconnected`, as `~TcpConnection` asserts.  As long as a connection is there, and after, it
has the same name, loop and descriptor; and once it has left `kConnecting`, it never returns there. -/
theorem connections_accounted (cfg : Setting) (as : List Action)
    (hallowed : ∀ p ∈ Machine.steps (step cfg.mem) cfg.start as, p.1.Allowed p.2)
    (htimely : ∀ p ∈ Machine.steps (step cfg.mem) cfg.start as, p.1.Timely p.2) :
    (∀ s ∈ Machine.states (step cfg.mem) cfg.start as, ∀ i < s.accepted,
      s.Placed i ∧ ((s.conn i).state ≠ .kDisconnected → s.Held i) ∧ (s.alive i = false → s.Removed i)) ∧
    (∀ p ∈ Machine.steps (step cfg.mem) cfg.start as, ∀ i, p.2 = .destroy i →
      (p.1.conn i).state = .kDisconnected ∧ p.1.Removed i) ∧
    (∀ i, (Machine.steps (step cfg.mem) cfg.start as).countP (fun p => p.2 = .destroy i) ≤ 1) ∧
    (Machine.states (step cfg.mem) cfg.start as).Pairwise Continues := by
  have hsound := sound_of_mem hallowed htimely
  have hdestroy : ∀ {s s' : System} {i}, s.Sound cfg [] → s.step cfg.mem (.destroy i) = .ok s' →
      i < s.accepted ∧ s.Removed i ∧ s'.alive i = false := by
    intro s s' i h hok
    simp only [System.step, guard_eq_ok, Except.ok.injEq] at hok
    obtain ⟨⟨halive, howned⟩, rfl⟩ := hok
    have hi := h.accounted.born i halive
    refine ⟨hi, ?_, Function.update_self ..⟩
    by_contra hnot
    exact howned (h.accounted.owned hi hnot)
  refine ⟨?_, ?_, ?_, ?_⟩
  · intro s hs i hi
    have h := (hsound s hs).accounted
    exact ⟨h.placed_of_lt hi, h.held i hi, h.dead i hi⟩
  · rintro ⟨s, a⟩ hp i rfl
    have h := hsound s (Machine.state_of_mem_steps hp)
    obtain ⟨s', hok⟩ := Machine.ok_of_mem_steps hp
    obtain ⟨hi, hremoved, -⟩ := hdestroy h hok
    refine ⟨?_, hremoved⟩
    by_contra hne
    exact h.not_removed_of_held (h.accounted.held i hi hne) hremoved
  · intro i
    -- a connection that has been destroyed is not there to be destroyed
    refine (Machine.countP_steps_le_one (I := fun s : System => s.Sound cfg [])
      (Z := fun s : System => i < s.accepted ∧ s.alive i = false) (C := fun s a => s.Allowed a ∧ s.Timely a)
      (D := fun _ (a : Action) => decide (a = .destroy i)) ?_ ?_ ?_ (sound_start cfg)
      fun p hp => ⟨hallowed p hp, htimely p hp⟩).1
    · exact fun _ _ _ h hstep hok => h.step hstep.1 hstep.2 hok
    · intro s a s' h _ hok ha
      obtain rfl := of_decide_eq_true ha
      obtain ⟨hi, -, hdead⟩ := hdestroy h hok
      exact ⟨hi.trans_le (step_continues hok).accepted_le, hdead⟩
    · rintro s a s' h ⟨hi, hdead⟩ - hok
      have hcontinues := step_continues hok
      refine ⟨⟨hi.trans_le hcontinues.accepted_le, hcontinues.dead i hi hdead⟩, ?_⟩
      rw [decide_eq_false_iff_not]
      rintro rfl
      simp [System.step, hdead] at hok
  · exact Machine.pairwise_states (I := fun _ => True) (R := Continues) (C := fun _ _ => True)
      (fun _ _ _ h h' => h.trans h') (fun _ _ _ _ _ hok => ⟨trivial, step_continues hok⟩) trivial fun _ _ => trivial

/-- The first connection has been removed and destroyed, the second one is in the table. -/
theorem connections_accounted_reuse :
    ∃ s, Machine.run (step oneThread.mem) oneThread.start reuse = .ok s ∧ s.alive 0 = false ∧ s.Removed 0 ∧
      (s.conn 1).state = .kConnected ∧ s.Held 1 ∧ s.Placed 0 ∧ s.Placed 1 := by
  have hrun : (Machine.run (step oneThread.mem) oneThread.start reuse).map
      (fun s => (s.accepted, s.alive 0, (s.conn 1).state)) = .ok (2, false, .kConnected) := by
    decide +kernel
  obtain ⟨s, hs, hobs⟩ := Machine.ok_of_map hrun
  obtain ⟨haccepted, hdead, hstate⟩ : s.accepted = 2 ∧ s.alive 0 = false ∧ (s.conn 1).state = .kConnected := by
    simpa using hobs
  have hall := (connections_accounted oneThread reuse (by decide +kernel) (by decide +kernel)).1 s
    (Machine.mem_states_of_run hs)
  obtain ⟨hplaced, -, hremoved⟩ := hall 0 (by omega)
  obtain ⟨hplaced', hheld, -⟩ := hall 1 (by omega)
  exact ⟨s, hs, hdead, hremoved hdead, hstate, hheld (by simp [hstate]), hplaced, hplaced'⟩

end System

end Seenet
