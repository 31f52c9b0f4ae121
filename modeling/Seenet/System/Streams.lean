import Seenet.System.Safety

/-!
# The streams of the connections

Of each connection of the server is true what `TcpConnection.stream_intact` says of one: nothing gets into its stream
but the messages that are sent on it, whatever the other connections, loops and threads do.

* `sentOn`, `ranOn`, `takenOn` — the messages of a step on a connection, read off the state before it.
* **`Sound.step_tells`** — a step adds these messages to the trace of the connection, and no others.
* **`streams_intact`** — the stream of every connection is intact, and no other connection's bytes are in it.
-/

namespace Seenet

open Channel

namespace System

open TcpConnection

variable {cfg : Setting} {mem : Memory} {s s' s'' : System} {l : LoopId} {i j : ℕ} {a : Action}

/-! ## The messages of a step -/

/-- The messages sent on the connection in a step: by the thread of its loop, and by the others when they queue
them. -/
def sentOn (s : System) (i : ℕ) : Action → List (Thread × List UInt8)
  | .call j m _ => if j = i ∧ (s.conn i).state = .kConnected then m.messages .loop else []
  | .queue u => if u.conn = i then u.function.messages (.other u.thread) else []
  | _ => []

/-- The messages whose `sendInLoop` runs on the connection in a step. -/
def ranOn (s : System) (i : ℕ) : Action → List (Thread × List UInt8)
  | .call j m _ => if j = i ∧ (s.conn i).state = .kConnected then m.messages .loop else []
  | .nextFunctor l _ => queuedMessages (((s.loops l).batch.take 1).filterMap (Task.functorOf i))
  | _ => []

/-- Those of them that are accepted. -/
def takenOn (s : System) (i : ℕ) : Action → List (Thread × List UInt8)
  | .call j m o => if (s.view i).takes o then s.ranOn i (.call j m o) else []
  | .nextFunctor l o => if (s.view i).takes o then s.ranOn i (.nextFunctor l o) else []
  | _ => []

/-! ## What a step says -/

/-- What has happened on a connection. -/
def past (s : System) (i : ℕ) : List Effect := if i < s.accepted then (s.conn i).trace else []

/-- From `s` to `s'` these messages have been added to the past of a connection. -/
structure Tells (i : ℕ) (sent ran taken : List (Thread × List UInt8)) (s s' : System) : Prop where
  sent_eq : sentMessages (s'.past i) = sentMessages (s.past i) ++ sent
  ran_eq : ranMessages (s'.past i) = ranMessages (s.past i) ++ ran
  taken_eq : acceptedMessages (s'.past i) = acceptedMessages (s.past i) ++ taken

/-- No messages have been added. -/
abbrev Mute (i : ℕ) (s s' : System) : Prop := Tells i [] [] [] s s'

section Tells

variable {sent ran taken : List (Thread × List UInt8)}

lemma Tells.of_eq (h : s'.past i = s.past i) : Mute i s s' := by
  refine ⟨?_, ?_, ?_⟩ <;> rw [h, List.append_nil]

lemma Tells.of_conn (haccepted : s'.accepted = s.accepted) (hconn : s'.conn = s.conn) : Mute i s s' := by
  refine .of_eq ?_
  rw [past, past, haccepted, hconn]

lemma Tells.after (h' : Tells i sent ran taken s' s'') (h : Mute i s s') : Tells i sent ran taken s s'' where
  sent_eq := by rw [h'.sent_eq, h.sent_eq, List.append_nil]
  ran_eq := by rw [h'.ran_eq, h.ran_eq, List.append_nil]
  taken_eq := by rw [h'.taken_eq, h.taken_eq, List.append_nil]

lemma Tells.mute (h : Tells i sent ran taken s s') (h' : Mute i s' s'') : Tells i sent ran taken s s'' where
  sent_eq := by rw [h'.sent_eq, h.sent_eq, List.append_nil]
  ran_eq := by rw [h'.ran_eq, h.ran_eq, List.append_nil]
  taken_eq := by rw [h'.taken_eq, h.taken_eq, List.append_nil]

variable {c c' : TcpConnection ChannelId}

/-- **A function of a connection** says what it says about that one. -/
lemma put_tells (hj : j < s.accepted) (h : (s.view j).Grows c sent ran taken) :
    Tells i (if j = i then sent else []) (if j = i then ran else []) (if j = i then taken else []) s (s.put j c) := by
  by_cases hji : j = i
  · subst hji
    have hold : s.past j = (s.view j).trace := if_pos hj
    have hnew : (s.put j c).past j = c.trace := by
      rw [past, if_pos (show j < (s.put j c).accepted from hj)]
      simp [System.put]
    rw [if_pos rfl, if_pos rfl, if_pos rfl]
    exact ⟨by rw [hold, hnew, h.sent_eq], by rw [hold, hnew, h.ran_eq], by rw [hold, hnew, h.taken_eq]⟩
  · rw [if_neg hji, if_neg hji, if_neg hji]
    refine .of_eq ?_
    rw [past, past, put_conn_of_ne fun hij => hji hij.symm]
    exact if_congr Iff.rfl rfl rfl

lemma put_mute (hj : j < s.accepted) (h : (s.view j).Grows c [] [] []) : Mute i s (s.put j c) := by
  have htells := put_tells (i := i) hj h
  rwa [ite_self] at htells

lemma handleClose_mute (hj : j < s.accepted) (hwf : c.Wf) (h : (s.view j).Grows c [] [] [])
    (hok : s.handleClose l j c = .ok s') : Mute i s s' := by
  rw [handleClose, bind_eq_ok] at hok
  obtain ⟨c', hclose, hs'⟩ := hok
  rw [← Except.ok.inj hs']
  have hclosed : c.Grows c' [] [] [] := .of_silent (beginClose_spec hwf hclose).1.trace_eq ⟨rfl, rfl, rfl, rfl⟩
  have hall : (s.view j).Grows c' [] [] [] :=
    ⟨by rw [hclosed.sent_eq, h.sent_eq, List.append_nil], by rw [hclosed.ran_eq, h.ran_eq, List.append_nil],
      by rw [hclosed.taken_eq, h.taken_eq, List.append_nil]⟩
  exact (put_mute hj hall).mute (.of_conn rfl rfl)

end Tells

lemma setLoop_takes {loop : Loop} (hregistry : loop.registry = (s.loops l).registry) (i : ℕ) (o : WriteOutcome) :
    ((s.setLoop l loop).view i).takes o = (s.view i).takes o := by
  have hstate : ((s.setLoop l loop).view i).state = (s.view i).state := rfl
  have hbuffer : ((s.setLoop l loop).view i).outputBuffer = (s.view i).outputBuffer := rfl
  exact takes_eq hstate (setLoop_view_ch hregistry i) hbuffer o

/-! ## What the threads call -/

lemma establish_mute (hj : j < s.accepted) (hwf : (s.view j).Wf) {o : WriteOutcome}
    (hok : s.runTask mem l o (.connectEstablished j) = .ok s') : Mute i s s' := by
  simp only [runTask, bind_eq_ok, pure_eq_ok, Except.ok.injEq] at hok
  obtain ⟨-, -, c, hc, rfl⟩ := hok
  exact put_mute hj (.of_silent (connectEstablished_spec hwf hc).1.trace_eq ⟨rfl, rfl, rfl, rfl⟩)

/-- **A functor is called**: only a `sendInLoop` says something. -/
lemma runTask_tells {t : Task} (hj : t.conn < s.accepted) (hwf : (s.view t.conn).Wf) {o : WriteOutcome}
    (hok : s.runTask mem l o t = .ok s') :
    Tells i [] (queuedMessages ([t].filterMap (Task.functorOf i)))
      (if (s.view i).takes o then queuedMessages ([t].filterMap (Task.functorOf i)) else []) s s' := by
  have hmute : Task.functorOf i t = none → Mute i s s' → Tells i [] (queuedMessages ([t].filterMap (Task.functorOf i)))
      (if (s.view i).takes o then queuedMessages ([t].filterMap (Task.functorOf i)) else []) s s' := by
    intro hnone h
    rw [List.filterMap_cons, hnone, List.filterMap_nil, queuedMessages_nil, ite_self]
    exact h
  cases t with
  | connectEstablished j => exact hmute rfl (establish_mute hj hwf hok)
  | removeConnectionInLoop j =>
      simp only [runTask, bind_eq_ok, pure_eq_ok, Except.ok.injEq] at hok
      obtain ⟨-, -, rfl⟩ := hok
      exact hmute rfl (.of_conn rfl rfl)
  | functor j f =>
      replace hj : j < s.accepted := hj
      replace hwf : (s.view j).Wf := hwf
      have hmessages : queuedMessages ([Task.functor j f].filterMap (Task.functorOf i))
          = if j = i then queuedMessages [f] else [] := by
        rw [List.filterMap_cons, Task.functorOf]
        split_ifs <;> rfl
      rw [hmessages]
      simp only [runTask, bind_eq_ok] at hok
      obtain ⟨-, -, hok⟩ := hok
      split_ifs at hok with hforce
      · subst hforce
        have hnone : queuedMessages [Functor.forceCloseInLoop] = [] := rfl
        rw [hnone, ite_self, ite_self]
        have hlog := hwf.does_nothing.log (.ran .forceCloseInLoop)
        have hgrows : (s.view j).Grows ((s.view j).log (.ran .forceCloseInLoop)) [] [] [] :=
          .of_silent hlog.trace_eq ⟨rfl, rfl, rfl, rfl⟩
        rw [forceCloseInLoopWith] at hok
        split_ifs at hok
        · exact handleClose_mute hj hlog.wf hgrows hok
        · rw [← Except.ok.inj hok]
          exact put_mute hj hgrows
      · simp only [bind_eq_ok, pure_eq_ok, Except.ok.injEq] at hok
        obtain ⟨c, hc, rfl⟩ := hok
        have htells := put_tells (i := i) hj (runFunctor_grows hwf hc)
        rw [ite_self] at htells
        by_cases hji : j = i
        · subst hji
          rw [if_pos rfl, if_pos rfl] at htells
          rwa [if_pos rfl]
        · rw [if_neg hji, if_neg hji] at htells
          rwa [if_neg hji, ite_self]

lemma callback_mute (hj : j < s.accepted) (hwf : (s.view j).Wf) {readOutcome : ReadOutcome}
    {writeOutcome : WriteOutcome} {cb : Callback} (hok : s.callback mem l j readOutcome writeOutcome cb = .ok s') :
    Mute i s s' := by
  cases cb with
  | close => exact handleClose_mute hj hwf (.of_trace_eq rfl) hok
  | error =>
      rw [← Except.ok.inj hok]
      exact .of_conn rfl rfl
  | read =>
      obtain ⟨c, es, hord, hdoes, hes, -, hdone⟩ := handleReadWith_ordinary hwf hok
      have hgrows : (s.view j).Grows c [] [] [] := .of_silent hdoes.trace_eq (silent_of_isCallback hes)
      rcases hdone with rfl | hclose
      · exact put_mute hj hgrows
      · exact handleClose_mute hj hord.wf hgrows hclose
  | write =>
      simp only [callback, bind_eq_ok, pure_eq_ok, Except.ok.injEq] at hok
      obtain ⟨c, hc, rfl⟩ := hok
      exact put_mute hj (handleWrite_grows hwf hc)

lemma closeCallback_mute (hj : j < s.accepted) (hl : (s.conn j).loop = l) (hok : s.closeCallback mem l j = .ok s') :
    Mute i s s' := by
  simp only [closeCallback, bind_eq_ok] at hok
  obtain ⟨-, -, hok⟩ := hok
  rw [runInLoop, if_pos hl.symm, runTask, bind_eq_ok] at hok
  obtain ⟨-, -, hs'⟩ := hok
  rw [pure_eq_ok, Except.ok.injEq] at hs'
  rw [← hs']
  have hgrows : (s.view j).Grows ((s.view j).log .closeCallback) [] [] [] :=
    .of_trace [.closeCallback] rfl
  exact (put_mute hj hgrows).mute (.of_conn rfl rfl)

lemma construct_mute (ioLoop : LoopId) (fd : ℤ) (inputBuffer outputBuffer : Buffer) :
    Mute i s (s.construct ioLoop fd inputBuffer outputBuffer) := by
  generalize hs' : s.construct ioLoop fd inputBuffer outputBuffer = s'
  have haccepted : s'.accepted = s.accepted + 1 := by rw [← hs']; rfl
  refine .of_eq ?_
  rw [past, past, haccepted]
  rcases Nat.lt_trichotomy i s.accepted with hlt | rfl | hgt
  · have hconn : s'.conn i = s.conn i := by
      rw [← hs']
      exact Function.update_of_ne hlt.ne ..
    rw [if_pos hlt, if_pos (Nat.lt_succ_of_lt hlt), hconn]
  · -- nothing has happened on the new connection
    have hself : (s'.conn s.accepted).trace = [] := by
      rw [← hs']
      simp [construct]
    rw [if_neg (lt_irrefl _), if_pos (Nat.lt_succ_self _), hself]
  · rw [if_neg (by omega), if_neg (by omega)]

lemma newConnection_mute (h : s.Sound cfg []) (hname : s.connections s.connName = none) {fd : ℤ}
    (hfd : 0 ≤ fd ∧ s.fds fd = none) (hok : s.newConnection mem l fd = .ok s') : Mute i s s' := by
  obtain ⟨ioLoop, pool, hpool, hrunning, -⟩ := EventLoopThreadPool.getNextLoop_spec h.accounted.running
  simp only [System.newConnection, hpool, bind_ok, bind_eq_ok] at hok
  obtain ⟨inputBuffer, -, outputBuffer, hbuffer, hok⟩ := hok
  have hsound := (h.setPool hrunning).construct hname hfd hbuffer ioLoop inputBuffer
  have hpooled : Mute i s { s with threadPool := pool } := .of_conn rfl rfl
  have hmute := (construct_mute (i := i) ioLoop fd inputBuffer outputBuffer).after hpooled
  generalize hs₁ : System.construct { s with threadPool := pool } ioLoop fd inputBuffer outputBuffer = s₁
    at hok hsound hmute
  refine hmute.mute ?_
  rw [runInLoop] at hok
  split_ifs at hok
  · have halive : s₁.alive s.accepted = true := by
      rw [← hs₁]
      simp [construct]
    exact establish_mute (hsound.accounted.born _ halive) (hsound.view_wf halive) hok
  · rw [← Except.ok.inj hok]
    exact .of_conn rfl rfl

/-- **The thread of a loop calls what is next**, and nobody sends. -/
lemma next_mute (h : s.Sound cfg []) {item : Item} {rest : List Item} (htodo : (s.loops l).todo = item :: rest)
    {accepted : Option ℤ} {readOutcome : ReadOutcome} {writeOutcome : WriteOutcome}
    (hname : item = .accept → accepted ≠ none → s.connections s.connName = none)
    (hok : (s.setLoop l { s.loops l with todo := rest }).call mem l accepted readOutcome writeOutcome item = .ok s') :
    Mute i s s' := by
  have hmem : item ∈ (s.loops l).todo := by simp [htodo]
  have h₁ : (s.setLoop l { s.loops l with todo := rest }).Sound cfg [] := h.setTodo (h.agenda.pop htodo)
  have hpop : Mute i s (s.setLoop l { s.loops l with todo := rest }) := .of_conn rfl rfl
  cases item with
  | channel ch =>
      simp only [System.call, bind_eq_ok, pure_eq_ok, Except.ok.injEq] at hok
      obtain ⟨-, -, rfl⟩ := hok
      exact .of_conn rfl rfl
  | callback j cb =>
      simp only [System.call, bind_eq_ok] at hok
      obtain ⟨-, -, hok⟩ := hok
      have halive := (h.agenda.active l _ hmem j rfl).1
      exact (callback_mute (h₁.accounted.born j halive) (h₁.view_wf halive) hok).after hpop
  | accept =>
      cases accepted with
      | none =>
          rw [← Except.ok.inj hok]
          exact hpop
      | some fd =>
          rw [System.call, acceptorHandleRead, guard_eq_ok] at hok
          exact (newConnection_mute h₁ (hname rfl (by simp)) hok.1 hok.2).after hpop
  | closeCallback j =>
      obtain ⟨halive, hl, -⟩ := h.agenda.closing l j hmem
      exact (closeCallback_mute (h₁.accounted.born j halive) hl hok).after hpop

/-! ## Steps -/

/-- **A step says** what can be read off the state before it. -/
lemma Sound.step_tells (h : s.Sound cfg []) (hallowed : s.Allowed a) (hok : s.step mem a = .ok s') (i : ℕ) :
    Tells i (s.sentOn i a) (s.ranOn i a) (s.takenOn i a) s s' := by
  cases a with
  | next l accepted readOutcome writeOutcome =>
      simp only [System.step] at hok
      split at hok
      · simp at hok
      · rename_i item rest htodo
        refine next_mute h htodo ?_ hok
        rintro rfl hsome
        cases accepted with
        | none => exact absurd rfl hsome
        | some fd => exact hallowed (by rw [htodo]; rfl)
  | nextFunctor l outcome =>
      simp only [System.step, guard_eq_ok] at hok
      obtain ⟨⟨hphase, htodo⟩, hok⟩ := hok
      split at hok
      · simp at hok
      · rename_i t rest hbatch
        have hstart := h.startFunctor htodo hphase hbatch
        have halive := (h.accounted.placed l t (by simp [Loop.tasks, hbatch])).1
        have htells := runTask_tells (i := i) (hstart.accounted.born _ halive) (hstart.view_wf halive) hok
        have hregistry : ({ s.loops l with batch := rest, called := (s.loops l).called ++ [t] } : Loop).registry
            = (s.loops l).registry := rfl
        rw [setLoop_takes hregistry] at htells
        simp only [sentOn, takenOn, ranOn, hbatch, List.take_succ_cons, List.take_zero]
        exact htells.after (.of_conn rfl rfl)
  | call j m outcome =>
      simp only [System.step, guard_eq_ok, bind_eq_ok, pure_eq_ok, Except.ok.injEq] at hok
      obtain ⟨⟨halive, -⟩, c, hc, rfl⟩ := hok
      have htells := put_tells (i := i) (h.accounted.born j halive) (call_grows (h.view_wf halive) hc)
      rw [sentOn, takenOn, ranOn]
      by_cases hji : j = i
      · subst hji
        rw [if_pos rfl, if_pos rfl, if_pos rfl] at htells
        simp only [TcpConnection.sent, TcpConnection.ran, TcpConnection.taken, true_and] at htells ⊢
        exact htells
      · rw [if_neg hji, if_neg hji, if_neg hji] at htells
        rw [if_neg fun hand => hji hand.1, ite_self]
        exact htells
  | test j n m =>
      simp only [System.step, guard_eq_ok] at hok
      obtain ⟨-, hok⟩ := hok
      split_ifs at hok <;> rw [← Except.ok.inj hok] <;> exact .of_conn rfl rfl
  | store u =>
      simp only [System.step, guard_eq_ok, bind_eq_ok, pure_eq_ok, Except.ok.injEq] at hok
      obtain ⟨⟨hmem, -⟩, -, -, rfl⟩ := hok
      have hborn := h.accounted.born _ (h.accounted.alive_of_call hmem)
      have hstored : Mute i s ((s.leave u).enter { u with stored := true }) := .of_conn rfl rfl
      have hput := put_mute (s := (s.leave u).enter { u with stored := true }) (i := i) hborn
        (sets_grows (s.view u.conn) u.function)
      exact hput.after hstored
  | queue u =>
      simp only [System.step, guard_eq_ok, bind_eq_ok, pure_eq_ok, Except.ok.injEq] at hok
      obtain ⟨⟨hmem, -⟩, -, -, rfl⟩ := hok
      have hborn := h.accounted.born _ (h.accounted.alive_of_call hmem)
      have hleft : Mute i s (s.leave u) := .of_conn rfl rfl
      have hput := put_tells (s := s.leave u) (i := i) hborn (posts_grows (s.view u.conn) u.thread u.function)
      rw [ite_self] at hput
      exact hput.after hleft
  | poll l report =>
      simp only [System.step, guard_eq_ok, bind_eq_ok, pure_eq_ok, Except.ok.injEq, Prod.exists] at hok
      obtain ⟨-, -, -, -, -, r, active, -, rfl⟩ := hok
      exact .of_conn rfl rfl
  | retrieveInput j len =>
      simp only [System.step, guard_eq_ok, bind_eq_ok, pure_eq_ok, Except.ok.injEq] at hok
      obtain ⟨⟨halive, -⟩, buffer, -, rfl⟩ := hok
      exact put_mute (h.accounted.born j halive) (.of_trace_eq rfl)
  | setHighWaterMarkCallback j highWaterMark =>
      simp only [System.step, guard_eq_ok, Except.ok.injEq] at hok
      obtain ⟨⟨halive, -⟩, rfl⟩ := hok
      exact put_mute (h.accounted.born j halive) (.of_trace_eq rfl)
  | drop j =>
      rw [← Except.ok.inj hok]
      exact .of_conn rfl rfl
  | takePending _ | endRound _ | keep _ | destroy _ | openFd _ | closeFd _ =>
      simp only [System.step, guard_eq_ok, Except.ok.injEq] at hok
      rw [← hok.2]
      exact .of_conn rfl rfl

/-! ## Runs -/

/-- **The past of a connection** says what the steps of the run say, one after the other. -/
lemma past_of_run {as : List Action} (hallowed : ∀ p ∈ Machine.steps (step cfg.mem) cfg.start as, p.1.Allowed p.2)
    (htimely : ∀ p ∈ Machine.steps (step cfg.mem) cfg.start as, p.1.Timely p.2)
    (hrun : Machine.run (step cfg.mem) cfg.start as = .ok s) (i : ℕ) :
    Tells i (Machine.collect (sentOn · i) (Machine.steps (step cfg.mem) cfg.start as))
      (Machine.collect (ranOn · i) (Machine.steps (step cfg.mem) cfg.start as))
      (Machine.collect (takenOn · i) (Machine.steps (step cfg.mem) cfg.start as)) cfg.start s := by
  have hgrows : ∀ (said : List Effect → List (Thread × List UInt8))
      (tells : System → Action → List (Thread × List UInt8)),
      (∀ t a t', t.Sound cfg [] → t.Allowed a → t.step cfg.mem a = .ok t' →
        said (t'.past i) = said (t.past i) ++ tells t a) →
      said (s.past i) = said (cfg.start.past i)
        ++ Machine.collect tells (Machine.steps (step cfg.mem) cfg.start as) := by
    intro said tells hstep
    have hfifo := Machine.run_fifo_of_steps (I := fun t : System => t.Sound cfg [])
      (C := fun t a => t.Allowed a ∧ t.Timely a) (fun t => said (t.past i)) tells (fun _ _ => [])
      (fun t a t' h hfair hok => ⟨h.step hfair.1 hfair.2 hok, (hstep t a t' h hfair.1 hok).symm⟩) (sound_start cfg)
      (fun p hp => ⟨hallowed p hp, htimely p hp⟩) hrun
    rw [Machine.collect_none, List.nil_append] at hfifo
    exact hfifo.symm
  refine ⟨?_, ?_, ?_⟩
  · exact hgrows sentMessages (sentOn · i) fun t a t' h hallowed hok => (h.step_tells hallowed hok i).sent_eq
  · exact hgrows ranMessages (ranOn · i) fun t a t' h hallowed hok => (h.step_tells hallowed hok i).ran_eq
  · exact hgrows acceptedMessages (takenOn · i) fun t a t' h hallowed hok => (h.step_tells hallowed hok i).taken_eq

/-- **The stream of every connection is intact.**  At the end of such a run, of every connection there is: the bytes
the kernel has accepted for it, followed by its output buffer, are one behind the other the messages whose
`sendInLoop` ran on it while it was not disconnected and without a fault, in the order in which these ran; and of each
thread the messages whose `sendInLoop` ran on it are the first it sent there, in the order it sent them. -/
theorem streams_intact (cfg : Setting) (as : List Action)
    (hallowed : ∀ p ∈ Machine.steps (step cfg.mem) cfg.start as, p.1.Allowed p.2)
    (htimely : ∀ p ∈ Machine.steps (step cfg.mem) cfg.start as, p.1.Timely p.2)
    (hrun : Machine.run (step cfg.mem) cfg.start as = .ok s) :
    ∀ i, s.alive i = true →
      wire (s.conn i).trace ++ (s.conn i).outputBuffer.toList
        = (Machine.collect (takenOn · i) (Machine.steps (step cfg.mem) cfg.start as)).flatMap Prod.snd ∧
      (Machine.collect (takenOn · i) (Machine.steps (step cfg.mem) cfg.start as)).Sublist
        (Machine.collect (ranOn · i) (Machine.steps (step cfg.mem) cfg.start as)) ∧
      ∀ t, ofThread t (Machine.collect (ranOn · i) (Machine.steps (step cfg.mem) cfg.start as))
        <+: ofThread t (Machine.collect (sentOn · i) (Machine.steps (step cfg.mem) cfg.start as)) := by
  intro i halive
  have hsound := sound_of_mem hallowed htimely s (Machine.mem_states_of_run hrun)
  have h := hsound.intact i halive
  obtain ⟨hsent, hran, htaken⟩ := past_of_run hallowed htimely hrun i
  have hpast : s.past i = (s.view i).trace := if_pos (hsound.accounted.born i halive)
  have hstart : cfg.start.past i = [] := if_neg (Nat.not_lt_zero i)
  rw [hpast, hstart] at hsent hran htaken
  have hnone : ∀ {ms ms' : List (Thread × List UInt8)}, ms = [] ++ ms' → ms' = ms := fun h => h.symm
  rw [hnone hsent, hnone hran, hnone htaken]
  exact ⟨h.stream_eq, h.accepted_sublist, fun t => ⟨_, h.order t⟩⟩

/-- Of the two bytes sent on the second connection the kernel has taken one. -/
theorem streams_intact_reuse :
    ∃ s, Machine.run (step oneThread.mem) oneThread.start reuse = .ok s ∧ wire (s.conn 1).trace = [4] ∧
      (s.conn 1).outputBuffer.toList = [5] ∧
      wire (s.conn 1).trace ++ (s.conn 1).outputBuffer.toList
        = (Machine.collect (takenOn · 1) (Machine.steps (step oneThread.mem) oneThread.start reuse)).flatMap
          Prod.snd := by
  have hrun : (Machine.run (step oneThread.mem) oneThread.start reuse).map
      (fun s => (s.alive 1, wire (s.conn 1).trace, (s.conn 1).outputBuffer.toList)) = .ok (true, [4], [5]) := by
    decide +kernel
  obtain ⟨s, hs, hobs⟩ := Machine.ok_of_map hrun
  obtain ⟨halive, hwire, houtput⟩ : s.alive 1 = true ∧ wire (s.conn 1).trace = [4] ∧
      (s.conn 1).outputBuffer.toList = [5] := by
    simpa using hobs
  exact ⟨s, hs, hwire, houtput,
    (streams_intact oneThread reuse (by decide +kernel) (by decide +kernel) hs 1 halive).1⟩

end System

end Seenet
