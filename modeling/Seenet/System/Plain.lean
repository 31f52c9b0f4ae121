import Seenet.System.Input
import Seenet.System.Threads
import Seenet.TcpConnection.Stage
import Seenet.TcpServer.Table

/-!
# A server that is used as it should be

The users never start or stop reading, take no more out of a buffer than is in it, and send no message that does
not fit into memory; the kernel reports no hang-up for which `handleEvent` would call the close callback and the
read callback; and fewer than `2 ^ 32` connections are accepted.  Every step is `Timely` besides.

* `Proper` — the condition on a step.
* `Numbered` — the connections are named by their numbers; so no name is taken.
* `Tidy` — every connection is in its stage, and at most one callback that closes it is about to be called.
* **`Good.step`** — every proper step that is in time keeps the invariant.
-/

namespace Seenet

open Channel

/-- The item may close the connection `i`. -/
def Item.closes (i : ℕ) : Item → Bool
  | .channel (.conn j) => decide (j = i)
  | .callback j .close => decide (j = i)
  | .callback j .read => decide (j = i)
  | _ => false

namespace System

open TcpConnection

variable {cfg : Setting} {mem : Memory} {s s' : System} {l : LoopId} {i j : ℕ} {a : Action}

/-- `handleEvent` does not call both the close callback and the read callback. -/
def Regular (revents : Finset Event) : Prop := ¬ (.close ∈ handleEvent revents ∧ .read ∈ handleEvent revents)

instance (revents : Finset Event) : Decidable (Regular revents) := inferInstanceAs (Decidable (¬ _))

/-- What the users and the kernel keep to. -/
def Proper (s : System) : Action → Prop
  | .poll _ report => ∀ p ∈ report, Regular p.2
  | .next l (some _) _ _ => (s.loops l).todo.head? = some .accept → s.accepted < 2 ^ 32
  | .call _ m _ => m.Plain
  | .test _ _ m => m.Plain
  | .retrieveInput i len => len ≤ (s.conn i).inputBuffer.readableBytes
  | _ => True

instance (s : System) : (a : Action) → Decidable (s.Proper a)
  | .poll _ report => inferInstanceAs (Decidable (∀ p ∈ report, Regular p.2))
  | .next l (some _) _ _ =>
      inferInstanceAs (Decidable ((s.loops l).todo.head? = some .accept → s.accepted < 2 ^ 32))
  | .call _ m _ => inferInstanceAs (Decidable m.Plain)
  | .test _ _ m => inferInstanceAs (Decidable m.Plain)
  | .retrieveInput i len => inferInstanceAs (Decidable (len ≤ (s.conn i).inputBuffer.readableBytes))
  | .next _ none _ _ | .takePending _ | .nextFunctor _ _ | .endRound _ | .store _ | .queue _
  | .setHighWaterMarkCallback _ _ | .keep _ | .drop _ | .destroy _ | .openFd _ | .closeFd _ =>
      inferInstanceAs (Decidable True)

/-! ## Names -/

/-- The connections are numbered in the order they were accepted. -/
structure Numbered (cfg : Setting) (s : System) : Prop where
  ipPort_eq : s.ipPort = cfg.ipPort
  name_eq : s.name = cfg.name
  nextConnID_eq : s.nextConnID = BitVec.ofNat 32 (s.accepted + 1)
  names : ∀ i < s.accepted, (s.conn i).name = TcpServer.nameOf cfg.ipPort cfg.name i

lemma numbered_start (cfg : Setting) : cfg.start.Numbered cfg :=
  ⟨rfl, rfl, rfl, fun i hi => absurd hi (Nat.not_lt_zero i)⟩

lemma Numbered.connName_eq (h : s.Numbered cfg) : s.connName = TcpServer.nameOf cfg.ipPort cfg.name s.accepted := by
  rw [connName, h.name_eq, h.ipPort_eq, h.nextConnID_eq, TcpServer.nameOf]

lemma Still.numbered (h : s.Still s') (hnum : s.Numbered cfg) : s'.Numbered cfg := by
  have hnaming := h.naming_eq
  rw [Prod.mk.injEq, Prod.mk.injEq] at hnaming
  obtain ⟨hip, hname, hid⟩ := hnaming
  refine ⟨hip.trans hnum.ipPort_eq, hname.trans hnum.name_eq, ?_, fun i hi => ?_⟩
  · rw [hid, h.accepted_eq]
    exact hnum.nextConnID_eq
  · rw [h.name_eq]
    rw [h.accepted_eq] at hi
    exact hnum.names i hi

/-- **Every step**, whatever it is. -/
lemma Numbered.step (h : s.Numbered cfg) (hok : s.step mem a = .ok s') : s'.Numbered cfg := by
  cases step_feeds hok with
  | still hstill => exact hstill.numbered h
  | @reads _ _ _ _ _ _ i c _ _ _ _ _ _ hstill =>
      exact hstill.numbered ⟨h.ipPort_eq, h.name_eq, h.nextConnID_eq, fun j hj =>
        (s.put_conn_const i c j).1.trans (h.names j hj)⟩
  | @takes _ buffer i _ _ =>
      exact ⟨h.ipPort_eq, h.name_eq, h.nextConnID_eq, fun j hj => (s.put_conn_const i _ j).1.trans (h.names j hj)⟩
  | @accepts _ s₁ _ _ _ _ haccepted hnaming hname hconn _ _ _ _ hstill =>
      rw [Prod.mk.injEq, Prod.mk.injEq] at hnaming
      obtain ⟨hip, hsname, hid⟩ := hnaming
      refine hstill.numbered ⟨hip.trans h.ipPort_eq, hsname.trans h.name_eq, ?_, fun j hj => ?_⟩
      · rw [hid, haccepted, h.nextConnID_eq]
        exact (BitVec.ofNat_add _ 1).symm
      · by_cases heq : j = s.accepted
        · rw [heq, hname, h.connName_eq]
        · rw [hconn j heq]
          exact h.names j (by omega)

/-- **The next name is free**, as long as the numbers have not come round. -/
lemma Numbered.free (h : s.Numbered cfg) (hs : s.Sound cfg [])
    (hfew : s.accepted < 2 ^ 32) : s.connections s.connName = none := by
  rw [Option.eq_none_iff_forall_ne_some]
  intro i hi
  obtain ⟨hlt, hname⟩ := hs.accounted.entries _ i hi
  rw [h.names i hlt, h.connName_eq, TcpServer.nameOf_inj cfg.ipPort_le, Nat.mod_eq_of_lt (hlt.trans hfew),
    Nat.mod_eq_of_lt hfew] at hname
  exact hlt.ne hname

/-! ## The invariant -/

/-- Every connection is in its stage, what waits is plain, and at most one item may close a connection, which is
open then. -/
structure Tidy (s : System) : Prop where
  stage : ∀ i, s.alive i = true → (s.view i).Stage
  plain : ∀ l, ∀ t ∈ (s.loops l).pending ++ (s.loops l).batch, ∀ i f, t = .functor i f → f.Plain
  once : ∀ l i, (s.loops l).todo.countP (Item.closes i) ≤ 1
  isOpen : ∀ l i, 0 < (s.loops l).todo.countP (Item.closes i) → (s.view i).IsOpen
  regular : ∀ l i, .channel (.conn i) ∈ (s.loops l).todo → Regular (s.view i).ch.revents

lemma tidy_start (cfg : Setting) : cfg.start.Tidy := by
  refine ⟨?_, ?_, ?_, ?_, ?_⟩
  · exact fun i hi => absurd hi (by simp [Setting.start])
  · exact fun l t ht => absurd ht (by simp [Setting.start])
  · exact fun l i => by simp [Setting.start]
  · exact fun l i hi => absurd hi (by simp [Setting.start])
  · exact fun l i hi => absurd hi (by simp [Setting.start])

/-- An item that may close a connection points to it. -/
lemma pointsTo_of_closes {item : Item} (h : item.closes i = true) : item.pointsTo = some i := by
  cases item with
  | channel ch =>
      cases ch with
      | conn j => rw [Item.pointsTo, of_decide_eq_true h]
      | _ => simp [Item.closes] at h
  | callback j cb =>
      cases cb with
      | close | read => rw [Item.pointsTo, of_decide_eq_true h]
      | error | write => simp [Item.closes] at h
  | accept | closeCallback => simp [Item.closes] at h

/-- Nobody is about to close a connection that is not being dispatched. -/
lemma Agenda.not_closes (h : s.Agenda) (hnot : ¬ (s.alive i = true ∧ (s.loopOf i).phase = .dispatching)) (l : LoopId) :
    (s.loops l).todo.countP (Item.closes i) = 0 := by
  rw [List.countP_eq_zero]
  intro item hmem hcloses
  obtain ⟨halive, rfl, -, hphase⟩ := h.active l item hmem i (pointsTo_of_closes hcloses)
  exact hnot ⟨halive, hphase⟩

/-! ## Changes of one loop -/

section SetLoop

variable {loop : Loop}

/-- A loop changes, but not its channels. -/
lemma Tidy.setLoop (h : s.Tidy) (hregistry : loop.registry = (s.loops l).registry)
    (hplain : ∀ t ∈ loop.pending ++ loop.batch, ∀ i f, t = .functor i f → f.Plain)
    (honce : ∀ i, loop.todo.countP (Item.closes i) ≤ 1)
    (hopen : ∀ i, 0 < loop.todo.countP (Item.closes i) → (s.view i).IsOpen)
    (hregular : ∀ i, .channel (.conn i) ∈ loop.todo → Regular (s.view i).ch.revents) : (s.setLoop l loop).Tidy := by
  have hself : (s.setLoop l loop).loops l = loop := Function.update_self ..
  have hothers : ∀ l', l' ≠ l → (s.setLoop l loop).loops l' = s.loops l' := fun l' hl => Function.update_of_ne hl ..
  refine ⟨fun i hi => ?_, fun l' => ?_, fun l' i => ?_, fun l' i hi => ?_, fun l' i hi => ?_⟩
  · have hch := setLoop_view_ch hregistry i
    exact (h.stage i hi).of_eq rfl (congrArg Channel.index hch) (congrArg Channel.events hch) rfl
  all_goals by_cases hl : l' = l
  · rw [hl, hself]
    exact hplain
  · rw [hothers l' hl]
    exact h.plain l'
  · rw [hl, hself]
    exact honce i
  · rw [hothers l' hl]
    exact h.once l' i
  · rw [hl, hself] at hi
    exact hopen i hi
  · rw [hothers l' hl] at hi
    exact h.isOpen l' i hi
  · rw [hl, hself] at hi
    rw [setLoop_view_ch hregistry]
    exact hregular i hi
  · rw [hothers l' hl] at hi
    rw [setLoop_view_ch hregistry]
    exact h.regular l' i hi

end SetLoop

/-! ## Functions of a connection -/

section Put

variable {c : TcpConnection ChannelId} {fs : List Functor}

/-- **A function of a connection**, which stays open as long as somebody may close it. -/
lemma Tidy.put (h : s.Tidy) (hlocal : (s.view i).Local c)
    (hpending : c.functors.pending = (s.view i).functors.pending ++ fs) (hfs : ∀ f ∈ fs, f.Plain) (hstage : c.Stage)
    (hopen : ∀ l, 0 < (s.loops l).todo.countP (Item.closes i) → c.IsOpen ∧ c.ch.revents = (s.view i).ch.revents) :
    (s.put i c).Tidy := by
  obtain ⟨hself, hothers⟩ := put_ch hlocal
  have htodo : ∀ l, ((s.put i c).loops l).todo = (s.loops l).todo := fun l => by rw [put_loops hpending]
  have hstate : ((s.put i c).view i).state = c.state := by simp [view, System.put]
  have htrace : ((s.put i c).view i).trace = c.trace := by simp [view, System.put]
  refine ⟨fun j hj => ?_, fun l t ht j f heq => ?_, fun l j => ?_, fun l j hj => ?_, fun l j hj => ?_⟩
  · by_cases hji : j = i
    · rw [hji]
      exact hstage.of_eq hstate (congrArg Channel.index hself) (congrArg Channel.events hself) htrace
    · have hconn := put_conn_of_ne (s := s) hji c
      have hch := hothers j hji
      exact (h.stage j hj).of_eq (congrArg Member.state hconn) (congrArg Channel.index hch)
        (congrArg Channel.events hch) (congrArg Member.trace hconn)
  · rw [put_loops hpending] at ht
    have hmem : t ∈ (s.loops l).pending ++ (s.loops l).batch ∨ t ∈ fs.map (Task.functor i) := by
      simp only [List.mem_append] at ht ⊢
      rcases ht with (ht | ht) | ht
      · exact Or.inl (Or.inl ht)
      · split_ifs at ht
        · exact Or.inr ht
        · simp at ht
      · exact Or.inl (Or.inr ht)
    rcases hmem with hmem | hmem
    · exact h.plain l t hmem j f heq
    · obtain ⟨f', hf', rfl⟩ := List.mem_map.mp hmem
      rw [Task.functor.injEq] at heq
      exact heq.2 ▸ hfs f' hf'
  · rw [htodo]
    exact h.once l j
  · rw [htodo] at hj
    by_cases hji : j = i
    · subst hji
      rw [TcpConnection.IsOpen, hstate]
      exact (hopen l hj).1
    · have hsame : ((s.put i c).view j).state = (s.view j).state :=
        congrArg Member.state (put_conn_of_ne (s := s) hji c)
      rw [TcpConnection.IsOpen, hsame]
      exact h.isOpen l j hj
  · rw [htodo] at hj
    by_cases hji : j = i
    · subst hji
      have hpos : 0 < (s.loops l).todo.countP (Item.closes j) :=
        List.countP_pos_iff.mpr ⟨_, hj, decide_eq_true rfl⟩
      rw [hself, (hopen l hpos).2]
      exact h.regular l j hj
    · rw [hothers j hji]
      exact h.regular l j hj

/-- A function that stays in its stage. -/
lemma Tidy.put_calm (h : s.Tidy) (halive : s.alive i = true) (hlocal : (s.view i).Local c)
    (hcalm : (s.view i).Calm c) : (s.put i c).Tidy := by
  obtain ⟨fs, hpending, hfs⟩ := hcalm.pending
  refine h.put hlocal hpending hfs ((h.stage i halive).calm hcalm) fun l hl => ?_
  exact ⟨hcalm.isOpen (h.isOpen l i hl), congrArg Channel.revents hcalm.ch_eq⟩

/-- The thread of a loop has a callback to call that closes nothing. -/
lemma Tidy.callFirst_closeCallback (h : s.Tidy) (l : LoopId) (i : ℕ) : (s.callFirst l [.closeCallback i]).Tidy := by
  have hcount : ∀ j, ([Item.closeCallback i] ++ (s.loops l).todo).countP (Item.closes j)
      = (s.loops l).todo.countP (Item.closes j) := fun j => by simp [Item.closes]
  refine h.setLoop rfl (h.plain l) (fun j => ?_) (fun j hj => ?_) fun j hj => ?_
  · rw [hcount]
    exact h.once l j
  · rw [hcount] at hj
    exact h.isOpen l j hj
  · exact h.regular l j (by simpa using hj)

/-- **`handleClose`**, of which there is no other to come. -/
lemma Tidy.handleClose (h : s.Tidy) (hlocal : (s.view i).Local c) (hwf : c.Wf) (hstage : c.Stage)
    (hpending : c.functors.pending = (s.view i).functors.pending)
    (hnone : ∀ l, (s.loops l).todo.countP (Item.closes i) = 0) (hok : s.handleClose l i c = .ok s') : s'.Tidy := by
  rw [System.handleClose, bind_eq_ok] at hok
  obtain ⟨c', hclose, hs'⟩ := hok
  rw [← Except.ok.inj hs']
  obtain ⟨hdoes, -, -, -⟩ := beginClose_spec hwf hclose
  have hput : (s.put i c').Tidy := by
    refine h.put (hlocal.trans (beginClose_frames hclose).toLocal) (hdoes.pending_eq.trans (by rw [hpending]))
      (by simp) (beginClose_stage hwf hstage hclose) fun l' hl' => ?_
    exact absurd (hnone l') hl'.ne'
  exact hput.callFirst_closeCallback l i

end Put

/-! ## Functors and callbacks -/

/-- **A functor** that the thread of a loop has taken. -/
lemma Tidy.runTask {t : Task} (h : s.Tidy) (hs : s.Sound cfg [t]) (hkind : ∀ i, t ≠ .removeConnectionInLoop i)
    (hplain : ∀ i f, t = .functor i f → f.Plain)
    (hnone : ∀ l, (s.loops l).todo.countP (Item.closes t.conn) = 0) {o : WriteOutcome}
    (hok : s.runTask mem l o t = .ok s') : s'.Tidy := by
  cases t with
  | connectEstablished i =>
      simp only [System.runTask, bind_eq_ok, pure_eq_ok, Except.ok.injEq] at hok
      obtain ⟨_, halive, c, hc, rfl⟩ := hok
      have hwf := hs.view_wf (deref_eq_ok.mp halive)
      have hstage := h.stage i (deref_eq_ok.mp halive)
      obtain ⟨hdoes, -, -⟩ := connectEstablished_spec hwf hc
      refine h.put (connectEstablished_frames hc).toLocal hdoes.pending_eq (by simp)
        (connectEstablished_stage hwf hstage hc) fun l' hl' => ?_
      exact absurd (hnone l') hl'.ne'
  | removeConnectionInLoop i => exact absurd rfl (hkind i)
  | functor i f =>
      simp only [System.runTask, bind_eq_ok] at hok
      obtain ⟨_, halive, hok⟩ := hok
      rw [deref_eq_ok] at halive
      have hwf := hs.view_wf halive
      have hstage := h.stage i halive
      split_ifs at hok with hforce
      · have hdoes := hwf.does_nothing.log (.ran .forceCloseInLoop)
        have hcalm : (s.view i).Calm ((s.view i).log (.ran .forceCloseInLoop)) :=
          .of_does hdoes rfl (by rw [hdoes.ups_eq]; rfl) (Or.inl rfl) (by simp) (by simp)
        have hlocal : (s.view i).Local ((s.view i).log (.ran .forceCloseInLoop)) := ⟨rfl, .refl _ _, id, id⟩
        rw [forceCloseInLoopWith] at hok
        split_ifs at hok
        · exact h.handleClose hlocal hdoes.wf (hstage.calm hcalm) rfl hnone hok
        · rw [← Except.ok.inj hok]
          exact h.put_calm halive hlocal hcalm
      · simp only [bind_eq_ok, pure_eq_ok, Except.ok.injEq] at hok
        obtain ⟨c, hc, rfl⟩ := hok
        have hlocal := (runFunctor_frames hforce hc).toLocal
        by_cases hdestroyed : f = .connectDestroyed
        · subst hdestroyed
          obtain ⟨-, -, hstate⟩ := hs.accounted.destroying (hs.accounted.born i halive)
          have hdoes := connectDestroyed_spec (hwf.does_nothing.log (.ran .connectDestroyed)).wf hc
          obtain ⟨⟨es, hdoes, -⟩, -⟩ := hdoes
          refine h.put hlocal hdoes.pending_eq (by simp) (connectDestroyed_stage hwf hstage hstate hc) fun l' hl' => ?_
          exact absurd (hnone l') hl'.ne'
        · exact h.put_calm halive hlocal (runFunctor_calm hwf hstage (hplain i f rfl) hforce hdestroyed hc)

/-- A read, until the user is called or the connection closed. -/
lemma read_calm (c : TcpConnection ChannelId) (buffer : Buffer) :
    c.Calm { c with inputBuffer := buffer } ∧ c.Calm ({ c with inputBuffer := buffer }.log .messageCallback) := by
  refine ⟨⟨rfl, rfl, Or.inl rfl, Iff.rfl, [], by simp, by simp⟩, ⟨rfl, ?_, Or.inl rfl, ?_, [], ?_, by simp⟩⟩
  · simp [ups, TcpConnection.log]
  · simp [TcpConnection.log]
  · simp [TcpConnection.log]

/-- **A callback of the channel of a connection**, which has been taken from what there is to call. -/
lemma Tidy.callback (h : s.Tidy) (hs : s.Sound cfg []) (halive : s.alive i = true) {readOutcome : ReadOutcome}
    {writeOutcome : WriteOutcome} {cb : Callback}
    (hnone : cb = .close ∨ cb = .read → ∀ l, (s.loops l).todo.countP (Item.closes i) = 0)
    (hok : s.callback mem l i readOutcome writeOutcome cb = .ok s') : s'.Tidy := by
  have hwf := hs.view_wf halive
  have hstage := h.stage i halive
  cases cb with
  | close =>
      have hlocal : (s.view i).Local (s.view i) := .refl _
      exact h.handleClose hlocal hwf hstage rfl (hnone (Or.inl rfl)) hok
  | error =>
      rw [← Except.ok.inj hok]
      exact h
  | read =>
      simp only [System.callback, handleReadWith, bind_eq_ok, Prod.exists] at hok
      obtain ⟨n, buffer, -, hok⟩ := hok
      have hlocal : (s.view i).Local { s.view i with inputBuffer := buffer } := ⟨rfl, .refl _ _, id, id⟩
      obtain ⟨hread, hmessage⟩ := read_calm (s.view i) buffer
      cases n with
      | error e =>
          rw [← Except.ok.inj hok]
          exact h.put_calm halive hlocal hread
      | ok n =>
          dsimp only at hok
          split_ifs at hok
          · rw [← Except.ok.inj hok]
            exact h.put_calm halive ⟨rfl, .refl _ _, id, id⟩ hmessage
          · exact h.handleClose hlocal ⟨hwf.coherent, hwf.outputBuffer⟩ (hstage.calm hread) rfl (hnone (Or.inr rfl)) hok
  | write =>
      simp only [System.callback, bind_eq_ok, pure_eq_ok, Except.ok.injEq] at hok
      obtain ⟨c, hc, rfl⟩ := hok
      exact h.put_calm halive (handleWrite_frames hc).toLocal (handleWrite_calm hstage hc)

/-- More waits on a loop. -/
lemma Tidy.queueInLoop (h : s.Tidy) (l : LoopId) {t : Task} (ht : ∀ i f, t = .functor i f → f.Plain) :
    (s.queueInLoop l t).Tidy := by
  refine h.setLoop rfl (fun t' ht' => ?_) (h.once l) (h.isOpen l) (h.regular l)
  have hmem : t' ∈ (s.loops l).pending ++ (s.loops l).batch ∨ t' = t := by
    simp only [List.mem_append, List.mem_singleton] at ht' ⊢
    tauto
  rcases hmem with hmem | rfl
  · exact h.plain l t' hmem
  · exact ht

/-- An entry of the table goes, and `connectDestroyed` is queued. -/
lemma Tidy.removeConnectionInLoop (h : s.Tidy) (i : ℕ) : (s.removeConnectionInLoop i).Tidy := by
  have hconnections : Tidy { s with connections := Function.update s.connections (s.conn i).name none } :=
    ⟨h.stage, h.plain, h.once, h.isOpen, h.regular⟩
  refine hconnections.queueInLoop _ ?_
  rintro j f heq
  rw [Task.functor.injEq] at heq
  rw [← heq.2]
  trivial

/-- **`m_closeCallback`.** -/
lemma Tidy.closeCallback (h : s.Tidy) (hs : s.Sound cfg []) (hl : (s.conn i).loop = l)
    (hok : s.closeCallback mem l i = .ok s') : s'.Tidy := by
  simp only [System.closeCallback, bind_eq_ok] at hok
  obtain ⟨_, halive, hok⟩ := hok
  rw [deref_eq_ok] at halive
  have hdoes := (hs.view_wf halive).does_nothing.log .closeCallback
  have hcalm : (s.view i).Calm ((s.view i).log .closeCallback) :=
    .of_does hdoes rfl (by rw [hdoes.ups_eq]; rfl) (Or.inl rfl) (by simp) (by simp)
  have hlocal : (s.view i).Local ((s.view i).log .closeCallback) := ⟨rfl, .refl _ _, id, id⟩
  rw [runInLoop, if_pos hl.symm, System.runTask, bind_eq_ok] at hok
  obtain ⟨-, -, hs'⟩ := hok
  rw [← Except.ok.inj hs']
  exact (h.put_calm halive hlocal hcalm).removeConnectionInLoop i

/-! ## Connections come and go -/

/-- One connection is not what it was. -/
lemma Tidy.turnover (h : s.Tidy) (i : ℕ)
    (hothers : ∀ j ≠ i, s'.conn j = s.conn j ∧ s'.alive j = s.alive j ∧ (s'.view j).ch = (s.view j).ch)
    (hself : s'.alive i = true → (s'.view i).Stage) (hnone : ∀ l, (s.loops l).todo.countP (Item.closes i) = 0)
    (htodo : ∀ l, (s'.loops l).todo = (s.loops l).todo)
    (hwaiting : ∀ l, (s'.loops l).pending ++ (s'.loops l).batch = (s.loops l).pending ++ (s.loops l).batch) :
    s'.Tidy := by
  refine ⟨fun j hj => ?_, fun l => ?_, fun l j => ?_, fun l j hj => ?_, fun l j hj => ?_⟩
  · by_cases hji : j = i
    · subst hji
      exact hself hj
    · obtain ⟨hconn, halive, hch⟩ := hothers j hji
      exact (h.stage j (halive ▸ hj)).of_eq (congrArg Member.state hconn) (congrArg Channel.index hch)
        (congrArg Channel.events hch) (congrArg Member.trace hconn)
  · rw [hwaiting]
    exact h.plain l
  · rw [htodo]
    exact h.once l j
  · rw [htodo] at hj
    have hji : j ≠ i := by
      rintro rfl
      exact absurd (hnone l) hj.ne'
    have hsame : (s'.view j).state = (s.view j).state := congrArg Member.state (hothers j hji).1
    rw [TcpConnection.IsOpen, hsame]
    exact h.isOpen l j hj
  · rw [htodo] at hj
    have hji : j ≠ i := by
      rintro rfl
      exact absurd (hnone l) (List.countP_pos_iff.mpr ⟨_, hj, decide_eq_true rfl⟩).ne'
    rw [(hothers j hji).2.2]
    exact h.regular l j hj

/-- **A connection is constructed.** -/
lemma Tidy.construct (h : s.Tidy) (hs : s.Sound cfg []) (ioLoop : LoopId) (fd : ℤ)
    (inputBuffer outputBuffer : Buffer) : (s.construct ioLoop fd inputBuffer outputBuffer).Tidy := by
  generalize hs' : s.construct ioLoop fd inputBuffer outputBuffer = s'
  have hdead : ¬ s.alive s.accepted = true := fun halive => lt_irrefl _ (hs.accounted.born _ halive)
  have hloop : s'.loops ioLoop = { s.loops ioLoop with
      registry := (s.loops ioLoop).registry.setChannel (.conn s.accepted) (Channel.create fd) } := by
    rw [← hs']
    exact Function.update_self ..
  have hloops : ∀ l, l ≠ ioLoop → s'.loops l = s.loops l := by
    intro l hl
    rw [← hs']
    exact Function.update_of_ne hl ..
  have hconn : s'.conn s.accepted = ⟨s.connName, ioLoop, fd, .kConnecting, true, inputBuffer, outputBuffer,
      64 * 1024 * 1024, s.writeCompleteCallback, false, []⟩ := by
    rw [← hs']
    exact Function.update_self ..
  refine h.turnover s.accepted (fun j hj => ?_) (fun _ => ?_) ?_ (fun l => ?_) fun l => ?_
  · have hsame : s'.conn j = s.conn j ∧ s'.alive j = s.alive j := by
      rw [← hs']
      exact ⟨Function.update_of_ne hj .., Function.update_of_ne hj ..⟩
    refine ⟨hsame.1, hsame.2, ?_⟩
    rw [TcpConnection.ch, TcpConnection.ch]
    simp only [view, loopOf, hsame.1]
    by_cases hl : (s.conn j).loop = ioLoop
    · rw [hl, hloop]
      exact Function.update_of_ne (by simpa using hj) ..
    · rw [hloops _ hl]
  · have hch : (s'.view s.accepted).ch = Channel.create fd := by
      rw [TcpConnection.ch]
      simp only [view, loopOf, hconn, hloop]
      exact Function.update_self ..
    have htrace : (s'.view s.accepted).trace = [] := congrArg Member.trace hconn
    refine .connecting (congrArg Member.state hconn) ?_ (by rw [hch]; rfl) (by rw [hch]; rfl) ?_
    · rw [ups, htrace]
      rfl
    · rw [htrace]
      simp
  · exact hs.agenda.not_closes fun hmem => hdead hmem.1
  · by_cases hl : l = ioLoop
    · rw [hl, hloop]
    · rw [hloops l hl]
  · by_cases hl : l = ioLoop
    · rw [hl, hloop]
    · rw [hloops l hl]

/-- **A connection is destroyed.** -/
lemma Tidy.destroy (h : s.Tidy) (hs : s.Sound cfg []) (halive : s.alive i = true) (howned : ¬ s.Owned i) :
    (s.destroy i).Tidy := by
  have hremoved : s.Removed i := by
    by_contra hnot
    exact howned (hs.accounted.owned (hs.accounted.born i halive) hnot)
  generalize hs' : s.destroy i = s'
  have hloop : s'.loops (s.conn i).loop = { s.loopOf i with
      registry := (closeFd (s.loopOf i).registry (s.conn i).fd).setChannel (.conn i)
        (Channel.create (absentFd (.conn i))) } := by
    rw [← hs']
    exact Function.update_self ..
  have hloops : ∀ l, l ≠ (s.conn i).loop → s'.loops l = s.loops l := by
    intro l hl
    rw [← hs']
    exact Function.update_of_ne hl ..
  have hconn : s'.conn = s.conn := by
    rw [← hs']
    rfl
  have hdead : ¬ s'.alive i = true := by
    rw [← hs']
    simp [System.destroy]
  refine h.turnover i (fun j hj => ?_) (fun hi => absurd hi hdead) (fun l => ?_) (fun l => ?_) fun l => ?_
  · have hsame : s'.alive j = s.alive j := by
      rw [← hs']
      exact Function.update_of_ne hj ..
    refine ⟨by rw [hconn], hsame, ?_⟩
    rw [TcpConnection.ch, TcpConnection.ch]
    simp only [view, loopOf, hconn]
    by_cases hl : (s.conn j).loop = (s.conn i).loop
    · rw [hl, hloop]
      exact Function.update_of_ne (by simpa using hj) ..
    · rw [hloops _ hl]
  · rw [List.countP_eq_zero]
    intro item hmem hcloses
    exact (hs.agenda.active l item hmem i (pointsTo_of_closes hcloses)).2.2.1 hremoved
  · by_cases hl : l = (s.conn i).loop
    · rw [hl, hloop]
      rfl
    · rw [hloops l hl]
  · by_cases hl : l = (s.conn i).loop
    · rw [hl, hloop]
      rfl
    · rw [hloops l hl]

/-- **`newConnection`**, under a name that is free. -/
lemma Tidy.newConnection (h : s.Tidy) (hs : s.Sound cfg []) (hname : s.connections s.connName = none) {fd : ℤ}
    (hfd : 0 ≤ fd ∧ s.fds fd = none) (hok : s.newConnection mem l fd = .ok s') : s'.Tidy := by
  obtain ⟨ioLoop, pool, hpool, hrunning, -⟩ := EventLoopThreadPool.getNextLoop_spec hs.accounted.running
  simp only [System.newConnection, hpool, bind_ok, bind_eq_ok] at hok
  obtain ⟨inputBuffer, -, outputBuffer, hbuffer, hok⟩ := hok
  have hs₁ : Sound cfg { s with threadPool := pool } [] := hs.setPool hrunning
  have h₁ : Tidy { s with threadPool := pool } := ⟨h.stage, h.plain, h.once, h.isOpen, h.regular⟩
  have hs₂ := hs₁.construct hname hfd hbuffer ioLoop inputBuffer
  have h₂ := h₁.construct hs₁ ioLoop fd inputBuffer outputBuffer
  have hnone : ∀ l, (({ s with threadPool := pool }.construct ioLoop fd inputBuffer outputBuffer).loops l).todo.countP
      (Item.closes s.accepted) = 0 := by
    intro l'
    have hdead : ¬ s.alive s.accepted = true := fun halive => lt_irrefl _ (hs.accounted.born _ halive)
    have htodo : (({ s with threadPool := pool }.construct ioLoop fd inputBuffer outputBuffer).loops l').todo
        = (s.loops l').todo := by
      by_cases hl : l' = ioLoop
      · subst hl
        simp [System.construct, System.setLoop]
      · simp [System.construct, System.setLoop, Function.update_of_ne hl]
    rw [htodo]
    exact hs.agenda.not_closes (fun hmem => hdead hmem.1) l'
  rw [runInLoop] at hok
  split_ifs at hok with hl
  · exact h₂.runTask hs₂ (by simp) (by simp) hnone hok
  · rw [← Except.ok.inj hok]
    exact h₂.queueInLoop _ (by simp)

/-! ## Steps -/

/-- Of the callbacks of one connection at most one closes it. -/
lemma countP_callbacks {revents : Finset Event} (h : Regular revents) (i j : ℕ) :
    (callbacks revents (.conn i)).countP (Item.closes j) ≤ if j = i then 1 else 0 := by
  by_cases hji : j = i
  · subst hji
    rw [if_pos rfl]
    have hcount : ∀ cbs : List Callback, ((cbs.map (Item.callback j)).countP (Item.closes j))
        = cbs.count .close + cbs.count .read := by
      intro cbs
      induction cbs with
      | nil => rfl
      | cons cb cbs ih =>
          rw [List.map_cons, List.countP_cons, List.count_cons, List.count_cons, ih]
          cases cb <;> simp [Item.closes] <;> omega
    rw [callbacks, hcount]
    have hone : (handleEvent revents).count .close ≤ 1 ∧ (handleEvent revents).count .read ≤ 1 := by
      rw [handleEvent]
      split_ifs <;> decide
    rcases Classical.not_and_iff_not_or_not.mp h with hnot | hnot
    · rw [List.count_eq_zero_of_not_mem hnot]
      omega
    · rw [List.count_eq_zero_of_not_mem hnot]
      omega
  · rw [if_neg hji, Nat.le_zero, List.countP_eq_zero]
    intro item hitem
    obtain ⟨cb, -, rfl⟩ := List.mem_map.mp hitem
    cases cb <;> simp [Item.closes, Ne.symm hji]

/-- **A poll.** -/
lemma Tidy.poll (h : s.Tidy) (hs : s.Sound cfg []) {report : List (ℤ × Finset Event)} {r : Registry ChannelId}
    {active : List ChannelId} (hreport : ∀ p ∈ report, Regular p.2)
    (hok : (s.loops l).registry.poll report = .ok (r, active)) :
    (s.setLoop l { s.loops l with registry := r, phase := .dispatching, todo := active.map .channel }).Tidy := by
  have hcoh := hs.wired.coherent l
  have hpolled : ∀ ch, Registry.Polled ((s.loops l).registry.heap ch) (r.heap ch) := by
    rcases Registry.poll_spec hcoh report with ⟨e, -, herror⟩ | ⟨r', active', hok', -, hpolled⟩
    · rw [hok] at herror
      simp at herror
    · rw [hok, Except.ok.injEq, Prod.mk.injEq] at hok'
      rw [hok'.1]
      exact hpolled
  generalize hs' : s.setLoop l { s.loops l with
    registry := r, phase := .dispatching, todo := active.map .channel } = s'
  have hself : s'.loops l = { s.loops l with
      registry := r, phase := .dispatching, todo := active.map .channel } := by
    rw [← hs']
    exact Function.update_self ..
  have hothers : ∀ l', l' ≠ l → s'.loops l' = s.loops l' := by
    intro l' hl'
    rw [← hs']
    exact Function.update_of_ne hl' ..
  have hconn : s'.conn = s.conn ∧ s'.alive = s.alive := by rw [← hs']; exact ⟨rfl, rfl⟩
  have hch : ∀ i, (s.conn i).loop ≠ l → (s'.view i).ch = (s.view i).ch := by
    intro i hl
    rw [TcpConnection.ch, TcpConnection.ch]
    simp only [view, loopOf, hconn.1, hothers _ hl]
  have hpolledView : ∀ i, (s.conn i).loop = l → Registry.Polled (s.view i).ch (s'.view i).ch ∧
      (s'.view i).ch = r.heap (.conn i) := by
    intro i hl
    rw [TcpConnection.ch, TcpConnection.ch]
    simp only [view, loopOf, hconn.1, hl, hself, and_true]
    exact hpolled _
  -- what is active is in the kernel's set
  have hactive : ∀ i, .conn i ∈ active → (s.conn i).loop = l ∧ (s.view i).IsOpen ∧
      Regular (s'.view i).ch.revents := by
    intro i hi
    obtain ⟨hadded, hmem⟩ := Registry.poll_active hcoh hok hi
    have hon : s.On l i := by
      by_contra hoff
      rw [(hs.wired.absent l i hoff).index_eq] at hadded
      simp at hadded
    refine ⟨hon.2, (h.stage i hon.1).open_of_added ?_, ?_⟩
    · rw [TcpConnection.ch, view_registry, view_channel, hon.2]
      exact hadded
    · rw [(hpolledView i hon.2).2]
      exact hreport _ hmem
  have hitem : ∀ i, 0 < (active.map Item.channel).countP (Item.closes i) → .conn i ∈ active := by
    intro i hi
    obtain ⟨item, hmem, hcloses⟩ := List.countP_pos_iff.mp hi
    obtain ⟨ch, hch, rfl⟩ := List.mem_map.mp hmem
    cases ch with
    | conn j => exact of_decide_eq_true hcloses ▸ hch
    | _ => simp [Item.closes] at hcloses
  have hview : ∀ i, (s'.view i).state = (s.view i).state ∧ (s'.view i).trace = (s.view i).trace := fun i =>
    ⟨congrArg (fun f => (f i).state) hconn.1, congrArg (fun f => (f i).trace) hconn.1⟩
  refine ⟨fun i hi => ?_, fun l' => ?_, fun l' i => ?_, fun l' i hi => ?_, fun l' i hi => ?_⟩
  · rw [hconn.2] at hi
    obtain ⟨hindex, hevents⟩ : (s'.view i).ch.index = (s.view i).ch.index ∧
        (s'.view i).ch.events = (s.view i).ch.events := by
      by_cases hl : (s.conn i).loop = l
      · exact ⟨(hpolledView i hl).1.index_eq, (hpolledView i hl).1.events_eq⟩
      · rw [hch i hl]
        exact ⟨rfl, rfl⟩
    exact (h.stage i hi).of_eq (hview i).1 hindex hevents (hview i).2
  all_goals by_cases hl : l' = l
  · rw [hl, hself]
    exact h.plain l
  · rw [hothers l' hl]
    exact h.plain l'
  · rw [hl, hself]
    -- no channel is active twice
    rw [List.countP_map]
    refine (List.countP_mono_left fun ch _ hch => ?_).trans
      (List.nodup_iff_count_le_one.mp (Registry.poll_nodup hcoh hok) (.conn i))
    cases ch with
    | conn j => exact beq_iff_eq.mpr (congrArg ChannelId.conn (of_decide_eq_true hch))
    | _ => simp [Item.closes] at hch
  · rw [hothers l' hl]
    exact h.once l' i
  · rw [hl, hself] at hi
    rw [TcpConnection.IsOpen, (hview i).1]
    exact (hactive i (hitem i hi)).2.1
  · rw [hothers l' hl] at hi
    rw [TcpConnection.IsOpen, (hview i).1]
    exact h.isOpen l' i hi
  · rw [hl, hself] at hi
    exact (hactive i (by simpa using hi)).2.2
  · rw [hothers l' hl] at hi
    obtain ⟨halive, hl', -⟩ := hs.agenda.active l' _ hi i rfl
    rw [hch i (by rw [hl']; exact hl)]
    exact h.regular l' i hi

/-- One item less to call. -/
lemma Tidy.pop (h : s.Tidy) {item : Item} {rest : List Item} (htodo : (s.loops l).todo = item :: rest) :
    (s.setLoop l { s.loops l with todo := rest }).Tidy := by
  have hsub : rest.Sublist (s.loops l).todo := by
    rw [htodo]
    exact List.sublist_cons_self ..
  refine h.setLoop rfl (h.plain l) (fun i => ?_) (fun i hi => ?_) fun i hi => ?_
  · exact hsub.countP_le.trans (h.once l i)
  · exact h.isOpen l i (hi.trans_le hsub.countP_le)
  · exact h.regular l i (hsub.subset hi)

/-- Of an item that may close a connection there was only one. -/
lemma Tidy.pop_closes (h : s.Tidy) (ha : s.Agenda) {item : Item} {rest : List Item}
    (htodo : (s.loops l).todo = item :: rest) (hcloses : item.closes i = true) (l' : LoopId) :
    ((s.setLoop l { s.loops l with todo := rest }).loops l').todo.countP (Item.closes i) = 0 := by
  by_cases hl : l' = l
  · have honce := h.once l i
    rw [htodo, List.countP_cons_of_pos hcloses] at honce
    rw [hl, show (s.setLoop l { s.loops l with todo := rest }).loops l = { s.loops l with todo := rest } from
      Function.update_self ..]
    dsimp only
    omega
  · rw [show (s.setLoop l { s.loops l with todo := rest }).loops l' = s.loops l' from Function.update_of_ne hl ..,
      List.countP_eq_zero]
    intro item' hmem' hcloses'
    have hown := (ha.active l item (by simp [htodo]) i (pointsTo_of_closes hcloses)).2.1
    have hother := (ha.active l' item' hmem' i (pointsTo_of_closes hcloses')).2.1
    exact hl (hother.symm.trans hown)

/-- **`handleEvent`**: its callbacks take the place of the channel. -/
lemma Tidy.channel (h : s.Tidy) {ch : ChannelId} {rest : List Item} (htodo : (s.loops l).todo = .channel ch :: rest)
    (hch : ∀ i, ch = .conn i → (s.conn i).loop = l) :
    ((s.setLoop l { s.loops l with todo := rest }).callFirst l
      (callbacks ((s.loops l).registry.heap ch).revents ch)).Tidy := by
  have hself : (s.setLoop l { s.loops l with todo := rest }).loops l = { s.loops l with todo := rest } :=
    Function.update_self ..
  have hregular : ∀ i, .channel (.conn i) ∉ callbacks ((s.loops l).registry.heap ch).revents ch := by
    intro i hi
    cases ch with
    | conn j => simp [callbacks] at hi
    | acceptor =>
        rw [callbacks] at hi
        split_ifs at hi <;> simp at hi
    | _ => simp [callbacks] at hi
  -- the callbacks close what the channel would have closed
  have hcount : ∀ i, (callbacks ((s.loops l).registry.heap ch).revents ch).countP (Item.closes i)
      ≤ if Item.closes i (.channel ch) = true then 1 else 0 := by
    intro i
    cases ch with
    | conn j =>
        have hview : (s.view j).ch = (s.loops l).registry.heap (.conn j) := by
          rw [TcpConnection.ch, view_registry, view_channel, hch j rfl]
        have hreg := h.regular l j (by simp [htodo])
        rw [hview] at hreg
        refine (countP_callbacks hreg j i).trans (le_of_eq ?_)
        by_cases hij : i = j
        · simp [Item.closes, hij]
        · simp [Item.closes, hij, Ne.symm hij]
    | acceptor =>
        rw [callbacks]
        split_ifs <;> simp [Item.closes]
    | _ => simp [callbacks, Item.closes]
  have htotal : ∀ i, (callbacks ((s.loops l).registry.heap ch).revents ch ++ rest).countP (Item.closes i)
      ≤ (s.loops l).todo.countP (Item.closes i) := by
    intro i
    rw [List.countP_append, htodo, List.countP_cons]
    have hle := hcount i
    omega
  refine (h.pop htodo).setLoop ?_ ?_ ?_ ?_ ?_
  · rfl
  · rw [hself]
    exact h.plain l
  · intro i
    rw [hself]
    exact (htotal i).trans (h.once l i)
  · intro i hi
    rw [hself] at hi
    exact h.isOpen l i (hi.trans_le (htotal i))
  · intro i hi
    rw [hself] at hi
    refine (h.pop htodo).regular l i ?_
    rw [hself]
    exact (List.mem_append.mp hi).resolve_left (hregular i)

/-- **The thread of a loop calls what is next.** -/
lemma Tidy.next (h : s.Tidy) (hs : s.Sound cfg []) {item : Item} {rest : List Item}
    (htodo : (s.loops l).todo = item :: rest) {accepted : Option ℤ} {readOutcome : ReadOutcome}
    {writeOutcome : WriteOutcome}
    (hname : item = .accept → accepted ≠ none → s.connections s.connName = none)
    (hok : (s.setLoop l { s.loops l with todo := rest }).call mem l accepted readOutcome writeOutcome item = .ok s') :
    s'.Tidy := by
  have hmem : item ∈ (s.loops l).todo := by simp [htodo]
  have hs₁ : (s.setLoop l { s.loops l with todo := rest }).Sound cfg [] := hs.setTodo (hs.agenda.pop htodo)
  have h₁ := h.pop htodo
  cases item with
  | channel ch =>
      simp only [System.call, bind_eq_ok, pure_eq_ok, Except.ok.injEq] at hok
      obtain ⟨-, -, rfl⟩ := hok
      have hregistry : ((s.setLoop l { s.loops l with todo := rest }).loops l).registry = (s.loops l).registry := by
        simp only [System.setLoop, Function.update_self]
      rw [hregistry]
      refine h.channel htodo ?_
      rintro i rfl
      exact (hs.agenda.active l _ hmem i rfl).2.1
  | callback i cb =>
      simp only [System.call, bind_eq_ok] at hok
      obtain ⟨-, -, hok⟩ := hok
      have halive := (hs.agenda.active l _ hmem i rfl).1
      refine h₁.callback hs₁ halive ?_ hok
      rintro (rfl | rfl)
      · exact h.pop_closes hs.agenda htodo (decide_eq_true rfl)
      · exact h.pop_closes hs.agenda htodo (decide_eq_true rfl)
  | accept =>
      cases accepted with
      | none =>
          rw [← Except.ok.inj hok]
          exact h₁
      | some fd =>
          rw [System.call, acceptorHandleRead, guard_eq_ok] at hok
          exact h₁.newConnection hs₁ (hname rfl (by simp)) hok.1 hok.2
  | closeCallback i => exact h₁.closeCallback hs₁ (hs.agenda.closing l i hmem).2.1 hok

/-- **The next functor of the batch.** -/
lemma Tidy.nextFunctor (h : s.Tidy) (hs : s.Sound cfg []) {t : Task} {rest : List Task}
    (htodo : (s.loops l).todo = []) (hphase : (s.loops l).phase = .draining) (hbatch : (s.loops l).batch = t :: rest)
    {o : WriteOutcome}
    (hok : (s.setLoop l { s.loops l with batch := rest, called := (s.loops l).called ++ [t] }).runTask mem l o t
      = .ok s') : s'.Tidy := by
  obtain ⟨-, hl, hkind⟩ := hs.accounted.placed l t (by simp [Loop.tasks, hbatch])
  have hs₁ := hs.startFunctor htodo hphase hbatch
  have hplain := h.plain l
  rw [hbatch] at hplain
  have h₁ : (s.setLoop l { s.loops l with batch := rest, called := (s.loops l).called ++ [t] }).Tidy := by
    refine h.setLoop rfl (fun t' ht' => hplain t' ?_) (h.once l) (h.isOpen l) (h.regular l)
    simp only [List.mem_append, List.mem_cons] at ht' ⊢
    tauto
  refine h₁.runTask hs₁ hkind (hplain t (by simp)) (fun l' => ?_) hok
  have htodos : ((s.setLoop l { s.loops l with batch := rest, called := (s.loops l).called ++ [t] }).loops l').todo
      = (s.loops l').todo := by
    by_cases hl' : l' = l
    · simp only [hl', System.setLoop, Function.update_self]
    · simp only [System.setLoop, Function.update_of_ne hl']
  rw [htodos]
  refine hs.agenda.not_closes ?_ l'
  rintro ⟨-, hdispatching⟩
  rw [loopOf, hl, hphase] at hdispatching
  simp at hdispatching

/-- A function of a connection that only sets members its stage does not depend on. -/
lemma Tidy.put_const (h : s.Tidy) (halive : s.alive i = true) {c : TcpConnection ChannelId}
    (hstate : c.state = (s.view i).state) (hregistry : c.registry = (s.view i).registry)
    (hchannel : c.channel = (s.view i).channel) (houtput : c.outputBuffer = (s.view i).outputBuffer)
    (htrace : c.trace = (s.view i).trace) (hpending : c.functors.pending = (s.view i).functors.pending) :
    (s.put i c).Tidy := by
  have hlocal : (s.view i).Local c := (Local.refl _).of_eq hchannel hregistry fun hwf => houtput ▸ hwf
  have hch : c.ch = (s.view i).ch := by rw [TcpConnection.ch, TcpConnection.ch, hregistry, hchannel]
  refine h.put_calm halive hlocal ⟨hch, ?_, Or.inl hstate, by rw [htrace], [], by simp [hpending], by simp⟩
  rw [ups, ups, htrace]

/-- **Every proper step keeps the connections in their stages.** -/
lemma Tidy.step (h : s.Tidy) (hs : s.Sound cfg []) (hcalls : ∀ u ∈ s.calls, u.function.Plain)
    (hallowed : s.Allowed a) (htimely : s.Timely a) (hproper : s.Proper a) (hok : s.step mem a = .ok s') :
    s'.Tidy := by
  cases a with
  | poll l report =>
      simp only [System.step, guard_eq_ok, bind_eq_ok, pure_eq_ok, Except.ok.injEq, Prod.exists] at hok
      obtain ⟨-, -, -, -, -, r, active, hpoll, rfl⟩ := hok
      exact h.poll hs hproper hpoll
  | next l accepted readOutcome writeOutcome =>
      simp only [System.step] at hok
      split at hok
      · simp at hok
      · rename_i item rest htodo
        refine h.next hs htodo ?_ hok
        rintro rfl hsome
        cases accepted with
        | none => exact absurd rfl hsome
        | some fd => exact hallowed (by rw [htodo]; rfl)
  | takePending l =>
      simp only [System.step, guard_eq_ok, Except.ok.injEq] at hok
      rw [← hok.2]
      refine h.setLoop rfl (fun t ht => h.plain l t ?_) (h.once l) (h.isOpen l) (h.regular l)
      rw [List.nil_append] at ht
      exact List.mem_append_left _ ht
  | nextFunctor l outcome =>
      simp only [System.step, guard_eq_ok] at hok
      obtain ⟨⟨hphase, htodo⟩, hok⟩ := hok
      split at hok
      · simp at hok
      · rename_i t rest hbatch
        exact h.nextFunctor hs htodo hphase hbatch hok
  | endRound l =>
      simp only [System.step, guard_eq_ok, Except.ok.injEq] at hok
      rw [← hok.2]
      exact h.setLoop rfl (h.plain l) (h.once l) (h.isOpen l) (h.regular l)
  | call i m outcome =>
      simp only [System.step, guard_eq_ok, bind_eq_ok, pure_eq_ok, Except.ok.injEq] at hok
      obtain ⟨⟨halive, -⟩, c, hc, rfl⟩ := hok
      exact h.put_calm halive (call_frames hc).toLocal (call_calm (hs.view_wf halive) (h.stage i halive) hproper hc)
  | test i n m =>
      simp only [System.step, guard_eq_ok] at hok
      obtain ⟨-, hok⟩ := hok
      split_ifs at hok
      · rw [← Except.ok.inj hok]
        exact ⟨h.stage, h.plain, h.once, h.isOpen, h.regular⟩
      · rwa [← Except.ok.inj hok]
  | store u =>
      simp only [System.step, guard_eq_ok, bind_eq_ok, pure_eq_ok, Except.ok.injEq] at hok
      obtain ⟨⟨hmem, -⟩, -, -, rfl⟩ := hok
      have halive := hs.accounted.alive_of_call hmem
      have h₁ : ((s.leave u).enter { u with stored := true }).Tidy := ⟨h.stage, h.plain, h.once, h.isOpen, h.regular⟩
      exact h₁.put_calm halive (sets_frames _ u.function).toLocal (sets_calm (hs.view_wf halive) htimely u.function)
  | queue u =>
      simp only [System.step, guard_eq_ok, bind_eq_ok, pure_eq_ok, Except.ok.injEq] at hok
      obtain ⟨⟨hmem, -⟩, -, -, rfl⟩ := hok
      have halive := hs.accounted.alive_of_call hmem
      have h₁ : (s.leave u).Tidy := ⟨h.stage, h.plain, h.once, h.isOpen, h.regular⟩
      exact h₁.put_calm halive (posts_frames _ u.thread u.function).toLocal
        (posts_calm (hs.view_wf halive) u.thread (hcalls u hmem))
  | retrieveInput i len =>
      simp only [System.step, guard_eq_ok, bind_eq_ok, pure_eq_ok, Except.ok.injEq] at hok
      obtain ⟨⟨halive, -⟩, buffer, -, rfl⟩ := hok
      exact h.put_const halive rfl rfl rfl rfl rfl rfl
  | setHighWaterMarkCallback i highWaterMark =>
      simp only [System.step, guard_eq_ok, Except.ok.injEq] at hok
      rw [← hok.2]
      exact h.put_const hok.1.1 rfl rfl rfl rfl rfl rfl
  | keep i =>
      simp only [System.step, guard_eq_ok, Except.ok.injEq] at hok
      rw [← hok.2]
      exact ⟨h.stage, h.plain, h.once, h.isOpen, h.regular⟩
  | drop i =>
      rw [← Except.ok.inj hok]
      exact ⟨h.stage, h.plain, h.once, h.isOpen, h.regular⟩
  | destroy i =>
      simp only [System.step, guard_eq_ok, Except.ok.injEq] at hok
      rw [← hok.2]
      exact h.destroy hs hok.1.1 hok.1.2
  | openFd fd =>
      simp only [System.step, guard_eq_ok, Except.ok.injEq] at hok
      rw [← hok.2]
      exact ⟨h.stage, h.plain, h.once, h.isOpen, h.regular⟩
  | closeFd fd =>
      simp only [System.step, guard_eq_ok, Except.ok.injEq] at hok
      rw [← hok.2]
      exact ⟨h.stage, h.plain, h.once, h.isOpen, h.regular⟩

/-! ## Calls on their way -/

/-- Nobody enters or leaves a call, and no connection is destroyed. -/
structure Keeps (s s' : System) : Prop where
  calls_eq : s'.calls = s.calls
  alive : ∀ i, s.alive i = true → s'.alive i = true

lemma Keeps.of_eq (hcalls : s'.calls = s.calls) (halive : s'.alive = s.alive) : s.Keeps s' :=
  ⟨hcalls, fun i h => by rwa [halive]⟩

lemma Keeps.trans {s'' : System} (h : s.Keeps s') (h' : s'.Keeps s'') : s.Keeps s'' :=
  ⟨h'.calls_eq.trans h.calls_eq, fun i hi => h'.alive i (h.alive i hi)⟩

lemma handleClose_keeps {c : TcpConnection ChannelId} (hok : s.handleClose l i c = .ok s') : s.Keeps s' := by
  rw [handleClose, bind_eq_ok] at hok
  obtain ⟨c', -, hs'⟩ := hok
  rw [← Except.ok.inj hs']
  exact .of_eq rfl rfl

lemma runTask_keeps {t : Task} {o : WriteOutcome} (hok : s.runTask mem l o t = .ok s') : s.Keeps s' := by
  cases t with
  | connectEstablished i =>
      simp only [runTask, bind_eq_ok, pure_eq_ok, Except.ok.injEq] at hok
      obtain ⟨-, -, c, -, rfl⟩ := hok
      exact .of_eq rfl rfl
  | removeConnectionInLoop i =>
      simp only [runTask, bind_eq_ok, pure_eq_ok, Except.ok.injEq] at hok
      obtain ⟨-, -, rfl⟩ := hok
      exact .of_eq rfl rfl
  | functor i f =>
      simp only [runTask, bind_eq_ok] at hok
      obtain ⟨-, -, hok⟩ := hok
      split_ifs at hok
      · rw [forceCloseInLoopWith] at hok
        split_ifs at hok
        · exact handleClose_keeps hok
        · rw [← Except.ok.inj hok]
          exact .of_eq rfl rfl
      · simp only [bind_eq_ok, pure_eq_ok, Except.ok.injEq] at hok
        obtain ⟨c, -, rfl⟩ := hok
        exact .of_eq rfl rfl

lemma runInLoop_keeps {t : Task} {l' : LoopId} (hok : s.runInLoop mem l l' t = .ok s') : s.Keeps s' := by
  rw [runInLoop] at hok
  split_ifs at hok
  · exact runTask_keeps hok
  · rw [← Except.ok.inj hok]
    exact .of_eq rfl rfl

/-- What the thread of a loop calls. -/
lemma call_keeps {item : Item} {accepted : Option ℤ} {readOutcome : ReadOutcome} {writeOutcome : WriteOutcome}
    (hok : s.call mem l accepted readOutcome writeOutcome item = .ok s') : s.Keeps s' := by
  cases item with
  | channel ch =>
      simp only [System.call, bind_eq_ok, pure_eq_ok, Except.ok.injEq] at hok
      obtain ⟨-, -, rfl⟩ := hok
      exact .of_eq rfl rfl
  | callback i cb =>
      simp only [System.call, bind_eq_ok] at hok
      obtain ⟨-, -, hok⟩ := hok
      cases cb with
      | close => exact handleClose_keeps hok
      | error =>
          rw [← Except.ok.inj hok]
          exact .of_eq rfl rfl
      | read =>
          obtain ⟨c, -, -, hdone⟩ := handleReadWith_returns hok
          rcases hdone with rfl | hclose
          · exact .of_eq rfl rfl
          · exact handleClose_keeps hclose
      | write =>
          simp only [callback, bind_eq_ok, pure_eq_ok, Except.ok.injEq] at hok
          obtain ⟨c, -, rfl⟩ := hok
          exact .of_eq rfl rfl
  | accept =>
      cases accepted with
      | none =>
          rw [← Except.ok.inj hok]
          exact .of_eq rfl rfl
      | some fd =>
          simp only [System.call, acceptorHandleRead, guard_eq_ok, newConnection, bind_eq_ok, Prod.exists] at hok
          obtain ⟨-, ioLoop, pool, -, inputBuffer, -, outputBuffer, -, hok⟩ := hok
          have hconstruct : s.Keeps
              (System.construct { s with threadPool := pool } ioLoop fd inputBuffer outputBuffer) := by
            refine ⟨rfl, fun i hi => ?_⟩
            by_cases heq : i = s.accepted
            · rw [heq]
              exact Function.update_self ..
            · exact (Function.update_of_ne heq ..).trans hi
          exact hconstruct.trans (runInLoop_keeps hok)
  | closeCallback i =>
      simp only [System.call, closeCallback, bind_eq_ok] at hok
      obtain ⟨-, -, hok⟩ := hok
      have hput : s.Keeps (s.put i ((s.view i).log .closeCallback)) := .of_eq rfl rfl
      exact hput.trans (runInLoop_keeps hok)

/-- **A step** that neither is one of a call by another thread nor destroys a connection. -/
lemma step_keeps (hcalled : a.called = none) (hdestroy : ∀ i, a ≠ .destroy i) (hok : s.step mem a = .ok s') :
    s.Keeps s' := by
  have hloop : ∀ l loop, s.Keeps (s.setLoop l loop) := fun _ _ => .of_eq rfl rfl
  cases a with
  | poll l report =>
      simp only [System.step, guard_eq_ok, bind_eq_ok, pure_eq_ok, Except.ok.injEq, Prod.exists] at hok
      obtain ⟨-, -, -, -, -, r, active, -, rfl⟩ := hok
      exact hloop l _
  | next l accepted readOutcome writeOutcome =>
      simp only [System.step] at hok
      split at hok
      · simp at hok
      · exact (hloop l _).trans (call_keeps hok)
  | nextFunctor l outcome =>
      simp only [System.step, guard_eq_ok] at hok
      obtain ⟨-, hok⟩ := hok
      split at hok
      · simp at hok
      · exact (hloop l _).trans (runTask_keeps hok)
  | call i m outcome =>
      simp only [System.step, guard_eq_ok, bind_eq_ok, pure_eq_ok, Except.ok.injEq] at hok
      obtain ⟨-, c, -, rfl⟩ := hok
      exact .of_eq rfl rfl
  | test i n m | store u | queue u => simp [Action.called] at hcalled
  | retrieveInput i len =>
      simp only [System.step, guard_eq_ok, bind_eq_ok, pure_eq_ok, Except.ok.injEq] at hok
      obtain ⟨-, buffer, -, rfl⟩ := hok
      exact .of_eq rfl rfl
  | drop i =>
      rw [← Except.ok.inj hok]
      exact .of_eq rfl rfl
  | destroy i => exact absurd rfl (hdestroy i)
  | takePending _ | endRound _ | setHighWaterMarkCallback _ _ | keep _ | openFd _ | closeFd _ =>
      simp only [System.step, guard_eq_ok, Except.ok.injEq] at hok
      rw [← hok.2]
      exact .of_eq rfl rfl

/-- A connection is destroyed by its destructor only. -/
lemma step_alive (hok : s.step mem a = .ok s') (halive : s.alive i = true) : s'.alive i = true ∨ a = .destroy i := by
  by_cases hdestroy : ∃ j, a = .destroy j
  · obtain ⟨j, rfl⟩ := hdestroy
    by_cases hji : j = i
    · exact Or.inr (by rw [hji])
    · simp only [System.step, guard_eq_ok, Except.ok.injEq] at hok
      rw [← hok.2]
      exact Or.inl ((Function.update_of_ne (Ne.symm hji) ..).trans halive)
  · rw [not_exists] at hdestroy
    cases hcalled : a.called with
    | none => exact Or.inl ((step_keeps hcalled hdestroy hok).alive i halive)
    | some j => exact Or.inl (by rwa [(step_foreign hcalled hok).alive_eq])

/-- A call that is on its way was before, but for the state it has set, or has just been made. -/
lemma mem_calls {u : UserCall} (hok : s.step mem a = .ok s') (hmem : u ∈ s'.calls) :
    (∃ v ∈ s.calls, v.conn = u.conn ∧ v.function = u.function) ∨
      a = .test u.conn u.thread u.function ∧ (s.view u.conn).passes u.function = true := by
  cases a with
  | test i n m =>
      simp only [System.step, guard_eq_ok] at hok
      obtain ⟨-, hok⟩ := hok
      split_ifs at hok with hpasses
      · rw [← Except.ok.inj hok] at hmem
        rcases List.mem_append.mp hmem with hmem | hmem
        · exact Or.inl ⟨u, hmem, rfl, rfl⟩
        · rw [List.mem_singleton] at hmem
          subst hmem
          exact Or.inr ⟨rfl, hpasses⟩
      · rw [← Except.ok.inj hok] at hmem
        exact Or.inl ⟨u, hmem, rfl, rfl⟩
  | store v =>
      simp only [System.step, guard_eq_ok, bind_eq_ok, pure_eq_ok, Except.ok.injEq] at hok
      obtain ⟨⟨hv, -⟩, -, -, rfl⟩ := hok
      rcases List.mem_append.mp hmem with hmem | hmem
      · exact Or.inl ⟨u, List.mem_of_mem_erase hmem, rfl, rfl⟩
      · rw [List.mem_singleton] at hmem
        subst hmem
        exact Or.inl ⟨v, hv, rfl, rfl⟩
  | queue v =>
      simp only [System.step, guard_eq_ok, bind_eq_ok, pure_eq_ok, Except.ok.injEq] at hok
      obtain ⟨-, -, -, rfl⟩ := hok
      exact Or.inl ⟨u, List.mem_of_mem_erase hmem, rfl, rfl⟩
  | destroy j =>
      simp only [System.step, guard_eq_ok, Except.ok.injEq] at hok
      rw [← hok.2] at hmem
      exact Or.inl ⟨u, hmem, rfl, rfl⟩
  | _ =>
      rw [(step_keeps rfl (by simp) hok).calls_eq] at hmem
      exact Or.inl ⟨u, hmem, rfl, rfl⟩

/-- Only plain calls are made. -/
lemma plainCalls_step (h : ∀ u ∈ s.calls, u.function.Plain) (hproper : s.Proper a) (hok : s.step mem a = .ok s') :
    ∀ u ∈ s'.calls, u.function.Plain := by
  intro u hmem
  rcases mem_calls hok hmem with ⟨v, hv, -, hfunction⟩ | ⟨rfl, -⟩
  · rw [← hfunction]
    exact h v hv
  · exact hproper

/-! ## The whole invariant -/

/-- The server is in order, and it has only been used as it should be. -/
structure Good (cfg : Setting) (s : System) : Prop where
  sound : s.Sound cfg []
  tidy : s.Tidy
  fed : s.Fed
  numbered : s.Numbered cfg
  steady : s.Steady
  calls : ∀ u ∈ s.calls, u.function.Plain

lemma good_start (cfg : Setting) : cfg.start.Good cfg :=
  ⟨sound_start cfg, tidy_start cfg, fed_start cfg, numbered_start cfg, steady_start cfg,
    by simp [Setting.start]⟩

/-- **What is proper is allowed.** -/
lemma Good.allowed (h : s.Good cfg) (hproper : s.Proper a) : s.Allowed a := by
  cases a with
  | next l accepted readOutcome writeOutcome =>
      cases accepted with
      | none => trivial
      | some fd => exact fun hhead => h.numbered.free h.sound (hproper hhead)
  | nextFunctor l outcome =>
      rw [Allowed]
      cases hbatch : (s.loops l).batch with
      | nil => trivial
      | cons t rest =>
          have hplain := h.tidy.plain l t (by simp [hbatch])
          cases t with
          | functor i f =>
              rintro - htouches
              have := hplain i f rfl
              cases f with
              | startReadInLoop | stopReadInLoop => exact this.elim
              | _ => exact htouches
          | _ => trivial
  | call i m outcome =>
      rintro - htouches
      cases m with
      | startRead | stopRead => exact hproper.elim
      | _ => exact htouches
  | _ => trivial

/-- **Every proper step that is in time keeps the invariant.** -/
lemma Good.step (h : s.Good cfg) (hproper : s.Proper a) (htimely : s.Timely a) (hok : s.step mem a = .ok s') :
    s'.Good cfg := by
  have hallowed := h.allowed hproper
  exact ⟨h.sound.step hallowed htimely hok, h.tidy.step h.sound h.calls hallowed htimely hproper hok,
    (h.fed.step hok 0).1, h.numbered.step hok, h.steady.step hok, plainCalls_step h.calls hproper hok⟩

end System

end Seenet
