import Seenet.TcpConnection.Passes
import Seenet.TcpConnection.Quiet

/-!
# A connection closes at most once

A connection is closed by the first of its callbacks that finds the end of the stream, and nothing may
close it again.  What stands between it and a second close is the poller: after `disableAll` the kernel
reports nothing for the channel, until `connectDestroyed` takes the channel out.

That fails in three ways, which `Orderly` rules out.

* One dispatch can call both the close and the read callback: `EPOLLHUP` without `EPOLLIN`, but with
  `EPOLLPRI`.
* `disableAll` puts a channel that is not in the kernel's set (after `stopRead`) back into it.  This
  matters when `forceCloseInLoop` closes, since then `connectDestroyed` is left for the next round.
* `startRead` and `stopRead` update the channel of a closed connection, which puts it back as well.

`Open` and `Shut` are the invariant, before and after the close.

* **`closesOnce_of_orderly`** — in an orderly run the assertion of `handleClose` does not fail, and the
  connection closes at most once.
* **`not_closesOnce`** — three runs that are not orderly, and fail.
-/

namespace Seenet

open Channel

/-- The callbacks of the channel that can close the connection. -/
def Todo.mayClose : Todo → Bool
  | .callback .close => true
  | .callback .read => true
  | _ => false

namespace Round

open TcpConnection

variable {ι : Type} {r r' : Round ι} {c : TcpConnection ι}

/-! ## Orderly steps -/

/-- The connection is closed, and the loop will poll before `connectDestroyed` runs. -/
def Lingers (r : Round ι) : Prop :=
  r.conn.state = .kDisconnected ∧ r.phase ≠ .dispatching ∧
    .connectDestroyed ∉ r.conn.functors.batch

instance (r : Round ι) : Decidable r.Lingers := inferInstanceAs (Decidable (_ ∧ _))

/-- The steps that do not put the channel of a closed connection back into the kernel's set, and do not
let one dispatch close the connection and read from it. -/
def Orderly (r : Round ι) : Action → Prop
  | .poll report => ∀ e ∈ report, e.1 = r.conn.ch.fd →
      ¬ (.close ∈ handleEvent e.2 ∧ .read ∈ handleEvent e.2)
  | .nextFunctor _ => r.conn.functors.batch.head? = some .forceCloseInLoop →
      (r.conn.state = .kConnected ∨ r.conn.state = .kDisconnecting) → r.conn.ch.index = .kAdded
  | .call m _ => r.Lingers → ¬ r.conn.Touches m
  | _ => True

instance (r : Round ι) : (a : Action) → Decidable (r.Orderly a)
  | .poll report => inferInstanceAs (Decidable (∀ e ∈ report, e.1 = r.conn.ch.fd →
      ¬ (.close ∈ handleEvent e.2 ∧ .read ∈ handleEvent e.2)))
  | .nextFunctor _ => inferInstanceAs (Decidable
      (r.conn.functors.batch.head? = some .forceCloseInLoop →
        (r.conn.state = .kConnected ∨ r.conn.state = .kDisconnecting) → r.conn.ch.index = .kAdded))
  | .call m _ => inferInstanceAs (Decidable (r.Lingers → ¬ r.conn.Touches m))
  | .next _ _ | .takePending | .endRound | .retrieveInput _ => inferInstanceAs (Decidable True)

/-! ## The invariant -/

/-- The loop is in order. -/
structure InOrder (r : Round ι) : Prop where
  wf : r.conn.Wf
  queue : ∀ f ∈ r.conn.functors.batch ++ r.conn.functors.pending,
    f ≠ .startReadInLoop ∧ f ≠ .stopReadInLoop
  batch_eq : r.phase ≠ .draining → r.conn.functors.batch = []
  todo : r.phase ≠ .dispatching → ∀ t ∈ r.todo, t = .closeCallback

/-- The connection has not been closed, and at most one callback of this dispatch may close it. -/
structure Open (r : Round ι) : Prop where
  inOrder : r.InOrder
  state : r.conn.state = .kConnected ∨ r.conn.state = .kDisconnecting
  alive : ¬ r.destroyed
  uncalled : .closeCallback ∉ r.conn.trace
  queue : .connectDestroyed ∉ r.conn.functors.batch ++ r.conn.functors.pending
  todo : .closeCallback ∉ r.todo
  closes_le : r.todo.countP Todo.mayClose ≤ 1

/-- The connection has been closed, and no callback of this dispatch may close it.  `m_closeCallback` is
about to be called, or `connectDestroyed` is on its way, or has run; and when the loop polls before
that, the channel is not in the kernel's set. -/
structure Shut (r : Round ι) : Prop where
  inOrder : r.InOrder
  state : r.conn.state = .kDisconnected
  closesOnce : ClosesOnce r.conn.trace
  todo : ∀ t ∈ r.todo, t.mayClose = false
  uncalled : .closeCallback ∈ r.todo → .closeCallback ∉ r.conn.trace
  count_le : r.todo.count .closeCallback ≤ 1
  onItsWay : .closeCallback ∈ r.todo ∨ r.destroyed ∨
    .connectDestroyed ∈ r.conn.functors.batch ++ r.conn.functors.pending
  gone : r.destroyed → r.conn.ch.index = .kNew ∧ r.todo = []
  unregistered : r.phase ≠ .dispatching → .connectDestroyed ∉ r.conn.functors.batch →
    r.conn.ch.index ≠ .kAdded

/-! ## The connection does something -/

section Returned

variable {o : List UInt8} {es : List Effect} {fs : List Functor}

lemma InOrder.returned (h : r.InOrder) (hdoes : r.conn.Does c o es fs)
    (hfs : ∀ f ∈ fs, f ≠ .startReadInLoop ∧ f ≠ .stopReadInLoop) : (r.returned c).InOrder := by
  refine ⟨hdoes.wf, ?_, ?_, h.todo⟩
  · intro f hf
    simp only [Round.returned, hdoes.batch_eq, hdoes.pending_eq, ← List.append_assoc] at hf
    rcases List.mem_append.mp hf with hf | hf
    · exact h.queue f hf
    · exact hfs f hf
  · intro hphase
    rw [Round.returned, hdoes.batch_eq]
    exact h.batch_eq hphase

/-- An open connection stays open. -/
lemma Open.returned (h : r.Open) (hdoes : r.conn.Does c o es fs)
    (hstate : c.state = .kConnected ∨ c.state = .kDisconnecting)
    (hclose : .closeCallback ∉ es) (hdestroyed : .ran .connectDestroyed ∉ es)
    (hfs : ∀ f ∈ fs, f.MayQueue) : (r.returned c).Open := by
  have horder : (r.returned c).InOrder := by
    refine h.inOrder.returned hdoes ?_
    intro f hf
    exact ⟨(hfs f hf).ne.1, (hfs f hf).ne.2.1⟩
  refine ⟨horder, hstate, ?_, ?_, ?_, h.todo, h.closes_le⟩
  · intro hgone
    rw [destroyed, Round.returned, hdoes.trace_eq, List.mem_append] at hgone
    exact hgone.elim h.alive hdestroyed
  · rw [Round.returned, hdoes.trace_eq, List.mem_append, not_or]
    exact ⟨h.uncalled, hclose⟩
  · rw [Round.returned, hdoes.batch_eq, hdoes.pending_eq, ← List.append_assoc, List.mem_append,
      not_or]
    refine ⟨h.queue, ?_⟩
    intro hmem
    exact (hfs _ hmem).ne.2.2 rfl

/-- A closed connection stays closed, if its channel stays as it is, or the loop does not poll before
`connectDestroyed` runs. -/
lemma Shut.returned (h : r.Shut) (hdoes : r.conn.Does c o es fs) (hstate : c.state = .kDisconnected)
    (hes : Quiet es) (hfs : ∀ f ∈ fs, f.MayQueue)
    (hindex : c.ch.index = r.conn.ch.index ∨
      ¬ r.destroyed ∧ (r.phase = .dispatching ∨ .connectDestroyed ∈ r.conn.functors.batch)) :
    (r.returned c).Shut := by
  have hgone : (r.returned c).destroyed ↔ r.destroyed := by
    rw [destroyed, Round.returned, hdoes.trace_eq, List.mem_append]
    exact or_iff_left hes.2.2
  refine { inOrder := ?_, state := hstate, closesOnce := ?_, todo := h.todo, uncalled := ?_,
           count_le := h.count_le, onItsWay := ?_, gone := ?_, unregistered := ?_ }
  · refine h.inOrder.returned hdoes ?_
    intro f hf
    exact ⟨(hfs f hf).ne.1, (hfs f hf).ne.2.1⟩
  · rw [Round.returned, hdoes.trace_eq]
    exact h.closesOnce.append ⟨hes.1, hes.2.1⟩
  · intro htodo
    rw [Round.returned, hdoes.trace_eq, List.mem_append, not_or]
    exact ⟨h.uncalled htodo, hes.1⟩
  · rw [hgone, Round.returned, hdoes.batch_eq, hdoes.pending_eq, ← List.append_assoc]
    exact h.onItsWay.imp_right (Or.imp_right (List.mem_append_left _))
  · intro hd
    rw [hgone] at hd
    rcases hindex with heq | ⟨halive, -⟩
    · rw [Round.returned, heq]
      exact h.gone hd
    · exact absurd hd halive
  · intro hphase hbatch
    rw [Round.returned, hdoes.batch_eq] at hbatch
    rcases hindex with heq | ⟨-, hnow | hnow⟩
    · rw [Round.returned, heq]
      exact h.unregistered hphase hbatch
    · exact absurd hnow hphase
    · exact absurd hnow hbatch

end Returned

/-! ## The next callback -/

section Pop

variable {t : Todo} {rest : List Todo}

lemma InOrder.pop (h : r.InOrder) (htodo : r.todo = t :: rest) :
    InOrder { r with todo := rest } := by
  refine ⟨h.wf, h.queue, h.batch_eq, fun hphase u hu => h.todo hphase u ?_⟩
  rw [htodo]
  exact List.mem_cons_of_mem _ hu

lemma Open.pop (h : r.Open) (htodo : r.todo = t :: rest) : Open { r with todo := rest } := by
  have hclose := h.todo
  have hle := h.closes_le
  rw [htodo] at hclose hle
  refine ⟨h.inOrder.pop htodo, h.state, h.alive, h.uncalled, h.queue,
    fun hmem => hclose (List.mem_cons_of_mem _ hmem), ?_⟩
  exact le_trans (List.Sublist.countP_le (List.sublist_cons_self t rest)) hle

/-- A callback that may close the connection is the last one that may. -/
lemma Open.pop_closes (h : r.Open) (htodo : r.todo = t :: rest) (ht : t.mayClose = true) :
    ∀ u ∈ rest, u.mayClose = false := by
  have hle := h.closes_le
  rw [htodo, List.countP_cons_of_pos ht] at hle
  intro u hu
  rw [Bool.eq_false_iff]
  intro hmay
  have hpos := List.countP_pos_iff.mpr ⟨u, hu, hmay⟩
  omega

/-- There was something to call, so the connection has not been destroyed. -/
lemma Shut.alive (h : r.Shut) (htodo : r.todo = t :: rest) : ¬ r.destroyed := by
  intro hd
  have hnil := (h.gone hd).2
  simp [htodo] at hnil

lemma Shut.pop (h : r.Shut) (htodo : r.todo = t :: rest) (ht : t ≠ .closeCallback) :
    Shut { r with todo := rest } := by
  have hmem : Todo.closeCallback ∈ r.todo ↔ .closeCallback ∈ rest := by
    rw [htodo, List.mem_cons]
    exact or_iff_right ht.symm
  have hcount := h.count_le
  rw [htodo, List.count_cons_of_ne ht] at hcount
  refine { inOrder := h.inOrder.pop htodo, state := h.state, closesOnce := h.closesOnce,
           todo := ?_, uncalled := ?_, count_le := hcount, onItsWay := ?_, gone := ?_,
           unregistered := h.unregistered }
  · intro u hu
    refine h.todo u ?_
    rw [htodo]
    exact List.mem_cons_of_mem _ hu
  · intro hu
    exact h.uncalled (hmem.mpr hu)
  · rw [← hmem]
    exact h.onItsWay
  · intro hd
    exact absurd hd (h.alive htodo)

end Pop

/-! ## The next functor -/

section Start

variable {f : Functor} {rest : List Functor}

lemma InOrder.startFunctor (h : r.InOrder) (hphase : r.phase = .draining)
    (hbatch : r.conn.functors.batch = f :: rest) :
    (r.returned (r.conn.startFunctor f rest)).InOrder := by
  refine ⟨⟨h.wf.coherent, h.wf.outputBuffer⟩, fun g hg => h.queue g ?_,
    fun hne => absurd hphase hne, h.todo⟩
  rw [hbatch, List.cons_append]
  exact List.mem_cons_of_mem _ hg

lemma Open.startFunctor (h : r.Open) (hphase : r.phase = .draining)
    (hbatch : r.conn.functors.batch = f :: rest) :
    (r.returned (r.conn.startFunctor f rest)).Open ∧ f ≠ .connectDestroyed := by
  have hqueue := h.queue
  rw [hbatch, List.cons_append, List.mem_cons, not_or] at hqueue
  exact ⟨⟨h.inOrder.startFunctor hphase hbatch, h.state, h.alive, h.uncalled, hqueue.2, h.todo,
    h.closes_le⟩, fun heq => hqueue.1 heq.symm⟩

lemma Shut.startFunctor (h : r.Shut) (hphase : r.phase = .draining)
    (hbatch : r.conn.functors.batch = f :: rest) (hf : f ≠ .connectDestroyed) :
    (r.returned (r.conn.startFunctor f rest)).Shut := by
  refine { inOrder := h.inOrder.startFunctor hphase hbatch, state := h.state,
           closesOnce := h.closesOnce, todo := h.todo, uncalled := h.uncalled,
           count_le := h.count_le, onItsWay := ?_, gone := h.gone, unregistered := ?_ }
  · refine h.onItsWay.imp_right (Or.imp_right ?_)
    intro hmem
    rw [hbatch, List.cons_append] at hmem
    exact (List.mem_cons.mp hmem).resolve_left hf.symm
  · intro hne hrest
    refine h.unregistered hne ?_
    rw [hbatch, List.mem_cons, not_or]
    exact ⟨hf.symm, hrest⟩

end Start

/-! ## Closing -/

/-- `m_closeCallback` is called. -/
lemma Shut.closeCallback (h : r.Shut) {rest : List Todo} (htodo : r.todo = .closeCallback :: rest) :
    Shut { r with conn := r.conn.closeCallback, todo := rest } := by
  obtain ⟨hdoes, hstate, hch⟩ := closeCallback_spec h.inOrder.wf
  have halive := h.alive htodo
  have hcount := h.count_le
  rw [htodo, List.count_cons_self] at hcount
  have hnone : rest.count .closeCallback = 0 := by omega
  have hrest : .closeCallback ∉ rest := List.count_eq_zero.mp hnone
  have hreturned := (h.inOrder.pop htodo).returned hdoes (by simp)
  refine { inOrder := hreturned, state := hstate.trans h.state, closesOnce := ?_, todo := ?_,
           uncalled := ?_, count_le := hnone.trans_le (Nat.zero_le 1), onItsWay := ?_, gone := ?_,
           unregistered := ?_ }
  · rw [hdoes.trace_eq]
    refine .call (h.uncalled ?_)
    rw [htodo]
    exact List.mem_cons_self
  · intro u hu
    refine h.todo u ?_
    rw [htodo]
    exact List.mem_cons_of_mem _ hu
  · intro hu
    exact absurd hu hrest
  · right
    right
    rw [hdoes.pending_eq]
    simp
  · intro hd
    rw [destroyed, hdoes.trace_eq] at hd
    exact absurd (by simpa [destroyed] using hd) halive
  · intro hphase hbatch
    rw [hdoes.batch_eq] at hbatch
    rw [hch]
    exact h.unregistered hphase hbatch

/-- The invariant. -/
def Safe (r : Round ι) : Prop := r.Open ∨ r.Shut

lemma Safe.inOrder (h : r.Safe) : r.InOrder := h.elim Open.inOrder Shut.inOrder

lemma Safe.closesOnce (h : r.Safe) : ClosesOnce r.conn.trace :=
  h.elim (fun h => .of_not_mem h.uncalled) Shut.closesOnce

variable [DecidableEq ι] {mem : Memory}

/-- **The connection closes.**  It does so in a dispatch, or with its channel in the kernel's set. -/
lemma Open.handleClose (h : r.Open) (htodo : ∀ t ∈ r.todo, t.mayClose = false)
    (hindex : r.phase ≠ .dispatching → r.conn.ch.index = .kAdded)
    (hok : r.handleClose r.conn = .ok r') : r'.Shut := by
  simp only [Round.handleClose, bind_eq_ok, pure_eq_ok, Except.ok.injEq] at hok
  obtain ⟨c, hc, rfl⟩ := hok
  obtain ⟨hdoes, -, hstate, hch⟩ := beginClose_spec h.inOrder.wf hc
  have hreturned := h.inOrder.returned hdoes (by simp)
  have htrace : .closeCallback ∉ c.trace := by
    rw [hdoes.trace_eq]
    simpa using h.uncalled
  refine { inOrder := ⟨hreturned.wf, hreturned.queue, hreturned.batch_eq, ?_⟩, state := hstate,
           closesOnce := .of_not_mem htrace, todo := ?_, uncalled := fun _ => htrace,
           count_le := ?_, onItsWay := Or.inl List.mem_cons_self, gone := ?_, unregistered := ?_ }
  · intro hphase t ht
    rcases List.mem_cons.mp ht with rfl | ht
    · rfl
    · exact h.inOrder.todo hphase t ht
  · intro t ht
    rcases List.mem_cons.mp ht with rfl | ht
    · rfl
    · exact htodo t ht
  · rw [List.count_cons_self, List.count_eq_zero_of_not_mem h.todo]
  · intro hd
    rw [destroyed, hdoes.trace_eq] at hd
    exact absurd (by simpa [destroyed] using hd) h.alive
  · intro hphase _
    rw [hch, Channel.updated_index, nextIndex, hindex hphase]
    decide

/-- A callback of the channel is called. -/
lemma Safe.callback (h : r.Safe) {cb : Callback} {rest : List Todo}
    (htodo : r.todo = .callback cb :: rest) {readOutcome : ReadOutcome}
    {writeOutcome : WriteOutcome}
    (hok : Round.callback mem { r with todo := rest } readOutcome writeOutcome cb = .ok r') :
    r'.Safe := by
  have hphase : r.phase = .dispatching := by
    by_contra hne
    have hhead := h.inOrder.todo hne (.callback cb) (by rw [htodo]; exact List.mem_cons_self)
    cases hhead
  rcases h with h | h
  · have hpop := h.pop htodo
    cases cb with
    | close =>
        exact Or.inr (hpop.handleClose (h.pop_closes htodo rfl) (fun hne => absurd hphase hne) hok)
    | error =>
        rw [Round.callback, Except.ok.injEq] at hok
        rw [← hok]
        exact Or.inl hpop
    | read =>
        obtain ⟨c₁, hdoes, hstate, -, hcase⟩ := handleReadWith_ok hpop.inOrder.wf hok
        have hstate₁ : c₁.state = .kConnected ∨ c₁.state = .kDisconnecting := by
          rw [hstate]
          exact h.state
        rcases hcase with rfl | rfl | hclose
        · exact Or.inl (hpop.returned hdoes hstate₁ (by simp) (by simp) (by simp))
        · exact Or.inl (hpop.returned (hdoes.log _) hstate₁ (by simp) (by simp) (by simp))
        · have hret := hpop.returned hdoes hstate₁ (by simp) (by simp) (by simp)
          exact Or.inr (hret.handleClose (h.pop_closes htodo rfl) (fun hne => absurd hphase hne)
            hclose)
    | write =>
        simp only [Round.callback, bind_eq_ok, pure_eq_ok, Except.ok.injEq] at hok
        obtain ⟨c₁, hwrite, rfl⟩ := hok
        rcases handleWrite_spec hpop.inOrder.wf hwrite with
          ⟨-, rfl⟩ | ⟨-, hstate, left, es, fs, hdrains, hfs, hdoes, -⟩
        · exact Or.inl hpop
        · have hstate₁ : c₁.state = .kConnected ∨ c₁.state = .kDisconnecting := by
            rw [hstate]
            exact h.state
          exact Or.inl (hpop.returned hdoes hstate₁ hdrains.quiet.1 hdrains.quiet.2.2
            fun f hf => Or.inl (hfs f hf))
  · have hpop := h.pop htodo (by simp)
    have halive := h.alive htodo
    have hmay := h.todo (.callback cb) (by rw [htodo]; exact List.mem_cons_self)
    cases cb with
    | close => cases hmay
    | error =>
        rw [Round.callback, Except.ok.injEq] at hok
        rw [← hok]
        exact Or.inr hpop
    | read => cases hmay
    | write =>
        simp only [Round.callback, bind_eq_ok, pure_eq_ok, Except.ok.injEq] at hok
        obtain ⟨c₁, hwrite, rfl⟩ := hok
        rcases handleWrite_spec hpop.inOrder.wf hwrite with
          ⟨-, rfl⟩ | ⟨-, hstate, left, es, fs, hdrains, hfs, hdoes, -⟩
        · exact Or.inr hpop
        · exact Or.inr (hpop.returned hdoes (hstate.trans h.state) hdrains.quiet
            (fun f hf => Or.inl (hfs f hf)) (Or.inr ⟨halive, Or.inl hphase⟩))

/-! ## Running functors -/

section Functors

variable {f : Functor} {rest : List Functor} {o : WriteOutcome}

/-- A functor runs on an open connection; a forced close finds the channel in the kernel's set. -/
lemma Open.runFunctor (h : r.Open) (htodo : r.todo = []) (hf : f ≠ .connectDestroyed)
    (hindex : f = .forceCloseInLoop → r.conn.ch.index = .kAdded)
    (hok : r.runFunctor mem o f = .ok r') : r'.Safe := by
  rw [Round.runFunctor] at hok
  split_ifs at hok with hforce
  · have hlog := h.inOrder.wf.does_nothing.log (.ran .forceCloseInLoop)
    have hopen := h.returned hlog h.state (by simp) (by simp) (by simp)
    rw [forceCloseInLoopWith, if_pos (by exact h.state)] at hok
    refine Or.inr (hopen.handleClose ?_ (fun _ => hindex hforce) hok)
    rw [Round.returned, htodo]
    simp
  · simp only [bind_eq_ok, pure_eq_ok, Except.ok.injEq] at hok
    obtain ⟨c, hc, rfl⟩ := hok
    obtain ⟨out, es, fs, hdoes, hstate, hes, hfs⟩ := runFunctor_ok h.inOrder.wf hforce hf hc
    refine Or.inl (h.returned hdoes ?_ hes.1 hes.2.2 fun g hg => Or.inl (hfs g hg))
    rw [hstate]
    exact h.state

/-- A functor other than `connectDestroyed` runs on a closed connection. -/
lemma Shut.runFunctor (h : r.Shut) (hf : f ≠ .connectDestroyed)
    (hread : f ≠ .startReadInLoop ∧ f ≠ .stopReadInLoop) (hok : r.runFunctor mem o f = .ok r') :
    r'.Shut := by
  rw [Round.runFunctor] at hok
  split_ifs at hok with hforce
  · have hlog := h.inOrder.wf.does_nothing.log (.ran .forceCloseInLoop)
    rw [forceCloseInLoopWith, if_neg (by simp [h.state]), Except.ok.injEq] at hok
    rw [← hok]
    exact h.returned hlog h.state (by simp [Quiet]) (by simp) (Or.inl rfl)
  · simp only [bind_eq_ok, pure_eq_ok, Except.ok.injEq] at hok
    obtain ⟨c, hc, rfl⟩ := hok
    obtain ⟨out, es, fs, hdoes, hstate, hes, hfs⟩ := runFunctor_ok h.inOrder.wf hforce hf hc
    have hch := runFunctor_ch h.inOrder.wf h.state hread.1 hread.2 hf hc
    exact h.returned hdoes (hstate.trans h.state) hes (fun g hg => Or.inl (hfs g hg))
      (Or.inl (congrArg Channel.index hch))

/-- `connectDestroyed` runs, and the channel leaves the poller. -/
lemma Shut.connectDestroyed (h : r.Shut) (hphase : r.phase = .draining) (htodo : r.todo = [])
    (hbatch : r.conn.functors.batch = .connectDestroyed :: rest)
    (hok : (r.returned (r.conn.startFunctor .connectDestroyed rest)).runFunctor mem o
      .connectDestroyed = .ok r') : r'.Shut := by
  have hstarted := h.inOrder.startFunctor hphase hbatch
  rw [Round.runFunctor, if_neg (by decide)] at hok
  simp only [bind_eq_ok, pure_eq_ok, Except.ok.injEq] at hok
  obtain ⟨c, hc, rfl⟩ := hok
  have hlog := hstarted.wf.does_nothing.log (.ran .connectDestroyed)
  obtain ⟨⟨es, hdoes, hes⟩, hstate, hindex, -⟩ := connectDestroyed_spec hlog.wf hc
  have hall := hlog.then hdoes
  have hreturned := hstarted.returned hall (by simp)
  have hdestroyed : Round.destroyed (r.returned c) := by
    rw [destroyed, Round.returned, hall.trace_eq]
    simp
  refine ⟨hreturned, ?_, ?_, ?_, ?_, ?_, Or.inr (Or.inl hdestroyed), fun _ => ⟨hindex, htodo⟩, ?_⟩
  · have hclosed : (r.conn.startFunctor .connectDestroyed rest).state = .kDisconnected := h.state
    refine hstate.trans ?_
    rw [log_state, Round.returned, hclosed]
    rfl
  · rw [show ((r.returned (r.conn.startFunctor .connectDestroyed rest)).returned c).conn.trace
      = _ from hall.trace_eq]
    refine h.closesOnce.append ?_
    rcases hes with rfl | rfl <;> simp
  · intro t ht
    exact h.todo t ht
  · intro hmem
    rw [show ((r.returned (r.conn.startFunctor .connectDestroyed rest)).returned c).todo = []
      from htodo] at hmem
    simp at hmem
  · exact h.count_le
  · intro _ _
    rw [show ((r.returned (r.conn.startFunctor .connectDestroyed rest)).returned c).conn.ch.index
      = .kNew from hindex]
    decide

/-- **The next functor runs.** -/
lemma Safe.nextFunctor (h : r.Safe) (horderly : r.Orderly (.nextFunctor o))
    (hok : r.step mem (.nextFunctor o) = .ok r') : r'.Safe := by
  simp only [step, guard_eq_ok] at hok
  obtain ⟨⟨hphase, htodo⟩, hok⟩ := hok
  split at hok
  · simp at hok
  · rename_i f rest hbatch
    rcases h with h | h
    · obtain ⟨hopen, hf⟩ := h.startFunctor hphase hbatch
      refine hopen.runFunctor htodo hf ?_ hok
      intro hforce
      refine horderly ?_ h.state
      rw [hbatch, hforce]
      rfl
    · by_cases hf : f = .connectDestroyed
      · subst hf
        exact Or.inr (h.connectDestroyed hphase htodo hbatch hok)
      · refine Or.inr ((h.startFunctor hphase hbatch hf).runFunctor hf ?_ hok)
        exact h.inOrder.queue f (by rw [hbatch]; exact List.mem_cons_self)

end Functors

/-! ## The other steps -/

/-- Unless `handleEvent` calls both, at most one callback may close the connection. -/
lemma countP_handleEvent {events : Finset Event}
    (h : ¬ (.close ∈ handleEvent events ∧ .read ∈ handleEvent events)) :
    ((handleEvent events).map Todo.callback).countP Todo.mayClose ≤ 1 := by
  rw [handleEvent] at h ⊢
  split_ifs at h ⊢
  all_goals first
    | exact absurd (by decide) h
    | decide

/-- **The loop polls.**  The channel of a closed connection is not in the kernel's set. -/
lemma Safe.poll (h : r.Safe) {report : List (ℤ × Finset Event)}
    (horderly : r.Orderly (.poll report)) (hok : r.step mem (.poll report) = .ok r') : r'.Safe := by
  simp only [step, guard_eq_ok, bind_eq_ok, Prod.exists, pure_eq_ok, Except.ok.injEq] at hok
  obtain ⟨⟨hphase, htodo⟩, registry, active, hpoll, rfl⟩ := hok
  have hwf := h.inOrder.wf
  obtain ⟨hcoh, hpolled⟩ : registry.Coherent ∧
      ∀ c, Registry.Polled (r.conn.registry.heap c) (registry.heap c) := by
    rcases Registry.poll_spec hwf.coherent report with ⟨e, -, he⟩ | ⟨r₁, active₁, hr₁, hspec⟩
    · simp [hpoll] at he
    · rw [hpoll, Except.ok.injEq, Prod.mk.injEq] at hr₁
      rwa [hr₁.1]
  have hactive := fun hmem => Registry.poll_active hwf.coherent hpoll (c := r.conn.channel) hmem
  have hbatch := h.inOrder.batch_eq (by simp [hphase])
  have horder : ∀ todo, InOrder ⟨{ r.conn with registry := registry }, .dispatching, todo⟩ :=
    fun todo => ⟨⟨hcoh, hwf.outputBuffer⟩, h.inOrder.queue, fun _ => hbatch,
      fun hne => absurd rfl hne⟩
  rcases h with h | h
  · refine Or.inl ⟨horder _, h.state, h.alive, h.uncalled, h.queue, ?_, ?_⟩
    · split_ifs
      · simp
      · simp
    · split_ifs with hmem
      · exact countP_handleEvent (horderly _ (hactive hmem).2 rfl)
      · exact Nat.zero_le 1
  · have hquiet : r.conn.channel ∉ active := by
      intro hmem
      exact h.unregistered (by simp [hphase]) (by simp [hbatch]) (hactive hmem).1
    rw [if_neg (by exact hquiet)]
    refine Or.inr ⟨horder _, h.state, h.closesOnce, by simp, by simp, by simp, ?_, ?_, ?_⟩
    · have hway := h.onItsWay
      rw [htodo] at hway
      exact hway
    · intro hd
      exact ⟨(hpolled r.conn.channel).index_eq.trans (h.gone hd).1, rfl⟩
    · intro hne
      exact absurd rfl hne

/-- The batch is taken, with `connectDestroyed` if it is on its way. -/
lemma Safe.takePending (h : r.Safe) (hok : r.step mem .takePending = .ok r') : r'.Safe := by
  simp only [step, guard_eq_ok, Except.ok.injEq] at hok
  obtain ⟨⟨hphase, htodo⟩, rfl⟩ := hok
  have hbatch := h.inOrder.batch_eq (by simp [hphase])
  have hqueue : ∀ f, f ∈ r.conn.takeFunctors.functors.batch ++ r.conn.takeFunctors.functors.pending
      ↔ f ∈ r.conn.functors.batch ++ r.conn.functors.pending := by
    intro f
    simp [takeFunctors, BatchQueue.take, hbatch]
  have horder : InOrder { r with conn := r.conn.takeFunctors, phase := .draining } := by
    refine ⟨⟨h.inOrder.wf.coherent, h.inOrder.wf.outputBuffer⟩, ?_, ?_, ?_⟩
    · intro f hf
      exact h.inOrder.queue f ((hqueue f).mp hf)
    · intro hne
      exact absurd rfl hne
    · intro _ t ht
      simp [htodo] at ht
  rcases h with h | h
  · exact Or.inl ⟨horder, h.state, h.alive, h.uncalled, fun hmem => h.queue ((hqueue _).mp hmem),
      h.todo, h.closes_le⟩
  · refine Or.inr ⟨horder, h.state, h.closesOnce, h.todo, h.uncalled, h.count_le,
      h.onItsWay.imp_right (Or.imp_right (hqueue _).mpr), h.gone, ?_⟩
    intro _ hmem
    rcases h.onItsWay with hway | hway | hway
    · simp [htodo] at hway
    · exact (h.gone hway).1.trans_ne (by decide)
    · rw [hbatch, List.nil_append] at hway
      exact absurd hway hmem

/-- The round ends. -/
lemma Safe.endRound (h : r.Safe) (hok : r.step mem .endRound = .ok r') : r'.Safe := by
  simp only [step, guard_eq_ok, Except.ok.injEq] at hok
  obtain ⟨⟨hphase, htodo, hbatch⟩, rfl⟩ := hok
  have horder : InOrder { r with phase := .polling } := by
    refine ⟨h.inOrder.wf, h.inOrder.queue, fun _ => hbatch, ?_⟩
    intro _ t ht
    simp [htodo] at ht
  rcases h with h | h
  · exact Or.inl ⟨horder, h.state, h.alive, h.uncalled, h.queue, h.todo, h.closes_le⟩
  · exact Or.inr ⟨horder, h.state, h.closesOnce, h.todo, h.uncalled, h.count_le, h.onItsWay,
      h.gone, fun _ => h.unregistered (by simp [hphase])⟩

/-- **The user calls the connection.**  If it is closed, its channel is left alone, or the loop does not
poll before `connectDestroyed` runs. -/
lemma Safe.call (h : r.Safe) {m : Call} {o : WriteOutcome} (horderly : r.Orderly (.call m o))
    (hok : r.step mem (.call m o) = .ok r') : r'.Safe := by
  rw [step] at hok
  split_ifs at hok with hdestroyed
  simp only [bind_eq_ok, pure_eq_ok, Except.ok.injEq] at hok
  obtain ⟨c, hc, rfl⟩ := hok
  obtain ⟨out, es, fs, hdoes, hstate, hes, hfs⟩ := call_ok h.inOrder.wf hc
  rcases h with h | h
  · refine Or.inl (h.returned hdoes ?_ hes.1 hes.2.2 hfs)
    rcases hstate with hstate | ⟨-, hstate⟩
    · rw [hstate]
      exact h.state
    · exact Or.inr hstate
  · refine Or.inr (h.returned hdoes ?_ hes hfs ?_)
    · rcases hstate with hstate | ⟨hne, -⟩
      · exact hstate.trans h.state
      · exact absurd h.state hne
    · by_cases hlingers : r.Lingers
      · exact Or.inl (congrArg Channel.index (call_ch h.state (horderly hlingers) hc))
      · right
        refine ⟨hdestroyed, ?_⟩
        by_contra hnot
        rw [not_or] at hnot
        exact hlingers ⟨h.state, hnot⟩

/-- **An orderly step is safe.** -/
lemma Safe.step (h : r.Safe) {a : Action} (horderly : r.Orderly a)
    (hok : r.step mem a = .ok r') : r'.Safe := by
  cases a with
  | poll report => exact h.poll horderly hok
  | next readOutcome writeOutcome =>
      rw [Round.step] at hok
      split at hok
      · simp at hok
      · rename_i cb rest htodo
        exact h.callback htodo hok
      · rename_i rest htodo
        rw [Except.ok.injEq] at hok
        rw [← hok]
        rcases h with h | h
        · refine absurd ?_ h.todo
          rw [htodo]
          exact List.mem_cons_self
        · exact Or.inr (h.closeCallback htodo)
  | takePending => exact h.takePending hok
  | nextFunctor o => exact h.nextFunctor horderly hok
  | endRound => exact h.endRound hok
  | call m o => exact h.call horderly hok
  | retrieveInput len =>
      simp only [Round.step, bind_eq_ok, pure_eq_ok, Except.ok.injEq] at hok
      obtain ⟨buffer, -, rfl⟩ := hok
      have hdoes : r.conn.Does { r.conn with inputBuffer := buffer } r.conn.output [] [] :=
        ⟨⟨h.inOrder.wf.coherent, h.inOrder.wf.outputBuffer⟩, rfl, rfl, (List.append_nil _).symm,
          (List.append_nil _).symm, rfl⟩
      rcases h with h | h
      · exact Or.inl (h.returned hdoes h.state (by simp) (by simp) (by simp))
      · exact Or.inr (h.returned hdoes h.state (by simp [Quiet]) (by simp) (Or.inl rfl))

/-! ## The assertion -/

/-- `handleClose`, called on an open connection. -/
lemma handleClose_passes (hwf : c.Wf) (hopen : c.state = .kConnected ∨ c.state = .kDisconnecting) :
    Passes .handleClose (r.handleClose c) :=
  .bind (beginClose_passes hwf hopen) fun _ _ => .ok _

lemma Safe.callback_passes (h : r.Safe) {cb : Callback} {rest : List Todo}
    (htodo : r.todo = .callback cb :: rest) (readOutcome : ReadOutcome)
    (writeOutcome : WriteOutcome) :
    Passes .handleClose
      (Round.callback mem { r with todo := rest } readOutcome writeOutcome cb) := by
  have hwf := h.inOrder.wf
  have hopen : (Todo.callback cb).mayClose = true →
      r.conn.state = .kConnected ∨ r.conn.state = .kDisconnecting := by
    intro hmay
    rcases h with h | h
    · exact h.state
    · rw [h.todo (.callback cb) (by rw [htodo]; exact List.mem_cons_self)] at hmay
      cases hmay
  cases cb with
  | close => exact handleClose_passes hwf (hopen rfl)
  | error => exact .ok _
  | read =>
      refine handleReadWith_passes fun buffer _ => ?_
      exact handleClose_passes ⟨hwf.coherent, hwf.outputBuffer⟩ (hopen rfl)
  | write => exact .bind (handleWrite_passes hwf _) fun _ _ => .ok _

lemma runFunctor_passes (hwf : r.conn.Wf) (o : WriteOutcome) (f : Functor) :
    Passes .handleClose (r.runFunctor mem o f) := by
  rw [Round.runFunctor]
  split_ifs with hforce
  · rw [forceCloseInLoopWith]
    split_ifs with hopen
    · exact handleClose_passes (hwf.does_nothing.log _).wf hopen
    · exact .ok _
  · exact .bind (TcpConnection.runFunctor_passes hwf hforce o) fun _ _ => .ok _

/-- **The assertion of `handleClose` does not fail** in a step from a safe state. -/
lemma Safe.passes (h : r.Safe) (a : Action) : Passes .handleClose (r.step mem a) := by
  have hwf := h.inOrder.wf
  have hdisabled : Passes .handleClose (.error .disabled : Res (Round ι)) := .error (by decide)
  cases a with
  | poll report =>
      rw [Round.step]
      split_ifs
      · exact .bind (Registry.poll_passes hwf.coherent report) fun _ _ => .ok _
      · exact hdisabled
  | next readOutcome writeOutcome =>
      rw [Round.step]
      split
      · exact hdisabled
      · rename_i cb rest htodo
        exact h.callback_passes htodo _ _
      · exact .ok _
  | takePending =>
      rw [Round.step]
      split_ifs
      · exact .ok _
      · exact hdisabled
  | nextFunctor o =>
      rw [Round.step]
      split_ifs
      · split
        · exact hdisabled
        · rename_i f rest hbatch
          have hstarted : (r.returned (r.conn.startFunctor f rest)).conn.Wf :=
            ⟨hwf.coherent, hwf.outputBuffer⟩
          exact runFunctor_passes hstarted o f
      · exact hdisabled
  | endRound =>
      rw [Round.step]
      split_ifs
      · exact .ok _
      · exact hdisabled
  | call m o =>
      rw [Round.step]
      split_ifs
      · exact hdisabled
      · exact .bind (call_passes hwf m o) fun _ _ => .ok _
  | retrieveInput len => exact .bind (Buffer.retrieve_passes len) fun _ _ => .ok _

/-! ## Runs -/

lemma safe_start (s : Setting ι) : (start s).Safe := by
  have h := s.established.2
  have hbatch : (start s).conn.functors.batch = [] := h.batch_eq
  have hpending : (start s).conn.functors.pending = [] := h.pending_eq
  have htrace : (start s).conn.trace = [.connCallback] := h.trace_eq
  refine Or.inl ⟨⟨h.wf, ?_, fun _ => hbatch, by simp [start]⟩, Or.inl h.state_eq, ?_, ?_, ?_, ?_, ?_⟩
  · simp [hbatch, hpending]
  · simp [destroyed, htrace]
  · simp [htrace]
  · simp [hbatch, hpending]
  · simp [start]
  · simp [start]

/-- **A connection closes at most once**, in every run all of whose steps are orderly: the assertion of
`handleClose` never fails, `m_closeCallback` is called at most once, and `m_messageCallback` never
after it. -/
theorem closesOnce_of_orderly (s : Setting ι) (as : List Action)
    (horderly : ∀ p ∈ Machine.steps (step s.mem) (start s) as, p.1.Orderly p.2) :
    Machine.run (step s.mem) (start s) as ≠ .error (.assertFailed .handleClose) ∧
      ∀ r ∈ Machine.states (step s.mem) (start s) as, ClosesOnce r.conn.trace := by
  have hsafe : ∀ r ∈ Machine.states (step s.mem) (start s) as, r.Safe :=
    Machine.states_invariant_of_steps (I := Safe) (C := Orderly)
      (fun r a r' h horderly hok => h.step horderly hok) (safe_start s) horderly
  refine ⟨?_, ?_⟩
  · intro herror
    obtain ⟨r, hr, a, -, ha⟩ := Machine.run_error_source herror
    exact (hsafe r hr).passes a ha
  · intro r hr
    exact (hsafe r hr).closesOnce

/-- Data arrives, then the user closes by force: the connection is gone two rounds later. -/
theorem closesOnce_of_orderly_forceClose :
    Machine.run (step Setting.plain.mem) (start Setting.plain)
        [.poll [(5, {.epollin})], .next (.bytes [7]) (.wrote 0), .call .forceClose (.wrote 0),
          .takePending, .nextFunctor (.wrote 0), .next (.bytes []) (.wrote 0), .endRound,
          .poll [], .takePending, .nextFunctor (.wrote 0), .endRound]
      ≠ .error (.assertFailed .handleClose) ∧
    ∀ r ∈ Machine.states (step Setting.plain.mem) (start Setting.plain)
        [.poll [(5, {.epollin})], .next (.bytes [7]) (.wrote 0), .call .forceClose (.wrote 0),
          .takePending, .nextFunctor (.wrote 0), .next (.bytes []) (.wrote 0), .endRound,
          .poll [], .takePending, .nextFunctor (.wrote 0), .endRound],
      ClosesOnce r.conn.trace :=
  closesOnce_of_orderly Setting.plain _ (by decide +kernel)

/-- **Closing twice.**  In the first run the user stops reading and closes by force, and `disableAll` puts
the channel back into the kernel's set, so the next poll reports `EPOLLHUP`.  In the second one dispatch
closes the connection and then reads the end of the stream.  In the third the user starts reading after
the close, and a message arrives. -/
theorem not_closesOnce :
    Machine.run (step Setting.plain.mem) (start Setting.plain)
        [.call .stopRead (.wrote 0), .call .forceClose (.wrote 0), .poll [], .takePending,
          .nextFunctor (.wrote 0), .next (.bytes []) (.wrote 0), .endRound,
          .poll [(5, {.epollhup})], .next (.bytes []) (.wrote 0)]
      = .error (.assertFailed .handleClose) ∧
    Machine.run (step Setting.plain.mem) (start Setting.plain)
        [.poll [(5, {.epollhup, .epollpri})], .next (.bytes []) (.wrote 0),
          .next (.bytes []) (.wrote 0), .next (.bytes []) (.wrote 0)]
      = .error (.assertFailed .handleClose) ∧
    ∃ r, Machine.run (step Setting.plain.mem) (start Setting.plain)
        [.call .forceClose (.wrote 0), .poll [], .takePending, .nextFunctor (.wrote 0),
          .next (.bytes []) (.wrote 0), .call .startRead (.wrote 0), .endRound,
          .poll [(5, {.epollin})], .next (.bytes [7]) (.wrote 0)] = .ok r ∧
      ¬ ClosesOnce r.conn.trace := by
  refine ⟨Machine.error_of_map (g := fun r => r.conn.trace) (by decide +kernel),
    Machine.error_of_map (g := fun r => r.conn.trace) (by decide +kernel), ?_⟩
  have hrun : (Machine.run (step Setting.plain.mem) (start Setting.plain)
      [.call .forceClose (.wrote 0), .poll [], .takePending, .nextFunctor (.wrote 0),
        .next (.bytes []) (.wrote 0), .call .startRead (.wrote 0), .endRound,
        .poll [(5, {.epollin})], .next (.bytes [7]) (.wrote 0)]).map (fun r => r.conn.trace)
      = .ok [.connCallback, .ran .forceCloseInLoop, .connCallback, .closeCallback,
        .ran .startReadInLoop, .messageCallback] := by
    decide +kernel
  obtain ⟨r, hr, htrace⟩ := Machine.ok_of_map hrun
  refine ⟨r, hr, ?_⟩
  intro h
  rw [htrace] at h
  exact h.last (by decide)

end Round

end Seenet
