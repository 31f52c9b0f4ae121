import Seenet.System.Ownership
import Seenet.TcpConnection.Stream

/-!
# The steps of the whole server

* `Sound` — the invariant: channels and descriptors are in order (`Wired`), every connection is accounted for
  (`Accounted`), the threads call what they may (`Agenda`), and the stream of every connection is intact.
* `Allowed` — the condition on a step.  No connection is constructed under a name that is in the table, and
  nobody switches the reading of a connection whose channel has been removed.
* `Timely` — the other condition.  `shutdown` and `forceClose` test `m_state` and set it without a lock; nobody sets
  it when the connection has been closed in between, as such a connection would be closed a second time.
* **`Sound.step`** — every step that is allowed and in time keeps the invariant.
-/

namespace Seenet

open Channel

namespace TcpConnection

variable {ι : Type} {c c' : TcpConnection ι} {ms : List (Thread × List UInt8)}

/-- Nothing the stream depends on has changed. -/
lemma Intact.of_eq (h : c.Intact ms) (hcoh : c'.registry.Coherent) (hbuffer : c'.outputBuffer = c.outputBuffer)
    (htrace : c'.trace = c.trace)
    (hqueue : c'.functors.batch ++ c'.functors.pending = c.functors.batch ++ c.functors.pending) :
    c'.Intact ms := by
  obtain ⟨hwf, hstream, haccepted, horder, hloop⟩ := h
  rw [output, ← hbuffer] at hstream
  rw [← htrace] at hstream haccepted
  rw [← hqueue] at hloop
  refine ⟨⟨hcoh, hbuffer ▸ hwf.outputBuffer⟩, hstream, haccepted, ?_, hloop⟩
  intro t
  rw [htrace, hqueue]
  exact horder t

end TcpConnection

namespace System

open TcpConnection

variable {cfg : Setting} {mem : Memory} {s s' : System} {hand hand' : List Task} {l : LoopId} {i j : ℕ}

/-- The messages in hand. -/
def inHand (i : ℕ) (hand : List Task) : List (Thread × List UInt8) :=
  queuedMessages (hand.filterMap (Task.functorOf i))

@[simp] lemma inHand_nil (i : ℕ) : inHand i [] = [] := rfl

@[simp] lemma inHand_connectEstablished (i j : ℕ) : inHand i [.connectEstablished j] = [] := rfl

lemma inHand_functor (i : ℕ) (f : Functor) : inHand i [.functor i f] = queuedMessages [f] := by
  simp [inHand, Task.functorOf]

lemma functorOf_of_ne {t : Task} (ht : t.conn ≠ i) : Task.functorOf i t = none := by
  cases t with
  | functor j f => exact if_neg ht
  | _ => rfl

lemma inHand_of_ne (h : ∀ t ∈ hand, t.conn ≠ i) : inHand i hand = [] := by
  rw [inHand, List.filterMap_eq_nil_iff.mpr fun t ht => functorOf_of_ne (h t ht)]
  rfl

/-! ## The invariant -/

/-- The server is in order, with `hand` the functor the thread of a loop has just taken. -/
structure Sound (cfg : Setting) (s : System) (hand : List Task) : Prop where
  wired : s.Wired cfg
  accounted : s.Accounted cfg hand
  agenda : s.Agenda
  intact : ∀ i, s.alive i = true → (s.view i).Intact (inHand i hand)

lemma Sound.view_wf (h : s.Sound cfg hand) (halive : s.alive i = true) : (s.view i).Wf := (h.intact i halive).wf

/-- A connection in the table has not been removed. -/
lemma Sound.not_removed_of_held (h : s.Sound cfg hand) (hheld : s.Held i) : ¬ s.Removed i := by
  intro hremoved
  have hone := h.accounted.one i (h.accounted.entries _ i hheld).1
  have hpos : 0 < (s.conn i).trace.count (.ran .connectDestroyed) := List.count_pos_iff.mpr hremoved
  rw [places, if_pos hheld] at hone
  omega

lemma sound_start (cfg : Setting) : cfg.start.Sound cfg [] where
  wired := wired_start cfg
  accounted := by
    have hnone : ∀ i, ¬ i < cfg.start.accepted := fun i => Nat.not_lt_zero i
    refine ⟨?_, ?_, ?_, ?_, ?_, ?_, ?_, ?_, ?_, ?_, ?_⟩
    · exact fun i halive => absurd halive (by simp [Setting.start])
    · exact fun name i hentry => absurd hentry (by simp [Setting.start])
    · exact fun l t ht => absurd ht (by simp [Setting.start, Loop.tasks])
    · exact fun i hi => absurd hi (hnone i)
    · exact fun i hi => absurd hi (hnone i)
    · exact fun i hi => absurd hi (hnone i)
    · exact fun i hi => absurd hi (hnone i)
    · exact fun i hmem => absurd hmem (by simp [waiting, loopOf, Setting.start])
    · exact fun i => by simp [waiting, loopOf, Setting.start]
    · exact fun i hi => absurd hi (by simp [Used, Setting.start])
    · exact ⟨rfl, rfl, id⟩
  agenda := by
    refine ⟨?_, ?_, ?_, fun l _ => rfl⟩
    · exact fun l i hmem => absurd hmem (by simp [Setting.start])
    · exact fun l i => by simp [Setting.start]
    · exact fun l item hmem => absurd hmem (by simp [Setting.start])
  intact i halive := absurd halive (by simp [Setting.start])

/-- A loop changes, but not its channels, and no functor is lost. -/
lemma Sound.setLoop (h : s.Sound cfg hand) {loop : Loop} (hregistry : loop.registry = (s.loops l).registry)
    (hplaced : ∀ t ∈ loop.tasks,
      s.alive t.conn = true ∧ (s.conn t.conn).loop = l ∧ ∀ i, t ≠ .removeConnectionInLoop i)
    (hwaiting : ∀ t, (loop.pending ++ loop.batch ++ hand').count t
      = ((s.loops l).pending ++ (s.loops l).batch ++ hand).count t)
    (hhand : ∀ t ∈ hand, (s.conn t.conn).loop = l) (hhand' : ∀ t ∈ hand', (s.conn t.conn).loop = l)
    (hagenda : (s.setLoop l loop).Agenda)
    (hintact : ∀ i, s.On l i → ((s.setLoop l loop).view i).Intact (inHand i hand')) :
    (s.setLoop l loop).Sound cfg hand' := by
  refine ⟨h.wired.setLoop hregistry, ?_, hagenda, ?_⟩
  · refine h.accounted.setLoop hplaced hwaiting hhand hhand' fun ch => ?_
    rw [hregistry]
    exact ⟨rfl, rfl⟩
  · intro i halive
    by_cases hl : (s.conn i).loop = l
    · exact hintact i ⟨halive, hl⟩
    · have hold := h.intact i halive
      rw [inHand_of_ne fun t ht heq => hl (by rw [← heq]; exact hhand t ht)] at hold
      rw [inHand_of_ne fun t ht heq => hl (by rw [← heq]; exact hhand' t ht)]
      have hloop : (s.setLoop l loop).loops (s.conn i).loop = s.loops (s.conn i).loop := Function.update_of_ne hl ..
      refine hold.of_eq ?_ rfl rfl ?_
      · exact (h.wired.setLoop hregistry).coherent _
      · simp only [view, loopOf, show (s.setLoop l loop).conn = s.conn from rfl, hloop]

/-- Only what the thread of a loop has to call changes, and where it is. -/
lemma Sound.setTodo (h : s.Sound cfg []) {todo : List Item} {phase : Phase}
    (hagenda : (s.setLoop l { s.loops l with todo := todo, phase := phase }).Agenda) :
    (s.setLoop l { s.loops l with todo := todo, phase := phase }).Sound cfg [] := by
  have hwired : (s.setLoop l { s.loops l with todo := todo, phase := phase }).Wired cfg := h.wired.setLoop rfl
  refine h.setLoop rfl (fun t ht => h.accounted.placed l t ht) (fun _ => rfl) (by simp) (by simp) hagenda ?_
  rintro i ⟨halive, hl⟩
  have hold := h.intact i halive
  refine hold.of_eq (hwired.coherent _) rfl rfl ?_
  simp only [view, loopOf, System.setLoop, hl, Function.update_self]

/-! ## Functions of a connection -/

section Put

variable {c c₁ : TcpConnection ChannelId} {fs : List Functor} {touches : Prop}

/-- The connection after one of its functions, as the next one sees it. -/
lemma put_view (hpending : c.functors.pending = (s.view i).functors.pending ++ fs)
    (hbatch : c.functors.batch = (s.view i).functors.batch) :
    ((s.put i c).view i).registry = c.registry ∧ ((s.put i c).view i).trace = c.trace ∧
      ((s.put i c).view i).outputBuffer = c.outputBuffer ∧
      ((s.put i c).view i).functors.pending = c.functors.pending ∧
      ((s.put i c).view i).functors.batch = c.functors.batch := by
  have hself : (s.put i c).loopOf i = { s.loopOf i with
      registry := c.registry, pending := (s.loopOf i).pending ++ fs.map (.functor i) } := by
    rw [put_loopOf, put_loops hpending, if_pos rfl, if_pos rfl]
    rfl
  have hfunctors : (fs.map (Task.functor i)).filterMap (Task.functorOf i) = fs := by
    have hsome : Task.functorOf i ∘ Task.functor i = some := by
      funext f
      simp [Task.functorOf]
    rw [List.filterMap_map, hsome, List.filterMap_some]
  refine ⟨?_, ?_, ?_, ?_, ?_⟩
  · rw [view, hself]
  · simp [view, System.put]
  · simp [view, System.put]
  · rw [hpending, view, hself]
    dsimp only
    rw [List.filterMap_append, hfunctors]
    rfl
  · rw [hbatch, view, hself]
    rfl

/-- The functions of one connection leave the streams of the others alone. -/
lemma Sound.put_intact (h : s.Sound cfg hand) (hpending : c.functors.pending = (s.view i).functors.pending ++ fs)
    (hbatch : c.functors.batch = (s.view i).functors.batch) (hwired : (s.put i c).Wired cfg)
    (hhand : ∀ t ∈ hand, t.conn = i) (hintact : c.Intact []) (hj : s.alive j = true) :
    ((s.put i c).view j).Intact (inHand j []) := by
  by_cases hji : j = i
  · subst hji
    obtain ⟨hregistry, htrace, hbuffer, hpending', hbatch'⟩ := put_view hpending hbatch
    exact hintact.of_eq (hregistry ▸ hintact.wf.coherent) hbuffer htrace (by rw [hpending', hbatch'])
  · have hold := h.intact j hj
    rw [inHand_of_ne fun t ht => by rw [hhand t ht]; exact fun hij => hji hij.symm] at hold
    have hconn := put_conn_of_ne (s := s) hji c
    have hloop := put_loops hpending ((s.conn j).loop)
    have hnone : ((if (s.conn j).loop = (s.conn i).loop then fs.map (Task.functor i) else []).filterMap
        (Task.functorOf j)) = [] := by
      refine List.filterMap_eq_nil_iff.mpr fun t ht => ?_
      split_ifs at ht
      · obtain ⟨f, -, rfl⟩ := List.mem_map.mp ht
        exact functorOf_of_ne fun hij => hji hij.symm
      · simp at ht
    refine hold.of_eq (hwired.coherent _) ?_ ?_ ?_
    · simp only [view, hconn]
    · simp only [view, hconn]
    · simp only [view, loopOf, hconn, hloop, List.filterMap_append, hnone, List.append_nil]

/-- **A function of a connection keeps the invariant.** -/
lemma Sound.put (h : s.Sound cfg hand) (halive : s.alive i = true)
    (hpending : c.functors.pending = (s.view i).functors.pending ++ fs) (hfs : .connectDestroyed ∉ fs)
    (hbatch : c.functors.batch = (s.view i).functors.batch) (hlocal : (s.view i).Local c)
    (hintact : c.Intact []) (hhand : ∀ t ∈ hand, t.conn = i)
    (hone : c.trace.count (.ran .connectDestroyed)
      = (s.conn i).trace.count (.ran .connectDestroyed) + hand.count (.functor i .connectDestroyed))
    (hstate : c.state ≠ .kDisconnected → s.Held i)
    (hoff : .ran .connectDestroyed ∈ c.trace → c.ch.index = .kNew ∧ c.ch.events = ∅)
    (hstarting : c.state = (s.conn i).state ∨ .connectEstablished i ∉ s.waiting i [])
    (hclosing : (s.conn i).state = .kDisconnected → s.Held i → c.state = .kDisconnected)
    (hactive : ¬ s.Removed i → (s.loopOf i).phase = .dispatching → .ran .connectDestroyed ∉ c.trace) :
    (s.put i c).Sound cfg [] := by
  have hwired := h.wired.put halive hintact.wf.coherent hlocal
  have hself : ((s.put i c).conn i).trace = c.trace ∧ ((s.put i c).conn i).state = c.state := by
    simp [System.put]
  refine ⟨hwired, ?_, ?_, fun j hj => h.put_intact hpending hbatch hwired hhand hintact hj⟩
  · exact h.accounted.put halive hpending hfs hlocal hhand hone hstate hoff hstarting
  · refine h.agenda.congr ?_ ?_ ?_ (fun j _ => (s.put_conn_const i c j).2.1) ?_ ?_
    · exact fun l => by rw [put_loops hpending]
    · exact fun l => by rw [put_loops hpending]
    · exact fun l => by rw [put_loops hpending]
    · intro l j _ hj hdisconnected hheld
      refine ⟨hj, ?_, put_held.mpr hheld⟩
      by_cases hji : j = i
      · subst hji
        rw [hself.2]
        exact hclosing hdisconnected hheld
      · rwa [put_conn_of_ne hji]
    · intro j hj hremoved hdispatching
      refine ⟨hj, ?_⟩
      by_cases hji : j = i
      · subst hji
        rw [Removed, hself.1]
        exact hactive hremoved hdispatching
      · rwa [Removed, put_conn_of_ne hji]

/-- **A function that neither closes nor destroys.** -/
lemma Sound.put_ordinary (h : s.Sound cfg hand) (halive : s.alive i = true) (hord : (s.view i).Ordinary touches c)
    (hintact : c.Intact []) (hhand : ∀ t ∈ hand, ∃ f, t = .functor i f ∧ f ≠ .connectDestroyed)
    (hstarting : c.state = (s.conn i).state ∨ (s.conn i).state ≠ .kConnecting)
    (htouches : touches → ¬ s.Removed i) : (s.put i c).Sound cfg [] := by
  have hi := h.accounted.born i halive
  obtain ⟨-, hlocal, ⟨es, htrace, hran⟩, ⟨fs, hpending, hfs⟩, hbatch, hstate, hch⟩ := hord
  have hremoved : .ran .connectDestroyed ∈ c.trace ↔ s.Removed i := by
    rw [htrace, List.mem_append, or_iff_left hran]
    rfl
  refine h.put halive hpending hfs hbatch hlocal hintact ?_ ?_ ?_ ?_ ?_ ?_ ?_
  · intro t ht
    obtain ⟨f, rfl, -⟩ := hhand t ht
    rfl
  · have hnone : hand.count (.functor i .connectDestroyed) = 0 := by
      refine List.count_eq_zero_of_not_mem fun hmem => ?_
      obtain ⟨f, heq, hf⟩ := hhand _ hmem
      rw [Task.functor.injEq] at heq
      exact hf heq.2.symm
    rw [htrace, List.count_append, List.count_eq_zero_of_not_mem hran, hnone]
    rfl
  · intro hne
    refine h.accounted.held i hi ?_
    rcases hstate with heq | ⟨hopen, -⟩
    · intro hdisconnected
      exact hne (heq.trans hdisconnected)
    · exact hopen
  · intro hmem
    have hgone := hremoved.mp hmem
    obtain ⟨hindex, hevents⟩ := h.accounted.off i hi hgone
    rw [hch (fun ht => htouches ht hgone) hevents]
    exact ⟨hindex, hevents⟩
  · rcases hstarting with heq | hne
    · exact Or.inl heq
    · refine Or.inr fun hmem => hne (h.accounted.starting i ?_)
      rw [waiting, List.append_nil] at hmem
      exact List.mem_append_left _ hmem
  · intro hdisconnected _
    rcases hstate with heq | ⟨hopen, -⟩
    · exact heq.trans hdisconnected
    · exact absurd hdisconnected hopen
  · exact fun hnot _ hmem => hnot (hremoved.mp hmem)

/-- A field that neither the loop nor the other connections see. -/
lemma Sound.put_field (h : s.Sound cfg []) (halive : s.alive i = true) (hchannel : c.channel = (s.view i).channel)
    (hregistry : c.registry = (s.view i).registry) (houtput : c.outputBuffer = (s.view i).outputBuffer)
    (hstate : c.state = (s.view i).state) (htrace : c.trace = (s.view i).trace)
    (hfunctors : c.functors = (s.view i).functors) : (s.put i c).Sound cfg [] := by
  have hwf := h.view_wf halive
  have hdoes : (s.view i).Does c (s.view i).output [] [] := by
    refine ⟨⟨?_, ?_⟩, hchannel, ?_, ?_, ?_, ?_⟩
    · rw [hregistry]
      exact hwf.coherent
    · rw [houtput]
      exact hwf.outputBuffer
    · rw [output, houtput]
      rfl
    · rw [htrace, List.append_nil]
    · rw [hfunctors, List.append_nil]
    · rw [hfunctors]
  have hlocal : (s.view i).Local c := (Local.refl _).of_eq hchannel hregistry fun h => houtput ▸ h
  have hord : (s.view i).Ordinary False c :=
    .of_does hdoes hlocal (by simp) (by simp) (Or.inl hstate) fun _ _ => by rw [ch, ch, hchannel, hregistry]
  exact h.put_ordinary halive hord ((h.intact i halive).silent hdoes ⟨rfl, rfl, rfl, rfl⟩ rfl) (by simp)
    (Or.inl hstate) False.elim

/-- **`connectEstablished`** of the connection in hand. -/
lemma Sound.establish (h : s.Sound cfg [.connectEstablished i]) (halive : s.alive i = true)
    (hok : (s.view i).connectEstablished = .ok c) : (s.put i c).Sound cfg [] := by
  obtain ⟨hdoes, hconnecting, hconnected⟩ := connectEstablished_spec (h.view_wf halive) hok
  have hstate : (s.conn i).state = .kConnecting := hconnecting
  have hheld := h.accounted.held i (h.accounted.born i halive) (by simp [hstate])
  have hremoved := h.not_removed_of_held hheld
  have htrace : .ran .connectDestroyed ∉ c.trace := by
    rw [hdoes.trace_eq, List.mem_append, not_or]
    exact ⟨hremoved, by simp⟩
  refine h.put halive hdoes.pending_eq (by simp) hdoes.batch_eq (connectEstablished_frames hok).toLocal ?_
    (by simp [Task.conn])
    ?_ (fun _ => hheld) (fun hmem => absurd hmem htrace) ?_ (fun hdisconnected => ?_) fun _ _ => htrace
  · exact (h.intact i halive).silent hdoes ⟨rfl, rfl, rfl, rfl⟩ rfl
  · rw [List.count_eq_zero_of_not_mem htrace, List.count_eq_zero_of_not_mem hremoved]
    simp
  · right
    have honce := h.accounted.starting_once i
    simp only [waiting, List.count_append, List.count_singleton_self] at honce
    rw [← List.count_eq_zero, waiting, List.append_nil, List.count_append]
    omega
  · exact absurd hdisconnected (by simp [hstate])

/-- A connection whose `connectDestroyed` is in hand is nowhere else. -/
lemma Accounted.destroying (h : s.Accounted cfg [.functor i .connectDestroyed]) (hi : i < s.accepted) :
    ¬ s.Held i ∧ (s.conn i).trace.count (.ran .connectDestroyed) = 0 ∧ (s.conn i).state = .kDisconnected := by
  have hone := h.one i hi
  simp only [places, waiting, List.count_append, List.count_singleton_self] at hone
  split_ifs at hone with hheld
  · omega
  · refine ⟨hheld, by omega, ?_⟩
    by_contra hne
    exact hheld (h.held i hi hne)

/-- **`connectDestroyed`**: the connection goes out of the poller for good. -/
lemma Sound.connectDestroyed (h : s.Sound cfg [.functor i .connectDestroyed]) (halive : s.alive i = true)
    (hphase : (s.loopOf i).phase ≠ .dispatching) {o : WriteOutcome}
    (hok : (s.view i).runFunctor mem .connectDestroyed o = .ok c) : (s.put i c).Sound cfg [] := by
  have hwf := h.view_wf halive
  have hlog := hwf.does_nothing.log (.ran .connectDestroyed)
  obtain ⟨hheld, hnone, hstate⟩ := h.accounted.destroying (h.accounted.born i halive)
  obtain ⟨⟨es, hdoes, hes⟩, hstate', hindex, hevents⟩ := connectDestroyed_spec hlog.wf hok
  have hall := hlog.then hdoes
  have hcount : es.count (.ran .connectDestroyed) = 0 := by
    rcases hes with rfl | rfl <;> rfl
  have hdisconnected : c.state = .kDisconnected := by
    rw [hstate', if_neg, log_state]
    · exact hstate
    · rw [log_state]
      exact fun hconnected => absurd (hstate.symm.trans hconnected) (by simp)
  refine h.put halive hall.pending_eq (by simp) hall.batch_eq (runFunctor_frames (by simp) hok).toLocal ?_
    (by simp [Task.conn]) ?_ (fun hne => absurd hdisconnected hne) (fun _ => ⟨hindex, hevents⟩)
    (Or.inl (hdisconnected.trans hstate.symm))
    (fun _ _ => hdisconnected) (fun _ hdispatching => absurd hdispatching hphase)
  · have hintact := h.intact i halive
    rw [inHand_functor] at hintact
    exact hintact.runFunctor hok
  · rw [hall.trace_eq, List.count_append, List.count_append, hcount, List.nil_append,
      List.count_singleton_self, List.count_singleton_self]
    rfl

/-- **`handleClose`**, until `m_closeCallback` is called, of a connection that has only been read from. -/
lemma Sound.close (h : s.Sound cfg hand) (halive : s.alive i = true) (hl : (s.conn i).loop = l)
    (hord : (s.view i).Ordinary False c₁) (hstate : c₁.state = (s.conn i).state) (hintact : c₁.Intact [])
    (hhand : ∀ t ∈ hand, ∃ f, t = .functor i f ∧ f ≠ .connectDestroyed)
    (hok : s.handleClose l i c₁ = .ok s') : s'.Sound cfg [] := by
  rw [System.handleClose, bind_eq_ok] at hok
  obtain ⟨c, hclose, hs'⟩ := hok
  rw [pure_eq_ok, Except.ok.injEq] at hs'
  obtain ⟨hdoes, hopen, hdisconnected, -⟩ := beginClose_spec hintact.wf hclose
  rw [hstate] at hopen
  have hne : (s.conn i).state ≠ .kDisconnected := by
    rcases hopen with heq | heq <;> simp [heq]
  have hheld := h.accounted.held i (h.accounted.born i halive) hne
  have hremoved := h.not_removed_of_held hheld
  obtain ⟨-, hlocal, ⟨es, htrace, hran⟩, ⟨fs, hpending, hfs⟩, hbatch, -, -⟩ := hord
  have htrace' : .ran .connectDestroyed ∉ c.trace := by
    rw [hdoes.trace_eq, htrace, List.mem_append, List.mem_append, not_or, not_or]
    exact ⟨⟨hremoved, hran⟩, by simp⟩
  have hnone : hand.count (.functor i .connectDestroyed) = 0 := by
    refine List.count_eq_zero_of_not_mem fun hmem => ?_
    obtain ⟨f, heq, hf⟩ := hhand _ hmem
    rw [Task.functor.injEq] at heq
    exact hf heq.2.symm
  have hput : (s.put i c).Sound cfg [] := by
    refine h.put halive (hdoes.pending_eq.trans (by rw [List.append_nil, hpending])) hfs
      (hdoes.batch_eq.trans hbatch) (hlocal.trans (beginClose_frames hclose).toLocal)
      (hintact.silent hdoes ⟨rfl, rfl, rfl, rfl⟩ rfl) ?_ ?_ (fun _ => hheld) (fun hmem => absurd hmem htrace') ?_
      (fun _ _ => hdisconnected) fun _ _ => htrace'
    · intro t ht
      obtain ⟨f, rfl, -⟩ := hhand t ht
      rfl
    · rw [List.count_eq_zero_of_not_mem htrace', List.count_eq_zero_of_not_mem hremoved, hnone]
    · refine Or.inr fun hmem => ?_
      have hconnecting := h.accounted.starting i (by
        rw [waiting, List.append_nil] at hmem
        exact List.mem_append_left _ hmem)
      rcases hopen with heq | heq <;> simp [heq] at hconnecting
  -- `m_closeCallback` waits for no connection that is open
  have hnew : .closeCallback i ∉ (s.loops l).todo := fun hmem => hne (h.agenda.closing l i hmem).2.2.1
  have htodo : ((s.put i c).loops l).todo = (s.loops l).todo := by
    rw [put_loops (hdoes.pending_eq.trans (by rw [List.append_nil, hpending]))]
  have hcalled : ((s.put i c).callFirst l [.closeCallback i]).Agenda := by
    refine hput.agenda.callFirst ?_ ?_
    · intro j hj
      rw [List.mem_singleton, Item.closeCallback.injEq] at hj
      subst hj
      refine ⟨by simp, by rwa [htodo], halive, (s.put_conn_const j c j).2.1.trans hl, ?_, put_held.mpr hheld⟩
      simpa [System.put] using hdisconnected
    · intro item hitem j hj
      rw [List.mem_singleton] at hitem
      subst hitem
      simp [Item.pointsTo] at hj
  rw [← hs']
  exact hput.setTodo hcalled

end Put

/-! ## Functions of the server -/

/-- What concerns neither loops nor connections. -/
lemma Sound.congr (h : s.Sound cfg []) (hwired : s'.Wired cfg) (hloops : s'.loops = s.loops) (hconn : s'.conn = s.conn)
    (halive : s'.alive = s.alive) (haccepted : s'.accepted = s.accepted) (hconnections : s'.connections = s.connections)
    (husers : ∀ i, s'.Used i → s'.alive i = true) (hpool : s'.threadPool.Running cfg.numThreads) :
    s'.Sound cfg [] := by
  have hview : ∀ i, s'.view i = s.view i := fun i => by simp only [view, loopOf, hloops, hconn]
  refine ⟨hwired, ?_, ?_, ?_⟩
  · have hacc := h.accounted
    refine ⟨?_, ?_, ?_, ?_, ?_, ?_, ?_, ?_, ?_, husers, hpool⟩
    · rw [halive, haccepted]
      exact hacc.born
    · rw [hconnections, haccepted, hconn]
      exact hacc.entries
    · rw [hloops, halive, hconn]
      exact hacc.placed
    · intro i hi
      rw [haccepted] at hi
      have hone := hacc.one i hi
      simp only [places, Held, waiting, loopOf, hconn, hloops, hconnections] at hone ⊢
      exact hone
    · intro i hi hstate
      rw [haccepted] at hi
      rw [hconn] at hstate
      rw [Held, hconn, hconnections]
      exact hacc.held i hi hstate
    · intro i hi hremoved
      rw [haccepted] at hi
      rw [Removed, hconn] at hremoved
      rw [hview]
      exact hacc.off i hi hremoved
    · intro i hi hdead
      rw [haccepted] at hi
      rw [halive] at hdead
      rw [Removed, hconn]
      exact hacc.dead i hi hdead
    · intro i hmem
      rw [waiting, loopOf, hconn, hloops] at hmem
      rw [hconn]
      exact hacc.starting i hmem
    · intro i
      rw [waiting, loopOf, hconn, hloops]
      exact hacc.starting_once i
  · refine h.agenda.congr (fun l => by rw [hloops]) (fun l => by rw [hloops]) (fun l => by rw [hloops])
      (fun i _ => by rw [hconn]) ?_ ?_
    · intro l i _ hlive hstate hheld
      rw [Held, halive, hconn, hconnections]
      exact ⟨hlive, hstate, hheld⟩
    · intro i hlive hremoved _
      rw [Removed, halive, hconn]
      exact ⟨hlive, hremoved⟩
  · intro i hlive
    rw [halive] at hlive
    rw [hview]
    exact h.intact i hlive

/-- The `connectEstablished` in hand is queued. -/
lemma Sound.queueInLoop (h : s.Sound cfg [.connectEstablished i]) (halive : s.alive i = true)
    (hl : (s.conn i).loop = l) : (s.queueInLoop l (.connectEstablished i)).Sound cfg [] := by
  have hwired : (s.queueInLoop l (.connectEstablished i)).Wired cfg := h.wired.setLoop rfl
  have hself : (s.queueInLoop l (.connectEstablished i)).loops l
      = { s.loops l with pending := (s.loops l).pending ++ [.connectEstablished i] } := Function.update_self ..
  have hothers : ∀ l', l' ≠ l → (s.queueInLoop l (.connectEstablished i)).loops l' = s.loops l' := fun l' hl' =>
    Function.update_of_ne hl' ..
  refine ⟨hwired, h.accounted.queueInLoop halive hl (by simp), ?_, ?_⟩
  · refine h.agenda.congr ?_ ?_ ?_ (fun _ _ => rfl) (fun l i _ hlive hstate hheld => ⟨hlive, hstate, hheld⟩)
      fun i hlive hremoved _ => ⟨hlive, hremoved⟩
    all_goals
      intro l'
      by_cases hl' : l' = l
      · rw [hl', hself]
      · rw [hothers l' hl']
  · intro j hj
    have hold := h.intact j hj
    rw [inHand_connectEstablished] at hold
    refine hold.of_eq (hwired.coherent _) rfl rfl ?_
    have hconn : (s.queueInLoop l (.connectEstablished i)).conn = s.conn := rfl
    by_cases hl' : (s.conn j).loop = l
    · simp only [view, loopOf, hconn, hl', hself, List.filterMap_append]
      simp [Task.functorOf]
    · simp only [view, loopOf, hconn, hothers _ hl']

/-- **A connection is constructed.** -/
lemma Sound.construct (h : s.Sound cfg []) (hname : s.connections s.connName = none) {fd : ℤ}
    (hfd : 0 ≤ fd ∧ s.fds fd = none) {outputBuffer : Buffer}
    (hbuffer : Buffer.create mem Buffer.kInitialSize = .ok outputBuffer) (ioLoop : LoopId) (inputBuffer : Buffer) :
    (s.construct ioLoop fd inputBuffer outputBuffer).Sound cfg [.connectEstablished s.accepted] := by
  have hborn := h.accounted.born
  have hnew : s.alive s.accepted = false := by
    by_contra hlive
    exact lt_irrefl _ (hborn _ (by simpa using hlive))
  have hwired := h.wired.construct hfd hnew ioLoop inputBuffer outputBuffer
  have haccounted := h.accounted.construct hname ioLoop fd inputBuffer outputBuffer
  generalize hs' : s.construct ioLoop fd inputBuffer outputBuffer = s' at hwired haccounted
  have hconn : ∀ j, s.alive j = true → s'.conn j = s.conn j := by
    intro j hj
    rw [← hs']
    exact Function.update_of_ne (hborn j hj).ne ..
  have halive : s'.alive = Function.update s.alive s.accepted true := by rw [← hs']; rfl
  have hloops : ∀ l, (s'.loops l).pending = (s.loops l).pending ∧ (s'.loops l).batch = (s.loops l).batch ∧
      (s'.loops l).phase = (s.loops l).phase ∧ (s'.loops l).todo = (s.loops l).todo := by
    intro l
    rw [← hs']
    by_cases hl : l = ioLoop
    · subst hl
      simp only [System.construct, System.setLoop, Function.update_self, and_self]
    · simp only [System.construct, System.setLoop, Function.update_of_ne hl, and_self]
  refine ⟨hwired, haccounted, ?_, ?_⟩
  · refine h.agenda.congr (fun l => (hloops l).2.2.2) (fun l => (hloops l).2.2.1) (fun l => (hloops l).2.1)
      (fun j hj => by rw [hconn j hj]) ?_ ?_
    · intro l j _ hj hstate hheld
      rw [halive, Function.update_of_ne (hborn j hj).ne, hconn j hj]
      refine ⟨hj, hstate, ?_⟩
      have hconnections : s'.connections = Function.update s.connections s.connName (some s.accepted) := by
        rw [← hs']; rfl
      rw [Held, hconn j hj, hconnections, Function.update_of_ne]
      · exact hheld
      · intro heq
        rw [Held, heq, hname] at hheld
        simp at hheld
    · intro j hj hremoved _
      rw [halive, Function.update_of_ne (hborn j hj).ne, Removed, hconn j hj]
      exact ⟨hj, hremoved⟩
  · intro j hj
    rw [inHand_connectEstablished]
    have hqueue : ∀ j, (s'.view j).functors.batch ++ (s'.view j).functors.pending
        = (s.loops (s'.conn j).loop).batch.filterMap (Task.functorOf j)
          ++ (s.loops (s'.conn j).loop).pending.filterMap (Task.functorOf j) := by
      intro j
      simp only [view, loopOf, (hloops _).1, (hloops _).2.1]
    by_cases hji : j = s.accepted
    · subst hji
      -- nothing has been sent, and no functor waits
      have hrep := Buffer.represents_of_create (by decide) hbuffer
      have hself : (s'.view s.accepted).outputBuffer = outputBuffer ∧ (s'.view s.accepted).trace = [] := by
        rw [← hs']
        simp [view, System.construct]
      have hnone : (s'.view s.accepted).functors.batch ++ (s'.view s.accepted).functors.pending = [] := by
        rw [hqueue, List.append_eq_nil_iff, List.filterMap_eq_nil_iff, List.filterMap_eq_nil_iff]
        have hold : ∀ t ∈ (s.loops (s'.conn s.accepted).loop).tasks, Task.functorOf s.accepted t = none :=
          fun t ht => functorOf_of_ne (hborn _ (h.accounted.placed _ t ht).1).ne
        exact ⟨fun t ht => hold t (by simp [Loop.tasks, ht]), fun t ht => hold t (by simp [Loop.tasks, ht])⟩
      refine ⟨⟨hwired.coherent _, hself.1 ▸ hrep.wf⟩, ?_, ?_, ?_, ?_⟩
      · rw [hself.2, output, hself.1, hrep.toList_eq]
        rfl
      · rw [hself.2]
        exact List.nil_sublist _
      · intro t
        rw [hself.2, hnone]
        rfl
      · rw [hnone]
        rfl
    · rw [halive, Function.update_of_ne hji] at hj
      refine (h.intact j hj).of_eq (hwired.coherent _) ?_ ?_ ?_
      · simp only [view, hconn j hj]
      · simp only [view, hconn j hj]
      · rw [hqueue, hconn j hj]
        rfl

/-- **A connection that is closed leaves the table.** -/
lemma Sound.removeConnectionInLoop (h : s.Sound cfg []) (hheld : s.Held i)
    (hstate : (s.conn i).state = .kDisconnected) (hcalled : ∀ l, .closeCallback i ∉ (s.loops l).todo) :
    (s.removeConnectionInLoop i).Sound cfg [] := by
  have haccounted := h.accounted.removeConnectionInLoop hheld hstate
  have hwired : (s.removeConnectionInLoop i).Wired cfg := by
    refine h.wired.congr (fun l => ?_) rfl (fun _ => rfl) (fun _ => rfl) rfl
    by_cases hl : l = (s.conn i).loop
    · subst hl
      simp [System.removeConnectionInLoop, System.queueInLoop, System.setLoop]
    · simp [System.removeConnectionInLoop, System.queueInLoop, System.setLoop, Function.update_of_ne hl]
  generalize hs' : s.removeConnectionInLoop i = s' at hwired haccounted
  have hconn : s'.conn = s.conn ∧ s'.alive = s.alive := by rw [← hs']; exact ⟨rfl, rfl⟩
  have hconnections : s'.connections = Function.update s.connections (s.conn i).name none := by rw [← hs']; rfl
  have hloops : ∀ l, s'.loops l = { s.loops l with pending := (s.loops l).pending
      ++ if l = (s.conn i).loop then [.functor i .connectDestroyed] else [] } := by
    intro l
    rw [← hs']
    by_cases hl : l = (s.conn i).loop
    · rw [if_pos hl, hl]
      exact Function.update_self ..
    · rw [if_neg hl, List.append_nil]
      exact Function.update_of_ne hl ..
  refine ⟨hwired, haccounted, ?_, ?_⟩
  · refine h.agenda.congr (fun l => by rw [hloops]) (fun l => by rw [hloops]) (fun l => by rw [hloops])
      (fun j _ => by rw [hconn.1]) ?_ ?_
    · intro l j hmem hj hdisconnected hheld'
      rw [hconn.1, hconn.2]
      refine ⟨hj, hdisconnected, ?_⟩
      rw [Held, hconn.1, hconnections, Function.update_of_ne]
      · exact hheld'
      · intro heq
        rw [Held, heq, hheld, Option.some.injEq] at hheld'
        rw [← hheld'] at hmem
        exact hcalled l hmem
    · intro j hj hremoved _
      rw [Removed, hconn.1, hconn.2]
      exact ⟨hj, hremoved⟩
  · intro j hj
    rw [hconn.2] at hj
    -- what is queued is no message
    have hdestroyed : queuedMessages ((if (s.conn j).loop = (s.conn i).loop then
        [Task.functor i .connectDestroyed] else []).filterMap (Task.functorOf j)) = [] := by
      split_ifs
      · by_cases hij : i = j <;> simp [Task.functorOf, hij, queuedMessages]
      · rfl
    have hdoes : (s.view j).Does (s'.view j) (s.view j).output []
        ((if (s.conn j).loop = (s.conn i).loop then [Task.functor i .connectDestroyed] else []).filterMap
          (Task.functorOf j)) := by
      refine ⟨⟨hwired.coherent _, ?_⟩, rfl, ?_, ?_, ?_, ?_⟩
      · simp only [view, hconn.1]
        exact (h.view_wf hj).outputBuffer
      · simp only [output, view, hconn.1]
      · simp only [view, hconn.1, List.append_nil]
      · simp only [view, loopOf, hconn.1, hloops, List.filterMap_append]
      · simp only [view, loopOf, hconn.1, hloops]
    exact (h.intact j hj).silent hdoes ⟨rfl, rfl, rfl, rfl⟩ hdestroyed

/-- **A connection that nobody holds is destroyed.** -/
lemma Sound.destroy (h : s.Sound cfg []) (halive : s.alive i = true) (howned : ¬ s.Owned i) :
    (s.destroy i).Sound cfg [] := by
  have hi := h.accounted.born i halive
  have hremoved : s.Removed i := by
    by_contra hnot
    exact howned (h.accounted.owned hi hnot)
  have haccounted := h.accounted.destroy halive howned
  have hwired : (s.destroy i).Wired cfg := h.wired.destroy halive (h.accounted.off i hi hremoved).1
  generalize hs' : s.destroy i = s' at hwired haccounted
  have hconn : s'.conn = s.conn ∧ s'.connections = s.connections := by rw [← hs']; exact ⟨rfl, rfl⟩
  have halive' : ∀ j, j ≠ i → s'.alive j = s.alive j := by
    intro j hj
    rw [← hs']
    exact Function.update_of_ne hj ..
  have hloops : ∀ l, (s'.loops l).pending = (s.loops l).pending ∧ (s'.loops l).batch = (s.loops l).batch ∧
      (s'.loops l).phase = (s.loops l).phase ∧ (s'.loops l).todo = (s.loops l).todo := by
    intro l
    rw [← hs']
    by_cases hl : l = (s.conn i).loop
    · subst hl
      simp [System.destroy, System.setLoop, loopOf]
    · simp [System.destroy, System.setLoop, Function.update_of_ne hl]
  refine ⟨hwired, haccounted, ?_, ?_⟩
  · refine h.agenda.congr (fun l => (hloops l).2.2.2) (fun l => (hloops l).2.2.1) (fun l => (hloops l).2.1)
      (fun j _ => by rw [hconn.1]) ?_ ?_
    · intro l j hmem hj hstate hheld
      have hji : j ≠ i := by
        rintro rfl
        have hloop := (h.agenda.closing l j hmem).2.1
        refine howned (Or.inr (Or.inr (Or.inl ?_)))
        rwa [loopOf, hloop]
      rw [halive' j hji, hconn.1, Held, hconn.1, hconn.2]
      exact ⟨hj, hstate, hheld⟩
    · intro j hj hnot _
      have hji : j ≠ i := by
        rintro rfl
        exact hnot hremoved
      rw [halive' j hji, Removed, hconn.1]
      exact ⟨hj, hnot⟩
  · intro j hj
    have hji : j ≠ i := by
      rintro rfl
      rw [← hs'] at hj
      simp [System.destroy] at hj
    rw [halive' j hji] at hj
    refine (h.intact j hj).of_eq (hwired.coherent _) ?_ ?_ ?_
    · simp only [view, hconn.1]
    · simp only [view, hconn.1]
    · simp only [view, loopOf, hconn.1, (hloops _).1, (hloops _).2.1]

/-! ## What the threads call -/

lemma deref_eq_ok {u : Unit} : s.deref i = .ok u ↔ s.alive i = true := by
  rw [deref]
  split_ifs with halive <;> simp [halive]

/-- **A functor** is called, which has been taken from the batch, or from nowhere. -/
lemma Sound.runTask {t : Task} (h : s.Sound cfg [t]) (hl : (s.conn t.conn).loop = l)
    (hkind : ∀ i, t ≠ .removeConnectionInLoop i)
    (hphase : ∀ i, t = .functor i .connectDestroyed → (s.loops l).phase ≠ .dispatching)
    (htouches : ∀ i f, t = .functor i f → s.Removed i → ¬ (s.view i).TouchesBy f) {o : WriteOutcome}
    (hok : s.runTask mem l o t = .ok s') : s'.Sound cfg [] := by
  cases t with
  | connectEstablished i =>
      simp only [System.runTask, bind_eq_ok, pure_eq_ok, Except.ok.injEq] at hok
      obtain ⟨_, halive, c, hc, rfl⟩ := hok
      exact h.establish (deref_eq_ok.mp halive) hc
  | removeConnectionInLoop i => exact absurd rfl (hkind i)
  | functor i f =>
      simp only [System.runTask, bind_eq_ok] at hok
      obtain ⟨_, halive, hok⟩ := hok
      rw [deref_eq_ok] at halive
      have hwf := h.view_wf halive
      have hintact := h.intact i halive
      rw [inHand_functor] at hintact
      have hhand : ∀ f', f' ≠ .connectDestroyed → ∀ t ∈ [Task.functor i f'],
          ∃ f, t = .functor i f ∧ f ≠ .connectDestroyed := by
        intro f' hf' t ht
        rw [List.mem_singleton] at ht
        exact ⟨f', ht, hf'⟩
      split_ifs at hok with hforce
      · subst hforce
        have hdoes := hwf.does_nothing.log (.ran .forceCloseInLoop)
        have hord : (s.view i).Ordinary False ((s.view i).log (.ran .forceCloseInLoop)) :=
          .of_does hdoes ⟨rfl, .refl _ _, id, id⟩ (by simp) (by simp) (Or.inl rfl) fun _ _ => rfl
        have hlog := hintact.silent hdoes ⟨rfl, rfl, rfl, rfl⟩ rfl
        rw [forceCloseInLoopWith] at hok
        split_ifs at hok with hopen
        · exact h.close halive hl hord rfl hlog (hhand _ (by simp)) hok
        · rw [← Except.ok.inj hok]
          exact h.put_ordinary halive hord hlog (hhand _ (by simp)) (Or.inl rfl) False.elim
      · simp only [bind_eq_ok, pure_eq_ok, Except.ok.injEq] at hok
        obtain ⟨c, hc, rfl⟩ := hok
        by_cases hdestroyed : f = .connectDestroyed
        · subst hdestroyed
          refine h.connectDestroyed halive ?_ hc
          rw [loopOf, show (s.conn i).loop = l from hl]
          exact hphase i rfl
        · obtain ⟨-, -, -, -, hstate, -, -⟩ := runFunctor_ok hwf hforce hdestroyed hc
          exact h.put_ordinary halive (runFunctor_ordinary hwf hforce hdestroyed hc) (hintact.runFunctor hc)
            (hhand f hdestroyed) (Or.inl hstate) fun ht hremoved => htouches i f rfl hremoved ht

/-- **A callback of the channel of a connection.** -/
lemma Sound.callback (h : s.Sound cfg []) (halive : s.alive i = true) (hl : (s.conn i).loop = l)
    {readOutcome : ReadOutcome} {writeOutcome : WriteOutcome} {cb : Callback}
    (hok : s.callback mem l i readOutcome writeOutcome cb = .ok s') : s'.Sound cfg [] := by
  have hwf := h.view_wf halive
  have hintact := h.intact i halive
  cases cb with
  | close => exact h.close halive hl hwf.ordinary_self rfl hintact (by simp) hok
  | error =>
      rw [← Except.ok.inj hok]
      exact h
  | read =>
      obtain ⟨c, es, hord, hdoes, hes, hstate, hdone⟩ := handleReadWith_ordinary hwf hok
      have hread := hintact.silent hdoes (silent_of_isCallback hes) rfl
      rcases hdone with rfl | hclose
      · exact h.put_ordinary halive hord hread (by simp) (Or.inl hstate) False.elim
      · exact h.close halive hl hord hstate hread (by simp) hclose
  | write =>
      simp only [System.callback, bind_eq_ok, pure_eq_ok, Except.ok.injEq] at hok
      obtain ⟨c, hc, rfl⟩ := hok
      have hstate : c.state = (s.conn i).state := by
        rcases handleWrite_spec hwf hc with ⟨-, rfl⟩ | ⟨-, hstate, -⟩
        · rfl
        · exact hstate
      exact h.put_ordinary halive (handleWrite_ordinary hwf hc) (hintact.handleWrite hc) (by simp) (Or.inl hstate)
        False.elim

/-- **`m_closeCallback`**, which its thread has taken from what it has to call. -/
lemma Sound.closeCallback (h : s.Sound cfg []) (hheld : s.Held i) (hstate : (s.conn i).state = .kDisconnected)
    (hl : (s.conn i).loop = l) (hcalled : ∀ l, .closeCallback i ∉ (s.loops l).todo)
    (hok : s.closeCallback mem l i = .ok s') : s'.Sound cfg [] := by
  simp only [System.closeCallback, bind_eq_ok] at hok
  obtain ⟨_, halive, hok⟩ := hok
  rw [deref_eq_ok] at halive
  have hwf := h.view_wf halive
  have hdoes := hwf.does_nothing.log .closeCallback
  have hord : (s.view i).Ordinary False ((s.view i).log .closeCallback) :=
    .of_does hdoes ⟨rfl, .refl _ _, id, id⟩ (by simp) (by simp) (Or.inl rfl) fun _ _ => rfl
  have hput := h.put_ordinary halive hord ((h.intact i halive).silent hdoes ⟨rfl, rfl, rfl, rfl⟩ rfl) (by simp)
    (Or.inl rfl) False.elim
  rw [runInLoop, if_pos hl.symm, System.runTask, bind_eq_ok] at hok
  obtain ⟨-, -, hs'⟩ := hok
  rw [pure_eq_ok, Except.ok.injEq] at hs'
  rw [← hs']
  refine hput.removeConnectionInLoop (put_held.mpr hheld) ?_ fun l' => ?_
  · simpa [System.put, view] using hstate
  · rw [put_loops hdoes.pending_eq]
    exact hcalled l'

/-- A thread enters a call of a connection, or goes on in it. -/
lemma Sound.enter (h : s.Sound cfg []) {u : UserCall} (halive : s.alive u.conn = true) : (s.enter u).Sound cfg [] := by
  refine h.congr (h.wired.congr (fun _ => rfl) rfl (fun _ => rfl) (fun _ => rfl) rfl) rfl rfl rfl rfl rfl ?_
    h.accounted.running
  rintro i (husers | hmem)
  · exact h.accounted.users i (Or.inl husers)
  · simp only [System.enter, List.map_append, List.mem_append, List.map_singleton, List.mem_singleton] at hmem
    rcases hmem with hmem | rfl
    · exact h.accounted.users i (Or.inr hmem)
    · exact halive

/-- A thread leaves a call. -/
lemma Sound.leave (h : s.Sound cfg []) {u : UserCall} : (s.leave u).Sound cfg [] := by
  refine h.congr (h.wired.congr (fun _ => rfl) rfl (fun _ => rfl) (fun _ => rfl) rfl) rfl rfl rfl rfl rfl ?_
    h.accounted.running
  rintro i (husers | hmem)
  · exact h.accounted.users i (Or.inl husers)
  · exact h.accounted.users i (Or.inr (List.map_subset _ List.erase_subset hmem))

/-- The pool hands out a loop. -/
lemma Sound.setPool (h : s.Sound cfg []) {pool : EventLoopThreadPool} (hrunning : pool.Running cfg.numThreads) :
    Sound cfg { s with threadPool := pool } [] :=
  h.congr (h.wired.congr (fun _ => rfl) rfl (fun _ => rfl) (fun _ => rfl) rfl) rfl rfl rfl rfl rfl h.accounted.users
    hrunning

/-- **A new connection**, under a name that is not in the table. -/
lemma Sound.newConnection (h : s.Sound cfg []) (hname : s.connections s.connName = none) {fd : ℤ}
    (hfd : 0 ≤ fd ∧ s.fds fd = none) (hok : s.newConnection mem l fd = .ok s') : s'.Sound cfg [] := by
  obtain ⟨ioLoop, pool, hpool, hrunning, -⟩ := EventLoopThreadPool.getNextLoop_spec h.accounted.running
  simp only [System.newConnection, hpool, bind_ok, bind_eq_ok] at hok
  obtain ⟨inputBuffer, -, outputBuffer, hbuffer, hok⟩ := hok
  have h₁ := h.setPool hrunning
  have h₂ := h₁.construct hname hfd hbuffer ioLoop inputBuffer
  generalize hs₂ : System.construct { s with threadPool := pool } ioLoop fd inputBuffer outputBuffer = s₂ at h₂ hok
  have hnew : s₂.alive s.accepted = true ∧ (s₂.conn s.accepted).loop = ioLoop := by
    rw [← hs₂]
    simp [System.construct]
  rw [runInLoop] at hok
  split_ifs at hok with hl
  · subst hl
    exact h₂.runTask hnew.2 (by simp) (by simp) (by simp) hok
  · rw [← Except.ok.inj hok]
    exact h₂.queueInLoop hnew.1 hnew.2

/-! ## Steps -/

/-- The functor does not switch the reading of a connection whose channel has been removed. -/
def AllowedTask (s : System) : Option Task → Prop
  | some (.functor i f) => s.Removed i → ¬ (s.view i).TouchesBy f
  | _ => True

/-- The step constructs no connection under a name that is in the table, and switches the reading of no
connection whose channel has been removed. -/
def Allowed (s : System) : Action → Prop
  | .next l (some _) _ _ => (s.loops l).todo.head? = some .accept → s.connections s.connName = none
  | .nextFunctor l _ => s.AllowedTask (s.loops l).batch.head?
  | .call i m _ => s.Removed i → ¬ (s.view i).Touches m
  | _ => True

/-- In the step no thread sets the state of a connection that has been closed since the thread tested it. -/
def Timely (s : System) : Action → Prop
  | .store u => (s.view u.conn).IsOpen
  | _ => True

instance (s : System) : (t : Option Task) → Decidable (s.AllowedTask t)
  | some (.functor i f) => inferInstanceAs (Decidable (s.Removed i → ¬ (s.view i).TouchesBy f))
  | some (.connectEstablished _) | some (.removeConnectionInLoop _) | none => inferInstanceAs (Decidable True)

instance (s : System) : (a : Action) → Decidable (s.Allowed a)
  | .next l (some _) _ _ =>
      inferInstanceAs (Decidable ((s.loops l).todo.head? = some .accept → s.connections s.connName = none))
  | .nextFunctor l _ => inferInstanceAs (Decidable (s.AllowedTask (s.loops l).batch.head?))
  | .call i m _ => inferInstanceAs (Decidable (s.Removed i → ¬ (s.view i).Touches m))
  | .next _ none _ _ | .poll _ _ | .takePending _ | .endRound _ | .test _ _ _ | .store _ | .queue _
  | .retrieveInput _ _ | .setHighWaterMarkCallback _ _ | .keep _ | .drop _ | .destroy _ | .openFd _ | .closeFd _ =>
      inferInstanceAs (Decidable True)

instance (s : System) : (a : Action) → Decidable (s.Timely a)
  | .store u => inferInstanceAs (Decidable (s.view u.conn).IsOpen)
  | .poll _ _ | .next _ _ _ _ | .takePending _ | .nextFunctor _ _ | .endRound _ | .call _ _ _ | .test _ _ _
  | .queue _ | .retrieveInput _ _ | .setHighWaterMarkCallback _ _ | .keep _ | .drop _ | .destroy _ | .openFd _
  | .closeFd _ => inferInstanceAs (Decidable True)

/-- **A poll**: the channels reported are those of connections that are there. -/
lemma Sound.poll (h : s.Sound cfg []) {report : List (ℤ × Finset Event)} {r : Registry ChannelId}
    {active : List ChannelId} (hphase : (s.loops l).phase = .polling)
    (hok : (s.loops l).registry.poll report = .ok (r, active)) :
    (s.setLoop l { s.loops l with registry := r, phase := .dispatching, todo := active.map .channel }).Sound cfg
      [] := by
  have hcoh := h.wired.coherent l
  have hwired : (s.setLoop l { s.loops l with
      registry := r, phase := .dispatching, todo := active.map .channel }).Wired cfg := h.wired.poll hok rfl
  have hpolled : ∀ ch, Registry.Polled ((s.loops l).registry.heap ch) (r.heap ch) := by
    rcases Registry.poll_spec hcoh report with ⟨e, -, herror⟩ | ⟨r', active', hok', -, hpolled⟩
    · rw [hok] at herror
      simp at herror
    · rw [hok, Except.ok.injEq, Prod.mk.injEq] at hok'
      rw [hok'.1]
      exact hpolled
  generalize hs' : s.setLoop l { s.loops l with
    registry := r, phase := .dispatching, todo := active.map .channel } = s' at hwired
  have hself : s'.loops l = { s.loops l with
      registry := r, phase := .dispatching, todo := active.map .channel } := by
    rw [← hs']
    exact Function.update_self ..
  have hothers : ∀ l', l' ≠ l → s'.loops l' = s.loops l' := by
    intro l' hl'
    rw [← hs']
    exact Function.update_of_ne hl' ..
  have hconn : s'.conn = s.conn ∧ s'.alive = s.alive := by rw [← hs']; exact ⟨rfl, rfl⟩
  refine ⟨hwired, ?_, ?_, ?_⟩
  · rw [← hs']
    exact h.accounted.setLoop (fun t ht => h.accounted.placed l t ht) (fun _ => rfl) (by simp) (by simp)
      fun ch => ⟨(hpolled ch).index_eq, (hpolled ch).events_eq⟩
  · refine ⟨?_, ?_, ?_, ?_⟩
    · intro l' i hmem
      by_cases hl : l' = l
      · rw [hl, hself] at hmem
        simp at hmem
      · rw [hothers l' hl] at hmem
        rw [Held, hconn.1, hconn.2]
        have hclosing := h.agenda.closing l' i hmem
        rw [← hs']
        exact hclosing
    · intro l' i
      by_cases hl : l' = l
      · rw [hl, hself]
        refine (List.count_eq_zero_of_not_mem ?_).trans_le (Nat.zero_le 1)
        simp
      · rw [hothers l' hl]
        exact h.agenda.closing_once l' i
    · intro l' item hmem i hitem
      rw [Removed, hconn.1, hconn.2]
      by_cases hl : l' = l
      · rw [hl, hself] at hmem ⊢
        obtain ⟨ch, hch, rfl⟩ := List.mem_map.mp hmem
        cases ch with
        | conn j =>
            rw [Item.pointsTo, Option.some.injEq] at hitem
            subst hitem
            -- what the kernel reports is in the poller
            obtain ⟨hadded, -⟩ := Registry.poll_active hcoh hok hch
            have hon : s.On l j := by
              by_contra hoff
              rw [(h.wired.absent l j hoff).index_eq] at hadded
              simp at hadded
            refine ⟨hon.1, hon.2, h.accounted.not_removed (h.accounted.born j hon.1) ?_, rfl⟩
            rw [TcpConnection.ch, view_registry, view_channel, hon.2, hadded]
            simp
        | _ => simp [Item.pointsTo] at hitem
      · rw [hothers l' hl] at hmem ⊢
        exact h.agenda.active l' item hmem i hitem
    · intro l' hl'
      by_cases hl : l' = l
      · rw [hl, hself]
        exact h.agenda.batch_eq l (by simp [hphase])
      · rw [hothers l' hl] at hl' ⊢
        exact h.agenda.batch_eq l' hl'
  · intro i hi
    rw [hconn.2] at hi
    refine (h.intact i hi).of_eq (hwired.coherent _) ?_ ?_ ?_
    · simp only [view, hconn.1]
    · simp only [view, hconn.1]
    · by_cases hl : (s.conn i).loop = l
      · simp only [view, loopOf, hconn.1, hl, hself]
      · simp only [view, loopOf, hconn.1, hothers _ hl]

/-- **The thread of a loop calls what is next.** -/
lemma Sound.next (h : s.Sound cfg []) {item : Item} {rest : List Item} (htodo : (s.loops l).todo = item :: rest)
    {accepted : Option ℤ} {readOutcome : ReadOutcome} {writeOutcome : WriteOutcome}
    (hname : item = .accept → accepted ≠ none → s.connections s.connName = none)
    (hok : (s.setLoop l { s.loops l with todo := rest }).call mem l accepted readOutcome writeOutcome item = .ok s') :
    s'.Sound cfg [] := by
  have hmem : item ∈ (s.loops l).todo := by simp [htodo]
  have h₁ : (s.setLoop l { s.loops l with todo := rest }).Sound cfg [] := h.setTodo (h.agenda.pop htodo)
  have hrest : ∀ l', l' ≠ l → (s.setLoop l { s.loops l with todo := rest }).loops l' = s.loops l' := fun l' hl' =>
    Function.update_of_ne hl' ..
  have hself : (s.setLoop l { s.loops l with todo := rest }).loops l = { s.loops l with todo := rest } :=
    Function.update_self ..
  cases item with
  | channel ch =>
      simp only [System.call, bind_eq_ok, pure_eq_ok, Except.ok.injEq] at hok
      obtain ⟨-, -, rfl⟩ := hok
      refine h₁.setTodo (h₁.agenda.callFirst ?_ ?_)
      · intro i hi
        cases ch with
        | conn j => simp [callbacks] at hi
        | acceptor =>
            rw [callbacks] at hi
            split_ifs at hi <;> simp at hi
        | _ => simp [callbacks] at hi
      · intro item' hitem' i hi
        cases ch with
        | conn j =>
            obtain ⟨cb, -, rfl⟩ := List.mem_map.mp hitem'
            rw [Item.pointsTo, Option.some.injEq] at hi
            subst hi
            rw [hself]
            exact h.agenda.active l _ hmem j rfl
        | acceptor =>
            rw [callbacks] at hitem'
            split_ifs at hitem'
            · rw [List.mem_singleton] at hitem'
              simp [hitem', Item.pointsTo] at hi
            · simp at hitem'
        | _ => simp [callbacks] at hitem'
  | callback i cb =>
      simp only [System.call, bind_eq_ok] at hok
      obtain ⟨-, -, hok⟩ := hok
      obtain ⟨halive, hl, -⟩ := h.agenda.active l _ hmem i rfl
      exact h₁.callback halive hl hok
  | accept =>
      cases accepted with
      | none =>
          rw [← Except.ok.inj hok]
          exact h₁
      | some fd =>
          rw [System.call, acceptorHandleRead, guard_eq_ok] at hok
          exact h₁.newConnection (hname rfl (by simp)) hok.1 hok.2
  | closeCallback i =>
      obtain ⟨-, hl, hstate, hheld⟩ := h.agenda.closing l i hmem
      refine h₁.closeCallback hheld hstate hl (fun l' => ?_) hok
      by_cases hl' : l' = l
      · have honce := h.agenda.closing_once l i
        rw [htodo, List.count_cons_self] at honce
        rw [hl', hself, ← List.count_eq_zero]
        dsimp only
        omega
      · rw [hrest l' hl']
        exact fun hother => hl' ((h.agenda.closing l' i hother).2.1.symm.trans hl)

/-- **The swap in `doPendingFunctors`.** -/
lemma Sound.takePending (h : s.Sound cfg []) (hphase : (s.loops l).phase = .dispatching)
    (htodo : (s.loops l).todo = []) :
    (s.setLoop l { s.loops l with
      pending := [], batch := (s.loops l).pending, called := [], phase := .draining }).Sound cfg [] := by
  have hbatch := h.agenda.batch_eq l (by simp [hphase])
  have hwired : (s.setLoop l { s.loops l with
      pending := [], batch := (s.loops l).pending, called := [], phase := .draining }).Wired cfg := h.wired.setLoop rfl
  refine h.setLoop rfl ?_ ?_ (by simp) (by simp) ?_ ?_
  · intro t ht
    refine h.accounted.placed l t ?_
    simp only [Loop.tasks, List.nil_append, List.append_nil] at ht
    simp [Loop.tasks, ht]
  · intro t
    rw [hbatch]
    simp
  · refine h.agenda.setLoop htodo htodo fun hne => absurd rfl hne
  · rintro i ⟨halive, hl⟩
    refine (h.intact i halive).of_eq (hwired.coherent _) rfl rfl ?_
    simp only [view, loopOf, System.setLoop, hl, Function.update_self, hbatch]
    simp

/-- **The next functor of the batch.** -/
lemma Sound.startFunctor (h : s.Sound cfg []) {t : Task} {rest : List Task} (htodo : (s.loops l).todo = [])
    (hphase : (s.loops l).phase = .draining) (hbatch : (s.loops l).batch = t :: rest) :
    (s.setLoop l { s.loops l with batch := rest, called := (s.loops l).called ++ [t] }).Sound cfg [t] := by
  have hwired : (s.setLoop l { s.loops l with
      batch := rest, called := (s.loops l).called ++ [t] }).Wired cfg := h.wired.setLoop rfl
  have hplaced := h.accounted.placed l t (by simp [Loop.tasks, hbatch])
  refine h.setLoop rfl ?_ ?_ (by simp) (by simpa using hplaced.2.1) ?_ ?_
  · intro t' ht'
    refine h.accounted.placed l t' ?_
    simp only [Loop.tasks, List.mem_append, List.mem_singleton] at ht'
    simp only [Loop.tasks, hbatch, List.mem_append, List.mem_cons]
    tauto
  · intro t'
    have hcons : (t :: rest).count t' = [t].count t' + rest.count t' := by
      rw [← List.singleton_append, List.count_append]
    rw [hbatch]
    simp only [List.count_append, List.count_nil, hcons]
    omega
  · exact h.agenda.setLoop htodo htodo fun hne => absurd hphase hne
  · rintro i ⟨halive, hl⟩
    have hold := h.intact i halive
    cases hf : Task.functorOf i t with
    | none =>
        have hhand : inHand i [t] = [] := by simp [inHand, hf]
        rw [hhand]
        refine hold.of_eq (hwired.coherent _) rfl rfl ?_
        simp only [view, loopOf, System.setLoop, hl, Function.update_self, hbatch, List.filterMap_cons, hf]
    | some f =>
        have hhand : inHand i [t] = queuedMessages [f] := by simp [inHand, hf]
        have hview : (s.view i).functors.batch = f :: rest.filterMap (Task.functorOf i) := by
          simp only [view, loopOf, hl, hbatch, List.filterMap_cons, hf]
        rw [hhand]
        refine (hold.startFunctor hview).of_eq (hwired.coherent _) rfl rfl ?_
        simp only [TcpConnection.startFunctor, BatchQueue.start, view, loopOf, System.setLoop, hl,
          Function.update_self]

/-- The user copies or lets go a `shared_ptr` to a connection. -/
lemma Sound.setUsers (h : s.Sound cfg []) {n : ℕ} (hn : 0 < n → s.alive i = true) :
    ({ s with users := Function.update s.users i n } : System).Sound cfg [] := by
  refine h.congr (h.wired.congr (fun _ => rfl) rfl (fun _ => rfl) (fun _ => rfl) rfl) rfl rfl rfl rfl rfl ?_
    h.accounted.running
  rintro j (hj | hj)
  · dsimp only at hj
    by_cases hji : j = i
    · rw [hji, Function.update_self] at hj
      rw [hji]
      exact hn hj
    · rw [Function.update_of_ne hji] at hj
      exact h.accounted.users j (Or.inl hj)
  · exact h.accounted.users j (Or.inr hj)

/-- The loop runs the functor that is next. -/
lemma Sound.runFunctor (h : s.Sound cfg []) {t : Task} {rest : List Task} {outcome : WriteOutcome}
    (htodo : (s.loops l).todo = []) (hphase : (s.loops l).phase = .draining) (hbatch : (s.loops l).batch = t :: rest)
    (hallowed : s.AllowedTask (some t))
    (hok : (s.setLoop l { s.loops l with batch := rest, called := (s.loops l).called ++ [t] }).runTask mem l outcome t
      = .ok s') : s'.Sound cfg [] := by
  obtain ⟨-, hl, hkind⟩ := h.accounted.placed l t (by simp [Loop.tasks, hbatch])
  have hself : (s.setLoop l { s.loops l with batch := rest, called := (s.loops l).called ++ [t] }).loops l
      = { s.loops l with batch := rest, called := (s.loops l).called ++ [t] } := Function.update_self ..
  refine (h.startFunctor htodo hphase hbatch).runTask hl hkind ?_ ?_ hok
  · intro i _
    rw [hself]
    simp [hphase]
  · -- a functor that touches the channel of a removed connection is not allowed
    rintro i f rfl hremoved
    have hloop : (s.conn i).loop = l := hl
    have hch : ((s.setLoop l { s.loops l with
        batch := rest, called := (s.loops l).called ++ [.functor i f] }).view i).ch = (s.view i).ch := by
      simp only [TcpConnection.ch, view, loopOf, System.setLoop, hloop, Function.update_self]
    have hreading : ((s.setLoop l { s.loops l with
        batch := rest, called := (s.loops l).called ++ [.functor i f] }).view i).reading = (s.view i).reading := rfl
    have hnot := hallowed hremoved
    cases f <;> simp only [TouchesBy, Touches, hch, hreading] at hnot ⊢ <;> exact hnot

/-- Another thread stores the state it has tested for, in time. -/
lemma Sound.store (h : s.Sound cfg []) {u : UserCall} (hmem : u ∈ s.calls) (htimely : s.Timely (.store u)) :
    (((s.leave u).enter { u with stored := true }).put u.conn ((s.view u.conn).sets u.function)).Sound cfg [] := by
  have halive := h.accounted.alive_of_call hmem
  have h₁ : ((s.leave u).enter { u with stored := true }).Sound cfg [] := h.leave.enter halive
  have hconnecting : (s.conn u.conn).state ≠ .kConnecting := by
    intro hstate
    rcases htimely with hopen | hopen <;> simp [view, hstate] at hopen
  exact h₁.put_ordinary halive (sets_ordinary (h.view_wf halive) htimely u.function)
    ((h.intact u.conn halive).sets u.function) (by simp) (Or.inr hconnecting) False.elim

/-- Another thread queues its functor, and leaves the call. -/
lemma Sound.queue (h : s.Sound cfg []) {u : UserCall} (hmem : u ∈ s.calls) :
    ((s.leave u).put u.conn ((s.view u.conn).posts u.thread u.function)).Sound cfg [] := by
  have halive := h.accounted.alive_of_call hmem
  have h₁ : (s.leave u).Sound cfg [] := h.leave
  exact h₁.put_ordinary halive (posts_ordinary (h.view_wf halive) u.thread u.function)
    ((h.intact u.conn halive).posts u.thread u.function) (by simp) (Or.inl (posts_state ..)) False.elim

/-- **Every step that is allowed and in time keeps the server in order.** -/
lemma Sound.step (h : s.Sound cfg []) {a : Action} (hallowed : s.Allowed a) (htimely : s.Timely a)
    (hok : s.step mem a = .ok s') : s'.Sound cfg [] := by
  cases a with
  | poll l report =>
      simp only [System.step, guard_eq_ok, bind_eq_ok, pure_eq_ok, Except.ok.injEq, Prod.exists] at hok
      obtain ⟨⟨hphase, -⟩, events, -, -, -, r, active, hpoll, rfl⟩ := hok
      exact h.poll hphase hpoll
  | next l accepted readOutcome writeOutcome =>
      simp only [System.step] at hok
      split at hok
      · simp at hok
      · rename_i item rest htodo
        refine h.next htodo ?_ hok
        rintro rfl hsome
        cases accepted with
        | none => exact absurd rfl hsome
        | some fd => exact hallowed (by rw [htodo]; rfl)
  | takePending l =>
      simp only [System.step, guard_eq_ok, Except.ok.injEq] at hok
      obtain ⟨⟨hphase, htodo⟩, rfl⟩ := hok
      exact h.takePending hphase htodo
  | nextFunctor l outcome =>
      simp only [System.step, guard_eq_ok] at hok
      obtain ⟨⟨hphase, htodo⟩, hok⟩ := hok
      split at hok
      · simp at hok
      · rename_i t rest hbatch
        exact h.runFunctor htodo hphase hbatch (by rwa [Allowed, hbatch] at hallowed) hok
  | endRound l =>
      simp only [System.step, guard_eq_ok, Except.ok.injEq] at hok
      obtain ⟨⟨-, htodo, hbatch⟩, rfl⟩ := hok
      have hwired : (s.setLoop l { s.loops l with called := [], phase := .polling }).Wired cfg := h.wired.setLoop rfl
      refine h.setLoop rfl ?_ (fun _ => rfl) (by simp) (by simp) (h.agenda.setLoop htodo htodo fun _ => hbatch) ?_
      · intro t ht
        refine h.accounted.placed l t ?_
        simp only [Loop.tasks, List.append_nil] at ht
        exact List.mem_append_left _ ht
      · rintro i ⟨halive, hl⟩
        refine (h.intact i halive).of_eq (hwired.coherent _) rfl rfl ?_
        simp only [view, loopOf, System.setLoop, hl, Function.update_self]
  | call i m outcome =>
      simp only [System.step, guard_eq_ok, bind_eq_ok, pure_eq_ok, Except.ok.injEq] at hok
      obtain ⟨⟨halive, hconnecting⟩, c, hc, rfl⟩ := hok
      exact h.put_ordinary halive (call_loop_ordinary (h.view_wf halive) hc) ((h.intact i halive).call hc) (by simp)
        (Or.inr hconnecting) fun ht hremoved => hallowed hremoved ht
  | test i n m =>
      simp only [System.step, guard_eq_ok] at hok
      obtain ⟨⟨⟨halive, -⟩, -⟩, hok⟩ := hok
      split_ifs at hok
      · rw [← Except.ok.inj hok]
        exact h.enter halive
      · rwa [← Except.ok.inj hok]
  | store u =>
      simp only [System.step, guard_eq_ok, bind_eq_ok, pure_eq_ok, Except.ok.injEq] at hok
      obtain ⟨⟨hmem, -⟩, -, -, rfl⟩ := hok
      exact h.store hmem htimely
  | queue u =>
      simp only [System.step, guard_eq_ok, bind_eq_ok, pure_eq_ok, Except.ok.injEq] at hok
      obtain ⟨⟨hmem, -⟩, -, -, rfl⟩ := hok
      exact h.queue hmem
  | retrieveInput i len =>
      simp only [System.step, guard_eq_ok, bind_eq_ok, pure_eq_ok, Except.ok.injEq] at hok
      obtain ⟨⟨halive, -⟩, buffer, -, rfl⟩ := hok
      exact h.put_field halive rfl rfl rfl rfl rfl rfl
  | setHighWaterMarkCallback i highWaterMark =>
      simp only [System.step, guard_eq_ok, Except.ok.injEq] at hok
      obtain ⟨⟨halive, -⟩, rfl⟩ := hok
      exact h.put_field halive rfl rfl rfl rfl rfl rfl
  | keep i =>
      simp only [System.step, guard_eq_ok, Except.ok.injEq] at hok
      obtain ⟨⟨halive, -⟩, rfl⟩ := hok
      exact h.setUsers fun _ => halive
  | drop i =>
      simp only [System.step, Except.ok.injEq] at hok
      obtain rfl := hok
      exact h.setUsers fun hpos => h.accounted.users i (Or.inl (by omega))
  | destroy i =>
      simp only [System.step, guard_eq_ok, Except.ok.injEq] at hok
      obtain ⟨⟨halive, howned⟩, rfl⟩ := hok
      exact h.destroy halive howned
  | openFd fd =>
      simp only [System.step, guard_eq_ok, Except.ok.injEq] at hok
      obtain ⟨⟨-, hfree⟩, rfl⟩ := hok
      exact h.congr (h.wired.userFd (Or.inl hfree) (Or.inr rfl)) rfl rfl rfl rfl rfl h.accounted.users
        h.accounted.running
  | closeFd fd =>
      simp only [System.step, guard_eq_ok, Except.ok.injEq] at hok
      obtain ⟨huser, rfl⟩ := hok
      exact h.congr (h.wired.userFd (Or.inr huser) (Or.inl rfl)) rfl rfl rfl rfl rfl h.accounted.users
        h.accounted.running

end System

end Seenet
