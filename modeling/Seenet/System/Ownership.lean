import Seenet.System.Wiring

/-!
# Who holds a connection

A connection is held by the table until it is closed, then by the functor `connectDestroyed`, and after that
by nothing that matters to its loop.  So the channel of a connection that is in the poller belongs to a
connection that somebody holds, and the plain pointers of the loop are good.

* `Removed` — `connectDestroyed` has run.
* `Accounted` — the invariant: every connection accepted is in the table, or its `connectDestroyed` waits, or
  it has run, and only one of these; and what the threads have to call fits that.
* **`Accounted.put`** — what a function of a connection must do to keep it; `Accounted.construct`,
  `Accounted.removeConnectionInLoop`, `Accounted.destroy` — the steps from one place to the next.
-/

namespace Seenet

open Channel

/-- The connection that is reached through a plain pointer. -/
def Item.pointsTo : Item → Option ℕ
  | channel (.conn i) => some i
  | callback i _ => some i
  | _ => none

namespace System

variable {cfg : Setting} {s s' : System} {hand : List Task} {l : LoopId} {i j : ℕ}

/-- `connectDestroyed` of the connection has run. -/
def Removed (s : System) (i : ℕ) : Prop := .ran .connectDestroyed ∈ (s.conn i).trace

instance (s : System) (i : ℕ) : Decidable (s.Removed i) := inferInstanceAs (Decidable (_ ∈ _))

/-- What waits on the loop of a connection, with the functor in the hands of its thread. -/
def waiting (s : System) (i : ℕ) (hand : List Task) : List Task :=
  (s.loopOf i).pending ++ (s.loopOf i).batch ++ hand

/-- In how many places a connection is: the table, the functors that wait, and its own past. -/
def places (s : System) (hand : List Task) (i : ℕ) : ℕ :=
  (if s.Held i then 1 else 0) + (s.waiting i hand).count (.functor i .connectDestroyed)
    + (s.conn i).trace.count (.ran .connectDestroyed)

/-- Where the connections are. -/
structure Accounted (cfg : Setting) (s : System) (hand : List Task) : Prop where
  born : ∀ i, s.alive i = true → i < s.accepted
  entries : ∀ name i, s.connections name = some i → i < s.accepted ∧ (s.conn i).name = name
  placed : ∀ l, ∀ t ∈ (s.loops l).tasks,
    s.alive t.conn = true ∧ (s.conn t.conn).loop = l ∧ ∀ i, t ≠ .removeConnectionInLoop i
  one : ∀ i < s.accepted, s.places hand i = 1
  held : ∀ i < s.accepted, (s.conn i).state ≠ .kDisconnected → s.Held i
  off : ∀ i < s.accepted, s.Removed i → (s.view i).ch.index = .kNew ∧ (s.view i).ch.events = ∅
  dead : ∀ i < s.accepted, s.alive i = false → s.Removed i
  starting : ∀ i, .connectEstablished i ∈ s.waiting i hand → (s.conn i).state = .kConnecting
  starting_once : ∀ i, (s.waiting i hand).count (.connectEstablished i) ≤ 1
  users : ∀ i, s.Used i → s.alive i = true
  running : s.threadPool.Running cfg.numThreads

/-- What the threads have to call fits where the connections are. -/
structure Agenda (s : System) : Prop where
  closing : ∀ l i, .closeCallback i ∈ (s.loops l).todo →
    s.alive i = true ∧ (s.conn i).loop = l ∧ (s.conn i).state = .kDisconnected ∧ s.Held i
  closing_once : ∀ l i, (s.loops l).todo.count (.closeCallback i) ≤ 1
  active : ∀ l, ∀ item ∈ (s.loops l).todo, ∀ i, item.pointsTo = some i →
    s.alive i = true ∧ (s.conn i).loop = l ∧ ¬ s.Removed i ∧ (s.loops l).phase = .dispatching
  batch_eq : ∀ l, (s.loops l).phase ≠ .draining → (s.loops l).batch = []

/-! ## What the account says -/

/-- A connection that has not been removed is held. -/
lemma Accounted.owned (h : s.Accounted cfg []) (hi : i < s.accepted) (hremoved : ¬ s.Removed i) : s.Owned i := by
  by_cases hheld : s.Held i
  · exact Or.inl hheld
  · have hone := h.one i hi
    rw [places, if_neg hheld, List.count_eq_zero_of_not_mem hremoved, Nat.zero_add, Nat.add_zero] at hone
    have hmem : .functor i .connectDestroyed ∈ s.waiting i [] := by
      rw [← List.count_pos_iff, hone]
      exact Nat.one_pos
    refine Or.inr (Or.inl (List.mem_map.mpr ⟨.functor i .connectDestroyed, ?_, rfl⟩))
    rw [waiting, List.append_nil] at hmem
    exact List.mem_append_left _ hmem

/-- The channel of a connection that has been removed, or was never there, is not in the poller. -/
lemma Accounted.not_removed (h : s.Accounted cfg hand) (hi : i < s.accepted)
    (hindex : (s.view i).ch.index ≠ .kNew) : ¬ s.Removed i :=
  fun hremoved => hindex (h.off i hi hremoved).1

lemma Accounted.alive (h : s.Accounted cfg hand) (hi : i < s.accepted) (hremoved : ¬ s.Removed i) :
    s.alive i = true := by
  by_contra hdead
  exact hremoved (h.dead i hi (by simpa using hdead))

lemma Accounted.alive_of_held (h : s.Accounted cfg hand) (hheld : s.Held i) : s.alive i = true := by
  have hi := (h.entries _ i hheld).1
  refine h.alive hi fun hremoved => ?_
  have hone := h.one i hi
  have hpos : 0 < (s.conn i).trace.count (.ran .connectDestroyed) := List.count_pos_iff.mpr hremoved
  rw [places, if_pos hheld] at hone
  omega

/-- A connection is there while a thread is in a call of it. -/
lemma Accounted.alive_of_call (h : s.Accounted cfg hand) {u : UserCall} (hmem : u ∈ s.calls) :
    s.alive u.conn = true := h.users u.conn (Or.inr (List.mem_map_of_mem hmem))

/-! ## Changes of the agenda -/

/-- The agenda stays as it is, and what it needs still holds. -/
lemma Agenda.congr (h : s.Agenda) (htodo : ∀ l, (s'.loops l).todo = (s.loops l).todo)
    (hphase : ∀ l, (s'.loops l).phase = (s.loops l).phase) (hbatch : ∀ l, (s'.loops l).batch = (s.loops l).batch)
    (hloop : ∀ i, s.alive i = true → (s'.conn i).loop = (s.conn i).loop)
    (hclosing : ∀ l i, .closeCallback i ∈ (s.loops l).todo → s.alive i = true →
      (s.conn i).state = .kDisconnected → s.Held i →
        s'.alive i = true ∧ (s'.conn i).state = .kDisconnected ∧ s'.Held i)
    (hactive : ∀ i, s.alive i = true → ¬ s.Removed i → (s.loopOf i).phase = .dispatching →
      s'.alive i = true ∧ ¬ s'.Removed i) : s'.Agenda := by
  refine ⟨?_, ?_, ?_, ?_⟩
  · intro l i hmem
    rw [htodo] at hmem
    obtain ⟨halive, hl, hstate, hheld⟩ := h.closing l i hmem
    obtain ⟨halive', hstate', hheld'⟩ := hclosing l i hmem halive hstate hheld
    exact ⟨halive', (hloop i halive).trans hl, hstate', hheld'⟩
  · intro l i
    rw [htodo]
    exact h.closing_once l i
  · intro l item hmem i hitem
    rw [htodo] at hmem
    obtain ⟨halive, rfl, hremoved, hdispatching⟩ := h.active l item hmem i hitem
    obtain ⟨halive', hremoved'⟩ := hactive i halive hremoved hdispatching
    exact ⟨halive', hloop i halive, hremoved', by rw [hphase]; exact hdispatching⟩
  · intro l hl
    rw [hphase] at hl
    rw [hbatch]
    exact h.batch_eq l hl

/-- One loop changes that has nothing to call. -/
lemma Agenda.setLoop (h : s.Agenda) {loop : Loop} (htodo : (s.loops l).todo = []) (htodo' : loop.todo = [])
    (hbatch : loop.phase ≠ .draining → loop.batch = []) : (s.setLoop l loop).Agenda := by
  have hself : (s.setLoop l loop).loops l = loop := Function.update_self ..
  have hothers : ∀ l', l' ≠ l → (s.setLoop l loop).loops l' = s.loops l' := fun l' hl =>
    Function.update_of_ne hl ..
  have htodos : ∀ l', ((s.setLoop l loop).loops l').todo = (s.loops l').todo := by
    intro l'
    by_cases hl : l' = l
    · rw [hl, hself, htodo, htodo']
    · rw [hothers l' hl]
  refine ⟨?_, ?_, ?_, ?_⟩
  · intro l' i hmem
    rw [htodos] at hmem
    exact h.closing l' i hmem
  · intro l' i
    rw [htodos]
    exact h.closing_once l' i
  · intro l' item hmem i hitem
    rw [htodos] at hmem
    have hl : l' ≠ l := by
      rintro rfl
      simp [htodo] at hmem
    rw [hothers l' hl]
    exact h.active l' item hmem i hitem
  · intro l' hl'
    by_cases hl : l' = l
    · rw [hl, hself] at hl' ⊢
      exact hbatch hl'
    · rw [hothers l' hl] at hl' ⊢
      exact h.batch_eq l' hl'

/-- One loop has less to call. -/
lemma Agenda.pop (h : s.Agenda) {item : Item} {rest : List Item} (htodo : (s.loops l).todo = item :: rest) :
    (s.setLoop l { s.loops l with todo := rest }).Agenda := by
  have hsub : ∀ l', ((s.setLoop l { s.loops l with todo := rest }).loops l').todo.Sublist (s.loops l').todo := by
    intro l'
    by_cases hl : l' = l
    · subst hl
      simp only [System.setLoop, Function.update_self, htodo, List.sublist_cons_self]
    · simp only [System.setLoop, Function.update_of_ne hl, List.Sublist.refl]
  have hsame : ∀ l', ((s.setLoop l { s.loops l with todo := rest }).loops l').phase = (s.loops l').phase ∧
      ((s.setLoop l { s.loops l with todo := rest }).loops l').batch = (s.loops l').batch := by
    intro l'
    by_cases hl : l' = l
    · subst hl
      simp only [System.setLoop, Function.update_self, and_self]
    · simp only [System.setLoop, Function.update_of_ne hl, and_self]
  refine ⟨?_, ?_, ?_, ?_⟩
  · exact fun l' i hmem => h.closing l' i ((hsub l').subset hmem)
  · exact fun l' i => ((hsub l').count_le _).trans (h.closing_once l' i)
  · intro l' item' hmem i hitem
    rw [(hsame l').1]
    exact h.active l' item' ((hsub l').subset hmem) i hitem
  · intro l' hl'
    rw [(hsame l').1] at hl'
    rw [(hsame l').2]
    exact h.batch_eq l' hl'

/-- The thread of a loop has more to call. -/
lemma Agenda.callFirst (h : s.Agenda) {items : List Item}
    (hclosing : ∀ i, .closeCallback i ∈ items →
      items.count (.closeCallback i) ≤ 1 ∧ .closeCallback i ∉ (s.loops l).todo ∧ s.alive i = true ∧
        (s.conn i).loop = l ∧ (s.conn i).state = .kDisconnected ∧ s.Held i)
    (hactive : ∀ item ∈ items, ∀ i, item.pointsTo = some i →
      s.alive i = true ∧ (s.conn i).loop = l ∧ ¬ s.Removed i ∧ (s.loops l).phase = .dispatching) :
    (s.callFirst l items).Agenda := by
  have hself : (s.callFirst l items).loops l = { s.loops l with todo := items ++ (s.loops l).todo } :=
    Function.update_self ..
  have hothers : ∀ l', l' ≠ l → (s.callFirst l items).loops l' = s.loops l' := fun l' hl =>
    Function.update_of_ne hl ..
  refine ⟨?_, ?_, ?_, ?_⟩
  · intro l' i hmem
    by_cases hl : l' = l
    · rw [hl, hself] at hmem
      rw [hl]
      rcases List.mem_append.mp hmem with hmem | hmem
      · exact (hclosing i hmem).2.2
      · exact h.closing l i hmem
    · rw [hothers l' hl] at hmem
      exact h.closing l' i hmem
  · intro l' i
    by_cases hl : l' = l
    · rw [hl, hself]
      dsimp only
      rw [List.count_append]
      by_cases hmem : .closeCallback i ∈ items
      · obtain ⟨hle, hnot, -⟩ := hclosing i hmem
        rw [List.count_eq_zero_of_not_mem hnot]
        exact hle
      · rw [List.count_eq_zero_of_not_mem hmem, Nat.zero_add]
        exact h.closing_once l i
    · rw [hothers l' hl]
      exact h.closing_once l' i
  · intro l' item hmem i hitem
    by_cases hl : l' = l
    · rw [hl, hself] at hmem ⊢
      rcases List.mem_append.mp hmem with hmem | hmem
      · exact hactive item hmem i hitem
      · exact h.active l item hmem i hitem
    · rw [hothers l' hl] at hmem ⊢
      exact h.active l' item hmem i hitem
  · intro l' hl'
    by_cases hl : l' = l
    · rw [hl, hself] at hl' ⊢
      exact h.batch_eq l hl'
    · rw [hothers l' hl] at hl' ⊢
      exact h.batch_eq l' hl'

/-! ## Changes of one loop -/

/-- The connections, the table and the pool are the same, and as much waits as before. -/
lemma Accounted.congr {hand' : List Task} (h : s.Accounted cfg hand) (hconn : s'.conn = s.conn)
    (halive : s'.alive = s.alive) (haccepted : s'.accepted = s.accepted) (hconnections : s'.connections = s.connections)
    (husers : ∀ i, s'.Used i → s'.alive i = true) (hpool : s'.threadPool = s.threadPool)
    (hplaced : ∀ l, ∀ t ∈ (s'.loops l).tasks,
      s.alive t.conn = true ∧ (s.conn t.conn).loop = l ∧ ∀ i, t ≠ .removeConnectionInLoop i)
    (hwaiting : ∀ i t, t.conn = i → (s'.waiting i hand').count t = (s.waiting i hand).count t)
    (hch : ∀ i, (s'.view i).ch.index = (s.view i).ch.index ∧ (s'.view i).ch.events = (s.view i).ch.events) :
    s'.Accounted cfg hand' where
  born := by
    rw [halive, haccepted]
    exact h.born
  entries := by
    rw [hconnections, haccepted, hconn]
    exact h.entries
  placed l t ht := by
    rw [halive, hconn]
    exact hplaced l t ht
  one i hi := by
    rw [haccepted] at hi
    have hone := h.one i hi
    simp only [places, Held, hconn, hconnections] at hone ⊢
    rwa [hwaiting i (.functor i .connectDestroyed) rfl]
  held i hi hstate := by
    rw [haccepted] at hi
    rw [hconn] at hstate
    rw [Held, hconn, hconnections]
    exact h.held i hi hstate
  off i hi hremoved := by
    rw [haccepted] at hi
    rw [Removed, hconn] at hremoved
    rw [(hch i).1, (hch i).2]
    exact h.off i hi hremoved
  dead i hi hdead := by
    rw [haccepted] at hi
    rw [halive] at hdead
    rw [Removed, hconn]
    exact h.dead i hi hdead
  starting i hmem := by
    rw [← List.count_pos_iff, hwaiting i (.connectEstablished i) rfl, List.count_pos_iff] at hmem
    rw [hconn]
    exact h.starting i hmem
  starting_once i := by
    rw [hwaiting i (.connectEstablished i) rfl]
    exact h.starting_once i
  users := husers
  running := by
    rw [hpool]
    exact h.running

/-- The same, when one loop changes. -/
lemma Accounted.setLoop {hand' : List Task} (h : s.Accounted cfg hand) {loop : Loop}
    (hplaced : ∀ t ∈ loop.tasks,
      s.alive t.conn = true ∧ (s.conn t.conn).loop = l ∧ ∀ i, t ≠ .removeConnectionInLoop i)
    (hwaiting : ∀ t, (loop.pending ++ loop.batch ++ hand').count t
      = ((s.loops l).pending ++ (s.loops l).batch ++ hand).count t)
    (hhand : ∀ t ∈ hand, (s.conn t.conn).loop = l) (hhand' : ∀ t ∈ hand', (s.conn t.conn).loop = l)
    (hheap : ∀ ch, (loop.registry.heap ch).index = ((s.loops l).registry.heap ch).index ∧
      (loop.registry.heap ch).events = ((s.loops l).registry.heap ch).events) :
    (s.setLoop l loop).Accounted cfg hand' := by
  have hself : (s.setLoop l loop).loops l = loop := Function.update_self ..
  have hothers : ∀ l', l' ≠ l → (s.setLoop l loop).loops l' = s.loops l' := fun l' hl =>
    Function.update_of_ne hl ..
  refine h.congr rfl rfl rfl rfl h.users rfl ?_ ?_ ?_
  · intro l' t ht
    by_cases hl : l' = l
    · rw [hl, hself] at ht
      rw [hl]
      exact hplaced t ht
    · rw [hothers l' hl] at ht
      exact h.placed l' t ht
  · intro i t hti
    subst hti
    rw [waiting, waiting, loopOf, loopOf]
    by_cases hl : (s.conn t.conn).loop = l
    · rw [show (s.setLoop l loop).conn = s.conn from rfl, hl, hself]
      exact hwaiting t
    · have hnot : t ∉ hand := fun hmem => hl (hhand t hmem)
      have hnot' : t ∉ hand' := fun hmem => hl (hhand' t hmem)
      rw [show (s.setLoop l loop).conn = s.conn from rfl, hothers _ hl, List.count_append, List.count_append,
        List.count_append, List.count_append, List.count_eq_zero_of_not_mem hnot,
        List.count_eq_zero_of_not_mem hnot']
  · intro i
    rw [TcpConnection.ch, TcpConnection.ch]
    by_cases hl : (s.conn i).loop = l
    · simp only [view, loopOf, show (s.setLoop l loop).conn = s.conn from rfl, hl, hself]
      exact hheap (.conn i)
    · simp only [view, loopOf, show (s.setLoop l loop).conn = s.conn from rfl, hothers _ hl, and_self]

lemma setLoop_view_ch {loop : Loop} (hregistry : loop.registry = (s.loops l).registry) (i : ℕ) :
    ((s.setLoop l loop).view i).ch = (s.view i).ch := by
  rw [TcpConnection.ch, TcpConnection.ch]
  simp only [view, loopOf, show (s.setLoop l loop).conn = s.conn from rfl]
  by_cases hl : (s.conn i).loop = l
  · rw [hl, show (s.setLoop l loop).loops l = loop from Function.update_self .., hregistry]
  · rw [show (s.setLoop l loop).loops (s.conn i).loop = s.loops (s.conn i).loop from Function.update_of_ne hl ..]

/-! ## A function of a connection -/

section Put

variable {c : TcpConnection ChannelId} {fs : List Functor}

lemma queuedBy_eq (hpending : c.functors.pending = (s.view i).functors.pending ++ fs) : s.queuedBy i c = fs := by
  rw [queuedBy, hpending, List.drop_left]

lemma put_loopOf (s : System) (i : ℕ) (c : TcpConnection ChannelId) (j : ℕ) :
    (s.put i c).loopOf j = (s.put i c).loops (s.conn j).loop := by
  rw [loopOf, (s.put_conn_const i c j).2.1]

/-- A loop after a function of a connection: the channels, and more functors of that connection, if it is the
loop of the connection. -/
lemma put_loops (hpending : c.functors.pending = (s.view i).functors.pending ++ fs) (l : LoopId) :
    (s.put i c).loops l = { s.loops l with
      registry := if l = (s.conn i).loop then c.registry else (s.loops l).registry
      pending := (s.loops l).pending ++ if l = (s.conn i).loop then fs.map (.functor i) else [] } := by
  by_cases hl : l = (s.conn i).loop
  · subst hl
    rw [put_loops_self, queuedBy_eq hpending, if_pos rfl, if_pos rfl]
    rfl
  · rw [put_loops_of_ne hl, if_neg hl, if_neg hl, List.append_nil]

lemma put_held : (s.put i c).Held j ↔ s.Held j := by
  rw [Held, Held, (s.put_conn_const i c j).1]
  rfl

/-- What waits for another connection is as before. -/
lemma put_count (hpending : c.functors.pending = (s.view i).functors.pending ++ fs) {t : Task}
    (ht : t ∉ fs.map (.functor i)) (hand : List Task) :
    ((s.put i c).waiting j hand).count t = (s.waiting j hand).count t := by
  have hnone : (if (s.conn j).loop = (s.conn i).loop then fs.map (Task.functor i) else []).count t = 0 := by
    refine List.count_eq_zero_of_not_mem ?_
    split_ifs
    · exact ht
    · simp
  rw [waiting, waiting, put_loopOf, put_loops hpending]
  simp only [List.count_append, hnone, loopOf]
  omega

lemma connectDestroyed_not_mem (hfs : .connectDestroyed ∉ fs) :
    .functor j .connectDestroyed ∉ fs.map (Task.functor i) := by
  intro hmem
  obtain ⟨f, hf, heq⟩ := List.mem_map.mp hmem
  rw [Task.functor.injEq] at heq
  rw [heq.2] at hf
  exact hfs hf

lemma connectEstablished_not_mem : .connectEstablished j ∉ fs.map (Task.functor i) := by simp

/-- The channel of a connection after a function of one. -/
lemma put_ch (hlocal : (s.view i).Local c) :
    ((s.put i c).view i).ch = c.ch ∧ ∀ j, j ≠ i → ((s.put i c).view j).ch = (s.view j).ch := by
  have hchannel : c.channel = .conn i := hlocal.channel_eq
  constructor
  · rw [TcpConnection.ch, TcpConnection.ch, hchannel]
    simp only [view, loopOf, (s.put_conn_const i c i).2.1, put_loops_self]
  · intro j hj
    rw [TcpConnection.ch, TcpConnection.ch]
    simp only [view, loopOf, (s.put_conn_const i c j).2.1]
    by_cases hl : (s.conn j).loop = (s.conn i).loop
    · rw [hl, put_loops_self]
      exact hlocal.alters.others (.conn j) (by simpa [view] using hj)
    · rw [put_loops_of_ne hl]

/-- **A function of a connection keeps the account**, if it queues no `connectDestroyed`, closes only what is in
the table, and leaves a connection that has been removed alone. -/
lemma Accounted.put (h : s.Accounted cfg hand) (halive : s.alive i = true)
    (hpending : c.functors.pending = (s.view i).functors.pending ++ fs) (hfs : .connectDestroyed ∉ fs)
    (hlocal : (s.view i).Local c) (hhand : ∀ t ∈ hand, t.conn = i)
    (hone : c.trace.count (.ran .connectDestroyed)
      = (s.conn i).trace.count (.ran .connectDestroyed) + hand.count (.functor i .connectDestroyed))
    (hstate : c.state ≠ .kDisconnected → s.Held i)
    (hoff : .ran .connectDestroyed ∈ c.trace → c.ch.index = .kNew ∧ c.ch.events = ∅)
    (hstarting : c.state = (s.conn i).state ∨ .connectEstablished i ∉ s.waiting i []) :
    (s.put i c).Accounted cfg [] := by
  have hi := h.born i halive
  have hconst := s.put_conn_const i c
  have hself : ((s.put i c).conn i).trace = c.trace ∧ ((s.put i c).conn i).state = c.state := by
    simp [System.put]
  have hcount : ∀ t, t.conn ≠ i → hand.count t = 0 := fun t ht =>
    List.count_eq_zero_of_not_mem fun hmem => ht (hhand t hmem)
  -- what waits, without what was in hand
  have hwaiting : ∀ (j : ℕ) (t : Task), t ∉ fs.map (Task.functor i) →
      ((s.put i c).waiting j []).count t + hand.count t = (s.waiting j hand).count t := by
    intro j t ht
    rw [put_count hpending ht]
    simp only [waiting, List.count_append, List.count_nil, Nat.add_zero]
  refine ⟨h.born, ?_, ?_, ?_, ?_, ?_, ?_, ?_, ?_, h.users, h.running⟩
  · intro name j hentry
    rw [(hconst j).1]
    exact h.entries name j hentry
  · intro l t ht
    rw [(hconst _).2.1]
    rw [put_loops hpending] at ht
    simp only [Loop.tasks, List.mem_append] at ht
    rcases ht with ((ht | ht) | ht) | ht
    · exact h.placed l t (by simp [Loop.tasks, ht])
    · split_ifs at ht with hl
      · obtain ⟨f, -, rfl⟩ := List.mem_map.mp ht
        exact ⟨halive, hl.symm, by simp⟩
      · simp at ht
    · exact h.placed l t (by simp [Loop.tasks, ht])
    · exact h.placed l t (by simp [Loop.tasks, ht])
  · intro j hj
    have hplaces := h.one j hj
    have hwait := hwaiting j (.functor j .connectDestroyed) (connectDestroyed_not_mem hfs)
    simp only [places, put_held] at hplaces ⊢
    by_cases hji : j = i
    · subst hji
      rw [hself.1, hone]
      omega
    · rw [put_conn_of_ne hji]
      rw [hcount _ (by simpa [Task.conn] using hji)] at hwait
      omega
  · intro j hj hne
    rw [put_held]
    by_cases hji : j = i
    · subst hji
      rw [hself.2] at hne
      exact hstate hne
    · rw [put_conn_of_ne hji] at hne
      exact h.held j hj hne
  · intro j hj hremoved
    by_cases hji : j = i
    · subst hji
      rw [Removed, hself.1] at hremoved
      rw [(put_ch hlocal).1]
      exact hoff hremoved
    · rw [Removed, put_conn_of_ne hji] at hremoved
      rw [(put_ch hlocal).2 j hji]
      exact h.off j hj hremoved
  · intro j hj hdead
    by_cases hji : j = i
    · rw [hji] at hdead
      exact absurd (halive.symm.trans hdead) (by simp)
    · rw [Removed, put_conn_of_ne hji]
      exact h.dead j hj hdead
  · intro j hmem
    have hold : .connectEstablished j ∈ s.waiting j hand := by
      have hwait := hwaiting j (.connectEstablished j) connectEstablished_not_mem
      rw [← List.count_pos_iff] at hmem ⊢
      omega
    by_cases hji : j = i
    · subst hji
      rw [hself.2]
      rcases hstarting with hsame | hnot
      · rw [hsame]
        exact h.starting j hold
      · refine absurd ?_ hnot
        rw [← List.count_pos_iff] at hmem ⊢
        rwa [put_count hpending connectEstablished_not_mem] at hmem
    · rw [put_conn_of_ne hji]
      exact h.starting j hold
  · intro j
    have hwait := hwaiting j (.connectEstablished j) connectEstablished_not_mem
    have hle := h.starting_once j
    omega

end Put

/-! ## From one place to the next -/

/-- The functor in hand is queued on the loop of its connection. -/
lemma Accounted.queueInLoop {t : Task} (h : s.Accounted cfg [t]) (halive : s.alive t.conn = true)
    (hl : (s.conn t.conn).loop = l) (ht : ∀ i, t ≠ .removeConnectionInLoop i) :
    (s.queueInLoop l t).Accounted cfg [] := by
  refine h.setLoop ?_ ?_ (by simpa using hl) (by simp) fun ch => ⟨rfl, rfl⟩
  · intro t' ht'
    simp only [Loop.tasks, List.mem_append, List.mem_singleton] at ht'
    rcases ht' with ((ht' | rfl) | ht') | ht'
    · exact h.placed l t' (by simp [Loop.tasks, ht'])
    · exact ⟨halive, hl, ht⟩
    · exact h.placed l t' (by simp [Loop.tasks, ht'])
    · exact h.placed l t' (by simp [Loop.tasks, ht'])
  · intro t'
    simp only [List.count_append, List.count_nil]
    omega

/-- **A connection is constructed** under a name that is not in the table. -/
lemma Accounted.construct (h : s.Accounted cfg []) (hname : s.connections s.connName = none) (ioLoop : LoopId)
    (fd : ℤ) (inputBuffer outputBuffer : Buffer) :
    (s.construct ioLoop fd inputBuffer outputBuffer).Accounted cfg [.connectEstablished s.accepted] := by
  generalize hs' : s.construct ioLoop fd inputBuffer outputBuffer = s'
  have hconn : ∀ j, j ≠ s.accepted → s'.conn j = s.conn j := by
    intro j hj
    rw [← hs']
    exact Function.update_of_ne hj ..
  have hself : (s'.conn s.accepted).name = s.connName ∧ (s'.conn s.accepted).state = .kConnecting ∧
      (s'.conn s.accepted).trace = [] := by
    rw [← hs']
    simp [System.construct]
  have haccepted : s'.accepted = s.accepted + 1 := by rw [← hs']; rfl
  have hconnections : s'.connections = Function.update s.connections s.connName (some s.accepted) := by
    rw [← hs']; rfl
  have halive : s'.alive = Function.update s.alive s.accepted true := by rw [← hs']; rfl
  have hloops : ∀ l, (s'.loops l).pending = (s.loops l).pending ∧ (s'.loops l).batch = (s.loops l).batch ∧
      (s'.loops l).called = (s.loops l).called ∧
      ∀ ch, ch ≠ .conn s.accepted → (s'.loops l).registry.heap ch = (s.loops l).registry.heap ch := by
    intro l
    rw [← hs']
    by_cases hl : l = ioLoop
    · subst hl
      simp only [System.construct, System.setLoop, Function.update_self, true_and]
      exact fun ch hch => Function.update_of_ne hch ..
    · simp only [System.construct, System.setLoop, Function.update_of_ne hl, implies_true, and_self]
  -- the tasks there are concern older connections
  have hold : ∀ l, ∀ t ∈ (s.loops l).tasks, t.conn ≠ s.accepted := fun l t ht =>
    (h.born _ (h.placed l t ht).1).ne
  have hwaiting : ∀ j, s'.waiting j [.connectEstablished s.accepted]
      = (s.loops (s'.conn j).loop).pending ++ (s.loops (s'.conn j).loop).batch ++ [.connectEstablished s.accepted] := by
    intro j
    rw [waiting, loopOf, (hloops _).1, (hloops _).2.1]
  have hfresh : ∀ l (t : Task), t.conn = s.accepted → ((s.loops l).pending ++ (s.loops l).batch).count t = 0 := by
    intro l t ht
    refine List.count_eq_zero_of_not_mem fun hmem => hold l t ?_ ht
    exact List.mem_append_left _ hmem
  have hheld : ∀ j, j ≠ s.accepted → (s'.Held j ↔ s.Held j) := by
    intro j hj
    rw [Held, Held, hconn j hj, hconnections]
    by_cases hjname : (s.conn j).name = s.connName
    · rw [hjname, Function.update_self, hname]
      exact iff_of_false (fun heq => hj (Option.some.inj heq).symm) (by simp)
    · rw [Function.update_of_ne hjname]
  have hlt : ∀ {j}, j < s'.accepted → j = s.accepted ∨ j < s.accepted := by omega
  refine ⟨?_, ?_, ?_, ?_, ?_, ?_, ?_, ?_, ?_, ?_, ?_⟩
  · intro j hj
    rw [halive] at hj
    by_cases heq : j = s.accepted
    · omega
    · rw [Function.update_of_ne heq] at hj
      have hj := h.born j hj
      omega
  · intro name j hentry
    rw [hconnections] at hentry
    by_cases heq : name = s.connName
    · rw [heq, Function.update_self, Option.some.injEq] at hentry
      rw [heq, ← hentry]
      exact ⟨by omega, hself.1⟩
    · rw [Function.update_of_ne heq] at hentry
      obtain ⟨hj, hjname⟩ := h.entries name j hentry
      rw [hconn j (by omega)]
      exact ⟨by omega, hjname⟩
  · intro l t ht
    simp only [Loop.tasks, (hloops l).1, (hloops l).2.1, (hloops l).2.2.1] at ht
    rw [hconn _ (hold l t ht), halive, Function.update_of_ne (hold l t ht)]
    exact h.placed l t ht
  · intro j hj
    rw [places, hwaiting, List.count_append]
    rcases hlt hj with rfl | hj
    · rw [if_pos, hfresh _ _ rfl, hself.2.2]
      · simp
      · rw [Held, hself.1, hconnections, Function.update_self]
    · have hone := h.one j hj
      rw [places, waiting, List.append_nil, loopOf] at hone
      rw [hconn j hj.ne]
      simp only [hheld j hj.ne]
      simpa using hone
  · intro j hj hstate
    rcases hlt hj with rfl | hj
    · rw [Held, hself.1, hconnections, Function.update_self]
    · rw [hconn j hj.ne] at hstate
      exact (hheld j hj.ne).mpr (h.held j hj hstate)
  · intro j hj hremoved
    rcases hlt hj with rfl | hj
    · rw [Removed, hself.2.2] at hremoved
      simp at hremoved
    · rw [Removed, hconn j hj.ne] at hremoved
      have hoff := h.off j hj hremoved
      simp only [TcpConnection.ch, view, loopOf, hconn j hj.ne] at hoff ⊢
      rw [(hloops _).2.2.2 _ (by simpa using hj.ne)]
      exact hoff
  · intro j hj hdead
    rw [halive] at hdead
    rcases hlt hj with rfl | hj
    · simp at hdead
    · rw [Function.update_of_ne hj.ne] at hdead
      rw [Removed, hconn j hj.ne]
      exact h.dead j hj hdead
  · intro j hmem
    by_cases heq : j = s.accepted
    · rw [heq, hself.2.1]
    · rw [hwaiting, List.mem_append, List.mem_singleton, Task.connectEstablished.injEq] at hmem
      rw [hconn j heq] at hmem ⊢
      refine h.starting j ?_
      rw [waiting, List.append_nil]
      exact hmem.resolve_right heq
  · intro j
    rw [hwaiting, List.count_append]
    by_cases heq : j = s.accepted
    · rw [heq, hfresh _ _ rfl]
      simp
    · have honce := h.starting_once j
      rw [waiting, List.append_nil, loopOf] at honce
      rw [hconn j heq]
      have hne : s.accepted ≠ j := fun hj => heq hj.symm
      simpa [hne] using honce
  · intro j hj
    have husers : s'.users = Function.update s.users s.accepted 0 := by rw [← hs']; rfl
    have hcalls : s'.calls = s.calls := by rw [← hs']; rfl
    rw [halive]
    by_cases heq : j = s.accepted
    · rw [heq, Function.update_self]
    · rw [Used, husers, hcalls, Function.update_of_ne heq] at hj
      rw [Function.update_of_ne heq]
      exact h.users j hj
  · rw [← hs']
    exact h.running

/-- **A connection that is closed leaves the table**, and its `connectDestroyed` is queued. -/
lemma Accounted.removeConnectionInLoop (h : s.Accounted cfg []) (hheld : s.Held i)
    (hstate : (s.conn i).state = .kDisconnected) : (s.removeConnectionInLoop i).Accounted cfg [] := by
  have halive := h.alive_of_held hheld
  generalize hs' : s.removeConnectionInLoop i = s'
  have hconnections : s'.connections = Function.update s.connections (s.conn i).name none := by rw [← hs']; rfl
  have hconn : s'.conn = s.conn := by rw [← hs']; rfl
  have hrest : s'.alive = s.alive ∧ s'.accepted = s.accepted ∧ s'.Used = s.Used ∧ s'.threadPool = s.threadPool := by
    rw [← hs']
    exact ⟨rfl, rfl, rfl, rfl⟩
  have hloops : ∀ l, s'.loops l = { s.loops l with pending := (s.loops l).pending
      ++ if l = (s.conn i).loop then [.functor i .connectDestroyed] else [] } := by
    intro l
    rw [← hs']
    by_cases hl : l = (s.conn i).loop
    · rw [if_pos hl, hl]
      exact Function.update_self ..
    · rw [if_neg hl, List.append_nil]
      exact Function.update_of_ne hl ..
  -- no two connections are in the table under one name
  have hheld' : ∀ j, s'.Held j ↔ s.Held j ∧ j ≠ i := by
    intro j
    rw [Held, Held, hconn, hconnections]
    by_cases hname : (s.conn j).name = (s.conn i).name
    · rw [hname, Function.update_self, hheld]
      refine iff_of_false (by simp) ?_
      rintro ⟨heq, hne⟩
      exact hne (Option.some.inj heq).symm
    · rw [Function.update_of_ne hname, iff_self_and]
      rintro - rfl
      exact hname rfl
  have hcount : ∀ j t, t ≠ .functor i .connectDestroyed →
      (s'.waiting j []).count t = (s.waiting j []).count t := by
    intro j t ht
    have hnone : (if (s.conn j).loop = (s.conn i).loop then [Task.functor i .connectDestroyed] else []).count t
        = 0 := by
      refine List.count_eq_zero_of_not_mem ?_
      split_ifs
      · simpa using ht
      · simp
    rw [waiting, waiting, loopOf, loopOf, hconn, hloops]
    simp only [List.count_append, hnone]
    omega
  have hch : ∀ j, (s'.view j).ch = (s.view j).ch := by
    intro j
    simp only [TcpConnection.ch, view, loopOf, hconn, hloops]
  refine ⟨?_, ?_, ?_, ?_, ?_, ?_, ?_, ?_, ?_, ?_, ?_⟩
  · rw [hrest.1, hrest.2.1]
    exact h.born
  · intro name j hentry
    rw [hconnections] at hentry
    rw [hrest.2.1, hconn]
    by_cases hname : name = (s.conn i).name
    · rw [hname, Function.update_self] at hentry
      simp at hentry
    · rw [Function.update_of_ne hname] at hentry
      exact h.entries name j hentry
  · intro l t ht
    rw [hrest.1, hconn]
    rw [hloops] at ht
    simp only [Loop.tasks, List.mem_append] at ht
    rcases ht with ((ht | ht) | ht) | ht
    · exact h.placed l t (by simp [Loop.tasks, ht])
    · split_ifs at ht with hl
      · rw [List.mem_singleton] at ht
        rw [ht]
        exact ⟨halive, hl.symm, by simp⟩
      · simp at ht
    · exact h.placed l t (by simp [Loop.tasks, ht])
    · exact h.placed l t (by simp [Loop.tasks, ht])
  · intro j hj
    rw [hrest.2.1] at hj
    have hone := h.one j hj
    simp only [places, hheld', hconn] at hone ⊢
    by_cases hji : j = i
    · subst hji
      have hqueued : (s'.waiting j []).count (.functor j .connectDestroyed)
          = (s.waiting j []).count (.functor j .connectDestroyed) + 1 := by
        rw [waiting, waiting, loopOf, loopOf, hconn, hloops, if_pos rfl]
        simp only [List.count_append, List.count_singleton_self]
        omega
      rw [hqueued]
      rw [if_pos hheld] at hone
      rw [if_neg (by simp)]
      omega
    · rw [hcount j _ (by simpa using hji)]
      simpa [hji] using hone
  · intro j hj hne
    rw [hrest.2.1] at hj
    rw [hconn] at hne
    refine (hheld' j).mpr ⟨h.held j hj hne, ?_⟩
    rintro rfl
    exact hne hstate
  · intro j hj hremoved
    rw [hrest.2.1] at hj
    rw [Removed, hconn] at hremoved
    rw [hch]
    exact h.off j hj hremoved
  · intro j hj hdead
    rw [hrest.2.1] at hj
    rw [hrest.1] at hdead
    rw [Removed, hconn]
    exact h.dead j hj hdead
  · intro j hmem
    rw [← List.count_pos_iff, hcount j _ (by simp), List.count_pos_iff] at hmem
    rw [hconn]
    exact h.starting j hmem
  · intro j
    rw [hcount j _ (by simp)]
    exact h.starting_once j
  · rw [hrest.2.2.1, hrest.1]
    exact h.users
  · rw [hrest.2.2.2]
    exact h.running

/-- **A connection that nobody holds is destroyed.** -/
lemma Accounted.destroy (h : s.Accounted cfg []) (halive : s.alive i = true) (howned : ¬ s.Owned i) :
    (s.destroy i).Accounted cfg [] := by
  have hi := h.born i halive
  have hremoved : s.Removed i := by
    by_contra hnot
    exact howned (h.owned hi hnot)
  obtain ⟨-, hnotask, -, hnouser⟩ : ¬ s.Held i ∧ i ∉ (s.loopOf i).tasks.map Task.conn ∧
      .closeCallback i ∉ (s.loopOf i).todo ∧ ¬ s.Used i := by simpa only [Owned, not_or] using howned
  generalize hs' : s.destroy i = s'
  have hconn : s'.conn = s.conn ∧ s'.connections = s.connections ∧ s'.accepted = s.accepted ∧
      s'.Used = s.Used ∧ s'.threadPool = s.threadPool := by
    rw [← hs']
    exact ⟨rfl, rfl, rfl, rfl, rfl⟩
  have halive' : s'.alive = Function.update s.alive i false := by rw [← hs']; rfl
  have hloops : ∀ l, (s'.loops l).pending = (s.loops l).pending ∧ (s'.loops l).batch = (s.loops l).batch ∧
      (s'.loops l).called = (s.loops l).called := by
    intro l
    rw [← hs']
    by_cases hl : l = (s.conn i).loop
    · subst hl
      simp [System.destroy, System.setLoop, loopOf]
    · simp [System.destroy, System.setLoop, Function.update_of_ne hl]
  have hwaiting : ∀ j, s'.waiting j [] = s.waiting j [] := by
    intro j
    rw [waiting, waiting, loopOf, loopOf, hconn.1, (hloops _).1, (hloops _).2.1]
  have hheld : ∀ j, s'.Held j ↔ s.Held j := by
    intro j
    rw [Held, Held, hconn.1, hconn.2.1]
  refine ⟨?_, ?_, ?_, ?_, ?_, ?_, ?_, ?_, ?_, ?_, ?_⟩
  · intro j hj
    rw [halive'] at hj
    rw [hconn.2.2.1]
    by_cases hji : j = i
    · rwa [hji]
    · rw [Function.update_of_ne hji] at hj
      exact h.born j hj
  · rw [hconn.2.1, hconn.2.2.1, hconn.1]
    exact h.entries
  · intro l t ht
    simp only [Loop.tasks, (hloops l).1, (hloops l).2.1, (hloops l).2.2] at ht
    obtain ⟨hlive, hl, hkind⟩ := h.placed l t ht
    have hne : t.conn ≠ i := by
      rintro rfl
      refine hnotask (List.mem_map.mpr ⟨t, ?_, rfl⟩)
      rw [loopOf, hl]
      exact ht
    rw [halive', Function.update_of_ne hne, hconn.1]
    exact ⟨hlive, hl, hkind⟩
  · intro j hj
    rw [hconn.2.2.1] at hj
    have hone := h.one j hj
    simp only [places] at hone ⊢
    simp only [hheld, hwaiting, hconn.1]
    exact hone
  · intro j hj hstate
    rw [hconn.2.2.1] at hj
    rw [hconn.1] at hstate
    exact (hheld j).mpr (h.held j hj hstate)
  · intro j hj hgone
    rw [hconn.2.2.1] at hj
    rw [Removed, hconn.1] at hgone
    have hoff := h.off j hj hgone
    rw [← hs']
    by_cases hji : j = i
    · subst hji
      simp [TcpConnection.ch, view, loopOf, System.destroy, System.setLoop, Registry.setChannel, Channel.create]
    · have hchannel : ChannelId.conn j ≠ .conn i := by simpa using hji
      by_cases hl : (s.conn j).loop = (s.conn i).loop
      · simpa [TcpConnection.ch, view, loopOf, System.destroy, System.setLoop, Registry.setChannel, closeFd, hl,
          Function.update_of_ne hchannel] using hoff
      · simpa [TcpConnection.ch, view, loopOf, System.destroy, System.setLoop, Function.update_of_ne hl] using hoff
  · intro j hj hdead
    rw [hconn.2.2.1] at hj
    rw [halive'] at hdead
    rw [Removed, hconn.1]
    by_cases hji : j = i
    · rwa [hji]
    · rw [Function.update_of_ne hji] at hdead
      exact h.dead j hj hdead
  · intro j hmem
    rw [hwaiting] at hmem
    rw [hconn.1]
    exact h.starting j hmem
  · intro j
    rw [hwaiting]
    exact h.starting_once j
  · intro j hj
    rw [hconn.2.2.2.1] at hj
    rw [halive']
    by_cases hji : j = i
    · rw [hji] at hj
      exact absurd hj hnouser
    · rw [Function.update_of_ne hji]
      exact h.users j hj
  · rw [hconn.2.2.2.2]
    exact h.running

end System

end Seenet
