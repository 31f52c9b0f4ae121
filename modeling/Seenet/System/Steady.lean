import Seenet.System.Safety

/-!
# What holds in every run

Some things hold whatever the users do, whatever the kernel reports, and however late a thread sets the state of a
connection.

* `Knows` — a loop has a pointer or a `shared_ptr` to a connection.
* `Steady` — a loop knows only connections of its own; no connection waits to write, as `sendInLoop` calls
  `enableWriting` for one only that waits to write already; and the output buffers are in order.
* **`Steady.step`** — every step leaves it so.
-/

namespace Seenet

open Channel

/-- The loop has a pointer to the connection, or a `shared_ptr`. -/
inductive Loop.Knows (loop : Loop) (i : ℕ) : Prop
  | map {fd : ℤ} (h : loop.registry.poller.channels fd = some (.conn i))
  | todo {item : Item} (hmem : item ∈ loop.todo) (h : item.pointsTo = some i ∨ item = .closeCallback i)
  | task {t : Task} (hmem : t ∈ loop.tasks) (h : t.conn = i)

/-- A loop that has nothing new. -/
lemma Loop.Knows.of_sub {loop loop' : Loop} {i : ℕ} (h : loop'.Knows i)
    (hmap : loop'.registry.poller.channels = loop.registry.poller.channels)
    (htodo : ∀ item ∈ loop'.todo, item ∈ loop.todo) (htasks : ∀ t ∈ loop'.tasks, t ∈ loop.tasks) : loop.Knows i := by
  cases h with
  | map hentry => exact .map (by rwa [← hmap])
  | todo hmem hitem => exact .todo (htodo _ hmem) hitem
  | task hmem heq => exact .task (htasks _ hmem) heq

namespace System

open TcpConnection

variable {cfg : Setting} {mem : Memory} {s s' : System} {l : LoopId} {i : ℕ} {a : Action}

/-- What holds in every run. -/
structure Steady (s : System) : Prop where
  born : ∀ i, s.alive i = true → i < s.accepted
  known : ∀ l i, (s.loops l).Knows i → i < s.accepted ∧ (s.conn i).loop = l
  unwriting : ∀ l i, ((s.loops l).registry.heap (.conn i)).isWriting = false
  outputBuffer : ∀ i < s.accepted, (s.conn i).outputBuffer.Wf

lemma steady_start (cfg : Setting) : cfg.start.Steady := by
  refine ⟨fun i hi => by simp [System.Setting.start] at hi, fun l i hi => ?_, fun l i => ?_,
    fun i hi => absurd hi (Nat.not_lt_zero i)⟩
  · cases hi with
    | map h =>
        obtain ⟨⟨halive, -⟩, -⟩ := (sound_start cfg).pointersGood.map l _ i h
        simp [System.Setting.start] at halive
    | todo hmem => simp [System.Setting.start] at hmem
    | task hmem => simp [System.Setting.start, Loop.tasks] at hmem
  · have hevents := ((wired_start cfg).absent l i fun hon => by simp [On, System.Setting.start] at hon).events_eq
    rw [← Bool.not_eq_true, Channel.isWriting_iff, hevents]
    exact Finset.notMem_empty _

/-- A connection does not wait to write. -/
lemma Steady.isWriting_eq (h : s.Steady) (i : ℕ) : (s.view i).isWriting = false := h.unwriting _ i

/-! ## Parts of a step -/

/-- The loops and the connections are as they were. -/
lemma Steady.of_eq (h : s.Steady) (hloops : s'.loops = s.loops) (haccepted : s'.accepted = s.accepted)
    (halive : ∀ i, s'.alive i = true → s.alive i = true) (hconn : s'.conn = s.conn) : s'.Steady := by
  refine ⟨fun i hi => haccepted ▸ h.born i (halive i hi), fun l i hi => ?_, fun l i => ?_, fun i hi => ?_⟩
  · rw [haccepted, hconn]
    exact h.known l i (hloops ▸ hi)
  · rw [hloops]
    exact h.unwriting l i
  · rw [hconn]
    exact h.outputBuffer i (haccepted ▸ hi)

lemma Steady.setLoop (h : s.Steady) {loop : Loop}
    (hknows : ∀ i, loop.Knows i → (s.loops l).Knows i ∨ i < s.accepted ∧ (s.conn i).loop = l)
    (hunwriting : ∀ i, (loop.registry.heap (.conn i)).isWriting = false) : (s.setLoop l loop).Steady := by
  have hself : (s.setLoop l loop).loops l = loop := Function.update_self ..
  have hother : ∀ l', l' ≠ l → (s.setLoop l loop).loops l' = s.loops l' := fun l' hl => Function.update_of_ne hl ..
  refine ⟨h.born, fun l' i hi => ?_, fun l' i => ?_, h.outputBuffer⟩
  · by_cases hl : l' = l
    · subst hl
      rw [hself] at hi
      exact (hknows i hi).elim (h.known l' i) id
    · rw [hother l' hl] at hi
      exact h.known l' i hi
  · by_cases hl : l' = l
    · rw [hl, hself]
      exact hunwriting i
    · rw [hother l' hl]
      exact h.unwriting l' i

/-- A new channel does not wait to write. -/
lemma Steady.unwriting_create (h : s.Steady) (l : LoopId) (i : ℕ) (fd : ℤ) (j : ℕ) :
    (Function.update (s.loops l).registry.heap (.conn i) (Channel.create fd) (.conn j)).isWriting = false := by
  by_cases hj : j = i
  · rw [hj, Function.update_self]
    rfl
  · rw [Function.update_of_ne (by simpa using hj)]
    exact h.unwriting l j

/-- The loop gets nothing new. -/
lemma Steady.setLoop_sub (h : s.Steady) {loop : Loop}
    (hmap : loop.registry.poller.channels = (s.loops l).registry.poller.channels)
    (htodo : ∀ item ∈ loop.todo, item ∈ (s.loops l).todo) (htasks : ∀ t ∈ loop.tasks, t ∈ (s.loops l).tasks)
    (hunwriting : ∀ i, (loop.registry.heap (.conn i)).isWriting = false) : (s.setLoop l loop).Steady :=
  h.setLoop (fun _ hi => Or.inl (hi.of_sub hmap htodo htasks)) hunwriting

/-- The thread of the loop takes what is next. -/
lemma Steady.pop (h : s.Steady) {item : Item} {rest : List Item} (htodo : (s.loops l).todo = item :: rest) :
    (s.setLoop l { s.loops l with todo := rest }).Steady := by
  refine h.setLoop_sub rfl (fun item' hitem => ?_) (fun _ ht => ht) (h.unwriting l)
  rw [htodo]
  exact List.mem_cons_of_mem _ hitem

/-- The thread of the loop takes the next functor of the batch. -/
lemma Steady.takeFunctor (h : s.Steady) {t : Task} {rest : List Task} (hbatch : (s.loops l).batch = t :: rest) :
    (s.setLoop l { s.loops l with batch := rest, called := (s.loops l).called ++ [t] }).Steady := by
  refine h.setLoop_sub rfl (fun _ hitem => hitem) (fun t' ht' => ?_) (h.unwriting l)
  simp only [Loop.tasks, hbatch, List.mem_append, List.mem_cons] at ht' ⊢
  tauto

lemma Steady.queueInLoop (h : s.Steady) {t : Task} (ht : t.conn < s.accepted ∧ (s.conn t.conn).loop = l) :
    (s.queueInLoop l t).Steady := by
  refine h.setLoop (fun i hi => ?_) (h.unwriting l)
  cases hi with
  | map hmap => exact Or.inl (.map hmap)
  | todo hmem hitem => exact Or.inl (.todo hmem hitem)
  | @task t' hmem heq =>
      subst heq
      simp only [Loop.tasks, List.mem_append, List.mem_singleton] at hmem
      rcases hmem with ((hmem | rfl) | hmem) | hmem
      · exact Or.inl (.task (by simp [Loop.tasks, hmem]) rfl)
      · exact Or.inr ht
      · exact Or.inl (.task (by simp [Loop.tasks, hmem]) rfl)
      · exact Or.inl (.task (by simp [Loop.tasks, hmem]) rfl)

/-- The thread of the loop has something to call for connections of the loop. -/
lemma Steady.callFirst (h : s.Steady) {items : List Item}
    (hitems : ∀ item ∈ items, ∀ i, item.pointsTo = some i ∨ item = .closeCallback i →
      i < s.accepted ∧ (s.conn i).loop = l) : (s.callFirst l items).Steady := by
  refine h.setLoop (fun j hj => ?_) (h.unwriting l)
  cases hj with
  | map hmap => exact Or.inl (.map hmap)
  | todo hmem hitem =>
      rcases List.mem_append.mp hmem with hmem | hmem
      · exact Or.inr (hitems _ hmem j hitem)
      · exact Or.inl (.todo hmem hitem)
  | task hmem heq => exact Or.inl (.task hmem heq)

/-- A function of a connection. -/
lemma Steady.put (h : s.Steady) (hi : i < s.accepted) {c : TcpConnection ChannelId} (hlocal : (s.view i).Local c) :
    (s.put i c).Steady := by
  have hset : (s.setLoop (s.conn i).loop { s.loopOf i with
      registry := c.registry, pending := (s.loopOf i).pending ++ (s.queuedBy i c).map (.functor i) }).Steady := by
    refine h.setLoop (fun j hj => ?_) fun j => ?_
    · cases hj with
      | map hmap =>
          rcases hlocal.alters.mapped _ _ hmap with heq | hmap
          · rw [view_channel, ChannelId.conn.injEq] at heq
            rw [heq]
            exact Or.inr ⟨hi, rfl⟩
          · exact Or.inl (.map hmap)
      | todo hmem hitem => exact Or.inl (.todo hmem hitem)
      | @task t hmem heq =>
          subst heq
          simp only [Loop.tasks, List.mem_append, List.mem_map] at hmem
          rcases hmem with ((hmem | ⟨f, -, rfl⟩) | hmem) | hmem
          · exact Or.inl (.task (List.mem_append_left _ (List.mem_append_left _ hmem)) rfl)
          · exact Or.inr ⟨hi, rfl⟩
          · exact Or.inl (.task (List.mem_append_left _ (List.mem_append_right _ hmem)) rfl)
          · exact Or.inl (.task (List.mem_append_right _ hmem) rfl)
    · by_cases hji : j = i
      · have hchannel : c.channel = .conn i := hlocal.channel_eq
        have hold := h.isWriting_eq i
        rw [hji, ← hchannel, ← Bool.not_eq_true]
        intro hwriting
        rw [hlocal.writing hwriting] at hold
        simp at hold
      · have hother := hlocal.alters.others (.conn j) (by simpa [view] using hji)
        rw [hother]
        exact h.unwriting _ j
  refine ⟨h.born, fun l j hj => ?_, hset.unwriting, fun j hj => ?_⟩
  · rw [(s.put_conn_const i c j).2.1]
    exact hset.known l j hj
  · by_cases hji : j = i
    · rw [hji]
      simpa [System.put] using hlocal.outputBuffer (h.outputBuffer i hi)
    · rw [put_conn_of_ne hji]
      exact h.outputBuffer j hj

lemma handleClose_steady (h : s.Steady) (hi : i < s.accepted) (hl : (s.conn i).loop = l) {c : TcpConnection ChannelId}
    (hlocal : (s.view i).Local c) (hok : s.handleClose l i c = .ok s') : s'.Steady := by
  rw [handleClose, bind_eq_ok] at hok
  obtain ⟨c', hclose, hs'⟩ := hok
  rw [← Except.ok.inj hs']
  refine (h.put hi (hlocal.trans (beginClose_frames hclose).toLocal)).callFirst fun item hmem j hj => ?_
  obtain rfl : j = i := by
    rw [List.mem_singleton] at hmem
    simpa [hmem, Item.pointsTo, eq_comm] using hj
  rw [(s.put_conn_const j c' j).2.1]
  exact ⟨hi, hl⟩

lemma removeConnectionInLoop_steady (h : s.Steady) (hi : i < s.accepted) : (s.removeConnectionInLoop i).Steady :=
  Steady.queueInLoop (s := { s with connections := Function.update s.connections (s.conn i).name none })
    (h.of_eq rfl rfl (fun _ hj => hj) rfl) ⟨hi, rfl⟩

lemma runTask_steady (h : s.Steady) {t : Task} {o : WriteOutcome} (ht : t.conn < s.accepted ∧ (s.conn t.conn).loop = l)
    (hok : s.runTask mem l o t = .ok s') : s'.Steady := by
  cases t with
  | connectEstablished i =>
      simp only [runTask, bind_eq_ok, pure_eq_ok, Except.ok.injEq] at hok
      obtain ⟨-, -, c, hc, rfl⟩ := hok
      exact h.put ht.1 (connectEstablished_frames hc).toLocal
  | removeConnectionInLoop i =>
      simp only [runTask, bind_eq_ok, pure_eq_ok, Except.ok.injEq] at hok
      obtain ⟨-, -, rfl⟩ := hok
      exact removeConnectionInLoop_steady h ht.1
  | functor i f =>
      simp only [runTask, bind_eq_ok] at hok
      obtain ⟨-, -, hok⟩ := hok
      split_ifs at hok with hforce
      · have hlog : (s.view i).Local ((s.view i).log (.ran .forceCloseInLoop)) := ⟨rfl, .refl _ _, id, id⟩
        rw [forceCloseInLoopWith] at hok
        split_ifs at hok
        · exact handleClose_steady h ht.1 ht.2 hlog hok
        · rw [← Except.ok.inj hok]
          exact h.put ht.1 hlog
      · simp only [bind_eq_ok, pure_eq_ok, Except.ok.injEq] at hok
        obtain ⟨c, hc, rfl⟩ := hok
        exact h.put ht.1 (runFunctor_frames hforce hc).toLocal

lemma callback_steady (h : s.Steady) {readOutcome : ReadOutcome} {writeOutcome : WriteOutcome} {cb : Callback}
    (hi : i < s.accepted) (hl : (s.conn i).loop = l)
    (hok : s.callback mem l i readOutcome writeOutcome cb = .ok s') : s'.Steady := by
  cases cb with
  | close => exact handleClose_steady h hi hl (.refl _) hok
  | error => rwa [← Except.ok.inj hok]
  | read =>
      obtain ⟨c, -, hlocal, hdone⟩ := handleReadWith_returns hok
      rcases hdone with rfl | hclose
      · exact h.put hi hlocal
      · exact handleClose_steady h hi hl hlocal hclose
  | write =>
      simp only [callback, bind_eq_ok, pure_eq_ok, Except.ok.injEq] at hok
      obtain ⟨c, hc, rfl⟩ := hok
      exact h.put hi (handleWrite_frames hc).toLocal

lemma runInLoop_steady (h : s.Steady) {t : LoopId} {task : Task}
    (ht : task.conn < s.accepted ∧ (s.conn task.conn).loop = l) (hok : s.runInLoop mem t l task = .ok s') :
    s'.Steady := by
  rw [runInLoop] at hok
  split_ifs at hok
  · exact runTask_steady h ht hok
  · rw [← Except.ok.inj hok]
    exact h.queueInLoop ht

lemma closeCallback_steady (h : s.Steady) (hi : i < s.accepted) (hok : s.closeCallback mem l i = .ok s') :
    s'.Steady := by
  simp only [closeCallback, bind_eq_ok] at hok
  obtain ⟨-, -, hok⟩ := hok
  have hlog : (s.view i).Local ((s.view i).log .closeCallback) := ⟨rfl, .refl _ _, id, id⟩
  have hself : Task.conn (.removeConnectionInLoop i) < s.accepted ∧
      ((s.put i ((s.view i).log .closeCallback)).conn (Task.conn (.removeConnectionInLoop i))).loop = (s.conn i).loop :=
    ⟨hi, (s.put_conn_const i _ i).2.1⟩
  exact runInLoop_steady (h.put hi hlog) hself hok

/-- A connection is constructed, which nobody knows yet. -/
lemma construct_steady (h : s.Steady) (ioLoop : LoopId) (fd : ℤ) {inputBuffer outputBuffer : Buffer}
    (hbuffer : outputBuffer.Wf) : (s.construct ioLoop fd inputBuffer outputBuffer).Steady := by
  have hset : (s.setLoop ioLoop { s.loops ioLoop with
      registry := (s.loops ioLoop).registry.setChannel (.conn s.accepted) (Channel.create fd) }).Steady :=
    h.setLoop_sub rfl (fun _ hitem => hitem) (fun _ ht => ht) (h.unwriting_create ioLoop s.accepted fd)
  have hold : ∀ j < s.accepted, (s.construct ioLoop fd inputBuffer outputBuffer).conn j = s.conn j := fun j hj =>
    Function.update_of_ne hj.ne ..
  refine ⟨fun j hj => ?_, fun l j hj => ?_, hset.unwriting, fun j hj => ?_⟩
  · by_cases hnew : j = s.accepted
    · exact hnew ▸ Nat.lt_succ_self _
    · simp only [construct, Function.update_of_ne hnew] at hj
      exact Nat.lt_succ_of_lt (h.born j hj)
  · obtain ⟨hlt, hloop⟩ := hset.known l j hj
    rw [hold j hlt]
    exact ⟨Nat.lt_succ_of_lt hlt, hloop⟩
  · rcases Nat.lt_succ_iff_lt_or_eq.mp hj with hlt | rfl
    · rw [hold j hlt]
      exact h.outputBuffer j hlt
    · simpa [construct] using hbuffer

lemma newConnection_steady (h : s.Steady) {t : LoopId} {fd : ℤ} (hok : s.newConnection mem t fd = .ok s') :
    s'.Steady := by
  simp only [newConnection, bind_eq_ok, Prod.exists] at hok
  obtain ⟨ioLoop, pool, -, inputBuffer, -, outputBuffer, hbuffer, hok⟩ := hok
  have hpool : Steady { s with threadPool := pool } := h.of_eq rfl rfl (fun _ hj => hj) rfl
  have hwf : outputBuffer.Wf := (Buffer.represents_of_create (by decide) hbuffer).wf
  refine runInLoop_steady (construct_steady hpool ioLoop fd hwf) ⟨Nat.lt_succ_self _, ?_⟩ hok
  simp [construct, Task.conn]

/-- The callbacks of the channel of a connection point to that connection, and the others to none. -/
lemma of_mem_callbacks {revents : Finset Event} {ch : ChannelId} {item : Item} (hmem : item ∈ callbacks revents ch)
    (hitem : item.pointsTo = some i ∨ item = .closeCallback i) : ch = .conn i := by
  cases ch with
  | conn j =>
      obtain ⟨cb, -, rfl⟩ := List.mem_map.mp hmem
      simpa [Item.pointsTo] using hitem
  | acceptor =>
      rw [callbacks] at hmem
      split_ifs at hmem
      · rw [List.mem_singleton] at hmem
        simp [hmem, Item.pointsTo] at hitem
      · simp at hmem
  | _ => simp [callbacks] at hmem

/-- **The thread of a loop calls what is next.** -/
lemma call_steady (h : s.Steady) {accepted : Option ℤ} {readOutcome : ReadOutcome} {writeOutcome : WriteOutcome}
    {item : Item}
    (hitem : ∀ i, item.pointsTo = some i ∨ item = .closeCallback i → i < s.accepted ∧ (s.conn i).loop = l)
    (hok : s.call mem l accepted readOutcome writeOutcome item = .ok s') : s'.Steady := by
  cases item with
  | channel ch =>
      simp only [System.call, bind_eq_ok, pure_eq_ok, Except.ok.injEq] at hok
      obtain ⟨-, -, rfl⟩ := hok
      refine h.callFirst fun item hmem j hj => hitem j (Or.inl ?_)
      rw [of_mem_callbacks hmem hj, Item.pointsTo]
  | callback i cb =>
      simp only [System.call, bind_eq_ok] at hok
      obtain ⟨-, -, hok⟩ := hok
      exact callback_steady h (hitem i (Or.inl rfl)).1 (hitem i (Or.inl rfl)).2 hok
  | accept =>
      cases accepted with
      | none => rwa [← Except.ok.inj hok]
      | some fd =>
          rw [System.call, acceptorHandleRead, guard_eq_ok] at hok
          exact newConnection_steady h hok.2
  | closeCallback i => exact closeCallback_steady h (hitem i (Or.inr rfl)).1 hok

/-! ## Steps -/

/-- **Every step** leaves it so. -/
lemma Steady.step (h : s.Steady) (hok : s.step mem a = .ok s') : s'.Steady := by
  cases a with
  | poll l report =>
      simp only [System.step, guard_eq_ok, bind_eq_ok, pure_eq_ok, Except.ok.injEq, Prod.exists] at hok
      obtain ⟨-, -, -, -, -, r, active, hpoll, rfl⟩ := hok
      obtain ⟨hmap, hactive, hevents⟩ := Registry.poll_mapped hpoll
      refine h.setLoop (fun i hi => Or.inl ?_) fun i => ?_
      · cases hi with
        | map hentry => exact .map (by rwa [← hmap])
        | todo hmem hitem =>
            obtain ⟨ch, hch, rfl⟩ := List.mem_map.mp hmem
            obtain ⟨fd, hentry⟩ := hactive ch hch
            cases ch with
            | conn j =>
                obtain rfl : j = i := by simpa [Item.pointsTo] using hitem
                exact .map hentry
            | _ => simp [Item.pointsTo] at hitem
        | task hmem heq => exact .task hmem heq
      · have hold := h.unwriting l i
        rwa [Channel.isWriting, ← hevents] at hold
  | next l accepted readOutcome writeOutcome =>
      simp only [System.step] at hok
      split at hok
      · simp at hok
      · rename_i item rest htodo
        refine call_steady (h.pop htodo) (fun i hitem => h.known l i (.todo ?_ hitem)) hok
        rw [htodo]
        exact List.mem_cons_self
  | takePending l =>
      simp only [System.step, guard_eq_ok, Except.ok.injEq] at hok
      rw [← hok.2]
      refine h.setLoop_sub rfl (fun _ hitem => hitem) (fun t ht => ?_) (h.unwriting l)
      simp only [Loop.tasks, List.nil_append, List.append_nil] at ht ⊢
      exact List.mem_append_left _ (List.mem_append_left _ ht)
  | nextFunctor l outcome =>
      simp only [System.step, guard_eq_ok] at hok
      obtain ⟨-, hok⟩ := hok
      split at hok
      · simp at hok
      · rename_i t rest hbatch
        have hmem : t ∈ (s.loops l).tasks := by simp [Loop.tasks, hbatch]
        exact runTask_steady (h.takeFunctor hbatch) (h.known l t.conn (.task hmem rfl)) hok
  | endRound l =>
      simp only [System.step, guard_eq_ok, Except.ok.injEq] at hok
      rw [← hok.2]
      refine h.setLoop_sub rfl (fun _ hitem => hitem) (fun t ht => ?_) (h.unwriting l)
      simp only [Loop.tasks, List.append_nil] at ht ⊢
      exact List.mem_append_left _ ht
  | call i m outcome =>
      simp only [System.step, guard_eq_ok, bind_eq_ok, pure_eq_ok, Except.ok.injEq] at hok
      obtain ⟨⟨halive, -⟩, c, hc, rfl⟩ := hok
      exact h.put (h.born i halive) (call_frames hc).toLocal
  | test i n m =>
      simp only [System.step, guard_eq_ok] at hok
      obtain ⟨-, hok⟩ := hok
      split_ifs at hok
      · rw [← Except.ok.inj hok]
        exact h.of_eq rfl rfl (fun _ hi => hi) rfl
      · rwa [← Except.ok.inj hok]
  | store u =>
      simp only [System.step, guard_eq_ok, bind_eq_ok, pure_eq_ok, Except.ok.injEq, deref_eq_ok] at hok
      obtain ⟨-, -, halive, rfl⟩ := hok
      have hleft : ((s.leave u).enter { u with stored := true }).Steady := h.of_eq rfl rfl (fun _ hi => hi) rfl
      exact hleft.put (h.born u.conn halive) (sets_frames (s.view u.conn) u.function).toLocal
  | queue u =>
      simp only [System.step, guard_eq_ok, bind_eq_ok, pure_eq_ok, Except.ok.injEq, deref_eq_ok] at hok
      obtain ⟨-, -, halive, rfl⟩ := hok
      have hleft : (s.leave u).Steady := h.of_eq rfl rfl (fun _ hi => hi) rfl
      exact hleft.put (h.born u.conn halive) (posts_frames (s.view u.conn) u.thread u.function).toLocal
  | retrieveInput i len =>
      simp only [System.step, guard_eq_ok, bind_eq_ok, pure_eq_ok, Except.ok.injEq] at hok
      obtain ⟨⟨halive, -⟩, buffer, -, rfl⟩ := hok
      exact h.put (h.born i halive) ⟨rfl, .refl _ _, id, id⟩
  | setHighWaterMarkCallback i highWaterMark =>
      simp only [System.step, guard_eq_ok, Except.ok.injEq] at hok
      obtain ⟨⟨halive, -⟩, rfl⟩ := hok
      exact h.put (h.born i halive) ⟨rfl, .refl _ _, id, id⟩
  | destroy i =>
      simp only [System.step, guard_eq_ok, Except.ok.injEq] at hok
      rw [← hok.2]
      have hset : (s.setLoop (s.conn i).loop { s.loopOf i with
          registry := (closeFd (s.loopOf i).registry (s.conn i).fd).setChannel (.conn i)
            (Channel.create (absentFd (.conn i))) }).Steady :=
        h.setLoop_sub rfl (fun _ hitem => hitem) (fun _ ht => ht) (h.unwriting_create _ i _)
      refine hset.of_eq rfl rfl (fun j hj => ?_) rfl
      by_cases hji : j = i
      · simp [destroy, hji] at hj
      · simpa [destroy, System.setLoop, Function.update_of_ne hji] using hj
  | drop i =>
      rw [← Except.ok.inj hok]
      exact h.of_eq rfl rfl (fun _ hj => hj) rfl
  | keep _ | openFd _ | closeFd _ =>
      simp only [System.step, guard_eq_ok, Except.ok.injEq] at hok
      rw [← hok.2]
      exact h.of_eq rfl rfl (fun _ hj => hj) rfl

end System

end Seenet
