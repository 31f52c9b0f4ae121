import Seenet.Lib.Fifo
import Seenet.TcpConnection.Steps

/-!
# The outgoing stream

The bytes the kernel has accepted, followed by the bytes in the output buffer, are the messages accepted
by `sendInLoop`, one behind the other.  This does not depend on the interest in writing, so in the runs
here anyone may switch it on and off (`Interference`).  Nor does it depend on the state in which another
thread's message is queued: between the test of `m_state` in `send` and `queueInLoop` the loop may close the
connection.

* `wire`, `sentMessages`, `ranMessages`, `acceptedMessages` — what the trace says about the stream.
* `Intact` — the law of the stream, with the place of every message on its way: sent, queued, in the hands
  of the loop, run.
* `sent`, `ran`, `taken` — the messages of a step, read off the state before it: those sent, those whose
  `sendInLoop` runs, and those of these that are neither given up nor come too late.
* **`Intact.step_grows`** — a step adds these messages to the trace, and no others.
* **`stream_intact`** — every run keeps the stream intact, and the messages of each thread in order.
-/

namespace Seenet

namespace TcpConnection

variable {ι : Type}

/-! ## What the trace says -/

/-- The bytes the kernel has accepted. -/
def wire (es : List Effect) : List UInt8 :=
  es.flatMap fun
    | .wrote data => data
    | _ => []

/-- The messages `send` was called with while the connection was connected, and their threads. -/
def sentMessages (es : List Effect) : List (Thread × List UInt8) :=
  es.filterMap fun
    | .send t message => some (t, message)
    | _ => none

/-- The messages whose `sendInLoop` ran. -/
def ranMessages (es : List Effect) : List (Thread × List UInt8) :=
  es.filterMap fun
    | .ran (.sendInLoop t message) => some (t, message)
    | _ => none

/-- The messages whose `sendInLoop` ran while the connection was not disconnected, without a fault. -/
def acceptedMessages (es : List Effect) : List (Thread × List UInt8) :=
  es.filterMap fun
    | .accepted t message => some (t, message)
    | _ => none

/-- The messages that wait among these functors. -/
def queuedMessages (fs : List Functor) : List (Thread × List UInt8) :=
  fs.filterMap fun
    | .sendInLoop t message => some (t, message)
    | _ => none

/-- The messages of one thread. -/
def ofThread (t : Thread) (ms : List (Thread × List UInt8)) : List (Thread × List UInt8) :=
  ms.filter fun m => m.1 = t

section Append

variable (es es' : List Effect) (fs fs' : List Functor) (t : Thread)

@[simp] lemma wire_append : wire (es ++ es') = wire es ++ wire es' := List.flatMap_append

@[simp] lemma sentMessages_append :
    sentMessages (es ++ es') = sentMessages es ++ sentMessages es' := List.filterMap_append

@[simp] lemma ranMessages_append :
    ranMessages (es ++ es') = ranMessages es ++ ranMessages es' := List.filterMap_append

@[simp] lemma acceptedMessages_append :
    acceptedMessages (es ++ es') = acceptedMessages es ++ acceptedMessages es' :=
  List.filterMap_append

@[simp] lemma queuedMessages_append :
    queuedMessages (fs ++ fs') = queuedMessages fs ++ queuedMessages fs' := List.filterMap_append

@[simp] lemma ofThread_append (ms ms' : List (Thread × List UInt8)) :
    ofThread t (ms ++ ms') = ofThread t ms ++ ofThread t ms' := List.filter_append ..

@[simp] lemma ofThread_nil : ofThread t [] = [] := rfl

@[simp] lemma queuedMessages_nil : queuedMessages [] = [] := rfl

lemma ofThread_cons_self (message : List UInt8) (ms : List (Thread × List UInt8)) :
    ofThread t ((t, message) :: ms) = (t, message) :: ofThread t ms := by simp [ofThread]

lemma ofThread_of_ne {u : Thread} (h : u ≠ t) (message : List UInt8) :
    ofThread t [(u, message)] = [] := by simp [ofThread, h]

end Append

/-- Effects that say nothing about the stream. -/
def Silent (es : List Effect) : Prop :=
  wire es = [] ∧ sentMessages es = [] ∧ ranMessages es = [] ∧ acceptedMessages es = []

/-- Callbacks say nothing about the stream. -/
lemma silent_of_isCallback {es : List Effect} (hes : ∀ e ∈ es, Effect.IsCallback e) :
    Silent es := by
  simp only [Silent, wire, sentMessages, ranMessages, acceptedMessages, List.flatMap_eq_nil_iff,
    List.filterMap_eq_nil_iff]
  refine ⟨?_, ?_, ?_, ?_⟩
  all_goals
    intro e he
    have hcb := hes e he
    cases e <;> first | rfl | exact absurd hcb id

/-! ## The law -/

/-- **The stream is intact.**  What the kernel accepted and what is buffered are the messages accepted, in
order; those are among the messages that ran; and of every thread the messages that ran, those in hand
and those queued are the ones it sent.  The loop's thread queues none. -/
structure Intact (c : TcpConnection ι) (hand : List (Thread × List UInt8)) : Prop where
  wf : c.Wf
  stream_eq : wire c.trace ++ c.output = (acceptedMessages c.trace).flatMap Prod.snd
  accepted_sublist : (acceptedMessages c.trace).Sublist (ranMessages c.trace)
  order : ∀ t, ofThread t (ranMessages c.trace)
      ++ ofThread t (hand ++ queuedMessages (c.functors.batch ++ c.functors.pending))
    = ofThread t (sentMessages c.trace)
  loop_queue : ofThread .loop (queuedMessages (c.functors.batch ++ c.functors.pending)) = []

variable {c c' : TcpConnection ι} {hand hand' : List (Thread × List UInt8)}

/-- The messages queued. -/
def queued (c : TcpConnection ι) : List (Thread × List UInt8) :=
  queuedMessages (c.functors.batch ++ c.functors.pending)

/-- **A part of a step**, and what it must add to the stream, to the messages accepted, and to the account
of each thread. -/
lemma Intact.does (h : c.Intact hand) {o : List UInt8} {es : List Effect} {fs : List Functor}
    (hdoes : c.Does c' o es fs)
    (hstream : wire es ++ o = c.output ++ (acceptedMessages es).flatMap Prod.snd)
    (haccepted : (acceptedMessages es).Sublist (ranMessages es))
    (horder : ∀ t, ofThread t (hand ++ c.queued) ++ ofThread t (sentMessages es)
      = ofThread t (ranMessages es) ++ ofThread t (hand' ++ (c.queued ++ queuedMessages fs)))
    (hloop : ofThread .loop (queuedMessages fs) = []) : c'.Intact hand' := by
  have hqueue : queuedMessages (c'.functors.batch ++ c'.functors.pending)
      = c.queued ++ queuedMessages fs := by
    rw [hdoes.batch_eq, hdoes.pending_eq, ← List.append_assoc, queuedMessages_append, queued]
  refine ⟨hdoes.wf, ?_, ?_, ?_, ?_⟩
  · rw [hdoes.trace_eq, hdoes.output_eq, wire_append, acceptedMessages_append, List.flatMap_append,
      List.append_assoc, hstream, ← List.append_assoc, h.stream_eq]
  · rw [hdoes.trace_eq, acceptedMessages_append, ranMessages_append]
    exact h.accepted_sublist.append haccepted
  · intro t
    rw [hdoes.trace_eq, ranMessages_append, sentMessages_append, hqueue,
      ofThread_append t (ranMessages c.trace), ofThread_append t (sentMessages c.trace),
      List.append_assoc, ← horder t, ← List.append_assoc]
    exact congrArg (· ++ ofThread t (sentMessages es)) (h.order t)
  · rw [hqueue, ofThread_append, hloop, List.append_nil]
    exact h.loop_queue

/-- A part of a step that does not touch the stream. -/
lemma Intact.silent (h : c.Intact hand) {es : List Effect} {fs : List Functor}
    (hdoes : c.Does c' c.output es fs) (hes : Silent es) (hfs : queuedMessages fs = []) :
    c'.Intact hand := by
  obtain ⟨hwire, hsent, hran, haccepted⟩ := hes
  refine h.does hdoes ?_ ?_ ?_ ?_
  · rw [hwire, haccepted, List.nil_append, List.flatMap_nil, List.append_nil]
  · rw [haccepted]
    exact List.nil_sublist _
  · intro t
    simp [hsent, hran, hfs]
  · simp [hfs]

lemma Intact.spares (h : c.Intact hand) (hs : c.Spares c') : c'.Intact hand := by
  obtain ⟨es, fs, hdoes, hes, hfs⟩ := hs.does
  refine h.silent hdoes (silent_of_isCallback hes) ?_
  rw [queuedMessages, List.filterMap_eq_nil_iff]
  intro f hf
  rw [hfs f hf]

/-- A callback in the queue is no message. -/
lemma queuedMessages_of_isCallback {fs : List Functor} (hfs : ∀ f ∈ fs, Functor.IsCallback f) :
    queuedMessages fs = [] := by
  rw [queuedMessages, List.filterMap_eq_nil_iff]
  intro f hf
  have hcb := hfs f hf
  cases f <;> first | rfl | exact absurd hcb id

/-! ## The messages of a step -/

/-- The message of a call of `send`. -/
def Call.messages (t : Thread) : Call → List (Thread × List UInt8)
  | .send message => [(t, message)]
  | .shutdown => []
  | .forceClose => []
  | .startRead => []
  | .stopRead => []

/-- `sendInLoop` sets `faultError`: it writes at once, and the write fails with an error of that kind. -/
def setsFault (c : TcpConnection ι) : WriteOutcome → Bool
  | .wrote _ => false
  | .error errno => !c.isWriting && decide (c.outputBuffer.readableBytes = 0) && faultError errno

/-- A message whose `sendInLoop` runs now is accepted: the connection is not disconnected, and there is no
fault. -/
def takes (c : TcpConnection ι) (o : WriteOutcome) : Bool :=
  decide (c.state ≠ .kDisconnected) && !c.setsFault o

lemma takes_of_closed {o : WriteOutcome} (h : c.state = .kDisconnected) : c.takes o = false := by
  simp [takes, h]

lemma takes_of_ne {o : WriteOutcome} (h : c.state ≠ .kDisconnected) : c.takes o = !c.setsFault o := by
  simp [takes, h]

lemma takes_eq (hstate : c'.state = c.state) (hch : c'.ch = c.ch) (hbuffer : c'.outputBuffer = c.outputBuffer)
    (o : WriteOutcome) : c'.takes o = c.takes o := by
  cases o <;> simp [takes, setsFault, isWriting, hstate, hch, hbuffer]

/-- The messages sent in a step. -/
def sent (c : TcpConnection ι) : Action → List (Thread × List UInt8)
  | .call t m _ => if c.state = .kConnected then m.messages t else []
  | .takePending => []
  | .nextFunctor _ => []
  | .handleRead _ => []
  | .handleWrite _ => []
  | .retrieveInput _ => []

/-- The messages whose `sendInLoop` runs in a step: what the loop's thread sends, and what is in the next
functor. -/
def ran (c : TcpConnection ι) : Action → List (Thread × List UInt8)
  | .call t m _ => if t = .loop ∧ c.state = .kConnected then m.messages t else []
  | .takePending => []
  | .nextFunctor _ => queuedMessages (c.functors.batch.take 1)
  | .handleRead _ => []
  | .handleWrite _ => []
  | .retrieveInput _ => []

/-- Those of them that are accepted. -/
def taken (c : TcpConnection ι) : Action → List (Thread × List UInt8)
  | .call t m o => if c.takes o then c.ran (.call t m o) else []
  | .takePending => []
  | .nextFunctor o => if c.takes o then c.ran (.nextFunctor o) else []
  | .handleRead _ => []
  | .handleWrite _ => []
  | .retrieveInput _ => []

/-- The trace has grown by these messages. -/
structure Grows (c c' : TcpConnection ι) (sent ran taken : List (Thread × List UInt8)) : Prop where
  sent_eq : sentMessages c'.trace = sentMessages c.trace ++ sent
  ran_eq : ranMessages c'.trace = ranMessages c.trace ++ ran
  taken_eq : acceptedMessages c'.trace = acceptedMessages c.trace ++ taken

lemma Grows.of_trace (es : List Effect) (htrace : c'.trace = c.trace ++ es) :
    c.Grows c' (sentMessages es) (ranMessages es) (acceptedMessages es) where
  sent_eq := by rw [htrace, sentMessages_append]
  ran_eq := by rw [htrace, ranMessages_append]
  taken_eq := by rw [htrace, acceptedMessages_append]

lemma Grows.of_trace_eq (htrace : c'.trace = c.trace) : c.Grows c' [] [] [] :=
  .of_trace [] (htrace.trans (List.append_nil _).symm)

lemma Grows.of_silent {es : List Effect} (htrace : c'.trace = c.trace ++ es) (hes : Silent es) :
    c.Grows c' [] [] [] := by
  obtain ⟨-, hsent, hran, haccepted⟩ := hes
  have h := Grows.of_trace es htrace
  rwa [hsent, hran, haccepted] at h

lemma Spares.grows (hs : c.Spares c') : c.Grows c' [] [] [] := by
  obtain ⟨es, fs, hdoes, hes, -⟩ := hs.does
  exact .of_silent hdoes.trace_eq (silent_of_isCallback hes)

/-! ## Messages on their way -/

/-- The loop's thread calls `send`: the message is in hand, ahead of nothing of its own. -/
lemma Intact.sendLoop (h : c.Intact []) (message : List UInt8) :
    (c.log (.send .loop message)).Intact [(.loop, message)] := by
  refine h.does (h.wf.does_nothing.log _) ?_ ?_ ?_ ?_
  · simp [wire, acceptedMessages]
  · simp [acceptedMessages]
  · intro t
    have hsent : sentMessages [.send .loop message] = [(.loop, message)] := rfl
    have hran : ranMessages [.send .loop message] = [] := rfl
    have hloop : ofThread .loop c.queued = [] := h.loop_queue
    rw [List.nil_append [Effect.send .loop message], hsent, hran]
    rcases eq_or_ne t .loop with rfl | hne
    · simp [hloop, ofThread_cons_self]
    · simp only [ofThread_append, ofThread_of_ne t hne.symm]
      simp
  · simp

/-- Another thread calls `send`: the message goes behind all others. -/
lemma Intact.sendOther (h : c.Intact []) {t : Thread} (ht : t ≠ .loop) (message : List UInt8) :
    ((c.log (.send t message)).queueInLoop (.sendInLoop t message)).Intact [] := by
  refine h.does ((h.wf.does_nothing.log _).queueInLoop _) ?_ ?_ ?_ ?_
  · simp [wire, acceptedMessages]
  · simp [acceptedMessages]
  · intro u
    have hsent : sentMessages [.send t message] = [(t, message)] := rfl
    have hran : ranMessages [.send t message] = [] := rfl
    have hqueued : queuedMessages [.sendInLoop t message] = [(t, message)] := rfl
    simp [hsent, hran, hqueued]
  · exact ofThread_of_ne _ ht message

/-- Another thread sets the state. -/
lemma Intact.sets (h : c.Intact hand) (m : Call) : (c.sets m).Intact hand := by
  have hset := h.silent (h.wf.does_nothing.setState .kDisconnecting) ⟨rfl, rfl, rfl, rfl⟩ rfl
  cases m with
  | shutdown => exact hset.silent (hset.wf.does_nothing.log .shutdown) ⟨rfl, rfl, rfl, rfl⟩ rfl
  | forceClose => exact hset
  | _ => exact h

/-- Another thread queues a functor. -/
lemma Intact.posts (h : c.Intact []) (n : ℕ) (m : Call) : (c.posts n m).Intact [] := by
  cases m with
  | send message => exact h.sendOther (by simp) message
  | _ => exact h.silent (h.wf.does_nothing.queueInLoop _) ⟨rfl, rfl, rfl, rfl⟩ rfl

lemma Intact.takeFunctors (h : c.Intact []) (hbatch : c.functors.batch = []) :
    c.takeFunctors.Intact [] := by
  have hqueue : c.takeFunctors.functors.batch ++ c.takeFunctors.functors.pending
      = c.functors.batch ++ c.functors.pending := by
    rw [TcpConnection.takeFunctors, BatchQueue.take, hbatch, List.append_nil, List.nil_append]
  refine ⟨⟨h.wf.coherent, h.wf.outputBuffer⟩, h.stream_eq, h.accepted_sublist, ?_, ?_⟩
  · rw [hqueue]
    exact h.order
  · rw [hqueue]
    exact h.loop_queue

/-- The next functor is taken from the batch; a message in it is in hand. -/
lemma Intact.startFunctor (h : c.Intact []) {f : Functor} {rest : List Functor}
    (hbatch : c.functors.batch = f :: rest) :
    (c.startFunctor f rest).Intact (queuedMessages [f]) := by
  have hqueue : queuedMessages (c.functors.batch ++ c.functors.pending)
      = queuedMessages [f] ++ queuedMessages (rest ++ c.functors.pending) := by
    rw [hbatch, ← queuedMessages_append]
    rfl
  have hloop := h.loop_queue
  rw [hqueue, ofThread_append, List.append_eq_nil_iff] at hloop
  refine ⟨⟨h.wf.coherent, h.wf.outputBuffer⟩, h.stream_eq, h.accepted_sublist, ?_, hloop.2⟩
  intro t
  have horder := h.order t
  rw [List.nil_append, hqueue] at horder
  exact horder

/-- What `sendInLoop` writes and keeps is what it accepts. -/
lemma Sends.stream_eq {t : Thread} {data kept : List UInt8} {o : WriteOutcome} {es : List Effect}
    (hs : c.Sends t data o kept es) :
    wire es ++ (c.output ++ kept) = c.output ++ (acceptedMessages es).flatMap Prod.snd := by
  cases hs with
  | busy => simp [wire, acceptedMessages]
  | direct hidle => simp [wire, acceptedMessages, hidle.2]
  | failed => simp [wire, acceptedMessages]
  | fault => simp [wire, acceptedMessages]

/-- What `sendInLoop` says about the message: it is accepted unless there is a fault. -/
lemma Sends.accepted_eq (hwf : c.Wf) {t : Thread} {data kept : List UInt8} {o : WriteOutcome}
    {es : List Effect} (hs : c.Sends t data o kept es) :
    acceptedMessages es = if c.setsFault o then [] else [(t, data)] := by
  cases hs with
  | busy hbusy =>
      have hnone : c.setsFault o = false := by
        cases o with
        | wrote n => rfl
        | error e =>
            rw [setsFault, Bool.and_eq_false_iff]
            refine Or.inl (Bool.eq_false_iff.mpr fun hidle => hbusy ((idle_iff hwf).mpr ?_))
            simpa using hidle
      simp [hnone, acceptedMessages]
  | direct => simp [setsFault, acceptedMessages]
  | failed hidle he => simp [setsFault, he, acceptedMessages]
  | fault hidle he =>
      have hready := (idle_iff hwf).mp hidle
      simp [setsFault, he, hready.1, hready.2, acceptedMessages]

variable [DecidableEq ι] {mem : Memory}

/-- **`sendInLoop` of the message in hand.** -/
lemma Intact.sendInLoop {t : Thread} {message : List UInt8} (h : c.Intact [(t, message)])
    {o : WriteOutcome} (hok : c.runFunctor mem (.sendInLoop t message) o = .ok c') :
    c'.Intact [] := by
  have hlog : c.Does (c.log (.ran (.sendInLoop t message))) c.output
      [.ran (.sendInLoop t message)] [] := h.wf.does_nothing.log _
  have hran : ranMessages [.ran (.sendInLoop t message)] = [(t, message)] := rfl
  have hsent : sentMessages [.ran (.sendInLoop t message)] = [] := rfl
  rcases sendInLoop_spec hlog.wf hok with ⟨-, rfl⟩ | ⟨-, -, -, kept, es, fs, hs, hfs, hdoes⟩
  · refine h.does hlog ?_ ?_ ?_ ?_
    · simp [wire, acceptedMessages]
    · simp [acceptedMessages]
    · intro u
      rw [hran, hsent, ofThread_append]
      simp
    · simp
  · have hqueued := queuedMessages_of_isCallback hfs
    have hrest : ranMessages es = [] ∧ sentMessages es = [] := by cases hs <;> exact ⟨rfl, rfl⟩
    have haccepted : (acceptedMessages es).Sublist [(t, message)] := by
      cases hs <;> simp [acceptedMessages]
    refine h.does (hlog.trans hdoes) ?_ ?_ ?_ ?_
    · exact hs.stream_eq
    · rw [acceptedMessages_append, ranMessages_append, hran, hrest.1]
      exact haccepted
    · intro u
      rw [ranMessages_append, sentMessages_append, hran, hsent, hrest.1, hrest.2,
        List.nil_append fs, hqueued, ofThread_append]
      simp
    · simp [hqueued]

/-- **`handleWrite`**: bytes go from the output buffer to the kernel. -/
lemma Intact.handleWrite (h : c.Intact []) {o : WriteOutcome} (hok : c.handleWrite o = .ok c') :
    c'.Intact [] := by
  rcases handleWrite_spec h.wf hok with ⟨-, rfl⟩ | ⟨-, -, left, es, fs, hdrains, hfs, hdoes, -⟩
  · exact h
  · have hqueued := queuedMessages_of_isCallback hfs
    have hrest : ranMessages es = [] ∧ sentMessages es = [] ∧ acceptedMessages es = [] := by
      cases hdrains <;> exact ⟨rfl, rfl, rfl⟩
    refine h.does hdoes ?_ ?_ ?_ ?_
    · rw [hrest.2.2]
      cases hdrains <;> simp [wire]
    · rw [hrest.2.2]
      exact List.nil_sublist _
    · intro u
      simp [hrest, hqueued]
    · simp [hqueued]

/-! ## Steps -/

/-- A functor is run; if it is a `sendInLoop`, its message is the one in hand. -/
lemma Intact.runFunctor {f : Functor} (h : c.Intact (queuedMessages [f])) {o : WriteOutcome}
    (hok : c.runFunctor mem f o = .ok c') : c'.Intact [] := by
  by_cases hsend : ∃ t message, f = .sendInLoop t message
  · obtain ⟨t, message, rfl⟩ := hsend
    exact Intact.sendInLoop h hok
  · have hother : ∀ t message, f ≠ .sendInLoop t message := fun t message heq =>
      hsend ⟨t, message, heq⟩
    have hnone : queuedMessages [f] = [] ∧ Silent [.ran f] := by
      cases f with
      | sendInLoop t message => exact absurd rfl (hother t message)
      | _ => exact ⟨rfl, rfl, rfl, rfl, rfl⟩
    rw [hnone.1] at h
    have hlog := h.silent (h.wf.does_nothing.log (.ran f)) hnone.2 rfl
    by_cases hshutdown : f = .shutdownInLoop
    · subst hshutdown
      rw [TcpConnection.runFunctor, Except.ok.injEq] at hok
      obtain ⟨hdoes, -, -⟩ := shutdownInLoop_spec hlog.wf
      rw [← hok]
      refine hlog.silent hdoes ?_ rfl
      split_ifs <;> exact ⟨rfl, rfl, rfl, rfl⟩
    · exact hlog.spares (runFunctor_spares h.wf hother hshutdown hok)

/-- A functor that is no `sendInLoop` is run at once, or queued. -/
lemma Intact.runInLoop (h : c.Intact []) {t : Thread} {f : Functor} {o : WriteOutcome}
    (hf : queuedMessages [f] = []) (hok : c.runInLoop mem t f o = .ok c') : c'.Intact [] := by
  rw [TcpConnection.runInLoop] at hok
  split_ifs at hok with ht
  · exact Intact.runFunctor (by rwa [hf]) hok
  · rw [Except.ok.injEq] at hok
    rw [← hok]
    exact h.silent (h.wf.does_nothing.queueInLoop f) ⟨rfl, rfl, rfl, rfl⟩ hf

lemma Intact.call (h : c.Intact []) {t : Thread} {m : Call} {o : WriteOutcome}
    (hok : c.call mem t o m = .ok c') : c'.Intact [] := by
  have hset : ∀ s, (c.setState s).Intact [] := fun s =>
    h.silent (h.wf.does_nothing.setState s) ⟨rfl, rfl, rfl, rfl⟩ rfl
  cases m with
  | send message =>
      simp only [TcpConnection.call] at hok
      split_ifs at hok with hstate
      · rw [TcpConnection.runInLoop] at hok
        split_ifs at hok with ht
        · subst ht
          exact Intact.runFunctor (h.sendLoop message) hok
        · rw [Except.ok.injEq] at hok
          rw [← hok]
          exact h.sendOther ht message
      · rw [Except.ok.injEq] at hok
        rwa [← hok]
  | shutdown =>
      simp only [TcpConnection.call] at hok
      split_ifs at hok with hstate
      · have hs := hset .kDisconnecting
        exact (hs.silent (hs.wf.does_nothing.log .shutdown) ⟨rfl, rfl, rfl, rfl⟩ rfl).runInLoop rfl hok
      · rw [Except.ok.injEq] at hok
        rwa [← hok]
  | forceClose =>
      simp only [TcpConnection.call] at hok
      split_ifs at hok with hstate
      · rw [Except.ok.injEq] at hok
        rw [← hok]
        have hs := hset .kDisconnecting
        exact hs.silent (hs.wf.does_nothing.queueInLoop _) ⟨rfl, rfl, rfl, rfl⟩ rfl
      · rw [Except.ok.injEq] at hok
        rwa [← hok]
  | startRead => exact h.runInLoop rfl hok
  | stopRead => exact h.runInLoop rfl hok

/-- **Every step keeps the stream intact.** -/
lemma Intact.step (h : c.Intact []) {a : Action} (hok : c.step mem a = .ok c') : c'.Intact [] := by
  cases a with
  | call t m o => exact h.call hok
  | takePending =>
      simp only [TcpConnection.step, guard_eq_ok, Except.ok.injEq] at hok
      obtain ⟨hbatch, rfl⟩ := hok
      exact h.takeFunctors hbatch
  | nextFunctor o =>
      simp only [TcpConnection.step] at hok
      split at hok
      · simp at hok
      · rename_i f rest hbatch
        exact (h.startFunctor hbatch).runFunctor hok
  | handleRead o => exact h.spares (handleRead_spares h.wf hok)
  | handleWrite o => exact h.handleWrite hok
  | retrieveInput len =>
      simp only [TcpConnection.step, bind_eq_ok, pure_eq_ok, Except.ok.injEq] at hok
      obtain ⟨buffer, -, rfl⟩ := hok
      exact ⟨⟨h.wf.coherent, h.wf.outputBuffer⟩, h.stream_eq, h.accepted_sublist, h.order,
        h.loop_queue⟩

/-- **A functor is run**: a `sendInLoop` accepts its message or not, and nothing else says anything. -/
lemma runFunctor_grows (hwf : c.Wf) {f : Functor} {o : WriteOutcome} (hok : c.runFunctor mem f o = .ok c') :
    c.Grows c' [] (queuedMessages [f]) (if c.takes o then queuedMessages [f] else []) := by
  have hlog := hwf.does_nothing.log (.ran f)
  by_cases hsend : ∃ t message, f = .sendInLoop t message
  · obtain ⟨t, message, rfl⟩ := hsend
    have hmessage : queuedMessages [.sendInLoop t message] = [(t, message)] := rfl
    rw [hmessage]
    -- the log of the call changes neither the state nor what `sendInLoop` tests
    have htakes : (c.log (.ran (.sendInLoop t message))).takes o = c.takes o := by cases o <;> rfl
    rw [← htakes]
    rcases sendInLoop_spec hlog.wf hok with ⟨hclosed, rfl⟩ | ⟨hopen, -, -, kept, es, fs, hs, -, hdoes⟩
    · rw [takes_of_closed hclosed]
      exact .of_trace _ hlog.trace_eq
    · have hrest : ranMessages es = [] ∧ sentMessages es = [] := by cases hs <;> exact ⟨rfl, rfl⟩
      have haccepted : acceptedMessages es
          = if (c.log (.ran (.sendInLoop t message))).takes o then [(t, message)] else [] := by
        rw [hs.accepted_eq hlog.wf, takes_of_ne hopen]
        cases (c.log (.ran (.sendInLoop t message))).setsFault o <;> rfl
      have hgrows := Grows.of_trace _ (hlog.trans hdoes).trace_eq
      rw [ranMessages_append, hrest.1, sentMessages_append, hrest.2, acceptedMessages_append, haccepted] at hgrows
      exact hgrows
  · have hother : ∀ t message, f ≠ .sendInLoop t message := fun t message heq => hsend ⟨t, message, heq⟩
    have hnone : queuedMessages [f] = [] ∧ Silent [.ran f] := by
      cases f with
      | sendInLoop t message => exact absurd rfl (hother t message)
      | _ => exact ⟨rfl, rfl, rfl, rfl, rfl⟩
    rw [hnone.1, ite_self]
    obtain ⟨-, hsent, hran, haccepted⟩ := hnone.2
    by_cases hshutdown : f = .shutdownInLoop
    · subst hshutdown
      rw [TcpConnection.runFunctor, Except.ok.injEq] at hok
      obtain ⟨hdoes, -, -⟩ := shutdownInLoop_spec hlog.wf
      rw [← hok]
      refine .of_silent (hlog.trans hdoes).trace_eq ?_
      split_ifs <;> exact ⟨rfl, rfl, rfl, rfl⟩
    · obtain ⟨es, fs, hdoes, hes, -⟩ := (runFunctor_spares hwf hother hshutdown hok).does
      obtain ⟨hwire', hsent', hran', haccepted'⟩ := silent_of_isCallback hes
      refine .of_silent (hlog.trans hdoes).trace_eq ⟨?_, ?_, ?_, ?_⟩
      · rw [wire_append, hwire']
        rfl
      · rw [sentMessages_append, List.nil_append [Effect.ran f], hsent, hsent', List.append_nil]
      · rw [ranMessages_append, List.nil_append [Effect.ran f], hran, hran', List.append_nil]
      · rw [acceptedMessages_append, List.nil_append [Effect.ran f], haccepted, haccepted', List.append_nil]

/-- A functor that is no `sendInLoop` is run at once, or queued. -/
lemma runInLoop_grows (hwf : c.Wf) {t : Thread} {f : Functor} {o : WriteOutcome}
    (hf : queuedMessages [f] = []) (hok : c.runInLoop mem t f o = .ok c') : c.Grows c' [] [] [] := by
  rw [TcpConnection.runInLoop] at hok
  split_ifs at hok with ht
  · have hgrows := runFunctor_grows hwf hok
    rwa [hf, ite_self] at hgrows
  · rw [Except.ok.injEq] at hok
    rw [← hok]
    exact .of_trace_eq rfl

omit [DecidableEq ι] in
lemma sets_grows (c : TcpConnection ι) (m : Call) : c.Grows (c.sets m) [] [] [] := by
  cases m with
  | shutdown => exact .of_trace [.shutdown] rfl
  | _ => exact .of_trace_eq rfl

omit [DecidableEq ι] in
lemma posts_grows (c : TcpConnection ι) (n : ℕ) (m : Call) : c.Grows (c.posts n m) (m.messages (.other n)) [] [] := by
  cases m with
  | send message => exact .of_trace [.send (.other n) message] rfl
  | _ => exact .of_trace_eq rfl

/-- What is written has been accepted before. -/
lemma handleWrite_grows (hwf : c.Wf) {o : WriteOutcome} (hok : c.handleWrite o = .ok c') : c.Grows c' [] [] [] := by
  rcases handleWrite_spec hwf hok with ⟨-, rfl⟩ | ⟨-, -, left, es, fs, hdrains, -, hdoes, -⟩
  · exact .of_trace_eq rfl
  · have hgrows := Grows.of_trace es hdoes.trace_eq
    cases hdrains <;> exact hgrows

lemma call_grows (hwf : c.Wf) {t : Thread} {m : Call} {o : WriteOutcome} (hok : c.call mem t o m = .ok c') :
    c.Grows c' (c.sent (.call t m o)) (c.ran (.call t m o)) (c.taken (.call t m o)) := by
  have hnone : m.messages t = [] → c.Grows c' [] [] [] →
      c.Grows c' (c.sent (.call t m o)) (c.ran (.call t m o)) (c.taken (.call t m o)) := by
    intro hm h
    rwa [taken, ran, sent, hm, ite_self, ite_self, ite_self]
  have hset : ∀ s, (c.setState s).Wf := fun s => (hwf.does_nothing.setState s).wf
  cases m with
  | send message =>
      simp only [TcpConnection.call] at hok
      split_ifs at hok with hstate
      · have hlog := hwf.does_nothing.log (.send t message)
        rw [taken, ran, sent, if_pos hstate, Call.messages]
        rw [TcpConnection.runInLoop] at hok
        split_ifs at hok with ht
        · rw [if_pos ⟨ht, hstate⟩]
          have htakes : (c.log (.send t message)).takes o = c.takes o := by cases o <;> rfl
          obtain ⟨hsent, hran, htaken⟩ := runFunctor_grows hlog.wf hok
          refine ⟨?_, ?_, ?_⟩
          · rw [hsent, hlog.trace_eq, sentMessages_append, List.append_nil]
            rfl
          · rw [hran, hlog.trace_eq, ranMessages_append]
            simp [ranMessages, queuedMessages]
          · rw [htaken, htakes, hlog.trace_eq, acceptedMessages_append]
            simp [acceptedMessages, queuedMessages]
        · rw [Except.ok.injEq] at hok
          rw [← hok, if_neg fun h => ht h.1, ite_self]
          exact .of_trace [.send t message] rfl
      · rw [Except.ok.injEq] at hok
        rw [taken, ran, sent, if_neg hstate, if_neg fun h => hstate h.2, ite_self, ← hok]
        exact .of_trace_eq rfl
  | shutdown =>
      refine hnone rfl ?_
      simp only [TcpConnection.call] at hok
      split_ifs at hok with hstate
      · have hlog := (hset .kDisconnecting).does_nothing.log .shutdown
        obtain ⟨hsent, hran, htaken⟩ := runInLoop_grows hlog.wf rfl hok
        have hbefore : c.Grows ((c.setState .kDisconnecting).log .shutdown) [] [] [] :=
          .of_silent hlog.trace_eq ⟨rfl, rfl, rfl, rfl⟩
        refine ⟨hsent.trans ?_, hran.trans ?_, htaken.trans ?_⟩
        · rw [hbefore.sent_eq, List.append_nil]
        · rw [hbefore.ran_eq, List.append_nil]
        · rw [hbefore.taken_eq, List.append_nil]
      · rw [Except.ok.injEq] at hok
        rw [← hok]
        exact .of_trace_eq rfl
  | forceClose =>
      refine hnone rfl ?_
      simp only [TcpConnection.call] at hok
      split_ifs at hok with hstate
      · rw [Except.ok.injEq] at hok
        rw [← hok]
        exact .of_trace_eq rfl
      · rw [Except.ok.injEq] at hok
        rw [← hok]
        exact .of_trace_eq rfl
  | startRead => exact hnone rfl (runInLoop_grows hwf rfl hok)
  | stopRead => exact hnone rfl (runInLoop_grows hwf rfl hok)

/-- **What a step says about the messages** is what can be read off the state before it. -/
lemma step_grows (hwf : c.Wf) {a : Action} (hok : c.step mem a = .ok c') :
    c.Grows c' (c.sent a) (c.ran a) (c.taken a) := by
  cases a with
  | call t m o => exact call_grows hwf hok
  | takePending =>
      simp only [TcpConnection.step, guard_eq_ok, Except.ok.injEq] at hok
      obtain ⟨-, rfl⟩ := hok
      exact .of_trace_eq rfl
  | nextFunctor o =>
      simp only [TcpConnection.step] at hok
      split at hok
      · simp at hok
      · rename_i f rest hbatch
        have hwf' : (c.startFunctor f rest).Wf := ⟨hwf.coherent, hwf.outputBuffer⟩
        obtain ⟨hsent, hran, htaken⟩ := runFunctor_grows hwf' hok
        have htakes : (c.startFunctor f rest).takes o = c.takes o := by cases o <;> rfl
        have hnext : c.ran (.nextFunctor o) = queuedMessages [f] := by
          rw [ran, hbatch]
          rfl
        rw [taken, hnext, ← htakes]
        exact ⟨hsent, hran, htaken⟩
  | handleRead o => exact (handleRead_spares hwf hok).grows
  | handleWrite o => exact handleWrite_grows hwf hok
  | retrieveInput len =>
      simp only [TcpConnection.step, bind_eq_ok, pure_eq_ok, Except.ok.injEq] at hok
      obtain ⟨buffer, -, rfl⟩ := hok
      exact .of_trace_eq rfl

/-! ## Runs -/

/-- A step of the connection, or one that switches its interest in writing, or one of another thread that has
found the connection connected earlier and now queues its message. -/
inductive Interference
  | own (a : Action)
  | enableWriting
  | disableWriting
  | queueSend (n : ℕ) (message : List UInt8)
  deriving DecidableEq, Repr

/-- One step, with interference. -/
def stepOrInterfere (mem : Memory) (c : TcpConnection ι) : Interference → Res (TcpConnection ι)
  | .own a => c.step mem a
  | .enableWriting => c.onChannel Registry.enableWriting
  | .disableWriting => c.onChannel Registry.disableWriting
  | .queueSend n message =>
      .ok ((c.log (.send (.other n) message)).queueInLoop (.sendInLoop (.other n) message))

/-- The messages of a step with interference. -/
def sentIn (c : TcpConnection ι) : Interference → List (Thread × List UInt8)
  | .own a => c.sent a
  | .enableWriting => []
  | .disableWriting => []
  | .queueSend n message => [(.other n, message)]

def ranIn (c : TcpConnection ι) : Interference → List (Thread × List UInt8)
  | .own a => c.ran a
  | .enableWriting => []
  | .disableWriting => []
  | .queueSend _ _ => []

def takenIn (c : TcpConnection ι) : Interference → List (Thread × List UInt8)
  | .own a => c.taken a
  | .enableWriting => []
  | .disableWriting => []
  | .queueSend _ _ => []

lemma Intact.stepOrInterfere (h : c.Intact []) {a : Interference}
    (hok : c.stepOrInterfere mem a = .ok c') : c'.Intact [] := by
  cases a with
  | own a => exact h.step hok
  | enableWriting => exact h.silent (onChannel_ok h.wf rfl hok).1 ⟨rfl, rfl, rfl, rfl⟩ rfl
  | disableWriting => exact h.silent (onChannel_ok h.wf rfl hok).1 ⟨rfl, rfl, rfl, rfl⟩ rfl
  | queueSend n message =>
      rw [TcpConnection.stepOrInterfere, Except.ok.injEq] at hok
      rw [← hok]
      exact h.sendOther (by simp) message

lemma stepOrInterfere_grows (hwf : c.Wf) {a : Interference} (hok : c.stepOrInterfere mem a = .ok c') :
    c.Grows c' (c.sentIn a) (c.ranIn a) (c.takenIn a) := by
  cases a with
  | own a => exact step_grows hwf hok
  | enableWriting => exact .of_silent (onChannel_ok hwf rfl hok).1.trace_eq ⟨rfl, rfl, rfl, rfl⟩
  | disableWriting => exact .of_silent (onChannel_ok hwf rfl hok).1.trace_eq ⟨rfl, rfl, rfl, rfl⟩
  | queueSend n message =>
      rw [TcpConnection.stepOrInterfere, Except.ok.injEq] at hok
      rw [← hok]
      exact .of_trace [.send (.other n) message] rfl

lemma Setting.start_intact (s : Setting ι) : s.start.Intact [] := by
  have hstart := s.established.2
  refine ⟨hstart.wf, ?_, ?_, ?_, ?_⟩
  · rw [hstart.trace_eq, hstart.output_eq]
    rfl
  · rw [hstart.trace_eq]
    exact List.nil_sublist _
  · intro t
    rw [hstart.trace_eq, hstart.batch_eq, hstart.pending_eq]
    rfl
  · rw [hstart.batch_eq, hstart.pending_eq]
    rfl

/-- What the trace of a run says about the messages is what its steps say, one after the other. -/
lemma trace_of_run {s : Setting ι} {as : List Interference} {c : TcpConnection ι}
    (hrun : Machine.run (stepOrInterfere s.mem) s.start as = .ok c) :
    sentMessages c.trace = Machine.collect sentIn (Machine.steps (stepOrInterfere s.mem) s.start as) ∧
      ranMessages c.trace = Machine.collect ranIn (Machine.steps (stepOrInterfere s.mem) s.start as) ∧
      acceptedMessages c.trace
        = Machine.collect takenIn (Machine.steps (stepOrInterfere s.mem) s.start as) := by
  have hstart := s.established.2.trace_eq
  have hgrows : ∀ (said : TcpConnection ι → List (Thread × List UInt8))
      (tells : TcpConnection ι → Interference → List (Thread × List UInt8)), said s.start = [] →
      (∀ c a c', c.Intact [] → stepOrInterfere s.mem c a = .ok c' → said c' = said c ++ tells c a) →
      said c = Machine.collect tells (Machine.steps (stepOrInterfere s.mem) s.start as) := by
    intro said tells hnone hstep
    have hfifo := Machine.run_fifo (I := fun c : TcpConnection ι => c.Intact []) said tells (fun _ _ => [])
      (fun c a c' h hok => ⟨h.stepOrInterfere hok, (hstep c a c' h hok).symm⟩) s.start_intact hrun
    rw [hnone, Machine.collect_none, List.nil_append, List.nil_append] at hfifo
    exact hfifo.symm
  refine ⟨?_, ?_, ?_⟩
  · refine hgrows (fun c => sentMessages c.trace) sentIn (by rw [hstart]; rfl) ?_
    exact fun c a c' h hok => (stepOrInterfere_grows h.wf hok).sent_eq
  · refine hgrows (fun c => ranMessages c.trace) ranIn (by rw [hstart]; rfl) ?_
    exact fun c a c' h hok => (stepOrInterfere_grows h.wf hok).ran_eq
  · refine hgrows (fun c => acceptedMessages c.trace) takenIn (by rw [hstart]; rfl) ?_
    exact fun c a c' h hok => (stepOrInterfere_grows h.wf hok).taken_eq

/-- **The outgoing stream is intact.**  After every run of an established connection, whoever calls `send`,
whatever the kernel does with the writes and whatever the interest in writing is: the bytes the kernel has
accepted, followed by the output buffer, are one behind the other the messages whose `sendInLoop` ran while
the connection was not disconnected and without a fault, in the order in which these ran.  And of each thread
the messages whose `sendInLoop` ran are the first it sent, in the order it sent them. -/
theorem stream_intact (s : Setting ι) (as : List Interference) (c : TcpConnection ι)
    (hrun : Machine.run (stepOrInterfere s.mem) s.start as = .ok c) :
    wire c.trace ++ c.output
        = (Machine.collect takenIn (Machine.steps (stepOrInterfere s.mem) s.start as)).flatMap Prod.snd ∧
      (Machine.collect takenIn (Machine.steps (stepOrInterfere s.mem) s.start as)).Sublist
        (Machine.collect ranIn (Machine.steps (stepOrInterfere s.mem) s.start as)) ∧
      ∀ t, ofThread t (Machine.collect ranIn (Machine.steps (stepOrInterfere s.mem) s.start as))
        <+: ofThread t (Machine.collect sentIn (Machine.steps (stepOrInterfere s.mem) s.start as)) := by
  have h : c.Intact [] := Machine.run_invariant (I := fun c : TcpConnection ι => c.Intact [])
    (fun _ _ _ hI hok => hI.stepOrInterfere hok) s.start_intact hrun
  obtain ⟨hsent, hran, htaken⟩ := trace_of_run hrun
  rw [← hsent, ← hran, ← htaken]
  exact ⟨h.stream_eq, h.accepted_sublist, fun t => ⟨_, h.order t⟩⟩

/-- Two threads send, and one of them queues a message late.  The kernel takes one byte of the loop's message,
which came second but ran first, and the rest of it waits before the others. -/
def twoThreads : List Interference :=
  [.own (.call (.other 0) (.send [4, 5]) (.wrote 0)), .own (.call .loop (.send [1, 2, 3]) (.wrote 1)),
    .enableWriting, .own (.call .loop .shutdown (.wrote 0)), .queueSend 0 [6], .own .takePending,
    .own (.nextFunctor (.wrote 0)), .own (.nextFunctor (.wrote 0)), .own (.handleWrite (.wrote 2))]

theorem stream_intact_two_threads :
    ∃ c, Machine.run (stepOrInterfere Setting.plain.mem) Setting.plain.start twoThreads = .ok c ∧
      wire c.trace = [1, 2, 3] ∧ c.output = [4, 5, 6] ∧
      wire c.trace ++ c.output
        = (Machine.collect takenIn
            (Machine.steps (stepOrInterfere Setting.plain.mem) Setting.plain.start twoThreads)).flatMap
          Prod.snd := by
  have hrun : (Machine.run (stepOrInterfere Setting.plain.mem) Setting.plain.start twoThreads).map
      (fun c => (wire c.trace, c.output)) = .ok ([1, 2, 3], [4, 5, 6]) := by
    decide +kernel
  obtain ⟨c, hc, hobs⟩ := Machine.ok_of_map hrun
  rw [Prod.mk.injEq] at hobs
  exact ⟨c, hc, hobs.1, hobs.2, (stream_intact Setting.plain _ c hc).1⟩

end TcpConnection

end Seenet
