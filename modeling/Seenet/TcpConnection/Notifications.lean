import Seenet.TcpConnection.Stream

/-!
# Notifications of the user

The user is to hear when a backlog has been written to the last byte, and when it reaches the high-water mark.
Both callbacks are queued by `sendInLoop` and `handleWrite`; the runs here are made of these two (`Move`), with the
interest in writing and the state of the connection changing as they like.

* `Notes` — what a move queues, next to what it writes and what it leaves in the output buffer.
* **`writeComplete_exact`** — the write-complete callback is queued by the moves that leave nothing to be written.
* **`highWater_exact_iff`** — the high-water callback is queued by the moves that cross the mark, as long as
  nothing is added to a backlog that is beyond the mark already: then it is queued again.
-/

namespace Seenet

/-- It is the high-water callback. -/
def Functor.isHighWater : Functor → Bool
  | .highWateMarkCallback _ => true
  | _ => false

namespace TcpConnection

variable {ι : Type} {c c' : TcpConnection ι}

/-! ## Moves -/

/-- `sendInLoop`, `handleWrite`, and what may happen in between. -/
inductive Move
  | sendInLoop (t : Thread) (message : List UInt8) (outcome : WriteOutcome)
  | handleWrite (outcome : WriteOutcome)
  | enableWriting
  | disableWriting
  | setState (s : StateE)
  deriving DecidableEq, Repr

/-- One move. -/
def move [DecidableEq ι] (mem : Memory) (c : TcpConnection ι) : Move → Res (TcpConnection ι)
  | .sendInLoop t message outcome => c.sendInLoop mem t message outcome
  | .handleWrite outcome => c.handleWrite outcome
  | .enableWriting => c.onChannel Registry.enableWriting
  | .disableWriting => c.onChannel Registry.disableWriting
  | .setState s => .ok (c.setState s)

/-- The message, if there is one, is not empty. -/
def Move.NonEmpty : Move → Prop
  | .sendInLoop _ message _ => message ≠ []
  | _ => True

/-- What has been queued from `c` to `c'`. -/
def queuedBy (c c' : TcpConnection ι) : List Functor := c'.functors.pending.drop c.functors.pending.length

/-- What a move queues: the write-complete callback where something was written and nothing is left, unless the
message was empty; and the high-water callback where the output buffer has grown and reaches the mark. -/
structure Notes (c c' : TcpConnection ι) (nonEmpty : Prop) : Prop where
  wf : c'.Wf
  callbacks_eq : c'.callbacks = c.callbacks
  pending_eq : c'.functors.pending = c.functors.pending ++ c.queuedBy c'
  stream : ∃ es, c'.trace = c.trace ++ es ∧
    wire es ++ c'.output = c.output ++ (acceptedMessages es).flatMap Prod.snd
  queued : ∃ fs, (∀ f ∈ fs, f = .writeCompleteCallback) ∧
    c.queuedBy c' = fs ++ (if c.output.length < c'.output.length then c.highWater c'.output.length else []) ∧
    (nonEmpty → fs = if (wire c.trace).length < (wire c'.trace).length ∧ c'.output = [] then c.writeComplete
      else [])

lemma Does.queuedBy_eq {o : List UInt8} {es : List Effect} {fs : List Functor} (h : c.Does c' o es fs) :
    c.queuedBy c' = fs := by
  rw [queuedBy, h.pending_eq, List.drop_left]

/-- A move, once what it does is known. -/
lemma Does.notes {es : List Effect} {left : List UInt8} (rest : List UInt8)
    (h : c.Does c' left es (c.completes es rest ++
      if c.output.length < left.length then c.highWater left.length else []))
    (hcb : c'.callbacks = c.callbacks)
    (hstream : wire es ++ left = c.output ++ (acceptedMessages es).flatMap Prod.snd) {nonEmpty : Prop}
    (hcompletes : nonEmpty → (es.any Effect.isWrote = true ∧ rest = [] ↔ wire es ≠ [] ∧ left = [])) :
    c.Notes c' nonEmpty := by
  refine ⟨h.wf, hcb, ?_, ⟨es, h.trace_eq, by rw [h.output_eq, hstream]⟩, c.completes es rest, ?_, ?_, ?_⟩
  · rw [h.queuedBy_eq, h.pending_eq]
  · rw [completes, writeComplete]
    split_ifs <;> simp
  · rw [h.queuedBy_eq, h.output_eq]
  · intro hne
    have hgrown : (wire c.trace).length < (wire c'.trace).length ↔ wire es ≠ [] := by
      rw [h.trace_eq, wire_append, List.length_append, ← List.length_pos_iff]
      omega
    simp only [completes, hcompletes hne, hgrown, h.output_eq]

/-- What writes nothing and queues nothing. -/
lemma Does.notes_nothing (h : c.Does c' c.output [] []) (hcb : c'.callbacks = c.callbacks) (nonEmpty : Prop) :
    c.Notes c' nonEmpty := by
  have hdoes : c.Does c' c.output [] (c.completes [] [] ++
      if c.output.length < c.output.length then c.highWater c.output.length else []) := by
    simpa [completes, Effect.isWrote] using h
  refine hdoes.notes [] hcb ?_ ?_
  · simp [wire, acceptedMessages]
  · simp [wire]

/-- A message that is not empty, and is written without a rest, was written. -/
lemma Sends.completes_iff {t : Thread} {data kept : List UInt8} {o : WriteOutcome} {es : List Effect}
    (h : c.Sends t data o kept es) (hdata : data ≠ []) :
    es.any Effect.isWrote = true ∧ kept = [] ↔ wire es ≠ [] ∧ c.output ++ kept = [] := by
  cases h with
  | busy => simp [wire, Effect.isWrote]
  | @direct n hidle hn =>
      have hwire : wire [.wrote (data.take n), .accepted t data] = data.take n := by simp [wire]
      have hwrote : data.drop n = [] → data.take n ≠ [] := by
        intro hnone htake
        exact hdata (by rw [← List.take_append_drop n data, htake, hnone, List.append_nil])
      rw [hwire, hidle.2, List.nil_append]
      simp only [List.any_cons, Effect.isWrote, Bool.true_or, true_and]
      exact ⟨fun hnone => ⟨hwrote hnone, hnone⟩, fun hboth => hboth.2⟩
  | failed => simp [wire, Effect.isWrote]
  | fault => simp [wire]

lemma Drains.completes_iff {left : List UInt8} {o : WriteOutcome} {es : List Effect} (h : c.Drains o left es) :
    es.any Effect.isWrote = true ∧ left = [] ↔ wire es ≠ [] ∧ left = [] := by
  cases h with
  | none => simp [wire]
  | @some n hn hpos =>
      have hwire : wire [.wrote (c.output.take n)] = c.output.take n := by simp [wire]
      have hwrote : c.output.take n ≠ [] := by
        refine List.ne_nil_of_length_pos ?_
        rw [List.length_take]
        omega
      rw [hwire]
      simp only [List.any_cons, Effect.isWrote, Bool.true_or, true_and, ne_eq, hwrote, not_false_eq_true]

/-! ## Complete -/

/-- The bytes written and those in the output buffer are the messages accepted. -/
def Streams (c : TcpConnection ι) : Prop :=
  wire c.trace ++ c.output = (acceptedMessages c.trace).flatMap Prod.snd

lemma Notes.streams {nonEmpty : Prop} (h : c.Notes c' nonEmpty) (hstreams : c.Streams) : c'.Streams := by
  obtain ⟨es, htrace, hes⟩ := h.stream
  rw [Streams, htrace, wire_append, acceptedMessages_append, List.flatMap_append, List.append_assoc, hes,
    ← List.append_assoc]
  rw [Streams] at hstreams
  rw [hstreams]

/-- The write-complete callback is queued once if something was written and nothing is left, and is not queued
otherwise.  So whenever it is queued the kernel has accepted all that was to be written, and a backlog that is
written to its last byte is notified once. -/
structure NotifiesCompletion (c c' : TcpConnection ι) : Prop where
  pending_eq : c'.functors.pending = c.functors.pending ++ c.queuedBy c'
  count_eq : (c.queuedBy c').count .writeCompleteCallback
    = if (wire c.trace).length < (wire c'.trace).length ∧ c'.output = [] then 1 else 0
  accepted : .writeCompleteCallback ∈ c.queuedBy c' →
    wire c'.trace = (acceptedMessages c'.trace).flatMap Prod.snd
  drained : c.output ≠ [] → c'.output = [] → (c.queuedBy c').count .writeCompleteCallback = 1

/-- A backlog goes to the kernel. -/
lemma Notes.wrote {nonEmpty : Prop} (h : c.Notes c' nonEmpty) (hout : c.output ≠ []) (hout' : c'.output = []) :
    (wire c.trace).length < (wire c'.trace).length := by
  obtain ⟨es, htrace, hes⟩ := h.stream
  have hlength := congrArg List.length hes
  have hpos := List.length_pos_iff.mpr hout
  rw [hout', List.append_nil, List.length_append] at hlength
  rw [htrace, wire_append, List.length_append]
  omega

lemma Notes.notifiesCompletion (h : c.Notes c' True) (hstreams : c.Streams)
    (hset : c.writeCompleteCallback = true) : c.NotifiesCompletion c' := by
  obtain ⟨fs, -, hqueued, hfs⟩ := h.queued
  have hcount : (c.queuedBy c').count .writeCompleteCallback
      = if (wire c.trace).length < (wire c'.trace).length ∧ c'.output = [] then 1 else 0 := by
    have hmark : (if c.output.length < c'.output.length then c.highWater c'.output.length else []).count
        Functor.writeCompleteCallback = 0 := by
      rw [highWater]
      split_ifs <;> simp
    rw [hqueued, List.count_append, hmark, Nat.add_zero, hfs trivial, writeComplete, if_pos hset]
    split_ifs <;> simp
  refine ⟨h.pending_eq, hcount, ?_, ?_⟩
  · intro hmem
    have hpos := List.count_pos_iff.mpr hmem
    rw [hcount] at hpos
    split_ifs at hpos with hdone
    · have hstreams' := h.streams hstreams
      rwa [Streams, hdone.2, List.append_nil] at hstreams'
    · exact absurd hpos (lt_irrefl 0)
  · intro hout hout'
    rw [hcount, if_pos ⟨h.wrote hout hout', hout'⟩]

/-! ## The mark -/

/-- The high-water callback is queued if the output buffer was below the mark and is not any more, with its new
length. -/
structure NotifiesCrossing (c c' : TcpConnection ι) : Prop where
  pending_eq : c'.functors.pending = c.functors.pending ++ c.queuedBy c'
  crossing : (c.queuedBy c').filter Functor.isHighWater
    = if c.output.length < c.highWaterMark ∧ c.highWaterMark ≤ c'.output.length then
        [.highWateMarkCallback c'.output.length]
      else []

/-- A right notification comes out of a state below the mark. -/
lemma NotifiesCrossing.below {size : ℕ} (h : c.NotifiesCrossing c')
    (hmem : .highWateMarkCallback size ∈ c.queuedBy c') : c.output.length < c.highWaterMark := by
  have hfilter : .highWateMarkCallback size ∈ (c.queuedBy c').filter Functor.isHighWater :=
    List.mem_filter.mpr ⟨hmem, rfl⟩
  rw [h.crossing] at hfilter
  by_contra hnot
  rw [if_neg fun hboth => hnot hboth.1] at hfilter
  exact absurd hfilter List.not_mem_nil

/-! ## What the moves queue -/

variable [DecidableEq ι] {mem : Memory}

lemma sendInLoop_notes (h : c.Wf) {t : Thread} {data : List UInt8} {o : WriteOutcome}
    (hok : c.sendInLoop mem t data o = .ok c') : c.Notes c' (data ≠ []) := by
  by_cases hstate : c.state = .kDisconnected
  · rw [sendInLoop, if_pos hstate, pure_eq_ok, Except.ok.injEq] at hok
    rw [← hok]
    exact h.does_nothing.notes_nothing rfl _
  · obtain ⟨-, -, hcb, kept, es, hsends, hdoes⟩ := sendInLoop_does h hstate hok
    have hgrown : c.overMark kept = if c.output.length < (c.output ++ kept).length then
        c.highWater (c.output ++ kept).length else [] := by
      rw [overMark, List.length_append]
      cases kept with
      | nil => simp
      | cons b kept => simp
    rw [hgrown] at hdoes
    exact hdoes.notes _ hcb hsends.stream_eq hsends.completes_iff

lemma handleWrite_notes (h : c.Wf) {o : WriteOutcome} (hok : c.handleWrite o = .ok c') (nonEmpty : Prop) :
    c.Notes c' nonEmpty := by
  cases hwriting : c.isWriting with
  | false =>
      rw [handleWrite_of_not_isWriting hwriting hok]
      exact h.does_nothing.notes_nothing rfl _
  | true =>
      obtain ⟨-, -, hcb, left, es, hdrains, hdoes⟩ := handleWrite_does h hwriting hok
      have hle : ¬ c.output.length < left.length := by
        cases hdrains with
        | none => omega
        | some =>
            rw [List.length_drop]
            omega
      have hstream : wire es ++ left = c.output ++ (acceptedMessages es).flatMap Prod.snd := by
        cases hdrains <;> simp [wire, acceptedMessages]
      refine Does.notes left ?_ hcb hstream fun _ => hdrains.completes_iff
      rwa [if_neg hle, List.append_nil]

/-- **What a move queues.** -/
lemma move_notes (h : c.Wf) {a : Move} (hok : c.move mem a = .ok c') : c.Notes c' a.NonEmpty := by
  cases a with
  | sendInLoop t message o => exact sendInLoop_notes h hok
  | handleWrite o => exact handleWrite_notes h hok _
  | enableWriting => exact (onChannel_ok h rfl hok).1.notes_nothing (onChannel_callbacks hok) _
  | disableWriting => exact (onChannel_ok h rfl hok).1.notes_nothing (onChannel_callbacks hok) _
  | setState s =>
      obtain rfl := Except.ok.inj hok
      exact (h.does_nothing.setState s).notes_nothing rfl _

/-! ## Runs -/

/-- What holds throughout a run. -/
structure Steady (s : Setting ι) (c : TcpConnection ι) : Prop where
  wf : c.Wf
  callbacks_eq : c.callbacks = (s.writeCompleteCallback, s.highWateMarkCallback, s.highWaterMark)
  streams : c.Streams

lemma start_steady (s : Setting ι) : Steady s s.start := by
  obtain ⟨hok, hstart⟩ := s.established
  refine ⟨hstart.wf, ?_, ?_⟩
  · simp only [connectEstablished, bind_eq_ok, pure_eq_ok, Except.ok.injEq] at hok
    obtain ⟨-, -, c₁, h₁, heq⟩ := hok
    rw [← heq]
    exact onChannel_callbacks h₁
  · rw [Streams, hstart.trace_eq, hstart.output_eq]
    rfl

lemma Steady.move {s : Setting ι} (h : Steady s c) {a : Move} (hok : c.move mem a = .ok c') : Steady s c' := by
  have hnotes := move_notes h.wf hok
  exact ⟨hnotes.wf, hnotes.callbacks_eq.trans h.callbacks_eq, hnotes.streams h.streams⟩

/-- The states from which a run moves. -/
lemma steady_of_mem_steps (s : Setting ι) {as : List Move} {p : TcpConnection ι × Move}
    (hp : p ∈ Machine.steps (move s.mem) s.start as) : Steady s p.1 :=
  Machine.states_invariant (fun _ _ _ h hok => Steady.move h hok) (start_steady s) p.1
    (Machine.state_of_mem_steps hp)

/-- **Write-complete notifications are exact.**  In every run of a connection whose write-complete callback is set,
with messages that are not empty, every move that writes something and leaves nothing queues the callback once,
and no other does. -/
theorem writeComplete_exact (s : Setting ι) (hset : s.writeCompleteCallback = true) (as : List Move)
    (hnonEmpty : ∀ a ∈ as, a.NonEmpty) :
    ∀ p ∈ Machine.steps (move s.mem) s.start as, ∀ c', p.1.move s.mem p.2 = .ok c' →
      p.1.NotifiesCompletion c' := by
  intro p hp c' hok
  have hsteady := steady_of_mem_steps s hp
  have hnotes := move_notes hsteady.wf hok
  have hcallback : p.1.writeCompleteCallback = true :=
    (congrArg Prod.fst hsteady.callbacks_eq).trans hset
  have htrue : p.2.NonEmpty = True := eq_true (hnonEmpty p.2 (Machine.action_of_mem_steps hp))
  rw [htrue] at hnotes
  exact hnotes.notifiesCompletion hsteady.streams hcallback

/-- A connection with both callbacks set, and a mark of four bytes. -/
def Setting.notified : Setting Unit :=
  { Setting.plain with highWaterMark := 4, writeCompleteCallback := true, highWateMarkCallback := true }

/-- Five bytes are sent, of which the kernel takes one, and the rest later. -/
theorem writeComplete_exact_drain :
    ∃ c, Machine.run (move Setting.notified.mem) Setting.notified.start
        [.sendInLoop .loop [1, 2, 3, 4, 5] (.wrote 1), .enableWriting, .handleWrite (.wrote 4)] = .ok c ∧
      c.functors.pending = [.highWateMarkCallback 4, .writeCompleteCallback] ∧
      ∀ p ∈ Machine.steps (move Setting.notified.mem) Setting.notified.start
        [.sendInLoop .loop [1, 2, 3, 4, 5] (.wrote 1), .enableWriting, .handleWrite (.wrote 4)],
        ∀ c', p.1.move Setting.notified.mem p.2 = .ok c' → p.1.NotifiesCompletion c' := by
  have hrun : (Machine.run (move Setting.notified.mem) Setting.notified.start
      [.sendInLoop .loop [1, 2, 3, 4, 5] (.wrote 1), .enableWriting, .handleWrite (.wrote 4)]).map
      (fun c => c.functors.pending) = .ok [.highWateMarkCallback 4, .writeCompleteCallback] := by
    decide +kernel
  obtain ⟨c, hc, hpending⟩ := Machine.ok_of_map hrun
  exact ⟨c, hc, hpending, writeComplete_exact Setting.notified rfl _ (by simp [Move.NonEmpty])⟩

/-! ## Crossing the mark -/

/-- The move queues the high-water callback. -/
def Notifies (mem : Memory) (c : TcpConnection ι) (a : Move) : Prop :=
  ∃ c' size, c.move mem a = .ok c' ∧ .highWateMarkCallback size ∈ c.queuedBy c'

/-- The move adds to a backlog that is beyond the mark already. -/
def AddsBeyond (c : TcpConnection ι) : Move → Prop
  | .sendInLoop _ message _ =>
      c.state ≠ .kDisconnected ∧ message ≠ [] ∧ c.highWaterMark ≤ c.output.length
  | _ => False

/-- A backlog grows when `sendInLoop` adds to it. -/
lemma grows_iff (h : c.Wf) (hout : c.output ≠ []) {a : Move} (hok : c.move mem a = .ok c') :
    c.output.length < c'.output.length ↔
      ∃ t message o, a = .sendInLoop t message o ∧ c.state ≠ .kDisconnected ∧ message ≠ [] := by
  cases a with
  | sendInLoop t message o =>
      rcases sendInLoop_spec h hok with ⟨hstate, rfl⟩ | ⟨hstate, -, -, kept, es, fs, hsends, -, hdoes⟩
      · simp [hstate]
      · cases hsends with
        | busy =>
            rw [hdoes.output_eq, List.length_append]
            simp [hstate, List.length_pos_iff]
        | direct hidle => exact absurd hidle.2 hout
        | failed hidle => exact absurd hidle.2 hout
        | fault hidle => exact absurd hidle.2 hout
  | handleWrite o =>
      simp only [reduceCtorEq, false_and, exists_false, iff_false, not_lt]
      rcases handleWrite_spec h hok with ⟨-, rfl⟩ | ⟨-, -, left, es, fs, hdrains, -, hdoes, -⟩
      · exact le_refl _
      · rw [hdoes.output_eq]
        cases hdrains with
        | none => exact le_refl _
        | some =>
            rw [List.length_drop]
            exact Nat.sub_le _ _
  | enableWriting => simp [(onChannel_ok h rfl hok).1.output_eq]
  | disableWriting => simp [(onChannel_ok h rfl hok).1.output_eq]
  | setState s =>
      obtain rfl := Except.ok.inj hok
      simp

/-- **What one move notifies** is right unless it adds to a backlog beyond the mark. -/
lemma notifiesCrossing_iff (h : c.Wf) (hmark : 0 < c.highWaterMark) (hset : c.highWateMarkCallback = true)
    {a : Move} (hok : c.move mem a = .ok c') : c.NotifiesCrossing c' ↔ ¬ c.AddsBeyond a := by
  have hnotes := move_notes h hok
  obtain ⟨fs, hfs, hqueued, -⟩ := hnotes.queued
  have hfilter : (c.queuedBy c').filter Functor.isHighWater
      = if c.output.length < c'.output.length ∧ c.highWaterMark ≤ c'.output.length then
          [.highWateMarkCallback c'.output.length]
        else [] := by
    have hnone : fs.filter Functor.isHighWater = [] := by
      rw [List.filter_eq_nil_iff]
      intro f hf
      rw [hfs f hf]
      simp [Functor.isHighWater]
    rw [hqueued, List.filter_append, hnone, List.nil_append, ite_and, highWater]
    simp only [hset, and_true]
    split_ifs <;> rfl
  have hadds : c.AddsBeyond a ↔ c.highWaterMark ≤ c.output.length ∧ c.output.length < c'.output.length := by
    have hout : c.highWaterMark ≤ c.output.length → c.output ≠ [] :=
      fun hge => List.ne_nil_of_length_pos (hmark.trans_le hge)
    constructor
    · intro hbeyond
      cases a with
      | sendInLoop t message o =>
          obtain ⟨hstate, hmessage, hge⟩ := hbeyond
          exact ⟨hge, (grows_iff h (hout hge) hok).mpr ⟨t, message, o, rfl, hstate, hmessage⟩⟩
      | _ => exact absurd hbeyond id
    · rintro ⟨hge, hgrows⟩
      obtain ⟨t, message, o, rfl, hstate, hmessage⟩ := (grows_iff h (hout hge) hok).mp hgrows
      exact ⟨hstate, hmessage, hge⟩
  rw [hadds]
  constructor
  · intro hnotifies hbeyond
    have hcrossing := hnotifies.crossing
    rw [hfilter, if_pos (by omega), if_neg (by omega)] at hcrossing
    exact absurd hcrossing (by simp)
  · intro hnot
    refine ⟨hnotes.pending_eq, ?_⟩
    rw [hfilter]
    exact if_congr (by omega) rfl rfl

/-- **When high-water notifications mark crossings**: in a run of a connection with a positive mark and its
callback set, every move queues the callback exactly when the backlog reaches the mark from below, and from one
notification to the next the backlog has been below the mark, if and only if no move adds to a backlog that is
beyond the mark already. -/
theorem highWater_exact_iff (s : Setting ι) (hmark : 0 < s.highWaterMark) (hset : s.highWateMarkCallback = true)
    (as : List Move) :
    ((∀ p ∈ Machine.steps (move s.mem) s.start as, ∀ c', p.1.move s.mem p.2 = .ok c' →
        p.1.NotifiesCrossing c') ∧
      (Machine.steps (move s.mem) s.start as).Pairwise fun p q =>
        p.1.Notifies s.mem p.2 → q.1.Notifies s.mem q.2 → q.1.output.length < s.highWaterMark) ↔
    ∀ p ∈ Machine.steps (move s.mem) s.start as, ¬ p.1.AddsBeyond p.2 := by
  have hmove : ∀ p ∈ Machine.steps (move s.mem) s.start as, p.1.highWaterMark = s.highWaterMark ∧
      ∀ c', p.1.move s.mem p.2 = .ok c' → (p.1.NotifiesCrossing c' ↔ ¬ p.1.AddsBeyond p.2) := by
    intro p hp
    have hsteady := steady_of_mem_steps s hp
    have hcb := hsteady.callbacks_eq
    simp only [callbacks, Prod.mk.injEq] at hcb
    exact ⟨hcb.2.2, fun c' hok =>
      notifiesCrossing_iff hsteady.wf (hcb.2.2.symm ▸ hmark) (hcb.2.1.trans hset) hok⟩
  constructor
  · rintro ⟨hexact, -⟩ p hp
    obtain ⟨c', hok⟩ := Machine.ok_of_mem_steps hp
    exact ((hmove p hp).2 c' hok).mp (hexact p hp c' hok)
  · intro hnone
    have hexact : ∀ p ∈ Machine.steps (move s.mem) s.start as, ∀ c', p.1.move s.mem p.2 = .ok c' →
        p.1.NotifiesCrossing c' := fun p hp c' hok => ((hmove p hp).2 c' hok).mpr (hnone p hp)
    refine ⟨hexact, List.pairwise_of_forall_mem_list ?_⟩
    rintro p - q hq - ⟨c', size, hok, hmem⟩
    rw [← (hmove q hq).1]
    exact (hexact q hq c' hok).below hmem

/-- Five bytes wait, and are written. -/
theorem highWater_exact_iff_once :
    (∀ p ∈ Machine.steps (move Setting.notified.mem) Setting.notified.start
        [.sendInLoop .loop [1, 2, 3, 4, 5] (.wrote 0), .enableWriting, .handleWrite (.wrote 5)],
      ∀ c', p.1.move Setting.notified.mem p.2 = .ok c' → p.1.NotifiesCrossing c') ∧
    (Machine.steps (move Setting.notified.mem) Setting.notified.start
      [.sendInLoop .loop [1, 2, 3, 4, 5] (.wrote 0), .enableWriting, .handleWrite (.wrote 5)]).Pairwise fun p q =>
        p.1.Notifies Setting.notified.mem p.2 → q.1.Notifies Setting.notified.mem q.2 →
          q.1.output.length < Setting.notified.highWaterMark := by
  refine (highWater_exact_iff Setting.notified (by decide) rfl _).mpr ?_
  intro p hp
  have hempty := Setting.notified.established.2.output_eq
  cases hfirst : Setting.notified.start.move Setting.notified.mem
      (.sendInLoop .loop [1, 2, 3, 4, 5] (.wrote 0)) with
  | error e => simp [Machine.steps_cons_error hfirst] at hp
  | ok c₁ =>
      rw [Machine.steps_cons_ok hfirst, List.mem_cons] at hp
      rcases hp with rfl | hp
      · rintro ⟨-, -, hge⟩
        rw [hempty] at hge
        exact absurd hge (by decide)
      · have haction := Machine.action_of_mem_steps hp
        simp only [List.mem_cons, List.not_mem_nil, or_false] at haction
        rcases haction with haction | haction
        · rw [haction]
          exact id
        · rw [haction]
          exact id

/-- **Again.**  Five bytes wait, which is beyond the mark; one more is sent, and the callback is queued again. -/
theorem not_highWater_exact :
    (∃ c, Machine.run (move Setting.notified.mem) Setting.notified.start
        [.sendInLoop .loop [1, 2, 3, 4, 5] (.wrote 0), .sendInLoop .loop [6] (.wrote 0)] = .ok c ∧
      c.functors.pending = [.highWateMarkCallback 5, .highWateMarkCallback 6]) ∧
    ¬ ∀ p ∈ Machine.steps (move Setting.notified.mem) Setting.notified.start
        [.sendInLoop .loop [1, 2, 3, 4, 5] (.wrote 0), .sendInLoop .loop [6] (.wrote 0)],
        ∀ c', p.1.move Setting.notified.mem p.2 = .ok c' → p.1.NotifiesCrossing c' := by
  have hrun₁ : (Setting.notified.start.move Setting.notified.mem
      (.sendInLoop .loop [1, 2, 3, 4, 5] (.wrote 0))).map
      (fun c => (c.output.length, c.highWaterMark, c.functors.pending))
      = .ok (5, 4, [.highWateMarkCallback 5]) := by
    decide +kernel
  have hrun₂ : (Machine.run (move Setting.notified.mem) Setting.notified.start
      [.sendInLoop .loop [1, 2, 3, 4, 5] (.wrote 0), .sendInLoop .loop [6] (.wrote 0)]).map
      (fun c => c.functors.pending) = .ok [.highWateMarkCallback 5, .highWateMarkCallback 6] := by
    decide +kernel
  obtain ⟨c₁, hc₁, hobs⟩ := Machine.ok_of_map hrun₁
  obtain ⟨c₂, hc₂, hpending₂⟩ := Machine.ok_of_map hrun₂
  simp only [Prod.mk.injEq] at hobs
  obtain ⟨hlength, hmark, hpending₁⟩ := hobs
  refine ⟨⟨c₂, hc₂, hpending₂⟩, ?_⟩
  intro hall
  rw [Machine.run_cons_ok hc₁] at hc₂
  cases hsecond : c₁.move Setting.notified.mem (.sendInLoop .loop [6] (.wrote 0)) with
  | error e => simp [Machine.run, hsecond] at hc₂
  | ok c₂' =>
      rw [Machine.run_cons_ok hsecond, Machine.run_nil, Except.ok.injEq] at hc₂
      have hmem : (c₁, Move.sendInLoop .loop [6] (.wrote 0)) ∈
          Machine.steps (move Setting.notified.mem) Setting.notified.start
            [.sendInLoop .loop [1, 2, 3, 4, 5] (.wrote 0), .sendInLoop .loop [6] (.wrote 0)] := by
        rw [Machine.steps_cons_ok hc₁, Machine.steps_cons_ok hsecond]
        exact List.mem_cons_of_mem _ List.mem_cons_self
      have hqueued : c₁.queuedBy c₂' = [.highWateMarkCallback 6] := by
        rw [queuedBy, hc₂, hpending₁, hpending₂]
        rfl
      have hnotified : .highWateMarkCallback 6 ∈ c₁.queuedBy c₂' := by
        rw [hqueued]
        exact List.mem_singleton.mpr rfl
      have hbelow := (hall _ hmem c₂' hsecond).below hnotified
      dsimp only at hbelow
      rw [hlength, hmark] at hbelow
      exact absurd hbelow (by decide)

end TcpConnection

end Seenet
