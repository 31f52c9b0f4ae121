import Seenet.Buffer.Growth
import Seenet.TcpConnection.Firm
import Mathlib.Data.Finset.Lattice.Lemmas

/-!
# The stages of a connection

Where nobody starts or stops reading, a connection goes through four stages, and in each of them its state, its
channel and the calls of `m_connCallback` agree (`Stage`): it waits for `connectEstablished`; it is open, and its
channel waits for input; it is closed, and its channel waits for nothing; and it has been removed.

* `Plain` — the functors and calls that do not start or stop reading.
* `Calm` — what they leave alone.
* `beginClose_stage`, `connectEstablished_stage`, `connectDestroyed_stage` — the functions that lead from one stage
  to the next.
* `…_lives` — in its stage no function fails an assertion, or reads or writes outside of a buffer.
-/

namespace Seenet

open Channel

/-- Nothing starts or stops reading, and a message fits into memory. -/
def Functor.Plain : Functor → Prop
  | .startReadInLoop | .stopReadInLoop => False
  | .sendInLoop _ message => message.length < 2 ^ 63
  | _ => True

namespace TcpConnection

def Call.Plain : Call → Prop
  | .startRead | .stopRead => False
  | .send message => message.length < 2 ^ 63
  | _ => True

instance : (m : Call) → Decidable m.Plain
  | .startRead | .stopRead => inferInstanceAs (Decidable False)
  | .send message => inferInstanceAs (Decidable (message.length < 2 ^ 63))
  | .shutdown | .forceClose => inferInstanceAs (Decidable True)

variable {ι : Type} {c c' : TcpConnection ι} {mem : Memory}

lemma plain_of_isCallback {f : Functor} (h : f.IsCallback) : f.Plain := by
  cases f <;> first | exact trivial | exact h.elim

/-- Where a connection is in its life. -/
inductive Stage (c : TcpConnection ι) : Prop
  | connecting (hstate : c.state = .kConnecting) (hups : c.ups = 0) (hindex : c.ch.index = .kNew)
      (hevents : c.ch.events = ∅) (hran : .ran .connectDestroyed ∉ c.trace)
  | opened (hopen : c.IsOpen) (hups : c.ups = 1) (hindex : c.ch.index = .kAdded)
      (hevents : c.ch.events = kReadEvent) (hran : .ran .connectDestroyed ∉ c.trace)
  | closed (hstate : c.state = .kDisconnected) (hups : c.ups = 2) (hindex : c.ch.index = .kDeleted)
      (hevents : c.ch.events = ∅) (hran : .ran .connectDestroyed ∉ c.trace)
  | removed (hstate : c.state = .kDisconnected) (hups : c.ups = 2) (hindex : c.ch.index = .kNew)
      (hevents : c.ch.events = ∅) (hran : .ran .connectDestroyed ∈ c.trace)

/-- A stage depends on the state, the channel and the trace. -/
lemma Stage.of_eq (h : c.Stage) (hstate : c'.state = c.state)
    (hindex : c'.ch.index = c.ch.index) (hevents : c'.ch.events = c.ch.events) (htrace : c'.trace = c.trace) :
    c'.Stage := by
  have hups : c'.ups = c.ups := by rw [ups, ups, htrace]
  cases h with
  | connecting hs hu hi he hr =>
      exact .connecting (hstate.trans hs) (hups.trans hu) (hindex.trans hi) (hevents.trans he) (htrace ▸ hr)
  | opened hs hu hi he hr =>
      exact .opened (by rwa [IsOpen, hstate]) (hups.trans hu) (hindex.trans hi) (hevents.trans he) (htrace ▸ hr)
  | closed hs hu hi he hr =>
      exact .closed (hstate.trans hs) (hups.trans hu) (hindex.trans hi) (hevents.trans he) (htrace ▸ hr)
  | removed hs hu hi he hr =>
      exact .removed (hstate.trans hs) (hups.trans hu) (hindex.trans hi) (hevents.trans he) (htrace ▸ hr)

/-- The channel never waits to write. -/
lemma Stage.isWriting_eq (h : c.Stage) : c.isWriting = false := by
  have hevents : .epollout ∉ c.ch.events := by
    cases h with
    | opened _ _ _ hevents _ => simp [hevents, kReadEvent]
    | connecting _ _ _ hevents _ | closed _ _ _ hevents _ | removed _ _ _ hevents _ => simp [hevents]
  rwa [Bool.eq_false_iff, Ne, isWriting_iff]

/-- The channel of a connection that waits to be removed is in the poller. -/
lemma Stage.closed_ch (h : c.Stage) (hstate : c.state = .kDisconnected) (hran : .ran .connectDestroyed ∉ c.trace) :
    c.ch.index ≠ .kNew ∧ c.ch.events = ∅ := by
  cases h with
  | closed _ _ hindex hevents => exact ⟨by simp [hindex], hevents⟩
  | connecting hstate' => simp [hstate] at hstate'
  | opened hopen => simp [IsOpen, hstate] at hopen
  | removed _ _ _ _ hran' => exact absurd hran' hran

/-- A channel in the kernel's set is that of an open connection. -/
lemma Stage.open_of_added (h : c.Stage) (hindex : c.ch.index = .kAdded) : c.IsOpen := by
  cases h with
  | opened hopen => exact hopen
  | connecting _ _ hindex' | closed _ _ hindex' | removed _ _ hindex' => simp [hindex'] at hindex

/-- From `c` to `c'` the connection has stayed in its stage, and queued nothing but what is plain. -/
structure Calm (c c' : TcpConnection ι) : Prop where
  ch_eq : c'.ch = c.ch
  ups_eq : c'.ups = c.ups
  state_eq : c'.state = c.state ∨ c.IsOpen ∧ c'.state = .kDisconnecting
  ran_iff : .ran .connectDestroyed ∈ c'.trace ↔ .ran .connectDestroyed ∈ c.trace
  pending : ∃ fs, c'.functors.pending = c.functors.pending ++ fs ∧ ∀ f ∈ fs, f.Plain

lemma Calm.refl (c : TcpConnection ι) : c.Calm c := ⟨rfl, rfl, Or.inl rfl, Iff.rfl, [], by simp, by simp⟩

lemma Calm.of_does {out : List UInt8} {es : List Effect} {fs : List Functor} (hdoes : c.Does c' out es fs)
    (hch : c'.ch = c.ch) (hups : c'.ups = c.ups) (hstate : c'.state = c.state ∨ c.IsOpen ∧ c'.state = .kDisconnecting)
    (hes : .ran .connectDestroyed ∉ es) (hfs : ∀ f ∈ fs, f.Plain) : c.Calm c' := by
  refine ⟨hch, hups, hstate, ?_, fs, hdoes.pending_eq, hfs⟩
  rw [hdoes.trace_eq, List.mem_append, or_iff_left hes]

/-- An open connection stays open. -/
lemma Calm.isOpen (h : c.Calm c') (hopen : c.IsOpen) : c'.IsOpen := by
  rcases h.state_eq with heq | ⟨-, heq⟩
  · rwa [IsOpen, heq]
  · exact Or.inr heq

/-- **What is calm stays in its stage.** -/
lemma Stage.calm (hstage : c.Stage) (h : c.Calm c') : c'.Stage := by
  have hsame : ¬ c.IsOpen → c'.state = c.state := fun hnot => h.state_eq.resolve_right fun hopen => hnot hopen.1
  cases hstage with
  | connecting hstate hups hindex hevents hran =>
      have hnot : ¬ c.IsOpen := by simp [IsOpen, hstate]
      exact .connecting ((hsame hnot).trans hstate) (h.ups_eq.trans hups) (h.ch_eq ▸ hindex) (h.ch_eq ▸ hevents)
        (mt h.ran_iff.mp hran)
  | opened hopen hups hindex hevents hran =>
      exact .opened (h.isOpen hopen) (h.ups_eq.trans hups) (h.ch_eq ▸ hindex) (h.ch_eq ▸ hevents)
        (mt h.ran_iff.mp hran)
  | closed hstate hups hindex hevents hran =>
      have hnot : ¬ c.IsOpen := by simp [IsOpen, hstate]
      exact .closed ((hsame hnot).trans hstate) (h.ups_eq.trans hups) (h.ch_eq ▸ hindex) (h.ch_eq ▸ hevents)
        (mt h.ran_iff.mp hran)
  | removed hstate hups hindex hevents hran =>
      have hnot : ¬ c.IsOpen := by simp [IsOpen, hstate]
      exact .removed ((hsame hnot).trans hstate) (h.ups_eq.trans hups) (h.ch_eq ▸ hindex) (h.ch_eq ▸ hevents)
        (h.ran_iff.mpr hran)

lemma Calm.trans {c'' : TcpConnection ι} (h : c.Calm c') (h' : c'.Calm c'') : c.Calm c'' := by
  obtain ⟨fs, hpending, hfs⟩ := h.pending
  obtain ⟨fs', hpending', hfs'⟩ := h'.pending
  refine ⟨h'.ch_eq.trans h.ch_eq, h'.ups_eq.trans h.ups_eq, ?_, h'.ran_iff.trans h.ran_iff, fs ++ fs', ?_, ?_⟩
  · rcases h'.state_eq with heq | ⟨hopen, heq⟩
    · rw [heq]
      exact h.state_eq
    · refine Or.inr ⟨?_, heq⟩
      rcases h.state_eq with heq' | ⟨hopen', -⟩
      · rwa [IsOpen, ← heq']
      · exact hopen'
  · rw [hpending', hpending, List.append_assoc]
  · exact List.forall_mem_append.mpr ⟨hfs, hfs'⟩

/-! ## Functions that are calm -/

/-- What `send` and `shutdown` do before they hand on. -/
lemma log_send_calm (h : c.Wf) (t : Thread) (message : List UInt8) : c.Calm (c.log (.send t message)) := by
  have hlog := h.does_nothing.log (.send t message)
  exact .of_does hlog rfl (by rw [hlog.ups_eq]; rfl) (Or.inl rfl) (by simp) (by simp)

lemma log_shutdown_calm (h : c.Wf) (hstate : c.state = .kConnected) :
    c.Calm ((c.setState .kDisconnecting).log .shutdown) := by
  have hlog := (h.does_nothing.setState .kDisconnecting).log .shutdown
  exact .of_does hlog rfl (by rw [hlog.ups_eq]; rfl) (Or.inr ⟨Or.inl hstate, rfl⟩) (by simp) (by simp)

/-- Another thread sets the state. -/
lemma sets_calm (h : c.Wf) (hopen : c.IsOpen) (m : Call) : c.Calm (c.sets m) := by
  have hset := h.does_nothing.setState .kDisconnecting
  cases m with
  | shutdown =>
      have hlog := hset.log .shutdown
      exact .of_does hlog rfl (hlog.ups_eq.trans rfl) (Or.inr ⟨hopen, rfl⟩) (by simp) (by simp)
  | forceClose => exact .of_does hset rfl (hset.ups_eq.trans rfl) (Or.inr ⟨hopen, rfl⟩) (by simp) (by simp)
  | _ => exact .refl c

/-- Another thread queues a functor. -/
lemma posts_calm (h : c.Wf) (n : ℕ) {m : Call} (hplain : m.Plain) : c.Calm (c.posts n m) := by
  have hdoes := h.does_nothing
  cases m with
  | send message =>
      have hqueue := (hdoes.log (.send (.other n) message)).queueInLoop (.sendInLoop (.other n) message)
      refine .of_does hqueue rfl (hqueue.ups_eq.trans rfl) (Or.inl rfl) (by simp) ?_
      intro f hf
      rw [List.nil_append, List.mem_singleton] at hf
      subst hf
      exact hplain
  | shutdown =>
      have hqueue := hdoes.queueInLoop .shutdownInLoop
      exact .of_does hqueue rfl (hqueue.ups_eq.trans rfl) (Or.inl rfl) (by simp) (by simp [Functor.Plain])
  | forceClose =>
      have hqueue := hdoes.queueInLoop .forceCloseInLoop
      exact .of_does hqueue rfl (hqueue.ups_eq.trans rfl) (Or.inl rfl) (by simp) (by simp [Functor.Plain])
  | startRead | stopRead => exact hplain.elim

variable [DecidableEq ι]

/-- A functor that neither closes nor destroys. -/
lemma runFunctor_calm (h : c.Wf) (hstage : c.Stage) {f : Functor} {o : WriteOutcome} (hplain : f.Plain)
    (hforce : f ≠ .forceCloseInLoop) (hdestroyed : f ≠ .connectDestroyed) (hok : c.runFunctor mem f o = .ok c') :
    c.Calm c' := by
  obtain ⟨out, es, fs, hdoes, hstate, hes, hfs⟩ := runFunctor_ok h hforce hdestroyed hok
  have hlog := h.does_nothing.log (.ran f)
  have hch : c'.ch = c.ch := by
    cases f with
    | sendInLoop t message => exact sendInLoop_ch (c := c.log _) hlog.wf hstage.isWriting_eq hok
    | shutdownInLoop =>
        rw [← Except.ok.inj hok]
        exact (shutdownInLoop_spec hlog.wf).2.2
    | startReadInLoop | stopReadInLoop => exact hplain.elim
    | writeCompleteCallback | highWateMarkCallback _ =>
        rw [← Except.ok.inj hok]
        rfl
    | forceCloseInLoop => exact absurd rfl hforce
    | connectDestroyed => exact absurd rfl hdestroyed
  have hups : c'.ups = c.ups := by
    have hchanges := (runFunctor_changes h hforce hdestroyed hok).2
    have hkind : c.functorKind f = .rest := by
      cases f with
      | startReadInLoop | stopReadInLoop => exact hplain.elim
      | forceCloseInLoop => exact absurd rfl hforce
      | connectDestroyed => exact absurd rfl hdestroyed
      | _ => rfl
    rw [hkind] at hchanges
    cases hchanges with
    | rest _ _ hups => exact hups
  exact .of_does hdoes hch hups (Or.inl hstate) hes.2.2 fun f hf => plain_of_isCallback (hfs f hf)

/-- A functor that waits or is run at once. -/
lemma runInLoop_calm (h : c.Wf) (hstage : c.Stage) {t : Thread} {f : Functor} {o : WriteOutcome} (hplain : f.Plain)
    (hforce : f ≠ .forceCloseInLoop) (hdestroyed : f ≠ .connectDestroyed) (hok : c.runInLoop mem t f o = .ok c') :
    c.Calm c' := by
  rw [runInLoop] at hok
  split_ifs at hok
  · exact runFunctor_calm h hstage hplain hforce hdestroyed hok
  · rw [← Except.ok.inj hok]
    exact .of_does (h.does_nothing.queueInLoop f) rfl rfl (Or.inl rfl) (by simp) (by simpa using hplain)

/-- **A call**, by whichever thread. -/
lemma call_calm (h : c.Wf) (hstage : c.Stage) {t : Thread} {m : Call} {o : WriteOutcome} (hplain : m.Plain)
    (hok : c.call mem t o m = .ok c') : c.Calm c' := by
  cases m with
  | send message =>
      rw [call] at hok
      split_ifs at hok
      · have hlog := h.does_nothing.log (.send t message)
        have hcalm := log_send_calm h t message
        exact hcalm.trans (runInLoop_calm (f := .sendInLoop t message) hlog.wf (hstage.calm hcalm) hplain (by simp) (by simp) hok)
      · rw [← Except.ok.inj hok]
        exact .refl c
  | shutdown =>
      rw [call] at hok
      split_ifs at hok with hstate
      · have hlog := (h.does_nothing.setState .kDisconnecting).log .shutdown
        have hcalm := log_shutdown_calm h hstate
        exact hcalm.trans (runInLoop_calm (f := .shutdownInLoop) hlog.wf (hstage.calm hcalm) trivial (by simp) (by simp) hok)
      · rw [← Except.ok.inj hok]
        exact .refl c
  | forceClose =>
      rw [call] at hok
      split_ifs at hok with hstate
      · rw [← Except.ok.inj hok]
        have hqueue := (h.does_nothing.setState .kDisconnecting).queueInLoop .forceCloseInLoop
        exact .of_does hqueue rfl (by rw [hqueue.ups_eq]; rfl) (Or.inr ⟨hstate, rfl⟩) (by simp)
          (by simp [Functor.Plain])
      · rw [← Except.ok.inj hok]
        exact .refl c
  | startRead | stopRead => exact hplain.elim

/-- Nothing waits to write. -/
lemma handleWrite_calm (hstage : c.Stage) {o : WriteOutcome} (hok : c.handleWrite o = .ok c') : c.Calm c' := by
  rw [handleWrite_of_not_isWriting hstage.isWriting_eq hok]
  exact .refl c

/-! ## From stage to stage -/

lemma connectEstablished_stage (h : c.Wf) (hstage : c.Stage) (hok : c.connectEstablished = .ok c') : c'.Stage := by
  simp only [connectEstablished, bind_eq_ok, assertThat_eq_ok, pure_eq_ok, Except.ok.injEq] at hok
  obtain ⟨-, hstate, c₁, h₁, rfl⟩ := hok
  cases hstage with
  | connecting _ hups hindex hevents hran =>
      have hset := h.does_nothing.setState .kConnected
      obtain ⟨hdoes, hstate', -, hch⟩ := onChannel_ok hset.wf rfl h₁
      have hall := (hset.trans hdoes).log .connCallback
      have hmask : ((c.setState .kConnected).registry.heap (c.setState .kConnected).channel).events = ∅ ∧
          (c.setState .kConnected).ch.index = .kNew := ⟨hevents, hindex⟩
      rw [hmask.1, Finset.empty_union] at hch
      refine .opened (Or.inl hstate') ?_ ?_ ?_ ?_
      · rw [hall.ups_eq, hups]
        rfl
      · rw [log_ch, hch, updated_index, hmask.2]
        decide
      · rw [log_ch, hch, updated_events]
      · rw [hall.trace_eq]
        simpa using hran
  | opened hopen => simp [IsOpen, hstate] at hopen
  | closed hstate' | removed hstate' => simp [hstate] at hstate'

lemma beginClose_stage (h : c.Wf) (hstage : c.Stage) (hok : c.beginClose = .ok c') : c'.Stage := by
  obtain ⟨hdoes, hopen, hstate, hch⟩ := beginClose_spec h hok
  have hnot : ∀ s, c.state = s → s ≠ .kConnected → s ≠ .kDisconnecting → c'.Stage := by
    rintro s rfl hne hne'
    exact (hopen.elim hne hne').elim
  cases hstage with
  | opened _ hups hindex hevents hran =>
      refine .closed hstate ?_ ?_ ?_ ?_
      · rw [hdoes.ups_eq, hups]
        rfl
      · rw [hch, updated_index, hindex]
        decide
      · rw [hch, updated_events]
      · rw [hdoes.trace_eq]
        simpa using hran
  | connecting hstate' => exact hnot _ hstate' (by simp) (by simp)
  | closed hstate' | removed hstate' => exact hnot _ hstate' (by simp) (by simp)

/-- `connectDestroyed` as a functor, after `handleClose`. -/
lemma connectDestroyed_stage (h : c.Wf) (hstage : c.Stage) (hstate : c.state = .kDisconnected) {o : WriteOutcome}
    (hok : c.runFunctor mem .connectDestroyed o = .ok c') : c'.Stage := by
  have hups : c.ups = 2 := by
    cases hstage with
    | closed _ hups | removed _ hups => exact hups
    | connecting hstate' => simp [hstate] at hstate'
    | opened hopen => simp [IsOpen, hstate] at hopen
  have hlog := h.does_nothing.log (.ran .connectDestroyed)
  have hnot : ¬ (c.log (.ran .connectDestroyed)).state = .kConnected := by
    rw [show (c.log (.ran .connectDestroyed)).state = c.state from rfl, hstate]
    simp
  rw [runFunctor, connectDestroyed_eq, if_neg hnot, bind_ok] at hok
  obtain ⟨hdoes, hstate', hindex, hevents⟩ := onChannel_remove_ok hlog.wf hok
  have hall := hlog.trans hdoes
  refine .removed (hstate'.trans hstate) ?_ hindex hevents ?_
  · rw [hall.ups_eq, hups]
    rfl
  · rw [hall.trace_eq]
    simp

end TcpConnection

/-! ## What does not abort -/

/-- The process aborts, or its behaviour is undefined. -/
def Stop.fatal : Stop → Bool
  | .badAlloc | .disabled => false
  | _ => true

/-- The call returns, unless there is no memory. -/
abbrev Lives {α : Type*} (x : Res α) : Prop := Avoids Stop.fatal x

namespace Buffer

variable {mem : Memory} {b : Buffer}

lemma lives_of_allocates {x : Res Buffer} {P : Buffer → Prop} (h : Allocates x P) : Lives x := by
  rcases h with h | ⟨b', h, -⟩
  · rw [h]
    exact .error rfl
  · exact .of_eq_ok h

lemma create_lives : Lives (create mem kInitialSize) := by
  cases hfits : mem.fits (kCheapPrepend + kInitialSize) with
  | true =>
      obtain ⟨b, hok, -⟩ := create_spec hfits
      exact .of_eq_ok hok
  | false =>
      rw [create_badAlloc (by decide) hfits]
      exact .error rfl

lemma Wf.retrieve_lives (h : b.Wf) {len : ℕ} (hlen : len ≤ b.readableBytes) : Lives (b.retrieve len) := by
  rw [← h.length_toList] at hlen
  obtain ⟨b', hok, -⟩ := retrieve_spec h.represents hlen
  exact .of_eq_ok hok

lemma Wf.append_lives (h : b.Wf) {data : List UInt8} (hdata : data.length < 2 ^ 63) : Lives (b.append mem data) := by
  have hwirter := h.wirter_le
  have hlength := h.length_lt
  refine lives_of_allocates (append_spec mem h.represents ⟨?_, by omega⟩)
  rw [kCheapPrepend]
  omega

lemma Wf.readFd_lives (h : b.Wf) (o : ReadOutcome) : Lives (b.readFd mem o) := by
  cases o with
  | error e => exact .ok _
  | bytes data =>
      rcases Nat.lt_or_ge b.offered data.length with hmany | hoffered
      · rw [offered] at hmany
        simp only [readFd, if_pos hmany, throw_eq_error, bind_error]
        exact .error rfl
      · rcases Nat.lt_or_ge b.wirtableBytes data.length with hgt | hle
        · obtain ⟨first, hrep, -, -, hread⟩ := readFd_of_gt mem h.represents hgt hoffered
          rw [hread]
          refine .bind (hrep.wf.append_lives ?_) fun _ _ => .ok _
          have hlength := h.length_lt
          have hwirtable := h.wirtableBytes_eq
          rw [List.length_drop]
          rw [offered, extraBufSize] at hoffered
          split_ifs at hoffered <;> omega
        · obtain ⟨b', hread, -⟩ := readFd_of_le mem h.represents hle
          exact .of_eq_ok hread

end Buffer

namespace TcpConnection

variable {ι : Type} {c : TcpConnection ι} {mem : Memory}

/-- `handleRead` lives if `handleClose` does. -/
lemma handleReadWith_lives {β : Type} {close : TcpConnection ι → Res β} {done : TcpConnection ι → β}
    (hinput : c.inputBuffer.Wf) {o : ReadOutcome}
    (hclose : ∀ buffer, o = .bytes [] → Lives (close { c with inputBuffer := buffer })) :
    Lives (c.handleReadWith close done mem o) := by
  refine .bind (hinput.readFd_lives o) ?_
  rintro ⟨n, buffer⟩ hread
  cases n with
  | error e => exact .ok _
  | ok n =>
      dsimp only
      split_ifs with hpos
      · exact .ok _
      · refine hclose buffer ?_
        cases o with
        | error e => simp [Buffer.readFd] at hread
        | bytes data =>
            have hlength := Buffer.readFd_length hread
            rw [Except.ok.injEq] at hlength
            rw [List.eq_nil_of_length_eq_zero (l := data) (by omega)]

variable [DecidableEq ι]

lemma beginClose_lives (h : c.Wf) (hopen : c.IsOpen) : Lives c.beginClose := by
  refine .bind (.assertThat_of_pos hopen) fun _ _ => ?_
  exact .bind (onChannel_avoids (h.does_nothing.setState _).wf rfl) fun _ _ => .ok _

lemma bufferRemaining_lives (h : c.Wf) {data : List UInt8} (hdata : data.length < 2 ^ 63) (nwrote remaining : ℕ) :
    Lives (c.bufferRemaining mem data nwrote remaining) := by
  rw [bufferRemaining_eq]
  have hdrop : (data.drop nwrote).length < 2 ^ 63 := by
    rw [List.length_drop]
    omega
  refine .bind (h.outputBuffer.append_lives hdrop) fun buffer hbuffer => ?_
  have hnotify := (notify_does h (sizeAdd c.outputBuffer.readableBytes remaining)).1.wf
  have hwf : Wf { c.notify (sizeAdd c.outputBuffer.readableBytes remaining) with outputBuffer := buffer } :=
    ⟨hnotify.coherent, (h.outputBuffer.append hbuffer).1⟩
  split_ifs
  · exact onChannel_avoids hwf rfl
  · exact .ok _

lemma sendInLoop_lives (h : c.Wf) (t : Thread) {data : List UInt8} (hdata : data.length < 2 ^ 63) (o : WriteOutcome) :
    Lives (c.sendInLoop mem t data o) := by
  rw [sendInLoop]
  split_ifs
  · exact .ok _
  · refine .bind (directWrite_avoids rfl data o) ?_
    rintro ⟨c₁, nwrote, remaining, fault⟩ hwrite
    obtain ⟨hwf, hremaining⟩ : c₁.Wf ∧ remaining ≤ data.length := by
      cases directWrite_spec h hwrite with
      | busy => exact ⟨h, le_rfl⟩
      | direct _ _ _ hdoes => exact ⟨hdoes.wf, Nat.sub_le _ _⟩
      | error => exact ⟨h, le_rfl⟩
    refine .bind (.assertThat_of_pos hremaining) fun _ _ => ?_
    cases fault with
    | true => exact .ok _
    | false =>
        simp only [Bool.false_eq_true, if_false, not_false_eq_true, true_and]
        split_ifs
        · exact bufferRemaining_lives (hwf.does_nothing.log _).wf hdata _ _
        · exact .ok _

/-- Nothing waits to write. -/
lemma handleWrite_lives (hstage : c.Stage) (o : WriteOutcome) : Lives (c.handleWrite o) := by
  rw [handleWrite, hstage.isWriting_eq, if_neg (by simp)]
  exact .ok _

/-- `connectDestroyed` as a functor, after `handleClose`. -/
lemma connectDestroyed_lives (h : c.Wf) (hstate : c.state = .kDisconnected) (hindex : c.ch.index ≠ .kNew)
    (hevents : c.ch.events = ∅) : Lives c.connectDestroyed := by
  rw [connectDestroyed_eq, if_neg (by simp [hstate]), bind_ok]
  obtain ⟨p, hok, -⟩ := Registry.remove_spec h.coherent hindex hevents
  rw [onChannel, hok, bind_ok]
  exact .ok _

/-- A functor other than `forceCloseInLoop`. -/
lemma runFunctor_lives (h : c.Wf) (hstage : c.Stage) {f : Functor} (hplain : f.Plain) (hforce : f ≠ .forceCloseInLoop)
    (hdestroyed : f = .connectDestroyed → c.state = .kDisconnected ∧ .ran .connectDestroyed ∉ c.trace)
    (o : WriteOutcome) : Lives (c.runFunctor mem f o) := by
  have hlog := h.does_nothing.log (.ran f)
  cases f with
  | sendInLoop t message => exact sendInLoop_lives hlog.wf t hplain o
  | shutdownInLoop => exact .ok _
  | forceCloseInLoop => exact absurd rfl hforce
  | startReadInLoop | stopReadInLoop => exact hplain.elim
  | writeCompleteCallback | highWateMarkCallback _ => exact .ok _
  | connectDestroyed =>
      obtain ⟨hstate, hran⟩ := hdestroyed rfl
      obtain ⟨hindex, hevents⟩ := hstage.closed_ch hstate hran
      exact connectDestroyed_lives hlog.wf hstate hindex hevents

lemma runInLoop_lives (h : c.Wf) (hstage : c.Stage) {t : Thread} {f : Functor} (hplain : f.Plain)
    (hforce : f ≠ .forceCloseInLoop) (hdestroyed : f ≠ .connectDestroyed) (o : WriteOutcome) :
    Lives (c.runInLoop mem t f o) := by
  rw [runInLoop]
  split_ifs
  · exact runFunctor_lives h hstage hplain hforce (fun heq => absurd heq hdestroyed) o
  · exact .ok _

/-- A call by any thread. -/
lemma call_lives (h : c.Wf) (hstage : c.Stage) (t : Thread) {m : Call} (hplain : m.Plain) (o : WriteOutcome) :
    Lives (c.call mem t o m) := by
  cases m with
  | send message =>
      rw [call]
      split_ifs
      · have hlog := h.does_nothing.log (.send t message)
        have hcalm := log_send_calm h t message
        exact runInLoop_lives (f := .sendInLoop t message) hlog.wf (hstage.calm hcalm) hplain (by simp) (by simp) o
      · exact .ok _
  | shutdown =>
      rw [call]
      split_ifs with hstate
      · have hlog := (h.does_nothing.setState .kDisconnecting).log .shutdown
        have hcalm := log_shutdown_calm h hstate
        exact runInLoop_lives (f := .shutdownInLoop) hlog.wf (hstage.calm hcalm) trivial (by simp) (by simp) o
      · exact .ok _
  | forceClose =>
      rw [call]
      split_ifs
      · exact .ok _
      · exact .ok _
  | startRead | stopRead => exact hplain.elim

end TcpConnection

end Seenet
