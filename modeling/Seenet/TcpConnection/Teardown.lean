import Seenet.TcpConnection.Lifecycle

/-!
# Tearing a connection down

`connectDestroyed` ends every connection: it is queued when the connection has been closed, and
`~TcpServer` calls it for the connections that are still there.  It disconnects a connection that is
`kConnected`, and then removes the channel, whatever the connection is by then.

* `connectDestroyedWith` — `connectDestroyed`, with the calls that the user makes in `m_connCallback`.
* `TornDown` — what `~TcpConnection` may find.
* **`teardown_iff`** — from which states a connection is torn down.
* **`not_teardown`** — after `shutdown`, and after `startRead` on a closed connection, it is not.
-/

namespace Seenet

open Channel

namespace TcpConnection

variable {ι : Type} {c c' : TcpConnection ι}

/-- The connection is disconnected, its channel is not in the poller, and the user has been told twice: that
the connection is up, and that it is down. -/
structure TornDown (c : TcpConnection ι) : Prop where
  state : c.state = .kDisconnected
  index : c.ch.index = .kNew
  channels : c.registry.poller.channels c.ch.fd = none
  epollSet : c.registry.poller.epollSet c.ch.fd = none
  ups : c.ups = 2

/-- Whether the user leaves reading on: the last of the calls that start and stop it. -/
def readingAfter (reading : Bool) : List (Call × WriteOutcome) → Bool
  | [] => reading
  | (.startRead, _) :: calls => readingAfter true calls
  | (.stopRead, _) :: calls => readingAfter false calls
  | _ :: calls => readingAfter reading calls

lemma readingAfter_cons (reading : Bool) (m : Call × WriteOutcome)
    (calls : List (Call × WriteOutcome)) :
    readingAfter reading (m :: calls) = readingAfter (readingAfter reading [m]) calls := by
  obtain ⟨m, o⟩ := m
  cases m <;> rfl

/-- The connection is disconnected and in the poller, and waits to read or for nothing. -/
structure Down (c : TcpConnection ι) (reading : Bool) (ups : ℕ) : Prop where
  wf : c.Wf
  state : c.state = .kDisconnected
  index : c.ch.index ≠ .kNew
  events : c.ch.events = if reading then kReadEvent else ∅
  ups : c.ups = ups

lemma nextIndex_ne_kNew (index : Index) (events : Finset Event) : nextIndex index events ≠ .kNew := by
  rw [nextIndex]
  split_ifs <;> simp

/-- The channel has been updated. -/
lemma Down.updated {reading reading' : Bool} {n : ℕ} (h : c.Down reading n) (hwf : c'.Wf)
    (hstate : c'.state = c.state) (hups : c'.ups = c.ups) {events : Finset Event}
    (hch : c'.ch = c.ch.updated events) (hevents : events = if reading' then kReadEvent else ∅) :
    c'.Down reading' n where
  wf := hwf
  state := hstate.trans h.state
  index := by
    rw [hch, updated_index]
    exact nextIndex_ne_kNew _ _
  events := by rw [hch, updated_events, hevents]
  ups := hups.trans h.ups

lemma Down.log {reading : Bool} {n : ℕ} (h : c.Down reading n) {e : Effect} (he : e ≠ .connCallback) :
    (c.log e).Down reading n where
  wf := (h.wf.does_nothing.log e).wf
  state := h.state
  index := h.index
  events := h.events
  ups := by
    rw [(h.wf.does_nothing.log e).ups_eq, List.nil_append, List.count_singleton, h.ups]
    simp [he]

variable [DecidableEq ι]

/-- The user calls the connection, one call after another. -/
def callAll (mem : Memory) (c : TcpConnection ι) : List (Call × WriteOutcome) → Res (TcpConnection ι)
  | [] => .ok c
  | (m, outcome) :: calls => do
      let c ← c.call mem .loop outcome m
      c.callAll mem calls

/-- `connectDestroyed`, when the user makes these calls in `m_connCallback`. -/
def connectDestroyedWith (mem : Memory) (c : TcpConnection ι) (calls : List (Call × WriteOutcome)) :
    Res (TcpConnection ι) :=
  if c.state = .kConnected then do
    let c ← c.beginDestroy
    let c ← c.callAll mem calls
    c.onChannel Registry.remove
  else c.onChannel Registry.remove

lemma connectDestroyedWith_nil (mem : Memory) (c : TcpConnection ι) :
    c.connectDestroyedWith mem [] = c.connectDestroyed := by
  rw [connectDestroyed_eq, connectDestroyedWith]
  split_ifs with hstate
  · simp only [callAll, bind_ok]
  · rw [bind_ok]

variable {mem : Memory}

/-! ## The removal -/

/-- `m_Channel->remove()` returns for a channel in the poller that waits for nothing, and for no other. -/
lemma remove_ok_iff (h : c.Wf) : (∃ c', c.onChannel Registry.remove = .ok c') ↔
    c.ch.index ≠ .kNew ∧ c.ch.events = ∅ := by
  constructor
  · rintro ⟨c', hok⟩
    simp only [onChannel, bind_eq_ok, pure_eq_ok, Except.ok.injEq] at hok
    obtain ⟨r, hr, -⟩ := hok
    refine ⟨?_, (Registry.remove_ok h.coherent hr).2.1⟩
    intro hindex
    have hchannels := h.coherent.channels_eq c.channel
    rw [if_pos (by exact hindex)] at hchannels
    simp [Registry.remove, EPollPoller.removeChannel, hchannels, assertThat] at hr
  · rintro ⟨hindex, hevents⟩
    obtain ⟨p, hp, -⟩ := Registry.remove_spec h.coherent hindex hevents
    exact ⟨_, by rw [onChannel, hp, bind_ok, pure_eq_ok]⟩

/-- What it leaves of a connection. -/
lemma tornDown_of_remove (h : c.Wf) (hok : c.onChannel Registry.remove = .ok c') :
    c'.TornDown ↔ c.state = .kDisconnected ∧ c.ups = 2 := by
  obtain ⟨hwf, hchanges⟩ := remove_changes h hok
  cases hchanges with
  | remove hstate hevents hindex hevents' hups =>
      constructor
      · exact fun htorn => ⟨hstate.symm.trans htorn.state, hups.symm.trans htorn.ups⟩
      · rintro ⟨hdisconnected, htwo⟩
        have hchannels := hwf.coherent.channels_eq c'.channel
        have hepoll := hwf.coherent.epoll_eq c'.channel
        rw [if_pos (by exact hindex)] at hchannels
        rw [if_neg (by rw [show (c'.registry.heap c'.channel).index = .kNew from hindex]; simp)] at hepoll
        exact ⟨hstate.trans hdisconnected, hindex, hchannels, hepoll, hups.trans htwo⟩

/-! ## The user's callback -/

lemma Down.startReadInLoop {reading : Bool} {n : ℕ} (h : c.Down reading n) :
    ∃ c', c.startReadInLoop = .ok c' ∧ c'.Down true n := by
  obtain ⟨c', hok, hdoes, hstate, hcase⟩ := startReadInLoop_spec h.wf
  refine ⟨c', hok, ?_⟩
  split_ifs at hcase with htouch
  · refine h.updated hdoes.wf hstate hdoes.ups_eq hcase ?_
    rw [h.events]
    cases reading <;> simp
  · rw [hcase]
    cases reading with
    | true => exact h
    | false => exact absurd (Or.inr (by rw [isReading, h.events]; decide)) htouch

lemma Down.stopReadInLoop {reading : Bool} {n : ℕ} (h : c.Down reading n) :
    ∃ c', c.stopReadInLoop = .ok c' ∧ c'.Down false n := by
  obtain ⟨c', hok, hdoes, hstate, hcase⟩ := stopReadInLoop_spec h.wf
  refine ⟨c', hok, ?_⟩
  split_ifs at hcase with htouch
  · refine h.updated hdoes.wf hstate hdoes.ups_eq hcase ?_
    rw [h.events]
    cases reading <;> simp
  · rw [hcase]
    cases reading with
    | true => exact absurd (Or.inr (by rw [isReading, h.events]; decide)) htouch
    | false => exact h

/-- **A call in the callback** does nothing to a disconnected connection, unless it starts or stops reading. -/
lemma Down.call {reading : Bool} {n : ℕ} (h : c.Down reading n) (mem : Memory) (m : Call) (o : WriteOutcome) :
    ∃ c', c.call mem .loop o m = .ok c' ∧ c'.Down (readingAfter reading [(m, o)]) n := by
  cases m with
  | send message => exact ⟨c, by rw [TcpConnection.call, if_neg (by simp [h.state])], h⟩
  | shutdown => exact ⟨c, by rw [TcpConnection.call, if_neg (by simp [h.state])], h⟩
  | forceClose => exact ⟨c, by rw [TcpConnection.call, if_neg (by simp [h.state])], h⟩
  | startRead => exact (h.log (e := .ran .startReadInLoop) (by simp)).startReadInLoop
  | stopRead => exact (h.log (e := .ran .stopReadInLoop) (by simp)).stopReadInLoop

lemma Down.callAll {reading : Bool} {n : ℕ} (h : c.Down reading n) (mem : Memory)
    (calls : List (Call × WriteOutcome)) :
    ∃ c', c.callAll mem calls = .ok c' ∧ c'.Down (readingAfter reading calls) n := by
  induction calls generalizing c reading with
  | nil => exact ⟨c, rfl, h⟩
  | cons m calls ih =>
      obtain ⟨c₁, h₁, hdown⟩ := h.call mem m.1 m.2
      obtain ⟨c', hc', hdown'⟩ := ih hdown
      refine ⟨c', ?_, ?_⟩
      · rw [TcpConnection.callAll, h₁, bind_ok, hc']
      · rwa [readingAfter_cons]

lemma beginDestroy_down (h : c.Wf) (hstate : c.state = .kConnected) :
    ∃ c', c.beginDestroy = .ok c' ∧ c'.Down false (c.ups + 1) := by
  have hset := h.does_nothing.setState .kDisconnected
  obtain ⟨c₁, h₁, -⟩ := onChannel_spec hset.wf (show Registry.disableAll _ _ = _ from rfl)
  have hok : c.beginDestroy = .ok (c₁.log .connCallback) := by
    simp only [beginDestroy, h₁, bind_ok, pure_eq_ok]
  obtain ⟨hwf, hchanges⟩ := beginDestroy_changes h hstate hok
  cases hchanges with
  | close hopen hstate' hch hups =>
      refine ⟨_, hok, hwf, hstate', ?_, by rw [hch]; rfl, hups⟩
      rw [hch, updated_index]
      exact nextIndex_ne_kNew _ _

/-- **`connectDestroyed`** of one connection. -/
lemma tornDown_iff (h : c.Wf) (hups : c.state = .kConnected → c.ups = 1)
    (calls : List (Call × WriteOutcome)) :
    (∃ c', c.connectDestroyedWith mem calls = .ok c' ∧ c'.TornDown) ↔
      (c.state = .kConnected ∧ readingAfter false calls = false) ∨
        (c.state = .kDisconnected ∧ c.ch.index ≠ .kNew ∧ c.ch.events = ∅ ∧ c.ups = 2) := by
  by_cases hstate : c.state = .kConnected
  · obtain ⟨c₁, h₁, hdown₁⟩ := beginDestroy_down h hstate
    obtain ⟨c₂, h₂, hdown₂⟩ := hdown₁.callAll mem calls
    have hwith : c.connectDestroyedWith mem calls = c₂.onChannel Registry.remove := by
      simp only [connectDestroyedWith, if_pos hstate, h₁, h₂, bind_ok]
    rw [hwith]
    simp only [hstate, true_and, reduceCtorEq, false_and, or_false]
    constructor
    · rintro ⟨c', hok, -⟩
      have hevents := ((remove_ok_iff hdown₂.wf).mp ⟨c', hok⟩).2
      rw [hdown₂.events] at hevents
      by_contra hreading
      simp [hreading, kReadEvent] at hevents
    · intro hreading
      have hevents : c₂.ch.events = ∅ := by
        rw [hdown₂.events, hreading]
        rfl
      obtain ⟨c', hok⟩ := (remove_ok_iff hdown₂.wf).mpr ⟨hdown₂.index, hevents⟩
      have htwo : c₂.ups = 2 := by rw [hdown₂.ups, hups hstate]
      exact ⟨c', hok, (tornDown_of_remove hdown₂.wf hok).mpr ⟨hdown₂.state, htwo⟩⟩
  · rw [connectDestroyedWith, if_neg hstate]
    simp only [hstate, false_and, false_or]
    constructor
    · rintro ⟨c', hok, htorn⟩
      obtain ⟨hindex, hevents⟩ := (remove_ok_iff h).mp ⟨c', hok⟩
      obtain ⟨hdisconnected, htwo⟩ := (tornDown_of_remove h hok).mp htorn
      exact ⟨hdisconnected, hindex, hevents, htwo⟩
    · rintro ⟨hdisconnected, hindex, hevents, htwo⟩
      obtain ⟨c', hok⟩ := (remove_ok_iff h).mpr ⟨hindex, hevents⟩
      exact ⟨c', hok, (tornDown_of_remove h hok).mpr ⟨hdisconnected, htwo⟩⟩

end TcpConnection

/-! ## Runs -/

namespace Life

open TcpConnection

variable {ι : Type} {l l' : Life ι} {a : Action}

/-- Who has been told what: nobody of a connection that is only constructed, and the user once of one that is
connected. -/
structure Announced (l : Life ι) : Prop where
  wf : l.conn.Wf
  constructed : l.conn.state = .kConnecting → l.conn.ups = 0
  connected : l.conn.state = .kConnected → l.conn.ups = 1

lemma create_announced (s : Setting ι) : (create s).Announced where
  wf := create_wf s
  constructed _ := rfl
  connected h := by simp [create, Setting.connection, TcpConnection.create] at h

lemma Steps.announced (hsteps : l.Steps a l') (h : l.Announced) : l'.Announced := by
  have hsame : l'.conn.state = l.conn.state → l'.conn.ups = l.conn.ups → l'.Announced := by
    intro hstate hups
    refine ⟨hsteps.wf, ?_, ?_⟩
    · rw [hstate, hups]
      exact h.constructed
    · rw [hstate, hups]
      exact h.connected
  have hchanges := hsteps.changes
  generalize l.kind a = k at hchanges
  cases hchanges with
  | rest hstate hch hups => exact hsame hstate hups
  | establish hstate hstate' hups =>
      exact ⟨hsteps.wf, by simp [hstate'], fun _ => by rw [hups, h.constructed hstate]⟩
  | disconnecting hstate' => exact ⟨hsteps.wf, by simp [hstate'], by simp [hstate']⟩
  | close hopen hstate' => exact ⟨hsteps.wf, by simp [hstate'], by simp [hstate']⟩
  | startRead hstate hch hups => exact hsame hstate hups
  | stopRead hstate hch hups => exact hsame hstate hups
  | remove hstate hevents hindex hevents' hups => exact hsame hstate hups

variable [DecidableEq ι]

/-- **When a connection is torn down.**  In every state that a run reaches, `connectDestroyed` of the connection,
whatever the user calls in `m_connCallback`, returns with the connection torn down, if and only if the
connection is `kConnected` and the user does not leave reading on, or it has been closed once, its channel
is in the poller and it waits for nothing. -/
theorem teardown_iff (s : Setting ι) {as : List Action} {l : Life ι}
    (has : Machine.run (step s.mem) (create s) as = .ok l) (calls : List (Call × WriteOutcome)) :
    (∃ c, l.conn.connectDestroyedWith s.mem calls = .ok c ∧ c.TornDown) ↔
      (l.conn.state = .kConnected ∧ readingAfter false calls = false) ∨
        (l.conn.state = .kDisconnected ∧ l.conn.ch.index ≠ .kNew ∧ l.conn.ch.events = ∅ ∧
          l.conn.ups = 2) := by
  have h : l.Announced := Machine.run_invariant
    (fun _ _ _ h hstep => (changes_of_step h.wf hstep).announced h) (create_announced s) has
  exact tornDown_iff h.wf h.connected calls

/-- A connection that is just up. -/
theorem teardown_iff_connected :
    ∃ l, Machine.run (step Setting.plain.mem) (create Setting.plain) [.connectEstablished] = .ok l ∧
      ∃ c, l.conn.connectDestroyedWith Setting.plain.mem [(.stopRead, .wrote 0)] = .ok c ∧
        c.TornDown := by
  have hrun : (Machine.run (step Setting.plain.mem) (create Setting.plain)
      [.connectEstablished]).map (fun l => l.conn.state) = .ok .kConnected := by
    decide +kernel
  obtain ⟨l, hl, hstate⟩ := Machine.ok_of_map hrun
  exact ⟨l, hl, (teardown_iff Setting.plain hl _).mpr (Or.inl ⟨hstate, rfl⟩)⟩

/-- **A connection that is not torn down.**  After `shutdown` the assertion of `removeChannel` fails; if reading
has been stopped, `connectDestroyed` returns, and leaves the connection as it was. -/
theorem not_teardown :
    (∃ l, Machine.run (step Setting.plain.mem) (create Setting.plain)
        [.connectEstablished, .call .shutdown (.wrote 0)] = .ok l ∧
      l.conn.state = .kDisconnecting ∧ l.inTable = true ∧
      l.conn.connectDestroyed = .error (.assertFailed .removeChannel)) ∧
    ∃ l c, Machine.run (step Setting.plain.mem) (create Setting.plain)
        [.connectEstablished, .call .stopRead (.wrote 0), .call .shutdown (.wrote 0)] = .ok l ∧
      l.inTable = true ∧ l.conn.connectDestroyed = .ok c ∧ c.state = .kDisconnecting ∧ c.ups = 1 := by
  have hfirst : (Machine.run (step Setting.plain.mem) (create Setting.plain)
      [.connectEstablished, .call .shutdown (.wrote 0)]).map
        (fun l => (l.conn.state, l.inTable, l.conn.connectDestroyed.map fun c => c.state))
      = .ok (.kDisconnecting, true, .error (.assertFailed .removeChannel)) := by
    decide +kernel
  have hsecond : (Machine.run (step Setting.plain.mem) (create Setting.plain)
      [.connectEstablished, .call .stopRead (.wrote 0), .call .shutdown (.wrote 0)]).map
        (fun l => (l.inTable, l.conn.connectDestroyed.map fun c => (c.state, c.ups)))
      = .ok (true, .ok (.kDisconnecting, 1)) := by
    decide +kernel
  obtain ⟨l, hl, hobs⟩ := Machine.ok_of_map hfirst
  obtain ⟨k, hk, hobs'⟩ := Machine.ok_of_map hsecond
  simp only [Prod.mk.injEq] at hobs hobs'
  obtain ⟨c, hc, hend⟩ := Machine.ok_of_map hobs'.2
  rw [Prod.mk.injEq] at hend
  exact ⟨⟨l, hl, hobs.1, hobs.2.1, Machine.error_of_map hobs.2.2⟩, k, c, hk, hobs'.1, hc, hend⟩

end Life

end Seenet
