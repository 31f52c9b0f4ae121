import Seenet.TcpConnection.Lifecycle

/-!
# A closed connection stays out of the poller

The poller holds a plain pointer to the channel of a connection.  Once the connection is disconnected its
channel is to wait for nothing, and once `connectDestroyed` has removed it, it is to be gone for good.
`sendInLoop`, `shutdown` and `forceClose` look at `m_state` first; `startReadInLoop` and `stopReadInLoop`
do not, and a second `handleClose` updates the channel as the first one did.

* `StaysOut` — what a closed connection may have left in the poller, which is nothing.
* `Revives` — the steps that bring a closed connection back.
* **`staysOut_iff`** — closed connections stay out of the poller exactly in the runs without such steps.
* **`not_staysOut`** — reading is started after the close, and after the channel has been removed.
-/

namespace Seenet

open Channel TcpConnection

namespace Life

variable {ι : Type} {l l' : Life ι} {a : Action}

/-- A connection that has been disconnected waits for nothing, and a channel that has been removed is neither
in `m_channels` nor in the kernel's set. -/
def StaysOut (l : Life ι) : Prop :=
  (l.disconnected = true → l.conn.ch.events = ∅) ∧
    (l.removed = true → l.conn.registry.poller.channels l.conn.ch.fd = none ∧
      l.conn.registry.poller.epollSet l.conn.ch.fd = none)

/-- The step starts reading on a connection that has been disconnected, or it starts or stops reading or
closes when the channel has been removed. -/
def Revives (l : Life ι) (a : Action) : Prop :=
  l.disconnected = true ∧ l.kind a = .startRead ∨
    l.removed = true ∧ (l.kind a = .startRead ∨ l.kind a = .stopRead ∨ l.kind a = .close)

/-- What holds throughout a run without such steps. -/
structure Out (l : Life ι) : Prop where
  wf : l.conn.Wf
  disconnected : l.disconnected = true → l.conn.ch.events = ∅
  removed : l.removed = true → l.conn.ch.events = ∅ ∧ l.conn.ch.index = .kNew
  closed : l.conn.state = .kDisconnected → l.disconnected = true
  constructed : l.conn.state = .kConnecting → l.disconnected = false ∧ l.removed = false

lemma create_out (s : Setting ι) : (create s).Out where
  wf := create_wf s
  disconnected h := by simp [create] at h
  removed h := by simp [create] at h
  closed h := by simp [create, Setting.connection, TcpConnection.create] at h
  constructed _ := ⟨rfl, rfl⟩

lemma Out.staysOut (h : l.Out) : l.StaysOut := by
  refine ⟨h.disconnected, fun hremoved => ?_⟩
  obtain ⟨-, hindex⟩ := h.removed hremoved
  have hchannels := h.wf.coherent.channels_eq l.conn.channel
  have hepoll := h.wf.coherent.epoll_eq l.conn.channel
  rw [if_pos (by exact hindex)] at hchannels
  rw [if_neg (by simp [show (l.conn.registry.heap l.conn.channel).index = .kNew from hindex])] at hepoll
  exact ⟨hchannels, hepoll⟩

/-- A step of any kind ends in a connection that is established. -/
lemma Steps.ne_connecting (h : l.Steps a l') : l'.conn.state ≠ .kConnecting := by
  have hchanges := h.changes
  generalize hkind : l.kind a = k at hchanges
  have hsame : k ≠ .establish → l'.conn.state = l.conn.state → l'.conn.state ≠ .kConnecting := by
    intro hk hstate
    rw [hstate]
    refine h.established.resolve_left ?_
    rintro rfl
    exact hk hkind.symm
  cases hchanges with
  | rest hstate => exact hsame (by simp) hstate
  | establish hstate hstate' => simp [hstate']
  | disconnecting hstate' => simp [hstate']
  | close hopen hstate' => simp [hstate']
  | startRead hstate => exact hsame (by simp) hstate
  | stopRead hstate => exact hsame (by simp) hstate
  | remove hstate => exact hsame (by simp) hstate

/-- A connection that has not been disconnected is so only by a step that leaves it `kDisconnected`. -/
lemma Steps.disconnected_of (h : l.Steps a l') (hclosed : l.conn.state = .kDisconnected →
    l.disconnected = true) (hstate : l'.conn.state = l.conn.state) :
    l'.disconnected = true → l.disconnected = true := by
  rw [h.disconnected, hstate, Bool.or_eq_true, decide_eq_true_iff]
  rintro (hd | hd)
  · exact hd
  · exact hclosed hd

lemma Steps.out (hsteps : l.Steps a l') (h : l.Out) (hnot : ¬ l.Revives a) : l'.Out := by
  have hchanges := hsteps.changes
  have hremoved := hsteps.removed
  have hconstructed := hsteps.ne_connecting
  rw [Revives, not_or, not_and, not_and, not_or, not_or] at hnot
  generalize hkind : l.kind a = k at hchanges hremoved hnot
  have hclosed : l'.conn.state = .kDisconnected → l'.disconnected = true := by
    intro hstate
    simp [hsteps.disconnected, hstate]
  have hout : (l'.disconnected = true → l'.conn.ch.events = ∅) →
      (l'.removed = true → l'.conn.ch.events = ∅ ∧ l'.conn.ch.index = .kNew) → l'.Out :=
    fun hd hr => ⟨hsteps.wf, hd, hr, hclosed, fun hstate => absurd hstate hconstructed⟩
  have hkeeps : k ≠ .remove → l'.removed = true → l.removed = true := by
    intro hk hr
    simpa [hremoved, hk] using hr
  cases hchanges with
  | rest hstate hch =>
      refine hout (fun hd => ?_) (fun hr => ?_)
      · have hevents := h.disconnected (hsteps.disconnected_of h.closed hstate hd)
        rwa [hch hevents]
      · have hold := h.removed (hkeeps (by simp) hr)
        rwa [hch hold.1]
  | establish hstate hstate' =>
      obtain ⟨hnd, hnr⟩ := h.constructed hstate
      refine hout (fun hd => ?_) (fun hr => ?_)
      · simp [hsteps.disconnected, hnd, hstate'] at hd
      · simp [hkeeps (by simp) hr] at hnr
  | disconnecting hstate' hch =>
      refine hout (fun hd => ?_) (fun hr => ?_)
      · rw [hch]
        exact h.disconnected (by simpa [hsteps.disconnected, hstate'] using hd)
      · rw [hch]
        exact h.removed (hkeeps (by simp) hr)
  | close hopen hstate' hch =>
      refine hout (fun _ => by rw [hch, updated_events]) (fun hr => ?_)
      exact absurd rfl (hnot.2 (hkeeps (by simp) hr)).2.2
  | startRead hstate hch =>
      refine hout (fun hd => ?_) (fun hr => ?_)
      · exact absurd rfl (hnot.1 (hsteps.disconnected_of h.closed hstate hd))
      · exact absurd rfl (hnot.2 (hkeeps (by simp) hr)).1
  | stopRead hstate hch =>
      refine hout (fun hd => ?_) (fun hr => ?_)
      · rw [hch, updated_events, h.disconnected (hsteps.disconnected_of h.closed hstate hd)]
        exact Finset.empty_sdiff _
      · exact absurd rfl (hnot.2 (hkeeps (by simp) hr)).2.1
  | remove hstate hevents hindex hevents' =>
      exact hout (fun _ => hevents') fun _ => ⟨hevents', hindex⟩

/-- A channel the poller does not know is added to the kernel's set by any update. -/
lemma not_staysOut_of_updated (hwf : l'.conn.Wf) (hremoved : l'.removed = true)
    {events : Finset Event} (hindex : l.conn.ch.index = .kNew)
    (hch : l'.conn.ch = l.conn.ch.updated events) : ¬ l'.StaysOut := by
  intro hstays
  have hadded : (l'.conn.registry.heap l'.conn.channel).index = .kAdded := by
    have hupdated : l'.conn.ch.index = nextIndex l.conn.ch.index events := congrArg Channel.index hch
    rw [hindex, nextIndex, if_neg (by simp)] at hupdated
    exact hupdated
  have hepoll := hwf.coherent.epoll_eq l'.conn.channel
  rw [if_pos hadded] at hepoll
  have hnone := (hstays.2 hremoved).2
  rw [TcpConnection.ch, hepoll] at hnone
  simp at hnone

lemma Steps.not_staysOut (hsteps : l.Steps a l') (h : l.Out) (hrevives : l.Revives a) :
    ¬ l'.StaysOut := by
  have hchanges := hsteps.changes
  have hkeeps : l.removed = true → l'.removed = true := by
    intro hr
    simp [hsteps.removed, hr]
  rcases hrevives with ⟨hd, hkind⟩ | ⟨hr, hkind | hkind | hkind⟩
  · rw [hkind] at hchanges
    cases hchanges with
    | startRead hstate hch =>
        intro hstays
        have hevents := hstays.1 (by simp [hsteps.disconnected, hd])
        rw [hch, updated_events] at hevents
        have hmem : .epollin ∈ l.conn.ch.events ∪ kReadEvent :=
          Finset.mem_union_right _ (Finset.mem_insert_self _ _)
        simp [hevents] at hmem
  · rw [hkind] at hchanges
    cases hchanges with
    | startRead hstate hch =>
        exact not_staysOut_of_updated hsteps.wf (hkeeps hr) (h.removed hr).2 hch
  · rw [hkind] at hchanges
    cases hchanges with
    | stopRead hstate hch =>
        exact not_staysOut_of_updated hsteps.wf (hkeeps hr) (h.removed hr).2 hch
  · rw [hkind] at hchanges
    cases hchanges with
    | close hopen hstate' hch =>
        exact not_staysOut_of_updated hsteps.wf (hkeeps hr) (h.removed hr).2 hch

variable [DecidableEq ι]

/-- **When a closed connection stays out of the poller.**  In every state of a run of a connection from its
constructor on, a connection that has been disconnected waits for nothing and a removed channel is not in
the poller, if and only if no step of the run revives the connection. -/
theorem staysOut_iff (s : Setting ι) (as : List Action) :
    (∀ l ∈ Machine.states (step s.mem) (create s) as, l.StaysOut) ↔
      ∀ p ∈ Machine.steps (step s.mem) (create s) as, ¬ p.1.Revives p.2 := by
  refine Machine.forall_states_iff (I := Out) (C := fun l a => ¬ l.Revives a)
    (fun l h => h.staysOut) ?_ ?_ (create_out s) as
  · exact fun l a l' h hnot hstep => (changes_of_step h.wf hstep).out h hnot
  · exact fun l a l' h hnot hstep => (changes_of_step h.wf hstep).not_staysOut h (not_not.mp hnot)

/-- A forced close, until `m_closeCallback` has been called. -/
def forcedClose : List Action :=
  [.connectEstablished, .call .forceClose (.wrote 0), .takePending, .nextFunctor (.wrote 0), .return]

/-- **A closed connection in the poller.**  The user calls `startRead` after a forced close, before and after
`connectDestroyed` has run. -/
theorem not_staysOut :
    (∃ l, Machine.run (step Setting.plain.mem) (create Setting.plain)
        (forcedClose ++ [.call .startRead (.wrote 0)]) = .ok l ∧
      l.disconnected = true ∧ l.conn.ch.events = kReadEvent ∧ ¬ l.StaysOut) ∧
    ∃ l, Machine.run (step Setting.plain.mem) (create Setting.plain)
        (forcedClose ++ [.takePending, .nextFunctor (.wrote 0), .call .startRead (.wrote 0)]) = .ok l ∧
      l.removed = true ∧ l.conn.registry.poller.channels l.conn.ch.fd = some () ∧ ¬ l.StaysOut := by
  have hfirst : (Machine.run (step Setting.plain.mem) (create Setting.plain)
      (forcedClose ++ [.call .startRead (.wrote 0)])).map
        (fun l => (l.disconnected, l.conn.ch.events)) = .ok (true, kReadEvent) := by
    decide +kernel
  have hsecond : (Machine.run (step Setting.plain.mem) (create Setting.plain)
      (forcedClose ++ [.takePending, .nextFunctor (.wrote 0), .call .startRead (.wrote 0)])).map
        (fun l => (l.removed, l.conn.registry.poller.channels l.conn.ch.fd)) = .ok (true, some ()) := by
    decide +kernel
  obtain ⟨l, hl, hobs⟩ := Machine.ok_of_map hfirst
  obtain ⟨k, hk, hobs'⟩ := Machine.ok_of_map hsecond
  rw [Prod.mk.injEq] at hobs hobs'
  refine ⟨⟨l, hl, hobs.1, hobs.2, fun h => ?_⟩, k, hk, hobs'.1, hobs'.2, fun h => ?_⟩
  · have hevents := h.1 hobs.1
    simp [hobs.2, kReadEvent] at hevents
  · have hchannels := (h.2 hobs'.1).1
    simp [hobs'.2] at hchannels

end Life

end Seenet
