import Seenet.Poller.EPollPoller
import Seenet.Lib.Machine

/-!
# The poller, the channels and the kernel agree

What is registered is kept three times: in the channel (its index and its mask), in the poller's map,
and in the kernel's set.  `Coherent` says that the three agree, for channels with distinct descriptors.

* `Coherent.replace` — what has to be checked when one channel and its two entries change.
* **`update_spec`**, `remove_spec`, `poll_spec` — every operation returns, keeps the three in
  agreement, and changes only the channel it is about.
* **`poller_coherent`** — so they agree throughout any use of any number of channels; the kernel never
  refuses a call, and no assertion fails.
-/

namespace Seenet

open Channel

variable {ι : Type}

/-- The index after an update that sets the mask to `events`.  A channel the poller knows and that waits
for nothing leaves the kernel's set; an update of any other one enters it, whatever the mask. -/
def nextIndex (index : Index) (events : Finset Event) : Index :=
  if index = .kAdded ∧ events = ∅ then .kDeleted else .kAdded

/-- The channel after an update that sets the mask to `events`. -/
def Channel.updated (ch : Channel) (events : Finset Event) : Channel :=
  { ch with events := events, index := nextIndex ch.index events }

@[simp] lemma Channel.updated_fd (ch : Channel) (ev : Finset Event) : (ch.updated ev).fd = ch.fd :=
  rfl

@[simp] lemma Channel.updated_events (ch : Channel) (ev : Finset Event) :
    (ch.updated ev).events = ev := rfl

@[simp] lemma Channel.updated_revents (ch : Channel) (ev : Finset Event) :
    (ch.updated ev).revents = ch.revents := rfl

@[simp] lemma Channel.updated_index (ch : Channel) (ev : Finset Event) :
    (ch.updated ev).index = nextIndex ch.index ev := rfl

/-! ## One channel and the poller -/

namespace EPollPoller

variable {p : EPollPoller ι} {c : ι} {ch : Channel}

/-- The poller after the two entries of the channel `ch` at `c` are set to what its index says. -/
def entered (p : EPollPoller ι) (c : ι) (ch : Channel) : EPollPoller ι :=
  { p with
    channels := Function.update p.channels ch.fd (if ch.index = .kNew then none else some c)
    epollSet := Function.update p.epollSet ch.fd
      (if ch.index = .kAdded then some ⟨ch.events, c⟩ else none) }

/-- The entries of the channel `ch` at `c` are what its index says; the mask may be out of date. -/
structure Knows (p : EPollPoller ι) (c : ι) (ch : Channel) : Prop where
  channels_eq : p.channels ch.fd = if ch.index = .kNew then none else some c
  epoll_isSome : (p.epollSet ch.fd).isSome = decide (ch.index = .kAdded)

lemma Knows.epoll_none (h : p.Knows c ch) (hidx : ch.index ≠ .kAdded) : p.epollSet ch.fd = none := by
  have hsome := h.epoll_isSome
  rw [decide_eq_false hidx, Option.isSome_eq_false_iff, Option.isNone_iff_eq_none] at hsome
  exact hsome

lemma Knows.epoll_some (h : p.Knows c ch) (hidx : ch.index = .kAdded) :
    ∃ e, p.epollSet ch.fd = some e := by
  have hsome := h.epoll_isSome
  rw [decide_eq_true hidx] at hsome
  exact Option.isSome_iff_exists.mp hsome

lemma update_add (hnone : p.epollSet ch.fd = none) : p.update .add c ch
    = { p with epollSet := Function.update p.epollSet ch.fd (some ⟨ch.events, c⟩) } := by
  simp only [update, epollCtl, hnone]

lemma update_mod {e : EpollEvent ι} (hsome : p.epollSet ch.fd = some e) : p.update .mod c ch
    = { p with epollSet := Function.update p.epollSet ch.fd (some ⟨ch.events, c⟩) } := by
  simp only [update, epollCtl, hsome]

lemma update_del {e : EpollEvent ι} (hsome : p.epollSet ch.fd = some e) : p.update .del c ch
    = { p with epollSet := Function.update p.epollSet ch.fd none } := by
  simp only [update, epollCtl, hsome]

/-- What the kernel delivers comes from its set. -/
lemma deliver_ok {fd : ℤ} {events : Finset Event} {e : EpollEvent ι}
    (h : epollWait.deliver p (fd, events) = .ok e) :
    ∃ e₀, e.events = events ∧ p.epollSet fd = some e₀ ∧ e.ptr = e₀.ptr ∧
      e.events ⊆ e₀.events ∪ {.epollerr, .epollhup} := by
  rw [epollWait.deliver] at h
  cases hset : p.epollSet fd with
  | none => simp [hset] at h
  | some e₀ =>
      simp only [hset] at h
      split_ifs at h with hsub
      rw [Except.ok.injEq] at h
      rw [← h]
      exact ⟨e₀, rfl, rfl, rfl, hsub⟩

lemma deliver_all_ok {report : List (ℤ × Finset Event)}
    {es : List (EpollEvent ι)} (h : report.mapM (epollWait.deliver p) = .ok es) :
    es.length = report.length ∧ ∀ e ∈ es, ∃ fd e₀, (fd, e.events) ∈ report ∧
      p.epollSet fd = some e₀ ∧ e.ptr = e₀.ptr ∧ e.events ⊆ e₀.events ∪ {.epollerr, .epollhup} := by
  induction report generalizing es with
  | nil =>
      rw [List.mapM_nil, pure_eq_ok, Except.ok.injEq] at h
      rw [← h]
      exact ⟨rfl, by simp⟩
  | cons a report ih =>
      rw [List.mapM_cons] at h
      simp only [bind_eq_ok, pure_eq_ok, Except.ok.injEq] at h
      obtain ⟨e, he, es', hes', rfl⟩ := h
      obtain ⟨hlen, hall⟩ := ih hes'
      refine ⟨by rw [List.length_cons, List.length_cons, hlen], ?_⟩
      intro e' he'
      rcases List.mem_cons.mp he' with rfl | he'
      · obtain ⟨e₀, hevents, hset⟩ := deliver_ok he
        exact ⟨a.1, e₀, by rw [hevents]; exact List.mem_cons_self, hset⟩
      · obtain ⟨fd, e₀, hmem, hset⟩ := hall e' he'
        exact ⟨fd, e₀, List.mem_cons_of_mem _ hmem, hset⟩

/-- The kernel's refusals to deliver are no steps of the program. -/
lemma epollWait_error {report : List (ℤ × Finset Event)} {e : Stop}
    (h : p.epollWait report = .error e) : e = .disabled := by
  rw [epollWait] at h
  split_ifs at h with hcond
  · clear hcond
    induction report with
    | nil => simp at h
    | cons a report ih =>
        rw [List.mapM_cons, bind_eq_error] at h
        rcases h with h | ⟨e', -, h⟩
        · rw [epollWait.deliver] at h
          split at h
          · split_ifs at h
            rw [Except.error.injEq] at h
            exact h.symm
          · rw [Except.error.injEq] at h
            exact h.symm
        · rw [bind_eq_error] at h
          rcases h with h | ⟨es, -, h⟩
          · exact ih h
          · simp at h
  · rw [Except.error.injEq] at h
    exact h.symm

variable [DecidableEq ι]

/-- **`updateChannel`** of a channel the poller knows: no assertion fails, the kernel accepts the call,
and the entries are brought up to date. -/
lemma updateChannel_spec (h : p.Knows c ch) : p.updateChannel c ch
    = .ok (p.entered c (ch.updated ch.events), ch.updated ch.events) := by
  have hmap := h.channels_eq
  cases hidx : ch.index with
  | kNew =>
      have hnone : p.epollSet ch.fd = none := h.epoll_none (by simp [hidx])
      have hnext : ch.updated ch.events = ch.setIdnex .kAdded := by
        simp [Channel.updated, nextIndex, hidx, setIdnex]
      rw [if_pos hidx] at hmap
      rw [updateChannel, if_pos (Or.inl hidx), if_pos hidx, assertThat_pos hmap, hnext]
      simp only [bind_ok, pure_eq_ok]
      rw [update_add (by exact hnone)]
      simp [entered, setIdnex]
  | kDeleted =>
      have hnone : p.epollSet ch.fd = none := h.epoll_none (by simp [hidx])
      have hnext : ch.updated ch.events = ch.setIdnex .kAdded := by
        simp [Channel.updated, nextIndex, hidx, setIdnex]
      rw [if_neg (by simp [hidx])] at hmap
      rw [updateChannel, if_pos (Or.inr hidx), if_neg (by simp [hidx]),
        assertThat_pos (by simp [hmap]), assertThat_pos hmap, hnext]
      simp only [bind_ok, pure_eq_ok]
      rw [update_add (by exact hnone)]
      simp [entered, setIdnex, ← hmap]
  | kAdded =>
      obtain ⟨e, hsome⟩ := h.epoll_some hidx
      rw [if_neg (by simp [hidx])] at hmap
      rw [updateChannel, if_neg (by simp [hidx]), assertThat_pos (by simp [hmap]),
        assertThat_pos hmap]
      simp only [bind_ok, pure_eq_ok, isNonEvent_iff]
      split_ifs with hev
      · have hnext : ch.updated ch.events = ch.setIdnex .kDeleted := by
          simp [Channel.updated, nextIndex, hidx, hev, setIdnex]
        rw [update_del hsome, hnext]
        simp [entered, setIdnex, ← hmap]
      · have hnext : ch.updated ch.events = ch := by
          rw [Channel.updated, nextIndex, if_neg (fun hand => hev hand.2), ← hidx]
        rw [update_mod hsome, hnext]
        simp [entered, hidx, ← hmap]

/-- **`removeChannel`** of a channel the poller knows and that waits for nothing. -/
lemma removeChannel_spec (h : p.Knows c ch) (hidx : ch.index ≠ .kNew) (hev : ch.events = ∅) :
    p.removeChannel c ch = .ok (p.entered c (ch.setIdnex .kNew), ch.setIdnex .kNew) := by
  have hmap := h.channels_eq
  rw [if_neg hidx] at hmap
  have hkind : ch.index = .kAdded ∨ ch.index = .kDeleted := by
    cases hi : ch.index with
    | kNew => exact absurd hi hidx
    | kAdded => exact Or.inl rfl
    | kDeleted => exact Or.inr rfl
  rw [removeChannel, assertThat_pos (by simp [hmap]), bind_ok, assertThat_pos hmap, bind_ok,
    assertThat_pos (isNonEvent_iff.mpr hev), bind_ok, assertThat_pos hkind, bind_ok]
  simp only [pure_eq_ok]
  split_ifs with hadd
  · obtain ⟨e, hsome⟩ := h.epoll_some hadd
    rw [update_del (by exact hsome)]
    simp [entered, setIdnex]
  · have hnone : p.epollSet ch.fd = none := h.epoll_none hadd
    simp [entered, setIdnex, ← hnone]

end EPollPoller

/-! ## All channels -/

namespace Registry

/-- The index of every channel says what the map holds, and index and mask say what the kernel holds.
There is nothing else in the kernel's set, and it has refused nothing. -/
structure Coherent (r : Registry ι) : Prop where
  fd_inj : Function.Injective fun c => (r.heap c).fd
  channels_eq : ∀ c, r.poller.channels (r.heap c).fd
    = if (r.heap c).index = .kNew then none else some c
  epoll_eq : ∀ c, r.poller.epollSet (r.heap c).fd
    = if (r.heap c).index = .kAdded then some ⟨(r.heap c).events, c⟩ else none
  epoll_fd : ∀ fd e, r.poller.epollSet fd = some e → (r.heap e.ptr).fd = fd
  refused_eq : r.poller.refused = []

/-- New channels with distinct descriptors, and a new poller. -/
lemma coherent_create (fd : ι ↪ ℤ) : (create fd).Coherent where
  fd_inj := fd.injective
  channels_eq _ := rfl
  epoll_eq _ := rfl
  epoll_fd _ _ h := by simp [create, EPollPoller.create] at h
  refused_eq := rfl

variable {r : Registry ι}

/-- The poller knows every channel, whatever mask it is about to get. -/
lemma Coherent.knows (h : r.Coherent) (c : ι) (events : Finset Event) :
    r.poller.Knows c ((r.heap c).setEvents events) where
  channels_eq := h.channels_eq c
  epoll_isSome := by
    have hset := h.epoll_eq c
    simp only [setEvents, hset]
    split_ifs with hidx <;> simp [hidx]

/-- Only the room for reports differs. -/
lemma Coherent.resize (h : r.Coherent) (n : ℕ) :
    Coherent { r with poller := { r.poller with eventsSize := n } } :=
  ⟨h.fd_inj, h.channels_eq, h.epoll_eq, h.epoll_fd, h.refused_eq⟩

/-- What `epoll_wait` returns: channels of this loop that are in the kernel's set, each with events it
waits for, and no more of them than there is room for. -/
lemma epollWait_ok (h : r.Coherent) {report : List (ℤ × Finset Event)} {es : List (EpollEvent ι)}
    (hwait : r.poller.epollWait report = .ok es) :
    es.length ≤ r.poller.eventsSize ∧ ∀ e ∈ es, ((r.heap e.ptr).fd, e.events) ∈ report ∧
      (r.heap e.ptr).index = .kAdded ∧
      e.events ⊆ (r.heap e.ptr).events ∪ {.epollerr, .epollhup} := by
  rw [EPollPoller.epollWait] at hwait
  split_ifs at hwait with hcond
  obtain ⟨hlen, hall⟩ := EPollPoller.deliver_all_ok hwait
  refine ⟨by rw [hlen]; exact hcond.1, ?_⟩
  intro e he
  obtain ⟨fd, e₀, hmem, hset, hptr, hsub⟩ := hall e he
  have hfd := h.epoll_fd fd e₀ hset
  have hentry := h.epoll_eq e₀.ptr
  rw [hfd, hset] at hentry
  split_ifs at hentry with hidx
  rw [Option.some.injEq] at hentry
  rw [hptr, hfd]
  refine ⟨hmem, hidx, ?_⟩
  rwa [hentry] at hsub

variable [DecidableEq ι]

/-- One channel changes, and its two entries with it. -/
lemma Coherent.replace (h : r.Coherent) {c : ι} {ch : Channel} (hfd : ch.fd = (r.heap c).fd) :
    Coherent ⟨Function.update r.heap c ch, r.poller.entered c ch⟩ := by
  have hfds : ∀ d, (Function.update r.heap c ch d).fd = (r.heap d).fd := by
    intro d
    rcases eq_or_ne d c with rfl | hne
    · rw [Function.update_self, hfd]
    · rw [Function.update_of_ne hne]
  have hne_fd : ∀ d, d ≠ c → (r.heap d).fd ≠ ch.fd := fun d hne heq =>
    hne (h.fd_inj (heq.trans hfd))
  refine ⟨?_, ?_, ?_, ?_, h.refused_eq⟩
  · intro d d' heq
    simp only [hfds] at heq
    exact h.fd_inj heq
  · intro d
    rcases eq_or_ne d c with rfl | hne
    · simp only [Function.update_self, EPollPoller.entered]
    · simp only [Function.update_of_ne hne, EPollPoller.entered,
        Function.update_of_ne (hne_fd d hne)]
      exact h.channels_eq d
  · intro d
    rcases eq_or_ne d c with rfl | hne
    · simp only [Function.update_self, EPollPoller.entered]
    · simp only [Function.update_of_ne hne, EPollPoller.entered,
        Function.update_of_ne (hne_fd d hne)]
      exact h.epoll_eq d
  · intro fd e he
    simp only [EPollPoller.entered, hfds] at he ⊢
    rcases eq_or_ne fd ch.fd with rfl | hne
    · rw [Function.update_self] at he
      split_ifs at he
      rw [Option.some.injEq] at he
      rw [← he, hfd]
    · rw [Function.update_of_ne hne] at he
      exact h.epoll_fd fd e he

/-- **`Channel::update`** returns, whatever the index and the mask. -/
lemma update_spec (h : r.Coherent) (c : ι) (events : Finset Event) :
    ∃ p, r.update c events = .ok ⟨Function.update r.heap c ((r.heap c).updated events), p⟩ ∧
      Coherent ⟨Function.update r.heap c ((r.heap c).updated events), p⟩ := by
  refine ⟨_, ?_, h.replace (updated_fd _ events)⟩
  rw [update, EPollPoller.updateChannel_spec (h.knows c events), bind_ok]
  rfl

/-- **`Channel::remove`** returns for a channel in the poller that waits for nothing. -/
lemma remove_spec (h : r.Coherent) {c : ι} (hidx : (r.heap c).index ≠ .kNew)
    (hev : (r.heap c).events = ∅) :
    ∃ p, r.remove c = .ok ⟨Function.update r.heap c ((r.heap c).setIdnex .kNew), p⟩ ∧
      Coherent ⟨Function.update r.heap c ((r.heap c).setIdnex .kNew), p⟩ := by
  refine ⟨_, ?_, h.replace rfl⟩
  have hknows : r.poller.Knows c (r.heap c) := h.knows c (r.heap c).events
  rw [remove, EPollPoller.removeChannel_spec hknows hidx hev, bind_ok]
  rfl

/-- `remove` returns only for such a channel. -/
lemma remove_ok (h : r.Coherent) {c : ι} {r' : Registry ι} (hok : r.remove c = .ok r') :
    r'.Coherent ∧ (r.heap c).events = ∅ ∧ r'.heap c = (r.heap c).setIdnex .kNew := by
  have hpre : (r.heap c).index ≠ .kNew ∧ (r.heap c).events = ∅ := by
    simp only [remove, EPollPoller.removeChannel, bind_eq_ok, assertThat_eq_ok] at hok
    obtain ⟨-, ⟨-, -, -, -, -, hev, -, hkind, -⟩, -⟩ := hok
    refine ⟨?_, isNonEvent_iff.mp hev⟩
    rintro hnew
    rw [hnew] at hkind
    exact absurd hkind (by simp)
  obtain ⟨p, hp, hcoh⟩ := remove_spec h hpre.1 hpre.2
  rw [hok, Except.ok.injEq] at hp
  rw [hp]
  exact ⟨hcoh, hpre.2, Function.update_self ..⟩

lemma hasChannel_iff (h : r.Coherent) (c : ι) :
    r.hasChannel c = true ↔ (r.heap c).index ≠ .kNew := by
  rw [hasChannel, decide_eq_true_iff, h.channels_eq c]
  split_ifs with hidx <;> simp [hidx]

/-! ## Polling -/

/-- The events of a channel may change at any time. -/
lemma Coherent.setRevents (h : r.Coherent) (c : ι) (revt : Finset Event) :
    (r.setChannel c ((r.heap c).setRevents revt)).Coherent := by
  have hmap : (if ((r.heap c).setRevents revt).index = .kNew then none else some c)
      = r.poller.channels (r.heap c).fd := (h.channels_eq c).symm
  have hset : (if ((r.heap c).setRevents revt).index = .kAdded
      then some ⟨((r.heap c).setRevents revt).events, c⟩ else none)
      = r.poller.epollSet (r.heap c).fd := (h.epoll_eq c).symm
  have hsame : r.poller.entered c ((r.heap c).setRevents revt) = r.poller := by
    rw [EPollPoller.entered, hmap, hset]
    simp only [Channel.setRevents, Function.update_eq_self]
  have hrep : Coherent ⟨_, r.poller.entered c ((r.heap c).setRevents revt)⟩ := h.replace rfl
  rwa [hsame] at hrep

/-- A channel after a poll: as before, but for the events reported. -/
def Polled (ch ch' : Channel) : Prop :=
  ch' = ch ∨ ∃ revt, revt ⊆ ch.events ∪ {.epollerr, .epollhup} ∧ ch' = ch.setRevents revt

lemma Polled.index_eq {ch ch' : Channel} (h : Polled ch ch') : ch'.index = ch.index := by
  rcases h with rfl | ⟨revt, -, rfl⟩ <;> rfl

lemma Polled.events_eq {ch ch' : Channel} (h : Polled ch ch') : ch'.events = ch.events := by
  rcases h with rfl | ⟨revt, -, rfl⟩ <;> rfl

/-- `fillActiveChannels` of entries whose channels are in the kernel's set. -/
lemma fill_spec (h : r.Coherent) {es : List (EpollEvent ι)}
    (hes : ∀ e ∈ es, (r.heap e.ptr).index = .kAdded ∧
      e.events ⊆ (r.heap e.ptr).events ∪ {.epollerr, .epollhup}) :
    ∃ r', fillActiveChannels.fill r es = .ok (r', es.map EpollEvent.ptr) ∧ r'.Coherent ∧
      r'.poller = r.poller ∧ ∀ c, Polled (r.heap c) (r'.heap c) := by
  induction es generalizing r with
  | nil => exact ⟨r, rfl, h, rfl, fun c => Or.inl rfl⟩
  | cons e es ih =>
      obtain ⟨hidx, hsub⟩ := hes e List.mem_cons_self
      have hmap := h.channels_eq e.ptr
      rw [if_neg (by simp [hidx])] at hmap
      have hfirst : ∀ c, Polled (r.heap c)
          ((r.setChannel e.ptr ((r.heap e.ptr).setRevents e.events)).heap c) := by
        intro c
        rcases eq_or_ne c e.ptr with rfl | hne
        · exact Or.inr ⟨e.events, hsub, Function.update_self ..⟩
        · exact Or.inl (Function.update_of_ne hne ..)
      obtain ⟨r', hr', hcoh, hpoller, hpolled⟩ := ih (h.setRevents e.ptr e.events) (by
        intro e' he'
        rw [(hfirst e'.ptr).index_eq, (hfirst e'.ptr).events_eq]
        exact hes e' (List.mem_cons_of_mem _ he'))
      refine ⟨r', ?_, hcoh, hpoller, ?_⟩
      · rw [fillActiveChannels.fill, assertThat_pos (by simp [hmap]), bind_ok,
          assertThat_pos hmap, bind_ok]
        simp only [hr', bind_ok, pure_eq_ok, List.map_cons]
      · intro c
        rcases hfirst c with heq | ⟨revt, hrevt, heq⟩
        · have hc := hpolled c
          rwa [heq] at hc
        · have hc := hpolled c
          rw [heq] at hc
          rcases hc with hc | ⟨revt', hrevt', hc⟩
          · exact Or.inr ⟨revt, hrevt, hc⟩
          · exact Or.inr ⟨revt', hrevt', hc⟩

/-- **`fillActiveChannels`** accepts whatever `epoll_wait` can return. -/
lemma fillActiveChannels_spec (h : r.Coherent) {report : List (ℤ × Finset Event)}
    {es : List (EpollEvent ι)} (hwait : r.poller.epollWait report = .ok es) :
    ∃ r', r.fillActiveChannels es = .ok (r', es.map EpollEvent.ptr) ∧ r'.Coherent ∧
      r'.poller = r.poller ∧ ∀ c, Polled (r.heap c) (r'.heap c) := by
  obtain ⟨hlen, hes⟩ := epollWait_ok h hwait
  obtain ⟨r', hr', hspec⟩ := fill_spec h fun e he => (hes e he).2
  exact ⟨r', by rw [fillActiveChannels, assertThat_pos hlen, bind_ok, hr'], hspec⟩

/-- **`poll`** returns, whatever the kernel reports, and reports only events that were waited for. -/
lemma poll_spec (h : r.Coherent) (report : List (ℤ × Finset Event)) :
    (∃ e, r.poller.epollWait report = .error e ∧ r.poll report = .error e) ∨
      ∃ r' active, r.poll report = .ok (r', active) ∧ r'.Coherent ∧
        ∀ c, Polled (r.heap c) (r'.heap c) := by
  cases hwait : r.poller.epollWait report with
  | error e => exact Or.inl ⟨e, rfl, by rw [poll, hwait, bind_error]⟩
  | ok es =>
      right
      obtain ⟨r', hr', hcoh, -, hpolled⟩ := fillActiveChannels_spec h hwait
      simp only [poll, hwait, bind_ok]
      split_ifs with hpos
      · simp only [hr', bind_ok, pure_eq_ok]
        split_ifs with hfull
        · exact ⟨_, _, rfl, hcoh.resize _, hpolled⟩
        · exact ⟨_, _, rfl, hcoh, hpolled⟩
      · exact ⟨r, [], rfl, h, fun c => Or.inl rfl⟩

/-- Of the channels the pointers point at, each gets the events of one entry; the others keep theirs. -/
lemma fill_active {es : List (EpollEvent ι)} {r' : Registry ι} {active : List ι}
    (hok : fillActiveChannels.fill r es = .ok (r', active)) :
    active = es.map EpollEvent.ptr ∧ ∀ c, (c ∉ active → r'.heap c = r.heap c) ∧
      (c ∈ active → ∃ e ∈ es, e.ptr = c ∧ (r'.heap c).revents = e.events) := by
  induction es generalizing r active with
  | nil =>
      rw [fillActiveChannels.fill, Except.ok.injEq, Prod.mk.injEq] at hok
      obtain ⟨rfl, rfl⟩ := hok
      simp
  | cons e es ih =>
      simp only [fillActiveChannels.fill, bind_eq_ok, pure_eq_ok, Except.ok.injEq, Prod.exists,
        Prod.mk.injEq] at hok
      obtain ⟨-, -, -, -, r₁, active', hfill, rfl, rfl⟩ := hok
      obtain ⟨rfl, hall⟩ := ih hfill
      refine ⟨rfl, fun c => ⟨fun hc => ?_, fun hc => ?_⟩⟩
      · rw [List.mem_cons, not_or] at hc
        rw [(hall c).1 hc.2]
        exact Function.update_of_ne hc.1 ..
      · by_cases htail : c ∈ es.map EpollEvent.ptr
        · obtain ⟨e', he', hspec⟩ := (hall c).2 htail
          exact ⟨e', List.mem_cons_of_mem _ he', hspec⟩
        · have hc' : c = e.ptr := (List.mem_cons.mp hc).resolve_right htail
          refine ⟨e, List.mem_cons_self, hc'.symm, ?_⟩
          have hset : (r.setChannel e.ptr ((r.heap e.ptr).setRevents e.events)).heap e.ptr
              = (r.heap e.ptr).setRevents e.events := Function.update_self ..
          rw [(hall c).1 htail, hc', hset]
          rfl

/-- An active channel is in the kernel's set, and its events are reported. -/
lemma poll_active (h : r.Coherent) {report : List (ℤ × Finset Event)} {r' : Registry ι}
    {active : List ι} (hok : r.poll report = .ok (r', active)) {c : ι} (hc : c ∈ active) :
    (r.heap c).index = .kAdded ∧ ((r.heap c).fd, (r'.heap c).revents) ∈ report := by
  simp only [poll, bind_eq_ok] at hok
  obtain ⟨es, hwait, hok⟩ := hok
  split_ifs at hok with hpos
  · simp only [bind_eq_ok, Prod.exists, fillActiveChannels] at hok
    obtain ⟨r₁, active₁, ⟨-, -, hfill⟩, hok⟩ := hok
    have hheap : r'.heap = r₁.heap ∧ active = active₁ := by
      split_ifs at hok
      all_goals
        rw [pure_eq_ok, Except.ok.injEq, Prod.mk.injEq] at hok
        obtain ⟨rfl, rfl⟩ := hok
        exact ⟨rfl, rfl⟩
    rw [hheap.2] at hc
    rw [hheap.1]
    obtain ⟨e, he, rfl, hrevents⟩ := ((fill_active hfill).2 c).2 hc
    obtain ⟨hmem, hidx, -⟩ := (epollWait_ok h hwait).2 e he
    rw [hrevents]
    exact ⟨hidx, hmem⟩
  · rw [pure_eq_ok, Except.ok.injEq, Prod.mk.injEq] at hok
    rw [← hok.2] at hc
    simp at hc

/-! ## Any use of the channels -/

/-- What is done to the channels of a loop. -/
inductive Action (ι : Type)
  | enableReading (c : ι)
  | disableReading (c : ι)
  | enableWriting (c : ι)
  | disableWriting (c : ι)
  | disableAll (c : ι)
  | remove (c : ι)
  | poll (report : List (ℤ × Finset Event))

/-- One use.  A channel is removed only when it is in the poller and waits for nothing. -/
def step (r : Registry ι) : Action ι → Res (Registry ι)
  | .enableReading c => r.enableReading c
  | .disableReading c => r.disableReading c
  | .enableWriting c => r.enableWriting c
  | .disableWriting c => r.disableWriting c
  | .disableAll c => r.disableAll c
  | .remove c =>
      if r.hasChannel c = true ∧ (r.heap c).isNonEvent = true then r.remove c else .error .disabled
  | .poll report => do
      let (r, _) ← r.poll report
      return r

/-- One use keeps everything in agreement, fails no assertion, and gives no channel another
descriptor. -/
lemma step_spec (h : r.Coherent) (a : Action ι) :
    r.step a = .error .disabled ∨
      ∃ r', r.step a = .ok r' ∧ r'.Coherent ∧ ∀ c, (r'.heap c).fd = (r.heap c).fd := by
  have hupdate : ∀ c events, ∃ r', r.update c events = .ok r' ∧ r'.Coherent ∧
      ∀ d, (r'.heap d).fd = (r.heap d).fd := by
    intro c events
    obtain ⟨p, hp, hcoh⟩ := update_spec h c events
    refine ⟨_, hp, hcoh, ?_⟩
    intro d
    rcases eq_or_ne d c with rfl | hne
    · simp only [Function.update_self, updated_fd]
    · simp only [Function.update_of_ne hne]
  cases a with
  | enableReading c => exact Or.inr (hupdate c _)
  | disableReading c => exact Or.inr (hupdate c _)
  | enableWriting c => exact Or.inr (hupdate c _)
  | disableWriting c => exact Or.inr (hupdate c _)
  | disableAll c => exact Or.inr (hupdate c _)
  | remove c =>
      rw [step]
      split_ifs with hcond
      · right
        obtain ⟨p, hp, hcoh⟩ := remove_spec h ((hasChannel_iff h c).mp hcond.1)
          (isNonEvent_iff.mp hcond.2)
        refine ⟨_, hp, hcoh, ?_⟩
        intro d
        rcases eq_or_ne d c with rfl | hne
        · simp only [Function.update_self, setIdnex]
        · simp only [Function.update_of_ne hne]
      · exact Or.inl rfl
  | poll report =>
      rcases poll_spec h report with ⟨e, hwait, hpoll⟩ | ⟨r', active, hpoll, hcoh, hpolled⟩
      · left
        rw [step, hpoll, bind_error, EPollPoller.epollWait_error hwait]
      · right
        refine ⟨r', by rw [step, hpoll]; rfl, hcoh, ?_⟩
        intro d
        rcases hpolled d with heq | ⟨revt, -, heq⟩
        · rw [heq]
        · rw [heq]
          rfl

/-- **The poller, the channels and the kernel agree**, throughout any use of any number of channels with
distinct descriptors.  A channel is in the map exactly when its index is not `kNew`, and in the kernel's
set exactly when it is `kAdded`, there with its own mask and pointer; no call of `epoll_ctl` was
refused, no assertion fails, and whatever `epoll_wait` returns passes the checks of
`fillActiveChannels`. -/
theorem poller_coherent (fd : ι ↪ ℤ) (as : List (Action ι)) :
    (∀ r ∈ Machine.states step (create fd) as,
      (∀ c, (r.heap c).fd = fd c) ∧
      (∀ c, r.poller.channels (fd c) = some c
        ↔ (r.heap c).index = .kAdded ∨ (r.heap c).index = .kDeleted) ∧
      (∀ c, r.poller.channels (fd c) ≠ none
        ↔ (r.heap c).index = .kAdded ∨ (r.heap c).index = .kDeleted) ∧
      (∀ c, r.poller.epollSet (fd c) ≠ none ↔ (r.heap c).index = .kAdded) ∧
      (∀ c, (r.heap c).index = .kAdded →
        r.poller.epollSet (fd c) = some ⟨(r.heap c).events, c⟩) ∧
      r.poller.refused = [] ∧
      ∀ report events, r.poller.epollWait report = .ok events →
        ∃ r', r.fillActiveChannels events = .ok (r', events.map EpollEvent.ptr)) ∧
    ∀ e, Machine.run step (create fd) as = .error e → e = .disabled := by
  have hall : ∀ r ∈ Machine.states step (create fd) as,
      r.Coherent ∧ ∀ c, (r.heap c).fd = fd c := by
    refine Machine.states_invariant ?_ ⟨coherent_create fd, fun c => rfl⟩
    rintro r a r' ⟨hr, hfd⟩ hstep
    rcases step_spec hr a with he | ⟨r'', hok, hr'', hfd''⟩
    · simp [he] at hstep
    · rw [hstep, Except.ok.injEq] at hok
      rw [hok]
      exact ⟨hr'', fun c => (hfd'' c).trans (hfd c)⟩
  constructor
  · intro r hr
    obtain ⟨h, hfd⟩ := hall r hr
    have hkind : ∀ c, ((r.heap c).index = .kAdded ∨ (r.heap c).index = .kDeleted)
        ↔ (r.heap c).index ≠ .kNew := by
      intro c
      cases (r.heap c).index <;> simp
    have hmap := h.channels_eq
    have hset := h.epoll_eq
    simp only [hfd] at hmap hset
    refine ⟨hfd, ?_, ?_, ?_, ?_, h.refused_eq, ?_⟩
    · intro c
      rw [hmap c, hkind]
      split_ifs with hidx <;> simp [hidx]
    · intro c
      rw [hmap c, hkind]
      split_ifs with hidx <;> simp [hidx]
    · intro c
      rw [hset c]
      split_ifs with hidx <;> simp [hidx]
    · intro c hidx
      rw [hset c, if_pos hidx]
    · intro report events hwait
      obtain ⟨r', hr', -⟩ := fillActiveChannels_spec h hwait
      exact ⟨r', hr'⟩
  · intro e he
    obtain ⟨r, hr, a, -, ha⟩ := Machine.run_error_source he
    rcases step_spec (hall r hr).1 a with hd | ⟨r', hok, -⟩
    · rw [hd, Except.error.injEq] at ha
      exact ha.symm
    · simp [hok] at ha

end Registry

end Seenet
