import Seenet.Poller.Coherence

/-!
# Channels come and go

`Coherence.lean` is about a loop whose channels are always the same.  Here a channel may be constructed
while the loop runs, with a descriptor that nobody has, and destroyed after it was removed; the kernel is
then free to give its descriptor to somebody else.

* `Covered` — every entry of the poller's map is for a channel with that descriptor.
* `Alters` — what an operation on one channel can do to a loop: nothing to the others.
* **`Coherent.turnover`** — a channel that is not in the poller can be replaced by a new one.
* `poll_nodup` — a poll reports no channel twice.
-/

namespace Seenet

open Channel

variable {ι : Type}

namespace EPollPoller

variable {p : EPollPoller ι}

/-- What `epoll_wait` returns, entry by entry. -/
lemma deliver_all_forall {report : List (ℤ × Finset Event)} {es : List (EpollEvent ι)}
    (h : report.mapM (epollWait.deliver p) = .ok es) :
    List.Forall₂ (fun (a : ℤ × Finset Event) (e : EpollEvent ι) => ∃ e₀, p.epollSet a.1 = some e₀ ∧ e.ptr = e₀.ptr)
      report es := by
  induction report generalizing es with
  | nil =>
      rw [List.mapM_nil, pure_eq_ok, Except.ok.injEq] at h
      rw [← h]
      exact .nil
  | cons a report ih =>
      rw [List.mapM_cons] at h
      simp only [bind_eq_ok, pure_eq_ok, Except.ok.injEq] at h
      obtain ⟨e, he, es', hes', rfl⟩ := h
      obtain ⟨e₀, -, hset, hptr, -⟩ := deliver_ok he
      exact .cons ⟨e₀, hset, hptr⟩ (ih hes')

end EPollPoller

namespace Registry

/-- Every entry of the poller's map is for a channel with that descriptor. -/
def Covered (r : Registry ι) : Prop := ∀ fd c, r.poller.channels fd = some c → (r.heap c).fd = fd

lemma covered_create (fd : ι → ℤ) : (create fd).Covered := by
  intro fd' c hentry
  simp [create, EPollPoller.create] at hentry

/-- `r'` is `r` after operations on the channel `c`. -/
structure Alters (c : ι) (r r' : Registry ι) : Prop where
  others : ∀ d, d ≠ c → r'.heap d = r.heap d
  fd_eq : (r'.heap c).fd = (r.heap c).fd
  covered : r.Covered → r'.Covered
  mapped : ∀ fd d, r'.poller.channels fd = some d → d = c ∨ r.poller.channels fd = some d

variable {r r' r'' : Registry ι} {c : ι}

lemma Alters.refl (c : ι) (r : Registry ι) : Alters c r r :=
  ⟨fun _ _ => rfl, rfl, id, fun _ _ => Or.inr⟩

lemma Alters.trans (h : Alters c r r') (h' : Alters c r' r'') : Alters c r r'' where
  others d hd := (h'.others d hd).trans (h.others d hd)
  fd_eq := h'.fd_eq.trans h.fd_eq
  covered := h'.covered ∘ h.covered
  mapped fd d hd := (h'.mapped fd d hd).elim Or.inl (h.mapped fd d)

/-- The channel `c` becomes `ch`, and the entry of the map for its descriptor becomes `entry`. -/
lemma alters_of_entry [DecidableEq ι] (ch : Channel) (entry : Option ι) (hfd : ch.fd = (r.heap c).fd)
    (hheap : r'.heap = Function.update r.heap c ch)
    (hmap : r'.poller.channels = Function.update r.poller.channels ch.fd entry)
    (hentry : ∀ d, entry = some d → d = c) : Alters c r r' := by
  refine ⟨?_, ?_, ?_, ?_⟩
  · intro d hd
    rw [hheap, Function.update_of_ne hd]
  · rw [hheap, Function.update_self, hfd]
  · intro hcov fd d hd
    rw [hmap] at hd
    rcases eq_or_ne fd ch.fd with rfl | hne
    · rw [Function.update_self] at hd
      rw [hentry d hd, hheap, Function.update_self]
    · rw [Function.update_of_ne hne] at hd
      have hold := hcov fd d hd
      rcases eq_or_ne d c with rfl | hdc
      · exact absurd (hold.symm.trans hfd.symm) hne
      · rwa [hheap, Function.update_of_ne hdc]
  · intro fd d hd
    rw [hmap] at hd
    rcases eq_or_ne fd ch.fd with rfl | hne
    · rw [Function.update_self] at hd
      exact Or.inl (hentry d hd)
    · rw [Function.update_of_ne hne] at hd
      exact Or.inr hd

/-- The call of `epoll_ctl` does not concern the map. -/
@[simp] lemma poller_update_channels (p : EPollPoller ι) (op : EpollCtl) (c : ι) (ch : Channel) :
    (p.update op c ch).channels = p.channels := by
  rw [EPollPoller.update]
  split <;> rfl

variable [DecidableEq ι]

/-- After `updateChannel` the map has an entry for the channel, whether or not it had one before. -/
lemma updateChannel_entry {p p' : EPollPoller ι} {ch ch' : Channel}
    (hok : p.updateChannel c ch = .ok (p', ch')) :
    p'.channels = Function.update p.channels ch.fd (some c) ∧ ch'.fd = ch.fd ∧ ch'.events = ch.events := by
  rw [EPollPoller.updateChannel] at hok
  -- an entry that the assertions have found stays as it is
  have hfound : p.channels ch.fd = some c → p.channels = Function.update p.channels ch.fd (some c) := by
    intro hentry
    rw [← hentry, Function.update_eq_self]
  by_cases hadd : ch.index = .kNew ∨ ch.index = .kDeleted
  · rw [if_pos hadd] at hok
    by_cases hnew : ch.index = .kNew
    · simp only [if_pos hnew, bind_eq_ok, assertThat_eq_ok, pure_eq_ok, Except.ok.injEq,
        Prod.mk.injEq] at hok
      obtain ⟨-, -, p₁, rfl, rfl, rfl⟩ := hok
      exact ⟨poller_update_channels .., rfl, rfl⟩
    · simp only [if_neg hnew, bind_eq_ok, assertThat_eq_ok, pure_eq_ok, Except.ok.injEq,
        Prod.mk.injEq] at hok
      obtain ⟨-, -, -, hentry, p₁, rfl, rfl, rfl⟩ := hok
      exact ⟨(poller_update_channels ..).trans (hfound hentry), rfl, rfl⟩
  · simp only [if_neg hadd, bind_eq_ok, assertThat_eq_ok] at hok
    obtain ⟨-, -, -, hentry, hok⟩ := hok
    split_ifs at hok
    all_goals
      rw [pure_eq_ok, Except.ok.injEq, Prod.mk.injEq] at hok
      obtain ⟨rfl, rfl⟩ := hok
      exact ⟨(poller_update_channels ..).trans (hfound hentry), rfl, rfl⟩

/-- **`Channel::update`** is about one channel. -/
lemma update_alters {events : Finset Event} (hok : r.update c events = .ok r') : Alters c r r' := by
  simp only [update, bind_eq_ok, pure_eq_ok, Except.ok.injEq, Prod.exists] at hok
  obtain ⟨p, ch, hupdate, rfl⟩ := hok
  obtain ⟨hmap, hfd, -⟩ := updateChannel_entry hupdate
  refine alters_of_entry ch (some c) hfd rfl ?_ fun d hd => (Option.some.inj hd).symm
  rw [hfd]
  exact hmap

lemma update_events {events : Finset Event} (hok : r.update c events = .ok r') : (r'.heap c).events = events := by
  simp only [update, bind_eq_ok, pure_eq_ok, Except.ok.injEq, Prod.exists] at hok
  obtain ⟨p, ch, hupdate, rfl⟩ := hok
  obtain ⟨-, -, hevents⟩ := updateChannel_entry hupdate
  simp [setChannel, hevents, Channel.setEvents]

/-- **`Channel::remove`** is about one channel. -/
lemma remove_alters (hok : r.remove c = .ok r') : Alters c r r' := by
  simp only [remove, bind_eq_ok, pure_eq_ok, Except.ok.injEq, Prod.exists, EPollPoller.removeChannel,
    assertThat_eq_ok, Prod.mk.injEq] at hok
  obtain ⟨p, ch, ⟨-, -, -, -, -, -, -, -, rfl, rfl⟩, rfl⟩ := hok
  refine alters_of_entry _ none (by rfl) rfl ?_ (by simp)
  dsimp only
  split_ifs
  · rw [poller_update_channels]
    rfl
  · rfl

lemma remove_events (hok : r.remove c = .ok r') : (r'.heap c).events = (r.heap c).events := by
  simp only [remove, bind_eq_ok, pure_eq_ok, Except.ok.injEq, Prod.exists, EPollPoller.removeChannel,
    assertThat_eq_ok, Prod.mk.injEq] at hok
  obtain ⟨p, ch, ⟨-, -, -, -, -, -, -, -, rfl, rfl⟩, rfl⟩ := hok
  simp [setChannel, Channel.setIdnex]

/-! ## A new channel -/

/-- **A channel that is not in the poller is replaced by a new one**, with a descriptor no channel of the
loop has. -/
lemma Coherent.turnover {c : ι} (h : r.Coherent) (hcov : r.Covered) (hidx : (r.heap c).index = .kNew) {fd : ℤ}
    (hfresh : ∀ d, (r.heap d).fd ≠ fd) :
    (r.setChannel c (Channel.create fd)).Coherent ∧ (r.setChannel c (Channel.create fd)).Covered := by
  have hheap : ∀ d, d ≠ c → (r.setChannel c (Channel.create fd)).heap d = r.heap d := fun d hd =>
    Function.update_of_ne hd ..
  have hself : (r.setChannel c (Channel.create fd)).heap c = Channel.create fd := Function.update_self ..
  -- nobody has an entry for the new descriptor, and the old channel had none
  have hmap : r.poller.channels fd = none := by
    refine Option.eq_none_iff_forall_ne_some.mpr fun d hd => hfresh d (hcov fd d hd)
  have hset : r.poller.epollSet fd = none := by
    refine Option.eq_none_iff_forall_ne_some.mpr fun e he => hfresh e.ptr (h.epoll_fd fd e he)
  have hold : r.poller.channels (r.heap c).fd = none ∧ r.poller.epollSet (r.heap c).fd = none := by
    rw [h.channels_eq c, h.epoll_eq c, if_pos hidx, if_neg (by simp [hidx])]
    exact ⟨rfl, rfl⟩
  refine ⟨⟨?_, ?_, ?_, ?_, h.refused_eq⟩, ?_⟩
  · intro d d' heq
    dsimp only at heq
    by_cases hd : d = c
    · by_cases hd' : d' = c
      · rw [hd, hd']
      · rw [hd, hself, hheap d' hd'] at heq
        exact absurd heq.symm (hfresh d')
    · by_cases hd' : d' = c
      · rw [hd', hself, hheap d hd] at heq
        exact absurd heq (hfresh d)
      · rw [hheap d hd, hheap d' hd'] at heq
        exact h.fd_inj heq
  · intro d
    rcases eq_or_ne d c with rfl | hd
    · rw [hself]
      exact hmap
    · rw [hheap d hd]
      exact h.channels_eq d
  · intro d
    rcases eq_or_ne d c with rfl | hd
    · rw [hself]
      exact hset
    · rw [hheap d hd]
      exact h.epoll_eq d
  · intro fd' e he
    have hfd := h.epoll_fd fd' e he
    rcases eq_or_ne e.ptr c with hptr | hd
    · rw [hptr] at hfd
      have hnone := hold.2
      rw [hfd] at hnone
      exact absurd (he.symm.trans hnone) (by simp)
    · rw [hheap _ hd]
      exact hfd
  · intro fd' d hd
    have hfd := hcov fd' d hd
    rcases eq_or_ne d c with rfl | hdc
    · have hnone := hold.1
      rw [hfd] at hnone
      exact absurd (hd.symm.trans hnone) (by simp)
    · rw [hheap d hdc]
      exact hfd

/-- `fillActiveChannels` has found the channels in the map, and leaves their masks. -/
lemma fill_mapped {es : List (EpollEvent ι)} {active : List ι}
    (hok : fillActiveChannels.fill r es = .ok (r', active)) :
    r'.poller = r.poller ∧ (∀ c ∈ active, ∃ fd, r.poller.channels fd = some c) ∧
      ∀ c, (r'.heap c).events = (r.heap c).events := by
  induction es generalizing r active with
  | nil =>
      rw [fillActiveChannels.fill, Except.ok.injEq, Prod.mk.injEq] at hok
      obtain ⟨rfl, rfl⟩ := hok
      exact ⟨rfl, by simp, fun _ => rfl⟩
  | cons e es ih =>
      simp only [fillActiveChannels.fill, bind_eq_ok, assertThat_eq_ok, pure_eq_ok, Except.ok.injEq, Prod.exists,
        Prod.mk.injEq] at hok
      obtain ⟨-, -, -, hentry, r₁, active', hfill, rfl, rfl⟩ := hok
      obtain ⟨hpoller, hall, hevents⟩ := ih hfill
      refine ⟨hpoller, List.forall_mem_cons.mpr ⟨⟨_, hentry⟩, hall⟩, fun c => ?_⟩
      rw [hevents]
      by_cases hc : c = e.ptr
      · simp [setChannel, hc, Channel.setRevents]
      · simp [setChannel, Function.update_of_ne hc]

/-- A poll does not concern the map or the masks, and reports what is in the map. -/
lemma poll_mapped {report : List (ℤ × Finset Event)} {active : List ι} (hok : r.poll report = .ok (r', active)) :
    r'.poller.channels = r.poller.channels ∧ (∀ c ∈ active, ∃ fd, r.poller.channels fd = some c) ∧
      ∀ c, (r'.heap c).events = (r.heap c).events := by
  simp only [Registry.poll, bind_eq_ok] at hok
  obtain ⟨es, -, hok⟩ := hok
  split_ifs at hok with hpos
  · simp only [bind_eq_ok, Prod.exists, fillActiveChannels] at hok
    obtain ⟨r₁, active₁, ⟨-, -, hfill⟩, hok⟩ := hok
    obtain ⟨hpoller, hall, hevents⟩ := fill_mapped hfill
    have hmap : r₁.poller.channels = r.poller.channels := by rw [hpoller]
    split_ifs at hok
    all_goals
      rw [pure_eq_ok, Except.ok.injEq, Prod.mk.injEq] at hok
      obtain ⟨rfl, rfl⟩ := hok
      exact ⟨hmap, hall, hevents⟩
  · rw [pure_eq_ok, Except.ok.injEq, Prod.mk.injEq] at hok
    obtain ⟨rfl, rfl⟩ := hok
    exact ⟨rfl, by simp, fun _ => rfl⟩

/-- A poll reports to the channels. -/
lemma Covered.poll (hcov : r.Covered) (h : r.Coherent) {report : List (ℤ × Finset Event)} {active : List ι}
    (hok : r.poll report = .ok (r', active)) : r'.Covered := by
  obtain ⟨hmap, -⟩ := poll_mapped hok
  rcases poll_spec h report with ⟨e, -, herror⟩ | ⟨r₂, active₂, hok₂, -, hpolled⟩
  · rw [hok] at herror
    exact absurd herror (by simp)
  · rw [hok, Except.ok.injEq, Prod.mk.injEq] at hok₂
    intro fd d hd
    rw [hmap] at hd
    have hfd := hcov fd d hd
    have hch := hpolled d
    rw [← hok₂.1] at hch
    rcases hch with heq | ⟨revt, -, heq⟩
    · rw [heq, hfd]
    · rw [heq]
      exact hfd

/-- No channel is active twice. -/
lemma poll_nodup (h : r.Coherent) {report : List (ℤ × Finset Event)} {active : List ι}
    (hok : r.poll report = .ok (r', active)) : active.Nodup := by
  simp only [Registry.poll, bind_eq_ok] at hok
  obtain ⟨es, hwait, hok⟩ := hok
  obtain ⟨r₁, hr₁, -⟩ := fillActiveChannels_spec h hwait
  have hactive : active = es.map EpollEvent.ptr := by
    split_ifs at hok with hpos
    · simp only [hr₁, bind_ok] at hok
      split_ifs at hok
      all_goals
        rw [pure_eq_ok, Except.ok.injEq, Prod.mk.injEq] at hok
        exact hok.2.symm
    · rw [pure_eq_ok, Except.ok.injEq, Prod.mk.injEq] at hok
      rw [← hok.2, List.eq_nil_of_length_eq_zero (l := es) (by omega), List.map_nil]
  rw [EPollPoller.epollWait] at hwait
  split_ifs at hwait with hcond
  -- the descriptors of the channels are those of the report
  have hfds : (es.map EpollEvent.ptr).map (fun c => (r.heap c).fd) = report.map Prod.fst := by
    have hall := EPollPoller.deliver_all_forall hwait
    clear hr₁ hactive hok hwait hcond
    induction hall with
    | nil => rfl
    | cons hentry _ ih =>
        obtain ⟨e₀, hset, hptr⟩ := hentry
        rw [List.map_cons, List.map_cons, List.map_cons, ih, hptr, h.epoll_fd _ e₀ hset]
  rw [hactive]
  refine List.Nodup.of_map (fun c => (r.heap c).fd) ?_
  rw [hfds]
  exact hcond.2

end Registry

end Seenet
