import Seenet.Poller.Coherence

/-!
# Interest and registration

A channel that waits for nothing should not be in the kernel's set: the kernel reports errors and hang-ups
of every descriptor there, whatever its mask.  `updateChannel` looks at the mask only for a channel that
is in the set; one that has left the set is added again, with an empty mask if need be.

* `effect_of_step` — what a step can do to the index and the mask of one channel.
* `Matched` — the channel is in the kernel's set if and only if it waits for something.
* **`polled_iff`** — from a state where the channel waits for something, it stays matched exactly as long as
  interest is not switched off when there is none.
* **`not_polled`** — interest in reading is switched off twice.
-/

namespace Seenet

open Channel

namespace Registry

variable {ι : Type} [DecidableEq ι] {r r' : Registry ι} {c : ι} {a : Action ι}

/-- The mask that a step sets for the channel `c`, whose mask is `events`. -/
def Action.mask (c : ι) (events : Finset Event) : Action ι → Option (Finset Event)
  | .enableReading d => if d = c then some (events ∪ kReadEvent) else none
  | .disableReading d => if d = c then some (events \ kReadEvent) else none
  | .enableWriting d => if d = c then some (events ∪ kWriteEvent) else none
  | .disableWriting d => if d = c then some (events \ kWriteEvent) else none
  | .disableAll d => if d = c then some kNoneEvent else none
  | .remove _ => none
  | .poll _ => none

/-- The step switches interest of the channel off. -/
def Action.Disables (c : ι) (a : Action ι) : Prop :=
  a = .disableReading c ∨ a = .disableWriting c ∨ a = .disableAll c

/-- The step sets the mask and the index of the channel `c` from those of `ch` to those of `ch'`. -/
inductive Effect (a : Action ι) (c : ι) (ch : Channel) : Channel → Prop
  | update {events : Finset Event} (hmask : a.mask c ch.events = some events) :
      Effect a c ch (ch.updated events)
  | remove (hmask : a.mask c ch.events = none) (hevents : ch.events = ∅) :
      Effect a c ch (ch.setIdnex .kNew)
  | keep {ch' : Channel} (hmask : a.mask c ch.events = none) (hindex : ch'.index = ch.index)
      (hevents : ch'.events = ch.events) : Effect a c ch ch'

/-- An update of the channel `d`, if the step is one. -/
lemma effect_update (h : r.Coherent) {d : ι} {events : Finset Event}
    (hmask : a.mask c (r.heap c).events = if d = c then some events else none)
    (hupdate : d = c → r.update d events = .ok r')
    (hother : d ≠ c → ∃ events', r.update d events' = .ok r') :
    Effect a c (r.heap c) (r'.heap c) := by
  by_cases hd : d = c
  · obtain ⟨p, hp, -⟩ := update_spec h d events
    obtain rfl := Except.ok.inj (hp.symm.trans (hupdate hd))
    rw [if_pos hd] at hmask
    subst hd
    simp only [Function.update_self]
    exact .update hmask
  · obtain ⟨events', hupdate'⟩ := hother hd
    obtain ⟨p, hp, -⟩ := update_spec h d events'
    obtain rfl := Except.ok.inj (hp.symm.trans hupdate')
    rw [if_neg hd] at hmask
    simp only [Function.update_of_ne (Ne.symm hd)]
    exact .keep hmask rfl rfl

/-- **Inversion of a step**, for one channel. -/
lemma effect_of_step (h : r.Coherent) (hstep : r.step a = .ok r') (c : ι) :
    Effect a c (r.heap c) (r'.heap c) := by
  cases a with
  | enableReading d =>
      exact effect_update h rfl (by rintro rfl; exact hstep) fun _ => ⟨_, hstep⟩
  | disableReading d =>
      exact effect_update h rfl (by rintro rfl; exact hstep) fun _ => ⟨_, hstep⟩
  | enableWriting d =>
      exact effect_update h rfl (by rintro rfl; exact hstep) fun _ => ⟨_, hstep⟩
  | disableWriting d =>
      exact effect_update h rfl (by rintro rfl; exact hstep) fun _ => ⟨_, hstep⟩
  | disableAll d =>
      exact effect_update h rfl (by rintro rfl; exact hstep) fun _ => ⟨_, hstep⟩
  | remove d =>
      rw [step, guard_eq_ok] at hstep
      obtain ⟨hcond, hremove⟩ := hstep
      have hevents := isNonEvent_iff.mp hcond.2
      obtain ⟨p, hp, -⟩ := remove_spec h ((hasChannel_iff h d).mp hcond.1) hevents
      obtain rfl := Except.ok.inj (hp.symm.trans hremove)
      rcases eq_or_ne d c with rfl | hne
      · simp only [Function.update_self]
        exact .remove rfl hevents
      · simp only [Function.update_of_ne hne.symm]
        exact .keep rfl rfl rfl
  | poll report =>
      rcases poll_spec h report with ⟨e, -, hpoll⟩ | ⟨r₁, active, hpoll, -, hpolled⟩
      · simp [step, hpoll] at hstep
      · rw [step, hpoll] at hstep
        obtain rfl := Except.ok.inj hstep
        exact .keep rfl (hpolled c).index_eq (hpolled c).events_eq

/-! ## Interest -/

/-- A channel that waits for something is in the kernel's set. -/
def Waited (ch : Channel) : Prop := ch.events ≠ ∅ → ch.index = .kAdded

/-- The channel is in the kernel's set if and only if it waits for something. -/
def Matched (ch : Channel) : Prop := ch.index = .kAdded ↔ ch.events ≠ ∅

lemma Matched.waited {ch : Channel} (h : Matched ch) : Waited ch := h.mpr

lemma Effect.waited {ch ch' : Channel} (heffect : Effect a c ch ch') (h : Waited ch) :
    Waited ch' := by
  cases heffect with
  | update hmask =>
      intro hne
      exact if_neg fun hboth => hne hboth.2
  | remove hmask hevents => exact fun hne => absurd hevents hne
  | keep hmask hindex hevents => rwa [Waited, hindex, hevents]

/-- A call that switches interest on leaves some. -/
lemma Action.disables_of_mask {events : Finset Event} (hmask : a.mask c events = some ∅) :
    a.Disables c := by
  cases a with
  | enableReading d =>
      rw [mask] at hmask
      split_ifs at hmask with hd
      have hmem : Event.epollin ∈ events ∪ kReadEvent :=
        Finset.mem_union_right _ (Finset.mem_insert_self _ _)
      simp [Option.some.inj hmask] at hmem
  | enableWriting d =>
      rw [mask] at hmask
      split_ifs at hmask with hd
      have hmem : Event.epollout ∈ events ∪ kWriteEvent :=
        Finset.mem_union_right _ (Finset.mem_singleton_self _)
      simp [Option.some.inj hmask] at hmem
  | disableReading d =>
      rw [mask] at hmask
      split_ifs at hmask with hd
      exact Or.inl (by rw [hd])
  | disableWriting d =>
      rw [mask] at hmask
      split_ifs at hmask with hd
      exact Or.inr (Or.inl (by rw [hd]))
  | disableAll d =>
      rw [mask] at hmask
      split_ifs at hmask with hd
      exact Or.inr (Or.inr (by rw [hd]))
  | remove d => simp [mask] at hmask
  | poll report => simp [mask] at hmask

/-- Where there is no interest, a call that switches it off leaves none. -/
lemma Action.Disables.mask_empty (h : a.Disables c) : a.mask c ∅ = some ∅ := by
  rcases h with rfl | rfl | rfl
  · simp [mask]
  · simp [mask]
  · simp [mask, kNoneEvent]

/-- The step switches off interest of the channel, which has none. -/
def DisablesNone (c : ι) (r : Registry ι) (a : Action ι) : Prop :=
  a.Disables c ∧ (r.heap c).isNonEvent = true

/-- Anything else keeps the channel matched. -/
lemma Effect.matched {ch' : Channel} (heffect : Effect a c (r.heap c) ch')
    (h : Matched (r.heap c)) (hnot : ¬ DisablesNone c r a) : Matched ch' := by
  cases heffect with
  | @update events hmask =>
      rw [Matched, updated_index, updated_events, nextIndex]
      split_ifs with hboth
      · simp [hboth.2]
      · refine iff_of_true rfl fun hempty => ?_
        have hevents : (r.heap c).events = ∅ := by
          by_contra hne
          exact hboth ⟨h.mpr hne, hempty⟩
        rw [hempty] at hmask
        exact hnot ⟨Action.disables_of_mask hmask, isNonEvent_iff.mpr hevents⟩
  | remove hmask hevents => simp [Matched, setIdnex, hevents]
  | keep hmask hindex hevents => rwa [Matched, hindex, hevents]

/-- A channel outside of the set is added to it, and waits for nothing. -/
lemma Effect.not_matched {ch' : Channel} (heffect : Effect a c (r.heap c) ch')
    (h : Matched (r.heap c)) (hdisables : DisablesNone c r a) : ¬ Matched ch' := by
  have hevents : (r.heap c).events = ∅ := isNonEvent_iff.mp hdisables.2
  have hmask := hdisables.1.mask_empty
  rw [← hevents] at hmask
  have hindex : (r.heap c).index ≠ .kAdded := fun hadded => h.mp hadded hevents
  cases heffect with
  | update hmask' =>
      obtain rfl := Option.some.inj (hmask'.symm.trans hmask)
      simp [Matched, nextIndex, hindex, hevents]
  | remove hnone => simp [hnone] at hmask
  | keep hnone => simp [hnone] at hmask

/-! ## Runs -/

lemma coherent_waited_of_run {fd : ι ↪ ℤ} {as : List (Action ι)}
    (has : Machine.run step (create fd) as = .ok r) :
    r.Coherent ∧ (∀ c, (r.heap c).fd = fd c) ∧ ∀ c, Waited (r.heap c) := by
  refine Machine.run_invariant (I := fun r : Registry ι =>
    r.Coherent ∧ (∀ c, (r.heap c).fd = fd c) ∧ ∀ c, Waited (r.heap c)) ?_
    ⟨coherent_create fd, fun _ => rfl, fun _ hne => absurd rfl hne⟩ has
  rintro s a s' ⟨hs, hfd, hwaited⟩ hstep
  rcases step_spec hs a with herror | ⟨s₁, hok, hs₁, hfd₁⟩
  · simp [herror] at hstep
  · obtain rfl := Except.ok.inj (hok.symm.trans hstep)
    exact ⟨hs₁, fun c => (hfd₁ c).trans (hfd c),
      fun c => (effect_of_step hs hstep c).waited (hwaited c)⟩

/-- **When a channel without interest is not polled.**  Take any use of the channels up to a state where
the channel waits for something, and any use after it.  In every state from there on, the channel's
descriptor is in the kernel's set if and only if the channel waits for something, exactly when in no
step from there on interest of the channel is switched off that it does not have. -/
theorem polled_iff {fd : ι ↪ ℤ} {as : List (Action ι)}
    (has : Machine.run step (create fd) as = .ok r) (hinterest : (r.heap c).isNonEvent = false)
    (bs : List (Action ι)) :
    (∀ s ∈ Machine.states step r bs,
        s.poller.epollSet (fd c) ≠ none ↔ (s.heap c).isNonEvent = false) ↔
      ∀ p ∈ Machine.steps step r bs, ¬ DisablesNone c p.1 p.2 := by
  obtain ⟨hr, hfd, hwaited⟩ := coherent_waited_of_run has
  have hmatched : ∀ s : Registry ι, s.Coherent → (s.heap c).fd = fd c →
      ((s.poller.epollSet (fd c) ≠ none ↔ (s.heap c).isNonEvent = false) ↔ Matched (s.heap c)) := by
    intro s hs hfd
    rw [← hfd, hs.epoll_eq c, Matched, Bool.eq_false_iff, Ne, Ne, isNonEvent_iff]
    split_ifs with hindex <;> simp [hindex]
  have hnext : ∀ (s : Registry ι) (b : Action ι) (s' : Registry ι), s.Coherent →
      (s.heap c).fd = fd c → s.step b = .ok s' → s'.Coherent ∧ (s'.heap c).fd = fd c := by
    intro s b s' hs hfd hstep
    rcases step_spec hs b with herror | ⟨s₁, hok, hs₁, hfd₁⟩
    · simp [herror] at hstep
    · obtain rfl := Except.ok.inj (hok.symm.trans hstep)
      exact ⟨hs₁, (hfd₁ c).trans hfd⟩
  refine Machine.forall_states_iff (I := fun s : Registry ι =>
    (s.Coherent ∧ (s.heap c).fd = fd c) ∧ Matched (s.heap c))
    (C := fun s b => ¬ DisablesNone c s b) ?_ ?_ ?_ ⟨⟨hr, hfd c⟩, ?_⟩ bs
  · exact fun s hs => (hmatched s hs.1.1 hs.1.2).mpr hs.2
  · intro s b s' hs hnot hstep
    exact ⟨hnext s b s' hs.1.1 hs.1.2 hstep, (effect_of_step hs.1.1 hstep c).matched hs.2 hnot⟩
  · intro s b s' hs hdisables hstep hprop
    obtain ⟨hs', hfd'⟩ := hnext s b s' hs.1.1 hs.1.2 hstep
    exact (effect_of_step hs.1.1 hstep c).not_matched hs.2 (not_not.mp hdisables)
      ((hmatched s' hs' hfd').mp hprop)
  · have hevents : (r.heap c).events ≠ ∅ := by
      rwa [Bool.eq_false_iff, Ne, isNonEvent_iff] at hinterest
    exact ⟨fun _ => hevents, fun _ => hwaited c hevents⟩

/-- A loop with one channel. -/
def single : Registry Unit := create fun _ => 7

/-- Interest in reading is switched on, and off once. -/
theorem polled_iff_once :
    ∃ r s : Registry Unit, Machine.run step single [.enableReading ()] = .ok r ∧
      r.step (.disableReading ()) = .ok s ∧
      (s.poller.epollSet 7 ≠ none ↔ (s.heap ()).isNonEvent = false) := by
  let fd : Unit ↪ ℤ := ⟨fun _ => 7, fun _ _ _ => rfl⟩
  have hrun : (Machine.run step single [.enableReading ()]).map (fun r => (r.heap ()).isNonEvent)
      = .ok false := by
    decide +kernel
  obtain ⟨r, hr, hinterest⟩ := Machine.ok_of_map hrun
  have hcreate : Machine.run step (create fd) [.enableReading ()] = .ok r := hr
  obtain ⟨p, hs, -⟩ :=
    update_spec (coherent_waited_of_run hcreate).1 () ((r.heap ()).events \ kReadEvent)
  have hstep : r.step (.disableReading ()) = .ok _ := hs
  refine ⟨r, _, hr, hstep, ?_⟩
  refine (polled_iff hcreate hinterest [.disableReading ()]).mpr ?_ _ ?_
  · intro p hp
    rw [Machine.steps_cons_ok hstep] at hp
    obtain rfl := List.mem_singleton.mp hp
    exact fun hdisables => by simp [hdisables.2] at hinterest
  · exact Machine.mem_states_of_run (by rw [Machine.run_cons_ok hstep, Machine.run_nil])

/-- **A channel that is polled without interest.**  Interest in reading is switched off twice. -/
theorem not_polled :
    ∃ s : Registry Unit,
      Machine.run step single [.enableReading (), .disableReading (), .disableReading ()] = .ok s ∧
      s.poller.epollSet 7 = some ⟨∅, ()⟩ ∧ (s.heap ()).isNonEvent = true := by
  have hrun : (Machine.run step single
      [.enableReading (), .disableReading (), .disableReading ()]).map
        (fun s => (s.poller.epollSet 7, (s.heap ()).isNonEvent)) = .ok (some ⟨∅, ()⟩, true) := by
    decide +kernel
  obtain ⟨s, hs, hobs⟩ := Machine.ok_of_map hrun
  rw [Prod.mk.injEq] at hobs
  exact ⟨s, hs, hobs.1, hobs.2⟩

end Registry

end Seenet
