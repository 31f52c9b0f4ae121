import Seenet.TimerQueue.Basic
import Seenet.Lib.Index

/-!
# The two sets of a timer queue

What a `TimerQueue` holds is a set of timers, and `m_timers` and `m_activeTimers` are two indexes of it.

* `Holds` — the queue holds the set: its timers exist, and both of `m_timers` and `m_activeTimers` index
  it.
* `insert_spec`, `cancelInLoop_of_notMem`, `reset_spec` — what each operation makes of the set, and that no
  assertion fails.
* `cancelInLoop_aborts`, `reset_aborts` — where an operation gets to a `delete`, the program aborts.
* **`indexes_agree_iff`** — in a run from empty sets, the two describe the same timers and each operation changes
  them as it should, exactly if none of them gets there.
* **`cancel_aborts`** — a timer that is canceled, and one that has expired.
-/

namespace Seenet

namespace TimerQueue

variable {q q' : TimerQueue} {S : Finset ℕ} {timer : ℕ} {t : Timer}

/-- The entry of a timer in `m_timers`. -/
def entry (q : TimerQueue) (timer : ℕ) : TimerEntry :=
  toLex ((q.heap timer).elim 0 Timer.expiration, timer)

/-- The entry of a timer in `m_activeTimers`. -/
def active (q : TimerQueue) (timer : ℕ) : ActiveTimer :=
  (timer, (q.heap timer).elim 0 Timer.seq)

lemma entry_eq (ht : q.heap timer = some t) : q.entry timer = toLex (t.expiration, timer) := by
  rw [entry, ht, Option.elim_some]

lemma active_eq (ht : q.heap timer = some t) : q.active timer = (timer, t.seq) := by
  rw [active, ht, Option.elim_some]

lemma entry_injective : Function.Injective q.entry :=
  fun _ _ h => congrArg (fun e => (ofLex e).2) h

lemma active_injective : Function.Injective q.active := fun _ _ h => congrArg Prod.fst h

lemma deref_eq (ht : q.heap timer = some t) : q.deref timer = .ok t := by rw [deref, ht]

/-- **The queue holds the timers of `S`.** -/
structure Holds (q : TimerQueue) (S : Finset ℕ) : Prop where
  exist : ∀ timer ∈ S, (q.heap timer).isSome
  timers : Indexes q.entry S q.timers
  activeTimers : Indexes q.active S q.activeTimers

lemma Holds.of_empty (htimers : q.timers = ∅) (hactive : q.activeTimers = ∅) : q.Holds ∅ := by
  refine ⟨by simp, ?_, ?_⟩
  · rw [htimers]
    exact Indexes.empty
  · rw [hactive]
    exact Indexes.empty

lemma Holds.card_eq (h : q.Holds S) : q.timers.card = q.activeTimers.card := by
  rw [h.timers.card_eq entry_injective, h.activeTimers.card_eq active_injective]

lemma Holds.entry_mem_iff (h : q.Holds S) (ht : q.heap timer = some t) :
    toLex (t.expiration, timer) ∈ q.timers ↔ timer ∈ S := by
  rw [← entry_eq ht, h.timers.mem_iff entry_injective]

lemma Holds.active_mem_iff (h : q.Holds S) (ht : q.heap timer = some t) :
    (timer, t.seq) ∈ q.activeTimers ↔ timer ∈ S := by
  rw [← active_eq ht, h.activeTimers.mem_iff active_injective]

/-- An entry of `m_timers` is that of a timer. -/
lemma Holds.of_mem_timers (h : q.Holds S) {e : TimerEntry} (he : e ∈ q.timers) :
    (ofLex e).2 ∈ S ∧ ∃ t, q.heap (ofLex e).2 = some t ∧ t.expiration = (ofLex e).1 := by
  obtain ⟨timer, htimer, rfl⟩ := (h.timers e).mp he
  obtain ⟨t, ht⟩ := Option.isSome_iff_exists.mp (h.exist timer htimer)
  rw [entry_eq ht]
  exact ⟨htimer, t, ht, rfl⟩

/-- An entry of `m_activeTimers` is that of a timer. -/
lemma Holds.of_mem_activeTimers (h : q.Holds S) {e : ActiveTimer} (he : e ∈ q.activeTimers) :
    e.1 ∈ S ∧ ∃ t, q.heap e.1 = some t ∧ t.seq = e.2 := by
  obtain ⟨timer, htimer, rfl⟩ := (h.activeTimers e).mp he
  obtain ⟨t, ht⟩ := Option.isSome_iff_exists.mp (h.exist timer htimer)
  rw [active_eq ht]
  exact ⟨htimer, t, ht, rfl⟩

/-- A timer in neither set is none of those held. -/
lemma Holds.outside_iff (h : q.Holds S) :
    q.Outside timer ↔ (q.heap timer).isSome ∧ timer ∉ S := by
  constructor
  · rintro ⟨hexists, htimers, -⟩
    refine ⟨hexists, fun hmem => ?_⟩
    exact htimers _ ((h.timers.mem_iff entry_injective).mpr hmem) rfl
  · rintro ⟨hexists, hnot⟩
    refine ⟨hexists, ?_, ?_⟩
    · rintro e he rfl
      exact hnot (h.of_mem_timers he).1
    · rintro e he rfl
      exact hnot (h.of_mem_activeTimers he).1

/-- The timers that are not held do not matter. -/
lemma Holds.congr (h : q.Holds S) (hheap : ∀ timer ∈ S, q'.heap timer = q.heap timer)
    (htimers : q'.timers = q.timers) (hactive : q'.activeTimers = q.activeTimers) : q'.Holds S where
  exist timer htimer := by
    rw [hheap timer htimer]
    exact h.exist timer htimer
  timers := by
    rw [htimers]
    refine h.timers.congr fun timer htimer => ?_
    rw [entry, entry, hheap timer htimer]
  activeTimers := by
    rw [hactive]
    refine h.activeTimers.congr fun timer htimer => ?_
    rw [active, active, hheap timer htimer]

/-- A timer that is not held is created, deleted or restarted. -/
lemma Holds.update (h : q.Holds S) (hnot : timer ∉ S) (o : Option Timer) :
    Holds { q with heap := Function.update q.heap timer o } S := by
  refine h.congr (fun timer' htimer' => ?_) rfl rfl
  exact Function.update_of_ne (ne_of_mem_of_not_mem htimer' hnot) _ _

lemma Holds.makeTimer (h : q.Holds S) (hnone : q.heap timer = none) (expiration : ℤ)
    (bRepeat : Bool) : (q.makeTimer timer expiration bRepeat).Holds S := by
  have hnot : timer ∉ S := fun hmem => by simpa [hnone] using h.exist timer hmem
  exact (h.update hnot _).congr (fun _ _ => rfl) rfl rfl

/-! ## `insert` -/

/-- `begin()->first` is the least expiration. -/
lemma first_spec (x : ℤ) :
    q.first.elim true (fun e => decide (x < (ofLex e).1)) = true ↔
      ∀ e ∈ q.timers, x < (ofLex e).1 := by
  rw [first]
  split_ifs with hne
  · rw [Option.elim_some, decide_eq_true_iff]
    constructor
    · intro hlt e he
      refine lt_of_lt_of_le hlt ?_
      rcases Prod.Lex.le_iff.mp (q.timers.min'_le e he) with hless | ⟨heq, -⟩
      · exact hless.le
      · exact heq.le
    · exact fun hall => hall _ (q.timers.min'_mem hne)
  · rw [Finset.not_nonempty_iff_eq_empty] at hne
    simp [hne]

/-- The queue with a timer added to both sets. -/
def inserted (q : TimerQueue) (timer : ℕ) : TimerQueue :=
  { q with
    timers := Insert.insert (q.entry timer) q.timers
    activeTimers := Insert.insert (q.active timer) q.activeTimers }

lemma Holds.inserted (h : q.Holds S) (hexists : (q.heap timer).isSome) :
    (q.inserted timer).Holds (Insert.insert timer S) where
  exist timer' htimer' := by
    rcases Finset.mem_insert.mp htimer' with rfl | hmem
    · exact hexists
    · exact h.exist timer' hmem
  timers := h.timers.insert
  activeTimers := h.activeTimers.insert

/-- **`insert` adds the timer to both sets**, and says whether it is the first to expire. -/
lemma Holds.insert_spec (h : q.Holds S) (ht : q.heap timer = some t) (hnot : timer ∉ S) :
    ∃ earliestChanged, q.insert timer = .ok (q.inserted timer, earliestChanged) ∧
      (earliestChanged = true ↔ ∀ e ∈ q.timers, t.expiration < (ofLex e).1) := by
  have hentry : toLex (t.expiration, timer) ∉ q.timers := fun hmem =>
    hnot ((h.entry_mem_iff ht).mp hmem)
  have hactive : (timer, t.seq) ∉ q.activeTimers := fun hmem =>
    hnot ((h.active_mem_iff ht).mp hmem)
  have hexists : (q.heap timer).isSome := by
    rw [ht]
    rfl
  have hcard := (h.inserted hexists).card_eq
  simp only [TimerQueue.inserted, entry_eq ht, active_eq ht] at hcard
  refine ⟨_, ?_, first_spec t.expiration⟩
  simp only [insert, assertThat_pos h.card_eq, deref_eq ht, assertThat_pos hentry,
    assertThat_pos hactive, assertThat_pos hcard, bind_ok, pure_eq_ok, TimerQueue.inserted,
    entry_eq ht, active_eq ht]
  cases q.first <;> rfl

/-! ## `cancelInLoop` -/

/-- **`cancelInLoop` of a timer that is held** takes it out of `m_timers`, and gets no further. -/
lemma Holds.cancelInLoop_aborts (h : q.Holds S) {timerId : ActiveTimer} (hmem : timerId ∈ q.activeTimers) :
    q.cancelInLoop delete timerId = .error .badDelete := by
  obtain ⟨hheld, t, ht, hseq⟩ := h.of_mem_activeTimers hmem
  have hentry : toLex (t.expiration, timerId.1) ∈ q.timers := (h.entry_mem_iff ht).mpr hheld
  simp only [cancelInLoop, cancelActive, delete, assertThat_pos h.card_eq, if_pos hmem, deref_eq ht,
    assertThat_pos hentry, bind_ok, throw_eq_error, bind_error]

/-- `cancelInLoop` of anything else leaves both sets alone. -/
lemma Holds.cancelInLoop_of_notMem (h : q.Holds S) {timerId : ActiveTimer}
    (hnot : timerId ∉ q.activeTimers) :
    ∃ q', q.cancelInLoop delete timerId = .ok q' ∧ q'.Holds S ∧ q'.timers = q.timers ∧
      q'.activeTimers = q.activeTimers := by
  by_cases hcalling : q.callingExpiredTimers = true
  · refine ⟨{ q with cancelingTimers := Insert.insert timerId q.cancelingTimers }, ?_,
      h.congr (fun _ _ => rfl) rfl rfl, rfl, rfl⟩
    simp only [cancelInLoop, assertThat_pos h.card_eq, if_neg hnot, if_pos hcalling, bind_ok,
      pure_eq_ok]
  · refine ⟨q, ?_, h, rfl, rfl⟩
    simp only [cancelInLoop, assertThat_pos h.card_eq, if_neg hnot, if_neg hcalling, bind_ok,
      pure_eq_ok]

/-! ## `reset` -/

/-- The timer is added again by `reset`. -/
def Again (q : TimerQueue) (timer : ℕ) (t : Timer) : Prop :=
  q.heap timer = some t ∧ t.bRepeat = true ∧ (timer, t.seq) ∉ q.cancelingTimers

/-- Of a timer it has not come to, `reset` reads what was there before. -/
lemma again_congr {q₁ : TimerQueue} (hheap : q₁.heap timer = q.heap timer)
    (hcanceling : q₁.cancelingTimers = q.cancelingTimers) : q₁.Again timer t ↔ q.Again timer t := by
  rw [Again, Again, hheap, hcanceling]

lemma resets_congr {q₁ : TimerQueue} (hheap : q₁.heap timer = q.heap timer)
    (hcanceling : q₁.cancelingTimers = q.cancelingTimers) : q₁.resets timer = q.resets timer := by
  rw [resets, resets, hheap, hcanceling]

lemma resets_eq (ht : q.heap timer = some t) :
    q.resets timer = decide (t.bRepeat = true ∧ (timer, t.seq) ∉ q.cancelingTimers) := by
  rw [resets, ht, Option.any_some]

/-- The table `I'` has the entries of `I`, and those of the timers that are added again. -/
def Added {κ : Type*} (q : TimerQueue) (key : ℕ → Timer → κ) (expired : List TimerEntry)
    (I I' : Finset κ) : Prop :=
  ∀ k, k ∈ I' ↔ k ∈ I ∨ ∃ e ∈ expired, ∃ t, q.Again (ofLex e).2 t ∧ key (ofLex e).2 t = k

/-- What the rounds of the loop in `reset` make of a queue that holds `S`. -/
structure ResetTo (q : TimerQueue) (S : Finset ℕ) (expired : List TimerEntry) (now : ℤ)
    (q' : TimerQueue) (S' : Finset ℕ) : Prop where
  holds : q'.Holds S'
  timers : q.Added (fun timer t => toLex ((t.restart now).expiration, timer)) expired q.timers
    q'.timers
  activeTimers : q.Added (fun timer t => (timer, t.seq)) expired q.activeTimers q'.activeTimers
  cancelingTimers : q'.cancelingTimers = q.cancelingTimers
  frame : ∀ timer, (∀ e ∈ expired, (ofLex e).2 ≠ timer) →
    (timer ∈ S' ↔ timer ∈ S) ∧ q'.heap timer = q.heap timer

lemma Added.nil {κ : Type*} {key : ℕ → Timer → κ} {I : Finset κ} : q.Added key [] I I := by
  simp [Added]

lemma Added.one {κ : Type*} {key : ℕ → Timer → κ} {e : TimerEntry} {I I' : Finset κ}
    (h : ∀ k, k ∈ I' ↔ k ∈ I ∨ ∃ t, q.Again (ofLex e).2 t ∧ key (ofLex e).2 t = k) :
    q.Added key [e] I I' := by
  simpa only [Added, List.mem_singleton, exists_eq_left] using h

/-- The first timer is none of the others, and `reset` of it leaves those alone. -/
lemma Added.cons {κ : Type*} {key : ℕ → Timer → κ} {e : TimerEntry} {expired : List TimerEntry}
    {q₁ : TimerQueue} {I I₁ I' : Finset κ} (h : q.Added key [e] I I₁)
    (h' : q₁.Added key expired I₁ I')
    (hagain : ∀ e' ∈ expired, ∀ t, q₁.Again (ofLex e').2 t ↔ q.Again (ofLex e').2 t) :
    q.Added key (e :: expired) I I' := by
  intro k
  rw [h' k, h k, or_assoc]
  refine or_congr_right ?_
  simp only [List.mem_cons, List.not_mem_nil, exists_eq_or_imp, exists_eq_left, or_false]
  refine or_congr_right (exists_congr fun e' => and_congr_right fun he' => ?_)
  exact exists_congr fun t => and_congr_left fun _ => hagain e' he' t

lemma Holds.resetTo_nil (h : q.Holds S) (now : ℤ) : q.ResetTo S [] now q S :=
  ⟨h, .nil, .nil, rfl, fun _ _ => ⟨Iff.rfl, rfl⟩⟩

/-- **One round of the loop**, for a timer that is added to both sets again. -/
lemma Holds.resetTimer_spec (h : q.Holds S) {e : TimerEntry} (hexists : (q.heap (ofLex e).2).isSome)
    (hnot : (ofLex e).2 ∉ S) (hresets : q.resets (ofLex e).2 = true) (now : ℤ) :
    ∃ q' S', q.resetTimer delete (ofLex e).2 now = .ok q' ∧ q.ResetTo S [e] now q' S' := by
  obtain ⟨t, ht⟩ := Option.isSome_iff_exists.mp hexists
  have hagain : t.bRepeat = true ∧ ((ofLex e).2, t.seq) ∉ q.cancelingTimers := by
    rwa [resets_eq ht, decide_eq_true_iff] at hresets
  have hall : ∀ {p : Timer → Prop}, (∃ u, q.Again (ofLex e).2 u ∧ p u) ↔ p t := by
    intro p
    constructor
    · rintro ⟨u, ⟨hu, -⟩, hp⟩
      rwa [Option.some.inj (ht.symm.trans hu)]
    · exact fun hp => ⟨t, ⟨ht, hagain⟩, hp⟩
  let q₁ : TimerQueue :=
    { q with heap := Function.update q.heap (ofLex e).2 (some (t.restart now)) }
  have ht₁ : q₁.heap (ofLex e).2 = some (t.restart now) := Function.update_self ..
  have hholds : q₁.Holds S := h.update hnot _
  obtain ⟨_, hinsert, -⟩ := hholds.insert_spec ht₁ hnot
  refine ⟨q₁.inserted (ofLex e).2, _, ?_, hholds.inserted (by rw [ht₁]; rfl), .one ?_, .one ?_, rfl,
    ?_⟩
  · simp only [resetTimer, deref_eq ht, if_pos hagain, hinsert, bind_ok, pure_eq_ok, q₁]
  · intro k
    rw [hall, or_comm, eq_comm, ← entry_eq ht₁]
    exact Finset.mem_insert
  · intro k
    rw [hall, or_comm, eq_comm, ← show (t.restart now).seq = t.seq from rfl, ← active_eq ht₁]
    exact Finset.mem_insert
  · intro timer hne
    have hne' : timer ≠ (ofLex e).2 := fun heq => hne e (List.mem_singleton_self e) heq.symm
    exact ⟨by simp [hne'], Function.update_of_ne hne' _ _⟩

/-- For any other timer it gets to the `delete`. -/
lemma resetTimer_aborts (hexists : (q.heap timer).isSome) (hresets : q.resets timer = false) (now : ℤ) :
    q.resetTimer delete timer now = .error .badDelete := by
  obtain ⟨t, ht⟩ := Option.isSome_iff_exists.mp hexists
  rw [resets_eq ht, decide_eq_false_iff_not] at hresets
  simp only [resetTimer, delete, deref_eq ht, if_neg hresets, bind_ok, throw_eq_error]

/-- What the first round leaves of what the others need. -/
lemma ResetTo.rest {e : TimerEntry} {expired : List TimerEntry} {q₁ : TimerQueue} {S₁ : Finset ℕ} {now : ℤ}
    (hone : q.ResetTo S [e] now q₁ S₁) (hfirst : (ofLex e).2 ∉ expired.map fun e => (ofLex e).2) :
    ∀ e' ∈ expired, ((ofLex e').2 ∈ S₁ ↔ (ofLex e').2 ∈ S) ∧ q₁.heap (ofLex e').2 = q.heap (ofLex e').2 := by
  intro e' he'
  refine hone.frame _ fun x hx => ?_
  rw [List.mem_singleton.mp hx]
  exact fun heq => hfirst (List.mem_map.mpr ⟨e', he', heq.symm⟩)

/-- **The loop**, by induction on the timers it is left with. -/
lemma Holds.resetEach_spec {expired : List TimerEntry} (h : q.Holds S)
    (hnodup : (expired.map fun e => (ofLex e).2).Nodup)
    (houtside : ∀ e ∈ expired, (q.heap (ofLex e).2).isSome ∧ (ofLex e).2 ∉ S)
    (hresets : ∀ e ∈ expired, q.resets (ofLex e).2 = true) (now : ℤ) :
    ∃ q' S', q.resetEach delete expired now = .ok q' ∧ q.ResetTo S expired now q' S' := by
  induction expired generalizing q S with
  | nil => exact ⟨q, S, rfl, h.resetTo_nil now⟩
  | cons e expired ih =>
      obtain ⟨hfirst, hnodup⟩ := List.nodup_cons.mp hnodup
      obtain ⟨⟨hexists, hnot⟩, houtside⟩ := List.forall_mem_cons.mp houtside
      obtain ⟨hagain, hresets⟩ := List.forall_mem_cons.mp hresets
      obtain ⟨q₁, S₁, hround, hone⟩ := h.resetTimer_spec hexists hnot hagain now
      have hframe := hone.rest hfirst
      have houtside₁ : ∀ e' ∈ expired, (q₁.heap (ofLex e').2).isSome ∧ (ofLex e').2 ∉ S₁ := by
        intro e' he'
        rw [(hframe e' he').1, (hframe e' he').2]
        exact houtside e' he'
      have hresets₁ : ∀ e' ∈ expired, q₁.resets (ofLex e').2 = true := by
        intro e' he'
        rw [resets_congr (hframe e' he').2 hone.cancelingTimers]
        exact hresets e' he'
      obtain ⟨q', S', hrounds, hrest⟩ := ih hone.holds hnodup houtside₁ hresets₁
      have hagain : ∀ e' ∈ expired, ∀ t, q₁.Again (ofLex e').2 t ↔ q.Again (ofLex e').2 t :=
        fun e' he' t => again_congr (hframe e' he').2 hone.cancelingTimers
      refine ⟨q', S', ?_, hrest.holds, hone.timers.cons hrest.timers hagain,
        hone.activeTimers.cons hrest.activeTimers hagain,
        hrest.cancelingTimers.trans hone.cancelingTimers, ?_⟩
      · rw [resetEach, hround, bind_ok, hrounds]
      · intro timer hne
        obtain ⟨hmem, hheap⟩ := hrest.frame timer fun x hx => hne x (List.mem_cons_of_mem _ hx)
        obtain ⟨hmem₁, hheap₁⟩ := hone.frame timer fun x hx => by
          rw [List.mem_singleton.mp hx]
          exact hne e List.mem_cons_self
        exact ⟨hmem.trans hmem₁, hheap.trans hheap₁⟩

/-- **The loop aborts** at the first timer that is not added again. -/
lemma Holds.resetEach_aborts {expired : List TimerEntry} (h : q.Holds S)
    (hnodup : (expired.map fun e => (ofLex e).2).Nodup)
    (houtside : ∀ e ∈ expired, (q.heap (ofLex e).2).isSome ∧ (ofLex e).2 ∉ S)
    (hdeleted : ∃ e ∈ expired, q.resets (ofLex e).2 = false) (now : ℤ) :
    q.resetEach delete expired now = .error .badDelete := by
  induction expired generalizing q S with
  | nil => simp at hdeleted
  | cons e expired ih =>
      obtain ⟨hfirst, hnodup⟩ := List.nodup_cons.mp hnodup
      obtain ⟨⟨hexists, hnot⟩, houtside⟩ := List.forall_mem_cons.mp houtside
      cases hresets : q.resets (ofLex e).2 with
      | false => rw [resetEach, resetTimer_aborts hexists hresets, bind_error]
      | true =>
          obtain ⟨q₁, S₁, hround, hone⟩ := h.resetTimer_spec hexists hnot hresets now
          have hframe := hone.rest hfirst
          have houtside₁ : ∀ e' ∈ expired, (q₁.heap (ofLex e').2).isSome ∧ (ofLex e').2 ∉ S₁ := by
            intro e' he'
            rw [(hframe e' he').1, (hframe e' he').2]
            exact houtside e' he'
          have hdeleted₁ : ∃ e' ∈ expired, q₁.resets (ofLex e').2 = false := by
            obtain ⟨e', he', hnone⟩ := hdeleted
            rcases List.mem_cons.mp he' with rfl | he'
            · simp [hresets] at hnone
            · exact ⟨e', he', by rw [resets_congr (hframe e' he').2 hone.cancelingTimers, hnone]⟩
          rw [resetEach, hround, bind_ok, ih hone.holds hnodup houtside₁ hdeleted₁]

/-- **`reset`** does nothing more to the sets. -/
lemma Holds.reset_spec {expired : List TimerEntry} (h : q.Holds S) (hmay : q.MayReset expired)
    (hresets : ∀ e ∈ expired, q.resets (ofLex e).2 = true) (now : ℤ) :
    ∃ q' S', q.reset delete expired now = .ok q' ∧ q.ResetTo S expired now q' S' := by
  obtain ⟨q', S', hrounds, hreset⟩ :=
    h.resetEach_spec hmay.1 (fun e he => h.outside_iff.mp (hmay.2 e he)) hresets now
  refine ⟨q', S', ?_, hreset⟩
  simp only [reset, hrounds, bind_ok, pure_eq_ok]
  cases hfirst : q'.first with
  | none => rfl
  | some e =>
      have he : e ∈ q'.timers := by
        simp only [first, dite_eq_iff, Option.some.injEq, reduceCtorEq, exists_false, or_false] at hfirst
        obtain ⟨hne, rfl⟩ := hfirst
        exact q'.timers.min'_mem hne
      obtain ⟨-, t, ht, -⟩ := hreset.holds.of_mem_timers he
      simp only [deref_eq ht, bind_ok]

lemma Holds.reset_aborts {expired : List TimerEntry} (h : q.Holds S) (hmay : q.MayReset expired)
    (hdeleted : ∃ e ∈ expired, q.resets (ofLex e).2 = false) (now : ℤ) :
    q.reset delete expired now = .error .badDelete := by
  rw [reset, h.resetEach_aborts hmay.1 (fun e he => h.outside_iff.mp (hmay.2 e he)) hdeleted, bind_error]

/-! ## Agreement -/

/-- The two sets describe the same timers, and nothing else. -/
structure Agree (q : TimerQueue) : Prop where
  iff : ∀ timer t, q.heap timer = some t →
    (toLex (t.expiration, timer) ∈ q.timers ↔ (timer, t.seq) ∈ q.activeTimers)
  timers : ∀ e ∈ q.timers, ∃ t, q.heap (ofLex e).2 = some t ∧ t.expiration = (ofLex e).1
  activeTimers : ∀ e ∈ q.activeTimers, ∃ t, q.heap e.1 = some t ∧ t.seq = e.2

/-- `insert` adds the timer to both sets; it returns true if and only if the timer expires before every
timer that is already there. -/
def InsertExact (q : TimerQueue) (timer : ℕ) : Prop :=
  ∀ t, q.heap timer = some t → q.Outside timer →
    ∃ q' earliestChanged, q.insert timer = .ok (q', earliestChanged) ∧
      (earliestChanged = true ↔ ∀ e ∈ q.timers, t.expiration < (ofLex e).1) ∧
      q'.timers = Insert.insert (toLex (t.expiration, timer)) q.timers ∧
      q'.activeTimers = Insert.insert (timer, t.seq) q.activeTimers

/-- `cancelInLoop` takes the timer with this address and this sequence number out of both sets, if it is
there, and changes them no further. -/
def CancelExact (q : TimerQueue) (timerId : ActiveTimer) : Prop :=
  ∃ q', q.cancelInLoop delete timerId = .ok q' ∧
    (∀ e, e ∈ q'.timers ↔ e ∈ q.timers ∧
      ¬ ∃ t, q.heap (ofLex e).2 = some t ∧ ((ofLex e).2, t.seq) = timerId) ∧
    ∀ e, e ∈ q'.activeTimers ↔ e ∈ q.activeTimers ∧ e ≠ timerId

/-- `reset` adds the timers to both sets that repeat and are not in `m_cancelingTimers`, and changes them
no further. -/
def ResetExact (q : TimerQueue) (expired : List TimerEntry) (now : ℤ) : Prop :=
  q.MayReset expired → ∃ q', q.reset delete expired now = .ok q' ∧
    q.Added (fun timer t => toLex ((t.restart now).expiration, timer)) expired q.timers q'.timers ∧
    q.Added (fun timer t => (timer, t.seq)) expired q.activeTimers q'.activeTimers

/-- The operation returns, and changes the sets as it should. -/
def Exact (q : TimerQueue) : Action → Prop
  | .makeTimer _ _ _ => True
  | .release _ => True
  | .addTimerInLoop timer => q.InsertExact timer
  | .cancelInLoop timerId => q.CancelExact timerId
  | .reset expired now => q.ResetExact expired now

/-- The operation gets to a `delete`: the timer to be canceled is in the queue, or one of the expired timers is not
added again. -/
def DeletesByHand (q : TimerQueue) : Action → Prop
  | .makeTimer _ _ _ => False
  | .release _ => False
  | .addTimerInLoop _ => False
  | .cancelInLoop timerId => timerId ∈ q.activeTimers
  | .reset expired _ => q.MayReset expired ∧ ∃ e ∈ expired, q.resets (ofLex e).2 = false

variable {a : Action}

lemma Holds.agree (h : q.Holds S) : q.Agree where
  iff _ _ ht := (h.entry_mem_iff ht).trans (h.active_mem_iff ht).symm
  timers _ he := (h.of_mem_timers he).2
  activeTimers _ he := (h.of_mem_activeTimers he).2

lemma Holds.insertExact (h : q.Holds S) (timer : ℕ) : q.InsertExact timer := by
  intro t ht houtside
  obtain ⟨b, hinsert, hb⟩ := h.insert_spec ht (h.outside_iff.mp houtside).2
  exact ⟨_, b, hinsert, hb, by rw [TimerQueue.inserted, entry_eq ht],
    by rw [TimerQueue.inserted, active_eq ht]⟩

lemma Holds.cancelExact (h : q.Holds S) {timerId : ActiveTimer} (hnot : timerId ∉ q.activeTimers) :
    q.CancelExact timerId := by
  obtain ⟨q', hcancel, -, htimers, hactive⟩ := h.cancelInLoop_of_notMem hnot
  refine ⟨q', hcancel, ?_, ?_⟩
  · intro e
    rw [htimers]
    refine (and_iff_left_of_imp ?_).symm
    rintro he ⟨t, ht, rfl⟩
    exact hnot ((h.active_mem_iff ht).mpr (h.of_mem_timers he).1)
  · intro e
    rw [hactive]
    refine (and_iff_left_of_imp ?_).symm
    rintro he rfl
    exact hnot he

/-- The expired timers are all added again, if `reset` does not get to the `delete`. -/
lemma resets_of_not_deletes {expired : List TimerEntry} {now : ℤ} (hmay : q.MayReset expired)
    (hnot : ¬ q.DeletesByHand (.reset expired now)) : ∀ e ∈ expired, q.resets (ofLex e).2 = true := by
  intro e he
  by_contra hresets
  exact hnot ⟨hmay, e, he, by simpa using hresets⟩

/-- **An operation that does not get to a `delete` is exact.** -/
lemma Holds.exact (h : q.Holds S) (hnot : ¬ q.DeletesByHand a) : q.Exact a := by
  cases a with
  | makeTimer timer expiration bRepeat => trivial
  | release timer => trivial
  | addTimerInLoop timer => exact h.insertExact timer
  | cancelInLoop timerId => exact h.cancelExact hnot
  | reset expired now =>
      intro hmay
      obtain ⟨q', S', hreset, hto⟩ := h.reset_spec hmay (resets_of_not_deletes hmay hnot) now
      exact ⟨q', hreset, hto.timers, hto.activeTimers⟩

/-- **One that gets there aborts.** -/
lemma Holds.aborts (h : q.Holds S) (hdeletes : q.DeletesByHand a) : q.step a = .error .badDelete := by
  cases a with
  | cancelInLoop timerId => exact h.cancelInLoop_aborts hdeletes
  | reset expired now =>
      obtain ⟨hmay, hdeleted⟩ := hdeletes
      exact (if_pos hmay).trans (h.reset_aborts hmay hdeleted now)
  | _ => exact hdeletes.elim

/-- **A step that does not keeps the queue holding some set**, and no assertion fails. -/
lemma Holds.step_spec (h : q.Holds S) (hnot : ¬ q.DeletesByHand a) :
    (∃ q' S', q.step a = .ok q' ∧ q'.Holds S') ∨ q.step a = .error .disabled := by
  cases a with
  | makeTimer timer expiration bRepeat =>
      by_cases hnone : timer ≠ 0 ∧ q.heap timer = none
      · exact Or.inl ⟨_, S, if_pos hnone, h.makeTimer hnone.2 expiration bRepeat⟩
      · exact Or.inr (if_neg hnone)
  | release timer =>
      by_cases houtside : q.Outside timer
      · obtain ⟨hexists, hout⟩ := h.outside_iff.mp houtside
        obtain ⟨t, ht⟩ := Option.isSome_iff_exists.mp hexists
        refine Or.inl ⟨_, S, ?_, h.update hout none⟩
        simp only [step, if_pos houtside, dispose, deref_eq ht, bind_ok, pure_eq_ok]
      · exact Or.inr (if_neg houtside)
  | addTimerInLoop timer =>
      by_cases houtside : q.Outside timer
      · obtain ⟨hexists, hout⟩ := h.outside_iff.mp houtside
        obtain ⟨t, ht⟩ := Option.isSome_iff_exists.mp hexists
        obtain ⟨b, hinsert, -⟩ := h.insert_spec ht hout
        refine Or.inl ⟨_, _, ?_, h.inserted hexists⟩
        simp only [step, if_pos houtside, addTimerInLoop, hinsert, bind_ok, pure_eq_ok]
      · exact Or.inr (if_neg houtside)
  | cancelInLoop timerId =>
      obtain ⟨q', hcancel, hholds, -⟩ := h.cancelInLoop_of_notMem hnot
      exact Or.inl ⟨q', S, hcancel, hholds⟩
  | reset expired now =>
      by_cases hmay : q.MayReset expired
      · obtain ⟨q', S', hreset, hto⟩ := h.reset_spec hmay (resets_of_not_deletes hmay hnot) now
        exact Or.inl ⟨q', S', (if_pos hmay).trans hreset, hto.holds⟩
      · exact Or.inr (if_neg hmay)

lemma holds_step (h : ∃ S, q.Holds S) (hstep : q.step a = .ok q') : ∃ S, q'.Holds S := by
  obtain ⟨S, hS⟩ := h
  by_cases hdeletes : q.DeletesByHand a
  · simp [hS.aborts hdeletes] at hstep
  · rcases hS.step_spec hdeletes with ⟨q₁, S₁, h₁, hholds⟩ | hdisabled
    · obtain rfl := Except.ok.inj (h₁.symm.trans hstep)
      exact ⟨S₁, hholds⟩
    · simp [hdisabled] at hstep

/-- The two sets describe the same timers in every state of the run, every operation that is called changes them
as it should, and none of them stops the program. -/
def IndexesAgree (q : TimerQueue) (as : List Action) : Prop :=
  (∀ s ∈ Machine.states step q as, s.Agree) ∧ (∀ p ∈ Machine.attempts step q as, p.1.Exact p.2) ∧
    ∀ e, Machine.run step q as = .error e → e = .disabled

/-- **When the two sets agree.**  In a run from empty sets, whatever is added, canceled and reset, they describe the
same timers in every state, each operation changes them as it should, no assertion fails and no timer that is gone
is read, if and only if no operation gets to a `delete`: no timer is canceled that is in the queue, and `reset` is
called with timers that are all added again. -/
theorem indexes_agree_iff (htimers : q.timers = ∅) (hactive : q.activeTimers = ∅) (as : List Action) :
    q.IndexesAgree as ↔ ∀ p ∈ Machine.attempts step q as, ¬ p.1.DeletesByHand p.2 := by
  have hall : ∀ s ∈ Machine.states step q as, ∃ S, s.Holds S :=
    Machine.states_invariant (fun _ _ _ h hs => holds_step h hs) ⟨∅, .of_empty htimers hactive⟩
  constructor
  · rintro ⟨-, -, hstops⟩ p hp hdeletes
    obtain ⟨S, hS⟩ := hall p.1 (Machine.state_of_mem_attempts hp)
    have hrun := Machine.run_eq_error_iff.mpr ⟨p, hp, hS.aborts hdeletes⟩
    exact absurd (hstops _ hrun) (by decide)
  · intro hnot
    refine ⟨fun s hs => ?_, fun p hp => ?_, fun e hrun => ?_⟩
    · obtain ⟨S, hS⟩ := hall s hs
      exact hS.agree
    · obtain ⟨S, hS⟩ := hall p.1 (Machine.state_of_mem_attempts hp)
      exact hS.exact (hnot p hp)
    · obtain ⟨p, hp, hstep⟩ := Machine.run_eq_error_iff.mp hrun
      obtain ⟨S, hS⟩ := hall p.1 (Machine.state_of_mem_attempts hp)
      rcases hS.step_spec (hnot p hp) with ⟨q₁, S₁, h₁, -⟩ | hdisabled
      · simp [h₁] at hstep
      · exact (Except.error.inj (hdisabled.symm.trans hstep)).symm

/-- A queue nobody has used. -/
def new : TimerQueue := ⟨fun _ => none, 0, ∅, ∅, false, ∅⟩

/-- An id is stale when the address of its timer belongs to a later one. -/
def reused : List Action :=
  [.makeTimer 1 10 true, .release 1, .makeTimer 1 5 false, .addTimerInLoop 1, .cancelInLoop (1, 1),
    .cancelInLoop (0, 0), .makeTimer 2 5 true, .reset [toLex (5, 2)] 7]

instance (q : TimerQueue) : DecidablePred q.DeletesByHand := fun a =>
  match a with
  | .makeTimer _ _ _ => inferInstanceAs (Decidable False)
  | .release _ => inferInstanceAs (Decidable False)
  | .addTimerInLoop _ => inferInstanceAs (Decidable False)
  | .cancelInLoop _ => inferInstanceAs (Decidable (_ ∈ _))
  | .reset _ _ => inferInstanceAs (Decidable (_ ∧ ∃ _ ∈ _, _))

theorem indexes_agree_reused :
    new.IndexesAgree reused ∧
      (Machine.run step new reused).map (fun s => (s.timers, s.activeTimers))
        = .ok ({toLex (5, 2), toLex (5, 1)}, {(2, 3), (1, 2)}) :=
  ⟨(indexes_agree_iff rfl rfl reused).mpr (by decide +kernel), by decide +kernel⟩

/-- **A timer that is canceled, and one that has expired**: neither `cancelInLoop` nor `reset` returns. -/
theorem cancel_aborts :
    ¬ new.IndexesAgree [.makeTimer 1 10 true, .addTimerInLoop 1, .cancelInLoop (1, 1)] ∧
    ¬ new.IndexesAgree [.makeTimer 1 10 false, .reset [toLex (10, 1)] 12] := by
  have hcancel : (Machine.run step new [.makeTimer 1 10 true, .addTimerInLoop 1, .cancelInLoop (1, 1)]).map
      (fun _ => ()) = .error .badDelete := by
    decide +kernel
  have hreset : (Machine.run step new [.makeTimer 1 10 false, .reset [toLex (10, 1)] 12]).map (fun _ => ())
      = .error .badDelete := by
    decide +kernel
  refine ⟨fun hagree => ?_, fun hagree => ?_⟩
  · exact absurd (hagree.2.2 _ (Machine.error_of_map hcancel)) (by decide)
  · exact absurd (hagree.2.2 _ (Machine.error_of_map hreset)) (by decide)

end TimerQueue

end Seenet
