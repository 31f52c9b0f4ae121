import Seenet.Lib.Machine
import Seenet.Lib.SharedOwnership
import Seenet.TimerQueue.Basic

/-!
# Who owns the timers

A `Timer_sPt` is shared: a timer is owned by the entries of the three sets, by the `TimerId`s that are about,
by the functors of `addTimerInLoop` that are queued, and by the vector that `reset` is called with; when the
last of them goes, it is disposed of.  Next to that, `cancelInLoop`, `reset` and `~TimerQueue` dispose of
timers by `delete`.

The timers are numbered in the order they were created.  `getExpired` has no body in the source; what it is
declared for, that entries are moved out of the sets into a vector, is a step here.  A functor of a loop may be
destroyed without having run.

* `Owned` — somebody owns the timer.
* `deletes` — the timers a step disposes of by hand.
* **`disposed_once`** — in a run where nothing is disposed of by hand, no timer is disposed of twice, and the
  sets have only timers that are there; and when all owners have gone, exactly in such a run.
* **`disposed_twice`** — a timer that is in the queue when that is destroyed, and one that is canceled.
-/

namespace Seenet

open SharedOwnership

namespace TimerQueue

/-- How far `~TimerQueue` is. -/
inductive Phase
  | alive
  /-- the timers have been deleted, the sets are still there -/
  | deleted
  | destroyed
  deriving DecidableEq, Repr

/-- The memory of timers is given back. -/
def free (q : TimerQueue) (timers : List ℕ) : TimerQueue :=
  { q with heap := fun timer => if timer ∈ timers then none else q.heap timer }

structure Ownership where
  queue : TimerQueue
  /-- the timers created, each with its address and its sequence number -/
  made : List ActiveTimer
  timerIds : List ℕ
  functors : List ℕ
  /-- the vector `expired` -/
  expired : List (ℤ × ℕ)
  /-- the timer that the entries with an address in `m_timers` and `m_activeTimers` own -/
  holder : ℕ → ℕ
  /-- the timer that an entry of `m_cancelingTimers` owns, if its address is not null -/
  canceling : ActiveTimer → Option ℕ
  phase : Phase
  events : List (SharedOwnership.Event ℕ)

namespace Ownership

/-- `TimerQueue::TimerQueue`, for either value of `m_callingExpiredTimers`. -/
def create (callingExpiredTimers : Bool) : Ownership where
  queue := ⟨fun _ => none, 0, ∅, ∅, callingExpiredTimers, ∅⟩
  made := []
  timerIds := []
  functors := []
  expired := []
  holder := fun _ => 0
  canceling := fun _ => none
  phase := .alive
  events := []

/-- The address and the sequence number in a `TimerId`. -/
def key (s : Ownership) (timerId : Option ℕ) : ActiveTimer := timerId.elim (0, 0) fun i => s.made.getD i (0, 0)

def address (s : Ownership) (i : ℕ) : ℕ := (s.key (some i)).1

/-- The vector `expired`, as `reset` sees it. -/
def entries (s : Ownership) : List TimerEntry := s.expired.map fun x => toLex (x.1, s.address x.2)

/-- The numbers of the timers created. -/
def numbers (s : Ownership) : List ℕ := List.range s.made.length

/-- Somebody owns the timer. -/
def Owned (s : Ownership) (i : ℕ) : Prop :=
  i ∈ s.timerIds ∨ i ∈ s.functors ∨ i ∈ s.expired.map Prod.snd ∨
    (∃ e ∈ s.queue.timers, s.holder (ofLex e).2 = i) ∨ (∃ e ∈ s.queue.activeTimers, s.holder e.1 = i) ∨
    ∃ e ∈ s.queue.cancelingTimers, s.canceling e = some i

instance (s : Ownership) : DecidablePred s.Owned := fun _ =>
  inferInstanceAs (Decidable (_ ∨ _ ∨ _ ∨ (∃ _ ∈ _, _) ∨ (∃ _ ∈ _, _) ∨ ∃ _ ∈ _, _))

inductive Action
  /-- `addTimer`, which puts the timer at an address that is free and returns a `TimerId` -/
  | addTimer (timer : ℕ) (expiration : ℤ) (bRepeat : Bool)
  | addTimerInLoop (i : ℕ)
  | copyTimerId (i : ℕ)
  | dropTimerId (i : ℕ)
  /-- `cancelInLoop` of a `TimerId`, or of one without a timer -/
  | cancelInLoop (timerId : Option ℕ)
  /-- an entry is moved out of the sets -/
  | getExpired (e : TimerEntry)
  | reset (now : ℤ)
  /-- the vector `expired` is destroyed -/
  | dropExpired
  /-- a functor is destroyed -/
  | dropFunctor (i : ℕ)
  /-- `~TimerQueue`, until its members are destroyed -/
  | deleteTimers
  | destroyMembers
  deriving DecidableEq

/-- The timers that are disposed of by `delete`. -/
def deletes (s : Ownership) : Action → List ℕ
  | .cancelInLoop timerId =>
      if s.key timerId ∈ s.queue.activeTimers then [s.holder (s.key timerId).1] else []
  | .reset _ => (s.expired.filter fun x => ¬ s.queue.resets (s.address x.2)).map Prod.snd
  | .deleteTimers => s.numbers.filter fun i => ∃ e ∈ s.queue.timers, s.holder (ofLex e).2 = i
  | _ => []

/-- What the step does to the queue and to the owners. -/
def act (s : Ownership) : Action → Res Ownership
  | .addTimer timer expiration bRepeat =>
      if s.phase = .alive ∧ timer ≠ 0 ∧ s.queue.heap timer = none then
        .ok { s with
          queue := s.queue.makeTimer timer expiration bRepeat
          made := s.made ++ [(timer, s.queue.numCreated + 1)]
          timerIds := s.made.length :: s.timerIds
          functors := s.functors ++ [s.made.length] }
      else .error .disabled
  | .addTimerInLoop i =>
      if s.phase = .alive ∧ i ∈ s.functors then do
        let queue ← s.queue.addTimerInLoop (s.address i)
        return { s with
          queue := queue
          functors := s.functors.erase i
          holder := Function.update s.holder (s.address i) i }
      else .error .disabled
  | .copyTimerId i =>
      if i ∈ s.timerIds then .ok { s with timerIds := i :: s.timerIds } else .error .disabled
  | .dropTimerId i =>
      if i ∈ s.timerIds then .ok { s with timerIds := s.timerIds.erase i } else .error .disabled
  | .cancelInLoop timerId =>
      if s.phase = .alive ∧ ∀ i ∈ timerId, i ∈ s.timerIds then do
        let queue ← s.queue.cancelInLoop dispose (s.key timerId)
        return { s with
          queue := queue
          -- an entry that is there already is not replaced
          canceling := if s.key timerId ∈ s.queue.cancelingTimers then s.canceling
            else Function.update s.canceling (s.key timerId) timerId }
      else .error .disabled
  | .getExpired e =>
      if s.phase = .alive ∧ e ∈ s.queue.timers then do
        let t ← s.queue.deref (ofLex e).2
        return { s with
          queue := { s.queue with
            timers := s.queue.timers.erase e
            activeTimers := s.queue.activeTimers.erase ((ofLex e).2, t.seq) }
          expired := s.expired ++ [((ofLex e).1, s.holder (ofLex e).2)] }
      else .error .disabled
  | .reset now =>
      if s.phase = .alive ∧ s.queue.MayReset s.entries then do
        let queue ← s.queue.reset dispose s.entries now
        return { s with
          queue := queue
          holder := fun timer =>
            ((s.expired.map Prod.snd).find? fun i => s.address i = timer).getD (s.holder timer) }
      else .error .disabled
  | .dropExpired => .ok { s with expired := [] }
  | .dropFunctor i =>
      if i ∈ s.functors then .ok { s with functors := s.functors.erase i } else .error .disabled
  | .deleteTimers =>
      if s.phase = .alive then
        .ok { s with
          queue := s.queue.free ((s.deletes .deleteTimers).map s.address)
          phase := .deleted }
      else .error .disabled
  | .destroyMembers =>
      if s.phase = .deleted then
        .ok { s with
          queue := { s.queue with timers := ∅, activeTimers := ∅, cancelingTimers := ∅ }
          phase := .destroyed }
      else .error .disabled

/-- One step.  The timers whose last owner has gone with it are disposed of in the end. -/
def step (s : Ownership) (a : Action) : Res Ownership := do
  let s' ← s.act a
  return { s' with
    queue := s'.queue.free ((released s.numbers s.Owned s'.Owned).map s.address)
    events := record s.numbers s.Owned s'.Owned (s.deletes a) s.events }

end Ownership

/-! ## What an operation of the queue puts into the sets -/

variable {q q' : TimerQueue} {timer : ℕ} {ns ns' : List ℕ}

/-- Whatever is new in the sets is at one of the addresses. -/
structure Gains (q q' : TimerQueue) (ns : List ℕ) : Prop where
  timers : ∀ e ∈ q'.timers, e ∈ q.timers ∨ (ofLex e).2 ∈ ns
  activeTimers : ∀ e ∈ q'.activeTimers, e ∈ q.activeTimers ∨ e.1 ∈ ns
  cancelingTimers : q'.cancelingTimers = q.cancelingTimers

lemma insert_gains {earliestChanged : Bool} (hok : q.insert timer = .ok (q', earliestChanged)) :
    q.Gains q' [timer] := by
  simp only [insert, bind_eq_ok, pure_eq_ok, Except.ok.injEq, Prod.mk.injEq] at hok
  obtain ⟨-, -, t, -, -, -, -, -, -, -, rfl, -⟩ := hok
  refine ⟨?_, ?_, rfl⟩
  · intro e he
    rcases Finset.mem_insert.mp he with rfl | he
    · exact Or.inr List.mem_cons_self
    · exact Or.inl he
  · intro e he
    rcases Finset.mem_insert.mp he with rfl | he
    · exact Or.inr List.mem_cons_self
    · exact Or.inl he

lemma addTimerInLoop_gains (hok : q.addTimerInLoop timer = .ok q') : q.Gains q' [timer] := by
  simp only [addTimerInLoop, bind_eq_ok, pure_eq_ok, Except.ok.injEq, Prod.exists] at hok
  obtain ⟨q₁, b, hinsert, rfl⟩ := hok
  exact insert_gains hinsert

lemma resetTimer_gains {now : ℤ} (hok : q.resetTimer dispose timer now = .ok q') : q.Gains q' [timer] := by
  simp only [resetTimer, bind_eq_ok] at hok
  obtain ⟨t, -, hok⟩ := hok
  split_ifs at hok with hagain
  · simp only [bind_eq_ok, pure_eq_ok, Except.ok.injEq, Prod.exists] at hok
    obtain ⟨q₁, b, hinsert, rfl⟩ := hok
    obtain ⟨htimers, hactive, hcanceling⟩ := insert_gains hinsert
    exact ⟨htimers, hactive, hcanceling⟩
  · simp only [dispose, bind_eq_ok, pure_eq_ok, Except.ok.injEq] at hok
    obtain ⟨-, -, rfl⟩ := hok
    exact ⟨fun e he => Or.inl he, fun e he => Or.inl he, rfl⟩

/-- Two operations, one after the other. -/
lemma Gains.trans {q₁ : TimerQueue} (h : q.Gains q₁ ns) (h' : q₁.Gains q' ns') :
    q.Gains q' (ns ++ ns') where
  timers e he := by
    rw [List.mem_append]
    rcases h'.timers e he with he | he
    · exact (h.timers e he).imp_right Or.inl
    · exact Or.inr (Or.inr he)
  activeTimers e he := by
    rw [List.mem_append]
    rcases h'.activeTimers e he with he | he
    · exact (h.activeTimers e he).imp_right Or.inl
    · exact Or.inr (Or.inr he)
  cancelingTimers := h'.cancelingTimers.trans h.cancelingTimers

lemma resetEach_gains {expired : List TimerEntry} {now : ℤ} (hok : q.resetEach dispose expired now = .ok q') :
    q.Gains q' (expired.map fun e => (ofLex e).2) := by
  induction expired generalizing q with
  | nil =>
      rw [resetEach, Except.ok.injEq] at hok
      rw [← hok]
      exact ⟨fun e he => Or.inl he, fun e he => Or.inl he, rfl⟩
  | cons e expired ih =>
      rw [resetEach, bind_eq_ok] at hok
      obtain ⟨q₁, hfirst, hrest⟩ := hok
      exact (resetTimer_gains hfirst).trans (ih hrest)

lemma reset_gains {expired : List TimerEntry} {now : ℤ} (hok : q.reset dispose expired now = .ok q') :
    q.Gains q' (expired.map fun e => (ofLex e).2) := by
  rw [reset, bind_eq_ok] at hok
  obtain ⟨q₁, heach, hok⟩ := hok
  have hq : q₁ = q' := by
    split at hok
    · exact Except.ok.inj hok
    · obtain ⟨-, -, hok⟩ := bind_eq_ok.mp hok
      exact Except.ok.inj hok
  rw [← hq]
  exact resetEach_gains heach

/-- `cancelInLoop` puts the id into `m_cancelingTimers`, if anything. -/
lemma cancelInLoop_gains {timerId : ActiveTimer} (hok : q.cancelInLoop dispose timerId = .ok q') :
    q'.timers ⊆ q.timers ∧ q'.activeTimers ⊆ q.activeTimers ∧
      q'.cancelingTimers ⊆ Insert.insert timerId q.cancelingTimers := by
  rw [cancelInLoop, bind_eq_ok] at hok
  obtain ⟨-, -, hok⟩ := hok
  split_ifs at hok with hactive hcalling
  · simp only [cancelActive, dispose, bind_eq_ok, pure_eq_ok, Except.ok.injEq] at hok
    obtain ⟨_, ⟨t, -, -, -, q₂, ⟨-, -, rfl⟩, rfl⟩, -, -, rfl⟩ := hok
    exact ⟨Finset.erase_subset _ _, Finset.erase_subset _ _, Finset.subset_insert _ _⟩
  · simp only [bind_eq_ok, pure_eq_ok, Except.ok.injEq] at hok
    obtain ⟨_, rfl, -, -, rfl⟩ := hok
    exact ⟨Finset.Subset.refl _, Finset.Subset.refl _, Finset.Subset.refl _⟩
  · simp only [bind_eq_ok, pure_eq_ok, Except.ok.injEq] at hok
    obtain ⟨_, rfl, -, -, rfl⟩ := hok
    exact ⟨Finset.Subset.refl _, Finset.Subset.refl _, Finset.subset_insert _ _⟩

/-! ## Owners come from owners -/

namespace Ownership

variable {s s' : Ownership} {a : Action} {P : ℕ → Prop} {i : ℕ}

/-- Every owner owns a timer of `P`. -/
structure OwnersIn (s : Ownership) (P : ℕ → Prop) : Prop where
  timerIds : ∀ i ∈ s.timerIds, P i
  functors : ∀ i ∈ s.functors, P i
  expired : ∀ x ∈ s.expired, P x.2
  timers : ∀ e ∈ s.queue.timers, P (s.holder (ofLex e).2)
  activeTimers : ∀ e ∈ s.queue.activeTimers, P (s.holder e.1)
  canceling : ∀ e ∈ s.queue.cancelingTimers, ∀ i, s.canceling e = some i → P i

lemma OwnersIn.owned (h : s.OwnersIn P) (hi : s.Owned i) : P i := by
  rcases hi with hi | hi | hi | ⟨e, he, rfl⟩ | ⟨e, he, rfl⟩ | ⟨e, he, hi⟩
  · exact h.timerIds i hi
  · exact h.functors i hi
  · obtain ⟨x, hx, rfl⟩ := List.mem_map.mp hi
    exact h.expired x hx
  · exact h.timers e he
  · exact h.activeTimers e he
  · exact h.canceling e he i hi

lemma ownersIn_of_owned (h : ∀ i, s.Owned i → P i) : s.OwnersIn P where
  timerIds i hi := h i (Or.inl hi)
  functors i hi := h i (Or.inr (Or.inl hi))
  expired x hx := h x.2 (Or.inr (Or.inr (Or.inl (List.mem_map_of_mem hx))))
  timers e he := h _ (Or.inr (Or.inr (Or.inr (Or.inl ⟨e, he, rfl⟩))))
  activeTimers e he := h _ (Or.inr (Or.inr (Or.inr (Or.inr (Or.inl ⟨e, he, rfl⟩)))))
  canceling e he i hi := h i (Or.inr (Or.inr (Or.inr (Or.inr (Or.inr ⟨e, he, hi⟩)))))

lemma ownersIn_self (s : Ownership) : s.OwnersIn s.Owned := ownersIn_of_owned fun _ => id

/-- **The owners after a step.**  They own timers that were owned before, and the timer it makes. -/
structure Hands (s s' : Ownership) (new : List ℕ) : Prop where
  numbers_eq : s'.numbers = s.numbers ++ new
  new_owned : ∀ i ∈ new, s'.Owned i
  owners : s'.OwnersIn fun i => s.Owned i ∨ i ∈ new

/-- A step that makes no timer. -/
lemma OwnersIn.hands (h : s'.OwnersIn s.Owned) (hnumbers : s'.numbers = s.numbers) : s.Hands s' [] where
  numbers_eq := by rw [hnumbers, List.append_nil]
  new_owned := List.forall_mem_nil _
  owners := ownersIn_of_owned fun _ hi => Or.inl (h.owned hi)

/-- What an operation puts into the sets, at addresses that get a holder. -/
lemma ownersIn_of_gains {queue : TimerQueue} {ns : List ℕ} (hgains : s.queue.Gains queue ns) (holder : ℕ → ℕ)
    (hold : ∀ timer, holder timer = s.holder timer ∨ s.Owned (holder timer))
    (hnew : ∀ timer ∈ ns, s.Owned (holder timer)) :
    OwnersIn { s with queue := queue, holder := holder } s.Owned where
  timerIds := s.ownersIn_self.timerIds
  functors := s.ownersIn_self.functors
  expired := s.ownersIn_self.expired
  timers e he := by
    rcases hgains.timers e he with he | he
    · rcases hold (ofLex e).2 with heq | howned
      · show s.Owned (holder (ofLex e).2)
        rw [heq]
        exact s.ownersIn_self.timers e he
      · exact howned
    · exact hnew _ he
  activeTimers e he := by
    rcases hgains.activeTimers e he with he | he
    · rcases hold e.1 with heq | howned
      · show s.Owned (holder e.1)
        rw [heq]
        exact s.ownersIn_self.activeTimers e he
      · exact howned
    · exact hnew _ he
  canceling e he i hi := by
    rw [hgains.cancelingTimers] at he
    exact s.ownersIn_self.canceling e he i hi

lemma reset_hands {now : ℤ} (hok : s.act (.reset now) = .ok s') : s.Hands s' [] := by
  rw [act, guard_eq_ok, bind_eq_ok] at hok
  obtain ⟨-, queue, hreset, hok⟩ := hok
  obtain rfl := Except.ok.inj hok
  have hfound : ∀ timer j, ((s.expired.map Prod.snd).find? fun i => s.address i = timer) = some j →
      s.Owned j := fun timer j hj => by
    obtain ⟨x, hx, rfl⟩ := List.mem_map.mp (List.mem_of_find?_eq_some hj)
    exact s.ownersIn_self.expired x hx
  refine OwnersIn.hands (ownersIn_of_gains (reset_gains hreset) _ ?_ ?_) rfl
  · intro timer
    cases hfind : (s.expired.map Prod.snd).find? fun i => s.address i = timer with
    | none => exact Or.inl (by simp only [Option.getD_none])
    | some j => exact Or.inr (by simpa only [hfind, Option.getD_some] using hfound timer j hfind)
  · intro timer htimer
    obtain ⟨e, he, rfl⟩ := List.mem_map.mp htimer
    obtain ⟨x, hx, rfl⟩ := List.mem_map.mp he
    have hthere : ((s.expired.map Prod.snd).find? fun i => s.address i = s.address x.2).isSome := by
      rw [List.find?_isSome]
      exact ⟨x.2, List.mem_map_of_mem hx, decide_eq_true rfl⟩
    obtain ⟨j, hj⟩ := Option.isSome_iff_exists.mp hthere
    show s.Owned (((s.expired.map Prod.snd).find? fun i => s.address i = s.address x.2).getD _)
    rw [hj]
    exact hfound _ j hj

lemma addTimerInLoop_hands (hok : s.act (.addTimerInLoop i) = .ok s') : s.Hands s' [] := by
  rw [act, guard_eq_ok, bind_eq_ok] at hok
  obtain ⟨⟨-, hi⟩, queue, hadd, hok⟩ := hok
  obtain rfl := Except.ok.inj hok
  have howned : s.Owned i := s.ownersIn_self.functors i hi
  have hset := ownersIn_of_gains (addTimerInLoop_gains hadd) (Function.update s.holder (s.address i) i) ?_ ?_
  · refine OwnersIn.hands ⟨hset.timerIds, ?_, hset.expired, hset.timers, hset.activeTimers,
      hset.canceling⟩ rfl
    exact fun j hj => hset.functors j (List.mem_of_mem_erase hj)
  · intro timer
    rcases eq_or_ne timer (s.address i) with rfl | hne
    · rw [Function.update_self]
      exact Or.inr howned
    · exact Or.inl (Function.update_of_ne hne _ _)
  · intro timer htimer
    rw [List.mem_singleton.mp htimer, Function.update_self]
    exact howned

lemma cancelInLoop_hands {timerId : Option ℕ} (hok : s.act (.cancelInLoop timerId) = .ok s') :
    s.Hands s' [] := by
  rw [act, guard_eq_ok, bind_eq_ok] at hok
  obtain ⟨⟨-, hid⟩, queue, hcancel, hok⟩ := hok
  obtain rfl := Except.ok.inj hok
  obtain ⟨htimers, hactive, hcanceling⟩ := cancelInLoop_gains hcancel
  have hself := s.ownersIn_self
  refine OwnersIn.hands ⟨hself.timerIds, hself.functors, hself.expired,
    fun e he => hself.timers e (htimers he), fun e he => hself.activeTimers e (hactive he), ?_⟩ rfl
  intro e he i hi
  dsimp only at he hi
  split_ifs at hi with hthere
  · refine hself.canceling e ?_ i hi
    rcases Finset.mem_insert.mp (hcanceling he) with rfl | he
    · exact hthere
    · exact he
  · rcases eq_or_ne e (s.key timerId) with rfl | hne
    · rw [Function.update_self] at hi
      exact hself.timerIds i (hid i hi)
    · rw [Function.update_of_ne hne] at hi
      exact hself.canceling e ((Finset.mem_insert.mp (hcanceling he)).resolve_left hne) i hi

lemma getExpired_hands {e : TimerEntry} (hok : s.act (.getExpired e) = .ok s') : s.Hands s' [] := by
  rw [act, guard_eq_ok, bind_eq_ok] at hok
  obtain ⟨⟨-, he⟩, t, -, hok⟩ := hok
  obtain rfl := Except.ok.inj hok
  have hself := s.ownersIn_self
  refine OwnersIn.hands ⟨hself.timerIds, hself.functors, ?_,
    fun e' he' => hself.timers e' (Finset.mem_of_mem_erase he'),
    fun e' he' => hself.activeTimers e' (Finset.mem_of_mem_erase he'), hself.canceling⟩ rfl
  intro x hx
  rcases List.mem_append.mp hx with hx | hx
  · exact hself.expired x hx
  · rw [List.mem_singleton.mp hx]
    exact hself.timers e he

lemma addTimer_hands {timer : ℕ} {expiration : ℤ} {bRepeat : Bool}
    (hok : s.act (.addTimer timer expiration bRepeat) = .ok s') : s.Hands s' [s.made.length] := by
  rw [act, guard_eq_ok] at hok
  obtain ⟨-, hok⟩ := hok
  obtain rfl := Except.ok.inj hok
  have hself : s.OwnersIn fun i => s.Owned i ∨ i ∈ [s.made.length] := ownersIn_of_owned fun _ => Or.inl
  refine ⟨?_, ?_, ⟨?_, ?_, hself.expired, hself.timers, hself.activeTimers, hself.canceling⟩⟩
  · rw [numbers, List.length_append, List.length_singleton, List.range_succ, numbers]
  · intro i hi
    rw [List.mem_singleton.mp hi]
    exact Or.inl List.mem_cons_self
  · intro i hi
    rcases List.mem_cons.mp hi with rfl | hi
    · exact Or.inr List.mem_cons_self
    · exact hself.timerIds i hi
  · intro i hi
    rcases List.mem_append.mp hi with hi | hi
    · exact hself.functors i hi
    · exact Or.inr hi

/-- **Only who owns a timer makes other owners of it.** -/
lemma act_hands (hok : s.act a = .ok s') : ∃ new, s.Hands s' new ∧ new.Nodup ∧ ∀ i ∈ new, i ∉ s.numbers := by
  have hself := s.ownersIn_self
  have hnone : ∀ {s' : Ownership}, s.Hands s' [] →
      ∃ new, s.Hands s' new ∧ new.Nodup ∧ ∀ i ∈ new, i ∉ s.numbers := fun h =>
    ⟨[], h, List.nodup_nil, List.forall_mem_nil _⟩
  cases a with
  | addTimer timer expiration bRepeat =>
      refine ⟨_, addTimer_hands hok, List.nodup_singleton _, ?_⟩
      intro i hi
      rw [List.mem_singleton.mp hi, numbers]
      exact List.not_mem_range_self
  | addTimerInLoop i => exact hnone (addTimerInLoop_hands hok)
  | cancelInLoop timerId => exact hnone (cancelInLoop_hands hok)
  | getExpired e => exact hnone (getExpired_hands hok)
  | reset now => exact hnone (reset_hands hok)
  | copyTimerId i =>
      rw [act, guard_eq_ok] at hok
      obtain ⟨hi, hok⟩ := hok
      obtain rfl := Except.ok.inj hok
      refine hnone (OwnersIn.hands ⟨?_, hself.functors, hself.expired, hself.timers,
        hself.activeTimers, hself.canceling⟩ rfl)
      exact List.forall_mem_cons.mpr ⟨hself.timerIds i hi, hself.timerIds⟩
  | dropTimerId i =>
      rw [act, guard_eq_ok] at hok
      obtain ⟨-, hok⟩ := hok
      obtain rfl := Except.ok.inj hok
      refine hnone (OwnersIn.hands ⟨?_, hself.functors, hself.expired, hself.timers,
        hself.activeTimers, hself.canceling⟩ rfl)
      exact fun j hj => hself.timerIds j (List.mem_of_mem_erase hj)
  | dropExpired =>
      obtain rfl := Except.ok.inj hok
      exact hnone (OwnersIn.hands ⟨hself.timerIds, hself.functors, List.forall_mem_nil _, hself.timers,
        hself.activeTimers, hself.canceling⟩ rfl)
  | dropFunctor i =>
      rw [act, guard_eq_ok] at hok
      obtain ⟨-, hok⟩ := hok
      obtain rfl := Except.ok.inj hok
      refine hnone (OwnersIn.hands ⟨hself.timerIds, ?_, hself.expired, hself.timers,
        hself.activeTimers, hself.canceling⟩ rfl)
      exact fun j hj => hself.functors j (List.mem_of_mem_erase hj)
  | deleteTimers =>
      rw [act, guard_eq_ok] at hok
      obtain ⟨-, hok⟩ := hok
      obtain rfl := Except.ok.inj hok
      exact hnone (OwnersIn.hands ⟨hself.timerIds, hself.functors, hself.expired, hself.timers,
        hself.activeTimers, hself.canceling⟩ rfl)
  | destroyMembers =>
      rw [act, guard_eq_ok] at hok
      obtain ⟨-, hok⟩ := hok
      obtain rfl := Except.ok.inj hok
      exact hnone (OwnersIn.hands ⟨hself.timerIds, hself.functors, hself.expired, by simp, by simp,
        by simp⟩ rfl)

/-! ## What a step disposes of -/

/-- A timer is disposed of by hand. -/
def Deletes (s : Ownership) : Action → Prop
  | .cancelInLoop timerId => s.key timerId ∈ s.queue.activeTimers
  | .reset _ => ∃ x ∈ s.expired, s.queue.resets (s.address x.2) = false
  | .deleteTimers => s.queue.timers.Nonempty
  | _ => False

/-- No timer has been disposed of twice, and the entries of `m_timers` and `m_activeTimers` refer to timers that
have not been disposed of. -/
structure Safe (s : Ownership) : Prop where
  once : ∀ i, disposals s.events i ≤ 1
  timers : ∀ e ∈ s.queue.timers, disposals s.events (s.holder (ofLex e).2) = 0
  activeTimers : ∀ e ∈ s.queue.activeTimers, disposals s.events (s.holder e.1) = 0

/-- The owners and the history fit together. -/
structure Sound (s : Ownership) : Prop where
  account : Account s.numbers s.Owned s.events
  deleted : ∀ i, .delete i ∈ s.events → i ∈ s.numbers

lemma create_sound (callingExpiredTimers : Bool) : (create callingExpiredTimers).Sound where
  account := ⟨List.nodup_range, by simp [Owned, create], by simp [create, numbers]⟩
  deleted := by simp [create]

/-- What is disposed of by hand has owners. -/
lemma deletes_owned (hi : i ∈ s.deletes a) : s.Owned i := by
  have hself := s.ownersIn_self
  cases a with
  | cancelInLoop timerId =>
      rw [deletes] at hi
      split_ifs at hi with hactive
      · rw [List.mem_singleton.mp hi]
        exact hself.activeTimers _ hactive
      · exact absurd hi List.not_mem_nil
  | reset now =>
      rw [deletes] at hi
      obtain ⟨x, hx, rfl⟩ := List.mem_map.mp hi
      exact hself.expired x (List.mem_of_mem_filter hx)
  | deleteTimers =>
      rw [deletes, List.mem_filter, decide_eq_true_iff] at hi
      obtain ⟨-, e, he, rfl⟩ := hi
      exact hself.timers e he
  | _ => exact absurd hi List.not_mem_nil

lemma Sound.deletes_eq_nil_iff (h : s.Sound) : s.deletes a = [] ↔ ¬ s.Deletes a := by
  cases a with
  | cancelInLoop timerId =>
      rw [deletes, Deletes]
      split_ifs with hactive <;> simp [hactive]
  | reset now => simp [deletes, Deletes]
  | deleteTimers =>
      rw [deletes, Deletes, List.filter_eq_nil_iff, Finset.not_nonempty_iff_eq_empty]
      constructor
      · intro hnone
        rw [Finset.eq_empty_iff_forall_notMem]
        intro e he
        have hnumber := h.account.owned _ (s.ownersIn_self.timers e he)
        exact hnone _ hnumber (decide_eq_true ⟨e, he, rfl⟩)
      · intro hempty
        simp [hempty]
  | _ => simp [deletes, Deletes]

/-- **What a step does to the account.** -/
lemma Sound.step (h : s.Sound) (hok : s.step a = .ok s') :
    s'.Sound ∧ ∃ rels : List ℕ, s'.events = s.events ++ (s.deletes a).map .delete ++ rels.map .lastOwner := by
  rw [Ownership.step, bind_eq_ok] at hok
  obtain ⟨s₁, hact, hok⟩ := hok
  obtain rfl := Except.ok.inj hok
  obtain ⟨new, hhands, hnodup, hfresh⟩ := act_hands hact
  have hall : (s.numbers ++ new).Nodup := by
    refine List.nodup_append.mpr ⟨h.account.nodup, hnodup, ?_⟩
    rintro i hi j hj rfl
    exact hfresh i hj hi
  have haccount := h.account.step (s.deletes a) hall hhands.new_owned fun i hi => hhands.owners.owned hi
  rw [← hhands.numbers_eq] at haccount
  refine ⟨⟨haccount, ?_⟩, _, rfl⟩
  intro i hi
  have hold : i ∈ s.numbers := by
    rw [← List.count_pos_iff, count_delete_record] at hi
    by_cases hevents : .delete i ∈ s.events
    · exact h.deleted i hevents
    · rw [List.count_eq_zero.mpr hevents, Nat.zero_add, List.count_pos_iff] at hi
      exact h.account.owned i (deletes_owned hi)
  show i ∈ s₁.numbers
  rw [hhands.numbers_eq]
  exact List.mem_append_left _ hold

/-! ## Whole runs -/

/-- Nothing has been disposed of by hand. -/
def Undeleted (s : Ownership) : Prop := ∀ i, .delete i ∉ s.events

lemma Sound.safe (h : s.Sound) (hdel : s.Undeleted) : s.Safe where
  once i := (h.account.disposals_le_one hdel i).1
  timers e he := (h.account.disposals_le_one hdel _).2 (s.ownersIn_self.timers e he)
  activeTimers e he := (h.account.disposals_le_one hdel _).2 (s.ownersIn_self.activeTimers e he)

/-- A step that disposes of nothing by hand. -/
lemma Sound.undeleted (h : s.Sound) (hdel : s.Undeleted) (hnot : ¬ s.Deletes a) (hok : s.step a = .ok s') :
    s'.Undeleted := by
  obtain ⟨-, rels, hevents⟩ := h.step hok
  rw [h.deletes_eq_nil_iff.mpr hnot] at hevents
  intro i hi
  rw [hevents, List.map_nil, List.append_nil] at hi
  rcases List.mem_append.mp hi with hi | hi
  · exact hdel i hi
  · obtain ⟨j, -, hj⟩ := List.mem_map.mp hi
    exact absurd hj (by simp)

/-- What has been disposed of by hand stays so. -/
lemma Sound.not_undeleted (h : s.Sound) (hdel : ¬ s.Undeleted ∨ s.Deletes a) (hok : s.step a = .ok s') :
    ¬ s'.Undeleted := by
  obtain ⟨-, rels, hevents⟩ := h.step hok
  intro hundeleted
  rcases hdel with hdel | hdel
  · refine hdel fun i hi => hundeleted i ?_
    rw [hevents, List.append_assoc]
    exact List.mem_append_left _ hi
  · have hne : s.deletes a ≠ [] := fun hnil => h.deletes_eq_nil_iff.mp hnil hdel
    obtain ⟨i, hi⟩ := List.exists_mem_of_ne_nil _ hne
    refine hundeleted i ?_
    rw [hevents]
    exact List.mem_append_left _ (List.mem_append_right _ (List.mem_map_of_mem hi))

/-- **When each timer is disposed of at most once.**  If no step of a run disposes of a timer by hand, no timer is
disposed of twice and the sets refer to timers that are there, in every state.  Of the runs at whose end nobody
owns a timer any more, these are the only ones. -/
theorem disposed_once (callingExpiredTimers : Bool) (as : List Action) :
    ((∀ p ∈ Machine.steps step (create callingExpiredTimers) as, ¬ p.1.Deletes p.2) →
      ∀ s ∈ Machine.states step (create callingExpiredTimers) as, s.Safe) ∧
    ∀ s, Machine.run step (create callingExpiredTimers) as = .ok s → (∀ i, ¬ s.Owned i) →
      ((∀ t ∈ Machine.states step (create callingExpiredTimers) as, t.Safe) ↔
        ∀ p ∈ Machine.steps step (create callingExpiredTimers) as, ¬ p.1.Deletes p.2) := by
  have hcreate := create_sound callingExpiredTimers
  have hstep : ∀ (s : Ownership) (a : Action) (s' : Ownership), s.Sound → s.step a = .ok s' → s'.Sound :=
    fun s a s' h hok => (h.step hok).1
  have hundeleted : (∀ s ∈ Machine.states step (create callingExpiredTimers) as, s.Undeleted) ↔
      ∀ p ∈ Machine.steps step (create callingExpiredTimers) as, ¬ p.1.Deletes p.2 :=
    Machine.forall_states_iff (I := fun s : Ownership => s.Sound ∧ s.Undeleted)
      (C := fun s a => ¬ s.Deletes a) (fun s h => h.2)
      (fun s a s' h hnot hok => ⟨hstep s a s' h.1 hok, h.1.undeleted h.2 hnot hok⟩)
      (fun s a s' h hdel hok => h.1.not_undeleted (Or.inr (not_not.mp hdel)) hok)
      ⟨hcreate, by simp [Undeleted, create]⟩ as
  have hsound : ∀ s ∈ Machine.states step (create callingExpiredTimers) as, s.Sound :=
    Machine.states_invariant hstep hcreate
  have hsafe : (∀ p ∈ Machine.steps step (create callingExpiredTimers) as, ¬ p.1.Deletes p.2) →
      ∀ s ∈ Machine.states step (create callingExpiredTimers) as, s.Safe :=
    fun hnot s hs => (hsound s hs).safe (hundeleted.mpr hnot s hs)
  refine ⟨hsafe, fun s hrun hnone => ⟨fun hall => ?_, hsafe⟩⟩
  have hs := Machine.mem_states_of_run hrun
  have hend : s.Undeleted := ((hsound s hs).account.disposals_le_one_iff (hsound s hs).deleted hnone).mp
    (hall s hs).once
  refine hundeleted.mp (Machine.states_of_run hstep ?_ hcreate hrun hend)
  intro t a t' ht hok hdel
  by_contra hnot
  exact ht.not_undeleted (a := a) (Or.inl hnot) hok hdel

lemma not_safe_of_twice (hevents : s.events = [.delete i, .lastOwner i]) : ¬ s.Safe := by
  intro hsafe
  have hone := hsafe.once i
  simp [hevents, disposals] at hone

/-- **Twice.**  A timer is deleted when the queue is destroyed, and disposed of by its last owner when the sets
are; in between, the sets have an entry of it.  And a timer is deleted when it is canceled, and disposed of by its
last owner when the `TimerId` goes. -/
theorem disposed_twice :
    (∃ s : Ownership, Machine.run step (create false)
        [.addTimer 1 10 false, .addTimerInLoop 0, .dropTimerId 0, .deleteTimers] = .ok s ∧
      s.queue.timers = {toLex (10, 1)} ∧ s.events = [.delete 0] ∧ ¬ s.Safe) ∧
    (∃ s : Ownership, Machine.run step (create false)
        [.addTimer 1 10 false, .addTimerInLoop 0, .dropTimerId 0, .deleteTimers, .destroyMembers] = .ok s ∧
      s.events = [.delete 0, .lastOwner 0] ∧ ¬ s.Safe) ∧
    ∃ s : Ownership, Machine.run step (create false)
        [.addTimer 1 10 true, .addTimerInLoop 0, .cancelInLoop (some 0), .dropTimerId 0] = .ok s ∧
      s.events = [.delete 0, .lastOwner 0] ∧ ¬ s.Safe := by
  refine ⟨?_, ?_, ?_⟩
  · have hrun : (Machine.run step (create false)
        [.addTimer 1 10 false, .addTimerInLoop 0, .dropTimerId 0, .deleteTimers]).map
        (fun s => (s.queue.timers, s.events, s.holder 1)) = .ok ({toLex (10, 1)}, [.delete 0], 0) := by
      decide +kernel
    obtain ⟨s, hs, hobs⟩ := Machine.ok_of_map hrun
    rw [Prod.mk.injEq, Prod.mk.injEq] at hobs
    obtain ⟨htimers, hevents, hholder⟩ := hobs
    refine ⟨s, hs, htimers, hevents, fun hsafe => ?_⟩
    have hzero := hsafe.timers (toLex (10, 1)) (by rw [htimers]; exact Finset.mem_singleton_self _)
    rw [ofLex_toLex, hholder, hevents] at hzero
    exact absurd hzero (by decide)
  · have hrun : (Machine.run step (create false)
        [.addTimer 1 10 false, .addTimerInLoop 0, .dropTimerId 0, .deleteTimers, .destroyMembers]).map
        (fun s => s.events) = .ok [.delete 0, .lastOwner 0] := by
      decide +kernel
    obtain ⟨s, hs, hevents⟩ := Machine.ok_of_map hrun
    exact ⟨s, hs, hevents, not_safe_of_twice hevents⟩
  · have hrun : (Machine.run step (create false)
        [.addTimer 1 10 true, .addTimerInLoop 0, .cancelInLoop (some 0), .dropTimerId 0]).map
        (fun s => s.events) = .ok [.delete 0, .lastOwner 0] := by
      decide +kernel
    obtain ⟨s, hs, hevents⟩ := Machine.ok_of_map hrun
    exact ⟨s, hs, hevents, not_safe_of_twice hevents⟩

end Ownership

end TimerQueue

end Seenet
