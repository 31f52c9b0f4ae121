import Seenet.Basic
import Seenet.Lib.Machine
import Mathlib.Data.Finset.Max
import Mathlib.Data.Prod.Lex
import Mathlib.Logic.Function.Basic

/-!
# `Timer` and `TimerQueue`

The timers of a loop are kept in two sets: `m_timers`, ordered by expiration and address, and
`m_activeTimers`, ordered by address and sequence number.  `cancelInLoop` looks a timer up in the second
and erases it from the first.

A `Timer_sPt` is the address of a timer, and `heap` says which timers exist; the address of a timer that is gone
may be that of a later one.  `getExpired` and `handleRead` have no body in the source, so the timers that
`reset` is called with come from outside.

`cancelInLoop` and `reset` say `delete ...get()` of timers that `make_shared` has made.  Such a timer lies inside of
a larger block, and no `new` has returned its address (`delete`).  What they would do if the timer were disposed of
and they went on is asked in `Ownership.lean`, so `delete` is a parameter (`del`) of them.
-/

namespace Seenet

structure Timer where
  expiration : ℤ
  /-- `m_bRepeat`: the interval is greater than zero -/
  bRepeat : Bool
  seq : BitVec 64
  deriving DecidableEq, Repr

/-- `Timer::restart`, which has no body yet. -/
def Timer.restart (timer : Timer) (_now : ℤ) : Timer := timer

/-- A time and the address of a timer. -/
abbrev TimerEntry := ℤ ×ₗ ℕ

/-- The address of a timer and a sequence number; a `TimerId` has the same. -/
abbrev ActiveTimer := ℕ × BitVec 64

structure TimerQueue where
  /-- the timers that exist, by their address -/
  heap : ℕ → Option Timer
  /-- `Timer::m_numCreated` -/
  numCreated : BitVec 64
  timers : Finset TimerEntry
  activeTimers : Finset ActiveTimer
  callingExpiredTimers : Bool
  cancelingTimers : Finset ActiveTimer

namespace TimerQueue

/-- A timer read through its address. -/
def deref (q : TimerQueue) (timer : ℕ) : Res Timer :=
  match q.heap timer with
  | some t => .ok t
  | none => .error .noObject

/-- `delete timer`, where `make_shared` has made the timer -/
def delete (q : TimerQueue) (timer : ℕ) : Res TimerQueue := do
  let _ ← q.deref timer
  throw .badDelete

/-- The timer is disposed of. -/
def dispose (q : TimerQueue) (timer : ℕ) : Res TimerQueue := do
  let _ ← q.deref timer
  return { q with heap := Function.update q.heap timer none }

/-- `make_shared<Timer>(cb, when, interval)` in `addTimer`, at the address `timer` -/
def makeTimer (q : TimerQueue) (timer : ℕ) (expiration : ℤ) (bRepeat : Bool) : TimerQueue :=
  { q with
    heap := Function.update q.heap timer (some ⟨expiration, bRepeat, q.numCreated + 1⟩)
    numCreated := q.numCreated + 1 }

/-- `*m_timers.begin()`, or nothing if that is `m_timers.end()` -/
def first (q : TimerQueue) : Option TimerEntry :=
  if h : q.timers.Nonempty then some (q.timers.min' h) else none

def insert (q : TimerQueue) (timer : ℕ) : Res (TimerQueue × Bool) := do
  assertThat (q.timers.card = q.activeTimers.card) .insert
  let t ← q.deref timer
  let earliestChanged :=
    match q.first with
    | none => true
    | some e => decide (t.expiration < (ofLex e).1)
  assertThat (toLex (t.expiration, timer) ∉ q.timers) .insert
  assertThat ((timer, t.seq) ∉ q.activeTimers) .insert
  let q' := { q with
    timers := Insert.insert (toLex (t.expiration, timer)) q.timers
    activeTimers := Insert.insert (timer, t.seq) q.activeTimers }
  assertThat (q'.timers.card = q'.activeTimers.card) .insert
  return (q', earliestChanged)

def addTimerInLoop (q : TimerQueue) (timer : ℕ) : Res TimerQueue := do
  let (q', _) ← q.insert timer
  return q'

section Delete

variable (del : TimerQueue → ℕ → Res TimerQueue)

/-- What `cancelInLoop` does with an id that is in `m_activeTimers`. -/
def cancelActive (q : TimerQueue) (timerId : ActiveTimer) : Res TimerQueue := do
  let t ← q.deref timerId.1
  assertThat (toLex (t.expiration, timerId.1) ∈ q.timers) .cancelInLoop
  let q' ← del q timerId.1
  return { q' with
    timers := q.timers.erase (toLex (t.expiration, timerId.1))
    activeTimers := q.activeTimers.erase timerId }

def cancelInLoop (q : TimerQueue) (timerId : ActiveTimer) : Res TimerQueue := do
  assertThat (q.timers.card = q.activeTimers.card) .cancelInLoop
  let q' ←
    if timerId ∈ q.activeTimers then
      q.cancelActive del timerId
    else if q.callingExpiredTimers then
      pure { q with cancelingTimers := Insert.insert timerId q.cancelingTimers }
    else
      pure q
  assertThat (q'.timers.card = q'.activeTimers.card) .cancelInLoop
  return q'

/-- One round of the loop in `reset`. -/
def resetTimer (q : TimerQueue) (timer : ℕ) (now : ℤ) : Res TimerQueue := do
  let t ← q.deref timer
  if t.bRepeat ∧ (timer, t.seq) ∉ q.cancelingTimers then do
    let (q', _) ← insert { q with heap := Function.update q.heap timer (some (t.restart now)) } timer
    return q'
  else
    del q timer

/-- The loop in `reset`. -/
def resetEach (q : TimerQueue) : List TimerEntry → ℤ → Res TimerQueue
  | [], _ => .ok q
  | e :: expired, now => do
      let q' ← q.resetTimer del (ofLex e).2 now
      q'.resetEach expired now

/-- `reset`; nothing is done yet with the expiration of the first timer left (`nextExpire`, which is not
initialised when there is none). -/
def reset (q : TimerQueue) (expired : List TimerEntry) (now : ℤ) : Res TimerQueue := do
  let q' ← q.resetEach del expired now
  match q'.first with
  | none => return q'
  | some e => do
      let _nextExpire ← q'.deref (ofLex e).2
      return q'

end Delete

/-- `reset` adds the timer again. -/
def resets (q : TimerQueue) (timer : ℕ) : Bool :=
  (q.heap timer).any fun t => t.bRepeat ∧ (timer, t.seq) ∉ q.cancelingTimers

/-! ## Runs -/

/-- The timer exists and is in neither set. -/
def Outside (q : TimerQueue) (timer : ℕ) : Prop :=
  (q.heap timer).isSome ∧ (∀ e ∈ q.timers, (ofLex e).2 ≠ timer) ∧
    ∀ e ∈ q.activeTimers, e.1 ≠ timer

instance (q : TimerQueue) (timer : ℕ) : Decidable (q.Outside timer) :=
  inferInstanceAs (Decidable (_ ∧ _ ∧ _))

/-- What `reset` may be called with: different timers that exist and are in neither set. -/
def MayReset (q : TimerQueue) (expired : List TimerEntry) : Prop :=
  (expired.map fun e => (ofLex e).2).Nodup ∧ ∀ e ∈ expired, q.Outside (ofLex e).2

instance (q : TimerQueue) (expired : List TimerEntry) : Decidable (q.MayReset expired) :=
  inferInstanceAs (Decidable (_ ∧ _))

inductive Action
  /-- `addTimer` creates a timer at an address where there is none. -/
  | makeTimer (timer : ℕ) (expiration : ℤ) (bRepeat : Bool)
  /-- The last `shared_ptr` to a timer goes. -/
  | release (timer : ℕ)
  | addTimerInLoop (timer : ℕ)
  | cancelInLoop (timerId : ActiveTimer)
  | reset (expired : List TimerEntry) (now : ℤ)
  deriving DecidableEq

def step (q : TimerQueue) : Action → Res TimerQueue
  | .makeTimer timer expiration bRepeat =>
      -- 0 is the null pointer, which a `TimerId` without a timer has
      if timer ≠ 0 ∧ q.heap timer = none then .ok (q.makeTimer timer expiration bRepeat)
      else .error .disabled
  | .release timer => if q.Outside timer then q.dispose timer else .error .disabled
  | .addTimerInLoop timer =>
      if q.Outside timer then q.addTimerInLoop timer else .error .disabled
  | .cancelInLoop timerId => q.cancelInLoop delete timerId
  | .reset expired now =>
      if q.MayReset expired then q.reset delete expired now else .error .disabled

end TimerQueue

end Seenet
