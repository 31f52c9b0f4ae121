import Seenet.Basic
import Mathlib.Data.Finset.Basic
import Mathlib.Data.Finset.Insert

/-!
# `Channel`

One file descriptor of an event loop: the events the loop is to wait for (`events`), those that
`epoll_wait` last reported (`revents`), and where the poller stands with it (`index`).

A mask of events is the set of its bits.  The callbacks of a channel belong to whoever owns it; which
of them `handleEvent` calls, and in which order, is `handleEvent` here.
-/

namespace Seenet

/-- The bits of an `epoll` mask. -/
inductive Event
  | epollin | epollpri | epollout | epollerr | epollhup | epollrdhup
  deriving DecidableEq, Repr

/-- Where a channel stands with the poller: never added, or removed; in the kernel's set; known to the
poller, but not in the kernel's set. -/
inductive Index
  | kNew | kAdded | kDeleted
  deriving DecidableEq, Repr

structure Channel where
  fd : ℤ
  events : Finset Event
  revents : Finset Event
  index : Index
  deriving DecidableEq

namespace Channel

open Event

def kNoneEvent : Finset Event := ∅
def kReadEvent : Finset Event := {epollin, epollpri}
def kWriteEvent : Finset Event := {epollout}

/-- `Channel::Channel` -/
def create (fd : ℤ) : Channel := ⟨fd, ∅, ∅, .kNew⟩

def isWriting (ch : Channel) : Bool := decide ((ch.events ∩ kWriteEvent).Nonempty)
def isReading (ch : Channel) : Bool := decide ((ch.events ∩ kReadEvent).Nonempty)
def isNonEvent (ch : Channel) : Bool := decide (ch.events = kNoneEvent)

def setEvents (ch : Channel) (events : Finset Event) : Channel := { ch with events := events }
def setRevents (ch : Channel) (revt : Finset Event) : Channel := { ch with revents := revt }
def setIdnex (ch : Channel) (idx : Index) : Channel := { ch with index := idx }

@[simp] lemma isWriting_iff {ch : Channel} : ch.isWriting = true ↔ epollout ∈ ch.events := by
  simp [isWriting, kWriteEvent, Finset.Nonempty]

@[simp] lemma isNonEvent_iff {ch : Channel} : ch.isNonEvent = true ↔ ch.events = ∅ :=
  decide_eq_true_iff

/-- The callbacks a channel has. -/
inductive Callback
  | close | error | read | write
  deriving DecidableEq, Repr

/-- `handleEvent`: the callbacks called for the events reported, in order. -/
def handleEvent (revents : Finset Event) : List Callback :=
  (if epollhup ∈ revents ∧ epollin ∉ revents then [.close] else [])
    ++ (if epollerr ∈ revents then [.error] else [])
    -- read event
    ++ (if epollin ∈ revents ∨ epollpri ∈ revents ∨ epollrdhup ∈ revents then [.read] else [])
    -- write event
    ++ (if epollout ∈ revents then [.write] else [])

end Channel

end Seenet
