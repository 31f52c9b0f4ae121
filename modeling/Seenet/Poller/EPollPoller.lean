import Seenet.Channel
import Mathlib.Logic.Function.Basic

/-!
# `EPollPoller`

The poller keeps a map from descriptors to channels, and the kernel keeps a set of descriptors, each
with a mask and a pointer to a channel.  A pointer is a value of an arbitrary type `ι`.

The calls of `epoll_ctl` are not checked: a call the kernel refuses leaves its set as it is, and the
library goes on.  `refused` records those calls; the source has only comments there.

`Registry` is the part of an event loop that is about channels: the channel objects, and the poller.
`Channel::update` goes from the channel through `EventLoop::updateChannel` to the poller, and comes
back with a new index.
-/

namespace Seenet

open Channel

/-! ## The kernel -/

/-- `struct epoll_event` -/
structure EpollEvent (ι : Type) where
  events : Finset Event
  ptr : ι
  deriving DecidableEq

/-- The operations of `epoll_ctl`. -/
inductive EpollCtl
  | add | mod | del
  deriving DecidableEq, Repr

variable {ι : Type}

/-- `epoll_ctl`: the set after the call, or nothing when the descriptor is already there (`add`) or is
not there (`mod`, `del`). -/
def epollCtl (set : ℤ → Option (EpollEvent ι)) (operation : EpollCtl) (fd : ℤ)
    (event : EpollEvent ι) : Option (ℤ → Option (EpollEvent ι)) :=
  match operation, set fd with
  | .add, none => some (Function.update set fd (some event))
  | .mod, some _ => some (Function.update set fd (some event))
  | .del, some _ => some (Function.update set fd none)
  | _, _ => none

/-! ## The poller -/

structure EPollPoller (ι : Type) where
  channels : ℤ → Option ι
  epollSet : ℤ → Option (EpollEvent ι)
  refused : List (EpollCtl × ℤ)
  /-- `m_events.size()` -/
  eventsSize : ℕ

namespace EPollPoller

/-- `m_InitEeventArraySize` -/
def initEeventArraySize : ℕ := 16

/-- `EPollPoller::EPollPoller` -/
def create : EPollPoller ι := ⟨fun _ => none, fun _ => none, [], initEeventArraySize⟩

/-- `EPollPoller::update` -/
def update (p : EPollPoller ι) (operation : EpollCtl) (c : ι) (ch : Channel) : EPollPoller ι :=
  match epollCtl p.epollSet operation ch.fd ⟨ch.events, c⟩ with
  | some set => { p with epollSet := set }
  | none => { p with refused := p.refused ++ [(operation, ch.fd)] }

variable [DecidableEq ι]

/-- `updateChannel` of the channel `ch` at `c`: the poller and the channel after. -/
def updateChannel (p : EPollPoller ι) (c : ι) (ch : Channel) : Res (EPollPoller ι × Channel) := do
  if ch.index = .kNew ∨ ch.index = .kDeleted then
    let p ← if ch.index = .kNew then do
        assertThat (p.channels ch.fd = none) .updateChannel
        pure { p with channels := Function.update p.channels ch.fd (some c) }
      else do
        assertThat (p.channels ch.fd ≠ none) .updateChannel
        assertThat (p.channels ch.fd = some c) .updateChannel
        pure p
    let ch := ch.setIdnex .kAdded
    return (p.update .add c ch, ch)
  else
    -- update existing one with EPOLL_CTL_MOD/DEL
    assertThat (p.channels ch.fd ≠ none) .updateChannel
    assertThat (p.channels ch.fd = some c) .updateChannel
    if ch.isNonEvent then
      return (p.update .del c ch, ch.setIdnex .kDeleted)
    else
      return (p.update .mod c ch, ch)

def removeChannel (p : EPollPoller ι) (c : ι) (ch : Channel) : Res (EPollPoller ι × Channel) := do
  assertThat (p.channels ch.fd ≠ none) .removeChannel
  assertThat (p.channels ch.fd = some c) .removeChannel
  assertThat (ch.isNonEvent = true) .removeChannel
  assertThat (ch.index = .kAdded ∨ ch.index = .kDeleted) .removeChannel
  let p := { p with channels := Function.update p.channels ch.fd none }
  let p := if ch.index = .kAdded then p.update .del c ch else p
  return (p, ch.setIdnex .kNew)

/-- `epoll_wait`: a report, given as the descriptors with the events that occurred there.  The kernel
reports a descriptor of its set at most once, with events of the mask or those it always waits for,
and no more descriptors than there is room for. -/
def epollWait (p : EPollPoller ι) (report : List (ℤ × Finset Event)) : Res (List (EpollEvent ι)) :=
  if report.length ≤ p.eventsSize ∧ (report.map Prod.fst).Nodup then report.mapM deliver
  else .error .disabled
where
  deliver : ℤ × Finset Event → Res (EpollEvent ι)
    | (fd, events) =>
        match p.epollSet fd with
        | some e =>
            if events ⊆ e.events ∪ {.epollerr, .epollhup} then .ok ⟨events, e.ptr⟩
            else .error .disabled
        | none => .error .disabled

end EPollPoller

/-! ## The channels of a loop -/

/-- The channels of an event loop, and its poller. -/
structure Registry (ι : Type) where
  heap : ι → Channel
  poller : EPollPoller ι

namespace Registry

variable [DecidableEq ι]

/-- A loop with new channels of the given descriptors. -/
def create (fd : ι → ℤ) : Registry ι := ⟨fun c => Channel.create (fd c), EPollPoller.create⟩

/-- The channel `c` becomes `ch`. -/
def setChannel (r : Registry ι) (c : ι) (ch : Channel) : Registry ι :=
  { r with heap := Function.update r.heap c ch }

/-- `Channel::update`, after `m_events` was set to `events`. -/
def update (r : Registry ι) (c : ι) (events : Finset Event) : Res (Registry ι) := do
  let (poller, ch) ← r.poller.updateChannel c ((r.heap c).setEvents events)
  return { r.setChannel c ch with poller := poller }

def enableReading (r : Registry ι) (c : ι) : Res (Registry ι) :=
  r.update c ((r.heap c).events ∪ kReadEvent)
def disableReading (r : Registry ι) (c : ι) : Res (Registry ι) :=
  r.update c ((r.heap c).events \ kReadEvent)
def enableWriting (r : Registry ι) (c : ι) : Res (Registry ι) :=
  r.update c ((r.heap c).events ∪ kWriteEvent)
def disableWriting (r : Registry ι) (c : ι) : Res (Registry ι) :=
  r.update c ((r.heap c).events \ kWriteEvent)
def disableAll (r : Registry ι) (c : ι) : Res (Registry ι) :=
  r.update c kNoneEvent

/-- `Poller::hasChannel` -/
def hasChannel (r : Registry ι) (c : ι) : Bool :=
  decide (r.poller.channels (r.heap c).fd = some c)

/-- `Channel::remove` -/
def remove (r : Registry ι) (c : ι) : Res (Registry ι) := do
  let (poller, ch) ← r.poller.removeChannel c (r.heap c)
  return { r.setChannel c ch with poller := poller }

/-- `fillActiveChannels`: the channels the pointers point at get their events. -/
def fillActiveChannels (r : Registry ι) (events : List (EpollEvent ι)) :
    Res (Registry ι × List ι) := do
  assertThat (events.length ≤ r.poller.eventsSize) .fillActiveChannels
  fill r events
where
  fill (r : Registry ι) : List (EpollEvent ι) → Res (Registry ι × List ι)
    | [] => .ok (r, [])
    | e :: es => do
        let ch := r.heap e.ptr
        assertThat (r.poller.channels ch.fd ≠ none) .fillActiveChannels
        assertThat (r.poller.channels ch.fd = some e.ptr) .fillActiveChannels
        -- give events to channel
        let (r, active) ← fill (r.setChannel e.ptr (ch.setRevents e.events)) es
        return (r, e.ptr :: active)

/-- `EPollPoller::poll`, when `epoll_wait` reports `report`: the active channels. -/
def poll (r : Registry ι) (report : List (ℤ × Finset Event)) : Res (Registry ι × List ι) := do
  let events ← r.poller.epollWait report
  if 0 < events.length then
    let (r, active) ← r.fillActiveChannels events
    if events.length = r.poller.eventsSize then
      -- resize double
      return ({ r with poller := { r.poller with eventsSize := r.poller.eventsSize * 2 } }, active)
    else
      return (r, active)
  else
    -- time-out do nothing
    return (r, [])

end Registry

end Seenet
