import Seenet.System.Basic
import Seenet.TcpConnection.Frame

/-!
# Channels and descriptors of the whole server

Every loop's poller agrees with its channels, although connections come and go and the kernel hands out the
same descriptors again and again.

* `Setting`, `Setting.start` — the server when `start` has returned.
* `Wired` — the invariant: each loop is in order, the channel of a connection is on its own loop and on no
  other, and the descriptors of the process belong to those who think so.
* `Wired.put`, `Wired.poll` — a function of a connection, and a poll, keep it.
* **`Wired.turnover`** — so does a connection that comes or goes: `Wired.construct`, `Wired.destroy`.
-/

namespace Seenet

open Channel

namespace System

/-! ## Where runs start -/

/-- What a server is started with: the descriptors of the loops' own channels, the open descriptors of the
process, and the number of threads.  `ipPort` is what `InetAddress::toIpPort` gives, which is never longer than 47
characters (`InetAddress.length_toIpPort_le`), so that `snprintf` cuts no number off a name. -/
structure Setting where
  mem : Memory
  ipPort : String
  name : String
  numThreads : ℕ
  writeCompleteCallback : Bool
  fd : LoopId → ChannelId → ℤ
  fds : ℤ → Option Holder
  ipPort_le : ipPort.length ≤ 50
  fd_inj : ∀ l, Function.Injective (fd l)
  fd_conn : ∀ l i, fd l (.conn i) = absentFd (.conn i)
  library : ∀ l ch, 0 ≤ fd l ch → fds (fd l ch) = some .library
  noSocket : ∀ fd i, fds fd ≠ some (.socket i)

/-- The channels of a loop that has been constructed; on the base loop `Acceptor::listen` has run. -/
def Setting.enable (s : Setting) (l : LoopId) : Res (Registry ChannelId) := do
  let r ← (Registry.create (s.fd l)).enableReading .timer
  let r ← r.enableReading .wakeup
  if l = .base then r.enableReading .acceptor else return r

def Setting.registry (s : Setting) (l : LoopId) : Registry ChannelId :=
  match s.enable l with
  | .ok r => r
  | .error _ => Registry.create (s.fd l)

/-- The server has been started, and no connection has been accepted. -/
def Setting.start (s : Setting) : System where
  ipPort := s.ipPort
  name := s.name
  threadPool := ⟨true, s.numThreads, 0, (List.range s.numThreads).map .io⟩
  nextConnID := 1
  connections := fun _ => none
  writeCompleteCallback := s.writeCompleteCallback
  loops := fun l => ⟨s.registry l, [], [], [], .polling, []⟩
  accepted := 0
  conn := fun _ => ⟨"", .base, 0, .kDisconnected, true, ⟨[], 0, 0⟩, ⟨[], 0, 0⟩, 0, false, false, []⟩
  alive := fun _ => false
  users := fun _ => 0
  calls := []
  fds := s.fds

/-- There is no such channel: only the place for it. -/
structure Absent (r : Registry ChannelId) (ch : ChannelId) : Prop where
  fd_eq : (r.heap ch).fd = absentFd ch
  index_eq : (r.heap ch).index = .kNew
  events_eq : (r.heap ch).events = ∅

lemma Absent.of_heap {r r' : Registry ChannelId} {ch : ChannelId} (h : Absent r ch)
    (hheap : r'.heap ch = r.heap ch) : Absent r' ch := by
  obtain ⟨hfd, hindex, hevents⟩ := h
  rw [← hheap] at hfd hindex hevents
  exact ⟨hfd, hindex, hevents⟩

/-- The loops are in order when they have been constructed. -/
lemma Setting.registry_spec (s : Setting) (l : LoopId) :
    (s.registry l).Coherent ∧ (s.registry l).Covered ∧ (∀ ch, ((s.registry l).heap ch).fd = s.fd l ch) ∧
      ∀ i, Absent (s.registry l) (.conn i) := by
  -- one channel after the other is enabled; those of connections are not among them
  have hstep : ∀ {r : Registry ChannelId} (ch : ChannelId), (∀ i, ch ≠ .conn i) → r.Coherent ∧ r.Covered ∧
      (∀ ch, (r.heap ch).fd = s.fd l ch) ∧ (∀ i, Absent r (.conn i)) →
      ∃ r', r.enableReading ch = .ok r' ∧ r'.Coherent ∧ r'.Covered ∧ (∀ ch, (r'.heap ch).fd = s.fd l ch) ∧
        ∀ i, Absent r' (.conn i) := by
    intro r ch hch ⟨hcoh, hcov, hfd, hconn⟩
    obtain ⟨p, hp, hcoh'⟩ := Registry.update_spec hcoh ch ((r.heap ch).events ∪ kReadEvent)
    have halters := Registry.update_alters hp
    refine ⟨_, hp, hcoh', halters.covered hcov, ?_, ?_⟩
    · intro ch'
      by_cases heq : ch' = ch
      · rw [heq, halters.fd_eq, hfd]
      · rw [halters.others ch' heq, hfd]
    · intro i
      exact (hconn i).of_heap (halters.others _ (hch i).symm)
  have hcreate : (Registry.create (s.fd l)).Coherent ∧ (Registry.create (s.fd l)).Covered ∧
      (∀ ch, ((Registry.create (s.fd l)).heap ch).fd = s.fd l ch) ∧
      ∀ i, Absent (Registry.create (s.fd l)) (.conn i) :=
    ⟨Registry.coherent_create ⟨s.fd l, s.fd_inj l⟩, Registry.covered_create _, fun _ => rfl,
      fun i => ⟨s.fd_conn l i, rfl, rfl⟩⟩
  obtain ⟨r₁, h₁, hspec₁⟩ := hstep .timer (by simp) hcreate
  obtain ⟨r₂, h₂, hspec₂⟩ := hstep .wakeup (by simp) hspec₁
  obtain ⟨r₃, h₃, hspec₃⟩ := hstep .acceptor (by simp) hspec₂
  rw [registry, enable, h₁, bind_ok, h₂, bind_ok]
  split_ifs
  · rw [h₃]
    exact hspec₃
  · exact hspec₂

/-! ## The invariant -/

variable {cfg : Setting} {s s' : System} {l : LoopId} {i : ℕ}

/-- The connection exists, and the loop is its own. -/
def On (s : System) (l : LoopId) (i : ℕ) : Prop := s.alive i = true ∧ (s.conn i).loop = l

/-- The loops and the descriptors are in order. -/
structure Wired (cfg : Setting) (s : System) : Prop where
  coherent : ∀ l, (s.loops l).registry.Coherent
  covered : ∀ l, (s.loops l).registry.Covered
  own : ∀ l ch, (∀ i, ch ≠ .conn i) → ((s.loops l).registry.heap ch).fd = cfg.fd l ch
  present : ∀ l i, s.On l i → ((s.loops l).registry.heap (.conn i)).fd = (s.conn i).fd
  absent : ∀ l i, ¬ s.On l i → Absent (s.loops l).registry (.conn i)
  library : ∀ l ch, 0 ≤ cfg.fd l ch → s.fds (cfg.fd l ch) = some .library
  sockets : ∀ fd i, s.fds fd = some (.socket i) ↔ s.alive i = true ∧ (s.conn i).fd = fd
  nonneg : ∀ i, s.alive i = true → 0 ≤ (s.conn i).fd

lemma wired_start (cfg : Setting) : cfg.start.Wired cfg where
  coherent l := (cfg.registry_spec l).1
  covered l := (cfg.registry_spec l).2.1
  own l ch _ := (cfg.registry_spec l).2.2.1 ch
  present l i hon := absurd hon.1 (by simp [Setting.start])
  absent l i _ := (cfg.registry_spec l).2.2.2 i
  library := cfg.library
  sockets fd i := iff_of_false (cfg.noSocket fd i) (by simp [Setting.start])
  nonneg i halive := absurd halive (by simp [Setting.start])

lemma absentFd_neg (ch : ChannelId) : absentFd ch < 0 := by
  cases ch <;> simp only [absentFd] <;> omega

/-- **Whose a descriptor is that a channel has**: that of the connection, or the library's. -/
lemma Wired.holder (h : s.Wired cfg) (l : LoopId) (ch : ChannelId)
    (hfd : 0 ≤ ((s.loops l).registry.heap ch).fd) :
    (∃ i, ch = .conn i ∧ s.On l i ∧ s.fds ((s.loops l).registry.heap ch).fd = some (.socket i)) ∨
      (∀ i, ch ≠ .conn i) ∧ s.fds ((s.loops l).registry.heap ch).fd = some .library := by
  by_cases hconn : ∃ i, ch = .conn i
  · obtain ⟨i, rfl⟩ := hconn
    by_cases hon : s.On l i
    · refine Or.inl ⟨i, rfl, hon, ?_⟩
      rw [h.present l i hon, h.sockets]
      exact ⟨hon.1, rfl⟩
    · rw [(h.absent l i hon).fd_eq] at hfd
      exact absurd hfd (Int.not_le.mpr (absentFd_neg _))
  · rw [not_exists] at hconn
    rw [h.own l ch hconn] at hfd ⊢
    exact Or.inr ⟨hconn, h.library l ch hfd⟩

/-- No channel of a loop has a descriptor that is not open. -/
lemma Wired.fresh (h : s.Wired cfg) {fd : ℤ} (hfd : 0 ≤ fd ∧ s.fds fd = none) (l : LoopId) (ch : ChannelId) :
    ((s.loops l).registry.heap ch).fd ≠ fd := by
  rintro rfl
  rcases h.holder l ch hfd.1 with ⟨i, -, -, hsocket⟩ | ⟨-, hlibrary⟩
  · simp [hfd.2] at hsocket
  · simp [hfd.2] at hlibrary

/-- The descriptor in the place of a connection is that of no other channel. -/
lemma Wired.absentFd_fresh (h : s.Wired cfg) (hon : s.On l i) (ch : ChannelId) :
    ((s.loops l).registry.heap ch).fd ≠ absentFd (.conn i) := by
  intro heq
  by_cases hconn : ∃ j, ch = .conn j
  · obtain ⟨j, rfl⟩ := hconn
    by_cases hon' : s.On l j
    · rw [h.present l j hon'] at heq
      have hneg := absentFd_neg (.conn i)
      have hnonneg := h.nonneg j hon'.1
      omega
    · rw [(h.absent l j hon').fd_eq] at heq
      simp only [absentFd] at heq
      have hji : j = i := by omega
      rw [hji] at hon'
      exact hon' hon
  · rw [not_exists] at hconn
    rw [h.own l ch hconn, ← cfg.fd_conn l i] at heq
    exact hconn i (cfg.fd_inj l heq)

/-- Nothing that concerns channels and descriptors has changed. -/
lemma Wired.congr (h : s.Wired cfg) (hregistry : ∀ l, (s'.loops l).registry = (s.loops l).registry)
    (halive : s'.alive = s.alive) (hloop : ∀ i, (s'.conn i).loop = (s.conn i).loop)
    (hfd : ∀ i, (s'.conn i).fd = (s.conn i).fd) (hfds : s'.fds = s.fds) : s'.Wired cfg := by
  have hon : ∀ l i, s'.On l i ↔ s.On l i := fun l i => by rw [On, On, halive, hloop]
  refine ⟨?_, ?_, ?_, ?_, ?_, ?_, ?_, ?_⟩
  · intro l
    rw [hregistry]
    exact h.coherent l
  · intro l
    rw [hregistry]
    exact h.covered l
  · intro l ch hch
    rw [hregistry]
    exact h.own l ch hch
  · intro l i hi
    rw [hregistry, hfd]
    exact h.present l i ((hon l i).mp hi)
  · intro l i hi
    rw [hregistry]
    exact h.absent l i (mt (hon l i).mpr hi)
  · rw [hfds]
    exact h.library
  · intro fd i
    rw [hfds, halive, hfd]
    exact h.sockets fd i
  · intro i
    rw [halive, hfd]
    exact h.nonneg i

/-- A loop has changed, but neither its channels nor its poller. -/
lemma Wired.setLoop (h : s.Wired cfg) {loop : Loop} (hregistry : loop.registry = (s.loops l).registry) :
    (s.setLoop l loop).Wired cfg := by
  refine h.congr ?_ rfl (fun _ => rfl) (fun _ => rfl) rfl
  intro l'
  rcases eq_or_ne l' l with rfl | hne
  · simp only [System.setLoop, Function.update_self, hregistry]
  · simp only [System.setLoop, Function.update_of_ne hne]

/-! ## What keeps it -/

/-- The channels of one loop change, and the members of connections, but not where they are. -/
lemma Wired.registry (h : s.Wired cfg) (l : LoopId) {r : Registry ChannelId} (hcoh : r.Coherent) (hcov : r.Covered)
    (hfds : ∀ ch, (r.heap ch).fd = ((s.loops l).registry.heap ch).fd)
    (habsent : ∀ i, ¬ s.On l i → Absent r (.conn i))
    (hself : (s'.loops l).registry = r) (hothers : ∀ l', l' ≠ l → (s'.loops l').registry = (s.loops l').registry)
    (halive : s'.alive = s.alive) (hloop : ∀ i, (s'.conn i).loop = (s.conn i).loop)
    (hfd : ∀ i, (s'.conn i).fd = (s.conn i).fd) (hkernel : s'.fds = s.fds) : s'.Wired cfg := by
  have hon : ∀ l i, s'.On l i ↔ s.On l i := fun l i => by rw [On, On, halive, hloop]
  refine ⟨?_, ?_, ?_, ?_, ?_, by rw [hkernel]; exact h.library, ?_, ?_⟩
  · intro l'
    by_cases heq : l' = l
    · rw [heq, hself]
      exact hcoh
    · rw [hothers l' heq]
      exact h.coherent l'
  · intro l'
    by_cases heq : l' = l
    · rw [heq, hself]
      exact hcov
    · rw [hothers l' heq]
      exact h.covered l'
  · intro l' ch hch
    by_cases heq : l' = l
    · rw [heq, hself, hfds]
      exact h.own l ch hch
    · rw [hothers l' heq]
      exact h.own l' ch hch
  · intro l' i hi
    rw [hon] at hi
    by_cases heq : l' = l
    · subst heq
      rw [hself, hfds, hfd]
      exact h.present _ i hi
    · rw [hothers l' heq, hfd]
      exact h.present l' i hi
  · intro l' i hi
    rw [hon] at hi
    by_cases heq : l' = l
    · subst heq
      rw [hself]
      exact habsent i hi
    · rw [hothers l' heq]
      exact h.absent l' i hi
  · intro fd i
    rw [hkernel, halive, hfd]
    exact h.sockets fd i
  · intro i
    rw [halive, hfd]
    exact h.nonneg i

@[simp] lemma put_alive (s : System) (i : ℕ) (c : TcpConnection ChannelId) : (s.put i c).alive = s.alive := rfl
@[simp] lemma put_fds (s : System) (i : ℕ) (c : TcpConnection ChannelId) : (s.put i c).fds = s.fds := rfl
@[simp] lemma put_users (s : System) (i : ℕ) (c : TcpConnection ChannelId) : (s.put i c).users = s.users := rfl
@[simp] lemma put_accepted (s : System) (i : ℕ) (c : TcpConnection ChannelId) :
    (s.put i c).accepted = s.accepted := rfl
@[simp] lemma put_connections (s : System) (i : ℕ) (c : TcpConnection ChannelId) :
    (s.put i c).connections = s.connections := rfl
@[simp] lemma put_threadPool (s : System) (i : ℕ) (c : TcpConnection ChannelId) :
    (s.put i c).threadPool = s.threadPool := rfl

lemma put_conn_of_ne {j : ℕ} (hne : j ≠ i) (c : TcpConnection ChannelId) :
    (s.put i c).conn j = s.conn j := Function.update_of_ne hne ..

/-- What never changes about a connection. -/
lemma put_conn_const (s : System) (i : ℕ) (c : TcpConnection ChannelId) (j : ℕ) :
    ((s.put i c).conn j).name = (s.conn j).name ∧ ((s.put i c).conn j).loop = (s.conn j).loop ∧
      ((s.put i c).conn j).fd = (s.conn j).fd := by
  rcases eq_or_ne j i with rfl | hne
  · simp [put]
  · rw [put_conn_of_ne hne]
    simp

lemma put_loops_self (s : System) (i : ℕ) (c : TcpConnection ChannelId) :
    (s.put i c).loops (s.conn i).loop = { s.loopOf i with
      registry := c.registry, pending := (s.loopOf i).pending ++ (s.queuedBy i c).map (.functor i) } :=
  Function.update_self ..

lemma put_loops_of_ne {l : LoopId} (hne : l ≠ (s.conn i).loop) (c : TcpConnection ChannelId) :
    (s.put i c).loops l = s.loops l := Function.update_of_ne hne ..

lemma view_channel (s : System) (i : ℕ) : (s.view i).channel = .conn i := rfl

lemma view_registry (s : System) (i : ℕ) : (s.view i).registry = (s.loops (s.conn i).loop).registry := rfl

/-- **A function of a connection** touches its own channel, on its own loop. -/
lemma Wired.put (h : s.Wired cfg) (halive : s.alive i = true) {c : TcpConnection ChannelId}
    (hcoh : c.registry.Coherent) (hlocal : (s.view i).Local c) : (s.put i c).Wired cfg := by
  have halters := hlocal.alters
  rw [view_channel, view_registry] at halters
  refine h.registry (s.conn i).loop hcoh (halters.covered (h.covered _)) ?_ ?_ ?_ ?_ rfl
    (fun j => (s.put_conn_const i c j).2.1) (fun j => (s.put_conn_const i c j).2.2) rfl
  · intro ch
    by_cases heq : ch = .conn i
    · rw [heq, halters.fd_eq]
    · rw [halters.others ch heq]
  · intro j hj
    refine (h.absent _ j hj).of_heap (halters.others _ ?_)
    rintro heq
    rw [ChannelId.conn.injEq] at heq
    rw [heq] at hj
    exact hj ⟨halive, rfl⟩
  · rw [put_loops_self]
  · intro l hl
    rw [put_loops_of_ne hl]

/-- A poll reports to the channels of its loop. -/
lemma Wired.poll (h : s.Wired cfg) {report : List (ℤ × Finset Event)} {r : Registry ChannelId}
    {active : List ChannelId} (hok : (s.loops l).registry.poll report = .ok (r, active)) {loop : Loop}
    (hloop : loop.registry = r) : (s.setLoop l loop).Wired cfg := by
  have hcov := (h.covered l).poll (h.coherent l) hok
  rcases Registry.poll_spec (h.coherent l) report with ⟨e, -, herror⟩ | ⟨r', active', hok', hcoh, hpolled⟩
  · rw [hok] at herror
    exact absurd herror (by simp)
  · rw [hok, Except.ok.injEq, Prod.mk.injEq] at hok'
    obtain ⟨rfl, rfl⟩ := hok'
    refine h.registry l hcoh hcov ?_ ?_ ?_ ?_ rfl (fun _ => rfl) (fun _ => rfl) rfl
    · intro ch
      rcases hpolled ch with heq | ⟨revt, -, heq⟩ <;> rw [heq]
      rfl
    · intro i hi
      obtain ⟨hfd, hindex, hevents⟩ := h.absent l i hi
      refine ⟨?_, (hpolled _).index_eq.trans hindex, (hpolled _).events_eq.trans hevents⟩
      rcases hpolled (.conn i) with heq | ⟨revt, -, heq⟩ <;> rw [heq]
      · exact hfd
      · exact hfd
    · simp only [System.setLoop, Function.update_self, hloop]
    · intro l' hl'
      simp only [System.setLoop, Function.update_of_ne hl']

/-! ## Connections come and go -/

/-- The channel of the connection `i` on the loop `l` makes way for a new one, with the descriptor `fd`: the
connection has just been constructed there, or there is only a place left for it. -/
structure Turns (s s' : System) (l : LoopId) (i : ℕ) (fd : ℤ) : Prop where
  self : (s'.loops l).registry = (s.loops l).registry.setChannel (.conn i) (Channel.create fd)
  others : ∀ l', l' ≠ l → (s'.loops l').registry = (s.loops l').registry
  conn : ∀ j, j ≠ i → s'.conn j = s.conn j ∧ s'.alive j = s.alive j
  before : ∀ l', s.On l' i → l' = l
  after : ∀ l', s'.On l' i → l' = l ∧ (s'.conn i).fd = fd ∧ 0 ≤ fd
  absent : ¬ s'.On l i → fd = absentFd (.conn i)
  sockets : ∀ fd', s'.fds fd' = some (.socket i) ↔ s'.alive i = true ∧ (s'.conn i).fd = fd'
  fds : ∀ fd' holder, holder ≠ .socket i → (s'.fds fd' = some holder ↔ s.fds fd' = some holder)

lemma Turns.heap {fd : ℤ} (h : Turns s s' l i fd) (l' : LoopId) {ch : ChannelId} (hch : ch ≠ .conn i) :
    (s'.loops l').registry.heap ch = (s.loops l').registry.heap ch := by
  by_cases hl : l' = l
  · rw [hl, h.self]
    exact Function.update_of_ne hch ..
  · rw [h.others l' hl]

lemma Turns.on_iff {fd : ℤ} (h : Turns s s' l i fd) (l' : LoopId) {j : ℕ} (hj : j ≠ i) :
    s'.On l' j ↔ s.On l' j := by
  rw [On, On, (h.conn j hj).1, (h.conn j hj).2]

/-- **One channel makes way for another.** -/
lemma Wired.turnover (h : s.Wired cfg) (l : LoopId) (i : ℕ) (fd : ℤ) (hturns : Turns s s' l i fd)
    (hidx : ((s.loops l).registry.heap (.conn i)).index = .kNew)
    (hfresh : ∀ ch, ((s.loops l).registry.heap ch).fd ≠ fd) : s'.Wired cfg := by
  obtain ⟨hcoh, hcov⟩ := (h.coherent l).turnover (h.covered l) hidx hfresh
  have hnew : (s'.loops l).registry.heap (.conn i) = Channel.create fd := by
    rw [hturns.self]
    exact Function.update_self ..
  refine ⟨?_, ?_, ?_, ?_, ?_, ?_, ?_, ?_⟩
  · intro l'
    by_cases hl : l' = l
    · rw [hl, hturns.self]
      exact hcoh
    · rw [hturns.others l' hl]
      exact h.coherent l'
  · intro l'
    by_cases hl : l' = l
    · rw [hl, hturns.self]
      exact hcov
    · rw [hturns.others l' hl]
      exact h.covered l'
  · intro l' ch hch
    rw [hturns.heap l' (hch i)]
    exact h.own l' ch hch
  · intro l' j hj
    by_cases hji : j = i
    · subst hji
      obtain ⟨rfl, hfd, -⟩ := hturns.after l' hj
      rw [hnew, hfd]
      rfl
    · rw [hturns.heap l' (by simpa using hji), (hturns.conn j hji).1]
      exact h.present l' j ((hturns.on_iff l' hji).mp hj)
  · intro l' j hj
    by_cases hji : j = i
    · subst hji
      by_cases hl : l' = l
      · rw [hl] at hj ⊢
        exact ⟨by rw [hnew]; exact hturns.absent hj, by rw [hnew]; rfl, by rw [hnew]; rfl⟩
      · exact (h.absent l' j fun hon => hl (hturns.before l' hon)).of_heap (by rw [hturns.others l' hl])
    · exact (h.absent l' j (mt (hturns.on_iff l' hji).mpr hj)).of_heap (hturns.heap l' (by simpa using hji))
  · intro l' ch hch
    exact (hturns.fds _ _ (by simp)).mpr (h.library l' ch hch)
  · intro fd' j
    by_cases hji : j = i
    · rw [hji]
      exact hturns.sockets fd'
    · rw [hturns.fds fd' _ (by simpa using hji), (hturns.conn j hji).1, (hturns.conn j hji).2]
      exact h.sockets fd' j
  · intro j hj
    by_cases hji : j = i
    · subst hji
      obtain ⟨-, hfd, hnonneg⟩ := hturns.after _ ⟨hj, rfl⟩
      rw [hfd]
      exact hnonneg
    · rw [(hturns.conn j hji).2] at hj
      rw [(hturns.conn j hji).1]
      exact h.nonneg j hj

/-- **A connection is constructed** with a descriptor from the kernel. -/
lemma Wired.construct (h : s.Wired cfg) {fd : ℤ} (hfd : 0 ≤ fd ∧ s.fds fd = none)
    (hnew : s.alive s.accepted = false) (ioLoop : LoopId) (inputBuffer outputBuffer : Buffer) :
    (s.construct ioLoop fd inputBuffer outputBuffer).Wired cfg := by
  have hnot : ∀ l, ¬ s.On l s.accepted := fun l hon => absurd (hon.1.symm.trans hnew) (by simp)
  have hconn : ((s.construct ioLoop fd inputBuffer outputBuffer).conn s.accepted).loop = ioLoop ∧
      ((s.construct ioLoop fd inputBuffer outputBuffer).conn s.accepted).fd = fd ∧
      (s.construct ioLoop fd inputBuffer outputBuffer).alive s.accepted = true := by
    simp [System.construct]
  have hkernel : (s.construct ioLoop fd inputBuffer outputBuffer).fds
      = Function.update s.fds fd (some (.socket s.accepted)) := rfl
  refine h.turnover ioLoop s.accepted fd ⟨?_, ?_, ?_, ?_, ?_, ?_, ?_, ?_⟩
    (h.absent ioLoop _ (hnot ioLoop)).index_eq (h.fresh hfd ioLoop)
  · simp only [System.construct, System.setLoop, Function.update_self]
  · intro l hl
    simp only [System.construct, System.setLoop, Function.update_of_ne hl]
  · intro j hj
    simp only [System.construct, Function.update_of_ne hj, and_self]
  · exact fun l hon => absurd hon (hnot l)
  · intro l hon
    exact ⟨hon.2.symm.trans hconn.1, hconn.2.1, hfd.1⟩
  · exact fun hoff => absurd ⟨hconn.2.2, hconn.1⟩ hoff
  · intro fd'
    rw [hkernel, hconn.2.1]
    by_cases heq : fd' = fd
    · rw [heq, Function.update_self]
      exact iff_of_true rfl ⟨hconn.2.2, rfl⟩
    · rw [Function.update_of_ne heq, h.sockets]
      exact iff_of_false (fun hold => hnot _ ⟨hold.1, rfl⟩) fun hand => heq hand.2.symm
  · intro fd' holder hholder
    rw [hkernel]
    by_cases heq : fd' = fd
    · rw [heq, Function.update_self, hfd.2]
      simpa using hholder.symm
    · rw [Function.update_of_ne heq]

/-- **A connection is destroyed** whose channel is not in the poller.  Its descriptor is closed, and nothing
in any loop is left of it. -/
lemma Wired.destroy (h : s.Wired cfg) (halive : s.alive i = true)
    (hidx : ((s.loopOf i).registry.heap (.conn i)).index = .kNew) : (s.destroy i).Wired cfg := by
  have hon : s.On (s.conn i).loop i := ⟨halive, rfl⟩
  -- the kernel has nothing to take out of its set
  have hclose : closeFd (s.loopOf i).registry (s.conn i).fd = (s.loopOf i).registry := by
    have hnone := (h.coherent (s.conn i).loop).epoll_eq (.conn i)
    rw [h.present _ i hon, if_neg] at hnone
    · rw [closeFd]
      have hset : Function.update (s.loopOf i).registry.poller.epollSet (s.conn i).fd none
          = (s.loopOf i).registry.poller.epollSet := by
        rw [← hnone]
        exact Function.update_eq_self ..
      rw [hset]
    · intro hadded
      exact absurd (hidx.symm.trans hadded) (by simp)
  have hdead : (s.destroy i).alive i = false := Function.update_self ..
  have hkernel : (s.destroy i).fds = Function.update s.fds (s.conn i).fd none := rfl
  -- the descriptor was nobody else's
  have hsocket : s.fds (s.conn i).fd = some (.socket i) := (h.sockets _ i).mpr ⟨halive, rfl⟩
  refine h.turnover (s.conn i).loop i (absentFd (.conn i)) ⟨?_, ?_, ?_, ?_, ?_, ?_, ?_, ?_⟩
    hidx (h.absentFd_fresh hon)
  · simp only [System.destroy, System.setLoop, Function.update_self, hclose]
    rfl
  · intro l hl
    simp only [System.destroy, System.setLoop, Function.update_of_ne hl]
  · exact fun j hj => ⟨rfl, Function.update_of_ne hj ..⟩
  · exact fun l hold => hold.2.symm
  · exact fun l hon' => absurd (hon'.1.symm.trans hdead) (by simp)
  · exact fun _ => rfl
  · intro fd
    rw [hkernel, hdead]
    refine iff_of_false ?_ (by simp)
    by_cases heq : fd = (s.conn i).fd
    · rw [heq, Function.update_self]
      simp
    · rw [Function.update_of_ne heq, h.sockets]
      exact fun hand => heq hand.2.symm
  · intro fd holder hholder
    rw [hkernel]
    by_cases heq : fd = (s.conn i).fd
    · rw [heq, Function.update_self, hsocket]
      simpa using hholder.symm
    · rw [Function.update_of_ne heq]

/-- The user opens a file, or closes one. -/
lemma Wired.userFd (h : s.Wired cfg) {fd : ℤ} {holder : Option Holder}
    (hfree : s.fds fd = none ∨ s.fds fd = some .user) (hholder : holder = none ∨ holder = some .user) :
    Wired cfg { s with fds := Function.update s.fds fd holder } := by
  refine ⟨h.coherent, h.covered, h.own, h.present, h.absent, ?_, ?_, h.nonneg⟩
  · intro l ch hch
    have hlib := h.library l ch hch
    have hne : cfg.fd l ch ≠ fd := by
      rintro rfl
      rcases hfree with hfree | hfree <;> simp [hfree] at hlib
    dsimp only
    rw [Function.update_of_ne hne]
    exact hlib
  · intro fd' i
    dsimp only
    by_cases heq : fd' = fd
    · subst heq
      have hnot : ¬ s.fds fd' = some (.socket i) := by
        rcases hfree with hfree | hfree <;> simp [hfree]
      rw [h.sockets] at hnot
      refine iff_of_false ?_ hnot
      rw [Function.update_self]
      rcases hholder with rfl | rfl <;> simp
    · rw [Function.update_of_ne heq]
      exact h.sockets fd' i

end System

end Seenet
