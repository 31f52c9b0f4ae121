import Seenet.EventLoop.Basic
import Seenet.EventLoopThreadPool

/-!
# `TcpServer::start`

Any thread may call `start`, and several may do so at a time.  `m_started.fetch_add(1)` lets the first of them through:
it starts the threads of the pool, one after the other, and has the base loop call `Acceptor::listen`.  The others
return at once.

`m_started` has 32 bits.

* `Starting`, `step` — a step is what a thread does between two points where another thread can see it.
* `Stage` — how far the start has come; every step keeps it (`Stage.step`).
* **`start_once`** — no assertion of `start` fails, and a connection is accepted only when all threads of the pool
  have been started.
* **`start_wraps`** — unless `start` is called once more than `2 ^ 32` times.
-/

namespace Seenet

/-- Where a thread is in `TcpServer::start`. -/
inductive StartPc
  | outside
  /-- `fetch_add` has returned 0 -/
  | entered
  /-- in `EventLoopThreadPool::start`, where `i` threads have been started -/
  | starting (i : ℕ)
  /-- before `assert(!m_acceptor->listening())` -/
  | started
  /-- before `m_loop->runInLoop` -/
  | checked
  deriving DecidableEq, Repr

structure Starting where
  /-- `m_started` of the server -/
  started : BitVec 32
  threadPool : EventLoopThreadPool
  /-- `m_bListening` of the acceptor -/
  listening : Bool
  /-- how often `Acceptor::listen` is among the functors of the base loop -/
  pending : ℕ
  pc : Thread → StartPc
  -- not in the source
  calls : ℕ
  accepted : ℕ

namespace Starting

/-- A server that has been constructed. -/
def create (numThreads : ℕ) : Starting :=
  ⟨0, EventLoopThreadPool.create.setThreadNum numThreads, false, 0, fun _ => .outside, 0, 0⟩

inductive Action
  /-- a thread calls `start`, up to `fetch_add` -/
  | start (t : Thread)
  | proceed (t : Thread)
  /-- the base loop calls `Acceptor::listen` -/
  | listen
  /-- `TcpServer::newConnection` -/
  | newConnection
  deriving DecidableEq

def proceed (s : Starting) (t : Thread) : Res Starting :=
  match s.pc t with
  | .outside => .error .disabled
  | .entered => do
      assertThat (s.threadPool.started = false) .start
      return { s with
        threadPool := { s.threadPool with started := true }, pc := Function.update s.pc t (.starting 0) }
  | .starting i =>
      if i < s.threadPool.numThreads then
        .ok { s with
          threadPool := { s.threadPool with loops := s.threadPool.loops ++ [.io i] }
          pc := Function.update s.pc t (.starting (i + 1)) }
      else .ok { s with pc := Function.update s.pc t .started }
  | .started => do
      assertThat (s.listening = false) .start
      return { s with pc := Function.update s.pc t .checked }
  | .checked =>
      let s := { s with pc := Function.update s.pc t .outside }
      if t = .loop then .ok { s with listening := true } else .ok { s with pending := s.pending + 1 }

def step (s : Starting) : Action → Res Starting
  | .start t =>
      if s.pc t = .outside then
        .ok { s with
          started := s.started + 1, calls := s.calls + 1
          pc := if s.started = 0 then Function.update s.pc t .entered else s.pc }
      else .error .disabled
  | .proceed t => s.proceed t
  | .listen =>
      if 0 < s.pending ∧ s.pc .loop = .outside then .ok { s with pending := s.pending - 1, listening := true }
      else .error .disabled
  | .newConnection =>
      if s.listening = true ∧ s.pc .loop = .outside then do
        let (_, threadPool) ← s.threadPool.getNextLoop
        return { s with threadPool := threadPool, accepted := s.accepted + 1 }
      else .error .disabled

/-! ## How far the start has come -/

variable {s s' : Starting} {a : Action} {numThreads : ℕ}

/-- No thread is in `start` but `t`. -/
def alone (t : Thread) (pc : StartPc) : Thread → StartPc := Function.update (fun _ => .outside) t pc

@[simp] lemma alone_self (t : Thread) (pc : StartPc) : alone t pc t = pc := Function.update_self ..

@[simp] lemma alone_update (t : Thread) (pc pc' : StartPc) : Function.update (alone t pc) t pc' = alone t pc' :=
  Function.update_idem ..

lemma alone_outside (t t' : Thread) : alone t .outside t' = .outside := by
  rw [alone, Function.update_eq_self]

lemma eq_of_alone {t t' : Thread} {pc : StartPc} (h : alone t pc t' ≠ .outside) : t' = t := by
  by_contra hne
  exact h (Function.update_of_ne hne ..)

/-- The base loop has not been told to listen. -/
structure Quiet (s : Starting) : Prop where
  listening : s.listening = false
  pending : s.pending = 0
  accepted : s.accepted = 0

lemma Quiet.goes (h : s.Quiet) (threadPool : EventLoopThreadPool) (pc : Thread → StartPc) :
    Quiet { s with threadPool := threadPool, pc := pc } :=
  ⟨h.listening, h.pending, h.accepted⟩

/-- `start` has not been called. -/
structure Fresh (numThreads : ℕ) (s : Starting) : Prop where
  calls : s.calls = 0
  pc : ∀ t, s.pc t = .outside
  pool : s.threadPool = EventLoopThreadPool.create.setThreadNum numThreads
  quiet : s.Quiet

/-- All threads have been started, as by `EventLoopThreadPool.start` in one step, and the loops are handed out in
turn. -/
structure Pooled (numThreads : ℕ) (s : Starting) : Prop where
  start : s.accepted = 0 → (EventLoopThreadPool.create.setThreadNum numThreads).start = .ok s.threadPool
  inTurn : s.threadPool.InTurn numThreads s.accepted

lemma Pooled.of_eq (h : s.Pooled numThreads) (hpool : s'.threadPool = s.threadPool)
    (haccepted : s'.accepted = s.accepted) : s'.Pooled numThreads := by
  refine ⟨?_, ?_⟩
  · rw [hpool, haccepted]
    exact h.start
  · rw [hpool, haccepted]
    exact h.inTurn

/-- What holds while the thread that was let through is there; when it has left, the functor waits, or has been
called. -/
def Stage (numThreads : ℕ) (s : Starting) : StartPc → Prop
  | .entered => s.Quiet ∧ s.threadPool = EventLoopThreadPool.create.setThreadNum numThreads
  | .starting i => s.Quiet ∧ i ≤ numThreads ∧ s.threadPool = ⟨true, numThreads, 0, (List.range i).map .io⟩
  | .started | .checked => s.Quiet ∧ s.Pooled numThreads
  | .outside => s.Pooled numThreads ∧
      (s.listening = false ∧ s.pending = 1 ∧ s.accepted = 0 ∨ s.listening = true ∧ s.pending = 0)

/-- A call that is not let through changes nothing of this. -/
lemma Stage.of_eq {pc : StartPc} (h : s.Stage numThreads pc) (hpool : s'.threadPool = s.threadPool)
    (hlistening : s'.listening = s.listening) (hpending : s'.pending = s.pending)
    (haccepted : s'.accepted = s.accepted) : s'.Stage numThreads pc := by
  have hquiet : s.Quiet → s'.Quiet := fun hq =>
    ⟨hlistening.trans hq.listening, hpending.trans hq.pending, haccepted.trans hq.accepted⟩
  cases pc with
  | outside =>
      refine ⟨h.1.of_eq hpool haccepted, ?_⟩
      rw [hlistening, hpending, haccepted]
      exact h.2
  | entered => exact ⟨hquiet h.1, hpool.trans h.2⟩
  | starting i => exact ⟨hquiet h.1, h.2.1, hpool.trans h.2.2⟩
  | started | checked => exact ⟨hquiet h.1, h.2.of_eq hpool haccepted⟩

/-- **The invariant**: `m_started` counts the calls, and at most one of them was let through. -/
structure Good (numThreads : ℕ) (s : Starting) : Prop where
  started : s.started = BitVec.ofNat 32 s.calls
  stage : Fresh numThreads s ∨ 0 < s.calls ∧ ∃ t pc, s.pc = alone t pc ∧ s.Stage numThreads pc

lemma good_create (numThreads : ℕ) : (create numThreads).Good numThreads :=
  ⟨rfl, Or.inl ⟨rfl, fun _ => rfl, rfl, rfl, rfl, rfl⟩⟩

/-- `m_started` is 0 again after `2 ^ 32` calls, but not before. -/
lemma ofNat_ne_zero {calls : ℕ} (hpos : 0 < calls) (hlt : calls < 2 ^ 32) : BitVec.ofNat 32 calls ≠ 0 := by
  intro hzero
  have hmod := congrArg BitVec.toNat hzero
  rw [BitVec.toNat_ofNat, Nat.mod_eq_of_lt hlt] at hmod
  exact hpos.ne' hmod

/-- A thread calls `start`. -/
lemma Good.start (h : s.Good numThreads) (t : Thread) (hcalls : s.calls < 2 ^ 32) :
    Good numThreads { s with
      started := s.started + 1, calls := s.calls + 1
      pc := if s.started = 0 then Function.update s.pc t .entered else s.pc } := by
  refine ⟨?_, Or.inr ⟨Nat.succ_pos _, ?_⟩⟩
  · simp [h.started, BitVec.ofNat_add]
  · rcases h.stage with hfresh | ⟨hpos, t₀, pc, hpc, hstage⟩
    · have hzero : s.started = 0 := by
        rw [h.started, hfresh.calls]
        rfl
      refine ⟨t, .entered, ?_, ⟨hfresh.quiet.1, hfresh.quiet.2, hfresh.quiet.3⟩, hfresh.pool⟩
      rw [if_pos hzero, alone, funext hfresh.pc]
    · -- the counter does not come round yet
      have hne : s.started ≠ 0 := h.started ▸ ofNat_ne_zero hpos hcalls
      exact ⟨t₀, pc, by rw [if_neg hne, hpc], hstage.of_eq rfl rfl rfl rfl⟩

/-- **The thread that was let through** goes on. -/
lemma Good.proceed (h : s.Good numThreads) (t : Thread) :
    s.proceed t = .error .disabled ∨ ∃ s', s.proceed t = .ok s' ∧ s'.Good numThreads := by
  rcases h.stage with hfresh | ⟨hpos, t₀, pc, hpc, hstage⟩
  · exact Or.inl (by rw [Starting.proceed, hfresh.pc])
  · by_cases hout : s.pc t = .outside
    · exact Or.inl (by rw [Starting.proceed, hout])
    · obtain rfl : t = t₀ := eq_of_alone (hpc ▸ hout)
      rw [Starting.proceed, hpc, alone_self]
      simp only [alone_update]
      refine Or.inr ?_
      cases pc with
      | outside => simp [hpc] at hout
      | entered =>
          obtain ⟨hquiet, hpool⟩ := hstage
          have hnot : (EventLoopThreadPool.create.setThreadNum numThreads).started = false := rfl
          dsimp only
          rw [hpool, assertThat_pos hnot, bind_ok]
          exact ⟨_, rfl, h.started, Or.inr ⟨hpos, t, _, rfl, hquiet.goes _ _, Nat.zero_le _, rfl⟩⟩
      | starting i =>
          obtain ⟨hquiet, hi, hpool⟩ := hstage
          dsimp only
          rw [hpool]
          split_ifs with hlt
          · refine ⟨_, rfl, h.started, Or.inr ⟨hpos, t, _, rfl, hquiet.goes _ _, hlt, ?_⟩⟩
            simp [List.range_succ]
          · obtain rfl : i = numThreads := le_antisymm hi (Nat.not_lt.mp hlt)
            refine ⟨_, rfl, h.started, Or.inr ⟨hpos, t, _, rfl, hquiet.goes _ _, fun _ => rfl, ?_⟩⟩
            rw [hquiet.accepted]
            exact ⟨⟨rfl, rfl, id⟩, fun _ => (Nat.zero_mod i).symm⟩
      | started =>
          obtain ⟨hquiet, hpooled⟩ := hstage
          dsimp only
          rw [assertThat_pos hquiet.listening, bind_ok]
          exact ⟨_, rfl, h.started, Or.inr ⟨hpos, t, _, rfl, hquiet.goes _ _, hpooled.of_eq rfl rfl⟩⟩
      | checked =>
          obtain ⟨hquiet, hpooled⟩ := hstage
          dsimp only
          split_ifs
          · refine ⟨_, rfl, h.started, Or.inr ⟨hpos, t, _, rfl, hpooled.of_eq rfl rfl, Or.inr ?_⟩⟩
            exact ⟨rfl, hquiet.pending⟩
          · refine ⟨_, rfl, h.started, Or.inr ⟨hpos, t, _, rfl, hpooled.of_eq rfl rfl, Or.inl ?_⟩⟩
            exact ⟨hquiet.listening, by simp [hquiet.pending], hquiet.accepted⟩

/-- Where the functor is, everything has been started. -/
lemma Good.outside (h : s.Good numThreads) (htold : 0 < s.pending ∨ s.listening = true) :
    0 < s.calls ∧ (∃ t, s.pc = alone t .outside) ∧ s.Stage numThreads .outside := by
  have hnot : ¬ s.Quiet := by
    rintro ⟨hlistening, hpending, -⟩
    simp [hlistening, hpending] at htold
  rcases h.stage with hfresh | ⟨hpos, t, pc, hpc, hstage⟩
  · exact absurd hfresh.quiet hnot
  · cases pc with
    | outside => exact ⟨hpos, ⟨t, hpc⟩, hstage⟩
    | entered | starting i | started | checked => exact absurd hstage.1 hnot

/-- **A step** keeps the invariant, as long as it is not the call after `2 ^ 32` others; and no assertion fails. -/
lemma Good.step (h : s.Good numThreads) (a : Action) :
    s.step a = .error .disabled ∨
      ∃ s', s.step a = .ok s' ∧ ((∀ t, a = .start t → s.calls < 2 ^ 32) → s'.Good numThreads) := by
  cases a with
  | start t =>
      by_cases hout : s.pc t = .outside
      · rw [Starting.step, if_pos hout]
        exact Or.inr ⟨_, rfl, fun hcalls => h.start t (hcalls t rfl)⟩
      · rw [Starting.step, if_neg hout]
        exact Or.inl rfl
  | proceed t =>
      rcases h.proceed t with hdisabled | ⟨s', hok, hgood⟩
      · exact Or.inl hdisabled
      · exact Or.inr ⟨s', hok, fun _ => hgood⟩
  | listen =>
      rw [Starting.step]
      split_ifs with hpending
      · obtain ⟨hpos, ⟨t, hpc⟩, hpooled, hstage⟩ := h.outside (Or.inl hpending.1)
        obtain ⟨-, hone, -⟩ := hstage.resolve_right fun hdone => by omega
        refine Or.inr ⟨_, rfl, fun _ => ⟨h.started, Or.inr ⟨hpos, t, _, hpc, hpooled.of_eq rfl rfl, Or.inr ?_⟩⟩⟩
        exact ⟨rfl, by simp [hone]⟩
      · exact Or.inl rfl
  | newConnection =>
      rw [Starting.step]
      split_ifs with hlistening
      · obtain ⟨hpos, ⟨t, hpc⟩, hpooled, hstage⟩ := h.outside (Or.inr hlistening.1)
        obtain ⟨-, hpending⟩ := hstage.resolve_left fun hwaits => by simp [hlistening.1] at hwaits
        obtain ⟨threadPool, hok, hturn⟩ := EventLoopThreadPool.getNextLoop_inTurn hpooled.inTurn
        rw [hok, bind_ok]
        refine Or.inr ⟨_, rfl, fun _ => ⟨h.started, Or.inr ⟨hpos, t, _, hpc, ⟨?_, hturn⟩, Or.inr ?_⟩⟩⟩
        · exact fun hzero => absurd hzero (Nat.succ_ne_zero _)
        · exact ⟨hlistening.1, hpending⟩
      · exact Or.inl rfl

/-! ## Every run -/

/-- `start` has been called fewer than `2 ^ 32` times before, if that is the step. -/
def Counted (s : Starting) (a : Action) : Prop := ∀ t, a = .start t → s.calls < 2 ^ 32

lemma good_of_mem {as : List Action} (hcounted : ∀ p ∈ Machine.steps step (create numThreads) as, p.1.Counted p.2) :
    ∀ s ∈ Machine.states step (create numThreads) as, s.Good numThreads := by
  refine Machine.states_invariant_of_steps (fun s a s' h hC hok => ?_) (good_create numThreads) hcounted
  rcases h.step a with hdisabled | ⟨s₁, hok₁, hgood⟩
  · simp [hdisabled] at hok
  · rw [hok₁, Except.ok.injEq] at hok
    exact hok ▸ hgood hC

/-- **`start` starts once.**  However many threads call it, and however they go on: no assertion of `start` fails, nor
the one of `getNextLoop`; the base loop is told to listen once at most; and when it is, all threads of the pool have
been started, as if nobody else had been there, and from the first connection on the loops are handed out in turn. -/
theorem start_once (numThreads : ℕ) (as : List Action)
    (hcounted : ∀ p ∈ Machine.steps step (create numThreads) as, p.1.Counted p.2) :
    ∀ s ∈ Machine.states step (create numThreads) as,
      (∀ a e, s.step a = .error e → e = .disabled) ∧
      s.pending + (if s.listening = true then 1 else 0) ≤ 1 ∧
      (0 < s.pending ∨ s.listening = true →
        (s.accepted = 0 → (EventLoopThreadPool.create.setThreadNum numThreads).start = .ok s.threadPool) ∧
        s.threadPool.InTurn numThreads s.accepted) := by
  intro s hs
  have h := good_of_mem hcounted s hs
  refine ⟨fun a e herror => ?_, ?_, fun htold => ?_⟩
  · rcases h.step a with hdisabled | ⟨s', hok, -⟩
    · rw [hdisabled, Except.error.injEq] at herror
      exact herror.symm
    · simp [hok] at herror
  · by_cases htold : 0 < s.pending ∨ s.listening = true
    · rcases (h.outside htold).2.2.2 with ⟨hlistening, hpending, -⟩ | ⟨hlistening, hpending⟩
      · simp [hlistening, hpending]
      · simp [hlistening, hpending]
    · rw [not_or] at htold
      rw [if_neg htold.2]
      omega
  · obtain ⟨-, -, hpooled, -⟩ := h.outside htold
    exact ⟨hpooled.start, hpooled.inTurn⟩

/-- Two threads call `start` of a server with two threads; then three connections come. -/
def twoCallers : List Action :=
  [.start (.other 0), .start .loop] ++ List.replicate 6 (.proceed (.other 0)) ++
    [.listen, .newConnection, .newConnection, .newConnection]

/-- The first thread of the pool gets two of them. -/
theorem start_once_twoCallers :
    ∃ s, Machine.run step (create 2) twoCallers = .ok s ∧ s.accepted = 3 ∧ s.threadPool.InTurn 2 3 := by
  have hrun : (Machine.run step (create 2) twoCallers).map (fun s => (s.listening, s.accepted)) = .ok (true, 3) := by
    decide +kernel
  obtain ⟨s, hs, hobs⟩ := Machine.ok_of_map hrun
  rw [Prod.mk.injEq] at hobs
  have hcounted : ∀ p ∈ Machine.steps step (create 2) twoCallers, p.1.calls < 2 ^ 32 := by decide +kernel
  obtain ⟨-, -, hturn⟩ := start_once 2 twoCallers (fun p hp _ _ => hcounted p hp) s (Machine.mem_states_of_run hs)
  exact ⟨s, hs, hobs.2, hobs.2 ▸ (hturn (Or.inr hobs.1)).2⟩

/-! ## The counter comes round -/

/-- The calls that are not let through. -/
lemma Good.run_starts (h : s.Good numThreads) {t : Thread} (hpos : 0 < s.calls) (hpc : s.pc t = .outside) {k : ℕ}
    (hcalls : s.calls + k ≤ 2 ^ 32) : Machine.run Starting.step s (List.replicate k (.start t))
      = .ok { s with started := BitVec.ofNat 32 (s.calls + k), calls := s.calls + k } := by
  induction k with
  | zero => simp [← h.started]
  | succ k ih =>
      have hlt : s.calls + k < 2 ^ 32 := by omega
      have hstep : Starting.step { s with started := BitVec.ofNat 32 (s.calls + k), calls := s.calls + k } (.start t)
          = .ok { s with started := BitVec.ofNat 32 (s.calls + (k + 1)), calls := s.calls + (k + 1) } := by
        rw [Starting.step, if_pos hpc, if_neg (ofNat_ne_zero (by omega) hlt)]
        simp [← Nat.add_assoc, BitVec.ofNat_add]
      rw [List.replicate_succ', Machine.run_append (ih (by omega)), Machine.run_cons_ok hstep, Machine.run_nil]

/-- **But after `2 ^ 32` calls** `m_started` is 0 again.  The next one is let through, and `assert(!m_started)` of the
pool fails. -/
theorem start_wraps {numThreads : ℕ} {as : List Action} {s : Starting}
    (hcounted : ∀ p ∈ Machine.steps step (create numThreads) as, p.1.Counted p.2)
    (hrun : Machine.run step (create numThreads) as = .ok s) (hlistening : s.listening = true)
    (hcalls : s.calls ≤ 2 ^ 32) (t : Thread) :
    Machine.run step s (List.replicate (2 ^ 32 - s.calls) (.start t) ++ [.start t, .proceed t])
      = .error (.assertFailed .start) := by
  have h := good_of_mem hcounted s (Machine.mem_states_of_run hrun)
  obtain ⟨hpos, ⟨t₀, hpc⟩, hpooled, -⟩ := h.outside (Or.inr hlistening)
  have hout : s.pc t = .outside := by rw [hpc, alone_outside]
  have hstarts := h.run_starts hpos hout (k := 2 ^ 32 - s.calls) (by omega)
  rw [Nat.add_sub_cancel' hcalls] at hstarts
  have hzero : BitVec.ofNat 32 (2 ^ 32) = 0 := by simp
  have henter : step { s with started := BitVec.ofNat 32 (2 ^ 32), calls := 2 ^ 32 } (.start t)
      = .ok { s with
          started := BitVec.ofNat 32 (2 ^ 32) + 1, calls := 2 ^ 32 + 1, pc := Function.update s.pc t .entered } := by
    rw [Starting.step, if_pos hout, if_pos hzero]
  rw [Machine.run_append hstarts, Machine.run_cons_ok henter, Machine.run, Starting.step, Starting.proceed]
  simp [assertThat, hpooled.inTurn.started]

/-- A server without threads, which is called by the thread of the base loop. -/
theorem start_wraps_baseLoop :
    ∃ s, Machine.run step (create 0) (.start .loop :: List.replicate 4 (.proceed .loop)) = .ok s ∧ s.calls = 1 ∧
      Machine.run step s (List.replicate (2 ^ 32 - s.calls) (.start .loop) ++ [.start .loop, .proceed .loop])
        = .error (.assertFailed .start) := by
  have hrun : (Machine.run step (create 0) (.start .loop :: List.replicate 4 (.proceed .loop))).map
      (fun s => (s.listening, s.calls)) = .ok (true, 1) := by
    decide +kernel
  obtain ⟨s, hs, hobs⟩ := Machine.ok_of_map hrun
  rw [Prod.mk.injEq] at hobs
  have hcounted : ∀ p ∈ Machine.steps step (create 0) (.start .loop :: List.replicate 4 (.proceed .loop)),
      p.1.calls < 2 ^ 32 := by
    decide +kernel
  exact ⟨s, hs, hobs.2, start_wraps (fun p hp _ _ => hcounted p hp) hs hobs.1 (by omega) .loop⟩

end Starting

end Seenet
