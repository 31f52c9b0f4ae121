import Seenet.Basic
import Seenet.Lib.RoundRobin

/-!
# `EventLoopThreadPool`

The base loop, and the loops of the pool's threads, which are handed out in turn.  Every loop has a
thread of its own, so a loop stands for its thread as well.

* `getNextLoop_inTurn` — the call `k` returns the loop `k` modulo the number of threads.
* `getNextLoops_inTurn` — any number of calls, after the pool was started.
* `handedOut` — among as many calls in a row as there are threads each thread's loop is returned once, and how often
  two of them were returned differs by one at most.
-/

namespace Seenet

/-- The base loop, and the loop of each thread of the pool. -/
inductive LoopId
  | base
  | io (i : ℕ)
  deriving DecidableEq, Repr

structure EventLoopThreadPool where
  started : Bool
  numThreads : ℕ
  next : ℕ
  loops : List LoopId
  deriving DecidableEq, Repr

namespace EventLoopThreadPool

/-- `EventLoopThreadPool::EventLoopThreadPool` -/
def create : EventLoopThreadPool := ⟨false, 0, 0, []⟩

def setThreadNum (p : EventLoopThreadPool) (numThreads : ℕ) : EventLoopThreadPool :=
  { p with numThreads := numThreads }

def start (p : EventLoopThreadPool) : Res EventLoopThreadPool := do
  assertThat (p.started = false) .start
  return { p with started := true, loops := p.loops ++ (List.range p.numThreads).map .io }

/-- The loop handed out, and the pool after. -/
def getNextLoop (p : EventLoopThreadPool) : Res (LoopId × EventLoopThreadPool) := do
  assertThat (p.started = true) .getNextLoop
  if p.loops = [] then return (.base, p)
  else
    -- round-robin
    match p.loops[p.next]? with
    | none => .error .outOfBounds
    | some loop =>
        let next := p.next + 1
        return (loop, { p with next := if p.loops.length ≤ next then 0 else next })

/-- A pool of `numThreads` threads that has been started. -/
structure Running (p : EventLoopThreadPool) (numThreads : ℕ) : Prop where
  started : p.started = true
  loops_eq : p.loops = (List.range numThreads).map .io
  next_lt : 0 < numThreads → p.next < numThreads

/-- The loop that the call `k` of `getNextLoop` is to return. -/
def turn (numThreads k : ℕ) : LoopId := if numThreads = 0 then .base else .io (k % numThreads)

/-- There were `k` calls of `getNextLoop`. -/
structure InTurn (p : EventLoopThreadPool) (numThreads k : ℕ) : Prop extends p.Running numThreads where
  next_eq : 0 < numThreads → p.next = k % numThreads

lemma start_inTurn (numThreads : ℕ) :
    ∃ p, (create.setThreadNum numThreads).start = .ok p ∧ p.InTurn numThreads 0 :=
  ⟨_, rfl, ⟨rfl, rfl, id⟩, fun _ => (Nat.zero_mod numThreads).symm⟩

/-- The counter comes round. -/
lemma next_mod (k : ℕ) {numThreads : ℕ} (hpos : 0 < numThreads) :
    (if numThreads ≤ k % numThreads + 1 then 0 else k % numThreads + 1) = (k + 1) % numThreads := by
  have hlt := Nat.mod_lt k hpos
  rw [← Nat.mod_add_mod]
  split_ifs with hlast
  · rw [show k % numThreads + 1 = numThreads by omega, Nat.mod_self]
  · rw [Nat.mod_eq_of_lt (Nat.not_le.mp hlast)]

/-- **`getNextLoop`** returns the loop whose turn it is. -/
lemma getNextLoop_inTurn {p : EventLoopThreadPool} {numThreads k : ℕ} (h : p.InTurn numThreads k) :
    ∃ p', p.getNextLoop = .ok (turn numThreads k, p') ∧ p'.InTurn numThreads (k + 1) := by
  rw [getNextLoop, assertThat_pos h.started, bind_ok, h.loops_eq, turn]
  rcases Nat.eq_zero_or_pos numThreads with rfl | hpos
  · exact ⟨p, rfl, h.toRunning, fun hpos => absurd hpos (lt_irrefl 0)⟩
  · have hne := Nat.pos_iff_ne_zero.mp hpos
    have hnext := h.next_lt hpos
    have hget : ((List.range numThreads).map LoopId.io)[p.next]? = some (.io p.next) := by
      simp [List.getElem?_range hnext]
    rw [if_neg (by simp [hne]), hget, if_neg hne]
    simp only [List.length_map, List.length_range, h.next_eq hpos, next_mod k hpos]
    exact ⟨_, rfl, ⟨h.started, rfl, fun _ => Nat.mod_lt _ hpos⟩, fun _ => rfl⟩

/-- It returns the base loop when there are no threads, and the loop of a thread otherwise. -/
lemma getNextLoop_spec {p : EventLoopThreadPool} {numThreads : ℕ} (h : p.Running numThreads) :
    ∃ loop p', p.getNextLoop = .ok (loop, p') ∧ p'.Running numThreads ∧
      (loop = .base ↔ numThreads = 0) := by
  have hturn : p.InTurn numThreads p.next :=
    ⟨h, fun hpos => (Nat.mod_eq_of_lt (h.next_lt hpos)).symm⟩
  obtain ⟨p', hok, hturn'⟩ := getNextLoop_inTurn hturn
  refine ⟨_, p', hok, hturn'.toRunning, ?_⟩
  rw [turn]
  split_ifs with hzero
  · exact iff_of_true rfl hzero
  · exact iff_of_false nofun hzero

/-! ## Any number of calls -/

/-- The loops that `k` calls of `getNextLoop` hand out, and the pool after. -/
def getNextLoops (p : EventLoopThreadPool) : ℕ → Res (List LoopId × EventLoopThreadPool)
  | 0 => return ([], p)
  | k + 1 => do
      let (loops, p) ← p.getNextLoops k
      let (loop, p) ← p.getNextLoop
      return (loops ++ [loop], p)

lemma getNextLoops_inTurn {p : EventLoopThreadPool} {numThreads : ℕ} (h : p.InTurn numThreads 0) (k : ℕ) :
    ∃ p', p.getNextLoops k = .ok ((List.range k).map (turn numThreads), p') ∧ p'.InTurn numThreads k := by
  induction k with
  | zero => exact ⟨p, rfl, h⟩
  | succ k ih =>
      obtain ⟨p₁, hloops, hturn⟩ := ih
      obtain ⟨p₂, hloop, hturn'⟩ := getNextLoop_inTurn hturn
      refine ⟨p₂, ?_, hturn'⟩
      rw [getNextLoops, hloops, bind_ok]
      dsimp only
      rw [hloop, bind_ok, pure_eq_ok, List.range_succ, List.map_append, List.map_singleton]

/-- The loops were handed out in turn, and so fairly. -/
structure HandedOut (numThreads : ℕ) (loops : List LoopId) : Prop where
  turn : ∀ k < loops.length, loops[k]? = some (if numThreads = 0 then .base else .io (k % numThreads))
  window : ∀ i < numThreads, ∀ m, m + numThreads ≤ loops.length →
    ((loops.drop m).take numThreads).count (.io i) = 1
  fair : ∀ i < numThreads, ∀ j < numThreads, loops.count (.io i) ≤ loops.count (.io j) + 1

lemma handedOut (numThreads k : ℕ) : HandedOut numThreads ((List.range k).map (turn numThreads)) := by
  have hinj : Function.Injective LoopId.io := fun _ _ => LoopId.io.inj
  have hturns : 0 < numThreads →
      (List.range k).map (turn numThreads) = RoundRobin.turns LoopId.io numThreads k :=
    fun hpos => List.map_congr_left fun _ _ => if_neg (Nat.pos_iff_ne_zero.mp hpos)
  refine ⟨?_, ?_, ?_⟩
  · intro m hm
    rw [List.length_map, List.length_range] at hm
    rw [List.getElem?_map, List.getElem?_range hm, Option.map_some, turn]
  · intro i hi m hm
    rw [List.length_map, List.length_range] at hm
    rw [hturns (Nat.zero_lt_of_lt hi)]
    exact RoundRobin.count_window hinj hi hm
  · intro i hi j hj
    rw [hturns (Nat.zero_lt_of_lt hi)]
    exact RoundRobin.count_turns_le hinj hi hj k

end EventLoopThreadPool

end Seenet
