import Seenet.TcpConnection.Steps

/-!
# A connection in the rounds of its loop

`EventLoop::loop` goes round: it polls, runs the handlers of the active channels, and then
`doPendingFunctors`.  Here the connection is driven by that loop, and all calls come from the loop's own
thread.

A handler is not one step.  `handleClose` calls `m_connCallback` before `m_closeCallback`, and the user may
call the connection there; so the loop keeps what it still has to call (`todo`), and `handleClose` ends
with `m_closeCallback` put in front of it.

* `Round`, `Round.step` — the machine.
* `Round.destroyed` — `connectDestroyed` has run; the user does not call the connection after that.
* `ClosesOnce` — what the trace of a connection that closes at most once looks like.
-/

namespace Seenet

open Channel

/-- Where the loop is in its round. -/
inductive Phase
  | polling | dispatching | draining
  deriving DecidableEq, Repr

/-- What the loop still has to call. -/
inductive Todo
  | callback (cb : Callback)
  | closeCallback
  deriving DecidableEq, Repr

/-- A connection and its loop. -/
structure Round (ι : Type) where
  conn : TcpConnection ι
  phase : Phase
  todo : List Todo

namespace Round

variable {ι : Type}

/-- The function called returns with the connection `c`. -/
def returned (r : Round ι) (c : TcpConnection ι) : Round ι := { r with conn := c }

/-- `connectDestroyed` has run. -/
def destroyed (r : Round ι) : Prop := .ran .connectDestroyed ∈ r.conn.trace

instance (r : Round ι) : Decidable r.destroyed := inferInstanceAs (Decidable (_ ∈ _))

variable [DecidableEq ι]

/-- `handleClose`, until `m_connCallback` is called; `m_closeCallback` is next. -/
def handleClose (r : Round ι) (c : TcpConnection ι) : Res (Round ι) := do
  let c ← c.beginClose
  return { r with conn := c, todo := .closeCallback :: r.todo }

/-- A callback of the channel. -/
def callback (mem : Memory) (r : Round ι) (readOutcome : ReadOutcome) (writeOutcome : WriteOutcome) :
    Callback → Res (Round ι)
  | .close => r.handleClose r.conn
  -- `handleError` only reads the error of the socket
  | .error => .ok r
  | .read => r.conn.handleReadWith r.handleClose r.returned mem readOutcome
  | .write => do
      let c ← r.conn.handleWrite writeOutcome
      return r.returned c

/-- A functor of the batch. -/
def runFunctor (mem : Memory) (r : Round ι) (outcome : WriteOutcome) (f : Functor) :
    Res (Round ι) :=
  if f = .forceCloseInLoop then
    (r.conn.log (.ran .forceCloseInLoop)).forceCloseInLoopWith r.handleClose r.returned
  else do
    let c ← r.conn.runFunctor mem f outcome
    return r.returned c

inductive Action
  /-- `m_poller->poll`, when `epoll_wait` reports `report` -/
  | poll (report : List (ℤ × Finset Event))
  /-- the next callback -/
  | next (readOutcome : ReadOutcome) (writeOutcome : WriteOutcome)
  /-- the swap in `doPendingFunctors` -/
  | takePending
  /-- the next functor of the batch -/
  | nextFunctor (outcome : WriteOutcome)
  /-- the batch is done -/
  | endRound
  /-- the user calls the connection -/
  | call (m : TcpConnection.Call) (outcome : WriteOutcome)
  /-- the user takes bytes out of `inputBuffer()` -/
  | retrieveInput (len : ℕ)
  deriving DecidableEq

/-- One step. -/
def step (mem : Memory) (r : Round ι) : Action → Res (Round ι)
  | .poll report =>
      if r.phase = .polling ∧ r.todo = [] then do
        let (registry, active) ← r.conn.registry.poll report
        let c := { r.conn with registry := registry }
        let todo := if c.channel ∈ active then (handleEvent c.ch.revents).map .callback else []
        return ⟨c, .dispatching, todo⟩
      else .error .disabled
  | .next readOutcome writeOutcome =>
      match r.todo with
      | [] => .error .disabled
      | .callback cb :: rest =>
          callback mem { r with todo := rest } readOutcome writeOutcome cb
      | .closeCallback :: rest => .ok { r with conn := r.conn.closeCallback, todo := rest }
  | .takePending =>
      if r.phase = .dispatching ∧ r.todo = [] then
        .ok { r with conn := r.conn.takeFunctors, phase := .draining }
      else .error .disabled
  | .nextFunctor outcome =>
      if r.phase = .draining ∧ r.todo = [] then
        match r.conn.functors.batch with
        | [] => .error .disabled
        | f :: rest => (r.returned (r.conn.startFunctor f rest)).runFunctor mem outcome f
      else .error .disabled
  | .endRound =>
      if r.phase = .draining ∧ r.todo = [] ∧ r.conn.functors.batch = [] then
        .ok { r with phase := .polling }
      else .error .disabled
  | .call m outcome =>
      if r.destroyed then .error .disabled
      else do
        let c ← r.conn.call mem .loop outcome m
        return r.returned c
  | .retrieveInput len => do
      let inputBuffer ← r.conn.inputBuffer.retrieve len
      return r.returned { r.conn with inputBuffer := inputBuffer }

/-- The connection has been established, and the loop is about to poll. -/
def start (s : TcpConnection.Setting ι) : Round ι := ⟨s.start, .polling, []⟩

end Round

/-! ## Closing once -/

/-- `m_closeCallback` was called at most once, and `m_messageCallback` never after it. -/
structure ClosesOnce (es : List Effect) : Prop where
  once : es.count .closeCallback ≤ 1
  last : ¬ [.closeCallback, .messageCallback].Sublist es

namespace ClosesOnce

variable {es es' : List Effect}

lemma of_not_mem (h : .closeCallback ∉ es) : ClosesOnce es := by
  refine ⟨?_, fun hsub => h (hsub.subset List.mem_cons_self)⟩
  rw [List.count_eq_zero_of_not_mem h]
  exact Nat.zero_le _

/-- `m_closeCallback` is called for the first time. -/
lemma call (h : .closeCallback ∉ es) : ClosesOnce (es ++ [.closeCallback]) := by
  refine ⟨?_, ?_⟩
  · rw [List.count_append, List.count_eq_zero_of_not_mem h]
    decide
  · intro hsub
    obtain ⟨l₁, l₂, heq, h₁, h₂⟩ := List.sublist_append_iff.mp hsub
    cases l₁ with
    | nil =>
        rw [List.nil_append] at heq
        rw [← heq] at h₂
        exact absurd h₂.length_le (by decide)
    | cons e l₁ =>
        rw [List.cons_append, List.cons.injEq] at heq
        rw [← heq.1] at h₁
        exact h (h₁.subset List.mem_cons_self)

/-- Effects that are neither. -/
lemma append (h : ClosesOnce es) (hes : .closeCallback ∉ es' ∧ .messageCallback ∉ es') :
    ClosesOnce (es ++ es') := by
  refine ⟨?_, ?_⟩
  · rw [List.count_append, List.count_eq_zero_of_not_mem hes.1]
    exact h.once
  · intro hsub
    obtain ⟨l₁, l₂, heq, h₁, h₂⟩ := List.sublist_append_iff.mp hsub
    cases l₂ with
    | nil =>
        rw [List.append_nil] at heq
        rw [← heq] at h₁
        exact h.last h₁
    | cons e l₂ =>
        have hmem : .messageCallback ∈ e :: l₂ := by
          have hlast : (l₁ ++ e :: l₂).getLast? = some .messageCallback := by rw [← heq]; rfl
          rw [List.getLast?_append_cons] at hlast
          exact List.mem_of_getLast? hlast
        exact hes.2 (h₂.subset hmem)

end ClosesOnce

end Seenet
