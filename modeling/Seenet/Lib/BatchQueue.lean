import Seenet.Lib.Machine

/-!
# A task queue served in batches

Producers push tasks behind one another.  A consumer takes everything that is pending as one batch,
runs the batch task by task, and only then takes the next one; tasks pushed meanwhile wait.

The queue keeps its own account: `pushed` and `executed` are the tasks in the order they were pushed
and run, each with the number of batches taken by then (its *epoch*).

* `BatchQueue.Balanced` — the account balances: what was pushed is what was run, then what is left
  of the batch, then what is pending, and a task pushed in epoch `e` belongs to batch `e + 1`.
* **`balanced_of_run`** — every run keeps the account balanced.
* `tasks_eq`, `executed_epoch` — the same without epochs, and what it means for one task: it is run in
  its turn, and in the batch after the one it was pushed in.
-/

/-- The queue with its account. -/
structure BatchQueue (F : Type*) where
  pending : List F
  batch : List F
  epoch : ℕ
  pushed : List (F × ℕ)
  executed : List (F × ℕ)

namespace BatchQueue

variable {F : Type*}

/-- A queue nothing has been pushed to. -/
def empty : BatchQueue F := ⟨[], [], 0, [], []⟩

/-- A producer pushes a task. -/
def push (q : BatchQueue F) (f : F) : BatchQueue F :=
  { q with pending := q.pending ++ [f], pushed := q.pushed ++ [(f, q.epoch)] }

/-- The consumer takes everything pending as its next batch. -/
def take (q : BatchQueue F) : BatchQueue F :=
  { q with pending := [], batch := q.pending, epoch := q.epoch + 1 }

/-- The consumer starts the first task `f` of its batch, and `rest` is left. -/
def start (q : BatchQueue F) (f : F) (rest : List F) : BatchQueue F :=
  { q with batch := rest, executed := q.executed ++ [(f, q.epoch)] }

/-- What can happen to the queue. -/
inductive Action (F : Type*)
  | push (f : F)
  | take
  | start

/-- One step: a batch is taken only when the one before is done, and a task is run only when the
batch has one. -/
def step (q : BatchQueue F) : Action F → Except Unit (BatchQueue F)
  | .push f => .ok (q.push f)
  | .take => if q.batch = [] then .ok q.take else .error ()
  | .start =>
      match q.batch with
      | [] => .error ()
      | f :: rest => .ok (q.start f rest)

/-! ## The account -/

/-- Everything pushed is run, in the batch, or pending, in this order; and a task pushed in epoch
`e` belongs to batch `e + 1`. -/
def Balanced (q : BatchQueue F) : Prop :=
  q.pushed.map (fun p => (p.1, p.2 + 1))
    = q.executed ++ q.batch.map (fun f => (f, q.epoch)) ++ q.pending.map (fun f => (f, q.epoch + 1))

lemma balanced_empty : (empty : BatchQueue F).Balanced := rfl

lemma Balanced.push {q : BatchQueue F} (h : q.Balanced) (f : F) : (q.push f).Balanced := by
  simp only [Balanced, BatchQueue.push, List.map_append, List.map_cons, List.map_nil] at h ⊢
  rw [h, List.append_assoc]

lemma Balanced.take {q : BatchQueue F} (h : q.Balanced) (hb : q.batch = []) :
    q.take.Balanced := by
  simp only [Balanced, BatchQueue.take, List.map_nil, List.append_nil] at h ⊢
  rw [h, hb, List.map_nil, List.append_nil]

lemma Balanced.start {q : BatchQueue F} (h : q.Balanced) {f : F} {rest : List F}
    (hb : q.batch = f :: rest) : (q.start f rest).Balanced := by
  simp only [Balanced, BatchQueue.start] at h ⊢
  rw [h, hb, List.map_cons]
  simp only [List.append_assoc, List.cons_append, List.nil_append]

/-- A step keeps the account balanced. -/
lemma balanced_step {q q' : BatchQueue F} {a : Action F} (h : q.Balanced)
    (hs : q.step a = .ok q') : q'.Balanced := by
  cases a with
  | push f =>
      rw [step, Except.ok.injEq] at hs
      subst hs
      exact h.push f
  | take =>
      rw [step] at hs
      split_ifs at hs with hb
      rw [Except.ok.injEq] at hs
      subst hs
      exact h.take hb
  | start =>
      rw [step] at hs
      cases hb : q.batch with
      | nil => simp [hb] at hs
      | cons f rest =>
          simp only [hb, Except.ok.injEq] at hs
          subst hs
          exact h.start hb

/-- **Every run keeps the account balanced.** -/
theorem balanced_of_run {q q' : BatchQueue F} {as : List (Action F)} (h : q.Balanced)
    (hr : Machine.run step q as = .ok q') : q'.Balanced :=
  Machine.states_invariant (fun _ _ _ h hs => balanced_step h hs) h q' (Machine.mem_states_of_run hr)

/-! ## What the account says -/

/-- Nothing is lost, duplicated or reordered. -/
theorem Balanced.tasks_eq {q : BatchQueue F} (h : q.Balanced) :
    q.executed.map Prod.fst ++ q.batch ++ q.pending = q.pushed.map Prod.fst := by
  have h' := congrArg (List.map Prod.fst) h
  simp only [List.map_append, List.map_map, Function.comp_def, List.map_id'] at h'
  exact h'.symm

/-- The `k`-th task run is the `k`-th task pushed, and it is run one epoch after it was pushed. -/
theorem Balanced.executed_epoch {q : BatchQueue F} (h : q.Balanced) {k : ℕ} {f : F} {e : ℕ}
    (hk : q.executed[k]? = some (f, e)) : ∃ e', q.pushed[k]? = some (f, e') ∧ e = e' + 1 := by
  have hlt : k < q.executed.length := (List.getElem?_eq_some_iff.mp hk).1
  have hmap : (q.pushed.map fun p => (p.1, p.2 + 1))[k]? = some (f, e) := by
    rw [h, List.append_assoc, List.getElem?_append_left hlt, hk]
  rw [List.getElem?_map, Option.map_eq_some_iff] at hmap
  obtain ⟨⟨g, e'⟩, hp, heq⟩ := hmap
  rw [Prod.mk.injEq] at heq
  obtain ⟨rfl, rfl⟩ := heq
  exact ⟨e', hp, rfl⟩

end BatchQueue
