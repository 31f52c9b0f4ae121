import Seenet.Buffer.Spec
import Seenet.Lib.Machine
import Mathlib.Logic.Function.Basic

/-!
# Any use of any number of buffers

`Spec.lean` says what one operation does.  Here a program owns any number of buffers and uses them in
any order; next to each buffer stands the queue it is meant to be (`Cell`), and each use is done on
both.  The two never drift apart (`allRepresent_states`), and no assertion fails on the way, as long as
every operation is called within its precondition (`Op.Pre`): **`refines_byteQueue`**.  An operation throws only
to make room (`Op.room`), when the allocator refuses the size; the program catches that, and goes on with the
buffer as it was.
-/

namespace Seenet

namespace Buffer

/-! ## Operations -/

/-- The operations of a buffer. -/
inductive Op
  | append (data : List UInt8)
  | prepend (data : List UInt8)
  | ensureWritableBytes (len : ℕ)
  | writeDirect (data : List UInt8)
  | unwrite (len : ℕ)
  | retrieve (len : ℕ)
  | retrieveUntil (endp : ℕ)
  | retrieveAll
  | retrieveAllAsString (len : ℕ)
  deriving DecidableEq, Repr

/-- What the operation asserts of its caller, and that the sums it computes do not overflow. -/
def Op.Pre (b : Buffer) : Op → Prop
  | .append data => b.SumsFit data.length
  | .prepend data => data.length ≤ b.prependableBytes
  | .ensureWritableBytes len => b.SumsFit len
  | .writeDirect data => data.length ≤ b.wirtableBytes
  | .unwrite len => len ≤ b.readableBytes
  | .retrieve len => len ≤ b.readableBytes
  | .retrieveUntil endp => b.peek ≤ endp ∧ endp ≤ b.beginWrite
  | .retrieveAll => True
  | .retrieveAllAsString len => len ≤ b.readableBytes

instance (b : Buffer) (op : Op) : Decidable (op.Pre b) := by
  cases op <;> simp only [Op.Pre, SumsFit] <;> infer_instance

/-- The operation on the buffer: the string it returns, if it returns one, and the buffer after. -/
def Op.exec (mem : Memory) (b : Buffer) : Op → Res (List UInt8 × Buffer)
  | .append data => do return ([], ← b.append mem data)
  | .prepend data => do return ([], ← b.prepend data)
  | .ensureWritableBytes len => do return ([], ← b.ensureWritableBytes mem len)
  | .writeDirect data => do return ([], ← b.writeDirect data)
  | .unwrite len => do return ([], ← b.unwrite len)
  | .retrieve len => do return ([], ← b.retrieve len)
  | .retrieveUntil endp => do return ([], ← b.retrieveUntil endp)
  | .retrieveAll => return ([], b.retrieveAll)
  | .retrieveAllAsString len => b.retrieveAllAsString len

/-- The writable bytes the operation makes room for. -/
def Op.room : Op → ℕ
  | .append data => data.length
  | .prepend _ => 0
  | .ensureWritableBytes len => len
  | .writeDirect _ => 0
  | .unwrite _ => 0
  | .retrieve _ => 0
  | .retrieveUntil _ => 0
  | .retrieveAll => 0
  | .retrieveAllAsString _ => 0

/-- What the operation is meant to do to the queue.  A position is given relative to `peek()`. -/
def Op.spec (peek : ℕ) (q : ByteQueue) : Op → List UInt8 × ByteQueue
  | .append data => ([], q.append data)
  | .prepend data => ([], q.prepend data)
  | .ensureWritableBytes _ => ([], q)
  | .writeDirect data => ([], q.append data)
  | .unwrite len => ([], q.dropLast len)
  | .retrieve len => ([], q.drop len)
  | .retrieveUntil endp => ([], q.drop (endp - peek))
  | .retrieveAll => ([], q.clear)
  | .retrieveAllAsString len => (q.bytes.take len, q.drop len)

variable {mem : Memory} {b : Buffer} {q : ByteQueue}

/-- An operation done on the buffer is the operation done on the queue. -/
lemma exec_of_ok {x : Res Buffer} {r : List UInt8} {P : Buffer → Prop}
    (h : ∃ b', x = .ok b' ∧ P b') :
    ∃ b', (x >>= fun b' => pure (r, b') : Res (List UInt8 × Buffer)) = .ok (r, b') ∧ P b' := by
  obtain ⟨b', hb', hP⟩ := h
  exact ⟨b', by rw [hb', bind_ok, pure_eq_ok], hP⟩

lemma exec_of_allocates {x : Res Buffer} {r : List UInt8} {P : Buffer → Prop} {refused : Prop}
    (h : Allocates x P) (hthrows : x = .error .badAlloc ↔ refused) :
    (refused ∧ (x >>= fun b' => pure (r, b') : Res (List UInt8 × Buffer)) = .error .badAlloc) ∨
      (¬ refused ∧
        ∃ b', (x >>= fun b' => pure (r, b') : Res (List UInt8 × Buffer)) = .ok (r, b') ∧ P b') := by
  rcases h with he | ⟨b', hb', hP⟩
  · exact Or.inl ⟨hthrows.mp he, by rw [he, bind_error]⟩
  · refine Or.inr ⟨fun hrefused => ?_, exec_of_ok ⟨b', hb', hP⟩⟩
    rw [hthrows.mpr hrefused] at hb'
    simp at hb'

/-- Where no room is needed, nothing is allocated. -/
lemma not_growthRefused_zero : ¬ b.GrowthRefused mem 0 := fun h => Nat.not_lt_zero _ h.1

/-- **One operation.**  Within its precondition it returns what the abstract operation returns, with
a buffer that represents the queue after it; unless it has to make room and the allocator refuses the size:
then it throws. -/
theorem Op.exec_spec (mem : Memory) (h : b.Represents q) {op : Op} (hpre : op.Pre b) :
    (b.GrowthRefused mem op.room ∧ op.exec mem b = .error .badAlloc) ∨
      (¬ b.GrowthRefused mem op.room ∧
        ∃ b', op.exec mem b = .ok ((op.spec b.peek q).1, b') ∧
          b'.Represents (op.spec b.peek q).2 ∧
          ∀ len, op = .ensureWritableBytes len → len ≤ b'.wirtableBytes) := by
  have hread := h.readableBytes_eq
  cases op with
  | append data =>
      refine (exec_of_allocates (append_spec mem h hpre) (h.wf.append_throws hpre)).imp_right ?_
      rintro ⟨hfits, b', hb', hrep⟩
      exact ⟨hfits, b', hb', hrep, by simp⟩
  | prepend data =>
      obtain ⟨b', hb', hrep⟩ := exec_of_ok (r := []) (prepend_spec h hpre)
      exact Or.inr ⟨not_growthRefused_zero, b', hb', hrep, by simp⟩
  | ensureWritableBytes len =>
      refine (exec_of_allocates (ensureWritableBytes_spec mem h hpre)
        (h.wf.ensureWritableBytes_throws hpre)).imp_right ?_
      rintro ⟨hfits, b', hb', hrep, hroom⟩
      refine ⟨hfits, b', hb', hrep, ?_⟩
      intro len' hlen'
      rw [Op.ensureWritableBytes.injEq] at hlen'
      rwa [← hlen']
  | writeDirect data =>
      obtain ⟨b', hb', hrep⟩ := exec_of_ok (r := []) (writeDirect_spec h hpre)
      exact Or.inr ⟨not_growthRefused_zero, b', hb', hrep, by simp⟩
  | unwrite len =>
      obtain ⟨b', hb', hrep⟩ := exec_of_ok (r := []) (unwrite_spec h (le_of_le_of_eq hpre hread))
      exact Or.inr ⟨not_growthRefused_zero, b', hb', hrep, by simp⟩
  | retrieve len =>
      obtain ⟨b', hb', hrep⟩ := exec_of_ok (r := []) (retrieve_spec h (le_of_le_of_eq hpre hread))
      exact Or.inr ⟨not_growthRefused_zero, b', hb', hrep, by simp⟩
  | retrieveUntil endp =>
      obtain ⟨b', hb', hrep⟩ := exec_of_ok (r := []) (retrieveUntil_spec h hpre.1 hpre.2)
      exact Or.inr ⟨not_growthRefused_zero, b', hb', hrep, by simp⟩
  | retrieveAll =>
      exact Or.inr ⟨not_growthRefused_zero, b.retrieveAll, rfl, retrieveAll_represents h, by simp⟩
  | retrieveAllAsString len =>
      obtain ⟨b', hb', hrep⟩ := retrieveAllAsString_spec h (le_of_le_of_eq hpre hread)
      exact Or.inr ⟨not_growthRefused_zero, b', hb', hrep, by simp⟩

/-! ## Runs over many buffers -/

/-- A buffer, and the queue it is meant to be. -/
abbrev Cell := Buffer × ByteQueue

/-- What a program does with its buffers. -/
inductive Use
  | on (i : ℕ) (op : Op)
  | swap (i j : ℕ)
  deriving DecidableEq, Repr

/-- One use of a buffer, done on the buffer and on its queue.  `Buffer::swap` exchanges the vectors
and the positions, and so everything. -/
def useStep (mem : Memory) (cells : ℕ → Cell) : Use → Res (ℕ → Cell)
  | .on i op =>
      if op.Pre (cells i).1 then
        match op.exec mem (cells i).1 with
        | .ok (_, b') =>
            .ok (Function.update cells i (b', (op.spec (cells i).1.peek (cells i).2).2))
        | .error .badAlloc => .ok cells
        | .error e => .error e
      else .error .disabled
  | .swap i j => .ok (Function.update (Function.update cells i (cells j)) j (cells i))

/-- The program has constructed its buffers. -/
def fresh (start : ℕ → Buffer) : ℕ → Cell := fun i => (start i, .empty)

/-- Every buffer represents its queue. -/
def AllRepresent (cells : ℕ → Cell) : Prop := ∀ i, (cells i).1.Represents (cells i).2

lemma AllRepresent.update {cells : ℕ → Cell} (h : AllRepresent cells) {i : ℕ} {c : Cell}
    (hc : c.1.Represents c.2) : AllRepresent (Function.update cells i c) := by
  intro k
  rcases eq_or_ne k i with rfl | hne
  · rwa [Function.update_self]
  · rw [Function.update_of_ne hne]
    exact h k

/-- One use keeps every buffer in step with its queue, and fails no assertion. -/
lemma useStep_spec (mem : Memory) {cells : ℕ → Cell} (h : AllRepresent cells) (u : Use) :
    useStep mem cells u = .error .disabled ∨
      ∃ cells', useStep mem cells u = .ok cells' ∧ AllRepresent cells' := by
  cases u with
  | swap i j => exact Or.inr ⟨_, rfl, (h.update (h j)).update (h i)⟩
  | on i op =>
      rw [useStep]
      split_ifs with hpre
      · right
        rcases op.exec_spec mem (h i) hpre with ⟨-, he⟩ | ⟨-, b', hb', hrep, -⟩
        · exact ⟨cells, by rw [he], h⟩
        · exact ⟨_, by rw [hb'], h.update hrep⟩
      · exact Or.inl rfl

/-- A buffer that was constructed is empty. -/
lemma represents_of_create {n : ℕ} (hn : kCheapPrepend + n < 2 ^ 64)
    (h : create mem n = .ok b) : b.Represents .empty := by
  cases hfit : mem.fits (kCheapPrepend + n) with
  | true =>
      obtain ⟨b', hb', hrep⟩ := create_spec hfit
      rw [h, Except.ok.injEq] at hb'
      rwa [hb']
  | false => exact absurd (h.symm.trans (create_badAlloc hn hfit)) nofun

/-- Constructed buffers, of any sizes, stay in step with their queues throughout any run. -/
lemma allRepresent_states {start : ℕ → Buffer}
    (hstart : ∀ i, ∃ n, kCheapPrepend + n < 2 ^ 64 ∧ create mem n = .ok (start i))
    (uses : List Use) :
    ∀ cells ∈ Machine.states (useStep mem) (fresh start) uses, AllRepresent cells := by
  refine Machine.states_invariant ?_ ?_
  · intro cells u cells' h hstep
    rcases useStep_spec mem h u with he | ⟨cells'', hok, h''⟩
    · simp [he] at hstep
    · rw [hstep, Except.ok.injEq] at hok
      rwa [hok]
  · intro i
    obtain ⟨n, hn, hcreate⟩ := hstart i
    exact represents_of_create hn hcreate

/-- **A `Buffer` is a byte queue.**  Throughout any use of any number of buffers the positions are in
order and within the vector, the readable bytes are those of the queue, and the cheap prepend space
is there as long as nothing was prepended.  Every operation called within its precondition returns
what the queue's operation returns; in particular no assertion fails, and `ensureWritableBytes(len)` leaves
`len` writable bytes.  The exception is an `append` or `ensureWritableBytes` for which the vector would have to
grow to a size the allocator refuses: it throws `std::bad_alloc`. -/
theorem refines_byteQueue (mem : Memory) (start : ℕ → Buffer)
    (hstart : ∀ i, ∃ n, kCheapPrepend + n < 2 ^ 64 ∧ create mem n = .ok (start i))
    (uses : List Use) :
    (∀ cells ∈ Machine.states (useStep mem) (fresh start) uses, ∀ i,
      (cells i).1.readerIndex ≤ (cells i).1.wirterIndex ∧
      (cells i).1.wirterIndex ≤ (cells i).1.buff.length ∧
      kCheapPrepend ≤ (cells i).1.buff.length ∧
      (cells i).1.toList = (cells i).2.bytes ∧
      ((cells i).2.prepended = false → kCheapPrepend ≤ (cells i).1.prependableBytes) ∧
      ∀ op : Op, op.Pre (cells i).1 →
        ((cells i).1.GrowthRefused mem op.room ∧ op.exec mem (cells i).1 = .error .badAlloc) ∨
          (¬ (cells i).1.GrowthRefused mem op.room ∧
            ∃ b', op.exec mem (cells i).1
                = .ok ((op.spec (cells i).1.peek (cells i).2).1, b') ∧
              b'.toList = (op.spec (cells i).1.peek (cells i).2).2.bytes ∧
              ∀ len, op = .ensureWritableBytes len → len ≤ b'.wirtableBytes)) ∧
    ∀ e, Machine.run (useStep mem) (fresh start) uses = .error e → e = .disabled := by
  have hall := allRepresent_states hstart uses
  constructor
  · intro cells hcells i
    have h := hall cells hcells i
    refine ⟨h.wf.reader_le, h.wf.wirter_le, h.wf.prepend_le, h.toList_eq, h.cheap, ?_⟩
    intro op hpre
    refine (op.exec_spec mem h hpre).imp_right ?_
    rintro ⟨hfits, b', hb', hrep, hroom⟩
    exact ⟨hfits, b', hb', hrep.toList_eq, hroom⟩
  · intro e he
    obtain ⟨cells, hcells, u, -, hu⟩ := Machine.run_error_source he
    rcases useStep_spec mem (hall cells hcells) u with hd | ⟨cells', hok, -⟩
    · rw [hd, Except.error.injEq] at hu
      exact hu.symm
    · simp [hok] at hu

/-- An allocator that refuses only what no vector can hold. -/
def ampleMemory : Memory := ⟨fun n => decide (n < 2 ^ 63), fun _ h => of_decide_eq_true h⟩

/-- Two buffers of the smallest size: one is written past its end, given a header, and swapped. -/
theorem refines_byteQueue_two_buffers :
    ∃ cells, Machine.run (useStep ampleMemory) (fresh fun _ => ⟨List.replicate 8 0, 8, 8⟩)
        [.on 0 (.append [1, 2, 3]), .on 0 (.prepend [9]), .swap 0 1, .on 1 (.retrieve 2)]
        = .ok cells ∧
      (cells 1).1.toList = [2, 3] ∧ (cells 1).2.bytes = [2, 3] := by
  have hrun : (Machine.run (useStep ampleMemory) (fresh fun _ => ⟨List.replicate 8 0, 8, 8⟩)
      [.on 0 (.append [1, 2, 3]), .on 0 (.prepend [9]), .swap 0 1, .on 1 (.retrieve 2)]).map
      (fun cells => (cells 1).1.toList) = .ok [2, 3] := by
    decide +kernel
  obtain ⟨cells, hcells, hlist⟩ := Machine.ok_of_map hrun
  have hall := (refines_byteQueue ampleMemory (fun _ => ⟨List.replicate 8 0, 8, 8⟩)
    (fun _ => ⟨0, by decide, by decide⟩) _).1 cells (Machine.mem_states_of_run hcells) 1
  exact ⟨cells, hcells, hlist, hall.2.2.2.1.symm.trans hlist⟩

end Buffer

end Seenet
