import Seenet.Basic

/-!
# What the kernel answers

The system calls the library makes, as far as their answers matter to it.  An answer is an input
of the model: a step that makes a call is given the outcome, and a proof that quantifies over
outcomes quantifies over everything the kernel may do.  What the kernel cannot do (accept more
bytes than it was offered) is not a step.

* `WriteOutcome`, `sockets.write` — a `write` of some bytes.
* `ReadOutcome` — a `readv`.
* `eventfdWrite`, `eventfdRead` — the counter of an `eventfd`.
-/

namespace Seenet

/-- `errno`. -/
abbrev Errno := ℕ

/-! The error numbers the library names, as Linux numbers them. -/

def EAGAIN : Errno := 11
def EWOULDBLOCK : Errno := EAGAIN
def EINVAL : Errno := 22
def EPIPE : Errno := 32
def ECONNRESET : Errno := 104

/-! ## Sockets -/

/-- The outcome of a `write`: the number of bytes accepted, or the error. -/
inductive WriteOutcome
  | wrote (n : ℕ)
  | error (errno : Errno)
  deriving DecidableEq, Repr

/-- The outcome of a `readv`: the bytes delivered (none at the end of the stream), or the error. -/
inductive ReadOutcome
  | bytes (data : List UInt8)
  | error (errno : Errno)
  deriving DecidableEq, Repr

/-- `sockets::write` of `len` bytes: the return value, or the error. -/
def sockets.write (len : ℕ) : WriteOutcome → Res (Except Errno ℕ)
  | .wrote n => if n ≤ len then .ok (.ok n) else .error .disabled
  | .error e => .ok (.error e)

lemma sockets.le_of_write {len n : ℕ} {o : WriteOutcome} (hok : sockets.write len o = .ok (.ok n)) : n ≤ len := by
  cases o with
  | error e => simp [sockets.write] at hok
  | wrote n' =>
      rw [sockets.write] at hok
      split_ifs at hok with hle
      · rwa [← Except.ok.inj (Except.ok.inj hok)]

/-! ## `eventfd` -/

/-- A write of `len` bytes that hold the number `value`, to an `eventfd` whose counter is `counter`:
the new counter.  Anything shorter than the 8 bytes of a counter is refused. -/
def eventfdWrite (len value counter : ℕ) : Except Errno ℕ :=
  if len < 8 then .error EINVAL else .ok (counter + value)

/-- A read of `len` bytes from an `eventfd`: the value read and the new counter. -/
def eventfdRead (len counter : ℕ) : Except Errno (ℕ × ℕ) :=
  if len < 8 then .error EINVAL
  else if counter = 0 then .error EAGAIN
  else .ok (counter, 0)

end Seenet
