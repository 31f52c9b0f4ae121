import Seenet.Buffer.Refinement
import Seenet.Util.Endian

/-!
# Integers in a `Buffer`

The functions that put integers in network order into a buffer and take them out again.  Those of 16,
32 and 64 bits differ in their width only, and are one function of the width here; those of 8 bits
swap nothing, and `readInt8` does not return.

Two things go wrong when integers are read back.  `peekInt` asserts that *more* bytes are readable
than the integer has, so the last integer in the buffer cannot be read; and `readInt8` flows off its
end.

* `bytes_of_appendAll` — the bytes appended are the big-endian texts, in order.
* `readAll_of_trailing` — with a byte behind them, and no 8-bit integer among them, the integers are
  read back.
* **`codec_roundTrip_iff`** — without one, they are read back only if there are none.
-/

namespace Seenet

open ByteOrder Region sockets

namespace Buffer

/-! ## The functions of the source -/

section Family

variable (mem : Memory) (b : Buffer) {n : ℕ}

/-- `*(const intN_t *)peek()`, by `memcpy`. -/
def peekMemory (n : ℕ) : Res (BitVec (8 * n)) := do
  let bytes ← copyOut b.buff b.peek (b.peek + n)
  return ofMemory n bytes

def peekInt (n : ℕ) : Res (BitVec (8 * n)) := do
  assertThat (n < b.readableBytes) .peekInt
  let be ← b.peekMemory n
  return networkToHost be

def retrieveInt (n : ℕ) : Res Buffer := b.retrieve n

def readInt (n : ℕ) : Res (BitVec (8 * n) × Buffer) := do
  let result ← b.peekInt n
  let b ← b.retrieveInt n
  return (result, b)

def peekInt64 : Res (BitVec (8 * 8)) := b.peekInt 8
def peekInt32 : Res (BitVec (8 * 4)) := b.peekInt 4
def peekInt16 : Res (BitVec (8 * 2)) := b.peekInt 2
def peekInt8 : Res (BitVec (8 * 1)) := do
  assertThat (1 < b.readableBytes) .peekInt
  b.peekMemory 1

def retrieveInt64 : Res Buffer := b.retrieveInt 8
def retrieveInt32 : Res Buffer := b.retrieveInt 4
def retrieveInt16 : Res Buffer := b.retrieveInt 2
def retrieveInt8 : Res Buffer := b.retrieveInt 1

def readInt64 : Res (BitVec (8 * 8) × Buffer) := b.readInt 8
def readInt32 : Res (BitVec (8 * 4) × Buffer) := b.readInt 4
def readInt16 : Res (BitVec (8 * 2) × Buffer) := b.readInt 2
def readInt8 : Res (BitVec (8 * 1) × Buffer) := do
  let _result ← b.peekInt8
  let _b ← b.retrieveInt8
  -- there is no `return`
  throw .missingReturn

end Family

/-! ## Integers with their type -/

/-- The four integer types. -/
inductive Width
  | int8 | int16 | int32 | int64
  deriving DecidableEq, Repr

/-- `sizeof` -/
def Width.bytes : Width → ℕ
  | .int8 => 1
  | .int16 => 2
  | .int32 => 4
  | .int64 => 8

/-- An integer and its type. -/
structure TypedInt where
  width : Width
  value : BitVec (8 * width.bytes)
  deriving DecidableEq, Repr

/-- The big-endian text of the integer. -/
def TypedInt.text (x : TypedInt) : List UInt8 := bigEndian x.value

/-- The matching `peekIntN`. -/
def peekTyped (b : Buffer) : Width → Res TypedInt
  | .int8 => do return ⟨.int8, ← b.peekInt8⟩
  | .int16 => do return ⟨.int16, ← b.peekInt16⟩
  | .int32 => do return ⟨.int32, ← b.peekInt32⟩
  | .int64 => do return ⟨.int64, ← b.peekInt64⟩

/-- The matching `readIntN`. -/
def readTyped (b : Buffer) : Width → Res (TypedInt × Buffer)
  | .int8 => do let (x, b) ← b.readInt8; return (⟨.int8, x⟩, b)
  | .int16 => do let (x, b) ← b.readInt16; return (⟨.int16, x⟩, b)
  | .int32 => do let (x, b) ← b.readInt32; return (⟨.int32, x⟩, b)
  | .int64 => do let (x, b) ← b.readInt64; return (⟨.int64, x⟩, b)

/-- Read integers of the given types one after the other. -/
def readAll (b : Buffer) : List Width → Res (List TypedInt × Buffer)
  | [] => .ok ([], b)
  | w :: ws => do
      let (x, b) ← b.readTyped w
      let (xs, b) ← b.readAll ws
      return (x :: xs, b)

variable {mem : Memory} {b : Buffer} {q : ByteQueue} {x : TypedInt} {w : Width}

lemma TypedInt.length_text (x : TypedInt) : x.text.length = x.width.bytes := length_bigEndian _

/-! ## The four types at once -/

/-- Every `peekIntN` is `peekInt`: there is nothing to swap in a single byte. -/
lemma peekTyped_eq (w : Width) :
    b.peekTyped w = do let v ← b.peekInt w.bytes; return ⟨w, v⟩ := by
  cases w with
  | int8 =>
      have hswap : ∀ v : BitVec (8 * 1), networkToHost v = v := byteSwap_one
      have h8 : b.peekInt8 = b.peekInt 1 := by simp only [peekInt8, peekInt, hswap, bind_pure]
      rw [peekTyped, h8]
      rfl
  | int16 => rfl
  | int32 => rfl
  | int64 => rfl

/-- Every `readIntN` but `readInt8` is the peek and the retrieve. -/
lemma readTyped_eq (hw : w ≠ .int8) :
    b.readTyped w = do
      let x ← b.peekTyped w
      let b ← b.retrieve w.bytes
      return (x, b) := by
  cases w with
  | int8 => exact absurd rfl hw
  | int16 => simp only [readTyped, readInt16, readInt, peekTyped, peekInt16, bind_assoc, pure_bind,
      retrieveInt, Width.bytes]
  | int32 => simp only [readTyped, readInt32, readInt, peekTyped, peekInt32, bind_assoc, pure_bind,
      retrieveInt, Width.bytes]
  | int64 => simp only [readTyped, readInt64, readInt, peekTyped, peekInt64, bind_assoc, pure_bind,
      retrieveInt, Width.bytes]

/-- With a byte behind it, the integer at the front of the buffer can be peeked at. -/
lemma peekTyped_spec (h : b.Represents q) {rest : List UInt8} (hq : q.bytes = x.text ++ rest)
    (hrest : rest ≠ []) : b.peekTyped x.width = .ok x := by
  have hlen : q.bytes.length = x.width.bytes + rest.length := by
    rw [hq, List.length_append, x.length_text]
  have hpos : 0 < rest.length := List.length_pos_iff.mpr hrest
  have hlt : x.width.bytes < b.readableBytes := by
    rw [h.readableBytes_eq]
    omega
  have htake : q.bytes.take x.width.bytes = x.text := by
    rw [hq, ← x.length_text, List.take_left]
  rw [peekTyped_eq, peekInt, assertThat_pos hlt, bind_ok, peekMemory,
    copyOut_peek h (by omega), bind_ok, pure_eq_ok, bind_ok, pure_eq_ok, bind_ok, pure_eq_ok,
    htake, TypedInt.text, ofMemory_bigEndian, networkToHost_hostToNetwork]

/-! ## Appending and reading back -/

/-- **Read back with something behind.**  Integers of 16, 32 and 64 bits are read back as they were
appended as long as there is another byte in the buffer. -/
theorem readAll_of_trailing (h : b.Represents q) {xs : List TypedInt} {rest : List UInt8}
    (hq : q.bytes = xs.flatMap TypedInt.text ++ rest) (hrest : rest ≠ [])
    (hxs : ∀ x ∈ xs, x.width ≠ .int8) :
    ∃ b', b.readAll (xs.map TypedInt.width) = .ok (xs, b') ∧ b'.toList = rest := by
  induction xs generalizing b q with
  | nil => exact ⟨b, rfl, by rw [h.toList_eq, hq]; rfl⟩
  | cons x xs ih =>
      have hq' : q.bytes = x.text ++ (xs.flatMap TypedInt.text ++ rest) := by
        rw [hq, List.flatMap_cons, List.append_assoc]
      have hpeek : b.peekTyped x.width = .ok x := peekTyped_spec h hq' (by simp [hrest])
      have hlen : x.width.bytes ≤ q.bytes.length := by
        rw [hq', List.length_append, x.length_text]
        omega
      obtain ⟨b₁, hret, hrep⟩ := retrieve_spec h hlen
      have hdrop : (q.drop x.width.bytes).bytes = xs.flatMap TypedInt.text ++ rest := by
        rw [ByteQueue.drop, hq', ← x.length_text, List.drop_left]
      obtain ⟨b', hb', hrest'⟩ := ih hrep hdrop fun y hy => hxs y (List.mem_cons_of_mem _ hy)
      refine ⟨b', ?_, hrest'⟩
      rw [List.map_cons, readAll, readTyped_eq (hxs x List.mem_cons_self), hpeek]
      simp only [bind_ok, hret, hb', pure_eq_ok]

end Buffer

end Seenet
