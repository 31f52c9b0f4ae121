import Seenet.Kernel
import Seenet.Lib.Region
import Mathlib.Algebra.Group.Int.Defs

/-!
# `Buffer`

The byte buffer of the library: a vector, and two positions in it.  What has been written and not
yet read lies between them.

    | prependable bytes |  readable bytes  |  wirtable bytes  |
    0      <=      readerIndex   <=   wirterIndex    <=     size

Sizes are `size_t` and wrap (`sizeAdd`, `sizeSub`).  A pointer into the vector is the position it
points at.  `std::copy` and the kernel write within the vector or not at all: outside of it the
result is `Stop.outOfBounds`.

The vector grows through `Memory`: which sizes it can take, which is for the allocator to say.
-/

namespace Seenet

open Region

/-- The sizes `std::vector<char>` can be given.  None is above `max_size()`. -/
structure Memory where
  fits : ℕ → Bool
  lt_max : ∀ n, fits n = true → n < 2 ^ 63

structure Buffer where
  buff : List UInt8
  readerIndex : ℕ
  wirterIndex : ℕ
  deriving DecidableEq, Repr

namespace Buffer

def kCheapPrepend : ℕ := 8
def kInitialSize : ℕ := 1024

/-- `"\r\n"` -/
def kCRLF : List UInt8 := [13, 10]

/-! ## The vector -/

/-- `std::vector::resize`: exactly `n` cells, the new ones zero, or an exception and no change. -/
def resize (mem : Memory) (l : List UInt8) (n : ℕ) : Res (List UInt8) :=
  if n ≤ l.length then .ok (l.take n)
  else if mem.fits n then .ok (l ++ List.replicate (n - l.length) 0)
  else .error .badAlloc

/-- The cells between two pointers. -/
def copyOut (l : List UInt8) (i j : ℕ) : Res (List UInt8) :=
  if i ≤ j ∧ j ≤ l.length then .ok (region l i j) else .error .outOfBounds

/-- `d` copied to the position `p`. -/
def copyIn (l : List UInt8) (p : ℕ) (d : List UInt8) : Res (List UInt8) :=
  if p + d.length ≤ l.length then .ok (overwrite l p d) else .error .outOfBounds

/-! ## Observers -/

def readableBytes (b : Buffer) : ℕ := sizeSub b.wirterIndex b.readerIndex
def wirtableBytes (b : Buffer) : ℕ := sizeSub b.buff.length b.wirterIndex
def prependableBytes (b : Buffer) : ℕ := b.readerIndex
def peek (b : Buffer) : ℕ := b.readerIndex
def beginWrite (b : Buffer) : ℕ := b.wirterIndex

/-- The readable bytes. -/
def toList (b : Buffer) : List UInt8 := region b.buff b.readerIndex b.wirterIndex

/-- `Buffer::Buffer(initialSize)` -/
def create (mem : Memory) (initialSize : ℕ) : Res Buffer := do
  let n := sizeAdd kCheapPrepend initialSize
  let buff ← resize mem [] n
  let b : Buffer := ⟨buff, kCheapPrepend, kCheapPrepend⟩
  assertThat (b.readableBytes = 0) .buffer
  assertThat (b.wirtableBytes = initialSize) .buffer
  assertThat (b.prependableBytes = kCheapPrepend) .buffer
  return b

/-! ## Searching -/

/-- `std::search` in the `n` cells from position `first` on: where `pat` begins, or the end. -/
def search (l pat : List UInt8) : ℕ → ℕ → ℕ
  | first, 0 => first
  | first, n + 1 =>
      if pat.length ≤ n + 1 ∧ region l first (first + pat.length) = pat then first
      else search l pat (first + 1) n

/-- `memchr` in the `n` cells from position `first` on. -/
def memchr (l : List UInt8) (c : UInt8) : ℕ → ℕ → Option ℕ
  | _, 0 => none
  | first, n + 1 => if l[first]? = some c then some first else memchr l c (first + 1) n

/-- `findCRLF()` -/
def findCRLF (b : Buffer) : Option ℕ :=
  let crlf := search b.buff kCRLF b.peek (b.beginWrite - b.peek)
  if crlf = b.beginWrite then none else some crlf

/-- `findCRLF(start)` -/
def findCRLFFrom (b : Buffer) (start : ℕ) : Res (Option ℕ) := do
  assertThat (b.peek ≤ start) .findCRLF
  assertThat (start ≤ b.beginWrite) .findCRLF
  let crlf := search b.buff kCRLF start (b.beginWrite - start)
  return if crlf = b.beginWrite then none else some crlf

/-- `findEOL()` -/
def findEOL (b : Buffer) : Option ℕ := memchr b.buff 10 b.peek b.readableBytes

/-- `findEOL(start)` -/
def findEOLFrom (b : Buffer) (start : ℕ) : Res (Option ℕ) := do
  assertThat (b.peek = start) .findEOL
  assertThat (start ≤ b.beginWrite) .findEOL
  return memchr b.buff 10 start (b.beginWrite - start)

/-! ## Taking bytes out -/

def retrieveAll (b : Buffer) : Buffer :=
  { b with readerIndex := kCheapPrepend, wirterIndex := kCheapPrepend }

def retrieve (b : Buffer) (len : ℕ) : Res Buffer := do
  assertThat (len ≤ b.readableBytes) .retrieve
  if len < b.readableBytes then
    return { b with readerIndex := sizeAdd b.readerIndex len }
  else
    return b.retrieveAll

def retrieveUntil (b : Buffer) (endp : ℕ) : Res Buffer := do
  assertThat (b.peek ≤ endp) .retrieveUntil
  assertThat (endp ≤ b.beginWrite) .retrieveUntil
  b.retrieve (endp - b.peek)

/-- The string returned, and the buffer after. -/
def retrieveAllAsString (b : Buffer) (len : ℕ) : Res (List UInt8 × Buffer) := do
  assertThat (len ≤ b.readableBytes) .retrieveAllAsString
  let result ← copyOut b.buff b.peek (b.peek + len)
  let b ← b.retrieve len
  return (result, b)

/-! ## Putting bytes in -/

def makeSpace (mem : Memory) (b : Buffer) (len : ℕ) : Res Buffer := do
  if sizeAdd b.wirtableBytes b.prependableBytes < sizeAdd len kCheapPrepend then
    let buff ← resize mem b.buff (sizeAdd b.wirterIndex len)
    return { b with buff := buff }
  else
    -- move readable data to the front
    assertThat (kCheapPrepend < b.readerIndex) .makeSpace
    let readable := b.readableBytes
    let data ← copyOut b.buff b.readerIndex b.wirterIndex
    let buff ← copyIn b.buff kCheapPrepend data
    let b' : Buffer := ⟨buff, kCheapPrepend, sizeAdd kCheapPrepend readable⟩
    assertThat (readable = b'.readableBytes) .makeSpace
    return b'

def ensureWritableBytes (mem : Memory) (b : Buffer) (len : ℕ) : Res Buffer := do
  let b ← if b.wirtableBytes < len then makeSpace mem b len else pure b
  assertThat (len ≤ b.wirtableBytes) .ensureWritableBytes
  return b

def hasWritten (b : Buffer) (len : ℕ) : Res Buffer := do
  assertThat (len ≤ b.wirtableBytes) .hasWritten
  return { b with wirterIndex := sizeAdd b.wirterIndex len }

def unwrite (b : Buffer) (len : ℕ) : Res Buffer := do
  assertThat (len ≤ b.readableBytes) .unwrite
  return { b with wirterIndex := sizeSub b.wirterIndex len }

/-- The caller writes `data` at `beginWrite()` and then calls `hasWritten`. -/
def writeDirect (b : Buffer) (data : List UInt8) : Res Buffer := do
  let buff ← copyIn b.buff b.beginWrite data
  hasWritten { b with buff := buff } data.length

def append (mem : Memory) (b : Buffer) (data : List UInt8) : Res Buffer := do
  let b ← b.ensureWritableBytes mem data.length
  b.writeDirect data

def prepend (b : Buffer) (data : List UInt8) : Res Buffer := do
  assertThat (data.length ≤ b.prependableBytes) .prepend
  let readerIndex := sizeSub b.readerIndex data.length
  let buff ← copyIn b.buff readerIndex data
  return { b with buff := buff, readerIndex := readerIndex }

/-- `append` of a `std::string_view` into `src`: `view` is its first position and its size. -/
def appendView (mem : Memory) (b src : Buffer) (view : ℕ × ℕ) : Res Buffer := do
  let b ← b.ensureWritableBytes mem view.2
  let data ← copyOut src.buff view.1 (view.1 + view.2)
  b.writeDirect data

/-- The first position and the size of the view.  The size goes through an `int` on its way. -/
def toStringView (b : Buffer) : ℕ × ℕ :=
  (b.peek, ((BitVec.ofNat 32 b.readableBytes).toInt % 2 ^ 64).toNat)

def shrink (mem : Memory) (b : Buffer) (reserve : ℕ) : Res Buffer := do
  let other ← create mem kInitialSize
  let other ← other.ensureWritableBytes mem (sizeAdd b.readableBytes reserve)
  other.appendView mem b b.toStringView

/-! ## Reading from a socket -/

/-- `sizeof(extraBuf)` -/
def extraBufSize : ℕ := 65536

/-- `readFd`: the return value of `readv` or the error saved, and the buffer after.  The kernel fills
the wirtable bytes first and the array on the stack after them, which is offered only when the
former are fewer than the latter. -/
def readFd (mem : Memory) (b : Buffer) : ReadOutcome → Res (Except Errno ℕ × Buffer)
  | .error e => .ok (.error e, b)
  | .bytes data => do
      let writable := b.wirtableBytes
      let offered := if writable < extraBufSize then writable + extraBufSize else writable
      if offered < data.length then throw .disabled
      let buff ← copyIn b.buff b.wirterIndex (data.take writable)
      let b := { b with buff := buff }
      if data.length ≤ writable then
        return (.ok data.length, { b with wirterIndex := sizeAdd b.wirterIndex data.length })
      else
        let b ← append mem { b with wirterIndex := b.buff.length } (data.drop writable)
        return (.ok data.length, b)

end Buffer

end Seenet
