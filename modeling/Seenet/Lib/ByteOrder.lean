import Mathlib.Data.List.Basic
import Mathlib.Data.Nat.ModEq
import Mathlib.Tactic.Ring
import Mathlib.Tactic.NormNum

/-!
# Byte order

A machine word of `n` bytes, its image in the memory of a little-endian machine, and the swap
that turns it into network order.

* `memoryImage`, `ofMemory` — the bytes of a word, least significant first, and the word with given
  bytes; each undoes the other (`ofMemory_memoryImage`, `memoryImage_ofMemory`).
* `byteSwap` — the word with its bytes in the other order; it undoes itself.
* `bigEndian` — the specification: byte `k` of `n` is the word shifted right by `n - 1 - k` bytes.
* **`memoryImage_byteSwap`** — the memory image of a swapped word is the big-endian text of the
  word, which is all that `htobe` is for.
-/

namespace ByteOrder

/-! ## Numbers and their bytes -/

/-- The `n` low bytes of `v`, least significant first. -/
def leBytes : ℕ → ℕ → List UInt8
  | 0, _ => []
  | n + 1, v => UInt8.ofNat v :: leBytes n (v / 256)

/-- The number with the given bytes, least significant first. -/
def ofLeBytes : List UInt8 → ℕ
  | [] => 0
  | b :: bs => b.toNat + 256 * ofLeBytes bs

@[simp] lemma length_leBytes (n v : ℕ) : (leBytes n v).length = n := by
  induction n generalizing v with
  | zero => rfl
  | succ n ih => rw [leBytes, List.length_cons, ih]

lemma ofLeBytes_leBytes (n v : ℕ) : ofLeBytes (leBytes n v) = v % 256 ^ n := by
  induction n generalizing v with
  | zero => rw [leBytes, ofLeBytes, pow_zero, Nat.mod_one]
  | succ n ih =>
      have hbyte : (UInt8.ofNat v).toNat = v % 256 := UInt8.toNat_ofNat'
      rw [leBytes, ofLeBytes, ih, hbyte, pow_succ']
      exact (Nat.mod_mul).symm

lemma ofLeBytes_lt (l : List UInt8) : ofLeBytes l < 256 ^ l.length := by
  induction l with
  | nil => simp [ofLeBytes]
  | cons b bs ih =>
      have hb : b.toNat < 256 := b.toNat_lt
      rw [ofLeBytes, List.length_cons, pow_succ]
      omega

lemma leBytes_ofLeBytes (l : List UInt8) : leBytes l.length (ofLeBytes l) = l := by
  induction l with
  | nil => rfl
  | cons b bs ih =>
      have hb : b.toNat < 256 := b.toNat_lt
      have hhead : UInt8.ofNat (b.toNat + 256 * ofLeBytes bs) = b := by
        apply UInt8.toNat_inj.mp
        rw [UInt8.toNat_ofNat']
        omega
      have htail : (b.toNat + 256 * ofLeBytes bs) / 256 = ofLeBytes bs := by omega
      rw [List.length_cons, leBytes, ofLeBytes, hhead, htail, ih]

lemma getElem?_leBytes (n v k : ℕ) :
    (leBytes n v)[k]? = if k < n then some (UInt8.ofNat (v / 256 ^ k)) else none := by
  induction n generalizing v k with
  | zero => simp [leBytes]
  | succ n ih =>
      cases k with
      | zero => simp [leBytes]
      | succ k =>
          rw [leBytes, List.getElem?_cons_succ, ih, Nat.div_div_eq_div_mul, ← pow_succ']
          simp only [Nat.add_lt_add_iff_right]

/-! ## Words in memory -/

/-- The bytes of a word, as a little-endian machine keeps them. -/
def memoryImage {n : ℕ} (x : BitVec (8 * n)) : List UInt8 := leBytes n x.toNat

/-- The word whose memory image is the given bytes. -/
def ofMemory (n : ℕ) (l : List UInt8) : BitVec (8 * n) := BitVec.ofNat (8 * n) (ofLeBytes l)

/-- The word with its bytes in the other order. -/
def byteSwap {n : ℕ} (x : BitVec (8 * n)) : BitVec (8 * n) := ofMemory n (memoryImage x).reverse

/-- The big-endian text of a word: most significant byte first. -/
def bigEndian {n : ℕ} (x : BitVec (8 * n)) : List UInt8 :=
  (List.range n).map fun k => UInt8.ofNat (x.toNat / 256 ^ (n - 1 - k))

@[simp] lemma length_memoryImage {n : ℕ} (x : BitVec (8 * n)) : (memoryImage x).length = n :=
  length_leBytes n x.toNat

@[simp] lemma length_bigEndian {n : ℕ} (x : BitVec (8 * n)) : (bigEndian x).length = n := by
  rw [bigEndian, List.length_map, List.length_range]

lemma pow_bytes (n : ℕ) : 256 ^ n = 2 ^ (8 * n) := by
  rw [pow_mul]
  norm_num

/-- Reading back the memory image of a word gives the word. -/
@[simp] lemma ofMemory_memoryImage {n : ℕ} (x : BitVec (8 * n)) :
    ofMemory n (memoryImage x) = x := by
  apply BitVec.eq_of_toNat_eq
  have hx : x.toNat < 2 ^ (8 * n) := x.isLt
  rw [ofMemory, memoryImage, BitVec.toNat_ofNat, ofLeBytes_leBytes, pow_bytes,
    Nat.mod_mod, Nat.mod_eq_of_lt hx]

/-- Any `n` bytes are the memory image of the word read from them. -/
lemma memoryImage_ofMemory {n : ℕ} {l : List UInt8} (h : l.length = n) :
    memoryImage (ofMemory n l) = l := by
  have hlt : ofLeBytes l < 2 ^ (8 * n) := by
    rw [← pow_bytes, ← h]
    exact ofLeBytes_lt l
  rw [memoryImage, ofMemory, BitVec.toNat_ofNat, Nat.mod_eq_of_lt hlt, ← h, leBytes_ofLeBytes]

/-- The text of a word, most significant byte first, is its memory image reversed. -/
lemma reverse_memoryImage {n : ℕ} (x : BitVec (8 * n)) : (memoryImage x).reverse = bigEndian x := by
  apply List.ext_getElem?
  intro k
  rcases Nat.lt_or_ge k n with h | h
  · rw [List.getElem?_reverse (by rw [length_memoryImage]; exact h), length_memoryImage,
      memoryImage, getElem?_leBytes, if_pos (by omega), bigEndian, List.getElem?_map,
      List.getElem?_range h, Option.map_some]
  · rw [List.getElem?_eq_none (by rw [List.length_reverse, length_memoryImage]; exact h),
      List.getElem?_eq_none (by rw [length_bigEndian]; exact h)]

/-- A single byte has no order. -/
lemma memoryImage_one (x : BitVec (8 * 1)) : memoryImage x = bigEndian x := by
  obtain ⟨byte, hbyte⟩ := List.length_eq_one_iff.mp (length_memoryImage x)
  rw [← reverse_memoryImage, hbyte, List.reverse_singleton]

/-- **The memory image of a swapped word is its big-endian text.** -/
lemma memoryImage_byteSwap {n : ℕ} (x : BitVec (8 * n)) :
    memoryImage (byteSwap x) = bigEndian x := by
  rw [byteSwap, memoryImage_ofMemory (by rw [List.length_reverse, length_memoryImage]),
    reverse_memoryImage]

/-- Swapping twice changes nothing. -/
@[simp] lemma byteSwap_byteSwap {n : ℕ} (x : BitVec (8 * n)) : byteSwap (byteSwap x) = x := by
  have h : memoryImage (byteSwap x) = (memoryImage x).reverse := by
    rw [memoryImage_byteSwap, reverse_memoryImage]
  rw [byteSwap, h, List.reverse_reverse, ofMemory_memoryImage]

@[simp] lemma byteSwap_one (x : BitVec (8 * 1)) : byteSwap x = x := by
  rw [byteSwap, reverse_memoryImage, ← memoryImage_one, ofMemory_memoryImage]

end ByteOrder
