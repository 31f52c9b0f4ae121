import Seenet.Buffer.Basic

/-!
# `Buffer` refines a byte queue

What a `Buffer` is for: a queue of bytes, written at its end and read from its front, that also
takes bytes back at its end and accepts a header at its front.  `ByteQueue` is that queue, and
`Buffer.Represents` relates it to the vector and the two positions.

Every operation gets one lemma, of the same form: from a buffer that represents a queue, called
within its precondition, the operation returns, and returns a buffer that represents the queue the
abstract operation gives.  The operations that may have to allocate return or throw (`Allocates`).
None of the lemmas needs the wrapping arithmetic again: `Wf` bounds the positions by the size of
the vector, and the size by `max_size()`.

* `makeSpace_spec`, **`ensureWritableBytes_spec`** — the compaction and the growth branch.
* `append_spec`, and `append_represents`, which needs no bound on the length: an append that returns
  has appended.
* `ensureWritableBytes_badAlloc_iff` — when the vector cannot grow, and `GrowthRefused`, which is that for
  lengths whose sums fit.
-/

namespace Seenet

open Region

/-! ## The queue -/

/-- The bytes in the queue, and whether a header was ever put before them. -/
structure ByteQueue where
  bytes : List UInt8
  prepended : Bool
  deriving DecidableEq, Repr

namespace ByteQueue

def empty : ByteQueue := ⟨[], false⟩
def append (q : ByteQueue) (data : List UInt8) : ByteQueue := { q with bytes := q.bytes ++ data }
def prepend (q : ByteQueue) (data : List UInt8) : ByteQueue := ⟨data ++ q.bytes, true⟩
def drop (q : ByteQueue) (n : ℕ) : ByteQueue := { q with bytes := q.bytes.drop n }
def dropLast (q : ByteQueue) (n : ℕ) : ByteQueue :=
  { q with bytes := q.bytes.take (q.bytes.length - n) }
def clear (q : ByteQueue) : ByteQueue := { q with bytes := [] }

end ByteQueue

namespace Buffer

/-! ## The invariant -/

/-- The positions are in order and within the vector, and the vector is one that can exist. -/
structure Wf (b : Buffer) : Prop where
  reader_le : b.readerIndex ≤ b.wirterIndex
  wirter_le : b.wirterIndex ≤ b.buff.length
  prepend_le : kCheapPrepend ≤ b.buff.length
  length_lt : b.buff.length < 2 ^ 63

/-- `b` holds the bytes of `q`, and has its cheap prepend space as long as nothing was prepended. -/
structure Represents (b : Buffer) (q : ByteQueue) : Prop where
  wf : b.Wf
  toList_eq : b.toList = q.bytes
  cheap : q.prepended = false → kCheapPrepend ≤ b.readerIndex

variable {b : Buffer} {q : ByteQueue} {mem : Memory}

lemma Wf.readableBytes_eq (h : b.Wf) : b.readableBytes = b.wirterIndex - b.readerIndex := by
  have h1 := h.wirter_le
  have h2 := h.length_lt
  exact sizeSub_eq h.reader_le (by omega)

lemma Wf.wirtableBytes_eq (h : b.Wf) : b.wirtableBytes = b.buff.length - b.wirterIndex := by
  have h2 := h.length_lt
  exact sizeSub_eq h.wirter_le (by omega)

/-- The readable bytes are as many as `readableBytes()` says. -/
lemma Wf.length_toList (h : b.Wf) : b.toList.length = b.readableBytes := by
  rw [h.readableBytes_eq, toList, length_region h.wirter_le]

lemma Represents.readableBytes_eq (h : b.Represents q) : b.readableBytes = q.bytes.length := by
  rw [← h.wf.length_toList, h.toList_eq]

/-! ## The vector -/

lemma resize_ok_lt {l l' : List UInt8} {n : ℕ} (hl : l.length < 2 ^ 63)
    (h : resize mem l n = .ok l') : l'.length < 2 ^ 63 := by
  rw [resize] at h
  split_ifs at h with h1 h2
  · rw [Except.ok.injEq] at h
    rw [← h, List.length_take]
    omega
  · have hn := mem.lt_max n h2
    rw [Except.ok.injEq] at h
    rw [← h, List.length_append, List.length_replicate]
    omega

/-- Growing the vector keeps what it holds. -/
lemma resize_grow (mem : Memory) {l : List UInt8} {n : ℕ} (hn : l.length ≤ n) :
    resize mem l n = .error .badAlloc ∨
      ∃ t, resize mem l n = .ok (l ++ t) ∧ (l ++ t).length = n ∧
        (l.length < 2 ^ 63 → n < 2 ^ 63) := by
  rw [resize]
  split_ifs with h1 h2
  · right
    have heq : n = l.length := by omega
    refine ⟨[], ?_, ?_, ?_⟩
    · rw [heq, List.take_length, List.append_nil]
    · rw [heq, List.append_nil]
    · exact fun h => heq ▸ h
  · right
    refine ⟨List.replicate (n - l.length) 0, rfl, ?_, fun _ => mem.lt_max n h2⟩
    rw [List.length_append, List.length_replicate]
    omega
  · exact Or.inl rfl

/-! ## Construction -/

/-- A new buffer, of a size the allocator accepts. -/
lemma create_eq {n : ℕ} (hn : mem.fits (kCheapPrepend + n) = true) :
    create mem n = .ok ⟨List.replicate (kCheapPrepend + n) 0, kCheapPrepend, kCheapPrepend⟩ ∧
      Wf ⟨List.replicate (kCheapPrepend + n) 0, kCheapPrepend, kCheapPrepend⟩ := by
  have hlt : kCheapPrepend + n < 2 ^ 63 := mem.lt_max _ hn
  have hsum : sizeAdd kCheapPrepend n = kCheapPrepend + n := sizeAdd_eq (by omega)
  have hlen : (List.replicate (kCheapPrepend + n) (0 : UInt8)).length = kCheapPrepend + n :=
    List.length_replicate
  have hpos : 0 < kCheapPrepend + n := by simp only [kCheapPrepend]; omega
  have hresize : resize mem [] (kCheapPrepend + n)
      = .ok (List.replicate (kCheapPrepend + n) 0) := by
    rw [resize, List.length_nil, if_neg (by omega), if_pos hn, List.nil_append, Nat.sub_zero]
  have hwf : Wf ⟨List.replicate (kCheapPrepend + n) 0, kCheapPrepend, kCheapPrepend⟩ :=
    ⟨le_refl _, by simp only [hlen]; omega, by simp only [hlen]; omega, by simp only [hlen]; omega⟩
  have h1 := hwf.readableBytes_eq
  have h2 := hwf.wirtableBytes_eq
  simp only [Nat.sub_self, hlen, Nat.add_sub_cancel_left] at h1 h2
  refine ⟨?_, hwf⟩
  simp only [create, hsum, hresize, bind_ok, h1, h2, prependableBytes, assertThat_pos, pure_eq_ok]

/-- It is empty. -/
lemma create_spec {n : ℕ} (hn : mem.fits (kCheapPrepend + n) = true) :
    ∃ b, create mem n = .ok b ∧ b.Represents .empty := by
  obtain ⟨hcreate, hwf⟩ := create_eq hn
  refine ⟨_, hcreate, hwf, ?_, fun _ => le_refl _⟩
  simp [toList, ByteQueue.empty]

/-- Of a size that the allocator does not accept there is none. -/
lemma create_badAlloc {n : ℕ} (hsum : kCheapPrepend + n < 2 ^ 64)
    (hn : mem.fits (kCheapPrepend + n) = false) : create mem n = .error .badAlloc := by
  have hpos : ¬ kCheapPrepend + n ≤ 0 := by simp only [kCheapPrepend]; omega
  have hres : resize mem [] (kCheapPrepend + n) = .error .badAlloc := by
    rw [resize, List.length_nil, if_neg hpos, if_neg (by rw [hn]; decide)]
  simp only [create, sizeAdd_eq hsum, hres, bind_error]

/-! ## Taking bytes out -/

lemma retrieveAll_represents (h : b.Represents q) : b.retrieveAll.Represents q.clear := by
  refine ⟨⟨le_refl _, h.wf.prepend_le, h.wf.prepend_le, h.wf.length_lt⟩, ?_, fun _ => le_refl _⟩
  simp [toList, retrieveAll, ByteQueue.clear]

lemma retrieve_spec (h : b.Represents q) {len : ℕ} (hlen : len ≤ q.bytes.length) :
    ∃ b', b.retrieve len = .ok b' ∧ b'.Represents (q.drop len) := by
  have hread := h.readableBytes_eq
  have hidx := h.wf.readableBytes_eq
  rw [retrieve, assertThat_pos (by omega), bind_ok]
  split_ifs with hlt
  · refine ⟨_, rfl, ?_⟩
    have h1 := h.wf.wirter_le
    have h2 := h.wf.length_lt
    have hsum : sizeAdd b.readerIndex len = b.readerIndex + len := sizeAdd_eq (by omega)
    refine ⟨⟨by simp only [hsum]; omega, h1, h.wf.prepend_le, h2⟩, ?_, ?_⟩
    · rw [toList, hsum, ← drop_region, ByteQueue.drop, ← h.toList_eq, toList]
    · intro hp
      have hcheap := h.cheap hp
      simp only [hsum]
      omega
  · refine ⟨_, rfl, ?_⟩
    have hall : q.drop len = q.clear := by
      rw [ByteQueue.drop, ByteQueue.clear, List.drop_eq_nil_of_le (by omega)]
    rw [hall]
    exact retrieveAll_represents h

/-- `retrieveUntil` is `retrieve` of the bytes before the position. -/
lemma retrieveUntil_spec (h : b.Represents q) {endp : ℕ} (h1 : b.peek ≤ endp)
    (h2 : endp ≤ b.beginWrite) :
    ∃ b', b.retrieveUntil endp = .ok b' ∧ b'.Represents (q.drop (endp - b.peek)) := by
  rw [retrieveUntil, assertThat_pos h1, bind_ok, assertThat_pos h2, bind_ok]
  refine retrieve_spec h ?_
  rw [← h.readableBytes_eq, h.wf.readableBytes_eq]
  exact Nat.sub_le_sub_right h2 _

/-- What lies behind `peek()` is the front of the queue. -/
lemma copyOut_peek (h : b.Represents q) {len : ℕ} (hlen : len ≤ q.bytes.length) :
    copyOut b.buff b.peek (b.peek + len) = .ok (q.bytes.take len) := by
  have hread := h.readableBytes_eq
  have hidx := h.wf.readableBytes_eq
  have hr := h.wf.reader_le
  have hw := h.wf.wirter_le
  rw [copyOut, peek, if_pos ⟨by omega, by omega⟩, ← h.toList_eq, toList, take_region _ (by omega)]

/-- The string returned is the front of the queue. -/
lemma retrieveAllAsString_spec (h : b.Represents q) {len : ℕ} (hlen : len ≤ q.bytes.length) :
    ∃ b', b.retrieveAllAsString len = .ok (q.bytes.take len, b') ∧ b'.Represents (q.drop len) := by
  have hread := h.readableBytes_eq
  obtain ⟨b', hb', hrep⟩ := retrieve_spec h hlen
  refine ⟨b', ?_, hrep⟩
  rw [retrieveAllAsString, assertThat_pos (by omega), bind_ok, copyOut_peek h hlen, bind_ok, hb',
    bind_ok, pure_eq_ok]

lemma unwrite_spec (h : b.Represents q) {len : ℕ} (hlen : len ≤ q.bytes.length) :
    ∃ b', b.unwrite len = .ok b' ∧ b'.Represents (q.dropLast len) := by
  have hread := h.readableBytes_eq
  have hidx := h.wf.readableBytes_eq
  have h1 := h.wf.reader_le
  have h2 := h.wf.wirter_le
  have h3 := h.wf.length_lt
  have hsub : sizeSub b.wirterIndex len = b.wirterIndex - len := sizeSub_eq (by omega) (by omega)
  rw [unwrite, assertThat_pos (by omega), bind_ok]
  refine ⟨_, rfl, ⟨?_, ?_, h.wf.prepend_le, h3⟩, ?_, h.cheap⟩
  · simp only [hsub]; omega
  · simp only [hsub]; omega
  · have hend : b.readerIndex + (b.wirterIndex - b.readerIndex - len) = b.wirterIndex - len := by
      omega
    simp only [toList, ByteQueue.dropLast, ← h.toList_eq, hsub]
    rw [length_region h2, take_region _ (by omega), hend]

/-! ## Making room -/

/-- The outcome of an operation that may have to allocate: it throws, or it returns a buffer that
satisfies `P`. -/
def Allocates (r : Res Buffer) (P : Buffer → Prop) : Prop :=
  r = .error .badAlloc ∨ ∃ b', r = .ok b' ∧ P b'

/-- The sums that `makeSpace(len)` computes do not overflow `size_t`. -/
def SumsFit (b : Buffer) (len : ℕ) : Prop :=
  len + kCheapPrepend < 2 ^ 64 ∧ b.wirterIndex + len < 2 ^ 64

lemma makeSpace_spec (mem : Memory) (h : b.Represents q) {len : ℕ} (hsum : b.SumsFit len)
    (hfull : b.wirtableBytes < len) :
    Allocates (b.makeSpace mem len) fun b' => b'.Represents q ∧ len ≤ b'.wirtableBytes := by
  have h1 := h.wf.reader_le
  have h2 := h.wf.wirter_le
  have h3 := h.wf.length_lt
  have h4 := h.wf.prepend_le
  have hwr := h.wf.wirtableBytes_eq
  have hrd := h.wf.readableBytes_eq
  have hs1 : sizeAdd len kCheapPrepend = len + kCheapPrepend := sizeAdd_eq hsum.1
  have hs2 : sizeAdd b.wirterIndex len = b.wirterIndex + len := sizeAdd_eq hsum.2
  have hs3 : sizeAdd b.wirtableBytes b.prependableBytes = b.wirtableBytes + b.readerIndex :=
    sizeAdd_eq (by simp only [prependableBytes]; omega)
  simp only [makeSpace, hs1, hs2, hs3]
  split_ifs with hgrow
  · -- the growth branch: the dead prefix stays, the vector ends `len` bytes behind the writer
    rcases resize_grow mem (l := b.buff) (n := b.wirterIndex + len) (by omega) with
      he | ⟨t, ht, hlen, hlt⟩
    · exact Or.inl (by rw [he, bind_error])
    · refine Or.inr ⟨⟨b.buff ++ t, b.readerIndex, b.wirterIndex⟩, by rw [ht]; rfl, ?_, ?_⟩
      · refine ⟨⟨h1, by simp only [hlen]; omega, by simp only [hlen]; omega, by
          simp only [hlen]; exact hlt h3⟩, ?_, h.cheap⟩
        rw [← h.toList_eq, toList, toList, region_append_left t h2]
      · have hn := hlt h3
        simp only [wirtableBytes, hlen]
        rw [sizeSub_eq (by omega) (by omega)]
        omega
  · -- the compaction branch: there is room before the reader, so it is past the cheap prepend
    have hpast : kCheapPrepend < b.readerIndex := by omega
    have hcopy : copyOut b.buff b.readerIndex b.wirterIndex = .ok b.toList :=
      if_pos ⟨h1, h2⟩
    have hlist : b.toList.length = b.wirterIndex - b.readerIndex := length_region h2
    have hfit : kCheapPrepend + b.toList.length ≤ b.buff.length := by omega
    have hs4 : sizeAdd kCheapPrepend b.readableBytes = kCheapPrepend + b.toList.length := by
      rw [hrd, ← hlist]
      exact sizeAdd_eq (by omega)
    have hsize := length_overwrite hfit
    have hwf : Wf ⟨overwrite b.buff kCheapPrepend b.toList, kCheapPrepend,
        kCheapPrepend + b.toList.length⟩ :=
      ⟨Nat.le_add_right _ _, by simp only [hsize]; exact hfit, by simp only [hsize]; exact h4,
        by simp only [hsize]; exact h3⟩
    have hrd' := hwf.readableBytes_eq
    have hwr' := hwf.wirtableBytes_eq
    simp only [hsize, Nat.add_sub_cancel_left] at hrd' hwr'
    right
    refine ⟨_, ?_, ⟨hwf, ?_, fun _ => le_refl _⟩, ?_⟩
    · rw [assertThat_pos hpast, bind_ok, hcopy, bind_ok, copyIn, if_pos hfit, bind_ok, hs4,
        hrd', assertThat_pos (by omega), bind_ok, pure_eq_ok]
    · rw [toList, region_overwrite_self b.toList h4, h.toList_eq]
    · rw [hwr']
      omega

/-- Where there is room already, nothing is done. -/
lemma ensureWritableBytes_of_room {len : ℕ} (hroom : len ≤ b.wirtableBytes) :
    b.ensureWritableBytes mem len = .ok b := by
  have hfull : ¬ b.wirtableBytes < len := Nat.not_lt.mpr hroom
  rw [ensureWritableBytes, if_neg hfull]
  simp only [bind_ok, assertThat_pos hroom, pure_eq_ok]

/-- **`ensureWritableBytes`** changes no readable byte and leaves at least `len` writable ones. -/
lemma ensureWritableBytes_spec (mem : Memory) (h : b.Represents q) {len : ℕ} (hsum : b.SumsFit len) :
    Allocates (b.ensureWritableBytes mem len) fun b' =>
      b'.Represents q ∧ len ≤ b'.wirtableBytes := by
  rcases Nat.lt_or_ge b.wirtableBytes len with hfull | hroom
  · rw [ensureWritableBytes, if_pos hfull]
    rcases makeSpace_spec mem h hsum hfull with he | ⟨b', hb', hrep, hroom⟩
    · exact Or.inl (by simp only [he, bind_error])
    · refine Or.inr ⟨b', ?_, hrep, hroom⟩
      simp only [hb', bind_ok, assertThat_pos hroom, pure_eq_ok]
  · exact Or.inr ⟨b, ensureWritableBytes_of_room hroom, h, hroom⟩

/-! ## Putting bytes in -/

/-- What is written and counted. -/
lemma Wf.writeDirect_eq (h : b.Wf) {data : List UInt8} (hlen : data.length ≤ b.wirtableBytes) :
    b.writeDirect data
      = .ok ⟨overwrite b.buff b.wirterIndex data, b.readerIndex, b.wirterIndex + data.length⟩ ∧
    b.wirterIndex + data.length ≤ b.buff.length := by
  have h2 := h.wirter_le
  have h3 := h.length_lt
  have hwr := h.wirtableBytes_eq
  have hfit : b.wirterIndex + data.length ≤ b.buff.length := by omega
  have hsum : sizeAdd b.wirterIndex data.length = b.wirterIndex + data.length :=
    sizeAdd_eq (by omega)
  have hroom : data.length ≤ wirtableBytes ⟨overwrite b.buff b.wirterIndex data, b.readerIndex,
      b.wirterIndex⟩ := by
    simp only [wirtableBytes, length_overwrite hfit] at hlen ⊢
    exact hlen
  refine ⟨?_, hfit⟩
  rw [writeDirect, copyIn, beginWrite, if_pos hfit, bind_ok, hasWritten, assertThat_pos hroom,
    bind_ok, pure_eq_ok, hsum]

/-- It is behind the bytes there were. -/
lemma Represents.written (h : b.Represents q) {data : List UInt8} (hlen : data.length ≤ b.wirtableBytes) :
    Represents ⟨overwrite b.buff b.wirterIndex data, b.readerIndex, b.wirterIndex + data.length⟩
      (q.append data) := by
  have h1 := h.wf.reader_le
  have h2 := h.wf.wirter_le
  obtain ⟨-, hfit⟩ := h.wf.writeDirect_eq hlen
  have hsize := length_overwrite hfit
  refine ⟨⟨?_, ?_, ?_, ?_⟩, ?_, h.cheap⟩
  · exact le_trans h1 (Nat.le_add_right _ _)
  · simp only [hsize]; exact hfit
  · simp only [hsize]; exact h.wf.prepend_le
  · simp only [hsize]; exact h.wf.length_lt
  · simp only [toList, ByteQueue.append]
    rw [← region_append_region _ h1 (Nat.le_add_right _ data.length) (by rw [hsize]; exact hfit),
      region_overwrite_of_le data h2 (le_refl _), region_overwrite_self data h2, ← h.toList_eq,
      toList]

lemma writeDirect_spec (h : b.Represents q) {data : List UInt8}
    (hlen : data.length ≤ b.wirtableBytes) :
    ∃ b', b.writeDirect data = .ok b' ∧ b'.Represents (q.append data) :=
  ⟨_, (h.wf.writeDirect_eq hlen).1, h.written hlen⟩

lemma append_spec (mem : Memory) (h : b.Represents q) {data : List UInt8} (hsum : b.SumsFit data.length) :
    Allocates (b.append mem data) fun b' => b'.Represents (q.append data) := by
  rw [append]
  rcases ensureWritableBytes_spec mem h hsum with he | ⟨b₁, hb₁, hrep, hroom⟩
  · exact Or.inl (by rw [he, bind_error])
  · obtain ⟨b', hb', hrep'⟩ := writeDirect_spec hrep hroom
    exact Or.inr ⟨b', by rw [hb₁, bind_ok, hb'], hrep'⟩

lemma copyIn_ok {l d l' : List UInt8} {p : ℕ} (h : copyIn l p d = .ok l') :
    p + d.length ≤ l.length ∧ l'.length = l.length := by
  rw [copyIn] at h
  split_ifs at h with hfit
  rw [Except.ok.injEq] at h
  rw [← h]
  exact ⟨hfit, length_overwrite hfit⟩

/-- Whatever length it was asked for, a vector that came out of `ensureWritableBytes` exists. -/
lemma ensureWritableBytes_length_lt {b' : Buffer} {len : ℕ} (hlt : b.buff.length < 2 ^ 63)
    (h : b.ensureWritableBytes mem len = .ok b') : b'.buff.length < 2 ^ 63 := by
  rw [ensureWritableBytes] at h
  split_ifs at h with hfull
  · simp only [bind_eq_ok, assertThat_eq_ok, pure_eq_ok, Except.ok.injEq] at h
    obtain ⟨b₁, h₁, -, -, rfl⟩ := h
    rw [makeSpace] at h₁
    split_ifs at h₁ with hgrow
    · simp only [bind_eq_ok, pure_eq_ok, Except.ok.injEq] at h₁
      obtain ⟨buff, hbuff, rfl⟩ := h₁
      exact resize_ok_lt hlt hbuff
    · simp only [bind_eq_ok, assertThat_eq_ok, pure_eq_ok, Except.ok.injEq] at h₁
      obtain ⟨-, -, data, -, buff, hbuff, -, -, rfl⟩ := h₁
      have hsize : buff.length = b.buff.length := (copyIn_ok hbuff).2
      simp only [hsize]
      exact hlt
  · simp only [bind_eq_ok, assertThat_eq_ok, pure_eq_ok, Except.ok.injEq] at h
    obtain ⟨b₁, rfl, -, -, rfl⟩ := h
    exact hlt

/-- **An append that returns has appended**, whatever the length. -/
lemma append_represents (h : b.Represents q) {data : List UInt8} {b' : Buffer}
    (happ : b.append mem data = .ok b') : b'.Represents (q.append data) := by
  have hsum : b.SumsFit data.length := by
    have happ' := happ
    rw [append, bind_eq_ok] at happ'
    obtain ⟨b₁, h₁, hw⟩ := happ'
    rw [writeDirect, bind_eq_ok] at hw
    obtain ⟨buff, hbuff, -⟩ := hw
    have hlt : b₁.buff.length < 2 ^ 63 := ensureWritableBytes_length_lt h.wf.length_lt h₁
    have hfit := (copyIn_ok hbuff).1
    have hwirter := h.wf.wirter_le
    have hlen := h.wf.length_lt
    have hdata : data.length < 2 ^ 63 := by omega
    exact ⟨by rw [kCheapPrepend]; omega, by omega⟩
  rcases append_spec mem h hsum with he | ⟨b₂, hok, hrep⟩
  · simp [he] at happ
  · rw [happ, Except.ok.injEq] at hok
    rwa [hok]

lemma prepend_spec (h : b.Represents q) {data : List UInt8}
    (hlen : data.length ≤ b.prependableBytes) :
    ∃ b', b.prepend data = .ok b' ∧ b'.Represents (q.prepend data) := by
  have h1 := h.wf.reader_le
  have h2 := h.wf.wirter_le
  have h3 := h.wf.length_lt
  rw [prependableBytes] at hlen
  have hsub : sizeSub b.readerIndex data.length = b.readerIndex - data.length :=
    sizeSub_eq hlen (by omega)
  have hend : b.readerIndex - data.length + data.length = b.readerIndex := Nat.sub_add_cancel hlen
  have hfit : b.readerIndex - data.length + data.length ≤ b.buff.length := by omega
  have hsize := length_overwrite hfit
  refine ⟨⟨overwrite b.buff (b.readerIndex - data.length) data, b.readerIndex - data.length,
    b.wirterIndex⟩, ?_, ⟨?_, ?_, ?_, ?_⟩, ?_, ?_⟩
  · rw [prepend, prependableBytes, assertThat_pos hlen, bind_ok]
    simp only [hsub, copyIn, if_pos hfit, bind_ok, pure_eq_ok]
  · exact le_trans (Nat.sub_le _ _) h1
  · simp only [hsize]; exact h2
  · simp only [hsize]; exact h.wf.prepend_le
  · simp only [hsize]; exact h3
  · have hfront : region (overwrite b.buff (b.readerIndex - data.length) data)
        (b.readerIndex - data.length) b.readerIndex = data := by
      have hself := region_overwrite_self (l := b.buff) data
        (show b.readerIndex - data.length ≤ b.buff.length by omega)
      rwa [hend] at hself
    simp only [toList, ByteQueue.prepend]
    rw [← region_append_region _ (Nat.sub_le b.readerIndex data.length) h1 (by
      rw [hsize]; exact h2), hfront, region_overwrite_of_ge data (by omega) (by omega),
      ← h.toList_eq, toList]
  · exact fun hp => by simp [ByteQueue.prepend] at hp

/-! ## The vector that cannot grow -/

lemma resize_eq_badAlloc {l : List UInt8} {n : ℕ} :
    resize mem l n = .error .badAlloc ↔ l.length < n ∧ mem.fits n = false := by
  rw [resize]
  split_ifs with hle hfits
  · exact iff_of_false (by simp) fun hlt => absurd hlt.1 (Nat.not_lt.mpr hle)
  · simp [hfits]
  · simp only [true_iff]
    exact ⟨by omega, by simpa using hfits⟩

/-- Moving the bytes to the front throws nothing. -/
lemma compaction_ne_badAlloc {l : List UInt8} {i j p : ℕ} {f : List UInt8 → Res Buffer}
    (hf : ∀ l', f l' ≠ .error .badAlloc) :
    (copyOut l i j >>= fun data => copyIn l p data >>= f) ≠ .error .badAlloc := by
  intro herror
  rcases bind_eq_error.mp herror with hout | ⟨data, -, herror⟩
  · rw [copyOut] at hout
    split_ifs at hout
    simp at hout
  · rcases bind_eq_error.mp herror with hin | ⟨l', -, herror⟩
    · rw [copyIn] at hin
      split_ifs at hin
      simp at hin
    · exact hf l' herror

lemma makeSpace_badAlloc_iff {len : ℕ} :
    b.makeSpace mem len = .error .badAlloc ↔
      sizeAdd b.wirtableBytes b.prependableBytes < sizeAdd len kCheapPrepend ∧
        b.buff.length < sizeAdd b.wirterIndex len ∧ mem.fits (sizeAdd b.wirterIndex len) = false := by
  rw [makeSpace]
  split_ifs with hgrow
  · rw [bind_eq_error, resize_eq_badAlloc]
    simp [hgrow]
  · simp only [hgrow, false_and, iff_false]
    intro herror
    rcases bind_eq_error.mp herror with hassert | ⟨-, -, herror⟩
    · simp [assertThat_eq_error] at hassert
    · refine compaction_ne_badAlloc (fun l' herror => ?_) herror
      rcases bind_eq_error.mp herror with hassert | ⟨-, -, herror⟩
      · simp [assertThat_eq_error] at hassert
      · simp at herror

/-- **When `ensureWritableBytes` throws.** -/
lemma ensureWritableBytes_badAlloc_iff {len : ℕ} :
    b.ensureWritableBytes mem len = .error .badAlloc ↔
      b.wirtableBytes < len ∧
        sizeAdd b.wirtableBytes b.prependableBytes < sizeAdd len kCheapPrepend ∧
        b.buff.length < sizeAdd b.wirterIndex len ∧ mem.fits (sizeAdd b.wirterIndex len) = false := by
  rw [ensureWritableBytes]
  split_ifs with hfull
  · rw [bind_eq_error, makeSpace_badAlloc_iff]
    simp [hfull, bind_eq_error, assertThat_eq_error]
  · simp [hfull, bind_eq_error, assertThat_eq_error]

/-- `append` throws only to make room. -/
lemma append_badAlloc {data : List UInt8} (hthrows : b.append mem data = .error .badAlloc) :
    b.ensureWritableBytes mem data.length = .error .badAlloc := by
  rcases bind_eq_error.mp hthrows with hensure | ⟨b₁, -, hwrite⟩
  · exact hensure
  · rcases bind_eq_error.mp hwrite with hcopy | ⟨buff, -, hwritten⟩
    · rw [copyIn] at hcopy
      split_ifs at hcopy
      simp at hcopy
    · rcases bind_eq_error.mp hwritten with hassert | ⟨-, -, hreturn⟩
      · simp [assertThat_eq_error] at hassert
      · simp at hreturn

/-- The vector has to grow to have room for `len` bytes, and the allocator refuses the size it would have. -/
def GrowthRefused (mem : Memory) (b : Buffer) (len : ℕ) : Prop :=
  b.wirtableBytes < len ∧ b.wirtableBytes + b.prependableBytes < len + kCheapPrepend ∧
    mem.fits (b.wirterIndex + len) = false

instance (mem : Memory) (b : Buffer) (len : ℕ) : Decidable (b.GrowthRefused mem len) :=
  inferInstanceAs (Decidable (_ ∧ _ ∧ _))

/-- Where the sums fit, that is all `ensureWritableBytes` throws for. -/
lemma Wf.ensureWritableBytes_throws (h : b.Wf) {len : ℕ} (hsum : b.SumsFit len) :
    b.ensureWritableBytes mem len = .error .badAlloc ↔ b.GrowthRefused mem len := by
  have hr := h.reader_le
  have hw := h.wirter_le
  have hs := h.length_lt
  have hwr := h.wirtableBytes_eq
  have hs1 : sizeAdd len kCheapPrepend = len + kCheapPrepend := sizeAdd_eq hsum.1
  have hs2 : sizeAdd b.wirterIndex len = b.wirterIndex + len := sizeAdd_eq hsum.2
  have hs3 : sizeAdd b.wirtableBytes b.prependableBytes = b.wirtableBytes + b.prependableBytes :=
    sizeAdd_eq (by simp only [prependableBytes]; omega)
  rw [ensureWritableBytes_badAlloc_iff, hs1, hs2, hs3, GrowthRefused]
  constructor
  · rintro ⟨hfull, hgrow, -, hfits⟩
    exact ⟨hfull, hgrow, hfits⟩
  · rintro ⟨hfull, hgrow, hfits⟩
    exact ⟨hfull, hgrow, by omega, hfits⟩

lemma Wf.append_throws (h : b.Wf) {data : List UInt8} (hsum : b.SumsFit data.length) :
    b.append mem data = .error .badAlloc ↔ b.GrowthRefused mem data.length := by
  rw [← h.ensureWritableBytes_throws hsum]
  constructor
  · exact append_badAlloc
  · intro hthrows
    rw [append, hthrows, bind_error]

/-! ## Without the queue

The same for those who only ask what bytes are in the buffer. -/

lemma Wf.represents (h : b.Wf) : b.Represents ⟨b.toList, true⟩ := ⟨h, rfl, by simp⟩

lemma Wf.append (h : b.Wf) {data : List UInt8} {b' : Buffer}
    (happ : b.append mem data = .ok b') : b'.Wf ∧ b'.toList = b.toList ++ data := by
  have hrep := append_represents h.represents happ
  exact ⟨hrep.wf, hrep.toList_eq⟩

lemma Wf.retrieve (h : b.Wf) {n : ℕ} {b' : Buffer} (hn : n ≤ b.readableBytes)
    (hret : b.retrieve n = .ok b') : b'.Wf ∧ b'.toList = b.toList.drop n := by
  have hlen : n ≤ b.toList.length := by
    rw [h.length_toList]
    exact hn
  obtain ⟨b'', hok, hrep⟩ := retrieve_spec h.represents hlen
  rw [hret, Except.ok.injEq] at hok
  rw [hok]
  exact ⟨hrep.wf, hrep.toList_eq⟩

lemma Wf.readableBytes_eq_zero (h : b.Wf) : b.readableBytes = 0 ↔ b.toList = [] := by
  rw [← h.length_toList, List.length_eq_zero_iff]

/-! ## Reading from a descriptor -/

/-- `readFd` returns the number of bytes that were delivered. -/
lemma readFd_length {b b' : Buffer} {data : List UInt8} {n : Except Errno ℕ}
    (hok : b.readFd mem (.bytes data) = .ok (n, b')) : n = .ok data.length := by
  simp only [readFd] at hok
  generalize (if b.wirtableBytes < extraBufSize then b.wirtableBytes + extraBufSize
    else b.wirtableBytes) = offered at hok
  by_cases hmany : offered < data.length
  · simp [hmany] at hok
  · rw [if_neg hmany] at hok
    obtain ⟨buff, -, hok⟩ := bind_eq_ok.mp hok
    split_ifs at hok with hfits
    · exact (Prod.mk.inj (Except.ok.inj hok)).1.symm
    · obtain ⟨b₁, -, hok⟩ := bind_eq_ok.mp hok
      exact (Prod.mk.inj (Except.ok.inj hok)).1.symm

end Buffer

end Seenet
