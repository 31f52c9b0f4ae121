import Seenet.Buffer.Refinement

/-!
# Making room

`Spec.lean` says what the operations of a buffer do when the sums they compute fit into `size_t`.  Here is what
is left of the operations that make room, at every size.

* **`ensures_iff`** — `ensureWritableBytes(len)` does what it is for exactly when the two sums do not overflow:
  beyond that it fails an assertion, or makes the vector smaller than the positions in it.
* **`shrinks_iff`** — `shrink` keeps the bytes if there are at most `INT_MAX` of them: `toStringView` has their
  number as an `int`.
* **`readFd_appends`** — `readFd` appends what the kernel delivered, in whichever of the two places.
-/

namespace Seenet

open Region

namespace Buffer

variable {b b' : Buffer} {q : ByteQueue} {mem : Memory} {len : ℕ}

/-! ## `ensureWritableBytes` for every length -/

/-- `ensureWritableBytes(len)` throws, or it returns a buffer with the same readable bytes, at least `len`
wirtable ones, and the positions in order and within the vector. -/
def Ensures (mem : Memory) (b : Buffer) (len : ℕ) : Prop :=
  Allocates (b.ensureWritableBytes mem len) fun b' =>
    len ≤ b'.wirtableBytes ∧ b'.toList = b.toList ∧ b'.readerIndex ≤ b'.wirterIndex ∧
      b'.wirterIndex ≤ b'.buff.length

/-- **`ensureWritableBytes` for every length**: it does what it should if and only if neither
`len + kCheapPrepend` nor `m_wirterIndex + len` overflows. -/
theorem ensures_iff (mem : Memory) (h : b.Wf) (len : BitVec 64) :
    b.Ensures mem len.toNat ↔ b.SumsFit len.toNat := by
  have hlen := len.isLt
  generalize len.toNat = len at hlen
  have hr := h.reader_le
  have hw := h.wirter_le
  have hs := h.length_lt
  have hmin := h.prepend_le
  have hwr := h.wirtableBytes_eq
  constructor
  · rintro (hthrows | ⟨b', hok, hroom, -, -, hw'⟩)
    · -- the vector is asked to grow, so the second sum has not come round
      obtain ⟨hfull, hgrow, hlonger, -⟩ := ensureWritableBytes_badAlloc_iff.mp hthrows
      simp only [sizeAdd, prependableBytes, kCheapPrepend] at hgrow hlonger
      have hsecond : b.wirterIndex + len < 2 ^ 64 := by omega
      refine ⟨?_, hsecond⟩
      simp only [kCheapPrepend] at hmin ⊢
      omega
    · -- there is room for `len` bytes in a vector, so the sums are far from the limit
      have hlt := ensureWritableBytes_length_lt hs hok
      rw [wirtableBytes, sizeSub_eq hw' (by omega)] at hroom
      exact ⟨by rw [kCheapPrepend]; omega, by omega⟩
  · intro hsum
    refine (ensureWritableBytes_spec mem h.represents hsum).imp_right ?_
    rintro ⟨b', hok, hrep, hroom⟩
    exact ⟨b', hok, hroom, hrep.toList_eq, hrep.wf.reader_le, hrep.wf.wirter_le⟩

/-- A hundred bytes are found in a new buffer. -/
theorem ensures_hundred : Ensures ampleMemory ⟨List.replicate 1032 0, 8, 8⟩ 100 := by
  have hlength : (List.replicate 1032 (0 : UInt8)).length = 1032 := List.length_replicate
  have hwf : Wf ⟨List.replicate 1032 0, 8, 8⟩ :=
    ⟨le_refl _, by rw [hlength]; decide, by rw [hlength]; decide, by rw [hlength]; decide⟩
  exact (ensures_iff ampleMemory hwf 100).mpr ⟨by decide, by decide⟩

/-- **No room.**  A new buffer is asked for the length that -4 becomes as a `size_t`, and an assertion fails.
A buffer with 92 readable bytes is asked for `2 ^ 64 - 50`, and its vector gets 50 cells: the writer is beyond
it. -/
theorem not_ensures :
    ((-4 : BitVec 32).signExtend 64).toNat = 2 ^ 64 - 4 ∧
    ensureWritableBytes ampleMemory ⟨List.replicate 1032 0, 8, 8⟩ (2 ^ 64 - 4)
      = .error (.assertFailed .makeSpace) ∧
    ¬ Ensures ampleMemory ⟨List.replicate 1032 0, 8, 8⟩ (2 ^ 64 - 4) ∧
    ensureWritableBytes ampleMemory ⟨List.replicate 1032 0, 8, 100⟩ (2 ^ 64 - 50)
      = .ok ⟨List.replicate 50 0, 8, 100⟩ ∧
    ¬ Ensures ampleMemory ⟨List.replicate 1032 0, 8, 100⟩ (2 ^ 64 - 50) := by
  have hfirst : ensureWritableBytes ampleMemory ⟨List.replicate 1032 0, 8, 8⟩ (2 ^ 64 - 4)
      = .error (.assertFailed .makeSpace) := by
    decide +kernel
  have hsecond : ensureWritableBytes ampleMemory ⟨List.replicate 1032 0, 8, 100⟩ (2 ^ 64 - 50)
      = .ok ⟨List.replicate 50 0, 8, 100⟩ := by
    decide +kernel
  refine ⟨by decide, hfirst, ?_, hsecond, ?_⟩
  · rintro (hthrows | ⟨b', hok, -⟩)
    · exact absurd (Except.error.inj (hfirst.symm.trans hthrows)) (by decide)
    · exact absurd (hfirst.symm.trans hok) nofun
  · rintro (hthrows | ⟨b', hok, -, -, -, hwirter⟩)
    · exact absurd (hsecond.symm.trans hthrows) nofun
    · rw [← Except.ok.inj (hsecond.symm.trans hok), List.length_replicate] at hwirter
      exact absurd hwirter (by decide)

/-! ## `shrink` at every size -/

/-- There is no memory for the new buffer of `shrink(reserve)`. -/
def Refused (mem : Memory) (b : Buffer) (reserve : ℕ) : Prop :=
  mem.fits (kCheapPrepend + kInitialSize) = false ∨
    kInitialSize < b.readableBytes + reserve ∧
      mem.fits (kCheapPrepend + (b.readableBytes + reserve)) = false

/-- `shrink(reserve)` throws for want of memory, or it returns a buffer with the same readable bytes, `reserve`
wirtable ones and the usual space before them. -/
def Shrinks (mem : Memory) (b : Buffer) (reserve : ℕ) : Prop :=
  (b.Refused mem reserve ∧ b.shrink mem reserve = .error .badAlloc) ∨
    ∃ b', b.shrink mem reserve = .ok b' ∧ b'.toList = b.toList ∧ reserve ≤ b'.wirtableBytes ∧
      b'.prependableBytes = kCheapPrepend

/-- The size of the view is an `int`. -/
lemma Wf.toStringView_size_iff (h : b.Wf) : b.toStringView.2 = b.readableBytes ↔ b.readableBytes < 2 ^ 31 := by
  have hlt : b.readableBytes < 2 ^ 63 := by
    have hs := h.length_lt
    have hw := h.wirter_le
    rw [h.readableBytes_eq]
    omega
  rw [toStringView]
  generalize b.readableBytes = n at hlt
  rw [BitVec.toInt_eq_toNat_cond, BitVec.toNat_ofNat]
  split_ifs <;> omega

/-- **`append` of a view** that returns has appended as many bytes as the view has. -/
lemma appendView_spec (h : b.Wf) {src : Buffer} {view : ℕ × ℕ}
    (hok : b.appendView mem src view = .ok b') :
    b'.Wf ∧ b'.toList.length = b.toList.length + view.2 := by
  simp only [appendView, bind_eq_ok] at hok
  obtain ⟨b₁, hensure, data, hcopy, hwrite⟩ := hok
  have hdata : data.length = view.2 := by
    rw [copyOut] at hcopy
    split_ifs at hcopy with hin
    rw [← Except.ok.inj hcopy, length_region hin.2]
    omega
  have happend : b.append mem data = .ok b' := by
    rw [append, hdata, hensure, bind_ok, hwrite]
  obtain ⟨hwf, hlist⟩ := h.append happend
  exact ⟨hwf, by rw [hlist, List.length_append, hdata]⟩

/-- A buffer that has just been made, of the usual size. -/
structure IsNew (other : Buffer) : Prop where
  represents : other.Represents .empty
  readerIndex : other.readerIndex = kCheapPrepend
  wirterIndex : other.wirterIndex = kCheapPrepend
  wirtableBytes : other.wirtableBytes = kInitialSize
  length : other.buff.length = kCheapPrepend + kInitialSize

/-- The buffer that `shrink` begins with. -/
lemma create_isNew (hfits : mem.fits (kCheapPrepend + kInitialSize) = true) :
    ∃ other, create mem kInitialSize = .ok other ∧ other.IsNew := by
  obtain ⟨hcreate, hwf⟩ := create_eq hfits
  have hrep := spec_of_ok (create_spec hfits) hcreate
  have hlen : (List.replicate (kCheapPrepend + kInitialSize) (0 : UInt8)).length
      = kCheapPrepend + kInitialSize := List.length_replicate
  refine ⟨_, hcreate, hrep, rfl, rfl, ?_, hlen⟩
  rw [hwf.wirtableBytes_eq, hlen]
  rfl

/-- A new buffer cannot be moved together. -/
lemma IsNew.ensureWritableBytes_stuck {other : Buffer} (h : other.IsNew) (hlen : len < 2 ^ 64)
    (hsum : ¬ len + kCheapPrepend < 2 ^ 64) :
    other.ensureWritableBytes mem len = .error (.assertFailed .makeSpace) := by
  simp only [kCheapPrepend] at hsum
  have hwrap : ¬ sizeAdd kInitialSize kCheapPrepend < sizeAdd len kCheapPrepend := by
    simp only [sizeAdd, kInitialSize, kCheapPrepend]
    omega
  have hfull : kInitialSize < len := by
    simp only [kInitialSize]
    omega
  have hstuck : ¬ kCheapPrepend < kCheapPrepend := lt_irrefl _
  rw [ensureWritableBytes, h.wirtableBytes, if_pos hfull, makeSpace, h.wirtableBytes, prependableBytes,
    h.readerIndex, if_neg hwrap, assertThat, if_neg hstuck, bind_error, bind_error]

/-- It grows when there is memory. -/
lemma IsNew.ensureWritableBytes_badAlloc_iff {other : Buffer} (h : other.IsNew)
    (hsum : len + kCheapPrepend < 2 ^ 64) :
    other.ensureWritableBytes mem len = .error .badAlloc ↔
      kInitialSize < len ∧ mem.fits (kCheapPrepend + len) = false := by
  have hsum' : kCheapPrepend + len < 2 ^ 64 := by omega
  have hinit : kInitialSize + kCheapPrepend < 2 ^ 64 := by decide
  rw [Buffer.ensureWritableBytes_badAlloc_iff, h.wirtableBytes, prependableBytes, h.readerIndex,
    h.wirterIndex, h.length, sizeAdd_eq hsum, sizeAdd_eq hsum', sizeAdd_eq hinit]
  constructor
  · exact fun hthrows => ⟨hthrows.1, hthrows.2.2.2⟩
  · exact fun hthrows => ⟨hthrows.1, by omega, by omega, hthrows.2⟩

/-- Making room leaves the reader where it is, or moves it to its first place. -/
lemma ensureWritableBytes_readerIndex (hok : b.ensureWritableBytes mem len = .ok b') :
    b'.readerIndex = b.readerIndex ∨ b'.readerIndex = kCheapPrepend := by
  rw [ensureWritableBytes] at hok
  split_ifs at hok
  · simp only [bind_eq_ok, pure_eq_ok, Except.ok.injEq] at hok
    obtain ⟨b₁, hspace, -, -, rfl⟩ := hok
    rw [makeSpace] at hspace
    split_ifs at hspace
    · simp only [bind_eq_ok, pure_eq_ok, Except.ok.injEq] at hspace
      obtain ⟨buff, -, rfl⟩ := hspace
      exact Or.inl rfl
    · simp only [bind_eq_ok, pure_eq_ok, Except.ok.injEq] at hspace
      obtain ⟨-, -, data, -, buff, -, -, -, rfl⟩ := hspace
      exact Or.inr rfl
  · simp only [bind_eq_ok, pure_eq_ok, Except.ok.injEq] at hok
    obtain ⟨b₁, rfl, -, -, rfl⟩ := hok
    exact Or.inl rfl

/-- **`append` of a view** that there is room for. -/
lemma appendView_of_room (mem : Memory) {other : Buffer} (h : other.Represents .empty) (src : Buffer)
    (view : ℕ × ℕ) (hview : view.1 + view.2 ≤ src.buff.length) (hroom : view.2 ≤ other.wirtableBytes) :
    ∃ b', other.appendView mem src view = .ok b' ∧
      b'.toList = region src.buff view.1 (view.1 + view.2) ∧
      b'.wirtableBytes = other.wirtableBytes - view.2 ∧ b'.readerIndex = other.readerIndex := by
  have hlen : (region src.buff view.1 (view.1 + view.2)).length = view.2 := by
    rw [length_region hview, Nat.add_sub_cancel_left]
  have hdata : (region src.buff view.1 (view.1 + view.2)).length ≤ other.wirtableBytes := by
    rw [hlen]
    exact hroom
  have hrep := h.written hdata
  obtain ⟨hwrite, hfit⟩ := h.wf.writeDirect_eq hdata
  have hwr := h.wf.wirtableBytes_eq
  have hwr' := hrep.wf.wirtableBytes_eq
  simp only [length_overwrite hfit, hlen] at hwr'
  have hcopy : copyOut src.buff view.1 (view.1 + view.2)
      = .ok (region src.buff view.1 (view.1 + view.2)) := if_pos ⟨Nat.le_add_right _ _, hview⟩
  refine ⟨_, ?_, hrep.toList_eq, ?_, rfl⟩
  · rw [appendView, ensureWritableBytes_of_room hroom, bind_ok, hcopy, bind_ok, hwrite]
  · rw [hlen, hwr']
    omega

/-- `shrink` throws for want of memory, or it comes to append the bytes to a buffer with room for them. -/
lemma shrink_cases (hfits : mem.fits (kCheapPrepend + kInitialSize) = true) (reserve : ℕ)
    (hsum : b.readableBytes + reserve + kCheapPrepend < 2 ^ 64) :
    (b.Refused mem reserve ∧ b.shrink mem reserve = .error .badAlloc) ∨
      ¬ b.Refused mem reserve ∧ ∃ other : Buffer, other.Represents .empty ∧
        b.readableBytes + reserve ≤ other.wirtableBytes ∧ other.readerIndex = kCheapPrepend ∧
        b.shrink mem reserve = other.appendView mem b b.toStringView := by
  obtain ⟨other, hcreate, hnew⟩ := create_isNew hfits
  have hshrink : b.shrink mem reserve
      = (other.ensureWritableBytes mem (b.readableBytes + reserve) >>= fun other =>
          other.appendView mem b b.toStringView) := by
    rw [shrink, hcreate, bind_ok, sizeAdd_eq (Nat.lt_of_le_of_lt (Nat.le_add_right _ _) hsum)]
  have hrefused : b.Refused mem reserve ↔
      other.ensureWritableBytes mem (b.readableBytes + reserve) = .error .badAlloc := by
    rw [hnew.ensureWritableBytes_badAlloc_iff hsum, Refused, hfits]
    simp
  have hfit : other.SumsFit (b.readableBytes + reserve) := by
    refine ⟨hsum, ?_⟩
    rw [hnew.wirterIndex]
    omega
  rw [hshrink, hrefused]
  rcases ensureWritableBytes_spec mem hnew.represents hfit with hthrows | ⟨b₁, hok, hrep, hroom⟩
  · exact Or.inl ⟨hthrows, by rw [hthrows, bind_error]⟩
  · refine Or.inr ⟨fun hthrows => absurd (hok.symm.trans hthrows) nofun, b₁, hrep, hroom, ?_,
      by rw [hok, bind_ok]⟩
    rcases ensureWritableBytes_readerIndex hok with heq | heq
    · rw [heq, hnew.readerIndex]
    · exact heq

/-- **`shrink` at every size**: it keeps the readable bytes and makes room if and only if the sum with
`kCheapPrepend` does not overflow either and there are at most `INT_MAX` readable bytes; or it throws, for want of
memory, before it comes to that. -/
theorem shrinks_iff (mem : Memory) (h : b.Wf) {reserve : ℕ} (hsum : b.readableBytes + reserve < 2 ^ 64) :
    b.Shrinks mem reserve ↔
      mem.fits (kCheapPrepend + kInitialSize) = false ∨
        b.readableBytes + reserve + kCheapPrepend < 2 ^ 64 ∧
          (b.readableBytes < 2 ^ 31 ∨ b.Refused mem reserve) := by
  by_cases hfits : mem.fits (kCheapPrepend + kInitialSize) = false
  · have hshrink : b.shrink mem reserve = .error .badAlloc := by
      rw [shrink, create_badAlloc (by decide) hfits, bind_error]
    exact iff_of_true (Or.inl ⟨Or.inl hfits, hshrink⟩) (Or.inl hfits)
  · have hmem : mem.fits (kCheapPrepend + kInitialSize) = true := by simpa using hfits
    by_cases hsum' : b.readableBytes + reserve + kCheapPrepend < 2 ^ 64
    · rcases shrink_cases hmem reserve hsum' with
        ⟨hrefused, hthrows⟩ | ⟨hnot, other, hrep, hroom, hreader, heq⟩
      · exact iff_of_true (Or.inl ⟨hrefused, hthrows⟩) (Or.inr ⟨hsum', Or.inr hrefused⟩)
      · rw [Shrinks, heq]
        simp only [hnot, false_and, false_or, hmem, reduceCtorEq, hsum', true_and, or_false]
        rw [← h.toStringView_size_iff]
        constructor
        · rintro ⟨b', happend, hlist, -, -⟩
          have hlen := (appendView_spec hrep.wf happend).2
          rw [hlist, h.length_toList, hrep.toList_eq] at hlen
          simpa [ByteQueue.empty] using hlen.symm
        · intro hview
          have hr := h.reader_le
          have hw := h.wirter_le
          have hn := h.readableBytes_eq
          have hroom' : b.toStringView.2 ≤ other.wirtableBytes := by
            rw [hview]
            exact le_trans (Nat.le_add_right _ _) hroom
          have hend : b.readerIndex + b.toStringView.2 = b.wirterIndex := by omega
          have hfirst : b.toStringView.1 = b.readerIndex := rfl
          obtain ⟨b', happend, hlist, hwr, hreader'⟩ := appendView_of_room mem hrep b
            b.toStringView (by rw [hfirst, hend]; exact hw) hroom'
          rw [hfirst, hend] at hlist
          exact ⟨b', happend, hlist, by omega, hreader'.trans hreader⟩
    · -- the new buffer is asked for a length whose sum comes round
      obtain ⟨other, hcreate, hnew⟩ := create_isNew hmem
      have hshrink : b.shrink mem reserve = .error (.assertFailed .makeSpace) := by
        rw [shrink, hcreate, bind_ok, sizeAdd_eq hsum, hnew.ensureWritableBytes_stuck hsum hsum',
          bind_error]
      rw [Shrinks, hshrink]
      refine iff_of_false (by simp) ?_
      rintro (hrefuses | hfit)
      · exact hfits hrefuses
      · exact hsum' hfit.1

/-- Some bytes are kept. -/
theorem shrinks_hello :
    ∃ b', shrink ampleMemory ⟨List.replicate 8 0 ++ [1, 2, 3], 8, 11⟩ 100 = .ok b' ∧ b'.toList = [1, 2, 3] := by
  have hwf : Wf ⟨List.replicate 8 0 ++ [1, 2, 3], 8, 11⟩ := ⟨by decide, by decide, by decide, by decide⟩
  have hshrinks : Shrinks ampleMemory ⟨List.replicate 8 0 ++ [1, 2, 3], 8, 11⟩ 100 :=
    (shrinks_iff ampleMemory hwf (by decide)).mpr (Or.inr ⟨by decide, Or.inl (by decide)⟩)
  rcases hshrinks with ⟨-, hthrows⟩ | ⟨b', hok, hlist, -, -⟩
  · exact absurd hthrows (by decide +kernel)
  · exact ⟨b', hok, hlist⟩

/-- **Everything is lost.**  `shrink` of a buffer with `2 ^ 32` readable bytes gives an empty one. -/
theorem not_shrinks :
    let b : Buffer := ⟨List.replicate (2 ^ 32 + 8) 0, 8, 2 ^ 32 + 8⟩
    b.readableBytes = 2 ^ 32 ∧ (∃ b', b.shrink ampleMemory 0 = .ok b' ∧ b'.toList = []) ∧
      ¬ b.Shrinks ampleMemory 0 := by
  intro b
  have hread : b.readableBytes = 2 ^ 32 := by decide
  have hview : b.toStringView = (8, 0) := by decide
  have hlength : b.buff.length = 2 ^ 32 + 8 := List.length_replicate
  have hwf : b.Wf := ⟨by decide, by rw [hlength], by rw [hlength]; decide, by rw [hlength]; decide⟩
  have hnot : ¬ b.Refused ampleMemory 0 := by
    rw [Refused, hread]
    decide
  have hfits : ampleMemory.fits (kCheapPrepend + kInitialSize) = true := by decide
  have hsum : b.readableBytes + 0 + kCheapPrepend < 2 ^ 64 := by
    rw [hread]
    decide
  rcases shrink_cases hfits 0 hsum with
    ⟨hrefused, -⟩ | ⟨-, other, hrep, hroom, -, heq⟩
  · exact absurd hrefused hnot
  · obtain ⟨b', happend, hlist, -, -⟩ := appendView_of_room ampleMemory hrep b (8, 0)
      (by rw [hlength]; decide) (Nat.zero_le _)
    rw [← hview, ← heq] at happend
    rw [Nat.add_zero, region_self] at hlist
    refine ⟨hread, ⟨b', happend, hlist⟩, ?_⟩
    rintro (⟨hrefused, -⟩ | ⟨b'', hok, hkept, -, -⟩)
    · exact hnot hrefused
    · obtain rfl := Except.ok.inj (happend.symm.trans hok)
      have hlen := hwf.length_toList
      rw [← hkept, hlist, hread] at hlen
      exact absurd hlen (by decide)

/-! ## `readFd` -/

/-- The total length of the vectors that `readFd` passes to the kernel. -/
def offered (b : Buffer) : ℕ :=
  if b.wirtableBytes < extraBufSize then b.wirtableBytes + extraBufSize else b.wirtableBytes

/-- Where the wirtable bytes suffice, nothing is appended. -/
lemma readFd_of_le (mem : Memory) (h : b.Represents q) {data : List UInt8} (hle : data.length ≤ b.wirtableBytes) :
    ∃ b', b.readFd mem (.bytes data) = .ok (.ok data.length, b') ∧ b'.Represents (q.append data) := by
  obtain ⟨-, hfit⟩ := h.wf.writeDirect_eq hle
  refine ⟨_, ?_, h.written hle⟩
  have hs := h.wf.length_lt
  have hmany : ¬ b.offered < data.length := by
    rw [offered]
    split_ifs <;> omega
  rw [offered] at hmany
  have hsum : sizeAdd b.wirterIndex data.length = b.wirterIndex + data.length := sizeAdd_eq (by omega)
  simp only [readFd, hmany, if_false, List.take_of_length_le hle, copyIn, if_pos hfit, bind_ok,
    if_pos hle, hsum, pure_eq_ok]

/-- Otherwise the wirtable bytes are filled to the last, and the rest is appended. -/
lemma readFd_of_gt (mem : Memory) (h : b.Represents q) {data : List UInt8} (hgt : b.wirtableBytes < data.length)
    (hoffered : data.length ≤ b.offered) :
    ∃ first : Buffer, first.Represents (q.append (data.take b.wirtableBytes)) ∧
      first.wirterIndex = first.buff.length ∧ first.buff.length = b.buff.length ∧
      b.readFd mem (.bytes data)
        = (first.append mem (data.drop b.wirtableBytes) >>= fun b' => pure (.ok data.length, b')) := by
  have hlen : (data.take b.wirtableBytes).length = b.wirtableBytes := by
    rw [List.length_take]
    omega
  have hrep := h.written (le_of_eq hlen)
  obtain ⟨-, hfit⟩ := h.wf.writeDirect_eq (le_of_eq hlen)
  have hsize := length_overwrite hfit
  have hw := h.wf.wirter_le
  have hwr := h.wf.wirtableBytes_eq
  have hfull : b.wirterIndex + (data.take b.wirtableBytes).length = b.buff.length := by omega
  rw [hfull] at hrep
  refine ⟨_, hrep, hsize.symm, hsize, ?_⟩
  have hmany : ¬ b.offered < data.length := Nat.not_lt.mpr hoffered
  rw [offered] at hmany
  have hbeyond : ¬ data.length ≤ b.wirtableBytes := Nat.not_le.mpr hgt
  simp only [readFd, hmany, if_false, copyIn, if_pos hfit, bind_ok, if_neg hbeyond, hsize]

/-- **`readFd` appends what the kernel delivered**: whatever part of the vectors it filled, the readable bytes are
those from before and the new ones after them, and their number is returned; or the vector cannot grow.  If
`readv` fails, the error is saved and nothing has changed. -/
theorem readFd_appends (mem : Memory) (h : b.Wf) :
    (∀ data : List UInt8, data.length ≤ b.offered →
      (b.readFd mem (.bytes data) = .error .badAlloc ∧ b.wirtableBytes < data.length ∧
        mem.fits (b.buff.length + (data.length - b.wirtableBytes)) = false) ∨
      ∃ b', b.readFd mem (.bytes data) = .ok (.ok data.length, b') ∧ b'.toList = b.toList ++ data ∧ b'.Wf) ∧
    ∀ errno, b.readFd mem (.error errno) = .ok (.error errno, b) := by
  refine ⟨?_, fun _ => rfl⟩
  intro data hoffered
  rcases Nat.lt_or_ge b.wirtableBytes data.length with hgt | hle
  · obtain ⟨first, hrep, hfull, hsize, hread⟩ := readFd_of_gt mem h.represents hgt hoffered
    have hs := h.length_lt
    have hextra : data.length < b.wirtableBytes + 2 ^ 63 := by
      rw [offered, extraBufSize] at hoffered
      split_ifs at hoffered <;> omega
    have hdrop : (data.drop b.wirtableBytes).length = data.length - b.wirtableBytes := List.length_drop
    have hsum : first.SumsFit (data.drop b.wirtableBytes).length := by
      rw [SumsFit, hfull, hsize, hdrop, kCheapPrepend]
      omega
    rw [hread]
    rcases append_spec mem hrep hsum with hthrows | ⟨b', hok, hrep'⟩
    · obtain ⟨-, -, -, hfits⟩ := ensureWritableBytes_badAlloc_iff.mp (append_badAlloc hthrows)
      rw [sizeAdd_eq hsum.2, hfull, hsize, hdrop] at hfits
      exact Or.inl ⟨by rw [hthrows, bind_error], hgt, hfits⟩
    · refine Or.inr ⟨b', by rw [hok, bind_ok, pure_eq_ok], ?_, hrep'.wf⟩
      rw [hrep'.toList_eq]
      simp [ByteQueue.append]
  · obtain ⟨b', hread, hrep⟩ := readFd_of_le mem h.represents hle
    exact Or.inr ⟨b', hread, hrep.toList_eq, hrep.wf⟩

/-- The wirtable bytes are filled, and one byte is appended. -/
theorem readFd_appends_two :
    ∃ b', readFd ampleMemory ⟨List.replicate 8 0 ++ [1], 8, 8⟩ (.bytes [5, 6]) = .ok (.ok 2, b') ∧
      b'.toList = [5, 6] := by
  have hwf : Wf ⟨List.replicate 8 0 ++ [1], 8, 8⟩ := ⟨by decide, by decide, by decide, by decide⟩
  rcases (readFd_appends ampleMemory hwf).1 [5, 6] (by decide) with ⟨-, -, hfits⟩ | ⟨b', hread, hlist, -⟩
  · exact absurd hfits (by decide)
  · exact ⟨b', hread, hlist⟩

end Buffer

end Seenet
