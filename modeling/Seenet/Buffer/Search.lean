import Seenet.Buffer.Refinement
import Seenet.Lib.Occurrence

/-!
# Searching for the end of a line

A delimiter is `"\r\n"` or `'\n'`, and for each there are two functions: one begins at `peek()`, the other where
its caller says.  `Finds` is what such a pair is for.

* `search_isFirst`, `memchr_isFirst` — the two functions of the standard library find the first occurrence.
* `findCRLF_finds` — the pair for `"\r\n"` does what it is for, wherever the search begins.
* **`searches_iff`** — the pair for `'\n'` does so only if the search begins at `peek()`: anything else fails an
  assertion.
* **`findCRLF_resumes`** — a search that found nothing may be resumed one byte before its end, when there is more
  to search.
-/

namespace Seenet

open Region Occurrence

namespace Buffer

variable {b b' : Buffer} {mem : Memory} {start : ℕ} {w : List UInt8}

/-! ## The standard library -/

lemma search_isFirst (l : List UInt8) {pat : List UInt8} (hpat : 0 < pat.length) (first n : ℕ) :
    IsFirst (occurrences l (first + n) pat ∩ Set.Ici first)
      (if search l pat first n = first + n then none else some (search l pat first n)) := by
  induction n generalizing first with
  | zero =>
      rw [search, Nat.add_zero, if_pos rfl]
      exact isFirst_none l hpat first
  | succ n ih =>
      rw [search]
      by_cases hhere : pat.length ≤ n + 1 ∧ region l first (first + pat.length) = pat
      · have hne : ¬ first = first + (n + 1) := by omega
        rw [if_pos hhere, if_neg hne]
        exact isFirst_here ⟨Nat.add_le_add_left hhere.1 first, hhere.2⟩
      · have hih := ih (first + 1)
        rw [show first + 1 + n = first + (n + 1) by omega] at hih
        rw [if_neg hhere]
        exact isFirst_next (fun hp => hhere ⟨Nat.le_of_add_le_add_left hp.1, hp.2⟩) hih

/-- A word of one byte. -/
lemma region_singleton {l : List UInt8} {c : UInt8} {p : ℕ} : region l p (p + 1) = [c] ↔ l[p]? = some c := by
  have hcell : (region l p (p + 1))[0]? = l[p]? := by
    rw [getElem?_region, Nat.add_zero, if_pos (Nat.lt_succ_self p)]
  constructor
  · intro hword
    rw [← hcell, hword]
    rfl
  · intro hc
    have hlt : p < l.length := (List.getElem?_eq_some_iff.mp hc).1
    have hlen : (region l p (p + 1)).length = 1 := by
      rw [length_region hlt]
      omega
    obtain ⟨a, ha⟩ := List.length_eq_one_iff.mp hlen
    rw [ha] at hcell ⊢
    rw [← hcell] at hc
    rw [Option.some.inj hc]

lemma memchr_isFirst (l : List UInt8) (c : UInt8) (first n : ℕ) :
    IsFirst (occurrences l (first + n) [c] ∩ Set.Ici first) (memchr l c first n) := by
  induction n generalizing first with
  | zero => exact isFirst_none l (by simp) first
  | succ n ih =>
      rw [memchr]
      by_cases hhere : l[first]? = some c
      · rw [if_pos hhere]
        refine isFirst_here ⟨?_, region_singleton.mpr hhere⟩
        rw [List.length_singleton]
        omega
      · have hih := ih (first + 1)
        rw [show first + 1 + n = first + (n + 1) by omega] at hih
        rw [if_neg hhere]
        exact isFirst_next (fun hp => hhere (region_singleton.mp hp.2)) hih

/-! ## Delimiters -/

/-- `"\n"` -/
def kEOL : List UInt8 := [10]

/-- The positions at which the delimiter `w` stands, all of it before `beginWrite()`. -/
def delimiters (b : Buffer) (w : List UInt8) : Set ℕ := occurrences b.buff b.beginWrite w

/-- `find`, from a position on, and `findFirst`, from `peek()` on, do for the delimiter `w` what they are for. -/
structure Finds (find : Buffer → ℕ → Res (Option ℕ)) (findFirst : Buffer → Option ℕ) (w : List UInt8)
    (b : Buffer) (start : ℕ) : Prop where
  /-- The least position from `start` on is returned, or none. -/
  least : ∃ r, find b start = .ok r ∧ IsFirst (b.delimiters w ∩ Set.Ici start) r
  least_peek : IsFirst (b.delimiters w ∩ Set.Ici b.peek) (findFirst b)
  agree : find b b.peek = .ok (findFirst b)
  /-- The bytes that are not readable do not matter. -/
  stale : ∀ b' : Buffer, b'.Wf → b'.peek = b.peek → b'.toList = b.toList →
    find b' start = find b start ∧ findFirst b' = findFirst b
  /-- Where nothing is passed over, the search may be resumed. -/
  resume : (∀ p ∈ b.delimiters w, b.peek ≤ p → start ≤ p) → find b start = .ok (findFirst b)

/-- A delimiter among the readable bytes. -/
lemma mem_delimiters (h : b.Wf) {p : ℕ} (hp : b.peek ≤ p) :
    p ∈ b.delimiters w ↔ p - b.peek ∈ occurrences b.toList b.toList.length w := by
  have hlen : b.toList.length = b.wirterIndex - b.readerIndex := by
    rw [h.length_toList, h.readableBytes_eq]
  rw [hlen]
  exact mem_occurrences_region b.buff w h.reader_le hp

/-- What is readable decides where the delimiters are. -/
lemma delimiters_eq (h : b.Wf) (h' : b'.Wf) (hpeek : b'.peek = b.peek) (hlist : b'.toList = b.toList)
    (hstart : b.peek ≤ start) : b'.delimiters w ∩ Set.Ici start = b.delimiters w ∩ Set.Ici start := by
  ext p
  simp only [Set.mem_inter_iff, Set.mem_Ici, and_congr_left_iff]
  intro hp
  have hle : b.peek ≤ p := le_trans hstart hp
  rw [mem_delimiters h hle, mem_delimiters h' (hpeek ▸ hle), hpeek, hlist]

lemma beginWrite_eq (h : b.Wf) (h' : b'.Wf) (hpeek : b'.peek = b.peek) (hlist : b'.toList = b.toList) :
    b'.beginWrite = b.beginWrite := by
  have hlen := h.length_toList
  have hlen' := h'.length_toList
  rw [h.readableBytes_eq] at hlen
  rw [h'.readableBytes_eq, hlist] at hlen'
  have hr := h.reader_le
  have hr' := h'.reader_le
  rw [peek, peek] at hpeek
  rw [beginWrite, beginWrite]
  omega

/-- A pair of functions that returns the least position is right in everything else. -/
lemma finds_of_least {find : Buffer → ℕ → Res (Option ℕ)} {findFirst : Buffer → Option ℕ} (h : b.Wf)
    (hstart : b.peek ≤ start)
    (hfind : ∀ b' : Buffer, b'.Wf → b'.peek = b.peek → b'.beginWrite = b.beginWrite →
      ∃ r, find b' start = .ok r ∧ IsFirst (b'.delimiters w ∩ Set.Ici start) r)
    (hfirst : ∀ b' : Buffer, b'.Wf → IsFirst (b'.delimiters w ∩ Set.Ici b'.peek) (findFirst b'))
    (hagree : find b b.peek = .ok (findFirst b)) : Finds find findFirst w b start := by
  obtain ⟨r, hr, hleast⟩ := hfind b h rfl rfl
  refine ⟨⟨r, hr, hleast⟩, hfirst b h, hagree, ?_, ?_⟩
  · intro b' h' hpeek hlist
    constructor
    · obtain ⟨r', hr', hleast'⟩ := hfind b' h' hpeek (beginWrite_eq h h' hpeek hlist)
      rw [delimiters_eq h h' hpeek hlist hstart] at hleast'
      rw [hr, hr', hleast.unique hleast']
    · have hleast' := hfirst b' h'
      rw [hpeek, delimiters_eq h h' hpeek hlist (le_refl b.peek)] at hleast'
      exact hleast'.unique (hfirst b h)
  · intro hnone
    have hleast' := (isFirst_resume hstart hnone).mp hleast
    rw [hr, hleast'.unique (hfirst b h)]

/-! ## The two pairs -/

lemma kCRLF_length_pos : 0 < kCRLF.length := by decide

lemma findCRLF_isFirst (h : b.Wf) : IsFirst (b.delimiters kCRLF ∩ Set.Ici b.peek) b.findCRLF := by
  have hsum : b.peek + (b.beginWrite - b.peek) = b.beginWrite := Nat.add_sub_cancel' h.reader_le
  have hsearch := search_isFirst b.buff kCRLF_length_pos b.peek (b.beginWrite - b.peek)
  rw [hsum] at hsearch
  exact hsearch

lemma findCRLFFrom_isFirst (hpeek : b.peek ≤ start) (hstart : start ≤ b.beginWrite) :
    ∃ r, b.findCRLFFrom start = .ok r ∧ IsFirst (b.delimiters kCRLF ∩ Set.Ici start) r := by
  have hsum : start + (b.beginWrite - start) = b.beginWrite := Nat.add_sub_cancel' hstart
  have hsearch := search_isFirst b.buff kCRLF_length_pos start (b.beginWrite - start)
  rw [hsum] at hsearch
  refine ⟨_, ?_, hsearch⟩
  rw [findCRLFFrom, assertThat_pos hpeek, bind_ok, assertThat_pos hstart, bind_ok, pure_eq_ok]

/-- **The pair for `"\r\n"`** finds it from wherever the search begins. -/
lemma findCRLF_finds (h : b.Wf) (hpeek : b.peek ≤ start) (hstart : start ≤ b.beginWrite) :
    Finds findCRLFFrom findCRLF kCRLF b start := by
  refine finds_of_least h hpeek ?_ (fun b' h' => findCRLF_isFirst h') ?_
  · intro b' h' hpeek' hend
    exact findCRLFFrom_isFirst (by rwa [hpeek']) (by rwa [hend])
  · obtain ⟨r, hr, hleast⟩ := findCRLFFrom_isFirst (le_refl b.peek) h.reader_le
    rw [hr, hleast.unique (findCRLF_isFirst h)]

lemma findEOL_isFirst (h : b.Wf) : IsFirst (b.delimiters kEOL ∩ Set.Ici b.peek) b.findEOL := by
  have hsum : b.peek + b.readableBytes = b.beginWrite := by
    rw [h.readableBytes_eq]
    exact Nat.add_sub_cancel' h.reader_le
  have hmemchr := memchr_isFirst b.buff 10 b.peek b.readableBytes
  rw [hsum] at hmemchr
  exact hmemchr

lemma findEOLFrom_peek (h : b.Wf) : b.findEOLFrom b.peek = .ok b.findEOL := by
  have hle : b.peek ≤ b.beginWrite := h.reader_le
  rw [findEOLFrom, assertThat_pos rfl, bind_ok, assertThat_pos hle, bind_ok, pure_eq_ok, findEOL,
    h.readableBytes_eq]
  rfl

/-- From anywhere else it fails. -/
lemma findEOLFrom_of_ne (hne : b.peek ≠ start) :
    b.findEOLFrom start = .error (.assertFailed .findEOL) := by
  rw [findEOLFrom, assertThat, if_neg hne, bind_error]

/-- **The pair for `'\n'`** does what it is for if the search begins at `peek()`. -/
lemma findEOL_finds (h : b.Wf) : Finds findEOLFrom findEOL kEOL b b.peek := by
  refine finds_of_least h (le_refl b.peek) ?_ (fun b' h' => findEOL_isFirst h') (findEOLFrom_peek h)
  intro b' h' hpeek _
  rw [← hpeek]
  exact ⟨_, findEOLFrom_peek h', findEOL_isFirst h'⟩

/-- The two searches from `start` on do what they are for. -/
def Searches (b : Buffer) (start : ℕ) : Prop :=
  Finds findCRLFFrom findCRLF kCRLF b start ∧ Finds findEOLFrom findEOL kEOL b start

/-- **Delimiter search**: the search for `"\r\n"` does what it is for from any position on, the search for `'\n'`
from `peek()` on and from nowhere else. -/
theorem searches_iff (h : b.Wf) (hpeek : b.peek ≤ start) (hstart : start ≤ b.beginWrite) :
    Finds findCRLFFrom findCRLF kCRLF b start ∧ (b.Searches start ↔ start = b.peek) := by
  refine ⟨findCRLF_finds h hpeek hstart, ?_, ?_⟩
  · rintro ⟨-, hfinds⟩
    by_contra hne
    obtain ⟨r, hr, -⟩ := hfinds.least
    rw [findEOLFrom_of_ne (Ne.symm hne)] at hr
    exact absurd hr nofun
  · rintro rfl
    exact ⟨findCRLF_finds h hpeek hstart, findEOL_finds h⟩

/-- From `peek()` on. -/
theorem searches_line : Searches ⟨List.replicate 8 0 ++ [97, 13, 10], 8, 11⟩ 8 :=
  (searches_iff ⟨by decide, by decide, by decide, by decide⟩ (by decide) (by decide)).2.mpr rfl

/-- **The search for `'\n'` cannot be resumed.**  `"a\n"` is readable, and `findEOL` from the second byte on fails
its assertion. -/
theorem not_searches :
    let b : Buffer := ⟨List.replicate 8 0 ++ [97, 10], 8, 10⟩
    b.Wf ∧ b.peek ≤ 9 ∧ 9 ≤ b.beginWrite ∧ b.findEOLFrom 9 = .error (.assertFailed .findEOL) ∧
      ¬ b.Searches 9 := by
  intro b
  have hfails : b.findEOLFrom 9 = .error (.assertFailed .findEOL) := findEOLFrom_of_ne (by decide)
  refine ⟨⟨by decide, by decide, by decide, by decide⟩, by decide, by decide, hfails, ?_⟩
  rintro ⟨-, hfinds⟩
  obtain ⟨r, hr, -⟩ := hfinds.least
  exact absurd (hfails.symm.trans hr) nofun

/-! ## Resuming -/

/-- Where there was no delimiter, one that there is when more has been appended ends behind the old end. -/
lemma lt_of_mem_delimiters (h : b.Wf) (hnone : b.delimiters w ∩ Set.Ici b.peek = ∅) {data : List UInt8}
    (happend : b.append mem data = .ok b') {p : ℕ} (hp : p ∈ b'.delimiters w) (hle : b'.peek ≤ p) :
    b'.peek + b.readableBytes < p + w.length := by
  obtain ⟨h', hlist⟩ := h.append happend
  have hnone' : occurrences b.toList b.toList.length w = ∅ := by
    refine Set.eq_empty_of_forall_notMem ?_
    intro k hk
    have hge : b.peek ≤ b.peek + k := Nat.le_add_right _ _
    have hmem : b.peek + k ∈ b.delimiters w := by
      rwa [mem_delimiters h hge, Nat.add_sub_cancel_left]
    have hboth : b.peek + k ∈ b.delimiters w ∩ Set.Ici b.peek := ⟨hmem, hge⟩
    rw [hnone] at hboth
    exact hboth
  rw [mem_delimiters h' hle, hlist] at hp
  have hlt := lt_of_mem_occurrences_append hnone' hp
  rw [h.length_toList] at hlt
  omega

/-- **A search resumed.**  Where `findCRLF` found nothing and more has been appended, the search that begins at
the last byte of before finds what the search from `peek()` finds. -/
theorem findCRLF_resumes (h : b.Wf) (hnone : b.findCRLF = none) {data : List UInt8}
    (happend : b.append mem data = .ok b') :
    b'.findCRLFFrom (b'.peek + (b.readableBytes - 1)) = .ok b'.findCRLF := by
  obtain ⟨h', hlist⟩ := h.append happend
  have hempty := findCRLF_isFirst h
  rw [hnone] at hempty
  have hend : b'.peek + (b.readableBytes - 1) ≤ b'.beginWrite := by
    have hlen := h'.length_toList
    rw [hlist, List.length_append, h.length_toList, h'.readableBytes_eq] at hlen
    have hr := h'.reader_le
    rw [peek, beginWrite]
    omega
  refine (findCRLF_finds h' (Nat.le_add_right _ _) hend).resume ?_
  intro p hp hle
  have hlt := lt_of_mem_delimiters h hempty happend hp hle
  rw [show kCRLF.length = 2 from rfl] at hlt
  omega

end Buffer

end Seenet
