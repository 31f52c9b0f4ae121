import Seenet.Lib.Region
import Mathlib.Order.Bounds.Basic

/-!
# The first occurrence of a word

`occurrences l stop w` are the positions at which the word `w` stands in the array `l`, all of it before the
position `stop`.  A search from a position on is to find the first occurrence from there on, or none if there is
none: `IsFirst`.

* `IsFirst.unique` — there is one right answer.
* `isFirst_resume` — a search may begin later, where no occurrence is passed over.
* `isFirst_none`, `isFirst_here`, `isFirst_next` — a search that looks at one position after the other.
* `mem_occurrences_region` — the occurrences depend on the cells between the two ends only.
* `lt_of_mem_occurrences_append` — what is added behind an array has its first occurrence across the old end, or
  behind it.
-/

namespace Occurrence

open Region

/-- `r` is the first of the positions `s`, or there is none. -/
def IsFirst {ι : Type*} [PartialOrder ι] (s : Set ι) : Option ι → Prop
  | some p => IsLeast s p
  | none => s = ∅

section IsFirst

variable {ι : Type*} [PartialOrder ι] {s : Set ι} {r r' : Option ι} {a b : ι}

lemma IsFirst.unique (h : IsFirst s r) (h' : IsFirst s r') : r = r' := by
  cases r with
  | none =>
      cases r' with
      | none => rfl
      | some p' => exact absurd (h ▸ h'.1 : p' ∈ (∅ : Set ι)) (Set.notMem_empty p')
  | some p =>
      cases r' with
      | none => exact absurd (h' ▸ h.1 : p ∈ (∅ : Set ι)) (Set.notMem_empty p)
      | some p' => rw [IsLeast.unique h h']

/-- The search may begin at `b` if it passes over nothing. -/
lemma isFirst_resume (hab : a ≤ b) (hnone : ∀ p ∈ s, a ≤ p → b ≤ p) :
    IsFirst (s ∩ Set.Ici b) r ↔ IsFirst (s ∩ Set.Ici a) r := by
  have heq : s ∩ Set.Ici b = s ∩ Set.Ici a := by
    ext p
    exact ⟨fun hp => ⟨hp.1, le_trans hab hp.2⟩, fun hp => ⟨hp.1, hnone p hp.1 hp.2⟩⟩
  rw [heq]

end IsFirst

variable {α : Type*} {l m w : List α} {stop : ℕ}

/-- The positions at which `w` stands in `l`, and ends at `stop` at the latest. -/
def occurrences (l : List α) (stop : ℕ) (w : List α) : Set ℕ :=
  {p | p + w.length ≤ stop ∧ region l p (p + w.length) = w}

/-- Only the cells between the two ends count. -/
lemma mem_occurrences_region (l : List α) (w : List α) {i j p : ℕ} (hij : i ≤ j) (hp : i ≤ p) :
    p ∈ occurrences l j w ↔ p - i ∈ occurrences (region l i j) (j - i) w := by
  simp only [occurrences, Set.mem_ofPred_eq]
  constructor
  · rintro ⟨hend, hword⟩
    refine ⟨by omega, ?_⟩
    rwa [region_region l (by omega), show i + (p - i) = p by omega,
      show i + (p - i + w.length) = p + w.length by omega]
  · rintro ⟨hend, hword⟩
    refine ⟨by omega, ?_⟩
    rwa [region_region l (by omega), show i + (p - i) = p by omega,
      show i + (p - i + w.length) = p + w.length by omega] at hword

/-- There is no occurrence at the end. -/
lemma isFirst_none (l : List α) (hw : 0 < w.length) (first : ℕ) :
    IsFirst (occurrences l first w ∩ Set.Ici first) none := by
  refine Set.eq_empty_of_forall_notMem ?_
  rintro p ⟨⟨hend, -⟩, hp⟩
  have hge : first ≤ p := hp
  omega

/-- An occurrence at the first position is the first. -/
lemma isFirst_here {first : ℕ} (hhere : first ∈ occurrences l stop w) :
    IsFirst (occurrences l stop w ∩ Set.Ici first) (some first) :=
  ⟨⟨hhere, le_refl first⟩, fun _ hp => hp.2⟩

/-- Otherwise the search goes on at the next one. -/
lemma isFirst_next {first : ℕ} {r : Option ℕ} (hnot : first ∉ occurrences l stop w)
    (h : IsFirst (occurrences l stop w ∩ Set.Ici (first + 1)) r) :
    IsFirst (occurrences l stop w ∩ Set.Ici first) r := by
  refine (isFirst_resume (Nat.le_succ first) ?_).mp h
  intro p hp hle
  refine Nat.lt_of_le_of_ne hle ?_
  rintro rfl
  exact hnot hp

/-- Where there was no occurrence, what is added makes none before its own first cell. -/
lemma lt_of_mem_occurrences_append (hnone : occurrences l l.length w = ∅) {p : ℕ}
    (hp : p ∈ occurrences (l ++ m) stop w) : l.length < p + w.length := by
  by_contra hnot
  have hend : p + w.length ≤ l.length := Nat.not_lt.mp hnot
  have hmem : p ∈ occurrences l l.length w := by
    refine ⟨hend, ?_⟩
    rw [← region_append_left m hend]
    exact hp.2
  rw [hnone] at hmem
  exact hmem

end Occurrence
