import Mathlib.Data.Int.Notation
import Mathlib.Data.List.Basic
import Mathlib.Logic.Function.Basic
import Mathlib.Tactic.Common

/-!
# Handles given out from the lowest on

A table of at most `limit` handles, as an operating system keeps one for a process: a new one is the lowest that is
free, and any can be given back.

* `lowest` — the handle that is given out next.
* `lowest_eq_some`, `lowest_eq_none_iff` — it is free; and there is none when all are taken.
* **`lowest_update_none`** — of a full table the handle that is given back is the next to be given out.
-/

namespace Handles

variable {α : Type*} {limit : ℕ} {table : ℤ → Option α} {h : ℤ}

/-- The lowest free handle. -/
def lowest (limit : ℕ) (table : ℤ → Option α) : Option ℤ :=
  ((List.range limit).map Int.ofNat).find? fun h => (table h).isNone

lemma lowest_eq_some (hlowest : lowest limit table = some h) : 0 ≤ h ∧ h < limit ∧ table h = none := by
  have hfree := List.find?_some hlowest
  obtain ⟨n, hn, rfl⟩ := List.mem_map.mp (List.mem_of_find?_eq_some hlowest)
  rw [List.mem_range] at hn
  exact ⟨Int.natCast_nonneg n, Int.ofNat_lt.mpr hn, Option.isNone_iff_eq_none.mp hfree⟩

lemma lowest_eq_none_iff : lowest limit table = none ↔ ∀ h : ℤ, 0 ≤ h → h < limit → table h ≠ none := by
  simp only [lowest, List.find?_eq_none, List.mem_map, List.mem_range, Option.isNone_iff_eq_none]
  constructor
  · intro hfull h hnonneg hlt
    obtain ⟨n, rfl⟩ := Int.eq_ofNat_of_zero_le hnonneg
    exact hfull _ ⟨n, Int.ofNat_lt.mp hlt, rfl⟩
  · rintro hfull _ ⟨n, hn, rfl⟩
    exact hfull _ (Int.natCast_nonneg n) (Int.ofNat_lt.mpr hn)

/-- As long as a handle is free, there is one to be given out. -/
lemma lowest_isSome (hnonneg : 0 ≤ h) (hlt : h < limit) (hfree : table h = none) :
    ∃ h', lowest limit table = some h' := by
  rw [← Option.ne_none_iff_exists']
  exact fun hfull => lowest_eq_none_iff.mp hfull h hnonneg hlt hfree

/-- **A handle of a full table that is given back** is the next to be given out. -/
lemma lowest_update_none (hfull : lowest limit table = none) (hnonneg : 0 ≤ h) (hlt : h < limit) :
    lowest limit (Function.update table h none) = some h := by
  have hself : Function.update table h none h = none := Function.update_self ..
  obtain ⟨h', hlowest⟩ := lowest_isSome hnonneg hlt hself
  obtain ⟨hnonneg', hlt', hfree⟩ := lowest_eq_some hlowest
  by_cases heq : h' = h
  · rw [hlowest, heq]
  · rw [Function.update_of_ne heq] at hfree
    exact absurd hfree (lowest_eq_none_iff.mp hfull h' hnonneg' hlt')

end Handles
