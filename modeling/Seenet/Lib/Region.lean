import Mathlib.Data.List.TakeDrop
import Mathlib.Tactic.Common

/-!
# Regions of an array

`region l i j` is the part of `l` from position `i` up to, and not including, position `j`;
`overwrite l p d` is `l` with `d` copied over it from position `p` on.  These are what a pointer
range and a `memcpy` are on a list of cells.

Everything is read off cell by cell: `getElem?_region` and `getElem?_overwrite` say what a cell
holds, and each law below is `List.ext_getElem?` and those two.  The laws a user needs:

* `region_append_region`, `drop_region`, `take_region`, `region_region` — a region is cut and joined at positions;
* `region_overwrite_self`, `region_overwrite_of_le` — what is written is read back, and what lies
  before it is untouched;
* `region_append_left` — growing the array behind a region.
-/

namespace Region

variable {α : Type*}

/-- The cells of `l` from position `i` up to position `j`. -/
def region (l : List α) (i j : ℕ) : List α := (l.take j).drop i

/-- `l` with the cells from position `p` on replaced by `d`. -/
def overwrite (l : List α) (p : ℕ) (d : List α) : List α :=
  l.take p ++ d ++ l.drop (p + d.length)

/-! ## Cell by cell -/

lemma getElem?_region (l : List α) (i j k : ℕ) :
    (region l i j)[k]? = if i + k < j then l[i + k]? else none := by
  rw [region, List.getElem?_drop, List.getElem?_take]

lemma getElem?_overwrite {l : List α} {p : ℕ} {d : List α} (hp : p ≤ l.length) (k : ℕ) :
    (overwrite l p d)[k]? =
      if k < p then l[k]? else if k < p + d.length then d[k - p]? else l[k]? := by
  have htake : (l.take p).length = p := by rw [List.length_take, Nat.min_eq_left hp]
  rw [overwrite, List.append_assoc]
  split_ifs with h1 h2
  · rw [List.getElem?_append_left (by omega), List.getElem?_take, if_pos h1]
  · rw [List.getElem?_append_right (by omega), htake, List.getElem?_append_left (by omega)]
  · rw [List.getElem?_append_right (by omega), htake, List.getElem?_append_right (by omega),
      List.getElem?_drop]
    congr 1
    omega

/-! ## Sizes -/

lemma length_region {l : List α} {i j : ℕ} (hj : j ≤ l.length) :
    (region l i j).length = j - i := by
  rw [region, List.length_drop, List.length_take, Nat.min_eq_left hj]

lemma length_overwrite {l : List α} {p : ℕ} {d : List α} (h : p + d.length ≤ l.length) :
    (overwrite l p d).length = l.length := by
  simp only [overwrite, List.length_append, List.length_take, List.length_drop]
  omega

@[simp] lemma region_self (l : List α) (i : ℕ) : region l i i = [] := by
  rw [region, List.drop_eq_nil_iff, List.length_take]
  exact Nat.min_le_left _ _

/-! ## Cutting and joining -/

lemma region_append_region (l : List α) {i j k : ℕ} (hij : i ≤ j) (hjk : j ≤ k)
    (hk : k ≤ l.length) : region l i j ++ region l j k = region l i k := by
  apply List.ext_getElem?
  intro n
  have hlen : (region l i j).length = j - i := length_region (by omega)
  rcases Nat.lt_or_ge n (j - i) with h | h
  · rw [List.getElem?_append_left (by omega), getElem?_region, getElem?_region,
      if_pos (by omega), if_pos (by omega)]
  · rw [List.getElem?_append_right (by omega), hlen, getElem?_region, getElem?_region,
      show j + (n - (j - i)) = i + n by omega]

lemma drop_region (l : List α) (i j n : ℕ) : (region l i j).drop n = region l (i + n) j := by
  rw [region, region, List.drop_drop, Nat.add_comm]

lemma take_region (l : List α) {i j n : ℕ} (h : i + n ≤ j) :
    (region l i j).take n = region l i (i + n) := by
  apply List.ext_getElem?
  intro k
  rw [List.getElem?_take, getElem?_region, getElem?_region]
  split_ifs <;> first | rfl | omega

/-- A region of a region. -/
lemma region_region (l : List α) {i j m n : ℕ} (h : i + n ≤ j) :
    region (region l i j) m n = region l (i + m) (i + n) := by
  apply List.ext_getElem?
  intro k
  rw [getElem?_region, getElem?_region, getElem?_region, Nat.add_assoc]
  split_ifs <;> first | rfl | omega

/-! ## Writing -/

/-- What is written is read back. -/
lemma region_overwrite_self {l : List α} {p : ℕ} (d : List α) (hp : p ≤ l.length) :
    region (overwrite l p d) p (p + d.length) = d := by
  apply List.ext_getElem?
  intro k
  rw [getElem?_region, getElem?_overwrite hp]
  split_ifs with h1 h2
  · omega
  · rw [Nat.add_sub_cancel_left]
  · rw [List.getElem?_eq_none (by omega)]

/-- What lies before the position written to is untouched. -/
lemma region_overwrite_of_le {l : List α} {p : ℕ} (d : List α) (hp : p ≤ l.length) {i j : ℕ}
    (hj : j ≤ p) : region (overwrite l p d) i j = region l i j := by
  apply List.ext_getElem?
  intro k
  rw [getElem?_region, getElem?_region]
  split_ifs with h
  · rw [getElem?_overwrite hp, if_pos (by omega)]
  · rfl

/-- What lies behind the cells written to is untouched. -/
lemma region_overwrite_of_ge {l : List α} {p : ℕ} (d : List α) (hp : p ≤ l.length) {i j : ℕ}
    (hi : p + d.length ≤ i) : region (overwrite l p d) i j = region l i j := by
  apply List.ext_getElem?
  intro k
  rw [getElem?_region, getElem?_region]
  split_ifs with h
  · rw [getElem?_overwrite hp, if_neg (by omega), if_neg (by omega)]
  · rfl

/-! ## Growing and truncating -/

lemma region_append_left {l : List α} (m : List α) {i j : ℕ} (hj : j ≤ l.length) :
    region (l ++ m) i j = region l i j := by
  rw [region, region, List.take_append_of_le_length hj]

end Region
