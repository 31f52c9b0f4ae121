import Mathlib.Data.Finset.Card
import Mathlib.Data.Finset.Insert
import Mathlib.Data.Finset.Erase

/-!
# Indexes of a set

The same elements can be kept in several tables, each ordered by a key of its own.  A table *indexes* a set
under a key if it holds the keys of the elements, and no others.  Under a key that tells the elements
apart, the table has an entry for each element.

* `Indexes` — the table holds the set under the key.
* `insert`, `erase`, `congr` — what keeps it that way.
* `mem_iff`, `card_eq` — what can be read off the table.
-/

/-- The table `I` holds the elements of `S` under `key`. -/
def Indexes {ι κ : Type*} (key : ι → κ) (S : Finset ι) (I : Finset κ) : Prop :=
  ∀ k, k ∈ I ↔ ∃ i ∈ S, key i = k

namespace Indexes

variable {ι κ κ' : Type*} {key key' : ι → κ} {S : Finset ι} {I : Finset κ} {i : ι}

lemma empty : Indexes key ∅ ∅ := by simp [Indexes]

/-- An element is in the set if its key is in the table. -/
lemma mem_iff (h : Indexes key S I) (hkey : Function.Injective key) : key i ∈ I ↔ i ∈ S := by
  rw [h]
  constructor
  · rintro ⟨j, hj, hij⟩
    rwa [← hkey hij]
  · exact fun hi => ⟨i, hi, rfl⟩

/-- The table has an entry for each element. -/
lemma card_eq (h : Indexes key S I) (hkey : Function.Injective key) : I.card = S.card := by
  refine (Finset.card_bij (fun i _ => key i) ?_ ?_ ?_).symm
  · exact fun i hi => (h.mem_iff hkey).mpr hi
  · exact fun i _ j _ hij => hkey hij
  · intro k hk
    obtain ⟨i, hi, hik⟩ := (h k).mp hk
    exact ⟨i, hi, hik⟩

lemma insert [DecidableEq ι] [DecidableEq κ] (h : Indexes key S I) :
    Indexes key (insert i S) (insert (key i) I) := by
  intro k
  rw [Finset.mem_insert, h k, Finset.exists_mem_insert, eq_comm]

lemma erase [DecidableEq ι] [DecidableEq κ] (h : Indexes key S I) (hkey : Function.Injective key) :
    Indexes key (S.erase i) (I.erase (key i)) := by
  intro k
  rw [Finset.mem_erase, h k]
  constructor
  · rintro ⟨hne, j, hj, rfl⟩
    exact ⟨j, Finset.mem_erase.mpr ⟨fun hji => hne (congrArg key hji), hj⟩, rfl⟩
  · rintro ⟨j, hj, rfl⟩
    obtain ⟨hji, hj⟩ := Finset.mem_erase.mp hj
    exact ⟨hkey.ne hji, j, hj, rfl⟩

/-- Only the keys of the elements matter. -/
lemma congr (h : Indexes key S I) (heq : ∀ i ∈ S, key i = key' i) : Indexes key' S I := by
  intro k
  rw [h k]
  refine exists_congr fun i => and_congr_right fun hi => ?_
  rw [heq i hi]

end Indexes
