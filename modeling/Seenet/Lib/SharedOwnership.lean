import Mathlib.Data.List.Count
import Mathlib.Data.List.Nodup
import Mathlib.Tactic.Common

/-!
# Shared ownership

Objects that live as long as somebody owns them: an object is disposed of when its last owner goes away.  Some
code may also dispose of an object by hand, without a look at its owners.  Both are events.

* `Account` — what the history of the objects has to do with who owns them now: an object has been disposed of
  by its last owner exactly when it has no owner any more.
* `Account.step` — any change of the owners keeps the account, as long as only who owns an object can make it
  another owner.
* **`Account.disposals_le_one_iff`** — when nobody owns anything any more, each object was disposed of at most
  once if and only if none was disposed of by hand.
-/

namespace SharedOwnership

/-- An object is disposed of. -/
inductive Event (ι : Type*)
  | lastOwner (i : ι)
  | delete (i : ι)
  deriving DecidableEq, Repr

variable {ι : Type*} [DecidableEq ι] {born new dels : List ι} {own own' : ι → Prop} [DecidablePred own]
  [DecidablePred own'] {events : List (Event ι)} {i : ι}

/-- How often an object was disposed of. -/
def disposals (events : List (Event ι)) (i : ι) : ℕ :=
  events.count (.delete i) + events.count (.lastOwner i)

/-- The objects that lose their last owner. -/
def released (born : List ι) (own own' : ι → Prop) [DecidablePred own] [DecidablePred own'] : List ι :=
  born.filter fun i => own i ∧ ¬ own' i

/-- The history after a change of the owners, in which the objects `dels` are disposed of by hand. -/
def record (born : List ι) (own own' : ι → Prop) [DecidablePred own] [DecidablePred own'] (dels : List ι)
    (events : List (Event ι)) : List (Event ι) :=
  events ++ dels.map .delete ++ (released born own own').map .lastOwner

/-- The objects `born`, their owners and their history fit together. -/
structure Account (born : List ι) (own : ι → Prop) [DecidablePred own] (events : List (Event ι)) : Prop where
  nodup : born.Nodup
  owned : ∀ i, own i → i ∈ born
  lastOwner : ∀ i, events.count (.lastOwner i) = if i ∈ born ∧ ¬ own i then 1 else 0

/-! ## The events of a change -/

lemma count_lastOwner_deletes (dels : List ι) : (dels.map Event.delete).count (.lastOwner i) = 0 := by
  rw [List.count_eq_zero]
  intro hmem
  obtain ⟨j, -, hj⟩ := List.mem_map.mp hmem
  exact absurd hj (by simp)

lemma count_delete_releases (l : List ι) : (l.map Event.lastOwner).count (.delete i) = 0 := by
  rw [List.count_eq_zero]
  intro hmem
  obtain ⟨j, -, hj⟩ := List.mem_map.mp hmem
  exact absurd hj (by simp)

lemma count_lastOwner_releases (l : List ι) : (l.map Event.lastOwner).count (.lastOwner i) = l.count i :=
  List.count_map_of_injective l _ (fun _ _ h => Event.lastOwner.inj h) i

lemma count_delete_deletes (l : List ι) : (l.map Event.delete).count (.delete i) = l.count i :=
  List.count_map_of_injective l _ (fun _ _ h => Event.delete.inj h) i

lemma count_lastOwner_record : (record born own own' dels events).count (.lastOwner i)
    = events.count (.lastOwner i) + (released born own own').count i := by
  rw [record, List.count_append, List.count_append, count_lastOwner_deletes, count_lastOwner_releases,
    Nat.add_zero]

lemma count_delete_record : (record born own own' dels events).count (.delete i)
    = events.count (.delete i) + dels.count i := by
  rw [record, List.count_append, List.count_append, count_delete_deletes, count_delete_releases, Nat.add_zero]

lemma count_released (h : born.Nodup) :
    (released born own own').count i = if i ∈ born ∧ own i ∧ ¬ own' i then 1 else 0 := by
  rw [released, (h.filter _).count]
  simp only [List.mem_filter, decide_eq_true_iff]

/-! ## The account -/

/-- **A change of the owners.**  The objects `new` are made, and each of them has an owner. -/
lemma Account.step (h : Account born own events) (dels : List ι) (hnodup : (born ++ new).Nodup)
    (hnew : ∀ i ∈ new, own' i) (hown : ∀ i, own' i → own i ∨ i ∈ new) :
    Account (born ++ new) own' (record born own own' dels events) where
  nodup := hnodup
  owned i hi := by
    rw [List.mem_append]
    exact (hown i hi).imp_left (h.owned i)
  lastOwner i := by
    rw [count_lastOwner_record, count_released h.nodup, h.lastOwner i]
    by_cases hn : i ∈ new
    · -- it has not been there before
      have hborn : i ∉ born := fun hi => (List.nodup_append.mp hnodup).2.2 i hi i hn rfl
      simp [hborn, hn, hnew i hn]
    · by_cases hborn : i ∈ born
      · by_cases ho : own i
        · by_cases ho' : own' i <;> simp [hborn, ho, ho']
        · -- without an owner, it gets no other one
          have ho' : ¬ own' i := fun hi => (hown i hi).elim ho hn
          simp [hborn, ho, ho']
      · simp [hborn, hn]

/-- Nothing is disposed of twice, if nothing was disposed of by hand. -/
lemma Account.disposals_le_one (h : Account born own events) (hdel : ∀ i, .delete i ∉ events) (i : ι) :
    disposals events i ≤ 1 ∧ (own i → disposals events i = 0) := by
  rw [disposals, List.count_eq_zero.mpr (hdel i), h.lastOwner i]
  constructor
  · split_ifs <;> omega
  · intro hi
    simp [hi]

/-- **Exactly then**, when nobody owns anything any more. -/
lemma Account.disposals_le_one_iff (h : Account born own events) (hborn : ∀ i, .delete i ∈ events → i ∈ born)
    (hnone : ∀ i, ¬ own i) : (∀ i, disposals events i ≤ 1) ↔ ∀ i, .delete i ∉ events := by
  constructor
  · intro hle i hi
    have hone := hle i
    rw [disposals, h.lastOwner i, if_pos ⟨hborn i hi, hnone i⟩] at hone
    have hpos := List.count_pos_iff.mpr hi
    omega
  · exact fun hdel i => (h.disposals_le_one hdel i).1

end SharedOwnership
