import Mathlib.Data.Int.CardIntervalMod
import Mathlib.Tactic.Common

/-!
# In turn

`n` things are handed out in turn, any number of times: `turns`.

* `count_turns` — how often each of them was.
* **`count_turns_le`** — no two of them differ by more than one.
* **`count_window`** — among any `n` in a row, each is there once.
-/

namespace RoundRobin

variable {α : Type*} {thing : ℕ → α} {n k m i j : ℕ}

/-- The first `k` things handed out, of `n` in turn. -/
def turns (thing : ℕ → α) (n k : ℕ) : List α := (List.range k).map fun m => thing (m % n)

lemma take_turns (h : m ≤ k) : (turns thing n k).take m = turns thing n m := by
  rw [turns, ← List.map_take, List.take_range, Nat.min_eq_left h, turns]

variable [DecidableEq α]

/-- **How often each thing was handed out.** -/
lemma count_turns (hinj : Function.Injective thing) (hi : i < n) (k : ℕ) :
    (turns thing n k).count (thing i) = k / n + if i < k % n then 1 else 0 := by
  have hcount : (turns thing n k).count (thing i) = k.count (· ≡ i [MOD n]) := by
    rw [turns, List.count, List.countP_map, Nat.count]
    refine List.countP_congr fun m _ => ?_
    simp only [Function.comp_apply, beq_iff_eq, hinj.eq_iff, decide_eq_true_eq, Nat.ModEq,
      Nat.mod_eq_of_lt hi]
  rw [hcount, Nat.count_modEq_card k (Nat.zero_lt_of_lt hi), Nat.mod_eq_of_lt hi]

/-- **Fairness.** -/
theorem count_turns_le (hinj : Function.Injective thing) (hi : i < n) (hj : j < n) (k : ℕ) :
    (turns thing n k).count (thing i) ≤ (turns thing n k).count (thing j) + 1 := by
  rw [count_turns hinj hi, count_turns hinj hj]
  split_ifs <;> omega

/-- **A full round**, wherever it begins. -/
theorem count_window (hinj : Function.Injective thing) (hi : i < n) (h : m + n ≤ k) :
    (((turns thing n k).drop m).take n).count (thing i) = 1 := by
  have hn : 0 < n := Nat.zero_lt_of_lt hi
  have hsplit : turns thing n (m + n) = turns thing n m ++ ((turns thing n k).drop m).take n := by
    rw [← take_turns h, List.take_add, take_turns (Nat.le_of_add_right_le h)]
  have hcount := congrArg (List.count (thing i)) hsplit
  rw [List.count_append, count_turns hinj hi, count_turns hinj hi, Nat.add_mod_right,
    Nat.add_div_right m hn] at hcount
  omega

end RoundRobin
