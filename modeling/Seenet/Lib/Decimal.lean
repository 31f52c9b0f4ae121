import Mathlib.Data.Nat.Digits.Defs
import Mathlib.Tactic.Common

/-!
# Numbers in decimal

What `toString` writes for a natural number or an integer.  Different numbers have different texts
(`toString_nat_injective`, `toString_int_injective`), and a number below `10 ^ k` takes at most `k` digits
(`length_toString_int_le`).
-/

namespace Decimal

lemma toString_nat_injective : Function.Injective (toString : ℕ → String) := by
  intro m n h
  have hdigits : Nat.toDigits 10 m = Nat.toDigits 10 n := by
    simpa only [Nat.toString_eq_repr, Nat.toList_repr] using congrArg String.toList h
  simpa using congrArg (fun digits => Nat.ofDigitChars 10 digits 0) hdigits

/-- No number begins with a sign. -/
lemma toString_nat_ne_neg (m : ℕ) (text : String) : toString m ≠ "-" ++ text := by
  intro h
  have hsign : '-' ∈ Nat.toDigits 10 m := by
    have hlist := congrArg String.toList h
    rw [Nat.toString_eq_repr, Nat.toList_repr, String.toList_append] at hlist
    rw [hlist]
    simp
  have hdigit := Nat.isDigit_of_mem_toDigits (by decide) (by decide) hsign
  exact absurd hdigit (by decide)

lemma toString_ofNat (m : ℕ) : toString (Int.ofNat m) = toString m := rfl

lemma toString_negSucc (m : ℕ) : toString (Int.negSucc m) = "-" ++ toString (m + 1) := rfl

lemma toString_int_injective : Function.Injective (toString : ℤ → String) := by
  intro a b h
  cases a with
  | ofNat m =>
      cases b with
      | ofNat n =>
          rw [toString_ofNat, toString_ofNat] at h
          rw [toString_nat_injective h]
      | negSucc n => exact absurd h (toString_nat_ne_neg m _)
  | negSucc m =>
      cases b with
      | ofNat n => exact absurd h.symm (toString_nat_ne_neg n _)
      | negSucc n =>
          rw [toString_negSucc, toString_negSucc, String.append_right_inj] at h
          rw [Nat.succ_injective (toString_nat_injective h)]

lemma length_toString_nat_le {m k : ℕ} (hk : 0 < k) (h : m < 10 ^ k) : (toString m).length ≤ k := by
  rw [Nat.toString_eq_repr]
  exact (Nat.length_repr_le_iff hk).mpr h

/-- A digit for each power of ten, and the sign. -/
lemma length_toString_int_le {a : ℤ} {k : ℕ} (hk : 0 < k) (h : a.natAbs < 10 ^ k) :
    (toString a).length ≤ k + 1 := by
  cases a with
  | ofNat m => exact (length_toString_nat_le hk h).trans (Nat.le_succ k)
  | negSucc m =>
      rw [toString_negSucc, String.length_append, Nat.add_comm]
      exact Nat.add_le_add_right (length_toString_nat_le hk h) 1

end Decimal
