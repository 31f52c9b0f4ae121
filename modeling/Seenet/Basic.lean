import Mathlib.Algebra.Group.Nat.Defs
import Mathlib.Data.Nat.Basic
import Mathlib.Data.List.Basic
import Mathlib.Tactic.Common

/-!
# How a call of the library ends

Every function of the library is modelled as a function into `Res`: it returns, or it stops for one
of the reasons listed in `Stop`.  `assert(...)` of the source is `assertThat`; the asserts are taken
to be compiled in, and a failing one aborts the process.

The second part is the arithmetic of `size_t`, 64 bits wide and wrapping.
-/

namespace Seenet

/-- The functions of the library that assert something. -/
inductive Site
  | buffer | findCRLF | findEOL | retrieve | retrieveUntil | retrieveAllAsString
  | ensureWritableBytes | hasWritten | unwrite | peekInt | prepend | makeSpace
  | updateChannel | removeChannel | fillActiveChannels
  | loop
  | connectEstablished | handleClose | sendInLoop
  | start | getNextLoop
  | startLoop
  | insert | cancelInLoop
  | toIp | toIpPort
  deriving DecidableEq, Repr

/-- Why there is no next state. -/
inductive Stop
  /-- An `assert` fails, and the process aborts. -/
  | assertFailed (site : Site)
  /-- `vector::resize` throws `bad_alloc` or `length_error`. -/
  | badAlloc
  /-- Memory outside of an array is read or written: undefined behaviour. -/
  | outOfBounds
  /-- A function that returns a value flows off its end: undefined behaviour. -/
  | missingReturn
  /-- An object is used that does not exist, or no longer does: undefined behaviour. -/
  | noObject
  /-- `delete` is given an address that `new` has not returned: undefined behaviour, the C library aborts. -/
  | badDelete
  /-- This cannot happen here: the step is not one of the program, or the outcome offered is not
  one the kernel can produce. -/
  | disabled
  deriving DecidableEq, Repr

/-- The result of a call. -/
abbrev Res (α : Type*) := Except Stop α

section Bind

universe u

variable {α β : Type u}

-- The parentheses keep these from being used by unfolding, where the kernel would evaluate the
-- two sides instead of reading the lemma.

@[simp] lemma bind_ok (a : α) (f : α → Res β) : ((Except.ok a : Res α) >>= f) = f a := (rfl)

@[simp] lemma bind_error (e : Stop) (f : α → Res β) :
    ((Except.error e : Res α) >>= f) = .error e := (rfl)

@[simp] lemma pure_eq_ok (a : α) : (pure a : Res α) = .ok a := (rfl)

@[simp] lemma throw_eq_error (e : Stop) : (throw e : Res α) = .error e := (rfl)

/-- A sequence of two calls returns exactly when both do. -/
lemma bind_eq_ok {x : Res α} {f : α → Res β} {b : β} :
    (x >>= f) = .ok b ↔ ∃ a, x = .ok a ∧ f a = .ok b := by
  cases x with
  | ok a => simp
  | error e => simp

/-- A sequence of two calls stops where the first one does, or where the second one does. -/
lemma bind_eq_error {x : Res α} {f : α → Res β} {e : Stop} :
    (x >>= f) = .error e ↔ x = .error e ∨ ∃ a, x = .ok a ∧ f a = .error e := by
  cases x with
  | ok a => simp
  | error e => simp

/-- A guarded call returns exactly when the guard holds and the call returns. -/
lemma guard_eq_ok {p : Prop} [Decidable p] {x : Res α} {e : Stop} {a : α} :
    (if p then x else .error e) = .ok a ↔ p ∧ x = .ok a := by
  split_ifs with h <;> simp [h]

/-- What a call is known to return, once it has returned. -/
lemma spec_of_ok {x : Res α} {P : α → Prop} {a : α} (h : ∃ a', x = .ok a' ∧ P a') (hok : x = .ok a) : P a := by
  obtain ⟨a', hok', hspec⟩ := h
  rw [hok, Except.ok.injEq] at hok'
  rwa [hok']

end Bind

/-! ## Assertions -/

/-- `assert(p)` in the function `site`. -/
def assertThat (p : Prop) [Decidable p] (site : Site) : Res Unit :=
  if p then .ok () else .error (.assertFailed site)

variable {p : Prop} [Decidable p] {site : Site}

@[simp] lemma assertThat_eq_ok {u : Unit} : assertThat p site = .ok u ↔ p := by
  rw [assertThat]
  split_ifs with h <;> simp [h]

lemma assertThat_pos (h : p) : assertThat p site = .ok () := if_pos h

lemma assertThat_eq_error {e : Stop} :
    assertThat p site = .error e ↔ ¬ p ∧ e = .assertFailed site := by
  rw [assertThat]
  split_ifs with h
  · simp [h]
  · simp only [Except.error.injEq, h, not_false_eq_true, true_and]
    exact eq_comm

/-- The call does not end with a failed assertion of `site`. -/
def Passes {α : Type*} (site : Site) (x : Res α) : Prop := x ≠ .error (.assertFailed site)

namespace Passes

universe u

variable {α β : Type u} {x : Res α} {f : α → Res β} {e : Stop} {site' : Site}

lemma ok (a : α) : Passes site (.ok a) := by simp [Passes]

lemma error (h : e ≠ .assertFailed site) : Passes site (.error e : Res α) := by simpa [Passes] using h

/-- A sequence of two calls. -/
lemma bind (hx : Passes site x) (hf : ∀ a, x = .ok a → Passes site (f a)) :
    Passes site (x >>= f) := by
  intro h
  rcases bind_eq_error.mp h with h | ⟨a, ha, h⟩
  · exact hx h
  · exact hf a ha h

lemma of_eq_ok {a : α} (h : x = .ok a) : Passes site x := by
  rw [h]
  exact ok a

/-- An assertion of another function. -/
lemma assertThat_of_ne (h : site' ≠ site) : Passes site (assertThat p site') := by
  intro herror
  rw [assertThat_eq_error, Stop.assertFailed.injEq] at herror
  exact h herror.2.symm

/-- An assertion that holds. -/
lemma assertThat_of_pos (h : p) : Passes site (assertThat p site') := of_eq_ok (assertThat_pos h)

end Passes

/-! ## `size_t` -/

/-- `a + b` in `size_t`. -/
def sizeAdd (a b : ℕ) : ℕ := (a + b) % 2 ^ 64

/-- `a - b` in `size_t`. -/
def sizeSub (a b : ℕ) : ℕ := (a + 2 ^ 64 - b) % 2 ^ 64

lemma sizeAdd_eq {a b : ℕ} (h : a + b < 2 ^ 64) : sizeAdd a b = a + b := Nat.mod_eq_of_lt h

lemma sizeSub_eq {a b : ℕ} (hb : b ≤ a) (ha : a < 2 ^ 64) : sizeSub a b = a - b := by
  rw [sizeSub, show a + 2 ^ 64 - b = (a - b) + 2 ^ 64 by omega, Nat.add_mod_right]
  exact Nat.mod_eq_of_lt (by omega)

end Seenet
