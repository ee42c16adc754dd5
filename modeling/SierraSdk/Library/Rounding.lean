import Mathlib.Algebra.Group.Nat.Defs
import Mathlib.Data.List.Basic

/-!
# Rounding up to a multiple

`RoundedUp size n m` says that `m` is the least multiple of `size` that is not below `n`. It is
what the division with rounding up gives, and what a list has that is cut in blocks of `size` when
the last one is filled up.
-/

namespace Rounding

/-- The least multiple of `size` that is not below `n`. -/
def RoundedUp (size n m : ℕ) : Prop := size ∣ m ∧ n ≤ m ∧ m < n + size

instance (size n m : ℕ) : Decidable (RoundedUp size n m) :=
  inferInstanceAs (Decidable (_ ∧ _ ∧ _))

variable {size n m : ℕ}

/-- The division with rounding up. -/
theorem roundedUp_div (h : 0 < size) (n : ℕ) :
    RoundedUp size n ((n + size - 1) / size * size) := by
  have hdiv := Nat.div_add_mod' (n + size - 1) size
  have hmod := Nat.mod_lt (n + size - 1) h
  refine ⟨Nat.dvd_mul_left _ _, ?_, ?_⟩
  · omega
  · omega

theorem RoundedUp.unique {k : ℕ} (h : RoundedUp size n m) (h' : RoundedUp size n k) : m = k := by
  obtain ⟨⟨a, rfl⟩, hle, hlt⟩ := h
  obtain ⟨⟨b, rfl⟩, hle', hlt'⟩ := h'
  have hab : size * a < size * (b + 1) := Nat.lt_of_lt_of_le hlt (Nat.add_le_add_right hle' size)
  have hba : size * b < size * (a + 1) := Nat.lt_of_lt_of_le hlt' (Nat.add_le_add_right hle size)
  have ha : a < b + 1 := Nat.lt_of_mul_lt_mul_left hab
  have hb : b < a + 1 := Nat.lt_of_mul_lt_mul_left hba
  rw [Nat.le_antisymm (Nat.le_of_lt_succ ha) (Nat.le_of_lt_succ hb)]

/-- A size is rounded up to nothing only if it is nothing. -/
theorem roundedUp_zero (h : 0 < size) : RoundedUp size 0 0 :=
  ⟨Nat.dvd_zero size, Nat.le_refl 0, Nat.lt_of_lt_of_le h (Nat.le_add_left size 0)⟩

/-- What does not fill a block is rounded up to one. -/
theorem roundedUp_block (h : 0 < n) (hlt : n ≤ size) : RoundedUp size n size :=
  ⟨Nat.dvd_refl size, hlt, Nat.lt_add_of_pos_left h⟩

/-- A block in front. -/
theorem RoundedUp.add_block (h : RoundedUp size n m) : RoundedUp size (size + n) (size + m) := by
  refine ⟨(Nat.dvd_add_right (Nat.dvd_refl size)).mpr h.1, Nat.add_le_add_left h.2.1 size, ?_⟩
  rw [Nat.add_assoc]
  exact Nat.add_lt_add_left h.2.2 size

end Rounding
