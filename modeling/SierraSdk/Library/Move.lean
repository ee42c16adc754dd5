import SierraSdk.Library.Memory

/-!
# Moving cells

`move d dest src n` has the `n` cells from `src` on at `dest`, as they were before, whatever
the overlap. A move may be done in parts: upwards, from the lowest cells to the highest, if it
goes to a lower address (`move_up`), and downwards if it goes to a higher one (`move_down`).
`copyUp` and `copyDown` do it in parts of `w` cells.
-/

namespace Memory

variable {α : Type*}

/-- The memory with the `n` cells from `src` on written from `dest` on. -/
def move (d : ℕ → α) (dest src n : ℕ) : ℕ → α := store d dest (load d src n)

/-- Copy `n` parts of `w` cells, and go up by a part after each. -/
def copyUp (w : ℕ) (d : ℕ → α) (dest src : ℕ) : ℕ → ℕ → α
  | 0 => d
  | n + 1 => copyUp w (move d dest src w) (dest + w) (src + w) n

/-- Copy `n` parts of `w` cells, and go down by a part after each. -/
def copyDown (w : ℕ) (d : ℕ → α) (dest src : ℕ) : ℕ → ℕ → α
  | 0 => d
  | n + 1 => copyDown w (move d dest src w) (dest - w) (src - w) n

@[simp] theorem move_zero (d : ℕ → α) (dest src : ℕ) : move d dest src 0 = d := store_nil d dest

theorem load_move (d : ℕ → α) (dest src n : ℕ) : load (move d dest src n) dest n = load d src n :=
  load_store_of_length d dest (length_load d src n)

/-- A move leaves the cells outside its destination. -/
theorem move_of_outside {d : ℕ → α} {dest src n j : ℕ} (h : j < dest ∨ dest + n ≤ j) :
    move d dest src n j = d j := by
  rcases h with h | h
  · exact store_of_lt h
  · exact store_of_ge (by rwa [length_load])

/-- A move to a lower address, the lower cells first. -/
theorem move_up (d : ℕ → α) {dest src : ℕ} (h : dest ≤ src) (m n : ℕ) :
    move (move d dest src m) (dest + m) (src + m) n = move d dest src (m + n) := by
  have hsrc : load (move d dest src m) (src + m) n = load d (src + m) n :=
    load_store_of_disjoint (.inr (by
      rw [length_load]
      exact Nat.add_le_add_right h m))
  have happend := store_append d dest (load d src m) (load d (src + m) n)
  rw [length_load] at happend
  rw [move, hsrc, move, happend, ← load_add, move]

/-- A move to a higher address, the higher cells first. -/
theorem move_down (d : ℕ → α) {dest src : ℕ} (h : src ≤ dest) (m n : ℕ) :
    move (move d (dest + m) (src + m) n) dest src m = move d dest src (m + n) := by
  have hsrc : load (move d (dest + m) (src + m) n) src m = load d src m :=
    load_store_of_disjoint (.inl (Nat.add_le_add_right h m))
  have happend := store_append d dest (load d src m) (load d (src + m) n)
  rw [length_load] at happend
  have hle : dest + (load d src m).length ≤ dest + m := Nat.le_of_eq (by rw [length_load])
  rw [move, hsrc, move, ← store_comm_of_le hle, happend, ← load_add, move]

/-- Copying upwards moves the cells to a lower address. -/
theorem copyUp_eq (w : ℕ) (d : ℕ → α) {dest src : ℕ} (h : dest ≤ src) (n : ℕ) :
    copyUp w d dest src n = move d dest src (w * n) := by
  induction n generalizing d dest src with
  | zero => exact (move_zero d dest src).symm
  | succ n ih =>
      rw [copyUp, ih _ (Nat.add_le_add_right h w), move_up d h, Nat.mul_succ, Nat.add_comm]

/-- Copying downwards, from the last part on, moves the cells to a higher address. -/
theorem copyDown_eq (w : ℕ) (d : ℕ → α) {dest src : ℕ} (h : src ≤ dest) (n : ℕ) :
    copyDown w d (dest + w * (n - 1)) (src + w * (n - 1)) n = move d dest src (w * n) := by
  induction n generalizing d with
  | zero => exact (move_zero d dest src).symm
  | succ n ih =>
      rw [Nat.add_sub_cancel, copyDown]
      cases n with
      | zero => simp [copyDown]
      | succ n =>
          -- the next part is the one below
          have hbelow : ∀ a, a + w * (n + 1) - w = a + w * (n + 1 - 1) := by
            intro a
            rw [Nat.add_sub_cancel, Nat.mul_succ, ← Nat.add_assoc, Nat.add_sub_cancel]
          rw [hbelow, hbelow, ih, move_down d h, ← Nat.mul_succ]

end Memory
