import Mathlib.Algebra.Group.Nat.Defs
import Mathlib.Data.List.Basic

/-!
# Blocks that tile an interval

A block is an offset and a length. `Tiles max i bs j` says that the blocks `bs` lie back to
back from offset `i` to offset `j`, and that none is empty or longer than `max`. Each offset
of the interval then lies in exactly one block (`Tiles.existsUnique`), and the blocks cut
from a list concatenate to the part of the list between `i` and `j` (`Tiles.flatMap_slice`).
-/

namespace Blocks

/-- The blocks lie back to back from `i` to `j`, none empty or longer than `max`. -/
def Tiles (max : ℕ) : ℕ → List (ℕ × ℕ) → ℕ → Prop
  | i, [], j => i = j
  | i, b :: bs, j => b.1 = i ∧ 0 < b.2 ∧ b.2 ≤ max ∧ Tiles max (i + b.2) bs j

variable {max i j : ℕ} {bs : List (ℕ × ℕ)}

theorem Tiles.le (h : Tiles max i bs j) : i ≤ j := by
  induction bs generalizing i with
  | nil => exact Nat.le_of_eq h
  | cons b bs ih => exact Nat.le_trans (Nat.le_add_right i b.2) (ih h.2.2.2)

/-- The blocks of a tiling lie inside the interval. -/
theorem Tiles.mem_le (h : Tiles max i bs j) {b : ℕ × ℕ} (hb : b ∈ bs) :
    i ≤ b.1 ∧ b.1 + b.2 ≤ j := by
  induction bs generalizing i with
  | nil => exact absurd hb List.not_mem_nil
  | cons c bs ih =>
      obtain ⟨hoffset, -, -, hrest⟩ := h
      rcases List.mem_cons.mp hb with rfl | hmem
      · rw [hoffset]
        exact ⟨Nat.le_refl i, hrest.le⟩
      · obtain ⟨hlow, hhigh⟩ := ih hrest hmem
        exact ⟨Nat.le_trans (Nat.le_add_right i c.2) hlow, hhigh⟩

/-- Every offset of the interval lies in exactly one block. -/
theorem Tiles.existsUnique (h : Tiles max i bs j) {x : ℕ} (hlow : i ≤ x) (hhigh : x < j) :
    ∃! b, b ∈ bs ∧ b.1 ≤ x ∧ x < b.1 + b.2 := by
  induction bs generalizing i with
  | nil =>
      obtain rfl : i = j := h
      exact absurd hhigh (Nat.not_lt.mpr hlow)
  | cons c bs ih =>
      obtain ⟨hoffset, -, -, hrest⟩ := h
      by_cases hx : x < i + c.2
      · refine ⟨c, ⟨List.mem_cons_self, hoffset ▸ hlow, hoffset ▸ hx⟩, ?_⟩
        rintro b ⟨hmem, hle, -⟩
        rcases List.mem_cons.mp hmem with rfl | hmem
        · rfl
        · exact absurd (Nat.le_trans (hrest.mem_le hmem).1 hle) (Nat.not_le.mpr hx)
      · obtain ⟨b, ⟨hmem, hle, hlt⟩, hunique⟩ := ih hrest (Nat.le_of_not_lt hx)
        refine ⟨b, ⟨List.mem_cons_of_mem c hmem, hle, hlt⟩, ?_⟩
        rintro b' ⟨hmem', hle', hlt'⟩
        rcases List.mem_cons.mp hmem' with rfl | hmem'
        · exact absurd (hoffset ▸ hlt') hx
        · exact hunique b' ⟨hmem', hle', hlt'⟩

/-- The cells of a list that lie in a block. -/
def slice {α : Type*} (xs : List α) (b : ℕ × ℕ) : List α := (xs.drop b.1).take b.2

/-- The blocks of a tiling cut a list without gap or overlap. -/
theorem Tiles.flatMap_slice {α : Type*} (xs : List α) (h : Tiles max i bs j) :
    bs.flatMap (slice xs) = slice xs (i, j - i) := by
  induction bs generalizing i with
  | nil =>
      obtain rfl : i = j := h
      simp [slice]
  | cons b bs ih =>
      obtain ⟨hoffset, -, -, hrest⟩ := h
      have hlen : j - i = b.2 + (j - (i + b.2)) := by
        have := hrest.le
        omega
      rw [List.flatMap_cons, ih hrest, hlen, slice, slice, slice, hoffset, List.take_add,
        List.drop_drop]

end Blocks
