import SierraSdk.Library.Memory

/-!
# Type-length-value sequences

A sequence of elements lies in a memory from some address up to an end address. Each element
begins with a header of `L.hdr` cells, from which `L.len` reads the length of the value that
follows. `scan L d size i` walks from address `i` to `size` and gives the addresses of the
headers and how the walk ended: at `size` (`complete`), where no further header fits
(`truncated`), or at an element whose value runs past `size` (`overlong`; that element is the
last of the list).
-/

namespace Tlv

variable {α : Type*}

/-- The layout of the elements: the size of a header, and the length of the value after the
header at an address. -/
structure Layout (α : Type*) where
  hdr : ℕ
  hdr_pos : 0 < hdr
  len : (ℕ → α) → ℕ → ℕ

/-- How a walk ends. -/
inductive Ending where
  | complete
  | truncated
  | overlong
  deriving DecidableEq

namespace Layout

variable (L : Layout α) (d : ℕ → α)

/-- The address of the value of the element at `i`. -/
def value (i : ℕ) : ℕ := i + L.hdr

/-- The address after the element at `i`. -/
def next (i : ℕ) : ℕ := i + L.hdr + L.len d i

theorem value_le_next (i : ℕ) : L.value i ≤ L.next d i := Nat.le_add_right _ _

theorem lt_value (i : ℕ) : i < L.value i := Nat.lt_add_of_pos_right L.hdr_pos

theorem lt_next (i : ℕ) : i < L.next d i := Nat.lt_of_lt_of_le (L.lt_value i) (L.value_le_next d i)

end Layout

/-- The addresses of the elements from `i` on, and how the walk ends. -/
def scan (L : Layout α) (d : ℕ → α) (size i : ℕ) : List ℕ × Ending :=
  if i = size then ([], .complete)
  else if size < L.value i then ([], .truncated)
  else if size < L.next d i then ([i], .overlong)
  else ((i :: (scan L d size (L.next d i)).1), (scan L d size (L.next d i)).2)
termination_by size - i
decreasing_by
  all_goals
    have := L.lt_next d i
    omega

section Scan

variable {L : Layout α} {d : ℕ → α} {size i : ℕ}

theorem scan_complete : scan L d size size = ([], .complete) := by
  rw [scan, if_pos rfl]

theorem scan_truncated (hne : i ≠ size) (h : size < L.value i) :
    scan L d size i = ([], .truncated) := by
  rw [scan, if_neg hne, if_pos h]

theorem ne_of_value_le (h : L.value i ≤ size) : i ≠ size :=
  Nat.ne_of_lt (Nat.lt_of_lt_of_le (L.lt_value i) h)

theorem scan_overlong (hvalue : L.value i ≤ size) (h : size < L.next d i) :
    scan L d size i = ([i], .overlong) := by
  rw [scan, if_neg (ne_of_value_le hvalue), if_neg (Nat.not_lt.mpr hvalue), if_pos h]

theorem scan_next (h : L.next d i ≤ size) :
    scan L d size i =
      (i :: (scan L d size (L.next d i)).1, (scan L d size (L.next d i)).2) := by
  have hvalue : L.value i ≤ size := Nat.le_trans (L.value_le_next d i) h
  rw [scan, if_neg (ne_of_value_le hvalue), if_neg (Nat.not_lt.mpr hvalue),
    if_neg (Nat.not_lt.mpr h)]

/-- The cases of a walk. -/
theorem scan_induction {P : ℕ → Prop} (L : Layout α) (d : ℕ → α) (size : ℕ)
    (complete : P size)
    (truncated : ∀ i, i ≠ size → size < L.value i → P i)
    (overlong : ∀ i, L.value i ≤ size → size < L.next d i → P i)
    (next : ∀ i, L.next d i ≤ size → P (L.next d i) → P i) (i : ℕ) : P i := by
  induction i using scan.induct L d size with
  | case1 => exact complete
  | case2 i hne h => exact truncated i hne h
  | case3 i hne hvalue h => exact overlong i (Nat.le_of_not_lt hvalue) h
  | case4 i hne hvalue h ih => exact next i (Nat.le_of_not_lt h) ih

end Scan

end Tlv
