import SierraSdk.Library.Move

/-!
# slmemcpy

`slmemcpy` copies byte by byte unless both addresses are word aligned, and then word by word
with the bytes that are left over behind the words. It goes downwards, from the last byte on,
if the source lies below the destination, and upwards otherwise. In each of the four cases the
result is the move of the bytes (`slmemcpy_eq`).
-/

namespace SierraSdk

namespace Sl

open Memory

/-- Whether an address is not aligned to words, `SLALIGNED`. -/
def Misaligned (p : ℕ) : Prop := p % 4 ≠ 0

instance (p : ℕ) : Decidable (Misaligned p) := inferInstanceAs (Decidable (_ ≠ _))

/-- The memory after the call, and the address that is returned. Copying downwards starts
`length - 1` bytes, or `numword - 1` words, behind the start; for no bytes or words this is
computed modulo `2 ^ 32` and not used. -/
def slmemcpy (d : ℕ → UInt8) (destp srcp : ℕ) (length : UInt32) : (ℕ → UInt8) × ℕ :=
  if Misaligned destp ∨ Misaligned srcp then
    if srcp < destp then
      (copyDown 1 d (destp + (length - 1).toNat) (srcp + (length - 1).toNat) length.toNat, destp)
    else (copyUp 1 d destp srcp length.toNat, destp)
  else
    let numword := length / 4
    let remainder := length % 4
    if srcp < destp then
      let d := copyDown 1 d (destp + (length - 1).toNat) (srcp + (length - 1).toNat)
        remainder.toNat
      (copyDown 4 d (destp + 4 * (numword - 1).toNat) (srcp + 4 * (numword - 1).toNat)
        numword.toNat, destp)
    else
      let d := copyUp 4 d destp srcp numword.toNat
      (copyUp 1 d (destp + 4 * numword.toNat) (srcp + 4 * numword.toNat) remainder.toNat, destp)

theorem toNat_sub_one {n : UInt32} (h : n.toNat ≠ 0) : (n - 1).toNat = n.toNat - 1 := by
  have hle : (1 : UInt32) ≤ n := UInt32.le_iff_toNat_le.mpr (Nat.pos_of_ne_zero h)
  rw [UInt32.toNat_sub_of_le _ _ hle]
  rfl

/-- Copying downwards from a pointer computed in 32 bits. -/
theorem copyDown_toNat (w : ℕ) (d : ℕ → UInt8) {dest src : ℕ} (h : src ≤ dest) (n : UInt32) :
    copyDown w d (dest + w * (n - 1).toNat) (src + w * (n - 1).toNat) n.toNat =
      move d dest src (w * n.toNat) := by
  by_cases hn : n.toNat = 0
  · rw [hn]
    exact (move_zero d dest src).symm
  · rw [toNat_sub_one hn, copyDown_eq w d h]

/-- The bytes behind the words, from the last one on. -/
theorem copyDown_remainder (d : ℕ → UInt8) {dest src : ℕ} (h : src ≤ dest) (length : UInt32) :
    copyDown 1 d (dest + (length - 1).toNat) (src + (length - 1).toNat) (length % 4).toNat =
      move d (dest + 4 * (length / 4).toNat) (src + 4 * (length / 4).toNat)
        (length % 4).toNat := by
  have hdiv : (length / 4).toNat = length.toNat / 4 := UInt32.toNat_div _ _
  have hmod : (length % 4).toNat = length.toNat % 4 := UInt32.toNat_mod _ _
  by_cases hrest : length.toNat % 4 = 0
  · rw [hmod, hrest]
    exact (move_zero d _ _).symm
  · have hlast : (length - 1).toNat = 4 * (length.toNat / 4) + 1 * (length.toNat % 4 - 1) := by
      rw [toNat_sub_one (by omega)]
      omega
    rw [hlast, hdiv, hmod, ← Nat.add_assoc, ← Nat.add_assoc,
      copyDown_eq 1 d (Nat.add_le_add_right h _), Nat.one_mul]

/-- Whatever path is taken, the bytes are moved. -/
theorem slmemcpy_eq (d : ℕ → UInt8) (destp srcp : ℕ) (length : UInt32) :
    slmemcpy d destp srcp length = (move d destp srcp length.toNat, destp) := by
  have hdiv : (length / 4).toNat = length.toNat / 4 := UInt32.toNat_div _ _
  have hmod : (length % 4).toNat = length.toNat % 4 := UInt32.toNat_mod _ _
  have hwhole : 4 * (length / 4).toNat + (length % 4).toNat = length.toNat := by
    rw [hdiv, hmod]
    exact Nat.div_add_mod _ _
  unfold slmemcpy
  by_cases hbytes : Misaligned destp ∨ Misaligned srcp
  · rw [if_pos hbytes]
    by_cases hdown : srcp < destp
    · have hcopied := copyDown_toNat 1 d (Nat.le_of_lt hdown) length
      rw [Nat.one_mul, Nat.one_mul] at hcopied
      rw [if_pos hdown, hcopied]
    · rw [if_neg hdown, copyUp_eq 1 d (Nat.le_of_not_lt hdown), Nat.one_mul]
  · rw [if_neg hbytes]
    by_cases hdown : srcp < destp
    · have hle : srcp ≤ destp := Nat.le_of_lt hdown
      simp only [if_pos hdown]
      rw [copyDown_remainder d hle, copyDown_toNat 4 _ hle, move_down d hle, hwhole]
    · have hle : destp ≤ srcp := Nat.le_of_not_lt hdown
      simp only [if_neg hdown]
      rw [copyUp_eq 4 d hle, copyUp_eq 1 _ (Nat.add_le_add_right hle _), Nat.one_mul,
        move_up d hle, hwhole]

/-- The destination has the bytes that the source had, and no other byte has changed. -/
theorem slmemcpy_moves (d : ℕ → UInt8) (destp srcp : ℕ) (length : UInt32) :
    slmemcpy d destp srcp length = (move d destp srcp length.toNat, destp) ∧
      load (slmemcpy d destp srcp length).1 destp length.toNat = load d srcp length.toNat ∧
      ∀ j, j < destp ∨ destp + length.toNat ≤ j → (slmemcpy d destp srcp length).1 j = d j := by
  have hmove := slmemcpy_eq d destp srcp length
  rw [hmove]
  exact ⟨rfl, load_move d destp srcp _, fun j hj => move_of_outside hj⟩

/-- Two words moved up by one, which overlap. -/
example : load (slmemcpy (fun k => UInt8.ofNat k) 4 0 8).1 4 8 = [0, 1, 2, 3, 4, 5, 6, 7] := by
  decide

end Sl

end SierraSdk
