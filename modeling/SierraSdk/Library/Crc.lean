import Mathlib.Data.BitVec
import Mathlib.Logic.Function.Iterate

/-!
# Reflected cyclic redundancy checks

The register of a reflected CRC is shifted to the right: `shift poly c` drops the lowest bit of
`c`, and adds the polynomial if that bit was set. `feed poly n c x` adds the data `x` to the
register and shifts `n` times.

A shift is linear (`shift_xor`). So the shifts of a symbol are those of its low bits, which a
table can hold, and a plain shift of the other bits (`feed_eq_table`), and a register that is fed
its own value, up to a constant, ends in the same state whatever it was (`feed_feed_self`).
-/

namespace Crc

variable {w : ℕ} (poly : BitVec w)

/-- One shift of the register. -/
def shift (c : BitVec w) : BitVec w :=
  if c.getLsbD 0 then c >>> 1 ^^^ poly else c >>> 1

/-- Add a symbol of `n` bits to the register and shift it out. -/
def feed (n : ℕ) (c x : BitVec w) : BitVec w := (shift poly)^[n] (c ^^^ x)

theorem shift_xor (c d : BitVec w) : shift poly (c ^^^ d) = shift poly c ^^^ shift poly d := by
  unfold shift
  rw [BitVec.getLsbD_xor, BitVec.ushiftRight_xor_distrib]
  cases c.getLsbD 0 <;> cases d.getLsbD 0
  · rfl
  · exact BitVec.xor_assoc _ _ _
  · change c >>> 1 ^^^ d >>> 1 ^^^ poly = c >>> 1 ^^^ poly ^^^ d >>> 1
    rw [BitVec.xor_assoc, BitVec.xor_comm (d >>> 1) poly, BitVec.xor_assoc]
  · change c >>> 1 ^^^ d >>> 1 = c >>> 1 ^^^ poly ^^^ (d >>> 1 ^^^ poly)
    rw [BitVec.xor_comm (d >>> 1) poly, BitVec.xor_assoc (c >>> 1), ← BitVec.xor_assoc poly,
      BitVec.xor_self, BitVec.zero_xor]

theorem iterate_shift_xor (n : ℕ) (c d : BitVec w) :
    (shift poly)^[n] (c ^^^ d) = (shift poly)^[n] c ^^^ (shift poly)^[n] d := by
  induction n generalizing c d with
  | zero => rfl
  | succ n ih => rw [Function.iterate_succ_apply, shift_xor, ih]; rfl

/-- A register whose `n` lowest bits are clear is only moved by `n` shifts. -/
theorem iterate_shift_of_clear {n : ℕ} {c : BitVec w} (h : ∀ i < n, c.getLsbD i = false) :
    (shift poly)^[n] c = c >>> n := by
  induction n with
  | zero => exact (BitVec.ushiftRight_zero c).symm
  | succ n ih =>
      have hlow : (c >>> n).getLsbD 0 = false := by
        rw [BitVec.getLsbD_ushiftRight]
        exact h n (Nat.lt_succ_self n)
      rw [Function.iterate_succ_apply', ih fun i hi => h i (Nat.lt_succ_of_lt hi), shift, hlow]
      exact (BitVec.shiftRight_add c n 1).symm

/-- The `n` lowest bits of a register. -/
def low (n : ℕ) (c : BitVec w) : BitVec w := (c.setWidth n).setWidth w

theorem getLsbD_low (n : ℕ) (c : BitVec w) (i : ℕ) :
    (low n c).getLsbD i = (decide (i < n) && c.getLsbD i) := by
  rw [low, BitVec.getLsbD_setWidth, BitVec.getLsbD_setWidth]
  by_cases hi : i < w
  · simp [hi]
  · simp [hi, BitVec.getLsbD_of_ge c i (Nat.le_of_not_lt hi)]

/-- The shifts of a symbol: those of the low bits, and the others moved down. -/
theorem feed_eq_table (n : ℕ) (c x : BitVec w) :
    feed poly n c x = (shift poly)^[n] (low n (c ^^^ x)) ^^^ (c ^^^ x) >>> n := by
  generalize hs : c ^^^ x = s
  have hsplit : s = low n s ^^^ (s ^^^ low n s) := by
    rw [BitVec.xor_comm s, ← BitVec.xor_assoc, BitVec.xor_self, BitVec.zero_xor]
  have hclear : ∀ i < n, (s ^^^ low n s).getLsbD i = false := by
    intro i hi
    rw [BitVec.getLsbD_xor, getLsbD_low, decide_eq_true hi, Bool.true_and, Bool.xor_self]
  have hhigh : (s ^^^ low n s) >>> n = s >>> n := by
    apply BitVec.eq_of_getLsbD_eq
    intro i _
    rw [BitVec.getLsbD_ushiftRight, BitVec.getLsbD_xor, getLsbD_low,
      decide_eq_false (Nat.not_lt.mpr (Nat.le_add_right n i)), Bool.false_and, Bool.xor_false,
      BitVec.getLsbD_ushiftRight]
  rw [feed, hs]
  calc (shift poly)^[n] s
      = (shift poly)^[n] (low n s) ^^^ (shift poly)^[n] (s ^^^ low n s) := by
        rw [← iterate_shift_xor, ← hsplit]
    _ = (shift poly)^[n] (low n s) ^^^ s >>> n := by
        rw [iterate_shift_of_clear poly hclear, hhigh]

/-- Two symbols are fed as one whose high bits are those of the second. -/
theorem feed_feed {n : ℕ} (m : ℕ) (c x : BitVec w) {y : BitVec w} (hy : y <<< n >>> n = y) :
    feed poly m (feed poly n c x) y = feed poly (n + m) c (x ^^^ y <<< n) := by
  have hclear : ∀ i < n, (y <<< n).getLsbD i = false := by
    intro i hi
    simp [BitVec.getLsbD_shiftLeft, hi]
  have hmoved : (shift poly)^[n] (y <<< n) = y := by
    rw [iterate_shift_of_clear poly hclear, hy]
  rw [feed, feed, feed, Nat.add_comm n m, Function.iterate_add_apply, ← BitVec.xor_assoc,
    iterate_shift_xor poly n (c ^^^ x), hmoved]

/-- A register that is fed its own value, up to a constant, in two symbols. -/
theorem feed_feed_self {n : ℕ} (m : ℕ) {c d x y : BitVec w} (hy : y <<< n >>> n = y)
    (hown : x ^^^ y <<< n = c ^^^ d) :
    feed poly m (feed poly n c x) y = (shift poly)^[n + m] d := by
  rw [feed_feed poly m c x hy, hown, feed, ← BitVec.xor_assoc, BitVec.xor_self,
    BitVec.zero_xor]

end Crc
