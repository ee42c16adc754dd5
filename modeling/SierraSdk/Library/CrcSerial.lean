import Mathlib.Data.BitVec
import Mathlib.Logic.Function.Iterate

/-!
# Bit-serial redundancy checks

A CRC takes one bit after the other: the register is moved by one place, and the polynomial is
added if the bit that left the register differs from the one that came in. A `Direction` says
which bit leaves and how the others move. Both are linear, and this is all that is needed to
process many bits at a time: to add a symbol to the register and shift it out differs from
taking its bits one by one only by what is left of the symbol (`iterate_shift_xor`), and the
shifts of a register are those of a part of it that a table can hold (`serial_bits_eq_table`).
-/

namespace Crc

/-- A direction in which a register is moved: the bit that leaves it, and the others. -/
structure Direction (w : ℕ) where
  out : BitVec w → Bool
  move : BitVec w → BitVec w
  out_xor : ∀ c d, out (c ^^^ d) = (out c ^^ out d)
  move_xor : ∀ c d, move (c ^^^ d) = move c ^^^ move d

namespace Direction

variable {w : ℕ} (dir : Direction w) (poly : BitVec w)

/-- Take one bit. -/
def step (c : BitVec w) (bit : Bool) : BitVec w :=
  if dir.out c ^^ bit then dir.move c ^^^ poly else dir.move c

/-- Take the bits one by one. -/
def serial (c : BitVec w) (bits : List Bool) : BitVec w := bits.foldl (dir.step poly) c

/-- Take a bit that is not set. -/
def shift (c : BitVec w) : BitVec w := dir.step poly c false

/-- The first `n` bits that leave a register. -/
def bits : ℕ → BitVec w → List Bool
  | 0, _ => []
  | n + 1, x => dir.out x :: bits n (dir.move x)

theorem serial_append (c : BitVec w) (xs ys : List Bool) :
    dir.serial poly c (xs ++ ys) = dir.serial poly (dir.serial poly c xs) ys :=
  List.foldl_append

theorem serial_zeros (n : ℕ) (c : BitVec w) :
    dir.serial poly c (List.replicate n false) = (dir.shift poly)^[n] c := by
  induction n generalizing c with
  | zero => rfl
  | succ n ih => exact ih (dir.shift poly c)

/-- A shift takes the bit that leaves the symbol that was added, and moves the others. -/
theorem shift_xor (c x : BitVec w) :
    dir.shift poly (c ^^^ x) = dir.step poly c (dir.out x) ^^^ dir.move x := by
  have hswap : ∀ a b d : BitVec w, a ^^^ b ^^^ d = a ^^^ d ^^^ b := by
    intro a b d
    rw [BitVec.xor_assoc, BitVec.xor_comm b, BitVec.xor_assoc]
  rw [shift, step, step, dir.out_xor, dir.move_xor, Bool.xor_false]
  split_ifs
  · exact hswap _ _ _
  · rfl

/-- Adding a symbol and shifting `n` times takes its first `n` bits, up to what is left of it. -/
theorem iterate_shift_xor (n : ℕ) (c x : BitVec w) :
    (dir.shift poly)^[n] (c ^^^ x) = dir.serial poly c (dir.bits n x) ^^^ dir.move^[n] x := by
  induction n generalizing c x with
  | zero => rfl
  | succ n ih =>
      rw [Function.iterate_succ_apply, shift_xor, ih, Function.iterate_succ_apply]
      rfl

/-- The bits of a symbol, from a table: of the register with the symbol added, a part is
shifted, and the rest, of which no bit leaves, is moved. -/
theorem serial_bits_eq_table {n : ℕ} {c x hi lo : BitVec w} (hsplit : c ^^^ x = hi ^^^ lo)
    (hlo : dir.bits n lo = List.replicate n false) (hx : dir.move^[n] x = 0) :
    dir.serial poly c (dir.bits n x) = (dir.shift poly)^[n] hi ^^^ dir.move^[n] lo := by
  calc dir.serial poly c (dir.bits n x)
      = (dir.shift poly)^[n] (c ^^^ x) := by
        rw [iterate_shift_xor, hx]
        exact (BitVec.xor_zero).symm
    _ = (dir.shift poly)^[n] hi ^^^ dir.move^[n] lo := by
        rw [hsplit, iterate_shift_xor, hlo, serial_zeros]

/-- Where no two registers are shifted to the same one, `n` bits that have the effect of zeros
are the bits of a symbol that is zero. -/
theorem eq_zero_of_serial_eq {n : ℕ} {c x : BitVec w} (hinj : Function.Injective (dir.shift poly))
    (hx : dir.move^[n] x = 0)
    (h : dir.serial poly c (dir.bits n x) = dir.serial poly c (List.replicate n false)) :
    x = 0 := by
  have hshift : (dir.shift poly)^[n] (c ^^^ x) = (dir.shift poly)^[n] c := by
    rw [iterate_shift_xor, hx, h, serial_zeros]
    exact BitVec.xor_zero
  have hc : c ^^^ x = c := hinj.iterate n hshift
  calc x = c ^^^ (c ^^^ x) := by rw [← BitVec.xor_assoc, BitVec.xor_self, BitVec.zero_xor]
    _ = 0 := by
      rw [hc, BitVec.xor_self]
      rfl

end Direction

/-- The lowest bit leaves, the others move down. -/
def lsbFirst (w : ℕ) : Direction w where
  out c := c.getLsbD 0
  move c := c >>> 1
  out_xor _ _ := BitVec.getLsbD_xor
  move_xor c d := BitVec.ushiftRight_xor_distrib c d 1

/-- The highest bit leaves, the others move up. -/
def msbFirst (w : ℕ) : Direction w where
  out c := c.msb
  move c := c <<< 1
  out_xor _ _ := BitVec.msb_xor
  move_xor c d := BitVec.shiftLeft_xor_distrib c d 1

variable {w : ℕ}

theorem lsbFirst_bits (n : ℕ) (x : BitVec w) :
    (lsbFirst w).bits n x = (List.range n).map x.getLsbD := by
  induction n generalizing x with
  | zero => rfl
  | succ n ih =>
      rw [List.range_succ_eq_map, List.map_cons, List.map_map, Direction.bits, ih]
      congr 1
      refine List.map_congr_left fun i _ => ?_
      rw [lsbFirst, BitVec.getLsbD_ushiftRight, Nat.add_comm]
      rfl

theorem msbFirst_bits (n : ℕ) (x : BitVec w) :
    (msbFirst w).bits n x = (List.range n).map x.getMsbD := by
  induction n generalizing x with
  | zero => rfl
  | succ n ih =>
      rw [List.range_succ_eq_map, List.map_cons, List.map_map, Direction.bits, ih]
      congr 1
      refine List.map_congr_left fun i _ => ?_
      rw [msbFirst, BitVec.getMsbD_shiftLeft]
      rfl

theorem lsbFirst_move_iterate (n : ℕ) (x : BitVec w) : (lsbFirst w).move^[n] x = x >>> n := by
  induction n with
  | zero => exact (BitVec.ushiftRight_zero x).symm
  | succ n ih =>
      rw [Function.iterate_succ_apply', ih]
      exact (BitVec.shiftRight_add x n 1).symm

theorem msbFirst_move_iterate (n : ℕ) (x : BitVec w) : (msbFirst w).move^[n] x = x <<< n := by
  induction n with
  | zero => exact (BitVec.shiftLeft_zero x).symm
  | succ n ih =>
      rw [Function.iterate_succ_apply', ih]
      exact (BitVec.shiftLeft_add x n 1).symm

/-- With a polynomial that has the highest bit, a shift can be undone. -/
theorem lsbFirst_shift_injective {poly : BitVec w} (hpoly : poly.msb = true) :
    Function.Injective ((lsbFirst w).shift poly) := by
  intro c d h
  -- the highest bit of the result is the one that left
  have hmsb : ∀ c : BitVec w, ((lsbFirst w).shift poly c).msb = c.getLsbD 0 := by
    intro c
    have hmoved : (c >>> 1).msb = false := by
      rw [BitVec.msb_ushiftRight]
      rfl
    rw [Direction.shift, Direction.step, Bool.xor_false]
    change (if c.getLsbD 0 then c >>> 1 ^^^ poly else c >>> 1).msb = _
    split_ifs with hout
    · rw [BitVec.msb_xor, hmoved, hpoly, hout]
      rfl
    · rw [hmoved, Bool.eq_false_of_not_eq_true hout]
  have hlow : c.getLsbD 0 = d.getLsbD 0 := by rw [← hmsb c, h, hmsb d]
  have hhigh : c >>> 1 = d >>> 1 := by
    have hmoves : (if c.getLsbD 0 ^^ false then c >>> 1 ^^^ poly else c >>> 1) =
        if d.getLsbD 0 ^^ false then d >>> 1 ^^^ poly else d >>> 1 := h
    rw [hlow] at hmoves
    split_ifs at hmoves
    · exact (BitVec.xor_left_inj poly).mp hmoves
    · exact hmoves
  apply BitVec.eq_of_getLsbD_eq
  intro i _
  cases i with
  | zero => exact hlow
  | succ i =>
      rw [Nat.add_comm, ← BitVec.getLsbD_ushiftRight, hhigh, BitVec.getLsbD_ushiftRight]

end Crc
