import Mathlib.Data.BitVec
import Mathlib.Logic.Function.Basic
import Mathlib.Tactic.Ring
import SierraSdk.Library.Memory

/-!
# Bits of a memory of words

The words of a memory make a memory of bits: in `msb` each word begins with its highest bit,
in `lsb` with its lowest one. A field is a list of bits that stands for the low bits of a word
in the same order, `msbField` or `lsbField`; `msbValue` and `msbNat` read a field as a word and
as a number.

With this, writing and reading fields is `Memory.store` and `Memory.load`.
-/

namespace Bits

open Memory

variable {w : ℕ}

/-- The bits of the words, each from its highest bit down. -/
def msb (d : ℕ → BitVec w) (p : ℕ) : Bool := (d (p / w)).getMsbD (p % w)

/-- The bits of the words, each from its lowest bit up. -/
def lsb (d : ℕ → BitVec w) (p : ℕ) : Bool := (d (p / w)).getLsbD (p % w)

/-- The `n` low bits of a word, from the highest of them down. -/
def msbField (n : ℕ) (v : BitVec w) : List Bool :=
  (List.range n).map fun k => v.getLsbD (n - 1 - k)

/-- The `n` low bits of a word, from the lowest up. -/
def lsbField (n : ℕ) (v : BitVec w) : List Bool := (List.range n).map v.getLsbD

/-- The word whose low bits are the field. -/
def msbValue (w : ℕ) (bs : List Bool) : BitVec w := (BitVec.ofBoolListBE bs).setWidth w

@[simp] theorem length_msbField (n : ℕ) (v : BitVec w) : (msbField n v).length = n := by
  simp [msbField]

@[simp] theorem length_lsbField (n : ℕ) (v : BitVec w) : (lsbField n v).length = n := by
  simp [lsbField]

theorem getLsbD_msbValue (bs : List Bool) {j : ℕ} (hj : j < w) :
    (msbValue w bs).getLsbD j = (decide (j < bs.length) && bs.getD (bs.length - 1 - j) false) := by
  simp [msbValue, hj]

/-- A word that fits a field is read from it. -/
theorem msbValue_msbField {n : ℕ} {v : BitVec w} (hv : v.toNat < 2 ^ n) :
    msbValue w (msbField n v) = v := by
  apply BitVec.eq_of_getLsbD_eq
  intro j hj
  rw [getLsbD_msbValue _ hj, length_msbField]
  by_cases hn : j < n
  · have hk : n - 1 - j < n := by omega
    have hback : n - 1 - (n - 1 - j) = j := by omega
    simp [msbField, hn, hk, hback]
  · have hhigh : v.getLsbD j = false := by
      rw [BitVec.getLsbD]
      exact Nat.testBit_lt_two_pow (Nat.lt_of_lt_of_le hv (Nat.pow_le_pow_right (by decide)
        (Nat.le_of_not_lt hn)))
    simp [hn, hhigh]

/-- The word that a bit lies in, and where it lies there. -/
theorem bit_div_mod {k t : ℕ} (ht : t < w) : (w * k + t) / w = k ∧ (w * k + t) % w = t := by
  rw [Nat.mul_add_div (Nat.zero_lt_of_lt ht), Nat.div_eq_of_lt ht, Nat.mul_add_mod,
    Nat.mod_eq_of_lt ht]
  exact ⟨Nat.add_zero k, rfl⟩

/-- The low bits of a word are read from their field. -/
theorem toNat_msbValue_msbField {n : ℕ} (hn : n ≤ w) (v : BitVec w) :
    (msbValue w (msbField n v)).toNat = v.toNat % 2 ^ n := by
  have hlow : (v.toNat % 2 ^ n) % 2 ^ w = v.toNat % 2 ^ n :=
    Nat.mod_eq_of_lt (Nat.lt_of_lt_of_le (Nat.mod_lt _ (Nat.two_pow_pos n))
      (Nat.pow_le_pow_right (Nat.le_of_ble_eq_true rfl) hn))
  have hvalue : msbValue w (msbField n v) = BitVec.ofNat w (v.toNat % 2 ^ n) := by
    have hsame : msbField n v = msbField n (BitVec.ofNat w (v.toNat % 2 ^ n)) := by
      apply List.map_congr_left
      intro k hk
      have hbit : n - 1 - k < n := by
        have := List.mem_range.mp hk
        omega
      rw [BitVec.getLsbD_ofNat, Nat.testBit_mod_two_pow, decide_eq_true hbit,
        decide_eq_true (Nat.lt_of_lt_of_le hbit hn), Bool.true_and, Bool.true_and]
      rfl
    rw [hsame]
    apply msbValue_msbField
    rw [BitVec.toNat_ofNat, hlow]
    exact Nat.mod_lt _ (Nat.two_pow_pos n)
  rw [hvalue, BitVec.toNat_ofNat, hlow]

/-- The bits determine the words. -/
theorem msb_injective : Function.Injective (@msb w) := by
  intro d d' h
  funext k
  apply BitVec.eq_of_getMsbD_eq
  intro t ht
  have hbit := congrFun h (w * k + t)
  obtain ⟨hdiv, hmod⟩ := bit_div_mod (k := k) ht
  rwa [msb, msb, hdiv, hmod] at hbit

section Numbers

/-- The number that bits make, the highest first. -/
def msbNat (bs : List Bool) : ℕ := bs.foldl (fun n b => 2 * n + b.toNat) 0

theorem foldl_msbNat (n : ℕ) (bs : List Bool) :
    bs.foldl (fun n b => 2 * n + b.toNat) n = n * 2 ^ bs.length + msbNat bs := by
  induction bs generalizing n with
  | nil => simp [msbNat]
  | cons b bs ih =>
      rw [msbNat, List.foldl_cons, List.foldl_cons, ih, ih, List.length_cons, Nat.pow_succ]
      ring

theorem msbNat_append (bs cs : List Bool) :
    msbNat (bs ++ cs) = msbNat bs * 2 ^ cs.length + msbNat cs := by
  rw [msbNat, List.foldl_append, foldl_msbNat]
  rfl

theorem msbField_succ (n : ℕ) (v : BitVec w) :
    msbField (n + 1) v = v.getLsbD n :: msbField n v := by
  rw [msbField, List.range_succ_eq_map, List.map_cons, List.map_map, msbField]
  congr 1
  apply List.map_congr_left
  intro k _
  have hpath : n + 1 - 1 - (k + 1) = n - 1 - k := by omega
  exact congrArg v.getLsbD hpath

/-- The number of a field. -/
theorem msbNat_msbField (n : ℕ) (v : BitVec w) : msbNat (msbField n v) = v.toNat % 2 ^ n := by
  induction n with
  | zero => simp [msbField, msbNat, Nat.mod_one]
  | succ n ih =>
      have hbit : (v.getLsbD n).toNat = v.toNat / 2 ^ n % 2 := by
        rw [BitVec.getLsbD, Nat.testBit_eq_decide_div_mod_eq]
        rcases Nat.mod_two_eq_zero_or_one (v.toNat / 2 ^ n) with h | h
        all_goals rw [h]; rfl
      have hhead : msbNat (v.getLsbD n :: msbField n v) =
          (v.getLsbD n).toNat * 2 ^ n + msbNat (msbField n v) := by
        rw [msbNat, List.foldl_cons, foldl_msbNat, length_msbField, Nat.mul_zero, Nat.zero_add]
      rw [msbField_succ, hhead, ih, hbit, Nat.mod_pow_succ]
      ring

end Numbers

/-- A memory of bits that holds a field for each word, one after the other. -/
theorem load_words {m : ℕ → Bool} {d : ℕ → BitVec w} {field : BitVec w → List Bool}
    (hword : ∀ k, load m (w * k) w = field (d k)) (k n : ℕ) :
    load m (w * k) (w * n) = (load d k n).flatMap field := by
  induction n generalizing k with
  | zero => rfl
  | succ n ih =>
      have hnext : w * k + w = w * (k + 1) := (Nat.mul_succ w k).symm
      rw [Nat.mul_succ, Nat.add_comm (w * n), load_add, hword, hnext, ih, load_succ,
        List.flatMap_cons]

theorem load_msb (d : ℕ → BitVec w) (k n : ℕ) :
    load (msb d) (w * k) (w * n) = (load d k n).flatMap (msbField w) := by
  apply load_words
  intro k
  apply List.map_congr_left
  intro t ht
  have hlt := List.mem_range.mp ht
  obtain ⟨hdiv, hmod⟩ := bit_div_mod (k := k) hlt
  rw [msb, hdiv, hmod, BitVec.getMsbD_eq_getLsbD, decide_eq_true hlt, Bool.true_and]

/-- Bits of words that agree. -/
theorem lsb_congr {d d' : ℕ → BitVec w} {p : ℕ} (h : d (p / w) = d' (p / w)) :
    lsb d p = lsb d' p := by
  rw [lsb, lsb, h]

/-- One more bit of a field. -/
theorem lsbField_succ (n : ℕ) (v : BitVec w) :
    lsbField (n + 1) v = lsbField n v ++ [v.getLsbD n] := by
  rw [lsbField, List.range_succ, List.map_append, List.map_singleton, lsbField]

/-- Setting or clearing one bit of a word is a store. -/
theorem lsb_set (d : ℕ → BitVec w) (hw : 0 < w) (p : ℕ) (b : Bool) :
    lsb (Function.update d (p / w)
        (if b then d (p / w) ||| BitVec.twoPow w (p % w)
        else d (p / w) &&& ~~~BitVec.twoPow w (p % w))) =
      store (lsb d) p [b] := by
  funext q
  have hp := Nat.mod_lt p hw
  have hq := Nat.mod_lt q hw
  have hsplit := Nat.div_add_mod p w
  have hsplit' := Nat.div_add_mod q w
  by_cases hword : q / w = p / w
  · rw [lsb, hword, Function.update_self]
    by_cases hbit : q = p
    · rw [hbit, store_at]
      cases b <;> simp [hp]
    · have hmod : q % w ≠ p % w := by
        intro h
        rw [hword, h, hsplit] at hsplit'
        exact hbit hsplit'.symm
      rw [store_singleton_of_ne hbit, lsb, hword]
      cases b <;> simp [hmod, hq]
  · have hbit : q ≠ p := fun h => hword (congrArg (· / w) h)
    rw [store_singleton_of_ne hbit, lsb, Function.update_of_ne hword]
    rfl

end Bits
