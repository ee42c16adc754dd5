import SierraSdk.Ril.FcpParser
import SierraSdk.Sl.Numbers

/-!
# Strings of hexadecimal digits

The strings of SIM I/O are converted to bytes, two digits each, or to numbers of 16 bits, four
digits each; a string of another length is not converted. A string is converted to the numbers that
its digits denote (`getD_bytePairs`, `getD_shortQuads`), and bytes are read back from their digits
(`stringToBinary_binaryToString`).
-/

namespace SierraSdk

namespace Ril

open Sl (denotes)

section Strings

/-- A hexadecimal digit. -/
def IsHex (c : UInt8) : Prop :=
  0x30 ≤ c ∧ c ≤ 0x39 ∨ 0x41 ≤ c ∧ c ≤ 0x46 ∨ 0x61 ≤ c ∧ c ≤ 0x66

instance : DecidablePred IsHex := fun c =>
  inferInstanceAs (Decidable (0x30 ≤ c ∧ c ≤ 0x39 ∨ 0x41 ≤ c ∧ c ≤ 0x46 ∨ 0x61 ≤ c ∧ c ≤ 0x66))

theorem isHex_of_all {cs : List UInt8} (h : (cs.all fun c => decide (IsHex c)) = true) :
    ∀ c ∈ cs, IsHex c :=
  fun c hc => of_decide_eq_true (List.all_eq_true.mp h c hc)

/-- A string of hexadecimal digits. -/
structure HexString where
  chars : List UInt8
  hex : ∀ c ∈ chars, IsHex c

/-- The byte of two digits. -/
def charPair (c d : UInt8) : UInt8 := char2nib c <<< 4 ||| char2nib d

def bytePairs : List UInt8 → List UInt8
  | c :: d :: cs => charPair c d :: bytePairs cs
  | _ => []

def shortQuads : List UInt8 → List UInt16
  | a :: b :: c :: d :: cs =>
      ((charPair a b).toUInt16 <<< 8 ||| (charPair c d).toUInt16) :: shortQuads cs
  | _ => []

/-- `-EINVAL`, with nothing written, for an odd length. -/
def stringToBinary (string : List UInt8) : Option (List UInt8) :=
  if string.length % 2 = 1 then none else some (bytePairs string)

def stringToShort (string : List UInt8) : Option (List UInt16) :=
  if string.length % 4 ≠ 0 then none else some (shortQuads string)

/-- The digits `0` to `F`. -/
def nibbles : List UInt8 :=
  [0x30, 0x31, 0x32, 0x33, 0x34, 0x35, 0x36, 0x37, 0x38, 0x39, 0x41, 0x42, 0x43, 0x44, 0x45, 0x46]

def binaryToString (binary : List UInt8) : List UInt8 :=
  binary.flatMap fun (b : UInt8) =>
    [nibbles.getD (b >>> 4).toNat 0, nibbles.getD (b &&& 0x0F).toNat 0]

/-- The value of a hexadecimal digit. -/
def digitValue (c : UInt8) : ℕ :=
  if c ≤ 0x39 then c.toNat - 0x30 else if c ≤ 0x46 then c.toNat - 0x37 else c.toNat - 0x57

/-- The digits of a string from an index on. -/
def digitsAt (s : List UInt8) (i n : ℕ) : List UInt8 := (s.drop i).take n

/-- One of the numbers that a string denotes, of some digits each. -/
def denoted (width : ℕ) (s : HexString) (i : ℕ) : ℕ :=
  denotes 16 digitValue (digitsAt s.chars (width * i) width)

end Strings

section Conversions

set_option maxRecDepth 4000 in
theorem char2nib_toNat {c : UInt8} (h : IsHex c) : (char2nib c).toNat = digitValue c := by
  have hall : ∀ n < 256, IsHex (UInt8.ofNat n) →
      (char2nib (UInt8.ofNat n)).toNat = digitValue (UInt8.ofNat n) := by decide
  have hc := hall c.toNat c.toNat_lt
  rw [UInt8.ofNat_toNat] at hc
  exact hc h

set_option maxRecDepth 4000 in
theorem char2nib_lt (c : UInt8) : (char2nib c).toNat < 16 := by
  have hall : ∀ n < 256, (char2nib (UInt8.ofNat n)).toNat < 16 := by decide
  have hc := hall c.toNat c.toNat_lt
  rwa [UInt8.ofNat_toNat] at hc

/-- A byte is its upper half and its lower half. -/
theorem toNat_charPair {c d : UInt8} (hc : IsHex c) (hd : IsHex d) :
    (charPair c d).toNat = 16 * digitValue c + digitValue d := by
  have hupper : (char2nib c).toNat <<< 4 < 256 := by
    have := char2nib_lt c
    rw [Nat.shiftLeft_eq]
    omega
  have hlower : (char2nib d).toNat < 2 ^ 4 := char2nib_lt d
  have hshift : (char2nib c <<< 4).toNat = (char2nib c).toNat <<< 4 := by
    rw [UInt8.toNat_shiftLeft]
    exact Nat.mod_eq_of_lt hupper
  rw [charPair, UInt8.toNat_or, hshift, ← Nat.shiftLeft_add_eq_or_of_lt hlower, Nat.shiftLeft_eq,
    char2nib_toNat hc, char2nib_toNat hd, Nat.mul_comm]

theorem toNat_quad (p q : UInt8) :
    (p.toUInt16 <<< 8 ||| q.toUInt16).toNat = 256 * p.toNat + q.toNat := by
  have hp := p.toNat_lt
  have hlower : q.toNat < 2 ^ 8 := q.toNat_lt
  have hupper : p.toNat <<< 8 < 2 ^ 16 := by
    rw [Nat.shiftLeft_eq]
    omega
  have hshift : (p.toUInt16 <<< 8).toNat = p.toNat <<< 8 := by
    rw [UInt16.toNat_shiftLeft]
    exact Nat.mod_eq_of_lt hupper
  rw [UInt16.toNat_or, hshift, UInt8.toNat_toUInt16, ← Nat.shiftLeft_add_eq_or_of_lt hlower,
    Nat.shiftLeft_eq, Nat.mul_comm]

theorem denotes_pair (c d : UInt8) :
    denotes 16 digitValue [c, d] = 16 * digitValue c + digitValue d := by
  simp [denotes, Nat.ofDigits]
  omega

theorem denotes_quad (c d e f : UInt8) :
    denotes 16 digitValue [c, d, e, f] =
      256 * (16 * digitValue c + digitValue d) + (16 * digitValue e + digitValue f) := by
  simp [denotes, Nat.ofDigits]
  omega

/-- A string without a first pair, or without four first digits. -/
theorem length_lt_two {cs : List UInt8} (h : ∀ c d rest, cs = c :: d :: rest → False) :
    cs.length < 2 := by
  match cs with
  | [] => exact Nat.two_pos
  | [c] => exact Nat.one_lt_two
  | c :: d :: rest => exact (h c d rest rfl).elim

theorem length_lt_four {cs : List UInt8}
    (h : ∀ a b c d rest, cs = a :: b :: c :: d :: rest → False) : cs.length < 4 := by
  match cs with
  | [] | [_] | [_, _] | [_, _, _] => simp
  | a :: b :: c :: d :: rest => exact (h a b c d rest rfl).elim

theorem length_bytePairs (cs : List UInt8) : (bytePairs cs).length = cs.length / 2 := by
  fun_induction bytePairs cs with
  | case1 c d cs ih =>
    simp only [List.length_cons, ih]
    omega
  | case2 cs hshort => exact (Nat.div_eq_of_lt (length_lt_two hshort)).symm

theorem getD_bytePairs {cs : List UInt8} (hhex : ∀ c ∈ cs, IsHex c) {i : ℕ}
    (hi : i < cs.length / 2) :
    ((bytePairs cs).getD i 0).toNat = denotes 16 digitValue (digitsAt cs (2 * i) 2) := by
  fun_induction bytePairs cs generalizing i with
  | case1 c d cs ih =>
    simp only [List.forall_mem_cons] at hhex
    cases i with
    | zero => exact (toNat_charPair hhex.1 hhex.2.1).trans (denotes_pair c d).symm
    | succ i =>
      rw [List.length_cons, List.length_cons] at hi
      exact ih hhex.2.2 (by omega)
  | case2 cs hshort =>
    rw [Nat.div_eq_of_lt (length_lt_two hshort)] at hi
    exact absurd hi (Nat.not_lt_zero i)

theorem length_shortQuads (cs : List UInt8) : (shortQuads cs).length = cs.length / 4 := by
  fun_induction shortQuads cs with
  | case1 a b c d cs ih =>
    simp only [List.length_cons, ih]
    omega
  | case2 cs hshort => exact (Nat.div_eq_of_lt (length_lt_four hshort)).symm

theorem getD_shortQuads {cs : List UInt8} (hhex : ∀ c ∈ cs, IsHex c) {i : ℕ}
    (hi : i < cs.length / 4) :
    ((shortQuads cs).getD i 0).toNat = denotes 16 digitValue (digitsAt cs (4 * i) 4) := by
  fun_induction shortQuads cs generalizing i with
  | case1 a b c d cs ih =>
    simp only [List.forall_mem_cons] at hhex
    obtain ⟨ha, hb, hc, hd, hcs⟩ := hhex
    cases i with
    | zero =>
      refine (toNat_quad _ _).trans ?_
      rw [toNat_charPair ha hb, toNat_charPair hc hd]
      exact (denotes_quad a b c d).symm
    | succ i =>
      rw [List.length_cons, List.length_cons, List.length_cons, List.length_cons] at hi
      exact ih hcs (by omega)
  | case2 cs hshort =>
    rw [Nat.div_eq_of_lt (length_lt_four hshort)] at hi
    exact absurd hi (Nat.not_lt_zero i)

set_option maxRecDepth 4000 in
/-- A byte is read back from its digits. -/
theorem charPair_nibbles (b : UInt8) :
    charPair (nibbles.getD (b >>> 4).toNat 0) (nibbles.getD (b &&& 0x0F).toNat 0) = b := by
  have hall : ∀ n < 256, charPair (nibbles.getD (UInt8.ofNat n >>> 4).toNat 0)
      (nibbles.getD (UInt8.ofNat n &&& 0x0F).toNat 0) = UInt8.ofNat n := by decide
  have hb := hall b.toNat b.toNat_lt
  rwa [UInt8.ofNat_toNat] at hb

theorem bytePairs_binaryToString (bytes : List UInt8) :
    bytePairs (binaryToString bytes) = bytes := by
  induction bytes with
  | nil => rfl
  | cons b bytes ih => exact congrArg₂ List.cons (charPair_nibbles b) ih

theorem length_binaryToString (bytes : List UInt8) :
    (binaryToString bytes).length = 2 * bytes.length := by
  induction bytes with
  | nil => rfl
  | cons b bytes ih =>
    have hcons : (binaryToString (b :: bytes)).length = (binaryToString bytes).length + 2 := rfl
    rw [hcons, ih, List.length_cons, Nat.mul_succ]

theorem stringToBinary_binaryToString (bytes : List UInt8) :
    stringToBinary (binaryToString bytes) = some bytes := by
  have heven : ¬ (binaryToString bytes).length % 2 = 1 := by
    rw [length_binaryToString]
    omega
  rw [stringToBinary, if_neg heven, bytePairs_binaryToString]

end Conversions

end Ril

end SierraSdk
