import SierraSdk.Im.Common
import SierraSdk.Library.CrcSerial

/-!
# The two CRCs over a number of bits

`crc_16_l_calc` and `crc_16_calc` take whole bytes through a table and the bits that are left of
the last byte one by one, the first with the lowest bit of a byte first, the second with the
highest. Both move the last byte to the upper half of a 16-bit word for that. There
`crc_16_calc` finds its first bits, but `crc_16_l_calc` takes the bits from the lower end of the
word, where there are only zeros.

So `crc_16_calc` is the bit-serial CRC over its bits (`crc16Calc_eq`), and `crc_16_l_calc` is the
one over its bits exactly if those behind the last whole byte are zeros (`crc16_serial_iff`).
-/

namespace SierraSdk

namespace Im

open Crc

/-- `CRC_16_SEED` -/
def crc16Seed : UInt16 := 0xffff

/-- `CRC_16_POLYNOMIAL` -/
def crc16Polynomial : UInt16 := 0x1021

/-- `crc16_table` -/
def crc16Table : List UInt16 :=
  [0x0000, 0x1021, 0x2042, 0x3063, 0x4084, 0x50a5, 0x60c6, 0x70e7,
   0x8108, 0x9129, 0xa14a, 0xb16b, 0xc18c, 0xd1ad, 0xe1ce, 0xf1ef,
   0x1231, 0x0210, 0x3273, 0x2252, 0x52b5, 0x4294, 0x72f7, 0x62d6,
   0x9339, 0x8318, 0xb37b, 0xa35a, 0xd3bd, 0xc39c, 0xf3ff, 0xe3de,
   0x2462, 0x3443, 0x0420, 0x1401, 0x64e6, 0x74c7, 0x44a4, 0x5485,
   0xa56a, 0xb54b, 0x8528, 0x9509, 0xe5ee, 0xf5cf, 0xc5ac, 0xd58d,
   0x3653, 0x2672, 0x1611, 0x0630, 0x76d7, 0x66f6, 0x5695, 0x46b4,
   0xb75b, 0xa77a, 0x9719, 0x8738, 0xf7df, 0xe7fe, 0xd79d, 0xc7bc,
   0x48c4, 0x58e5, 0x6886, 0x78a7, 0x0840, 0x1861, 0x2802, 0x3823,
   0xc9cc, 0xd9ed, 0xe98e, 0xf9af, 0x8948, 0x9969, 0xa90a, 0xb92b,
   0x5af5, 0x4ad4, 0x7ab7, 0x6a96, 0x1a71, 0x0a50, 0x3a33, 0x2a12,
   0xdbfd, 0xcbdc, 0xfbbf, 0xeb9e, 0x9b79, 0x8b58, 0xbb3b, 0xab1a,
   0x6ca6, 0x7c87, 0x4ce4, 0x5cc5, 0x2c22, 0x3c03, 0x0c60, 0x1c41,
   0xedae, 0xfd8f, 0xcdec, 0xddcd, 0xad2a, 0xbd0b, 0x8d68, 0x9d49,
   0x7e97, 0x6eb6, 0x5ed5, 0x4ef4, 0x3e13, 0x2e32, 0x1e51, 0x0e70,
   0xff9f, 0xefbe, 0xdfdd, 0xcffc, 0xbf1b, 0xaf3a, 0x9f59, 0x8f78,
   0x9188, 0x81a9, 0xb1ca, 0xa1eb, 0xd10c, 0xc12d, 0xf14e, 0xe16f,
   0x1080, 0x00a1, 0x30c2, 0x20e3, 0x5004, 0x4025, 0x7046, 0x6067,
   0x83b9, 0x9398, 0xa3fb, 0xb3da, 0xc33d, 0xd31c, 0xe37f, 0xf35e,
   0x02b1, 0x1290, 0x22f3, 0x32d2, 0x4235, 0x5214, 0x6277, 0x7256,
   0xb5ea, 0xa5cb, 0x95a8, 0x8589, 0xf56e, 0xe54f, 0xd52c, 0xc50d,
   0x34e2, 0x24c3, 0x14a0, 0x0481, 0x7466, 0x6447, 0x5424, 0x4405,
   0xa7db, 0xb7fa, 0x8799, 0x97b8, 0xe75f, 0xf77e, 0xc71d, 0xd73c,
   0x26d3, 0x36f2, 0x0691, 0x16b0, 0x6657, 0x7676, 0x4615, 0x5634,
   0xd94c, 0xc96d, 0xf90e, 0xe92f, 0x99c8, 0x89e9, 0xb98a, 0xa9ab,
   0x5844, 0x4865, 0x7806, 0x6827, 0x18c0, 0x08e1, 0x3882, 0x28a3,
   0xcb7d, 0xdb5c, 0xeb3f, 0xfb1e, 0x8bf9, 0x9bd8, 0xabbb, 0xbb9a,
   0x4a75, 0x5a54, 0x6a37, 0x7a16, 0x0af1, 0x1ad0, 0x2ab3, 0x3a92,
   0xfd2e, 0xed0f, 0xdd6c, 0xcd4d, 0xbdaa, 0xad8b, 0x9de8, 0x8dc9,
   0x7c26, 0x6c07, 0x5c64, 0x4c45, 0x3ca2, 0x2c83, 0x1ce0, 0x0cc1,
   0xef1f, 0xff3e, 0xcf5d, 0xdf7c, 0xaf9b, 0xbfba, 0x8fd9, 0x9ff8,
   0x6e17, 0x7e36, 0x4e55, 0x5e74, 0x2e93, 0x3eb2, 0x0ed1, 0x1ef0]

/-- One round of the byte loop of `crc_16_calc`. -/
def crc16Byte (crc16 : UInt16) (b : UInt8) : UInt16 :=
  crc16Table.getD ((crc16 >>> 8) ^^^ b.toUInt16).toNat 0 ^^^ (crc16 <<< 8)

/-- A byte loop for `n` bytes: the register and the bytes behind them, or `none` if the loop
leaves the buffer. -/
def byteLoop (round : UInt16 → UInt8 → UInt16) (crc16 : UInt16) :
    List UInt8 → ℕ → Option (UInt16 × List UInt8)
  | buf, 0 => some (crc16, buf)
  | [], _ + 1 => none
  | b :: buf, n + 1 => byteLoop round (round crc16 b) buf n

/-- The bit loop of `crc_16_calc` for `n` bits. -/
def crc16Bits (crc16 data : UInt16) : ℕ → UInt16
  | 0 => crc16
  | n + 1 =>
      if (crc16 ^^^ data) &&& ((1 : UInt16) <<< 15) ≠ 0 then
        crc16Bits (crc16 <<< 1 ^^^ crc16Polynomial) (data <<< 1) n
      else crc16Bits (crc16 <<< 1) (data <<< 1) n

/-- `crc_16_calc`: the complement of the CRC over the first `len` bits of the buffer. -/
def crc16Calc (buf : List UInt8) (len : UInt32) : Option UInt16 :=
  match byteLoop crc16Byte crc16Seed buf (len / 8).toNat with
  | none => none
  | some (crc16, rest) =>
      if len % 8 = 0 then some (~~~crc16)
      else
        match rest with
        | [] => none
        | b :: _ => some (~~~crc16Bits crc16 (b.toUInt16 <<< 8) (len % 8).toNat)

/-- The bits of a byte, lowest first. -/
def lsbBits (b : UInt8) : List Bool := (List.range 8).map fun i => b.toNat.testBit i

/-- The bits of a byte, highest first. -/
def msbBits (b : UInt8) : List Bool := (List.range 8).map fun i => b.toNat.testBit (7 - i)

/-- The bit-serial CRC of some bits, complemented. -/
def crc16LSerial (bits : List Bool) : UInt16 :=
  ~~~⟨(lsbFirst 16).serial crc16LPolynomial.toBitVec crc16LSeed.toBitVec bits⟩

def crc16Serial (bits : List Bool) : UInt16 :=
  ~~~⟨(msbFirst 16).serial crc16Polynomial.toBitVec crc16Seed.toBitVec bits⟩

/-- Both functions return the bit-serial CRC over exactly the first `len` bits. -/
structure BitSerial (buf : List UInt8) (len : UInt32) : Prop where
  lsb : crc16LCalc buf len = some (crc16LSerial ((buf.flatMap lsbBits).take len.toNat))
  msb : crc16Calc buf len = some (crc16Serial ((buf.flatMap msbBits).take len.toNat))

section Bytes

variable {round : UInt16 → UInt8 → UInt16}

theorem byteLoop_of_le {crc16 : UInt16} {buf : List UInt8} {n : ℕ} (h : n ≤ buf.length) :
    byteLoop round crc16 buf n = some ((buf.take n).foldl round crc16, buf.drop n) := by
  induction n generalizing crc16 buf with
  | zero => cases buf <;> rfl
  | succ n ih =>
      cases buf with
      | nil => exact absurd h (Nat.not_succ_le_zero n)
      | cons b buf => exact ih (Nat.le_of_succ_le_succ h)

theorem crc16LBytes_eq_byteLoop (crc16 : UInt16) (buf : List UInt8) (n : ℕ) :
    crc16LBytes crc16 buf n = byteLoop crc16LByte crc16 buf n := by
  induction n generalizing crc16 buf with
  | zero => cases buf <;> rfl
  | succ n ih =>
      cases buf with
      | nil => rfl
      | cons b buf => exact ih (crc16LByte crc16 b) buf

/-- A byte loop whose rounds take the bits of a byte takes those of all bytes. -/
theorem toBitVec_foldl {dir : Direction 16} {poly : BitVec 16} {bits : UInt8 → List Bool}
    (hround : ∀ c b, (round c b).toBitVec = dir.serial poly c.toBitVec (bits b))
    (crc16 : UInt16) (buf : List UInt8) :
    (buf.foldl round crc16).toBitVec =
      dir.serial poly crc16.toBitVec (buf.flatMap bits) := by
  induction buf generalizing crc16 with
  | nil => rfl
  | cons b buf ih =>
      rw [List.foldl_cons, ih, hround, List.flatMap_cons, dir.serial_append]

theorem length_flatMap_eight {bits : UInt8 → List Bool} (hbits : ∀ b, (bits b).length = 8)
    (buf : List UInt8) : (buf.flatMap bits).length = 8 * buf.length := by
  induction buf with
  | nil => rfl
  | cons b buf ih =>
      rw [List.flatMap_cons, List.length_append, hbits, ih, List.length_cons]
      omega

/-- The first `len` bits are those of the whole bytes and the first ones of the byte behind
them. -/
theorem take_flatMap_eight {bits : UInt8 → List Bool} (hbits : ∀ b, (bits b).length = 8)
    {buf : List UInt8} {len : ℕ} (h : len ≤ 8 * buf.length) :
    (buf.flatMap bits).take len =
      (buf.take (len / 8)).flatMap bits ++ ((buf.drop (len / 8)).flatMap bits).take (len % 8) := by
  have hwhole : ((buf.take (len / 8)).flatMap bits).length = 8 * (len / 8) := by
    rw [length_flatMap_eight hbits, List.length_take]
    omega
  have hsplit : buf.flatMap bits =
      (buf.take (len / 8)).flatMap bits ++ (buf.drop (len / 8)).flatMap bits := by
    rw [← List.flatMap_append, List.take_append_drop]
  calc (buf.flatMap bits).take len
      = (buf.flatMap bits).take (((buf.take (len / 8)).flatMap bits).length + len % 8) := by
        rw [hwhole, Nat.div_add_mod]
    _ = _ := by rw [hsplit, List.take_length_add_append]

end Bytes

section Bits

theorem length_lsbBits (b : UInt8) : (lsbBits b).length = 8 := by simp [lsbBits]

theorem length_msbBits (b : UInt8) : (msbBits b).length = 8 := by simp [msbBits]

/-- The bits that leave a byte in the lower half of a register. -/
theorem lsbFirst_bits_byte {n : ℕ} (hn : n ≤ 8) (b : UInt8) :
    (lsbFirst 16).bits n b.toUInt16.toBitVec = (lsbBits b).take n := by
  rw [lsbFirst_bits, lsbBits, ← List.map_take, List.take_range, Nat.min_eq_left hn]
  rfl

/-- The bits that leave a byte in the upper half of a register. -/
theorem msbFirst_bits_byte {n : ℕ} (hn : n ≤ 8) (b : UInt8) :
    (msbFirst 16).bits n (b.toUInt16 <<< 8).toBitVec = (msbBits b).take n := by
  rw [msbFirst_bits, msbBits, ← List.map_take, List.take_range, Nat.min_eq_left hn]
  refine List.map_congr_left fun i hi => ?_
  have hi8 : i < 8 := Nat.lt_of_lt_of_le (List.mem_range.mp hi) hn
  have hupper : (b.toUInt16 <<< 8).toBitVec = b.toUInt16.toBitVec <<< 8 := rfl
  rw [hupper, BitVec.getMsbD_shiftLeft, BitVec.getMsbD, decide_eq_true (by omega), Bool.true_and]
  have hplace : 16 - 1 - (i + 8) = 7 - i := by omega
  rw [hplace]
  rfl

/-- The lower half of a register has no bits for a byte in the upper half. -/
theorem lsbFirst_bits_upper {n : ℕ} (hn : n ≤ 8) (b : UInt8) :
    (lsbFirst 16).bits n (b.toUInt16 <<< 8).toBitVec = List.replicate n false := by
  have hupper : (b.toUInt16 <<< 8).toBitVec = b.toUInt16.toBitVec <<< 8 := rfl
  rw [lsbFirst_bits, List.eq_replicate_iff]
  refine ⟨by simp, fun bit hbit => ?_⟩
  obtain ⟨i, hi, rfl⟩ := List.mem_map.mp hbit
  have hi8 : i < 8 := Nat.lt_of_lt_of_le (List.mem_range.mp hi) hn
  simp [hupper, BitVec.getLsbD_shiftLeft, hi8]

theorem and_one_ne_zero_iff (s : UInt16) : s &&& 1 ≠ 0 ↔ s.toBitVec.getLsbD 0 = true := by
  have hand : (s &&& 1).toBitVec = if s.toBitVec.getLsbD 0 then BitVec.twoPow 16 0 else 0 :=
    BitVec.and_twoPow s.toBitVec 0
  rw [Ne, ← UInt16.toBitVec_inj, hand]
  split_ifs with hbit
  · exact iff_of_true (by decide) hbit
  · exact iff_of_false (fun h => h rfl) hbit

theorem and_msb_ne_zero_iff (s : UInt16) :
    s &&& ((1 : UInt16) <<< 15) ≠ 0 ↔ s.toBitVec.msb = true := by
  have hand : (s &&& ((1 : UInt16) <<< 15)).toBitVec =
      if s.toBitVec.getLsbD 15 then BitVec.twoPow 16 15 else 0 :=
    BitVec.and_twoPow s.toBitVec 15
  have hmsb : s.toBitVec.msb = s.toBitVec.getLsbD 15 := BitVec.msb_eq_getLsbD_last _
  rw [Ne, ← UInt16.toBitVec_inj, hand, hmsb]
  split_ifs with hbit
  · exact iff_of_true (by decide) hbit
  · exact iff_of_false (fun h => h rfl) hbit

/-- A bit loop that shifts the register and the data takes the bits that leave the data. -/
theorem toBitVec_bitLoop {dir : Direction 16} {poly : UInt16}
    {loop : UInt16 → UInt16 → ℕ → UInt16} {shift : UInt16 → UInt16} {differs : UInt16 → Prop}
    [DecidablePred differs] (hzero : ∀ c x, loop c x 0 = c)
    (hsucc : ∀ c x n, loop c x (n + 1) =
      if differs (c ^^^ x) then loop (shift c ^^^ poly) (shift x) n else loop (shift c) (shift x) n)
    (hshift : ∀ s, (shift s).toBitVec = dir.move s.toBitVec)
    (hout : ∀ s, differs s ↔ dir.out s.toBitVec = true) (crc16 data : UInt16) (n : ℕ) :
    (loop crc16 data n).toBitVec =
      dir.serial poly.toBitVec crc16.toBitVec (dir.bits n data.toBitVec) := by
  induction n generalizing crc16 data with
  | zero =>
      rw [hzero]
      rfl
  | succ n ih =>
      have hxor := hout (crc16 ^^^ data)
      rw [UInt16.toBitVec_xor, dir.out_xor] at hxor
      rw [hsucc, Direction.bits, Direction.serial, List.foldl_cons, Direction.step, ← hshift data]
      by_cases hset : differs (crc16 ^^^ data)
      · rw [if_pos hset, if_pos (hxor.mp hset), ih, UInt16.toBitVec_xor, hshift crc16]
        rfl
      · rw [if_neg hset, if_neg fun h => hset (hxor.mpr h), ih, hshift crc16]
        rfl

theorem crc16LBits_eq (crc16 data : UInt16) (n : ℕ) :
    (crc16LBits crc16 data n).toBitVec =
      (lsbFirst 16).serial crc16LPolynomial.toBitVec crc16.toBitVec
        ((lsbFirst 16).bits n data.toBitVec) :=
  toBitVec_bitLoop (fun _ _ => rfl) (fun _ _ _ => rfl) (fun _ => rfl) and_one_ne_zero_iff _ _ _

theorem crc16Bits_eq (crc16 data : UInt16) (n : ℕ) :
    (crc16Bits crc16 data n).toBitVec =
      (msbFirst 16).serial crc16Polynomial.toBitVec crc16.toBitVec
        ((msbFirst 16).bits n data.toBitVec) :=
  toBitVec_bitLoop (fun _ _ => rfl) (fun _ _ _ => rfl) (fun _ => rfl) and_msb_ne_zero_iff _ _ _

end Bits

section Tables

theorem lsbFirst_shift_eq (poly : BitVec 16) : (lsbFirst 16).shift poly = shift poly := by
  funext c
  rw [Direction.shift, Direction.step, Bool.xor_false]
  rfl

/-- A round of the byte loop of `crc_16_l_calc` takes the bits of the byte. -/
theorem crc16LByte_serial (crc16 : UInt16) (b : UInt8) :
    (crc16LByte crc16 b).toBitVec =
      (lsbFirst 16).serial crc16LPolynomial.toBitVec crc16.toBitVec (lsbBits b) := by
  have hmoved : (lsbFirst 16).move^[8] b.toUInt16.toBitVec = 0 := by
    rw [lsbFirst_move_iterate]
    apply BitVec.eq_of_toNat_eq
    have := b.toNat_lt
    simp [Nat.shiftRight_eq_div_pow]
    omega
  have hbits := lsbFirst_bits_byte le_rfl b
  rw [List.take_of_length_le (length_lsbBits b).le] at hbits
  rw [crc16LByte_eq, feed, ← lsbFirst_shift_eq, Direction.iterate_shift_xor, hmoved, hbits]
  exact BitVec.xor_zero

/-- An entry of the table is its index, in the upper half, shifted eight times. -/
theorem crc16Table_entry {i : ℕ} (hi : i < 256) :
    (crc16Table.getD i 0).toBitVec =
      ((msbFirst 16).shift crc16Polynomial.toBitVec)^[8] (BitVec.ofNat 16 (i * 256)) := by
  have htable : crc16Table.map UInt16.toBitVec =
      (List.range 256).map fun i =>
        ((msbFirst 16).shift crc16Polynomial.toBitVec)^[8] (BitVec.ofNat 16 (i * 256)) := by
    decide +kernel
  exact getD_of_map_eq htable hi

/-- A round of the byte loop of `crc_16_calc` takes the bits of the byte. -/
theorem crc16Byte_serial (crc16 : UInt16) (b : UInt8) :
    (crc16Byte crc16 b).toBitVec =
      (msbFirst 16).serial crc16Polynomial.toBitVec crc16.toBitVec (msbBits b) := by
  generalize hindex : crc16 >>> 8 ^^^ b.toUInt16 = index
  have hlt : index.toNat < 256 := by
    have hcrc : (crc16 >>> 8).toNat < 2 ^ 8 := by
      have := crc16.toNat_lt
      simp [Nat.shiftRight_eq_div_pow]
      omega
    rw [← hindex, UInt16.toNat_xor]
    exact Nat.xor_lt_two_pow hcrc b.toNat_lt
  have hentry : BitVec.ofNat 16 (index.toNat * 256) = index.toBitVec <<< 8 := by
    apply BitVec.eq_of_toNat_eq
    simp [Nat.shiftLeft_eq]
  -- the upper half of the register with the byte added, and the lower half
  have hsplit : crc16.toBitVec ^^^ (b.toUInt16 <<< 8).toBitVec =
      BitVec.ofNat 16 (index.toNat * 256) ^^^ low 8 crc16.toBitVec := by
    have hupper : index.toBitVec = crc16.toBitVec >>> 8 ^^^ b.toUInt16.toBitVec := by
      rw [← hindex]
      rfl
    have hbyte : (b.toUInt16 <<< 8).toBitVec = b.toUInt16.toBitVec <<< 8 := rfl
    rw [hentry, hupper, hbyte]
    apply BitVec.eq_of_getLsbD_eq
    intro i hi
    rw [BitVec.getLsbD_xor, BitVec.getLsbD_xor, getLsbD_low]
    by_cases hlow : i < 8
    · simp [hlow]
    · simp [hlow, hi, Nat.add_sub_cancel' (Nat.le_of_not_lt hlow)]
  have hlow : (msbFirst 16).bits 8 (low 8 crc16.toBitVec) = List.replicate 8 false := by
    rw [msbFirst_bits, List.eq_replicate_iff]
    refine ⟨by simp, fun bit hbit => ?_⟩
    obtain ⟨i, hi, rfl⟩ := List.mem_map.mp hbit
    have hi8 : i < 8 := List.mem_range.mp hi
    rw [BitVec.getMsbD, getLsbD_low, decide_eq_false (by omega : ¬ 16 - 1 - i < 8)]
    simp
  have hgone : (msbFirst 16).move^[8] (b.toUInt16 <<< 8).toBitVec = 0 := by
    have hbyte : (b.toUInt16 <<< 8).toBitVec = b.toUInt16.toBitVec <<< 8 := rfl
    rw [msbFirst_move_iterate, hbyte, ← BitVec.shiftLeft_add]
    exact BitVec.shiftLeft_eq_zero (by decide)
  have hmoved : (msbFirst 16).move^[8] (low 8 crc16.toBitVec) = (crc16 <<< 8).toBitVec := by
    have hregister : (crc16 <<< 8).toBitVec = crc16.toBitVec <<< 8 := rfl
    rw [msbFirst_move_iterate, hregister]
    apply BitVec.eq_of_getLsbD_eq
    intro i hi
    have hi8 : i - 8 < 8 := by omega
    simp [getLsbD_low, hi8]
  have hbits := msbFirst_bits_byte le_rfl b
  rw [List.take_of_length_le (length_msbBits b).le] at hbits
  rw [crc16Byte, hindex, UInt16.toBitVec_xor, crc16Table_entry hlt, ← hmoved, ← hbits]
  exact ((msbFirst 16).serial_bits_eq_table _ hsplit hlow hgone).symm

end Tables

section Calc

variable {buf : List UInt8} {len : UInt32}

/-- What the two functions make of the whole bytes and of the first bits of the byte behind
them, if there are any. -/
theorem last_byte (h : len.toNat ≤ 8 * buf.length) (hrest : len % 8 ≠ 0) :
    ∃ b rest, buf.drop (len.toNat / 8) = b :: rest ∧ buf.getD (len.toNat / 8) 0 = b := by
  have hmod : (len % 8).toNat ≠ 0 := fun h0 => hrest (UInt32.toNat_inj.mp h0)
  have hlt : len.toNat / 8 < buf.length := by
    have hmod' : len.toNat % 8 ≠ 0 := by rwa [UInt32.toNat_mod] at hmod
    omega
  refine ⟨buf[len.toNat / 8], buf.drop (len.toNat / 8 + 1), List.drop_eq_getElem_cons hlt, ?_⟩
  rw [List.getD_eq_getElem?_getD, List.getElem?_eq_getElem hlt, Option.getD_some]

theorem div_mod_eight (len : UInt32) :
    (len / 8).toNat = len.toNat / 8 ∧ (len % 8).toNat = len.toNat % 8 :=
  ⟨UInt32.toNat_div len 8, UInt32.toNat_mod len 8⟩

theorem div_le (h : len.toNat ≤ 8 * buf.length) : (len / 8).toNat ≤ buf.length := by
  rw [(div_mod_eight len).1]
  omega

/-- Behind the whole bytes `crc_16_l_calc` takes zeros. -/
theorem crc16LCalc_eq (h : len.toNat ≤ 8 * buf.length) :
    crc16LCalc buf len =
      some (crc16LSerial ((buf.take (len.toNat / 8)).flatMap lsbBits ++
        List.replicate (len.toNat % 8) false)) := by
  obtain ⟨hdiv, hmod⟩ := div_mod_eight len
  have hfold : (buf.take (len.toNat / 8)).foldl crc16LByte crc16LSeed =
      ⟨(lsbFirst 16).serial crc16LPolynomial.toBitVec crc16LSeed.toBitVec
        ((buf.take (len.toNat / 8)).flatMap lsbBits)⟩ :=
    UInt16.toBitVec_inj.mp (toBitVec_foldl crc16LByte_serial _ _)
  rw [crc16LCalc, crc16LBytes_eq_byteLoop, byteLoop_of_le (div_le h), hdiv, hfold]
  by_cases hrest : len % 8 = 0
  · have hnone : len.toNat % 8 = 0 := by
      rw [← hmod, hrest]
      rfl
    simp only [if_pos hrest, hnone, List.replicate_zero, List.append_nil]
    rfl
  · obtain ⟨b, rest, hdrop, -⟩ := last_byte h hrest
    have hle : len.toNat % 8 ≤ 8 := Nat.le_of_lt (Nat.mod_lt _ (by decide))
    simp only [hdrop, if_neg hrest, hmod]
    congr 2
    apply UInt16.toBitVec_inj.mp
    rw [crc16LBits_eq, lsbFirst_bits_upper hle, Direction.serial_append]

/-- `crc_16_calc` is the bit-serial CRC over its bits. -/
theorem crc16Calc_eq (h : len.toNat ≤ 8 * buf.length) :
    crc16Calc buf len = some (crc16Serial ((buf.flatMap msbBits).take len.toNat)) := by
  obtain ⟨hdiv, hmod⟩ := div_mod_eight len
  have hfold : (buf.take (len.toNat / 8)).foldl crc16Byte crc16Seed =
      ⟨(msbFirst 16).serial crc16Polynomial.toBitVec crc16Seed.toBitVec
        ((buf.take (len.toNat / 8)).flatMap msbBits)⟩ :=
    UInt16.toBitVec_inj.mp (toBitVec_foldl crc16Byte_serial _ _)
  rw [crc16Calc, byteLoop_of_le (div_le h), hdiv, hfold, take_flatMap_eight length_msbBits h]
  by_cases hrest : len % 8 = 0
  · have hnone : len.toNat % 8 = 0 := by
      rw [← hmod, hrest]
      rfl
    simp only [if_pos hrest, hnone, List.take_zero, List.append_nil]
    rfl
  · obtain ⟨b, rest, hdrop, -⟩ := last_byte h hrest
    have hle : len.toNat % 8 ≤ 8 := Nat.le_of_lt (Nat.mod_lt _ (by decide))
    have hfirst : ((b :: rest).flatMap msbBits).take (len.toNat % 8) =
        (msbBits b).take (len.toNat % 8) := by
      rw [List.flatMap_cons, List.take_append_of_le_length (by rwa [length_msbBits])]
    simp only [hdrop, if_neg hrest, hmod, hfirst]
    congr 2
    apply UInt16.toBitVec_inj.mp
    rw [crc16Bits_eq, msbFirst_bits_byte hle, Direction.serial_append]

/-- Bits of a byte that have the effect of zeros are zeros. -/
theorem crc16LSerial_eq_iff {bits : List Bool} {n : ℕ} (hn : n ≤ 8) (b : UInt8) :
    crc16LSerial (bits ++ (lsbBits b).take n) =
        crc16LSerial (bits ++ List.replicate n false) ↔
      ∀ i < n, b.toNat.testBit i = false := by
  constructor
  · intro h
    generalize hx : low n b.toUInt16.toBitVec = x
    have hbit : ∀ i < n, x.getLsbD i = b.toNat.testBit i := by
      intro i hi
      rw [← hx, getLsbD_low, decide_eq_true hi, Bool.true_and]
      rfl
    have hbits : (lsbFirst 16).bits n x = (lsbBits b).take n := by
      rw [lsbFirst_bits, lsbBits, ← List.map_take, List.take_range, Nat.min_eq_left hn]
      exact List.map_congr_left fun i hi => hbit i (List.mem_range.mp hi)
    have hmoved : (lsbFirst 16).move^[n] x = 0 := by
      rw [lsbFirst_move_iterate]
      apply BitVec.eq_of_getLsbD_eq
      intro i _
      rw [BitVec.getLsbD_ushiftRight, ← hx, getLsbD_low,
        decide_eq_false (Nat.not_lt.mpr (Nat.le_add_right n i)), Bool.false_and]
      exact (BitVec.getLsbD_zero).symm
    have hserial := UInt16.toBitVec_inj.mpr (UInt16.not_inj.mp h)
    rw [Direction.serial_append, Direction.serial_append, ← hbits] at hserial
    have hzero := (lsbFirst 16).eq_zero_of_serial_eq crc16LPolynomial.toBitVec
      (lsbFirst_shift_injective rfl) hmoved hserial
    intro i hi
    rw [← hbit i hi, hzero]
    exact BitVec.getLsbD_zero
  · intro h
    have hzeros : (lsbBits b).take n = List.replicate n false := by
      rw [lsbBits, ← List.map_take, List.take_range, Nat.min_eq_left hn, List.eq_replicate_iff]
      refine ⟨by simp, fun bit hbit => ?_⟩
      obtain ⟨i, hi, rfl⟩ := List.mem_map.mp hbit
      exact h i (List.mem_range.mp hi)
    rw [hzeros]

end Calc

/-- Both functions return the bit-serial CRC over exactly their bits, exactly if the bits behind
the last whole byte, lowest first, are not set. -/
theorem crc16_serial_iff (buf : List UInt8) (len : UInt32) (h : len.toNat ≤ 8 * buf.length) :
    BitSerial buf len ↔
      ∀ i < len.toNat % 8, (buf.getD (len.toNat / 8) 0).toNat.testBit i = false := by
  have hbits : BitSerial buf len ↔
      crc16LCalc buf len = some (crc16LSerial ((buf.flatMap lsbBits).take len.toNat)) :=
    ⟨BitSerial.lsb, fun hlsb => ⟨hlsb, crc16Calc_eq h⟩⟩
  rw [hbits, crc16LCalc_eq h, take_flatMap_eight length_lsbBits h, Option.some_inj, eq_comm]
  by_cases hrest : len % 8 = 0
  · have hnone : len.toNat % 8 = 0 := by
      rw [← (div_mod_eight len).2, hrest]
      rfl
    simp [hnone]
  · obtain ⟨b, rest, hdrop, hget⟩ := last_byte h hrest
    have hle : len.toNat % 8 ≤ 8 := Nat.le_of_lt (Nat.mod_lt _ (by decide))
    have hfirst : ((b :: rest).flatMap lsbBits).take (len.toNat % 8) =
        (lsbBits b).take (len.toNat % 8) := by
      rw [List.flatMap_cons, List.take_append_of_le_length (by rwa [length_lsbBits])]
    rw [hdrop, hfirst, hget]
    exact crc16LSerial_eq_iff hle b

theorem crc16_serial_nibble : BitSerial [0x31, 0x30] 12 :=
  (crc16_serial_iff [0x31, 0x30] 12 (by decide)).mpr (by decide)

/-- The CRC over a single bit that is set is the one over a bit that is not set. -/
theorem not_crc16_serial :
    crc16LCalc [0x01] 1 = crc16LCalc [0x00] 1 ∧ ¬ BitSerial [0x01] 1 := by
  refine ⟨by decide +kernel, fun h => ?_⟩
  exact absurd h.lsb (by decide +kernel)

end Im

end SierraSdk
