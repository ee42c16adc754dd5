import SierraSdk.Am.Packet
import SierraSdk.Library.Crc

/-!
# The frame check sequence of the image-management protocol

`crc_16_l_calc` runs a reflected CRC over a buffer, whole bytes through a table and the bits
that are left one by one, and returns its complement.

Over whole bytes it is the CRC that feeds the buffer to the register byte by byte
(`imCalculate16CRC_eq`), and a buffer that ends with its own check sequence has the constant
one `CRC_16_L_OK` (`fcs16_own`).
-/

namespace SierraSdk

namespace Im

open Crc

/-- `CRC_16_L_SEED` -/
def crc16LSeed : UInt16 := 0xffff

/-- `CRC_16_L_POLYNOMIAL` -/
def crc16LPolynomial : UInt16 := 0x8408

/-- `CRC_16_L_OK` -/
def crc16LOk : UInt16 := 0x0f47

/-- `crc_16_l_table` -/
def crc16LTable : List UInt16 :=
  [0x0000, 0x1189, 0x2312, 0x329b, 0x4624, 0x57ad, 0x6536, 0x74bf,
   0x8c48, 0x9dc1, 0xaf5a, 0xbed3, 0xca6c, 0xdbe5, 0xe97e, 0xf8f7,
   0x1081, 0x0108, 0x3393, 0x221a, 0x56a5, 0x472c, 0x75b7, 0x643e,
   0x9cc9, 0x8d40, 0xbfdb, 0xae52, 0xdaed, 0xcb64, 0xf9ff, 0xe876,
   0x2102, 0x308b, 0x0210, 0x1399, 0x6726, 0x76af, 0x4434, 0x55bd,
   0xad4a, 0xbcc3, 0x8e58, 0x9fd1, 0xeb6e, 0xfae7, 0xc87c, 0xd9f5,
   0x3183, 0x200a, 0x1291, 0x0318, 0x77a7, 0x662e, 0x54b5, 0x453c,
   0xbdcb, 0xac42, 0x9ed9, 0x8f50, 0xfbef, 0xea66, 0xd8fd, 0xc974,
   0x4204, 0x538d, 0x6116, 0x709f, 0x0420, 0x15a9, 0x2732, 0x36bb,
   0xce4c, 0xdfc5, 0xed5e, 0xfcd7, 0x8868, 0x99e1, 0xab7a, 0xbaf3,
   0x5285, 0x430c, 0x7197, 0x601e, 0x14a1, 0x0528, 0x37b3, 0x263a,
   0xdecd, 0xcf44, 0xfddf, 0xec56, 0x98e9, 0x8960, 0xbbfb, 0xaa72,
   0x6306, 0x728f, 0x4014, 0x519d, 0x2522, 0x34ab, 0x0630, 0x17b9,
   0xef4e, 0xfec7, 0xcc5c, 0xddd5, 0xa96a, 0xb8e3, 0x8a78, 0x9bf1,
   0x7387, 0x620e, 0x5095, 0x411c, 0x35a3, 0x242a, 0x16b1, 0x0738,
   0xffcf, 0xee46, 0xdcdd, 0xcd54, 0xb9eb, 0xa862, 0x9af9, 0x8b70,
   0x8408, 0x9581, 0xa71a, 0xb693, 0xc22c, 0xd3a5, 0xe13e, 0xf0b7,
   0x0840, 0x19c9, 0x2b52, 0x3adb, 0x4e64, 0x5fed, 0x6d76, 0x7cff,
   0x9489, 0x8500, 0xb79b, 0xa612, 0xd2ad, 0xc324, 0xf1bf, 0xe036,
   0x18c1, 0x0948, 0x3bd3, 0x2a5a, 0x5ee5, 0x4f6c, 0x7df7, 0x6c7e,
   0xa50a, 0xb483, 0x8618, 0x9791, 0xe32e, 0xf2a7, 0xc03c, 0xd1b5,
   0x2942, 0x38cb, 0x0a50, 0x1bd9, 0x6f66, 0x7eef, 0x4c74, 0x5dfd,
   0xb58b, 0xa402, 0x9699, 0x8710, 0xf3af, 0xe226, 0xd0bd, 0xc134,
   0x39c3, 0x284a, 0x1ad1, 0x0b58, 0x7fe7, 0x6e6e, 0x5cf5, 0x4d7c,
   0xc60c, 0xd785, 0xe51e, 0xf497, 0x8028, 0x91a1, 0xa33a, 0xb2b3,
   0x4a44, 0x5bcd, 0x6956, 0x78df, 0x0c60, 0x1de9, 0x2f72, 0x3efb,
   0xd68d, 0xc704, 0xf59f, 0xe416, 0x90a9, 0x8120, 0xb3bb, 0xa232,
   0x5ac5, 0x4b4c, 0x79d7, 0x685e, 0x1ce1, 0x0d68, 0x3ff3, 0x2e7a,
   0xe70e, 0xf687, 0xc41c, 0xd595, 0xa12a, 0xb0a3, 0x8238, 0x93b1,
   0x6b46, 0x7acf, 0x4854, 0x59dd, 0x2d62, 0x3ceb, 0x0e70, 0x1ff9,
   0xf78f, 0xe606, 0xd49d, 0xc514, 0xb1ab, 0xa022, 0x92b9, 0x8330,
   0x7bc7, 0x6a4e, 0x58d5, 0x495c, 0x3de3, 0x2c6a, 0x1ef1, 0x0f78]

/-- One round of the byte loop. -/
def crc16LByte (crc16 : UInt16) (b : UInt8) : UInt16 :=
  crc16LTable.getD ((crc16 ^^^ b.toUInt16) &&& 0x00ff).toNat 0 ^^^ (crc16 >>> 8)

/-- The byte loop for `n` bytes: the register and the bytes behind them, or `none` if the
loop leaves the buffer. -/
def crc16LBytes (crc16 : UInt16) : List UInt8 → ℕ → Option (UInt16 × List UInt8)
  | buf, 0 => some (crc16, buf)
  | [], _ + 1 => none
  | b :: buf, n + 1 => crc16LBytes (crc16LByte crc16 b) buf n

/-- The bit loop for `n` bits. -/
def crc16LBits (crc16 data : UInt16) : ℕ → UInt16
  | 0 => crc16
  | n + 1 =>
      if (crc16 ^^^ data) &&& 0x01 ≠ 0 then
        crc16LBits (crc16 >>> 1 ^^^ crc16LPolynomial) (data >>> 1) n
      else crc16LBits (crc16 >>> 1) (data >>> 1) n

/-- The complement of the CRC over the first `len` bits of the buffer. -/
def crc16LCalc (buf : List UInt8) (len : UInt32) : Option UInt16 :=
  match crc16LBytes crc16LSeed buf (len / 8).toNat with
  | none => none
  | some (crc16, rest) =>
      if len % 8 = 0 then some (~~~crc16)
      else
        match rest with
        | [] => none
        | b :: _ => some (~~~crc16LBits crc16 (b.toUInt16 <<< 8) (len % 8).toNat)

def imCalculate16CRC (dataBuf : List UInt8) (length : UInt32) : Option UInt16 :=
  crc16LCalc dataBuf length

/-- The frame check sequence of a message: the complement of the register that the message has
been fed to, byte by byte. -/
def fcs16 (msg : List UInt8) : UInt16 :=
  ~~~⟨msg.foldl (fun c b => feed crc16LPolynomial.toBitVec 8 c b.toUInt16.toBitVec)
    crc16LSeed.toBitVec⟩

/-- The entry of a table that has been computed from the indices. -/
theorem getD_of_map_eq {table : List UInt16} {n : ℕ} {f : ℕ → BitVec 16}
    (h : table.map UInt16.toBitVec = (List.range n).map f) {i : ℕ} (hi : i < n) :
    (table.getD i 0).toBitVec = f i := by
  have hentry : (table.map UInt16.toBitVec)[i]? = some (f i) := by
    rw [h, List.getElem?_map, List.getElem?_range hi, Option.map_some]
  rw [List.getElem?_map, Option.map_eq_some_iff] at hentry
  obtain ⟨e, he, hf⟩ := hentry
  rw [List.getD_eq_getElem?_getD, he]
  exact hf

/-- An entry of the table is its index, shifted eight times. -/
theorem crc16LTable_entry {i : ℕ} (hi : i < 256) :
    (crc16LTable.getD i 0).toBitVec =
      (shift crc16LPolynomial.toBitVec)^[8] (BitVec.ofNat 16 i) := by
  have htable : crc16LTable.map UInt16.toBitVec =
      (List.range 256).map fun i =>
        (shift crc16LPolynomial.toBitVec)^[8] (BitVec.ofNat 16 i) := by
    decide +kernel
  exact getD_of_map_eq htable hi

theorem crc16LByte_eq (crc16 : UInt16) (b : UInt8) :
    (crc16LByte crc16 b).toBitVec =
      feed crc16LPolynomial.toBitVec 8 crc16.toBitVec b.toUInt16.toBitVec := by
  generalize hs : crc16 ^^^ b.toUInt16 = s
  have hindex : (s &&& 0x00ff).toNat = s.toNat % 2 ^ 8 :=
    Nat.and_two_pow_sub_one_eq_mod s.toNat 8
  have hlow : BitVec.ofNat 16 (s &&& 0x00ff).toNat = low 8 s.toBitVec := by
    rw [hindex]
    apply BitVec.eq_of_toNat_eq
    simp [low]
  have hlt : (s &&& 0x00ff).toNat < 256 := by
    rw [hindex]
    exact Nat.mod_lt _ (by decide)
  rw [feed_eq_table, ← UInt16.toBitVec_xor crc16, hs, ← hlow, ← crc16LTable_entry hlt, ← hs]
  have hbyte : b.toUInt16 >>> 8 = 0 := by
    apply UInt16.toNat_inj.mp
    have := b.toNat_lt
    simp [Nat.shiftRight_eq_div_pow]
    omega
  have hregister : (crc16 ^^^ b.toUInt16) >>> 8 = crc16 >>> 8 := by
    rw [UInt16.shiftRight_xor, hbyte, UInt16.xor_zero]
  rw [crc16LByte, UInt16.toBitVec_xor, ← hregister, UInt16.toBitVec_shiftRight]
  rfl

theorem crc16LBytes_append (crc16 : UInt16) (msg rest : List UInt8) :
    crc16LBytes crc16 (msg ++ rest) msg.length = some (msg.foldl crc16LByte crc16, rest) := by
  induction msg generalizing crc16 with
  | nil =>
      cases rest <;> rfl
  | cons b msg ih => exact ih (crc16LByte crc16 b)

theorem crc16LBytes_none {crc16 : UInt16} {buf : List UInt8} {n : ℕ} (h : buf.length < n) :
    crc16LBytes crc16 buf n = none := by
  induction buf generalizing crc16 n with
  | nil =>
      cases n with
      | zero => exact absurd h (Nat.lt_irrefl 0)
      | succ n => rfl
  | cons b buf ih =>
      cases n with
      | zero => exact absurd h (Nat.not_lt_zero _)
      | succ n => exact ih (Nat.lt_of_succ_lt_succ h)

theorem foldl_crc16LByte (crc16 : UInt16) (msg : List UInt8) :
    (msg.foldl crc16LByte crc16).toBitVec =
      msg.foldl (fun c b => feed crc16LPolynomial.toBitVec 8 c b.toUInt16.toBitVec)
        crc16.toBitVec := by
  induction msg generalizing crc16 with
  | nil => rfl
  | cons b msg ih => rw [List.foldl_cons, ih, crc16LByte_eq, List.foldl_cons]

/-- The frame check sequence of the message at the start of a buffer. -/
theorem imCalculate16CRC_eq {msg : List UInt8} (rest : List UInt8) {length : UInt32}
    (hlength : length.toNat = 8 * msg.length) :
    imCalculate16CRC (msg ++ rest) length = some (fcs16 msg) := by
  have hbytes : (length / 8).toNat = msg.length := by
    rw [UInt32.toNat_div, hlength]
    exact Nat.mul_div_cancel_left _ (by decide)
  have hbits : length % 8 = 0 := by
    apply UInt32.toNat_inj.mp
    rw [UInt32.toNat_mod, hlength]
    exact Nat.mul_mod_right 8 _
  have hfold : msg.foldl crc16LByte crc16LSeed =
      ⟨msg.foldl (fun c b => feed crc16LPolynomial.toBitVec 8 c b.toUInt16.toBitVec)
        crc16LSeed.toBitVec⟩ :=
    UInt16.toBitVec_inj.mp (foldl_crc16LByte crc16LSeed msg)
  simp only [imCalculate16CRC, crc16LCalc, hbytes, crc16LBytes_append, if_pos hbits, hfold]
  rfl

/-- A message followed by its frame check sequence has the frame check sequence
`CRC_16_L_OK`. -/
theorem fcs16_own (msg : List UInt8) : fcs16 (msg ++ Am.piput16 (fcs16 msg)) = crc16LOk := by
  generalize hfcs : fcs16 msg = fcs
  have hregister : msg.foldl (fun c b => feed crc16LPolynomial.toBitVec 8 c b.toUInt16.toBitVec)
      crc16LSeed.toBitVec = ~~~fcs.toBitVec := by
    rw [← hfcs, fcs16, UInt16.toBitVec_not, BitVec.not_not]
  have hlow : fcs.toUInt8.toUInt16.toBitVec = low 8 fcs.toBitVec := rfl
  have hhigh : (fcs >>> 8).toUInt8.toUInt16.toBitVec = fcs.toBitVec >>> 8 := by
    apply BitVec.eq_of_toNat_eq
    have := fcs.toNat_lt
    simp [Nat.shiftRight_eq_div_pow]
    omega
  have hback : fcs.toBitVec >>> 8 <<< 8 >>> 8 = fcs.toBitVec >>> 8 := by
    apply BitVec.eq_of_toNat_eq
    have := fcs.toNat_lt
    simp [Nat.shiftRight_eq_div_pow, Nat.shiftLeft_eq]
    omega
  have hown : low 8 fcs.toBitVec ^^^ fcs.toBitVec >>> 8 <<< 8 =
      ~~~fcs.toBitVec ^^^ BitVec.allOnes 16 := by
    rw [BitVec.xor_allOnes, BitVec.not_not]
    apply BitVec.eq_of_getLsbD_eq
    intro i hi
    rw [BitVec.getLsbD_xor, getLsbD_low]
    by_cases hlt : i < 8
    · simp [hlt]
    · simp [hlt, hi, Nat.add_sub_cancel' (Nat.le_of_not_lt hlt)]
  have hend := feed_feed_self crc16LPolynomial.toBitVec 8 hback hown
  rw [fcs16, List.foldl_append, hregister]
  simp only [Am.piput16, List.foldl_cons, List.foldl_nil, hlow, hhigh, hend]
  decide +kernel

end Im

end SierraSdk
