import Mathlib.Logic.Function.Basic
import SierraSdk.Library.Bits

/-!
# Packing bytes into bits

`PackByteToBits` writes the low bits of a byte at a bit position of a buffer, and
`UnpackBitsToAByte` reads a byte from there; the highest bit of a byte is the first one. Both
take up to eight bits, which lie in one byte of the buffer or in two. The SDK and the RIL have
the same two functions.

They are the store and the load of a field in the memory of bits (`bitsOf_packByteToBits`,
`unpackBitsToAByte_eq`).
-/

namespace SierraSdk

namespace Sms

open Memory Bits

/-- A byte shifted as an `int`, and cast to a byte again. -/
def shl (b : UInt8) (n : ℕ) : UInt8 := ⟨b.toBitVec <<< n⟩
def shr (b : UInt8) (n : ℕ) : UInt8 := ⟨b.toBitVec >>> n⟩

/-- `MASK_B` -/
def maskB (offset len : ℕ) : UInt8 := shr 0xff offset &&& shl 0xff (8 - (offset + len))

/-- `MASK` -/
def mask (width offset : ℕ) (data : UInt8) : UInt8 :=
  if width = 8 then data else shr (shl 0xff (8 - width % 8)) offset &&& data

/-- `MASK_AND_SHIFT`, for a shift to the right. -/
def maskAndShift (width offset shift : ℕ) (data : UInt8) : UInt8 :=
  shr (mask width offset data) shift

def PackByteToBits (src : UInt8) (dst : ℕ → UInt8) (pos len : ℕ) : ℕ → UInt8 :=
  let tPos := pos % 8
  let bits := 8 - tPos
  let last := (pos + len - 1) / 8
  if len ≤ bits then
    Function.update dst last
      (dst last &&& ~~~maskB tPos len ||| maskB tPos len &&& shl src (bits - len))
  else
    let first := last - 1
    let dst := Function.update dst first
      (dst first &&& ~~~maskB tPos bits ||| maskB tPos bits &&& shr src (len - bits))
    Function.update dst last
      (dst last &&& ~~~maskB 0 (len - bits) |||
        maskB 0 (len - bits) &&& shl src (8 - (len - bits)))

def UnpackBitsToAByte (src : ℕ → UInt8) (pos len : ℕ) : UInt8 :=
  let byte := pos / 8
  let pos := pos % 8
  let rshift := 8 - (pos + len)
  if 0 < rshift then maskAndShift len pos rshift (src byte)
  else
    let result := mask (8 - pos) pos (src byte)
    let len := len - (8 - pos)
    if 0 < len then shl result len ||| shr (src (byte + 1)) (8 - len) else result

/-- The bits of a buffer. -/
def bitsOf (d : ℕ → UInt8) : ℕ → Bool := msb fun k => (d k).toBitVec

/-- A field of the low bits of a byte. -/
def byteField (len : ℕ) (b : UInt8) : List Bool := msbField len b.toBitVec

section Pack

theorem getMsbD_maskB : ∀ offset ≤ 8, ∀ len ≤ 8 - offset, ∀ t < 8,
    (maskB offset len).toBitVec.getMsbD t = decide (offset ≤ t ∧ t < offset + len) := by
  decide +kernel

/-- A bit of a field that is written at a position. -/
theorem store_byteField (m : ℕ → Bool) (src : UInt8) (pos len p : ℕ) :
    store m pos (byteField len src) p =
      if pos ≤ p ∧ p < pos + len then src.toBitVec.getLsbD (len - 1 - (p - pos)) else m p := by
  by_cases hlow : pos ≤ p
  · by_cases hhigh : p < pos + len
    · rw [if_pos ⟨hlow, hhigh⟩, store, if_pos hlow,
        List.getD_eq_getElem _ _ (by rw [byteField, length_msbField]; omega)]
      simp [byteField, msbField]
    · rw [if_neg (fun h => hhigh h.2),
        store_of_ge (by rw [byteField, length_msbField]; exact Nat.le_of_not_lt hhigh)]
  · rw [if_neg (fun h => hlow h.1), store_of_lt (Nat.lt_of_not_le hlow)]

/-- A byte of which some bits, given by a mask, are replaced. -/
theorem getMsbD_replaced {offset len : ℕ} (hoffset : offset ≤ 8) (hlen : len ≤ 8 - offset)
    (old new : UInt8) {t : ℕ} (ht : t < 8) :
    (old &&& ~~~maskB offset len ||| maskB offset len &&& new).toBitVec.getMsbD t =
      if offset ≤ t ∧ t < offset + len then new.toBitVec.getMsbD t else old.toBitVec.getMsbD t := by
  rw [UInt8.toBitVec_or, UInt8.toBitVec_and, UInt8.toBitVec_and, UInt8.toBitVec_not,
    BitVec.getMsbD_or, BitVec.getMsbD_and, BitVec.getMsbD_and, BitVec.getMsbD_not,
    getMsbD_maskB offset hoffset len hlen t ht]
  by_cases hin : offset ≤ t ∧ t < offset + len
  · simp [hin]
  · simp [hin, ht]

theorem getMsbD_shl (b : UInt8) {k t : ℕ} (h : t + k < 8) :
    (shl b k).toBitVec.getMsbD t = b.toBitVec.getLsbD (7 - (t + k)) := by
  rw [shl, BitVec.getMsbD_shiftLeft, BitVec.getMsbD_eq_getLsbD]
  simp
  omega

theorem getMsbD_shr (b : UInt8) {k t : ℕ} (hk : k ≤ t) (h : t < 8) :
    (shr b k).toBitVec.getMsbD t = b.toBitVec.getLsbD (7 - (t - k)) := by
  rw [shr, BitVec.getMsbD_ushiftRight, BitVec.getMsbD_eq_getLsbD, decide_eq_true h,
    decide_eq_false (Nat.not_lt.mpr hk), decide_eq_true (Nat.lt_of_le_of_lt (Nat.sub_le t k) h)]
  rfl

/-- The bits of a buffer in one byte of which some bits are replaced. -/
theorem bitsOf_replaced (d : ℕ → UInt8) (k : ℕ) {offset len : ℕ} (hoffset : offset ≤ 8)
    (hlen : len ≤ 8 - offset) (new : UInt8) (p : ℕ) :
    bitsOf (Function.update d k
        (d k &&& ~~~maskB offset len ||| maskB offset len &&& new)) p =
      if 8 * k + offset ≤ p ∧ p < 8 * k + offset + len then new.toBitVec.getMsbD (p - 8 * k)
      else bitsOf d p := by
  have hsplit := Nat.div_add_mod p 8
  have hmod := Nat.mod_lt p (show 8 > 0 by decide)
  rw [bitsOf, msb]
  by_cases hk : p / 8 = k
  · have ht : p - 8 * k = p % 8 := by omega
    rw [hk, Function.update_self, getMsbD_replaced hoffset hlen _ _ hmod, ht]
    have hin : (offset ≤ p % 8 ∧ p % 8 < offset + len) ↔
        8 * k + offset ≤ p ∧ p < 8 * k + offset + len := by omega
    rw [if_congr hin rfl rfl, bitsOf, msb, hk]
  · have hout : ¬ (8 * k + offset ≤ p ∧ p < 8 * k + offset + len) := by omega
    rw [Function.update_of_ne hk, if_neg hout]
    rfl

/-- Packing is a store in the memory of bits. -/
theorem bitsOf_packByteToBits (src : UInt8) (dst : ℕ → UInt8) (pos : ℕ) {len : ℕ}
    (hpos : 0 < len) (hlen : len ≤ 8) :
    bitsOf (PackByteToBits src dst pos len) = store (bitsOf dst) pos (byteField len src) := by
  funext p
  rw [store_byteField]
  have hsplit := Nat.div_add_mod pos 8
  have hmod := Nat.mod_lt pos (show 8 > 0 by decide)
  by_cases hone : len ≤ 8 - pos % 8
  · have hlast : (pos + len - 1) / 8 = pos / 8 := by omega
    have hpack : PackByteToBits src dst pos len = Function.update dst (pos / 8)
        (dst (pos / 8) &&& ~~~maskB (pos % 8) len |||
          maskB (pos % 8) len &&& shl src (8 - pos % 8 - len)) := by
      simp only [PackByteToBits, if_pos hone, hlast]
    rw [hpack, bitsOf_replaced dst _ (Nat.le_of_lt hmod) hone, hsplit]
    by_cases hin : pos ≤ p ∧ p < pos + len
    · rw [if_pos hin, if_pos hin, getMsbD_shl src (by omega)]
      congr 1
      omega
    · rw [if_neg hin, if_neg hin]
  · have hlast : (pos + len - 1) / 8 = pos / 8 + 1 := by omega
    have hnext : pos / 8 + 1 ≠ pos / 8 := Nat.succ_ne_self _
    have hpack : PackByteToBits src dst pos len =
        Function.update (Function.update dst (pos / 8)
          (dst (pos / 8) &&& ~~~maskB (pos % 8) (8 - pos % 8) |||
            maskB (pos % 8) (8 - pos % 8) &&& shr src (len - (8 - pos % 8)))) (pos / 8 + 1)
          (Function.update dst (pos / 8)
            (dst (pos / 8) &&& ~~~maskB (pos % 8) (8 - pos % 8) |||
              maskB (pos % 8) (8 - pos % 8) &&& shr src (len - (8 - pos % 8))) (pos / 8 + 1) &&&
              ~~~maskB 0 (len - (8 - pos % 8)) |||
            maskB 0 (len - (8 - pos % 8)) &&& shl src (8 - (len - (8 - pos % 8)))) := by
      simp only [PackByteToBits, if_neg hone, hlast, Nat.add_sub_cancel]
    rw [hpack, bitsOf_replaced _ _ (by omega) (by omega),
      bitsOf_replaced dst _ (Nat.le_of_lt hmod) (Nat.le_refl _), hsplit]
    by_cases hin : pos ≤ p ∧ p < pos + len
    · rw [if_pos hin]
      by_cases hhigh : 8 * (pos / 8 + 1) ≤ p
      · rw [if_pos (by omega), getMsbD_shl src (by omega)]
        congr 1
        omega
      · rw [if_neg (by omega), if_pos (by omega), getMsbD_shr src (by omega) (by omega)]
        congr 1
        omega
    · rw [if_neg hin, if_neg (by omega), if_neg (by omega)]

end Pack

section Unpack

/-- The constant that the data is masked with. -/
theorem getMsbD_maskConstant : ∀ offset < 8, ∀ width < 8, offset + width ≤ 8 → ∀ t < 8,
    (shr (shl 0xff (8 - width % 8)) offset).toBitVec.getMsbD t =
      decide (offset ≤ t ∧ t < offset + width) := by
  decide +kernel

theorem getLsbD_mask {width offset : ℕ} (hle : offset + width ≤ 8) (hpos : offset < 8)
    (data : UInt8) {j : ℕ} (hj : j < 8) :
    (mask width offset data).toBitVec.getLsbD j =
      (decide (offset ≤ 7 - j ∧ 7 - j < offset + width) && data.toBitVec.getMsbD (7 - j)) := by
  rw [BitVec.getLsbD_eq_getMsbD, decide_eq_true hj, Bool.true_and]
  by_cases hwidth : width = 8
  · have hin : offset ≤ 7 - j ∧ 7 - j < offset + width := by omega
    rw [mask, if_pos hwidth, decide_eq_true hin, Bool.true_and]
  · rw [mask, if_neg hwidth, UInt8.toBitVec_and, BitVec.getMsbD_and,
      getMsbD_maskConstant offset hpos width (by omega) hle _ (by omega)]

/-- A bit of a buffer, counted from the byte that a field begins in. -/
theorem bitsOf_byte (d : ℕ → UInt8) (k : ℕ) {t : ℕ} (ht : t < 8) :
    bitsOf d (8 * k + t) = (d k).toBitVec.getMsbD t := by
  obtain ⟨hdiv, hmod⟩ := bit_div_mod (k := k) ht
  rw [bitsOf, msb, hdiv, hmod]

/-- Unpacking is a load from the memory of bits. -/
theorem unpackBitsToAByte_eq (src : ℕ → UInt8) (pos : ℕ) {len : ℕ} (hlen : len ≤ 8) :
    UnpackBitsToAByte src pos len = ⟨msbValue 8 (load (bitsOf src) pos len)⟩ := by
  apply UInt8.toBitVec_inj.mp
  apply BitVec.eq_of_getLsbD_eq
  intro j hj
  have hvalue : (msbValue 8 (load (bitsOf src) pos len)).getLsbD j =
      (decide (j < len) && bitsOf src (pos + (len - 1 - j))) := by
    rw [getLsbD_msbValue _ hj, length_load]
    by_cases hin : j < len
    · rw [List.getD_eq_getElem?_getD, getElem?_load _ (show len - 1 - j < len by omega)]
      rfl
    · rw [decide_eq_false hin, Bool.false_and, Bool.false_and]
  rw [hvalue]
  have hsplit := Nat.div_add_mod pos 8
  have hmod := Nat.mod_lt pos (show 8 > 0 by decide)
  generalize hbyte : pos / 8 = k at hsplit
  generalize hoffset : pos % 8 = o at hsplit hmod
  simp only [UnpackBitsToAByte, hbyte, hoffset]
  by_cases hshift : 0 < 8 - (o + len)
  · rw [if_pos hshift, maskAndShift, shr, BitVec.getLsbD_ushiftRight]
    by_cases hin : j < len
    · have hbit : pos + (len - 1 - j) = 8 * k + (7 - (8 - (o + len) + j)) := by omega
      rw [getLsbD_mask (by omega) hmod _ (by omega), hbit, bitsOf_byte src k (by omega),
        decide_eq_true hin, decide_eq_true (by omega)]
    · rw [decide_eq_false hin, Bool.false_and]
      by_cases hhigh : 8 - (o + len) + j < 8
      · rw [getLsbD_mask (by omega) hmod _ hhigh, decide_eq_false (by omega), Bool.false_and]
      · exact BitVec.getLsbD_of_ge _ _ (Nat.le_of_not_lt hhigh)
  · rw [if_neg hshift]
    by_cases hmore : 0 < len - (8 - o)
    · rw [if_pos hmore, UInt8.toBitVec_or, BitVec.getLsbD_or, shl, shr,
        BitVec.getLsbD_shiftLeft, BitVec.getLsbD_ushiftRight, decide_eq_true hj, Bool.true_and]
      by_cases hlow : j < len - (8 - o)
      · have hbit : pos + (len - 1 - j) = 8 * (k + 1) + (7 - (8 - (len - (8 - o)) + j)) := by
          omega
        rw [decide_eq_true hlow, hbit, bitsOf_byte src (k + 1) (by omega),
          BitVec.getLsbD_eq_getMsbD (src (k + 1)).toBitVec,
          decide_eq_true (show 8 - (len - (8 - o)) + j < 8 by omega),
          decide_eq_true (show j < len by omega)]
        rfl
      · rw [decide_eq_false hlow, getLsbD_mask (by omega) hmod _ (by omega),
          BitVec.getLsbD_of_ge _ _ (show 8 ≤ 8 - (len - (8 - o)) + j by omega), Bool.or_false]
        by_cases hin : j < len
        · have hbit : pos + (len - 1 - j) = 8 * k + (7 - (j - (len - (8 - o)))) := by omega
          rw [hbit, bitsOf_byte src k (by omega), decide_eq_true hin,
            decide_eq_true (show o ≤ 7 - (j - (len - (8 - o))) ∧ _ by omega)]
          rfl
        · rw [decide_eq_false hin, decide_eq_false (by omega)]
          rfl
    · rw [if_neg hmore, getLsbD_mask (by omega) hmod _ hj]
      by_cases hin : j < len
      · have hbit : pos + (len - 1 - j) = 8 * k + (7 - j) := by omega
        rw [hbit, bitsOf_byte src k (by omega), decide_eq_true hin, decide_eq_true (by omega)]
      · rw [decide_eq_false hin, decide_eq_false (by omega), Bool.false_and, Bool.false_and]

/-- The bits of a buffer determine it. -/
theorem bitsOf_injective : Function.Injective bitsOf := by
  intro d d' h
  have hbytes := msb_injective h
  funext k
  exact UInt8.toBitVec_inj.mp (congrFun hbytes k)

/-- A packed field is unpacked as the low bits of the byte. The bits outside it are left alone, and a
field that does not overlap it may be packed before or after it. -/
theorem packByteToBits_field (src : UInt8) (dst : ℕ → UInt8) (pos : ℕ) {len : ℕ}
    (hpos : 0 < len) (hlen : len ≤ 8) :
    (UnpackBitsToAByte (PackByteToBits src dst pos len) pos len).toNat = src.toNat % 2 ^ len ∧
      (∀ p, p < pos ∨ pos + len ≤ p →
        bitsOf (PackByteToBits src dst pos len) p = bitsOf dst p) ∧
      ∀ (src' : UInt8) (pos' len' : ℕ), 0 < len' → len' ≤ 8 →
        pos + len ≤ pos' ∨ pos' + len' ≤ pos →
          PackByteToBits src' (PackByteToBits src dst pos len) pos' len' =
            PackByteToBits src (PackByteToBits src' dst pos' len') pos len := by
  have hfield : (byteField len src).length = len := length_msbField len src.toBitVec
  refine ⟨?_, fun p hp => ?_, fun src' pos' len' hpos' hlen' hapart => ?_⟩
  · rw [unpackBitsToAByte_eq _ _ hlen, bitsOf_packByteToBits src dst pos hpos hlen,
      load_store_of_length _ _ hfield]
    exact toNat_msbValue_msbField hlen src.toBitVec
  · rw [bitsOf_packByteToBits src dst pos hpos hlen]
    rcases hp with hbefore | hbehind
    · exact store_of_lt hbefore
    · exact store_of_ge (by rwa [hfield])
  · have hfield' : (byteField len' src').length = len' := length_msbField len' src'.toBitVec
    apply bitsOf_injective
    rw [bitsOf_packByteToBits _ _ _ hpos' hlen', bitsOf_packByteToBits _ _ _ hpos hlen,
      bitsOf_packByteToBits _ _ _ hpos hlen, bitsOf_packByteToBits _ _ _ hpos' hlen']
    apply store_comm
    rwa [hfield, hfield']

/-- Four bits in two bytes, and three bits behind them. -/
theorem packByteToBits_field_four :
    (UnpackBitsToAByte (PackByteToBits 0xF5 (fun _ => 0xFF) 6 4) 6 4).toNat = 5 ∧
      bitsOf (PackByteToBits 0xF5 (fun _ => 0xFF) 6 4) 10 = true ∧
      PackByteToBits 1 (PackByteToBits 0xF5 (fun _ => 0xFF) 6 4) 10 3 =
        PackByteToBits 0xF5 (PackByteToBits 1 (fun _ => 0xFF) 10 3) 6 4 := by
  obtain ⟨hlow, hframe, hcomm⟩ := packByteToBits_field 0xF5 (fun _ => 0xFF) 6
    (show 0 < 4 by decide) (by decide)
  exact ⟨hlow, hframe 10 (.inr (by decide)), hcomm 1 10 3 (by decide) (by decide) (.inl (by decide))⟩

end Unpack

section Lists

/-- The bits of bytes. -/
def bitList (bytes : List UInt8) : List Bool := bytes.flatMap (byteField 8)

@[simp] theorem length_byteField (len : ℕ) (b : UInt8) : (byteField len b).length = len :=
  length_msbField len b.toBitVec

theorem byteField_injective {len : ℕ} {b b' : UInt8} (hb : b.toNat < 2 ^ len)
    (hb' : b'.toNat < 2 ^ len) (h : byteField len b = byteField len b') : b = b' := by
  apply UInt8.toBitVec_inj.mp
  rw [← msbValue_msbField hb, ← msbValue_msbField hb']
  exact congrArg (msbValue 8) h

theorem length_bitList (bytes : List UInt8) : (bitList bytes).length = 8 * bytes.length := by
  simp [bitList, List.length_flatMap, Nat.mul_comm]

theorem load_bitsOf (d : ℕ → UInt8) (n : ℕ) : load (bitsOf d) 0 (8 * n) = bitList (load d 0 n) := by
  have hload := load_msb (fun k => (d k).toBitVec) 0 n
  have hmap : load (fun k => (d k).toBitVec) 0 n = (load d 0 n).map UInt8.toBitVec := by
    simp [load]
  rw [hmap, List.flatMap_map] at hload
  exact hload

/-- A field of the bytes is unpacked. -/
theorem unpackBitsToAByte_of_bitList {bytes : List UInt8} {pre post : List Bool} {len : ℕ}
    {b : UInt8} (hlen : len ≤ 8) (hb : b.toNat < 2 ^ len)
    (h : bitList bytes = pre ++ (byteField len b ++ post)) :
    UnpackBitsToAByte (ofList 0 bytes) pre.length len = b := by
  have hall : load (bitsOf (ofList 0 bytes)) 0 (8 * bytes.length) = bitList bytes := by
    have hbytes := load_ofList (0 : UInt8) [] bytes []
    rw [List.append_nil] at hbytes
    rw [load_bitsOf]
    exact congrArg bitList hbytes
  have hfield := load_part (hall.trans h)
  rw [Nat.zero_add, length_byteField] at hfield
  rw [unpackBitsToAByte_eq _ _ hlen, hfield]
  exact UInt8.toBitVec_inj.mp (msbValue_msbField hb)

end Lists

section Packing

/-- A buffer and the bit position that is written next. -/
abbrev BitBuffer := (ℕ → UInt8) × ℕ

/-- A cleared buffer. -/
def BitBuffer.cleared : BitBuffer := (fun _ => 0, 0)

/-- Pack a byte, and move the position behind it. -/
def BitBuffer.pack (len : ℕ) (s : BitBuffer) (src : UInt8) : BitBuffer :=
  (PackByteToBits src s.1 s.2 len, s.2 + len)

/-- The bits that were packed into a cleared buffer. -/
def Packed (s : BitBuffer) (bs : List Bool) : Prop :=
  bitsOf s.1 = store (bitsOf BitBuffer.cleared.1) 0 bs ∧ s.2 = bs.length

theorem packed_cleared : Packed BitBuffer.cleared [] := ⟨(store_nil _ _).symm, rfl⟩

variable {s : BitBuffer} {bs : List Bool}

theorem Packed.pack (h : Packed s bs) {len : ℕ} (hpos : 0 < len) (hlen : len ≤ 8) (src : UInt8) :
    Packed (s.pack len src) (bs ++ byteField len src) := by
  obtain ⟨hbits, hend⟩ := h
  constructor
  · change bitsOf (PackByteToBits src s.1 s.2 len) = _
    rw [bitsOf_packByteToBits src s.1 s.2 hpos hlen, hbits, hend, ← store_append, Nat.zero_add]
  · change s.2 + len = _
    rw [hend, List.length_append, length_byteField]

/-- Bytes that are packed one after the other. -/
theorem Packed.packAll (h : Packed s bs) {len : ℕ} (hpos : 0 < len) (hlen : len ≤ 8)
    (srcs : List UInt8) :
    Packed (srcs.foldl (BitBuffer.pack len) s) (bs ++ srcs.flatMap (byteField len)) := by
  induction srcs generalizing s bs with
  | nil =>
      rw [List.flatMap_nil, List.append_nil]
      exact h
  | cons src srcs ih =>
      have hnext := ih (h.pack hpos hlen src)
      rw [List.append_assoc] at hnext
      exact hnext

/-- The bytes of a buffer that was filled to the last bit. -/
theorem Packed.bitList_load (h : Packed s bs) {n : ℕ} (hfull : bs.length = 8 * n) :
    bitList (load s.1 0 n) = bs := by
  rw [← load_bitsOf, h.1, ← hfull, load_store]

end Packing

section Unpacking

/-- Bytes that are unpacked one after the other. -/
def unpackAll (src : ℕ → UInt8) (len : ℕ) : ℕ → ℕ → List UInt8
  | _, 0 => []
  | pos, n + 1 => UnpackBitsToAByte src pos len :: unpackAll src len (pos + len) n

theorem unpackAll_of_bitList {bytes : List UInt8} {pre post : List Bool} {len : ℕ}
    {bs : List UInt8} (hlen : len ≤ 8) (hbs : ∀ b ∈ bs, b.toNat < 2 ^ len)
    (h : bitList bytes = pre ++ (bs.flatMap (byteField len) ++ post)) :
    unpackAll (ofList 0 bytes) len pre.length bs.length = bs := by
  induction bs generalizing pre with
  | nil => rfl
  | cons b bs ih =>
      obtain ⟨hb, hrest⟩ := List.forall_mem_cons.mp hbs
      rw [List.flatMap_cons, List.append_assoc] at h
      have hnext : bitList bytes =
          (pre ++ byteField len b) ++ (bs.flatMap (byteField len) ++ post) := by
        rw [h, List.append_assoc]
      have htail := ih hrest hnext
      rw [List.length_append, length_byteField] at htail
      rw [List.length_cons, unpackAll, unpackBitsToAByte_of_bitList hlen hb h, htail]

end Unpacking

end Sms

end SierraSdk
