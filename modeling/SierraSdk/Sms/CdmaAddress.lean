import SierraSdk.Sms.CdmaWalk
import SierraSdk.Sms.PackBits

/-!
# The address parameter of a CDMA message

The value of an address parameter is the digit mode and the number mode, a bit each, the number
of digits in eight bits, and four bits for each digit, filled with zero bits to a whole byte.
The encoders of the SDK and the RIL differ in how they get the four bits: the RIL has them in
its message, the SDK makes them of characters and takes `10` for the digit zero.

What is encoded is a parameter (`destAddr_eq`), and the digits of its value are decoded
(`decodeOriginAddr_of_bitList`).
-/

namespace SierraSdk

namespace Sms

open Memory

/-- An address is packed, with its modes in one or two bits, and the DTMF codes of the digits
in four bits each. -/
def packNumbers (identifier : UInt8) (modeBits : ℕ) (numbers : List UInt8) (hdrLen : UInt8)
    (reserveBits : ℕ) : BitBuffer :=
  let s := BitBuffer.cleared.pack 8 identifier
  let s := s.pack 8 hdrLen
  let s := s.pack modeBits 0
  let s := s.pack 8 (UInt8.ofNat numbers.length)
  let s := numbers.foldl (BitBuffer.pack 4) s
  if reserveBits ≠ 0 then s.pack reserveBits 0 else s

/-- The bytes of a buffer up to the position. -/
def BitBuffer.bytes (s : BitBuffer) : List UInt8 := load s.1 0 (s.2 / 8)

/-- `Char2Num`, with the digit zero as `10`. -/
def char2Num (symbol : UInt8) : UInt8 := if symbol - 48 = 0 then 10 else symbol - 48

/-- The code of a digit of the caller. -/
def Codec.number (codec : Codec) (digit : UInt8) : UInt8 :=
  match codec with
  | .sdk => char2Num digit
  | .ril => digit

/-- `EncodeDestAddrHdr`, of a number of `digits.length` digits. -/
def EncodeDestAddrHdr (codec : Codec) (digits : List UInt8) (len reserveBits : ℕ) : List UInt8 :=
  (packNumbers destaddrIdentifier 2 (digits.map codec.number) (UInt8.ofNat len - 2)
    reserveBits).bytes

/-- The bits that fill the address parameter to a whole byte. -/
def reservedBits (digits : ℕ) : ℕ :=
  let bits := 8 + 8 + 1 + 1 + 8 + 4 * digits
  if bits % 8 ≠ 0 then 8 - bits % 8 else 0

/-- The length of the address parameter. -/
def destAddrLen (digits : ℕ) : ℕ := (8 + 8 + 1 + 1 + 8 + 4 * digits + reservedBits digits) / 8

/-- The address parameter, as the callers of `EncodeDestAddrHdr` have it made. -/
def destAddr (codec : Codec) (digits : List UInt8) : List UInt8 :=
  EncodeDestAddrHdr codec digits (destAddrLen digits.length) (reservedBits digits.length)

/-- `DecodeOriginAddr` up to the codes of the digits: the code that is returned, the digit mode,
the number mode, and the codes. -/
def DecodeOriginAddr (pOrigAddrBuf : List UInt8) : Rc × UInt8 × UInt8 × List UInt8 :=
  let buf := ofList 0 pOrigAddrBuf
  let digitMode := UnpackBitsToAByte buf 0 1
  let numMode := UnpackBitsToAByte buf 1 1
  if digitMode ≠ 0 ∨ numMode ≠ 0 then (.notSupported, digitMode, numMode, [])
  else
    let addrLen := UnpackBitsToAByte buf 2 8
    (.none, digitMode, numMode, unpackAll buf 4 10 addrLen.toNat)

/-- The bits of the value of an address parameter. -/
def addressBits (numbers : List UInt8) (post : List Bool) : List Bool :=
  byteField 2 0 ++ (byteField 8 (UInt8.ofNat numbers.length) ++
    (numbers.flatMap (byteField 4) ++ post))

section Lengths

theorem destAddrLen_bits (n : ℕ) : 8 * destAddrLen n = 26 + 4 * n + reservedBits n := by
  simp only [destAddrLen, reservedBits]
  split_ifs <;> omega

theorem reservedBits_lt (n : ℕ) : reservedBits n < 8 := by
  simp only [reservedBits]
  split_ifs <;> omega

/-- The length that is sent, of what follows it. -/
theorem toNat_hdrLen {len : ℕ} (hle : 2 ≤ len) (hlt : len < 256) :
    (UInt8.ofNat len - 2).toNat = len - 2 := by
  have hofNat : (UInt8.ofNat len).toNat = len := UInt8.toNat_ofNat_of_lt' hlt
  have hsub : (2 : UInt8) ≤ UInt8.ofNat len := by
    rw [UInt8.le_iff_toNat_le, hofNat]
    exact hle
  rw [UInt8.toNat_sub_of_le _ _ hsub, hofNat]
  rfl

end Lengths

/-- Reserved bits, if there are any. -/
theorem Packed.reserve {s : BitBuffer} {bs : List Bool} (h : Packed s bs) {reserveBits : ℕ}
    (hlt : reserveBits < 8) :
    Packed (if reserveBits ≠ 0 then s.pack reserveBits 0 else s)
      (bs ++ byteField reserveBits 0) := by
  by_cases hzero : reserveBits = 0
  · rw [if_neg (not_not.mpr hzero), hzero]
    exact (List.append_nil bs).symm ▸ h
  · rw [if_pos hzero]
    exact h.pack (Nat.pos_of_ne_zero hzero) (Nat.le_of_lt hlt) 0

/-- The bytes whose bits begin with two bytes. -/
theorem bytes_of_bitList {bytes : List UInt8} {b b' : UInt8} {bs : List Bool}
    (h : bitList bytes = byteField 8 b ++ (byteField 8 b' ++ bs)) :
    ∃ value, bytes = b :: b' :: value ∧ bitList value = bs := by
  have hlen := congrArg List.length h
  rw [length_bitList, List.length_append, List.length_append, length_byteField,
    length_byteField] at hlen
  match bytes, hlen with
  | [], hlen => exact absurd hlen (by rw [List.length_nil]; omega)
  | [_], hlen => exact absurd hlen (by rw [List.length_singleton]; omega)
  | c :: c' :: value, _ =>
      have hfirst := List.append_inj h (by rw [length_byteField, length_byteField])
      have hsecond := List.append_inj hfirst.2 (by rw [length_byteField, length_byteField])
      refine ⟨value, ?_, hsecond.2⟩
      rw [byteField_injective c.toNat_lt b.toNat_lt hfirst.1,
        byteField_injective c'.toNat_lt b'.toNat_lt hsecond.1]

/-- A buffer that was filled to the last bit, beginning with an identifier and the length of
what follows, is a parameter. -/
theorem Packed.param {s : BitBuffer} {identifier len : UInt8} {bs : List Bool}
    (h : Packed s (byteField 8 identifier ++ (byteField 8 len ++ bs)))
    (hlen : bs.length = 8 * len.toNat) :
    s.2 / 8 = len.toNat + 2 ∧
      ∃ q : Param, q.identifier = identifier ∧ q.value.length = len.toNat ∧
        load s.1 0 (len.toNat + 2) = q.bytes ∧ bitList q.value = bs := by
  have hend : s.2 = 8 * (len.toNat + 2) := by
    rw [h.2, List.length_append, List.length_append, length_byteField, length_byteField, hlen]
    omega
  have hbytes : s.2 / 8 = len.toNat + 2 := by
    rw [hend]
    exact Nat.mul_div_cancel_left _ (by decide)
  obtain ⟨value, hvalue, hrest⟩ := bytes_of_bitList (h.bitList_load (h.2.symm.trans hend))
  have hcount : value.length = len.toNat := by
    have hlist := congrArg List.length hvalue
    rw [length_load] at hlist
    exact (Nat.add_right_cancel hlist).symm
  refine ⟨hbytes, ⟨identifier, value, hcount ▸ len.toNat_lt⟩, rfl, hcount, ?_, hrest⟩
  rw [hvalue]
  simp only [Param.bytes, hcount, UInt8.ofNat_toNat]

/-- A number whose bits fill the bytes that its length announces is packed into a parameter. -/
theorem packNumbers_param (identifier : UInt8) {modeBits reserveBits : ℕ} {numbers : List UInt8}
    {hdrLen : UInt8} (hpos : 0 < modeBits) (hmode : modeBits ≤ 8) (hreserve : reserveBits < 8)
    (hbits : modeBits + 8 + 4 * numbers.length + reserveBits = 8 * hdrLen.toNat) :
    ∃ q : Param, q.identifier = identifier ∧ q.value.length = hdrLen.toNat ∧
      (packNumbers identifier modeBits numbers hdrLen reserveBits).bytes = q.bytes ∧
      bitList q.value = byteField modeBits 0 ++ (byteField 8 (UInt8.ofNat numbers.length) ++
        (numbers.flatMap (byteField 4) ++ byteField reserveBits 0)) := by
  have hstart := (((packed_cleared.pack (show 0 < 8 by decide) (by decide) identifier).pack
    (show 0 < 8 by decide) (by decide) hdrLen).pack hpos hmode 0).pack
    (show 0 < 8 by decide) (by decide) (UInt8.ofNat numbers.length)
  have hpacked : Packed (packNumbers identifier modeBits numbers hdrLen reserveBits) _ :=
    (hstart.packAll (show 0 < 4 by decide) (by decide) numbers).reserve hreserve
  simp only [List.nil_append, List.append_assoc] at hpacked
  obtain ⟨hend, q, hid, hvalue, hbytes, hrest⟩ := hpacked.param (by
    simp [List.length_flatMap]
    omega)
  refine ⟨q, hid, hvalue, ?_, hrest⟩
  rw [BitBuffer.bytes, hend, hbytes]

/-- A number of at most 255 digits is packed into a parameter. -/
theorem destAddr_eq (codec : Codec) {digits : List UInt8} (hlen : digits.length < 256) :
    ∃ q : Param, q.identifier = destaddrIdentifier ∧
      q.value.length = destAddrLen digits.length - 2 ∧ destAddr codec digits = q.bytes ∧
      ∃ post, bitList q.value = addressBits (digits.map codec.number) post := by
  have hbits := destAddrLen_bits digits.length
  have hreserve := reservedBits_lt digits.length
  have hhdr : (UInt8.ofNat (destAddrLen digits.length) - 2).toNat =
      destAddrLen digits.length - 2 := toNat_hdrLen (by omega) (by omega)
  have hfill : 2 + 8 + 4 * (digits.map codec.number).length + reservedBits digits.length =
      8 * (UInt8.ofNat (destAddrLen digits.length) - 2).toNat := by
    rw [hhdr, List.length_map]
    omega
  obtain ⟨q, hid, hvalue, hbytes, hrest⟩ :=
    packNumbers_param destaddrIdentifier (by decide) (by decide) hreserve hfill
  exact ⟨q, hid, hvalue.trans hhdr, hbytes, byteField (reservedBits digits.length) 0, hrest⟩

/-- The digits of the value of an address parameter. -/
theorem decodeOriginAddr_of_bitList {value numbers : List UInt8} {post : List Bool}
    (hlen : numbers.length < 256) (hdigits : ∀ n ∈ numbers, n.toNat < 2 ^ 4)
    (h : bitList value = addressBits numbers post) :
    DecodeOriginAddr value = (.none, 0, 0, numbers) := by
  have hcount : (UInt8.ofNat numbers.length).toNat = numbers.length :=
    UInt8.toNat_ofNat_of_lt' hlen
  have hmodes : bitList value = [] ++ (byteField 1 0 ++ (byteField 1 0 ++
      (byteField 8 (UInt8.ofNat numbers.length) ++ (numbers.flatMap (byteField 4) ++ post)))) := h
  have hdigits' : bitList value = (byteField 2 0 ++ byteField 8 (UInt8.ofNat numbers.length)) ++
      (numbers.flatMap (byteField 4) ++ post) := by
    rw [h, addressBits, List.append_assoc]
  have hdigitMode : UnpackBitsToAByte (ofList 0 value) 0 1 = 0 :=
    unpackBitsToAByte_of_bitList (by decide) (by decide) hmodes
  have hsecond : bitList value = byteField 1 0 ++ (byteField 1 0 ++
      (byteField 8 (UInt8.ofNat numbers.length) ++ (numbers.flatMap (byteField 4) ++ post))) := h
  have hnumMode : UnpackBitsToAByte (ofList 0 value) 1 1 = 0 :=
    unpackBitsToAByte_of_bitList (by decide) (by decide) hsecond
  have haddrLen : UnpackBitsToAByte (ofList 0 value) 2 8 = UInt8.ofNat numbers.length :=
    unpackBitsToAByte_of_bitList (by decide) (UInt8.toNat_lt _) h
  have hnumbers : unpackAll (ofList 0 value) 4 10 numbers.length = numbers :=
    unpackAll_of_bitList (by decide) hdigits hdigits'
  simp only [DecodeOriginAddr, hdigitMode, hnumMode, haddrLen, hcount, hnumbers]
  rfl

end Sms

end SierraSdk
