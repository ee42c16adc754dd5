import SierraSdk.Sms.CdmaMessage

/-!
# Encoding a CDMA text message

`EncodeCompleteMoSms` makes the bytes of a text message of the SDK: the envelope with the number
of the receiver, and as bearer data the message identifier, the text with seven bits for each
character, the relative validity, the priority, and the callback number if there is one.

The message identifier and the text are parameters whose bits are known
(`encodeMsgIdenfier_eq`, `encodeUserDataHdr_eq`); so the bearer data is a sequence of parameters
(`encodeCompleteMoSms_eq`).
-/

namespace SierraSdk

namespace Sms

open Memory

/-- `EncodeMsgIdenfier` -/
def EncodeMsgIdenfier (MsgType : UInt8) (MsgId : UInt16) : Except Rc (List UInt8) :=
  if 6 < MsgType then .error .invalidArg
  else
    let s := BitBuffer.cleared.pack 8 msgSubIdentifierId
    let s := s.pack 8 msgSubIdentifierHdrLen
    let s := s.pack 4 MsgType
    let s := s.pack 8 (MsgId >>> 8).toUInt8
    let s := s.pack 8 MsgId.toUInt8
    let s := s.pack 4 0
    .ok (load s.1 0 5)

/-- `USER_DATA_MSG_ENCODING_7BIT_ASCII` -/
def userDataMsgEncoding7bitAscii : UInt8 := 2

/-- The bits that fill the text to a whole byte. -/
def numofReserveBits (msgLen : ℕ) : ℕ :=
  let totalbits := msgLen * 7 + 8 + 5
  if totalbits % 8 = 0 then 0 else 8 - totalbits % 8

/-- The bytes of the text, with the identifier and the length. -/
def totalbytes (msgLen : ℕ) : ℕ := (msgLen * 7 + 8 + 5 + numofReserveBits msgLen) / 8 + 2

/-- The length of the buffer that the text is packed into. -/
def userDataDefaultLen : ℕ := 200

/-- `EncodeUserDataHdr` -/
def EncodeUserDataHdr (pszSmsMsg : List UInt8) : Except Rc (List UInt8) :=
  let MsgLen := pszSmsMsg.length
  if maxSmsMsgLen < MsgLen then .error .invalidArg
  else if userDataDefaultLen < totalbytes MsgLen then .error .bufferSize
  else
    let s := BitBuffer.cleared.pack 8 userDataSubIdentifier
    let s := s.pack 8 (UInt8.ofNat (totalbytes MsgLen) - 2)
    let s := s.pack 5 userDataMsgEncoding7bitAscii
    let s := s.pack 8 (UInt8.ofNat MsgLen)
    let s := pszSmsMsg.foldl (BitBuffer.pack 7) s
    let s := if numofReserveBits MsgLen ≠ 0 then s.pack (numofReserveBits MsgLen) 0 else s
    .ok (load s.1 0 (totalbytes MsgLen))

/-- The relative validity that is sent; the buffer was cleared before. -/
def relValidity (relValue : UInt8) : UInt8 :=
  match relValue with
  | 0 => 11
  | 1 => 71
  | 2 => 167
  | 3 => 169
  | 4 => 171
  | _ => 0

/-- `EncodeRelValidityHdr`, where no value stands for `0`. -/
def EncodeRelValidityHdr (relValue : Option UInt8) : List UInt8 :=
  [relValPeriodSubIdentifier, relValPeriodSubIdentifierHdrLen, relValidity (relValue.getD 0)]

/-- The priority that is sent, in the two high bits. -/
def priorityBits (Priority : UInt8) : UInt8 :=
  match Priority with
  | 0 => 0
  | 1 => 64
  | 2 => 128
  | 3 => 192
  | _ => 0

/-- `EncodePriorityHdr` -/
def EncodePriorityHdr (Priority : UInt8) : Except Rc (List UInt8) :=
  if 2 < Priority then .error .invalidArg
  else .ok [prioriySubIdentifier, prioriySubIdentifierHdrLen, priorityBits Priority]

/-- `EncodeCallbackNumber`, with the lengths as its caller has them. -/
def EncodeCallbackNumber (pszCallbackAddr : List UInt8) : List UInt8 :=
  let bits := 8 + 8 + 1 + 8 + 4 * pszCallbackAddr.length
  let reserved := if bits % 8 ≠ 0 then 8 - bits % 8 else 0
  (packNumbers callbackNumSubIdentifier 1 (pszCallbackAddr.map char2Num)
    (UInt8.ofNat ((bits + reserved) / 8) - 2) reserved).bytes

/-- `EncodeCompleteMoSms`: the bytes at `pOut`, and their number as it is stored in a byte. -/
def EncodeCompleteMoSms (pDestNum pCallbackNum pMsgBody : List UInt8) (MsgType : UInt8)
    (MsgId : UInt16) (Priority : UInt8) (RelVal : Option UInt8) :
    Except Rc (List UInt8 × UInt8) :=
  if maxSmsMsgLen < pMsgBody.length ∨ 6 < Priority then .error .invalidArg
  else do
    let callbackAddrBuf :=
      if 0 < pCallbackNum.length then EncodeCallbackNumber pCallbackNum else []
    let msgIDBuf ← EncodeMsgIdenfier MsgType MsgId
    let userDataBuf ← EncodeUserDataHdr pMsgBody
    let priorityBuf ← EncodePriorityHdr Priority
    let relValidityBuf := EncodeRelValidityHdr RelVal
    let pOut := envelope teleserviceIdDefaultValue (destAddr .sdk pDestNum)
      (msgIDBuf ++ (userDataBuf ++ (relValidityBuf ++ (priorityBuf ++ callbackAddrBuf))))
    .ok (pOut, UInt8.ofNat pOut.length)

/-- The bits of the value of the message identifier. -/
def msgIdBits (MsgType : UInt8) (MsgId : UInt16) : List Bool :=
  byteField 4 MsgType ++ (byteField 8 (MsgId >>> 8).toUInt8 ++
    (byteField 8 MsgId.toUInt8 ++ byteField 4 0))

/-- The bits of the value of a text. -/
def userDataBits (text : List UInt8) (post : List Bool) : List Bool :=
  byteField 5 userDataMsgEncoding7bitAscii ++ (byteField 8 (UInt8.ofNat text.length) ++
    (text.flatMap (byteField 7) ++ post))

section Lengths

theorem totalbytes_bits (n : ℕ) : 8 * totalbytes n = n * 7 + 29 + numofReserveBits n := by
  simp only [totalbytes, numofReserveBits]
  split_ifs <;> omega

theorem numofReserveBits_lt (n : ℕ) : numofReserveBits n < 8 := by
  simp only [numofReserveBits]
  split_ifs <;> omega

end Lengths

/-- A message identifier is packed into a parameter. -/
theorem encodeMsgIdenfier_eq {MsgType : UInt8} (htype : MsgType ≤ 6) (MsgId : UInt16) :
    ∃ q : Param, q.identifier = msgSubIdentifierId ∧ q.value.length = 3 ∧
      EncodeMsgIdenfier MsgType MsgId = .ok q.bytes ∧
      bitList q.value = msgIdBits MsgType MsgId := by
  have hpacked := (((((packed_cleared.pack (show 0 < 8 by decide) (by decide)
    msgSubIdentifierId).pack (show 0 < 8 by decide) (by decide) msgSubIdentifierHdrLen).pack
    (show 0 < 4 by decide) (by decide) MsgType).pack
    (show 0 < 8 by decide) (by decide) (MsgId >>> 8).toUInt8).pack
    (show 0 < 8 by decide) (by decide) MsgId.toUInt8).pack (show 0 < 4 by decide) (by decide) 0
  simp only [List.nil_append, List.append_assoc] at hpacked
  obtain ⟨-, q, hid, hvalue, hbytes, hrest⟩ := hpacked.param (by
    simp only [List.length_append, length_byteField]
    rfl)
  refine ⟨q, hid, hvalue, ?_, hrest⟩
  rw [EncodeMsgIdenfier, if_neg (UInt8.not_lt.mpr htype)]
  exact congrArg Except.ok hbytes

/-- A text is packed into a parameter. -/
theorem encodeUserDataHdr_eq {text : List UInt8} (hlen : text.length ≤ maxSmsMsgLen) :
    ∃ q : Param, q.identifier = userDataSubIdentifier ∧
      q.value.length = totalbytes text.length - 2 ∧ EncodeUserDataHdr text = .ok q.bytes ∧
      ∃ post, bitList q.value = userDataBits text post := by
  have hbits := totalbytes_bits text.length
  have hreserve := numofReserveBits_lt text.length
  have hmax : text.length ≤ 160 := hlen
  have hfits : ¬ userDataDefaultLen < totalbytes text.length := by
    rw [userDataDefaultLen]
    omega
  rw [EncodeUserDataHdr]
  simp only [if_neg (Nat.not_lt.mpr hlen), if_neg hfits]
  generalize numofReserveBits text.length = reserveBits at hbits hreserve ⊢
  generalize totalbytes text.length = len at hbits ⊢
  have hhdr : (UInt8.ofNat len - 2).toNat = len - 2 := toNat_hdrLen (by omega) (by omega)
  have hstart := (((packed_cleared.pack (show 0 < 8 by decide) (by decide)
    userDataSubIdentifier).pack (show 0 < 8 by decide) (by decide) (UInt8.ofNat len - 2)).pack
    (show 0 < 5 by decide) (by decide) userDataMsgEncoding7bitAscii).pack
    (show 0 < 8 by decide) (by decide) (UInt8.ofNat text.length)
  have hpacked := (hstart.packAll (show 0 < 7 by decide) (by decide) text).reserve hreserve
  simp only [List.nil_append, List.append_assoc] at hpacked
  obtain ⟨-, q, hid, hvalue, hbytes, hrest⟩ := hpacked.param (by
    simp [hhdr, List.length_flatMap]
    omega)
  have hend : (UInt8.ofNat len - 2).toNat + 2 = len := by omega
  rw [hend] at hbytes
  exact ⟨q, hid, hvalue.trans hhdr, congrArg Except.ok hbytes, byteField reserveBits 0, hrest⟩

/-- The relative validity as a parameter. -/
def relValidityParam (RelVal : Option UInt8) : Param where
  identifier := relValPeriodSubIdentifier
  value := [relValidity (RelVal.getD 0)]
  length_lt := show 1 < 256 by decide

/-- The priority as a parameter. -/
def priorityParam (Priority : UInt8) : Param where
  identifier := prioriySubIdentifier
  value := [priorityBits Priority]
  length_lt := show 1 < 256 by decide

/-- A message without a callback number, from its parameters. -/
theorem encodeCompleteMoSms_eq {destNum text : List UInt8} {MsgType Priority : UInt8}
    {MsgId : UInt16} {addr msgId userData : Param} (RelVal : Option UInt8)
    (haddr : destAddr .sdk destNum = addr.bytes) (hlen : text.length ≤ maxSmsMsgLen)
    (hmsgId : EncodeMsgIdenfier MsgType MsgId = .ok msgId.bytes)
    (huserData : EncodeUserDataHdr text = .ok userData.bytes) (hpriority : Priority ≤ 2) :
    EncodeCompleteMoSms destNum [] text MsgType MsgId Priority RelVal =
      .ok (envelope teleserviceIdDefaultValue addr.bytes
          ([msgId, userData, relValidityParam RelVal, priorityParam Priority].flatMap Param.bytes),
        UInt8.ofNat (envelope teleserviceIdDefaultValue addr.bytes
          ([msgId, userData, relValidityParam RelVal, priorityParam Priority].flatMap
            Param.bytes)).length) := by
  have hlow : ¬ 6 < Priority := UInt8.not_lt.mpr (UInt8.le_trans hpriority (by decide))
  have hmax : ¬ (maxSmsMsgLen < text.length ∨ 6 < Priority) :=
    not_or.mpr ⟨Nat.not_lt.mpr hlen, hlow⟩
  have hpriorityBuf : EncodePriorityHdr Priority = .ok (priorityParam Priority).bytes :=
    if_neg (UInt8.not_lt.mpr hpriority)
  rw [EncodeCompleteMoSms, if_neg hmax, hmsgId, huserData, hpriorityBuf, haddr]
  simp only [List.flatMap_cons, List.flatMap_nil]
  rfl

end Sms

end SierraSdk
