import SierraSdk.Sms.CdmaSubmit

/-!
# Decoding a CDMA text message

`DecodeCompleteMTSms` reads a message into a structure of the SDK: the number of the sender, or of
the receiver of a draft, the message identifier, the priority and the text. The number is made of
characters and copied with `wcsncpy`, as if they were wide characters of four bytes; behind the
digits this reads what the stack holds there.

A text message that `EncodeCompleteMoSms` has made is decoded to its number, its identifier and
its text. The priority stays in the two high bits of a byte, as its callers expect it
(`sdk_decode_encode`).
-/

namespace SierraSdk

namespace Sms

open Memory Bits Walk

/-- `QCWWAN_TYPE_SMS_MsgCategory` -/
inductive MsgCategory where
  | pointToPoint
  | broadcastMsg
  | ackMsg

/-- `QCWWAN_TYPE_SMS_Teleservice` -/
inductive Teleservice where
  | cellPaging
  | cellMessaging
  | voiceMailNot
  | cliOrder
  | voiceInd
  | shortMsg
  | alertInfo
  | wap

/-- `QCWWAN_TYPE_SMS_MsgIdType` -/
inductive MsgIdType where
  | notused
  | deliver
  | submit
  | cancel
  | deliveryAck
  | userAck

/-- `QCWWAN_TYPE_SMS_DataEncodeType` -/
inductive DataEncodeType where
  | ascii8bit
  | is91ep
  | ascii7bit
  | ia5
  | unicode
  | shiftJis
  | korean
  | latinHebrew
  | latin
  | gsm7BitDefault

/-- `QCWWAN_TYPE_SMS_MsgDispMode` -/
inductive MsgDispMode where
  | immediate
  | default
  | userInvoke

/-- The bits of `QCWWAN_TYPE_SMS_ParamMask` that are set. -/
def paramaskBearerReply : UInt32 := 0x1
def paramaskAddress : UInt32 := 0x40
def paramaskUserData : UInt32 := 0x100
def paramaskPriority : UInt32 := 0x200
def paramaskCallBack : UInt32 := 0x8000
def paramaskMcTimeStamp : UInt32 := 0x10000

/-- The fields of `QCWWAN_STRUCT_SMS_CdmaHeader` that are written; `szAddress` by its bytes. -/
structure CdmaHeader where
  eParamMask : UInt32
  eMsgCategory : MsgCategory
  eTeleservice : Teleservice
  tlAckReq : UInt8
  eMsgIdType : MsgIdType
  addrDigitMode : UInt8
  addrNumMode : UInt8
  addrNumType : UInt8
  addrNumPlan : UInt8
  addrLen : UInt8
  szAddress : ℕ → UInt8
  ePriority : UInt8
  dataEncoding : DataEncodeType
  tsYr : UInt8
  tsMon : UInt8
  tsDay : UInt8
  tsHrs : UInt8
  tsMin : UInt8
  tsSec : UInt8
  eMsgDispMode : MsgDispMode

/-- The fields of `QCWWAN_STRUCT_CDMA_SMS_RetrieveSms` that are written, with the bytes that
`pMessage` points at. -/
structure RetrieveSms where
  sHeader : CdmaHeader
  nSMSId : UInt16
  pMessage : List UInt8
  sizeBuffer : ℕ

/-- The number of a message, as the caller copies it. -/
def RetrieveSms.number (pSms : RetrieveSms) : List UInt8 :=
  load pSms.sHeader.szAddress 0 pSms.sHeader.addrLen.toNat

/-- `Num2Char` of a code, of which `10` is the digit zero. -/
def num2Char (Num : UInt8) : UInt8 := (if Num = 10 then 0 else Num) + 48

/-- The bytes that `wcsncpy` writes: wide characters up to the first one that is zero, and zeros
from there on. -/
def wideChars (pSrc : ℕ → UInt8) : ℕ → ℕ → List UInt8
  | _, 0 => []
  | pos, n + 1 =>
      if load pSrc pos 4 = [0, 0, 0, 0] then List.replicate (4 * (n + 1)) 0
      else load pSrc pos 4 ++ wideChars pSrc (pos + 4) n

/-- `SW_AtoT` -/
def SW_AtoT (pDest pSrc : ℕ → UInt8) (srcLen : ℕ) : ℕ → UInt8 :=
  store pDest 0 (wideChars pSrc 0 srcLen)

/-- The address, with the digits in front of what the stack holds. -/
def CdmaHeader.decodeAddress (stack : ℕ → UInt8) (pOrigAddrBuf : List UInt8) (h : CdmaHeader) :
    Rc × CdmaHeader :=
  match DecodeOriginAddr pOrigAddrBuf with
  | (.none, digitMode, numMode, codes) =>
      let szNumbers := store stack 0 (codes.map num2Char)
      (.none, { h with
        addrLen := UInt8.ofNat codes.length
        szAddress := SW_AtoT h.szAddress szNumbers codes.length
        eParamMask := h.eParamMask ||| paramaskAddress
        addrDigitMode := digitMode
        addrNumMode := numMode
        addrNumType := 0
        addrNumPlan := 0 })
  | (rc, _, _, _) => (rc, h)

/-- `USER_DATA_MSG_ENCODING_8BIT_OCTET` and `USER_DATA_MSG_ENCODING_8BIT_LATIN` -/
def userDataMsgEncoding8bitOctet : UInt8 := 0
def userDataMsgEncoding8bitLatin : UInt8 := 8

/-- `DecodeUserData`: the encoding, and the characters. -/
def DecodeUserData (pUserDataBuf : List UInt8) : UInt8 × List UInt8 :=
  let buf := ofList 0 pUserDataBuf
  let msgEncoding := UnpackBitsToAByte buf 0 5
  let abyteLen :=
    if msgEncoding = userDataMsgEncoding8bitOctet ∨ msgEncoding = userDataMsgEncoding8bitLatin
    then 8 else 7
  let msgLen := UnpackBitsToAByte buf 5 8
  (msgEncoding, unpackAll buf abyteLen 13 msgLen.toNat)

/-- The header once the parameters are split. -/
def CdmaHeader.begin (bearerReplySeq : UInt8) (h : CdmaHeader) : CdmaHeader :=
  let h := { h with eParamMask := 0 }
  let h := if bearerReplySeq ≠ 255 then
    { h with
        eParamMask := h.eParamMask ||| paramaskBearerReply
        tlAckReq := shr bearerReplySeq 2 } else h
  { h with
      eMsgCategory := .pointToPoint
      eTeleservice := .cellMessaging
      eMsgIdType := .deliver }

/-- The bits that the bearer data sets, before the text is decoded. -/
def BearerParams.paramMask (b : BearerParams) : UInt32 :=
  (if b.yr ≠ 200 ∧ b.mon ≠ 200 then paramaskMcTimeStamp else 0) |||
    (if b.priority ≠ 200 then paramaskPriority else 0) |||
    (if b.userDataBuf.isSome then paramaskUserData else 0)

/-- What the bearer data says, except for the text. -/
def RetrieveSms.putBearer (b : BearerParams) (pSms : RetrieveSms) : RetrieveSms :=
  { pSms with
      nSMSId := b.msgId
      sHeader := { pSms.sHeader with
        eParamMask := pSms.sHeader.eParamMask ||| b.paramMask
        ePriority := b.priority
        tsYr := b.yr
        tsMon := b.mon
        tsDay := b.day
        tsHrs := b.hr
        tsMin := b.min
        tsSec := b.sec } }

/-- The text, if there is one. -/
def RetrieveSms.putUserData (pSms : RetrieveSms) : Option (List UInt8) → RetrieveSms
  | some pUserDataBuf =>
      { sHeader := { pSms.sHeader with
          dataEncoding := .ascii7bit
          eMsgDispMode := .default }
        nSMSId := pSms.nSMSId
        pMessage := (DecodeUserData pUserDataBuf).2
        sizeBuffer := (DecodeUserData pUserDataBuf).2.length }
  | none => pSms

/-- The callback number is only noted. -/
def RetrieveSms.putCallback (pSms : RetrieveSms) (pCallbackBuf : Option (List UInt8)) :
    RetrieveSms :=
  if pCallbackBuf.isSome then
    { pSms with sHeader := { pSms.sHeader with
        eParamMask := pSms.sHeader.eParamMask ||| paramaskCallBack } }
  else pSms

/-- `DecodeCompleteMTSms`, with the values that its variables for the bearer data have before: the
code that is returned, and the structure. -/
def decodeMTSms (vars : BearerParams) (stack : ℕ → UInt8) (pEncodedSms : List UInt8)
    (pSms : RetrieveSms) : Rc × RetrieveSms :=
  match SplitParamMTSms .sdk pEncodedSms .start with
  | (p, .none) =>
      let pSms := { pSms with sHeader := pSms.sHeader.begin p.bearerReplySeq }
      -- the branches for the sender and, of a draft, the receiver are the same
      match p.origAddrBuf.or p.destAddrBuf with
      | none => (.unexpectedResponse, pSms)
      | some pAddrBuf =>
          match pSms.sHeader.decodeAddress stack pAddrBuf with
          | (.none, sHeader) =>
              let pSms := { pSms with sHeader := sHeader }
              match p.bearerDataBuf with
              | none => (.bearerDataNotFound, pSms)
              | some pBearerDataBuf =>
                  match DecodeBearerData pBearerDataBuf vars with
                  | (b, .none) =>
                      (.none, ((pSms.putBearer b).putUserData b.userDataBuf).putCallback
                        b.callbackBuf)
                  | (_, rc) => (rc, pSms)
          | (rc, _) => (rc, pSms)
  | (_, rc) => (rc, pSms)

/-- `DecodeCompleteMTSms`, with the variables that are not set before taken to be `0`. -/
def DecodeCompleteMTSms (stack : ℕ → UInt8) (pEncodedSms : List UInt8) (pSms : RetrieveSms) :
    Rc × RetrieveSms :=
  decodeMTSms .start stack pEncodedSms pSms

section Address

theorem length_wideChars (pSrc : ℕ → UInt8) (pos n : ℕ) :
    (wideChars pSrc pos n).length = 4 * n := by
  induction n generalizing pos with
  | zero => rfl
  | succ n ih =>
      rw [wideChars]
      split_ifs
      · rw [List.length_replicate]
      · rw [List.length_append, length_load, ih, Nat.mul_succ, Nat.add_comm]

/-- Bytes that are not zero are copied, and those of the last wide character with them. -/
theorem take_wideChars {pSrc : ℕ → UInt8} {pos n m : ℕ} (hm : m ≤ 4 * n)
    (hne : ∀ k < m, pSrc (pos + k) ≠ 0) :
    (wideChars pSrc pos n).take m = load pSrc pos m := by
  induction n generalizing pos m with
  | zero =>
      have hzero : m = 0 := by omega
      rw [hzero]
      rfl
  | succ n ih =>
      by_cases hempty : m = 0
      · rw [hempty]
        rfl
      have hfirst : load pSrc pos 4 ≠ [0, 0, 0, 0] := by
        intro hload
        rw [load_succ] at hload
        exact hne 0 (Nat.pos_of_ne_zero hempty) (List.cons.inj hload).1
      rw [wideChars, if_neg hfirst]
      by_cases hshort : m ≤ 4
      · rw [List.take_append_of_le_length (by rw [length_load]; exact hshort),
          take_load _ _ hshort]
      · obtain ⟨k, rfl⟩ := Nat.exists_eq_add_of_le (Nat.le_of_not_le hshort)
        have hrest : ∀ j < k, pSrc (pos + 4 + j) ≠ 0 := by
          intro j hj
          have hpath : pos + 4 + j = pos + (4 + j) := Nat.add_assoc _ _ _
          rw [hpath]
          exact hne (4 + j) (Nat.add_lt_add_left hj 4)
        rw [load_add, List.take_append, length_load, Nat.add_sub_cancel_left,
          List.take_of_length_le (by rw [length_load]; exact Nat.le_add_right 4 k),
          ih (by omega) hrest]

/-- The digits that were copied, whatever stands behind them. -/
theorem load_sw_atot (pDest stack : ℕ → UInt8) {chars : List UInt8} (hne : ∀ c ∈ chars, c ≠ 0) :
    load (SW_AtoT pDest (store stack 0 chars) chars.length) 0 chars.length = chars := by
  have hsource : load (store stack 0 chars) 0 chars.length = chars := load_store stack 0 chars
  have hbytes : ∀ k < chars.length, store stack 0 chars (0 + k) ≠ 0 := by
    intro k hk
    rw [store_add hk]
    exact hne _ (List.getElem_mem hk)
  have hlen : chars.length ≤ (wideChars (store stack 0 chars) 0 chars.length).length := by
    rw [length_wideChars]
    omega
  rw [SW_AtoT, ← take_load _ _ hlen, load_store, take_wideChars (by omega) hbytes, hsource]

/-- The code of a digit stands for its character. -/
theorem num2Char_char2Num {c : UInt8} (hlow : 48 ≤ c) (hhigh : c ≤ 57) :
    num2Char (char2Num c) = c ∧ (char2Num c).toNat < 2 ^ 4 := by
  have hsub : (c - 48).toNat = c.toNat - 48 := UInt8.toNat_sub_of_le _ _ hlow
  have hle : c.toNat ≤ 57 := UInt8.le_iff_toNat_le.mp hhigh
  have hback : c - 48 + 48 = c := UInt8.sub_add_cancel c 48
  rw [char2Num]
  split_ifs with hzero
  · rw [hzero] at hback
    exact ⟨hback, by decide⟩
  · have hten : c - 48 ≠ 10 := by
      intro hten
      have hnat := congrArg UInt8.toNat hten
      rw [hsub] at hnat
      change c.toNat - 48 = 10 at hnat
      omega
    rw [num2Char, if_neg hten, hback, hsub]
    exact ⟨rfl, by omega⟩

end Address

section BearerData

/-- The message types that `DecodeBearerData` knows. -/
def knownMsgTypes : List UInt8 := [1, 2, 4, 5, 6]

theorem knownMsgTypes_cases {MsgType : UInt8} (h : MsgType ∈ knownMsgTypes) :
    MsgType = 1 ∨ MsgType = 2 ∨ MsgType = 4 ∨ MsgType = 5 ∨ MsgType = 6 := by
  simpa [knownMsgTypes] using h

theorem le_of_mem_knownMsgTypes {MsgType : UInt8} (h : MsgType ∈ knownMsgTypes) :
    MsgType ≤ 6 := by
  rcases knownMsgTypes_cases h with rfl | rfl | rfl | rfl | rfl
  all_goals decide

theorem toNat_highHalf (b : UInt8) : ((b &&& 0xf0) >>> 4).toNat = b.toNat / 16 := by
  have hhigh : ∀ n : ℕ, n < 256 → (n &&& 240) >>> 4 = n / 16 := by decide +kernel
  have hb := b.toNat_lt
  simp [hhigh b.toNat hb]

theorem msbNat_byteField {len : ℕ} {b : UInt8} (hb : b.toNat < 2 ^ len) :
    msbNat (byteField len b) = b.toNat :=
  (msbNat_msbField len b.toBitVec).trans (Nat.mod_eq_of_lt hb)

/-- The number that the bytes make. -/
theorem msbNat_bitList_three (b1 b2 b3 : UInt8) :
    msbNat (bitList [b1, b2, b3]) = b1.toNat * 65536 + b2.toNat * 256 + b3.toNat := by
  have hbyte : ∀ b : UInt8, msbNat (byteField 8 b) = b.toNat := fun b =>
    msbNat_byteField b.toNat_lt
  have hbits : bitList [b1, b2, b3] = byteField 8 b1 ++ (byteField 8 b2 ++ byteField 8 b3) := by
    simp [bitList]
  simp only [hbits, msbNat_append, hbyte, List.length_append, length_byteField]
  omega

/-- The number that the bits of a message identifier make. -/
theorem msbNat_msgIdBits {MsgType : UInt8} (htype : MsgType.toNat < 16) (MsgId : UInt16) :
    msbNat (msgIdBits MsgType MsgId) = (MsgType.toNat * 65536 + MsgId.toNat) * 16 := by
  have hbyte : ∀ b : UInt8, msbNat (byteField 8 b) = b.toNat := fun b =>
    msbNat_byteField b.toNat_lt
  have htypeField : msbNat (byteField 4 MsgType) = MsgType.toNat := msbNat_byteField htype
  have hhigh : (MsgId >>> 8).toUInt8.toNat = MsgId.toNat / 256 := by
    have hlt := MsgId.toNat_lt
    simp [Nat.shiftRight_eq_div_pow]
    omega
  have hlow : MsgId.toUInt8.toNat = MsgId.toNat % 256 := UInt16.toNat_toUInt8 MsgId
  have hzero : msbNat (byteField 4 0) = 0 := rfl
  simp only [msgIdBits, msbNat_append, hbyte, htypeField, hhigh, hlow, hzero,
    List.length_append, length_byteField]
  omega

/-- The message type and the message identifier are read from their bits. -/
theorem msgId_of_bitList {value : List UInt8} {MsgType : UInt8} {MsgId : UInt16}
    (htype : MsgType ∈ knownMsgTypes) (hlen : value.length = 3)
    (h : bitList value = msgIdBits MsgType MsgId) :
    MsgTypeKnown (value.getD 0 0) ∧ msgIdField value = MsgId := by
  obtain ⟨b1, b2, b3, rfl⟩ := List.length_eq_three.mp hlen
  have hsmall : MsgType.toNat < 16 :=
    Nat.lt_of_le_of_lt (UInt8.le_iff_toNat_le.mp (le_of_mem_knownMsgTypes htype))
      (show 6 < 16 by decide)
  have hnumber := congrArg msbNat h
  rw [msbNat_bitList_three, msbNat_msgIdBits hsmall] at hnumber
  have h1 := b1.toNat_lt
  have h2 := b2.toNat_lt
  have h3 := b3.toNat_lt
  have hid := MsgId.toNat_lt
  constructor
  · have hhigh : (b1 &&& 0xf0) >>> 4 = MsgType := by
      apply UInt8.toNat_inj.mp
      rw [toNat_highHalf]
      omega
    rw [MsgTypeKnown, List.getD_cons_zero, hhigh]
    exact knownMsgTypes_cases htype
  · apply UInt16.toNat_inj.mp
    simp only [msgIdField, List.getD_cons_zero, List.getD_cons_succ, hnumber]
    rw [Nat.mul_div_cancel _ (by decide), UInt16.toNat_ofNat']
    omega

/-- The characters of a text are read from their bits. -/
theorem decodeUserData_of_bitList {value text : List UInt8} {post : List Bool}
    (hlen : text.length < 256) (htext : ∀ c ∈ text, c.toNat < 2 ^ 7)
    (h : bitList value = userDataBits text post) :
    DecodeUserData value = (userDataMsgEncoding7bitAscii, text) := by
  have hencoding : UnpackBitsToAByte (ofList 0 value) 0 5 = userDataMsgEncoding7bitAscii := by
    have hfirst : bitList value = [] ++ (byteField 5 userDataMsgEncoding7bitAscii ++
        (byteField 8 (UInt8.ofNat text.length) ++ (text.flatMap (byteField 7) ++ post))) := h
    exact unpackBitsToAByte_of_bitList (by decide) (by decide) hfirst
  have hmsgLen : UnpackBitsToAByte (ofList 0 value) 5 8 = UInt8.ofNat text.length :=
    unpackBitsToAByte_of_bitList (by decide) (UInt8.toNat_lt _) h
  have hchars : bitList value = (byteField 5 userDataMsgEncoding7bitAscii ++
      byteField 8 (UInt8.ofNat text.length)) ++ (text.flatMap (byteField 7) ++ post) := by
    rw [h, userDataBits, List.append_assoc]
  have hbody : unpackAll (ofList 0 value) 7 13 text.length = text :=
    unpackAll_of_bitList (by decide) htext hchars
  have hseven : ¬ (userDataMsgEncoding7bitAscii = userDataMsgEncoding8bitOctet ∨
      userDataMsgEncoding7bitAscii = userDataMsgEncoding8bitLatin) := by decide
  simp only [DecodeUserData, hencoding, hmsgLen, if_neg hseven,
    UInt8.toNat_ofNat_of_lt' (show text.length < 2 ^ 8 from hlen), hbody]

/-- The bearer data of a text message is decoded. -/
theorem decodeBearerData_submitted {msgId userData : Param} {MsgType : UInt8} {MsgId : UInt16}
    (hmsgId : msgId.identifier = msgSubIdentifierId) (hlen : msgId.value.length = 3)
    (htype : MsgType ∈ knownMsgTypes) (hbits : bitList msgId.value = msgIdBits MsgType MsgId)
    (huserData : userData.identifier = userDataSubIdentifier) (RelVal : Option UInt8)
    (Priority : UInt8) :
    DecodeBearerData
        ([msgId, userData, relValidityParam RelVal, priorityParam Priority].flatMap Param.bytes)
        .start =
      ({ BearerParams.start with
          msgId := MsgId
          userDataBuf := some userData.value
          priority := priorityBits Priority }, .none) := by
  obtain ⟨hknown, hid⟩ := msgId_of_bitList htype hlen hbits
  have hok : ∀ q ∈ [msgId, userData, relValidityParam RelVal, priorityParam Priority],
      BearerOk q := by
    simp only [List.forall_mem_cons]
    refine ⟨?_, ?_, ?_, rfl, List.forall_mem_nil _⟩
    · rw [BearerOk, if_pos hmsgId]
      exact ⟨hlen, hknown⟩
    · rw [BearerOk, huserData, if_neg (by decide), if_neg (by decide), if_neg (by decide),
        if_neg (by decide)]
      exact List.mem_cons_self
    · change relValPeriodSubIdentifier ∈ _
      decide
  rw [DecodeBearerData, run_bearer hok]
  simp only [putAll, List.foldl_cons, List.foldl_nil, BearerParams.put, hmsgId, huserData, hid]
  rfl

end BearerData

/-- A text message without a callback number. -/
structure MoSms where
  destNum : List UInt8
  msgBody : List UInt8
  msgType : UInt8
  msgId : UInt16
  priority : UInt8
  relVal : Option UInt8

/-- A message to 1 to 25 decimal digits, of a known type and with a priority that is encoded, and
with at most 160 characters of seven bits. -/
structure MoSms.Admitted (m : MoSms) : Prop where
  destNumLen : 1 ≤ m.destNum.length ∧ m.destNum.length ≤ 25
  digits : ∀ c ∈ m.destNum, 48 ≤ c ∧ c ≤ 57
  msgBodyLen : m.msgBody.length ≤ maxSmsMsgLen
  text : ∀ c ∈ m.msgBody, c.toNat < 2 ^ 7
  msgType : m.msgType ∈ knownMsgTypes
  priority : m.priority ≤ 2

/-- The decoded structure has the number, the identifier and the text of a message, and its
priority as a byte. -/
structure MoSms.Retrieved (m : MoSms) (ePriority : UInt8) (pSms : RetrieveSms) : Prop where
  number : pSms.number = m.destNum
  nSMSId : pSms.nSMSId = m.msgId
  priority : pSms.sHeader.ePriority = ePriority
  text : pSms.pMessage = m.msgBody
  sizeBuffer : pSms.sizeBuffer = m.msgBody.length

/-- What is encoded is decoded, with the priority as a byte, whatever was in the structure and on
the stack before. -/
def MoSms.RoundTrips (m : MoSms) (ePriority : UInt8) : Prop :=
  ∃ pOut pOutLen,
    EncodeCompleteMoSms m.destNum [] m.msgBody m.msgType m.msgId m.priority m.relVal =
      .ok (pOut, pOutLen) ∧
    ∀ stack before, ∃ pSms,
      DecodeCompleteMTSms stack (pOut.take pOutLen.toNat) before = (.none, pSms) ∧
        m.Retrieved ePriority pSms

section RoundTrip

/-- The address of a message of the SDK is decoded. -/
theorem decodeAddress_of_bitList {value chars : List UInt8} {post : List Bool}
    (hlen : chars.length < 256) (hdigits : ∀ c ∈ chars, 48 ≤ c ∧ c ≤ 57)
    (h : bitList value = addressBits (chars.map (Codec.number .sdk)) post)
    (stack : ℕ → UInt8) (header : CdmaHeader) :
    header.decodeAddress stack value =
      (.none, { header with
        addrLen := UInt8.ofNat chars.length
        szAddress := SW_AtoT header.szAddress (store stack 0 chars) chars.length
        eParamMask := header.eParamMask ||| paramaskAddress
        addrDigitMode := 0
        addrNumMode := 0
        addrNumType := 0
        addrNumPlan := 0 }) := by
  have hcodes : ∀ n ∈ chars.map (Codec.number .sdk), n.toNat < 2 ^ 4 := by
    intro n hn
    obtain ⟨c, hc, rfl⟩ := List.mem_map.mp hn
    exact (num2Char_char2Num (hdigits c hc).1 (hdigits c hc).2).2
  have hchars : (chars.map (Codec.number .sdk)).map num2Char = chars := by
    rw [List.map_map]
    conv_rhs => rw [← List.map_id chars]
    apply List.map_congr_left
    intro c hc
    exact (num2Char_char2Num (hdigits c hc).1 (hdigits c hc).2).1
  rw [CdmaHeader.decodeAddress,
    decodeOriginAddr_of_bitList (by rw [List.length_map]; exact hlen) hcodes h]
  simp only [hchars, List.length_map]

/-- The bytes of a text message are decoded. -/
theorem decodeCompleteMTSms_envelope {teleidvalue : UInt16} {addr : Param}
    (haddr : addr.identifier = destaddrIdentifier) {chars : List UInt8}
    (hlen : chars.length < 256) (hdigits : ∀ c ∈ chars, 48 ≤ c ∧ c ≤ 57) {post : List Bool}
    (hbits : bitList addr.value = addressBits (chars.map (Codec.number .sdk)) post)
    {bearer : List UInt8} (hbearer : bearer.length < 256) {b : BearerParams}
    (hdecode : DecodeBearerData bearer .start = (b, .none)) (stack : ℕ → UInt8)
    (before : RetrieveSms) :
    DecodeCompleteMTSms stack (envelope teleidvalue addr.bytes bearer) before =
      (.none, (({ before with
        sHeader := { before.sHeader.begin 0 with
          addrLen := UInt8.ofNat chars.length
          szAddress := SW_AtoT before.sHeader.szAddress (store stack 0 chars) chars.length
          eParamMask := (before.sHeader.begin 0).eParamMask ||| paramaskAddress
          addrDigitMode := 0
          addrNumMode := 0
          addrNumType := 0
          addrNumPlan := 0 } }.putBearer b).putUserData b.userDataBuf).putCallback
            b.callbackBuf) := by
  rw [DecodeCompleteMTSms, decodeMTSms, splitParamMTSms_envelope .sdk teleidvalue .start haddr hbearer]
  simp only [Option.none_or, decodeAddress_of_bitList hlen hdigits hbits, hdecode]
  rfl

/-- The priorities that are encoded. -/
theorem priorityBits_eq {Priority : UInt8} (h : Priority ≤ 2) :
    priorityBits Priority = 64 * Priority := by
  have hle : Priority.toNat ≤ 2 := UInt8.le_iff_toNat_le.mp h
  have hcases : Priority = 0 ∨ Priority = 1 ∨ Priority = 2 := by
    simp only [← UInt8.toNat_inj]
    change Priority.toNat = 0 ∨ Priority.toNat = 1 ∨ Priority.toNat = 2
    omega
  rcases hcases with rfl | rfl | rfl
  all_goals rfl

/-- A text message is decoded to its number, its identifier and its text, and to its priority in
the two high bits of a byte. -/
theorem sdk_decode_encode {m : MoSms} (h : m.Admitted) : m.RoundTrips (64 * m.priority) := by
  have hdestLen := h.destNumLen
  have htextLen : m.msgBody.length ≤ 160 := h.msgBodyLen
  have hdestLt : m.destNum.length < 256 := by omega
  obtain ⟨addr, haddrId, haddrLen, haddr, addrPost, haddrBits⟩ := destAddr_eq .sdk hdestLt
  obtain ⟨msgId, hmsgId, hmsgIdLen, hmsgIdBuf, hmsgIdBits⟩ :=
    encodeMsgIdenfier_eq (le_of_mem_knownMsgTypes h.msgType) m.msgId
  obtain ⟨userData, huserData, huserDataLen, huserDataBuf, post, huserDataBits⟩ :=
    encodeUserDataHdr_eq h.msgBodyLen
  have haddrValue : addr.value.length ≤ 15 := by
    have hbits := destAddrLen_bits m.destNum.length
    have hreserved := reservedBits_lt m.destNum.length
    omega
  have huserValue : userData.value.length ≤ 142 := by
    have hbits := totalbytes_bits m.msgBody.length
    have hreserved := numofReserveBits_lt m.msgBody.length
    omega
  have hencode := encodeCompleteMoSms_eq m.relVal haddr h.msgBodyLen hmsgIdBuf huserDataBuf
    h.priority
  have hdecode := decodeBearerData_submitted hmsgId hmsgIdLen h.msgType hmsgIdBits huserData
    m.relVal m.priority
  generalize hbearer : [msgId, userData, relValidityParam m.relVal,
    priorityParam m.priority].flatMap Param.bytes = bearer at hencode hdecode
  have hbearerLen : bearer.length ≤ 155 := by
    rw [← hbearer]
    simp [Param.bytes, relValidityParam, priorityParam, hmsgIdLen]
    omega
  refine ⟨_, _, hencode, fun stack before => ?_⟩
  have htotal : (envelope teleserviceIdDefaultValue addr.bytes bearer).length < 2 ^ 8 := by
    rw [length_envelope, Param.bytes, List.length_cons, List.length_cons]
    omega
  rw [UInt8.toNat_ofNat_of_lt' htotal, List.take_length]
  have hne : ∀ c ∈ m.destNum, c ≠ 0 := by
    intro c hc hzero
    exact absurd (hzero ▸ (h.digits c hc).1) (by decide)
  have htext : DecodeUserData userData.value = (userDataMsgEncoding7bitAscii, m.msgBody) :=
    decodeUserData_of_bitList (by omega) h.text huserDataBits
  refine ⟨_, decodeCompleteMTSms_envelope haddrId hdestLt h.digits haddrBits (by omega) hdecode
    stack before, ?_⟩
  constructor
  · change load (SW_AtoT _ _ _) 0 (UInt8.ofNat m.destNum.length).toNat = _
    rw [UInt8.toNat_ofNat_of_lt' hdestLt]
    exact load_sw_atot _ stack hne
  · rfl
  · exact priorityBits_eq h.priority
  · exact congrArg Prod.snd htext
  · exact congrArg (fun r => r.2.length) htext

end RoundTrip

/-- A text of two characters to a number of one digit. -/
def greeting (msgType priority : UInt8) : MoSms where
  destNum := [53]
  msgBody := [72, 105]
  msgType := msgType
  msgId := 1
  priority := priority
  relVal := none

theorem admitted_greeting {priority : UInt8} (h : priority ≤ 2) :
    (greeting 2 priority).Admitted where
  destNumLen := ⟨Nat.le_refl 1, show 1 ≤ 25 by decide⟩
  digits := by
    change ∀ c ∈ [(53 : UInt8)], 48 ≤ c ∧ c ≤ 57
    rw [List.forall_mem_singleton]
    decide
  msgBodyLen := show 2 ≤ 160 by decide
  text := by
    change ∀ c ∈ [(72 : UInt8), 105], c.toNat < 2 ^ 7
    rw [List.forall_mem_cons, List.forall_mem_singleton]
    decide
  msgType := show (2 : UInt8) ∈ knownMsgTypes by decide
  priority := h

theorem sdk_decode_encode_urgent : (greeting 2 2).RoundTrips 128 :=
  sdk_decode_encode (admitted_greeting (show (2 : UInt8) ≤ 2 by decide))

/-- A structure that was cleared. -/
def RetrieveSms.cleared : RetrieveSms where
  sHeader :=
    { eParamMask := 0
      eMsgCategory := .pointToPoint
      eTeleservice := .cellPaging
      tlAckReq := 0
      eMsgIdType := .notused
      addrDigitMode := 0
      addrNumMode := 0
      addrNumType := 0
      addrNumPlan := 0
      addrLen := 0
      szAddress := fun _ => 0
      ePriority := 0
      dataEncoding := .ascii8bit
      tsYr := 0
      tsMon := 0
      tsDay := 0
      tsHrs := 0
      tsMin := 0
      tsSec := 0
      eMsgDispMode := .immediate }
  nSMSId := 0
  pMessage := []
  sizeBuffer := 0

/-- An interactive message comes back with 64 as its priority, and a message of the type that the
decoder does not know is not decoded. -/
theorem not_roundTrips_interactive :
    (greeting 2 1).Admitted ∧ ¬ (greeting 2 1).RoundTrips (greeting 2 1).priority ∧
      ∀ ePriority, ¬ (greeting 3 0).RoundTrips ePriority := by
  refine ⟨admitted_greeting (by decide), ?_, fun ePriority => ?_⟩
  · rintro ⟨pOut, pOutLen, hencode, hdecode⟩
    have hbytes : EncodeCompleteMoSms [53] [] [72, 105] 2 1 1 none =
        .ok ([0, 0, 2, 16, 2, 6, 1, 0, 4, 2, 0, 84, 8, 17, 0, 3, 32, 0, 16, 1, 4, 16, 20, 141, 32,
          5, 1, 11, 8, 1, 64], 31) := by decide +kernel
    obtain ⟨rfl, rfl⟩ := Prod.mk.inj (Except.ok.inj (hbytes.symm.trans hencode))
    obtain ⟨pSms, hpSms, hretrieved⟩ := hdecode (fun _ => 0) .cleared
    have hpriority : (DecodeCompleteMTSms (fun _ => 0) [0, 0, 2, 16, 2, 6, 1, 0, 4, 2, 0, 84, 8,
        17, 0, 3, 32, 0, 16, 1, 4, 16, 20, 141, 32, 5, 1, 11, 8, 1, 64]
        .cleared).2.sHeader.ePriority = 64 := by decide +kernel
    have hlost : pSms.sHeader.ePriority = 64 :=
      (congrArg (·.2.sHeader.ePriority) hpSms).symm.trans hpriority
    exact absurd (hlost.symm.trans hretrieved.priority) (by decide)
  · rintro ⟨pOut, pOutLen, hencode, hdecode⟩
    have hbytes : EncodeCompleteMoSms [53] [] [72, 105] 3 1 0 none =
        .ok ([0, 0, 2, 16, 2, 6, 1, 0, 4, 2, 0, 84, 8, 17, 0, 3, 48, 0, 16, 1, 4, 16, 20, 141, 32,
          5, 1, 11, 8, 1, 0], 31) := by decide +kernel
    obtain ⟨rfl, rfl⟩ := Prod.mk.inj (Except.ok.inj (hbytes.symm.trans hencode))
    obtain ⟨pSms, hpSms, -⟩ := hdecode (fun _ => 0) .cleared
    have hfailed : (DecodeCompleteMTSms (fun _ => 0) [0, 0, 2, 16, 2, 6, 1, 0, 4, 2, 0, 84, 8,
        17, 0, 3, 48, 0, 16, 1, 4, 16, 20, 141, 32, 5, 1, 11, 8, 1, 0] .cleared).1 = .failed := by
      decide +kernel
    exact absurd (hfailed.symm.trans (congrArg Prod.fst hpSms)) (show Rc.failed ≠ .none by decide)

end Sms

end SierraSdk
