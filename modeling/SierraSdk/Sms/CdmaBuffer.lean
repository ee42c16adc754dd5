import SierraSdk.Sms.CdmaSubmit

/-!
# The buffer of a CDMA text message

`SwiCDMAEncodeMOTextMsg` encodes a text message into a buffer of its caller. The caller gives the
size of the buffer in a byte, where the length of the message is put; the size is not read. The
lengths of the numbers are cut to a byte each, and the text is copied to an array of 240
characters first.

`FitsBuffer` says for which inputs this goes well: the message then fits, and the lengths in it
are those of what they describe (`respectsBuffer_iff`).
-/

namespace SierraSdk

namespace Sms

open Memory

/-- The arguments of `SwiCDMAEncodeMOTextMsg`, except for the size of the buffer. Strings are
given by their characters, the text by the bytes that `pTextMsg` points at. -/
structure MOTextMsg where
  messageId : UInt8
  pDestAddr : Option (List UInt8)
  pCallbackAddr : Option (List UInt8)
  textMsgLength : ℕ
  pTextMsg : List UInt8
  pPriority : Option UInt8
  pEncodingAlphabet : Option UInt8
  pRelValidity : Option UInt8
  hasMessage : Bool

/-- The errors that are returned. -/
inductive EncodeError where
  | general
  | invalidArg
  | bufferSize
  | impossibleEncoding
  deriving DecidableEq

/-- What becomes of a message: the array for the text is overrun, an error is returned and
nothing written, or the message and its length are written. -/
inductive Encoded where
  | overrun
  | refused (error : EncodeError)
  | written (message : List UInt8) (pMessageSize : UInt8)

/-- `QCWWAN_SMS_DATAENCODE_7bitAscii` -/
def smsDataencode7bitAscii : UInt8 := 2

/-- The length of `asciiTextMessage`. -/
def asciiTextMessageLen : ℕ := 240

/-- `SW_TtoA` -/
def SW_TtoA (pSrc : List UInt8) (srcLen : ℕ) : List UInt8 := strncpy pSrc srcLen

/-- The part of a string that its length in a byte covers. -/
def byteString (s : List UInt8) : List UInt8 := s.take (UInt8.ofNat s.length).toNat

/-- The error for a result of `EncodeCompleteMoSms`. The buffer size error of the text is not the
one that is looked for. -/
def encodeError (rCode : Rc) : EncodeError :=
  match rCode with
  | .invalidArg => .invalidArg
  | _ => .general

/-- `SwiCDMAEncodeMOTextMsg` -/
def SwiCDMAEncodeMOTextMsg (m : MOTextMsg) : Encoded :=
  if m.pEncodingAlphabet.getD smsDataencode7bitAscii ≠ smsDataencode7bitAscii then
    .refused .impossibleEncoding
  else if asciiTextMessageLen < m.textMsgLength then .overrun
  else
    match m.pDestAddr with
    | none => .refused .invalidArg
    | some pDestAddr =>
        match EncodeCompleteMoSms (byteString pDestAddr)
          (byteString (m.pCallbackAddr.getD [])) (SW_TtoA m.pTextMsg m.textMsgLength) 2
          m.messageId.toUInt16 (m.pPriority.getD 0) m.pRelValidity with
        | .error rCode => .refused (encodeError rCode)
        | .ok (message, pMessageSize) =>
            if m.hasMessage then .written message pMessageSize else .refused .general

/-- The length of the parameter of the callback number. -/
def callbackAddrLen (digits : ℕ) : ℕ := (8 + 8 + 1 + 8 + 4 * digits + 7) / 8

/-- A message that can be encoded. -/
structure MOTextMsg.Accepted (m : MOTextMsg) (pDestAddr : List UInt8) : Prop where
  alphabet : m.pEncodingAlphabet.getD smsDataencode7bitAscii = smsDataencode7bitAscii
  dest : m.pDestAddr = some pDestAddr
  text : m.textMsgLength ≤ maxSmsMsgLen
  priority : m.pPriority.getD 0 ≤ 2
  buffer : m.hasMessage = true

/-- The callback number, if it has digits. -/
def MOTextMsg.callback (m : MOTextMsg) : List UInt8 := m.pCallbackAddr.getD []

/-- The length of the parameters in the bearer data. -/
def MOTextMsg.bearerSize (m : MOTextMsg) : ℕ :=
  5 + totalbytes m.textMsgLength + 3 + 3 +
    if m.callback = [] then 0 else callbackAddrLen m.callback.length

/-- The number of bytes that the encoded message needs. -/
def MOTextMsg.neededSize (m : MOTextMsg) (pDestAddr : List UInt8) : ℕ :=
  5 + 3 + destAddrLen pDestAddr.length + 2 + m.bearerSize

/-- The parameters of a message. -/
structure MessageParams where
  destAddr : Param
  msgId : Param
  userData : Param
  relValidity : Param
  priority : Param
  callbackNum : Option Param

/-- The parameters in the bearer data. -/
def MessageParams.bearer (q : MessageParams) : List Param :=
  [q.msgId, q.userData, q.relValidity, q.priority] ++ q.callbackNum.toList

/-- The count of digits or characters in the value of a parameter, behind some bits. -/
def Param.count (q : Param) (pos : ℕ) : ℕ := (UnpackBitsToAByte (ofList 0 q.value) pos 8).toNat

/-- The bytes are a message whose lengths are those of what they describe: each parameter, and
the bearer data as one, is preceded by the length of its value, and the counts of digits and
characters are those of the input. -/
structure LengthsExact (m : MOTextMsg) (pDestAddr message : List UInt8) (q : MessageParams) :
    Prop where
  sent : ∃ (tele reply bearer : Param), bearer.value = q.bearer.flatMap Param.bytes ∧
    message = cdmaMessage [tele, reply, q.destAddr, bearer]
  destLen : q.destAddr.value.length + 2 = destAddrLen pDestAddr.length
  destCount : q.destAddr.count 2 = pDestAddr.length
  userDataLen : q.userData.value.length + 2 = totalbytes m.textMsgLength
  userDataCount : q.userData.count 5 = m.textMsgLength
  callback : m.callback ≠ [] → ∃ c, q.callbackNum = some c ∧
    c.value.length + 2 = callbackAddrLen m.callback.length ∧ c.count 1 = m.callback.length

/-- A message that needs more bytes than the buffer has is refused for that; any other is written
with its length, and all lengths in it are exact. What cannot be encoded is refused. -/
def RespectsBuffer (m : MOTextMsg) (pMessageSize : UInt8) : Prop :=
  (∀ pDestAddr, m.Accepted pDestAddr →
    (pMessageSize.toNat < m.neededSize pDestAddr →
      SwiCDMAEncodeMOTextMsg m = .refused .bufferSize) ∧
    (m.neededSize pDestAddr ≤ pMessageSize.toNat →
      ∃ message size q, SwiCDMAEncodeMOTextMsg m = .written message size ∧
        message.length = m.neededSize pDestAddr ∧ size.toNat = message.length ∧
        LengthsExact m pDestAddr message q)) ∧
  ((∀ pDestAddr, ¬ m.Accepted pDestAddr) → ∃ error, SwiCDMAEncodeMOTextMsg m = .refused error)

/-- The text fits in the array, and a message that can be encoded fits in the buffer, with
numbers of at most 255 digits. -/
structure FitsBuffer (m : MOTextMsg) (pMessageSize : UInt8) : Prop where
  text : m.pEncodingAlphabet.getD smsDataencode7bitAscii = smsDataencode7bitAscii →
    m.textMsgLength ≤ asciiTextMessageLen
  message : ∀ pDestAddr, m.Accepted pDestAddr →
    m.neededSize pDestAddr ≤ pMessageSize.toNat ∧ pDestAddr.length < 256 ∧
      m.callback.length < 256

section Strings

theorem length_sw_ttoa (pSrc : List UInt8) (srcLen : ℕ) :
    (SW_TtoA pSrc srcLen).length = srcLen := List.takeD_length srcLen _ 0

theorem byteString_lt (s : List UInt8) : (byteString s).length < 256 := by
  rw [byteString, List.length_take]
  exact Nat.lt_of_le_of_lt (Nat.min_le_left _ _) (UInt8.toNat_lt _)

theorem byteString_of_lt {s : List UInt8} (h : s.length < 256) : byteString s = s := by
  rw [byteString, UInt8.toNat_ofNat_of_lt' h, List.take_length]

end Strings

section Params

/-- A count that was packed behind some bits. -/
theorem Param.count_of_bitList {q : Param} {pre post : List Bool} {pos n : ℕ}
    (h : bitList q.value = pre ++ (byteField 8 (UInt8.ofNat n) ++ post)) (hpos : pre.length = pos)
    (hn : n < 256) : q.count pos = n := by
  rw [Param.count, ← hpos, unpackBitsToAByte_of_bitList (by decide) (UInt8.toNat_lt _) h,
    UInt8.toNat_ofNat_of_lt' hn]

theorem callbackAddrLen_bits (digits : ℕ) :
    8 * callbackAddrLen digits = 25 + 4 * digits +
      (if (25 + 4 * digits) % 8 ≠ 0 then 8 - (25 + 4 * digits) % 8 else 0) := by
  simp only [callbackAddrLen]
  split_ifs <;> omega

/-- The callback number is packed into a parameter. -/
theorem encodeCallbackNumber_eq {digits : List UInt8} (hlen : digits.length < 256) :
    ∃ c : Param, EncodeCallbackNumber digits = c.bytes ∧
      c.value.length + 2 = callbackAddrLen digits.length ∧ c.count 1 = digits.length := by
  have hbits := callbackAddrLen_bits digits.length
  unfold EncodeCallbackNumber
  simp only [show 8 + 8 + 1 + 8 = 25 from rfl]
  generalize hreserved : (if (25 + 4 * digits.length) % 8 ≠ 0 then
    8 - (25 + 4 * digits.length) % 8 else 0) = reserved at hbits ⊢
  have hreserve : reserved < 8 := by
    rw [← hreserved]
    split_ifs <;> omega
  have hsize : (25 + 4 * digits.length + reserved) / 8 = callbackAddrLen digits.length := by omega
  have hhdr : (UInt8.ofNat (callbackAddrLen digits.length) - 2).toNat =
      callbackAddrLen digits.length - 2 := toNat_hdrLen (by omega) (by omega)
  have hfill : 1 + 8 + 4 * (digits.map char2Num).length + reserved =
      8 * (UInt8.ofNat (callbackAddrLen digits.length) - 2).toNat := by
    rw [hhdr, List.length_map]
    omega
  obtain ⟨c, -, hvalue, hbytes, hrest⟩ :=
    packNumbers_param callbackNumSubIdentifier (by decide) (by decide) hreserve hfill
  rw [hsize]
  rw [List.length_map] at hrest
  exact ⟨c, hbytes, by rw [hvalue, hhdr]; omega, Param.count_of_bitList hrest rfl hlen⟩

/-- A message as `EncodeCompleteMoSms` makes it, of a number, a callback number and a text of some
characters. -/
structure EncodedAs (dest callback : List UInt8) (chars : ℕ) (q : MessageParams)
    (message : List UInt8) : Prop where
  layers : message = envelope teleserviceIdDefaultValue q.destAddr.bytes
    (q.bearer.flatMap Param.bytes)
  destLen : q.destAddr.value.length + 2 = destAddrLen dest.length
  destCount : q.destAddr.count 2 = dest.length
  userDataLen : q.userData.value.length + 2 = totalbytes chars
  userDataCount : q.userData.count 5 = chars
  bearerLen : (q.bearer.flatMap Param.bytes).length = 5 + totalbytes chars + 3 + 3 +
    (if callback = [] then 0 else callbackAddrLen callback.length)
  callback : callback ≠ [] → ∃ c : Param, q.callbackNum = some c ∧
    c.value.length + 2 = callbackAddrLen callback.length ∧ c.count 1 = callback.length

/-- The parameters of a message, its numbers and its text in a byte each. -/
theorem encodeCompleteMoSms_params {dest callback text : List UInt8} {priority : UInt8}
    (msgId : UInt16) (relVal : Option UInt8) (hdest : dest.length < 256)
    (hcallback : callback.length < 256) (htext : text.length ≤ maxSmsMsgLen)
    (hpriority : priority ≤ 2) :
    ∃ q message,
      EncodeCompleteMoSms dest callback text 2 msgId priority relVal =
        .ok (message, UInt8.ofNat message.length) ∧
      EncodedAs dest callback text.length q message := by
  obtain ⟨addr, -, haddrLen, haddr, addrPost, haddrBits⟩ := destAddr_eq .sdk hdest
  obtain ⟨id, -, hidLen, hid, -⟩ := encodeMsgIdenfier_eq (show (2 : UInt8) ≤ 6 by decide) msgId
  obtain ⟨userData, -, huserLen, huser, post, huserBits⟩ := encodeUserDataHdr_eq htext
  have hmax : text.length ≤ 160 := htext
  have haddrBound := destAddrLen_bits dest.length
  have huserBound := totalbytes_bits text.length
  have hdestLen : addr.value.length + 2 = destAddrLen dest.length := by omega
  have huserDataLen : userData.value.length + 2 = totalbytes text.length := by omega
  rw [addressBits, List.length_map] at haddrBits
  have hdestCount : addr.count 2 = dest.length := Param.count_of_bitList haddrBits rfl hdest
  have huserCount : userData.count 5 = text.length :=
    Param.count_of_bitList huserBits rfl (Nat.lt_of_le_of_lt hmax (by decide))
  have hlow : ¬ 6 < priority := UInt8.not_lt.mpr (UInt8.le_trans hpriority (by decide))
  have hargs : ¬ (maxSmsMsgLen < text.length ∨ 6 < priority) :=
    not_or.mpr ⟨Nat.not_lt.mpr htext, hlow⟩
  have hpriorityBuf : EncodePriorityHdr priority = .ok (priorityParam priority).bytes :=
    if_neg (UInt8.not_lt.mpr hpriority)
  have hlenBytes : ∀ c : Param, c.bytes.length = c.value.length + 2 := fun c => rfl
  by_cases hnone : callback = []
  · refine ⟨⟨addr, id, userData, relValidityParam relVal, priorityParam priority, none⟩, _, ?_,
      ⟨rfl, hdestLen, hdestCount, huserDataLen, huserCount, ?_, fun h => absurd hnone h⟩⟩
    · rw [hnone]
      rw [encodeCompleteMoSms_eq relVal haddr htext hid huser hpriority]
      rfl
    · rw [if_pos hnone]
      simp only [MessageParams.bearer, Option.toList_none, List.append_nil, List.flatMap_cons,
        List.flatMap_nil, List.length_append, hlenBytes, hidLen, huserDataLen]
      rfl
  · obtain ⟨c, hc, hcLen, hcCount⟩ := encodeCallbackNumber_eq hcallback
    refine ⟨⟨addr, id, userData, relValidityParam relVal, priorityParam priority, some c⟩, _,
      ?_, ⟨rfl, hdestLen, hdestCount, huserDataLen, huserCount, ?_,
        fun _ => ⟨c, rfl, hcLen, hcCount⟩⟩⟩
    · rw [EncodeCompleteMoSms, if_neg hargs, hid, huser, hpriorityBuf, haddr,
        if_pos (List.length_pos_iff.mpr hnone), hc]
      simp only [MessageParams.bearer, Option.toList_some, List.cons_append, List.nil_append,
        List.flatMap_cons, List.flatMap_nil, List.append_nil]
      rfl
    · rw [if_neg hnone]
      simp only [MessageParams.bearer, Option.toList_some, List.cons_append, List.nil_append,
        List.flatMap_cons, List.flatMap_nil, List.append_nil, List.length_append, hlenBytes,
        hidLen, huserDataLen, hcLen]
      change 5 + (totalbytes text.length + (3 + (3 + callbackAddrLen callback.length))) = _
      omega

/-- What is encoded has a text and a priority that can be. -/
theorem encodeCompleteMoSms_ok {dest callback text : List UInt8} {msgType priority : UInt8}
    {msgId : UInt16} {relVal : Option UInt8} {r : List UInt8 × UInt8}
    (h : EncodeCompleteMoSms dest callback text msgType msgId priority relVal = .ok r) :
    text.length ≤ maxSmsMsgLen ∧ priority ≤ 2 := by
  have hargs : ¬ (maxSmsMsgLen < text.length ∨ 6 < priority) := by
    intro hargs
    rw [EncodeCompleteMoSms, if_pos hargs] at h
    cases h
  rw [EncodeCompleteMoSms, if_neg hargs] at h
  refine ⟨Nat.not_lt.mp fun hlong => hargs (.inl hlong), UInt8.not_lt.mp fun hhigh => ?_⟩
  have hpriority : EncodePriorityHdr priority = .error .invalidArg := if_pos hhigh
  rw [hpriority] at h
  cases hid : EncodeMsgIdenfier msgType msgId with
  | error => rw [hid] at h; cases h
  | ok id =>
      rw [hid] at h
      cases huser : EncodeUserDataHdr text with
      | error => rw [huser] at h; cases h
      | ok user => rw [huser] at h; cases h

/-- A message whose bearer data is shorter than 256 bytes, from its parameters. -/
theorem exists_sent {q : MessageParams} (hlen : (q.bearer.flatMap Param.bytes).length < 256) :
    ∃ tele reply bearer : Param, bearer.value = q.bearer.flatMap Param.bytes ∧
      envelope teleserviceIdDefaultValue q.destAddr.bytes (q.bearer.flatMap Param.bytes) =
        cdmaMessage [tele, reply, q.destAddr, bearer] :=
  ⟨⟨teleserviceIdentifier, wordBytes teleserviceIdDefaultValue, show 2 < 256 by decide⟩,
    ⟨bearerReplyIdentifier, [0], by decide⟩, ⟨bearerDataIdentifier, _, hlen⟩, rfl,
    envelope_eq teleserviceIdDefaultValue hlen⟩

end Params

section Results

variable {m : MOTextMsg} {pDestAddr : List UInt8}

/-- A message that can be encoded is written, with the numbers as far as their lengths in a byte
reach. -/
theorem written_of_accepted (h : m.Accepted pDestAddr) :
    ∃ q message, SwiCDMAEncodeMOTextMsg m = .written message (UInt8.ofNat message.length) ∧
      EncodedAs (byteString pDestAddr) (byteString m.callback) m.textMsgLength q message := by
  have hlen : (SW_TtoA m.pTextMsg m.textMsgLength).length = m.textMsgLength :=
    length_sw_ttoa m.pTextMsg m.textMsgLength
  obtain ⟨q, message, hencode, hmessage⟩ :=
    encodeCompleteMoSms_params m.messageId.toUInt16 m.pRelValidity (byteString_lt pDestAddr)
      (byteString_lt m.callback) (hlen.symm ▸ h.text) h.priority
  refine ⟨q, message, ?_, hlen ▸ hmessage⟩
  have hshort : ¬ asciiTextMessageLen < m.textMsgLength :=
    Nat.not_lt.mpr (Nat.le_trans h.text (by decide))
  rw [MOTextMsg.callback] at hencode
  simp only [SwiCDMAEncodeMOTextMsg, if_neg (not_not.mpr h.alphabet), if_neg hshort, h.dest,
    hencode, h.buffer, if_true]

/-- What cannot be encoded is refused, if the text fits in its array. -/
theorem refused_of_not_accepted (h : ∀ pDestAddr, ¬ m.Accepted pDestAddr)
    (htext : m.pEncodingAlphabet.getD smsDataencode7bitAscii = smsDataencode7bitAscii →
      m.textMsgLength ≤ asciiTextMessageLen) :
    ∃ error, SwiCDMAEncodeMOTextMsg m = .refused error := by
  unfold SwiCDMAEncodeMOTextMsg
  by_cases halphabet : m.pEncodingAlphabet.getD smsDataencode7bitAscii = smsDataencode7bitAscii
  · rw [if_neg (not_not.mpr halphabet), if_neg (Nat.not_lt.mpr (htext halphabet))]
    cases hdest : m.pDestAddr with
    | none => exact ⟨_, rfl⟩
    | some dest =>
        cases hencode : EncodeCompleteMoSms (byteString dest)
            (byteString (m.pCallbackAddr.getD [])) (SW_TtoA m.pTextMsg m.textMsgLength) 2
            m.messageId.toUInt16 (m.pPriority.getD 0) m.pRelValidity with
        | error rCode => exact ⟨encodeError rCode, by simp only [hencode]⟩
        | ok r =>
            obtain ⟨hlen, hpriority⟩ := encodeCompleteMoSms_ok hencode
            rw [length_sw_ttoa] at hlen
            have hrefused : m.hasMessage = false := by
              by_contra hbuffer
              exact h dest ⟨halphabet, hdest, hlen, hpriority, by simpa using hbuffer⟩
            refine ⟨.general, ?_⟩
            simp only [hencode, hrefused, Bool.false_eq_true, if_false]
  · rw [if_pos halphabet]
    exact ⟨_, rfl⟩

/-- The length of a message whose numbers fit. -/
theorem EncodedAs.length {q : MessageParams} {message : List UInt8}
    (h : EncodedAs pDestAddr m.callback m.textMsgLength q message) :
    message.length = m.neededSize pDestAddr := by
  rw [h.layers, length_envelope, h.bearerLen, MOTextMsg.neededSize, MOTextMsg.bearerSize]
  have hdest : q.destAddr.bytes.length = destAddrLen pDestAddr.length := h.destLen
  omega

/-- The encoder respects the buffer exactly if the text fits in its array and a message that can
be encoded fits in the buffer. -/
theorem respectsBuffer_iff (m : MOTextMsg) (pMessageSize : UInt8) :
    RespectsBuffer m pMessageSize ↔ FitsBuffer m pMessageSize := by
  constructor
  · rintro ⟨haccepted, hother⟩
    constructor
    · intro halphabet
      by_contra hlong
      have hnot : ∀ pDestAddr, ¬ m.Accepted pDestAddr := fun pDestAddr h =>
        hlong (Nat.le_trans h.text (by decide))
      obtain ⟨error, herror⟩ := hother hnot
      rw [SwiCDMAEncodeMOTextMsg, if_neg (not_not.mpr halphabet),
        if_pos (Nat.not_le.mp hlong)] at herror
      cases herror
    · intro pDestAddr h
      obtain ⟨hlarge, hsmall⟩ := haccepted pDestAddr h
      obtain ⟨q, message, hwritten, -⟩ := written_of_accepted h
      have hfits : m.neededSize pDestAddr ≤ pMessageSize.toNat := by
        by_contra hneed
        have hrefused := hlarge (Nat.not_le.mp hneed)
        rw [hwritten] at hrefused
        cases hrefused
      obtain ⟨sent, size, r, -, -, -, hexact⟩ := hsmall hfits
      have hbyte : ∀ (p : Param) (pos : ℕ), p.count pos < 256 := fun p pos => UInt8.toNat_lt _
      refine ⟨hfits, hexact.destCount ▸ hbyte r.destAddr 2, ?_⟩
      by_cases hnone : m.callback = []
      · rw [hnone]
        decide
      · obtain ⟨c, -, -, hcount⟩ := hexact.callback hnone
        exact hcount ▸ hbyte c 1
  · intro hfits
    refine ⟨fun pDestAddr h => ?_, fun hnot => refused_of_not_accepted hnot hfits.text⟩
    obtain ⟨hneed, hdest, hcallback⟩ := hfits.message pDestAddr h
    refine ⟨fun hlarge => absurd hneed (Nat.not_le.mpr hlarge), fun _ => ?_⟩
    obtain ⟨q, message, hwritten, hmessage⟩ := written_of_accepted h
    rw [byteString_of_lt hdest, byteString_of_lt hcallback] at hmessage
    have hsize := pMessageSize.toNat_lt
    have hlen := hmessage.length
    have hbearer : (q.bearer.flatMap Param.bytes).length < 256 := by
      rw [hmessage.layers, length_envelope] at hlen
      omega
    refine ⟨message, _, q, hwritten, hlen, UInt8.toNat_ofNat_of_lt' (hlen ▸ ?_), ?_⟩
    · exact Nat.lt_of_le_of_lt hneed hsize
    refine ⟨?_, hmessage.destLen, hmessage.destCount, hmessage.userDataLen,
      hmessage.userDataCount, hmessage.callback⟩
    rw [hmessage.layers]
    exact exists_sent hbearer

/-- A message of one character to a number of one digit, which needs 30 bytes, is written whatever
the size of the buffer is. -/
theorem not_respectsBuffer_short :
    ¬ ∀ m pMessageSize, RespectsBuffer m pMessageSize := by
  intro h
  have hshort := h ⟨1, some [53], none, 1, [72], none, none, none, true⟩ 4
  have haccepted : MOTextMsg.Accepted ⟨1, some [53], none, 1, [72], none, none, none, true⟩ [53] :=
    ⟨rfl, rfl, by decide, by decide, rfl⟩
  obtain ⟨q, message, hwritten, -⟩ := written_of_accepted haccepted
  have hrefused := (hshort.1 [53] haccepted).1 (by decide)
  rw [hwritten] at hrefused
  cases hrefused

end Results

end Sms

end SierraSdk
