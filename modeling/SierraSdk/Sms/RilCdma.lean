import SierraSdk.Sms.CdmaMessage

/-!
# CDMA messages of the RIL

`CDMAEncodeMOTextMsg` makes the bytes of a message that the framework has the digits, the
teleservice identifier and the bearer data of, and `CDMADecodeMTTextMsg` reads such bytes into a
message again. The digits are the codes that the framework uses, so neither changes them.

The teleservice identifier is an `int` in the message and has two bytes in what is sent, which
are the low ones of it. A message whose identifier fits them is decoded as it was encoded
(`ril_decode_encode`), and one with a wider identifier is not
(`not_roundTrips_wideTeleservice`).
-/

namespace SierraSdk

namespace Sms

open Memory

/-- `RIL_CDMA_SMS_DIGIT_MODE_4_BIT` -/
def digitMode4Bit : UInt8 := 0

/-- `RIL_CDMA_SMS_ADDRESS_MAX`, the length of the array of digits. -/
def rilAddressMax : ℕ := 36

structure RilCdmaSmsAddress where
  digitMode : UInt8
  numberOfDigits : UInt8
  digits : ℕ → UInt8

/-- The fields of `RIL_CDMA_SMS_Message` that are encoded and decoded. -/
structure RilCdmaSmsMessage where
  uTeleserviceID : ℤ
  uServicecategory : ℤ
  sAddress : RilCdmaSmsAddress
  uBearerDataLen : ℤ
  aBearerData : ℕ → UInt8

namespace RilCdmaSmsMessage

/-- The digits of a message. -/
def numbers (args : RilCdmaSmsMessage) : List UInt8 :=
  load args.sAddress.digits 0 args.sAddress.numberOfDigits.toNat

/-- The bearer data of a message. -/
def bearerData (args : RilCdmaSmsMessage) : List UInt8 :=
  load args.aBearerData 0 args.uBearerDataLen.toNat

end RilCdmaSmsMessage

/-- The two bytes that are sent for a teleservice identifier. -/
def teleIdValue (uTeleserviceID : ℤ) : UInt16 :=
  if uTeleserviceID = 0 then teleserviceIdDefaultValue else UInt16.ofInt uTeleserviceID

/-- `EncodeUserData` copies what the framework has encoded. -/
def EncodeUserData (pszSmsMsg : ℕ → UInt8) (MsgLen : ℤ) : Except Rc (List UInt8) :=
  if (maxSmsMsgLen : ℤ) < MsgLen then .error .invalidArg
  else if MsgLen < 0 then
    -- cast to `ULONG` it is more than the 200 bytes of the buffer
    .error .bufferSize
  else .ok (load pszSmsMsg 0 MsgLen.toNat)

/-- `CDMAEncodeMOTextMsg`: the bytes at `pOut`, and their number as it is stored in a byte. -/
def CDMAEncodeMOTextMsg (args : RilCdmaSmsMessage) : Except Rc (List UInt8 × UInt8) :=
  if (maxSmsMsgLen : ℤ) < args.uBearerDataLen then .error .invalidArg
  else if args.sAddress.digitMode ≠ digitMode4Bit then .error .invalidArg
  else
    match EncodeUserData args.aBearerData args.uBearerDataLen with
    | .error rCode => .error rCode
    | .ok userDataBuf =>
        let pOut := envelope (teleIdValue args.uTeleserviceID) (destAddr .ril args.numbers)
          userDataBuf
        .ok (pOut, UInt8.ofNat pOut.length)

/-- `DecodeOriginAddr` of the RIL: the code that is returned, the digit mode, and the address
with the number of digits and the digits stored in it. -/
def decodeAddress (pOrigAddrBuf : List UInt8) (sAddress : RilCdmaSmsAddress) :
    Rc × UInt8 × RilCdmaSmsAddress :=
  match DecodeOriginAddr pOrigAddrBuf with
  | (.none, digitMode, _, codes) =>
      (.none, digitMode,
        { sAddress with
            numberOfDigits := UInt8.ofNat codes.length
            digits := store sAddress.digits 0 codes })
  | (rc, digitMode, _, _) => (rc, digitMode, sAddress)

/-- `DecodeBearerData` of the RIL copies the bearer data, if there is any. -/
def RilCdmaSmsMessage.copyBearerData (args : RilCdmaSmsMessage) :
    Option (List UInt8) → RilCdmaSmsMessage
  | some buf =>
      { args with
          uBearerDataLen := buf.length
          aBearerData := store args.aBearerData 0 buf }
  | none => args

/-- `CDMADecodeMTTextMsg`: the code that is returned, and the message. -/
def CDMADecodeMTTextMsg (pRawMsg : List UInt8) (args : RilCdmaSmsMessage) :
    Rc × RilCdmaSmsMessage :=
  match SplitParamMTSms .ril pRawMsg .start with
  | (p, .none) =>
      let args := if p.teleServiceIdValue ≠ 0 then
        { args with uTeleserviceID := p.teleServiceIdValue.toNat } else args
      let args := if p.serviceCatagory ≠ 0 then
        { args with uServicecategory := p.serviceCatagory.toNat } else args
      match p.origAddrBuf, p.destAddrBuf with
      | some buf, _ =>
          match decodeAddress buf args.sAddress with
          | (.none, digitMode, sAddress) =>
              (.none, { args with
                sAddress := { sAddress with digitMode := digitMode } }.copyBearerData
                  p.bearerDataBuf)
          | (rc, _, sAddress) => (rc, { args with sAddress := sAddress })
      | none, some buf =>
          -- a draft: the digit mode is not stored
          match decodeAddress buf args.sAddress with
          | (.none, _, sAddress) =>
              (.none, { args with sAddress := sAddress }.copyBearerData p.bearerDataBuf)
          | (rc, _, sAddress) => (rc, { args with sAddress := sAddress })
      | none, none => (.unexpectedResponse, args)
  | (_, rc) => (rc, args)

/-- A message with an address of digits of four bits, as many as the array holds, and with
bearer data that is not too long. -/
structure RilCdmaSmsMessage.Admitted (args : RilCdmaSmsMessage) : Prop where
  digitMode : args.sAddress.digitMode = digitMode4Bit
  numberOfDigits : args.sAddress.numberOfDigits.toNat ≤ rilAddressMax
  digits : ∀ n ∈ args.numbers, n.toNat < 2 ^ 4
  bearerDataLen : 0 ≤ args.uBearerDataLen ∧ args.uBearerDataLen ≤ maxSmsMsgLen

/-- A decoded message has the teleservice identifier, the digits and the bearer data of the
one that was encoded; the default identifier stands for none. -/
structure RilCdmaSmsMessage.Recovered (args args' : RilCdmaSmsMessage) : Prop where
  uTeleserviceID : args'.uTeleserviceID =
    if args.uTeleserviceID = 0 then (teleserviceIdDefaultValue.toNat : ℤ)
    else args.uTeleserviceID
  numberOfDigits : args'.sAddress.numberOfDigits = args.sAddress.numberOfDigits
  digits : args'.numbers = args.numbers
  uBearerDataLen : args'.uBearerDataLen = args.uBearerDataLen
  bearerData : args'.bearerData = args.bearerData

/-- What is encoded is decoded, whatever was in the message before. -/
def RilCdmaSmsMessage.RoundTrips (args : RilCdmaSmsMessage) : Prop :=
  ∃ pOut pOutLen, CDMAEncodeMOTextMsg args = .ok (pOut, pOutLen) ∧
    ∀ before, ∃ args', CDMADecodeMTTextMsg (pOut.take pOutLen.toNat) before = (.none, args') ∧
      args.Recovered args'

section Encode

variable {args : RilCdmaSmsMessage}

theorem toNat_teleIdValue (h : 0 ≤ args.uTeleserviceID ∧ args.uTeleserviceID < 65536) :
    ((teleIdValue args.uTeleserviceID).toNat : ℤ) =
      if args.uTeleserviceID = 0 then (teleserviceIdDefaultValue.toNat : ℤ)
      else args.uTeleserviceID := by
  rw [teleIdValue]
  split_ifs with hzero
  · rfl
  · rw [UInt16.ofInt]
    simp
    omega

theorem encodeUserData_eq (h : args.Admitted) :
    EncodeUserData args.aBearerData args.uBearerDataLen = .ok args.bearerData := by
  rw [EncodeUserData, if_neg (Int.not_lt.mpr h.bearerDataLen.2),
    if_neg (Int.not_lt.mpr h.bearerDataLen.1)]
  rfl

theorem cdmaEncodeMOTextMsg_eq (h : args.Admitted) :
    CDMAEncodeMOTextMsg args =
      .ok (envelope (teleIdValue args.uTeleserviceID) (destAddr .ril args.numbers)
          args.bearerData,
        UInt8.ofNat (envelope (teleIdValue args.uTeleserviceID) (destAddr .ril args.numbers)
          args.bearerData).length) := by
  rw [CDMAEncodeMOTextMsg, if_neg (Int.not_lt.mpr h.bearerDataLen.2),
    if_neg (not_not.mpr h.digitMode), encodeUserData_eq h]

end Encode

section Decode

variable {args : RilCdmaSmsMessage}

/-- The bytes of a message that a mobile sends are decoded. -/
theorem cdmaDecodeMTTextMsg_envelope {teleidvalue : UInt16} (hid : teleidvalue ≠ 0) {q : Param}
    (hq : q.identifier = destaddrIdentifier) {numbers : List UInt8} (hlen : numbers.length < 256)
    (hdigits : ∀ n ∈ numbers, n.toNat < 2 ^ 4) {post : List Bool}
    (hbits : bitList q.value = addressBits numbers post) {bearer : List UInt8}
    (hbearer : bearer.length < 256) (before : RilCdmaSmsMessage) :
    CDMADecodeMTTextMsg (envelope teleidvalue q.bytes bearer) before =
      (.none, { before with
        uTeleserviceID := teleidvalue.toNat
        sAddress := { before.sAddress with
          numberOfDigits := UInt8.ofNat numbers.length
          digits := store before.sAddress.digits 0 numbers } }.copyBearerData (some bearer)) := by
  have haddress : ∀ a : RilCdmaSmsAddress, decodeAddress q.value a =
      (.none, 0, { a with
        numberOfDigits := UInt8.ofNat numbers.length
        digits := store a.digits 0 numbers }) := by
    intro a
    rw [decodeAddress, decodeOriginAddr_of_bitList hlen hdigits hbits]
  have hword : teleServiceId .ril (wordBytes teleidvalue) = teleidvalue :=
    word_wordBytes teleidvalue
  rw [CDMADecodeMTTextMsg, splitParamMTSms_envelope .ril teleidvalue .start hq hbearer, hword]
  simp only [if_pos hid]
  have hservice : ¬ SplitParams.start.serviceCatagory ≠ 0 := not_not.mpr rfl
  simp only [if_neg hservice, haddress]

theorem length_numbers_lt (args : RilCdmaSmsMessage) : args.numbers.length < 256 := by
  rw [RilCdmaSmsMessage.numbers, length_load]
  exact UInt8.toNat_lt _

/-- A message whose teleservice identifier has two bytes is decoded as it was encoded. -/
theorem ril_decode_encode (h : args.Admitted)
    (hid : 0 ≤ args.uTeleserviceID ∧ args.uTeleserviceID < 65536) : args.RoundTrips := by
  have hcount : args.numbers.length = args.sAddress.numberOfDigits.toNat := length_load _ _ _
  have hbearerLen : args.bearerData.length = args.uBearerDataLen.toNat := length_load _ _ _
  have hadmitted := h.numberOfDigits
  have hbearer := h.bearerDataLen
  simp only [rilAddressMax, maxSmsMsgLen] at hadmitted hbearer
  obtain ⟨q, hq, hvalue, hbytes, post, hbits⟩ := destAddr_eq .ril (length_numbers_lt args)
  have hcodes : args.numbers.map (Codec.number .ril) = args.numbers := List.map_id _
  rw [hcodes] at hbits
  have hvalueLen : q.value.length ≤ 20 := by
    have hbitsLen := destAddrLen_bits args.numbers.length
    have hreserved := reservedBits_lt args.numbers.length
    omega
  refine ⟨_, _, cdmaEncodeMOTextMsg_eq h, fun before => ?_⟩
  rw [hbytes]
  have htotal : (envelope (teleIdValue args.uTeleserviceID) q.bytes args.bearerData).length <
      2 ^ 8 := by
    rw [length_envelope, Param.bytes, List.length_cons, List.length_cons]
    omega
  rw [UInt8.toNat_ofNat_of_lt' htotal, List.take_length]
  have hne : teleIdValue args.uTeleserviceID ≠ 0 := by
    intro hzero
    have hvalue := toNat_teleIdValue hid
    rw [hzero] at hvalue
    split_ifs at hvalue with hnone
    · exact absurd hvalue (by decide)
    · exact hnone hvalue.symm
  refine ⟨_, cdmaDecodeMTTextMsg_envelope hne hq (length_numbers_lt args) h.digits hbits
    (by omega) before, ?_⟩
  constructor
  · exact toNat_teleIdValue hid
  · change UInt8.ofNat args.numbers.length = _
    rw [hcount, UInt8.ofNat_toNat]
  · change load (store _ 0 args.numbers) 0 (UInt8.ofNat args.numbers.length).toNat = _
    exact load_store_of_length _ 0 (UInt8.toNat_ofNat_of_lt' (length_numbers_lt args)).symm
  · change (args.bearerData.length : ℤ) = _
    rw [hbearerLen]
    omega
  · change load (store _ 0 args.bearerData) 0 (args.bearerData.length : ℤ).toNat = _
    exact load_store_of_length _ 0 (Int.toNat_natCast _).symm

end Decode

/-- A message to a number of one digit, with one byte of bearer data. -/
def shortMessage (uTeleserviceID : ℤ) : RilCdmaSmsMessage where
  uTeleserviceID := uTeleserviceID
  uServicecategory := 0
  sAddress := { digitMode := digitMode4Bit, numberOfDigits := 1, digits := fun _ => 5 }
  uBearerDataLen := 1
  aBearerData := fun _ => 7

theorem admitted_shortMessage (uTeleserviceID : ℤ) : (shortMessage uTeleserviceID).Admitted where
  digitMode := rfl
  numberOfDigits := by
    change 1 ≤ 36
    decide
  digits := by
    change ∀ n ∈ [(5 : UInt8)], n.toNat < 2 ^ 4
    rw [List.forall_mem_singleton]
    decide
  bearerDataLen := by
    change (0 : ℤ) ≤ 1 ∧ (1 : ℤ) ≤ 160
    decide

/-- The default teleservice identifier. -/
theorem ril_decode_encode_default : (shortMessage 0).RoundTrips :=
  ril_decode_encode (admitted_shortMessage 0) (by decide)

/-- An identifier that does not fit the two bytes: it is sent as the default one. -/
theorem not_roundTrips_wideTeleservice :
    (shortMessage 69634).Admitted ∧
      (CDMADecodeMTTextMsg [0, 0, 2, 16, 2, 6, 1, 0, 4, 2, 0, 84, 8, 1, 7]
        (shortMessage 0)).2.uTeleserviceID = 4098 ∧
      ¬ (shortMessage 69634).RoundTrips := by
  have hid : (CDMADecodeMTTextMsg [0, 0, 2, 16, 2, 6, 1, 0, 4, 2, 0, 84, 8, 1, 7]
      (shortMessage 0)).2.uTeleserviceID = 4098 := by decide +kernel
  refine ⟨admitted_shortMessage 69634, hid, ?_⟩
  rintro ⟨pOut, pOutLen, hencode, hdecode⟩
  have hbytes : CDMAEncodeMOTextMsg (shortMessage 69634) =
      .ok ([0, 0, 2, 16, 2, 6, 1, 0, 4, 2, 0, 84, 8, 1, 7], 15) := by decide +kernel
  obtain ⟨rfl, rfl⟩ := Prod.mk.inj (Except.ok.inj (hbytes.symm.trans hencode))
  obtain ⟨args', hargs, hrecovered⟩ := hdecode (shortMessage 0)
  have hlost : args'.uTeleserviceID = 4098 := (congrArg (·.2.uTeleserviceID) hargs).symm.trans hid
  exact absurd (hlost.symm.trans hrecovered.uTeleserviceID) (by decide)

end Sms

end SierraSdk
