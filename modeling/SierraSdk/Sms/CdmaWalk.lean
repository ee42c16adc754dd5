import Mathlib.Data.List.GetD
import Mathlib.Data.List.TakeDrop
import SierraSdk.Library.Walk

/-!
# The parameters of a CDMA message

A point-to-point message is a message type byte and a sequence of parameters: an identifier,
a length, and a value. The value of the bearer data parameter is again such a sequence, of
subparameters. `SplitParamMTSms` walks over the parameters and `DecodeBearerData` over the
subparameters; for each identifier they copy the value, read its bytes, or skip it. The SDK and
the RIL have each a copy of `SplitParamMTSms`, which differ in the service category and in the
teleservice identifier. A byte behind the buffer is read as `0` here, and `malloc` does not
fail.

`SplitOk` and `BearerOk` are what the walks ask of a parameter; the walk of the SDK over a
message is the one that its identifiers and lengths determine exactly if all parameters and
subparameters satisfy them (`walked_iff`).
-/

namespace SierraSdk

namespace Sms

open Walk

/-- The copy of the functions in the SDK, and the one in the RIL. -/
inductive Codec where
  | sdk
  | ril
  deriving DecidableEq

/-- The codes that are returned. -/
inductive Rc where
  | none
  | failed
  | invalidArg
  | bufferSize
  | notSupported
  | unexpectedResponse
  | bearerDataNotFound
  deriving DecidableEq

/-- `POINT_TO_POINT_MSG` -/
def pointToPointMsg : UInt8 := 0

/-- The identifiers of the parameters, and the lengths of those that are checked. -/
def teleserviceIdentifier : UInt8 := 0
def teleserviceHdrLen : UInt8 := 2
def serviceCategoryIdenifier : UInt8 := 1
def serviceCategoryHdrLen : UInt8 := 2
def origaddrIdentifier : UInt8 := 2
def origsubaddrIdentifier : UInt8 := 3
def destaddrIdentifier : UInt8 := 4
def bearerReplyIdentifier : UInt8 := 6
def bearerReplyHdrLen : UInt8 := 1
def bearerDataIdentifier : UInt8 := 8

/-- The identifiers of the subparameters of the bearer data, and the lengths of those that are
checked. -/
def msgSubIdentifierId : UInt8 := 0
def msgSubIdentifierHdrLen : UInt8 := 3
def userDataSubIdentifier : UInt8 := 1
def userRespCodeSubIdentifier : UInt8 := 2
def msgTimestampSubIndetifier : UInt8 := 3
def msgTimestampSubIndetifierHdrLen : UInt8 := 6
def absValPeriodSubIdentifier : UInt8 := 4
def relValPeriodSubIdentifier : UInt8 := 5
def relValPeriodSubIdentifierHdrLen : UInt8 := 1
def defDeliveryTimeAbsSubIdentifier : UInt8 := 6
def defDeliveryTimeRelSubIdentifier : UInt8 := 7
def prioriySubIdentifier : UInt8 := 8
def prioriySubIdentifierHdrLen : UInt8 := 1
def privacySubIdentifier : UInt8 := 9
def replyOptionSubIdentifier : UInt8 := 10
def numOfMsgsSubIdentifier : UInt8 := 11
def alertMsgDeliverySubIdentifier : UInt8 := 12
def languageIndicatorSubIndetifier : UInt8 := 13
def languageIndicatorSubIndetifierHdrLen : UInt8 := 1
def callbackNumSubIdentifier : UInt8 := 14
def msgDispModeSubIdentifier : UInt8 := 15
def multiEncodingUserDataSubIdentifier : UInt8 := 16
def msgDepositIndexSubIdentifier : UInt8 := 17
def serviceCatProgramDataSubIdentifier : UInt8 := 18
def serviceCatProgramResultSubIdentifier : UInt8 := 19
def msgStatusSubIdentifier : UInt8 := 20

section Cursor

/-! `pMsg` is the rest of the buffer, from an identifier on. -/

/-- The byte behind the identifier. -/
def lenAt (pMsg : List UInt8) : UInt8 := pMsg.getD 1 0

/-- The bytes behind the length. -/
def dataAt (pMsg : List UInt8) : List UInt8 := pMsg.drop 2

/-- The bytes that are copied into a new buffer. -/
def copied (pMsg : List UInt8) : List UInt8 := (dataAt pMsg).takeD (lenAt pMsg).toNat 0

/-- Where the walk goes on if the value is skipped by its length. -/
def skipped (pMsg : List UInt8) : List UInt8 := (dataAt pMsg).drop (lenAt pMsg).toNat

/-- Where the walk goes on if the value must have a given length. -/
def fixed (pMsg : List UInt8) (hdrLen : UInt8) : Option (List UInt8) :=
  if lenAt pMsg ≠ hdrLen then none else some ((dataAt pMsg).drop hdrLen.toNat)

end Cursor

/-- What `SplitParamMTSms` finds. -/
structure SplitParams where
  teleServiceIdValue : UInt16
  serviceCatagory : UInt16
  origAddrBuf : Option (List UInt8)
  destAddrBuf : Option (List UInt8)
  bearerReplySeq : UInt8
  bearerDataBuf : Option (List UInt8)
  deriving DecidableEq

/-- Two bytes of a message, the high one first. -/
def word (bytes : List UInt8) : UInt16 :=
  ((bytes.getD 0 0).toUInt16 <<< 8) + (bytes.getD 1 0).toUInt16

/-- The teleservice identifier as it is read: the SDK overwrites the high byte with the low
one. -/
def teleServiceId (codec : Codec) (bytes : List UInt8) : UInt16 :=
  match codec with
  | .sdk => (bytes.getD 1 0).toUInt16
  | .ril => word bytes

/-- One round of the loop of `SplitParamMTSms`: the parameters, and where the loop goes on
unless it ends with an error. -/
def splitStep (codec : Codec) (pMsg : List UInt8) (p : SplitParams) :
    SplitParams × Option (List UInt8) :=
  let identifier := pMsg.headD 0
  if identifier = teleserviceIdentifier then
    ({ p with teleServiceIdValue := teleServiceId codec (dataAt pMsg) },
      fixed pMsg teleserviceHdrLen)
  else if identifier = bearerReplyIdentifier then
    ({ p with bearerReplySeq := (dataAt pMsg).getD 0 0 }, fixed pMsg bearerReplyHdrLen)
  else if identifier = origaddrIdentifier then
    ({ p with origAddrBuf := some (copied pMsg) }, some (skipped pMsg))
  else if identifier = destaddrIdentifier then
    ({ p with destAddrBuf := some (copied pMsg) }, some (skipped pMsg))
  else if identifier = bearerDataIdentifier then
    ({ p with bearerDataBuf := some (copied pMsg) }, some (skipped pMsg))
  else if identifier = serviceCategoryIdenifier then
    match codec with
    | .sdk => (p, some (skipped pMsg))
    | .ril =>
        ({ p with serviceCatagory := word (dataAt pMsg) }, fixed pMsg serviceCategoryHdrLen)
  else if identifier = origsubaddrIdentifier then (p, some (skipped pMsg))
  else (p, none)

/-- What `DecodeBearerData` finds. -/
structure BearerParams where
  msgId : UInt16
  yr : UInt8
  mon : UInt8
  day : UInt8
  hr : UInt8
  min : UInt8
  sec : UInt8
  userDataBuf : Option (List UInt8)
  priority : UInt8
  callbackBuf : Option (List UInt8)
  deriving DecidableEq

/-- The message identifier, put together from the halves of three bytes. -/
def msgIdOf (b1 b2 b3 : UInt8) : UInt16 :=
  let b11 := (b1 &&& 0x0f) <<< 4
  let b31 := (b3 &&& 0xf0) >>> 4
  let b21 := (b2 &&& 0xf0) >>> 4
  let b22 := (b2 &&& 0x0f) <<< 4
  ((b11.toUInt16 + b21.toUInt16) <<< 8) + (b22.toUInt16 + b31.toUInt16)

/-- The message type, the high half of the first byte, is one that is known. -/
def MsgTypeKnown (b1 : UInt8) : Prop :=
  (b1 &&& 0xf0) >>> 4 = 1 ∨ (b1 &&& 0xf0) >>> 4 = 2 ∨ (b1 &&& 0xf0) >>> 4 = 4 ∨
    (b1 &&& 0xf0) >>> 4 = 5 ∨ (b1 &&& 0xf0) >>> 4 = 6

instance (b1 : UInt8) : Decidable (MsgTypeKnown b1) := inferInstanceAs (Decidable (_ ∨ _))

/-- The identifiers of the subparameters that are skipped by their length. -/
def skippedSubIdentifiers : List UInt8 :=
  [relValPeriodSubIdentifier, defDeliveryTimeAbsSubIdentifier, defDeliveryTimeRelSubIdentifier,
    privacySubIdentifier, replyOptionSubIdentifier, numOfMsgsSubIdentifier,
    alertMsgDeliverySubIdentifier, msgDispModeSubIdentifier,
    multiEncodingUserDataSubIdentifier, msgDepositIndexSubIdentifier,
    serviceCatProgramDataSubIdentifier, serviceCatProgramResultSubIdentifier,
    msgStatusSubIdentifier]

/-- One round of the loop of `DecodeBearerData`. -/
def bearerStep (pMsg : List UInt8) (p : BearerParams) : BearerParams × Option (List UInt8) :=
  let identifier := pMsg.headD 0
  let data := dataAt pMsg
  if identifier = msgSubIdentifierId then
    ({ p with msgId := msgIdOf (data.getD 0 0) (data.getD 1 0) (data.getD 2 0) },
      if MsgTypeKnown (data.getD 0 0) then fixed pMsg msgSubIdentifierHdrLen else none)
  else if identifier = prioriySubIdentifier then
    ({ p with priority := data.getD 0 0 }, fixed pMsg prioriySubIdentifierHdrLen)
  else if identifier = userDataSubIdentifier then
    ({ p with userDataBuf := some (copied pMsg) }, some (skipped pMsg))
  else if identifier = msgTimestampSubIndetifier then
    ({ p with
        yr := data.getD 0 0
        mon := data.getD 1 0
        day := data.getD 2 0
        hr := data.getD 3 0
        min := data.getD 4 0
        sec := data.getD 5 0 }, fixed pMsg msgTimestampSubIndetifierHdrLen)
  else if identifier = languageIndicatorSubIndetifier then
    (p, fixed pMsg languageIndicatorSubIndetifierHdrLen)
  else if identifier = callbackNumSubIdentifier then
    ({ p with callbackBuf := some (copied pMsg) }, some (skipped pMsg))
  else if identifier = userRespCodeSubIdentifier ∨ identifier = absValPeriodSubIdentifier then
    -- the branch is empty: the cursor moves on by one byte, to the length
    (p, some (pMsg.drop 1))
  else if identifier ∈ skippedSubIdentifiers then (p, some (skipped pMsg))
  else (p, none)

section Shorter

theorem length_dataAt_lt {pMsg : List UInt8} (hne : pMsg ≠ []) :
    (dataAt pMsg).length < pMsg.length := by
  have hpos := List.length_pos_iff.mpr hne
  rw [dataAt, List.length_drop]
  omega

theorem length_skipped_lt {pMsg : List UInt8} (hne : pMsg ≠ []) :
    (skipped pMsg).length < pMsg.length := by
  rw [skipped, List.length_drop]
  exact Nat.lt_of_le_of_lt (Nat.sub_le _ _) (length_dataAt_lt hne)

theorem length_fixed_lt {pMsg ys : List UInt8} (hne : pMsg ≠ []) {hdrLen : UInt8}
    (h : fixed pMsg hdrLen = some ys) : ys.length < pMsg.length := by
  rw [fixed] at h
  split_ifs at h
  obtain rfl := Option.some.inj h
  rw [List.length_drop]
  exact Nat.lt_of_le_of_lt (Nat.sub_le _ _) (length_dataAt_lt hne)

end Shorter

/-- The loop of `SplitParamMTSms`. -/
def splitWalker (codec : Codec) : Walker UInt8 SplitParams where
  step := splitStep codec
  shorter := by
    intro pMsg ys p hne h
    simp only [splitStep] at h
    split_ifs at h
    · exact length_fixed_lt hne h
    · exact length_fixed_lt hne h
    · exact Option.some.inj h ▸ length_skipped_lt hne
    · exact Option.some.inj h ▸ length_skipped_lt hne
    · exact Option.some.inj h ▸ length_skipped_lt hne
    · cases codec with
      | sdk => exact Option.some.inj h ▸ length_skipped_lt hne
      | ril => exact length_fixed_lt hne h
    · exact Option.some.inj h ▸ length_skipped_lt hne

/-- The loop of `DecodeBearerData`. -/
def bearerWalker : Walker UInt8 BearerParams where
  step := bearerStep
  shorter := by
    intro pMsg ys p hne h
    have htail : (pMsg.drop 1).length < pMsg.length := by
      have hpos := List.length_pos_iff.mpr hne
      rw [List.length_drop]
      omega
    simp only [bearerStep] at h
    split_ifs at h
    · exact length_fixed_lt hne h
    · exact length_fixed_lt hne h
    · exact Option.some.inj h ▸ length_skipped_lt hne
    · exact length_fixed_lt hne h
    · exact length_fixed_lt hne h
    · exact Option.some.inj h ▸ length_skipped_lt hne
    · exact Option.some.inj h ▸ htail
    · exact Option.some.inj h ▸ length_skipped_lt hne

/-- The code that a walk ends with. -/
def rcOf {σ : Type*} (r : σ × Bool) : σ × Rc := (r.1, if r.2 then .none else .failed)

/-- No buffers. -/
def SplitParams.cleared (p : SplitParams) : SplitParams :=
  { p with origAddrBuf := none, destAddrBuf := none, bearerDataBuf := none }

/-- `SplitParamMTSms`, with the values that the parameters have before. -/
def SplitParamMTSms (codec : Codec) (pMTSms : List UInt8) (p : SplitParams) : SplitParams × Rc :=
  if pMTSms.headD 0 ≠ pointToPointMsg then (p.cleared, .notSupported)
  else rcOf (run (splitWalker codec) pMTSms.tail p.cleared)

/-- `DecodeBearerData` -/
def DecodeBearerData (pBearerDataBuf : List UInt8) (p : BearerParams) : BearerParams × Rc :=
  rcOf (run bearerWalker pBearerDataBuf p)

/-- A parameter or subparameter: its identifier and its value. -/
structure Param where
  identifier : UInt8
  value : List UInt8
  length_lt : value.length < 256
  deriving DecidableEq

/-- The bytes of a parameter. -/
def Param.bytes (q : Param) : List UInt8 :=
  q.identifier :: UInt8.ofNat q.value.length :: q.value

/-- A point-to-point message. -/
def cdmaMessage (params : List Param) : List UInt8 :=
  pointToPointMsg :: params.flatMap Param.bytes

/-- What a parameter says, by its identifier and its value. -/
def SplitParams.put (codec : Codec) (q : Param) (p : SplitParams) : SplitParams :=
  if q.identifier = teleserviceIdentifier then { p with teleServiceIdValue := word q.value }
  else if q.identifier = bearerReplyIdentifier then
    { p with bearerReplySeq := q.value.getD 0 0 }
  else if q.identifier = origaddrIdentifier then { p with origAddrBuf := some q.value }
  else if q.identifier = destaddrIdentifier then { p with destAddrBuf := some q.value }
  else if q.identifier = bearerDataIdentifier then { p with bearerDataBuf := some q.value }
  else if q.identifier = serviceCategoryIdenifier ∧ codec = .ril then
    { p with serviceCatagory := word q.value }
  else p

/-- The number in the bits 4 to 19 of three bytes, from the highest bit on. -/
def msgIdField (bytes : List UInt8) : UInt16 :=
  UInt16.ofNat (((bytes.getD 0 0).toNat * 65536 + (bytes.getD 1 0).toNat * 256 +
    (bytes.getD 2 0).toNat) / 16)

/-- What a subparameter says, by its identifier and its value. -/
def BearerParams.put (q : Param) (p : BearerParams) : BearerParams :=
  if q.identifier = msgSubIdentifierId then { p with msgId := msgIdField q.value }
  else if q.identifier = prioriySubIdentifier then { p with priority := q.value.getD 0 0 }
  else if q.identifier = userDataSubIdentifier then { p with userDataBuf := some q.value }
  else if q.identifier = msgTimestampSubIndetifier then
    { p with
      yr := q.value.getD 0 0
      mon := q.value.getD 1 0
      day := q.value.getD 2 0
      hr := q.value.getD 3 0
      min := q.value.getD 4 0
      sec := q.value.getD 5 0 }
  else if q.identifier = callbackNumSubIdentifier then { p with callbackBuf := some q.value }
  else p

/-- A parameter that a codec takes as a whole. -/
def SplitOk (codec : Codec) (q : Param) : Prop :=
  if q.identifier = teleserviceIdentifier then
    q.value.length = 2 ∧ (codec = .sdk → q.value.getD 0 0 = 0)
  else if q.identifier = bearerReplyIdentifier then q.value.length = 1
  else if q.identifier = serviceCategoryIdenifier then codec = .ril → q.value.length = 2
  else q.identifier ∈ [origaddrIdentifier, origsubaddrIdentifier, destaddrIdentifier,
    bearerDataIdentifier]

instance (codec : Codec) (q : Param) : Decidable (SplitOk codec q) := by
  unfold SplitOk
  infer_instance

/-- A subparameter that is taken as a whole. -/
def BearerOk (q : Param) : Prop :=
  if q.identifier = msgSubIdentifierId then
    q.value.length = 3 ∧ MsgTypeKnown (q.value.getD 0 0)
  else if q.identifier = prioriySubIdentifier then q.value.length = 1
  else if q.identifier = msgTimestampSubIndetifier then q.value.length = 6
  else if q.identifier = languageIndicatorSubIndetifier then q.value.length = 1
  else q.identifier ∈ userDataSubIdentifier :: callbackNumSubIdentifier :: skippedSubIdentifiers

instance (q : Param) : Decidable (BearerOk q) := by
  unfold BearerOk
  infer_instance

section Steps

variable (q : Param) (rest : List UInt8)

theorem bytes_ne_nil : q.bytes ≠ [] := List.cons_ne_nil _ _

theorem headD_bytes : (q.bytes ++ rest).headD 0 = q.identifier := rfl

theorem toNat_lenAt : (lenAt (q.bytes ++ rest)).toNat = q.value.length :=
  UInt8.toNat_ofNat_of_lt' q.length_lt

theorem dataAt_bytes : dataAt (q.bytes ++ rest) = q.value ++ rest := by
  simp [dataAt, Param.bytes]

theorem copied_bytes : copied (q.bytes ++ rest) = q.value := by
  rw [copied, toNat_lenAt, dataAt_bytes, List.takeD_eq_take _ (by simp), List.take_left]

theorem skipped_bytes : skipped (q.bytes ++ rest) = rest := by
  rw [skipped, toNat_lenAt, dataAt_bytes, List.drop_left]

theorem fixed_bytes (hdrLen : UInt8) :
    fixed (q.bytes ++ rest) hdrLen = some rest ↔ q.value.length = hdrLen.toNat := by
  have hlen : lenAt (q.bytes ++ rest) = hdrLen ↔ q.value.length = hdrLen.toNat := by
    rw [← UInt8.toNat_inj, toNat_lenAt]
  rw [← hlen]
  constructor
  · intro h
    rw [fixed] at h
    split_ifs at h with hne
    exact not_not.mp hne
  · intro h
    rw [fixed, if_neg (not_not.mpr h), dataAt_bytes, ← h, toNat_lenAt, List.drop_left]

/-- The bytes of a value of known length. -/
theorem getD_value {n k : ℕ} (hlen : q.value.length = n) (hk : k < n) :
    (q.value ++ rest).getD k 0 = q.value.getD k 0 :=
  List.getD_append _ _ _ _ (hlen ▸ hk)

/-- Two bytes of which the high one is missing. -/
theorem low_eq_word_iff (bytes : List UInt8) :
    (bytes.getD 1 0).toUInt16 = word bytes ↔ bytes.getD 0 0 = 0 := by
  rw [word]
  generalize bytes.getD 0 0 = high
  generalize bytes.getD 1 0 = low
  have hhigh := high.toNat_lt
  have hlow := low.toNat_lt
  rw [← UInt16.toNat_inj, ← UInt8.toNat_inj]
  simp [Nat.shiftLeft_eq]
  omega

theorem word_value (hlen : q.value.length = 2) : word (q.value ++ rest) = word q.value := by
  rw [word, word, getD_value q rest hlen (by decide), getD_value q rest hlen (by decide)]

theorem teleServiceId_value (codec : Codec) (hlen : q.value.length = 2) :
    teleServiceId codec (q.value ++ rest) = word q.value ↔
      (codec = .sdk → q.value.getD 0 0 = 0) := by
  cases codec with
  | sdk =>
      rw [teleServiceId, getD_value q rest hlen (by decide), low_eq_word_iff]
      exact ⟨fun h _ => h, fun h => h rfl⟩
  | ril =>
      rw [teleServiceId, word_value q rest hlen]
      exact ⟨fun _ h => absurd h (by decide), fun _ => rfl⟩

theorem splitStep_bytes (codec : Codec) (p : SplitParams) :
    splitStep codec (q.bytes ++ rest) p = (p.put codec q, some rest) ↔ SplitOk codec q := by
  simp only [splitStep, SplitParams.put, SplitOk, headD_bytes, dataAt_bytes, copied_bytes,
    skipped_bytes]
  by_cases htele : q.identifier = teleserviceIdentifier
  · rw [if_pos htele, if_pos htele, if_pos htele, Prod.mk.injEq, fixed_bytes, and_comm]
    apply and_congr_right
    intro hlen
    rw [← teleServiceId_value q rest codec hlen]
    simp
  rw [if_neg htele, if_neg htele, if_neg htele]
  by_cases hreply : q.identifier = bearerReplyIdentifier
  · rw [if_pos hreply, if_pos hreply, if_pos hreply, Prod.mk.injEq, fixed_bytes, and_comm]
    apply and_iff_left_of_imp
    intro hlen
    rw [getD_value q rest hlen (by decide)]
  rw [if_neg hreply, if_neg hreply, if_neg hreply]
  by_cases hservice : q.identifier = serviceCategoryIdenifier
  · have horig : q.identifier ≠ origaddrIdentifier := by rw [hservice]; decide
    have hdest : q.identifier ≠ destaddrIdentifier := by rw [hservice]; decide
    have hbearer : q.identifier ≠ bearerDataIdentifier := by rw [hservice]; decide
    rw [if_neg horig, if_neg hdest, if_neg hbearer, if_neg horig, if_neg hdest, if_neg hbearer,
      if_pos hservice, if_pos hservice]
    cases codec with
    | sdk => simp
    | ril =>
        rw [if_pos ⟨hservice, rfl⟩, Prod.mk.injEq, fixed_bytes, and_comm]
        constructor
        · rintro ⟨hlen, -⟩ -
          exact hlen
        · intro h
          have hlen := h rfl
          refine ⟨hlen, ?_⟩
          rw [word_value q rest hlen]
  · have hput : ¬ (q.identifier = serviceCategoryIdenifier ∧ codec = .ril) :=
      fun h => hservice h.1
    rw [if_neg hservice, if_neg hservice, if_neg hput]
    split_ifs with horig hdest hbearer hsub
    · simp [horig]
    · simp [hdest]
    · simp [hbearer]
    · simp [hsub]
    · simp [horig, hdest, hbearer, hsub]

/-- The message identifier is put together as it lies in the bytes. -/
theorem msgIdOf_eq (bytes : List UInt8) :
    msgIdOf (bytes.getD 0 0) (bytes.getD 1 0) (bytes.getD 2 0) = msgIdField bytes := by
  rw [msgIdField]
  generalize bytes.getD 0 0 = b1
  generalize bytes.getD 1 0 = b2
  generalize bytes.getD 2 0 = b3
  have h1 := b1.toNat_lt
  have h2 := b2.toNat_lt
  have h3 := b3.toNat_lt
  have hlow : ∀ n : ℕ, n &&& 15 = n % 16 := fun n => Nat.and_two_pow_sub_one_eq_mod n 4
  have hhigh : ∀ n : ℕ, n < 256 → (n &&& 240) >>> 4 = n / 16 := by decide +kernel
  rw [← UInt16.toNat_inj]
  simp [msgIdOf, hlow, hhigh, h2, h3, Nat.shiftLeft_eq]
  omega

theorem bearerStep_bytes (p : BearerParams) :
    bearerStep (q.bytes ++ rest) p = (p.put q, some rest) ↔ BearerOk q := by
  simp only [bearerStep, BearerParams.put, BearerOk, headD_bytes, dataAt_bytes, copied_bytes,
    skipped_bytes]
  by_cases hid : q.identifier = msgSubIdentifierId
  · rw [if_pos hid, if_pos hid, if_pos hid, Prod.mk.injEq, and_comm]
    constructor
    · rintro ⟨hnext, -⟩
      by_cases hknown : MsgTypeKnown ((q.value ++ rest).getD 0 0)
      · rw [if_pos hknown] at hnext
        have hlen := (fixed_bytes q rest _).mp hnext
        rw [getD_value q rest hlen (by decide)] at hknown
        exact ⟨hlen, hknown⟩
      · rw [if_neg hknown] at hnext
        exact absurd hnext.symm (Option.some_ne_none rest)
    · rintro ⟨hlen, hknown⟩
      have hknown' : MsgTypeKnown ((q.value ++ rest).getD 0 0) := by
        rwa [getD_value q rest hlen (by decide)]
      rw [if_pos hknown', getD_value q rest hlen (by decide), getD_value q rest hlen (by decide),
        getD_value q rest hlen (by decide), msgIdOf_eq]
      exact ⟨(fixed_bytes q rest _).mpr hlen, rfl⟩
  rw [if_neg hid, if_neg hid, if_neg hid]
  by_cases hpriority : q.identifier = prioriySubIdentifier
  · rw [if_pos hpriority, if_pos hpriority, if_pos hpriority, Prod.mk.injEq, fixed_bytes,
      and_comm]
    apply and_iff_left_of_imp
    intro hlen
    rw [getD_value q rest hlen (by decide)]
  rw [if_neg hpriority, if_neg hpriority, if_neg hpriority]
  by_cases hstamp : q.identifier = msgTimestampSubIndetifier
  · have huser : q.identifier ≠ userDataSubIdentifier := by rw [hstamp]; decide
    rw [if_neg huser, if_neg huser, if_pos hstamp, if_pos hstamp, if_pos hstamp,
      Prod.mk.injEq, fixed_bytes, and_comm]
    apply and_iff_left_of_imp
    intro hlen
    simp only [getD_value q rest hlen (show 0 < 6 by decide),
      getD_value q rest hlen (show 1 < 6 by decide), getD_value q rest hlen (show 2 < 6 by decide),
      getD_value q rest hlen (show 3 < 6 by decide), getD_value q rest hlen (show 4 < 6 by decide),
      getD_value q rest hlen (show 5 < 6 by decide)]
  rw [if_neg hstamp, if_neg hstamp, if_neg hstamp]
  by_cases hlanguage : q.identifier = languageIndicatorSubIndetifier
  · have huser : q.identifier ≠ userDataSubIdentifier := by rw [hlanguage]; decide
    have hcallback : q.identifier ≠ callbackNumSubIdentifier := by rw [hlanguage]; decide
    rw [if_neg huser, if_neg huser, if_pos hlanguage, if_pos hlanguage, if_neg hcallback,
      Prod.mk.injEq, fixed_bytes]
    exact and_iff_right rfl
  rw [if_neg hlanguage, if_neg hlanguage]
  split_ifs with huser hcallback hunread hskipped
  · simp [huser]
  · simp [hcallback]
  · -- the walk goes on at the length, one byte behind the identifier
    have hlong : some ((q.bytes ++ rest).drop 1) ≠ some rest := by
      intro h
      have hlen := congrArg List.length (Option.some.inj h)
      simp [Param.bytes] at hlen
      omega
    have hnot : q.identifier ∉
        userDataSubIdentifier :: callbackNumSubIdentifier :: skippedSubIdentifiers := by
      rcases hunread with h | h <;> rw [h] <;> decide
    exact ⟨fun h => absurd (Prod.mk.inj h).2 hlong, fun h => absurd h hnot⟩
  · simp [hskipped]
  · simp [huser, hcallback, hskipped]

end Steps

section Walks

theorem visits_split_iff (codec : Codec) (params : List Param) (p : SplitParams) :
    visits (splitWalker codec) (params.flatMap Param.bytes) p =
        inOrder Param.bytes (SplitParams.put codec) params p ↔
      ∀ q ∈ params, SplitOk codec q := by
  have hstep : ∀ (q : Param) (rest : List UInt8) (p : SplitParams),
      (splitWalker codec).step (q.bytes ++ rest) p = (p.put codec q, some rest) ↔
        SplitOk codec q := fun q rest p => splitStep_bytes q rest codec p
  exact visits_eq_inOrder_iff bytes_ne_nil hstep params p

theorem visits_bearer_iff (subs : List Param) (b : BearerParams) :
    visits bearerWalker (subs.flatMap Param.bytes) b =
        inOrder Param.bytes BearerParams.put subs b ↔
      ∀ q ∈ subs, BearerOk q := by
  have hstep : ∀ (q : Param) (rest : List UInt8) (b : BearerParams),
      bearerWalker.step (q.bytes ++ rest) b = (b.put q, some rest) ↔ BearerOk q :=
    bearerStep_bytes
  exact visits_eq_inOrder_iff bytes_ne_nil hstep subs b

/-- A walk over parameters that are all taken as a whole. -/
theorem run_split {codec : Codec} {params : List Param} (hok : ∀ q ∈ params, SplitOk codec q)
    (p : SplitParams) :
    run (splitWalker codec) (params.flatMap Param.bytes) p =
      (putAll (SplitParams.put codec) params p, true) := by
  rw [run, (visits_split_iff codec params p).mpr hok, ended_inOrder]

theorem splitParamMTSms_cdmaMessage (codec : Codec) (params : List Param) (p : SplitParams) :
    SplitParamMTSms codec (cdmaMessage params) p =
      rcOf (run (splitWalker codec) (params.flatMap Param.bytes) p.cleared) :=
  if_neg (not_not.mpr rfl)

theorem run_bearer {subs : List Param} (hok : ∀ q ∈ subs, BearerOk q) (b : BearerParams) :
    run bearerWalker (subs.flatMap Param.bytes) b = (putAll BearerParams.put subs b, true) := by
  rw [run, (visits_bearer_iff subs b).mpr hok, ended_inOrder]

end Walks

/-- The bearer data of a message. -/
def bearerDataOf (params : List Param) (p : SplitParams) : Option (List UInt8) :=
  (putAll (SplitParams.put .sdk) params p.cleared).bearerDataBuf

/-- The SDK walks over the parameters of a message, and over the subparameters of its bearer
data, one by one, and finds what they say. -/
structure Walked (params : List Param) (p : SplitParams) (b : BearerParams) : Prop where
  visited : visits (splitWalker .sdk) (params.flatMap Param.bytes) p.cleared =
    inOrder Param.bytes (SplitParams.put .sdk) params p.cleared
  split : SplitParamMTSms .sdk (cdmaMessage params) p =
    (putAll (SplitParams.put .sdk) params p.cleared, .none)
  visitedBearer : ∀ subs : List Param, bearerDataOf params p = some (subs.flatMap Param.bytes) →
    visits bearerWalker (subs.flatMap Param.bytes) b =
      inOrder Param.bytes BearerParams.put subs b
  decoded : ∀ subs : List Param, bearerDataOf params p = some (subs.flatMap Param.bytes) →
    DecodeBearerData (subs.flatMap Param.bytes) b = (putAll BearerParams.put subs b, .none)

/-- The walks find what a message says exactly if they take each of its parameters, and each
subparameter of its bearer data, as a whole. -/
theorem walked_iff (params : List Param) (p : SplitParams) (b : BearerParams) :
    Walked params p b ↔
      (∀ q ∈ params, SplitOk .sdk q) ∧
        ∀ subs : List Param, bearerDataOf params p = some (subs.flatMap Param.bytes) →
          ∀ q ∈ subs, BearerOk q := by
  constructor
  · intro h
    refine ⟨(visits_split_iff .sdk params p.cleared).mp h.visited, fun subs hsubs => ?_⟩
    exact (visits_bearer_iff subs b).mp (h.visitedBearer subs hsubs)
  · rintro ⟨hok, hoks⟩
    refine ⟨(visits_split_iff .sdk params p.cleared).mpr hok, ?_, ?_, ?_⟩
    · rw [splitParamMTSms_cdmaMessage, run_split hok]
      rfl
    · intro subs hsubs
      exact (visits_bearer_iff subs b).mpr (hoks subs hsubs)
    · intro subs hsubs
      exact congrArg rcOf (run_bearer (hoks subs hsubs) b)

/-- The values before a message is split, as `DecodeCompleteMTSms` has them. -/
def SplitParams.start : SplitParams where
  teleServiceIdValue := 0
  serviceCatagory := 0
  origAddrBuf := none
  destAddrBuf := none
  bearerReplySeq := 255
  bearerDataBuf := none

/-- The values before bearer data is decoded; those that are not set there are taken to be
`0`. -/
def BearerParams.start : BearerParams where
  msgId := 0
  yr := 200
  mon := 200
  day := 0
  hr := 0
  min := 0
  sec := 0
  userDataBuf := none
  priority := 200
  callbackBuf := none

/-- A message with the teleservice identifier 4098, and with a user response code before the
priority. -/
def messageWithResponseCode : List Param :=
  [⟨0, [0x10, 0x02], by decide⟩, ⟨8, [2, 1, 7, 8, 1, 64], by decide⟩]

theorem not_walked_messageWithResponseCode :
    SplitParamMTSms .sdk (cdmaMessage messageWithResponseCode) .start =
        ({ SplitParams.start with
            teleServiceIdValue := 2
            bearerDataBuf := some [2, 1, 7, 8, 1, 64] }, .none) ∧
      DecodeBearerData [2, 1, 7, 8, 1, 64] .start =
        ({ BearerParams.start with userDataBuf := some [8, 1, 64, 0, 0, 0, 0] }, .none) ∧
      ¬ Walked messageWithResponseCode .start .start := by
  have hsplit : SplitParamMTSms .sdk (cdmaMessage messageWithResponseCode) .start =
      ({ SplitParams.start with
          teleServiceIdValue := 2
          bearerDataBuf := some [2, 1, 7, 8, 1, 64] }, .none) := by decide +kernel
  refine ⟨hsplit, by decide +kernel, fun h => ?_⟩
  have hput : (putAll (SplitParams.put .sdk) messageWithResponseCode
      SplitParams.start.cleared).teleServiceIdValue = 4098 := by decide +kernel
  have hid := congrArg (fun r => r.1.teleServiceIdValue) (hsplit.symm.trans h.split)
  exact absurd (hid.trans hput) (by decide)

end Sms

end SierraSdk
