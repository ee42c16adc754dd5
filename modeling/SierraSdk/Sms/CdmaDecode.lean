import SierraSdk.Sms.CdmaRetrieve

/-!
# What the caller gets of a CDMA message

`SwiCDMADecodeMTTextMsg` has a message decoded into a structure on its stack, and copies from
there what its caller asks for. Neither the structure nor all variables of the decoder are set
before. The mask of the structure says which fields are; the message identifier has no bit there,
and the one for the callback number is set although the number is not decoded.

`FunctionOfMessage` says that the results are a function of the message and the arguments, whatever
the memory held before, and that the result for a parameter that is not there says so.
`LeavesNothingUnset` says for which inputs this is so (`functionOfMessage_iff`).
-/

namespace SierraSdk

namespace Sms

open Memory Walk

/-- The codes that are returned. -/
inductive DecodeRc where
  | none
  | general
  | invalidArg
  | bufferSize
  deriving DecidableEq

/-- What the memory of the decoder holds before: the structure, with the fields that are never
written, the variables that are not set, and the stack behind the digits of a number. -/
structure Unset where
  sms : RetrieveSms
  callBackLen : UInt8
  szCallBack : ℕ → UInt8
  ePrivacy : UInt8
  eLanguage : UInt8
  abVal : List UInt8
  relValTime : UInt8
  deliveryAlert : UInt8
  msgId : UInt16
  day : UInt8
  hr : UInt8
  min : UInt8
  sec : UInt8
  stack : ℕ → UInt8

/-- The variables for the bearer data. -/
def Unset.vars (u : Unset) : BearerParams :=
  { BearerParams.start with msgId := u.msgId, day := u.day, hr := u.hr, min := u.min, sec := u.sec }

/-- Which results the caller asks for; for those in a buffer, its size. -/
structure DecodeArgs where
  pMessageID : Bool
  pSenderAddrLength : Option UInt8
  pCallbkAddrLength : Option UInt8
  pTextMsgLength : Option UInt8
  pPriority : Bool
  pPrivacy : Bool
  pLanguage : Bool
  mcTimeStamp : Bool
  absoluteValidity : Bool
  pRelativeValidity : Bool
  pDisplayMode : Bool
  pUserAcknowledgementReq : Bool
  pReadAcknowledgementReq : Bool
  pAlertPriority : Bool

/-- What is written for the caller. -/
inductive Result where
  | messageID (id : UInt16)
  | senderAddr (length : UInt8) (bytes : List UInt8)
  | senderAddrLength (length : UInt8)
  | callbkAddr (length : UInt8) (bytes : List UInt8)
  | callbkAddrLength (length : UInt8)
  | textMsg (length : UInt8) (bytes : List UInt8)
  | textMsgLength (length : UInt8)
  | priority (value : UInt8)
  | privacy (value : UInt8)
  | language (value : UInt8)
  | mcTimeStamp (bytes : List UInt8)
  | absoluteValidity (bytes : List UInt8)
  | relativeValidity (value : UInt8)
  | displayMode (value : UInt8)
  | userAcknowledgementReq (value : Bool)
  | readAcknowledgementReq (value : Bool)
  | alertPriority (value : UInt8)
  deriving DecidableEq

/-- The other bits of `QCWWAN_TYPE_SMS_ParamMask` that are looked at. -/
def paramaskValidAbs : UInt32 := 0x2
def paramaskValidRel : UInt32 := 0x4
def paramaskPrivacy : UInt32 := 0x400
def paramaskLanguage : UInt32 := 0x4000
def paramaskDispMode : UInt32 := 0x20000

/-- `BCD_DECODE` -/
def bcdDecode (x : UInt8) : UInt8 := (x >>> 4) * 10 + (x &&& 0x0f)

/-- `QCWWAN_TYPE_SMS_MsgDispMode` as a byte. -/
def MsgDispMode.code (mode : MsgDispMode) : UInt8 :=
  match mode with
  | .immediate => 0
  | .default => 1
  | .userInvoke => 2

/-- Whether a bit of the mask is set. -/
def RetrieveSms.has (pSms : RetrieveSms) (bit : UInt32) : Bool :=
  pSms.sHeader.eParamMask &&& bit ≠ 0

/-- The bytes of a buffer of a given size that was cleared before a string was copied to it. -/
def clearedBuffer (size : ℕ) (bytes : List UInt8) : List UInt8 :=
  bytes ++ List.replicate (size - bytes.length) 0

/-- Results, and whether the function goes on after them. -/
abbrev Results := List Result × Bool

/-- The second results come after the first, if the function goes on. -/
def Results.andThen (r r' : Results) : Results := if r.2 then (r.1 ++ r'.1, r'.2) else r

/-- A result that is asked for. -/
def wanted (asked : Bool) (r : Result) : List Result := if asked then [r] else []

/-- The number of the sender. -/
def senderResults (pSms : RetrieveSms) : Option UInt8 → Results
  | none => ([], true)
  | some size =>
      if pSms.has paramaskAddress then
        let addrLen := pSms.sHeader.addrLen
        if size < addrLen then ([.senderAddrLength (addrLen + 1)], false)
        else
          ([.senderAddr (addrLen + 1)
            (clearedBuffer size.toNat (strncpy pSms.number addrLen.toNat))], true)
      else ([.senderAddr 0 [0]], true)

/-- The callback number; in the build for Android it is given as empty. -/
def callbkResults (androidRil : Bool) (u : Unset) (pSms : RetrieveSms) : Option UInt8 → Results
  | none => ([], true)
  | some size =>
      if pSms.has paramaskCallBack then
        if size < u.callBackLen then ([.callbkAddrLength (u.callBackLen + 1)], false)
        else if androidRil then ([.callbkAddr 0 [0]], true)
        else
          ([.callbkAddr (u.callBackLen + 1)
            (clearedBuffer size.toNat (load u.szCallBack 0 u.callBackLen.toNat))], true)
      else ([.callbkAddr 0 [0]], true)

/-- The text; the buffer has two bytes for each character. -/
def textResults (pSms : RetrieveSms) : Option UInt8 → Results
  | none => ([], true)
  | some size =>
      if pSms.has paramaskUserData then
        if size.toNat < pSms.sizeBuffer then ([.textMsgLength (UInt8.ofNat pSms.sizeBuffer)], false)
        else
          ([.textMsg (UInt8.ofNat pSms.sizeBuffer)
            (clearedBuffer (2 * size.toNat) (strncpy pSms.pMessage pSms.sizeBuffer))], true)
      else ([.textMsg 0 [0, 0]], true)

/-- The priority for the caller, of what stands in the two high bits of a byte. -/
def callerPriority (ePriority : UInt8) : UInt8 :=
  if ePriority = 64 then 0 else if ePriority = 128 then 1 else if ePriority = 192 then 1 else 0

/-- The results behind the text, where the alert priority has the bit of the display mode. -/
def otherResults (u : Unset) (args : DecodeArgs) (pSms : RetrieveSms) : List Result :=
  let h := pSms.sHeader
  wanted args.pPriority
      (.priority (if pSms.has paramaskPriority then callerPriority h.ePriority else 0xff)) ++
    wanted args.pPrivacy (.privacy (if pSms.has paramaskPrivacy then u.ePrivacy else 0xff)) ++
    wanted args.pLanguage (.language (if pSms.has paramaskLanguage then u.eLanguage else 0xff)) ++
    wanted args.mcTimeStamp (.mcTimeStamp
      (if pSms.has paramaskMcTimeStamp then
        [h.tsYr, h.tsMon, h.tsDay, h.tsHrs, h.tsMin, h.tsSec].map bcdDecode ++ [0]
      else List.replicate 7 0xff)) ++
    wanted args.absoluteValidity (.absoluteValidity
      (if pSms.has paramaskValidAbs then u.abVal.map bcdDecode ++ [0]
      else List.replicate 7 0xff)) ++
    wanted args.pRelativeValidity
      (.relativeValidity (if pSms.has paramaskValidRel then u.relValTime else 0xff)) ++
    wanted args.pDisplayMode
      (.displayMode (if pSms.has paramaskDispMode then h.eMsgDispMode.code else 0xff)) ++
    wanted args.pUserAcknowledgementReq (.userAcknowledgementReq false) ++
    wanted args.pReadAcknowledgementReq (.readAcknowledgementReq false) ++
    wanted args.pAlertPriority
      (.alertPriority (if pSms.has paramaskDispMode then u.deliveryAlert else 0xff))

/-- All results of a message that was decoded. -/
def decodedResults (androidRil : Bool) (u : Unset) (args : DecodeArgs) (pSms : RetrieveSms) :
    Results :=
  Results.andThen (wanted args.pMessageID (.messageID pSms.nSMSId), true)
    (Results.andThen (senderResults pSms args.pSenderAddrLength)
      (Results.andThen (callbkResults androidRil u pSms args.pCallbkAddrLength)
        (Results.andThen (textResults pSms args.pTextMsgLength)
          (otherResults u args pSms, true))))

/-- The code for a result of `DecodeCompleteMTSms`. -/
def decodeRc (ret : Rc) : DecodeRc :=
  match ret with
  | .none => .none
  | .invalidArg | .unexpectedResponse => .invalidArg
  | _ => .general

/-- `SwiCDMADecodeMTTextMsg` -/
def SwiCDMADecodeMTTextMsg (androidRil : Bool) (u : Unset) (args : DecodeArgs)
    (pMessage : List UInt8) : DecodeRc × List Result :=
  match decodeMTSms u.vars u.stack pMessage u.sms with
  | (.none, pSms) =>
      let r := decodedResults androidRil u args pSms
      (if r.2 then .none else .bufferSize, r.1)
  | (ret, _) => (decodeRc ret, [])

/-- What of a message is decoded: its parameters, the digit mode, the number mode and the codes of
its number, and its bearer data. -/
structure Parts where
  params : SplitParams
  digitMode : UInt8
  numMode : UInt8
  codes : List UInt8
  bearer : List UInt8

/-- What the bearer data says, with the values that the variables have before. -/
def Parts.said (q : Parts) (vars : BearerParams) : BearerParams :=
  (DecodeBearerData q.bearer vars).1

/-- The characters of the text. -/
def Parts.text (q : Parts) : List UInt8 :=
  ((q.said .start).userDataBuf.elim [] fun buf => (DecodeUserData buf).2)

/-- The bytes of the number, which have to be the digits. -/
def Parts.number (q : Parts) : List UInt8 :=
  load (SW_AtoT (fun _ => 0) (store (fun _ => 0) 0 (q.codes.map num2Char)) q.codes.length) 0
    (UInt8.ofNat q.codes.length).toNat

/-- A message is decoded to these parts. -/
structure Decodes (pMessage : List UInt8) (q : Parts) : Prop where
  split : SplitParamMTSms .sdk pMessage .start = (q.params, .none)
  address : ∃ pAddrBuf, q.params.origAddrBuf.or q.params.destAddrBuf = some pAddrBuf ∧
    DecodeOriginAddr pAddrBuf = (.none, q.digitMode, q.numMode, q.codes)
  bearerDataBuf : q.params.bearerDataBuf = some q.bearer
  bearerOk : (DecodeBearerData q.bearer .start).2 = .none

/-- A step from one parameter to the next one, over its length. -/
def framing : Walker UInt8 Unit where
  step pMsg s := (s, some (skipped pMsg))
  shorter := fun hne h => Option.some.inj h ▸ length_skipped_lt hne

/-- There is a parameter of an identifier among parameters that follow each other. -/
def Given (identifier : UInt8) (params : List UInt8) : Prop :=
  ∃ v ∈ visits framing params (), v.1.headD 0 = identifier

/-- The loop of `DecodeBearerData` comes to a subparameter of an identifier. -/
def Seen (identifier : UInt8) (bearer : List UInt8) : Prop :=
  ∃ v ∈ visits bearerWalker bearer .start, v.1.headD 0 = identifier

/-- The parameter that a result is about is in the message. -/
def Result.Given (pMessage bearer : List UInt8) : Result → Prop
  | .senderAddr .. | .senderAddrLength _ =>
      Sms.Given origaddrIdentifier pMessage.tail ∨ Sms.Given destaddrIdentifier pMessage.tail
  | .messageID _ => Sms.Given msgSubIdentifierId bearer
  | .callbkAddr .. | .callbkAddrLength _ => Sms.Given callbackNumSubIdentifier bearer
  | .textMsg .. | .textMsgLength _ => Sms.Given userDataSubIdentifier bearer
  | .priority _ => Sms.Given prioriySubIdentifier bearer
  | .privacy _ => Sms.Given privacySubIdentifier bearer
  | .language _ => Sms.Given languageIndicatorSubIndetifier bearer
  | .mcTimeStamp _ => Sms.Given msgTimestampSubIndetifier bearer
  | .absoluteValidity _ => Sms.Given absValPeriodSubIdentifier bearer
  | .relativeValidity _ => Sms.Given relValPeriodSubIdentifier bearer
  | .displayMode _ => Sms.Given msgDispModeSubIdentifier bearer
  | .userAcknowledgementReq _ | .readAcknowledgementReq _ =>
      Sms.Given replyOptionSubIdentifier bearer
  | .alertPriority _ => Sms.Given alertMsgDeliverySubIdentifier bearer

/-- A result says that there is no such parameter; there is no such value for the message
identifier. -/
def Result.Absent : Result → Prop
  | .messageID _ | .senderAddrLength _ | .callbkAddrLength _ | .textMsgLength _ => False
  | .senderAddr length _ | .callbkAddr length _ | .textMsg length _ => length = 0
  | .priority value | .privacy value | .language value | .relativeValidity value
  | .displayMode value | .alertPriority value => value = 0xff
  | .mcTimeStamp bytes | .absoluteValidity bytes => bytes = List.replicate 7 0xff
  | .userAcknowledgementReq value | .readAcknowledgementReq value => value = false

/-- The results do not depend on what the memory held before, and the result for a parameter that
is absent says so. -/
def FunctionOfMessage (androidRil : Bool) (args : DecodeArgs) (pMessage : List UInt8) : Prop :=
  (∀ u u', SwiCDMADecodeMTTextMsg androidRil u args pMessage =
    SwiCDMADecodeMTTextMsg androidRil u' args pMessage) ∧
  ∀ q, Decodes pMessage q → ∀ u, ∀ r ∈ (SwiCDMADecodeMTTextMsg androidRil u args pMessage).2,
    r.Given pMessage q.bearer ∨ r.Absent

/-- The buffer for the number of the sender is not asked for, or has room for it. -/
def SenderBufferFits (args : DecodeArgs) (q : Parts) : Prop :=
  ∀ size, args.pSenderAddrLength = some size → UInt8.ofNat q.codes.length ≤ size

/-- The buffer for the text is not asked for, or has room for it. -/
def TextBufferFits (args : DecodeArgs) (q : Parts) : Prop :=
  ∀ size, args.pTextMsgLength = some size → q.text.length ≤ size.toNat

/-- What the caller asks for is in the message where the loop of `DecodeBearerData` finds it, the
message identifier always, and a callback number is not asked for, or only its absence is
reported, in the build for Android and into a buffer of the greatest size. -/
structure LeavesNothingUnset (androidRil : Bool) (args : DecodeArgs) (q : Parts) : Prop where
  messageID : args.pMessageID →
    Seen msgSubIdentifierId q.bearer ∧ Given msgSubIdentifierId q.bearer
  callbk : SenderBufferFits args q → (q.said .start).callbackBuf.isSome →
    ∀ size, args.pCallbkAddrLength = some size → androidRil ∧ size = 255
  text : SenderBufferFits args q → args.pTextMsgLength.isSome → q.text ≠ [] →
    Given userDataSubIdentifier q.bearer
  priority : SenderBufferFits args q → TextBufferFits args q → args.pPriority →
    (q.said .start).priority ≠ 200 → Given prioriySubIdentifier q.bearer
  mcTimeStamp : SenderBufferFits args q → TextBufferFits args q → args.mcTimeStamp →
    (q.said .start).yr ≠ 200 ∧ (q.said .start).mon ≠ 200 →
      Given msgTimestampSubIndetifier q.bearer

section Walks

/-- Where the loop goes on does not depend on what it has found. -/
theorem bearerStep_next (pMsg : List UInt8) (s t : BearerParams) :
    (bearerWalker.step pMsg s).2 = (bearerWalker.step pMsg t).2 := by
  change (bearerStep pMsg s).2 = (bearerStep pMsg t).2
  simp only [bearerStep]
  split_ifs
  all_goals rfl

/-- Two walks have found the same, except for a message identifier and, until there is one, a time
stamp. -/
structure SameFound (s t : BearerParams) : Prop where
  yr : s.yr = t.yr
  mon : s.mon = t.mon
  rest : s.yr = 200 ∧ s.mon = 200 ∨ s.day = t.day ∧ s.hr = t.hr ∧ s.min = t.min ∧ s.sec = t.sec
  userDataBuf : s.userDataBuf = t.userDataBuf
  priority : s.priority = t.priority
  callbackBuf : s.callbackBuf = t.callbackBuf

theorem sameFound_step (pMsg : List UInt8) {s t : BearerParams} (h : SameFound s t) :
    SameFound (bearerWalker.step pMsg s).1 (bearerWalker.step pMsg t).1 := by
  change SameFound (bearerStep pMsg s).1 (bearerStep pMsg t).1
  simp only [bearerStep]
  split_ifs
  · exact ⟨h.yr, h.mon, h.rest, h.userDataBuf, h.priority, h.callbackBuf⟩
  · exact ⟨h.yr, h.mon, h.rest, h.userDataBuf, h.priority, h.callbackBuf⟩
  · exact ⟨h.yr, h.mon, h.rest, h.userDataBuf, rfl, h.callbackBuf⟩
  · exact ⟨h.yr, h.mon, h.rest, rfl, h.priority, h.callbackBuf⟩
  · exact ⟨rfl, rfl, .inr ⟨rfl, rfl, rfl, rfl⟩, h.userDataBuf, h.priority, h.callbackBuf⟩
  · exact h
  · exact ⟨h.yr, h.mon, h.rest, h.userDataBuf, h.priority, rfl⟩
  · exact h
  · exact h
  · exact h

theorem run_bearerWalker (bearer : List UInt8) {s t : BearerParams} (h : SameFound s t) :
    SameFound (run bearerWalker bearer s).1 (run bearerWalker bearer t).1 ∧
      (run bearerWalker bearer s).2 = (run bearerWalker bearer t).2 :=
  run_related (fun pMsg s t h => ⟨sameFound_step pMsg h, bearerStep_next pMsg s t⟩) h

variable (q : Parts) (u u' : Unset)

theorem sameFound_vars : SameFound u.vars .start :=
  ⟨rfl, rfl, .inl ⟨rfl, rfl⟩, rfl, rfl, rfl⟩

theorem sameFound_said : SameFound (q.said u.vars) (q.said .start) :=
  (run_bearerWalker q.bearer (sameFound_vars u)).1

theorem decodeBearerData_rc (bearer : List UInt8) :
    (DecodeBearerData bearer u.vars).2 = (DecodeBearerData bearer .start).2 :=
  congrArg (fun ok => if ok then Rc.none else Rc.failed)
    (run_bearerWalker bearer (sameFound_vars u)).2

/-- Only the subparameter for the message identifier sets the message identifier. -/
theorem bearerStep_msgId {pMsg : List UInt8} (h : pMsg.headD 0 ≠ msgSubIdentifierId)
    (s : BearerParams) : (bearerWalker.step pMsg s).1.msgId = s.msgId := by
  change (bearerStep pMsg s).1.msgId = s.msgId
  simp only [bearerStep, if_neg h]
  split_ifs
  all_goals rfl

/-- Without one, the message identifier is what it was before. -/
theorem msgId_said_of_not_seen (h : ¬ Seen msgSubIdentifierId q.bearer) :
    (q.said u.vars).msgId = u.msgId := by
  have hcells := map_fst_visits bearerStep_next q.bearer u.vars .start
  refine run_keeps (f := BearerParams.msgId) (p := fun pMsg => pMsg.headD 0 = msgSubIdentifierId)
    (fun pMsg s hid => bearerStep_msgId hid s) fun v hv hid => h ?_
  have hmem : v.1 ∈ (visits bearerWalker q.bearer .start).map Prod.fst :=
    hcells ▸ List.mem_map_of_mem hv
  obtain ⟨w, hw, hcell⟩ := List.mem_map.mp hmem
  exact ⟨w, hw, hcell ▸ hid⟩

/-- With one, it is the one of the message. -/
theorem msgId_said_of_seen (h : Seen msgSubIdentifierId q.bearer) :
    (q.said u.vars).msgId = (q.said .start).msgId := by
  refine (run_sets (f := BearerParams.msgId) (p := fun pMsg => pMsg.headD 0 = msgSubIdentifierId)
    bearerStep_next (fun pMsg s hid => bearerStep_msgId hid s) ?_ h u.vars).symm
  intro pMsg s t hid
  change (bearerStep pMsg s).1.msgId = (bearerStep pMsg t).1.msgId
  simp only [bearerStep, if_pos hid]

/-- The loop of `SplitParamMTSms` goes over the lengths. -/
theorem splitStep_next {pMsg ys : List UInt8} {p : SplitParams}
    (h : ((splitWalker .sdk).step pMsg p).2 = some ys) : some (skipped pMsg) = some ys := by
  have hfixed : ∀ hdrLen, fixed pMsg hdrLen = some ys → some (skipped pMsg) = some ys := by
    intro hdrLen hys
    rw [fixed] at hys
    split_ifs at hys with hlen
    rw [← hys, skipped, not_not.mp hlen]
  change (splitStep .sdk pMsg p).2 = some ys at h
  simp only [splitStep] at h
  split_ifs at h
  · exact hfixed _ h
  · exact hfixed _ h
  · exact h
  · exact h
  · exact h
  · exact h
  · exact h

/-- The addresses are set by the parameters for them only. -/
theorem splitStep_address {pMsg : List UInt8} (p : SplitParams)
    (h : ¬ (pMsg.headD 0 = origaddrIdentifier ∨ pMsg.headD 0 = destaddrIdentifier)) :
    (((splitWalker .sdk).step pMsg p).1.origAddrBuf.or
      ((splitWalker .sdk).step pMsg p).1.destAddrBuf) = p.origAddrBuf.or p.destAddrBuf := by
  change ((splitStep .sdk pMsg p).1.origAddrBuf.or (splitStep .sdk pMsg p).1.destAddrBuf) = _
  rw [not_or] at h
  simp only [splitStep, if_neg h.1, if_neg h.2]
  split_ifs
  all_goals rfl

end Walks

section Decoded

variable {pMessage : List UInt8} {q : Parts}

/-- A message that is decoded has a number. -/
theorem given_of_decodes (h : Decodes pMessage q) :
    Given origaddrIdentifier pMessage.tail ∨ Given destaddrIdentifier pMessage.tail := by
  obtain ⟨pAddrBuf, haddress, -⟩ := h.address
  have hsplit := h.split
  rw [SplitParamMTSms] at hsplit
  split_ifs at hsplit with htype
  · exact nomatch congrArg Prod.snd hsplit
  have hparams : (run (splitWalker .sdk) pMessage.tail SplitParams.start.cleared).1 = q.params :=
    (Prod.mk.inj hsplit).1
  by_contra hnone
  have hunseen : ∀ v ∈ visits (splitWalker .sdk) pMessage.tail SplitParams.start.cleared,
      ¬ (v.1.headD 0 = origaddrIdentifier ∨ v.1.headD 0 = destaddrIdentifier) := by
    intro v hv hid
    obtain ⟨w, hw, hcell⟩ := visited_of_visited (V := framing)
      (fun pMsg ys p _ hgo => splitStep_next hgo) _ _ () v hv
    rw [← hcell] at hid
    exact hnone (hid.imp (fun hid => ⟨w, hw, hid⟩) fun hid => ⟨w, hw, hid⟩)
  have hkeeps := run_keeps (f := fun p => p.origAddrBuf.or p.destAddrBuf)
    (p := fun pMsg => pMsg.headD 0 = origaddrIdentifier ∨ pMsg.headD 0 = destaddrIdentifier)
    (fun pMsg p hid => splitStep_address p hid) hunseen
  rw [hparams, haddress] at hkeeps
  exact absurd hkeeps (Option.some_ne_none _)

/-- The header once the number of a message is decoded. -/
def Parts.header (q : Parts) (stack : ℕ → UInt8) (h : CdmaHeader) : CdmaHeader :=
  { h with
    addrLen := UInt8.ofNat q.codes.length
    szAddress :=
      SW_AtoT h.szAddress (store stack 0 (q.codes.map num2Char)) q.codes.length
    eParamMask := h.eParamMask ||| paramaskAddress
    addrDigitMode := q.digitMode
    addrNumMode := q.numMode
    addrNumType := 0
    addrNumPlan := 0 }

/-- The structure once a message is decoded. -/
def Parts.retrieved (q : Parts) (u : Unset) : RetrieveSms :=
  ((({ u.sms with
        sHeader := q.header u.stack (u.sms.sHeader.begin q.params.bearerReplySeq) }).putBearer
      (q.said u.vars)).putUserData (q.said u.vars).userDataBuf).putCallback
        (q.said u.vars).callbackBuf

theorem decodeMTSms_of_decodes (h : Decodes pMessage q) (u : Unset) :
    decodeMTSms u.vars u.stack pMessage u.sms = (.none, q.retrieved u) := by
  obtain ⟨pAddrBuf, haddress, hcodes⟩ := h.address
  have hrc : (DecodeBearerData q.bearer u.vars).2 = .none :=
    (decodeBearerData_rc u q.bearer).trans h.bearerOk
  have hbearer : DecodeBearerData q.bearer u.vars = (q.said u.vars, .none) := Prod.ext rfl hrc
  have hheader : ∀ header : CdmaHeader,
      header.decodeAddress u.stack pAddrBuf = (.none, q.header u.stack header) := by
    intro header
    simp only [CdmaHeader.decodeAddress, hcodes]
    rfl
  simp only [decodeMTSms, h.split, haddress, hheader, h.bearerDataBuf, hbearer]
  rfl

/-- A message that is not decoded to parts is refused, whatever the memory held. -/
theorem decodes_or_refused (pMessage : List UInt8) :
    (∃ q, Decodes pMessage q) ∨
      ∃ rc ≠ Rc.none, ∀ u : Unset, (decodeMTSms u.vars u.stack pMessage u.sms).1 = rc := by
  rcases hsplit : SplitParamMTSms .sdk pMessage .start with ⟨params, rc⟩
  by_cases hrc : rc = .none
  · subst hrc
    cases haddress : params.origAddrBuf.or params.destAddrBuf with
    | none =>
        refine .inr ⟨.unexpectedResponse, by decide, fun u => ?_⟩
        simp only [decodeMTSms, hsplit, haddress]
    | some pAddrBuf =>
        rcases hcodes : DecodeOriginAddr pAddrBuf with ⟨rc, digitMode, numMode, codes⟩
        by_cases hrc : rc = .none
        · subst hrc
          cases hbearer : params.bearerDataBuf with
          | none =>
              refine .inr ⟨.bearerDataNotFound, by decide, fun u => ?_⟩
              simp only [decodeMTSms, CdmaHeader.decodeAddress, hsplit, haddress, hcodes, hbearer]
          | some bearer =>
              by_cases hok : (DecodeBearerData bearer .start).2 = .none
              · exact .inl ⟨⟨params, digitMode, numMode, codes, bearer⟩,
                  ⟨hsplit, ⟨pAddrBuf, haddress, hcodes⟩, hbearer, hok⟩⟩
              · refine .inr ⟨(DecodeBearerData bearer .start).2, hok, fun u => ?_⟩
                rw [← decodeBearerData_rc u bearer] at hok ⊢
                simp only [decodeMTSms, CdmaHeader.decodeAddress, hsplit, haddress, hcodes,
                  hbearer]
        · refine .inr ⟨rc, hrc, fun u => ?_⟩
          simp only [decodeMTSms, CdmaHeader.decodeAddress, hsplit, haddress, hcodes]
  · refine .inr ⟨rc, hrc, fun u => ?_⟩
    simp only [decodeMTSms, hsplit]

/-- The bits that are set, by what is found. -/
def maskOf (bearerReply mcTimeStamp priority userData callBack : Bool) : UInt32 :=
  ((((0 ||| if bearerReply then paramaskBearerReply else 0) ||| paramaskAddress) |||
      ((if mcTimeStamp then paramaskMcTimeStamp else 0) |||
        (if priority then paramaskPriority else 0) |||
          if userData then paramaskUserData else 0)) |||
    if callBack then paramaskCallBack else 0)

/-- Each bit of the mask says whether the field was found; some are never set. -/
theorem maskOf_bits (r t p x c : Bool) :
    (maskOf r t p x c &&& paramaskAddress ≠ 0) ∧
      (maskOf r t p x c &&& paramaskMcTimeStamp ≠ 0 ↔ t) ∧
      (maskOf r t p x c &&& paramaskPriority ≠ 0 ↔ p) ∧
      (maskOf r t p x c &&& paramaskUserData ≠ 0 ↔ x) ∧
      (maskOf r t p x c &&& paramaskCallBack ≠ 0 ↔ c) ∧
      ∀ bit ∈ [paramaskValidAbs, paramaskValidRel, paramaskPrivacy, paramaskLanguage,
        paramaskDispMode], maskOf r t p x c &&& bit = 0 := by
  simp only [List.forall_mem_cons, List.not_mem_nil, false_implies, implies_true, and_true]
  cases r <;> cases t <;> cases p <;> cases x <;> cases c <;> decide

/-- The fields of the structure, as the variables for the bearer data have them. -/
structure Filled (q : Parts) (u : Unset) (b : BearerParams) (pSms : RetrieveSms) : Prop where
  nSMSId : pSms.nSMSId = b.msgId
  eParamMask : pSms.sHeader.eParamMask =
    maskOf (q.params.bearerReplySeq ≠ 255) (b.yr ≠ 200 ∧ b.mon ≠ 200) (b.priority ≠ 200)
      b.userDataBuf.isSome b.callbackBuf.isSome
  addrLen : pSms.sHeader.addrLen = UInt8.ofNat q.codes.length
  szAddress : pSms.sHeader.szAddress = SW_AtoT u.sms.sHeader.szAddress
    (store u.stack 0 (q.codes.map num2Char)) q.codes.length
  ePriority : pSms.sHeader.ePriority = b.priority
  tsYr : pSms.sHeader.tsYr = b.yr
  tsMon : pSms.sHeader.tsMon = b.mon
  tsDay : pSms.sHeader.tsDay = b.day
  tsHrs : pSms.sHeader.tsHrs = b.hr
  tsMin : pSms.sHeader.tsMin = b.min
  tsSec : pSms.sHeader.tsSec = b.sec
  text : ∀ buf, b.userDataBuf = some buf →
    pSms.pMessage = (DecodeUserData buf).2 ∧ pSms.sizeBuffer = (DecodeUserData buf).2.length

theorem paramMask_retrieved (q : Parts) (u : Unset) (b : BearerParams) :
    (((({ u.sms with
        sHeader := q.header u.stack (u.sms.sHeader.begin q.params.bearerReplySeq) } :
          RetrieveSms).putBearer b).putUserData b.userDataBuf).putCallback
            b.callbackBuf).sHeader.eParamMask =
      maskOf (q.params.bearerReplySeq ≠ 255) (b.yr ≠ 200 ∧ b.mon ≠ 200) (b.priority ≠ 200)
        b.userDataBuf.isSome b.callbackBuf.isSome := by
  obtain ⟨msgId, yr, mon, day, hr, min, sec, userDataBuf, priority, callbackBuf⟩ := b
  cases userDataBuf
  all_goals cases callbackBuf
  all_goals by_cases hreply : q.params.bearerReplySeq = 255
  all_goals
    simp [maskOf, RetrieveSms.putBearer, RetrieveSms.putUserData, RetrieveSms.putCallback,
      BearerParams.paramMask, Parts.header, CdmaHeader.begin, hreply]

theorem szAddress_begin (bearerReplySeq : UInt8) (h : CdmaHeader) :
    (h.begin bearerReplySeq).szAddress = h.szAddress := by
  simp only [CdmaHeader.begin]
  split_ifs
  all_goals rfl

theorem filled_retrieved (q : Parts) (u : Unset) : Filled q u (q.said u.vars) (q.retrieved u) := by
  have hmask := paramMask_retrieved q u (q.said u.vars)
  have haddress := congrArg
    (fun pDest => SW_AtoT pDest (store u.stack 0 (q.codes.map num2Char)) q.codes.length)
    (szAddress_begin q.params.bearerReplySeq u.sms.sHeader)
  unfold Parts.retrieved
  generalize q.said u.vars = b at hmask ⊢
  obtain ⟨msgId, yr, mon, day, hr, min, sec, userDataBuf, priority, callbackBuf⟩ := b
  cases userDataBuf with
  | none =>
      cases callbackBuf
      all_goals exact ⟨rfl, hmask, rfl, haddress, rfl, rfl, rfl, rfl, rfl, rfl, rfl, nofun⟩
  | some buf =>
      have htext : ∀ buf', some buf = some buf' →
          (DecodeUserData buf).2 = (DecodeUserData buf').2 ∧
            (DecodeUserData buf).2.length = (DecodeUserData buf').2.length := by
        rintro _ ⟨⟩
        exact ⟨rfl, rfl⟩
      cases callbackBuf
      all_goals exact ⟨rfl, hmask, rfl, haddress, rfl, rfl, rfl, rfl, rfl, rfl, rfl, htext⟩

theorem load_congr_add {d d' : ℕ → UInt8} {i n : ℕ} (h : ∀ k < n, d (i + k) = d' (i + k)) :
    load d i n = load d' i n :=
  List.map_congr_left fun k hk => h k (List.mem_range.mp hk)

/-- The wide characters from a memory depend on as many of its bytes as are kept. -/
theorem take_wideChars_congr {pSrc pSrc' : ℕ → UInt8} {pos n m : ℕ} (hm : m ≤ 4 * n)
    (h : ∀ k < m, pSrc (pos + k) = pSrc' (pos + k)) :
    (wideChars pSrc pos n).take m = (wideChars pSrc' pos n).take m := by
  induction n generalizing pos m with
  | zero =>
      rw [Nat.le_zero.mp hm, List.take_zero, List.take_zero]
  | succ n ih =>
      have hfirst : ∀ (src : ℕ → UInt8), m ≤ 4 →
          (wideChars src pos (n + 1)).take m = load src pos m := by
        intro src hshort
        rw [wideChars]
        split_ifs with hzero
        · rw [List.take_replicate, Nat.min_eq_left hm, ← take_load src pos hshort, hzero]
          exact (List.take_replicate (i := m) (n := 4) (a := (0 : UInt8))).symm ▸
            (congrArg (fun k => List.replicate k (0 : UInt8)) (Nat.min_eq_left hshort).symm)
        · rw [List.take_append_of_le_length (by rw [length_load]; exact hshort),
            take_load _ _ hshort]
      by_cases hshort : m ≤ 4
      · rw [hfirst pSrc hshort, hfirst pSrc' hshort]
        exact load_congr_add h
      · obtain ⟨k, rfl⟩ := Nat.exists_eq_add_of_le (Nat.le_of_not_le hshort)
        have hload : load pSrc pos 4 = load pSrc' pos 4 :=
          load_congr_add fun j hj => h j (Nat.lt_of_lt_of_le hj (Nat.le_add_right 4 k))
        rw [wideChars, wideChars, hload]
        split_ifs
        · rfl
        · have hrest : ∀ j < k, pSrc (pos + 4 + j) = pSrc' (pos + 4 + j) := by
            intro j hj
            rw [Nat.add_assoc]
            exact h (4 + j) (Nat.add_lt_add_left hj 4)
          rw [List.take_append, List.take_append, length_load, Nat.add_sub_cancel_left,
            ih (by omega) hrest]

/-- The number is made of the digits only. -/
theorem number_of_filled {u : Unset} {b : BearerParams} {pSms : RetrieveSms}
    (h : Filled q u b pSms) : pSms.number = q.number := by
  have hlen : (UInt8.ofNat q.codes.length).toNat ≤ q.codes.length := by
    rw [UInt8.toNat_ofNat']
    exact Nat.mod_le _ _
  have hcells : ∀ (pDest stack : ℕ → UInt8),
      load (SW_AtoT pDest (store stack 0 (q.codes.map num2Char)) q.codes.length) 0
        (UInt8.ofNat q.codes.length).toNat =
      (wideChars (store stack 0 (q.codes.map num2Char)) 0 q.codes.length).take
        (UInt8.ofNat q.codes.length).toNat := by
    intro pDest stack
    have hfits : (UInt8.ofNat q.codes.length).toNat ≤
        (wideChars (store stack 0 (q.codes.map num2Char)) 0 q.codes.length).length := by
      rw [length_wideChars]
      omega
    rw [SW_AtoT, ← take_load _ _ hfits, load_store]
  rw [RetrieveSms.number, h.addrLen, h.szAddress, hcells, Parts.number, hcells]
  refine take_wideChars_congr (by omega) fun k hk => ?_
  have hdigit : k < (q.codes.map num2Char).length := by
    rw [List.length_map]
    exact Nat.lt_of_lt_of_le hk hlen
  rw [store_add hdigit, store_add hdigit]

end Decoded

section Results

/-- The results for the number of the sender, by what is decoded. -/
def Parts.senderResults (q : Parts) : Option UInt8 → Results
  | none => ([], true)
  | some size =>
      let addrLen := UInt8.ofNat q.codes.length
      if size < addrLen then ([.senderAddrLength (addrLen + 1)], false)
      else
        ([.senderAddr (addrLen + 1)
          (clearedBuffer size.toNat (strncpy q.number addrLen.toNat))], true)

/-- The results for the callback number, whose length and characters are never set. -/
def Parts.callbkResults (q : Parts) (androidRil : Bool) (u : Unset) : Option UInt8 → Results
  | none => ([], true)
  | some size =>
      if (q.said .start).callbackBuf.isSome then
        if size < u.callBackLen then ([.callbkAddrLength (u.callBackLen + 1)], false)
        else if androidRil then ([.callbkAddr 0 [0]], true)
        else
          ([.callbkAddr (u.callBackLen + 1)
            (clearedBuffer size.toNat (load u.szCallBack 0 u.callBackLen.toNat))], true)
      else ([.callbkAddr 0 [0]], true)

/-- The results for the text. -/
def Parts.textResults (q : Parts) : Option UInt8 → Results
  | none => ([], true)
  | some size =>
      if (q.said .start).userDataBuf.isSome then
        if size.toNat < q.text.length then ([.textMsgLength (UInt8.ofNat q.text.length)], false)
        else
          ([.textMsg (UInt8.ofNat q.text.length)
            (clearedBuffer (2 * size.toNat) (strncpy q.text q.text.length))], true)
      else ([.textMsg 0 [0, 0]], true)

/-- The results behind the text. -/
def Parts.otherResults (q : Parts) (args : DecodeArgs) : List Result :=
  let b := q.said .start
  wanted args.pPriority
      (.priority (if b.priority ≠ 200 then callerPriority b.priority else 0xff)) ++
    wanted args.pPrivacy (.privacy 0xff) ++
    wanted args.pLanguage (.language 0xff) ++
    wanted args.mcTimeStamp (.mcTimeStamp
      (if b.yr ≠ 200 ∧ b.mon ≠ 200 then
        [b.yr, b.mon, b.day, b.hr, b.min, b.sec].map bcdDecode ++ [0]
      else List.replicate 7 0xff)) ++
    wanted args.absoluteValidity (.absoluteValidity (List.replicate 7 0xff)) ++
    wanted args.pRelativeValidity (.relativeValidity 0xff) ++
    wanted args.pDisplayMode (.displayMode 0xff) ++
    wanted args.pUserAcknowledgementReq (.userAcknowledgementReq false) ++
    wanted args.pReadAcknowledgementReq (.readAcknowledgementReq false) ++
    wanted args.pAlertPriority (.alertPriority 0xff)

/-- All results of a message that is decoded. -/
def Parts.results (q : Parts) (androidRil : Bool) (u : Unset) (args : DecodeArgs) : Results :=
  Results.andThen (wanted args.pMessageID (.messageID (q.said u.vars).msgId), true)
    (Results.andThen (q.senderResults args.pSenderAddrLength)
      (Results.andThen (q.callbkResults androidRil u args.pCallbkAddrLength)
        (Results.andThen (q.textResults args.pTextMsgLength) (q.otherResults args, true))))

variable {pMessage : List UInt8} {q : Parts} {u : Unset} {pSms : RetrieveSms}

/-- The bits of the mask. -/
theorem has_of_filled {b : BearerParams} (h : Filled q u b pSms) :
    pSms.has paramaskAddress = true ∧
      (pSms.has paramaskMcTimeStamp = true ↔ b.yr ≠ 200 ∧ b.mon ≠ 200) ∧
      (pSms.has paramaskPriority = true ↔ b.priority ≠ 200) ∧
      pSms.has paramaskUserData = b.userDataBuf.isSome ∧
      pSms.has paramaskCallBack = b.callbackBuf.isSome ∧
      ∀ bit ∈ [paramaskValidAbs, paramaskValidRel, paramaskPrivacy, paramaskLanguage,
        paramaskDispMode], pSms.has bit = false := by
  obtain ⟨haddress, htime, hpriority, htext, hcallback, hnever⟩ :=
    maskOf_bits (q.params.bearerReplySeq ≠ 255) (b.yr ≠ 200 ∧ b.mon ≠ 200) (b.priority ≠ 200)
      b.userDataBuf.isSome b.callbackBuf.isSome
  rw [← h.eParamMask] at haddress htime hpriority htext hcallback hnever
  simp only [RetrieveSms.has]
  refine ⟨decide_eq_true haddress, ?_, ?_, ?_, ?_, fun bit hbit => ?_⟩
  · rw [decide_eq_true_iff, htime, decide_eq_true_iff]
  · rw [decide_eq_true_iff, hpriority, decide_eq_true_iff]
  · rw [Bool.eq_iff_iff, decide_eq_true_iff, htext]
  · rw [Bool.eq_iff_iff, decide_eq_true_iff, hcallback]
  · exact decide_eq_false (not_not.mpr (hnever bit hbit))

/-- The results are those of the parts. -/
theorem decodedResults_of_filled (h : Filled q u (q.said u.vars) pSms) (androidRil : Bool)
    (args : DecodeArgs) : decodedResults androidRil u args pSms = q.results androidRil u args := by
  obtain ⟨haddress, htime, hpriority, htext, hcallback, hnever⟩ := has_of_filled h
  have hsame := sameFound_said q u
  have hsender : senderResults pSms args.pSenderAddrLength =
      q.senderResults args.pSenderAddrLength := by
    cases args.pSenderAddrLength with
    | none => rfl
    | some size =>
        simp only [senderResults, if_pos haddress, h.addrLen, number_of_filled h]
        rfl
  have hcallbk : callbkResults androidRil u pSms args.pCallbkAddrLength =
      q.callbkResults androidRil u args.pCallbkAddrLength := by
    cases args.pCallbkAddrLength with
    | none => rfl
    | some size =>
        simp only [callbkResults, hcallback, hsame.callbackBuf]
        rfl
  have htextMsg : textResults pSms args.pTextMsgLength = q.textResults args.pTextMsgLength := by
    cases args.pTextMsgLength with
    | none => rfl
    | some size =>
        simp only [textResults, htext, hsame.userDataBuf, Parts.textResults]
        cases huser : (q.said .start).userDataBuf with
        | none => rfl
        | some buf =>
            obtain ⟨hmessage, hsize⟩ := h.text buf (hsame.userDataBuf.trans huser)
            have htext : q.text = (DecodeUserData buf).2 := by
              rw [Parts.text, huser, Option.elim_some]
            rw [hmessage, hsize, htext]
  have hother : otherResults u args pSms = q.otherResults args := by
    have hpriv := hnever paramaskPrivacy (by simp)
    have hlang := hnever paramaskLanguage (by simp)
    have habs := hnever paramaskValidAbs (by simp)
    have hrel := hnever paramaskValidRel (by simp)
    have hdisp := hnever paramaskDispMode (by simp)
    have hstamp :
        (if pSms.has paramaskMcTimeStamp = true then
          [pSms.sHeader.tsYr, pSms.sHeader.tsMon, pSms.sHeader.tsDay, pSms.sHeader.tsHrs,
            pSms.sHeader.tsMin, pSms.sHeader.tsSec].map bcdDecode ++ [0]
        else List.replicate 7 0xff) =
        if (q.said .start).yr ≠ 200 ∧ (q.said .start).mon ≠ 200 then
          [(q.said .start).yr, (q.said .start).mon, (q.said .start).day, (q.said .start).hr,
            (q.said .start).min, (q.said .start).sec].map bcdDecode ++ [0]
        else List.replicate 7 0xff := by
      rw [hsame.yr, hsame.mon] at htime
      by_cases hset : (q.said .start).yr ≠ 200 ∧ (q.said .start).mon ≠ 200
      · rw [if_pos (htime.mpr hset), if_pos hset, h.tsYr, h.tsMon, h.tsDay, h.tsHrs, h.tsMin,
          h.tsSec]
        rcases hsame.rest with ⟨hyr, -⟩ | ⟨hday, hhr, hmin, hsec⟩
        · exact absurd (hsame.yr.symm.trans hyr) hset.1
        · rw [hsame.yr, hsame.mon, hday, hhr, hmin, hsec]
      · rw [if_neg fun hbit => hset (htime.mp hbit), if_neg hset]
    simp only [otherResults, Parts.otherResults, hstamp, hpriority, hpriv, hlang, habs, hrel,
      hdisp, h.ePriority, hsame.priority, Bool.false_eq_true, if_false]
  rw [decodedResults, Parts.results, hsender, hcallbk, htextMsg, hother, h.nSMSId]

/-- What is returned for a message that is decoded. -/
theorem decodeMTTextMsg_of_decodes (h : Decodes pMessage q) (androidRil : Bool) (u : Unset)
    (args : DecodeArgs) :
    SwiCDMADecodeMTTextMsg androidRil u args pMessage =
      (if (q.results androidRil u args).2 then .none else .bufferSize,
        (q.results androidRil u args).1) := by
  simp only [SwiCDMADecodeMTTextMsg, decodeMTSms_of_decodes h,
    decodedResults_of_filled (filled_retrieved q u)]

end Results

section Iff

variable {r : Result}

theorem mem_andThen {r₁ r₂ : Results} :
    r ∈ (Results.andThen r₁ r₂).1 ↔ r ∈ r₁.1 ∨ r₁.2 ∧ r ∈ r₂.1 := by
  rw [Results.andThen]
  cases r₁.2 with
  | false => simp
  | true => simp

theorem mem_wanted {asked : Bool} {r' : Result} : r ∈ wanted asked r' ↔ asked ∧ r = r' := by
  cases asked
  · simp [wanted]
  · simp [wanted]

variable {pMessage : List UInt8} {androidRil : Bool} {args : DecodeArgs} {q : Parts} {u : Unset}

theorem andThen_of_stopped {r₁ : Results} (h : ¬ r₁.2) (r₂ : Results) :
    Results.andThen r₁ r₂ = r₁ := if_neg h

theorem senderResults_snd :
    (q.senderResults args.pSenderAddrLength).2 = true ↔ SenderBufferFits args q := by
  rw [SenderBufferFits]
  cases args.pSenderAddrLength with
  | none => exact iff_of_true rfl nofun
  | some size =>
      simp only [Parts.senderResults, Option.some.injEq, forall_eq']
      split_ifs with hlt
      · exact iff_of_false not_false (UInt8.not_le.mpr hlt)
      · exact iff_of_true rfl (UInt8.not_lt.mp hlt)

theorem text_of_none (h : (q.said .start).userDataBuf = none) : q.text = [] := by
  rw [Parts.text, h, Option.elim_none]

theorem textResults_snd : (q.textResults args.pTextMsgLength).2 = true ↔ TextBufferFits args q := by
  rw [TextBufferFits]
  cases args.pTextMsgLength with
  | none => exact iff_of_true rfl nofun
  | some size =>
      simp only [Parts.textResults, Option.some.injEq, forall_eq']
      cases huser : (q.said .start).userDataBuf with
      | none =>
          rw [text_of_none huser]
          exact iff_of_true rfl (Nat.zero_le _)
      | some buf =>
          rw [Option.isSome_some, if_pos rfl]
          split_ifs with hlt
          · exact iff_of_false not_false (Nat.not_le.mpr hlt)
          · exact iff_of_true rfl (Nat.not_lt.mp hlt)

/-- Where a callback number is not asked for unless its absence is reported. -/
theorem callbkResults_of_unseen
    (h : (q.said .start).callbackBuf.isSome → ∀ size, args.pCallbkAddrLength = some size →
      androidRil ∧ size = 255) (u : Unset) :
    q.callbkResults androidRil u args.pCallbkAddrLength =
      (args.pCallbkAddrLength.elim [] fun _ => [.callbkAddr 0 [0]], true) := by
  cases hsize : args.pCallbkAddrLength with
  | none => rfl
  | some size =>
      rw [Parts.callbkResults]
      split_ifs with hseen hlt hril
      · obtain ⟨-, rfl⟩ := h hseen size hsize
        exact absurd (UInt8.lt_iff_toNat_lt.mp hlt)
          (Nat.not_lt.mpr (Nat.le_of_lt_succ u.callBackLen.toNat_lt))
      · rfl
      · exact absurd (h hseen size hsize).1 hril
      · rfl

/-- The results are the same, whatever the memory held. -/
theorem results_of_leavesNothingUnset (h : LeavesNothingUnset androidRil args q) (u u' : Unset) :
    q.results androidRil u args = q.results androidRil u' args := by
  have hmsgId : wanted args.pMessageID (.messageID (q.said u.vars).msgId) =
      wanted args.pMessageID (.messageID (q.said u'.vars).msgId) := by
    by_cases hasked : args.pMessageID = true
    · have hseen := (h.messageID hasked).1
      rw [msgId_said_of_seen q u hseen, msgId_said_of_seen q u' hseen]
    · rw [wanted, wanted, if_neg hasked, if_neg hasked]
  rw [Parts.results, Parts.results, hmsgId]
  by_cases hfits : SenderBufferFits args q
  · rw [callbkResults_of_unseen (h.callbk hfits) u, callbkResults_of_unseen (h.callbk hfits) u']
  · have hstopped := mt senderResults_snd.mp hfits
    rw [andThen_of_stopped hstopped, andThen_of_stopped hstopped]

theorem given_or_absent_of_other (h : LeavesNothingUnset androidRil args q)
    (hsender : SenderBufferFits args q) (htext : TextBufferFits args q)
    (hr : r ∈ q.otherResults args) :
    r.Given pMessage q.bearer ∨ r.Absent := by
  simp only [Parts.otherResults, List.mem_append, mem_wanted] at hr
  rcases hr with ((((((((⟨hasked, rfl⟩ | ⟨-, rfl⟩) | ⟨-, rfl⟩) | ⟨hasked, rfl⟩) | ⟨-, rfl⟩) |
    ⟨-, rfl⟩) | ⟨-, rfl⟩) | ⟨-, rfl⟩) | ⟨-, rfl⟩) | ⟨-, rfl⟩
  · by_cases hset : (q.said .start).priority ≠ 200
    · exact .inl (h.priority hsender htext hasked hset)
    · exact .inr (if_neg hset)
  · exact .inr rfl
  · exact .inr rfl
  · by_cases hset : (q.said .start).yr ≠ 200 ∧ (q.said .start).mon ≠ 200
    · exact .inl (h.mcTimeStamp hsender htext hasked hset)
    · exact .inr (if_neg hset)
  all_goals exact .inr rfl

theorem given_or_absent_of_text (h : LeavesNothingUnset androidRil args q)
    (hsender : SenderBufferFits args q) (hr : r ∈ (q.textResults args.pTextMsgLength).1) :
    r.Given pMessage q.bearer ∨ r.Absent := by
  have hgiven := h.text hsender
  cases hsize : args.pTextMsgLength with
  | none =>
      rw [hsize] at hr
      cases hr
  | some size =>
      rw [hsize] at hr hgiven
      simp only [Parts.textResults] at hr
      split_ifs at hr with huser hlt
      · obtain rfl := List.mem_singleton.mp hr
        have hne : q.text ≠ [] := List.ne_nil_of_length_pos (Nat.zero_lt_of_lt hlt)
        exact .inl (hgiven rfl hne)
      · obtain rfl := List.mem_singleton.mp hr
        by_cases hempty : q.text = []
        · rw [hempty]
          exact .inr rfl
        · exact .inl (hgiven rfl hempty)
      · obtain rfl := List.mem_singleton.mp hr
        exact .inr rfl

theorem given_or_absent (hd : Decodes pMessage q) (h : LeavesNothingUnset androidRil args q)
    (hr : r ∈ (q.results androidRil u args).1) : r.Given pMessage q.bearer ∨ r.Absent := by
  simp only [Parts.results, mem_andThen, mem_wanted, senderResults_snd, textResults_snd] at hr
  rcases hr with ⟨hasked, rfl⟩ | ⟨-, hr | ⟨hsender, hr⟩⟩
  · exact .inl (h.messageID hasked).2
  · have hnumber := given_of_decodes hd
    cases hsize : args.pSenderAddrLength with
    | none =>
        rw [hsize] at hr
        cases hr
    | some size =>
        rw [hsize, Parts.senderResults] at hr
        split_ifs at hr
        all_goals
          obtain rfl := List.mem_singleton.mp hr
          exact .inl hnumber
  · rw [callbkResults_of_unseen (h.callbk hsender)] at hr
    rcases hr with hr | ⟨-, hr | ⟨htext, hr⟩⟩
    · cases hsize : args.pCallbkAddrLength with
      | none =>
          rw [hsize] at hr
          cases hr
      | some size =>
          rw [hsize] at hr
          obtain rfl := List.mem_singleton.mp hr
          exact .inr rfl
    · exact given_or_absent_of_text h hsender hr
    · exact given_or_absent_of_other h hsender htext hr

/-- Memory where the message identifier and the length of the callback number are given. -/
def Unset.withGarbage (u : Unset) (msgId : UInt16) (callBackLen : UInt8) : Unset :=
  { u with msgId := msgId, callBackLen := callBackLen }

theorem andThen_of_going {r₁ : Results} (hgo : r₁.2 = true) (r₂ : Results) :
    (Results.andThen r₁ r₂).1 = r₁.1 ++ r₂.1 := by
  rw [Results.andThen, if_pos hgo]

theorem results_of_senderBufferFits (h : SenderBufferFits args q) (u : Unset) :
    (q.results androidRil u args).1 =
      wanted args.pMessageID (.messageID (q.said u.vars).msgId) ++
        ((q.senderResults args.pSenderAddrLength).1 ++
          (Results.andThen (q.callbkResults androidRil u args.pCallbkAddrLength)
            (Results.andThen (q.textResults args.pTextMsgLength)
              (q.otherResults args, true))).1) := by
  rw [Parts.results, andThen_of_going rfl, andThen_of_going (senderResults_snd.mpr h)]

/-- Results that do not depend on the memory have the message identifier of the message. -/
theorem seen_of_determined
    (h : ∀ u u', (q.results androidRil u args).1 = (q.results androidRil u' args).1) (u : Unset)
    (hasked : args.pMessageID = true) : Seen msgSubIdentifierId q.bearer := by
  by_contra hseen
  have hfirst : ∀ msgId, (q.results androidRil (u.withGarbage msgId 0) args).1.head? =
      some (.messageID msgId) := by
    intro msgId
    rw [Parts.results, andThen_of_going rfl, msgId_said_of_not_seen q _ hseen, wanted,
      if_pos hasked]
    rfl
  have hsame := congrArg List.head? (h (u.withGarbage 0 0) (u.withGarbage 1 0))
  rw [hfirst, hfirst] at hsame
  exact absurd (Result.messageID.inj (Option.some.inj hsame)) (by decide)

/-- The results for a callback number differ with its length, unless only its absence is
reported. -/
theorem callbkResults_of_determined {size : UInt8} (hsize : args.pCallbkAddrLength = some size)
    (hseen : (q.said .start).callbackBuf.isSome = true)
    (h : ∀ u u', (q.callbkResults androidRil u args.pCallbkAddrLength).1.head? =
      (q.callbkResults androidRil u' args.pCallbkAddrLength).1.head?) (u : Unset) :
    androidRil ∧ size = 255 := by
  have hlong : ∀ u, size < u.callBackLen →
      (q.callbkResults androidRil u args.pCallbkAddrLength).1 =
        [.callbkAddrLength (u.callBackLen + 1)] := by
    intro u hlt
    rw [hsize, Parts.callbkResults, if_pos hseen, if_pos hlt]
  have hshort : ∀ u, ¬ size < u.callBackLen →
      (q.callbkResults androidRil u args.pCallbkAddrLength).1 =
        [if androidRil then .callbkAddr 0 [0]
        else .callbkAddr (u.callBackLen + 1)
          (clearedBuffer size.toNat (load u.szCallBack 0 u.callBackLen.toNat))] := by
    intro u hlt
    rw [hsize, Parts.callbkResults, if_pos hseen, if_neg hlt]
    split_ifs
    all_goals rfl
  have hzero : ¬ size < 0 := UInt8.not_lt.mpr (UInt8.le_iff_toNat_le.mpr (Nat.zero_le _))
  have hsame := h (u.withGarbage 0 0) (u.withGarbage 0 255)
  rw [hshort (u.withGarbage 0 0) hzero] at hsame
  by_cases hlt : size < 255
  · rw [hlong (u.withGarbage 0 255) hlt] at hsame
    split_ifs at hsame
    all_goals exact absurd (Option.some.inj hsame) nofun
  · rw [hshort (u.withGarbage 0 255) hlt] at hsame
    split_ifs at hsame with hril
    · refine ⟨hril, UInt8.toNat_inj.mp ?_⟩
      have hle : 255 ≤ size.toNat := UInt8.le_iff_toNat_le.mp (UInt8.not_lt.mp hlt)
      exact Nat.le_antisymm (Nat.le_of_lt_succ size.toNat_lt) hle
    · have hlen : (0 : UInt8) + 1 = 255 + 1 :=
        (Result.callbkAddr.inj (Option.some.inj hsame)).1
      exact absurd hlen (by decide)

theorem callbkResults_ne_nil {size : UInt8} (hsize : args.pCallbkAddrLength = some size)
    (androidRil : Bool) (q : Parts) (u : Unset) :
    ∃ r, (q.callbkResults androidRil u args.pCallbkAddrLength).1 = [r] := by
  rw [hsize, Parts.callbkResults]
  split_ifs
  all_goals exact ⟨_, rfl⟩

theorem callbk_of_determined
    (h : ∀ u u', (q.results androidRil u args).1 = (q.results androidRil u' args).1) (u : Unset)
    (hsender : SenderBufferFits args q) (hseen : (q.said .start).callbackBuf.isSome = true)
    {size : UInt8} (hsize : args.pCallbkAddrLength = some size) : androidRil ∧ size = 255 := by
  refine callbkResults_of_determined hsize hseen (fun u₁ u₂ => ?_) u
  have hsame := h u₁ u₂
  have hids : (wanted args.pMessageID (.messageID (q.said u₁.vars).msgId)).length =
      (wanted args.pMessageID (.messageID (q.said u₂.vars).msgId)).length := by
    cases args.pMessageID
    all_goals rfl
  rw [results_of_senderBufferFits hsender, results_of_senderBufferFits hsender] at hsame
  have htail := List.append_cancel_left (List.append_inj hsame hids).2
  have hhead := congrArg List.head? htail
  have hfirst : ∀ u : Unset, (Results.andThen (q.callbkResults androidRil u args.pCallbkAddrLength)
      (Results.andThen (q.textResults args.pTextMsgLength) (q.otherResults args, true))).1.head? =
      (q.callbkResults androidRil u args.pCallbkAddrLength).1.head? := by
    intro u
    obtain ⟨r, hr⟩ := callbkResults_ne_nil hsize androidRil q u
    rw [Results.andThen]
    split_ifs
    · rw [hr]
      rfl
    · rfl
  rwa [hfirst, hfirst] at hhead

/-- A function of the message leaves nothing unset that is reported. -/
theorem leavesNothingUnset_of_function (hd : Decodes pMessage q) (u : Unset)
    (h : FunctionOfMessage androidRil args pMessage) : LeavesNothingUnset androidRil args q := by
  have hresults : ∀ u u', (q.results androidRil u args).1 = (q.results androidRil u' args).1 := by
    intro u₁ u₂
    have hsame := congrArg Prod.snd (h.1 u₁ u₂)
    rwa [decodeMTTextMsg_of_decodes hd, decodeMTTextMsg_of_decodes hd] at hsame
  have hgiven : ∀ r ∈ (q.results androidRil u args).1, ¬ r.Absent →
      r.Given pMessage q.bearer := by
    intro r hr habsent
    have hmem : r ∈ (SwiCDMADecodeMTTextMsg androidRil u args pMessage).2 := by
      rwa [decodeMTTextMsg_of_decodes hd]
    exact (h.2 q hd u r hmem).resolve_right habsent
  have hcallbk : SenderBufferFits args q → (q.said .start).callbackBuf.isSome →
      ∀ size, args.pCallbkAddrLength = some size → androidRil ∧ size = 255 :=
    fun hsender hseen size hsize => callbk_of_determined hresults u hsender hseen hsize
  have hbehind : SenderBufferFits args q → ∀ r, r ∈ (q.textResults args.pTextMsgLength).1 ∨
      TextBufferFits args q ∧ r ∈ q.otherResults args → ¬ r.Absent → r.Given pMessage q.bearer := by
    intro hsender r hr habsent
    refine hgiven r ?_ habsent
    simp only [Parts.results, mem_andThen, senderResults_snd, textResults_snd,
      callbkResults_of_unseen (hcallbk hsender)]
    exact .inr ⟨trivial, .inr ⟨hsender, .inr ⟨trivial, hr⟩⟩⟩
  constructor
  · intro hasked
    refine ⟨seen_of_determined hresults u hasked, ?_⟩
    refine hgiven (.messageID (q.said u.vars).msgId) ?_ not_false
    simp only [Parts.results, mem_andThen, mem_wanted]
    exact .inl ⟨hasked, trivial⟩
  · exact hcallbk
  · intro hsender hasked hne
    obtain ⟨size, hsize⟩ := Option.isSome_iff_exists.mp hasked
    have huser : (q.said .start).userDataBuf.isSome = true := by
      by_contra hnone
      exact hne (text_of_none (Option.not_isSome_iff_eq_none.mp hnone))
    by_cases hlt : size.toNat < q.text.length
    · refine hbehind hsender (.textMsgLength (UInt8.ofNat q.text.length)) (.inl ?_) not_false
      rw [hsize, Parts.textResults, if_pos huser, if_pos hlt]
      exact List.mem_singleton_self _
    · refine hbehind hsender (.textMsg (UInt8.ofNat q.text.length)
        (clearedBuffer (2 * size.toNat) (strncpy q.text q.text.length))) (.inl ?_) ?_
      · rw [hsize, Parts.textResults, if_pos huser, if_neg hlt]
        exact List.mem_singleton_self _
      · intro hzero
        have hlen := congrArg UInt8.toNat (show UInt8.ofNat q.text.length = 0 from hzero)
        have hsmall : q.text.length < 256 := Nat.lt_of_le_of_lt (Nat.not_lt.mp hlt) size.toNat_lt
        rw [UInt8.toNat_ofNat_of_lt' hsmall] at hlen
        exact hne (List.length_eq_zero_iff.mp hlen)
  · intro hsender htext hasked hset
    refine hbehind hsender (.priority (callerPriority (q.said .start).priority))
      (.inr ⟨htext, ?_⟩) ?_
    · simp only [Parts.otherResults, List.mem_append, mem_wanted, if_pos hset]
      simp [hasked]
    · intro hff
      have hvalue : callerPriority (q.said .start).priority = 0xff := hff
      rw [callerPriority] at hvalue
      split_ifs at hvalue
      all_goals exact absurd hvalue (by decide)
  · intro hsender htext hasked hset
    refine hbehind hsender (.mcTimeStamp ([(q.said .start).yr, (q.said .start).mon,
      (q.said .start).day, (q.said .start).hr, (q.said .start).min,
      (q.said .start).sec].map bcdDecode ++ [0])) (.inr ⟨htext, ?_⟩) ?_
    · simp only [Parts.otherResults, List.mem_append, mem_wanted, if_pos hset]
      simp [hasked]
    · intro hff
      have hlast := congrArg (fun bytes : List UInt8 => bytes.getD 6 0) hff
      exact absurd hlast (show ¬ (0 : UInt8) = 0xff by decide)

end Iff

/-- Memory that was cleared. -/
def Unset.cleared : Unset where
  sms := .cleared
  callBackLen := 0
  szCallBack := fun _ => 0
  ePrivacy := 0
  eLanguage := 0
  abVal := List.replicate 6 0
  relValTime := 0
  deliveryAlert := 0
  msgId := 0
  day := 0
  hr := 0
  min := 0
  sec := 0
  stack := fun _ => 0

/-- A message of the sender `5`, with a callback number. -/
def messageWithCallback : List UInt8 :=
  [0, 2, 2, 0x00, 0x54, 8, 9, 0, 3, 0x10, 0x00, 0x10, 14, 2, 0x00, 0x54]

/-- The callback number is asked for, with room for twenty characters. -/
def callbackArgs : DecodeArgs where
  pMessageID := false
  pSenderAddrLength := none
  pCallbkAddrLength := some 20
  pTextMsgLength := none
  pPriority := false
  pPrivacy := false
  pLanguage := false
  mcTimeStamp := false
  absoluteValidity := false
  pRelativeValidity := false
  pDisplayMode := false
  pUserAcknowledgementReq := false
  pReadAcknowledgementReq := false
  pAlertPriority := false

end Sms

end SierraSdk
