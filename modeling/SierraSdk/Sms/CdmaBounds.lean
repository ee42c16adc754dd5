import SierraSdk.Library.Access
import SierraSdk.Library.Fields
import SierraSdk.Sms.CdmaRetrieve

/-!
# What decoding a CDMA message reads and writes

`decodeAccesses` are the bytes that `DecodeCompleteMTSms` reads of the message and of the copies
that it makes of its parameters, and the elements of arrays that it writes, each with the number
of elements that there are. Nothing checks the lengths that the message gives.

All accesses are inside exactly if the message fits (`inside_iff_messageFits`): the bytes that
the lengths of parameters and subparameters ask for are there, the digits and the characters lie
in their parameters, and a number has at most 25 digits, for `SW_AtoT` writes a wide character of
four bytes for each digit to an array of fifty words.
-/

namespace SierraSdk

namespace Sms

open Memory Walk Fields Accesses

/-- What is read and written. -/
inductive CdmaObject where
  | encodedSms
  | addrBuf
  | bearerDataBuf
  | userDataBuf
  | copy
  | numbers
  | szNumbers
  | szAddress
  | msgBody
  deriving DecidableEq

section Walks

/-- The bytes that a round of `SplitParamMTSms` reads, from the identifier on. -/
def splitReads (pMsg : List UInt8) : ℕ :=
  let identifier := pMsg.headD 0
  if identifier = teleserviceIdentifier then 4
  else if identifier = bearerReplyIdentifier then 3
  else if identifier ∈ [origaddrIdentifier, destaddrIdentifier, bearerDataIdentifier] then
    2 + (lenAt pMsg).toNat
  else if identifier ∈ [serviceCategoryIdenifier, origsubaddrIdentifier] then 2
  else 1

/-- The bytes that it copies. -/
def splitCopies (pMsg : List UInt8) : ℕ :=
  if pMsg.headD 0 ∈ [origaddrIdentifier, destaddrIdentifier, bearerDataIdentifier] then
    (lenAt pMsg).toNat
  else 0

/-- The bytes that a round of `DecodeBearerData` reads. -/
def bearerReads (pMsg : List UInt8) : ℕ :=
  let identifier := pMsg.headD 0
  if identifier = msgSubIdentifierId then 5
  else if identifier = prioriySubIdentifier then 3
  else if identifier = msgTimestampSubIndetifier then 8
  else if identifier ∈ [userDataSubIdentifier, callbackNumSubIdentifier] then
    2 + (lenAt pMsg).toNat
  else if identifier = languageIndicatorSubIndetifier ∨ identifier ∈ skippedSubIdentifiers then 2
  else 1

def bearerCopies (pMsg : List UInt8) : ℕ :=
  if pMsg.headD 0 ∈ [userDataSubIdentifier, callbackNumSubIdentifier] then (lenAt pMsg).toNat
  else 0

/-- The accesses of a walk over a buffer of `size` bytes: a visit has the bytes that are left. -/
def walkAccesses {σ : Type*} (object : CdmaObject) (size : ℕ) (reads copies : List UInt8 → ℕ)
    (vs : List (Visit UInt8 σ)) : List (Access CdmaObject) :=
  vs.flatMap fun v => span object size (size - v.1.length) (reads v.1) ++
    span .copy (copies v.1) 0 (copies v.1)

/-- `SplitParamMTSms` -/
def splitAccesses (pMTSms : List UInt8) : List (Access CdmaObject) :=
  span .encodedSms pMTSms.length 0 1 ++
    if pMTSms.headD 0 ≠ pointToPointMsg then []
    else walkAccesses .encodedSms pMTSms.length splitReads splitCopies
      (visits (splitWalker .sdk) pMTSms.tail SplitParams.start.cleared)

/-- `DecodeBearerData` -/
def bearerAccesses (pBearerDataBuf : List UInt8) : List (Access CdmaObject) :=
  walkAccesses .bearerDataBuf pBearerDataBuf.length bearerReads bearerCopies
    (visits bearerWalker pBearerDataBuf .start)

end Walks

section Values

/-- The bytes that `UnpackBitsToAByte` reads. -/
def unpackReads (pos len : ℕ) : List ℕ :=
  let byte := pos / 8
  let pos := pos % 8
  let rshift := 8 - (pos + len)
  if 0 < rshift then [byte]
  else if 0 < len - (8 - pos) then [byte, byte + 1]
  else [byte]

def unpackAccesses (object : CdmaObject) (size pos len : ℕ) : List (Access CdmaObject) :=
  (unpackReads pos len).map fun k => ⟨object, size, k⟩

/-- The number of digits that an address gives. -/
def addressDigits (pOrigAddrBuf : List UInt8) : ℕ :=
  (UnpackBitsToAByte (ofList 0 pOrigAddrBuf) 2 8).toNat

/-- An address without a digit mode and a number mode. -/
def PlainAddress (pOrigAddrBuf : List UInt8) : Prop :=
  ¬ (UnpackBitsToAByte (ofList 0 pOrigAddrBuf) 0 1 ≠ 0 ∨
    UnpackBitsToAByte (ofList 0 pOrigAddrBuf) 1 1 ≠ 0)

instance (pOrigAddrBuf : List UInt8) : Decidable (PlainAddress pOrigAddrBuf) :=
  inferInstanceAs (Decidable (¬ _))

/-- `DecodeOriginAddr`: `Numbers` and `szNumbers` have fifty elements, and `szAddress` fifty
words. -/
def addressAccesses (pOrigAddrBuf : List UInt8) : List (Access CdmaObject) :=
  let size := pOrigAddrBuf.length
  unpackAccesses .addrBuf size 0 1 ++ unpackAccesses .addrBuf size 1 1 ++
    if PlainAddress pOrigAddrBuf then
      unpackAccesses .addrBuf size 2 8 ++
        (List.range (addressDigits pOrigAddrBuf)).flatMap (fun i =>
          unpackAccesses .addrBuf size (10 + 4 * i) 4 ++ [⟨.numbers, 50, i⟩, ⟨.szNumbers, 50, i⟩]) ++
        span .szAddress 100 0 (4 * addressDigits pOrigAddrBuf)
    else []

/-- The number of bits of a character, and the number of characters, that user data gives. -/
def abyteLen (pUserDataBuf : List UInt8) : ℕ :=
  if UnpackBitsToAByte (ofList 0 pUserDataBuf) 0 5 = userDataMsgEncoding8bitOctet ∨
      UnpackBitsToAByte (ofList 0 pUserDataBuf) 0 5 = userDataMsgEncoding8bitLatin then 8
  else 7

def userDataChars (pUserDataBuf : List UInt8) : ℕ :=
  (UnpackBitsToAByte (ofList 0 pUserDataBuf) 5 8).toNat

/-- `DecodeUserData` -/
def userDataAccesses (pUserDataBuf : List UInt8) : List (Access CdmaObject) :=
  let size := pUserDataBuf.length
  unpackAccesses .userDataBuf size 0 5 ++ unpackAccesses .userDataBuf size 5 8 ++
    (List.range (userDataChars pUserDataBuf)).flatMap fun i =>
      unpackAccesses .userDataBuf size (13 + abyteLen pUserDataBuf * i) (abyteLen pUserDataBuf) ++
        [⟨.msgBody, userDataChars pUserDataBuf, i⟩]

end Values

/-- The bearer data, and the text in it unless there is an error. -/
def textAccesses (pBearerDataBuf : List UInt8) : List (Access CdmaObject) :=
  bearerAccesses pBearerDataBuf ++
    match DecodeBearerData pBearerDataBuf .start with
    | (b, .none) => b.userDataBuf.elim [] userDataAccesses
    | _ => []

/-- The address, and the bearer data unless there is an error. -/
def partsAccesses (p : SplitParams) : List (Access CdmaObject) :=
  match p.origAddrBuf.or p.destAddrBuf with
  | none => []
  | some pAddrBuf =>
      addressAccesses pAddrBuf ++
        match DecodeOriginAddr pAddrBuf with
        | (.none, _) => p.bearerDataBuf.elim [] textAccesses
        | _ => []

/-- `DecodeCompleteMTSms` -/
def decodeAccesses (pEncodedSms : List UInt8) : List (Access CdmaObject) :=
  splitAccesses pEncodedSms ++
    match SplitParamMTSms .sdk pEncodedSms .start with
    | (p, .none) => partsAccesses p
    | _ => []

section Layouts

/-- The parameters as they should lie in a message. -/
def splitLayout (identifier : UInt8) : Layout :=
  if identifier = teleserviceIdentifier then .fixed 2 fun _ => True
  else if identifier = bearerReplyIdentifier then .fixed 1 fun _ => True
  else if identifier ∈ [origaddrIdentifier, destaddrIdentifier, bearerDataIdentifier] then .copied
  else if identifier ∈ [serviceCategoryIdenifier, origsubaddrIdentifier] then .skipped
  else .unknown

/-- The subparameters. -/
def bearerLayout (identifier : UInt8) : Layout :=
  if identifier = msgSubIdentifierId then .fixed 3 MsgTypeKnown
  else if identifier = prioriySubIdentifier then .fixed 1 fun _ => True
  else if identifier = msgTimestampSubIndetifier then .fixed 6 fun _ => True
  else if identifier ∈ [userDataSubIdentifier, callbackNumSubIdentifier] then .copied
  else if identifier = languageIndicatorSubIndetifier then .passed 1
  else if identifier ∈ [userRespCodeSubIdentifier, absValPeriodSubIdentifier] then .mark
  else if identifier ∈ skippedSubIdentifiers then .skipped
  else .unknown

/-- The digits lie in the address, and there are at most 25. -/
def AddressFits (pOrigAddrBuf : List UInt8) : Prop :=
  pOrigAddrBuf ≠ [] ∧
    (PlainAddress pOrigAddrBuf →
      10 + 4 * addressDigits pOrigAddrBuf ≤ 8 * pOrigAddrBuf.length ∧
        addressDigits pOrigAddrBuf ≤ 25)

/-- The characters lie in the user data. -/
def UserDataFits (pUserDataBuf : List UInt8) : Prop :=
  13 + abyteLen pUserDataBuf * userDataChars pUserDataBuf ≤ 8 * pUserDataBuf.length

/-- The subparameters lie in the bearer data, and the characters in the last user data. -/
def BearerFits (pBearerDataBuf : List UInt8) : Prop :=
  ∃ r, Fits bearerLayout pBearerDataBuf r ∧
    ∀ subs, r = some subs →
      ∀ userData, lastValue userDataSubIdentifier subs none = some userData →
        UserDataFits userData

/-- The address of the sender or else that of the receiver, the last of each. -/
def addressOf (params : List Field) : Option (List UInt8) :=
  (lastValue origaddrIdentifier params none).or (lastValue destaddrIdentifier params none)

/-- The message type is there and, of a point-to-point message, the parameters; and their
values fit. -/
def MessageFits : List UInt8 → Prop
  | [] => False
  | msgType :: bytes =>
      msgType = pointToPointMsg →
        ∃ r, Fits splitLayout bytes r ∧
          ∀ params, r = some params →
            ∀ address, addressOf params = some address →
              AddressFits address ∧
                (PlainAddress address →
                  ∀ bearerData, lastValue bearerDataIdentifier params none = some bearerData →
                    BearerFits bearerData)

end Layouts

section Follow

/-- A value of a length that is checked. -/
theorem next_fixed (bytes : List UInt8) (hdrLen : UInt8) :
    (Layout.fixed hdrLen.toNat fun _ => True).Next bytes (fixed bytes hdrLen) := by
  have hlen : lengthOf bytes = hdrLen.toNat ↔ lenAt bytes = hdrLen := UInt8.toNat_inj
  refine ⟨fun h => ?_, fun h => ?_⟩
  · exact if_neg (not_not.mpr (hlen.mp h.1))
  · exact if_pos fun heq => h ⟨hlen.mpr heq, trivial⟩

theorem next_passed (bytes : List UInt8) (hdrLen : UInt8) :
    (Layout.passed hdrLen.toNat).Next bytes (fixed bytes hdrLen) := by
  have hlen : lengthOf bytes = hdrLen.toNat ↔ lenAt bytes = hdrLen := UInt8.toNat_inj
  exact ⟨fun h => if_neg (not_not.mpr (hlen.mp h)), fun h => if_pos fun heq => h (hlen.mpr heq)⟩

theorem next_msgId (bytes : List UInt8) :
    (Layout.fixed 3 MsgTypeKnown).Next bytes
      (if MsgTypeKnown ((dataAt bytes).getD 0 0) then fixed bytes msgSubIdentifierHdrLen
      else none) := by
  have hfirst : (dataAt bytes).getD 0 0 = (bytes.drop 2).headD 0 := by
    rw [dataAt]
    cases bytes.drop 2 <;> rfl
  have hfixed := next_fixed bytes msgSubIdentifierHdrLen
  rw [hfirst]
  refine ⟨fun h => ?_, fun h => ?_⟩
  · rw [if_pos h.2]
    exact hfixed.1 ⟨h.1, trivial⟩
  · split_ifs with hknown
    · exact hfixed.2 fun hlen => h ⟨hlen.1, hknown⟩
    · rfl

/-- The buffers that `SplitParamMTSms` has copied. -/
def SplitParams.found (identifier : UInt8) (p : SplitParams) : Option (List UInt8) :=
  if identifier = origaddrIdentifier then p.origAddrBuf
  else if identifier = destaddrIdentifier then p.destAddrBuf
  else if identifier = bearerDataIdentifier then p.bearerDataBuf
  else none

/-- The buffers that `DecodeBearerData` has copied. -/
def BearerParams.found (identifier : UInt8) (b : BearerParams) : Option (List UInt8) :=
  if identifier = userDataSubIdentifier then b.userDataBuf
  else if identifier = callbackNumSubIdentifier then b.callbackBuf
  else none

theorem follows_split : Follows splitLayout (splitWalker .sdk) splitReads SplitParams.found := by
  constructor
  · intro bytes _
    simp only [splitReads, splitLayout]
    split_ifs <;> rfl
  · intro bytes p _
    change (splitLayout (bytes.headD 0)).Next bytes (splitStep .sdk bytes p).2
    simp only [splitStep, splitLayout]
    by_cases htele : bytes.headD 0 = teleserviceIdentifier
    · rw [if_pos htele, if_pos htele]
      exact next_fixed _ teleserviceHdrLen
    rw [if_neg htele, if_neg htele]
    by_cases hreply : bytes.headD 0 = bearerReplyIdentifier
    · rw [if_pos hreply, if_pos hreply]
      exact next_fixed _ bearerReplyHdrLen
    rw [if_neg hreply, if_neg hreply]
    by_cases horig : bytes.headD 0 = origaddrIdentifier
    · rw [if_pos horig, horig]
      rfl
    rw [if_neg horig]
    by_cases hdest : bytes.headD 0 = destaddrIdentifier
    · rw [if_pos hdest, hdest]
      rfl
    rw [if_neg hdest]
    by_cases hbearer : bytes.headD 0 = bearerDataIdentifier
    · rw [if_pos hbearer, hbearer]
      rfl
    have hnot : bytes.headD 0 ∉ [origaddrIdentifier, destaddrIdentifier, bearerDataIdentifier] := by
      simp only [List.mem_cons, List.not_mem_nil, not_or]
      exact ⟨horig, hdest, hbearer, not_false⟩
    rw [if_neg hbearer, if_neg hnot]
    by_cases hservice : bytes.headD 0 = serviceCategoryIdenifier
    · rw [if_pos hservice, hservice]
      rfl
    rw [if_neg hservice]
    by_cases hsub : bytes.headD 0 = origsubaddrIdentifier
    · rw [if_pos hsub, hsub]
      rfl
    have hnone : bytes.headD 0 ∉ [serviceCategoryIdenifier, origsubaddrIdentifier] := by
      simp only [List.mem_cons, List.not_mem_nil, not_or]
      exact ⟨hservice, hsub, not_false⟩
    rw [if_neg hsub, if_neg hnone]
    rfl
  · intro bytes p i _
    change SplitParams.found i (splitStep .sdk bytes p).1 = _
    have hsame : SplitParams.found i p =
        if i = bytes.headD 0 then SplitParams.found i p else SplitParams.found i p :=
      (ite_self _).symm
    simp only [splitStep, splitLayout]
    by_cases htele : bytes.headD 0 = teleserviceIdentifier
    · rw [if_pos htele, if_pos htele]
      exact hsame
    rw [if_neg htele, if_neg htele]
    by_cases hreply : bytes.headD 0 = bearerReplyIdentifier
    · rw [if_pos hreply, if_pos hreply]
      exact hsame
    rw [if_neg hreply, if_neg hreply]
    by_cases horig : bytes.headD 0 = origaddrIdentifier
    · rw [if_pos horig, horig]
      by_cases hi : i = origaddrIdentifier
      · rw [if_pos hi, hi]
        rfl
      · rw [if_neg hi]
        simp only [SplitParams.found, if_neg hi]
    rw [if_neg horig]
    by_cases hdest : bytes.headD 0 = destaddrIdentifier
    · rw [if_pos hdest, hdest]
      by_cases hi : i = destaddrIdentifier
      · rw [if_pos hi, hi]
        rfl
      · rw [if_neg hi]
        simp only [SplitParams.found, if_neg hi]
    rw [if_neg hdest]
    by_cases hbearer : bytes.headD 0 = bearerDataIdentifier
    · rw [if_pos hbearer, hbearer]
      by_cases hi : i = bearerDataIdentifier
      · rw [if_pos hi, hi]
        rfl
      · rw [if_neg hi]
        simp only [SplitParams.found, if_neg hi]
    have hnot : bytes.headD 0 ∉ [origaddrIdentifier, destaddrIdentifier, bearerDataIdentifier] := by
      simp only [List.mem_cons, List.not_mem_nil, not_or]
      exact ⟨horig, hdest, hbearer, not_false⟩
    rw [if_neg hbearer, if_neg hnot]
    split_ifs <;> rfl

theorem follows_bearer : Follows bearerLayout bearerWalker bearerReads BearerParams.found := by
  constructor
  · intro bytes _
    simp only [bearerReads, bearerLayout]
    by_cases hid : bytes.headD 0 = msgSubIdentifierId
    · rw [if_pos hid, if_pos hid]
      rfl
    rw [if_neg hid, if_neg hid]
    by_cases hpriority : bytes.headD 0 = prioriySubIdentifier
    · rw [if_pos hpriority, if_pos hpriority]
      rfl
    rw [if_neg hpriority, if_neg hpriority]
    by_cases hstamp : bytes.headD 0 = msgTimestampSubIndetifier
    · rw [if_pos hstamp, if_pos hstamp]
      rfl
    rw [if_neg hstamp, if_neg hstamp]
    by_cases hcopied : bytes.headD 0 ∈ [userDataSubIdentifier, callbackNumSubIdentifier]
    · rw [if_pos hcopied, if_pos hcopied]
      rfl
    rw [if_neg hcopied, if_neg hcopied]
    by_cases hlanguage : bytes.headD 0 = languageIndicatorSubIndetifier
    · rw [if_pos (.inl hlanguage), if_pos hlanguage]
      rfl
    rw [if_neg hlanguage]
    by_cases hmark : bytes.headD 0 ∈ [userRespCodeSubIdentifier, absValPeriodSubIdentifier]
    · have hskipped : bytes.headD 0 ∉ skippedSubIdentifiers := by
        simp only [List.mem_cons, List.not_mem_nil, or_false] at hmark
        rcases hmark with h | h <;> rw [h] <;> decide
      rw [if_pos hmark, if_neg fun h => hskipped (h.resolve_left hlanguage)]
      rfl
    rw [if_neg hmark]
    by_cases hskipped : bytes.headD 0 ∈ skippedSubIdentifiers
    · rw [if_pos (.inr hskipped), if_pos hskipped]
      rfl
    · rw [if_neg fun h => hskipped (h.resolve_left hlanguage), if_neg hskipped]
      rfl
  · intro bytes b _
    change (bearerLayout (bytes.headD 0)).Next bytes (bearerStep bytes b).2
    simp only [bearerStep, bearerLayout]
    by_cases hid : bytes.headD 0 = msgSubIdentifierId
    · rw [if_pos hid, if_pos hid]
      exact next_msgId bytes
    rw [if_neg hid, if_neg hid]
    by_cases hpriority : bytes.headD 0 = prioriySubIdentifier
    · rw [if_pos hpriority, if_pos hpriority]
      exact next_fixed _ prioriySubIdentifierHdrLen
    rw [if_neg hpriority, if_neg hpriority]
    by_cases huser : bytes.headD 0 = userDataSubIdentifier
    · rw [if_pos huser, huser]
      rfl
    rw [if_neg huser]
    by_cases hstamp : bytes.headD 0 = msgTimestampSubIndetifier
    · rw [if_pos hstamp, if_pos hstamp]
      exact next_fixed _ msgTimestampSubIndetifierHdrLen
    rw [if_neg hstamp, if_neg hstamp]
    by_cases hlanguage : bytes.headD 0 = languageIndicatorSubIndetifier
    · have hcopied : bytes.headD 0 ∉ [userDataSubIdentifier, callbackNumSubIdentifier] := by
        rw [hlanguage]
        decide
      rw [if_pos hlanguage, if_neg hcopied, if_pos hlanguage]
      exact next_passed _ languageIndicatorSubIndetifierHdrLen
    rw [if_neg hlanguage]
    by_cases hcallback : bytes.headD 0 = callbackNumSubIdentifier
    · rw [if_pos hcallback, hcallback]
      rfl
    have hcopied : bytes.headD 0 ∉ [userDataSubIdentifier, callbackNumSubIdentifier] := by
      simp only [List.mem_cons, List.not_mem_nil, not_or]
      exact ⟨huser, hcallback, not_false⟩
    rw [if_neg hcallback, if_neg hcopied, if_neg hlanguage]
    have hmem : bytes.headD 0 ∈ [userRespCodeSubIdentifier, absValPeriodSubIdentifier] ↔
        bytes.headD 0 = userRespCodeSubIdentifier ∨ bytes.headD 0 = absValPeriodSubIdentifier := by
      simp
    rw [if_congr hmem rfl rfl]
    split_ifs <;> rfl
  · intro bytes b i _
    change BearerParams.found i (bearerStep bytes b).1 = _
    have hsame : BearerParams.found i b =
        if i = bytes.headD 0 then BearerParams.found i b else BearerParams.found i b :=
      (ite_self _).symm
    simp only [bearerStep, bearerLayout]
    by_cases hid : bytes.headD 0 = msgSubIdentifierId
    · rw [if_pos hid, if_pos hid]
      exact hsame
    rw [if_neg hid, if_neg hid]
    by_cases hpriority : bytes.headD 0 = prioriySubIdentifier
    · rw [if_pos hpriority, if_pos hpriority]
      exact hsame
    rw [if_neg hpriority, if_neg hpriority]
    by_cases huser : bytes.headD 0 = userDataSubIdentifier
    · rw [if_pos huser, huser]
      by_cases hi : i = userDataSubIdentifier
      · rw [if_pos hi, hi]
        rfl
      · rw [if_neg hi]
        simp only [BearerParams.found, if_neg hi]
    rw [if_neg huser]
    by_cases hcallback : bytes.headD 0 = callbackNumSubIdentifier
    · rw [hcallback]
      by_cases hi : i = callbackNumSubIdentifier
      · rw [if_pos hi, hi]
        rfl
      · rw [if_neg hi]
        have hne : callbackNumSubIdentifier ≠ msgTimestampSubIndetifier := by decide
        have hne' : callbackNumSubIdentifier ≠ languageIndicatorSubIndetifier := by decide
        simp only [if_neg hne, if_neg hne', BearerParams.found, if_neg hi]
        rfl
    have hcopied : bytes.headD 0 ∉ [userDataSubIdentifier, callbackNumSubIdentifier] := by
      simp only [List.mem_cons, List.not_mem_nil, not_or]
      exact ⟨huser, hcallback, not_false⟩
    rw [if_neg hcopied, if_neg hcallback]
    split_ifs <;> rfl

end Follow

section Fields

/-- A field of bits lies in the bytes that are there. -/
theorem allInBounds_unpackAccesses (object : CdmaObject) (size pos : ℕ) {len : ℕ} (hpos : 0 < len)
    (hlen : len ≤ 8) :
    AllInBounds (unpackAccesses object size pos len) ↔ pos + len ≤ 8 * size := by
  have hall : AllInBounds (unpackAccesses object size pos len) ↔
      ∀ k ∈ unpackReads pos len, k < size := List.forall_mem_map
  have hsplit := Nat.div_add_mod pos 8
  have hmod := Nat.mod_lt pos (show 8 > 0 by decide)
  rw [hall, unpackReads]
  split_ifs
  · rw [List.forall_mem_singleton]
    omega
  · rw [List.forall_mem_cons, List.forall_mem_singleton]
    omega
  · rw [List.forall_mem_singleton]
    omega

end Fields

section Fit

theorem allInBounds_addressAccesses (pOrigAddrBuf : List UInt8) :
    AllInBounds (addressAccesses pOrigAddrBuf) ↔ AddressFits pOrigAddrBuf := by
  have hempty : pOrigAddrBuf ≠ [] ↔ 0 < pOrigAddrBuf.length := List.length_pos_iff.symm
  have helements : ∀ n i : ℕ, AllInBounds [⟨CdmaObject.numbers, n, i⟩, ⟨.szNumbers, n, i⟩] ↔ i < n := by
    intro n i
    rw [AllInBounds, List.forall_mem_cons, List.forall_mem_singleton]
    exact and_self_iff
  rw [AddressFits, hempty]
  simp only [addressAccesses]
  by_cases hplain : PlainAddress pOrigAddrBuf
  · rw [if_pos hplain, forall_prop_of_true hplain]
    simp only [allInBounds_append, allInBounds_flatMap_range, helements, allInBounds_span,
      allInBounds_unpackAccesses _ _ _ (show 0 < 1 by decide) (show 1 ≤ 8 by decide),
      allInBounds_unpackAccesses _ _ _ (show 0 < 8 by decide) (show 8 ≤ 8 by decide),
      allInBounds_unpackAccesses _ _ _ (show 0 < 4 by decide) (show 4 ≤ 8 by decide)]
    generalize addressDigits pOrigAddrBuf = digits
    constructor
    · rintro ⟨⟨hone, -⟩, ⟨hcount, hdigits⟩, hwords⟩
      refine ⟨by omega, ?_, by omega⟩
      -- the last digit lies in the address
      rcases Nat.eq_zero_or_pos digits with hzero | hsome
      · omega
      · have hlast := (hdigits (digits - 1) (Nat.sub_one_lt_of_lt hsome)).1
        omega
    · rintro ⟨hone, hin, hfew⟩
      exact ⟨⟨by omega, by omega⟩, ⟨by omega, fun i hi => ⟨by omega, by omega⟩⟩, by omega⟩
  · rw [if_neg hplain, forall_prop_of_false hplain, List.append_nil, and_true]
    simp only [allInBounds_append,
      allInBounds_unpackAccesses _ _ _ (show 0 < 1 by decide) (show 1 ≤ 8 by decide)]
    omega

theorem abyteLen_cases (pUserDataBuf : List UInt8) :
    abyteLen pUserDataBuf = 8 ∨ abyteLen pUserDataBuf = 7 := by
  unfold abyteLen
  split_ifs
  · exact .inl rfl
  · exact .inr rfl

theorem allInBounds_userDataAccesses (pUserDataBuf : List UInt8) :
    AllInBounds (userDataAccesses pUserDataBuf) ↔ UserDataFits pUserDataBuf := by
  have hlen := abyteLen_cases pUserDataBuf
  have hchar : ∀ i, AllInBounds [⟨CdmaObject.msgBody, userDataChars pUserDataBuf, i⟩] ↔
      i < userDataChars pUserDataBuf := fun i => List.forall_mem_singleton
  simp only [userDataAccesses, UserDataFits, allInBounds_append, allInBounds_flatMap_range, hchar,
    allInBounds_unpackAccesses _ _ _ (show 0 < 5 by decide) (show 5 ≤ 8 by decide),
    allInBounds_unpackAccesses _ _ _ (show 0 < 8 by decide) (show 8 ≤ 8 by decide),
    allInBounds_unpackAccesses _ _ _ (show 0 < abyteLen pUserDataBuf by omega)
      (show abyteLen pUserDataBuf ≤ 8 by omega)]
  generalize userDataChars pUserDataBuf = chars
  rcases hlen with h | h
  all_goals
    rw [h]
    constructor
    · rintro ⟨⟨-, hcount⟩, hchars⟩
      rcases Nat.eq_zero_or_pos chars with hzero | hsome
      · omega
      · have hlast := (hchars (chars - 1) (Nat.sub_one_lt_of_lt hsome)).1
        omega
    · intro hin
      exact ⟨⟨by omega, by omega⟩, fun i hi => ⟨by omega, hi⟩⟩

/-- A walk reads nothing but its buffer exactly if no step asks for more than what is left. -/
theorem allInBounds_walkAccesses {σ : Type*} (object : CdmaObject) {size : ℕ}
    (reads copies : List UInt8 → ℕ) {vs : List (Visit UInt8 σ)}
    (hle : ∀ v ∈ vs, v.1.length ≤ size) :
    AllInBounds (walkAccesses object size reads copies vs) ↔ Inside reads vs := by
  have hvisit : ∀ v ∈ vs, AllInBounds (span object size (size - v.1.length) (reads v.1) ++
      span .copy (copies v.1) 0 (copies v.1)) ↔ reads v.1 ≤ v.1.length := by
    intro v hv
    have hsize := hle v hv
    rw [allInBounds_append, allInBounds_span, allInBounds_span]
    omega
  constructor
  · intro h v hv
    exact (hvisit v hv).mp fun a ha => h a (List.mem_flatMap.mpr ⟨v, hv, ha⟩)
  · intro h a ha
    obtain ⟨v, hv, ha⟩ := List.mem_flatMap.mp ha
    exact (hvisit v hv).mpr (h v hv) a ha

theorem allInBounds_bearerAccesses (pBearerDataBuf : List UInt8) :
    AllInBounds (bearerAccesses pBearerDataBuf) ↔
      ∃ r, Fits bearerLayout pBearerDataBuf r := by
  rw [bearerAccesses, allInBounds_walkAccesses _ _ _ fun v hv => length_le_of_mem_visits hv]
  exact inside_iff_fits follows_bearer _

theorem allInBounds_textAccesses (pBearerDataBuf : List UInt8) :
    AllInBounds (textAccesses pBearerDataBuf) ↔ BearerFits pBearerDataBuf := by
  -- what is read of the text, once the subparameters are known
  have htext : ∀ r, Fits bearerLayout pBearerDataBuf r →
      (AllInBounds (match DecodeBearerData pBearerDataBuf .start with
        | (b, .none) => b.userDataBuf.elim [] userDataAccesses
        | _ => []) ↔
        ∀ subs, r = some subs →
          ∀ userData, lastValue userDataSubIdentifier subs none = some userData →
            UserDataFits userData) := by
    intro r hr
    have hout := (walk_of_fits follows_bearer hr .start).2
    rw [DecodeBearerData, rcOf]
    generalize run bearerWalker pBearerDataBuf .start = end' at hout
    cases r with
    | none =>
        rw [show end'.2 = false from hout]
        exact iff_of_true allInBounds_nil fun _ h => absurd h (Option.some_ne_none _).symm
    | some subs =>
        obtain ⟨hok, hfound⟩ := hout
        have huser : end'.1.userDataBuf = lastValue userDataSubIdentifier subs none :=
          hfound userDataSubIdentifier
        rw [hok, if_pos rfl]
        simp only [Option.some.injEq, forall_eq']
        rw [← huser]
        cases huserData : end'.1.userDataBuf with
        | none => simp [allInBounds_nil]
        | some userData =>
            rw [Option.elim_some, allInBounds_userDataAccesses]
            simp
  rw [textAccesses, allInBounds_append, allInBounds_bearerAccesses]
  constructor
  · rintro ⟨⟨r, hr⟩, hrest⟩
    exact ⟨r, hr, (htext r hr).mp hrest⟩
  · rintro ⟨r, hr, hrest⟩
    exact ⟨⟨r, hr⟩, (htext r hr).mpr hrest⟩

/-- `DecodeOriginAddr` goes on exactly with a plain address. -/
theorem decodeOriginAddr_fst (pOrigAddrBuf : List UInt8) :
    (DecodeOriginAddr pOrigAddrBuf).1 =
      if PlainAddress pOrigAddrBuf then .none else .notSupported := by
  unfold DecodeOriginAddr
  by_cases hplain : PlainAddress pOrigAddrBuf
  · rw [if_pos hplain]
    exact congrArg Prod.fst (if_neg hplain)
  · rw [if_neg hplain]
    exact congrArg Prod.fst (if_pos (not_not.mp hplain))

theorem allInBounds_partsAccesses (p : SplitParams) :
    AllInBounds (partsAccesses p) ↔
      ∀ address, p.origAddrBuf.or p.destAddrBuf = some address →
        AddressFits address ∧
          (PlainAddress address →
            ∀ bearerData, p.bearerDataBuf = some bearerData → BearerFits bearerData) := by
  unfold partsAccesses
  cases haddress : p.origAddrBuf.or p.destAddrBuf with
  | none => exact iff_of_true allInBounds_nil fun _ h => absurd h (Option.some_ne_none _).symm
  | some address =>
      simp only [Option.some.injEq, forall_eq', allInBounds_append, allInBounds_addressAccesses]
      apply and_congr_right
      intro _
      have hrc := decodeOriginAddr_fst address
      generalize DecodeOriginAddr address = result at hrc
      obtain ⟨rc, rest⟩ := result
      by_cases hplain : PlainAddress address
      · rw [if_pos hplain] at hrc
        rw [forall_prop_of_true hplain, show rc = .none from hrc]
        cases hbearer : p.bearerDataBuf with
        | none => simp [allInBounds_nil]
        | some bearerData =>
            simp only [Option.elim_some, allInBounds_textAccesses, Option.some.injEq, forall_eq']
      · rw [if_neg hplain] at hrc
        rw [show rc = .notSupported from hrc]
        exact iff_of_true allInBounds_nil fun h => absurd h hplain

/-- What is accessed behind the walk over the parameters. -/
theorem allInBounds_after_split {bytes : List UInt8} {r : Option (List Field)}
    (hr : Fits splitLayout bytes r) :
    AllInBounds (match SplitParamMTSms .sdk (pointToPointMsg :: bytes) .start with
      | (p, .none) => partsAccesses p
      | _ => []) ↔
      ∀ params, r = some params →
        ∀ address, addressOf params = some address →
          AddressFits address ∧
            (PlainAddress address →
              ∀ bearerData, lastValue bearerDataIdentifier params none = some bearerData →
                BearerFits bearerData) := by
  have hsplit : SplitParamMTSms .sdk (pointToPointMsg :: bytes) .start =
      rcOf (run (splitWalker .sdk) bytes SplitParams.start.cleared) := if_neg (not_not.mpr rfl)
  have hout := (walk_of_fits follows_split hr SplitParams.start.cleared).2
  rw [hsplit, rcOf]
  generalize run (splitWalker .sdk) bytes SplitParams.start.cleared = end' at hout
  cases r with
  | none =>
      rw [show end'.2 = false from hout]
      exact iff_of_true allInBounds_nil fun _ h => absurd h (Option.some_ne_none _).symm
  | some params =>
      obtain ⟨hok, hfound⟩ := hout
      have horig : end'.1.origAddrBuf = lastValue origaddrIdentifier params none :=
        hfound origaddrIdentifier
      have hdest : end'.1.destAddrBuf = lastValue destaddrIdentifier params none :=
        hfound destaddrIdentifier
      have hbearer : end'.1.bearerDataBuf = lastValue bearerDataIdentifier params none :=
        hfound bearerDataIdentifier
      rw [hok, if_pos rfl]
      simp only [Option.some.injEq, forall_eq', addressOf]
      rw [← horig, ← hdest, ← hbearer]
      exact allInBounds_partsAccesses end'.1

/-- Decoding a message stays in the message and in its arrays exactly if the message fits. -/
theorem allInBounds_decodeAccesses_iff (pEncodedSms : List UInt8) :
    AllInBounds (decodeAccesses pEncodedSms) ↔ MessageFits pEncodedSms := by
  cases pEncodedSms with
  | nil =>
      refine iff_of_false (fun h => ?_) not_false
      -- the message type is read of an empty message
      exact absurd (h ⟨CdmaObject.encodedSms, 0, 0⟩ (List.mem_append_left _ (List.mem_append_left _
        List.mem_cons_self))) (Nat.lt_irrefl 0)
  | cons msgType bytes =>
      have hfirst : AllInBounds (span CdmaObject.encodedSms (msgType :: bytes).length 0 1) := by
        rw [allInBounds_span, List.length_cons]
        omega
      rw [decodeAccesses, MessageFits, allInBounds_append]
      by_cases htype : msgType = pointToPointMsg
      · have hsplit : splitAccesses (msgType :: bytes) =
            span .encodedSms (msgType :: bytes).length 0 1 ++
              walkAccesses .encodedSms (msgType :: bytes).length splitReads splitCopies
                (visits (splitWalker .sdk) bytes SplitParams.start.cleared) :=
          congrArg (span CdmaObject.encodedSms (msgType :: bytes).length 0 1 ++ ·)
            (if_neg (not_not.mpr htype))
        have hsize : ∀ v ∈ visits (splitWalker .sdk) bytes SplitParams.start.cleared,
            v.1.length ≤ (msgType :: bytes).length := fun v hv =>
          Nat.le_succ_of_le (length_le_of_mem_visits hv)
        rw [forall_prop_of_true htype, hsplit, allInBounds_append,
          allInBounds_walkAccesses _ _ _ hsize, inside_iff_fits follows_split, htype]
        constructor
        · rintro ⟨⟨-, r, hr⟩, hrest⟩
          exact ⟨r, hr, (allInBounds_after_split hr).mp hrest⟩
        · rintro ⟨r, hr, hrest⟩
          exact ⟨⟨htype ▸ hfirst, r, hr⟩, (allInBounds_after_split hr).mpr hrest⟩
      · have hsplit : splitAccesses (msgType :: bytes) =
            span .encodedSms (msgType :: bytes).length 0 1 ++ [] :=
          congrArg (span CdmaObject.encodedSms (msgType :: bytes).length 0 1 ++ ·) (if_pos htype)
        have hrc : SplitParamMTSms .sdk (msgType :: bytes) .start =
            (SplitParams.start.cleared, .notSupported) := if_pos htype
        rw [forall_prop_of_false htype, hsplit, hrc, List.append_nil]
        exact iff_of_true ⟨hfirst, allInBounds_nil⟩ trivial

/-- A message of a sender with a number of 51 digits, and without a text: behind the number the
bearer data has no subparameters. -/
def messageWithLongNumber : List UInt8 :=
  [0, 2, 27, 0x0c, 0xc0] ++ List.replicate 25 0x11 ++ [8, 0]

/-- The 51st digit is written behind the fifty digits that there is room for. -/
theorem not_allInBounds_messageWithLongNumber :
    ¬ AllInBounds (decodeAccesses messageWithLongNumber) ∧
      ∃ a ∈ decodeAccesses messageWithLongNumber,
        a.object = .numbers ∧ a.index = 50 ∧ a.size = 50 := by
  decide +kernel

end Fit

end Sms

end SierraSdk
