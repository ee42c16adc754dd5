import SierraSdk.Sms.CdmaAddress

/-!
# The envelope of a CDMA message

`EncodeTeleServiceHdr`, `EncodeBearerReplyOptionHdr` and `EncodeBearerData` make the parameters
around the address and the bearer data of a message that a mobile sends. The SDK and the RIL have
each a copy of them; the RIL has the teleservice identifier from its caller, the SDK always takes
the default value.

Splitting such a message gives the address and the bearer data back (`splitParamMTSms_envelope`),
and the teleservice identifier as the copy of `SplitParamMTSms` reads it.
-/

namespace SierraSdk

namespace Sms

open Walk

/-- `TELESERVICE_ID_VALUE` of the SDK, `TELESERVICE_ID_DEFAULT_VALUE` of the RIL -/
def teleserviceIdDefaultValue : UInt16 := 4098

/-- `MAX_SMS_MSG_LEN` -/
def maxSmsMsgLen : ℕ := 160

/-- The bytes that `strncpy` writes: those up to a zero, and zeros from there on. -/
def strncpy (src : List UInt8) (n : ℕ) : List UInt8 := (src.takeWhile fun c => c ≠ 0).takeD n 0

/-- The high byte, and the low byte, of two. -/
def wordBytes (w : UInt16) : List UInt8 := [(w >>> 8).toUInt8, w.toUInt8]

/-- `EncodeTeleServiceHdr`, with the message type before it. -/
def EncodeTeleServiceHdr (teleidvalue : UInt16) : List UInt8 :=
  pointToPointMsg :: teleserviceIdentifier :: teleserviceHdrLen :: wordBytes teleidvalue

def EncodeBearerReplyOptionHdr : List UInt8 := [bearerReplyIdentifier, bearerReplyHdrLen, 0]

def EncodeBearerData (DataLen : UInt8) : List UInt8 := [bearerDataIdentifier, DataLen]

/-- A message, copied together layer by layer. -/
def envelope (teleidvalue : UInt16) (destAddrBuf bearerDataBuf : List UInt8) : List UInt8 :=
  EncodeTeleServiceHdr teleidvalue ++ (EncodeBearerReplyOptionHdr ++ (destAddrBuf ++
    (EncodeBearerData (UInt8.ofNat bearerDataBuf.length) ++ bearerDataBuf)))

theorem length_envelope (teleidvalue : UInt16) (destAddrBuf bearerDataBuf : List UInt8) :
    (envelope teleidvalue destAddrBuf bearerDataBuf).length =
      5 + (3 + (destAddrBuf.length + (2 + bearerDataBuf.length))) := by
  simp only [envelope, List.length_append]
  rfl

theorem word_wordBytes (w : UInt16) : word (wordBytes w) = w := by
  have hhigh : (w >>> 8).toNat = w.toNat / 256 := by
    rw [UInt16.toNat_shiftRight]
    exact Nat.shiftRight_eq_div_pow w.toNat 8
  have hlt := w.toNat_lt
  apply UInt16.toNat_inj.mp
  simp [word, wordBytes, hhigh, Nat.shiftLeft_eq]
  omega

section Split

variable (codec : Codec) (teleidvalue : UInt16) (p : SplitParams)

/-- The first step, over the teleservice identifier. -/
theorem splitStep_teleService (rest : List UInt8) :
    splitStep codec (teleserviceIdentifier :: teleserviceHdrLen ::
        (wordBytes teleidvalue ++ rest)) p =
      ({ p with teleServiceIdValue := teleServiceId codec (wordBytes teleidvalue) },
        some rest) := by
  cases codec <;> rfl

theorem splitParamMTSms_cons (rest : List UInt8) :
    SplitParamMTSms codec (pointToPointMsg :: rest) p =
      rcOf (run (splitWalker codec) rest p.cleared) :=
  if_neg (not_not.mpr rfl)

/-- An address or bearer data is taken as a whole. -/
theorem splitOk_of_copied {q : Param}
    (hq : q.identifier = destaddrIdentifier ∨ q.identifier = bearerDataIdentifier) :
    SplitOk codec q := by
  rcases hq with hq | hq
  all_goals
    rw [SplitOk, hq, if_neg (by decide), if_neg (by decide), if_neg (by decide)]
    decide

/-- The parameters behind the teleservice identifier. -/
theorem envelope_eq {q : Param} {bearer : List UInt8} (hlen : bearer.length < 256) :
    envelope teleidvalue q.bytes bearer =
      pointToPointMsg :: teleserviceIdentifier :: teleserviceHdrLen ::
        (wordBytes teleidvalue ++
          [(⟨bearerReplyIdentifier, [0], by decide⟩ : Param), q,
            ⟨bearerDataIdentifier, bearer, hlen⟩].flatMap Param.bytes) := by
  simp only [List.flatMap_cons, List.flatMap_nil, List.append_nil]
  rfl

theorem splitParamMTSms_envelope {q : Param} (hq : q.identifier = destaddrIdentifier)
    {bearer : List UInt8} (hlen : bearer.length < 256) :
    SplitParamMTSms codec (envelope teleidvalue q.bytes bearer) p =
      ({ p with
          teleServiceIdValue := teleServiceId codec (wordBytes teleidvalue)
          origAddrBuf := none
          destAddrBuf := some q.value
          bearerReplySeq := 0
          bearerDataBuf := some bearer }, .none) := by
  have hok : ∀ r ∈ [(⟨bearerReplyIdentifier, [0], by decide⟩ : Param), q,
      ⟨bearerDataIdentifier, bearer, hlen⟩], SplitOk codec r := by
    simp only [List.forall_mem_cons]
    exact ⟨rfl, splitOk_of_copied codec (Or.inl hq), splitOk_of_copied codec (Or.inr rfl),
      List.forall_mem_nil _⟩
  rw [envelope_eq teleidvalue hlen, splitParamMTSms_cons,
    run_of_some (List.cons_ne_nil _ _) (splitStep_teleService codec teleidvalue p.cleared _),
    run_split hok]
  simp only [putAll, List.foldl_cons, List.foldl_nil, SplitParams.put, hq]
  rfl

end Split

end Sms

end SierraSdk
