import SierraSdk.Library.Unpack
import SierraSdk.Am.Api

/-!
# The packet codec

The builders and parsers of the AM header, the QMUX SDU preamble and the SDK part write and read
field by field at a packet pointer. The parsers of `Am.Packet` and `Am.Api` read at fixed offsets;
those of this module move the pointer over what was sent and fail where it leaves the packet, so
that they tell how many bytes were read.

`RoundTrips` says of a header that it is built, and that the parser of its kind gets its fields
from what is sent and stops where the builder stopped. AM headers always do. A QMI header does if
the length of its message and the size of the whole packet fit 16 bits. No SDK header does: after
the AM header a builder writes one byte, and `amparsesdkheader` reads seven.
-/

namespace SierraSdk

namespace Am

open Unpacking

/-- `AMSDKRESPVERSION`, `AMSDKRESPPID` and `AMSDKRESPKILL` -/
def amSdkRespVersion : UInt8 := 1
def amSdkRespPid : UInt8 := 3
def amSdkRespKill : UInt8 := 5

/-- `AMSDKVERSIONRESPTOTAL`, `AMSDKPIDRESPTOTAL` and `AMKILLSDKRESPTOTAL` -/
def amSdkVersionRespTotal : ℕ := amHeaderSz + 32
def amSdkPidRespTotal : ℕ := amHeaderSz + 4
def amKillSdkRespTotal : ℕ := amHeaderSz + 1

/-- The length of the packet by the type of an SDK response. -/
def sdkResponseTotal (amsdkrrtype : UInt8) : Option ℕ :=
  if amsdkrrtype = amSdkRespVersion then some amSdkVersionRespTotal
  else if amsdkrrtype = amSdkRespPid then some amSdkPidRespTotal
  else if amsdkrrtype = amSdkRespKill then some amKillSdkRespTotal
  else none

/-- An SDK response. A type that is not known, and a length other than that of the header and
the byte after it, are aborts. -/
def ambuildsdkresponse (amsdk : AmSdkRrParms) (amtype : UInt16) : Option (List UInt8) := do
  let ampacketlength ← sdkResponseTotal amsdk.amsdkrrtype
  let packet := ambuildamheader ⟨amtype, amHdrVersion, 0, UInt16.ofNat ampacketlength⟩ ++ [1]
  if packet.length = ampacketlength then some packet else none

namespace Codec

section Parsers

/-- The 16-bit field at the packet pointer. -/
def piget16 : Unpack UInt8 UInt16 := do
  let lower ← next
  let upper ← next
  return lower.toUInt16 ||| (upper.toUInt16 <<< 8)

/-- The 32-bit field at the packet pointer. -/
def piget32 : Unpack UInt8 UInt32 := do
  let lower ← piget16
  let upper ← piget16
  return lower.toUInt32 ||| (upper.toUInt32 <<< 16)

def amparseamheader : Unpack UInt8 AmHeader := do
  let amtype ← piget16
  let amheaderversion ← piget16
  let amresultcode ← piget32
  let ampacketlength ← piget16
  return ⟨amtype, amheaderversion, amresultcode, ampacketlength⟩

def amparseqmixactionheader : Unpack UInt8 AmQmiRrParms := do
  let amqmisvctype ← next
  let amqmireqtimeout ← piget32
  let amqmixactionlen ← piget16
  let qmiinstanceid ← next
  return ⟨0, amqmixactionlen.toUInt32, amqmireqtimeout, amqmisvctype, qmiinstanceid⟩

def amparsesdkheader : Unpack UInt8 AmSdkRrParms := do
  let amsdkrrtype ← next
  let amsdkreqtimeout ← piget32
  let amsdkxactionlen ← piget16
  return ⟨amsdkxactionlen.toUInt32, amsdkreqtimeout, amsdkrrtype⟩

end Parsers

section Sizes

theorem getD_drop (buf : List UInt8) (i j : ℕ) : (buf.drop i).getD j 0 = buf.getD (i + j) 0 := by
  rw [List.getD_eq_getElem?_getD, List.getElem?_drop, ← List.getD_eq_getElem?_getD]

theorem piget16_drop (buf : List UInt8) (i j : ℕ) :
    Am.piget16 (buf.drop i) j = Am.piget16 buf (i + j) := by
  rw [Am.piget16, Am.piget16, getD_drop, getD_drop, Nat.add_assoc]

theorem piget32_drop (buf : List UInt8) (i j : ℕ) :
    Am.piget32 (buf.drop i) j = Am.piget32 buf (i + j) := by
  rw [Am.piget32, Am.piget32, piget16_drop, piget16_drop, Nat.add_assoc]

theorem takes_piget16 : Takes piget16 2 fun buf => Am.piget16 buf 0 := by
  have h : Takes piget16 (1 + (1 + 0)) fun buf =>
      (buf.getD 0 0).toUInt16 ||| (((buf.drop 1).getD 0 0).toUInt16 <<< 8) :=
    (takes_next 0).bind fun _ => (takes_next 0).bind fun _ => takes_pure _
  simp only [getD_drop] at h
  exact h

theorem takes_piget32 : Takes piget32 4 fun buf => Am.piget32 buf 0 := by
  have h : Takes piget32 (2 + (2 + 0)) fun buf =>
      (Am.piget16 buf 0).toUInt32 ||| ((Am.piget16 (buf.drop 2) 0).toUInt32 <<< 16) :=
    takes_piget16.bind fun _ => takes_piget16.bind fun _ => takes_pure _
  simp only [piget16_drop] at h
  exact h

/-- The header is ten bytes, as `amparseamheader` reads them at their offsets. -/
theorem takes_amparseamheader : Takes amparseamheader amHeaderSz Am.amparseamheader := by
  have h : Takes amparseamheader (2 + (2 + (4 + (2 + 0)))) fun buf =>
      ⟨Am.piget16 buf 0, Am.piget16 (buf.drop 2) 0, Am.piget32 ((buf.drop 2).drop 2) 0,
        Am.piget16 (((buf.drop 2).drop 2).drop 4) 0⟩ :=
    takes_piget16.bind fun _ => takes_piget16.bind fun _ => takes_piget32.bind fun _ =>
      takes_piget16.bind fun _ => takes_pure _
  simp only [List.drop_drop, piget16_drop, piget32_drop] at h
  exact h

/-- The preamble is as long as `AMQMIRRNSZ` says. -/
theorem takes_amparseqmixactionheader :
    Takes amparseqmixactionheader amQmiRrnSz Am.amparseqmixactionheader := by
  have h : Takes amparseqmixactionheader (1 + (4 + (2 + (1 + 0)))) fun buf =>
      ⟨0, (Am.piget16 ((buf.drop 1).drop 4) 0).toUInt32, Am.piget32 (buf.drop 1) 0,
        buf.getD 0 0, (((buf.drop 1).drop 4).drop 2).getD 0 0⟩ :=
    (takes_next 0).bind fun _ => takes_piget32.bind fun _ => takes_piget16.bind fun _ =>
      (takes_next 0).bind fun _ => takes_pure _
  simp only [List.drop_drop, piget16_drop, piget32_drop, getD_drop] at h
  exact h

/-- The SDK part is as long as `AMSDKRRNSZ` says. -/
theorem takes_amparsesdkheader : Takes amparsesdkheader amSdkRrnSz Am.amparsesdkheader := by
  have h : Takes amparsesdkheader (1 + (4 + (2 + 0))) fun buf =>
      ⟨(Am.piget16 ((buf.drop 1).drop 4) 0).toUInt32, Am.piget32 (buf.drop 1) 0,
        buf.getD 0 0⟩ :=
    (takes_next 0).bind fun _ => takes_piget32.bind fun _ => takes_piget16.bind fun _ =>
      takes_pure _
  simp only [List.drop_drop, piget16_drop, piget32_drop] at h
  exact h

end Sizes

section RoundTrips

/-- A header with the fields that its builder is given. -/
inductive HeaderValue where
  | am (header : AmHeader)
  | qmi (amtype : UInt16) (parms : AmQmiRrParms)
  | sdkRequest (parms : AmSdkRrParms)
  | sdkResponse (parms : AmSdkRrParms)

/-- What the builder writes, if it does not abort. -/
def HeaderValue.built : HeaderValue → Option (List UInt8)
  | .am header => some (ambuildamheader header)
  | .qmi amtype parms => some (ambuildqmixactionheader parms amtype)
  | .sdkRequest parms => ambuildsdkrequest parms AmMsgType.sdkRequest
  | .sdkResponse parms => ambuildsdkresponse parms AmMsgType.sdkResponse

/-- What the caller of the builder sends, with `behind` in the buffer behind what was written. The
length of a QMI message is added in 16 bits. `amkillsdk` sends as many bytes as were written, from
the pointer that the builder moved behind them. -/
def HeaderValue.sent (packet behind : List UInt8) : HeaderValue → List UInt8
  | .am _ => packet
  | .qmi _ parms =>
      (packet ++ behind).take
        (UInt16.ofNat amQmiTotal + parms.amqmixactionlen.toUInt16).toNat
  | .sdkRequest _ => packet
  | .sdkResponse _ => behind.take packet.length

/-- The parser of a header: the AM header, and the part of its kind. -/
def HeaderValue.parser : HeaderValue → Unpack UInt8 HeaderValue
  | .am _ => return .am (← amparseamheader)
  | .qmi _ _ => do
      let header ← amparseamheader
      let parms ← amparseqmixactionheader
      return .qmi header.amtype { parms with amresultcode := header.amresultcode }
  | .sdkRequest _ => do
      let _ ← amparseamheader
      return .sdkRequest (← amparsesdkheader)
  | .sdkResponse _ => do
      let _ ← amparseamheader
      return .sdkResponse (← amparsesdkheader)

/-- The header is built, and whatever is behind it in the buffer, the parser gets its fields from
what is sent and stops behind what was built. -/
def RoundTrips (value : HeaderValue) : Prop :=
  ∃ packet ∈ value.built, ∀ behind,
    value.parser.run (value.sent packet behind) =
      some (value, (value.sent packet behind).drop packet.length)

/-- The size of a QMI packet with its message fits 16 bits. -/
def Fits : HeaderValue → Prop
  | .am _ => True
  | .qmi _ parms => parms.amqmixactionlen.toNat + amQmiTotal < 2 ^ 16
  | .sdkRequest _ => False
  | .sdkResponse _ => False

instance (value : HeaderValue) : Decidable (Fits value) :=
  match value with
  | .am _ => .isTrue trivial
  | .qmi _ _ => inferInstanceAs (Decidable (_ < _))
  | .sdkRequest _ | .sdkResponse _ => .isFalse id

/-- The two parts of a QMI packet. -/
theorem takes_qmi (amtype : UInt16) (parms : AmQmiRrParms) :
    Takes (HeaderValue.parser (.qmi amtype parms)) amQmiTotal fun buf =>
      .qmi (Am.amparseamheader buf).amtype
        { Am.amparseqmixactionheader (buf.drop amHeaderSz) with
          amresultcode := (Am.amparseamheader buf).amresultcode } :=
  takes_amparseamheader.bind fun _ => takes_amparseqmixactionheader.bind fun _ => takes_pure _

theorem length_ambuildamheader (header : AmHeader) :
    (ambuildamheader header).length = amHeaderSz := rfl

theorem length_ambuildqmixactionheader (parms : AmQmiRrParms) (amtype : UInt16) :
    (ambuildqmixactionheader parms amtype).length = amQmiTotal := rfl

/-- The preamble that was built is parsed back, with the length in 16 bits. -/
theorem amparseqmixactionheader_ambuildqmixactionheader (parms : AmQmiRrParms) (amtype : UInt16)
    (rest : List UInt8) :
    Am.amparseqmixactionheader ((ambuildqmixactionheader parms amtype ++ rest).drop amHeaderSz) =
      { parms with
        amresultcode := 0
        amqmixactionlen := parms.amqmixactionlen.toUInt16.toUInt32 } := by
  have htimeout := piget32_piput32 parms.amqmireqtimeout [parms.amqmisvctype]
    (piput16 parms.amqmixactionlen.toUInt16 ++ ([parms.qmiinstanceid] ++ rest))
  have hlength := piget16_piput16 parms.amqmixactionlen.toUInt16
    ([parms.amqmisvctype] ++ piput32 parms.amqmireqtimeout) ([parms.qmiinstanceid] ++ rest)
  have hdrop : (ambuildqmixactionheader parms amtype ++ rest).drop amHeaderSz =
      [parms.amqmisvctype] ++ piput32 parms.amqmireqtimeout ++
        piput16 parms.amqmixactionlen.toUInt16 ++ ([parms.qmiinstanceid] ++ rest) := rfl
  rw [hdrop]
  simp only [Am.amparseqmixactionheader, AmQmiRrParms.mk.injEq]
  refine ⟨trivial, congrArg UInt16.toUInt32 hlength, ?_, rfl, rfl⟩
  rw [List.append_assoc _ _ ([parms.qmiinstanceid] ++ rest)]
  exact htimeout

/-- What the parser gets from a QMI packet: the fields, with the length in 16 bits. -/
theorem run_qmi {amtype : UInt16} {parms : AmQmiRrParms} {buf rest : List UInt8}
    (h : buf = ambuildqmixactionheader parms amtype ++ rest) :
    (HeaderValue.parser (.qmi amtype parms)).run buf =
      some (.qmi amtype
        { parms with amqmixactionlen := parms.amqmixactionlen.toUInt16.toUInt32 },
        buf.drop amQmiTotal) := by
  have hlength : amQmiTotal ≤ buf.length := by
    rw [h, List.length_append, length_ambuildqmixactionheader]
    exact Nat.le_add_right _ _
  have hheader : Am.amparseamheader buf = ⟨amtype, amHdrVersion, parms.amresultcode,
      (UInt32.ofNat amQmiRrnSz + parms.amqmixactionlen).toUInt16⟩ := by
    rw [h, ambuildqmixactionheader, List.append_assoc, List.append_assoc, List.append_assoc,
      List.append_assoc]
    exact amparseamheader_ambuildamheader _ _
  rw [(takes_qmi amtype parms).run_eq hlength, hheader, h,
    amparseqmixactionheader_ambuildqmixactionheader]

/-- The number of bytes that are sent of a QMI packet. -/
theorem qmi_size (len : UInt32) :
    (UInt16.ofNat amQmiTotal + len.toUInt16).toNat = (amQmiTotal + len.toNat) % 2 ^ 16 := by
  have htotal : (UInt16.ofNat amQmiTotal).toNat = amQmiTotal := rfl
  rw [UInt16.toNat_add, UInt32.toNat_toUInt16, htotal, Nat.add_mod_mod]

/-- A QMI header that fits is sent as a whole, with what is behind it. -/
theorem sent_of_fits {amtype : UInt16} {parms : AmQmiRrParms}
    (h : parms.amqmixactionlen.toNat + amQmiTotal < 2 ^ 16) (behind : List UInt8) :
    HeaderValue.sent (ambuildqmixactionheader parms amtype) behind (.qmi amtype parms) =
      ambuildqmixactionheader parms amtype ++ behind.take parms.amqmixactionlen.toNat := by
  have hsize : (UInt16.ofNat amQmiTotal + parms.amqmixactionlen.toUInt16).toNat =
      (ambuildqmixactionheader parms amtype).length + parms.amqmixactionlen.toNat := by
    rw [qmi_size, Nat.mod_eq_of_lt (Nat.add_comm _ _ ▸ h), length_ambuildqmixactionheader]
  rw [HeaderValue.sent, hsize, List.take_length_add_append]

theorem roundTrips_qmi_iff (amtype : UInt16) (parms : AmQmiRrParms) :
    RoundTrips (.qmi amtype parms) ↔ Fits (.qmi amtype parms) := by
  constructor
  · rintro ⟨packet, hpacket, h⟩
    obtain rfl := Option.some.inj hpacket
    have hrun := h []
    rw [HeaderValue.sent, List.append_nil] at hrun
    by_cases hsize : amQmiTotal ≤ (amQmiTotal + parms.amqmixactionlen.toNat) % 2 ^ 16
    · -- the whole header is sent, so that its length field is the length
      have hwhole : (ambuildqmixactionheader parms amtype).length ≤
          (UInt16.ofNat amQmiTotal + parms.amqmixactionlen.toUInt16).toNat := by
        rw [qmi_size]
        exact hsize
      rw [List.take_of_length_le hwhole, run_qmi (List.append_nil _).symm] at hrun
      have hvalue := congrArg Prod.fst (Option.some.inj hrun)
      injection hvalue with _ hparms
      have hlen := congrArg (fun parms => parms.amqmixactionlen.toNat) hparms
      simp only [UInt16.toNat_toUInt32, UInt32.toNat_toUInt16] at hlen
      have hlt : parms.amqmixactionlen.toNat < 2 ^ 16 := hlen ▸ Nat.mod_lt _ (Nat.two_pow_pos 16)
      simp only [Fits, amQmiTotal, amQmiRrnSz, amHeaderSz] at hsize ⊢
      omega
    · -- the parser reads behind what is sent
      have hshort : ((ambuildqmixactionheader parms amtype).take
          (UInt16.ofNat amQmiTotal + parms.amqmixactionlen.toUInt16).toNat).length <
            amQmiTotal := by
        rw [List.length_take, qmi_size]
        exact Nat.lt_of_le_of_lt (Nat.min_le_left _ _) (Nat.not_le.mp hsize)
      rw [(takes_qmi amtype parms).run_eq_none hshort] at hrun
      exact absurd hrun.symm (Option.some_ne_none _)
  · intro h
    have hlt : parms.amqmixactionlen.toNat < 2 ^ 16 := Nat.lt_of_le_of_lt (Nat.le_add_right _ _) h
    have hlen : parms.amqmixactionlen.toUInt16.toUInt32 = parms.amqmixactionlen := by
      apply UInt32.toNat_inj.mp
      rw [UInt16.toNat_toUInt32, UInt32.toNat_toUInt16, Nat.mod_eq_of_lt hlt]
    refine ⟨_, rfl, fun behind => ?_⟩
    rw [run_qmi (sent_of_fits h behind), hlen, length_ambuildqmixactionheader]

theorem roundTrips_am (header : AmHeader) : RoundTrips (.am header) := by
  have htakes : Takes (HeaderValue.parser (.am header)) amHeaderSz fun buf =>
      .am (Am.amparseamheader buf) :=
    takes_amparseamheader.bind fun _ => takes_pure _
  refine ⟨_, rfl, fun behind => ?_⟩
  have hheader := amparseamheader_ambuildamheader header []
  rw [List.append_nil] at hheader
  rw [HeaderValue.sent, htakes.run_eq (Nat.le_of_eq (length_ambuildamheader header).symm), hheader,
    length_ambuildamheader]

/-- The parts of an SDK packet as its parsers read them. -/
theorem takes_sdk (f : AmSdkRrParms → HeaderValue) :
    Takes (do let _ ← amparseamheader; return f (← amparsesdkheader)) (amHeaderSz + amSdkRrnSz)
      fun buf => f (Am.amparsesdkheader (buf.drop amHeaderSz)) :=
  takes_amparseamheader.bind fun _ => takes_amparsesdkheader.bind fun _ => takes_pure _

/-- An SDK request is one byte behind the AM header. -/
theorem length_ambuildsdkrequest {parms : AmSdkRrParms} {amtype : UInt16} {packet : List UInt8}
    (h : ambuildsdkrequest parms amtype = some packet) : packet.length = amHeaderSz + 1 := by
  obtain ⟨-, ⟨⟩⟩ := Option.ite_none_right_eq_some.mp h
  rfl

/-- So is an SDK response. -/
theorem length_ambuildsdkresponse {parms : AmSdkRrParms} {amtype : UInt16} {packet : List UInt8}
    (h : ambuildsdkresponse parms amtype = some packet) : packet.length = amHeaderSz + 1 := by
  obtain ⟨length, -, h⟩ := Option.bind_eq_some_iff.mp h
  obtain ⟨-, ⟨⟩⟩ := Option.ite_none_right_eq_some.mp h
  rfl

/-- Only the length of a kill response allows for it, the other responses are aborts. -/
theorem ambuildsdkresponse_ne_none_iff (parms : AmSdkRrParms) (amtype : UInt16) :
    ambuildsdkresponse parms amtype ≠ none ↔ parms.amsdkrrtype = amSdkRespKill := by
  by_cases hversion : parms.amsdkrrtype = amSdkRespVersion
  · have habort : ambuildsdkresponse parms amtype = none := by
      rw [ambuildsdkresponse, sdkResponseTotal, if_pos hversion]
      rfl
    rw [habort, hversion]
    decide
  by_cases hpid : parms.amsdkrrtype = amSdkRespPid
  · have habort : ambuildsdkresponse parms amtype = none := by
      rw [ambuildsdkresponse, sdkResponseTotal, if_neg hversion, if_pos hpid]
      rfl
    rw [habort, hpid]
    decide
  rw [ambuildsdkresponse, sdkResponseTotal, if_neg hversion, if_neg hpid]
  by_cases hkill : parms.amsdkrrtype = amSdkRespKill
  · rw [if_pos hkill]
    exact iff_of_true (Option.some_ne_none _) hkill
  · rw [if_neg hkill]
    exact iff_of_false (fun h => h rfl) hkill

/-- The SDK part is not all sent, so that its parser reads behind what is. -/
theorem not_roundTrips_sdkRequest (parms : AmSdkRrParms) : ¬ RoundTrips (.sdkRequest parms) := by
  rintro ⟨packet, hpacket, h⟩
  have hlength : packet.length = amHeaderSz + 1 := length_ambuildsdkrequest hpacket
  have hshort : packet.length < amHeaderSz + amSdkRrnSz := by
    rw [hlength]
    decide
  have hrun := h []
  rw [HeaderValue.sent, HeaderValue.parser, (takes_sdk _).run_eq_none hshort] at hrun
  exact absurd hrun.symm (Option.some_ne_none _)

theorem not_roundTrips_sdkResponse (parms : AmSdkRrParms) : ¬ RoundTrips (.sdkResponse parms) := by
  rintro ⟨packet, hpacket, h⟩
  have hlength : packet.length = amHeaderSz + 1 := length_ambuildsdkresponse hpacket
  have hshort : ∀ behind : List UInt8,
      (behind.take packet.length).length < amHeaderSz + amSdkRrnSz := by
    intro behind
    rw [List.length_take, hlength]
    exact Nat.lt_of_le_of_lt (Nat.min_le_left _ _) (Nat.add_lt_add_left (by decide) _)
  have hrun := h (List.replicate packet.length 0)
  rw [HeaderValue.sent, HeaderValue.parser, (takes_sdk _).run_eq_none (hshort _)] at hrun
  exact absurd hrun.symm (Option.some_ne_none _)

/-- A header is parsed back from what is sent if and only if it fits. -/
theorem roundTrips_iff (value : HeaderValue) : RoundTrips value ↔ Fits value := by
  cases value with
  | am header => exact iff_of_true (roundTrips_am header) trivial
  | qmi amtype parms => exact roundTrips_qmi_iff amtype parms
  | sdkRequest parms => exact iff_of_false (not_roundTrips_sdkRequest parms) id
  | sdkResponse parms => exact iff_of_false (not_roundTrips_sdkResponse parms) id

/-- A kill request with a timeout of two seconds. -/
def killRequest : AmSdkRrParms := ⟨0, 2, amSdkReqKill⟩

/-- `amparsesdkheader` reads six bytes more than were sent of a kill request. -/
theorem not_roundTrips_killRequest :
    ∃ packet ∈ (HeaderValue.sdkRequest killRequest).built, packet.length = 11 ∧
      (HeaderValue.sdkRequest killRequest).parser.run packet = none ∧
        ¬ RoundTrips (.sdkRequest killRequest) := by
  refine ⟨_, rfl, rfl, rfl, ?_⟩
  exact not_roundTrips_sdkRequest killRequest

end RoundTrips

end Codec

end Am

end SierraSdk
