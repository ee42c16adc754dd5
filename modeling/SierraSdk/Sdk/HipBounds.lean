import SierraSdk.Sdk.HipPacket

/-!
# What is read from a received HIP packet

A received packet lies in a buffer, behind a reserve for the headers of package am. `hpdispatch`
hands the payload to the handler that is registered for the message, with the length that the packet
announces. Some handlers forward a part of the payload to an application, with a header that is
built in place in front of it, or with values that are copied. Positions are counted from the start
of the buffer.

Neither `hpdispatch` nor a handler compares an announced length with the number of bytes that were
received (`bounded_iff_fits`).
-/

namespace SierraSdk

namespace Sdk

section Buffer

/-- `HPRESERVE`, the room in front of a packet. -/
def hpReserve : ℕ := 20

/-- A received packet, and what the memory behind it has. -/
structure RxBuffer where
  packet : List UInt8
  behind : List UInt8

/-- The memory from a position on, which is not in front of the packet. -/
def RxBuffer.read (buf : RxBuffer) (position : ℕ) : List UInt8 :=
  (buf.packet ++ buf.behind).drop (position - hpReserve)

/-- Some bytes lie in the received packet. -/
def RxBuffer.Holds (buf : RxBuffer) (start count : ℕ) : Prop :=
  ∀ i, start ≤ i → i < start + count → hpReserve ≤ i ∧ i < hpReserve + buf.packet.length

theorem RxBuffer.holds_iff (buf : RxBuffer) {start count : ℕ} (hstart : hpReserve ≤ start) :
    buf.Holds start count ↔
      count = 0 ∨ start + count ≤ hpReserve + buf.packet.length := by
  constructor
  · intro h
    by_cases hzero : count = 0
    · exact .inl hzero
    · have hlast := h (start + count - 1) (by omega) (by omega)
      omega
  · rintro (rfl | hle) i hi hlt
    · omega
    · omega

end Buffer

section Dispatch

/-- The functions that are registered for messages. -/
inductive HipHandler where
  | cnRxPacket
  | drdscallback
  | hpdirhipcb
  | hplsireceive
  | hpphlbrx
  | hpfwdwnreceive
  deriving DecidableEq

/-- What a handler is called with. -/
structure HipDelivery where
  handler : HipHandler
  msgdesignator : UInt32
  msgparm : UInt8
  payload : ℕ
  payloadlength : UInt16
  errorflg : Bool
  deriving DecidableEq

/-- A received packet is dropped if its ids are not those of a message of the modem, or if no
handler is registered for it. -/
def hpdispatch (hplookupinfo : UInt32 → Option HipHandler) (buf : RxBuffer) (errorflg : Bool) :
    Option HipDelivery :=
  let parsed := hpparsehdr .forward (buf.read hpReserve)
  if parsed.2 then
    (hplookupinfo parsed.1.msgdesignator).map fun handler =>
      ⟨handler, parsed.1.msgdesignator, parsed.1.msgparm, hpReserve + parsed.1.payload,
        parsed.1.payloadlen, errorflg⟩
  else none

end Dispatch

section Handlers

/-- `AMDEMUXDATAINDTOTAL` -/
def amDemuxDataIndTotal : UInt16 := UInt16.ofNat (2 + amHeaderSz)

/-- What a handler sends to an application: nothing, an abort, as the header in front of the payload
does not fit in the buffer, a packet in the buffer that starts with a header, or bytes that are
copied. -/
inductive HipForward where
  | nothing
  | headerTooBig
  | inPlace (amhdr payload size : ℕ)
  | copied (start count : ℕ)
  deriving DecidableEq

/-- The place of a header in front of a payload; `none` is an abort. -/
def amgethdrptr (parm : ℕ) (total : UInt16) : Option ℕ :=
  if 0 + total.toNat ≤ parm then some (parm - total.toNat) else none

/-- A packet with a header that is built in place. -/
def sendInPlace (parm : ℕ) (total outipcsize : UInt16) : HipForward :=
  match amgethdrptr parm total with
  | none => .headerTooBig
  | some amhdr => .inPlace amhdr parm outipcsize.toNat

/-- `cnHandleNotify` -/
def cnHandleNotify (buf : RxBuffer) (cnshdr : ℕ) : HipForward :=
  let cnsargs := cnsParseHeader (buf.read cnshdr)
  sendInPlace (cnshdr + cnsHeaderSz) amCnsNotfTotal (amCnsNotfTotal + cnsargs.cnslength)

/-- The part of `cncnship` that forwards a response. -/
def cnForwardResponse (s : CnRrTcb) (buf : RxBuffer) (cnshdr : ℕ) : HipForward :=
  let cnsargs := cnsParseHeader (buf.read cnshdr)
  if (cnsValidateResponse s cnsargs.cnsobjid cnsargs.cnsoperation).2 then
    let cnslength := if cnsargs.cnserrflag then cnsargs.cnslength + 1 else cnsargs.cnslength
    sendInPlace (cnshdr + cnsHeaderSz) amCnsRespTotal (amCnsRespTotal + cnslength)
  else .nothing

/-- `drdscallback` -/
def drForward (drsendenabled : Bool) (d : HipDelivery) : HipForward :=
  if drsendenabled then
    sendInPlace d.payload amDemuxDataIndTotal (amDemuxDataIndTotal + d.payloadlength)
  else .nothing

/-- The TLV of a device information response that holds the product string. -/
def hpmDevReqPrdStr : UInt8 := 0x02

/-- The TLVs that hold a value of one byte. -/
def hpmDevReqValues : List UInt8 := [0x01, 0x03, 0x04, 0x05]

/-- The bytes that `hpprocdirresp` copies into its response: version, status and the length of the
TLV, and what the TLV holds if the status is good. -/
def hpprocdirresp (buf : RxBuffer) (d : HipDelivery) : HipForward :=
  if d.errorflg then .nothing
  else if (hpdesignator2msgid d.msgdesignator).1 = HipDirection.forward.maxMsgId then
    let datap := buf.read d.payload
    let reqstat := datap.getD 2 0
    let tlvtype := datap.getD 3 0
    let tlvlen := datap.getD 4 0
    if reqstat = 0 then
      if tlvtype = hpmDevReqPrdStr then .copied d.payload (5 + tlvlen.toNat)
      else if tlvtype ∈ hpmDevReqValues then .copied d.payload 6
      else .copied d.payload 5
    else .copied d.payload 5
  else .nothing

/-- What is forwarded of a packet. The other handlers forward nothing. -/
def hipForward (s : CnRrTcb) (drsendenabled : Bool) (buf : RxBuffer) (d : HipDelivery) :
    HipForward :=
  match d.handler with
  | .cnRxPacket =>
      match cnsreadoptype (buf.read d.payload) with
      | none => .nothing
      | some optype =>
          if optype = 0x07 then cnHandleNotify buf d.payload
          else cnForwardResponse s buf d.payload
  | .drdscallback => drForward drsendenabled d
  | .hpdirhipcb => hpprocdirresp buf d
  | .hplsireceive | .hpphlbrx | .hpfwdwnreceive => .nothing

end Handlers

section Bounds

/-- The bytes of a received payload that are forwarded: where they start, and how many. -/
def HipForward.range : HipForward → ℕ × ℕ
  | .inPlace amhdr payload size => (payload, amhdr + size - payload)
  | .copied start count => (start, count)
  | .nothing | .headerTooBig => (hpReserve, 0)

/-- All that is handed to a handler and all that is forwarded was received, and a header in front of
it fits in the buffer. -/
structure HipBounded (buf : RxBuffer) (d : HipDelivery) (forward : HipForward) : Prop where
  handed : buf.Holds d.payload d.payloadlength.toNat
  forwarded : buf.Holds forward.range.1 forward.range.2
  header : forward ≠ .headerTooBig

/-- Whether a header has an extended message id. -/
def hipExtended (msghdr : List UInt8) : Bool :=
  hpMsgIdMsk &&& (msghdr.getD 2 0).toUInt32 = HipDirection.forward.extended

/-- The length that a header announces, which counts a pad byte. -/
def hipAnnounced (msghdr : List UInt8) : UInt16 :=
  piget16 msghdr 0 &&& (if hipExtended msghdr then hpExtPayLenMsk else hpPayLenMsk)

/-- How many pad bytes there are. -/
def hipPad (msghdr : List UInt8) : ℕ :=
  if hpPadBMsk &&& msghdr.getD 2 0 ≠ 0 ∧ 0 < hipAnnounced msghdr then 1 else 0

/-- Where the payload starts, counted from the start of the header. -/
def hipStart (msghdr : List UInt8) : ℕ :=
  (if hipExtended msghdr then hpHdrLengthExt else hpHdrLength) + hipPad msghdr

/-- The bytes of a field of length `n` that are sent behind a header: none if the size of the packet
is too large for its two bytes. -/
def sentBytes (total : UInt16) (n : ℕ) : ℕ := if total.toNat + n < 2 ^ 16 then n else 0

/-- Where in a payload the bytes that are forwarded start, and how many there are. -/
def hipReach (s : CnRrTcb) (drsendenabled errorflg extended : Bool) (handler : HipHandler)
    (payload : List UInt8) (length : ℕ) : ℕ × ℕ :=
  let cns := cnsParseHeader payload
  match handler with
  | .cnRxPacket =>
      if cnsreadoptype payload = some 0x07 then
        (cnsHeaderSz, sentBytes amCnsNotfTotal cns.cnslength.toNat)
      else if (cnsreadoptype payload).isSome ∧
          (cnsValidateResponse s cns.cnsobjid cns.cnsoperation).2 then
        (cnsHeaderSz,
          sentBytes amCnsRespTotal (cns.cnslength.toNat + if cns.cnserrflag then 1 else 0))
      else (0, 0)
  | .drdscallback => (0, if drsendenabled then sentBytes amDemuxDataIndTotal length else 0)
  | .hpdirhipcb =>
      if errorflg ∨ extended = false then (0, 0)
      else if payload.getD 2 0 = 0 ∧ payload.getD 3 0 = hpmDevReqPrdStr then
        (0, 5 + (payload.getD 4 0).toNat)
      else if payload.getD 2 0 = 0 ∧ payload.getD 3 0 ∈ hpmDevReqValues then (0, 6)
      else (0, 5)
  | _ => (0, 0)

/-- The announced lengths fit in what was received: that of the header, and that of what a handler
forwards. -/
def HipFits (s : CnRrTcb) (drsendenabled errorflg : Bool) (buf : RxBuffer) (handler : HipHandler) :
    Prop :=
  let msghdr := buf.packet ++ buf.behind
  let length := (hipAnnounced msghdr).toNat - hipPad msghdr
  let reach := hipReach s drsendenabled errorflg (hipExtended msghdr) handler
    (msghdr.drop (hipStart msghdr)) length
  (length = 0 ∨ hipStart msghdr + length ≤ buf.packet.length) ∧
    (reach.2 = 0 ∨ hipStart msghdr + reach.1 + reach.2 ≤ buf.packet.length)

/-- The message id of a header. -/
def hipMsgId (msghdr : List UInt8) : UInt32 := hpMsgIdMsk &&& (msghdr.getD 2 0).toUInt32

theorem hipMsgId_of_valid {msghdr : List UInt8} (h : (hpparsehdr .forward msghdr).2 = true) :
    (decide (hipMsgId msghdr > HipDirection.forward.maxMsgId) ||
      decide (hipMsgId msghdr < HipDirection.forward.minMsgId)) = false := by
  simp only [hpparsehdr, apply_ite Prod.snd, ite_self, Bool.not_eq_true', Bool.or_eq_false_iff]
    at h
  exact Bool.or_eq_false_iff.mpr h.1

/-- A header with an id of the modem: where the payload starts and how long it is. -/
theorem hpparsehdr_forward {msghdr : List UInt8} (h : (hpparsehdr .forward msghdr).2 = true) :
    (hpparsehdr .forward msghdr).1.payload = hipStart msghdr ∧
      (hpparsehdr .forward msghdr).1.payloadlen.toNat =
        (hipAnnounced msghdr).toNat - hipPad msghdr := by
  have hbad := hipMsgId_of_valid h
  have hextended : (!false && decide (hipMsgId msghdr = HipDirection.forward.extended)) =
      hipExtended msghdr := Bool.true_and _
  rw [hipMsgId] at hbad hextended
  have hlength : (piget16 msghdr 0 &&&
      if hipExtended msghdr = true then hpExtPayLenMsk else hpPayLenMsk) =
        hipAnnounced msghdr := rfl
  simp only [hpparsehdr, hbad, hextended, hlength, hipStart, hipPad, Bool.false_eq_true, if_false]
  by_cases hpad : hpPadBMsk &&& msghdr.getD 2 0 ≠ 0 ∧ 0 < hipAnnounced msghdr
  · have hcond : (decide (hpPadBMsk &&& msghdr.getD 2 0 ≠ 0) &&
        decide (hipAnnounced msghdr > 0)) = true := by
      rw [← Bool.decide_and]
      exact decide_eq_true hpad
    rw [if_pos hcond, if_pos hpad]
    exact ⟨rfl, UInt16.toNat_sub_of_le _ 1 (UInt16.le_iff_toNat_le.mpr
      (UInt16.lt_iff_toNat_lt.mp hpad.2))⟩
  · have hcond : ¬ (decide (hpPadBMsk &&& msghdr.getD 2 0 ≠ 0) &&
        decide (hipAnnounced msghdr > 0)) = true := by
      rw [← Bool.decide_and, decide_eq_true_eq]
      exact hpad
    rw [if_neg hcond, if_neg hpad]
    exact ⟨rfl, rfl⟩

/-- The designator that is parsed has the escape code exactly if the header has it. -/
theorem hpparsehdr_designator {msghdr : List UInt8} (h : (hpparsehdr .forward msghdr).2 = true) :
    (hpdesignator2msgid (hpparsehdr .forward msghdr).1.msgdesignator).1 =
      HipDirection.forward.maxMsgId ↔ hipExtended msghdr = true := by
  have hbad := hipMsgId_of_valid h
  have hdesignator : (hpparsehdr .forward msghdr).1.msgdesignator =
      hpmsgid2designator .forward (hipMsgId msghdr)
        (if hipExtended msghdr then (piget16 msghdr 4).toUInt32 &&& hpExtMsgIdMsk else 0) := by
    have hextended : (!false && decide (hipMsgId msghdr = HipDirection.forward.extended)) =
        hipExtended msghdr := Bool.true_and _
    rw [hipMsgId] at hbad hextended
    simp only [hpparsehdr, hbad, hextended, apply_ite Prod.fst, apply_ite HipHeader.msgdesignator,
      ite_self]
    rfl
  have hmask : hipMsgId msghdr &&& hpMsgIdMsk = hipMsgId msghdr := by
    rw [hipMsgId, UInt32.and_comm, ← UInt32.and_assoc, UInt32.and_self]
  rw [hdesignator]
  by_cases hid : hipMsgId msghdr = HipDirection.forward.extended
  · have hext : hipExtended msghdr = true := decide_eq_true hid
    have hle : (piget16 msghdr 4).toUInt32 &&& hpExtMsgIdMsk ≤ HipDirection.forward.maxExtMsgId :=
      UInt32.and_le_right
    obtain ⟨hsplit, -⟩ := extmsgid_bits (List.mem_cons_self ..) hle
    rw [hpmsgid2designator, if_pos hid, if_pos hext, hid, hsplit]
    exact ⟨fun _ => hext, fun _ => rfl⟩
  · have hext : ¬ hipExtended msghdr = true := fun hext => hid (of_decide_eq_true hext)
    rw [hpmsgid2designator, if_neg hid]
    refine ⟨fun hmax => ?_, fun htrue => absurd htrue hext⟩
    rw [hpdesignator2msgid, hmask] at hmax
    split_ifs at hmax
    · exact absurd hmax hid
    · exact absurd hmax hid

theorem sendInPlace_range {parm : ℕ} {total n : UInt16} (h : total.toNat ≤ parm) :
    (sendInPlace parm total (total + n)).range = (parm, sentBytes total n.toNat) ∧
      sendInPlace parm total (total + n) ≠ .headerTooBig := by
  have hptr : amgethdrptr parm total = some (parm - total.toNat) := by
    rw [amgethdrptr, if_pos (by omega)]
  simp only [sendInPlace, hptr, HipForward.range]
  refine ⟨?_, HipForward.noConfusion⟩
  have hn := n.toNat_lt
  have htotal := total.toNat_lt
  rw [UInt16.toNat_add, sentBytes]
  split_ifs with hfits
  · rw [Nat.mod_eq_of_lt hfits, Prod.mk.injEq]
    omega
  · have hmod : (total.toNat + n.toNat) % 2 ^ 16 = total.toNat + n.toNat - 2 ^ 16 := by
      omega
    rw [hmod, Prod.mk.injEq]
    omega

/-- A packet that is dispatched, in terms of its announced lengths. -/
theorem hpdispatch_some {hplookupinfo : UInt32 → Option HipHandler} {buf : RxBuffer}
    {errorflg : Bool} {d : HipDelivery} (h : hpdispatch hplookupinfo buf errorflg = some d) :
    d.payload = hpReserve + hipStart (buf.packet ++ buf.behind) ∧
      d.payloadlength.toNat = (hipAnnounced (buf.packet ++ buf.behind)).toNat -
        hipPad (buf.packet ++ buf.behind) ∧
      ((hpdesignator2msgid d.msgdesignator).1 = HipDirection.forward.maxMsgId ↔
        hipExtended (buf.packet ++ buf.behind) = true) ∧ d.errorflg = errorflg := by
  have hread : buf.read hpReserve = buf.packet ++ buf.behind := by
    rw [RxBuffer.read, Nat.sub_self, List.drop_zero]
  rw [hpdispatch, hread] at h
  obtain ⟨hvalid, hmap⟩ := Option.ite_none_right_eq_some.mp h
  obtain ⟨handler, -, rfl⟩ := Option.map_eq_some_iff.mp hmap
  obtain ⟨hpayload, hlength⟩ := hpparsehdr_forward hvalid
  exact ⟨congrArg (hpReserve + ·) hpayload, hlength, hpparsehdr_designator hvalid, rfl⟩

/-- What is forwarded, as far as the buffer is concerned: how many bytes, where they start, and
that no header is too big. -/
def ForwardsAs (forward : HipForward) (payload : ℕ) (reach : ℕ × ℕ) : Prop :=
  forward.range.2 = reach.2 ∧ (reach.2 ≠ 0 → forward.range.1 = payload + reach.1) ∧
    forward ≠ .headerTooBig

theorem forwardsAs_nothing (payload start : ℕ) : ForwardsAs .nothing payload (start, 0) :=
  ⟨rfl, fun h => absurd rfl h, HipForward.noConfusion⟩

theorem forwardsAs_inPlace {payload start : ℕ} {total n : UInt16}
    (h : total.toNat ≤ payload + start) :
    ForwardsAs (sendInPlace (payload + start) total (total + n)) payload
      (start, sentBytes total n.toNat) := by
  obtain ⟨hrange, hheader⟩ := sendInPlace_range (n := n) h
  rw [ForwardsAs, hrange]
  exact ⟨rfl, fun _ => rfl, hheader⟩

theorem forwardsAs_copied (payload count : ℕ) :
    ForwardsAs (.copied payload count) payload (0, count) :=
  ⟨rfl, fun _ => rfl, HipForward.noConfusion⟩

/-- One more byte than a length of two bytes, which may wrap. -/
theorem sentBytes_succ {total n : UInt16} (htotal : 0 < total.toNat) :
    sentBytes total (n + 1).toNat = sentBytes total (n.toNat + 1) := by
  have hn := n.toNat_lt
  rw [UInt16.toNat_add, sentBytes, sentBytes, UInt16.toNat_one]
  by_cases hmax : n.toNat + 1 < 2 ^ 16
  · rw [Nat.mod_eq_of_lt hmax]
  · have hwrap : (n.toNat + 1) % 2 ^ 16 = 0 := by
      rw [show n.toNat + 1 = 2 ^ 16 by omega, Nat.mod_self]
    rw [hwrap]
    split_ifs
    · omega
    · rfl
    · omega
    · rfl

theorem forwardsAs_cnRxPacket (s : CnRrTcb) (drsendenabled : Bool) (buf : RxBuffer)
    {d : HipDelivery} (hhandler : d.handler = .cnRxPacket) (hpayload : 6 ≤ d.payload)
    (extended : Bool) (length : ℕ) :
    ForwardsAs (hipForward s drsendenabled buf d) d.payload
      (hipReach s drsendenabled d.errorflg extended .cnRxPacket (buf.read d.payload) length) := by
  simp only [hipForward, hhandler, hipReach]
  cases hop : cnsreadoptype (buf.read d.payload) with
  | none => simpa using forwardsAs_nothing d.payload 0
  | some optype =>
      by_cases hnotify : optype = 0x07
      · simp only [hnotify, if_true, cnHandleNotify]
        exact forwardsAs_inPlace (Nat.add_le_add hpayload (by decide : 6 ≤ cnsHeaderSz))
      · have hne : some optype ≠ some (0x07 : UInt8) := fun heq => hnotify (Option.some.inj heq)
        simp only [hnotify, hne, if_false, cnForwardResponse, Option.isSome_some, true_and]
        have htotal : amCnsRespTotal.toNat ≤ d.payload + cnsHeaderSz :=
          Nat.add_le_add hpayload (by decide : 10 ≤ cnsHeaderSz)
        generalize cnsParseHeader (buf.read d.payload) = cnsargs
        by_cases hvalid : (cnsValidateResponse s cnsargs.cnsobjid cnsargs.cnsoperation).2 = true
        · rw [if_pos hvalid, if_pos hvalid]
          have hsent := forwardsAs_inPlace
            (n := if cnsargs.cnserrflag then cnsargs.cnslength + 1 else cnsargs.cnslength) htotal
          cases herr : cnsargs.cnserrflag with
          | false => simpa [herr] using hsent
          | true =>
              rw [herr, if_pos rfl, sentBytes_succ (by decide)] at hsent
              exact hsent
        · rw [if_neg hvalid, if_neg hvalid]
          exact forwardsAs_nothing _ _

theorem forwardsAs_hpprocdirresp (s : CnRrTcb) (drsendenabled : Bool) (buf : RxBuffer)
    {d : HipDelivery} (hhandler : d.handler = .hpdirhipcb) {extended : Bool}
    (hextended : (hpdesignator2msgid d.msgdesignator).1 = HipDirection.forward.maxMsgId ↔
      extended = true) (length : ℕ) :
    ForwardsAs (hipForward s drsendenabled buf d) d.payload
      (hipReach s drsendenabled d.errorflg extended .hpdirhipcb (buf.read d.payload) length) := by
  simp only [hipForward, hhandler, hipReach, hpprocdirresp, hextended]
  by_cases herror : d.errorflg = true
  · rw [if_pos herror, if_pos (.inl herror)]
    exact forwardsAs_nothing _ _
  · cases extended with
    | false =>
        rw [if_neg herror, if_neg Bool.false_ne_true, if_pos (.inr rfl)]
        exact forwardsAs_nothing _ _
    | true =>
        have hnone : ¬ (d.errorflg = true ∨ true = false) := by simpa using herror
        rw [if_neg herror, if_pos rfl, if_neg hnone]
        by_cases hstat : (buf.read d.payload).getD 2 0 = 0
        · simp only [hstat, if_true, true_and]
          split_ifs
          · exact forwardsAs_copied _ _
          · exact forwardsAs_copied _ _
          · exact forwardsAs_copied _ _
        · simp only [hstat, if_false, false_and]
          exact forwardsAs_copied _ _

/-- What is forwarded of a packet that is dispatched reaches as far as its announced lengths say. -/
theorem forwardsAs_hipForward (s : CnRrTcb) (drsendenabled : Bool)
    {hplookupinfo : UInt32 → Option HipHandler} {buf : RxBuffer} {errorflg : Bool}
    {d : HipDelivery} (h : hpdispatch hplookupinfo buf errorflg = some d) :
    ForwardsAs (hipForward s drsendenabled buf d) d.payload
      (hipReach s drsendenabled errorflg (hipExtended (buf.packet ++ buf.behind)) d.handler
        ((buf.packet ++ buf.behind).drop (hipStart (buf.packet ++ buf.behind)))
        d.payloadlength.toNat) := by
  obtain ⟨hpayload, hlength, hextended, rfl⟩ := hpdispatch_some h
  have hread : buf.read d.payload =
      (buf.packet ++ buf.behind).drop (hipStart (buf.packet ++ buf.behind)) := by
    rw [RxBuffer.read, hpayload, Nat.add_sub_cancel_left]
  have hroom : hpReserve ≤ d.payload := by
    rw [hpayload]
    exact Nat.le_add_right _ _
  rw [← hread]
  cases hhandler : d.handler with
  | cnRxPacket =>
      exact forwardsAs_cnRxPacket s drsendenabled buf hhandler
        (Nat.le_trans (by decide : 6 ≤ hpReserve) hroom) _ _
  | drdscallback =>
      simp only [hipForward, hhandler, drForward, hipReach]
      cases drsendenabled with
      | false => exact forwardsAs_nothing _ _
      | true =>
          have htotal : amDemuxDataIndTotal.toNat ≤ d.payload + 0 :=
            Nat.le_trans (by decide : 9 ≤ hpReserve) hroom
          exact forwardsAs_inPlace htotal
  | hpdirhipcb => exact forwardsAs_hpprocdirresp s drsendenabled buf hhandler hextended _
  | _ =>
      simp only [hipForward, hhandler, hipReach]
      exact forwardsAs_nothing _ _

theorem ForwardsAs.holds_iff (buf : RxBuffer) {forward : HipForward} {payload start : ℕ}
    {reach : ℕ × ℕ} (h : ForwardsAs forward payload reach)
    (hpayload : payload = hpReserve + start) :
    buf.Holds forward.range.1 forward.range.2 ↔
      reach.2 = 0 ∨ start + reach.1 + reach.2 ≤ buf.packet.length := by
  obtain ⟨hcount, hstart, -⟩ := h
  rw [hcount]
  by_cases hzero : reach.2 = 0
  · rw [hzero]
    exact iff_of_true (fun i hi hlt => absurd hlt (Nat.not_lt.mpr hi)) (.inl rfl)
  · rw [hstart hzero, buf.holds_iff (by omega), hpayload]
    omega

/-- All that is handed and forwarded was received if and only if the announced lengths fit. -/
theorem hipBounded_iff (s : CnRrTcb) (drsendenabled : Bool)
    {hplookupinfo : UInt32 → Option HipHandler} {buf : RxBuffer} {errorflg : Bool}
    {d : HipDelivery} (h : hpdispatch hplookupinfo buf errorflg = some d) :
    HipBounded buf d (hipForward s drsendenabled buf d) ↔
      HipFits s drsendenabled errorflg buf d.handler := by
  obtain ⟨hpayload, hlength, -, -⟩ := hpdispatch_some h
  have hforwards := forwardsAs_hipForward s drsendenabled h
  have hhanded : buf.Holds d.payload d.payloadlength.toNat ↔ d.payloadlength.toNat = 0 ∨
      hipStart (buf.packet ++ buf.behind) + d.payloadlength.toNat ≤ buf.packet.length := by
    rw [buf.holds_iff (by omega), hpayload]
    omega
  have hforwarded := hforwards.holds_iff buf hpayload
  rw [hlength] at hhanded hforwarded
  constructor
  · rintro ⟨hh, hf, -⟩
    rw [hlength] at hh
    exact ⟨hhanded.mp hh, hforwarded.mp hf⟩
  · rintro ⟨hh, hf⟩
    refine ⟨?_, hforwarded.mpr hf, hforwards.2.2⟩
    rw [hlength]
    exact hhanded.mpr hh

/-- In both directions, a packet with a payload that the length field has room for is parsed as what
it was built from, and the payload is found. -/
def HipRoundTrip : Prop :=
  ∀ dir ∈ HipDirection.both, ∀ msgdesignator maxlength, dir.Designates msgdesignator maxlength →
    ∀ (msgparm : UInt8) (paylength : UInt16), paylength ≤ maxlength →
      ∀ payload rest : List UInt8, payload.length = paylength.toNat →
        ∃ size, (hpconstruct dir msgdesignator msgparm paylength).2 = some size ∧
          hpparsehdr dir
              ((hpconstruct dir msgdesignator msgparm paylength).1 ++ (payload ++ rest)) =
            (⟨msgdesignator, size, paylength, msgparm⟩, true) ∧
          (((hpconstruct dir msgdesignator msgparm paylength).1 ++ (payload ++ rest)).drop
            size).take paylength.toNat = payload

theorem hipRoundTrip : HipRoundTrip := by
  intro dir hdir msgdesignator maxlength hd msgparm paylength hlength payload rest hpayload
  obtain ⟨size, hsize, hbuilt, hparsed⟩ :=
    hpparsehdr_hpconstruct hdir hd msgparm hlength (payload ++ rest)
  refine ⟨size, hsize, hparsed, ?_⟩
  rw [← hbuilt, List.drop_left, ← hpayload, List.take_left]

/-- Packets make the round trip, and all that is handed and forwarded of a received one was
received, if and only if the lengths that it announces fit in it. -/
theorem hip_iff_fits (s : CnRrTcb) (drsendenabled : Bool)
    {hplookupinfo : UInt32 → Option HipHandler} {buf : RxBuffer} {errorflg : Bool}
    {d : HipDelivery} (h : hpdispatch hplookupinfo buf errorflg = some d) :
    (HipRoundTrip ∧ HipBounded buf d (hipForward s drsendenabled buf d)) ↔
      HipFits s drsendenabled errorflg buf d.handler := by
  rw [← hipBounded_iff s drsendenabled h]
  exact and_iff_right hipRoundTrip

/-- A notification without parameters that announces `cnslength` bytes of them. -/
def emptyNotify (cnslength : UInt8) : RxBuffer :=
  ⟨[0x00, 0x0a, 0x6b, 0x00, 0x10, 0x01, 0x07, 0x00, 0x00, 0x00, 0x00, 0x00, 0x00, cnslength], []⟩

/-- `HPHCNSIND` is registered for package cn. -/
def cnRegistered (msgdesignator : UInt32) : Option HipHandler :=
  if msgdesignator = 0x6b then some .cnRxPacket else none

/-- The delivery of a notification without parameters. -/
def emptyNotifyDelivery : HipDelivery := ⟨.cnRxPacket, 0x6b, 0x00, 24, 10, false⟩

theorem hip_emptyNotify : HipRoundTrip ∧
    HipBounded (emptyNotify 0) emptyNotifyDelivery
      (hipForward cninit false (emptyNotify 0) emptyNotifyDelivery) := by
  have h : hpdispatch cnRegistered (emptyNotify 0) false = some emptyNotifyDelivery := by
    decide +kernel
  exact (hip_iff_fits cninit false h).mpr ⟨.inr (by decide), .inl (by decide)⟩

/-- With an announced length of 100 bytes, what lies behind the packet is forwarded. -/
theorem not_hip_emptyNotify : ¬ (HipRoundTrip ∧
    ∀ (s : CnRrTcb) (drsendenabled : Bool) (hplookupinfo : UInt32 → Option HipHandler)
      (buf : RxBuffer) (errorflg : Bool) (d : HipDelivery),
      hpdispatch hplookupinfo buf errorflg = some d →
        HipBounded buf d (hipForward s drsendenabled buf d)) := by
  rintro ⟨-, h⟩
  have hbounded := h cninit false cnRegistered (emptyNotify 100) false emptyNotifyDelivery
    (by decide +kernel)
  have hinside := hbounded.forwarded 34 (by decide +kernel) (by decide +kernel)
  exact absurd hinside.2 (by decide)

end Bounds

end Sdk

end SierraSdk
