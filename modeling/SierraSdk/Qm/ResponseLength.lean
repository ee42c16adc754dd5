import Mathlib.Data.List.TakeDrop
import SierraSdk.Qm.Response
import SierraSdk.Qm.TlvUnpack

/-!
# The length of a forwarded response

`qmqmirsp` cuts a packet that is too long for the response buffer of the applications, but
leaves the message length in its header as the modem sent it. On the other side of the channel
`qmunpack` takes that length for the end of the TLVs.

A packet with its header is forwarded whole exactly if `RespFits`, and then every header that
`qmunpack` reads, and every value at which it calls an unpacker, lies in the data that was
received (`forwardsConsistent_iff`).
-/

namespace SierraSdk

namespace Qm

open Am Ci Memory

/-- The message length that a packet from the modem has in its header. -/
def qmiMsgLen (qmpacket : List UInt8) : ℕ := (piget16 qmpacket 5).toNat

/-- The message fits the response buffer behind the headers. -/
def RespFits (qmpacket : List UInt8) : Prop :=
  amQmiTotal + qmisvcMsghdrSz + qmiMsgLen qmpacket ≤ amMaxReqBkLen

/-- The packet is passed on: an application is registered for it, and a response is the
awaited one. -/
def Forwards (s : QmTcb) (qmpacket : List UInt8) : Prop :=
  qmIsAppRegistered s s.qmipcchannel (qmpacket.getD 0 0) = true ∧
    (qmpacket.getD 0 0 = eQMIRES →
      s.qmbusy = true ∧ s.qmoperation = eQMIRES ∧
        qmixactionidvalidate s (piget16 qmpacket 1) = true)

/-- The end of the header that is read, or the value at which an unpacker is called. -/
def UnpackEvent.stop : UnpackEvent → ℕ
  | .header index _ _ => index + qmitlvHdrSz
  | .call _ index => index

/-- The memory of an application from `bufp` on, with the payload of a packet in it. -/
def Holds (bufp : ℕ → UInt8) (payload : List UInt8) : Prop :=
  ∀ k < payload.length, bufp k = payload.getD k 0

/-- The message length says no more than the packet has, and unpacking stays in the packet. -/
structure SelfConsistent (msg : AmQmiMsg) : Prop where
  length : qmisvcMsghdrSz + (piget16 msg.payload qmisvcMsgidSz).toNat ≤ msg.payload.length
  walk : ∀ bufp, Holds bufp msg.payload →
    ∀ (ρ : Type) (items : List (QmTlvUnpackerItem ρ)) (resp : ρ) (messageId : UInt16)
      (fuel : ℕ) (r : Unpacked ρ),
      qmunpack fuel bufp resp items messageId = some r →
        ∀ event ∈ r.1, qmisvcMsghdrSz + event.stop ≤ msg.payload.length

/-- Every packet that is passed on is consistent. -/
def ForwardsConsistent (s : QmTcb) (instanceid : UInt8) (qmpacket : List UInt8)
    (client : QmiClient) : Prop :=
  ∀ channel msg, QmOut.amsdkSend channel msg ∈ (qmqmirsp s instanceid qmpacket client).2 →
    SelfConsistent msg

section Walk

variable {ρ : Type*} {items : List (QmTlvUnpackerItem ρ)} {d : ℕ → UInt8} {size : ℕ}

/-- Whatever the unpackers do with the cursor, the loop stays in its window. -/
theorem stop_le_of_unpackLoop {fuel i : ℕ} {resp : ρ} {r : Unpacked ρ}
    (h : unpackLoop items fuel (window d size i) resp = some r) {event : UnpackEvent}
    (hevent : event ∈ r.1) : event.stop ≤ size := by
  induction fuel generalizing i resp r with
  | zero => exact absurd h.symm (Option.some_ne_none r)
  | succ fuel ih =>
      by_cases hvalue : qmiLayout.value i ≤ size
      · rw [unpackLoop_header hvalue, Option.map_eq_some_iff] at h
        obtain ⟨r', hr', rfl⟩ := h
        rcases List.mem_cons.mp hevent with rfl | hevent
        · exact hvalue
        · unfold afterHeader at hr'
          cases hitem : findItem items (d i) with
          | none =>
              rw [hitem] at hr'
              exact ih hr' hevent
          | some item =>
              rw [hitem] at hr'
              obtain ⟨r'', hr'', rfl⟩ := Option.map_eq_some_iff.mp hr'
              rcases List.mem_cons.mp hevent with rfl | hevent
              · exact hvalue
              · dsimp only at hr''
                split_ifs at hr''
                · obtain rfl := Option.some.inj hr''
                  exact absurd hevent List.not_mem_nil
                · exact ih hr'' hevent
      · rw [unpackLoop_end (Nat.lt_of_not_le hvalue)] at h
        obtain rfl := Option.some.inj h
        exact absurd hevent List.not_mem_nil

/-- The message length that `qmunpack` finds is the one in the packet. -/
theorem wordAt_of_holds {bufp : ℕ → UInt8} {payload : List UInt8} (h : Holds bufp payload)
    (hlen : qmisvcMsghdrSz ≤ payload.length) :
    wordAt bufp qmisvcMsgidSz = piget16 payload qmisvcMsgidSz := by
  have hlow : bufp 2 = payload.getD 2 0 := h 2 (Nat.lt_of_lt_of_le (by decide) hlen)
  have hhigh : bufp 3 = payload.getD 3 0 := h 3 (Nat.lt_of_lt_of_le (by decide) hlen)
  have hload : load bufp qmisvcMsgidSz 2 = [payload.getD 2 0, payload.getD 3 0] := by
    rw [← hlow, ← hhigh]
    rfl
  rw [wordAt, hload]
  rfl

end Walk

section Packet

variable (instanceid : UInt8) (client : QmiClient) {qmpacket : List UInt8}

theorem length_payload :
    (rspMsg instanceid client qmpacket).payload.length = respPayloadLen qmpacket :=
  List.takeD_length _ _ _

theorem getD_takeD {α : Type*} (a : α) {n k : ℕ} (l : List α) (hk : k < n) :
    (l.takeD n a).getD k a = l.getD k a := by
  induction n generalizing l k with
  | zero => exact absurd hk (Nat.not_lt_zero k)
  | succ n ih =>
      cases k with
      | zero => cases l <;> rfl
      | succ k =>
          rw [List.takeD_succ, List.getD_cons_succ, ih _ (Nat.lt_of_succ_lt_succ hk)]
          cases l <;> rfl

/-- As far as the packet goes, it has the bytes that the modem sent. -/
theorem piget16_payload (hlen : qmisvcMsghdrSz ≤ respPayloadLen qmpacket) :
    piget16 (rspMsg instanceid client qmpacket).payload qmisvcMsgidSz = piget16 qmpacket 5 := by
  have hlen' : 4 ≤ respPayloadLen qmpacket := hlen
  have hbyte : ∀ k < 4, ((qmpacket.drop 3).takeD (respPayloadLen qmpacket) 0).getD k 0 =
      qmpacket.getD (3 + k) 0 := by
    intro k hk
    rw [getD_takeD _ _ (by omega), List.getD_eq_getElem?_getD, List.getElem?_drop,
      ← List.getD_eq_getElem?_getD]
  have hlow := hbyte 2 (by decide)
  have hhigh := hbyte 3 (by decide)
  simp only [piget16, rspMsg, qmisvcMsgidSz, hlow, hhigh]

/-- The length of the message with its header, as far as 16 bits hold it and the buffer has
room. -/
theorem respPayloadLen_eq (qmpacket : List UInt8) :
    respPayloadLen qmpacket = min 1006 ((qmiMsgLen qmpacket + 4) % 2 ^ 16) := by
  have hlen : (piget16 qmpacket 5 + 4).toNat = (qmiMsgLen qmpacket + 4) % 2 ^ 16 :=
    UInt16.toNat_add _ _
  simp only [respPayloadLen, hlen]
  have hlimit : amMaxReqBkLen - amQmiTotal = 1006 := rfl
  have htotal : amMaxReqBkLen = 1006 + amQmiTotal := rfl
  rw [hlimit, htotal]
  split_ifs with hlong <;> omega

theorem respPayloadLen_of_fits (hfits : RespFits qmpacket) :
    respPayloadLen qmpacket = qmisvcMsghdrSz + qmiMsgLen qmpacket := by
  have hle : 18 + 4 + qmiMsgLen qmpacket ≤ 1024 := hfits
  rw [respPayloadLen_eq, qmisvcMsghdrSz]
  omega

/-- A message that does not fit is longer than what remains of it. -/
theorem respPayloadLen_lt (hfits : ¬ RespFits qmpacket) :
    respPayloadLen qmpacket < qmisvcMsghdrSz + qmiMsgLen qmpacket := by
  have hlt : 1024 < 18 + 4 + qmiMsgLen qmpacket := Nat.lt_of_not_le hfits
  rw [respPayloadLen_eq, qmisvcMsghdrSz]
  omega

theorem selfConsistent_rspMsg_iff :
    SelfConsistent (rspMsg instanceid client qmpacket) ↔ RespFits qmpacket := by
  constructor
  · intro h
    by_contra hfits
    have hlength := h.length
    have hlt := respPayloadLen_lt hfits
    rw [length_payload] at hlength
    rw [piget16_payload _ _ (Nat.le_of_add_right_le hlength)] at hlength
    exact absurd hlength (Nat.not_le.mpr hlt)
  · intro hfits
    have hlen := respPayloadLen_of_fits hfits
    have hhdr : qmisvcMsghdrSz ≤ respPayloadLen qmpacket := by
      rw [hlen]
      exact Nat.le_add_right _ _
    have hword := piget16_payload instanceid client hhdr
    constructor
    · rw [length_payload, hword, hlen]
      exact le_rfl
    · intro bufp hholds ρ items resp messageId fuel r hr event hevent
      have hsize := stop_le_of_unpackLoop hr hevent
      rw [wordAt_of_holds hholds (by rwa [length_payload]), hword] at hsize
      rw [length_payload, hlen]
      exact Nat.add_le_add_left hsize _

end Packet

/-- What is passed on is the packet for the modem's, on channels that depend on its kind. -/
theorem qmqmirsp_eq (s : QmTcb) (instanceid : UInt8) (qmpacket : List UInt8)
    (client : QmiClient) :
    ∃ channels, (qmqmirsp s instanceid qmpacket client).2 =
        channels.map (fun channel => .amsdkSend channel (rspMsg instanceid client qmpacket)) ∧
      (channels ≠ [] ↔ Forwards s qmpacket) := by
  simp only [qmqmirsp, Forwards]
  generalize qmpacket.getD 0 0 = ctlflgs
  by_cases hresp : ctlflgs = eQMIRES
  · subst hresp
    by_cases hvalid : s.qmbusy = true ∧ s.qmoperation = eQMIRES ∧
      qmixactionidvalidate s (piget16 qmpacket 1) = true
    · simp only [if_true, qmvalidateresponse, hvalid, forall_const, and_true]
      have hreg : qmIsAppRegistered (qmclearrespinfo s) s.qmipcchannel eQMIRES =
          qmIsAppRegistered s s.qmipcchannel eQMIRES := rfl
      rw [hreg]
      split_ifs with happ
      · exact ⟨[s.qmipcchannel], rfl, by simp [happ]⟩
      · exact ⟨[], rfl, by simp [happ]⟩
    · refine ⟨[], ?_, by simp [hvalid]⟩
      simp only [if_true, qmvalidateresponse, if_neg hvalid]
      rw [if_neg (by simp)]
      rfl
  · have hother : ctlflgs = eQMIRES ↔ False := iff_false_intro hresp
    simp only [hother, if_false, and_true, false_implies]
    split_ifs with happ
    · exact ⟨cigetnotifchannums, rfl, iff_of_true (by decide) happ⟩
    · exact ⟨[], rfl, by simp [happ]⟩

/-- The packets that are passed on are consistent exactly if the message fits the response
buffer. -/
theorem forwardsConsistent_iff (s : QmTcb) (instanceid : UInt8) (qmpacket : List UInt8)
    (client : QmiClient) :
    ForwardsConsistent s instanceid qmpacket client ↔
      (Forwards s qmpacket → RespFits qmpacket) := by
  obtain ⟨channels, hout, hforwards⟩ := qmqmirsp_eq s instanceid qmpacket client
  rw [← hforwards, ForwardsConsistent, hout]
  constructor
  · intro h hne
    obtain ⟨channel, hchannel⟩ := List.exists_mem_of_ne_nil channels hne
    have hsent := h channel _ (List.mem_map.mpr ⟨channel, hchannel, rfl⟩)
    exact (selfConsistent_rspMsg_iff instanceid client).mp hsent
  · intro h channel msg hsent
    obtain ⟨channel', hchannel, heq⟩ := List.mem_map.mp hsent
    obtain ⟨rfl, rfl⟩ := QmOut.amsdkSend.inj heq
    exact (selfConsistent_rspMsg_iff instanceid client).mpr
      (h (List.ne_nil_of_mem hchannel))

/-- An application is connected and awaits the response to its first DMS request. -/
def awaiting : QmTcb :=
  (qmsaverespinfo (qmconnect qminit 2)
    { amresultcode := EQCWWANError.none
      amqmixactionlen := 4
      amqmireqtimeout := 5000
      amqmisvctype := EQmiService.dms.code
      qmiinstanceid := 0 } 2).getD qminit

/-- A response with a result, a value of 1490 bytes and a TLV without a value behind it. -/
def longResponse : List UInt8 :=
  [eQMIRES, 0x01, 0x00, 0x20, 0x00, 0xdf, 0x05, 0x02, 0x04, 0x00, 0x00, 0x00, 0x00, 0x00,
    0x10, 0xd2, 0x05] ++ List.replicate 1490 0xaa ++ [0x11, 0x00, 0x00]

/-- Of the response 1006 bytes are passed on, with the message length 1503, and `qmunpack` reads a
header behind them. -/
theorem not_forwardsConsistent_longResponse :
    (qmqmirsp awaiting 0 longResponse .dms).2 =
        [.amsdkSend 2 (rspMsg 0 .dms longResponse)] ∧
      (rspMsg 0 .dms longResponse).payload.length = 1006 ∧
      piget16 (rspMsg 0 .dms longResponse).payload qmisvcMsgidSz = 1503 ∧
      (qmunpack 4 (ofList 0 (rspMsg 0 .dms longResponse).payload) () [] 0x20).map Prod.fst =
        some [.header 0 0x02 4, .header 7 0x10 1490, .header 1500 0 0] ∧
      ¬ ForwardsConsistent awaiting 0 longResponse .dms := by
  have hsent : (qmqmirsp awaiting 0 longResponse .dms).2 =
      [.amsdkSend 2 (rspMsg 0 .dms longResponse)] := by
    decide +kernel
  have hlen : (rspMsg 0 .dms longResponse).payload.length = 1006 := length_payload _ _
  have hword : piget16 (rspMsg 0 .dms longResponse).payload qmisvcMsgidSz = 1503 := by
    decide +kernel
  refine ⟨hsent, hlen, hword, by decide +kernel, fun h => ?_⟩
  have hlength := (h 2 _ (by rw [hsent]; exact List.mem_singleton_self _)).length
  rw [hword, hlen] at hlength
  exact absurd hlength (by decide)

end Qm

end SierraSdk
