import SierraSdk.Hd.RoundTrip
import SierraSdk.Im.Common

/-!
# Framed messages of the image-management protocol

`imsendframed` computes the frame check sequence of a message and gives both to the HDLC
package; `imunframe` gives received bytes to it, and is called back by it with each packet
(`imhandleunframed`). The callback compares the frame check sequence at the end of the packet
with that of the bytes before it, logs a difference, and makes the packet the user data of the
state machine.

The frame of a message that the HDLC package can carry is accepted, and no packet is ever
rejected (`frameIntegrity`).
-/

namespace SierraSdk

namespace Im

open Framing Hd

/-- The user data of the state machine: the packet that `imsmp->udata` points to. -/
structure ImSm where
  udata : Option (List UInt8)
  deriving DecidableEq

/-- A logged difference of the frame check sequences. -/
structure FcsError where
  localfcs : UInt16
  fcs : UInt16
  deriving DecidableEq

/-- `imsendframed`. `hdTxPacket` takes a size of 16 bits. -/
def imsendframed (ctl : Option HdTxCtlBk) (txbuf : List UInt8) :
    Option HdTxCtlBk × List (List UInt8) :=
  let pktsize := UInt32.ofNat txbuf.length
  match imCalculate16CRC txbuf (8 * pktsize) with
  | none => (none, [])
  | some fcs => hdTxPacket ctl ⟨txbuf.take pktsize.toUInt16.toNat, fcs⟩

/-- `imhandleunframed`: the error flag of the packet is not used. A packet without room for a
frame check sequence takes the computation of its own out of the buffer. -/
def imhandleunframed (imsmp : Option ImSm) (pkt : RxPacket) : Option ImSm × List FcsError :=
  match imsmp with
  | none => (none, [])
  | some _ =>
      let rxbuf := pkt.1
      let pktsize := UInt16.ofNat rxbuf.length
      match imCalculate16CRC rxbuf (8 * (pktsize.toUInt32 - 2)) with
      | none => (none, [])
      | some localfcs =>
          let fcs := Am.piget16 rxbuf (pktsize - 2).toNat
          (some ⟨some rxbuf⟩, if localfcs ≠ fcs then [⟨localfcs, fcs⟩] else [])

/-- `imunframe` on a chunk of received bytes; `hdRxPacket` takes a size of 16 bits. -/
def imunframe (s : Option (HdRxCtlBk × ImSm)) (rxbuf : List UInt8) :
    Option (HdRxCtlBk × ImSm) × List FcsError :=
  match s with
  | none => (none, [])
  | some (ctl, imsm) =>
      let (ctl, pkts) := hdRxPacket ctl (rxbuf.take (UInt16.ofNat rxbuf.length).toNat)
      ((Machine.after imhandleunframed (some imsm) pkts).map (Prod.mk ctl),
        Machine.outputs imhandleunframed (some imsm) pkts)

/-- The last two bytes are the frame check sequence of the others. -/
def FcsMatches (rxbuf : List UInt8) : Prop :=
  rxbuf.drop (rxbuf.length - 2) = piput16 (fcs16 (rxbuf.take (rxbuf.length - 2)))

instance (rxbuf : List UInt8) : Decidable (FcsMatches rxbuf) :=
  inferInstanceAs (Decidable (_ = _))

/-- A packet that must not be used: its frame check sequence does not match, the HDLC package
has flagged an error, or it is shorter than a command byte and a frame check sequence. -/
def Bad (pkt : RxPacket) : Prop :=
  ¬ FcsMatches pkt.1 ∨ pkt.2 = true ∨ pkt.1.length < 3

instance (pkt : RxPacket) : Decidable (Bad pkt) := inferInstanceAs (Decidable (_ ∨ _))

/-- The user data is not set from the packet. -/
def Rejected (pkt : RxPacket) : Prop :=
  ∀ imsm, (imhandleunframed (some imsm) pkt).1 = some imsm

/-- A message with its frame check sequence. -/
def withFcs (msg : List UInt8) : List UInt8 := msg ++ piput16 (fcs16 msg)

/-- A message arrives: whichever block of its pool the transmitter is at, it sends one frame,
which, cut into chunks anywhere, is received as the message and its frame check sequence, not
flagged as an error, and becomes the user data without a difference being logged. -/
def Arrives (msg : List UInt8) : Prop :=
  ∀ k, ∃ ctl f, imsendframed (some (ready k)) msg = (some ctl, [f]) ∧
    ∀ chunks : List (List UInt8), chunks.flatten = f →
      Machine.outputs hdRxPacket hdrxreset chunks = [(withFcs msg, false)] ∧
        ∀ imsm, (Machine.after imunframe (some (hdrxreset, imsm)) chunks).map Prod.snd =
            some ⟨some (withFcs msg)⟩ ∧
          Machine.outputs imunframe (some (hdrxreset, imsm)) chunks = []

section Handling

theorem imhandleunframed_some (imsm : ImSm) {pkt : RxPacket} (hlong : 2 ≤ pkt.1.length)
    (hlen : pkt.1.length < 2 ^ 16) :
    imhandleunframed (some imsm) pkt =
      let localfcs := fcs16 (pkt.1.take (pkt.1.length - 2))
      let fcs := Am.piget16 pkt.1 (pkt.1.length - 2)
      (some ⟨some pkt.1⟩, if localfcs ≠ fcs then [⟨localfcs, fcs⟩] else []) := by
  have hsize : (UInt16.ofNat pkt.1.length).toNat = pkt.1.length :=
    UInt16.toNat_ofNat_of_lt' hlen
  have hfcsp : (UInt16.ofNat pkt.1.length - 2).toNat = pkt.1.length - 2 := by
    have hle : (2 : UInt16) ≤ UInt16.ofNat pkt.1.length := by
      rw [UInt16.le_iff_toNat_le, hsize]
      exact hlong
    rw [UInt16.toNat_sub_of_le _ _ hle, hsize]
    rfl
  have hbits : (8 * ((UInt16.ofNat pkt.1.length).toUInt32 - 2)).toNat =
      8 * (pkt.1.take (pkt.1.length - 2)).length := by
    have hle : (2 : UInt32) ≤ (UInt16.ofNat pkt.1.length).toUInt32 := by
      rw [UInt32.le_iff_toNat_le, UInt16.toNat_toUInt32, hsize]
      exact hlong
    rw [UInt32.toNat_mul, UInt32.toNat_sub_of_le _ _ hle, UInt16.toNat_toUInt32, hsize,
      List.length_take_of_le (Nat.sub_le _ _)]
    exact Nat.mod_eq_of_lt (by change 8 * (pkt.1.length - 2) < 2 ^ 32; omega)
  have hcrc := imCalculate16CRC_eq (pkt.1.drop (pkt.1.length - 2)) hbits
  rw [List.take_append_drop] at hcrc
  simp only [imhandleunframed, hcrc, hfcsp]

theorem imhandleunframed_short (imsm : ImSm) {pkt : RxPacket} (hshort : pkt.1.length < 2) :
    imhandleunframed (some imsm) pkt = (none, []) := by
  obtain ⟨rxbuf, errorflag⟩ := pkt
  have hnone : ∀ length : UInt32, 16 ≤ length.toNat → imCalculate16CRC rxbuf length = none := by
    intro length hlength
    have hcount : rxbuf.length < (length / 8).toNat := by
      rw [UInt32.toNat_div]
      change rxbuf.length < length.toNat / 8
      change rxbuf.length < 2 at hshort
      omega
    simp only [imCalculate16CRC, crc16LCalc, crc16LBytes_none hcount]
  have hbits : 16 ≤ (8 * ((UInt16.ofNat rxbuf.length).toUInt32 - 2)).toNat := by
    have hempty : 16 ≤ (8 * ((UInt16.ofNat 0).toUInt32 - 2)).toNat := by decide
    have hone : 16 ≤ (8 * ((UInt16.ofNat 1).toUInt32 - 2)).toNat := by decide
    have hlength : rxbuf.length = 0 ∨ rxbuf.length = 1 := by
      change rxbuf.length < 2 at hshort
      omega
    rcases hlength with hlength | hlength
    · rw [hlength]
      exact hempty
    · rw [hlength]
      exact hone
  simp only [imhandleunframed, hnone _ hbits]

/-- No packet is rejected. -/
theorem not_rejected {pkt : RxPacket} (hlen : pkt.1.length < 2 ^ 16) : ¬ Rejected pkt := by
  intro hrejected
  have hsame := hrejected ⟨none⟩
  by_cases hshort : pkt.1.length < 2
  · rw [imhandleunframed_short ⟨none⟩ hshort] at hsame
    exact absurd hsame (Option.some_ne_none _).symm
  · rw [imhandleunframed_some ⟨none⟩ (Nat.le_of_not_lt hshort) hlen] at hsame
    exact absurd (ImSm.mk.inj (Option.some.inj hsame)) (Option.some_ne_none _)

theorem length_withFcs (msg : List UInt8) : (withFcs msg).length = msg.length + 2 := by
  rw [withFcs, List.length_append]
  rfl

/-- A message with its frame check sequence becomes the user data. -/
theorem imhandleunframed_withFcs (imsm : ImSm) {msg : List UInt8}
    (hlen : msg.length + 2 < 2 ^ 16) (errorflag : Bool) :
    imhandleunframed (some imsm) (withFcs msg, errorflag) = (some ⟨some (withFcs msg)⟩, []) := by
  have hcut : (withFcs msg).length - 2 = msg.length := by
    rw [length_withFcs]
    rfl
  have hfcs : Am.piget16 (withFcs msg) msg.length = fcs16 msg := by
    have hread := Am.piget16_piput16 (fcs16 msg) msg []
    rwa [List.append_nil] at hread
  rw [imhandleunframed_some imsm (by rw [length_withFcs]; omega)
    (by rw [length_withFcs]; exact hlen)]
  simp only [hcut, hfcs]
  simp [withFcs]

end Handling

section Unframing

/-- Chunks of at most 65535 bytes are unframed as by the HDLC package, and its packets are
handled one by one. -/
theorem imunframe_run (ctl : HdRxCtlBk) (imsm : ImSm) {chunks : List (List UInt8)}
    (hlen : ∀ chunk ∈ chunks, chunk.length < 2 ^ 16) :
    (Machine.after imunframe (some (ctl, imsm)) chunks).map Prod.snd =
        Machine.after imhandleunframed (some imsm) (Machine.outputs hdRxPacket ctl chunks) ∧
      Machine.outputs imunframe (some (ctl, imsm)) chunks =
        Machine.outputs imhandleunframed (some imsm)
          (Machine.outputs hdRxPacket ctl chunks) := by
  induction chunks generalizing ctl imsm with
  | nil => exact ⟨rfl, rfl⟩
  | cons chunk chunks ih =>
      obtain ⟨hchunk, hchunks⟩ := List.forall_mem_cons.mp hlen
      have htake : chunk.take (UInt16.ofNat chunk.length).toNat = chunk := by
        rw [UInt16.toNat_ofNat_of_lt' hchunk, List.take_length]
      have hstep : imunframe (some (ctl, imsm)) chunk =
          ((Machine.after imhandleunframed (some imsm) (hdRxPacket ctl chunk).2).map
              (Prod.mk (hdRxPacket ctl chunk).1),
            Machine.outputs imhandleunframed (some imsm) (hdRxPacket ctl chunk).2) := by
        simp only [imunframe, htake]
      rw [Machine.after_cons, Machine.outputs_cons, Machine.outputs_cons, hstep,
        Machine.after_append, Machine.outputs_append]
      cases hafter : Machine.after imhandleunframed (some imsm) (hdRxPacket ctl chunk).2 with
      | none =>
          obtain ⟨hstate, hout⟩ := Machine.idle (fun _ => rfl : ∀ pkt,
            imhandleunframed none pkt = (none, []))
            (Machine.outputs hdRxPacket (hdRxPacket ctl chunk).1 chunks)
          obtain ⟨hstate', hout'⟩ := Machine.idle (fun _ => rfl : ∀ chunk,
            imunframe none chunk = (none, [])) chunks
          rw [Option.map_none, hstate, hout, hstate', hout']
          exact ⟨rfl, rfl⟩
      | some imsm' =>
          obtain ⟨hstate, hout⟩ := ih (hdRxPacket ctl chunk).1 imsm' hchunks
          exact ⟨hstate, congrArg _ hout⟩

/-- The state machine leaves the hold buffer alone. -/
theorem hdrxdllstate_hold (ctl : HdRxCtlBk) (b : UInt8) :
    (hdrxdllstate ctl b).1.hdrHoldBuffer = ctl.hdrHoldBuffer := by
  cases hstate : ctl.hdrdllstate <;> simp only [hdrxdllstate, hstate] <;> split_ifs <;> rfl

/-- A packet beyond the limit of the HDLC package is flagged as an error. -/
theorem hdRxByte_flagged (s : HdRxCtlBk × Bool) (b : UInt8)
    (hhold : s.1.hdrHoldBuffer.length ≤ hdMaxMessage) :
    (hdRxByte s b).1.1.hdrHoldBuffer.length ≤ hdMaxMessage ∧
      ∀ pkt ∈ (hdRxByte s b).2, hdMaxMessage < pkt.1.length → pkt.2 = true := by
  have hsame := hdrxdllstate_hold s.1 b
  generalize hcall : hdrxdllstate s.1 b = r at hsame
  rw [← hsame] at hhold
  have hlong : hdMaxMessage < (holdByte r.1 r.2).hdrHoldBuffer.length →
      Overlong (holdByte r.1 r.2) := by
    intro hlt
    refine ⟨?_, hlt⟩
    by_contra hvalid
    rw [holdByte] at hlt hvalid
    split_ifs at hlt hvalid with h
    · exact hvalid h
    · exact absurd hhold (Nat.not_le.mpr hlt)
  have hempty : hdrxreset.hdrHoldBuffer.length ≤ hdMaxMessage := Nat.zero_le _
  simp only [hdRxByte, hcall]
  split_ifs with hend hcount
  · exact ⟨hempty, fun pkt hpkt => absurd hpkt List.not_mem_nil⟩
  · refine ⟨hempty, fun pkt hpkt hlt => ?_⟩
    rw [List.mem_singleton.mp hpkt] at hlt ⊢
    exact Bool.or_eq_true_iff.mpr (.inr (decide_eq_true (hlong hlt)))
  · refine ⟨Nat.le_of_not_lt fun hlt => hend (.inr (hlong hlt)), ?_⟩
    exact fun pkt hpkt => absurd hpkt List.not_mem_nil

theorem hdRxPacket_flagged {chunks : List (List UInt8)} {pkt : RxPacket}
    (hpkt : pkt ∈ Machine.outputs hdRxPacket hdrxreset chunks)
    (hlong : hdMaxMessage < pkt.1.length) : pkt.2 = true := by
  have hstep : ∀ (ctl : HdRxCtlBk) (data : List UInt8), ctl.hdrHoldBuffer.length ≤ hdMaxMessage →
      (hdRxPacket ctl data).1.hdrHoldBuffer.length ≤ hdMaxMessage ∧
        ∀ pkt ∈ (hdRxPacket ctl data).2, hdMaxMessage < pkt.1.length → pkt.2 = true :=
    fun ctl data hhold => Machine.invariant_outputs
      (I := fun s : HdRxCtlBk × Bool => s.1.hdrHoldBuffer.length ≤ hdMaxMessage)
      hdRxByte_flagged hhold data
  have hempty : hdrxreset.hdrHoldBuffer.length ≤ hdMaxMessage := Nat.zero_le _
  exact (Machine.invariant_outputs hstep hempty chunks).2 pkt hpkt hlong

end Unframing

section Sending

variable {msg : List UInt8}

theorem imsendframed_eq (ctl : Option HdTxCtlBk) (hlen : msg.length < 2 ^ 16) :
    imsendframed ctl msg = hdTxPacket ctl ⟨msg, fcs16 msg⟩ := by
  have hsize : (UInt32.ofNat msg.length).toNat = msg.length :=
    UInt32.toNat_ofNat_of_lt' (show _ < 2 ^ 32 by omega)
  have hbits : (8 * UInt32.ofNat msg.length).toNat = 8 * msg.length := by
    rw [UInt32.toNat_mul, hsize]
    exact Nat.mod_eq_of_lt (by change 8 * msg.length < 2 ^ 32; omega)
  have hcrc := imCalculate16CRC_eq [] hbits
  rw [List.append_nil] at hcrc
  have htake : msg.take (UInt32.ofNat msg.length).toUInt16.toNat = msg := by
    rw [UInt32.toNat_toUInt16, hsize, Nat.mod_eq_of_lt hlen, List.take_length]
  simp only [imsendframed, hcrc, htake]

/-- The message as a packet of the HDLC package. -/
def hdReqOf (msg : List UInt8) : HdReq := ⟨msg, fcs16 msg⟩

theorem arrives (hlen : msg.length + 2 ≤ hdMaxMessage) (hfits : (hdReqOf msg).Fits) :
    Arrives msg := by
  have hmax : msg.length + 2 ≤ 1024 := hlen
  intro k
  refine ⟨ready (k + 1), frame dll (withFcs msg), ?_, ?_⟩
  · rw [imsendframed_eq _ (by omega)]
    exact hdTxPacket_of_fits (Nat.le_of_add_right_le hlen) hfits
  · intro chunks hchunks
    have hpkts : ∀ bs ∈ [withFcs msg], bs ≠ [] ∧ bs.length ≤ hdMaxMessage := by
      intro bs hbs
      rw [List.mem_singleton.mp hbs]
      refine ⟨?_, by rw [length_withFcs]; exact hlen⟩
      intro hnil
      have hzero := congrArg List.length hnil
      rw [length_withFcs] at hzero
      exact absurd hzero (Nat.succ_ne_zero _)
    have hflat : chunks.flatten = [withFcs msg].flatMap (frame dll) := by
      rw [hchunks]
      exact (List.append_nil _).symm
    have hreceived : Machine.outputs hdRxPacket hdrxreset chunks = [(withFcs msg, false)] :=
      received_frames hpkts hflat
    have hshort : ∀ chunk ∈ chunks, chunk.length < 2 ^ 16 := by
      intro chunk hchunk
      have hle : chunk.length ≤ chunks.flatten.length :=
        (List.sublist_flatten_of_mem hchunk).length_le
      have hframe := length_frame_le dll (withFcs msg)
      rw [hchunks] at hle
      rw [length_withFcs] at hframe
      omega
    refine ⟨hreceived, fun imsm => ?_⟩
    have hhandled : imhandleunframed (some imsm) (withFcs msg, false) =
        (some ⟨some (withFcs msg)⟩, []) :=
      imhandleunframed_withFcs imsm (by omega) false
    obtain ⟨hstate, hout⟩ := imunframe_run hdrxreset imsm hshort
    rw [hstate, hout, hreceived, Machine.after_cons, Machine.outputs_cons, hhandled]
    exact ⟨rfl, rfl⟩

theorem fits_of_arrives (h : Arrives msg) :
    msg.length + 2 ≤ hdMaxMessage ∧ (hdReqOf msg).Fits := by
  obtain ⟨ctl, f, hsent, hreceived⟩ := h 3
  have hlen : msg.length + 2 ≤ hdMaxMessage := by
    by_contra hlong
    rw [Nat.not_le, ← length_withFcs] at hlong
    obtain ⟨hout, -⟩ := hreceived [f] (List.append_nil f)
    have hflag : false = true :=
      hdRxPacket_flagged (by rw [hout]; exact List.mem_singleton_self _) hlong
    exact Bool.false_ne_true hflag
  refine ⟨hlen, ?_⟩
  by_contra hfits
  have hmax : msg.length + 2 ≤ 1024 := hlen
  have hstuck : hdTxPacket (some (ready 3)) (hdReqOf msg) = (none, []) :=
    hdTxPacket_last_block hlen hfits rfl
  rw [imsendframed_eq _ (by omega)] at hsent
  exact absurd (congrArg Prod.fst (hstuck.symm.trans hsent)) (Option.some_ne_none ctl).symm

end Sending

/-- A message is accepted exactly if its frame fits a packet and a send block of the HDLC
package; a packet is treated as it must be exactly if there is no reason to reject it. -/
theorem frameIntegrity (msg : List UInt8) (pkt : RxPacket) (hlen : pkt.1.length < 2 ^ 16) :
    (Arrives msg ↔ msg.length + 2 ≤ hdMaxMessage ∧ (⟨msg, fcs16 msg⟩ : HdReq).Fits) ∧
      ((Bad pkt → Rejected pkt) ↔ ¬ Bad pkt) := by
  refine ⟨⟨fits_of_arrives, fun h => arrives h.1 h.2⟩, ?_⟩
  constructor
  · intro h hbad
    exact not_rejected hlen (h hbad)
  · intro h hbad
    exact absurd hbad h

theorem frameIntegrity_twoBytes :
    (Arrives [0x0c, 0x01] ↔ ([0x0c, 0x01] : List UInt8).length + 2 ≤ hdMaxMessage ∧
      (⟨[0x0c, 0x01], fcs16 [0x0c, 0x01]⟩ : HdReq).Fits) ∧
    ((Bad (withFcs [0x0c, 0x01], true) → Rejected (withFcs [0x0c, 0x01], true)) ↔
      ¬ Bad (withFcs [0x0c, 0x01], true)) :=
  frameIntegrity [0x0c, 0x01] (withFcs [0x0c, 0x01], true) (by rw [length_withFcs]; decide)

/-- A packet with a wrong frame check sequence becomes the user data. -/
theorem not_rejected_wrongFcs :
    Bad ([0x0c, 0x01, 0x34, 0x12], false) ∧
      imunframe (some (hdrxreset, ⟨none⟩)) [0x7e, 0x0c, 0x01, 0x34, 0x12, 0x7e] =
        (some (hdrxreset, ⟨some [0x0c, 0x01, 0x34, 0x12]⟩), [⟨0xb76e, 0x1234⟩]) ∧
      ¬ ∀ pkt : RxPacket, pkt.1.length < 2 ^ 16 → Bad pkt → Rejected pkt := by
  have hbad : Bad ([0x0c, 0x01, 0x34, 0x12], false) := by decide +kernel
  refine ⟨hbad, by decide +kernel, fun hall => ?_⟩
  have hset : (imhandleunframed (some ⟨none⟩) ([0x0c, 0x01, 0x34, 0x12], false)).1 ≠
      some ⟨none⟩ := by decide +kernel
  exact hset (hall ([0x0c, 0x01, 0x34, 0x12], false) (by decide) hbad ⟨none⟩)

end Im

end SierraSdk
