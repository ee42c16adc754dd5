import Mathlib.Data.List.GetD
import SierraSdk.Im.ImageWrite
import SierraSdk.Im.Ssdp
import SierraSdk.Im.SsdpWrapper
import SierraSdk.Library.Monitor

/-!
# The order of a firmware download

What a download shows to the outside are the requests of the task, the messages of the device and
the status that is recorded. `Progress` is what can be read from that so far: the request that was
sent last, the message that followed it, the blocks of the image that are still to be sent.

A download is in order (`InOrder`) if a request is sent only on the positive response to the one
before it, if it is the one that is then in turn, and if a success is recorded only when the
device has reported it for images of which every block was acknowledged. Which messages let a
request through is a parameter, since both tasks go on in some cases without a positive response.
-/

namespace SierraSdk

namespace Im

namespace DownloadOrder

open Am (piget16 piget32)
open Hd (HdRxCtlBk)
open Machine (Along)

/-- What is seen of a download. -/
inductive Event where
  | request (data : List UInt8)
  | response (psdp : List UInt8)
  | recorded (success : Bool)
  deriving DecidableEq

/-- The command byte of a message. -/
def command (psdp : List UInt8) : UInt8 := psdp.getD 0 0

/-- The command bytes of the requests and of their responses. -/
def exchanges : List (UInt8 × UInt8) :=
  [(vDloadToSdpReq, vDloadToSdpRsp), (vHelloReq, vHelloRsp),
    (vGetImagePreferenceReq, vCurrentImagePreferenceRsp), (vOpenReq, vOpenRsp),
    (vWriteReq, vWriteRsp), (vDoneReq, vDoneRsp)]

/-- The command byte of the response to a request. -/
def responseTo (request : UInt8) : Option UInt8 := exchanges.lookup request

/-- The message has the fields that decide. -/
def Whole (psdp : List UInt8) : Prop :=
  1 ≤ psdp.length ∧
    (command psdp = vOpenRsp ∨ command psdp = vDoneRsp → 3 ≤ psdp.length) ∧
    (command psdp = vWriteRsp → 9 ≤ psdp.length)

instance (psdp : List UInt8) : Decidable (Whole psdp) := inferInstanceAs (Decidable (_ ∧ _))

/-- The status of an open response, and of a write response. -/
def openStatus (psdp : List UInt8) : UInt32 := (piget16 psdp 1).toUInt32
def writeStatus (psdp : List UInt8) : UInt16 := piget16 psdp 7

/-- The sequence number of a write request and of its response. -/
def sequenceNumber (psdp : List UInt8) : UInt16 := piget16 psdp 1

/-- The message is the positive response to the request. -/
def Positive (request psdp : List UInt8) : Prop :=
  Whole psdp ∧ responseTo (command request) = some (command psdp) ∧
    (command psdp = vOpenRsp → openStatus psdp = ssdpOpenUnframedStatusOk) ∧
    (command psdp = vWriteRsp → sequenceNumber psdp = sequenceNumber request ∧
      writeStatus psdp = ssdpUnframedWriteDataReceivedOk)

instance (request psdp : List UInt8) : Decidable (Positive request psdp) :=
  inferInstanceAs (Decidable (_ ∧ _))

/-- How far the download has come. -/
structure Progress where
  request : List UInt8
  response : Option (List UInt8)
  images : ℕ
  blocks : UInt32
  succeeded : Bool
  deriving DecidableEq

/-- Nothing has been sent. -/
def Progress.none : Progress := ⟨[], Option.none, 0, 0, false⟩

/-- The number of blocks of an image. -/
def numBlocks (size : UInt32) : UInt32 :=
  if size % imChunkSize ≠ 0 then size / imChunkSize + 1 else size / imChunkSize

/-- A request is sent. -/
def Progress.send (p : Progress) (data : List UInt8) : Progress where
  request := data
  response := .none
  images := if command data = vOpenReq then p.images + 1 else p.images
  blocks :=
    if command data = vOpenReq then numBlocks (piget32 data 2)
    else if command data = vWriteReq then p.blocks - 1
    else p.blocks
  succeeded := p.succeeded

/-- What an event adds. -/
def note (p : Progress) : Event → Progress
  | .request data => p.send data
  | .response psdp =>
      { p with
          response := some psdp
          succeeded :=
            decide (command p.request = vDoneReq ∧ Positive p.request psdp ∧
              piget16 psdp 1 = ssdpDoneSuccess) }
  | .recorded _ => p

/-- The requests that follow each other. -/
def succession : List (UInt8 × UInt8) :=
  [(vDloadToSdpReq, vHelloReq), (vHelloReq, vGetImagePreferenceReq), (vHelloReq, vOpenReq),
    (vGetImagePreferenceReq, vOpenReq), (vOpenReq, vWriteReq), (vWriteReq, vWriteReq),
    (vWriteReq, vOpenReq), (vWriteReq, vDoneReq), (vDoneReq, vDoneFinalReq)]

/-- The request is in turn: blocks are sent with consecutive numbers as long as there are any. -/
def InTurn (p : Progress) (data : List UInt8) : Prop :=
  (command p.request, command data) ∈ succession ∧
    (command p.request = vOpenReq → sequenceNumber data = 0) ∧
    (command p.request = vWriteReq → (command data = vWriteReq ↔ p.blocks ≠ 0) ∧
      (command data = vWriteReq → sequenceNumber data = sequenceNumber p.request + 1))

/-- The message lets the request through that is in turn. -/
def Lets (p : Progress) (psdp data : List UInt8) : Prop :=
  Positive p.request psdp ∧ InTurn p data

/-- A request that is the first one, or that is let through by the message that came last. -/
def Permitted (lets : Progress → List UInt8 → List UInt8 → Prop) (p : Progress)
    (data : List UInt8) : Prop :=
  (p.request = [] ∧ (command data = vDloadToSdpReq ∨ command data = vHelloReq)) ∨
    ∃ psdp, p.response = some psdp ∧ lets p psdp data

/-- The event is in order. -/
def Allowed (lets : Progress → List UInt8 → List UInt8 → Prop) (p : Progress) : Event → Prop
  | .request data => Permitted lets p data
  | .response _ => True
  | .recorded success => success = true → p.succeeded = true

/-- Every event is in order. -/
def InOrder (lets : Progress → List UInt8 → List UInt8 → Prop) (events : List Event) : Prop :=
  Along note (Allowed lets) .none events

/-- Every message is a regular one for the request that was sent last. -/
def Answered (regular : List UInt8 → List UInt8 → Prop) (p : Progress) : Event → Prop
  | .response psdp => regular p.request psdp
  | _ => True

/-- The message that the HDLC package finds in a frame; it is empty if there is none. -/
def messageIn (hdr : HdRxCtlBk) (frame : List UInt8) : List UInt8 :=
  ((imunframe (some (hdr, ⟨none⟩)) frame).1.bind fun r => r.2.udata).getD []

section Messages

variable {psdp behind : List UInt8}

/-- A request and its response are one of the exchanges. -/
theorem mem_exchanges {request response : UInt8} (h : responseTo request = some response) :
    (request, response) ∈ exchanges := by
  obtain ⟨l₁, l₂, hsplit, -⟩ := List.lookup_eq_some_iff.mp h
  rw [hsplit]
  exact List.mem_append_right _ List.mem_cons_self

/-- A write response is one to a write request. -/
theorem request_of_write {request : UInt8} (h : responseTo request = some vWriteRsp) :
    request = vWriteReq := by
  have hmem := mem_exchanges h
  simp only [exchanges, List.mem_cons, Prod.mk.injEq, List.not_mem_nil, or_false] at hmem
  rcases hmem with ⟨-, h⟩ | ⟨-, h⟩ | ⟨-, h⟩ | ⟨-, h⟩ | ⟨hrequest, -⟩ | ⟨-, h⟩
  · exact absurd h (by decide)
  · exact absurd h (by decide)
  · exact absurd h (by decide)
  · exact absurd h (by decide)
  · exact hrequest
  · exact absurd h (by decide)

/-- What is behind a message is not read for its fields. -/
theorem piget16_append {i : ℕ} (h : i + 2 ≤ psdp.length) :
    piget16 (psdp ++ behind) i = piget16 psdp i := by
  rw [piget16, piget16, List.getD_append _ _ _ _ (by omega), List.getD_append _ _ _ _ (by omega)]

theorem command_append (h : Whole psdp) : (psdp ++ behind).getD 0 0 = command psdp :=
  List.getD_append _ _ _ _ h.1

/-- The message that is found becomes the user data. -/
theorem udata_imunframe {hdr : HdRxCtlBk} {frame : List UInt8} {imsm : ImSm} {r : HdRxCtlBk × ImSm}
    (h : 1 ≤ (messageIn hdr frame).length)
    (hr : (imunframe (some (hdr, imsm)) frame).1 = some r) :
    r.2.udata = some (messageIn hdr frame) := by
  simp only [imunframe] at hr
  rw [messageIn] at h ⊢
  simp only [imunframe] at h ⊢
  generalize (Hd.hdRxPacket hdr (frame.take (UInt16.ofNat frame.length).toNat)) = received at *
  obtain ⟨ctl, pkts⟩ := received
  cases pkts with
  | nil => exact absurd h (by simp)
  | cons pkt pkts =>
      -- the first packet replaces the user data, whatever it was
      have hfirst : imhandleunframed (some ⟨none⟩) pkt = imhandleunframed (some imsm) pkt := rfl
      rw [Machine.after_cons] at hr h ⊢
      rw [hfirst] at h ⊢
      obtain ⟨imsm', himsm', rfl⟩ := Option.map_eq_some_iff.mp hr
      rw [himsm'] at h ⊢
      cases hudata : imsm'.udata with
      | none => exact absurd h (by simp [hudata])
      | some bytes => simp [hudata]

/-- The status of an open response. -/
theorem prepareQDLImageWrite_open (h : Whole psdp) (hopen : command psdp = vOpenRsp)
    (stack : UInt16) : prepareQDLImageWrite (psdp ++ behind) stack = some (piget16 psdp 1) := by
  have hlen : 3 ≤ psdp.length := h.2.1 (.inl hopen)
  have hmap : imssdpMapCmd vOpenRsp = some openRsp := rfl
  have hsize : ¬ openUnframedRspSize < unpackedLen (psdp ++ behind) openRsp := by
    change ¬ 12 < 12
    omega
  rw [prepareQDLImageWrite, imssdpUnpackResponse, command_append h, hopen, hmap, Option.bind_some,
    if_neg hsize, if_pos (.inl rfl), piget16_append hlen]

/-- The session status of a done response. -/
theorem validateQDLImages_done (h : Whole psdp) (hdone : command psdp = vDoneRsp)
    (stack : UInt16) :
    validateQDLImages (psdp ++ behind) stack = some (piget16 psdp 1 == ssdpDoneSuccess) := by
  have hlen : 3 ≤ psdp.length := h.2.1 (.inr hdone)
  have hmap : imssdpMapCmd vDoneRsp = some doneRsp := rfl
  have hsize : ¬ doneRspSize < unpackedLen (psdp ++ behind) doneRsp := by
    change ¬ 262 < 5 + descriptionLen ((psdp ++ behind).drop 4)
    rw [descriptionLen]
    omega
  rw [validateQDLImages, imssdpUnpackResponse, command_append h, hdone, hmap, Option.bind_some,
    if_neg hsize, if_pos (.inr (.inr rfl)), Option.map_some, piget16_append hlen]

/-- The status of a write response. -/
theorem status_write (h : Whole psdp) (hwrite : command psdp = vWriteRsp) :
    (imssdpUnframedWriteUnpack (psdp ++ behind)).status = writeStatus psdp :=
  piget16_append (h.2.2 hwrite)

end Messages

section Requests

variable {p : Progress} {data : List UInt8}

theorem send_open (imageMode : UInt8) (imageLength maxPayloadLength : UInt32)
    (header : List UInt8) :
    p.send (imssdpOpenUnframedPack imageMode imageLength maxPayloadLength header) =
      ⟨imssdpOpenUnframedPack imageMode imageLength maxPayloadLength header, none, p.images + 1,
        numBlocks imageLength, p.succeeded⟩ := by
  have hlength : piget32
      (imssdpOpenUnframedPack imageMode imageLength maxPayloadLength header) 2 = imageLength := by
    have hfield := Am.piget32_piput32 imageLength [vOpenReq, imageMode]
      ([1] ++ Am.piput32 maxPayloadLength ++ Am.piput16 0 ++ header)
    simpa [imssdpOpenUnframedPack] using hfield
  rw [Progress.send, hlength]
  rfl

theorem send_write (h : command data = vWriteReq) :
    p.send data = ⟨data, none, p.images, p.blocks - 1, p.succeeded⟩ := by
  rw [Progress.send, h]
  rfl

theorem send_other (hopen : command data ≠ vOpenReq) (hwrite : command data ≠ vWriteReq) :
    p.send data = ⟨data, none, p.images, p.blocks, p.succeeded⟩ := by
  rw [Progress.send, if_neg hopen, if_neg hopen, if_neg hwrite]

/-- The request for a block has its number. -/
theorem writePack_fields {sequenceNumber' : UInt16} {length : UInt32} {mapped : List UInt8}
    (h : imssdpUnframedWritePack sequenceNumber' length mapped = some data) :
    command data = vWriteReq ∧ sequenceNumber data = sequenceNumber' := by
  simp only [imssdpUnframedWritePack] at h
  split_ifs at h
  obtain ⟨fcs, -, rfl⟩ := Option.map_eq_some_iff.mp h
  refine ⟨rfl, ?_⟩
  have hfield := Am.piget16_piput16 sequenceNumber' [vWriteReq]
    (Am.piput32 0 ++ Am.piput32 length ++ Am.piput16 fcs ++ mapped.take length.toNat)
  simpa [sequenceNumber] using hfield

/-- A success that is in order had been reported before. -/
theorem succeeded_of_recorded {lets : Progress → List UInt8 → List UInt8 → Prop}
    {events : List Event} (hresponse : ∀ psdp, .response psdp ∉ events)
    (h : Along note (Allowed lets) p events) (hmem : .recorded true ∈ events) :
    p.succeeded = true := by
  induction events generalizing p with
  | nil => exact absurd hmem List.not_mem_nil
  | cons event events ih =>
      obtain ⟨hallowed, hrest⟩ := h
      have hlater : ∀ psdp, .response psdp ∉ events := fun psdp hpsdp =>
        hresponse psdp (List.mem_cons_of_mem _ hpsdp)
      cases event with
      | request data =>
          have hmem' : .recorded true ∈ events := by simpa using hmem
          exact ih (p := p.send data) hlater hrest hmem'
      | response psdp => exact absurd List.mem_cons_self (hresponse psdp)
      | recorded success =>
          rcases List.mem_cons.mp hmem with hhere | hmem'
          · exact hallowed (Event.recorded.inj hhere).symm
          · exact ih hlater hrest hmem'

end Requests

end DownloadOrder

end Im

end SierraSdk
