import SierraSdk.Im.Common

/-!
# The messages of the streaming download protocol

A message begins with a command byte. `imssdp_map_cmd` gives it the number of a request or of a
response, which are counted apart, and aborts on a byte that is neither. `imssdp_unpack_response`
takes that number for the one of a response and unpacks what the message would be by its command
byte, whatever response the caller has a structure for: the structure is filled with the fields of
the response that it is for only if the command byte is that of this response.
-/

namespace SierraSdk

namespace Im

open Am (piget16 piget32 piput16 piput32)

/-! `e_ssdp_actual_commands` -/

def vDloadToSdpReq : UInt8 := 0x70
def vDloadToSdpRsp : UInt8 := 0x02
def vHelloReq : UInt8 := 0x01
def vHelloRsp : UInt8 := 0x02
def vOpenReq : UInt8 := 0x25
def vOpenRsp : UInt8 := 0x26
def vWriteReq : UInt8 := 0x27
def vWriteRsp : UInt8 := 0x28
def vDoneReq : UInt8 := 0x29
def vDoneRsp : UInt8 := 0x2a
def vDoneFinalReq : UInt8 := 0x2d
def vDloadReq : UInt8 := 0x2b
def vGetImagePreferenceReq : UInt8 := 0x2e
def vCurrentImagePreferenceRsp : UInt8 := 0x2f
def vErrorPacketRsp : UInt8 := 0x0d

/-! `e_ssdp_request_commands`, as far as they have no number of a response -/

def doneFinalReq : ℕ := 5
def dloadReq : ℕ := 6
def getImagePreferenceReq : ℕ := 7

/-! `e_ssdp_response_commands` -/

def dloadToSdpRsp : ℕ := 0
def helloRsp : ℕ := 1
def openRsp : ℕ := 2
def writeRsp : ℕ := 3
def doneRsp : ℕ := 4
def currentImagePreferenceRsp : ℕ := 5
def errorPacketRsp : ℕ := 6
def ssdpCmdRspMax : ℕ := 7

/-- The cases of `imssdp_map_cmd`. The four requests in front of `DONE_FINAL_REQ` have the numbers
of their responses. -/
def ssdpCommands : List (UInt8 × ℕ) :=
  [(vDloadToSdpReq, dloadToSdpRsp), (vDloadToSdpRsp, dloadToSdpRsp), (vHelloReq, helloRsp),
   (vOpenReq, openRsp), (vOpenRsp, openRsp), (vWriteReq, writeRsp), (vWriteRsp, writeRsp),
   (vDoneReq, doneRsp), (vDoneRsp, doneRsp), (vDoneFinalReq, doneFinalReq), (vDloadReq, dloadReq),
   (vGetImagePreferenceReq, getImagePreferenceReq),
   (vCurrentImagePreferenceRsp, currentImagePreferenceRsp), (vErrorPacketRsp, errorPacketRsp)]

/-- There is no number for an invalid command, on which the daemon aborts. -/
def imssdpMapCmd (cmd : UInt8) : Option ℕ := ssdpCommands.lookup cmd

/-! ### Requests -/

/-- `SSDP_HELLO_REQ_PKT_MAGIC_NUMBER` -/
def ssdpHelloReqPktMagicNumber : List UInt8 :=
  [0x51, 0x43, 0x4f, 0x4d, 0x20, 0x68, 0x69, 0x67, 0x68, 0x20, 0x73, 0x70, 0x65, 0x65, 0x64, 0x20,
   0x70, 0x72, 0x6f, 0x74, 0x6f, 0x63, 0x6f, 0x6c, 0x20, 0x68, 0x73, 0x74]

/-- `imbuild_hello_req` and `imssdp_hello_pack`: the magic number is filled up to 32 bytes. -/
def imssdpHelloPack : List UInt8 :=
  vHelloReq :: ssdpHelloReqPktMagicNumber ++ [0, 0, 0, 0] ++ [0x06, 0x06] ++ piput32 0x30

/-- `imssdp_get_image_preference_pack` -/
def imssdpGetImagePreferencePack : List UInt8 := [vGetImagePreferenceReq]

/-- `imssdp_open_unframed_pack`: the header follows for a CWE image only. -/
def imssdpOpenUnframedPack (imageMode : UInt8) (imageLength maxPayloadLength : UInt32)
    (header : List UInt8) : List UInt8 :=
  vOpenReq :: imageMode :: piput32 imageLength ++ [1] ++ piput32 maxPayloadLength ++ piput16 0 ++
    header

/-- `imbuild_unframed_write_req` and `imssdp_unframed_write_pack`, which does not return if the
mapped file ends before the payload does. -/
def imssdpUnframedWritePack (sequenceNumber : UInt16) (length : UInt32) (mapped : List UInt8) :
    Option (List UInt8) :=
  let hdr := vWriteReq :: piput16 sequenceNumber ++ piput32 0 ++ piput32 length
  if mapped.length < length.toNat then none
  else
    (imCalculate16CRC hdr (8 * UInt32.ofNat hdr.length)).map fun fcs =>
      hdr ++ piput16 fcs ++ mapped.take length.toNat

/-- `imssdp_done_pack` -/
def imssdpDonePack : List UInt8 := [vDoneReq]

/-- `imssdp_donefinal_pack` -/
def imssdpDonefinalPack : List UInt8 := [vDoneFinalReq]

/-! ### Responses -/

/-- The major and the minor version in a response to the hello request. -/
def imssdpHelloUnpack (psrc : List UInt8) : UInt16 × UInt16 := (piget16 psrc 29, piget16 psrc 31)

/-- `ssdp_img_pref_t` -/
structure SsdpImgPref where
  imageType : UInt8
  imageIdentifier : List UInt8
  deriving DecidableEq

/-- `SSDP_MAX_IMAGE_PREF` -/
def ssdpMaxImagePref : ℕ := 12

/-- The entries of a response to the image preference request. -/
def imssdpGetImagePreferenceUnpack (psrc : List UInt8) : List SsdpImgPref :=
  (List.range (min ssdpMaxImagePref (psrc.getD 1 0).toNat)).map fun idx =>
    ⟨psrc.getD (2 + 17 * idx) 0, (psrc.drop (3 + 17 * idx)).take 16⟩

/-- `ssdp_unframed_write_rsp_s` -/
structure SsdpUnframedWriteRsp where
  command : UInt8
  sequenceNumber : UInt16
  address : UInt32
  status : UInt16
  deriving DecidableEq

/-- `imssdp_unframed_write_unpack`, which is called without a look at the command byte. -/
def imssdpUnframedWriteUnpack (psrc : List UInt8) : SsdpUnframedWriteRsp :=
  ⟨psrc.getD 0 0, piget16 psrc 1, piget32 psrc 3, piget16 psrc 7⟩

/-- The length with which a text is copied, its end included. -/
def descriptionLen (text : List UInt8) : ℕ := min (text.takeWhile (· ≠ 0)).length 255 + 1

/-- How many bytes of its structure `imssdp_unpack_response` writes. -/
def unpackedLen (psrc : List UInt8) (cmd : ℕ) : ℕ :=
  if cmd = dloadToSdpRsp then 1
  else if cmd = helloRsp then 924
  else if cmd = openRsp then 12
  else if cmd = writeRsp then 10
  else if cmd = doneRsp then 5 + descriptionLen (psrc.drop 4)
  else if cmd = currentImagePreferenceRsp then
    2 + 17 * (imssdpGetImagePreferenceUnpack psrc).length
  else if cmd = errorPacketRsp then 8 + descriptionLen (psrc.drop 5)
  else 0

/-- The 16 bits in the third and the fourth byte of a structure of `size` bytes, which held
`stack`, after `imssdp_unpack_response`: the status of an open response, the session status of a
done response. It does not return if the daemon aborts or the structure is overrun. -/
def imssdpUnpackResponse (size : ℕ) (psrc : List UInt8) (stack : UInt16) : Option UInt16 :=
  (imssdpMapCmd (psrc.getD 0 0)).bind fun cmd =>
    if size < unpackedLen psrc cmd then none
    else if cmd = openRsp ∨ cmd = writeRsp ∨ cmd = doneRsp then some (piget16 psrc 1)
    else if cmd = currentImagePreferenceRsp ∧ imssdpGetImagePreferenceUnpack psrc ≠ [] then
      some (piget16 psrc 2)
    else some stack

/-- The size of `ssdp_open_unframed_rsp_s` and of `ssdp_done_rsp_s`. -/
def openUnframedRspSize : ℕ := 12
def doneRspSize : ℕ := 262

/-- `PrepareQDLImageWrite`: the status of the open response. -/
def prepareQDLImageWrite (psrc : List UInt8) (stack : UInt16) : Option UInt16 :=
  imssdpUnpackResponse openUnframedRspSize psrc stack

/-- `SSDP_DONE_SUCCESS` -/
def ssdpDoneSuccess : UInt16 := 0

/-- `ValidateQDLImages`: whether the session status is that of a success. -/
def validateQDLImages (psrc : List UInt8) (stack : UInt16) : Option Bool :=
  (imssdpUnpackResponse doneRspSize psrc stack).map (· == ssdpDoneSuccess)

end Im

end SierraSdk
