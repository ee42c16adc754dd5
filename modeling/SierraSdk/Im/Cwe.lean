import SierraSdk.Im.ImageWrite
import SierraSdk.Im.Ssdp
import SierraSdk.Im.SsdpWrapper
import SierraSdk.Sm.Run

/-!
# The CWE image-management task

The task runs one state machine. It asks the device to switch to the download protocol, and then
handles the frames of the device one by one, in the order in which they are received: it unframes
the frame, makes an event of the command byte that it finds, and runs the state machine on it.

The events are those of `imsteventtype`; the command byte is mapped by `imssdp_map_cmd`, to the
responses of `e_ssdp_response_commands`, which have no entry for the response to the request to
leave the download protocol. The action table is written with ten columns, so that the eleventh is
`NULL`.

A `World` is what the handling of a frame finds outside of the data that is modelled: the bytes in
memory behind the frame, an unwritten variable, the entries of the download directory, and whether
a file can be mapped; what has been mapped can be unmapped. The timer of the task never runs, and
the message pools are not modelled.
-/

namespace SierraSdk

namespace Im

namespace Cwe

open Hd (HdRxCtlBk)
open Sm (SmT smrun)

/-! ### States, events and tables -/

/-! `imstate_t` -/

namespace StIm

def idle : ℕ := 0
def waitsdp : ℕ := 1
def hello : ℕ := 2
def ofPkt : ℕ := 3
def ufWrite : ℕ := 4
def done : ℕ := 5
def doneFinal : ℕ := 6
def numActiveStates : ℕ := 7
def ignore : ℕ := 8
def inval : ℕ := 9

end StIm

/-- `imsteventtype` -/
inductive ImstEvent where
  | sdpAck
  | helloRsp
  | ofPktRsp
  | ufWriteRsp
  | doneRsp
  | dloadRsp
  | getImagePrefRsp
  | errorRsp
  | shutdown
  | badElf
  | hostIoErr
  deriving DecidableEq

/-- The number of the event. -/
def ImstEvent.number : ImstEvent → ℕ
  | .sdpAck => 0
  | .helloRsp => 1
  | .ofPktRsp => 2
  | .ufWriteRsp => 3
  | .doneRsp => 4
  | .dloadRsp => 5
  | .getImagePrefRsp => 6
  | .errorRsp => 7
  | .shutdown => 8
  | .badElf => 9
  | .hostIoErr => 10

/-- `eIM_MAX_EVENT` -/
def imMaxEvent : ℕ := 11

/-- The functions of the action table. -/
inductive Action where
  | imsendhello
  | imsendOFpkt
  | imsendUFwrite
  | imsendNextUFwrite
  | imsendDoneFinal
  | imtaskshutdown
  | imError
  deriving DecidableEq

open StIm in
def imStt : List ℕ :=
  [waitsdp, ignore, ignore, ignore,  ignore,    ignore, ignore, ignore, ignore,    ignore, ignore,
   ignore,  hello,  ignore, ignore,  ignore,    ignore, ignore, ignore, ignore,    ignore, ignore,
   ignore,  ignore, ofPkt,  ignore,  ignore,    ignore, ignore, hello,  ignore,    ignore, ignore,
   ignore,  ignore, ignore, ufWrite, ignore,    ignore, ignore, ignore, ignore,    ignore, ignore,
   ignore,  ignore, ignore, ufWrite, ignore,    ignore, done,   ignore, ignore,    ignore, ignore,
   ignore,  ignore, ignore, ignore,  doneFinal, ignore, ignore, ignore, doneFinal, ignore, ignore,
   ignore,  ignore, ignore, ignore,  ignore,    ignore, ignore, ignore, ignore,    ignore, ignore]

/-- A row of the action table: ten columns are written, the last one is `NULL`. -/
def row (sdpAck helloRsp ofPktRsp ufWriteRsp doneRsp gImgPref error shutdown badElf hostIoErr :
    Action) : List (Option Action) :=
  [some sdpAck, some helloRsp, some ofPktRsp, some ufWriteRsp, some doneRsp, some gImgPref,
   some error, some shutdown, some badElf, some hostIoErr, none]

def imSat : List (Option Action) :=
  row .imsendhello .imError .imError .imError .imError .imError .imError .imError .imError
    .imError ++
  row .imError .imsendOFpkt .imError .imError .imError .imError .imError .imError .imError
    .imError ++
  row .imError .imError .imsendUFwrite .imError .imError .imError .imError .imError .imError
    .imError ++
  row .imError .imError .imError .imsendNextUFwrite .imError .imError .imError .imError .imError
    .imError ++
  row .imError .imError .imError .imsendNextUFwrite .imError .imError .imError .imError
    .imsendhello .imError ++
  row .imError .imError .imError .imError .imsendDoneFinal .imError .imError .imtaskshutdown
    .imError .imError ++
  row .imError .imError .imError .imError .imError .imError .imError .imError .imError .imError

/-! ### The state of the task -/

/-- `fw_image_type_e` -/
inductive FwImgType where
  | mbnGobi
  | mbn
  | cwe
  | nvu
  | spk
  | invld
  deriving DecidableEq

/-- An entry of a directory: its type, by its name, and its contents if it can be read. -/
structure DirEntry where
  type : FwImgType
  file : Option (List UInt8)
  deriving DecidableEq

/-- The part of the control block for the download; `file` is the file of `fullpathfilename`. -/
structure CweQdl where
  imqdl : Imqdl
  majorVersion : UInt16
  minorVersion : UInt16
  isMDM9x15 : Bool
  imgMask : UInt16
  multiImgProg : Bool
  file : Option (List UInt8)
  deriving DecidableEq

/-- The task: its state machine with the bytes of its user data, the receiver of the HDLC package,
and whether the thread has ended. -/
structure ImCwe where
  state : ℕ
  udata : List UInt8
  hdr : HdRxCtlBk
  qdl : CweQdl
  terminated : Bool
  deriving DecidableEq

/-- What the handling of a frame finds outside of this state. There is no directory if it cannot be
opened. -/
structure World where
  behind : List UInt8
  stack : UInt16
  dir : List DirEntry
  mapped : Bool

/-- The functions that send a packet. -/
inductive SendPktFn where
  | imsendframed
  | imdssend
  deriving DecidableEq

/-- What the task does to others. -/
inductive Output where
  | sent (sendpktfn : SendPktFn) (data : List UInt8)
  | qmSetFwDownloadStatus (status : UInt32)
  | erAbort
  deriving DecidableEq

/-- The state machine as `imtask` sets it up. -/
def ImCwe.sm (s : ImCwe) : SmT Action (List UInt8) :=
  ⟨s.state, imMaxEvent, imSat, imStt, StIm.ignore, StIm.inval, s.udata⟩

/-! ### Actions -/

/-- `imtaskshutdown` -/
def imtaskshutdown (s : ImCwe) : ImCwe :=
  { s with
      qdl := { s.qdl with isMDM9x15 := false, imgMask := 0, multiImgProg := false }
      terminated := true }

/-- `im_error` -/
def imError (psdp : List UInt8) (s : ImCwe) : ImCwe :=
  if psdp.getD 0 0 = 0x0d then imtaskshutdown s else s

/-- `imdloadtosdp` -/
def imdloadtosdp : List Output := [.sent .imsendframed [vDloadToSdpReq, 0, 0]]

/-- The size of `ssdp_dload_to_sdp_rsp_s`. -/
def dloadToSdpRspSize : ℕ := 257

/-- `imsendhello`, which unpacks the message as a response to the switch to the download protocol. -/
def imsendhello (psdp : List UInt8) (w : World) (s : ImCwe) : Option ImCwe × List Output :=
  match imssdpUnpackResponse dloadToSdpRspSize psdp w.stack with
  | none => (none, [])
  | some _ => (some s, [.sent .imsendframed imssdpHelloPack])

/-- `imgetcwefname`: the first file that is asked for, and the type of the last entry read. -/
def imgetcwefname (qdl : CweQdl) : FwImgType → List DirEntry → FwImgType × CweQdl
  | eftype, [] => (eftype, qdl)
  | _, entry :: dir =>
      match entry.type with
      | .cwe =>
          if qdl.isMDM9x15 then
            if qdl.imgMask &&& 0x01 ≠ 0 then
              (.cwe, { qdl with imgMask := qdl.imgMask &&& 0xfffe, file := entry.file })
            else imgetcwefname qdl .cwe dir
          else (.cwe, { qdl with file := entry.file })
      | .spk =>
          (.spk, { qdl with
            imgMask := if qdl.isMDM9x15 then 0 else qdl.imgMask
            file := entry.file })
      | .nvu =>
          if qdl.isMDM9x15 ∧ qdl.imgMask &&& 0x01 = 0 ∧ qdl.imgMask &&& 0x02 ≠ 0 then
            (.nvu, { qdl with imgMask := qdl.imgMask &&& 0xfffd, file := entry.file })
          else imgetcwefname qdl .nvu dir
      | eftype => imgetcwefname qdl eftype dir

/-- The size of the image is that of the file, if it can be opened, and without its header. -/
def imageSizes (qdl : CweQdl) : CweQdl :=
  match qdl.file with
  | none => qdl
  | some file =>
      let cweImageSize := UInt32.ofNat file.length
      { qdl with
          imqdl :=
            { qdl.imqdl with
                cweImageSize := cweImageSize
                fwImageSize := cweImageSize - ssdpOpenUnframedPktCweHeaderSz } }

/-- `impreparefile`, in which the task ends if no entry has a type. -/
def impreparefile (w : World) (s : ImCwe) : ImCwe :=
  let (eftype, qdl) := imgetcwefname s.qdl .invld w.dir
  if eftype = .invld then imtaskshutdown { s with qdl := qdl }
  else { s with qdl := imageSizes qdl }

/-- The header of the image as it is mapped, bytes past the end of the file being zero. -/
def mappedHeader (qdl : CweQdl) : List UInt8 :=
  (qdl.file.getD [] ++ List.replicate 400 0).take 400

/-- `imsendOFpkt`, with `OpenQDLPort` and `imbuild_open_unframed_packet_req`. -/
def imsendOFpkt (psdp : List UInt8) (w : World) (s : ImCwe) : ImCwe × List Output :=
  let s :=
    if s.qdl.isMDM9x15 = false ∨ s.qdl.multiImgProg = false then
      { s with
          qdl :=
            { s.qdl with
                majorVersion := (imssdpHelloUnpack psdp).1
                minorVersion := (imssdpHelloUnpack psdp).2 } }
    else s
  let s := impreparefile w s
  if s.terminated then (s, [])
  else if w.mapped = false then (s, [])
  else
    (s, [.sent .imsendframed (imssdpOpenUnframedPack 0x80 s.qdl.imqdl.cweImageSize
      s.qdl.imqdl.fwImageSize (mappedHeader s.qdl))])

/-- `WriteQDLImageBlock` for the block that begins at `offset` in the file. -/
def writeQDLImageBlock (sequenceNumber : UInt16) (offset blockSize : UInt32) (s : ImCwe) :
    Option ImCwe × List Output :=
  match imssdpUnframedWritePack sequenceNumber blockSize
      ((s.qdl.file.getD []).drop offset.toNat) with
  | none => (none, [])
  | some data => (some s, [.sent .imdssend data])

/-- `imsendUFwrite` -/
def imsendUFwrite (psdp : List UInt8) (w : World) (s : ImCwe) : Option ImCwe × List Output :=
  match prepareQDLImageWrite psdp w.stack with
  | none => (none, [])
  | some rCode =>
      if rCode ≠ 0 then (some s, [])
      else
        let qdl := splitImage s.qdl.imqdl s.qdl.imqdl.cweImageSize
        if w.mapped = false then
          (some { s with qdl := { s.qdl with imqdl := { qdl with nextchunkoffset := 0 } } }, [])
        else
          writeQDLImageBlock 0 ssdpOpenUnframedPktCweHeaderSz
            (blockSize qdl - ssdpOpenUnframedPktCweHeaderSz)
            { s with
                qdl :=
                  { s.qdl with imqdl := (firstBlock qdl ssdpOpenUnframedPktCweHeaderSz).1 } }

/-- `imsendDone` -/
def imsendDone : List Output := [.sent .imsendframed imssdpDonePack]

/-- The part of `imsendNextUFwrite` for an image whose blocks are all written. -/
def finishImage (w : World) (s : ImCwe) : ImCwe × List Output :=
  if s.qdl.isMDM9x15 ∧ s.qdl.imgMask ≠ 0 then
    imsendOFpkt [] w { s with state := StIm.hello, qdl := { s.qdl with multiImgProg := true } }
  else ({ s with state := StIm.done }, imsendDone)

/-- `imsendNextUFwrite`: the status of the response is logged. -/
def imsendNextUFwrite (_psdp : List UInt8) (w : World) (s : ImCwe) :
    Option ImCwe × List Output :=
  let qdl := s.qdl.imqdl
  if qdl.numwrites = 0 then ((finishImage w s).map some id)
  else if w.mapped = false then (some s, [])
  else
    writeQDLImageBlock qdl.sequenceNumber qdl.nextchunkoffset (blockSize qdl)
      { s with qdl := { s.qdl with imqdl := (nextBlock qdl).1 } }

/-- `CloseQDLPort` -/
def closeQDLPort : List Output := [.sent .imsendframed imssdpDonefinalPack]

/-- `eQCWWAN_ERR_GENERAL` -/
def eQCWWANErrGeneral : UInt32 := 1

/-- `imsendDoneFinal` -/
def imsendDoneFinal (psdp : List UInt8) (w : World) (s : ImCwe) : Option ImCwe × List Output :=
  match validateQDLImages psdp w.stack with
  | none => (none, [])
  | some success =>
      (some (imtaskshutdown s),
        .qmSetFwDownloadStatus (if success then 0 else eQCWWANErrGeneral) :: closeQDLPort)

/-- The call of an action. -/
def call (psdp : List UInt8) (w : World) (s : ImCwe) : Action → Option ImCwe × List Output
  | .imsendhello => imsendhello psdp w s
  | .imsendOFpkt => (imsendOFpkt psdp w s).map some id
  | .imsendUFwrite => imsendUFwrite psdp w s
  | .imsendNextUFwrite => imsendNextUFwrite psdp w s
  | .imsendDoneFinal => imsendDoneFinal psdp w s
  | .imtaskshutdown => (some (imtaskshutdown s), [])
  | .imError => (some (imError psdp s), [])

/-! ### The loop of the task -/

/-- The event for a command byte in some state. Responses to different requests have one code, and
some devices answer these requests with an error. -/
def eventOf (state : ℕ) (command : UInt8) : Option ℕ :=
  (imssdpMapCmd command).map fun event =>
    if command = vHelloRsp ∨ command = vErrorPacketRsp then
      if state = StIm.idle then ImstEvent.sdpAck.number
      else if state = StIm.waitsdp then ImstEvent.helloRsp.number
      else event
    else event

/-- The frame is the user data, and then the message that it holds, if the HDLC package finds
one. -/
def unframed (frame : List UInt8) (s : ImCwe) : Option ImCwe :=
  (imunframe (some (s.hdr, ⟨some frame⟩)) frame).1.map fun (hdr, imsm) =>
    { s with hdr := hdr, udata := imsm.udata.getD frame }

/-- The bytes that the task reads as a message. -/
def ImCwe.psdp (w : World) (s : ImCwe) : List UInt8 := s.udata ++ w.behind

/-- The state machine runs the event of a message. -/
def runEvent (w : World) (ev : ℕ) (s : ImCwe) : Option ImCwe × List Output :=
  match smrun s.sm ev with
  | none => (none, [])
  | some (sm, none) => (some { s with state := sm.state }, [])
  | some (sm, some (action, _)) => call (s.psdp w) w { s with state := sm.state } action

/-- The handling of `eIM_FRAMED_RSP` by `imtask`. -/
def framedRsp (frame : List UInt8) (w : World) (s : ImCwe) : Option ImCwe × List Output :=
  match unframed frame s with
  | none => (none, [])
  | some s =>
      match eventOf s.state ((s.psdp w).getD 0 0) with
      | none => (none, [.erAbort])
      | some ev => runEvent w ev s

/-- There is no state once the daemon has aborted or memory has been misused; a task that has ended
handles no frame. -/
def step : Option ImCwe → List UInt8 × World → Option ImCwe × List Output
  | none, _ => (none, [])
  | some s, (frame, w) => if s.terminated then (some s, []) else framedRsp frame w s

/-- The task when it has asked for the switch to the download protocol. -/
def start (hdr : HdRxCtlBk) (udata : List UInt8) (qdl : CweQdl) : ImCwe where
  state := StIm.idle
  udata := udata
  hdr := hdr
  qdl :=
    { qdl with
        imqdl :=
          { qdl.imqdl with
              chunkSize := imChunkSize, remainder := 0, numwrites := 0, sequenceNumber := 0 }
        multiImgProg := false
        file := none }
  terminated := false

end Cwe

end Im

end SierraSdk
