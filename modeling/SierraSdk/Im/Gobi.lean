import SierraSdk.Im.ImageWrite
import SierraSdk.Im.Ssdp
import SierraSdk.Im.SsdpWrapper
import SierraSdk.Sm.Run

/-!
# The Gobi image-management task

The task runs three state machines: of the task, of the firmware download, and of a transaction
with the device. They share one queue of events and one pointer to the machine that runs the event
that is taken next. An event is queued as a number; each machine numbers its events from zero.

The frames of the device arrive in another thread, that of the DS shell. `imGobiRxpkt` copies the
frame, makes it the user data of the current machine, and then queues an event of the transaction
machine. The task takes an event, lets the current machine make its transition, and calls the
action of the table; the action, at its end, queues an event itself. A frame can be stored, and its
event queued, between any two of these.

A `World` is what an action finds outside of the data that is modelled: the bytes in memory behind
what it was given, an unwritten variable, the files, and whether a file can be mapped. The pools of
the transmitted and received messages are not modelled.
-/

namespace SierraSdk

namespace Im

namespace Gobi

open Am (piget16 piput32)
open Hd (HdRxCtlBk)
open Sm (SmT smrun)

/-! ### States, events and tables -/

/-- The machines of the task, of the firmware download and of a transaction. -/
inductive Machines where
  | smt
  | smfd
  | smtr
  deriving DecidableEq

/-! `imtstate_e` -/

namespace StSmt

def idle : ℕ := 0
def fwdldng : ℕ := 1
def shutdwn : ℕ := 2
def numActiveStates : ℕ := 3
def ignr : ℕ := 4
def invld : ℕ := 5

end StSmt

/-! `imsmfdstates_e` -/

namespace StSmfd

def idle : ℕ := 0
def waitHellorsp : ℕ := 1
def waitFwprefrsp : ℕ := 2
def sendFwimg : ℕ := 3
def waitOpenunf : ℕ := 4
def waitUwrtrsp : ℕ := 5
def waitDonersp : ℕ := 6
def error : ℕ := 7
def numActiveStates : ℕ := 8
def ignr : ℕ := 9
def invld : ℕ := 10

end StSmfd

/-! `imsmtstates_e` -/

namespace StSmtr

def waitReq : ℕ := 0
def waitRsp : ℕ := 1
def numActiveStates : ℕ := 2
def ignr : ℕ := 3
def invld : ℕ := 4

end StSmtr

/-- `imtevent_e` -/
inductive ImtEvent where
  | dldStart
  | dldComp
  | dldFail
  deriving DecidableEq

/-- `imfdevent_e` -/
inductive ImfdEvent where
  | start
  | rsprx
  | uwrtnxt
  | error
  deriving DecidableEq

/-- `imsmtevents_e` -/
inductive ImsmtEvent where
  | txReq
  | rxRsp
  deriving DecidableEq

/-- An event, with the machine that it is generated for. Only its number is in the queue. -/
inductive ImEvent where
  | task (ev : ImtEvent)
  | fwdld (ev : ImfdEvent)
  | trans (ev : ImsmtEvent)
  deriving DecidableEq

/-- The number in the queue. -/
def ImEvent.number : ImEvent → ℕ
  | .task .dldStart => 0
  | .task .dldComp => 1
  | .task .dldFail => 2
  | .fwdld .start => 0
  | .fwdld .rsprx => 1
  | .fwdld .uwrtnxt => 2
  | .fwdld .error => 3
  | .trans .txReq => 0
  | .trans .rxRsp => 1

/-- The machine that the event is generated for. -/
def ImEvent.machine : ImEvent → Machines
  | .task _ => .smt
  | .fwdld _ => .smfd
  | .trans _ => .smtr

/-- The functions of the action tables. -/
inductive Action where
  | imGobiTransTxReq
  | imGobiTransRxRsp
  | imerror
  | imGobiSendHello
  | imGobiSendGetImgPref
  | imGobiSendFwImg
  | imGobiSendOUfPkt
  | imGobiSendUfWrite
  | imGobiSendDone
  | imGobiSendNextUfWrite
  | imGobiSendDoneFinal
  | imGobiFwDldError
  | imGobiFwDldStart
  | imGobiTaskShutdown
  deriving DecidableEq

/-- The transition table of the transaction machine has a marker of the task machine. -/
def imstttr : List ℕ :=
  [StSmtr.waitRsp, StSmt.ignr,
   StSmt.ignr,     StSmtr.waitReq]

def imsattr : List (Option Action) :=
  [some .imGobiTransTxReq, some .imerror,
   some .imerror,          some .imGobiTransRxRsp]

def imsttfd : List ℕ :=
  [StSmfd.waitHellorsp, StSmfd.ignr,          StSmfd.ignr,        StSmfd.error,
   StSmfd.ignr,         StSmfd.waitFwprefrsp, StSmfd.ignr,        StSmfd.error,
   StSmfd.ignr,         StSmfd.sendFwimg,     StSmfd.ignr,        StSmfd.error,
   StSmfd.ignr,         StSmfd.waitOpenunf,   StSmfd.ignr,        StSmfd.error,
   StSmfd.ignr,         StSmfd.waitUwrtrsp,   StSmfd.ignr,        StSmfd.error,
   StSmfd.ignr,         StSmfd.waitDonersp,   StSmfd.waitUwrtrsp, StSmfd.error,
   StSmfd.ignr,         StSmfd.idle,          StSmfd.ignr,        StSmfd.error,
   StSmfd.ignr,         StSmfd.ignr,          StSmfd.ignr,        StSmfd.error]

def imsatfd : List (Option Action) :=
  [some .imGobiSendHello,  some .imGobiFwDldError,     some .imGobiFwDldError,
     some .imGobiFwDldError,
   some .imGobiFwDldError, some .imGobiSendGetImgPref, some .imGobiFwDldError,
     some .imGobiFwDldError,
   some .imGobiFwDldError, some .imGobiSendFwImg,      some .imGobiFwDldError,
     some .imGobiFwDldError,
   some .imGobiFwDldError, some .imGobiSendOUfPkt,     some .imGobiFwDldError,
     some .imGobiFwDldError,
   some .imGobiFwDldError, some .imGobiSendUfWrite,    some .imGobiFwDldError,
     some .imGobiFwDldError,
   some .imGobiFwDldError, some .imGobiSendDone,       some .imGobiSendNextUfWrite,
     some .imGobiFwDldError,
   some .imGobiFwDldError, some .imGobiSendDoneFinal,  some .imGobiFwDldError,
     some .imGobiFwDldError,
   some .imGobiFwDldError, some .imGobiFwDldError,     some .imGobiFwDldError,
     some .imGobiFwDldError]

/-- The transition table of the task machine has the marker of the transaction machine. -/
def imsttt : List ℕ :=
  [StSmt.fwdldng, StSmtr.ignr,   StSmtr.ignr,
   StSmtr.ignr,   StSmt.shutdwn, StSmt.shutdwn,
   StSmtr.ignr,   StSmtr.ignr,   StSmtr.ignr]

def imsatt : List (Option Action) :=
  [some .imGobiFwDldStart, some .imerror,            some .imerror,
   some .imerror,          some .imGobiTaskShutdown, some .imGobiTaskShutdown,
   some .imerror,          some .imerror,            some .imerror]

/-- The number of active states. -/
def Machines.numActiveStates : Machines → ℕ
  | .smt => StSmt.numActiveStates
  | .smfd => StSmfd.numActiveStates
  | .smtr => StSmtr.numActiveStates

/-- A machine as `imgobitask` sets it up, in some state and with some user data. -/
def Machines.sm {δ : Type*} (state : ℕ) (udata : δ) : Machines → SmT Action δ
  | .smt => ⟨state, 3, imsatt, imsttt, StSmt.ignr, StSmt.invld, udata⟩
  | .smfd => ⟨state, 4, imsatfd, imsttfd, StSmfd.ignr, StSmfd.invld, udata⟩
  | .smtr => ⟨state, 2, imsattr, imstttr, StSmtr.ignr, StSmtr.invld, udata⟩

/-! ### The state of the task -/

/-- What the user data of a machine points to: nothing, the packet structure, or an unframed
message. -/
inductive Udata where
  | null
  | datapkt
  | message (bytes : List UInt8)
  deriving DecidableEq

/-- The functions that send a packet. -/
inductive SendPktFn where
  | imsendframed
  | imdssend
  deriving DecidableEq

/-- `imdatapkt`, with the buffer that it points to; `datalen` is the length of it. -/
structure ImDatapkt where
  pdata : List UInt8
  sendpktfn : SendPktFn
  deriving DecidableEq

/-- An image of the list of images to download: its type, and its file if it can be opened. -/
structure MbnImg where
  type : UInt8
  file : Option (List UInt8)
  deriving DecidableEq

/-- The image in the unused entries of the list. -/
def MbnImg.unused : MbnImg := ⟨0, none⟩

/-- The part of the control block for the download. -/
structure GobiQdl where
  imqdl : Imqdl
  majorVersion : UInt16
  minorVersion : UInt16
  gobimgs2dwld : List MbnImg
  nextimageidx : ℕ

/-- Where the thread of the task is: at the queue, about to call an action, about to queue the
event with which an action ends, or ended. -/
inductive Task where
  | waiting
  | acting (action : Action) (imrxdata : Udata)
  | queueing (ev : ImEvent)
  | terminated
  deriving DecidableEq

/-- The task, its three machines, and the receiver, which may have stored a frame whose event it
has not queued yet. -/
structure ImGobi where
  state : Machines → ℕ
  udata : Machines → Udata
  imsmp : Machines
  datapkt : ImDatapkt
  imicmsgque : List ImEvent
  task : Task
  received : Bool
  hdr : HdRxCtlBk
  qdl : GobiQdl

/-- What an action finds outside of this state. -/
structure World where
  behind : List UInt8
  stack : UInt16
  imGobiImageListGet : List SsdpImgPref → List MbnImg
  mapped : Bool

/-- What the task does to others. -/
inductive Output where
  | sent (sendpktfn : SendPktFn) (data : List UInt8)
  | qmSetFwDownloadStatus (status : UInt8)
  deriving DecidableEq

/-- A machine of the task. -/
def ImGobi.sm (s : ImGobi) (m : Machines) : SmT Action Udata := m.sm (s.state m) (s.udata m)

/-- The bytes that the user data points to. -/
def Udata.bytes (s : ImGobi) (w : World) : Udata → Option (List UInt8)
  | .null => none
  | .datapkt => some (piput32 (UInt32.ofNat s.datapkt.pdata.length) ++ w.behind)
  | .message bytes => some (bytes ++ w.behind)

/-! ### Actions -/

/-- `IMEVTPOOLSZ` and `IMMSGDEPTH` -/
def imEvtPoolSz : ℕ := 50

/-- `imGobiQevt`, which aborts if there is no event block. -/
def imGobiQevt (ev : ImEvent) (s : ImGobi) : Option ImGobi :=
  if imEvtPoolSz ≤ s.imicmsgque.length then none
  else some { s with imicmsgque := s.imicmsgque ++ [ev] }

/-- `imGobiTaskShutdown` -/
def imGobiTaskShutdown (s : ImGobi) : ImGobi := { s with task := .terminated }

/-- `imerror` -/
def imerror (imrxdata : Udata) (w : World) (s : ImGobi) : Option ImGobi :=
  (imrxdata.bytes s w).map fun psdp =>
    if psdp.getD 0 0 = 0x0d then imGobiTaskShutdown s else { s with task := .waiting }

/-- `imGobiTransSendReq` -/
def imGobiTransSendReq (data : List UInt8) (sendpktfn : SendPktFn) (s : ImGobi) : ImGobi :=
  { s with
      imsmp := .smtr
      datapkt := ⟨data, sendpktfn⟩
      udata := Function.update s.udata .smtr .datapkt
      task := .queueing (.trans .txReq) }

/-- `imGobiFwDldSendReq` -/
def imGobiFwDldSendReq (s : ImGobi) : ImGobi :=
  { s with imsmp := .smfd, task := .queueing (.fwdld .start) }

/-- The event that `imGobiFwDldRspCbk` queues for a message with a command byte. -/
def rspEvent (ev : ImfdEvent) (command : UInt8) (state : ℕ) : ImfdEvent :=
  if command = 0x0d then .error
  else if state = StSmfd.waitUwrtrsp then .uwrtnxt
  else ev

/-- `imGobiFwDldRspCbk` -/
def imGobiFwDldRspCbk (ev : ImfdEvent) (data : Udata) (w : World) (s : ImGobi) : Option ImGobi :=
  (data.bytes s w).map fun psdp =>
    { s with
        imsmp := .smfd
        udata := Function.update s.udata .smfd data
        task := .queueing (.fwdld (rspEvent ev (psdp.getD 0 0) (s.state .smfd))) }

/-- `imGobiTaskRspCbk` -/
def imGobiTaskRspCbk (ev : ImtEvent) (s : ImGobi) : ImGobi :=
  { s with imsmp := .smt, task := .queueing (.task ev) }

/-- `CloseQDLPort` -/
def closeQDLPort : List Output := [.sent .imsendframed imssdpDonefinalPack]

/-- `imGobiFwDldError` -/
def imGobiFwDldError (s : ImGobi) : ImGobi × List Output :=
  (imGobiTaskRspCbk .dldFail s, closeQDLPort)

/-- `imGobiTransRxRsp`: the message is the user data if the receiver of the HDLC package finds one
in the frame. -/
def imGobiTransRxRsp (imrxdata : Udata) (w : World) (s : ImGobi) : Option ImGobi :=
  match imrxdata with
  | .datapkt =>
      (imunframe (some (s.hdr, ⟨none⟩)) s.datapkt.pdata).1.bind fun (hdr, imsm) =>
        let data := (imsm.udata.map Udata.message).getD (s.udata s.imsmp)
        imGobiFwDldRspCbk .rsprx data w
          { s with hdr := hdr, udata := Function.update s.udata s.imsmp data }
  -- anything else is no packet structure
  | _ => none

/-- `imGobiTransTxReq` -/
def imGobiTransTxReq (imrxdata : Udata) (s : ImGobi) : Option ImGobi × List Output :=
  match imrxdata with
  | .datapkt =>
      (some { s with task := .waiting }, [.sent s.datapkt.sendpktfn s.datapkt.pdata])
  | _ => (none, [])

/-- The image that is downloaded next. -/
def GobiQdl.image (qdl : GobiQdl) : MbnImg := qdl.gobimgs2dwld.getD qdl.nextimageidx .unused

/-- `wrtGobiQdlImgBlck` for the block that begins at `offset` in the file. -/
def wrtGobiQdlImgBlck (sequenceNumber : UInt16) (offset blockSize : UInt32) (s : ImGobi) :
    Option ImGobi :=
  (imssdpUnframedWritePack sequenceNumber blockSize
      ((s.qdl.image.file.getD []).drop offset.toNat)).map
    fun data => imGobiTransSendReq data .imdssend s

/-- `imGobiSendHello` -/
def imGobiSendHello (s : ImGobi) : ImGobi := imGobiTransSendReq imssdpHelloPack .imsendframed s

/-- `imGobiSendGetImgPref`, with `OpenQDLPort`. -/
def imGobiSendGetImgPref (imrxdata : Udata) (w : World) (s : ImGobi) : ImGobi :=
  let qdl :=
    match imrxdata.bytes s w with
    | none => s.qdl
    | some psdp =>
        { s.qdl with
            majorVersion := (imssdpHelloUnpack psdp).1
            minorVersion := (imssdpHelloUnpack psdp).2 }
  imGobiTransSendReq imssdpGetImagePreferencePack .imsendframed { s with qdl := qdl }

/-- `imGobiSendFwImg` -/
def imGobiSendFwImg (imrxdata : Udata) (w : World) (s : ImGobi) : ImGobi :=
  let pref := ((imrxdata.bytes s w).map imssdpGetImagePreferenceUnpack).getD []
  let images := w.imGobiImageListGet pref
  { s with
      qdl := { s.qdl with gobimgs2dwld := images, nextimageidx := 0 }
      task := .queueing (.fwdld (if images = [] then .error else .rsprx)) }

/-- `imGobiSendOUfPkt`, with `imgobipreparefile` and `imgobibld_open_unframed_pkt_req`. It aborts
if the file cannot be opened; for a CWE image, the header would be taken from a pointer that is not
set. -/
def imGobiSendOUfPkt (s : ImGobi) : Option ImGobi :=
  if s.qdl.image.type = 0x80 then none
  else
    s.qdl.image.file.map fun file =>
      let fwImageSize := UInt32.ofNat file.length
      imGobiTransSendReq
        (imssdpOpenUnframedPack s.qdl.image.type fwImageSize fwImageSize []) .imsendframed
        { s with qdl := { s.qdl with imqdl := { s.qdl.imqdl with fwImageSize := fwImageSize } } }

/-- The part of `imGobiSendUfWrite` for an image that the device does not need. -/
def skipImage (s : ImGobi) : ImGobi :=
  let nextimageidx := s.qdl.nextimageidx + 1
  { s with
      qdl := { s.qdl with nextimageidx := nextimageidx }
      state := Function.update s.state .smfd
        (if nextimageidx < s.qdl.gobimgs2dwld.length then StSmfd.sendFwimg else StSmfd.waitUwrtrsp)
      task := .queueing (.fwdld .rsprx) }

/-- The part of `imGobiSendUfWrite` that writes the first block. -/
def writeFirst (s : ImGobi) : Option ImGobi :=
  let qdl := splitImage s.qdl.imqdl s.qdl.imqdl.fwImageSize
  wrtGobiQdlImgBlck 0 0 (blockSize qdl)
    { s with qdl := { s.qdl with imqdl := (firstBlock qdl 0).1 } }

/-- `imGobiSendUfWrite` -/
def imGobiSendUfWrite (imrxdata : Udata) (w : World) (s : ImGobi) : Option ImGobi :=
  (imrxdata.bytes s w).bind fun psdp =>
    (prepareQDLImageWrite psdp w.stack).bind fun rCode =>
      if rCode.toUInt32 ≠ ssdpOpenUnframedStatusOk then
        if rCode.toUInt32 = ssdpOpenUnframedImageNtRequired then some (skipImage s)
        else some { s with task := .queueing (.fwdld .error) }
      else if w.mapped = false then none
      else writeFirst s

/-- `imGobiSendDone` -/
def imGobiSendDone (s : ImGobi) : ImGobi := imGobiTransSendReq imssdpDonePack .imsendframed s

/-- `imGobiSendDoneFinal` -/
def imGobiSendDoneFinal (imrxdata : Udata) (w : World) (s : ImGobi) :
    Option ImGobi × List Output :=
  match (imrxdata.bytes s w).bind fun psdp => validateQDLImages psdp w.stack with
  | none => (none, [])
  | some false =>
      (some (imGobiTaskRspCbk .dldFail s), closeQDLPort ++ [.qmSetFwDownloadStatus 1])
  | some true =>
      (some (imGobiTaskRspCbk .dldComp s), closeQDLPort ++ [.qmSetFwDownloadStatus 0])

/-- The part of `imGobiSendNextUfWrite` for an image whose blocks are all written. -/
def finishImage (s : ImGobi) : ImGobi :=
  let nextimageidx := s.qdl.nextimageidx + 1
  { s with
      qdl := { s.qdl with nextimageidx := nextimageidx }
      state :=
        if nextimageidx < s.qdl.gobimgs2dwld.length then
          Function.update s.state .smfd StSmfd.sendFwimg
        else s.state
      task := .queueing (.fwdld .rsprx) }

/-- The part of `imGobiSendNextUfWrite` that writes the next block. -/
def writeNext (s : ImGobi) : Option ImGobi :=
  let qdl := s.qdl.imqdl
  wrtGobiQdlImgBlck qdl.sequenceNumber qdl.nextchunkoffset (blockSize qdl)
    { s with qdl := { s.qdl with imqdl := (nextBlock qdl).1 } }

/-- `imGobiSendNextUfWrite` -/
def imGobiSendNextUfWrite (imrxdata : Udata) (w : World) (s : ImGobi) : Option ImGobi :=
  match imrxdata.bytes s w with
  | none => some { s with task := .queueing (.fwdld .error) }
  | some psdp =>
      if (imssdpUnframedWriteUnpack psdp).status ≠ ssdpUnframedWriteDataReceivedOk then
        some { s with task := .queueing (.fwdld .error) }
      else if s.qdl.imqdl.numwrites = 0 then some (finishImage s)
      else if w.mapped = false then none
      else writeNext s

/-- `imGobiFwDldStart` -/
def imGobiFwDldStart (s : ImGobi) : ImGobi := imGobiFwDldSendReq s

/-- The call of an action, up to the event with which it ends. -/
def call (imrxdata : Udata) (w : World) (s : ImGobi) : Action → Option ImGobi × List Output
  | .imGobiTransTxReq => imGobiTransTxReq imrxdata s
  | .imGobiTransRxRsp => (imGobiTransRxRsp imrxdata w s, [])
  | .imerror => (imerror imrxdata w s, [])
  | .imGobiSendHello => (some (imGobiSendHello s), [])
  | .imGobiSendGetImgPref => (some (imGobiSendGetImgPref imrxdata w s), [])
  | .imGobiSendFwImg => (some (imGobiSendFwImg imrxdata w s), [])
  | .imGobiSendOUfPkt => (imGobiSendOUfPkt s, [])
  | .imGobiSendUfWrite => (imGobiSendUfWrite imrxdata w s, [])
  | .imGobiSendDone => (some (imGobiSendDone s), [])
  | .imGobiSendNextUfWrite => (imGobiSendNextUfWrite imrxdata w s, [])
  | .imGobiSendDoneFinal => imGobiSendDoneFinal imrxdata w s
  | .imGobiFwDldError => (some (imGobiFwDldError s).1, (imGobiFwDldError s).2)
  | .imGobiFwDldStart => (some (imGobiFwDldStart s), [])
  | .imGobiTaskShutdown => (some (imGobiTaskShutdown s), [])

/-! ### Moves -/

/-- The DS shell stores a frame, or queues its event; the task takes an event, calls the action, or
queues the event of the action. -/
inductive Move where
  | store (imbuf : List UInt8)
  | notify
  | take
  | act (w : World)
  | queue

/-- The first part of `imGobiRxpkt`. -/
def imGobiRxpkt (imbuf : List UInt8) (s : ImGobi) : ImGobi :=
  { s with
      datapkt := { s.datapkt with pdata := imbuf }
      udata := Function.update s.udata s.imsmp .datapkt
      received := true }

/-- One turn of the loop of `imgobitask`, up to the call of the action. -/
def imgobitask (s : ImGobi) (ev : ImEvent) (rest : List ImEvent) : Option ImGobi :=
  (smrun (s.sm s.imsmp) ev.number).map fun (sm, called) =>
    { s with
        imicmsgque := rest
        state := Function.update s.state s.imsmp sm.state
        task := (called.map fun (action, udata) => Task.acting action udata).getD .waiting }

/-- A move that is not possible leaves everything as it is. -/
def move (s : ImGobi) : Move → Option ImGobi × List Output
  | .store imbuf => (some (if s.received then s else imGobiRxpkt imbuf s), [])
  | .notify =>
      (if s.received then imGobiQevt (.trans .rxRsp) { s with received := false } else some s, [])
  | .take =>
      match s.task, s.imicmsgque with
      | .waiting, ev :: rest => (imgobitask s ev rest, [])
      | _, _ => (some s, [])
  | .act w =>
      match s.task with
      | .acting action imrxdata => call imrxdata w s action
      | _ => (some s, [])
  | .queue =>
      match s.task with
      | .queueing ev => (imGobiQevt ev { s with task := .waiting }, [])
      | _ => (some s, [])

/-- There is no state once the daemon has aborted or memory has been misused. -/
def step : Option ImGobi → Move → Option ImGobi × List Output
  | none, _ => (none, [])
  | some s, m => move s m

/-- The control block when the task has queued its first event. What is left of an earlier download
is the packet structure, the receiver of the HDLC package and the images. -/
def start (datapkt : ImDatapkt) (hdr : HdRxCtlBk) (qdl : GobiQdl) : ImGobi where
  state := fun _ => 0
  udata := fun _ => .null
  imsmp := .smt
  datapkt := datapkt
  imicmsgque := [.task .dldStart]
  task := .waiting
  received := false
  hdr := hdr
  qdl :=
    { qdl with
        imqdl :=
          { qdl.imqdl with
              chunkSize := imChunkSize, remainder := 0, numwrites := 0, sequenceNumber := 0 } }

end Gobi

end Im

end SierraSdk
