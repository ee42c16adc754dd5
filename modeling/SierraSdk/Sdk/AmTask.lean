import SierraSdk.Sdk.CnsTask
import SierraSdk.Sdk.FirmwareTask
import SierraSdk.Sdk.HpphTask

/-!
# The tasks of the SDK that serve the applications

The AM task takes the requests of the applications and dispatches them one at a time: to the CnS
task, to the packet handler task, or to the modem at once. A response goes out with `amsdk_send`,
which also queues an event for the AM task; this event clears `amreqbusy`.

The three tasks take messages from their queues. What one of them does with a message is a step,
but for the end of a download: its response is sent before `hpstateclear` frees the channel that
`hpsendfwdwnrr` looks at, so that a request can come in between.

What a task finds outside (the operating system, the USB device) comes with the message it takes.
Messages that nothing is answered to, such as changes of the air server, are left out. A packet is
passed on as it is: that the AM task releases its buffer before the other task has read it is not
modelled.
-/

namespace SierraSdk

namespace Sdk

namespace AmMsgType

def fwDwnRequest : UInt16 := 0x40
def fwDwnResponse : UInt16 := 0x41
def airSrvReq : UInt16 := 0x43
def airSrvResp : UInt16 := 0x44
def portNameReq : UInt16 := 0x46
def portNameResp : UInt16 := 0x47
def mdmResetReq : UInt16 := 0x48
def mdmResetResp : UInt16 := 0x49
def devInfoReq : UInt16 := 0x4d
def invalid : UInt16 := 0xffff

end AmMsgType

namespace AmResult

def noDevice : UInt8 := 2
def versError : UInt8 := 5
def failed : UInt8 := 8

end AmResult

namespace AmIpc

open Machine

section Packets

/-- The common header of a packet. -/
structure AmHeader where
  amtype : UInt16
  amhdrversion : UInt16
  amresultcode : UInt8
  amlength : UInt16

def amparseamheader (packet : List UInt8) : AmHeader where
  amtype := piget16 packet 0
  amhdrversion := piget16 packet 2
  amresultcode := packet.getD 4 0
  amlength := piget16 packet 5

/-- `AMRESETMDMRESPTOTAL`, `AMPORTNAMERESPTOTAL` and `AMAIRSRVRESPTOTAL` -/
def amResetMdmRespTotal : UInt16 := 1 + 7
def amPortNameRespTotal : UInt16 := 320 + 7
def amAirSrvRespTotal : UInt16 := 40 + 7

/-- `AMPORTNAMESZ`, `AMMACSIZE` and `AMPRODSTRSIZE` -/
def amPortNameSz : ℕ := 40
def amMacSize : ℕ := 6
def amProdStrSize : ℕ := 16

/-- The endpoints with a port name. -/
inductive UsEp where
  | hip | diag | nmea | atcmd | data1 | data2 | data3 | massStorage

/-- The endpoints in the order of their names in a packet. -/
def UsEp.all : List UsEp := [.hip, .diag, .nmea, .atcmd, .data1, .data2, .data3, .massStorage]

/-- A port name response. -/
def ambuildusbportnameresponse (amresultcode : UInt8) (names : UsEp → List UInt8) : List UInt8 :=
  ambuildamheader AmMsgType.portNameResp amHdrVersion amresultcode amPortNameRespTotal ++
    UsEp.all.flatMap fun ep => (names ep).takeD amPortNameSz 0

/-- `AMAIRSERVERAVAIL` -/
def amAirServerAvail : UInt8 := 0

/-- The parameters of an air server request or response. -/
structure AmAirServerParms where
  amairoperation : UInt8
  amairdevicestat : UInt8
  amairchgera : UInt32
  amairdevicetype : UInt32
  amairclimac : List UInt8
  amairservmac : List UInt8
  amairapprunning : UInt8
  amairprodstr : List UInt8
  amairtechtype : UInt8

def amparseairserverrequest (packet : List UInt8) : AmAirServerParms where
  amairoperation := packet.getD 0 0
  amairdevicestat := packet.getD 1 0
  amairchgera := piget32 packet 2
  amairdevicetype := piget32 packet 6
  amairclimac := (packet.drop 10).takeD amMacSize 0
  amairservmac := (packet.drop 16).takeD amMacSize 0
  amairapprunning := packet.getD 22 0
  amairprodstr := (packet.drop 23).takeD amProdStrSize 0
  amairtechtype := packet.getD 39 0

/-- An air server response. -/
def ambuildairserverresponse (amresultcode : UInt8) (parms : AmAirServerParms) : List UInt8 :=
  ambuildamheader AmMsgType.airSrvResp amHdrVersion amresultcode amAirSrvRespTotal ++
    [parms.amairoperation, parms.amairdevicestat] ++ piput32 parms.amairchgera ++
      piput32 parms.amairdevicetype ++ parms.amairclimac.takeD amMacSize 0 ++
        parms.amairservmac.takeD amMacSize 0 ++ [parms.amairapprunning] ++
          parms.amairprodstr.takeD amProdStrSize 0 ++ [parms.amairtechtype]

/-- A modem reset response. -/
def ambuildmdmresetresp (amresettype : UInt8) : List UInt8 :=
  ambuildamheader AmMsgType.mdmResetResp amHdrVersion AmResult.success amResetMdmRespTotal ++
    [amresettype]

/-- The objects whose start and stop go to the modem as a set. -/
def cnsLbsNotifyStatus (cnsobjid : UInt16) : Bool :=
  cnsobjid = 0x0f07 ∨ cnsobjid = 0x0f08 ∨ cnsobjid = 0x0f09

/-- A CnS request as it is passed on: the operation is the first byte. -/
def amcnspassed (inipcmsg : List UInt8) : List UInt8 :=
  let cnsparm := amparsecnsrequest inipcmsg
  if (cnsparm.amcnsoperation = cnsNotreq ∨ cnsparm.amcnsoperation = cnsStopreq) ∧
      cnsLbsNotifyStatus cnsparm.amcnsobjid then
    inipcmsg.set 0 cnsSetreq
  else inipcmsg

end Packets

section Queues

/-- Queue a message; a full queue is an abort. -/
def icsmt_send {α : Type} (depth : ℕ) (queue : List α) (msg : α) : Option (List α) :=
  if queue.length < depth then some (queue ++ [msg]) else none

/-- `AMEVTPOOLSZ` and `AMMSGDEPTH` -/
def amEvtPoolSz : ℕ := 20
def amMsgDepth : ℕ := 20

/-- `CNRREVTPOOLSZ` and `CNRRMSGDEPTH` -/
def cnRrEvtPoolSz : ℕ := 30
def cnRrMsgDepth : ℕ := 31

/-- `HPPHEVPOOLSZ` and `HPPHMSGDEPTH` -/
def hpphEvPoolSz : ℕ := 20
def hpphMsgDepth : ℕ := 80

/-- A request: the packet, and the channel it came on. -/
structure AmEvtBlock where
  amdata : List UInt8
  amipcchannel : AppChannel

/-- A message to the AM task. -/
inductive AmMsg where
  | appRequest (evt : AmEvtBlock)
  | appRespSent

/-- The request of a message. -/
def AmMsg.request : AmMsg → Option AmEvtBlock
  | .appRequest evt => some evt
  | .appRespSent => none

/-- The AM task: whether it is busy, its messages, the requests that wait, and the notification
table. -/
structure AmIpcCb where
  amreqbusy : Bool
  amicmsgque : List AmMsg
  ameventheadq : List AmEvtBlock
  amnotifheadq : List AmIpcNotifQ

/-- The event blocks in use. -/
def AmIpcCb.evtInUse (am : AmIpcCb) : ℕ :=
  am.ameventheadq.length + (am.amicmsgque.filterMap AmMsg.request).length

/-- A request of an application arrives; no block for it is an abort. -/
def amipcrcvhandler (am : AmIpcCb) (evt : AmEvtBlock) : Option AmIpcCb :=
  if am.evtInUse < amEvtPoolSz then
    (icsmt_send amMsgDepth am.amicmsgque (.appRequest evt)).map fun amicmsgque =>
      { am with amicmsgque }
  else none

/-- A response was sent. -/
def amqueipcrspevt (am : AmIpcCb) : Option AmIpcCb :=
  (icsmt_send amMsgDepth am.amicmsgque .appRespSent).map fun amicmsgque => { am with amicmsgque }

/-- The CnS task with its messages. -/
structure CnTask where
  cnrrtcb : CnRrTcb
  cnicmsgque : List CnInput

/-- Whether a message takes an event block. -/
def CnInput.isBlock : CnInput → Bool
  | .tmrTick => false
  | _ => true

/-- Post a message in an event block. -/
def CnTask.post (t : CnTask) (msg : CnInput) : Option CnTask :=
  if t.cnicmsgque.countP CnInput.isBlock < cnRrEvtPoolSz then
    (icsmt_send cnRrMsgDepth t.cnicmsgque msg).map fun cnicmsgque => { t with cnicmsgque }
  else none

/-- A request of the AM task for the packet handler task. -/
inductive HpAmMsg where
  | fwdwnreq (packet : List UInt8)
  | airreq (packet : List UInt8) (ipcchannel : AppChannel)
  | portreq (ipcchannel : AppChannel)
  | dirreq (version reqtype : UInt8) (ipcchannel : AppChannel)

/-- A message of the modem or of another package. -/
inductive HpMdmMsg where
  | fwdwncb (hipmsg : HpHipEvt)
  | modemstatecb (online apprunning : Bool)
  | loopreq (lbevt : Hpph.HplbReqEvt)
  | loopresp (hipevt : Hpph.HpHipEvt)
  | dirreq (hpdevcbfp : Hpph.Callback) (version reqtype : UInt8)
  | dirresp (hipevt : Hpph.HpHipEvt)

/-- A message to the packet handler task. -/
inductive HpMsg where
  | am (msg : HpAmMsg)
  | mdm (msg : HpMdmMsg)
  | tick

def HpMsg.isBlock : HpMsg → Bool
  | .tick => false
  | _ => true

/-- The packet handler task with its messages; `hpclearing` is the channel of a download that has
been answered and not been cleared. -/
structure HpTask where
  hpphcb : Hpph.HpphCb
  hpgcb : HpBlk
  hpclearing : Option ℕ
  hpphicmsgque : List HpMsg

/-- Post a message in an event block. -/
def HpTask.post (t : HpTask) (msg : HpMsg) : Option HpTask :=
  if t.hpphicmsgque.countP HpMsg.isBlock < hpphEvPoolSz then
    (icsmt_send hpphMsgDepth t.hpphicmsgque msg).map fun hpphicmsgque => { t with hpphicmsgque }
  else none

/-- The channel of a download that other tasks see. -/
def HpTask.hpphipcchanrr (t : HpTask) : ℕ := t.hpclearing.getD t.hpgcb.hpphipcchanrr

/-- The tasks. -/
structure SdkCb where
  am : AmIpcCb
  cn : CnTask
  hp : HpTask

/-- What is done. `arrived` and `dispatched` are no messages: they record that a request was queued
for the AM task, and that it was taken from the queue to be served. -/
inductive SdkOut where
  | arrived (ipcchannel : ℕ)
  | dispatched (ipcchannel : ℕ)
  | dssend (packet : List UInt8) (ipcchannel : ℕ)
  | hpTxPacket (msgdesignator : UInt32) (msgparm : UInt8)
  | cn (out : CnOut)
  | hpph (out : Hpph.HpphOut)
  | fw (out : FwOut)
  | erAbort

/-- The channel that a response goes to. -/
def SdkOut.respchannel : SdkOut → Option ℕ
  | .dssend _ ipcchannel => some ipcchannel
  | .cn (.amsdkSend ipcchannel _) => some ipcchannel.toNat
  | .hpph (.amsdkSend _ _ ipcchannel) => some ipcchannel
  | .fw out => out.respchannel
  | _ => none

/-- The channels that responses go to. -/
def answered (out : List SdkOut) : List ℕ := out.filterMap SdkOut.respchannel

/-- The AM task is told of the responses. -/
def amsdk_sent (am : AmIpcCb) (ipcchannels : List ℕ) : Option AmIpcCb :=
  ipcchannels.foldlM (fun am _ => amqueipcrspevt am) am

/-- After something was done: the responses among it are queued. -/
def responded (r : Option SdkCb × List SdkOut) : Option SdkCb × List SdkOut :=
  (r.1.bind fun s => (amsdk_sent s.am (answered r.2)).map fun am => { s with am }, r.2)

/-- The tasks after a message was posted, or an abort. -/
def posted (s : Option SdkCb) : Option SdkCb × List SdkOut :=
  (s, if s.isSome then [] else [.erAbort])

end Queues

section Dispatch

/-- The type of a response that consists of a header. -/
def amShortType (amtypercv : UInt16) : UInt16 :=
  if amtypercv = AmMsgType.cnsRequest then AmMsgType.cnsResponse
  else if amtypercv = AmMsgType.fwDwnRequest then AmMsgType.fwDwnResponse
  else if amtypercv = AmMsgType.airSrvReq then AmMsgType.airSrvResp
  else if amtypercv = AmMsgType.portNameReq then AmMsgType.portNameResp
  else AmMsgType.invalid

/-- A response that consists of a header. -/
def amShortResp (s : SdkCb) (amtypercv : UInt16) (resultcode : UInt8) (ipcchannel : AppChannel) :
    Option SdkCb × List SdkOut :=
  responded (some s,
    [.dssend (ambuildamheader (amShortType amtypercv) amHdrVersion resultcode 0) ipcchannel.1])

/-- Pass a request on to the CnS task. -/
def cnsendrr (s : SdkCb) (inipcmsg : List UInt8) : Option SdkCb × List SdkOut :=
  posted ((s.cn.post (.ipcMsg inipcmsg)).map fun cn => { s with cn })

/-- Post a message to the packet handler task. -/
def hpsend (s : SdkCb) (msg : HpMsg) : Option SdkCb × List SdkOut :=
  posted ((s.hp.post msg).map fun hp => { s with hp })

/-- Only one download is allowed. -/
def hpsendfwdwnrr (s : SdkCb) (inipcmsg : List UInt8) (ipcchannel : AppChannel) :
    Option SdkCb × List SdkOut :=
  if s.hp.hpphipcchanrr = ciMaxIpcChan then
    hpsend { s with hp.hpgcb.hpphipcchanrr := ipcchannel.1 } (.am (.fwdwnreq inipcmsg))
  else (some s, [])

/-- The modem is reset at once. -/
def hpresetmdm (s : SdkCb) (inipcmsg : List UInt8) (ipcchannel : AppChannel) :
    Option SdkCb × List SdkOut :=
  let amresettype := inipcmsg.getD 0 0
  responded (some s,
    [.hpTxPacket hpResetReq amresettype, .dssend (ambuildmdmresetresp amresettype) ipcchannel.1])

/-- Dispatch a request by the type of its packet; a type that is not known is logged. -/
def amdispatchrequest (s : SdkCb) (amtype : UInt16) (inipcmsg : List UInt8)
    (ipcchannel : AppChannel) : Option SdkCb × List SdkOut :=
  if amtype = AmMsgType.cnsRequest then
    let cnsparm := amparsecnsrequest inipcmsg
    match Sdk.amdispatchrequest s.am.amnotifheadq cnsparm.amcnsobjid cnsparm.amcnsoperation
        ipcchannel.1 with
    | none => (none, [.erAbort])
    | some amnotifheadq =>
        cnsendrr { s with am.amnotifheadq := amnotifheadq } (amcnspassed inipcmsg)
  else if amtype = AmMsgType.fwDwnRequest then hpsendfwdwnrr s inipcmsg ipcchannel
  else if amtype = AmMsgType.airSrvReq then hpsend s (.am (.airreq inipcmsg ipcchannel))
  else if amtype = AmMsgType.portNameReq then hpsend s (.am (.portreq ipcchannel))
  else if amtype = AmMsgType.mdmResetReq then hpresetmdm s inipcmsg ipcchannel
  else if amtype = AmMsgType.devInfoReq then
    hpsend s (.am (.dirreq (piget16 inipcmsg 0).toUInt8 (piget16 inipcmsg 4).toUInt8 ipcchannel))
  else (some s, [])

/-- Serve a request that was taken from the queue, with or without a device connected. -/
def amserverequest (s : SdkCb) (usgetinfo : Bool) (evt : AmEvtBlock) :
    Option SdkCb × List SdkOut :=
  let header := amparseamheader evt.amdata
  if !usgetinfo then amShortResp s header.amtype AmResult.noDevice evt.amipcchannel
  else if header.amhdrversion ≠ amHdrVersion then
    amShortResp s header.amtype AmResult.versError evt.amipcchannel
  else amdispatchrequest s header.amtype (evt.amdata.drop amHeaderSz) evt.amipcchannel

/-- When it is not busy, the task serves the next request. -/
def amservequeue (s : SdkCb) (usgetinfo : Bool) : Option SdkCb × List SdkOut :=
  if s.am.amreqbusy then (some s, [])
  else
    match s.am.ameventheadq with
    | [] => (some s, [])
    | evt :: rest =>
        andThen
          (some { s with am.amreqbusy := true, am.ameventheadq := rest },
            [.dispatched evt.amipcchannel.1])
          fun s => amserverequest s usgetinfo evt

/-- The task takes a message. -/
def amappevent (am : AmIpcCb) : AmMsg → AmIpcCb
  | .appRespSent => { am with amreqbusy := false }
  | .appRequest evt => { am with ameventheadq := am.ameventheadq ++ [evt] }

/-- One round of the task. -/
def amipctask (s : SdkCb) (usgetinfo : Bool) : Option SdkCb × List SdkOut :=
  match s.am.amicmsgque with
  | [] => (some s, [])
  | msg :: rest =>
      amservequeue { s with am := amappevent { s.am with amicmsgque := rest } msg } usgetinfo

end Dispatch

section Servers

/-- The CnS task handles a message. -/
def cnrrdispatch (s : CnRrTcb) : CnInput → Option CnRrTcb × List CnOut
  | .ipcMsg packet => cncnsreq s packet
  | .hpMsg cnshdr => (some (cncnship s cnshdr).1, (cncnship s cnshdr).2)
  | .tmrTick => (some (cntick s).1, (cntick s).2)

/-- One round of the CnS task. -/
def cnrrtask (s : SdkCb) : Option SdkCb × List SdkOut :=
  match s.cn.cnicmsgque with
  | [] => (some s, [])
  | msg :: rest =>
      let r := cnrrdispatch s.cn.cnrrtcb msg
      responded (r.1.map fun cnrrtcb => { s with cn := ⟨cnrrtcb, rest⟩ }, r.2.map .cn)

/-- A CnS packet of the modem: a notification is forwarded, with the peers there are, and anything
else is posted. -/
def cnRxPacket (s : SdkCb) (cnshdr : List UInt8) (peeravail : ℕ → Bool) :
    Option SdkCb × List SdkOut :=
  match cnsreadoptype cnshdr with
  | none => (none, [.erAbort])
  | some optype =>
      if optype = 0x07 then
        let cnsargs := cnsParseHeader cnshdr
        (some { s with
          am.amnotifheadq := (amsdk_sendcnsnot peeravail cnsargs.cnsobjid s.am.amnotifheadq).1 },
          [.cn (.amsdkSendcnsnot cnsargs.cnsobjid
            (cnsNotifyPacket cnsargs (cnshdr.drop cnsHeaderSz)))])
      else posted ((s.cn.post (.hpMsg cnshdr)).map fun cn => { s with cn })

/-- What the packet handler task finds outside. -/
structure HpAnswer where
  os : OsAnswer
  unifiedpid : Bool
  stack : Hpph.AmDevInfoParms
  usgetepname : UsEp → Option (List UInt8)
  hpairstate : AmAirServerParms

/-- A port name request succeeds if any name is found. -/
def hpamportreq (usgetepname : UsEp → Option (List UInt8)) (ipcchannel : AppChannel) : SdkOut :=
  let amresultcode :=
    if UsEp.all.any fun ep => (usgetepname ep).isSome then AmResult.success else AmResult.failed
  .dssend (ambuildusbportnameresponse amresultcode fun ep => (usgetepname ep).getD [])
    ipcchannel.1

/-- An air server request; any other operation than to get what is available is sent back. -/
def hpamairreq (hpairstate : AmAirServerParms) (packet : List UInt8) (ipcchannel : AppChannel) :
    SdkOut :=
  let airparm := amparseairserverrequest packet
  if airparm.amairoperation = amAirServerAvail then
    let airparm := { hpairstate with
      amairoperation := airparm.amairoperation
      amairclimac := List.replicate amMacSize 0
      amairservmac := List.replicate amMacSize 0 }
    let amresultcode :=
      if airparm.amairdevicestat ≠ 0 then AmResult.success else AmResult.failed
    .dssend (ambuildairserverresponse amresultcode airparm) ipcchannel.1
  else .dssend (ambuildairserverresponse AmResult.failed airparm) ipcchannel.1

/-- A message of a download; a channel that it frees is seen as taken until it is cleared. -/
def hpfwdispatch (os : OsAnswer) (t : HpTask) (e : HpphEvent) : Option HpTask × List SdkOut :=
  let r := hpphdispatch os e t.hpgcb
  (r.1.map fun hpgcb =>
      { t with
        hpgcb := hpgcb
        hpclearing :=
          if hpgcb.hpphipcchanrr = t.hpgcb.hpphipcchanrr then none
          else some t.hpgcb.hpphipcchanrr },
    r.2.map .fw)

/-- A message of the loopback or the device information facility; the null pointer is no
callback. -/
def hpinfodispatch (t : HpTask) (e : Hpph.HpphEvent) : Option HpTask × List SdkOut :=
  let r := Hpph.hpphtask t.hpphcb e
  (if Hpph.HpphOut.nullCall ∈ r.2 then none else some { t with hpphcb := r.1 }, r.2.map .hpph)

/-- A tick of the three timers. -/
def hpphtick (os : OsAnswer) (t : HpTask) : Option HpTask × List SdkOut :=
  let loop := Hpph.hplooptimer t.hpphcb.hpphloopcb
  andThen (some { t with hpphcb.hpphloopcb := loop.1 }, loop.2.map .hpph) fun t =>
    andThen (hpfwdispatch os t .tick) fun t =>
      let dev := Hpph.hpdirtimer t.hpphcb.hpphdevinfo
      (some { t with hpphcb.hpphdevinfo := dev.1 }, dev.2.map .hpph)

/-- The packet handler task handles a message. -/
def hpmsgdispatch (ans : HpAnswer) (t : HpTask) : HpMsg → Option HpTask × List SdkOut
  | .am (.fwdwnreq packet) => hpfwdispatch ans.os t (.fwdwnreq packet)
  | .am (.airreq packet ipcchannel) =>
      (some t, [hpamairreq ans.hpairstate packet ipcchannel])
  | .am (.portreq ipcchannel) => (some t, [hpamportreq ans.usgetepname ipcchannel])
  | .am (.dirreq version reqtype ipcchannel) =>
      hpinfodispatch t (.dirReq ans.unifiedpid ⟨⟨none, 0⟩, version, reqtype, some ipcchannel⟩)
  | .mdm (.fwdwncb hipmsg) => hpfwdispatch ans.os t (.fwdwncb hipmsg)
  | .mdm (.modemstatecb online apprunning) =>
      hpfwdispatch ans.os t (.modemstatecb online apprunning)
  | .mdm (.loopreq lbevt) => hpinfodispatch t (.loopReq lbevt)
  | .mdm (.loopresp hipevt) => hpinfodispatch t (.loopResp hipevt)
  | .mdm (.dirreq hpdevcbfp version reqtype) =>
      hpinfodispatch t (.dirReq ans.unifiedpid ⟨hpdevcbfp, version, reqtype, none⟩)
  | .mdm (.dirresp hipevt) => hpinfodispatch t (.dirResp ans.stack hipevt)
  | .tick => hpphtick ans.os t

/-- One round of the packet handler task, which clears a download before it goes on. -/
def hpphtask (s : SdkCb) (ans : HpAnswer) : Option SdkCb × List SdkOut :=
  match s.hp.hpclearing, s.hp.hpphicmsgque with
  | none, msg :: rest =>
      let r := hpmsgdispatch ans { s.hp with hpphicmsgque := rest } msg
      responded (r.1.map fun hp => { s with hp }, r.2)
  | _, _ => (some s, [])

end Servers

section System

/-- What happens: a request arrives, a packet or message of the modem or of another package, a tick
for a task, and that a task goes on. -/
inductive SdkEvent where
  | request (packet : List UInt8) (ipcchannel : AppChannel)
  | amipctask (usgetinfo : Bool)
  | cnRxPacket (cnshdr : List UInt8) (peeravail : ℕ → Bool)
  | cntick
  | cnrrtask
  | hpmdm (msg : HpMdmMsg)
  | hpphtick
  | hpphtask (ans : HpAnswer)
  | hpstateclear

/-- One step of tasks that have not been aborted. -/
def sdkTaskStep (s : SdkCb) : SdkEvent → Option SdkCb × List SdkOut
  | .request packet ipcchannel =>
      let am := amipcrcvhandler s.am ⟨packet, ipcchannel⟩
      (am.map fun am => { s with am }, if am.isSome then [.arrived ipcchannel.1] else [.erAbort])
  | .amipctask usgetinfo => amipctask s usgetinfo
  | .cnRxPacket cnshdr peeravail => cnRxPacket s cnshdr peeravail
  | .cntick =>
      posted ((icsmt_send cnRrMsgDepth s.cn.cnicmsgque .tmrTick).map fun cnicmsgque =>
        { s with cn.cnicmsgque := cnicmsgque })
  | .cnrrtask => cnrrtask s
  | .hpmdm msg => hpsend s (.mdm msg)
  | .hpphtick =>
      posted ((icsmt_send hpphMsgDepth s.hp.hpphicmsgque .tick).map fun hpphicmsgque =>
        { s with hp.hpphicmsgque := hpphicmsgque })
  | .hpphtask ans => hpphtask s ans
  | .hpstateclear => (some { s with hp.hpclearing := none }, [])

/-- One step. -/
def sdkStep (s : Option SdkCb) (e : SdkEvent) : Option SdkCb × List SdkOut :=
  match s with
  | none => (none, [])
  | some s => sdkTaskStep s e

/-- The tasks at the start. -/
def sdkinit : SdkCb where
  am := ⟨false, [], [], []⟩
  cn := ⟨cninit, []⟩
  hp := ⟨Hpph.hpphinit, hpfwdownloadinit, none, []⟩

end System

end AmIpc

end Sdk

end SierraSdk
