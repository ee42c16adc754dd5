import SierraSdk.Sdk.HipPacket
import SierraSdk.Sdk.Notifications

/-!
# Loopback and device information requests

The HPPH task serves two facilities: loopback requests, which name a callback, and requests for
information about the device, which name a callback, the channel of an application, or both. Each
has a flag that says that a request is outstanding, a timer, and what it needs to tell the requester
how the request has ended.

The flag, the timer and the callback are cleared on separate branches of the handlers, and the
value of a response is copied with the length that the response gives.
-/

namespace SierraSdk

namespace Sdk

namespace Hpph

section State

/-- `HPLBTIMEOUT` and `HPDIRTIMEOUT`, in milliseconds. -/
def hpLbTimeout : ℕ := 2000
def hpDirTimeout : ℕ := 2000

/-- `HPLOOPREQ` and `HPMDEVREQ` -/
def hpLoopReq : UInt32 := 0x03
def hpmDevReq : UInt32 := (0x0001 <<< hpExtMsgIdShf) ||| HipDirection.reverse.extended

/-- `HPMDEVREQTECHTYP`, `HPMDEVREQPRDSTR`, `HPMDEVREQFWDNLD`, `HPMDEVREQDEVENUM` and
`HPMDEVREQCNS` -/
def hpmDevReqTechTyp : UInt8 := 0x01
def hpmDevReqPrdStr : UInt8 := 0x02
def hpmDevReqFwDnld : UInt8 := 0x03
def hpmDevReqDevEnum : UInt8 := 0x04
def hpmDevReqCns : UInt8 := 0x05

/-- `HPDIRGENFAIL` -/
def hpDirGenFail : UInt16 := 0xff

/-- `SWI_AMFAILED` and `SWI_AMDEVNOTSUP` -/
def amFailed : UInt8 := 8
def amDevNotSup : UInt8 := 9

/-- `CIMAXCNRRPAIR` and `CIINVIPCCHAN` -/
def ciMaxCnRrPair : ℕ := 5
def ciInvIpcChan : ℕ := 14

/-- How a request has ended, or that it was turned down. -/
inductive HpphStatus where
  | hpok
  | hptimeout
  | hplbbusy
  | hpfailed
  | hpdirbusy
  deriving DecidableEq

/-- A callback with the pointer of its user; `none` is the null pointer. -/
structure Callback where
  function : Option ℕ
  userp : ℕ
  deriving DecidableEq

/-- The loopback facility. -/
structure HpphLoopBk where
  hpphlbtimer : ℕ
  hploopbusy : Bool
  hpphdatasize : UInt16
  hplbrescbfp : Callback
  deriving DecidableEq

/-- The device information facility, with the channels that a response is sent to. -/
structure HpDevInfo where
  hpphdevtimer : ℕ
  hpdevbusy : Bool
  hpdevcbfp : Callback
  hpdevamchan : List ℕ
  deriving DecidableEq

/-- The fixed-size strings that a product string is copied to, with their sizes `HPDIRPRODSTRSZ` and
`AMPRODSTRSIZE`. -/
inductive ProdString where
  | hpairprodstr
  | amdevprodstr
  deriving DecidableEq

def ProdString.size : ProdString → ℕ
  | .hpairprodstr => 16
  | .amdevprodstr => 16

/-- What is known about the modem. -/
structure HpAirServerStatus where
  hpairtechtype : UInt8
  hpairprodstr : List UInt8
  deriving DecidableEq

/-- The control block of the task. -/
structure HpphCb where
  hpphloopcb : HpphLoopBk
  hpphdevinfo : HpDevInfo
  hpphairstate : HpAirServerStatus
  deriving DecidableEq

/-- The parameters of a device information response. -/
structure AmDevInfoParms where
  amdevversion : UInt16
  amdevreqstatus : UInt16
  amdevinfolen : UInt16
  amdevtechology : UInt16
  amdevprodstr : List UInt8
  amdevfwdnldproto : UInt16
  amdevreenum : UInt16
  amdevcnssupported : UInt16
  deriving DecidableEq

/-- What the task does to the outside; `nullCall` calls the null pointer, and `copied` copies bytes
to a string. -/
inductive HpphOut where
  | lbCallback (function : ℕ) (resultcode : HpphStatus) (runningapp : Bool) (userp : ℕ)
  | devCallback (function : ℕ) (resultcode : HpphStatus) (userp : ℕ)
  | nullCall
  | hpTxPacket (msgdesignator : UInt32) (payload : List UInt8)
  | amsdkSend (amresultcode : UInt8) (parms : AmDevInfoParms) (channel : ℕ)
  | copied (string : ProdString) (count : ℕ)
  deriving DecidableEq

/-- A loopback request. -/
structure HplbReqEvt where
  hpphdatap : List UInt8
  hpphdatasize : UInt32
  hplbrescbfp : Callback

/-- A request for information about the device, of an application or of another task. -/
structure HpphDevInfoEvt where
  hpdevcbfp : Callback
  hpphdevinforeqver : UInt8
  hpphdevinforeqtyp : UInt8
  hpphdevinfoipcch : Option AppChannel

/-- A packet of the modem. -/
structure HpHipEvt where
  hpphmsgdesignator : UInt32
  hpphmsgparm : UInt8
  hpphdatap : List UInt8
  hpphdatasize : UInt32
  hppherrorflg : Bool

/-- The messages of the task. A device request is handled with or without a device of the unified
product id, and a response to it with what the stack has where its parameters are built. -/
inductive HpphEvent where
  | loopReq (lbevt : HplbReqEvt)
  | loopResp (hipevt : HpHipEvt)
  | dirReq (unifiedpid : Bool) (devinfoevt : HpphDevInfoEvt)
  | dirResp (stack : AmDevInfoParms) (hipevt : HpHipEvt)
  | tick

end State

section Loopback

/-- The ticks of a timer for a timeout. -/
def timerTicks (timeout : ℕ) : ℕ := if timeout ≠ 0 then timeout / icttTick + 1 else 0

/-- Forget the outstanding request. -/
def hplbclearreq : HpphLoopBk := ⟨timerTicks 0, false, 0, ⟨none, 0⟩⟩

/-- Call a loopback callback. -/
def callLb (callback : Callback) (resultcode : HpphStatus) (runningapp : Bool) : List HpphOut :=
  match callback.function with
  | some function => [.lbCallback function resultcode runningapp callback.userp]
  | none => [.nullCall]

def hplooptimer (hploopcb : HpphLoopBk) : HpphLoopBk × List HpphOut :=
  if hploopcb.hpphlbtimer ≠ 0 then
    if hploopcb.hpphlbtimer - 1 = 0 ∧ hploopcb.hploopbusy ∧
        hploopcb.hplbrescbfp.function.isSome then
      (hplbclearreq, callLb hploopcb.hplbrescbfp .hptimeout false)
    else ({ hploopcb with hpphlbtimer := hploopcb.hpphlbtimer - 1 }, [])
  else (hploopcb, [])

def hpphprocloopresp (hploopcb : HpphLoopBk) (hipevt : HpHipEvt) : HpphLoopBk × List HpphOut :=
  let status : HpphStatus :=
    if hipevt.hppherrorflg then .hpfailed
    else if hipevt.hpphdatasize ≠ hploopcb.hpphdatasize.toUInt32 then .hpfailed
    else .hpok
  (hplbclearreq,
    if hploopcb.hplbrescbfp.function.isSome then
      callLb hploopcb.hplbrescbfp status (hipevt.hpphmsgparm ≠ 0)
    else [])

def hpphprocloopreq (hploopcb : HpphLoopBk) (lbevt : HplbReqEvt) : HpphLoopBk × List HpphOut :=
  if hploopcb.hploopbusy then (hploopcb, callLb lbevt.hplbrescbfp .hplbbusy false)
  else
    (⟨timerTicks hpLbTimeout, true, lbevt.hpphdatasize.toUInt16, lbevt.hplbrescbfp⟩,
      [.hpTxPacket hpLoopReq (lbevt.hpphdatap.takeD lbevt.hpphdatasize.toUInt16.toNat 0)])

end Loopback

section DeviceInformation

/-- Forget the outstanding request. -/
def hpdirclearreq : HpDevInfo :=
  ⟨timerTicks 0, false, ⟨none, 0⟩, List.replicate ciMaxCnRrPair ciInvIpcChan⟩

/-- Call a device callback, if there is one. -/
def callDev (callback : Callback) (resultcode : HpphStatus) : List HpphOut :=
  callback.function.toList.map fun function => .devCallback function resultcode callback.userp

/-- Send a response to the channels that asked for it, or to all channels. -/
def hpsenddirresp (devinfo : HpDevInfo) (resultcode : UInt8) (amdevinforr : AmDevInfoParms)
    (force_send : Bool) : List HpphOut :=
  let channels :=
    if force_send then (List.range ciMaxCnRrPair).map (cigetnextchannel · .cirr)
    else devinfo.hpdevamchan
  (channels.filter (· ≠ ciInvIpcChan)).map (.amsdkSend resultcode amdevinforr)

/-- Parameters that are all zero. -/
def amDevInfoZero : AmDevInfoParms :=
  ⟨0, 0, 0, 0, List.replicate ProdString.amdevprodstr.size 0, 0, 0, 0⟩

/-- A failure without information. -/
def amDevInfoFail : AmDevInfoParms := { amDevInfoZero with amdevreqstatus := hpDirGenFail }

def hpdirtimer (devinfo : HpDevInfo) : HpDevInfo × List HpphOut :=
  if devinfo.hpphdevtimer ≠ 0 then
    if devinfo.hpphdevtimer - 1 = 0 then
      (hpdirclearreq,
        (if devinfo.hpdevbusy then callDev devinfo.hpdevcbfp .hptimeout else []) ++
          hpsenddirresp devinfo AmResult.timeout amDevInfoFail true)
    else ({ devinfo with hpphdevtimer := devinfo.hpphdevtimer - 1 }, [])
  else (devinfo, [])

/-- The channels after a request: its channel takes the first invalid entry. -/
def saveChannel (channel : ℕ) : List ℕ → List ℕ
  | [] => []
  | c :: cs =>
      if channel ≠ ciInvIpcChan ∧ c ≠ channel ∧ c = ciInvIpcChan then channel :: cs
      else c :: saveChannel channel cs

def hpprocdirreq (hploopbusy : Bool) (devinfo : HpDevInfo) (unifiedpid : Bool)
    (devinfoevt : HpphDevInfoEvt) : HpDevInfo × List HpphOut :=
  if !devinfo.hpdevbusy && !hploopbusy then
    let hpphdevinfoipcch := (devinfoevt.hpphdevinfoipcch.map AppChannel.channel).getD ciInvIpcChan
    let saved : HpDevInfo :=
      ⟨timerTicks hpDirTimeout, true, devinfoevt.hpdevcbfp,
        saveChannel hpphdevinfoipcch devinfo.hpdevamchan⟩
    if !unifiedpid then (hpdirclearreq, hpsenddirresp saved amDevNotSup amDevInfoFail true)
    else
      (saved,
        [.hpTxPacket hpmDevReq
          (piput16 devinfoevt.hpphdevinforeqver.toUInt16 ++ [devinfoevt.hpphdevinforeqtyp])])
  else
    (hpdirclearreq,
      callDev devinfoevt.hpdevcbfp .hpdirbusy ++
        hpsenddirresp devinfo AmResult.timeout amDevInfoFail true)

/-- A string after some bytes were copied to it. -/
def copyString (string : ProdString) (old value : List UInt8) (count : ℕ) : List UInt8 :=
  (value.takeD count 0 ++ old.drop count).takeD string.size 0

/-- What a response says, and what is stored of it. -/
structure DirResult where
  hpphairstate : HpAirServerStatus
  amdevinforr : AmDevInfoParms
  resultcode : UInt8
  copies : List HpphOut

/-- The value of a response with a good status. -/
def dirValue (airstate : HpAirServerStatus) (amdevinforr : AmDevInfoParms) (tlvtype tlvlen : UInt8)
    (value : List UInt8) : DirResult :=
  let hpphtlvvalue := value.getD 0 0
  if tlvtype = hpmDevReqTechTyp then
    ⟨{ airstate with hpairtechtype := hpphtlvvalue },
      { amdevinforr with amdevtechology := hpphtlvvalue.toUInt16 }, AmResult.success, []⟩
  else if tlvtype = hpmDevReqPrdStr then
    let cleared := List.replicate ProdString.hpairprodstr.size 0
    ⟨{ airstate with hpairprodstr := copyString .hpairprodstr cleared value tlvlen.toNat },
      { amdevinforr with
        amdevprodstr := copyString .amdevprodstr amdevinforr.amdevprodstr value tlvlen.toNat },
      AmResult.success,
      [.copied .hpairprodstr tlvlen.toNat, .copied .amdevprodstr tlvlen.toNat]⟩
  else if tlvtype = hpmDevReqFwDnld then
    ⟨airstate, { amdevinforr with amdevfwdnldproto := hpphtlvvalue.toUInt16 },
      AmResult.success, []⟩
  else if tlvtype = hpmDevReqDevEnum then
    ⟨airstate, { amdevinforr with amdevreenum := hpphtlvvalue.toUInt16 }, AmResult.success, []⟩
  else if tlvtype = hpmDevReqCns then
    ⟨airstate, { amdevinforr with amdevcnssupported := hpphtlvvalue.toUInt16 },
      AmResult.success, []⟩
  else ⟨airstate, amdevinforr, amDevNotSup, []⟩

def hpprocdirresp (s : HpphCb) (stack : AmDevInfoParms) (hipevt : HpHipEvt) :
    HpphCb × List HpphOut :=
  let devinfo := s.hpphdevinfo
  let finish (airstate : HpAirServerStatus) (status : HpphStatus) (sent : List HpphOut) :=
    ({ s with hpphdevinfo := hpdirclearreq, hpphairstate := airstate },
      sent ++ callDev devinfo.hpdevcbfp status)
  if hipevt.hppherrorflg then
    finish s.hpphairstate .hpfailed
      (hpsenddirresp devinfo amFailed { stack with amdevreqstatus := hpDirGenFail } true)
  else if (hpdesignator2msgid hipevt.hpphmsgdesignator).1 = HipDirection.forward.maxMsgId then
    let reqstat := hipevt.hpphdatap.getD 2 0
    let tlvtype := hipevt.hpphdatap.getD 3 0
    let tlvlen := hipevt.hpphdatap.getD 4 0
    let amdevinforr := { amDevInfoZero with
      amdevversion := piget16 hipevt.hpphdatap 0
      amdevreqstatus := reqstat.toUInt16
      amdevinfolen := tlvlen.toUInt16 }
    if reqstat = 0 then
      let r := dirValue s.hpphairstate amdevinforr tlvtype tlvlen (hipevt.hpphdatap.drop 5)
      finish r.hpphairstate .hpok
        (r.copies ++ hpsenddirresp devinfo r.resultcode r.amdevinforr false)
    else
      finish s.hpphairstate .hpfailed (hpsenddirresp devinfo amDevNotSup amdevinforr false)
  else finish s.hpphairstate .hpfailed (hpsenddirresp devinfo amFailed stack false)

end DeviceInformation

section Task

/-- The control block at the start. -/
def hpphinit : HpphCb :=
  ⟨hplbclearreq, hpdirclearreq, ⟨0, List.replicate ProdString.hpairprodstr.size 0⟩⟩

/-- Handle a message. -/
def hpphtask (s : HpphCb) : HpphEvent → HpphCb × List HpphOut
  | .loopReq lbevt =>
      let r := hpphprocloopreq s.hpphloopcb lbevt
      ({ s with hpphloopcb := r.1 }, r.2)
  | .loopResp hipevt =>
      let r := hpphprocloopresp s.hpphloopcb hipevt
      ({ s with hpphloopcb := r.1 }, r.2)
  | .dirReq unifiedpid devinfoevt =>
      let r := hpprocdirreq s.hpphloopcb.hploopbusy s.hpphdevinfo unifiedpid devinfoevt
      ({ s with hpphdevinfo := r.1 }, r.2)
  | .dirResp stack hipevt => hpprocdirresp s stack hipevt
  | .tick =>
      let loop := hplooptimer s.hpphloopcb
      let dev := hpdirtimer s.hpphdevinfo
      ({ s with hpphloopcb := loop.1, hpphdevinfo := dev.1 }, loop.2 ++ dev.2)

end Task

end Hpph

end Sdk

end SierraSdk
