import Mathlib.Logic.Function.Basic
import SierraSdk.Mm.Pool
import SierraSdk.Am.Packet
import SierraSdk.Qm.Clients

/-!
# The QM control block

The state of the QM task: the record of the outstanding request, the device state, the
table of connected applications, the QMI clients and the firmware download data. The
functions here are the ones that the request, response and timer paths share.

A function of the task returns the new control block and what it did to the outside, as a
list of `QmOut`. An abort ends the daemon; where a function can abort, or would leave the
bounds of one of its tables, it returns no control block.
-/

namespace SierraSdk

namespace Qm

open Am Ci

/-- The control flags of a QMI message: request, response, notification, and the value that
stands for no operation. -/
def eQMIREQ : UInt8 := 0
def eQMIRES : UInt8 := 2
def eQMINOT : UInt8 := 4
def eQMIINVALID : UInt8 := 5

/-- The device events of package ds, which are also the device states. -/
inductive DsSioEvent where
  | disconnected
  | ready
  | bootReady
  | serialOnly
  deriving DecidableEq

/-- `QM_MAX_APP_SUPPORTED` -/
def qmMaxAppSupported : ℕ := 3

/-- `QM_APP_CHANNEL_UNKNOWN`, which is also the channel of an idle control block. -/
def qmAppChannelUnknown : UInt8 := 0xff

/-- `QM_MAX_QMI_INST_SUPPORTED` -/
def qmMaxQmiInstSupported : ℕ := 8

/-- An entry of the table of applications. -/
structure QmAppInfo where
  qmipcchannel : UInt8
  qmappregistered : Bool
  deriving DecidableEq

/-- An entry that no application uses. -/
def QmAppInfo.unused : QmAppInfo := ⟨qmAppChannelUnknown, false⟩

/-- The firmware download data. The start time is kept outside the model: a timer tick says
whether more than sixty seconds have passed since. -/
structure QmFmsInfo where
  path : List UInt8
  fw_download_requested : Bool
  fw_download_started : Bool
  fw_download_status : EQCWWANError
  fw_force_download : Bool
  isMDM9x15 : UInt32
  imgMask : UInt16
  needDMReset : Bool
  mdmProtocol : UInt16
  deriving DecidableEq

/-- A QMI client: whether it is registered with its service, and the transaction id it used
last, `0` if none. -/
structure QmiControlPoint where
  registered : Bool
  xactionid : UInt16
  deriving DecidableEq

/-- A request on its way to the DCS task: the message, the channel of the request, and the
transaction id and instance it was recorded with. -/
structure QmDcsEvtBlock where
  qmdcsevtdata : List UInt8
  qmdcsevtipcchan : UInt8
  xactionid : UInt16
  instanceid : UInt8
  deriving DecidableEq

/-- The QM control block, with the pools of the send buffers, the client manager and the
queue of the DCS task. -/
structure QmTcb where
  qmbusy : Bool
  qmoperation : UInt8
  qmipcchannel : UInt8
  qmmdmwaittmr : ℕ
  qmidevicestate : DsSioEvent
  qmappInfo : List QmAppInfo
  fms_data : QmFmsInfo
  qmiclients : QmiClient → QmiControlPoint
  activeclient : QmiClient
  activewdsclient : QmiClient
  prevactivewdsclient : QmiClient
  activeHandle : ℕ
  qmdcsicmsgque : List QmDcsEvtBlock
  qmtxpool : Mm.MmPool
  qmtxsmlpool : Mm.MmPool

/-- What the task does to the outside. -/
inductive QmOut where
  | dsioctl (channel : CiIpc) (client : QmiClient) (svctype : EQmiService) (ok : Bool)
  | dsclose (channel : CiIpc) (client : QmiClient)
  | dssend (channel : CiIpc) (client : QmiClient) (packet : List UInt8) (ok : Bool)
  | amsdkSend (channel : UInt8) (msg : AmQmiMsg)
  | qmsenddcsreq (evt : QmDcsEvtBlock)
  | devStateNotify (state : DsSioEvent)
  | netNotify (q_depth : UInt32) (isThrottle : Bool)
  | fwDwldCompleteNotify (status : EQCWWANError)
  | imtaskinit (path : List UInt8) (isMDM9x15 : UInt32) (imgMask : UInt16) (force : Bool)
  | fhtaskinit (path : List UInt8) (isMDM9x15 : UInt32) (imgMask : UInt16)
  | dmReset
  | deviceEvt (event : DsSioEvent)
  | erAbort
  deriving DecidableEq

/-- The outputs that have to do with the device and its firmware, not with requests. -/
def QmOut.isBackground : QmOut → Bool
  | .dsioctl .. | .dsclose .. | .dssend .. | .amsdkSend .. | .qmsenddcsreq .. | .erAbort => false
  | .devStateNotify .. | .netNotify .. | .fwDwldCompleteNotify .. | .imtaskinit ..
  | .fhtaskinit .. | .dmReset | .deviceEvt .. => true

/-- The control block after `qminit`. The record of the outstanding request is static memory
and starts as zeroes. -/
def qminit : QmTcb where
  qmbusy := false
  qmoperation := 0
  qmipcchannel := 0
  qmmdmwaittmr := 0
  qmidevicestate := .disconnected
  qmappInfo := List.replicate qmMaxAppSupported QmAppInfo.unused
  fms_data :=
    { path := []
      fw_download_requested := false
      fw_download_started := false
      fw_download_status := EQCWWANError.swiimCorruptedFwImage
      fw_force_download := false
      isMDM9x15 := 0
      imgMask := 0
      needDMReset := false
      mdmProtocol := 0 }
  qmiclients := fun _ => ⟨false, 0⟩
  activeclient := .unsupported
  activewdsclient := .wds 0
  prevactivewdsclient := .wds 0
  activeHandle := 4
  qmdcsicmsgque := []
  qmtxpool := Mm.mmpcreate 5 (3 + 4 * 1024)
  qmtxsmlpool := Mm.mmpcreate 20 (3 + 256)

section Applications

/-- How many applications are running. -/
def qmNoOfAppsRunning (s : QmTcb) : ℕ := s.qmappInfo.countP fun app => app.qmappregistered

/-- For a notification, whether any application is registered; otherwise whether one uses
the channel. -/
def qmIsAppRegistered (s : QmTcb) (channel ctlflgs : UInt8) : Bool :=
  if ctlflgs = eQMINOT then s.qmappInfo.any fun app => app.qmappregistered
  else s.qmappInfo.any fun app => app.qmipcchannel = channel

/-- Register an application in the first free entry, if there is one. -/
def qmconnect (s : QmTcb) (channel : UInt8) : QmTcb :=
  if qmIsAppRegistered s channel eQMIREQ then s
  else
    let i := s.qmappInfo.findIdx fun app => app.qmipcchannel = qmAppChannelUnknown
    { s with qmappInfo := s.qmappInfo.modify i fun _ => ⟨channel, true⟩ }

end Applications

section Outstanding

/-- The next transaction id; zero is not a valid one. -/
def qmisvcxactionidassign (xactionid : UInt16) : UInt16 :=
  if xactionid + 1 = 0 then xactionid + 2 else xactionid + 1

theorem qmisvcxactionidassign_ne_zero (xactionid : UInt16) :
    qmisvcxactionidassign xactionid ≠ 0 := by
  unfold qmisvcxactionidassign
  split_ifs with h
  · intro h2
    have h3 : xactionid + 2 = (xactionid + 1) + 1 := by
      rw [UInt16.add_assoc]
      rfl
    rw [h3, h] at h2
    exact absurd h2 (by decide)
  · exact h

/-- Whether a transaction id is the one the active client used last. -/
def qmixactionidvalidate (s : QmTcb) (xactionid : UInt16) : Bool :=
  xactionid = (s.qmiclients s.activeclient).xactionid

/-- Forget the outstanding request. -/
def qmclearrespinfo (s : QmTcb) : QmTcb :=
  { s with
    qmbusy := false
    qmoperation := eQMIINVALID
    qmipcchannel := qmAppChannelUnknown
    qmmdmwaittmr := 0
    activeclient := .unsupported }

/-- The client that `qmsaverespinfo` records for a request: the one of the service and the
instance, or the IPv6 client of a WDS instance if that is the current WDS client. -/
def qmsaverespinfoClient (s : QmTcb) (parms : AmQmiRrParms) : QmiClient :=
  match qmisvc2qmiclnt_map parms.qmiinstanceid (.ofCode parms.amqmisvctype) with
  | .wds k => if s.activewdsclient = .wdsV6 k then .wdsV6 k else .wds k
  | client => client

/-- The number of ticks to wait for a response. -/
def respTicks (timeout : UInt32) : ℕ :=
  if timeout = 0 then 0 else max 1 (timeout.toNat / 1000) + 2

/-- Record a request as the outstanding one and advance the transaction id of its client;
with a request outstanding already this is a stop-and-wait violation. -/
def qmsaverespinfo (s : QmTcb) (parms : AmQmiRrParms) (ipcchan : UInt8) : Option QmTcb :=
  if s.qmbusy then none
  else
    let client := qmsaverespinfoClient s parms
    let point := s.qmiclients client
    some { s with
      activeclient := client
      qmiclients := Function.update s.qmiclients client
        { point with xactionid := qmisvcxactionidassign point.xactionid }
      qmbusy := true
      qmoperation := eQMIRES
      qmipcchannel := ipcchan
      qmmdmwaittmr := respTicks parms.amqmireqtimeout }

/-- A response without a QMI message. -/
def shortMsg (resultcode : EQCWWANError) : AmQmiMsg where
  amtype := AmMsgType.qmiResponse
  parms := ⟨resultcode, 0, 0, 0, 0⟩
  payload := []

/-- Forget the outstanding request and send a response that consists of a result code. -/
def qmshortresp (s : QmTcb) (resultcode : EQCWWANError) (ipcchannel : UInt8) :
    QmTcb × List QmOut :=
  (qmclearrespinfo s, [.amsdkSend ipcchannel (shortMsg resultcode)])

end Outstanding

end Qm

end SierraSdk
