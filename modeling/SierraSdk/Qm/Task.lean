import SierraSdk.Library.Monitor
import SierraSdk.Qm.Request
import SierraSdk.Qm.Response
import SierraSdk.Qm.Device

/-!
# The QM task

The events that reach the QM package: the ones in the message queue of the QM task, a packet
that a shell has read from the modem, and a turn of the DCS task. Each is handled as a whole,
in any order; `qmStep` makes one step of the machine, and after an abort there are no more.
-/

namespace SierraSdk

namespace Qm

open Am Ci

/-- The events. A timer tick comes with the answer to whether more than sixty seconds have
passed since the image path was set; `fwStatus` is the firmware download status being set by
the image task. -/
inductive QmEvent where
  | qmiReq (packet : List UInt8) (ipcchan : UInt8) (env : ReqEnv)
  | rx (instanceid : UInt8) (client : QmiClient) (qmpacket : List UInt8)
  | tick (sixtySeconds : Bool)
  | device (event : DsSioEvent)
  | net (q_depth : UInt32) (isThrottle : Bool)
  | dcs (env : DcsEnv)
  | fwStatus (status : EQCWWANError)

/-- Reset the modem with a DM command if it does not enter boot mode by itself. -/
def dmResetTick (s : QmTcb) (sixtySeconds : Bool) : QmTcb × List QmOut :=
  if s.fms_data.path ≠ [] ∧ s.fms_data.fw_download_requested ∧
      ¬ s.fms_data.fw_download_started ∧ s.fms_data.needDMReset ∧ sixtySeconds then
    ({ s with fms_data := { s.fms_data with needDMReset := false } }, [.dmReset])
  else (s, [])

/-- Report that a firmware image has been written. -/
def flashCompleteTick (s : QmTcb) : QmTcb × List QmOut :=
  if s.fms_data.fw_download_status = EQCWWANError.swiimFwFlashComplete then
    ({ s with fms_data :=
        { s.fms_data with fw_download_status := EQCWWANError.swiimFwWaitForReboot } },
      [.fwDwldCompleteNotify EQCWWANError.swiimFwFlashComplete])
  else (s, [])

/-- What the task does on a timer tick. -/
def qmtmrtick (s : QmTcb) (sixtySeconds : Bool) : QmTcb × List QmOut :=
  let r := qmtick s
  let d := dmResetTick r.1 sixtySeconds
  let f := flashCompleteTick d.1
  (f.1, r.2 ++ d.2 ++ f.2)

/-- Apart from the response timer, a tick concerns the firmware data only. -/
theorem qmtmrtick_eq (s : QmTcb) (sixtySeconds : Bool) :
    ∃ fms out, (∀ o ∈ out, o.isBackground = true) ∧
      qmtmrtick s sixtySeconds = ({ (qmtick s).1 with fms_data := fms }, (qmtick s).2 ++ out) := by
  have hdm : ∀ t : QmTcb, ∃ fms out, (∀ o ∈ out, o.isBackground = true) ∧
      dmResetTick t sixtySeconds = ({ t with fms_data := fms }, out) := by
    intro t
    unfold dmResetTick
    split_ifs
    · exact ⟨_, _, by simp [QmOut.isBackground], rfl⟩
    · exact ⟨t.fms_data, [], by simp, rfl⟩
  have hflash : ∀ t : QmTcb, ∃ fms out, (∀ o ∈ out, o.isBackground = true) ∧
      flashCompleteTick t = ({ t with fms_data := fms }, out) := by
    intro t
    unfold flashCompleteTick
    split_ifs
    · exact ⟨_, _, by simp [QmOut.isBackground], rfl⟩
    · exact ⟨t.fms_data, [], by simp, rfl⟩
  obtain ⟨fms₁, out₁, hout₁, h₁⟩ := hdm (qmtick s).1
  obtain ⟨fms₂, out₂, hout₂, h₂⟩ := hflash { (qmtick s).1 with fms_data := fms₁ }
  refine ⟨fms₂, out₁ ++ out₂, ?_, ?_⟩
  · intro o ho
    exact (List.mem_append.mp ho).elim (hout₁ o) (hout₂ o)
  · simp only [qmtmrtick, h₁, h₂, List.append_assoc]

/-- Handle an event. -/
def qmtask (s : QmTcb) : QmEvent → Option QmTcb × List QmOut
  | .qmiReq packet ipcchan env => qmqmireq s packet ipcchan env
  | .rx instanceid client qmpacket => qmrxpkt s instanceid qmpacket client
  | .tick sixtySeconds =>
      let r := qmtmrtick s sixtySeconds
      (some r.1, r.2)
  | .device event =>
      let r := qm_ds_dev_event_handler s event
      (some r.1, r.2)
  | .net q_depth isThrottle => (some s, [.netNotify q_depth isThrottle])
  | .dcs env => qmdcstask s env
  | .fwStatus status =>
      (some { s with fms_data := { s.fms_data with fw_download_status := status } }, [])

/-- A step of the machine. -/
def qmStep : Option QmTcb → QmEvent → Option QmTcb × List QmOut
  | none, _ => (none, [])
  | some s, event => qmtask s event

/-- The same record of the outstanding request, response timer and send buffers. -/
structure SameRecord (s t : QmTcb) : Prop where
  qmbusy : t.qmbusy = s.qmbusy
  qmipcchannel : t.qmipcchannel = s.qmipcchannel
  qmmdmwaittmr : t.qmmdmwaittmr = s.qmmdmwaittmr
  activeclient : t.activeclient = s.activeclient
  qmtxpool : t.qmtxpool = s.qmtxpool
  qmtxsmlpool : t.qmtxsmlpool = s.qmtxsmlpool

section Startup

/-- A request with a timeout of two seconds. -/
def requestPacket (svc : EQmiService) (instanceid : UInt8) (qmimsg : List UInt8) :
    List UInt8 :=
  [svc.code, 0xd0, 0x07, 0, 0] ++ piput16 qmimsg.length.toUInt16 ++ [instanceid] ++ qmimsg

/-- A local service that can do its work. -/
def svcEnvOk : SvcEnv where
  unpacked := true
  built := true
  qmimsg := []

/-- A request that everything goes well for. -/
def reqEnvOk : ReqEnv where
  ioctlOk := true
  sendOk := true
  fms := { svcEnvOk with setImagePath := ⟨[], 0, 0, 0⟩, mbnReturns := false }

/-- A device connectivity request for the connected device. -/
def dcsEnvOk : DcsEnv :=
  { svcEnvOk with
    deviceFound := true
    deviceMatches := true
    srvStatus := 0
    mask := 0
    regOk := fun _ => true }

/-- The device comes up and the application on a channel connects to it. -/
def connectEvents (ipcchan : UInt8) : List QmEvent :=
  [.device .ready, .qmiReq (requestPacket .dcs 0 [1]) ipcchan reqEnvOk, .dcs dcsEnvOk]

end Startup

end Qm

end SierraSdk
