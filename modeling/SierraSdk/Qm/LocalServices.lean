import SierraSdk.Qm.Registration

/-!
# The services served inside the daemon

Requests of the firmware management service are served by the QM task itself, requests of
the device connectivity service by the DCS task, which takes them from a queue. Both build
their response with `qm_qmisvc_send_response` and send it on the channel of the outstanding
request. A DCS response is dropped when its request is not the outstanding one any more;
an FMS response is not checked.

Some work of the handlers lies outside the model: unpacking the TLVs of a request, building
the message of a response, looking at the device and at the file system. What comes out of
it is an argument of the handlers here. A request that cannot be unpacked and a message
that cannot be built end the daemon.
-/

namespace SierraSdk

namespace Qm

open Am Ci Machine

/-- What comes out of unpacking a request and building its response. -/
structure SvcEnv where
  unpacked : Bool
  built : Bool
  qmimsg : List UInt8

/-- The values in a request to set the image path. -/
structure FmsSetImagePathReq where
  path : List UInt8
  isMDM9x15 : UInt32
  mdmProtocol : UInt16
  imgMask : UInt16

/-- For a firmware management request, also the values to set, and whether the directory of
a request for mbn information holds the image while the length of its name is out of range:
then the handler returns from the middle of its loop. -/
structure FmsEnv extends SvcEnv where
  setImagePath : FmsSetImagePathReq
  mbnReturns : Bool

/-- For a device connectivity request, also whether a device is found and is the requested
one, which services to start or stop, and which of these registrations succeed. -/
structure DcsEnv extends SvcEnv where
  deviceFound : Bool
  deviceMatches : Bool
  srvStatus : UInt8
  mask : UInt8
  regOk : QmiClient → Bool

/-- A response of a local service. -/
def svcMsg (svc : EQmiService) (qmimsg : List UInt8) : AmQmiMsg where
  amtype := AmMsgType.qmiResponse
  parms := ⟨EQCWWANError.none, qmimsg.length.toUInt32, 0, svc.code, 0⟩
  payload := qmimsg

/-- Whether a DCS response answers the outstanding request. -/
def qmdcsvalidateresponse (s : QmTcb) (xactionid : UInt16) : Bool :=
  s.qmbusy && (s.qmoperation = eQMIRES) && qmixactionidvalidate s xactionid

/-- Send a response of a local service; the transaction id is the one of its request. -/
def qm_qmisvc_send_response (s : QmTcb) (svc : EQmiService) (xactionid : UInt16)
    (env : SvcEnv) : Option QmTcb × List QmOut :=
  if svc = .dcs ∧ ¬ qmdcsvalidateresponse s xactionid then (some s, [])
  else if env.built then
    (some (qmclearrespinfo s), [.amsdkSend s.qmipcchannel (svcMsg svc env.qmimsg)])
  else (none, [.erAbort])

section Fms

/-- `QM_FMS_RESET_WITH_DM_CMD` -/
def qmFmsResetWithDmCmd : UInt16 := 0x10

/-- A firmware management response. No transaction id is looked at. -/
def fmsRespond (s : QmTcb) (env : FmsEnv) : Option QmTcb × List QmOut :=
  qm_qmisvc_send_response s .fms 0 env.toSvcEnv

/-- Set the path of the next firmware image, answer, and have the download begin. -/
def qm_fms_set_image_path (s : QmTcb) (env : FmsEnv) : Option QmTcb × List QmOut :=
  if env.unpacked then
    let req := env.setImagePath
    let s := { s with fms_data :=
      { s.fms_data with
        path := req.path
        isMDM9x15 := req.isMDM9x15
        mdmProtocol := req.mdmProtocol
        imgMask := req.imgMask } }
    let kick : List QmOut :=
      if s.qmidevicestate = .bootReady then [.deviceEvt .bootReady]
      else if req.imgMask = qmFmsResetWithDmCmd ∨ req.mdmProtocol = 1 then [.dmReset]
      else []
    andThen (fmsRespond s env) fun s => (some s, kick)
  else (none, [.erAbort])

def qm_fms_get_cwe_spkgs_info (s : QmTcb) (env : FmsEnv) : Option QmTcb × List QmOut :=
  if env.unpacked then fmsRespond s env else (none, [.erAbort])

/-- One way out of the loop over the directory sends nothing. -/
def qm_fms_get_mbn_info (s : QmTcb) (env : FmsEnv) : Option QmTcb × List QmOut :=
  if env.unpacked then
    if env.mbnReturns then (some s, []) else fmsRespond s env
  else (none, [.erAbort])

def qm_fms_enable_force_download (s : QmTcb) (env : FmsEnv) : Option QmTcb × List QmOut :=
  if env.unpacked then
    if s.qmidevicestate = .bootReady then
      fmsRespond { s with fms_data := { s.fms_data with fw_force_download := true } } env
    else fmsRespond s env
  else (none, [.erAbort])

/-- Serve a firmware management request; its first byte selects the handler. -/
def qm_fms_handler (s : QmTcb) (preq : List UInt8) (env : FmsEnv) :
    Option QmTcb × List QmOut :=
  match (preq.getD 0 0).toNat with
  | 0 => qm_fms_set_image_path s env
  | 1 => qm_fms_get_cwe_spkgs_info s env
  | 2 => qm_fms_get_mbn_info s env
  | 3 => qm_fms_enable_force_download s env
  | _ =>
      let r := qmshortresp s EQCWWANError.internal s.qmipcchannel
      (some r.1, r.2)

/-- What holds of the ways a firmware management request can go, holds of its handler. -/
theorem qm_fms_handler_rule {P : Option QmTcb × List QmOut → Prop} {s : QmTcb}
    {preq : List UInt8} {env : FmsEnv}
    (habort : env.unpacked = false → P (none, [.erAbort]))
    (hsilent : (preq.getD 0 0).toNat = 2 → env.mbnReturns = true → P (some s, []))
    (hshort : P (some (qmclearrespinfo s),
      [.amsdkSend s.qmipcchannel (shortMsg EQCWWANError.internal)]))
    (hresp : env.unpacked = true → ∀ fms, P (fmsRespond { s with fms_data := fms } env))
    (hkick : env.unpacked = true → ∀ fms kick,
      (∀ o ∈ kick, o.isBackground = true) →
        P (andThen (fmsRespond { s with fms_data := fms } env) fun s => (some s, kick))) :
    P (qm_fms_handler s preq env) := by
  unfold qm_fms_handler qm_fms_set_image_path qm_fms_get_cwe_spkgs_info qm_fms_get_mbn_info
    qm_fms_enable_force_download
  cases hunpacked : env.unpacked with
  | false =>
      split
      all_goals simp only [Bool.false_eq_true, if_false]
      · exact habort hunpacked
      · exact habort hunpacked
      · exact habort hunpacked
      · exact habort hunpacked
      · exact hshort
  | true =>
      split
      all_goals simp only [if_true]
      · apply hkick hunpacked
        intro o ho
        split_ifs at ho
        · rw [List.mem_singleton.mp ho]
          rfl
        · rw [List.mem_singleton.mp ho]
          rfl
        · exact absurd ho List.not_mem_nil
      · exact hresp hunpacked s.fms_data
      · split_ifs with hreturns
        · exact hsilent ‹_› hreturns
        · exact hresp hunpacked s.fms_data
      · split_ifs
        · exact hresp hunpacked _
        · exact hresp hunpacked s.fms_data
      · exact hshort

end Fms

section Dcs

variable (s : QmTcb) (evt : QmDcsEvtBlock) (env : DcsEnv)

/-- The number of a request: its first byte. -/
def QmDcsEvtBlock.request (evt : QmDcsEvtBlock) : ℕ := (evt.qmdcsevtdata.getD 0 0).toNat

/-- A device connectivity response to a request from the queue. -/
def dcsRespond : Option QmTcb × List QmOut :=
  qm_qmisvc_send_response s .dcs evt.xactionid env.toSvcEnv

def qm_dcs_enumerate_devices : Option QmTcb × List QmOut :=
  match s.qmidevicestate with
  | .disconnected | .bootReady =>
      let r := qmshortresp s EQCWWANError.noDevice evt.qmdcsevtipcchan
      (some r.1, r.2)
  | _ => dcsRespond s evt env

/-- Register the application of the channel, if the requested device is the connected one. -/
def qm_dcs_connect : Option QmTcb × List QmOut :=
  if env.deviceFound then
    if env.unpacked then
      if env.deviceMatches then dcsRespond (qmconnect s evt.qmdcsevtipcchan) evt env
      else dcsRespond s evt env
    else (none, [.erAbort])
  else dcsRespond s evt env

/-- Remove the application of the channel. -/
def qm_dcs_disconnect : Option QmTcb × List QmOut :=
  andThen (dcsRespond s evt env) fun s =>
    let r := qmdisconnect s evt.qmdcsevtipcchan
    (some r.1, r.2)

/-- Forget the outstanding request, which is the one to cancel itself, and answer. -/
def qm_dcs_cancel : Option QmTcb × List QmOut := dcsRespond (qmclearrespinfo s) evt env

def qm_dcs_start_srv : Option QmTcb × List QmOut :=
  if env.unpacked then
    if env.mask = 0 then dcsRespond s evt env
    else
      andThen (qm_register_startup_api_clients s env.srvStatus env.mask env.regOk) fun s =>
        dcsRespond s evt env
  else (none, [.erAbort])

/-- The requests that are unpacked and carried out by the network driver. -/
def qm_dcs_qos : Option QmTcb × List QmOut :=
  if env.unpacked then dcsRespond s evt env else (none, [.erAbort])

/-- The periods of the queue watchers are a table by instance. -/
def qm_dcs_set_net_change : Option QmTcb × List QmOut :=
  if env.unpacked then
    if evt.instanceid.toNat < qmMaxQmiInstSupported then dcsRespond s evt env else (none, [])
  else (none, [.erAbort])

/-- Serve a device connectivity request; its number selects the handler. -/
def qm_dcs_handler : Option QmTcb × List QmOut :=
  match evt.request with
  | 0 => qm_dcs_enumerate_devices s evt env
  | 1 => qm_dcs_connect s evt env
  | 2 => qm_dcs_disconnect s evt env
  | 4 => qm_dcs_cancel s evt env
  | 7 => qm_dcs_start_srv s evt env
  | 8 | 9 | 10 | 11 => qm_dcs_qos s evt env
  | 3 | 5 | 6 | 12 | 13 => dcsRespond s evt env
  | 14 => qm_dcs_set_net_change s evt env
  | _ =>
      let r := qmshortresp s EQCWWANError.internal evt.qmdcsevtipcchan
      (some r.1, r.2)

/-- The requests that a DCS handler answers with a result code on the channel they arrived on:
enumeration without a device, and unknown messages. -/
def dcsShortResult : Option EQCWWANError :=
  if evt.request = 0 then
    if s.qmidevicestate = .disconnected ∨ s.qmidevicestate = .bootReady then
      some EQCWWANError.noDevice
    else none
  else if 15 ≤ evt.request then some EQCWWANError.internal
  else none

/-- What holds of the ways a device connectivity request can go, holds of its handler. -/
theorem qm_dcs_handler_rule {P : Option QmTcb × List QmOut → Prop}
    (habort : env.unpacked = false → P (none, [.erAbort]))
    (hnet : evt.request = 14 → ¬ evt.instanceid.toNat < qmMaxQmiInstSupported → P (none, []))
    (hshort : ∀ rc, dcsShortResult s evt = some rc →
      P (some (qmclearrespinfo s), [.amsdkSend evt.qmdcsevtipcchan (shortMsg rc)]))
    (hresp : evt.request ≠ 4 → ∀ apps,
      P (dcsRespond { s with qmappInfo := apps } evt env))
    (hcancel : evt.request = 4 → P (dcsRespond (qmclearrespinfo s) evt env))
    (hdisconnect : P (qm_dcs_disconnect s evt env))
    (hstart : evt.request = 7 → env.unpacked = true →
      P (andThen (qm_register_startup_api_clients s env.srvStatus env.mask env.regOk) fun s =>
        dcsRespond s evt env)) :
    P (qm_dcs_handler s evt env) := by
  have hresp' : evt.request ≠ 4 → P (dcsRespond s evt env) := fun hne => hresp hne s.qmappInfo
  have hqos : evt.request ≠ 4 → P (qm_dcs_qos s evt env) := by
    intro hne
    unfold qm_dcs_qos
    split_ifs with hunpacked
    · exact hresp' hne
    · exact habort (by simpa using hunpacked)
  unfold qm_dcs_handler
  split
  next h0 =>
    unfold qm_dcs_enumerate_devices
    split
    next hstate => exact hshort _ (by simp [dcsShortResult, h0, hstate])
    next hstate => exact hshort _ (by simp [dcsShortResult, h0, hstate])
    next => exact hresp' (by omega)
  next h1 =>
    have hconnect : ∃ apps, qmconnect s evt.qmdcsevtipcchan = { s with qmappInfo := apps } := by
      unfold qmconnect
      split_ifs
      · exact ⟨s.qmappInfo, rfl⟩
      · exact ⟨_, rfl⟩
    obtain ⟨apps, happs⟩ := hconnect
    rw [qm_dcs_connect, happs]
    split_ifs with hfound hunpacked hmatches
    · exact hresp (by omega) apps
    · exact hresp' (by omega)
    · exact habort (by simpa using hunpacked)
    · exact hresp' (by omega)
  next => exact hdisconnect
  next h4 => exact hcancel h4
  next h7 =>
    unfold qm_dcs_start_srv
    split_ifs with hunpacked
    · exact hresp' (by omega)
    · exact hstart h7 hunpacked
    · exact habort (by simpa using hunpacked)
  next h => exact hqos (by omega)
  next h => exact hqos (by omega)
  next h => exact hqos (by omega)
  next h => exact hqos (by omega)
  next h => exact hresp' (by omega)
  next h => exact hresp' (by omega)
  next h => exact hresp' (by omega)
  next h => exact hresp' (by omega)
  next h => exact hresp' (by omega)
  next h14 =>
    unfold qm_dcs_set_net_change
    split_ifs with hunpacked hinst
    · exact hresp' (by omega)
    · exact hnet h14 hinst
    · exact habort (by simpa using hunpacked)
  next h0 h1 h2 h4 h7 h8 h9 h10 h11 h3 h5 h6 h12 h13 h14 =>
    have hge : 15 ≤ evt.request := by
      by_contra hlt
      have hsmall : evt.request < 15 := by omega
      interval_cases evt.request <;> simp_all
    have hne : evt.request ≠ 0 := by omega
    apply hshort
    simp only [dcsShortResult, hne, hge, if_false, if_true]

end Dcs

/-- The DCS task takes the next request from its queue and serves it. -/
def qmdcstask (s : QmTcb) (env : DcsEnv) : Option QmTcb × List QmOut :=
  match s.qmdcsicmsgque with
  | [] => (some s, [])
  | evt :: rest => qm_dcs_handler { s with qmdcsicmsgque := rest } evt env

end Qm

end SierraSdk
