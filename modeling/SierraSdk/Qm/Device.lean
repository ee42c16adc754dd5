import SierraSdk.Qm.Registration

/-!
# Device events

The handlers of the device events keep the device state, and start and report firmware
downloads. When the device goes away all clients are closed and the outstanding request is
answered.
-/

namespace SierraSdk

namespace Qm

open Am Ci

/-- The firmware data with the path, the image mask and the flags of a download cleared. -/
def QmFmsInfo.clearDownload (fms : QmFmsInfo) : QmFmsInfo :=
  { fms with path := [], isMDM9x15 := 0, fw_force_download := false, imgMask := 0 }

/-- Start the image download of the protocol in force. -/
def startDownload (fms : QmFmsInfo) : List QmOut :=
  if fms.mdmProtocol = 0 then
    [.imtaskinit fms.path fms.isMDM9x15 fms.imgMask fms.fw_force_download]
  else if fms.mdmProtocol = 1 then [.fhtaskinit fms.path fms.isMDM9x15 fms.imgMask]
  else []

def qm_ds_handle_dev_disconnected (s : QmTcb) : QmTcb × List QmOut :=
  if s.qmidevicestate = .disconnected then (s, [])
  else
    let r := qmderegisterclients { s with qmidevicestate := .disconnected }
    let t :=
      if r.1.qmbusy then qmshortresp r.1 EQCWWANError.noDevice r.1.qmipcchannel
      else (r.1, [])
    (t.1, r.2 ++ t.2 ++ [.devStateNotify .disconnected])

/-- The firmware data after the device came up in boot mode, and what was done. -/
def bootDevReadyFms (fms : QmFmsInfo) : QmFmsInfo × List QmOut :=
  if fms.fw_download_requested ∧ fms.fw_download_started then
    ({ fms.clearDownload with
        fw_download_requested := false
        fw_download_started := false
        needDMReset := false
        mdmProtocol := 0 }, [.fwDwldCompleteNotify fms.fw_download_status])
  else if fms.path ≠ [] then
    ({ fms.clearDownload with
        fw_download_requested := true
        fw_download_started := true
        needDMReset := false }, startDownload fms)
  else (fms, [])

def qm_ds_handle_boot_dev_ready (s : QmTcb) : QmTcb × List QmOut :=
  let f := bootDevReadyFms s.fms_data
  ({ s with qmidevicestate := .bootReady, fms_data := f.1 },
    f.2 ++ if s.qmidevicestate = .bootReady then [] else [.devStateNotify .bootReady])

/-- The firmware data after the serial device came up, and what was done. A download that
waits for the reboot has succeeded. -/
def serialDevReadyFms (fms : QmFmsInfo) : QmFmsInfo × List QmOut :=
  if fms.fw_download_requested ∧ fms.fw_download_started then
    let status :=
      if fms.fw_download_status = EQCWWANError.swiimFwWaitForReboot then EQCWWANError.none
      else fms.fw_download_status
    ({ fms.clearDownload with
        fw_download_requested := false
        fw_download_started := false
        fw_download_status := status
        mdmProtocol := 0 }, [.fwDwldCompleteNotify status])
  else if fms.path ≠ [] then
    ({ fms.clearDownload with
        fw_download_requested := true
        fw_download_started := true
        fw_download_status := EQCWWANError.swiimFwUpdateFail
        mdmProtocol := 0 }, startDownload fms)
  else (fms, [])

/-- The notification is not sent when the device comes from boot mode. -/
def qm_ds_handle_serial_dev_ready (s : QmTcb) : QmTcb × List QmOut :=
  let f := serialDevReadyFms s.fms_data
  ({ s with qmidevicestate := .serialOnly, fms_data := f.1 },
    f.2 ++ if s.qmidevicestate = .bootReady then [] else [.devStateNotify .serialOnly])

/-- The firmware data after the application device came up, and what was done. -/
def appDevReadyFms (fms : QmFmsInfo) : QmFmsInfo × List QmOut :=
  if fms.fw_download_requested then
    ({ fms.clearDownload with
        fw_download_requested := false
        fw_download_started := false
        mdmProtocol := 0 },
      [.fwDwldCompleteNotify
        (if fms.fw_download_started then fms.fw_download_status
          else EQCWWANError.swiimFirmwareNotDownloaded)])
  else (fms, [])

def qm_ds_handle_app_dev_ready (s : QmTcb) : QmTcb × List QmOut :=
  let f := appDevReadyFms s.fms_data
  ({ s with qmidevicestate := .ready, fms_data := { f.1 with needDMReset := true } },
    f.2 ++ if s.qmidevicestate = .ready then [] else [.devStateNotify .ready])

/-- Handle a device event. -/
def qm_ds_dev_event_handler (s : QmTcb) (event : DsSioEvent) : QmTcb × List QmOut :=
  match event with
  | .bootReady => qm_ds_handle_boot_dev_ready s
  | .ready => qm_ds_handle_app_dev_ready s
  | .disconnected => qm_ds_handle_dev_disconnected s
  | .serialOnly => qm_ds_handle_serial_dev_ready s

section Background

theorem startDownload_background (fms : QmFmsInfo) :
    ∀ o ∈ startDownload fms, o.isBackground = true := by
  unfold startDownload
  split_ifs <;> simp [QmOut.isBackground]

/-- When the device comes up nothing but the device state and the firmware data changes, and
no request is involved. -/
theorem qm_ds_dev_event_handler_up (s : QmTcb) {event : DsSioEvent}
    (h : event ≠ .disconnected) :
    ∃ fms out, (∀ o ∈ out, o.isBackground = true) ∧
      qm_ds_dev_event_handler s event =
        ({ s with qmidevicestate := event, fms_data := fms }, out) := by
  have hnotify : ∀ {pre : List QmOut} {state : DsSioEvent} {c : Prop} [Decidable c],
      (∀ o ∈ pre, o.isBackground = true) →
        ∀ o ∈ pre ++ (if c then [] else [.devStateNotify state]), o.isBackground = true := by
    intro pre state c _ hpre o ho
    rcases List.mem_append.mp ho with ho | ho
    · exact hpre o ho
    · split_ifs at ho
      · exact absurd ho List.not_mem_nil
      · rw [List.mem_singleton.mp ho]
        rfl
  cases event with
  | disconnected => exact absurd rfl h
  | ready =>
      refine ⟨_, _, hnotify ?_, rfl⟩
      unfold appDevReadyFms
      split_ifs <;> simp [QmOut.isBackground]
  | bootReady =>
      refine ⟨_, _, hnotify ?_, rfl⟩
      unfold bootDevReadyFms
      split_ifs
      · simp [QmOut.isBackground]
      · exact startDownload_background s.fms_data
      · simp
  | serialOnly =>
      refine ⟨_, _, hnotify ?_, rfl⟩
      unfold serialDevReadyFms
      split_ifs
      · simp [QmOut.isBackground]
      · simp [QmOut.isBackground]
      · exact startDownload_background s.fms_data
      · simp

/-- When the device goes away all clients are closed and the outstanding request is
answered. -/
theorem qm_ds_handle_dev_disconnected_eq (s : QmTcb) :
    qm_ds_handle_dev_disconnected s =
      if s.qmidevicestate = .disconnected then (s, [])
      else
        let t :=
          { s with
            qmidevicestate := .disconnected
            qmiclients := forgetRegistered QmiClient.all s.qmiclients }
        (if s.qmbusy then qmclearrespinfo t else t,
          closeRegistered QmiClient.all s.qmiclients ++
            (if s.qmbusy then [.amsdkSend s.qmipcchannel (shortMsg EQCWWANError.noDevice)]
              else []) ++
            [.devStateNotify .disconnected]) := by
  simp only [qm_ds_handle_dev_disconnected, qmderegisterclients_eq, qmshortresp]
  split_ifs
  · rfl
  · rfl
  · rfl

end Background

end Qm

end SierraSdk
