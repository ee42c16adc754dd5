import SierraSdk.Qm.FirmwareFrame

/-!
# The life of a firmware download

A firmware download is asked for by setting the path of an image, started when the device comes
up for it, and reported complete when the device comes up again. A log kept beside the control
block says what the application and the image task have done (`DownloadLog`), and
`DownloadKept` what a step may do: a download that runs goes on or is reported once, with the
status recorded for it, and a new one starts only if it was asked for.

The device event of the boot mode starts a download without a status of its own, and the one of
the serial mode compares the device state with the boot mode where the others compare with
their own. `DownloadSafe` excludes these steps and no others.
-/

namespace SierraSdk

namespace Qm

open Am Ci Machine

/-- The status in a completion notification. -/
def QmOut.reportedStatus : QmOut → Option EQCWWANError
  | .fwDwldCompleteNotify status => some status
  | _ => none

/-- The state in a device state notification. -/
def QmOut.reportedState : QmOut → Option DsSioEvent
  | .devStateNotify state => some state
  | _ => none

/-- The start of the task that transfers an image. -/
def QmOut.startsTransfer : QmOut → Bool
  | .imtaskinit .. | .fhtaskinit .. => true
  | _ => false

/-- Whether an event is a request to set the path of the next image. -/
def QmEvent.asksDownload : QmEvent → Bool
  | .qmiReq packet _ _ => setsImagePath packet
  | _ => false

/-- Whether the device comes up. -/
def QmEvent.comesUp : QmEvent → Bool
  | .device event => event ≠ .disconnected
  | _ => false

/-- The statuses of the downloads that a step reports complete. What is reported on a timer tick
is that the image has been transferred, and the download goes on. -/
def completions : QmEvent → List QmOut → List EQCWWANError
  | .device _, out => out.filterMap QmOut.reportedStatus
  | _, _ => []

/-- Whether a path was set since the last download was started or reported, and the status
recorded for the running download. -/
structure DownloadLog where
  asked : Bool
  recorded : Option EQCWWANError

/-- The status of the running download after an event. Once it has been reported that the image
is transferred, the download waits for the reboot. -/
def DownloadLog.recordedBy (log : DownloadLog) : QmEvent → Option EQCWWANError
  | .fwStatus status => some status
  | .tick _ =>
      if log.recorded = some EQCWWANError.swiimFwFlashComplete then
        some EQCWWANError.swiimFwWaitForReboot
      else log.recorded
  | _ => log.recorded

/-- The log after a step. A download that starts in the serial mode has failed until something
else is recorded. -/
def DownloadLog.next (log : DownloadLog) (s t : QmTcb) (event : QmEvent) (out : List QmOut) :
    DownloadLog :=
  if completions event out ≠ [] then ⟨false, none⟩
  else if ¬ s.fms_data.fw_download_started ∧ t.fms_data.fw_download_started then
    ⟨false, if t.qmidevicestate = .serialOnly then some EQCWWANError.swiimFwUpdateFail else none⟩
  else ⟨log.asked || event.asksDownload, log.recordedBy event⟩

/-- The machine with the log. -/
def downloadStep (state : Option QmTcb × DownloadLog) (event : QmEvent) :
    (Option QmTcb × DownloadLog) × List QmOut :=
  let r := qmStep state.1 event
  match state.1, r.1 with
  | some s, some t => ((some t, state.2.next s t event r.2), r.2)
  | _, next => ((next, state.2), r.2)

/-- The status that is reported for a recorded one: after the transfer the reboot into the
serial mode is the success. -/
def finalStatus (status : EQCWWANError) (event : QmEvent) : EQCWWANError :=
  match event with
  | .device .serialOnly =>
      if status = EQCWWANError.swiimFwWaitForReboot then EQCWWANError.none else status
  | _ => status

/-- Nothing is left of a request. -/
structure QmFmsInfo.Cleared (fms : QmFmsInfo) : Prop where
  path : fms.path = []
  imgMask : fms.imgMask = 0
  isMDM9x15 : fms.isMDM9x15 = 0
  force : fms.fw_force_download = false
  mdmProtocol : fms.mdmProtocol = 0
  requested : fms.fw_download_requested = false
  started : fms.fw_download_started = false

/-- What a step from `s` to `t` may do to a download and to the device state. -/
structure DownloadKept (log : DownloadLog) (s t : QmTcb) (event : QmEvent) (out : List QmOut) :
    Prop where
  requested : t.fms_data.fw_download_started = true → t.fms_data.fw_download_requested = true
  running : s.fms_data.fw_download_started = true →
    t.fms_data.fw_download_started = true ∧ completions event out = [] ∨
      t.fms_data.fw_download_started = false ∧
        ∃ status, log.recorded = some status ∧ completions event out = [finalStatus status event]
  comesUp : s.fms_data.fw_download_started = true → event.comesUp = true →
    t.fms_data.fw_download_started = false
  idle : s.fms_data.fw_download_started = false → completions event out = [] ∨
    t.fms_data.fw_download_started = false ∧
      completions event out = [EQCWWANError.swiimFirmwareNotDownloaded]
  starts : s.fms_data.fw_download_started = false → t.fms_data.fw_download_started = true →
    log.asked = true
  transfers : (∃ o ∈ out, o.startsTransfer = true) →
    s.fms_data.fw_download_started = false ∧ t.fms_data.fw_download_started = true
  cleared : completions event out ≠ [] → t.fms_data.Cleared
  states : out.filterMap QmOut.reportedState =
    if t.qmidevicestate = s.qmidevicestate then [] else [t.qmidevicestate]

/-- A step that does not end the daemon keeps to that. -/
def KeepsDownloads (state : Option QmTcb × DownloadLog) (event : QmEvent) : Prop :=
  ∀ s t, state.1 = some s → (qmStep state.1 event).1 = some t →
    DownloadKept state.2 s t event (qmStep state.1 event).2

/-- The device comes up on a running download only after a status was recorded for it, and in
the serial mode it comes from neither the boot mode nor the serial mode. -/
def DownloadSafe (state : Option QmTcb × DownloadLog) (event : QmEvent) : Prop :=
  ∀ s, state.1 = some s →
    (event.comesUp = true → s.fms_data.fw_download_started = true → state.2.recorded ≠ none) ∧
      (event = .device .serialOnly →
        s.qmidevicestate ≠ .bootReady ∧ s.qmidevicestate ≠ .serialOnly)

/-- What the flags and the path say of the log. -/
structure DownloadInv (s : QmTcb) (log : DownloadLog) : Prop where
  requested : s.fms_data.fw_download_started = true → s.fms_data.fw_download_requested = true
  asked : s.fms_data.path ≠ [] → log.asked = true
  recorded : ∀ status, log.recorded = some status → s.fms_data.fw_download_status = status

section Outputs

theorem reportedState_of_not_isFirmware {o : QmOut} (h : o.isFirmware = false) :
    o.reportedState = none := by
  cases o <;> first | rfl | cases h

theorem startsTransfer_of_not_isFirmware {o : QmOut} (h : o.isFirmware = false) :
    o.startsTransfer = false := by
  cases o <;> first | rfl | cases h

theorem startsTransfer_of_mem_startDownload {fms : QmFmsInfo} {o : QmOut}
    (h : o ∈ startDownload fms) : o.startsTransfer = true := by
  unfold startDownload at h
  split_ifs at h
  · rw [List.mem_singleton.mp h]
    rfl
  · rw [List.mem_singleton.mp h]
    rfl
  · exact absurd h List.not_mem_nil

theorem reportedStatus_of_startsTransfer {o : QmOut} (h : o.startsTransfer = true) :
    o.reportedStatus = none ∧ o.reportedState = none := by
  cases o <;> first | exact ⟨rfl, rfl⟩ | cases h

end Outputs

section Quiet

variable {log : DownloadLog} {s t : QmTcb} {event : QmEvent} {out : List QmOut}

/-- A step that leaves the flags of the download, reports nothing of it, and notifies the change
of the device state. -/
structure Quiet (s t : QmTcb) (event : QmEvent) (out : List QmOut) : Prop where
  started : t.fms_data.fw_download_started = s.fms_data.fw_download_started
  requested : s.fms_data.fw_download_requested = true → t.fms_data.fw_download_requested = true
  path : t.fms_data.path ≠ [] → s.fms_data.path ≠ [] ∨ event.asksDownload = true
  comesUp : event.comesUp = false
  completions : completions event out = []
  states : out.filterMap QmOut.reportedState =
    if t.qmidevicestate = s.qmidevicestate then [] else [t.qmidevicestate]
  transfers : ∀ o ∈ out, o.startsTransfer = false

theorem Quiet.kept (h : Quiet s t event out) (hinv : DownloadInv s log) :
    DownloadKept log s t event out where
  requested hstarted := h.requested (hinv.requested (h.started ▸ hstarted))
  running hstarted := .inl ⟨h.started.trans hstarted, h.completions⟩
  comesUp _ hup := by
    rw [h.comesUp] at hup
    cases hup
  idle _ := .inl h.completions
  starts hidle hstarted := by
    rw [h.started, hidle] at hstarted
    cases hstarted
  transfers := by
    rintro ⟨o, ho, hstarts⟩
    rw [h.transfers o ho] at hstarts
    cases hstarts
  cleared hne := absurd h.completions hne
  states := h.states

theorem Quiet.next_eq (h : Quiet s t event out) :
    log.next s t event out = ⟨log.asked || event.asksDownload, log.recordedBy event⟩ := by
  have hnot : ¬ (¬ s.fms_data.fw_download_started = true ∧
      t.fms_data.fw_download_started = true) := fun hs => hs.1 (h.started ▸ hs.2)
  rw [DownloadLog.next, if_neg (not_not.mpr h.completions), if_neg hnot]

theorem Quiet.inv (h : Quiet s t event out) (hinv : DownloadInv s log)
    (hstatus : ∀ status, log.recordedBy event = some status →
      t.fms_data.fw_download_status = status) :
    DownloadInv t (log.next s t event out) := by
  rw [h.next_eq]
  refine ⟨fun hstarted => h.requested (hinv.requested (h.started ▸ hstarted)), fun hpath => ?_,
    hstatus⟩
  rcases h.path hpath with hold | hasks
  · simp only [hinv.asked hold, Bool.true_or]
  · simp only [hasks, Bool.or_true]

/-- What is unconcerned with downloads is quiet. -/
theorem Unconcerned.quiet {r : Option QmTcb × List QmOut}
    (h : Unconcerned event.asksDownload s r) (ht : r.1 = some t)
    (hcompletions : Qm.completions event r.2 = []) (hup : event.comesUp = false) :
    Quiet s t event r.2 where
  started := (h.next t ht).started
  requested := (h.next t ht).requested
  path := (h.next t ht).path
  comesUp := hup
  completions := hcompletions
  states := by
    rw [if_pos (h.next t ht).qmidevicestate, List.filterMap_eq_nil_iff]
    exact fun o ho => reportedState_of_not_isFirmware (h.out o ho)
  transfers o ho := startsTransfer_of_not_isFirmware (h.out o ho)

end Quiet

section Ticks

/-- The firmware data after a tick. -/
theorem qmtmrtick_fms_data (s : QmTcb) (sixtySeconds : Bool) :
    (qmtmrtick s sixtySeconds).1.qmidevicestate = s.qmidevicestate ∧
      ∃ reset, (qmtmrtick s sixtySeconds).1.fms_data =
        { s.fms_data with
          needDMReset := reset
          fw_download_status :=
            if s.fms_data.fw_download_status = EQCWWANError.swiimFwFlashComplete then
              EQCWWANError.swiimFwWaitForReboot
            else s.fms_data.fw_download_status } := by
  have htick : (qmtick s).1.qmidevicestate = s.qmidevicestate ∧
      (qmtick s).1.fms_data = s.fms_data := by
    simp only [qmtick, qmshortresp]
    split_ifs <;> exact ⟨rfl, rfl⟩
  have hreset : ∀ t : QmTcb, (dmResetTick t sixtySeconds).1.qmidevicestate = t.qmidevicestate ∧
      ∃ reset, (dmResetTick t sixtySeconds).1.fms_data =
        { t.fms_data with needDMReset := reset } := by
    intro t
    unfold dmResetTick
    split_ifs
    · exact ⟨rfl, false, rfl⟩
    · exact ⟨rfl, t.fms_data.needDMReset, rfl⟩
  obtain ⟨hstate, reset, hfms⟩ := hreset (qmtick s).1
  simp only [qmtmrtick, flashCompleteTick, hfms, htick.2]
  split_ifs with hflash
  · exact ⟨hstate.trans htick.1, reset, rfl⟩
  · refine ⟨hstate.trans htick.1, reset, ?_⟩
    rw [hfms, htick.2]

theorem reported_qmtmrtick (s : QmTcb) (sixtySeconds : Bool) :
    ∀ o ∈ (qmtmrtick s sixtySeconds).2, o.reportedState = none ∧ o.startsTransfer = false := by
  intro o ho
  simp only [qmtmrtick, List.mem_append] at ho
  rcases ho with (ho | ho) | ho
  · simp only [qmtick, qmshortresp] at ho
    split_ifs at ho
    · cases ho
    · rw [List.mem_singleton.mp ho]
      exact ⟨rfl, rfl⟩
    · cases ho
  · unfold dmResetTick at ho
    split_ifs at ho
    · rw [List.mem_singleton.mp ho]
      exact ⟨rfl, rfl⟩
    · cases ho
  · unfold flashCompleteTick at ho
    split_ifs at ho
    · rw [List.mem_singleton.mp ho]
      exact ⟨rfl, rfl⟩
    · cases ho

theorem quiet_tick (s : QmTcb) (sixtySeconds : Bool) :
    Quiet s (qmtmrtick s sixtySeconds).1 (.tick sixtySeconds) (qmtmrtick s sixtySeconds).2 := by
  obtain ⟨hstate, reset, hfms⟩ := qmtmrtick_fms_data s sixtySeconds
  refine ⟨by rw [hfms], by simp only [hfms, imp_self], ?_, rfl, rfl, ?_, ?_⟩
  · rw [hfms]
    exact .inl
  · rw [if_pos hstate, List.filterMap_eq_nil_iff]
    exact fun o ho => (reported_qmtmrtick s sixtySeconds o ho).1
  · exact fun o ho => (reported_qmtmrtick s sixtySeconds o ho).2

end Ticks

section Devices

variable {log : DownloadLog} {s t : QmTcb} {event : QmEvent} {fms : QmFmsInfo}
  {fout out : List QmOut}

/-- What a device that comes up does to the firmware data: it reports the running download,
starts one that has a path, reports that a requested one was not started, or does nothing. -/
inductive FmsStep (event : QmEvent) (fms : QmFmsInfo) : QmFmsInfo → List QmOut → Prop where
  | completes {fms' : QmFmsInfo} (hstarted : fms.fw_download_started = true)
      (hcleared : fms'.Cleared) :
      FmsStep event fms fms' [.fwDwldCompleteNotify (finalStatus fms.fw_download_status event)]
  | starts {fms' : QmFmsInfo} (hidle : fms.fw_download_started = false) (hpath : fms.path ≠ [])
      (hstarted : fms'.fw_download_started = true)
      (hrequested : fms'.fw_download_requested = true) (hempty : fms'.path = [])
      (hstatus : event = .device .serialOnly →
        fms'.fw_download_status = EQCWWANError.swiimFwUpdateFail) :
      FmsStep event fms fms' (startDownload fms)
  | omits {fms' : QmFmsInfo} (hidle : fms.fw_download_started = false)
      (hcleared : fms'.Cleared) :
      FmsStep event fms fms' [.fwDwldCompleteNotify EQCWWANError.swiimFirmwareNotDownloaded]
  | keeps {fms' : QmFmsInfo} (hidle : fms.fw_download_started = false)
      (hsame : fms'.fw_download_started = false) (hpath : fms'.path = fms.path)
      (hstatus : fms'.fw_download_status = fms.fw_download_status) : FmsStep event fms fms' []

theorem fmsStep_boot (hreq : fms.fw_download_started = true → fms.fw_download_requested = true) :
    FmsStep (.device .bootReady) fms (bootDevReadyFms fms).1 (bootDevReadyFms fms).2 := by
  unfold bootDevReadyFms
  split_ifs with hrun hpath
  · exact .completes hrun.2 ⟨rfl, rfl, rfl, rfl, rfl, rfl, rfl⟩
  · have hidle : fms.fw_download_started = false :=
      Bool.eq_false_iff.mpr fun hs => hrun ⟨hreq hs, hs⟩
    exact .starts hidle hpath rfl rfl rfl nofun
  · have hidle : fms.fw_download_started = false :=
      Bool.eq_false_iff.mpr fun hs => hrun ⟨hreq hs, hs⟩
    exact .keeps hidle hidle rfl rfl

theorem fmsStep_serial
    (hreq : fms.fw_download_started = true → fms.fw_download_requested = true) :
    FmsStep (.device .serialOnly) fms (serialDevReadyFms fms).1 (serialDevReadyFms fms).2 := by
  unfold serialDevReadyFms
  by_cases hrun : fms.fw_download_requested = true ∧ fms.fw_download_started = true
  · rw [if_pos hrun]
    exact .completes hrun.2 ⟨rfl, rfl, rfl, rfl, rfl, rfl, rfl⟩
  · have hidle : fms.fw_download_started = false :=
      Bool.eq_false_iff.mpr fun hs => hrun ⟨hreq hs, hs⟩
    rw [if_neg hrun]
    split_ifs with hpath
    · exact .starts hidle hpath rfl rfl rfl fun _ => rfl
    · exact .keeps hidle hidle rfl rfl

theorem fmsStep_app (hreq : fms.fw_download_started = true → fms.fw_download_requested = true) :
    FmsStep (.device .ready) fms { (appDevReadyFms fms).1 with needDMReset := true }
      (appDevReadyFms fms).2 := by
  unfold appDevReadyFms
  by_cases hr : fms.fw_download_requested = true
  · rw [if_pos hr]
    by_cases hs : fms.fw_download_started = true
    · rw [if_pos hs]
      exact .completes hs ⟨rfl, rfl, rfl, rfl, rfl, rfl, rfl⟩
    · rw [if_neg hs]
      exact .omits (Bool.eq_false_iff.mpr hs) ⟨rfl, rfl, rfl, rfl, rfl, rfl, rfl⟩
  · have hidle : fms.fw_download_started = false := Bool.eq_false_iff.mpr fun hs => hr (hreq hs)
    rw [if_neg hr]
    exact .keeps hidle hidle rfl rfl

theorem FmsStep.states {fms' : QmFmsInfo} (h : FmsStep event fms fms' fout) :
    fout.filterMap QmOut.reportedState = [] := by
  cases h with
  | completes | omits | keeps => rfl
  | starts =>
      exact List.filterMap_eq_nil_iff.mpr fun o ho =>
        (reportedStatus_of_startsTransfer (startsTransfer_of_mem_startDownload ho)).2

theorem completions_append_notify (e : DsSioEvent) {notify : List QmOut}
    (hnotify : ∀ o ∈ notify, o.reportedStatus = none) :
    completions (.device e) (fout ++ notify) = fout.filterMap QmOut.reportedStatus := by
  rw [completions, List.filterMap_append, List.filterMap_eq_nil_iff.mpr hnotify,
    List.append_nil]

/-- A device that comes up keeps to the life of a download exactly if the status of a running
download is known and the change of the device state is notified. -/
theorem FmsStep.kept_iff {e : DsSioEvent} {notify : List QmOut}
    (h : FmsStep (.device e) s.fms_data t.fms_data fout) (hinv : DownloadInv s log)
    (hnotify : ∀ o ∈ notify, o.reportedStatus = none ∧ o.startsTransfer = false) :
    DownloadKept log s t (.device e) (fout ++ notify) ↔
      (s.fms_data.fw_download_started = true → log.recorded ≠ none) ∧
        notify.filterMap QmOut.reportedState =
          if t.qmidevicestate = s.qmidevicestate then [] else [t.qmidevicestate] := by
  have hcomp : completions (.device e) (fout ++ notify) =
      fout.filterMap QmOut.reportedStatus :=
    completions_append_notify e fun o ho => (hnotify o ho).1
  have hstates : (fout ++ notify).filterMap QmOut.reportedState =
      notify.filterMap QmOut.reportedState := by
    rw [List.filterMap_append, h.states, List.nil_append]
  constructor
  · refine fun hkept => ⟨fun hstarted => ?_, hstates ▸ hkept.states⟩
    rcases hkept.running hstarted with ⟨hon, hnone⟩ | ⟨-, status, hrecorded, -⟩
    · rw [hcomp] at hnone
      cases h with
      | completes => cases hnone
      | starts hidle => exact absurd hstarted (Bool.eq_false_iff.mp hidle)
      | omits => cases hnone
      | keeps hidle => exact absurd hstarted (Bool.eq_false_iff.mp hidle)
    · rw [hrecorded]
      exact Option.some_ne_none status
  · rintro ⟨hrecorded, hnotified⟩
    have htransfers : (∀ o ∈ fout, o.startsTransfer = false) →
        ¬ ∃ o ∈ fout ++ notify, o.startsTransfer = true := by
      rintro hnone ⟨o, ho, hstarts⟩
      rcases List.mem_append.mp ho with ho | ho
      · exact absurd hstarts (Bool.eq_false_iff.mp (hnone o ho))
      · exact absurd hstarts (Bool.eq_false_iff.mp (hnotify o ho).2)
    rw [← hstates] at hnotified
    cases h with
    | completes hstarted hcleared =>
        have hoff := Bool.eq_false_iff.mp hcleared.started
        obtain ⟨status, hstatus⟩ := Option.ne_none_iff_exists'.mp (hrecorded hstarted)
        refine
          { requested := fun hs => absurd hs hoff
            running := fun _ => .inr ⟨hcleared.started, status, hstatus, ?_⟩
            comesUp := fun _ _ => hcleared.started
            idle := fun hs => absurd hstarted (Bool.eq_false_iff.mp hs)
            starts := fun hs => absurd hstarted (Bool.eq_false_iff.mp hs)
            transfers := fun hs => absurd hs (htransfers (by simp [QmOut.startsTransfer]))
            cleared := fun _ => hcleared
            states := hnotified }
        rw [hcomp, hinv.recorded status hstatus]
        rfl
    | starts hidle hpath hstarted hrequested hempty hstatus =>
        have hnone : ∀ o ∈ startDownload s.fms_data, o.reportedStatus = none := fun o ho =>
          (reportedStatus_of_startsTransfer (startsTransfer_of_mem_startDownload ho)).1
        rw [List.filterMap_eq_nil_iff.mpr hnone] at hcomp
        exact
          { requested := fun _ => hrequested
            running := fun hs => absurd hs (Bool.eq_false_iff.mp hidle)
            comesUp := fun hs => absurd hs (Bool.eq_false_iff.mp hidle)
            idle := fun _ => .inl hcomp
            starts := fun _ _ => hinv.asked hpath
            transfers := fun _ => ⟨hidle, hstarted⟩
            cleared := fun hne => absurd hcomp hne
            states := hnotified }
    | omits hidle hcleared =>
        have hoff := Bool.eq_false_iff.mp hcleared.started
        exact
          { requested := fun hs => absurd hs hoff
            running := fun hs => absurd hs (Bool.eq_false_iff.mp hidle)
            comesUp := fun _ _ => hcleared.started
            idle := fun _ => .inr ⟨hcleared.started, hcomp⟩
            starts := fun _ hs => absurd hs hoff
            transfers := fun hs => absurd hs (htransfers (by simp [QmOut.startsTransfer]))
            cleared := fun _ => hcleared
            states := hnotified }
    | keeps hidle hsame hpath hstatus =>
        have hoff := Bool.eq_false_iff.mp hsame
        exact
          { requested := fun hs => absurd hs hoff
            running := fun hs => absurd hs (Bool.eq_false_iff.mp hidle)
            comesUp := fun _ _ => hsame
            idle := fun _ => .inl hcomp
            starts := fun _ hs => absurd hs hoff
            transfers := fun hs => absurd hs (htransfers (by simp))
            cleared := fun hne => absurd hcomp hne
            states := hnotified }

theorem FmsStep.inv {e : DsSioEvent} {notify : List QmOut}
    (h : FmsStep (.device e) s.fms_data t.fms_data fout) (hinv : DownloadInv s log)
    (hstate : t.qmidevicestate = e) (hnotify : ∀ o ∈ notify, o.reportedStatus = none) :
    DownloadInv t (log.next s t (.device e) (fout ++ notify)) := by
  have hcomp : completions (.device e) (fout ++ notify) =
      fout.filterMap QmOut.reportedStatus := completions_append_notify e hnotify
  have hended : t.fms_data.Cleared → fout.filterMap QmOut.reportedStatus ≠ [] →
      DownloadInv t (log.next s t (.device e) (fout ++ notify)) := by
    intro hcleared hne
    rw [DownloadLog.next, hcomp, if_pos hne]
    exact ⟨fun hs => absurd hs (Bool.eq_false_iff.mp hcleared.started),
      fun hpath => absurd hcleared.path hpath, nofun⟩
  cases h with
  | completes _ hcleared => exact hended hcleared (List.cons_ne_nil _ _)
  | omits _ hcleared => exact hended hcleared (List.cons_ne_nil _ _)
  | starts hidle hpath hstarted hrequested hempty hstatus =>
      have hnone : ∀ o ∈ startDownload s.fms_data, o.reportedStatus = none := fun o ho =>
        (reportedStatus_of_startsTransfer (startsTransfer_of_mem_startDownload ho)).1
      rw [List.filterMap_eq_nil_iff.mpr hnone] at hcomp
      rw [DownloadLog.next, if_neg (not_not.mpr hcomp),
        if_pos ⟨Bool.eq_false_iff.mp hidle, hstarted⟩]
      refine ⟨fun _ => hrequested, fun hne => absurd hempty hne, fun status hrec => ?_⟩
      split_ifs at hrec with hserial
      rw [← Option.some.inj hrec]
      exact hstatus (by rw [← hserial, hstate])
  | keeps hidle hsame hpath hstatus =>
      have hoff := Bool.eq_false_iff.mp hsame
      rw [List.filterMap_nil] at hcomp
      rw [DownloadLog.next, if_neg (not_not.mpr hcomp), if_neg fun hs => hoff hs.2]
      refine ⟨fun hs => absurd hs hoff, fun hne => ?_, fun status hrec => ?_⟩
      · rw [hpath] at hne
        simp only [hinv.asked hne, Bool.true_or]
      · rw [hstatus]
        exact hinv.recorded status hrec

/-- A device that comes up, and whose handler takes `c` for the state before that needs no
notification. -/
theorem FmsStep.up {e c : DsSioEvent} {fms' : QmFmsInfo}
    (h : FmsStep (.device e) s.fms_data fms' fout) (hinv : DownloadInv s log)
    (ht : { s with qmidevicestate := e, fms_data := fms' } = t)
    (hout : fout ++ (if s.qmidevicestate = c then [] else [.devStateNotify e]) = out) :
    (DownloadKept log s t (.device e) out ↔
        (s.fms_data.fw_download_started = true → log.recorded ≠ none) ∧
          (s.qmidevicestate = c ↔ s.qmidevicestate = e)) ∧
      DownloadInv t (log.next s t (.device e) out) := by
  have hnotify : ∀ o ∈ (if s.qmidevicestate = c then [] else [QmOut.devStateNotify e]),
      o.reportedStatus = none ∧ o.startsTransfer = false := by
    intro o ho
    split_ifs at ho
    · exact absurd ho List.not_mem_nil
    · rw [List.mem_singleton.mp ho]
      exact ⟨rfl, rfl⟩
  have hstate : t.qmidevicestate = e := by rw [← ht]
  have hstep : FmsStep (.device e) s.fms_data t.fms_data fout := by
    rw [← ht]
    exact h
  rw [← hout]
  refine ⟨(hstep.kept_iff hinv hnotify).trans (and_congr Iff.rfl ?_),
    hstep.inv hinv hstate fun o ho => (hnotify o ho).1⟩
  rw [hstate]
  by_cases hc : s.qmidevicestate = c
  · by_cases he : s.qmidevicestate = e
    · rw [if_pos hc, if_pos he.symm]
      exact ⟨fun _ => ⟨fun _ => he, fun _ => hc⟩, fun _ => rfl⟩
    · rw [if_pos hc, if_neg (Ne.symm he)]
      exact ⟨nofun, fun hiff => absurd (hiff.mp hc) he⟩
  · by_cases he : s.qmidevicestate = e
    · rw [if_neg hc, if_pos he.symm]
      exact ⟨nofun, fun hiff => absurd (hiff.mpr he) hc⟩
    · rw [if_neg hc, if_neg (Ne.symm he)]
      exact ⟨fun _ => ⟨fun h' => absurd h' hc, fun h' => absurd h' he⟩, fun _ => rfl⟩

/-- A device that goes away leaves the firmware data. -/
theorem quiet_disconnected (s : QmTcb) :
    Quiet s (qm_ds_handle_dev_disconnected s).1 (.device .disconnected)
        (qm_ds_handle_dev_disconnected s).2 ∧
      (qm_ds_handle_dev_disconnected s).1.fms_data = s.fms_data := by
  have hfms : (qm_ds_handle_dev_disconnected s).1.fms_data = s.fms_data := by
    rw [qm_ds_handle_dev_disconnected_eq]
    split_ifs <;> rfl
  have hout : ∀ o ∈ (qm_ds_handle_dev_disconnected s).2,
      o.reportedStatus = none ∧ o.startsTransfer = false := by
    rw [qm_ds_handle_dev_disconnected_eq]
    intro o ho
    by_cases hgone : s.qmidevicestate = .disconnected
    · rw [if_pos hgone] at ho
      exact absurd ho List.not_mem_nil
    · simp only [if_neg hgone, List.mem_append, closeRegistered, List.mem_map] at ho
      rcases ho with (⟨c, -, rfl⟩ | ho) | ho
      · exact ⟨rfl, rfl⟩
      · split_ifs at ho
        · rw [List.mem_singleton.mp ho]
          exact ⟨rfl, rfl⟩
        · exact absurd ho List.not_mem_nil
      · rw [List.mem_singleton.mp ho]
        exact ⟨rfl, rfl⟩
  refine ⟨⟨by rw [hfms], by simp only [hfms, imp_self], by simp only [hfms]; exact .inl, rfl, ?_,
    ?_, fun o ho => (hout o ho).2⟩, hfms⟩
  · exact List.filterMap_eq_nil_iff.mpr fun o ho => (hout o ho).1
  · rw [qm_ds_handle_dev_disconnected_eq]
    by_cases hgone : s.qmidevicestate = .disconnected
    · rw [if_pos hgone]
      simp
    · have hclose : (closeRegistered QmiClient.all s.qmiclients).filterMap QmOut.reportedState =
          [] := by
        refine List.filterMap_eq_nil_iff.mpr fun o ho => ?_
        obtain ⟨c, -, rfl⟩ := List.mem_map.mp ho
        rfl
      have hanswer : (if s.qmbusy = true then
          [QmOut.amsdkSend s.qmipcchannel (shortMsg EQCWWANError.noDevice)] else []).filterMap
            QmOut.reportedState = [] := by
        split_ifs <;> rfl
      have hgone' : (if s.qmbusy = true then
          qmclearrespinfo
            { s with
              qmidevicestate := .disconnected
              qmiclients := forgetRegistered QmiClient.all s.qmiclients }
          else
            { s with
              qmidevicestate := .disconnected
              qmiclients := forgetRegistered QmiClient.all s.qmiclients }).qmidevicestate =
          .disconnected := by
        split_ifs <;> rfl
      rw [if_neg hgone]
      simp only [hgone', List.filterMap_append, hclose, hanswer, List.nil_append]
      rw [if_neg (Ne.symm hgone)]
      rfl

end Devices

section Steps

variable {log : DownloadLog} {s t : QmTcb} {event : QmEvent}

theorem downloadSafe_some_iff :
    DownloadSafe (some s, log) event ↔
      (event.comesUp = true → s.fms_data.fw_download_started = true → log.recorded ≠ none) ∧
        (event = .device .serialOnly →
          s.qmidevicestate ≠ .bootReady ∧ s.qmidevicestate ≠ .serialOnly) := by
  constructor
  · exact fun h => h s rfl
  · intro h u hu
    rw [← Option.some.inj hu]
    exact h

theorem downloadSafe_of_not_comesUp (h : event.comesUp = false) :
    DownloadSafe (some s, log) event := by
  rw [downloadSafe_some_iff, h]
  refine ⟨nofun, fun he => ?_⟩
  rw [he] at h
  cases h

/-- A step keeps to the life of a download exactly if it is safe, and keeps the invariant. -/
theorem download_step (hinv : DownloadInv s log) (ht : (qmtask s event).1 = some t) :
    (DownloadKept log s t event (qmtask s event).2 ↔ DownloadSafe (some s, log) event) ∧
      DownloadInv t (log.next s t event (qmtask s event).2) := by
  -- A quiet step whose status is the one that the log records.
  have hquiet : ∀ {out : List QmOut}, Quiet s t event out →
      (∀ status, log.recordedBy event = some status → t.fms_data.fw_download_status = status) →
        (DownloadKept log s t event out ↔ DownloadSafe (some s, log) event) ∧
          DownloadInv t (log.next s t event out) := by
    intro out hq hstatus
    exact ⟨⟨fun _ => downloadSafe_of_not_comesUp hq.comesUp, fun _ => hq.kept hinv⟩,
      hq.inv hinv hstatus⟩
  have hunconcerned : ∀ {r : Option QmTcb × List QmOut}, Unconcerned event.asksDownload s r →
      r.1 = some t → completions event r.2 = [] → event.comesUp = false →
      log.recordedBy event = log.recorded →
        (DownloadKept log s t event r.2 ↔ DownloadSafe (some s, log) event) ∧
          DownloadInv t (log.next s t event r.2) := by
    intro r hr hnext hcomp hup hrec
    refine hquiet (hr.quiet hnext hcomp hup) fun status hstatus => ?_
    rw [(hr.next t hnext).status]
    exact hinv.recorded status (hrec ▸ hstatus)
  cases event with
  | qmiReq packet ipcchan env =>
      exact hunconcerned (unconcerned_qmqmireq s packet ipcchan env) ht rfl rfl rfl
  | rx instanceid client qmpacket =>
      exact hunconcerned (unconcerned_qmrxpkt s instanceid qmpacket client) ht rfl rfl rfl
  | dcs env => exact hunconcerned (unconcerned_qmdcstask s env) ht rfl rfl rfl
  | net q_depth isThrottle =>
      have hnet : Unconcerned false s (some s, [.netNotify q_depth isThrottle]) := by
        refine unconcerned_some (.of_eq rfl rfl) fun o ho => ?_
        rw [List.mem_singleton.mp ho]
        rfl
      exact hunconcerned hnet ht rfl rfl rfl
  | fwStatus status =>
      cases ht
      have hnone : ∀ o ∈ ([] : List QmOut), o.startsTransfer = false :=
        fun o ho => absurd ho List.not_mem_nil
      refine hquiet ⟨rfl, id, .inl, rfl, rfl, ?_, hnone⟩ fun st hst => Option.some.inj hst
      rw [if_pos rfl]
      rfl
  | tick sixtySeconds =>
      cases ht
      refine hquiet (quiet_tick s sixtySeconds) fun st hst => ?_
      obtain ⟨-, reset, hfms⟩ := qmtmrtick_fms_data s sixtySeconds
      rw [hfms]
      unfold DownloadLog.recordedBy at hst
      split_ifs at hst with hflash
      · rw [← Option.some.inj hst]
        exact if_pos (hinv.recorded _ hflash)
      · have hstatus := hinv.recorded st hst
        rw [← hstatus]
        exact if_neg fun heq => hflash (hst.trans (congrArg some (hstatus.symm.trans heq)))
  | device e =>
      cases ht
      rw [downloadSafe_some_iff]
      cases e with
      | disconnected =>
          obtain ⟨hq, hfms⟩ := quiet_disconnected s
          rw [← downloadSafe_some_iff]
          refine hquiet hq fun st hst => ?_
          exact (congrArg QmFmsInfo.fw_download_status hfms).trans (hinv.recorded st hst)
      | bootReady =>
          obtain ⟨hkept, hnext⟩ := (fmsStep_boot hinv.requested).up hinv rfl rfl
          refine ⟨hkept.trans ?_, hnext⟩
          exact ⟨fun h => ⟨fun _ => h.1, nofun⟩, fun h => ⟨h.1 rfl, Iff.rfl⟩⟩
      | ready =>
          obtain ⟨hkept, hnext⟩ := (fmsStep_app hinv.requested).up hinv rfl rfl
          refine ⟨hkept.trans ?_, hnext⟩
          exact ⟨fun h => ⟨fun _ => h.1, nofun⟩, fun h => ⟨h.1 rfl, Iff.rfl⟩⟩
      | serialOnly =>
          obtain ⟨hkept, hnext⟩ := (fmsStep_serial hinv.requested).up hinv rfl rfl
          refine ⟨hkept.trans ?_, hnext⟩
          constructor
          · refine fun h => ⟨fun _ => h.1, fun _ => ⟨fun hb => ?_, fun hser => ?_⟩⟩
            · exact absurd (hb.symm.trans (h.2.mp hb)) nofun
            · exact absurd ((h.2.mpr hser).symm.trans hser) nofun
          · intro h
            obtain ⟨hboot, hserial⟩ := h.2 rfl
            exact ⟨h.1 rfl, fun hb => absurd hb hboot, fun hs => absurd hs hserial⟩

end Steps

/-- The machine starts with nothing asked for and nothing recorded. -/
def downloadStart : Option QmTcb × DownloadLog := (some qminit, ⟨false, none⟩)

/-- What the log says of the control block while the daemon runs. -/
def DownloadRunInv (state : Option QmTcb × DownloadLog) : Prop :=
  ∀ s, state.1 = some s → DownloadInv s state.2

theorem downloadRunInv_start : DownloadRunInv downloadStart := by
  intro s hs
  rw [← Option.some.inj hs]
  exact ⟨nofun, fun hpath => absurd rfl hpath, nofun⟩

/-- The step of the machine with the log. -/
theorem downloadStep_some {s t : QmTcb} {log : DownloadLog} {event : QmEvent}
    (ht : (qmtask s event).1 = some t) :
    (downloadStep (some s, log) event).1 = (some t, log.next s t event (qmtask s event).2) := by
  unfold downloadStep
  simp only [qmStep, ht]

theorem downloadStep_none {log : DownloadLog} {o : Option QmTcb} {event : QmEvent}
    (ht : (qmStep o event).1 = none) : (downloadStep (o, log) event).1.1 = none := by
  unfold downloadStep
  cases o with
  | none => exact ht
  | some s => simp only [ht]

theorem DownloadRunInv.step {state : Option QmTcb × DownloadLog} (h : DownloadRunInv state)
    (event : QmEvent) :
    (KeepsDownloads state event ↔ DownloadSafe state event) ∧
      DownloadRunInv (downloadStep state event).1 := by
  obtain ⟨_ | s, log⟩ := state
  · have hnone : (downloadStep (none, log) event).1.1 = none := downloadStep_none rfl
    have hsafe : DownloadSafe (none, log) event := fun s hs => nomatch hs
    have hkeeps : KeepsDownloads (none, log) event := fun s _ hs => nomatch hs
    refine ⟨⟨fun _ => hsafe, fun _ => hkeeps⟩, fun t ht => ?_⟩
    rw [hnone] at ht
    cases ht
  · have hinv := h s rfl
    cases ht : (qmtask s event).1 with
    | none =>
        have hnone : (downloadStep (some s, log) event).1.1 = none := downloadStep_none ht
        have hdown : event.comesUp = false := by
          cases event with
          | device e => cases ht
          | _ => rfl
        refine ⟨⟨fun _ => downloadSafe_of_not_comesUp hdown, fun _ u t hu hnext => ?_⟩,
          fun t hnext => ?_⟩
        · exact nomatch ht.symm.trans hnext
        · rw [hnone] at hnext
          cases hnext
    | some t =>
        obtain ⟨hkept, hnext⟩ := download_step hinv ht
        refine ⟨Iff.trans ?_ hkept, ?_⟩
        · constructor
          · exact fun hkeeps => hkeeps s t rfl ht
          · intro hk u v hu hv
            rw [← Option.some.inj hu, ← Option.some.inj (ht.symm.trans hv)]
            exact hk
        · rw [downloadStep_some ht]
          intro u hu
          rw [← Option.some.inj hu]
          exact hnext

/-- In a run, every step keeps to the life of a download, and notifies exactly the changes of the
device state, exactly if every step is safe. -/
theorem meets_keepsDownloads_iff (events : List QmEvent) :
    Meets downloadStep KeepsDownloads downloadStart events ↔
      Meets downloadStep DownloadSafe downloadStart events := by
  constructor
  · exact meets_of_invariant (I := DownloadRunInv) (fun _ event hs _ => (hs.step event).2)
      (fun _ event hs => (hs.step event).1.mp) downloadRunInv_start
  · exact meets_of_invariant (I := DownloadRunInv) (fun _ event hs _ => (hs.step event).2)
      (fun _ event hs => (hs.step event).1.mpr) downloadRunInv_start

/-- A device that comes up in the serial mode right after the boot mode changes its state
unnoticed. -/
theorem not_keepsDownloads_bootThenSerial :
    ¬ ∀ events, Meets downloadStep KeepsDownloads downloadStart events := by
  intro h
  have hrun := h [.device .bootReady, .device .serialOnly]
  have hkept := hrun.2.1 _ _ rfl rfl
  exact absurd hkept.states nofun

end Qm

end SierraSdk
