import SierraSdk.Qm.Task

/-!
# What requests and packets leave of a firmware download

The device state and the flags of a firmware download are changed by the device events. Of
the other events a request for the firmware management service sets the path of the next
image, one for the device management service marks a download as requested, and the rest
leaves the firmware data as it is (`KeepsDownload`).
-/

namespace SierraSdk

namespace Qm

open Am Ci Machine

/-- The outputs that tell of the device state and of firmware downloads. -/
def QmOut.isFirmware : QmOut → Bool
  | .devStateNotify .. | .fwDwldCompleteNotify .. | .imtaskinit .. | .fhtaskinit .. => true
  | .dsioctl .. | .dsclose .. | .dssend .. | .amsdkSend .. | .qmsenddcsreq .. | .netNotify ..
  | .dmReset | .deviceEvt .. | .erAbort => false

/-- Whether a packet is a request to set the path of the next image. -/
def setsImagePath (packet : List UInt8) : Bool :=
  let parms := amparseqmixactionheader packet
  qmisvc2qmiclnt_map parms.qmiinstanceid (.ofCode parms.amqmisvctype) = .fms &&
    ((packet.drop amQmiRrnSz).getD 0 0).toNat = 0

/-- The device state and the running download are kept; if `asks` is false, no path is set. -/
structure KeepsDownload (asks : Bool) (s t : QmTcb) : Prop where
  qmidevicestate : t.qmidevicestate = s.qmidevicestate
  started : t.fms_data.fw_download_started = s.fms_data.fw_download_started
  status : t.fms_data.fw_download_status = s.fms_data.fw_download_status
  requested : s.fms_data.fw_download_requested = true → t.fms_data.fw_download_requested = true
  path : t.fms_data.path ≠ [] → s.fms_data.path ≠ [] ∨ asks = true

/-- The same of an action that may stop the daemon, which tells of no download. -/
structure Unconcerned (asks : Bool) (s : QmTcb) (r : Option QmTcb × List QmOut) : Prop where
  out : ∀ o ∈ r.2, o.isFirmware = false
  next : ∀ t, r.1 = some t → KeepsDownload asks s t

section Frame

variable {asks : Bool} {s t u : QmTcb}

theorem KeepsDownload.of_eq (hstate : t.qmidevicestate = s.qmidevicestate)
    (hfms : t.fms_data = s.fms_data) : KeepsDownload asks s t where
  qmidevicestate := hstate
  started := by rw [hfms]
  status := by rw [hfms]
  requested := by
    rw [hfms]
    exact id
  path := by
    rw [hfms]
    exact .inl

theorem KeepsDownload.trans (h : KeepsDownload asks s t) (h' : KeepsDownload asks t u) :
    KeepsDownload asks s u where
  qmidevicestate := h'.qmidevicestate.trans h.qmidevicestate
  started := h'.started.trans h.started
  status := h'.status.trans h.status
  requested hreq := h'.requested (h.requested hreq)
  path hpath := (h'.path hpath).elim h.path .inr

theorem unconcerned_stopped {out : List QmOut} (hout : ∀ o ∈ out, o.isFirmware = false) :
    Unconcerned asks s (none, out) :=
  ⟨hout, fun _ ht => nomatch ht⟩

theorem unconcerned_some {out : List QmOut} (h : KeepsDownload asks s t)
    (hout : ∀ o ∈ out, o.isFirmware = false) : Unconcerned asks s (some t, out) := by
  refine ⟨hout, fun u hu => ?_⟩
  rw [← Option.some.inj hu]
  exact h

/-- What holds from a state that differs elsewhere only. -/
theorem Unconcerned.of_keeps {r : Option QmTcb × List QmOut} (h : KeepsDownload asks s t)
    (hr : Unconcerned asks t r) : Unconcerned asks s r :=
  ⟨hr.out, fun u hu => h.trans (hr.next u hu)⟩

theorem Unconcerned.andThen {r : Option QmTcb × List QmOut} {f : QmTcb → Option QmTcb × List QmOut}
    (hr : Unconcerned asks s r) (hf : ∀ t, Unconcerned asks t (f t)) :
    Unconcerned asks s (andThen r f) := by
  obtain ⟨_ | t, out⟩ := r
  · exact hr
  · refine ⟨fun o ho => ?_, fun u hu => (hr.next t rfl).trans ((hf t).next u hu)⟩
    exact (List.mem_append.mp ho).elim (hr.out o) ((hf t).out o)

end Frame

section Handlers

variable {asks : Bool} (s : QmTcb)

theorem unconcerned_send_response (svc : EQmiService) (xactionid : UInt16) (env : SvcEnv) :
    Unconcerned asks s (qm_qmisvc_send_response s svc xactionid env) := by
  unfold qm_qmisvc_send_response
  split_ifs
  · exact unconcerned_some (.of_eq rfl rfl) (by simp)
  · exact unconcerned_some (.of_eq rfl rfl) (by simp [QmOut.isFirmware])
  · exact unconcerned_stopped (by simp [QmOut.isFirmware])

/-- The new path is the only change that a request for the firmware management service makes to
a download. -/
theorem unconcerned_qm_fms_handler (preq : List UInt8) (env : FmsEnv)
    (hasks : (preq.getD 0 0).toNat = 0 → asks = true) :
    Unconcerned asks s (qm_fms_handler s preq env) := by
  have hresp : ∀ {t}, KeepsDownload asks s t → Unconcerned asks s (fmsRespond t env) :=
    fun ht => Unconcerned.of_keeps ht (unconcerned_send_response _ _ _ _)
  have habort : Unconcerned asks s (none, [.erAbort]) :=
    unconcerned_stopped (by simp [QmOut.isFirmware])
  unfold qm_fms_handler
  split
  next h0 =>
    unfold qm_fms_set_image_path
    split_ifs
    · refine Unconcerned.andThen (hresp ⟨rfl, rfl, rfl, id, fun _ => .inr (hasks h0)⟩) fun t => ?_
      refine unconcerned_some (.of_eq rfl rfl) ?_
      split_ifs <;> simp [QmOut.isFirmware]
    · exact habort
  next =>
    unfold qm_fms_get_cwe_spkgs_info
    split_ifs
    · exact hresp (.of_eq rfl rfl)
    · exact habort
  next =>
    unfold qm_fms_get_mbn_info
    split_ifs
    · exact unconcerned_some (.of_eq rfl rfl) (by simp)
    · exact hresp (.of_eq rfl rfl)
    · exact habort
  next =>
    unfold qm_fms_enable_force_download
    split_ifs
    · exact hresp ⟨rfl, rfl, rfl, id, .inl⟩
    · exact hresp (.of_eq rfl rfl)
    · exact habort
  next => exact unconcerned_some (.of_eq rfl rfl) (by simp [qmshortresp, QmOut.isFirmware])

theorem keepsDownload_qmparser (instanceid : UInt8) (svc : EQmiService) (pmsg : List UInt8) :
    KeepsDownload asks s (qmparser s instanceid svc pmsg) := by
  have hstate : (qmparser s instanceid svc pmsg).qmidevicestate = s.qmidevicestate := by
    rw [qmparser_frame]
  cases svc with
  | wds =>
      apply KeepsDownload.of_eq hstate
      simp only [qmparser, qmparserwds, psrwds_setipfamily]
      split_ifs <;> rfl
  | dms =>
      simp only [qmparser, qmparserdms]
      split_ifs
      · exact ⟨rfl, rfl, rfl, fun _ => rfl, .inl⟩
      · exact .of_eq rfl rfl
  | _ => exact .of_eq rfl rfl

theorem unconcerned_qmprepareopen (parms : AmQmiRrParms) (inbuf : List UInt8) (ipcchan : UInt8)
    (client : QmiClient) (sendOk : Bool) :
    Unconcerned asks s (qmfinish (qmprepareopen s parms inbuf ipcchan client) sendOk) := by
  rcases @qmprepareopen_eq s parms inbuf ipcchan client with hstop | ⟨m, hbuild, hsend⟩
  · rw [hstop]
    exact unconcerned_stopped (by simp [QmOut.isFirmware])
  · rw [hsend]
    obtain ⟨-, htcb, -⟩ := qmbuildmdmreq_eq_some hbuild
    have hstate : m.tcb.qmidevicestate = s.qmidevicestate := by
      rw [htcb]
      rfl
    have hfms : m.tcb.fms_data = s.fms_data := by
      rw [htcb]
      rfl
    have hset : ∀ t : QmTcb, ∀ pool, KeepsDownload asks t (setSizedPool t m.msglen pool) := by
      intro t pool
      unfold setSizedPool
      split_ifs <;> exact .of_eq rfl rfl
    simp only [qmfinish, qmsendmdmreq, List.nil_append]
    cases sendOk with
    | true =>
        simp only [if_true]
        split
        · exact unconcerned_stopped (by simp [QmOut.isFirmware])
        · exact unconcerned_some ((KeepsDownload.of_eq hstate hfms).trans (hset _ _))
            (by simp [QmOut.isFirmware])
    | false =>
        simp only [Bool.false_eq_true, if_false]
        split
        · exact unconcerned_stopped (by simp [qmshortresp, QmOut.isFirmware])
        · refine unconcerned_some (.trans (.of_eq ?_ ?_) (hset _ _))
            (by simp [qmshortresp, QmOut.isFirmware])
          · exact hstate
          · exact hfms

/-- A request of an application. -/
theorem unconcerned_qmqmireq (packet : List UInt8) (ipcchan : UInt8) (env : ReqEnv) :
    Unconcerned (setsImagePath packet) s (qmqmireq s packet ipcchan env) := by
  generalize hasks : setsImagePath packet = asks
  have hout : ∀ {o : QmOut}, o.isFirmware = false → ∀ o' ∈ [o], o'.isFirmware = false := by
    intro o ho o' ho'
    rw [List.mem_singleton.mp ho']
    exact ho
  generalize ht : { s with qmipcchannel := ipcchan } = t
  have hkeep : KeepsDownload asks s t := by
    rw [← ht]
    exact .of_eq rfl rfl
  apply qmqmireq_rule ht rfl rfl
  · exact fun rc _ _ => .of_keeps hkeep (unconcerned_some (.of_eq rfl rfl) (hout rfl))
  · exact fun _ => unconcerned_stopped (hout rfl)
  · intro _ _ _
    apply Unconcerned.of_keeps hkeep
    unfold qmsenddcsreq
    split_ifs
    · exact unconcerned_some (.of_eq rfl rfl) (hout rfl)
    · exact unconcerned_stopped (hout rfl)
  · intro _ _ hfms
    have hrec : KeepsDownload asks t (recorded t (amparseqmixactionheader packet) ipcchan) :=
      .of_eq rfl rfl
    apply Unconcerned.of_keeps (hkeep.trans hrec)
    apply unconcerned_qm_fms_handler
    intro h0
    rw [← hasks, setsImagePath]
    simp only [hfms, h0, decide_true, Bool.and_self]
  · intro _ _ _
    generalize hparms : amparseqmixactionheader packet = parms
    generalize hp : qmparser t parms.qmiinstanceid (.ofCode parms.amqmisvctype)
      (packet.drop amQmiRrnSz) = p
    have hparsed : KeepsDownload asks s p := by
      rw [← hp]
      exact hkeep.trans (keepsDownload_qmparser t _ _ _)
    apply qmpreparemdmreq_rule hp rfl
    · exact fun _ => .of_keeps hparsed (unconcerned_qmprepareopen p _ _ _ _ _)
    · intro _ _ _
      refine .of_keeps hparsed (.andThen (unconcerned_some (.of_eq rfl rfl) (hout rfl)) ?_)
      exact fun u => unconcerned_qmprepareopen u _ _ _ _ _
    · exact fun _ _ _ => unconcerned_stopped (hout rfl)
    · intro _ _
      exact .of_keeps hparsed (unconcerned_some (.of_eq rfl rfl) (by simp [QmOut.isFirmware]))

/-- A packet from the modem. -/
theorem unconcerned_qmrxpkt (instanceid : UInt8) (qmpacket : List UInt8) (client : QmiClient) :
    Unconcerned asks s (qmrxpkt s instanceid qmpacket client) := by
  unfold qmrxpkt
  split_ifs
  · simp only [qmqmirsp, qmvalidateresponse]
    split_ifs
    all_goals exact unconcerned_some (.of_eq rfl rfl) (by simp [QmOut.isFirmware])
  · exact unconcerned_stopped (by simp [QmOut.isFirmware])

theorem unconcerned_startupApiClient (action : UInt8) (srv : QmiClient) (regOk : QmiClient → Bool) :
    Unconcerned asks s (startupApiClient s action srv regOk) := by
  simp only [startupApiClient, qmregister4qmisvc, qmiclientreset]
  split_ifs
  all_goals first
    | exact unconcerned_some (.of_eq rfl rfl) (by simp [QmOut.isFirmware])
    | exact unconcerned_stopped (by simp [QmOut.isFirmware])

theorem unconcerned_startupApiLoop (action mask : UInt8) (regOk : QmiClient → Bool) (count : ℕ) :
    Unconcerned asks s (startupApiLoop action mask regOk count s) := by
  induction count generalizing s with
  | zero => exact unconcerned_some (.of_eq rfl rfl) (by simp)
  | succ count ih =>
      unfold startupApiLoop
      split
      · exact unconcerned_stopped (by simp)
      · exact (unconcerned_startupApiClient s action _ regOk).andThen ih

/-- The next request for the device connectivity service. -/
theorem unconcerned_qmdcstask (env : DcsEnv) : Unconcerned asks s (qmdcstask s env) := by
  unfold qmdcstask
  split
  · exact unconcerned_some (.of_eq rfl rfl) (by simp)
  next evt rest _ =>
    refine .of_keeps (KeepsDownload.of_eq rfl rfl : KeepsDownload asks s
      { s with qmdcsicmsgque := rest }) ?_
    generalize { s with qmdcsicmsgque := rest } = t
    have hresp : ∀ u, Unconcerned asks u (dcsRespond u evt env) :=
      fun u => unconcerned_send_response u _ _ _
    apply qm_dcs_handler_rule
    · exact fun _ => unconcerned_stopped (by simp [QmOut.isFirmware])
    · exact fun _ _ => unconcerned_stopped (by simp)
    · exact fun _ _ => unconcerned_some (.of_eq rfl rfl) (by simp [QmOut.isFirmware])
    · intro _ apps
      have happs : KeepsDownload asks t { t with qmappInfo := apps } := .of_eq rfl rfl
      exact .of_keeps happs (hresp _)
    · intro _
      have hclear : KeepsDownload asks t (qmclearrespinfo t) := .of_eq rfl rfl
      exact .of_keeps hclear (hresp _)
    · refine (hresp t).andThen fun u => ?_
      obtain ⟨apps, hnone | hall⟩ := qmdisconnect_eq u evt.qmdcsevtipcchan
      · simp only [hnone]
        exact unconcerned_some (.of_eq rfl rfl) (by simp)
      · simp only [hall]
        refine unconcerned_some (.of_eq rfl rfl) fun o ho => ?_
        obtain ⟨c, -, rfl⟩ := List.mem_map.mp ho
        rfl
    · intro _ _
      refine Unconcerned.andThen ?_ hresp
      unfold qm_register_startup_api_clients
      split_ifs
      · exact unconcerned_startupApiLoop t _ _ _ _
      · exact unconcerned_some (.of_eq rfl rfl) (by simp)

end Handlers

end Qm

end SierraSdk
