import SierraSdk.Sdk.AmTask
import SierraSdk.Sdk.FirmwareControl
import SierraSdk.Sdk.HpphRuns

/-!
# Who is owed a response

A request that was dispatched waits in the queue of the CnS task or of the packet handler task, or
is the one that the task has sent to the modem and waits for, with a timer: `CnTask.owed` and
`HpTask.owed` are the channels of these requests. A round of a task answers one of them at most,
and the others stay (`CnTask.round`, `HpTask.round`), as long as the message that it takes is
regular.

The device information facility forces a response on every channel when it turns a request down,
runs out of time or gets a bad response, so that these are not regular.
-/

namespace SierraSdk

namespace Sdk

namespace AmIpc

open Machine

section Definitions

/-- The channel that the response to a request goes to. -/
def CnInput.reqchannel : CnInput → Option ℕ
  | .ipcMsg packet => some (amparsecnsrequest packet).amcnsparameter.toUInt8.toNat
  | _ => none

/-- The channels that the CnS task owes a response. -/
def CnTask.owed (t : CnTask) : List ℕ :=
  (if t.cnrrtcb.cnswdata.cnsbusy then [t.cnrrtcb.cnswdata.cnsipcchannel.toNat] else []) ++
    t.cnicmsgque.filterMap CnInput.reqchannel

/-- The timer runs while a request is outstanding, and the requests in the queue have an operation
of a request. -/
structure CnTask.Waits (t : CnTask) : Prop where
  timed : t.cnrrtcb.cnswdata.cnsbusy = true ↔ t.cnrrtcb.cnmdmwaittmr ≠ 0
  valid : ∀ packet, CnInput.ipcMsg packet ∈ t.cnicmsgque →
    cnsExpectedOp (amparsecnsrequest packet).amcnsoperation ≠ none

/-- A packet of the modem that validates has the channel of the outstanding request for its
parameter. -/
def CnTask.Regular (s : CnRrTcb) : CnInput → Prop
  | .hpMsg cnshdr =>
      (cnsValidateResponse s (cnsParseHeader cnshdr).cnsobjid
          (cnsParseHeader cnshdr).cnsoperation).2 = true →
        (cnsParseHeader cnshdr).cnsparameter.toUInt8 = s.cnswdata.cnsipcchannel
  | _ => True

/-- The messages of the firmware download. -/
def HpMsg.fw : HpMsg → Option HpphEvent
  | .am (.fwdwnreq packet) => some (.fwdwnreq packet)
  | .mdm (.fwdwncb hipmsg) => some (.fwdwncb hipmsg)
  | .mdm (.modemstatecb online apprunning) => some (.modemstatecb online apprunning)
  | .tick => some .tick
  | _ => none

/-- The channel of a request other than for a download. -/
def HpMsg.reqchannel : HpMsg → Option ℕ
  | .am (.airreq _ ipcchannel) => some ipcchannel.1
  | .am (.portreq ipcchannel) => some ipcchannel.1
  | .am (.dirreq _ _ ipcchannel) => some ipcchannel.1
  | _ => none

/-- The firmware download of the packet handler task. -/
def HpTask.fwtask (t : HpTask) : FwTask := ⟨t.hpgcb, t.hpphicmsgque.filterMap HpMsg.fw⟩

/-- The channels of the device request that is outstanding. -/
def devicechannels (devinfo : Hpph.HpDevInfo) : List ℕ :=
  devinfo.hpdevamchan.filter (· ≠ Hpph.ciInvIpcChan)

/-- The channels that the packet handler task owes a response. -/
def HpTask.owed (t : HpTask) : List ℕ :=
  t.fwtask.outstanding ++ (devicechannels t.hpphcb.hpphdevinfo ++
    t.hpphicmsgque.filterMap HpMsg.reqchannel)

/-- The timer does not run between continue requests. -/
def Untimed (s : HpBlk) : Prop := s.amfwdwnstate = .dwn → s.hptimeron = false

/-- A download that runs has its timer running, except between continue requests. -/
structure LiveTask (t : FwTask) : Prop where
  control : Control t
  timed : t.hpgcb.amfwdwnstate ≠ .done → t.hpgcb.amfwdwnstate ≠ .dwn → t.hpgcb.hptimeron = true
  untimed : Untimed t.hpgcb

structure HpTask.Waits (t : HpTask) : Prop where
  fw : LiveTask t.fwtask
  dev : Hpph.DevInv t.hpphcb.hpphdevinfo
  clearing : t.hpclearing ≠ some ciMaxIpcChan

/-- The image of a download request is not divided by zero. A device request finds no other one
outstanding, no loopback and a device of the unified product id, and its response has no error; its
timer does not run out. A loopback request that is turned down has a callback. -/
def HpTask.Regular (t : HpTask) (ans : HpAnswer) : HpMsg → Prop
  | .am (.fwdwnreq packet) => Divides ans.os (amparsefwdwnrequest packet)
  | .am (.dirreq ..) | .mdm (.dirreq ..) =>
      t.hpphcb.hpphdevinfo.hpdevbusy = false ∧ t.hpphcb.hpphloopcb.hploopbusy = false ∧
        ans.unifiedpid = true
  | .mdm (.dirresp hipevt) => hipevt.hppherrorflg = false
  | .mdm (.loopreq lbevt) =>
      t.hpphcb.hpphloopcb.hploopbusy = true → lbevt.hplbrescbfp.function.isSome
  | .tick => t.hpphcb.hpphdevinfo.hpphdevtimer ≠ 1
  | _ => True

end Definitions

section Cns

variable {s : CnRrTcb} {rest : List CnInput}

/-- Only requests are counted in the queue. -/
theorem owed_cons_other {msg : CnInput} (hmsg : CnInput.reqchannel msg = none) :
    CnTask.owed ⟨s, msg :: rest⟩ = CnTask.owed ⟨s, rest⟩ := by
  rw [CnTask.owed, CnTask.owed, List.filterMap_cons_none hmsg]

theorem owed_cons_request {packet : List UInt8} :
    CnTask.owed ⟨s, .ipcMsg packet :: rest⟩ =
      (if s.cnswdata.cnsbusy then [s.cnswdata.cnsipcchannel.toNat] else []) ++
        (amparsecnsrequest packet).amcnsparameter.toUInt8.toNat ::
          rest.filterMap CnInput.reqchannel := rfl

theorem CnTask.Waits.tail {msg : CnInput} (h : CnTask.Waits ⟨s, msg :: rest⟩) :
    CnTask.Waits ⟨s, rest⟩ :=
  ⟨h.timed, fun packet hmem => h.valid packet (List.mem_cons_of_mem _ hmem)⟩

/-- The outstanding request is answered and forgotten. -/
theorem CnTask.Waits.cleared (h : CnTask.Waits ⟨s, rest⟩) (hbusy : s.cnswdata.cnsbusy = true) :
    CnTask.Waits ⟨cnsClearRespInfo, rest⟩ ∧
      [s.cnswdata.cnsipcchannel.toNat] ++ CnTask.owed ⟨cnsClearRespInfo, rest⟩ =
        CnTask.owed ⟨s, rest⟩ := by
  refine ⟨⟨⟨fun h => Bool.noConfusion h, fun h => absurd rfl h⟩, h.valid⟩, ?_⟩
  rw [CnTask.owed, CnTask.owed, if_pos hbusy]
  rfl

/-- A request is sent to the modem when none is outstanding. -/
theorem CnTask.Waits.request {packet : List UInt8}
    (h : CnTask.Waits ⟨s, .ipcMsg packet :: rest⟩)
    (howed : (CnTask.owed ⟨s, .ipcMsg packet :: rest⟩).length ≤ 1) :
    ∃ s', (cncnsreq s packet).1 = some s' ∧ CnTask.Waits ⟨s', rest⟩ ∧
      answered ((cncnsreq s packet).2.map .cn) ++ CnTask.owed ⟨s', rest⟩ =
        CnTask.owed ⟨s, .ipcMsg packet :: rest⟩ := by
  have hidle : s.cnswdata.cnsbusy = false := by
    cases hbusy : s.cnswdata.cnsbusy with
    | false => rfl
    | true =>
        rw [owed_cons_request, hbusy] at howed
        simp only [if_true, List.length_append, List.length_cons] at howed
        omega
  obtain ⟨expectedop, hexpected⟩ :=
    Option.ne_none_iff_exists'.mp (h.valid packet List.mem_cons_self)
  unfold cncnsreq cnsSaveRespInfo
  simp only [hidle, hexpected, Bool.false_eq_true, if_false, Option.map_some]
  refine ⟨_, rfl, ⟨?_, h.tail.valid⟩, ?_⟩
  · simp only [true_iff]
    exact Nat.succ_ne_zero _
  · rw [owed_cons_request, hidle]
    rfl

/-- A round of the CnS task with a regular message. -/
theorem CnTask.round {msg : CnInput} (h : CnTask.Waits ⟨s, msg :: rest⟩)
    (howed : (CnTask.owed ⟨s, msg :: rest⟩).length ≤ 1) (hregular : CnTask.Regular s msg) :
    ∃ s', (cnrrdispatch s msg).1 = some s' ∧ CnTask.Waits ⟨s', rest⟩ ∧
      answered ((cnrrdispatch s msg).2.map .cn) ++ CnTask.owed ⟨s', rest⟩ =
        CnTask.owed ⟨s, msg :: rest⟩ := by
  cases msg with
  | ipcMsg packet => exact h.request howed
  | hpMsg cnshdr =>
      rw [owed_cons_other rfl]
      rw [CnTask.Regular, cnsValidateResponse] at hregular
      simp only [cnrrdispatch, cncnship_eq]
      by_cases hvalid : s.cnswdata.cnsbusy = true ∧
          s.cnswdata.cnsobjid = (cnsParseHeader cnshdr).cnsobjid ∧
            s.cnswdata.cnsoperation = (cnsParseHeader cnshdr).cnsoperation
      · rw [if_pos hvalid] at hregular ⊢
        obtain ⟨hwaits, howed⟩ := h.tail.cleared hvalid.1
        rw [← hregular rfl] at howed
        exact ⟨_, rfl, hwaits, howed⟩
      · rw [if_neg hvalid]
        exact ⟨s, rfl, h.tail, rfl⟩
  | tmrTick =>
      rw [owed_cons_other rfl]
      simp only [cnrrdispatch, cntick]
      split_ifs with hzero hlast
      · exact ⟨s, rfl, h.tail, rfl⟩
      · obtain ⟨hwaits, howed⟩ := h.tail.cleared (h.timed.mpr hzero)
        exact ⟨_, rfl, hwaits, howed⟩
      · exact ⟨_, rfl, ⟨⟨fun _ => hlast, fun _ => h.timed.mpr hzero⟩, h.tail.valid⟩, rfl⟩

end Cns

section Firmware

variable {os : OsAnswer} {s : HpBlk} {e : HpphEvent} {rest : List HpphEvent}

theorem untimed_of_ne_dwn (h : s.amfwdwnstate ≠ .dwn) : Untimed s := fun hdwn => absurd hdwn h

theorem hpreadchunk_timer {s' : HpBlk} {payload : List UInt8}
    (h : hpreadchunk os s = some (s', payload)) : s'.hptimeron = s.hptimeron := by
  rw [hpreadchunk] at h
  cases hfp : s.hpfp with
  | none =>
      rw [hfp] at h
      exact absurd h.symm (Option.some_ne_none _)
  | some image =>
      simp only [hfp, Option.ite_none_right_eq_some, Option.some.injEq, Prod.mk.injEq] at h
      obtain ⟨-, rfl, -⟩ := h
      rfl

/-- A continue request does not start the timer. -/
theorem untimed_hpsendcontreq {s' : HpBlk} (hoff : s.hptimeron = false)
    (h : (hpsendcontreq os s).1 = some s') : Untimed s' := by
  rw [hpsendcontreq] at h
  cases hread : hpreadchunk os s with
  | none =>
      rw [hread] at h
      have houtcome : Outcome True [.done] s s' _ := yields_hpstatefail .dwnErr [] s' h
      exact untimed_of_ne_dwn (houtcome.ne_dwn (by decide))
  | some p =>
      rw [hread] at h
      obtain rfl := Option.some.inj h
      exact fun _ => (hpreadchunk_timer hread).trans hoff

/-- The timer is stopped before a change of state. -/
theorem untimed_hptimerstop {s' : HpBlk} {newstate : FwState} (hpass : newstate.passes = false)
    {errorstring : List UInt8}
    (h : (hpstateupdate os newstate errorstring (hptimerstop s)).1 = some s') : Untimed s' := by
  by_cases hdwn : newstate = .dwn
  · subst hdwn
    exact untimed_hpsendcontreq rfl h
  · exact untimed_of_ne_dwn (ne_dwn_hpstateupdate hpass hdwn h)

/-- A message of the device. -/
theorem untimed_hpfwdwncbmsg {s' : HpBlk} {hipmsg : HpHipEvt} (hs : Untimed s)
    (h : (hpfwdwncbmsg os hipmsg s).1 = some s') : Untimed s' := by
  rw [hpfwdwncbmsg] at h
  split at h
  · rw [hpstatefwstartreq] at h
    split_ifs at h
    · exact untimed_hptimerstop rfl h
    · exact untimed_hptimerstop rfl h
    · exact untimed_hptimerstop rfl h
    · exact Option.some.inj h ▸ hs
  · rw [hpstatefwdownload] at h
    split_ifs at h
    · exact untimed_hptimerstop rfl h
    · exact untimed_hptimerstop rfl h
    · exact untimed_hptimerstop rfl h
    · exact Option.some.inj h ▸ hs
  · rw [hpstatefwchksum] at h
    split_ifs at h
    · exact untimed_hptimerstop rfl h
    · exact untimed_hptimerstop rfl h
    · obtain ⟨s₁, -, h₁, -⟩ := andThen_some h
      exact untimed_of_ne_dwn (ne_dwn_hpstateupdate rfl (by decide) h₁)
    · exact Option.some.inj h ▸ hs
  · rw [hpstatefwflash] at h
    split_ifs at h
    · exact untimed_hptimerstop rfl h
    · exact untimed_hptimerstop rfl h
    · exact Option.some.inj h ▸ hs
  · exact Option.some.inj h ▸ hs

/-- No message but a request that is turned down lets the timer run between continue requests. -/
theorem untimed_hpphdispatch {s' : HpBlk} (hs : Untimed s) (he : e.isRequest = false)
    (h : (hpphdispatch os e s).1 = some s') : Untimed s' := by
  cases e with
  | fwdwnreq packet => exact Bool.noConfusion he
  | fwdwncb hipmsg => exact untimed_hpfwdwncbmsg hs h
  | modemstatecb online apprunning =>
      rw [hpphdispatch, hpmodestatechangemsg, hpstatesoftreset] at h
      split_ifs at h
      · exact Option.some.inj h ▸ hs
      · exact untimed_hptimerstop rfl h
      · exact untimed_hptimerstop rfl h
      · exact Option.some.inj h ▸ hs
      · exact untimed_of_ne_dwn (ne_dwn_hpstateupdate rfl (by decide) h)
      · exact Option.some.inj h ▸ hs
  | tick =>
      simp only [hpphdispatch, hpfwdwntimer] at h
      split_ifs at h
      · have houtcome : Outcome True [.done] _ s' _ := yields_hpamfwdwnresp .timeout [] s' h
        exact untimed_of_ne_dwn (houtcome.ne_dwn (by decide))
      · exact Option.some.inj h ▸ hs
      · exact Option.some.inj h ▸ hs

/-- A task whose download has changed its state. -/
theorem LiveTask.of_outcome {ok : Prop} {nexts : List FwState} {s' : HpBlk} {out : List FwOut}
    (h : Outcome ok nexts s s' out) (hchan : s.hpphipcchanrr ≠ ciMaxIpcChan)
    (hrest : rest.countP HpphEvent.isRequest = 0) (huntimed : Untimed s') : LiveTask ⟨s', rest⟩ :=
  ⟨h.control hchan hrest, fun hrun hdwn => ((h.waits hrun).2.2 hdwn).1, huntimed⟩

/-- The task takes a message that is no request. -/
theorem LiveTask.take_message (h : LiveTask ⟨s, e :: rest⟩) (he : e.isRequest = false) :
    ∃ s', (hpphdispatch os e s).1 = some s' ∧ LiveTask ⟨s', rest⟩ ∧
      Accounted ⟨s, e :: rest⟩ (.take os) ⟨s', rest⟩ (hpphdispatch os e s).2 := by
  have hsome : (hpphdispatch os e s).1 ≠ none := hpphdispatch_ne_none he
  obtain ⟨s', hs'⟩ := Option.ne_none_iff_exists'.mp hsome
  refine ⟨s', hs', ?_⟩
  have hcontrol := h.control.handled he hs'
  have huntimed := untimed_hpphdispatch h.untimed he hs'
  by_cases hdone : s.amfwdwnstate = .done
  · have hoff : s.hptimeron = false := by
      cases h.control with
      | idle _ hoff => exact hoff
      | asked _ hoff => exact hoff
      | runs hrun => exact absurd hdone hrun
    rw [hpphdispatch_done he hdone hoff] at hs' ⊢
    obtain rfl := Option.some.inj hs'
    exact ⟨⟨hcontrol, h.timed, huntimed⟩, List.append_nil _⟩
  · obtain ⟨hrest, hchan⟩ : rest.countP HpphEvent.isRequest = 0 ∧
        s.hpphipcchanrr ≠ ciMaxIpcChan := by
      have hcount : FwTask.asked ⟨s, e :: rest⟩ = rest.countP HpphEvent.isRequest :=
        List.countP_cons_of_neg (by rw [he]; exact Bool.false_ne_true)
      cases h.control with
      | idle h => exact absurd h hdone
      | asked h => exact absurd h hdone
      | runs _ hasked hchan => exact ⟨hcount ▸ hasked, hchan⟩
    have hhandled : Handled s (hpphdispatch os e s) := handled_hpphdispatch he
    generalize hpphdispatch os e s = r at hhandled hs'
    cases hhandled with
    | ignored =>
        obtain rfl := Option.some.inj hs'
        exact ⟨⟨hcontrol, h.timed, huntimed⟩, List.append_nil _⟩
    | ticked hon hleft =>
        obtain rfl := Option.some.inj hs'
        exact ⟨⟨hcontrol, fun _ _ => hon, huntimed⟩, List.append_nil _⟩
    | changed nexts h =>
        exact ⟨.of_outcome (h s' hs') hchan hrest huntimed, (h s' hs').accounted hchan⟩

/-- The task takes a request. -/
theorem LiveTask.take_request {packet : List UInt8}
    (h : LiveTask ⟨s, .fwdwnreq packet :: rest⟩)
    (hdivides : Divides os (amparsefwdwnrequest packet)) :
    ∃ s', (hpphdispatch os (.fwdwnreq packet) s).1 = some s' ∧ LiveTask ⟨s', rest⟩ ∧
      Accounted ⟨s, .fwdwnreq packet :: rest⟩ (.take os) ⟨s', rest⟩
        (hpphdispatch os (.fwdwnreq packet) s).2 := by
  obtain ⟨hdone, -, -, hchan, hrest⟩ := h.control.request
  have hyields : Yields (os.sizeok = true) [.softReset, .startReq, .done] s
      (hpphdispatch os (.fwdwnreq packet) s) := yields_hpamfwdwnreq packet hdone
  have hsome : (hpphdispatch os (.fwdwnreq packet) s).1 ≠ none := by
    rw [hpphdispatch, hpamfwdwnreq, if_neg (fun h => h hdone)]
    exact hpimageinit_ne_none hdivides
  obtain ⟨s', hs'⟩ := Option.ne_none_iff_exists'.mp hsome
  have huntimed := untimed_of_ne_dwn ((hyields s' hs').ne_dwn (by decide))
  exact ⟨s', hs', .of_outcome (hyields s' hs') hchan hrest huntimed,
    (hyields s' hs').accounted hchan⟩

end Firmware

section Info

variable {t : HpTask}

/-- The channels that responses of the facilities go to. -/
theorem answered_callLb (callback : Hpph.Callback) (resultcode : Hpph.HpphStatus)
    (runningapp : Bool) :
    answered ((Hpph.callLb callback resultcode runningapp).map .hpph) = [] := by
  rw [Hpph.callLb]
  split <;> rfl

theorem answered_callDev (callback : Hpph.Callback) (resultcode : Hpph.HpphStatus) :
    answered ((Hpph.callDev callback resultcode).map .hpph) = [] := by
  rw [Hpph.callDev]
  cases callback.function with
  | none => rfl
  | some function => rfl

theorem answered_hpsenddirresp (devinfo : Hpph.HpDevInfo) (resultcode : UInt8)
    (amdevinforr : Hpph.AmDevInfoParms) :
    answered ((Hpph.hpsenddirresp devinfo resultcode amdevinforr false).map .hpph) =
      devicechannels devinfo := by
  rw [Hpph.hpsenddirresp, if_neg Bool.false_ne_true, answered, List.map_map, List.filterMap_map]
  exact List.filterMap_some

theorem answered_append (out out' : List SdkOut) :
    answered (out ++ out') = answered out ++ answered out' := List.filterMap_append

theorem nullCall_notMem_callLb {callback : Hpph.Callback} (h : callback.function.isSome)
    (resultcode : Hpph.HpphStatus) (runningapp : Bool) :
    Hpph.HpphOut.nullCall ∉ Hpph.callLb callback resultcode runningapp := fun hmem =>
  Hpph.fine_callLb h resultcode runningapp _ hmem

theorem nullCall_notMem_callDev (callback : Hpph.Callback) (resultcode : Hpph.HpphStatus) :
    Hpph.HpphOut.nullCall ∉ Hpph.callDev callback resultcode := fun hmem =>
  Hpph.fine_callDev callback resultcode _ hmem

theorem nullCall_notMem_hpsenddirresp (devinfo : Hpph.HpDevInfo) (resultcode : UInt8)
    (amdevinforr : Hpph.AmDevInfoParms) (force_send : Bool) :
    Hpph.HpphOut.nullCall ∉ Hpph.hpsenddirresp devinfo resultcode amdevinforr force_send :=
  fun hmem => Hpph.fine_hpsenddirresp devinfo resultcode amdevinforr force_send _ hmem

/-- What a message of the facilities does: it answers these channels, and leaves a device request
for those. -/
structure Informs (s : Hpph.HpphCb) (e : Hpph.HpphEvent) (channels channels' : List ℕ) : Prop where
  called : Hpph.HpphOut.nullCall ∉ (Hpph.hpphtask s e).2
  answers : answered ((Hpph.hpphtask s e).2.map .hpph) = channels
  dev : Hpph.DevInv (Hpph.hpphtask s e).1.hpphdevinfo
  leaves : devicechannels (Hpph.hpphtask s e).1.hpphdevinfo = channels'

variable {s : Hpph.HpphCb}

theorem informs_loopReq (hdev : Hpph.DevInv s.hpphdevinfo) {lbevt : Hpph.HplbReqEvt}
    (hcallback : s.hpphloopcb.hploopbusy = true → lbevt.hplbrescbfp.function.isSome) :
    Informs s (.loopReq lbevt) [] (devicechannels s.hpphdevinfo) := by
  cases hbusy : s.hpphloopcb.hploopbusy with
  | true =>
      have hstep : (Hpph.hpphtask s (.loopReq lbevt)).2 =
          Hpph.callLb lbevt.hplbrescbfp .hplbbusy false := by
        simp only [Hpph.hpphtask, Hpph.hpphprocloopreq, hbusy, if_true]
      refine ⟨?_, ?_, hdev, rfl⟩
      · rw [hstep]
        exact nullCall_notMem_callLb (hcallback hbusy) _ _
      · rw [hstep, answered_callLb]
  | false =>
      have hstep : (Hpph.hpphtask s (.loopReq lbevt)).2 = [.hpTxPacket Hpph.hpLoopReq
          (lbevt.hpphdatap.takeD lbevt.hpphdatasize.toUInt16.toNat 0)] := by
        simp only [Hpph.hpphtask, Hpph.hpphprocloopreq, hbusy, Bool.false_eq_true, if_false]
      refine ⟨?_, ?_, hdev, rfl⟩
      · rw [hstep, List.mem_singleton]
        exact Hpph.HpphOut.noConfusion
      · rw [hstep]
        rfl

theorem informs_loopResp (hdev : Hpph.DevInv s.hpphdevinfo) (hipevt : Hpph.HpHipEvt) :
    Informs s (.loopResp hipevt) [] (devicechannels s.hpphdevinfo) := by
  cases hcallback : s.hpphloopcb.hplbrescbfp.function.isSome with
  | true =>
      obtain ⟨status, hstep⟩ : ∃ status, (Hpph.hpphtask s (.loopResp hipevt)).2 =
          Hpph.callLb s.hpphloopcb.hplbrescbfp status (hipevt.hpphmsgparm ≠ 0) := by
        simp only [Hpph.hpphtask, Hpph.hpphprocloopresp, hcallback, if_true]
        exact ⟨_, rfl⟩
      refine ⟨?_, ?_, hdev, rfl⟩
      · rw [hstep]
        exact nullCall_notMem_callLb hcallback _ _
      · rw [hstep, answered_callLb]
  | false =>
      have hstep : (Hpph.hpphtask s (.loopResp hipevt)).2 = [] := by
        simp only [Hpph.hpphtask, Hpph.hpphprocloopresp, hcallback, Bool.false_eq_true, if_false]
      refine ⟨?_, ?_, hdev, rfl⟩
      · rw [hstep]
        exact List.not_mem_nil
      · rw [hstep]
        rfl

/-- A device request that is sent to the modem leaves its channel. -/
theorem informs_dirReq (hdev : Hpph.DevInv s.hpphdevinfo)
    (hidle : s.hpphdevinfo.hpdevbusy = false) (hloop : s.hpphloopcb.hploopbusy = false)
    (devinfoevt : Hpph.HpphDevInfoEvt) :
    devicechannels s.hpphdevinfo = [] ∧
      Informs s (.dirReq true devinfoevt) []
        (devinfoevt.hpphdevinfoipcch.map AppChannel.channel).toList := by
  have hinvalid := (hdev.idle hidle).2
  have hchannels := Hpph.filter_saveChannel devinfoevt.hpphdevinfoipcch
  rw [← hinvalid] at hchannels
  have hstep := Hpph.hpprocdirreq_accepted hidle true devinfoevt
  simp only [if_true] at hstep
  constructor
  · rw [devicechannels, hinvalid]
    rfl
  · refine ⟨?_, ?_, ?_, ?_⟩
    · simp only [Hpph.hpphtask, hloop, hstep, List.mem_singleton]
      exact Hpph.HpphOut.noConfusion
    · simp only [Hpph.hpphtask, hloop, hstep]
      rfl
    · simp only [Hpph.hpphtask, hloop, hstep]
      exact ⟨fun h => Bool.noConfusion h, fun _ => Nat.succ_pos _, ⟨_, hchannels⟩⟩
    · simp only [Hpph.hpphtask, hloop, hstep]
      exact hchannels

/-- A response without an error answers the channels of the device request. -/
theorem informs_dirResp (stack : Hpph.AmDevInfoParms) {hipevt : Hpph.HpHipEvt}
    (herror : hipevt.hppherrorflg = false) :
    Informs s (.dirResp stack hipevt) (devicechannels s.hpphdevinfo) [] := by
  obtain ⟨airstate, copies, resultcode, amdevinforr, status, hstep, -, hcopies⟩ :=
    Hpph.hpprocdirresp_cases s stack hipevt
  rw [herror] at hstep
  have hcopied : Hpph.HpphOut.nullCall ∉ copies ∧ answered (copies.map .hpph) = [] := by
    rcases hcopies with rfl | ⟨-, rfl⟩
    · exact ⟨List.not_mem_nil, rfl⟩
    · exact ⟨by simp, rfl⟩
  refine ⟨?_, ?_, ?_, ?_⟩
  · simp only [Hpph.hpphtask, hstep, List.mem_append, not_or]
    exact ⟨⟨hcopied.1, nullCall_notMem_hpsenddirresp _ _ _ _⟩, nullCall_notMem_callDev _ _⟩
  · simp only [Hpph.hpphtask, hstep, List.map_append, answered_append, hcopied.2,
      answered_hpsenddirresp, answered_callDev, List.nil_append, List.append_nil]
  · simp only [Hpph.hpphtask, hstep]
    exact Hpph.devInv_hpdirclearreq
  · simp only [Hpph.hpphtask, hstep]
    rfl

/-- The task after a message of the facilities. -/
theorem Informs.dispatch {t : HpTask} {e : Hpph.HpphEvent} {channels channels' : List ℕ}
    (h : Informs t.hpphcb e channels channels') :
    hpinfodispatch t e = (some { t with hpphcb := (Hpph.hpphtask t.hpphcb e).1 },
      (Hpph.hpphtask t.hpphcb e).2.map .hpph) := by
  simp only [hpinfodispatch, if_neg h.called]

end Info

section Rounds

variable {t : HpTask} {ans : HpAnswer} {msg : HpMsg} {rest : List HpMsg}

/-- What a round does: the task goes on, and the channels that it owes a response are those that it
answers and those that are left. -/
def Round (t : HpTask) (r : Option HpTask × List SdkOut) : Prop :=
  ∃ t', r.1 = some t' ∧ t'.Waits ∧ (answered r.2 ++ t'.owed).Perm t.owed

theorem reqchannels_cons (msg : HpMsg) (rest : List HpMsg) :
    (msg :: rest).filterMap HpMsg.reqchannel =
      msg.reqchannel.toList ++ rest.filterMap HpMsg.reqchannel := by
  cases hmsg : msg.reqchannel with
  | none => rw [List.filterMap_cons_none hmsg, Option.toList_none, List.nil_append]
  | some c => rw [List.filterMap_cons_some hmsg, Option.toList_some, List.singleton_append]

/-- The part of the download does not change. -/
theorem fwtask_of_other {t t' : HpTask} (hqueue : t.hpphicmsgque = msg :: rest)
    (hfw : msg.fw = none) (hgcb : t'.hpgcb = t.hpgcb) (hqueue' : t'.hpphicmsgque = rest) :
    t'.fwtask = t.fwtask := by
  rw [HpTask.fwtask, HpTask.fwtask, hqueue, hqueue', hgcb, List.filterMap_cons_none hfw]

/-- A message of the facilities. -/
theorem Informs.round {e : Hpph.HpphEvent} {channels channels' : List ℕ}
    (h : Informs t.hpphcb e channels channels') (hwaits : t.Waits)
    (hqueue : t.hpphicmsgque = msg :: rest) (hfw : msg.fw = none)
    (howed : channels ++ channels' = devicechannels t.hpphcb.hpphdevinfo ++ msg.reqchannel.toList) :
    Round t (hpinfodispatch { t with hpphicmsgque := rest } e) := by
  have hdispatch := Informs.dispatch (t := { t with hpphicmsgque := rest }) h
  have hfwtask : HpTask.fwtask
      { t with hpphcb := (Hpph.hpphtask t.hpphcb e).1, hpphicmsgque := rest } = t.fwtask :=
    fwtask_of_other hqueue hfw rfl rfl
  rw [hdispatch]
  refine ⟨_, rfl, ⟨hfwtask ▸ hwaits.fw, h.dev, hwaits.clearing⟩, ?_⟩
  rw [h.answers, HpTask.owed, HpTask.owed, hfwtask, hqueue, reqchannels_cons, ← List.append_assoc
    (devicechannels t.hpphcb.hpphdevinfo), ← howed, List.append_assoc]
  simp only [h.leaves]
  exact List.perm_append_comm_assoc _ _ _

/-- A request that is answered at once. -/
theorem round_answer {o : SdkOut} {c : ℕ} (ho : o.respchannel = some c) (hwaits : t.Waits)
    (hqueue : t.hpphicmsgque = msg :: rest) (hfw : msg.fw = none)
    (hmsg : msg.reqchannel = some c) :
    Round t (some { t with hpphicmsgque := rest }, [o]) := by
  have hfwtask : HpTask.fwtask { t with hpphicmsgque := rest } = t.fwtask :=
    fwtask_of_other hqueue hfw rfl rfl
  refine ⟨_, rfl, ⟨hfwtask ▸ hwaits.fw, hwaits.dev, hwaits.clearing⟩, ?_⟩
  have hanswered : answered [o] = [c] := List.filterMap_cons_some ho
  rw [hanswered, HpTask.owed, HpTask.owed, hfwtask, hqueue, reqchannels_cons, hmsg]
  exact (List.perm_append_comm_assoc _ _ _).trans
    ((List.perm_append_comm_assoc _ _ _).append_left _)

/-- The responses of a download. -/
theorem answered_fw (out : List FwOut) : answered (out.map .fw) = responses out := by
  rw [answered, List.filterMap_map]
  rfl

/-- A message of the download, and perhaps something else that answers nothing. -/
theorem round_fw {e : HpphEvent} {hpphcb : Hpph.HpphCb} (hwaits : t.Waits)
    (hqueue : t.hpphicmsgque = msg :: rest) (hfw : msg.fw = some e)
    (hmsg : msg.reqchannel = none)
    (hdivides : ∀ packet, e = .fwdwnreq packet → Divides ans.os (amparsefwdwnrequest packet))
    (hdev : Hpph.DevInv hpphcb.hpphdevinfo)
    (hchannels : devicechannels hpphcb.hpphdevinfo = devicechannels t.hpphcb.hpphdevinfo) :
    Round t (hpfwdispatch ans.os { t with hpphcb := hpphcb, hpphicmsgque := rest } e) := by
  have hlive : LiveTask ⟨t.hpgcb, e :: rest.filterMap HpMsg.fw⟩ := by
    have h := hwaits.fw
    rw [HpTask.fwtask, hqueue, List.filterMap_cons_some hfw] at h
    exact h
  obtain ⟨s', hs', hlive', haccount⟩ : ∃ s', (hpphdispatch ans.os e t.hpgcb).1 = some s' ∧
      LiveTask ⟨s', rest.filterMap HpMsg.fw⟩ ∧
        Accounted ⟨t.hpgcb, e :: rest.filterMap HpMsg.fw⟩ (.take ans.os)
          ⟨s', rest.filterMap HpMsg.fw⟩ (hpphdispatch ans.os e t.hpgcb).2 := by
    cases he : e.isRequest with
    | false => exact hlive.take_message he
    | true =>
        cases e with
        | fwdwnreq packet => exact hlive.take_request (hdivides packet rfl)
        | fwdwncb hipmsg => exact Bool.noConfusion he
        | modemstatecb online apprunning => exact Bool.noConfusion he
        | tick => exact Bool.noConfusion he
  have howed : responses (hpphdispatch ans.os e t.hpgcb).2 ++
      FwTask.outstanding ⟨s', rest.filterMap HpMsg.fw⟩ = t.fwtask.outstanding :=
    haccount.symm.trans (List.append_nil _)
  -- only a channel that was taken is freed
  have hclearing : (if s'.hpphipcchanrr = t.hpgcb.hpphipcchanrr then none
      else some t.hpgcb.hpphipcchanrr) ≠ some ciMaxIpcChan := by
    split_ifs with hsame
    · exact (Option.some_ne_none _).symm
    · intro hfree
      rw [FwTask.outstanding, FwTask.outstanding, HpTask.fwtask,
        if_pos (Option.some.inj hfree), List.append_eq_nil_iff] at howed
      by_cases hfree' : s'.hpphipcchanrr = ciMaxIpcChan
      · exact hsame (hfree'.trans (Option.some.inj hfree).symm)
      · rw [if_neg hfree'] at howed
        exact absurd howed.2 (List.cons_ne_nil _ _)
  refine ⟨_, Option.map_eq_some_iff.mpr ⟨s', hs', rfl⟩, ⟨hlive', hdev, hclearing⟩, ?_⟩
  rw [HpTask.owed, HpTask.owed, hqueue, List.filterMap_cons_none hmsg, ← howed, hpfwdispatch,
    answered_fw, ← List.append_assoc, hchannels]
  exact .refl _

theorem answered_hplooptimer (hploopcb : Hpph.HpphLoopBk) :
    answered ((Hpph.hplooptimer hploopcb).2.map .hpph) = [] := by
  rw [Hpph.hplooptimer]
  split_ifs
  · exact answered_callLb _ _ _
  · rfl
  · rfl

/-- The timer of a device request that does not run out. -/
theorem hpdirtimer_regular {devinfo : Hpph.HpDevInfo} (hdev : Hpph.DevInv devinfo)
    (htimer : devinfo.hpphdevtimer ≠ 1) :
    (Hpph.hpdirtimer devinfo).2 = [] ∧ Hpph.DevInv (Hpph.hpdirtimer devinfo).1 ∧
      devicechannels (Hpph.hpdirtimer devinfo).1 = devicechannels devinfo := by
  by_cases hzero : devinfo.hpphdevtimer = 0
  · rw [Hpph.hpdirtimer_zero hzero]
    exact ⟨rfl, hdev, rfl⟩
  · have hrun : 1 < devinfo.hpphdevtimer := by omega
    rw [Hpph.hpdirtimer_running hrun]
    exact ⟨rfl, ⟨hdev.idle, fun _ => Nat.sub_pos_of_lt hrun, hdev.channels⟩, rfl⟩

/-- A tick: the timers of the facilities answer nothing. -/
theorem round_tick (hwaits : t.Waits) (hqueue : t.hpphicmsgque = .tick :: rest)
    (htimer : t.hpphcb.hpphdevinfo.hpphdevtimer ≠ 1) :
    Round t (hpphtick ans.os { t with hpphicmsgque := rest }) := by
  obtain ⟨hsilent, hdev, hchannels⟩ := hpdirtimer_regular hwaits.dev htimer
  have hround : Round t (hpfwdispatch ans.os { t with
      hpphcb := { t.hpphcb with
        hpphloopcb := (Hpph.hplooptimer t.hpphcb.hpphloopcb).1
        hpphdevinfo := (Hpph.hpdirtimer t.hpphcb.hpphdevinfo).1 }
      hpphicmsgque := rest } .tick) :=
    round_fw hwaits hqueue rfl rfl (fun _ heq => HpphEvent.noConfusion heq) hdev hchannels
  obtain ⟨t', ht', hwaits', howed⟩ := hround
  obtain ⟨hpgcb, hgcb, rfl⟩ := Option.map_eq_some_iff.mp ht'
  have hloop := answered_hplooptimer t.hpphcb.hpphloopcb
  refine ⟨_, ?_, hwaits', ?_⟩
  · simp only [hpphtick, hpfwdispatch, andThen, hgcb, Option.map_some]
  · rw [hpfwdispatch, answered_fw] at howed
    simp only [hpphtick, hpfwdispatch, andThen, hgcb, Option.map_some, answered_append, hloop,
      hsilent, answered_fw, List.map_nil, List.nil_append]
    rw [show answered [] = [] from rfl, List.append_nil]
    exact howed

/-- A round of the packet handler task with a regular message. -/
theorem HpTask.round (hwaits : t.Waits) (hqueue : t.hpphicmsgque = msg :: rest)
    (hregular : t.Regular ans msg) :
    Round t (hpmsgdispatch ans { t with hpphicmsgque := rest } msg) := by
  have hdev := hwaits.dev
  cases msg with
  | am msg =>
      cases msg with
      | fwdwnreq packet =>
          exact round_fw hwaits hqueue rfl rfl
            (fun packet' heq => HpphEvent.fwdwnreq.inj heq ▸ hregular) hdev rfl
      | airreq packet c =>
          refine round_answer ?_ hwaits hqueue rfl rfl
          rw [hpamairreq]
          simp only
          split_ifs <;> rfl
      | portreq c => exact round_answer rfl hwaits hqueue rfl rfl
      | dirreq version reqtype c =>
          obtain ⟨hidle, hloop, hunified⟩ := hregular
          obtain ⟨hnone, hinforms⟩ := informs_dirReq hdev hidle hloop
            ⟨⟨none, 0⟩, version, reqtype, some c⟩
          rw [hpmsgdispatch, hunified]
          exact hinforms.round hwaits hqueue rfl (by rw [hnone]; rfl)
  | mdm msg =>
      cases msg with
      | fwdwncb hipmsg =>
          exact round_fw hwaits hqueue rfl rfl (fun _ heq => HpphEvent.noConfusion heq) hdev rfl
      | modemstatecb online apprunning =>
          exact round_fw hwaits hqueue rfl rfl (fun _ heq => HpphEvent.noConfusion heq) hdev rfl
      | loopreq lbevt =>
          exact (informs_loopReq hdev hregular).round hwaits hqueue rfl (List.append_nil _).symm
      | loopresp hipevt =>
          exact (informs_loopResp hdev hipevt).round hwaits hqueue rfl (List.append_nil _).symm
      | dirreq hpdevcbfp version reqtype =>
          obtain ⟨hidle, hloop, hunified⟩ := hregular
          obtain ⟨hnone, hinforms⟩ := informs_dirReq hdev hidle hloop
            ⟨hpdevcbfp, version, reqtype, none⟩
          rw [hpmsgdispatch, hunified]
          exact hinforms.round hwaits hqueue rfl (by rw [hnone]; rfl)
      | dirresp hipevt =>
          exact (informs_dirResp ans.stack hregular).round hwaits hqueue rfl rfl
  | tick => exact round_tick hwaits hqueue hregular

end Rounds

section Posts

/-- A message is posted to the CnS task; a request has an operation of a request. -/
theorem CnTask.Waits.post {t : CnTask} (h : t.Waits) {msg : CnInput}
    (hvalid : ∀ packet, msg = .ipcMsg packet →
      cnsExpectedOp (amparsecnsrequest packet).amcnsoperation ≠ none) :
    CnTask.Waits { t with cnicmsgque := t.cnicmsgque ++ [msg] } ∧
      CnTask.owed { t with cnicmsgque := t.cnicmsgque ++ [msg] } =
        t.owed ++ (CnInput.reqchannel msg).toList := by
  refine ⟨⟨h.timed, fun packet hmem => ?_⟩, ?_⟩
  · rcases List.mem_append.mp hmem with hmem | hmem
    · exact h.valid packet hmem
    · exact hvalid packet (List.mem_singleton.mp hmem).symm
  · rw [CnTask.owed, CnTask.owed, List.filterMap_append, List.append_assoc]
    cases hmsg : CnInput.reqchannel msg with
    | none =>
        rw [List.filterMap_cons_none hmsg]
        rfl
    | some c =>
        rw [List.filterMap_cons_some hmsg]
        rfl

variable {t : HpTask}

theorem LiveTask.post {t : FwTask} (h : LiveTask t) {e : HpphEvent} (he : e.isRequest = false) :
    LiveTask (t.post e) := ⟨h.control.post he, h.timed, h.untimed⟩

/-- A message other than a download request is posted to the packet handler task. -/
theorem HpTask.Waits.post (h : t.Waits) {msg : HpMsg}
    (hmsg : ∀ packet, msg ≠ .am (.fwdwnreq packet)) :
    HpTask.Waits { t with hpphicmsgque := t.hpphicmsgque ++ [msg] } ∧
      HpTask.owed { t with hpphicmsgque := t.hpphicmsgque ++ [msg] } =
        t.owed ++ msg.reqchannel.toList := by
  have hlive : LiveTask
      (HpTask.fwtask { t with hpphicmsgque := t.hpphicmsgque ++ [msg] }) := by
    rw [HpTask.fwtask, List.filterMap_append]
    cases hfw : msg.fw with
    | none =>
        rw [List.filterMap_cons_none hfw, List.filterMap_nil, List.append_nil]
        exact h.fw
    | some e =>
        rw [List.filterMap_cons_some hfw]
        refine h.fw.post ?_
        cases msg with
        | am msg =>
            cases msg with
            | fwdwnreq packet => exact absurd rfl (hmsg packet)
            | _ => cases hfw
        | mdm msg => cases msg <;> cases hfw <;> rfl
        | tick => cases hfw; rfl
  refine ⟨⟨hlive, h.dev, h.clearing⟩, ?_⟩
  rw [HpTask.owed, HpTask.owed, List.filterMap_append, reqchannels_cons, List.filterMap_nil,
    List.append_nil, ← List.append_assoc (devicechannels _), ← List.append_assoc]
  rfl

/-- A download request takes the free channel. -/
theorem HpTask.Waits.download (h : t.Waits) (hfree : t.hpphipcchanrr = ciMaxIpcChan)
    (packet : List UInt8) (c : AppChannel) :
    HpTask.Waits { t with
        hpgcb.hpphipcchanrr := c.1
        hpphicmsgque := t.hpphicmsgque ++ [.am (.fwdwnreq packet)] } ∧
      HpTask.owed { t with
          hpgcb.hpphipcchanrr := c.1
          hpphicmsgque := t.hpphicmsgque ++ [.am (.fwdwnreq packet)] } = c.1 :: t.owed := by
  have hchan : t.hpgcb.hpphipcchanrr = ciMaxIpcChan := by
    rw [HpTask.hpphipcchanrr] at hfree
    cases hclearing : t.hpclearing with
    | none => rwa [hclearing] at hfree
    | some c' =>
        rw [hclearing] at hfree
        exact absurd (hclearing.trans (congrArg some hfree)) h.clearing
  have hpost : HpTask.fwtask { t with
      hpgcb.hpphipcchanrr := c.1
      hpphicmsgque := t.hpphicmsgque ++ [.am (.fwdwnreq packet)] } =
        Sdk.hpsendfwdwnrr c.1 packet t.fwtask := by
    have htask : t.fwtask.hpgcb.hpphipcchanrr = ciMaxIpcChan := hchan
    rw [Sdk.hpsendfwdwnrr, if_pos htask, HpTask.fwtask, List.filterMap_append]
    rfl
  refine ⟨⟨⟨?_, h.fw.timed, h.fw.untimed⟩, h.dev, h.clearing⟩, ?_⟩
  · rw [hpost]
    exact h.fw.control.hpsendfwdwnrr c packet
  · have hnone : t.fwtask.outstanding = [] := if_pos hchan
    have hone : FwTask.outstanding (HpTask.fwtask { t with
        hpgcb.hpphipcchanrr := c.1
        hpphicmsgque := t.hpphicmsgque ++ [.am (.fwdwnreq packet)] }) = [c.1] :=
      if_neg c.ne_ciMaxIpcChan
    rw [HpTask.owed, HpTask.owed, hnone, hone, List.filterMap_append, reqchannels_cons,
      List.filterMap_nil]
    simp only [HpMsg.reqchannel, Option.toList_none, List.nil_append, List.append_nil,
      List.singleton_append]

end Posts

end AmIpc

end Sdk

end SierraSdk
