import SierraSdk.Library.Facility
import SierraSdk.Sdk.HpphTask

/-!
# Runs of the HPPH task

The loopback requests and the device information requests are served by two facilities of the task,
`loopFacility` and `devFacility`.

A loopback request without a callback that runs out of time leaves its facility busy with no timer.
A device request that is turned down because another one is outstanding clears that one, and for a
device without the unified product id the callback of a request is not called. The length of a
product string is not checked. `hpphServed_of_handled` says that nothing else goes wrong.
-/

namespace SierraSdk

namespace Sdk

namespace Hpph

open Machine Facilities

section Definitions

/-- The loopback callbacks that are told of an end. -/
def lbEndings (out : List HpphOut) : List (ℕ × ℕ) :=
  out.filterMap fun
    | .lbCallback function resultcode _ userp =>
        if resultcode = .hplbbusy then none else some (function, userp)
    | _ => none

/-- The device callbacks that are told of an end. -/
def devEndings (out : List HpphOut) : List (ℕ × ℕ) :=
  out.filterMap fun
    | .devCallback function resultcode userp =>
        if resultcode = .hpdirbusy then none else some (function, userp)
    | _ => none

/-- How many responses are sent on a channel. -/
def sentOn (channel : ℕ) (out : List HpphOut) : ℕ :=
  out.countP fun
    | .amsdkSend _ _ c => c = channel
    | _ => false

/-- The call that a callback is due. -/
def Callback.calls (callback : Callback) : List (ℕ × ℕ) :=
  callback.function.toList.map (·, callback.userp)

def HpphEvent.isTick : HpphEvent → Bool
  | .tick => true
  | _ => false

/-- The facility for loopback requests. -/
def loopFacility : Facility HpphCb HpphEvent HpphOut Callback where
  outstanding s := if s.hpphloopcb.hploopbusy then some s.hpphloopcb.hplbrescbfp else none
  timer s := s.hpphloopcb.hpphlbtimer
  limit := timerTicks hpLbTimeout
  accepts _
    | .loopReq lbevt => some lbevt.hplbrescbfp
    | _ => none
  answers
    | .loopResp _ => True
    | _ => False
  ticks := HpphEvent.isTick
  silent out := lbEndings out = []
  untold _ out := lbEndings out = []
  told callback out := lbEndings out = callback.calls

/-- Who made a device request: a callback and channels. -/
structure DevRequester where
  callback : Callback
  channels : List ℕ

/-- The facility for device information requests, which accepts none during a loopback. -/
def devFacility : Facility HpphCb HpphEvent HpphOut DevRequester where
  outstanding s :=
    if s.hpphdevinfo.hpdevbusy then
      some ⟨s.hpphdevinfo.hpdevcbfp, s.hpphdevinfo.hpdevamchan.filter (· ≠ ciInvIpcChan)⟩
    else none
  timer s := s.hpphdevinfo.hpphdevtimer
  limit := timerTicks hpDirTimeout
  accepts s
    | .dirReq _ devinfoevt =>
        if s.hpphloopcb.hploopbusy then none
        else some ⟨devinfoevt.hpdevcbfp,
          (devinfoevt.hpphdevinfoipcch.map AppChannel.channel).toList⟩
    | _ => none
  answers
    | .dirResp _ _ => True
    | _ => False
  ticks := HpphEvent.isTick
  silent out := devEndings out = []
  untold requester out := devEndings out = [] ∧ ∀ c ∈ requester.channels, sentOn c out = 0
  told requester out :=
    devEndings out = requester.callback.calls ∧ ∀ c ∈ requester.channels, sentOn c out = 1

/-- The null pointer is not called, and what is copied to a string fits in it. -/
def HpphOut.Fine : HpphOut → Prop
  | .nullCall => False
  | .copied string count => count ≤ string.size
  | _ => True

/-- In a run both facilities serve their requests, and what is done is fine. -/
structure HpphServed (events : List HpphEvent) : Prop where
  loop : loopFacility.Served hpphtask hpphinit events
  dev : devFacility.Served hpphtask hpphinit events
  fine : ∀ o ∈ outputs hpphtask hpphinit events, o.Fine

/-- A response has a product string that is stored. -/
def HpHipEvt.StoresString (hipevt : HpHipEvt) : Prop :=
  hipevt.hppherrorflg = false ∧
    (hpdesignator2msgid hipevt.hpphmsgdesignator).1 = HipDirection.forward.maxMsgId ∧
      hipevt.hpphdatap.getD 2 0 = 0 ∧ hipevt.hpphdatap.getD 3 0 = hpmDevReqPrdStr

/-- A loopback request has a callback, unless it is accepted and does not run out of time. A device
request comes when none is outstanding, and has no callback if it is accepted for a device without
the unified product id. A product string has at most sixteen bytes. -/
def Handled (s : HpphCb) : HpphEvent → Prop
  | .loopReq lbevt =>
      s.hpphloopcb.hploopbusy = true → lbevt.hplbrescbfp.function.isSome
  | .loopResp _ => True
  | .dirReq unifiedpid devinfoevt =>
      s.hpphdevinfo.hpdevbusy = false ∧ (s.hpphloopcb.hploopbusy = false → unifiedpid = false →
        devinfoevt.hpdevcbfp.function = none)
  | .dirResp _ hipevt => hipevt.StoresString → (hipevt.hpphdatap.getD 4 0).toNat ≤ 16
  | .tick =>
      ¬ (s.hpphloopcb.hploopbusy = true ∧ s.hpphloopcb.hplbrescbfp.function = none ∧
        s.hpphloopcb.hpphlbtimer = 1)

instance (hipevt : HpHipEvt) : Decidable hipevt.StoresString :=
  inferInstanceAs (Decidable (_ ∧ _ ∧ _ ∧ _))

instance (s : HpphCb) : DecidablePred (Handled s)
  | .loopReq _ => inferInstanceAs (Decidable (_ → _))
  | .loopResp _ => inferInstanceAs (Decidable True)
  | .dirReq _ _ => inferInstanceAs (Decidable (_ ∧ (_ → _ → _)))
  | .dirResp _ _ => inferInstanceAs (Decidable (_ → _))
  | .tick => inferInstanceAs (Decidable (¬ _))

/-- Nothing of a loopback request is left when none is outstanding, and the timer runs when one
is. -/
structure LoopInv (hploopcb : HpphLoopBk) : Prop where
  idle : hploopcb.hploopbusy = false → hploopcb.hplbrescbfp.function = none
  busy : hploopcb.hploopbusy = true → 0 < hploopcb.hpphlbtimer

/-- The same of device requests, with the channels, which are those of the request. -/
structure DevInv (devinfo : HpDevInfo) : Prop where
  idle : devinfo.hpdevbusy = false → devinfo.hpdevcbfp.function = none ∧
    devinfo.hpdevamchan = List.replicate ciMaxCnRrPair ciInvIpcChan
  busy : devinfo.hpdevbusy = true → 0 < devinfo.hpphdevtimer
  channels : ∃ k : Option AppChannel, devinfo.hpdevamchan.filter (· ≠ ciInvIpcChan) =
    (k.map AppChannel.channel).toList

end Definitions

section Outputs

/-! What the outputs of the parts of the handlers tell. -/

theorem lbEndings_append (out out' : List HpphOut) :
    lbEndings (out ++ out') = lbEndings out ++ lbEndings out' := List.filterMap_append

theorem devEndings_append (out out' : List HpphOut) :
    devEndings (out ++ out') = devEndings out ++ devEndings out' := List.filterMap_append

theorem sentOn_append (channel : ℕ) (out out' : List HpphOut) :
    sentOn channel (out ++ out') = sentOn channel out + sentOn channel out' := List.countP_append

theorem Callback.calls_of_none {callback : Callback} (h : callback.function = none) :
    callback.calls = [] := by
  rw [Callback.calls, h]
  rfl

/-- A loopback callback is told of an end, if it is not one that is turned down. -/
theorem lbEndings_callLb (callback : Callback) (resultcode : HpphStatus) (runningapp : Bool) :
    lbEndings (callLb callback resultcode runningapp) =
      if resultcode = .hplbbusy then [] else callback.calls := by
  cases hfunction : callback.function with
  | none => simp [callLb, lbEndings, Callback.calls, hfunction]
  | some function =>
      by_cases hcode : resultcode = .hplbbusy
      · simp [callLb, lbEndings, hfunction, hcode]
      · simp [callLb, lbEndings, Callback.calls, hfunction, hcode]

theorem lbEndings_callDev (callback : Callback) (resultcode : HpphStatus) :
    lbEndings (callDev callback resultcode) = [] := by
  simp [callDev, lbEndings]

theorem lbEndings_hpsenddirresp (devinfo : HpDevInfo) (resultcode : UInt8)
    (amdevinforr : AmDevInfoParms) (force_send : Bool) :
    lbEndings (hpsenddirresp devinfo resultcode amdevinforr force_send) = [] := by
  simp [hpsenddirresp, lbEndings]

theorem devEndings_callLb (callback : Callback) (resultcode : HpphStatus) (runningapp : Bool) :
    devEndings (callLb callback resultcode runningapp) = [] := by
  cases hfunction : callback.function with
  | none => simp [callLb, devEndings, hfunction]
  | some function => simp [callLb, devEndings, hfunction]

theorem devEndings_callDev (callback : Callback) (resultcode : HpphStatus) :
    devEndings (callDev callback resultcode) =
      if resultcode = .hpdirbusy then [] else callback.calls := by
  cases hfunction : callback.function with
  | none => simp [callDev, devEndings, Callback.calls, hfunction]
  | some function =>
      by_cases hcode : resultcode = .hpdirbusy
      · simp [callDev, devEndings, hfunction, hcode]
      · simp [callDev, devEndings, Callback.calls, hfunction, hcode]

theorem devEndings_hpsenddirresp (devinfo : HpDevInfo) (resultcode : UInt8)
    (amdevinforr : AmDevInfoParms) (force_send : Bool) :
    devEndings (hpsenddirresp devinfo resultcode amdevinforr force_send) = [] := by
  simp [hpsenddirresp, devEndings]

theorem sentOn_callLb (channel : ℕ) (callback : Callback) (resultcode : HpphStatus)
    (runningapp : Bool) : sentOn channel (callLb callback resultcode runningapp) = 0 := by
  cases hfunction : callback.function with
  | none => simp [callLb, sentOn, hfunction]
  | some function => simp [callLb, sentOn, hfunction]

theorem sentOn_callDev (channel : ℕ) (callback : Callback) (resultcode : HpphStatus) :
    sentOn channel (callDev callback resultcode) = 0 := by
  simp [callDev, sentOn]

theorem sentOn_map (channel : ℕ) (resultcode : UInt8) (amdevinforr : AmDevInfoParms)
    (channels : List ℕ) :
    sentOn channel (channels.map (.amsdkSend resultcode amdevinforr)) = channels.count channel := by
  rw [sentOn, List.countP_map, List.count]
  rfl

/-- All request channels are the ones that a response is forced on. -/
theorem hpsenddirresp_forced (devinfo : HpDevInfo) (resultcode : UInt8)
    (amdevinforr : AmDevInfoParms) :
    hpsenddirresp devinfo resultcode amdevinforr true =
      requestChannels.map (.amsdkSend resultcode amdevinforr) := by
  have hchannels : ((List.range ciMaxCnRrPair).map (cigetnextchannel · .cirr)).filter
      (· ≠ ciInvIpcChan) = requestChannels := by decide
  rw [hpsenddirresp, if_pos rfl, hchannels]

/-- Each channel that waits for a response is sent one. -/
theorem sentOn_hpsenddirresp {devinfo : HpDevInfo} (hinv : DevInv devinfo) (resultcode : UInt8)
    (amdevinforr : AmDevInfoParms) (force_send : Bool) {channel : ℕ}
    (hchannel : channel ∈ devinfo.hpdevamchan.filter (· ≠ ciInvIpcChan)) :
    sentOn channel (hpsenddirresp devinfo resultcode amdevinforr force_send) = 1 := by
  obtain ⟨k, hk⟩ := hinv.channels
  cases k with
  | none =>
      rw [hk] at hchannel
      exact absurd hchannel List.not_mem_nil
  | some k =>
      have hk : devinfo.hpdevamchan.filter (· ≠ ciInvIpcChan) = [k.channel] := hk
      rw [hk, List.mem_singleton] at hchannel
      cases force_send with
      | true =>
          have hnodup : requestChannels.Nodup := by decide
          rw [hpsenddirresp_forced, sentOn_map, hchannel]
          exact List.count_eq_one_of_mem hnodup k.mem
      | false =>
          rw [hpsenddirresp, if_neg Bool.false_ne_true, hk, sentOn_map, hchannel]
          exact List.count_singleton_self

end Outputs

section Handlers

/-! What each handler can do. -/

/-- A timer that does not run out. -/
theorem hplooptimer_running {hploopcb : HpphLoopBk} (h : 1 < hploopcb.hpphlbtimer) :
    hplooptimer hploopcb = ({ hploopcb with hpphlbtimer := hploopcb.hpphlbtimer - 1 }, []) := by
  have hpos : hploopcb.hpphlbtimer ≠ 0 := Nat.ne_of_gt (Nat.lt_of_succ_lt h)
  have hleft : hploopcb.hpphlbtimer - 1 ≠ 0 := Nat.sub_ne_zero_of_lt h
  rw [hplooptimer, if_pos hpos, if_neg fun hlast => hleft hlast.1]

/-- A timer that runs out for a request with a callback. -/
theorem hplooptimer_last {hploopcb : HpphLoopBk} (h : hploopcb.hpphlbtimer = 1)
    (hbusy : hploopcb.hploopbusy = true) (hcallback : hploopcb.hplbrescbfp.function.isSome) :
    hplooptimer hploopcb = (hplbclearreq, callLb hploopcb.hplbrescbfp .hptimeout false) := by
  rw [hplooptimer, h, if_pos Nat.one_ne_zero, if_pos ⟨rfl, hbusy, hcallback⟩]

/-- The timer does nothing for a facility that is idle. -/
theorem hplooptimer_idle {hploopcb : HpphLoopBk} (h : hploopcb.hploopbusy = false) :
    hplooptimer hploopcb = ({ hploopcb with hpphlbtimer := hploopcb.hpphlbtimer - 1 }, []) := by
  have hnot : ¬ (hploopcb.hpphlbtimer - 1 = 0 ∧ hploopcb.hploopbusy = true ∧
      hploopcb.hplbrescbfp.function.isSome = true) := fun hall => by simp [h] at hall
  rw [hplooptimer, if_neg hnot]
  split_ifs with hpos
  · rfl
  · rw [not_not] at hpos
    obtain ⟨timer, busy, size, callback⟩ := hploopcb
    cases hpos
    rfl

theorem hpdirtimer_running {devinfo : HpDevInfo} (h : 1 < devinfo.hpphdevtimer) :
    hpdirtimer devinfo = ({ devinfo with hpphdevtimer := devinfo.hpphdevtimer - 1 }, []) := by
  have hpos : devinfo.hpphdevtimer ≠ 0 := Nat.ne_of_gt (Nat.lt_of_succ_lt h)
  have hleft : devinfo.hpphdevtimer - 1 ≠ 0 := Nat.sub_ne_zero_of_lt h
  rw [hpdirtimer, if_pos hpos, if_neg hleft]

theorem hpdirtimer_last {devinfo : HpDevInfo} (h : devinfo.hpphdevtimer = 1) :
    hpdirtimer devinfo =
      (hpdirclearreq,
        (if devinfo.hpdevbusy then callDev devinfo.hpdevcbfp .hptimeout else []) ++
          hpsenddirresp devinfo AmResult.timeout amDevInfoFail true) := by
  rw [hpdirtimer, h, if_pos Nat.one_ne_zero, if_pos rfl]

theorem hpdirtimer_zero {devinfo : HpDevInfo} (h : devinfo.hpphdevtimer = 0) :
    hpdirtimer devinfo = (devinfo, []) := by
  rw [hpdirtimer, h, if_neg (not_not.mpr rfl)]

/-- Any response clears the device facility; it is forwarded, with an error to all channels, and the
callback is called. Copies are made of a product string. -/
theorem hpprocdirresp_cases (s : HpphCb) (stack : AmDevInfoParms) (hipevt : HpHipEvt) :
    ∃ airstate copies resultcode amdevinforr status,
      hpprocdirresp s stack hipevt =
          ({ s with hpphdevinfo := hpdirclearreq, hpphairstate := airstate },
            copies ++ hpsenddirresp s.hpphdevinfo resultcode amdevinforr hipevt.hppherrorflg ++
              callDev s.hpphdevinfo.hpdevcbfp status) ∧
        status ≠ .hpdirbusy ∧
          (copies = [] ∨ hipevt.StoresString ∧ copies =
            [.copied .hpairprodstr (hipevt.hpphdatap.getD 4 0).toNat,
              .copied .amdevprodstr (hipevt.hpphdatap.getD 4 0).toNat]) := by
  have hfailed : HpphStatus.hpfailed ≠ .hpdirbusy := HpphStatus.noConfusion
  have hok : HpphStatus.hpok ≠ .hpdirbusy := HpphStatus.noConfusion
  unfold hpprocdirresp
  cases herror : hipevt.hppherrorflg with
  | true =>
      rw [if_pos rfl]
      exact ⟨s.hpphairstate, [], amFailed, { stack with amdevreqstatus := hpDirGenFail },
        .hpfailed, rfl, hfailed, .inl rfl⟩
  | false =>
      rw [if_neg Bool.false_ne_true]
      by_cases hext : (hpdesignator2msgid hipevt.hpphmsgdesignator).1 = HipDirection.forward.maxMsgId
      · rw [if_pos hext]
        by_cases hstat : hipevt.hpphdatap.getD 2 0 = 0
        · rw [if_pos hstat]
          refine ⟨_, _, _, _, _, rfl, hok, ?_⟩
          by_cases hstring : hipevt.hpphdatap.getD 3 0 = hpmDevReqPrdStr
          · have htech : hpmDevReqPrdStr ≠ hpmDevReqTechTyp := by decide
            right
            refine ⟨⟨herror, hext, hstat, hstring⟩, ?_⟩
            rw [dirValue, hstring, if_neg htech, if_pos rfl]
          · left
            simp only [dirValue, if_neg hstring]
            split_ifs <;> rfl
        · rw [if_neg hstat]
          exact ⟨s.hpphairstate, [], amDevNotSup, _, .hpfailed, rfl, hfailed, .inl rfl⟩
      · rw [if_neg hext]
        exact ⟨s.hpphairstate, [], amFailed, stack, .hpfailed, rfl, hfailed, .inl rfl⟩

end Handlers

section Loopback

variable {s : HpphCb} {e : HpphEvent}

theorem loop_outstanding_of_busy (h : s.hpphloopcb.hploopbusy = true) :
    loopFacility.outstanding s = some s.hpphloopcb.hplbrescbfp := if_pos h

theorem loop_outstanding_of_idle (h : s.hpphloopcb.hploopbusy = false) :
    loopFacility.outstanding s = none := by
  simp only [loopFacility, h, Bool.false_eq_true, if_false]

theorem loop_timer_pos (hinv : LoopInv s.hpphloopcb) (h : loopFacility.outstanding s ≠ none) :
    0 < loopFacility.timer s := by
  apply hinv.busy
  by_contra hidle
  exact h (loop_outstanding_of_idle (Bool.not_eq_true _ ▸ hidle))

/-- What a loopback response tells, whether a request is outstanding or not. -/
theorem lbEndings_hpphprocloopresp (hploopcb : HpphLoopBk) (hipevt : HpHipEvt) :
    lbEndings (hpphprocloopresp hploopcb hipevt).2 = hploopcb.hplbrescbfp.calls := by
  rw [hpphprocloopresp]
  by_cases hcallback : hploopcb.hplbrescbfp.function.isSome = true
  · simp only [if_pos hcallback, lbEndings_callLb]
    split_ifs <;> first | rfl | contradiction
  · simp only [if_neg hcallback]
    exact (Callback.calls_of_none (Option.not_isSome_iff_eq_none.mp hcallback)).symm

theorem lbEndings_hpprocdirreq (busy : Bool) (devinfo : HpDevInfo) (unifiedpid : Bool)
    (devinfoevt : HpphDevInfoEvt) :
    lbEndings (hpprocdirreq busy devinfo unifiedpid devinfoevt).2 = [] := by
  rw [hpprocdirreq]
  split_ifs
  · exact lbEndings_hpsenddirresp _ _ _ _
  · rfl
  · rw [lbEndings_append, lbEndings_callDev, lbEndings_hpsenddirresp, List.nil_append]

theorem lbEndings_hpdirtimer (devinfo : HpDevInfo) : lbEndings (hpdirtimer devinfo).2 = [] := by
  rw [hpdirtimer]
  split_ifs
  · rw [lbEndings_append, lbEndings_callDev, lbEndings_hpsenddirresp, List.nil_append]
  · rw [List.nil_append, lbEndings_hpsenddirresp]
  · rfl
  · rfl

theorem loop_serves_loopReq (hinv : LoopInv s.hpphloopcb) (lbevt : HplbReqEvt) :
    loopFacility.Serves hpphtask s (.loopReq lbevt) := by
  cases hbusy : s.hpphloopcb.hploopbusy with
  | true =>
      have hstep : hpphtask s (.loopReq lbevt) =
          (s, callLb lbevt.hplbrescbfp .hplbbusy false) := by
        simp only [hpphtask, hpphprocloopreq, hbusy, if_true]
      have hs := loop_outstanding_of_busy hbusy
      refine Facility.serves_of_continues hs ⟨?_, ?_, ?_⟩ ?_
      · rw [hstep]
        exact hs
      · rw [hstep]
        rfl
      · rw [hstep]
        exact lbEndings_callLb _ _ _
      · rw [hstep]
        exact hinv.busy hbusy
  | false =>
      have hstep : hpphtask s (.loopReq lbevt) =
          ({ s with hpphloopcb :=
              ⟨timerTicks hpLbTimeout, true, lbevt.hpphdatasize.toUInt16, lbevt.hplbrescbfp⟩ },
            [.hpTxPacket hpLoopReq
              (lbevt.hpphdatap.takeD lbevt.hpphdatasize.toUInt16.toNat 0)]) := by
        simp only [hpphtask, hpphprocloopreq, hbusy, Bool.false_eq_true, if_false]
      refine Facility.serves_of_accepted (loop_outstanding_of_idle hbusy) rfl ?_ ?_
        (Nat.succ_pos _) ?_
      · rw [hstep]
        exact loop_outstanding_of_busy rfl
      · rw [hstep]
        rfl
      · rw [hstep]
        rfl

theorem loop_serves_loopResp (hinv : LoopInv s.hpphloopcb) (hipevt : HpHipEvt) :
    loopFacility.Serves hpphtask s (.loopResp hipevt) := by
  have hidle : loopFacility.outstanding (hpphtask s (.loopResp hipevt)).1 = none :=
    loop_outstanding_of_idle rfl
  have htold := lbEndings_hpphprocloopresp s.hpphloopcb hipevt
  cases hbusy : s.hpphloopcb.hploopbusy with
  | true =>
      exact Facility.serves_of_ends (loop_outstanding_of_busy hbusy) ⟨.inl trivial, hidle, htold⟩
  | false =>
      refine Facility.serves_of_idle (loop_outstanding_of_idle hbusy) rfl hidle ?_
      exact htold.trans (Callback.calls_of_none (hinv.idle hbusy))

theorem loop_serves_tick (hinv : LoopInv s.hpphloopcb) (hhandled : Handled s .tick) :
    loopFacility.Serves hpphtask s .tick := by
  have hout : lbEndings (hpphtask s .tick).2 = lbEndings (hplooptimer s.hpphloopcb).2 := by
    simp only [hpphtask, lbEndings_append, lbEndings_hpdirtimer, List.append_nil]
  cases hbusy : s.hpphloopcb.hploopbusy with
  | true =>
      have hs := loop_outstanding_of_busy hbusy
      have hpos : 0 < s.hpphloopcb.hpphlbtimer := hinv.busy hbusy
      by_cases hlast : s.hpphloopcb.hpphlbtimer = 1
      · have hcallback : s.hpphloopcb.hplbrescbfp.function.isSome = true := by
          rw [Option.isSome_iff_ne_none]
          exact fun hnone => hhandled ⟨hbusy, hnone, hlast⟩
        have htimer := hplooptimer_last hlast hbusy hcallback
        refine Facility.serves_of_ends hs ⟨.inr ⟨rfl, hlast⟩, loop_outstanding_of_idle ?_, ?_⟩
        · simp only [hpphtask, htimer]
          rfl
        · rw [htimer] at hout
          exact hout.trans (lbEndings_callLb _ _ _)
      · have htimer := hplooptimer_running (Nat.lt_of_le_of_ne hpos (Ne.symm hlast))
        refine Facility.serves_of_continues hs ⟨?_, ?_, ?_⟩ ?_
        · simp only [hpphtask, htimer]
          exact hs
        · simp only [hpphtask, htimer]
          rfl
        · rw [htimer] at hout
          exact hout
        · simp only [hpphtask, htimer]
          exact Nat.sub_pos_of_lt (Nat.lt_of_le_of_ne hpos (Ne.symm hlast))
  | false =>
      have htimer := hplooptimer_idle hbusy
      refine Facility.serves_of_idle (loop_outstanding_of_idle hbusy) rfl
        (loop_outstanding_of_idle ?_) ?_
      · simp only [hpphtask, htimer]
        exact hbusy
      · rw [htimer] at hout
        exact hout

theorem loop_serves (hinv : LoopInv s.hpphloopcb) (hhandled : Handled s e) :
    loopFacility.Serves hpphtask s e := by
  cases e with
  | loopReq lbevt => exact loop_serves_loopReq hinv lbevt
  | loopResp hipevt => exact loop_serves_loopResp hinv hipevt
  | dirReq unifiedpid devinfoevt =>
      exact Facility.serves_of_frame rfl rfl rfl rfl (loop_timer_pos hinv)
        (lbEndings_hpprocdirreq _ _ _ _) fun _ => lbEndings_hpprocdirreq _ _ _ _
  | dirResp stack hipevt =>
      obtain ⟨airstate, copies, resultcode, amdevinforr, status, hstep, -, hcopies⟩ :=
        hpprocdirresp_cases s stack hipevt
      have hcopied : lbEndings copies = [] := by
        rcases hcopies with rfl | ⟨-, rfl⟩
        · rfl
        · rfl
      have hsilent : lbEndings (hpphtask s (.dirResp stack hipevt)).2 = [] := by
        simp only [hpphtask, hstep, lbEndings_append, hcopied, lbEndings_hpsenddirresp,
          lbEndings_callDev, List.append_nil]
      refine Facility.serves_of_frame rfl rfl ?_ ?_ (loop_timer_pos hinv) hsilent fun _ => hsilent
      · simp only [hpphtask, hstep, loopFacility]
      · simp only [hpphtask, hstep, loopFacility]
  | tick => exact loop_serves_tick hinv hhandled

/-- The loopback facility keeps its invariant. -/
theorem loopInv_step (hinv : LoopInv s.hpphloopcb) (hhandled : Handled s e) :
    LoopInv (hpphtask s e).1.hpphloopcb := by
  have hclear : LoopInv hplbclearreq := ⟨fun _ => rfl, fun h => Bool.noConfusion h⟩
  cases e with
  | loopReq lbevt =>
      simp only [hpphtask, hpphprocloopreq]
      split_ifs with hbusy
      · exact hinv
      · exact ⟨fun h => Bool.noConfusion h, fun _ => Nat.succ_pos _⟩
  | loopResp hipevt => exact hclear
  | dirReq unifiedpid devinfoevt => exact hinv
  | dirResp stack hipevt =>
      obtain ⟨airstate, copies, resultcode, amdevinforr, status, hstep, -⟩ :=
        hpprocdirresp_cases s stack hipevt
      simp only [hpphtask, hstep]
      exact hinv
  | tick =>
      cases hbusy : s.hpphloopcb.hploopbusy with
      | true =>
          have hpos := hinv.busy hbusy
          by_cases hlast : s.hpphloopcb.hpphlbtimer = 1
          · have hcallback : s.hpphloopcb.hplbrescbfp.function.isSome = true := by
              rw [Option.isSome_iff_ne_none]
              exact fun hnone => hhandled ⟨hbusy, hnone, hlast⟩
            simp only [hpphtask, hplooptimer_last hlast hbusy hcallback]
            exact hclear
          · have hmore : 1 < s.hpphloopcb.hpphlbtimer :=
              Nat.lt_of_le_of_ne hpos (Ne.symm hlast)
            simp only [hpphtask, hplooptimer_running hmore]
            exact ⟨hinv.idle, fun _ => Nat.sub_pos_of_lt hmore⟩
      | false =>
          simp only [hpphtask, hplooptimer_idle hbusy]
          exact ⟨hinv.idle, fun h => absurd (hbusy.symm.trans h) Bool.false_ne_true⟩

end Loopback

section DeviceInformation

variable {s : HpphCb} {e : HpphEvent}

theorem dev_outstanding_of_busy (h : s.hpphdevinfo.hpdevbusy = true) :
    devFacility.outstanding s =
      some ⟨s.hpphdevinfo.hpdevcbfp, s.hpphdevinfo.hpdevamchan.filter (· ≠ ciInvIpcChan)⟩ :=
  if_pos h

theorem dev_outstanding_of_idle (h : s.hpphdevinfo.hpdevbusy = false) :
    devFacility.outstanding s = none := by
  simp only [devFacility, h, Bool.false_eq_true, if_false]

theorem dev_timer_pos (hinv : DevInv s.hpphdevinfo) (h : devFacility.outstanding s ≠ none) :
    0 < devFacility.timer s := by
  apply hinv.busy
  by_contra hidle
  exact h (dev_outstanding_of_idle (Bool.not_eq_true _ ▸ hidle))

theorem devInv_hpdirclearreq : DevInv hpdirclearreq :=
  ⟨fun _ => ⟨rfl, rfl⟩, fun h => Bool.noConfusion h, ⟨none, rfl⟩⟩

/-- The channels of a request take the place of the invalid ones. -/
theorem filter_saveChannel (k : Option AppChannel) :
    (saveChannel ((k.map AppChannel.channel).getD ciInvIpcChan)
        (List.replicate ciMaxCnRrPair ciInvIpcChan)).filter (· ≠ ciInvIpcChan) =
      (k.map AppChannel.channel).toList := by
  cases k with
  | none => decide
  | some k =>
      have hlt := k.lt
      have hvalid : k.channel ≠ ciInvIpcChan := by
        rw [ciInvIpcChan]
        omega
      simp [saveChannel, ciMaxCnRrPair, List.replicate_succ, hvalid, hvalid.symm]

/-- A device request that is accepted is sent to the modem, or answered at once. -/
theorem hpprocdirreq_accepted {devinfo : HpDevInfo} (hidle : devinfo.hpdevbusy = false)
    (unifiedpid : Bool) (devinfoevt : HpphDevInfoEvt) :
    let saved : HpDevInfo := ⟨timerTicks hpDirTimeout, true, devinfoevt.hpdevcbfp,
      saveChannel ((devinfoevt.hpphdevinfoipcch.map AppChannel.channel).getD ciInvIpcChan)
        devinfo.hpdevamchan⟩
    hpprocdirreq false devinfo unifiedpid devinfoevt =
      if unifiedpid then
        (saved,
          [.hpTxPacket hpmDevReq
            (piput16 devinfoevt.hpphdevinforeqver.toUInt16 ++ [devinfoevt.hpphdevinforeqtyp])])
      else (hpdirclearreq, hpsenddirresp saved amDevNotSup amDevInfoFail true) := by
  cases unifiedpid with
  | true => simp only [hpprocdirreq, hidle, Bool.not_false, Bool.and_self, Bool.not_true,
      Bool.false_eq_true, if_true, if_false]
  | false => simp only [hpprocdirreq, hidle, Bool.not_false, Bool.and_self, Bool.false_eq_true,
      if_true, if_false]

/-- A device request that is turned down during a loopback. -/
theorem hpprocdirreq_refused (devinfo : HpDevInfo) (unifiedpid : Bool)
    (devinfoevt : HpphDevInfoEvt) :
    hpprocdirreq true devinfo unifiedpid devinfoevt =
      (hpdirclearreq, callDev devinfoevt.hpdevcbfp .hpdirbusy ++
        hpsenddirresp devinfo AmResult.timeout amDevInfoFail true) := by
  simp only [hpprocdirreq, Bool.not_true, Bool.and_false, Bool.false_eq_true, if_false]

theorem dev_serves_dirReq (hinv : DevInv s.hpphdevinfo) {unifiedpid : Bool}
    {devinfoevt : HpphDevInfoEvt} (hhandled : Handled s (.dirReq unifiedpid devinfoevt)) :
    devFacility.Serves hpphtask s (.dirReq unifiedpid devinfoevt) ∧
      DevInv (hpphtask s (.dirReq unifiedpid devinfoevt)).1.hpphdevinfo := by
  obtain ⟨hidle, hcallback⟩ := hhandled
  have hs := dev_outstanding_of_idle hidle
  cases hloop : s.hpphloopcb.hploopbusy with
  | true =>
      have hstep := hpprocdirreq_refused s.hpphdevinfo unifiedpid devinfoevt
      have haccepts : devFacility.accepts s (.dirReq unifiedpid devinfoevt) = none := if_pos hloop
      constructor
      · refine Facility.serves_of_idle hs haccepts (dev_outstanding_of_idle ?_) ?_
        · simp only [hpphtask, hloop, hstep]
          rfl
        · simp only [hpphtask, hloop, hstep, devFacility, devEndings_append, devEndings_callDev,
            devEndings_hpsenddirresp, if_true, List.append_nil]
      · simp only [hpphtask, hloop, hstep]
        exact devInv_hpdirclearreq
  | false =>
      have hstep := hpprocdirreq_accepted hidle unifiedpid devinfoevt
      have hchannels := filter_saveChannel devinfoevt.hpphdevinfoipcch
      rw [← (hinv.idle hidle).2] at hchannels
      have haccepts : devFacility.accepts s (.dirReq unifiedpid devinfoevt) =
          some ⟨devinfoevt.hpdevcbfp, (devinfoevt.hpphdevinfoipcch.map AppChannel.channel).toList⟩ :=
        by simp only [devFacility, hloop, Bool.false_eq_true, if_false]
      have hsaved : DevInv ⟨timerTicks hpDirTimeout, true, devinfoevt.hpdevcbfp,
          saveChannel ((devinfoevt.hpphdevinfoipcch.map AppChannel.channel).getD ciInvIpcChan)
            s.hpphdevinfo.hpdevamchan⟩ :=
        ⟨fun h => Bool.noConfusion h, fun _ => Nat.succ_pos _, ⟨_, hchannels⟩⟩
      cases unifiedpid with
      | true =>
          constructor
          · refine Facility.serves_of_accepted hs haccepts ?_ ?_ (Nat.succ_pos _) ?_
            · simp only [hpphtask, hloop, hstep, if_true]
              rw [dev_outstanding_of_busy rfl, hchannels]
            · simp only [hpphtask, hloop, hstep, if_true]
              rfl
            · simp only [hpphtask, hloop, hstep, if_true]
              exact ⟨rfl, fun _ _ => rfl⟩
          · simp only [hpphtask, hloop, hstep, if_true]
            exact hsaved
      | false =>
          constructor
          · refine Facility.serves_of_atOnce hs haccepts (dev_outstanding_of_idle ?_) ⟨?_, ?_⟩
            · simp only [hpphtask, hloop, hstep, Bool.false_eq_true, if_false]
              rfl
            · simp only [hpphtask, hloop, hstep, Bool.false_eq_true, if_false]
              rw [devEndings_hpsenddirresp, Callback.calls_of_none (hcallback hloop rfl)]
            · intro c hc
              simp only [hpphtask, hloop, hstep, Bool.false_eq_true, if_false]
              exact sentOn_hpsenddirresp hsaved _ _ _ (hchannels ▸ hc)
          · simp only [hpphtask, hloop, hstep, Bool.false_eq_true, if_false]
            exact devInv_hpdirclearreq

/-- What a response tells the requester. -/
theorem dev_told_dirResp (hinv : DevInv s.hpphdevinfo) (stack : AmDevInfoParms)
    (hipevt : HpHipEvt) :
    (hpprocdirresp s stack hipevt).1.hpphdevinfo = hpdirclearreq ∧
      devEndings (hpprocdirresp s stack hipevt).2 = s.hpphdevinfo.hpdevcbfp.calls ∧
        ∀ c ∈ s.hpphdevinfo.hpdevamchan.filter (· ≠ ciInvIpcChan),
          sentOn c (hpprocdirresp s stack hipevt).2 = 1 := by
  obtain ⟨airstate, copies, resultcode, amdevinforr, status, hstep, hstatus,
    hcopies⟩ := hpprocdirresp_cases s stack hipevt
  have hcopied : devEndings copies = [] ∧ ∀ c, sentOn c copies = 0 := by
    rcases hcopies with rfl | ⟨-, rfl⟩
    · exact ⟨rfl, fun _ => rfl⟩
    · exact ⟨rfl, fun _ => rfl⟩
  rw [hstep]
  refine ⟨rfl, ?_, fun c hc => ?_⟩
  · simp only [devEndings_append, hcopied.1, devEndings_hpsenddirresp, devEndings_callDev,
      if_neg hstatus, List.nil_append]
  · simp only [sentOn_append, hcopied.2, sentOn_callDev, sentOn_hpsenddirresp hinv _ _ _ hc]

theorem dev_serves_dirResp (hinv : DevInv s.hpphdevinfo) (stack : AmDevInfoParms)
    (hipevt : HpHipEvt) : devFacility.Serves hpphtask s (.dirResp stack hipevt) := by
  obtain ⟨hclear, hendings, hsent⟩ := dev_told_dirResp hinv stack hipevt
  have hidle : devFacility.outstanding (hpphtask s (.dirResp stack hipevt)).1 = none := by
    apply dev_outstanding_of_idle
    simp only [hpphtask, hclear]
    rfl
  cases hbusy : s.hpphdevinfo.hpdevbusy with
  | true =>
      exact Facility.serves_of_ends (dev_outstanding_of_busy hbusy)
        ⟨.inl trivial, hidle, hendings, hsent⟩
  | false =>
      refine Facility.serves_of_idle (dev_outstanding_of_idle hbusy) rfl hidle ?_
      exact hendings.trans (Callback.calls_of_none (hinv.idle hbusy).1)

theorem devEndings_hplooptimer (hploopcb : HpphLoopBk) :
    devEndings (hplooptimer hploopcb).2 = [] := by
  rw [hplooptimer]
  split_ifs
  · exact devEndings_callLb _ _ _
  · rfl
  · rfl

theorem sentOn_hplooptimer (channel : ℕ) (hploopcb : HpphLoopBk) :
    sentOn channel (hplooptimer hploopcb).2 = 0 := by
  rw [hplooptimer]
  split_ifs
  · exact sentOn_callLb _ _ _ _
  · rfl
  · rfl

theorem dev_serves_tick (hinv : DevInv s.hpphdevinfo) :
    devFacility.Serves hpphtask s .tick ∧ DevInv (hpphtask s .tick).1.hpphdevinfo := by
  have hout : devEndings (hpphtask s .tick).2 = devEndings (hpdirtimer s.hpphdevinfo).2 := by
    simp only [hpphtask, devEndings_append, devEndings_hplooptimer, List.nil_append]
  have hsent : ∀ c, sentOn c (hpphtask s .tick).2 = sentOn c (hpdirtimer s.hpphdevinfo).2 := by
    intro c
    simp only [hpphtask, sentOn_append, sentOn_hplooptimer, Nat.zero_add]
  rcases Nat.lt_trichotomy s.hpphdevinfo.hpphdevtimer 1 with hzero | hlast | hmore
  · -- no timer runs, so that no request is outstanding
    have htimer := hpdirtimer_zero (Nat.lt_one_iff.mp hzero)
    have hidle : s.hpphdevinfo.hpdevbusy = false := by
      by_contra hbusy
      have hpos := hinv.busy (Bool.not_eq_false _ ▸ hbusy)
      exact absurd hpos (Nat.not_lt_of_le (Nat.le_of_lt_succ hzero))
    constructor
    · refine Facility.serves_of_idle (dev_outstanding_of_idle hidle) rfl
        (dev_outstanding_of_idle ?_) ?_
      · simp only [hpphtask, htimer]
        exact hidle
      · rw [htimer] at hout
        exact hout
    · simp only [hpphtask, htimer]
      exact hinv
  · have htimer := hpdirtimer_last hlast
    have hclear : (hpphtask s .tick).1.hpphdevinfo = hpdirclearreq := by
      simp only [hpphtask, htimer]
    have hafter : devFacility.outstanding (hpphtask s .tick).1 = none := by
      apply dev_outstanding_of_idle
      rw [hclear]
      rfl
    refine ⟨?_, hclear ▸ devInv_hpdirclearreq⟩
    cases hbusy : s.hpphdevinfo.hpdevbusy with
    | true =>
        rw [htimer, hbusy, if_pos rfl, devEndings_append, devEndings_hpsenddirresp, List.append_nil,
          devEndings_callDev] at hout
        refine Facility.serves_of_ends (dev_outstanding_of_busy hbusy)
          ⟨.inr ⟨rfl, hlast⟩, hafter, hout, fun c hc => ?_⟩
        rw [hsent, htimer, hbusy, if_pos rfl, sentOn_append, sentOn_callDev, Nat.zero_add]
        exact sentOn_hpsenddirresp hinv _ _ _ hc
    | false =>
        rw [htimer, hbusy, if_neg Bool.false_ne_true, List.nil_append,
          devEndings_hpsenddirresp] at hout
        exact Facility.serves_of_idle (dev_outstanding_of_idle hbusy) rfl hafter hout
  · have htimer := hpdirtimer_running hmore
    have hleft : 0 < s.hpphdevinfo.hpphdevtimer - 1 := Nat.sub_pos_of_lt hmore
    have hkept : DevInv (hpphtask s .tick).1.hpphdevinfo := by
      simp only [hpphtask, htimer]
      exact ⟨hinv.idle, fun _ => hleft, hinv.channels⟩
    refine ⟨?_, hkept⟩
    rw [htimer] at hout
    cases hbusy : s.hpphdevinfo.hpdevbusy with
    | true =>
        refine Facility.serves_of_continues (dev_outstanding_of_busy hbusy) ⟨?_, ?_, hout, ?_⟩ ?_
        · simp only [hpphtask, htimer]
          exact dev_outstanding_of_busy hbusy
        · simp only [hpphtask, htimer]
          rfl
        · intro c _
          rw [hsent, htimer]
          rfl
        · simp only [hpphtask, htimer]
          exact hleft
    | false =>
        refine Facility.serves_of_idle (dev_outstanding_of_idle hbusy) rfl
          (dev_outstanding_of_idle ?_) hout
        simp only [hpphtask, htimer]
        exact hbusy

theorem devEndings_hpphprocloopreq (hploopcb : HpphLoopBk) (lbevt : HplbReqEvt) :
    devEndings (hpphprocloopreq hploopcb lbevt).2 = [] ∧
      ∀ c, sentOn c (hpphprocloopreq hploopcb lbevt).2 = 0 := by
  rw [hpphprocloopreq]
  split_ifs
  · exact ⟨devEndings_callLb _ _ _, fun c => sentOn_callLb c _ _ _⟩
  · exact ⟨rfl, fun _ => rfl⟩

theorem devEndings_hpphprocloopresp (hploopcb : HpphLoopBk) (hipevt : HpHipEvt) :
    devEndings (hpphprocloopresp hploopcb hipevt).2 = [] ∧
      ∀ c, sentOn c (hpphprocloopresp hploopcb hipevt).2 = 0 := by
  rw [hpphprocloopresp]
  by_cases hcallback : hploopcb.hplbrescbfp.function.isSome = true
  · simp only [if_pos hcallback]
    exact ⟨devEndings_callLb _ _ _, fun c => sentOn_callLb c _ _ _⟩
  · simp only [if_neg hcallback]
    exact ⟨rfl, fun _ => rfl⟩

theorem dev_serves (hinv : DevInv s.hpphdevinfo) (hhandled : Handled s e) :
    devFacility.Serves hpphtask s e ∧ DevInv (hpphtask s e).1.hpphdevinfo := by
  cases e with
  | loopReq lbevt =>
      obtain ⟨hendings, hsent⟩ := devEndings_hpphprocloopreq s.hpphloopcb lbevt
      exact ⟨Facility.serves_of_frame rfl rfl rfl rfl (dev_timer_pos hinv) hendings
        fun _ => ⟨hendings, fun c _ => hsent c⟩, hinv⟩
  | loopResp hipevt =>
      obtain ⟨hendings, hsent⟩ := devEndings_hpphprocloopresp s.hpphloopcb hipevt
      exact ⟨Facility.serves_of_frame rfl rfl rfl rfl (dev_timer_pos hinv) hendings
        fun _ => ⟨hendings, fun c _ => hsent c⟩, hinv⟩
  | dirReq unifiedpid devinfoevt => exact dev_serves_dirReq hinv hhandled
  | dirResp stack hipevt =>
      refine ⟨dev_serves_dirResp hinv stack hipevt, ?_⟩
      have hclear : (hpphtask s (.dirResp stack hipevt)).1.hpphdevinfo = hpdirclearreq :=
        (dev_told_dirResp hinv stack hipevt).1
      exact hclear ▸ devInv_hpdirclearreq
  | tick => exact dev_serves_tick hinv

end DeviceInformation

section Fine

variable {s : HpphCb} {e : HpphEvent}

theorem fine_callLb {callback : Callback} (h : callback.function.isSome) (resultcode : HpphStatus)
    (runningapp : Bool) : ∀ o ∈ callLb callback resultcode runningapp, o.Fine := by
  obtain ⟨function, hfunction⟩ := Option.isSome_iff_exists.mp h
  rw [callLb, hfunction]
  exact List.forall_mem_singleton.mpr trivial

theorem fine_callDev (callback : Callback) (resultcode : HpphStatus) :
    ∀ o ∈ callDev callback resultcode, o.Fine := by
  intro o ho
  obtain ⟨function, -, rfl⟩ := List.mem_map.mp ho
  trivial

theorem fine_hpsenddirresp (devinfo : HpDevInfo) (resultcode : UInt8)
    (amdevinforr : AmDevInfoParms) (force_send : Bool) :
    ∀ o ∈ hpsenddirresp devinfo resultcode amdevinforr force_send, o.Fine := by
  intro o ho
  obtain ⟨channel, -, rfl⟩ := List.mem_map.mp ho
  trivial

theorem fine_hplooptimer (hploopcb : HpphLoopBk) : ∀ o ∈ (hplooptimer hploopcb).2, o.Fine := by
  rw [hplooptimer]
  split_ifs with hpos hlast
  · exact fine_callLb hlast.2.2 _ _
  · exact List.forall_mem_nil _
  · exact List.forall_mem_nil _

theorem fine_hpdirtimer (devinfo : HpDevInfo) : ∀ o ∈ (hpdirtimer devinfo).2, o.Fine := by
  rw [hpdirtimer]
  split_ifs
  · exact List.forall_mem_append.mpr ⟨fine_callDev _ _, fine_hpsenddirresp _ _ _ _⟩
  · exact fine_hpsenddirresp _ _ _ _
  · exact List.forall_mem_nil _
  · exact List.forall_mem_nil _

theorem fine_step (hhandled : Handled s e) : ∀ o ∈ (hpphtask s e).2, o.Fine := by
  cases e with
  | loopReq lbevt =>
      simp only [hpphtask, hpphprocloopreq]
      split_ifs with hbusy
      · exact fine_callLb (hhandled hbusy) _ _
      · exact List.forall_mem_singleton.mpr trivial
  | loopResp hipevt =>
      simp only [hpphtask, hpphprocloopresp]
      by_cases hcallback : s.hpphloopcb.hplbrescbfp.function.isSome = true
      · rw [if_pos hcallback]
        exact fine_callLb hcallback _ _
      · rw [if_neg hcallback]
        exact List.forall_mem_nil _
  | dirReq unifiedpid devinfoevt =>
      simp only [hpphtask, hpprocdirreq]
      split_ifs
      · exact fine_hpsenddirresp _ _ _ _
      · exact List.forall_mem_singleton.mpr trivial
      · exact List.forall_mem_append.mpr ⟨fine_callDev _ _, fine_hpsenddirresp _ _ _ _⟩
  | dirResp stack hipevt =>
      obtain ⟨airstate, copies, resultcode, amdevinforr, status, hstep, -, hcopies⟩ :=
        hpprocdirresp_cases s stack hipevt
      have hcopied : ∀ o ∈ copies, o.Fine := by
        rcases hcopies with rfl | ⟨hstores, rfl⟩
        · exact List.forall_mem_nil _
        · have hfits := hhandled hstores
          exact List.forall_mem_cons.mpr ⟨hfits, List.forall_mem_singleton.mpr hfits⟩
      simp only [hpphtask, hstep, List.forall_mem_append]
      exact ⟨⟨hcopied, fine_hpsenddirresp _ _ _ _⟩, fine_callDev _ _⟩
  | tick => exact List.forall_mem_append.mpr ⟨fine_hplooptimer _, fine_hpdirtimer _⟩

end Fine

/-- The steps of a run whose messages are handled serve both facilities. -/
theorem meets_serves {s : HpphCb} (hloop : LoopInv s.hpphloopcb) (hdev : DevInv s.hpphdevinfo)
    {events : List HpphEvent} (h : Meets hpphtask Handled s events) :
    Meets hpphtask (loopFacility.Serves hpphtask) s events ∧
      Meets hpphtask (devFacility.Serves hpphtask) s events := by
  induction events generalizing s with
  | nil => exact ⟨meets_nil, meets_nil⟩
  | cons e events ih =>
      obtain ⟨hserves, hkept⟩ := dev_serves hdev h.1
      obtain ⟨hloops, hdevs⟩ := ih (loopInv_step hloop h.1) hkept h.2
      exact ⟨⟨loop_serves hloop h.1, hloops⟩, ⟨hserves, hdevs⟩⟩

/-- In a run whose messages are all handled the facilities serve their requests. -/
theorem hpphServed_of_handled (events : List HpphEvent)
    (h : Meets hpphtask Handled hpphinit events) : HpphServed events := by
  have hloop : LoopInv hplbclearreq := ⟨fun _ => rfl, fun h => Bool.noConfusion h⟩
  obtain ⟨hloops, hdevs⟩ := meets_serves (s := hpphinit) hloop devInv_hpdirclearreq h
  refine ⟨Facility.served_of_meets rfl hloops, Facility.served_of_meets rfl hdevs, fun o ho => ?_⟩
  obtain ⟨pre, e, post, hsplit, hmem⟩ := (mem_outputs_iff _ _ _ _).mp ho
  exact fine_step (meets_iff.mp h pre e post hsplit) o hmem

section Runs

/-- A loopback of one byte, with a callback or without one. -/
def pingReq (function : Option ℕ) : HplbReqEvt := ⟨[0xaa], 1, ⟨function, 7⟩⟩

/-- The response of the modem to it. -/
def pingResp : HpHipEvt := ⟨0x43, 1, [0xaa], 1, false⟩

theorem zero_mem_requestChannels : 0 ∈ requestChannels :=
  mem_requestChannels_iff.mpr (by decide)

/-- A request of the first application for the product string. -/
def stringReq : HpphDevInfoEvt :=
  ⟨⟨none, 0⟩, 2, hpmDevReqPrdStr, some ⟨0, zero_mem_requestChannels⟩⟩

/-- A response of the modem with a product string of some length. -/
def stringResp (length : UInt8) : HpHipEvt :=
  ⟨(0x0201 <<< hpExtMsgIdShf) ||| HipDirection.forward.extended, 0,
    [0, 2, 0, hpmDevReqPrdStr, length] ++ List.replicate length.toNat 0x41, 5, false⟩

/-- A loopback that is answered, one that runs out of time, and a request for the product
string. -/
theorem hpphServed_pingAndString :
    HpphServed ([.loopReq (pingReq (some 1)), .loopResp pingResp, .loopReq (pingReq (some 1))] ++
      List.replicate 21 .tick ++ [.dirReq true stringReq, .dirResp amDevInfoZero (stringResp 8)]) :=
  hpphServed_of_handled _ (by decide)

/-- A loopback without a callback that is not answered leaves the facility busy without a timer; a
second request for the product string ends the first one; and a product string of seventeen bytes
is copied beyond its place. -/
theorem not_hpphServed :
    ¬ HpphServed (.loopReq (pingReq none) :: List.replicate 21 .tick) ∧
      ¬ HpphServed [.dirReq true stringReq, .dirReq true stringReq] ∧
        ¬ HpphServed [.dirReq true stringReq, .dirResp amDevInfoZero (stringResp 17)] := by
  refine ⟨fun h => ?_, fun h => ?_, fun h => ?_⟩
  · have htimer := h.loop.timed _ [] (List.append_nil _).symm (by decide)
    exact absurd htimer (by decide)
  · rcases h.dev.once [] _ _ _ rfl rfl rfl with ⟨hidle, -⟩ | ⟨-, -, hends | ⟨hwaits, -⟩⟩
    · exact absurd hidle (Option.some_ne_none _)
    · obtain ⟨pre, e, post, hsplit, -, hends⟩ := hends
      have hevent : e = .dirReq true stringReq :=
        (List.mem_singleton.mp (hsplit ▸ List.mem_append_right pre (List.mem_cons_self ..)))
      rw [hevent] at hends
      rcases hends.cause with hanswers | ⟨htick, -⟩
      · exact hanswers
      · exact Bool.false_ne_true htick
    · exact absurd hwaits.1.outstanding (Option.some_ne_none _).symm
  · have hfits : 17 ≤ ProdString.hpairprodstr.size :=
      h.fine (.copied .hpairprodstr 17) (by decide)
    exact absurd hfits (by decide)

end Runs

end Hpph

end Sdk

end SierraSdk
