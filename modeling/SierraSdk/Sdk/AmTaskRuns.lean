import SierraSdk.Library.StopAndWait
import SierraSdk.Sdk.AmServers

/-!
# One request at a time

The AM task and the tasks that serve its requests follow a stop-and-wait ledger: a regular step is
a number of moves of it (`sdkTaskStep_goes`). So the responses are those to the requests in their
order, at most one of those dispatched is not answered, and a busy task has an event to come, unless
a download waits for the response to a continue request, which has no timer
(`keepsStopAndWait_iff_of_regular`).

What is not regular: a packet of an unknown type, which nothing answers; a download request that is
dropped because the channel of another one is not free yet; the device information requests and
responses that are answered on all channels; a CnS request or response with the channel of
another; an abort.
-/

namespace SierraSdk

namespace Sdk

namespace AmIpc

open Machine StopAndWait

section Statement

/-- The channels of the requests that arrived, and of those that were dispatched. -/
def arrivals (out : List SdkOut) : List ℕ :=
  out.filterMap fun
    | .arrived ipcchannel => some ipcchannel
    | _ => none
def dispatches (out : List SdkOut) : List ℕ :=
  out.filterMap fun
    | .dispatched ipcchannel => some ipcchannel
    | _ => none

def AmMsg.isRespSent : AmMsg → Bool
  | .appRespSent => true
  | .appRequest _ => false

def CnInput.isRequest : CnInput → Bool
  | .ipcMsg _ => true
  | _ => false

def HpMsg.isRequest : HpMsg → Bool
  | .am _ => true
  | _ => false

/-- An event is to come that tells the AM task of a response: it is queued, or a request is queued
for another task, or the timer of one that waits for the modem runs. -/
def ToCome (s : SdkCb) : Prop :=
  s.am.amicmsgque.any AmMsg.isRespSent = true ∨
    s.cn.cnicmsgque.any CnInput.isRequest = true ∨ s.cn.cnrrtcb.cnmdmwaittmr ≠ 0 ∨
      s.hp.hpphicmsgque.any HpMsg.isRequest = true ∨
        devicechannels s.hp.hpphcb.hpphdevinfo ≠ [] ∧
            s.hp.hpphcb.hpphdevinfo.hpphdevtimer ≠ 0 ∨
          s.hp.hpgcb.amfwdwnstate ≠ .done ∧ s.hp.hpgcb.hptimeron = true

/-- The responses are those to the requests that were dispatched, each on its channel, and these
were dispatched as they arrived. At most one is not answered, and none if the task is not busy. -/
structure InOrder (out : List SdkOut) (s : SdkCb) : Prop where
  own : answered out <+: dispatches out
  order : dispatches out <+: arrivals out
  one : (dispatches out).length ≤ (answered out).length + 1
  all : s.am.amreqbusy = false → s.am.amicmsgque = [] → answered out = arrivals out

/-- After a run the tasks have not been aborted, the responses are in order, and the AM task is not
busy without an event to come. -/
def KeepsStopAndWait (events : List SdkEvent) : Prop :=
  ∃ s, after sdkStep (some sdkinit) events = some s ∧
    InOrder (outputs sdkStep (some sdkinit) events) s ∧
      (s.am.amreqbusy = true → ToCome s)

/-- There is a block and room in the queue for one more message. -/
def CnTask.HasRoom (t : CnTask) : Prop :=
  t.cnicmsgque.countP CnInput.isBlock < cnRrEvtPoolSz ∧ t.cnicmsgque.length < cnRrMsgDepth
def HpTask.HasRoom (t : HpTask) : Prop :=
  t.hpphicmsgque.countP HpMsg.isBlock < hpphEvPoolSz ∧ t.hpphicmsgque.length < hpphMsgDepth
def AmIpcCb.HasRoom (am : AmIpcCb) : Prop := am.amicmsgque.length < amMsgDepth

/-- The request that the AM task takes from its queue in the next round. -/
def AmIpcCb.next (am : AmIpcCb) : Option AmEvtBlock :=
  match am.amicmsgque with
  | [] => none
  | .appRespSent :: _ => am.ameventheadq.head?
  | .appRequest evt :: _ => if am.amreqbusy then none else (am.ameventheadq ++ [evt]).head?

/-- Someone answers a request: its type is known, and there is room for it. A CnS request has an
operation of a request and its channel for the parameter, and a download request finds the channel
free. -/
def Dispatchable (s : SdkCb) (evt : AmEvtBlock) : Prop :=
  let amtype := (amparseamheader evt.amdata).amtype
  let cnsparm := amparsecnsrequest (evt.amdata.drop amHeaderSz)
  if amtype = AmMsgType.cnsRequest then
    Sdk.amdispatchrequest s.am.amnotifheadq cnsparm.amcnsobjid cnsparm.amcnsoperation
        evt.amipcchannel.1 ≠ none ∧
      cnsExpectedOp cnsparm.amcnsoperation ≠ none ∧
        cnsparm.amcnsparameter.toUInt8.toNat = evt.amipcchannel.1 ∧ s.cn.HasRoom
  else if amtype = AmMsgType.fwDwnRequest then
    s.hp.hpphipcchanrr = ciMaxIpcChan ∧ s.hp.HasRoom
  else if amtype = AmMsgType.airSrvReq ∨ amtype = AmMsgType.portNameReq ∨
      amtype = AmMsgType.devInfoReq then s.hp.HasRoom
  else amtype = AmMsgType.mdmResetReq

/-- A regular step. -/
def Regular : Option SdkCb → SdkEvent → Prop
  | none, _ => True
  | some s, .request _ _ => s.am.evtInUse < amEvtPoolSz ∧ s.am.HasRoom
  | some s, .amipctask usgetinfo => ∀ evt ∈ s.am.next, usgetinfo = true →
      (amparseamheader evt.amdata).amhdrversion = amHdrVersion → Dispatchable s evt
  | some s, .cnRxPacket cnshdr _ => ∃ optype, cnsreadoptype cnshdr = some optype ∧
      (optype ≠ 0x07 → s.cn.HasRoom)
  | some s, .cntick => s.cn.cnicmsgque.length < cnRrMsgDepth
  | some s, .cnrrtask => ∀ msg ∈ s.cn.cnicmsgque.head?,
      CnTask.Regular s.cn.cnrrtcb msg ∧ (s.cn.owed ≠ [] → s.am.HasRoom)
  | some s, .hpmdm _ => s.hp.HasRoom
  | some s, .hpphtick => s.hp.hpphicmsgque.length < hpphMsgDepth
  | some s, .hpphtask ans => s.hp.hpclearing = none → ∀ msg ∈ s.hp.hpphicmsgque.head?,
      s.hp.Regular ans msg ∧ (s.hp.owed ≠ [] → s.am.HasRoom)
  | some _, .hpstateclear => True

end Statement

section Ledger

/-- The channel of a request that waits. -/
def AmMsg.reqchannel (msg : AmMsg) : Option ℕ := msg.request.map fun evt => evt.amipcchannel.1

/-- The channels that a response is owed to. -/
def SdkCb.owed (s : SdkCb) : List ℕ := s.cn.owed ++ s.hp.owed

/-- The ledger of the AM task after the outputs `log`. -/
def ledger (s : SdkCb) (log : List SdkOut) : Ledger ℕ where
  busy := s.am.amreqbusy
  sent := s.am.amicmsgque.countP AmMsg.isRespSent
  owed := s.owed
  held := s.am.ameventheadq.map fun evt => evt.amipcchannel.1
  inbox := s.am.amicmsgque.filterMap AmMsg.reqchannel
  asked := arrivals log
  passed := dispatches log
  answered := answered log

/-- What holds in runs of regular steps. -/
structure Steady (s : SdkCb) (log : List SdkOut) : Prop where
  balanced : Balanced (ledger s log)
  cn : s.cn.Waits
  hp : s.hp.Waits
  idle : s.am.amreqbusy = false → s.am.ameventheadq = []
  fits : s.am.amicmsgque.length ≤ amMsgDepth

/-- No request arrives or is dispatched. -/
def Silent (out : List SdkOut) : Prop := arrivals out = [] ∧ dispatches out = []

/-- The channels `owed` are owed a response before the outputs `out`; the AM task is only told of
the responses. -/
structure Serves (s s' : SdkCb) (owed : List ℕ) (out : List SdkOut) : Prop where
  cn : s'.cn.Waits
  hp : s'.hp.Waits
  owes : owed = answered out ++ s'.owed
  queue : s'.am.amicmsgque =
    s.am.amicmsgque ++ List.replicate (answered out).length .appRespSent
  busy : s'.am.amreqbusy = s.am.amreqbusy
  held : s'.am.ameventheadq = s.am.ameventheadq
  silent : Silent out
  fits : s'.am.amicmsgque.length ≤ amMsgDepth

/-- The step does not stop the tasks, and serves the channels `owed`. -/
def Served (s : SdkCb) (owed : List ℕ) (r : Option SdkCb × List SdkOut) : Prop :=
  ∃ s', r.1 = some s' ∧ Serves s s' owed r.2

theorem arrivals_append (out out' : List SdkOut) :
    arrivals (out ++ out') = arrivals out ++ arrivals out' := List.filterMap_append

theorem dispatches_append (out out' : List SdkOut) :
    dispatches (out ++ out') = dispatches out ++ dispatches out' := List.filterMap_append

/-- The responses are moves of the ledger. -/
theorem Serves.moves {s s' : SdkCb} {owed : List ℕ} {out : List SdkOut}
    (h : Serves s s' owed out) (log : List SdkOut) :
    Moves { ledger s log with owed := owed } (ledger s' (log ++ out)) := by
  have hmoves := moves_answers (answered out) (l := { ledger s log with owed := owed }) h.owes
  have hsent : (List.replicate (answered out).length AmMsg.appRespSent).countP
      AmMsg.isRespSent = (answered out).length := by
    rw [List.countP_replicate]
    rfl
  have hinbox : (List.replicate (answered out).length AmMsg.appRespSent).filterMap
      AmMsg.reqchannel = [] := List.filterMap_replicate_of_none rfl
  have hledger : ledger s' (log ++ out) = { ledger s log with
      owed := s'.owed
      sent := (ledger s log).sent + (answered out).length
      answered := (ledger s log).answered ++ answered out } := by
    simp only [ledger, h.busy, h.held, h.queue, List.countP_append, hsent, List.filterMap_append,
      hinbox, List.append_nil, arrivals_append, dispatches_append, answered_append, h.silent.1,
      h.silent.2]
  rw [hledger]
  exact hmoves

end Ledger

section Servers

variable {s : SdkCb}

theorem Serves.refl {log : List SdkOut} (h : Steady s log) : Serves s s s.owed [] :=
  ⟨h.cn, h.hp, rfl, (List.append_nil _).symm, rfl, rfl, ⟨rfl, rfl⟩, h.fits⟩

/-- The AM task is told of all responses if there is room. -/
theorem amsdk_sent_of_room (ipcchannels : List ℕ) {am : AmIpcCb}
    (hroom : am.amicmsgque.length + ipcchannels.length ≤ amMsgDepth) :
    amsdk_sent am ipcchannels = some { am with
      amicmsgque := am.amicmsgque ++ List.replicate ipcchannels.length .appRespSent } := by
  induction ipcchannels generalizing am with
  | nil =>
      rw [List.length_nil, List.replicate_zero, List.append_nil]
      rfl
  | cons c ipcchannels ih =>
      rw [List.length_cons] at hroom
      have hsend : amqueipcrspevt am =
          some { am with amicmsgque := am.amicmsgque ++ [.appRespSent] } := by
        rw [amqueipcrspevt, icsmt_send, if_pos (by omega)]
        rfl
      have hroom' : (am.amicmsgque ++ [AmMsg.appRespSent]).length + ipcchannels.length ≤
          amMsgDepth := by
        rw [List.length_append, List.length_singleton]
        omega
      have hrest := @ih { am with amicmsgque := am.amicmsgque ++ [.appRespSent] } hroom'
      rw [amsdk_sent] at hrest ⊢
      rw [List.foldlM_cons, hsend]
      refine hrest.trans ?_
      rw [List.append_assoc, List.length_cons, List.replicate_succ, List.singleton_append]

/-- Responses after which the tasks are `s'`. -/
theorem served_responded {s' : SdkCb} {owed : List ℕ} {out : List SdkOut} (ham : s'.am = s.am)
    (hcn : s'.cn.Waits) (hhp : s'.hp.Waits) (howes : owed = answered out ++ s'.owed)
    (hsilent : Silent out)
    (hroom : s.am.amicmsgque.length + (answered out).length ≤ amMsgDepth) :
    Served s owed (responded (some s', out)) := by
  rw [← ham] at hroom
  refine ⟨{ s' with
    am.amicmsgque := s'.am.amicmsgque ++
      List.replicate (answered out).length .appRespSent }, ?_, ?_⟩
  · rw [responded, Option.bind_some, amsdk_sent_of_room _ hroom]
    rfl
  · exact
      { cn := hcn
        hp := hhp
        owes := howes
        queue := by
          rw [ham]
          rfl
        busy := by rw [ham]
        held := by rw [ham]
        silent := hsilent
        fits := by
          rw [List.length_append, List.length_replicate]
          exact hroom }

theorem Silent.append {out out' : List SdkOut} (h : Silent out) (h' : Silent out') :
    Silent (out ++ out') :=
  ⟨by rw [arrivals_append, h.1, h'.1]; rfl, by rw [dispatches_append, h.2, h'.2]; rfl⟩

theorem silent_cn (out : List CnOut) : Silent (out.map .cn) := by
  constructor <;> exact List.filterMap_eq_nil_iff.mpr (by simp)

theorem silent_hpph (out : List Hpph.HpphOut) : Silent (out.map .hpph) := by
  constructor <;> exact List.filterMap_eq_nil_iff.mpr (by simp)

theorem silent_fw (out : List FwOut) : Silent (out.map .fw) := by
  constructor <;> exact List.filterMap_eq_nil_iff.mpr (by simp)

theorem silent_andThen {σ : Type} {r : Option σ × List SdkOut}
    {f : σ → Option σ × List SdkOut} (hr : Silent r.2) (hf : ∀ s, Silent (f s).2) :
    Silent (andThen r f).2 := by
  obtain ⟨_ | s, out⟩ := r
  · exact hr
  · exact hr.append (hf s)

theorem silent_hpmsgdispatch (ans : HpAnswer) (t : HpTask) (msg : HpMsg) :
    Silent (hpmsgdispatch ans t msg).2 := by
  cases msg with
  | am msg =>
      cases msg with
      | fwdwnreq packet => exact silent_fw _
      | airreq packet c =>
          simp only [hpmsgdispatch, hpamairreq]
          split_ifs <;> exact ⟨rfl, rfl⟩
      | portreq c => exact ⟨rfl, rfl⟩
      | dirreq version reqtype c => exact silent_hpph _
  | mdm msg =>
      cases msg with
      | fwdwncb hipmsg => exact silent_fw _
      | modemstatecb online apprunning => exact silent_fw _
      | loopreq lbevt => exact silent_hpph _
      | loopresp hipevt => exact silent_hpph _
      | dirreq hpdevcbfp version reqtype => exact silent_hpph _
      | dirresp hipevt => exact silent_hpph _
  | tick =>
      refine silent_andThen (silent_hpph _) fun t => ?_
      exact silent_andThen (silent_fw _) fun t => silent_hpph _

/-- Lists of one element at most. -/
theorem eq_of_perm_of_length_le_one {l l' : List ℕ} (h : l.Perm l') (hl : l'.length ≤ 1) :
    l = l' := by
  cases l' with
  | nil => exact List.perm_nil.mp h
  | cons c l' =>
      rw [List.length_cons] at hl
      have hnil : l' = [] := List.length_eq_zero_iff.mp (by omega)
      subst hnil
      exact List.perm_singleton.mp h

/-- There is room for the response to one request. -/
theorem room_of_owed {am : AmIpcCb} {ipcchannels owed owed' : List ℕ}
    (hfits : am.amicmsgque.length ≤ amMsgDepth) (hone : owed'.length ≤ 1)
    (howed : ipcchannels ++ owed = owed') (hroom : owed' ≠ [] → am.HasRoom) :
    am.amicmsgque.length + ipcchannels.length ≤ amMsgDepth := by
  rw [← howed, List.length_append] at hone
  cases ipcchannels with
  | nil => exact hfits
  | cons c ipcchannels =>
      have hlt : am.amicmsgque.length < amMsgDepth :=
        hroom (howed ▸ List.cons_ne_nil c _)
      omega

/-- A round of the CnS task. -/
theorem served_cnrrtask {log : List SdkOut} (h : Steady s log)
    (hregular : Regular (some s) .cnrrtask) :
    Served s s.owed (cnrrtask s) := by
  have hlength : (s.cn.owed ++ s.hp.owed).length ≤ 1 := h.balanced.length_owed_le
  obtain ⟨am, ⟨cnrrtcb, queue⟩, hp⟩ := s
  cases queue with
  | nil => exact ⟨_, rfl, .refl h⟩
  | cons msg rest =>
      obtain ⟨hmsg, hroom⟩ := hregular msg rfl
      rw [List.length_append] at hlength
      have hone : (CnTask.owed ⟨cnrrtcb, msg :: rest⟩).length ≤ 1 :=
        (Nat.le_add_right _ _).trans hlength
      obtain ⟨s', hs', hwaits, howed⟩ := CnTask.round h.cn hone hmsg
      simp only [cnrrtask, hs', Option.map_some]
      refine served_responded rfl hwaits h.hp ?_ (silent_cn _) (room_of_owed h.fits hone howed hroom)
      rw [SdkCb.owed, SdkCb.owed, ← howed, List.append_assoc]

/-- A round of the packet handler task. -/
theorem served_hpphtask {log : List SdkOut} {ans : HpAnswer} (h : Steady s log)
    (hregular : Regular (some s) (.hpphtask ans)) :
    Served s s.owed (hpphtask s ans) := by
  have hlength : (s.cn.owed ++ s.hp.owed).length ≤ 1 := h.balanced.length_owed_le
  rw [List.length_append] at hlength
  have hone : s.hp.owed.length ≤ 1 := (Nat.le_add_left _ _).trans hlength
  cases hclearing : s.hp.hpclearing with
  | some c =>
      rw [hpphtask, hclearing]
      exact ⟨s, rfl, .refl h⟩
  | none =>
      cases hqueue : s.hp.hpphicmsgque with
      | nil =>
          rw [hpphtask, hclearing, hqueue]
          exact ⟨s, rfl, .refl h⟩
      | cons msg rest =>
          obtain ⟨hmsg, hroom⟩ := hregular hclearing msg (by rw [hqueue]; rfl)
          obtain ⟨hp', hhp', hwaits, hperm⟩ := HpTask.round h.hp hqueue hmsg
          have howed := eq_of_perm_of_length_le_one hperm hone
          have hstep : hpphtask s ans = responded (some { s with hp := hp' },
              (hpmsgdispatch ans { s.hp with hpphicmsgque := rest } msg).2) := by
            rw [hpphtask, hclearing, hqueue]
            simp only [hhp', Option.map_some]
          rw [hstep]
          refine served_responded rfl h.cn hwaits ?_ (silent_hpmsgdispatch _ _ _)
            (room_of_owed h.fits hone howed hroom)
          have hall := (List.perm_append_comm_assoc
            (answered (hpmsgdispatch ans { s.hp with hpphicmsgque := rest } msg).2) s.cn.owed
            hp'.owed).trans (hperm.append_left s.cn.owed)
          exact (eq_of_perm_of_length_le_one hall h.balanced.length_owed_le).symm

/-- A step after which no one is answered. -/
theorem served_quiet {s' : SdkCb} {out : List SdkOut}
    (hqueue : s'.am.amicmsgque = s.am.amicmsgque) (hbusy : s'.am.amreqbusy = s.am.amreqbusy)
    (hheld : s'.am.ameventheadq = s.am.ameventheadq) (hcn : s'.cn.Waits) (hhp : s'.hp.Waits)
    (hanswered : answered out = []) (hsilent : Silent out)
    (hfits : s.am.amicmsgque.length ≤ amMsgDepth) : Served s s'.owed (some s', out) := by
  refine ⟨s', rfl, hcn, hhp, ?_, ?_, hbusy, hheld, hsilent, hqueue ▸ hfits⟩
  · rw [hanswered, List.nil_append]
  · rw [hanswered, List.length_nil, List.replicate_zero, List.append_nil, hqueue]

theorem CnTask.post_of_room {t : CnTask} (h : t.HasRoom) (msg : CnInput) :
    t.post msg = some { t with cnicmsgque := t.cnicmsgque ++ [msg] } := by
  rw [CnTask.post, if_pos h.1, icsmt_send, if_pos h.2]
  rfl

theorem HpTask.post_of_room {t : HpTask} (h : t.HasRoom) (msg : HpMsg) :
    t.post msg = some { t with hpphicmsgque := t.hpphicmsgque ++ [msg] } := by
  rw [HpTask.post, if_pos h.1, icsmt_send, if_pos h.2]
  rfl

/-- A message is posted to the CnS task, and the notification table may change. -/
theorem served_cnpost (amnotifheadq : List AmIpcNotifQ) {msg : CnInput} (hcn : s.cn.Waits) (hhp : s.hp.Waits)
    (hfits : s.am.amicmsgque.length ≤ amMsgDepth)
    (hvalid : ∀ packet, msg = .ipcMsg packet →
      cnsExpectedOp (amparsecnsrequest packet).amcnsoperation ≠ none) :
    Served s (s.cn.owed ++ (CnInput.reqchannel msg).toList ++ s.hp.owed)
      (some { s with
        am.amnotifheadq := amnotifheadq
        cn.cnicmsgque := s.cn.cnicmsgque ++ [msg] }, []) := by
  obtain ⟨hwaits, howed⟩ := hcn.post hvalid
  rw [← howed]
  exact served_quiet rfl rfl rfl hwaits hhp rfl ⟨rfl, rfl⟩ hfits

/-- A message other than a download request is posted to the packet handler task. -/
theorem served_hppost {msg : HpMsg} (hcn : s.cn.Waits) (hhp : s.hp.Waits)
    (hfits : s.am.amicmsgque.length ≤ amMsgDepth)
    (hmsg : ∀ packet, msg ≠ .am (.fwdwnreq packet)) :
    Served s (s.cn.owed ++ (s.hp.owed ++ msg.reqchannel.toList))
      (some { s with hp.hpphicmsgque := s.hp.hpphicmsgque ++ [msg] }, []) := by
  obtain ⟨hwaits, howed⟩ := hhp.post hmsg
  rw [← howed]
  exact served_quiet rfl rfl rfl hcn hwaits rfl ⟨rfl, rfl⟩ hfits

theorem hpsend_of_room (hroom : s.hp.HasRoom) (msg : HpMsg) :
    hpsend s msg = (some { s with hp.hpphicmsgque := s.hp.hpphicmsgque ++ [msg] }, []) := by
  rw [hpsend, HpTask.post_of_room hroom]
  rfl

end Servers

section Dispatch

variable {s : SdkCb} {evt : AmEvtBlock} {usgetinfo : Bool}

/-- The operation and the parameter of a CnS request that is passed on. -/
theorem amcnspassed_spec {inipcmsg : List UInt8}
    (hvalid : cnsExpectedOp (amparsecnsrequest inipcmsg).amcnsoperation ≠ none) :
    cnsExpectedOp (amparsecnsrequest (amcnspassed inipcmsg)).amcnsoperation ≠ none ∧
      (amparsecnsrequest (amcnspassed inipcmsg)).amcnsparameter =
        (amparsecnsrequest inipcmsg).amcnsparameter := by
  unfold amcnspassed
  simp only
  split_ifs
  · cases inipcmsg with
    | nil => exact ⟨hvalid, rfl⟩
    | cons operation rest => exact ⟨Option.some_ne_none _, rfl⟩
  · exact ⟨hvalid, rfl⟩

/-- A request that is answered at once. -/
theorem served_answer {out : List SdkOut} {c : ℕ} (hcn : s.cn.Waits) (hhp : s.hp.Waits)
    (howed : s.owed = []) (hroom : s.am.HasRoom) (hout : answered out = [c])
    (hsilent : Silent out) : Served s [c] (responded (some s, out)) := by
  refine served_responded rfl hcn hhp ?_ hsilent ?_
  · rw [hout, howed]
    rfl
  · rw [hout]
    exact hroom

/-- A request of the CnS type. -/
theorem served_cnsrequest (hcn : s.cn.Waits) (hhp : s.hp.Waits) (howed : s.owed = [])
    (hroom : s.am.HasRoom) {inipcmsg : List UInt8} {ipcchannel : AppChannel}
    (hsome : Sdk.amdispatchrequest s.am.amnotifheadq (amparsecnsrequest inipcmsg).amcnsobjid
      (amparsecnsrequest inipcmsg).amcnsoperation ipcchannel.1 ≠ none)
    (hvalid : cnsExpectedOp (amparsecnsrequest inipcmsg).amcnsoperation ≠ none)
    (hchannel : (amparsecnsrequest inipcmsg).amcnsparameter.toUInt8.toNat = ipcchannel.1)
    (hpost : s.cn.HasRoom) :
    Served s [ipcchannel.1] (amdispatchrequest s AmMsgType.cnsRequest inipcmsg ipcchannel) := by
  obtain ⟨amnotifheadq, hnotif⟩ := Option.ne_none_iff_exists'.mp hsome
  obtain ⟨hpassed, hparameter⟩ := amcnspassed_spec hvalid
  obtain ⟨hcnowed, hhpowed⟩ := List.append_eq_nil_iff.mp howed
  have hreq : CnInput.reqchannel (.ipcMsg (amcnspassed inipcmsg)) = some ipcchannel.1 := by
    rw [CnInput.reqchannel, hparameter, hchannel]
  have hserved := served_cnpost amnotifheadq hcn hhp (le_of_lt hroom)
    (fun packet heq => CnInput.ipcMsg.inj heq ▸ hpassed)
  rw [hcnowed, hhpowed, hreq] at hserved
  have hstep : amdispatchrequest s AmMsgType.cnsRequest inipcmsg ipcchannel =
      (some { s with
        am.amnotifheadq := amnotifheadq
        cn.cnicmsgque := s.cn.cnicmsgque ++ [.ipcMsg (amcnspassed inipcmsg)] }, []) := by
    simp only [amdispatchrequest, if_true, hnotif, cnsendrr, CnTask.post_of_room hpost]
    rfl
  rw [hstep]
  exact hserved

/-- A download request. -/
theorem served_fwdwnrequest (hcn : s.cn.Waits) (hhp : s.hp.Waits) (howed : s.owed = [])
    (hfits : s.am.amicmsgque.length ≤ amMsgDepth) (hfree : s.hp.hpphipcchanrr = ciMaxIpcChan)
    (hpost : s.hp.HasRoom) (inipcmsg : List UInt8) (ipcchannel : AppChannel) :
    Served s [ipcchannel.1] (hpsendfwdwnrr s inipcmsg ipcchannel) := by
  obtain ⟨hcnowed, hhpowed⟩ := List.append_eq_nil_iff.mp howed
  obtain ⟨hwaits, htaken⟩ := hhp.download hfree inipcmsg ipcchannel
  have hserved : Served s (s.cn.owed ++ (ipcchannel.1 :: s.hp.owed)) (some { s with
      hp.hpgcb.hpphipcchanrr := ipcchannel.1
      hp.hpphicmsgque := s.hp.hpphicmsgque ++ [.am (.fwdwnreq inipcmsg)] }, []) := by
    rw [← htaken]
    exact served_quiet rfl rfl rfl hcn hwaits rfl ⟨rfl, rfl⟩ hfits
  rw [hcnowed, hhpowed] at hserved
  rw [hpsendfwdwnrr, if_pos hfree,
    hpsend_of_room (s := { s with hp.hpgcb.hpphipcchanrr := ipcchannel.1 }) hpost]
  exact hserved

/-- A request for the packet handler task. -/
theorem served_hprequest (hcn : s.cn.Waits) (hhp : s.hp.Waits) (howed : s.owed = [])
    (hfits : s.am.amicmsgque.length ≤ amMsgDepth) (hpost : s.hp.HasRoom) {msg : HpAmMsg} {c : ℕ}
    (hmsg : HpMsg.reqchannel (.am msg) = some c) : Served s [c] (hpsend s (.am msg)) := by
  obtain ⟨hcnowed, hhpowed⟩ := List.append_eq_nil_iff.mp howed
  have hother : ∀ packet, HpMsg.am msg ≠ .am (.fwdwnreq packet) := by
    intro packet heq
    rw [heq] at hmsg
    cases hmsg
  have hserved := served_hppost hcn hhp hfits hother
  rw [hcnowed, hhpowed, hmsg] at hserved
  rw [hpsend_of_room hpost]
  exact hserved

/-- A request that someone answers. -/
theorem served_amdispatchrequest (hcn : s.cn.Waits) (hhp : s.hp.Waits) (howed : s.owed = [])
    (hroom : s.am.HasRoom) (h : Dispatchable s evt) :
    Served s [evt.amipcchannel.1] (amdispatchrequest s (amparseamheader evt.amdata).amtype
      (evt.amdata.drop amHeaderSz) evt.amipcchannel) := by
  have hfits := le_of_lt hroom
  unfold Dispatchable at h
  generalize (amparseamheader evt.amdata).amtype = amtype at h ⊢
  simp only at h
  split_ifs at h with hcns hfw hhandler
  · obtain ⟨hsome, hvalid, hchannel, hpost⟩ := h
    exact hcns ▸ served_cnsrequest hcn hhp howed hroom hsome hvalid hchannel hpost
  · subst hfw
    exact served_fwdwnrequest hcn hhp howed hfits h.1 h.2 _ _
  · rcases hhandler with rfl | rfl | rfl
    · exact served_hprequest hcn hhp howed hfits h rfl
    · exact served_hprequest hcn hhp howed hfits h rfl
    · exact served_hprequest hcn hhp howed hfits h rfl
  · subst h
    exact served_answer hcn hhp howed hroom rfl ⟨rfl, rfl⟩

/-- A request that was taken from the queue. -/
theorem served_amserverequest (hcn : s.cn.Waits) (hhp : s.hp.Waits) (howed : s.owed = [])
    (hroom : s.am.HasRoom) (h : usgetinfo = true →
      (amparseamheader evt.amdata).amhdrversion = amHdrVersion → Dispatchable s evt) :
    Served s [evt.amipcchannel.1] (amserverequest s usgetinfo evt) := by
  simp only [amserverequest]
  split_ifs with husb hversion
  · exact served_answer hcn hhp howed hroom rfl ⟨rfl, rfl⟩
  · exact served_answer hcn hhp howed hroom rfl ⟨rfl, rfl⟩
  · rw [Bool.not_eq_true, Bool.not_eq_false'] at husb
    exact served_amdispatchrequest hcn hhp howed hroom (h husb (not_not.mp hversion))

end Dispatch

section Steps

variable {s : SdkCb} {log : List SdkOut}

/-- What a regular step does: the tasks go on, by moves of the ledger. -/
def Goes (s : SdkCb) (log : List SdkOut) (r : Option SdkCb × List SdkOut) : Prop :=
  ∃ s', r.1 = some s' ∧ Moves (ledger s log) (ledger s' (log ++ r.2)) ∧ Steady s' (log ++ r.2)

/-- A step that serves what is owed. -/
theorem Served.goes (h : Steady s log) {r : Option SdkCb × List SdkOut}
    (hserved : Served s s.owed r) : Goes s log r := by
  obtain ⟨s', hs', hserves⟩ := hserved
  have hmoves := hserves.moves log
  refine ⟨s', hs', hmoves, h.balanced.moves hmoves, hserves.cn, hserves.hp, ?_, hserves.fits⟩
  rw [hserves.busy, hserves.held]
  exact h.idle

/-- Moves before a step. -/
theorem Goes.after {s' : SdkCb} {r : Option SdkCb × List SdkOut} (h : Goes s' log r)
    (hmoves : Moves (ledger s log) (ledger s' log)) : Goes s log r := by
  obtain ⟨s'', hs'', hgoes, hsteady⟩ := h
  exact ⟨s'', hs'', hmoves.trans hgoes, hsteady⟩

/-- A request arrives. -/
theorem goes_request (h : Steady s log) {packet : List UInt8} {ipcchannel : AppChannel}
    (hregular : Regular (some s) (.request packet ipcchannel)) :
    Goes s log (sdkTaskStep s (.request packet ipcchannel)) := by
  obtain ⟨hpool, hroom⟩ := hregular
  have hstep : sdkTaskStep s (.request packet ipcchannel) =
      (some { s with am.amicmsgque := s.am.amicmsgque ++ [.appRequest ⟨packet, ipcchannel⟩] },
        [.arrived ipcchannel.1]) := by
    have hlt : s.am.amicmsgque.length < amMsgDepth := hroom
    simp only [sdkTaskStep, amipcrcvhandler, if_pos hpool, icsmt_send, if_pos hlt, Option.map_some]
    rfl
  rw [hstep]
  have hledger : ledger
      { s with am.amicmsgque := s.am.amicmsgque ++ [.appRequest ⟨packet, ipcchannel⟩] }
      (log ++ [.arrived ipcchannel.1]) = { ledger s log with
        inbox := (ledger s log).inbox ++ [ipcchannel.1]
        asked := (ledger s log).asked ++ [ipcchannel.1] } := by
    simp only [ledger, List.countP_append, List.filterMap_append, arrivals_append,
      dispatches_append, answered_append]
    congr 1
    · exact List.append_nil _
    · exact List.append_nil _
  have hmove := Move.ask (ledger s log) ipcchannel.1
  rw [← hledger] at hmove
  refine ⟨_, rfl, .single hmove, h.balanced.move hmove, h.cn, h.hp, h.idle, ?_⟩
  rw [List.length_append]
  exact hroom

/-- The AM task takes a message. -/
theorem moves_amappevent {msg : AmMsg} {rest : List AmMsg}
    (hqueue : s.am.amicmsgque = msg :: rest) :
    Moves (ledger s log)
      (ledger { s with am := amappevent { s.am with amicmsgque := rest } msg } log) := by
  cases msg with
  | appRespSent =>
      have hsent : (ledger s log).sent = rest.countP AmMsg.isRespSent + 1 := by
        simp only [ledger, hqueue]
        exact List.countP_cons_of_pos rfl
      have hledger : ledger { s with
          am := amappevent { s.am with amicmsgque := rest } .appRespSent } log =
            { ledger s log with sent := rest.countP AmMsg.isRespSent, busy := false } := by
        simp only [ledger, amappevent, hqueue]
        rfl
      rw [hledger]
      exact .single (.clear hsent)
  | appRequest evt =>
      have hinbox : (ledger s log).inbox =
          evt.amipcchannel.1 :: rest.filterMap AmMsg.reqchannel := by
        simp only [ledger, hqueue]
        exact List.filterMap_cons_some rfl
      have hledger : ledger { s with
          am := amappevent { s.am with amicmsgque := rest } (.appRequest evt) } log =
            { ledger s log with
              inbox := rest.filterMap AmMsg.reqchannel
              held := (ledger s log).held ++ [evt.amipcchannel.1] } := by
        simp only [ledger, amappevent, hqueue, List.map_append]
        rfl
      rw [hledger]
      exact .single (.hold hinbox)

/-- A request is taken from the queue. -/
theorem moves_pass {evt : AmEvtBlock} {rest : List AmEvtBlock} (hidle : s.am.amreqbusy = false)
    (hheld : s.am.ameventheadq = evt :: rest) (howed : s.owed = []) :
    Moves (ledger s log)
      { ledger { s with am.amreqbusy := true, am.ameventheadq := rest }
          (log ++ [.dispatched evt.amipcchannel.1]) with owed := [evt.amipcchannel.1] } := by
  have hheld' : (ledger s log).held =
      evt.amipcchannel.1 :: rest.map fun evt => evt.amipcchannel.1 := by
    simp only [ledger, hheld]
    rfl
  have hmove := Move.pass (l := ledger s log) hidle hheld'
  have hledger : { ledger { s with am.amreqbusy := true, am.ameventheadq := rest }
      (log ++ [.dispatched evt.amipcchannel.1]) with owed := [evt.amipcchannel.1] } =
        { ledger s log with
          busy := true
          held := rest.map fun evt => evt.amipcchannel.1
          owed := (ledger s log).owed ++ [evt.amipcchannel.1]
          passed := (ledger s log).passed ++ [evt.amipcchannel.1] } := by
    simp only [ledger, howed, arrivals_append, dispatches_append, answered_append]
    congr 1
    · exact List.append_nil _
    · exact List.append_nil _
  rw [hledger]
  exact .single hmove

/-- The AM task serves its queue after it has taken a message. -/
theorem goes_amservequeue (hbalanced : Balanced (ledger s log)) (hcn : s.cn.Waits)
    (hhp : s.hp.Waits) (hroom : s.am.HasRoom) {usgetinfo : Bool}
    (hregular : ∀ evt, s.am.amreqbusy = false → s.am.ameventheadq.head? = some evt →
      usgetinfo = true → (amparseamheader evt.amdata).amhdrversion = amHdrVersion →
        Dispatchable s evt) :
    Goes s log (amservequeue s usgetinfo) := by
  rw [amservequeue]
  cases hbusy : s.am.amreqbusy with
  | true =>
      rw [if_pos rfl]
      refine ⟨s, rfl, ?_, ?_⟩
      · rw [List.append_nil]
        exact .refl
      · rw [List.append_nil]
        exact ⟨hbalanced, hcn, hhp, fun hidle => Bool.noConfusion (hbusy.symm.trans hidle),
          le_of_lt hroom⟩
  | false =>
      rw [if_neg Bool.false_ne_true]
      cases hheld : s.am.ameventheadq with
      | nil =>
          refine ⟨s, rfl, ?_, ?_⟩
          · rw [List.append_nil]
            exact .refl
          · rw [List.append_nil]
            exact ⟨hbalanced, hcn, hhp, fun _ => hheld, le_of_lt hroom⟩
      | cons evt rest =>
          have howed : s.owed = [] := hbalanced.owed_eq_nil hbusy
          obtain ⟨s', hs', hserves⟩ := served_amserverequest
            (s := { s with am.amreqbusy := true, am.ameventheadq := rest }) hcn hhp howed hroom
            (hregular evt hbusy (by rw [hheld]; rfl))
          have hserve := hserves.moves (log ++ [.dispatched evt.amipcchannel.1])
          rw [List.append_assoc] at hserve
          have hmoves := (moves_pass hbusy hheld howed).trans hserve
          refine ⟨s', hs', hmoves, hbalanced.moves hmoves, hserves.cn, hserves.hp, fun hidle => ?_,
            hserves.fits⟩
          rw [hserves.busy] at hidle
          exact Bool.noConfusion hidle

/-- A round of the AM task. -/
theorem goes_amipctask (h : Steady s log) {usgetinfo : Bool}
    (hregular : Regular (some s) (.amipctask usgetinfo)) :
    Goes s log (amipctask s usgetinfo) := by
  rw [amipctask]
  cases hqueue : s.am.amicmsgque with
  | nil => exact Served.goes h ⟨s, rfl, .refl h⟩
  | cons msg rest =>
      have hmoves : Moves (ledger s log)
          (ledger { s with am := amappevent { s.am with amicmsgque := rest } msg } log) :=
        moves_amappevent hqueue
      have hbalanced := h.balanced.moves hmoves
      have hroom : rest.length < amMsgDepth := by
        have hfits := h.fits
        rw [hqueue] at hfits
        exact hfits
      cases msg with
      | appRespSent =>
          refine (goes_amservequeue hbalanced h.cn h.hp hroom fun evt _ hevt => ?_).after hmoves
          refine hregular evt ?_
          rw [AmIpcCb.next, hqueue]
          exact hevt
      | appRequest evt =>
          refine (goes_amservequeue hbalanced h.cn h.hp hroom fun evt' hidle hevt => ?_).after
            hmoves
          have hbusy : s.am.amreqbusy = false := hidle
          refine hregular evt' ?_
          rw [AmIpcCb.next, hqueue]
          simp only [hbusy, Bool.false_eq_true, if_false]
          exact hevt

/-- A step after which no one is answered. -/
theorem goes_quiet (h : Steady s log) {s' : SdkCb} {out : List SdkOut}
    (hqueue : s'.am.amicmsgque = s.am.amicmsgque) (hbusy : s'.am.amreqbusy = s.am.amreqbusy)
    (hheld : s'.am.ameventheadq = s.am.ameventheadq) (hcn : s'.cn.Waits) (hhp : s'.hp.Waits)
    (howed : s'.owed = s.owed) (hanswered : answered out = []) (hsilent : Silent out) :
    Goes s log (some s', out) := by
  have hserved := served_quiet hqueue hbusy hheld hcn hhp hanswered hsilent h.fits
  rw [howed] at hserved
  exact hserved.goes h

/-- A message is posted to the CnS task, or a tick. -/
theorem goes_cnpost (h : Steady s log) (amnotifheadq : List AmIpcNotifQ) {msg : CnInput}
    (hmsg : CnInput.reqchannel msg = none) (hrequest : ∀ packet, msg ≠ .ipcMsg packet) :
    Goes s log (some { s with
      am.amnotifheadq := amnotifheadq
      cn.cnicmsgque := s.cn.cnicmsgque ++ [msg] }, []) := by
  have hserved := served_cnpost amnotifheadq h.cn h.hp h.fits
    (fun packet heq => absurd heq (hrequest packet))
  rw [hmsg, Option.toList_none, List.append_nil] at hserved
  exact hserved.goes h

/-- A message that is no request is posted to the packet handler task, or a tick. -/
theorem goes_hppost (h : Steady s log) {msg : HpMsg} (hmsg : msg.reqchannel = none)
    (hrequest : ∀ packet, msg ≠ .am (.fwdwnreq packet)) :
    Goes s log (some { s with hp.hpphicmsgque := s.hp.hpphicmsgque ++ [msg] }, []) := by
  have hserved := served_hppost h.cn h.hp h.fits hrequest
  rw [hmsg, Option.toList_none, List.append_nil] at hserved
  exact hserved.goes h

/-- A packet of the modem for the CnS task. -/
theorem goes_cnRxPacket (h : Steady s log) {cnshdr : List UInt8} {peeravail : ℕ → Bool}
    (hregular : Regular (some s) (.cnRxPacket cnshdr peeravail)) :
    Goes s log (cnRxPacket s cnshdr peeravail) := by
  obtain ⟨optype, hoptype, hroom⟩ := hregular
  rw [cnRxPacket, hoptype]
  simp only
  split_ifs with hnotification
  · exact goes_quiet h rfl rfl rfl h.cn h.hp rfl rfl ⟨rfl, rfl⟩
  · rw [CnTask.post_of_room (hroom hnotification)]
    exact goes_cnpost h s.am.amnotifheadq rfl fun _ => CnInput.noConfusion

/-- A regular step. -/
theorem sdkTaskStep_goes (h : Steady s log) {e : SdkEvent} (hregular : Regular (some s) e) :
    Goes s log (sdkTaskStep s e) := by
  cases e with
  | request packet ipcchannel => exact goes_request h hregular
  | amipctask usgetinfo => exact goes_amipctask h hregular
  | cnRxPacket cnshdr peeravail => exact goes_cnRxPacket h hregular
  | cntick =>
      have hroom : s.cn.cnicmsgque.length < cnRrMsgDepth := hregular
      rw [sdkTaskStep, icsmt_send, if_pos hroom]
      exact goes_cnpost h s.am.amnotifheadq rfl fun _ => CnInput.noConfusion
  | cnrrtask => exact (served_cnrrtask h hregular).goes h
  | hpmdm msg =>
      rw [sdkTaskStep, hpsend_of_room hregular]
      exact goes_hppost h rfl fun _ => HpMsg.noConfusion
  | hpphtick =>
      have hroom : s.hp.hpphicmsgque.length < hpphMsgDepth := hregular
      rw [sdkTaskStep, icsmt_send, if_pos hroom]
      exact goes_hppost h rfl fun _ => HpMsg.noConfusion
  | hpphtask ans => exact (served_hpphtask h hregular).goes h
  | hpstateclear =>
      exact goes_quiet h rfl rfl rfl h.cn ⟨h.hp.fw, h.hp.dev, (Option.some_ne_none _).symm⟩ rfl
        rfl ⟨rfl, rfl⟩

end Steps

section Runs

theorem steady_sdkinit : Steady sdkinit [] where
  balanced := balanced_init
  cn := ⟨⟨fun h => Bool.noConfusion h, fun h => absurd rfl h⟩,
    fun _ hmem => absurd hmem List.not_mem_nil⟩
  hp := ⟨⟨control_init, fun hrun => absurd rfl hrun, fun _ => rfl⟩, Hpph.devInv_hpdirclearreq,
    (Option.some_ne_none _).symm⟩
  idle := fun _ => rfl
  fits := Nat.zero_le _

/-- A run of regular steps. -/
theorem moves_run {events : List SdkEvent} {s : SdkCb} {log : List SdkOut} (h : Steady s log)
    (hmeets : Meets sdkStep Regular (some s) events) :
    ∃ s', after sdkStep (some s) events = some s' ∧
      Moves (ledger s log) (ledger s' (log ++ outputs sdkStep (some s) events)) ∧
        Steady s' (log ++ outputs sdkStep (some s) events) := by
  induction events generalizing s log with
  | nil =>
      rw [outputs_nil, List.append_nil]
      exact ⟨s, rfl, .refl, h⟩
  | cons e events ih =>
      obtain ⟨hregular, hrest⟩ := hmeets
      obtain ⟨s₁, hs₁, hmoves, hsteady⟩ := sdkTaskStep_goes h hregular
      have hstep : (sdkStep (some s) e).1 = some s₁ := hs₁
      rw [hstep] at hrest
      obtain ⟨s', hs', hmoves', hsteady'⟩ := ih hsteady hrest
      rw [after_cons, outputs_cons, hstep, ← List.append_assoc]
      exact ⟨s', hs', hmoves.trans hmoves', hsteady'⟩

variable {s : SdkCb} {log : List SdkOut}

/-- The responses are in order. -/
theorem Steady.inOrder (h : Steady s log) : InOrder log s where
  own := h.balanced.answered_isPrefix
  order := h.balanced.passed_isPrefix
  one := h.balanced.length_passed_le
  all := by
    intro hidle hqueue
    refine h.balanced.answered_eq_asked hidle ?_ ?_
    · simp only [ledger, h.idle hidle, List.map_nil]
    · simp only [ledger, hqueue, List.filterMap_nil]

/-- The CnS task owes a response exactly if a request waits in its queue or for its timer. -/
theorem CnTask.Waits.toCome_iff {t : CnTask} (h : t.Waits) :
    t.owed ≠ [] ↔
      t.cnicmsgque.any CnInput.isRequest = true ∨ t.cnrrtcb.cnmdmwaittmr ≠ 0 := by
  have hqueue : t.cnicmsgque.any CnInput.isRequest = true ↔
      t.cnicmsgque.filterMap CnInput.reqchannel ≠ [] := by
    constructor
    · intro hany
      obtain ⟨msg, hmem, hmsg⟩ := List.any_eq_true.mp hany
      cases msg with
      | ipcMsg packet => exact List.ne_nil_of_mem (List.mem_filterMap.mpr ⟨_, hmem, rfl⟩)
      | hpMsg cnshdr => cases hmsg
      | tmrTick => cases hmsg
    · intro hne
      obtain ⟨c, hc⟩ := List.exists_mem_of_ne_nil _ hne
      obtain ⟨msg, hmem, hmsg⟩ := List.mem_filterMap.mp hc
      refine List.any_eq_true.mpr ⟨msg, hmem, ?_⟩
      cases msg with
      | ipcMsg packet => rfl
      | hpMsg cnshdr => cases hmsg
      | tmrTick => cases hmsg
  rw [hqueue, ← h.timed, CnTask.owed]
  cases t.cnrrtcb.cnswdata.cnsbusy with
  | true => simp
  | false => simp

/-- A request waits for the packet handler task: one for a download, or another one. -/
theorem any_isRequest_iff {t : HpTask} :
    t.hpphicmsgque.any HpMsg.isRequest = true ↔
      0 < t.fwtask.asked ∨ t.hpphicmsgque.filterMap HpMsg.reqchannel ≠ [] := by
  constructor
  · intro hany
    obtain ⟨msg, hmem, hmsg⟩ := List.any_eq_true.mp hany
    cases msg with
    | am msg =>
        cases msg with
        | fwdwnreq packet =>
            exact .inl (List.countP_pos_iff.mpr ⟨_, List.mem_filterMap.mpr ⟨_, hmem, rfl⟩, rfl⟩)
        | airreq packet c =>
            exact .inr (List.ne_nil_of_mem (List.mem_filterMap.mpr ⟨_, hmem, rfl⟩))
        | portreq c => exact .inr (List.ne_nil_of_mem (List.mem_filterMap.mpr ⟨_, hmem, rfl⟩))
        | dirreq version reqtype c =>
            exact .inr (List.ne_nil_of_mem (List.mem_filterMap.mpr ⟨_, hmem, rfl⟩))
    | mdm msg => cases hmsg
    | tick => cases hmsg
  · rintro (hasked | hne)
    · obtain ⟨e, hfw, he⟩ := List.countP_pos_iff.mp hasked
      obtain ⟨msg, hmem, hmsg⟩ := List.mem_filterMap.mp hfw
      refine List.any_eq_true.mpr ⟨msg, hmem, ?_⟩
      cases msg with
      | am msg => rfl
      | mdm msg => cases msg <;> cases hmsg <;> cases he
      | tick =>
          cases hmsg
          cases he
    · obtain ⟨c, hc⟩ := List.exists_mem_of_ne_nil _ hne
      obtain ⟨msg, hmem, hmsg⟩ := List.mem_filterMap.mp hc
      refine List.any_eq_true.mpr ⟨msg, hmem, ?_⟩
      cases msg with
      | am msg => rfl
      | mdm msg => cases hmsg
      | tick => cases hmsg

/-- A device request that is outstanding has its timer running. -/
theorem devtimer_ne_zero {devinfo : Hpph.HpDevInfo} (h : Hpph.DevInv devinfo)
    (howed : devicechannels devinfo ≠ []) : devinfo.hpphdevtimer ≠ 0 := by
  cases hbusy : devinfo.hpdevbusy with
  | true => exact (h.busy hbusy).ne'
  | false =>
      refine absurd ?_ howed
      rw [devicechannels, (h.idle hbusy).2]
      rfl

/-- A download that is outstanding waits in the queue or for its timer, or for the response to a
continue request. -/
theorem LiveTask.toCome {t : FwTask} (h : LiveTask t) (howed : t.outstanding ≠ [])
    (hdwn : t.hpgcb.amfwdwnstate ≠ .dwn) :
    0 < t.asked ∨ t.hpgcb.amfwdwnstate ≠ .done ∧ t.hpgcb.hptimeron = true := by
  cases h.control with
  | idle _ _ _ _ hchan => exact absurd (if_pos hchan) howed
  | asked _ _ _ hasked => exact .inl (hasked ▸ Nat.one_pos)
  | runs hrun => exact .inr ⟨hrun, h.timed hrun hdwn⟩

/-- A download that waits for the response to a continue request is outstanding. -/
theorem LiveTask.of_dwn {t : FwTask} (h : LiveTask t) (hdwn : t.hpgcb.amfwdwnstate = .dwn) :
    t.outstanding.length = 1 ∧ t.asked = 0 := by
  cases h.control with
  | idle hdone => exact absurd (hdone.symm.trans hdwn) (by decide)
  | asked hdone => exact absurd (hdone.symm.trans hdwn) (by decide)
  | runs _ hasked hchan =>
      rw [FwTask.outstanding, if_neg hchan]
      exact ⟨rfl, hasked⟩

/-- A request of the packet handler task waits in its queue or for its timer. -/
theorem HpTask.Waits.toCome {t : HpTask} (h : t.Waits) (howed : t.owed ≠ [])
    (hdwn : t.hpgcb.amfwdwnstate ≠ .dwn) :
    t.hpphicmsgque.any HpMsg.isRequest = true ∨
      devicechannels t.hpphcb.hpphdevinfo ≠ [] ∧ t.hpphcb.hpphdevinfo.hpphdevtimer ≠ 0 ∨
        t.hpgcb.amfwdwnstate ≠ .done ∧ t.hpgcb.hptimeron = true := by
  by_cases hfw : t.fwtask.outstanding = []
  · by_cases hdev : devicechannels t.hpphcb.hpphdevinfo = []
    · rw [HpTask.owed, hfw, hdev] at howed
      exact .inl (any_isRequest_iff.mpr (.inr howed))
    · exact .inr (.inl ⟨hdev, devtimer_ne_zero h.dev hdev⟩)
  · rcases h.fw.toCome hfw hdwn with hasked | htimed
    · exact .inl (any_isRequest_iff.mpr (.inl hasked))
    · exact .inr (.inr htimed)

/-- A busy AM task has an event to come. -/
theorem Steady.toCome (h : Steady s log) (hdwn : s.hp.hpgcb.amfwdwnstate ≠ .dwn)
    (hbusy : s.am.amreqbusy = true) : ToCome s := by
  rcases h.balanced.owed_or_sent hbusy with howed | hsent
  · by_cases hcn : s.cn.owed = []
    · have hhp : s.hp.owed ≠ [] := fun hnil => howed (by
        simp only [ledger, SdkCb.owed, hcn, hnil, List.append_nil])
      exact .inr (.inr (.inr (h.hp.toCome hhp hdwn)))
    · rcases h.cn.toCome_iff.mp hcn with hqueued | htimed
      · exact .inr (.inl hqueued)
      · exact .inr (.inr (.inl htimed))
  · obtain ⟨msg, hmem, hmsg⟩ := List.countP_pos_iff.mp (Nat.pos_of_ne_zero hsent)
    exact .inl (List.any_eq_true.mpr ⟨msg, hmem, hmsg⟩)

/-- No event is to come while a download waits for the response to a continue request. -/
theorem Steady.not_toCome (h : Steady s log) (hdwn : s.hp.hpgcb.amfwdwnstate = .dwn) :
    s.am.amreqbusy = true ∧ ¬ ToCome s := by
  obtain ⟨hone, hasked⟩ := h.hp.fw.of_dwn hdwn
  have honce : (s.cn.owed ++ (s.hp.fwtask.outstanding ++
      (devicechannels s.hp.hpphcb.hpphdevinfo ++
        s.hp.hpphicmsgque.filterMap HpMsg.reqchannel))).length +
          s.am.amicmsgque.countP AmMsg.isRespSent = s.am.amreqbusy.toNat := h.balanced.once
  have hle := s.am.amreqbusy.toNat_le
  simp only [List.length_append, hone] at honce
  have hcn : s.cn.owed = [] := List.length_eq_zero_iff.mp (by omega)
  have hdev : devicechannels s.hp.hpphcb.hpphdevinfo = [] := List.length_eq_zero_iff.mp (by omega)
  have hreq : s.hp.hpphicmsgque.filterMap HpMsg.reqchannel = [] :=
    List.length_eq_zero_iff.mp (by omega)
  have hsent : s.am.amicmsgque.countP AmMsg.isRespSent = 0 := by omega
  refine ⟨?_, ?_⟩
  · cases hbusy : s.am.amreqbusy with
    | true => rfl
    | false =>
        rw [hbusy, Bool.toNat_false] at honce
        omega
  · rintro (hany | hcnany | hcntimer | hhpany | hdevice | htimer)
    · obtain ⟨msg, hmem, hmsg⟩ := List.any_eq_true.mp hany
      exact (List.countP_pos_iff.mpr ⟨msg, hmem, hmsg⟩).ne' hsent
    · exact h.cn.toCome_iff.mpr (.inl hcnany) hcn
    · exact h.cn.toCome_iff.mpr (.inr hcntimer) hcn
    · rcases any_isRequest_iff.mp hhpany with hpos | hne
      · exact hpos.ne' hasked
      · exact hne hreq
    · exact hdevice.1 hdev
    · exact Bool.noConfusion ((h.hp.fw.untimed hdwn).symm.trans htimer.2)

/-- Any run of regular steps. -/
theorem steady_run {events : List SdkEvent}
    (hmeets : Meets sdkStep Regular (some sdkinit) events) :
    ∃ s, after sdkStep (some sdkinit) events = some s ∧
      Steady s (outputs sdkStep (some sdkinit) events) := by
  obtain ⟨s, hs, -, hsteady⟩ := moves_run steady_sdkinit hmeets
  exact ⟨s, hs, hsteady⟩

/-- In a run of regular steps the responses are in order, and a busy AM task has an event to come
unless a download waits for the response to a continue request. -/
theorem keepsStopAndWait_iff_of_regular {events : List SdkEvent}
    (hmeets : Meets sdkStep Regular (some sdkinit) events) :
    (∃ s, after sdkStep (some sdkinit) events = some s ∧
      InOrder (outputs sdkStep (some sdkinit) events) s) ∧
        (KeepsStopAndWait events ↔
          ∀ s ∈ after sdkStep (some sdkinit) events, s.hp.hpgcb.amfwdwnstate ≠ .dwn) := by
  obtain ⟨s, hs, hsteady⟩ := steady_run hmeets
  refine ⟨⟨s, hs, hsteady.inOrder⟩, ?_⟩
  rw [KeepsStopAndWait, hs]
  constructor
  · rintro ⟨s', hs', -, htoCome⟩ s'' hs'' hdwn
    obtain rfl := Option.some.inj hs'
    obtain rfl := Option.some.inj hs''
    obtain ⟨hbusy, hnone⟩ := hsteady.not_toCome hdwn
    exact hnone (htoCome hbusy)
  · intro hdwn
    exact ⟨s, rfl, hsteady.inOrder, hsteady.toCome (hdwn s rfl)⟩

/-- A device with or without the unified product id. -/
def deviceAnswer (unifiedpid : Bool) : HpAnswer :=
  ⟨bootLoaderOs [], unifiedpid, Hpph.amDevInfoZero, fun _ => none, amparseairserverrequest []⟩

/-- A request of a type is dispatched, and the packet handler task goes on. -/
def requestRun (amtype : UInt16) (unifiedpid : Bool) : List SdkEvent :=
  [.request (ambuildamheader amtype amHdrVersion 0 0) firstChannel, .amipctask true,
    .hpphtask (deviceAnswer unifiedpid)]

theorem keepsStopAndWait_devInfoRun : KeepsStopAndWait (requestRun AmMsgType.devInfoReq true) := by
  have hmeets : Meets sdkStep Regular (some sdkinit) (requestRun AmMsgType.devInfoReq true) := by
    refine ⟨⟨Nat.succ_pos _, Nat.succ_pos _⟩, ?_, ?_, trivial⟩
    · intro evt hevt _ _
      obtain rfl := Option.some.inj hevt
      exact ⟨Nat.succ_pos _, Nat.succ_pos _⟩
    · intro _ msg hmsg
      obtain rfl := Option.some.inj hmsg
      exact ⟨⟨rfl, rfl, rfl⟩, fun _ => Nat.succ_pos _⟩
  refine (keepsStopAndWait_iff_of_regular hmeets).2.mpr fun s hs => ?_
  obtain rfl := Option.some.inj hs
  exact FwState.noConfusion

/-- A device request that is turned down is answered on all channels, and a request of an unknown
type is not answered. -/
theorem not_keepsStopAndWait : ¬ KeepsStopAndWait (requestRun AmMsgType.devInfoReq false) ∧
    ¬ KeepsStopAndWait (requestRun AmMsgType.invalid true) := by
  constructor
  · rintro ⟨s, -, horder, -⟩
    have hlength := horder.own.length_le
    revert hlength
    decide
  · rintro ⟨s, hs, -, htoCome⟩
    obtain rfl := Option.some.inj hs
    rcases htoCome rfl with h | h | h | h | h | h
    · exact Bool.noConfusion h
    · exact Bool.noConfusion h
    · exact h rfl
    · exact Bool.noConfusion h
    · exact h.1 rfl
    · exact h.1 rfl

end Runs

end AmIpc

end Sdk

end SierraSdk
