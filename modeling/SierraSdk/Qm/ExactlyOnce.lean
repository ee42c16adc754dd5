import Mathlib.Data.List.TakeDrop
import SierraSdk.Qm.Task

/-!
# One response for every request

`exchangeStep` makes the same steps as the task and also shows the arrival of requests.
`onceMonitor` keeps the channel that is owed a response: a request may arrive when none is
owed, and a response must go to the channel that is owed one. So a trace without a violation
is a sequence of requests, each followed by one response on its channel before the next one,
and possibly a last request that is still owed its response. Timer ticks then bring it.

The task keeps to this as long as nothing goes wrong in the ways listed in `OnceGuard`. The
owed channel is the one of the outstanding request (`Owes`), whose timer is running.
-/

namespace SierraSdk

namespace Qm

open Am Ci Machine Mm

/-- What the AM task sees: requests it passes on and what comes out. -/
inductive Exchange where
  | request (ipcchan : UInt8)
  | output (o : QmOut)

/-- The request that an event brings. -/
def arrival : QmEvent → List Exchange
  | .qmiReq _ ipcchan _ => [.request ipcchan]
  | _ => []

/-- A step of the task, with the request it begins with. -/
def exchangeStep (s : Option QmTcb) (event : QmEvent) : Option QmTcb × List Exchange :=
  ((qmStep s event).1, arrival event ++ (qmStep s event).2.map .output)

/-- A response must go to the channel that is owed one. -/
def responseMonitor (owed : Option UInt8) : QmOut → Option (Option UInt8)
  | .amsdkSend channel msg =>
      if msg.amtype = AmMsgType.qmiResponse then
        if owed = some channel then some none else none
      else some owed
  | _ => some owed

/-- A request may arrive when no response is owed. -/
def onceMonitor (owed : Option UInt8) : Exchange → Option (Option UInt8)
  | .request ipcchan => if owed = none then some (some ipcchan) else none
  | .output o => responseMonitor owed o

/-- In a run every request is answered once, on its channel and before the next one, the last
one by some later tick at the latest. -/
def ExactlyOnce (events : List QmEvent) : Prop :=
  ∃ owed, watch onceMonitor none (outputs exchangeStep (some qminit) events) = some owed ∧
    ∃ n, watch onceMonitor none (outputs exchangeStep (some qminit)
      (events ++ List.replicate n (.tick false))) = some none

section Guard

/-- A firmware management request that gets its answer: its TLVs can be extracted, its
response built, and no loop over a directory is left in the middle. -/
def FmsAnswers (preq : List UInt8) (env : FmsEnv) : Prop :=
  env.unpacked = true ∧ env.built = true ∧
    ¬ ((preq.getD 0 0).toNat = 2 ∧ env.mbnReturns = true)

/-- The packet for the modem fits its send buffer: a buffer of the small pool holds 260 bytes,
one of the large pool 4100, and three go before the message. -/
def PacketFits (parms : AmQmiRrParms) : Prop :=
  parms.amqmixactionlen.toNat ≠ 258 ∧ parms.amqmixactionlen.toNat ≤ 4097

/-- A request for the modem that gets its answer: a client to be opened has a shell, the
packet fits its buffer, and it can be sent unless the request came on the first channel. -/
def ModemAnswers (p : QmTcb) (parms : AmQmiRrParms) (ipcchan : UInt8) (env : ReqEnv) : Prop :=
  let registered := (p.qmiclients (requestClient p parms)).registered
  (registered = true ∨
      env.ioctlOk = true ∧ parms.qmiinstanceid.toNat < qmMaxQmiInstSupported) →
    PacketFits parms ∧ (env.sendOk = true ∨ ipcchan = cigetchannelnum .qmrr1)

/-- A request that the task answers, at once or later. -/
def RequestAnswers (s : QmTcb) (packet : List UInt8) (ipcchan : UInt8) (env : ReqEnv) : Prop :=
  let t := { s with qmipcchannel := ipcchan }
  let parms := amparseqmixactionheader packet
  let p := qmparser t parms.qmiinstanceid (.ofCode parms.amqmisvctype) (packet.drop amQmiRrnSz)
  let client := qmisvc2qmiclnt_map parms.qmiinstanceid (.ofCode parms.amqmisvctype)
  requestError t parms client ≠ EQCWWANError.none ∨
    if client = .dcs 0 then s.qmdcsicmsgque.length < dcsevtpoolsz
    else if client = .fms then FmsAnswers (packet.drop amQmiRrnSz) env.fms
    else
      ((p.qmiclients (requestClient p parms)).registered = true ∨ env.ioctlOk = false ∨
        parms.qmiinstanceid.toNat < qmMaxQmiInstSupported) ∧
      ModemAnswers p parms ipcchan env

/-- The entries of the startup table that a mask selects are clients. -/
def MaskInTable (mask : UInt8) : Prop :=
  ∀ k < qmcountSetBits mask, (maskToSrv (k + 1) mask).isSome = true

/-- A request from the DCS queue that does no harm: it can be unpacked and answered, it is not
the outstanding request being cancelled, and if it is answered with a result code it is the
outstanding request. -/
def DcsAnswers (s : QmTcb) (evt : QmDcsEvtBlock) (env : DcsEnv) : Prop :=
  env.unpacked = true ∧ env.built = true ∧
    (evt.request = 4 → s.qmbusy = false) ∧
    (evt.request = 7 → env.srvStatus = regsrv ∨ env.srvStatus = deregsrv →
      MaskInTable env.mask) ∧
    (evt.request = 14 → evt.instanceid.toNat < qmMaxQmiInstSupported) ∧
    ((dcsShortResult s evt).isSome = true →
      s.activeclient = .dcs 0 ∧ s.qmipcchannel = evt.qmdcsevtipcchan ∧
        qmdcsvalidateresponse s evt.xactionid = true)

/-- A packet from the modem is a response or a notification, and the application of the
request that a response answers is still registered. -/
def RxAnswers (s : QmTcb) (qmpacket : List UInt8) : Prop :=
  (qmpacket.getD 0 0 = eQMIRES ∨ qmpacket.getD 0 0 = eQMINOT) ∧
    (qmpacket.getD 0 0 = eQMIRES → s.qmbusy = true →
      qmixactionidvalidate s (piget16 qmpacket 1) = true →
        qmIsAppRegistered s s.qmipcchannel eQMIRES = true)

/-- Requests arrive when none is outstanding and with a timeout, and events go well. -/
def OnceGuard : Option QmTcb → QmEvent → Prop
  | some s, .qmiReq packet ipcchan env =>
      s.qmbusy = false ∧ (amparseqmixactionheader packet).amqmireqtimeout ≠ 0 ∧
        RequestAnswers s packet ipcchan env
  | some s, .rx _ _ qmpacket => RxAnswers s qmpacket
  | some s, .dcs env =>
      match s.qmdcsicmsgque with
      | [] => True
      | evt :: _ => DcsAnswers s evt env
  | _, _ => True

instance (preq : List UInt8) (env : FmsEnv) : Decidable (FmsAnswers preq env) :=
  inferInstanceAs (Decidable (_ ∧ _))

instance (parms : AmQmiRrParms) : Decidable (PacketFits parms) :=
  inferInstanceAs (Decidable (_ ∧ _))

instance (p : QmTcb) (parms : AmQmiRrParms) (ipcchan : UInt8) (env : ReqEnv) :
    Decidable (ModemAnswers p parms ipcchan env) :=
  inferInstanceAs (Decidable (_ ∨ _ → _))

instance (s : QmTcb) (packet : List UInt8) (ipcchan : UInt8) (env : ReqEnv) :
    Decidable (RequestAnswers s packet ipcchan env) :=
  inferInstanceAs (Decidable (_ ∨ ite _ _ _))

instance (mask : UInt8) : Decidable (MaskInTable mask) :=
  inferInstanceAs (Decidable (∀ k < _, _))

instance (s : QmTcb) (evt : QmDcsEvtBlock) (env : DcsEnv) : Decidable (DcsAnswers s evt env) :=
  inferInstanceAs (Decidable (_ ∧ _ ∧ _ ∧ _ ∧ _ ∧ _))

instance (s : QmTcb) (qmpacket : List UInt8) : Decidable (RxAnswers s qmpacket) :=
  inferInstanceAs (Decidable (_ ∧ _))

instance (s : Option QmTcb) (event : QmEvent) : Decidable (OnceGuard s event) :=
  match s, event with
  | some _, .qmiReq _ _ _ => inferInstanceAs (Decidable (_ ∧ _ ∧ _))
  | some s, .rx _ _ qmpacket => inferInstanceAs (Decidable (RxAnswers s qmpacket))
  | some s, .dcs env =>
      match hque : s.qmdcsicmsgque with
      | [] => .isTrue (by simp only [OnceGuard, hque])
      | evt :: _ => decidable_of_iff (DcsAnswers s evt env) (by simp only [OnceGuard, hque])
  | some _, .tick _ | some _, .device _ | some _, .net _ _ | some _, .fwStatus _ =>
      inferInstanceAs (Decidable True)
  | none, _ => inferInstanceAs (Decidable True)

end Guard

/-- The invariant of a task that answers every request: the timer runs while a request is
outstanding and only then, and the send buffers are intact. -/
structure Healthy (s : QmTcb) : Prop where
  timer : s.qmmdmwaittmr = 0 ↔ s.qmbusy = false
  txpool : s.qmtxpool.Intact
  txsmlpool : s.qmtxsmlpool.Intact
  txsize : s.qmtxpool.mmblocksize = 4100
  txsmlsize : s.qmtxsmlpool.mmblocksize = 260

/-- The task is alive, and what is owed is a response to the outstanding request. -/
def Owes : Option QmTcb → Option UInt8 → Prop
  | none, _ => False
  | some s, owed => Healthy s ∧ owed = if s.qmbusy then some s.qmipcchannel else none

namespace Owes

variable {s t : QmTcb} {owed : Option UInt8}

theorem responseMonitor_background {o : QmOut} (h : o.isBackground = true) :
    responseMonitor owed o = some owed := by
  cases o <;> first | rfl | cases h

/-- Only the record, the timer and the pools matter. -/
theorem congr (h : Owes (some s) owed) (hsame : SameRecord s t) : Owes (some t) owed := by
  obtain ⟨hhealthy, howed⟩ := h
  refine ⟨⟨?_, ?_, ?_, ?_, ?_⟩, ?_⟩
  · rw [hsame.qmmdmwaittmr, hsame.qmbusy, hhealthy.timer]
  · rw [hsame.qmtxpool]
    exact hhealthy.txpool
  · rw [hsame.qmtxsmlpool]
    exact hhealthy.txsmlpool
  · rw [hsame.qmtxpool, hhealthy.txsize]
  · rw [hsame.qmtxsmlpool, hhealthy.txsmlsize]
  · rw [hsame.qmbusy, hsame.qmipcchannel, howed]

/-- The control block of an answered request owes nothing. -/
theorem owes_qmclearrespinfo (h : Healthy s) : Owes (some (qmclearrespinfo s)) none :=
  ⟨⟨by simp [qmclearrespinfo], h.txpool, h.txsmlpool, h.txsize, h.txsmlsize⟩, rfl⟩

/-- Answering the outstanding request. -/
theorem tracks_answer (h : Healthy s) {channel : UInt8} {msg : AmQmiMsg}
    (hmsg : msg.amtype = AmMsgType.qmiResponse) :
    Tracks responseMonitor Owes (some channel)
      (some (qmclearrespinfo s), [.amsdkSend channel msg]) :=
  ⟨none, by simp [responseMonitor, hmsg], owes_qmclearrespinfo h⟩

/-- A step that answers nothing and leaves the record, the timer and the pools. -/
theorem tracks_quiet (h : Owes (some s) owed) (hsame : SameRecord s t) {out : List QmOut}
    (hout : ∀ o ∈ out, responseMonitor owed o = some owed) :
    Tracks responseMonitor Owes owed (some t, out) :=
  tracks_ignored (h.congr hsame) hout

section LocalServices

theorem closeRegistered_ignored (points : QmiClient → QmiControlPoint) :
    ∀ o ∈ closeRegistered QmiClient.all points, responseMonitor owed o = some owed := by
  intro o ho
  obtain ⟨c, -, rfl⟩ := List.mem_map.mp ho
  rfl

theorem tracks_qm_qmisvc_send_response (h : Owes (some s) owed) (hbusy : s.qmbusy = true)
    (svc : EQmiService) (xactionid : UInt16) {env : SvcEnv} (hbuilt : env.built = true) :
    Tracks responseMonitor Owes owed (qm_qmisvc_send_response s svc xactionid env) := by
  obtain ⟨hhealthy, howed⟩ := id h
  rw [hbusy, if_pos rfl] at howed
  unfold qm_qmisvc_send_response
  split_ifs
  · exact tracks_nil h
  · rw [howed]
    exact tracks_answer hhealthy rfl

theorem tracks_dcsRespond (h : Owes (some s) owed) (evt : QmDcsEvtBlock) {env : DcsEnv}
    (hbuilt : env.built = true) :
    Tracks responseMonitor Owes owed (dcsRespond s evt env) := by
  by_cases hvalid : qmdcsvalidateresponse s evt.xactionid = true
  · have hbusy : s.qmbusy = true := by
      unfold qmdcsvalidateresponse at hvalid
      simp only [Bool.and_eq_true] at hvalid
      exact hvalid.1.1
    exact tracks_qm_qmisvc_send_response h hbusy _ _ hbuilt
  · unfold dcsRespond qm_qmisvc_send_response
    rw [if_pos ⟨rfl, hvalid⟩]
    exact tracks_nil h

theorem tracks_qm_fms_handler (h : Owes (some s) owed) (hbusy : s.qmbusy = true)
    {preq : List UInt8} {env : FmsEnv} (hanswers : FmsAnswers preq env) :
    Tracks responseMonitor Owes owed (qm_fms_handler s preq env) := by
  obtain ⟨hunpacked, hbuilt, hloop⟩ := hanswers
  have hresp : ∀ fms, Tracks responseMonitor Owes owed
      (fmsRespond { s with fms_data := fms } env) := by
    intro fms
    exact tracks_qm_qmisvc_send_response (h.congr (by exact ⟨rfl, rfl, rfl, rfl, rfl, rfl⟩))
      (by exact hbusy) _ _ hbuilt
  apply qm_fms_handler_rule
  · intro hpacked
    rw [hunpacked] at hpacked
    cases hpacked
  · exact fun hmbn hreturns => absurd ⟨hmbn, hreturns⟩ hloop
  · obtain ⟨hhealthy, howed⟩ := h
    rw [howed, hbusy, if_pos rfl]
    exact tracks_answer hhealthy rfl
  · exact fun _ => hresp
  · intro _ fms kick hkick
    exact tracks_andThen (hresp fms) fun t m ht =>
      tracks_quiet ht ⟨rfl, rfl, rfl, rfl, rfl, rfl⟩ fun o ho =>
        responseMonitor_background (hkick o ho)

theorem tracks_qmdisconnect (h : Owes (some s) owed) (channel : UInt8) :
    Tracks responseMonitor Owes owed
      (some (qmdisconnect s channel).1, (qmdisconnect s channel).2) := by
  obtain ⟨apps, heq | heq⟩ := qmdisconnect_eq s channel
  · rw [heq]
    exact tracks_nil (h.congr (by exact ⟨rfl, rfl, rfl, rfl, rfl, rfl⟩))
  · rw [heq]
    exact tracks_quiet h (by exact ⟨rfl, rfl, rfl, rfl, rfl, rfl⟩) (closeRegistered_ignored _)

theorem tracks_startupApiClient (h : Owes (some s) owed) (action : UInt8) (srv : QmiClient)
    (regOk : QmiClient → Bool) :
    Tracks responseMonitor Owes owed (startupApiClient s action srv regOk) := by
  unfold startupApiClient
  split_ifs
  · simp only [qmregister4qmisvc_eq]
    cases regOk (qmisvc2qmiclnt_map 0 srv.svctype) with
    | true =>
        exact tracks_quiet h (by exact ⟨rfl, rfl, rfl, rfl, rfl, rfl⟩) (by simp [responseMonitor])
    | false =>
        exact tracks_quiet h (by exact ⟨rfl, rfl, rfl, rfl, rfl, rfl⟩) (by simp [responseMonitor])
  · exact tracks_nil h
  · unfold qmiclientreset
    split_ifs
    exact tracks_quiet h (by exact ⟨rfl, rfl, rfl, rfl, rfl, rfl⟩) (by simp [responseMonitor])
  · exact tracks_nil h
  · exact tracks_nil h

theorem tracks_startupApiLoop (h : Owes (some s) owed) (action : UInt8) {mask : UInt8}
    (regOk : QmiClient → Bool) {count : ℕ}
    (hmask : ∀ k < count, (maskToSrv (k + 1) mask).isSome = true) :
    Tracks responseMonitor Owes owed (startupApiLoop action mask regOk count s) := by
  induction count generalizing s owed with
  | zero => exact tracks_nil h
  | succ count ih =>
      rw [startupApiLoop]
      cases hsrv : maskToSrv (count + 1) mask with
      | none =>
          have hsome := hmask count (Nat.lt_succ_self count)
          rw [hsrv] at hsome
          cases hsome
      | some srv =>
          exact tracks_andThen (tracks_startupApiClient h action srv regOk) fun t m ht =>
            ih ht fun k hk => hmask k (Nat.lt_succ_of_lt hk)

theorem tracks_qm_dcs_handler (h : Owes (some s) owed) {evt : QmDcsEvtBlock} {env : DcsEnv}
    (hanswers : DcsAnswers s evt env) :
    Tracks responseMonitor Owes owed (qm_dcs_handler s evt env) := by
  obtain ⟨hunpacked, hbuilt, hcancel, hmask, hnet, hown⟩ := hanswers
  apply qm_dcs_handler_rule
  · intro hpacked
    rw [hunpacked] at hpacked
    cases hpacked
  · exact fun h14 hshell => absurd (hnet h14) hshell
  · intro rc hrc
    obtain ⟨-, hchan, hvalid⟩ := hown (by rw [hrc]; rfl)
    have hbusy : s.qmbusy = true := by
      unfold qmdcsvalidateresponse at hvalid
      simp only [Bool.and_eq_true] at hvalid
      exact hvalid.1.1
    obtain ⟨hhealthy, howed⟩ := h
    rw [howed, hbusy, if_pos rfl, hchan]
    exact tracks_answer hhealthy rfl
  · exact fun _ apps =>
      tracks_dcsRespond (h.congr (by exact ⟨rfl, rfl, rfl, rfl, rfl, rfl⟩)) evt hbuilt
  · intro h4
    have hidle := hcancel h4
    obtain ⟨hhealthy, howed⟩ := h
    rw [hidle] at howed
    rw [howed]
    exact tracks_dcsRespond (owes_qmclearrespinfo hhealthy) evt hbuilt
  · exact tracks_andThen (tracks_dcsRespond h evt hbuilt) fun t m ht => tracks_qmdisconnect ht _
  · intro h7 _
    refine tracks_andThen ?_ fun t m ht => tracks_dcsRespond ht evt hbuilt
    unfold qm_register_startup_api_clients
    split_ifs with haction
    · exact tracks_startupApiLoop h _ _ (hmask h7 haction)
    · exact tracks_nil h

theorem tracks_qmdcstask (h : Owes (some s) owed) {env : DcsEnv}
    (hguard : OnceGuard (some s) (.dcs env)) :
    Tracks responseMonitor Owes owed (qmdcstask s env) := by
  simp only [OnceGuard] at hguard
  unfold qmdcstask
  split
  · exact tracks_nil h
  next evt rest hque =>
    rw [hque] at hguard
    exact tracks_qm_dcs_handler (h.congr (by exact ⟨rfl, rfl, rfl, rfl, rfl, rfl⟩)) hguard

end LocalServices

section Requests

/-- A recorded request owes a response on its channel. -/
theorem owes_recorded (h : Healthy s) {parms : AmQmiRrParms}
    (htimeout : parms.amqmireqtimeout ≠ 0) (ipcchan : UInt8) :
    Owes (some (recorded s parms ipcchan)) (some ipcchan) := by
  have htimer : respTicks parms.amqmireqtimeout ≠ 0 := by
    rw [respTicks, if_neg htimeout]
    omega
  exact ⟨⟨by simp [recorded, htimer], h.txpool, h.txsmlpool, h.txsize, h.txsmlsize⟩, rfl⟩

theorem mdmPacket_length (xactionid : UInt16) (parms : AmQmiRrParms) (inbuf : List UInt8) :
    (mdmPacket xactionid parms inbuf).length = 3 + parms.amqmixactionlen.toNat := by
  simp only [mdmPacket, piput16, List.length_cons, List.length_append, List.takeD_length,
    List.length_nil]

/-- The pool of a send buffer is intact, and its blocks hold a packet that fits. -/
theorem healthy_sizedPool (h : Healthy s) {parms : AmQmiRrParms} (hfits : PacketFits parms) :
    (qmgetsizedbuf s parms.amqmixactionlen.toNat).Intact ∧
      3 + parms.amqmixactionlen.toNat ≤
        (qmgetsizedbuf s parms.amqmixactionlen.toNat).mmblocksize := by
  obtain ⟨hne, hle⟩ := hfits
  unfold qmgetsizedbuf
  split_ifs with hsmall
  · refine ⟨h.txsmlpool, ?_⟩
    rw [h.txsmlsize]
    unfold qmtxsmlbufsize at hsmall
    omega
  · refine ⟨h.txpool, ?_⟩
    rw [h.txsize]
    omega

/-- The pool may be replaced by an intact one. -/
theorem owes_setSizedPool (h : Owes (some s) owed) {len : ℕ} {pool : MmPool}
    (hpool : pool.Intact) (hsize : pool.mmblocksize = (qmgetsizedbuf s len).mmblocksize) :
    Owes (some (setSizedPool s len pool)) owed := by
  obtain ⟨hhealthy, howed⟩ := h
  unfold qmgetsizedbuf at hsize
  unfold setSizedPool
  split_ifs with hsmall
  · rw [if_pos hsmall, hhealthy.txsmlsize] at hsize
    exact ⟨⟨hhealthy.timer, hhealthy.txpool, hpool, hhealthy.txsize, hsize⟩, howed⟩
  · rw [if_neg hsmall, hhealthy.txsize] at hsize
    exact ⟨⟨hhealthy.timer, hpool, hhealthy.txsmlpool, hsize, hhealthy.txsmlsize⟩, howed⟩

/-- A request for an open client is sent and stays outstanding, or is answered on the first
channel. -/
theorem tracks_qmprepareopen (h : Healthy s) (hidle : s.qmbusy = false) {parms : AmQmiRrParms}
    (htimeout : parms.amqmireqtimeout ≠ 0) (inbuf : List UInt8) {ipcchan : UInt8}
    (client : QmiClient) (hfits : PacketFits parms) {sendOk : Bool}
    (hsend : sendOk = true ∨ ipcchan = cigetchannelnum .qmrr1) :
    Tracks responseMonitor Owes (some ipcchan)
      (qmfinish (qmprepareopen s parms inbuf ipcchan client) sendOk) := by
  obtain ⟨hintact, hlen⟩ := healthy_sizedPool h hfits
  obtain ⟨m, hbuild, hprep⟩ := qmprepareopen_of_free hidle hintact.mmfree_ne
  obtain ⟨-, htcb, -, -, hpacket, hmsglen, hget⟩ := qmbuildmdmreq_eq_some hbuild
  have hfit : m.packet.length ≤ (qmgetsizedbuf s m.msglen).mmblocksize := by
    rw [hpacket, mdmPacket_length, hmsglen]
    exact hlen
  rw [hmsglen] at hget hfit
  obtain ⟨pool, hpool, hintact', hsize⟩ := hintact.cycle hfit hget
  have howes := owes_recorded h htimeout ipcchan
  rw [← htcb] at howes
  have hkeep : ∀ {t : QmTcb} {o : Option UInt8}, Owes (some t) o →
      t.qmtxpool = s.qmtxpool → t.qmtxsmlpool = s.qmtxsmlpool →
        Owes (some (setSizedPool t m.msglen pool)) o := by
    intro t o ht hlarge hsmall
    apply owes_setSizedPool ht hintact'
    rw [hsize, hmsglen]
    simp only [qmgetsizedbuf, hlarge, hsmall]
  have hlarge : m.tcb.qmtxpool = s.qmtxpool := by rw [htcb]; rfl
  have hsmall : m.tcb.qmtxsmlpool = s.qmtxsmlpool := by rw [htcb]; rfl
  rw [hprep]
  simp only [qmfinish, qmsendmdmreq, hpool, List.nil_append]
  cases sendOk with
  | true => exact tracks_ignored (hkeep howes hlarge hsmall) (by simp [responseMonitor])
  | false =>
      have hchan : ipcchan = cigetchannelnum .qmrr1 := hsend.resolve_left (by simp)
      refine ⟨none, ?_, hkeep (owes_qmclearrespinfo howes.1) hlarge hsmall⟩
      simp [qmshortresp, responseMonitor, shortMsg, hchan]

/-- A request that arrives when none is outstanding. -/
theorem tracks_qmqmireq (h : Owes (some s) owed) {packet : List UInt8} {ipcchan : UInt8}
    {env : ReqEnv} (hguard : OnceGuard (some s) (.qmiReq packet ipcchan env)) :
    Tracks responseMonitor Owes (some ipcchan) (qmqmireq s packet ipcchan env) := by
  obtain ⟨hidle, htimeout, hanswers⟩ := hguard
  have hhealthy : Healthy { s with qmipcchannel := ipcchan } :=
    ⟨h.1.timer, h.1.txpool, h.1.txsmlpool, h.1.txsize, h.1.txsmlsize⟩
  simp only [RequestAnswers] at hanswers
  have hque : ({ s with qmipcchannel := ipcchan } : QmTcb).qmdcsicmsgque = s.qmdcsicmsgque := rfl
  have htidle : ({ s with qmipcchannel := ipcchan } : QmTcb).qmbusy = false := hidle
  have htchan : ({ s with qmipcchannel := ipcchan } : QmTcb).qmipcchannel = ipcchan := rfl
  generalize ht : { s with qmipcchannel := ipcchan } = t at *
  generalize hparms : amparseqmixactionheader packet = parms at *
  generalize hclient : qmisvc2qmiclnt_map parms.qmiinstanceid (.ofCode parms.amqmisvctype) =
    client at *
  generalize hp : qmparser t parms.qmiinstanceid (.ofCode parms.amqmisvctype)
    (packet.drop amQmiRrnSz) = p at *
  have hpidle : p.qmbusy = false := by rw [← hp, qmparser_qmbusy, htidle]
  have hparsed : Healthy p := by
    rw [← hp, qmparser_frame]
    exact ⟨hhealthy.timer, hhealthy.txpool, hhealthy.txsmlpool, hhealthy.txsize,
      hhealthy.txsmlsize⟩
  apply qmqmireq_rule ht hparms hclient
  · exact fun rc _ _ => tracks_answer hhealthy rfl
  · intro hbusy
    rw [hidle] at hbusy
    cases hbusy
  · intro hrc _ hdcs
    have hfree := hanswers.resolve_left (not_not.mpr hrc)
    rw [if_pos hdcs, ← hque] at hfree
    have howes := owes_recorded hhealthy htimeout ipcchan
    unfold qmsenddcsreq
    rw [if_pos (by exact hfree)]
    exact tracks_quiet howes (by exact ⟨rfl, rfl, rfl, rfl, rfl, rfl⟩) (by simp [responseMonitor])
  · intro hrc _ hfms
    have hlocal := hanswers.resolve_left (not_not.mpr hrc)
    rw [if_neg (by rw [hfms]; decide), if_pos hfms] at hlocal
    exact tracks_qm_fms_handler (owes_recorded hhealthy htimeout ipcchan) rfl hlocal
  · intro hrc hdcs hfms
    have hmodem := hanswers.resolve_left (not_not.mpr hrc)
    rw [if_neg hdcs, if_neg hfms] at hmodem
    obtain ⟨hshell, hsends⟩ := hmodem
    apply qmpreparemdmreq_rule hp rfl
    · intro hreg
      obtain ⟨hfits, hsend⟩ := hsends (.inl hreg)
      exact tracks_qmprepareopen hparsed hpidle htimeout _ _ hfits hsend
    · intro hreg hok hinst
      obtain ⟨hfits, hsend⟩ := hsends (.inr ⟨hok, hinst⟩)
      have hopened : Healthy (opened p (requestClient p parms)) :=
        ⟨hparsed.timer, hparsed.txpool, hparsed.txsmlpool, hparsed.txsize, hparsed.txsmlsize⟩
      refine tracks_append (watch_ignored (by simp [responseMonitor])) ?_
      exact tracks_qmprepareopen hopened (by exact hpidle) htimeout _ _ hfits hsend
    · intro hreg hok hinst
      simp [hreg, hok, hinst] at hshell
    · intro _ _
      have hrefused : Healthy { p with activewdsclient := p.prevactivewdsclient } :=
        ⟨hparsed.timer, hparsed.txpool, hparsed.txsmlpool, hparsed.txsize, hparsed.txsmlsize⟩
      refine ⟨none, ?_, owes_qmclearrespinfo hrefused⟩
      simp [responseMonitor, shortMsg, htchan]

end Requests

/-- What is owed once an event's request has arrived. -/
def owedAfterArrival (owed : Option UInt8) : QmEvent → Option UInt8
  | .qmiReq _ ipcchan _ => some ipcchan
  | _ => owed

/-- A packet from the modem: it answers the outstanding request, or nothing. -/
theorem tracks_qmrxpkt (h : Owes (some s) owed) (instanceid : UInt8) {qmpacket : List UInt8}
    (client : QmiClient) (hanswers : RxAnswers s qmpacket) :
    Tracks responseMonitor Owes owed (qmrxpkt s instanceid qmpacket client) := by
  obtain ⟨hkind, hreg⟩ := hanswers
  obtain ⟨hhealthy, howed⟩ := id h
  rw [qmrxpkt, if_pos hkind]
  by_cases hres : qmpacket.getD 0 0 = eQMIRES
  · simp only [qmqmirsp, hres, if_true, qmvalidateresponse]
    by_cases hvalid : s.qmbusy = true ∧ s.qmoperation = eQMIRES ∧
        qmixactionidvalidate s (piget16 qmpacket 1) = true
    · have happ := hreg hres hvalid.1 hvalid.2.2
      have happ' : qmIsAppRegistered (qmclearrespinfo s) s.qmipcchannel eQMIRES = true := happ
      rw [if_pos hvalid, if_pos ⟨happ', rfl⟩, howed, hvalid.1, if_pos rfl]
      have hclear : qmclearrespinfo (qmclearrespinfo s) = qmclearrespinfo s := rfl
      rw [hclear]
      exact tracks_answer hhealthy (if_pos hres)
    · rw [if_neg hvalid, if_neg (by simp)]
      exact tracks_nil h
  · have hnot : (rspMsg instanceid client qmpacket).amtype = AmMsgType.qmiNotification :=
      if_neg hres
    simp only [qmqmirsp, hres, if_false]
    split_ifs
    · refine tracks_ignored h fun o ho => ?_
      obtain ⟨c, -, rfl⟩ := List.mem_map.mp ho
      rw [responseMonitor, hnot]
      rfl
    · exact tracks_nil h

/-- The response timer: it answers the outstanding request when it runs out. -/
theorem tracks_qmtick (h : Owes (some s) owed) :
    Tracks responseMonitor Owes owed (some (qmtick s).1, (qmtick s).2) := by
  obtain ⟨hhealthy, howed⟩ := id h
  simp only [qmtick]
  split_ifs with hzero hone
  · exact tracks_nil h
  · have hbusy : s.qmbusy = true := by
      by_contra hidle
      exact hzero (hhealthy.timer.mpr (by simpa using hidle))
    rw [howed, hbusy, if_pos rfl]
    exact ⟨none, by simp [qmshortresp, responseMonitor, shortMsg],
      ⟨by simp [qmshortresp, qmclearrespinfo], hhealthy.txpool, hhealthy.txsmlpool,
        hhealthy.txsize, hhealthy.txsmlsize⟩, rfl⟩
  · refine tracks_nil ⟨⟨?_, hhealthy.txpool, hhealthy.txsmlpool, hhealthy.txsize,
      hhealthy.txsmlsize⟩, howed⟩
    have hidle := mt hhealthy.timer.mpr hzero
    exact iff_of_false hone hidle

/-- Every guarded step answers what it should. -/
theorem tracks_qmtask (h : Owes (some s) owed) {event : QmEvent}
    (hguard : OnceGuard (some s) event) :
    Tracks responseMonitor Owes (owedAfterArrival owed event) (qmtask s event) := by
  cases event with
  | qmiReq packet ipcchan env => exact tracks_qmqmireq h hguard
  | rx instanceid client qmpacket => exact tracks_qmrxpkt h instanceid client hguard
  | tick sixtySeconds =>
      obtain ⟨fms, out, hout, heq⟩ := qmtmrtick_eq s sixtySeconds
      simp only [qmtask, heq]
      apply Tracks.append_ignored
      · exact (tracks_qmtick h).imp fun m hm => hm.congr ⟨rfl, rfl, rfl, rfl, rfl, rfl⟩
      · exact fun m o ho => responseMonitor_background (hout o ho)
  | device event =>
      by_cases hevent : event = .disconnected
      · subst hevent
        simp only [qmtask, qm_ds_dev_event_handler, qm_ds_handle_dev_disconnected_eq]
        split_ifs with hstate hbusy
        · exact tracks_nil h
        · obtain ⟨hhealthy, howed⟩ := h
          rw [hbusy, if_pos rfl] at howed
          refine ⟨none, ?_, ⟨by simp [qmclearrespinfo], hhealthy.txpool, hhealthy.txsmlpool,
            hhealthy.txsize, hhealthy.txsmlsize⟩, rfl⟩
          rw [List.append_assoc, watch_append, watch_ignored (closeRegistered_ignored _)]
          simp [owedAfterArrival, responseMonitor, shortMsg, howed]
        · rw [List.append_nil]
          refine tracks_quiet h (by exact ⟨rfl, rfl, rfl, rfl, rfl, rfl⟩) fun o ho => ?_
          rcases List.mem_append.mp ho with ho | ho
          · exact closeRegistered_ignored _ o ho
          · rw [List.mem_singleton.mp ho]
            rfl
      · obtain ⟨fms, out, hout, heq⟩ := qm_ds_dev_event_handler_up s hevent
        simp only [qmtask, heq]
        exact tracks_quiet h (by exact ⟨rfl, rfl, rfl, rfl, rfl, rfl⟩)
          fun o ho => responseMonitor_background (hout o ho)
  | net q_depth isThrottle =>
      exact tracks_ignored h (by simp [responseMonitor])
  | dcs env => exact tracks_qmdcstask h hguard
  | fwStatus status => exact tracks_nil (h.congr ⟨rfl, rfl, rfl, rfl, rfl, rfl⟩)

end Owes

section Runs

theorem intact_mmpcreate {numblocks : ℕ} (h : 0 < numblocks) (reqblocksz : ℕ) :
    (mmpcreate numblocks reqblocksz).Intact := by
  refine ⟨by simp [mmpcreate, h.ne'], fun blk hblk => ?_⟩
  rw [mmpcreate, List.mem_range] at hblk
  simp [mmpcreate, hblk]

theorem owes_qminit : Owes (some qminit) none :=
  ⟨⟨by simp [qminit], intact_mmpcreate (by decide) _, intact_mmpcreate (by decide) _, rfl, rfl⟩,
    rfl⟩

theorem watch_onceMonitor_output (owed : Option UInt8) (out : List QmOut) :
    watch onceMonitor owed (out.map .output) = watch responseMonitor owed out := by
  induction out generalizing owed with
  | nil => rfl
  | cons o out ih => simp only [List.map_cons, watch_cons, onceMonitor, ih]

/-- A guarded step with its arrival. -/
theorem tracks_exchangeStep {s : Option QmTcb} {event : QmEvent} {owed : Option UInt8}
    (h : Owes s owed) (hguard : OnceGuard s event) :
    Tracks onceMonitor Owes owed (exchangeStep s event) := by
  cases s with
  | none => exact h.elim
  | some s =>
      obtain ⟨owed', howed', hstep⟩ := Owes.tracks_qmtask h hguard
      refine ⟨owed', ?_, hstep⟩
      rw [← howed', ← watch_onceMonitor_output]
      cases event with
      | qmiReq packet ipcchan env =>
          have hnone : owed = none := by
            rw [h.2, if_neg (by simp [hguard.1])]
          rw [hnone]
          rfl
      | _ => rfl

theorem qmtick_qmmdmwaittmr (s : QmTcb) : (qmtick s).1.qmmdmwaittmr = s.qmmdmwaittmr - 1 := by
  simp only [qmtick]
  split_ifs with hzero hone
  · rw [hzero]
  · exact hone.symm
  · rfl

/-- After as many ticks as the response timer says, it does not run. -/
theorem after_ticks (s : QmTcb) {n : ℕ} (hn : s.qmmdmwaittmr = n) :
    ∃ t, after exchangeStep (some s) (List.replicate n (.tick false)) = some t ∧
      t.qmmdmwaittmr = 0 := by
  induction n generalizing s with
  | zero => exact ⟨s, rfl, hn⟩
  | succ n ih =>
      obtain ⟨fms, out, -, heq⟩ := qmtmrtick_eq s false
      have hstep : (exchangeStep (some s) (.tick false)).1 =
          some { (qmtick s).1 with fms_data := fms } := by
        simp only [exchangeStep, qmStep, qmtask, heq]
      rw [List.replicate_succ, after_cons, hstep]
      exact ih _ (by simp only [qmtick_qmmdmwaittmr, hn, Nat.add_sub_cancel])

theorem meets_ticks (s : Option QmTcb) (n : ℕ) :
    Meets exchangeStep OnceGuard s (List.replicate n (.tick false)) := by
  induction n generalizing s with
  | zero => trivial
  | succ n ih => exact ⟨by cases s <;> trivial, ih _⟩

/-- Every request is answered exactly once in a run in which nothing goes wrong. -/
theorem exactlyOnce_of_guard {events : List QmEvent}
    (h : Meets exchangeStep OnceGuard (some qminit) events) : ExactlyOnce events := by
  have hstep : ∀ s event owed, Owes s owed → OnceGuard s event →
      Tracks onceMonitor Owes owed (exchangeStep s event) :=
    fun s event owed hs hguard => tracks_exchangeStep hs hguard
  obtain ⟨owed, howed, hs⟩ := tracks_run hstep owes_qminit h
  refine ⟨owed, howed, ?_⟩
  cases hafter : after exchangeStep (some qminit) events with
  | none => simp [hafter, Owes] at hs
  | some s =>
      rw [hafter] at hs
      refine ⟨s.qmmdmwaittmr, ?_⟩
      -- the ticks answer what is still owed
      obtain ⟨owed', howed', ht⟩ := tracks_run hstep hs (meets_ticks (some s) s.qmmdmwaittmr)
      obtain ⟨t, hticks, hzero⟩ := after_ticks s rfl
      rw [hticks] at ht
      have hidle : t.qmbusy = false := ht.1.timer.mp hzero
      have hnone : owed' = none := by
        rw [ht.2, hidle]
        rfl
      rw [outputs_append, watch_append, howed, hafter, Option.bind_some, howed', hnone]

/-- A run in which a request is answered by the modem, and one is left to the timer. -/
theorem exactlyOnce_dms :
    ExactlyOnce (connectEvents 2 ++
      [.qmiReq (requestPacket .dms 0 [0x20, 0, 0, 0]) 2 reqEnvOk,
        .rx 0 .dms [eQMIRES, 1, 0, 0x20, 0, 0, 0],
        .qmiReq (requestPacket .dms 0 [0x21, 0, 0, 0]) 2 reqEnvOk]) :=
  exactlyOnce_of_guard (by decide +kernel)

/-- A request of the application on the third channel that cannot be sent. -/
def sendFailureRun : List QmEvent :=
  connectEvents 2 ++
    [.qmiReq (requestPacket .dms 0 [0x20, 0, 0, 0]) 2 { reqEnvOk with sendOk := false }]

/-- It is answered on the first channel. -/
theorem sendFailureRun_not_exactlyOnce : ¬ ExactlyOnce sendFailureRun := by
  rintro ⟨owed, howed, -⟩
  have hviolation :
      watch onceMonitor none (outputs exchangeStep (some qminit) sendFailureRun) = none := by
    decide +kernel
  rw [hviolation] at howed
  cases howed

end Runs

end Qm

end SierraSdk
