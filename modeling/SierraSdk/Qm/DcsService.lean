import SierraSdk.Qm.DcsContent
import SierraSdk.Qm.ExactlyOnce

/-!
# The device connectivity service

A device connectivity request is recorded as the outstanding one and put into the queue of the
DCS task, which may come to it when it has timed out, or was cancelled, and another request is
outstanding. A log kept beside the control block numbers the requests (`DcsLog`). `DcsKept` is
what a turn of the task may do: the response of a request that is not outstanding any more is
dropped and leaves the record alone, a response goes to the channel of its request, a request
to connect succeeds exactly if it names the connected device and then registers its channel,
and the daemon goes on.

The task tells a stale response by a transaction id that every client counts for itself, answers
two kinds of requests and cancels without looking at it, and aborts where a request cannot be
unpacked; and a request to connect fails only if there is no device. `DcsSafe` says which turns
meet none of this.
-/

namespace SierraSdk

namespace Qm

open Am Ci Machine

/-- A request, by its number, with the channel that it arrived on. -/
structure DcsStamp where
  id : ℕ
  ipcchan : UInt8
  deriving DecidableEq

/-- The number of the next request, the outstanding request, and the requests in the queue of the
DCS task. -/
structure DcsLog where
  next : ℕ
  current : Option DcsStamp
  queued : List DcsStamp

/-- The events of the task, with what a request meets at the DCS task. -/
inductive LocalEvent where
  | qmiReq (packet : List UInt8) (ipcchan : UInt8) (env : ReqEnv)
  | rx (instanceid : UInt8) (client : QmiClient) (qmpacket : List UInt8)
  | tick (sixtySeconds : Bool)
  | device (event : DsSioEvent)
  | net (q_depth : UInt32) (isThrottle : Bool)
  | dcs (world : DcsWorld)
  | fwStatus (status : EQCWWANError)

/-- The event in a state, in which the DCS task is about to take the first request. -/
def LocalEvent.event (s : QmTcb) : LocalEvent → QmEvent
  | .qmiReq packet ipcchan env => .qmiReq packet ipcchan env
  | .rx instanceid client qmpacket => .rx instanceid client qmpacket
  | .tick sixtySeconds => .tick sixtySeconds
  | .device event => .device event
  | .net q_depth isThrottle => .net q_depth isThrottle
  | .dcs world => .dcs (world.env (s.qmdcsicmsgque.headD ⟨[], 0, 0, 0⟩))
  | .fwStatus status => .fwStatus status

/-- The log after a step. -/
def DcsLog.step (log : DcsLog) (s t : QmTcb) : LocalEvent → DcsLog
  | .qmiReq _ ipcchan _ =>
      { next := log.next + 1
        current := if t.qmbusy then some ⟨log.next, ipcchan⟩ else none
        queued :=
          if s.qmdcsicmsgque.length < t.qmdcsicmsgque.length then
            log.queued ++ [⟨log.next, ipcchan⟩]
          else log.queued }
  | .dcs _ =>
      { log with
          current := if t.qmbusy then log.current else none
          queued := log.queued.tail }
  | _ => { log with current := if t.qmbusy then log.current else none }

/-- The machine with the log. -/
def localStep (state : Option QmTcb × DcsLog) (event : LocalEvent) :
    (Option QmTcb × DcsLog) × List QmOut :=
  match state.1 with
  | none => (state, [])
  | some s =>
      let r := qmtask s (event.event s)
      match r.1 with
      | none => ((none, state.2), r.2)
      | some t => ((some t, state.2.step s t event), r.2)

/-- The machine at the start. -/
def localStart : Option QmTcb × DcsLog := (some qminit, ⟨0, none, []⟩)

/-- A response says success in its result code. -/
def succeeded (msg : AmQmiMsg) : Bool := piget16 msg.payload 7 = qmiRcSuccess

/-- The response among the outputs says success. -/
def SaysSuccess (out : List QmOut) : Prop :=
  ∃ channel msg, QmOut.amsdkSend channel msg ∈ out ∧ succeeded msg = true

/-- What a turn of the DCS task may do with the request `evt`, which has the stamp `stamp`. -/
structure DcsKept (log : DcsLog) (s : QmTcb) (evt : QmDcsEvtBlock) (stamp : DcsStamp)
    (w : DcsWorld) (t : QmTcb) (out : List QmOut) : Prop where
  own : ∀ channel msg, QmOut.amsdkSend channel msg ∈ out →
    log.current = some stamp ∧ channel = stamp.ipcchan
  stale : log.current ≠ some stamp → s.qmbusy = true →
    SameRecord s t ∧ t.qmoperation = s.qmoperation
  success : evt.request = 1 → log.current = some stamp →
    (SaysSuccess out ↔ w.Names evt.tlvs)
  registered : evt.request = 1 → SaysSuccess out →
    qmIsAppRegistered t stamp.ipcchan eQMIREQ = true
  unregistered : evt.request = 1 → ¬ SaysSuccess out → t.qmappInfo = s.qmappInfo

/-- A turn of the DCS task ends, and does no more than that. -/
def KeepsDcs (state : Option QmTcb × DcsLog) (event : LocalEvent) : Prop :=
  ∀ s w evt rest, state.1 = some s → event = .dcs w → s.qmdcsicmsgque = evt :: rest →
    ∃ stamp t, state.2.queued.head? = some stamp ∧
      (qmtask s (event.event s)).1 = some t ∧
        DcsKept state.2 s evt stamp w t (qmtask s (event.event s)).2

/-- The table of applications has an entry that no application uses. -/
def HasFreeEntry (s : QmTcb) : Prop := ∃ app ∈ s.qmappInfo, app.qmipcchannel = qmAppChannelUnknown

/-- A request that the DCS task comes to, outstanding (`current`) or not, does no harm: it can be
unpacked and served; if it is stale, the record is not taken for its own, and it is neither
answered with a bare result code nor a cancellation; a request to connect, with a device there,
names the device and there is an entry for its application, or if it is stale it matches no
device that it could be registered for. -/
structure DcsRequestSafe (current : Prop) (s : QmTcb) (evt : QmDcsEvtBlock) (w : DcsWorld) :
    Prop where
  unpacks : (evt.request = 1 → w.device.isSome = true) → evt.unpacks = true
  instance_lt : evt.request = 14 → evt.instanceid.toNat < qmMaxQmiInstSupported
  services : evt.request = 7 →
    (w.env evt).srvStatus = regsrv ∨ (w.env evt).srvStatus = deregsrv →
      MaskInTable (w.env evt).mask
  apart : ¬ current → qmdcsvalidateresponse s evt.xactionid = false ∧
    dcsShortResult s evt = none ∧ (evt.request = 4 → s.qmbusy = false)
  names : evt.request = 1 → current → w.device.isSome = true →
    w.Names evt.tlvs ∧ (qmIsAppRegistered s evt.qmdcsevtipcchan eQMIREQ = true ∨ HasFreeEntry s)
  unmatched : evt.request = 1 → ¬ current → (w.env evt).deviceMatches = true →
    qmIsAppRegistered s evt.qmdcsevtipcchan eQMIREQ = true ∨ ¬ HasFreeEntry s

/-- The request that the DCS task is about to take does no harm. -/
def DcsSafe (state : Option QmTcb × DcsLog) (event : LocalEvent) : Prop :=
  ∀ s w evt rest, state.1 = some s → event = .dcs w → s.qmdcsicmsgque = evt :: rest →
    DcsRequestSafe (state.2.current = state.2.queued.head?) s evt w

section Frame

/-- The client of the service is never registered, and never taken for a WDS client. -/
structure DcsClosed (s : QmTcb) : Prop where
  registered : (s.qmiclients (.dcs 0)).registered = false
  activewdsclient : s.activewdsclient ≠ .dcs 0
  prevactivewdsclient : s.prevactivewdsclient ≠ .dcs 0

/-- The queue and the transaction id of the service are kept, and so is the record, unless it is
cleared. -/
structure DcsFrame (s t : QmTcb) : Prop where
  closed : DcsClosed t
  queue : t.qmdcsicmsgque = s.qmdcsicmsgque
  xactionid : (t.qmiclients (.dcs 0)).xactionid = (s.qmiclients (.dcs 0)).xactionid
  record : t.qmbusy = true → s.qmbusy = true ∧ t.qmoperation = s.qmoperation ∧
    t.qmipcchannel = s.qmipcchannel ∧ t.activeclient = s.activeclient

variable {s t u : QmTcb}

theorem DcsFrame.trans (h : DcsFrame s t) (h' : DcsFrame t u) : DcsFrame s u where
  closed := h'.closed
  queue := h'.queue.trans h.queue
  xactionid := h'.xactionid.trans h.xactionid
  record hbusy := by
    obtain ⟨hbusy', hop', hchan', hclient'⟩ := h'.record hbusy
    obtain ⟨hbusy, hop, hchan, hclient⟩ := h.record hbusy'
    exact ⟨hbusy, hop'.trans hop, hchan'.trans hchan, hclient'.trans hclient⟩

/-- The client of the service, the queue and the record are the same. -/
theorem DcsFrame.of_client (hclosed : DcsClosed s)
    (hclient : t.qmiclients (.dcs 0) = s.qmiclients (.dcs 0))
    (hactive : t.activewdsclient ≠ .dcs 0) (hprev : t.prevactivewdsclient ≠ .dcs 0)
    (hqueue : t.qmdcsicmsgque = s.qmdcsicmsgque)
    (hrecord : t.qmbusy = true → s.qmbusy = true ∧ t.qmoperation = s.qmoperation ∧
      t.qmipcchannel = s.qmipcchannel ∧ t.activeclient = s.activeclient) : DcsFrame s t where
  closed := ⟨hclient ▸ hclosed.registered, hactive, hprev⟩
  queue := hqueue
  xactionid := by rw [hclient]
  record := hrecord

/-- All clients, the queue and the record are the same. -/
theorem DcsFrame.of_eq (hclosed : DcsClosed s) (hclients : t.qmiclients = s.qmiclients)
    (hactive : t.activewdsclient = s.activewdsclient)
    (hprev : t.prevactivewdsclient = s.prevactivewdsclient)
    (hqueue : t.qmdcsicmsgque = s.qmdcsicmsgque)
    (hrecord : t.qmbusy = true → s.qmbusy = true ∧ t.qmoperation = s.qmoperation ∧
      t.qmipcchannel = s.qmipcchannel ∧ t.activeclient = s.activeclient) : DcsFrame s t :=
  .of_client hclosed (by rw [hclients]) (hactive ▸ hclosed.activewdsclient)
    (hprev ▸ hclosed.prevactivewdsclient) hqueue hrecord

theorem DcsFrame.refl (hclosed : DcsClosed s) : DcsFrame s s :=
  .of_eq hclosed rfl rfl rfl rfl fun hbusy => ⟨hbusy, rfl, rfl, rfl⟩

theorem dcsFrame_qmclearrespinfo (hclosed : DcsClosed s) : DcsFrame s (qmclearrespinfo s) :=
  .of_eq hclosed rfl rfl rfl rfl fun hbusy => absurd hbusy Bool.false_ne_true

/-- The client of the service is not among those that are forgotten. -/
theorem forgetRegistered_dcs (hclosed : DcsClosed s) :
    forgetRegistered QmiClient.all s.qmiclients (.dcs 0) = s.qmiclients (.dcs 0) := by
  rw [forgetRegistered, if_neg]
  rintro ⟨-, hregistered⟩
  rw [hclosed.registered] at hregistered
  cases hregistered

theorem dcsFrame_qmdisconnect (hclosed : DcsClosed s) (channel : UInt8) :
    DcsFrame s (qmdisconnect s channel).1 := by
  obtain ⟨apps, heq | heq⟩ := qmdisconnect_eq s channel
  · rw [heq]
    exact .of_eq hclosed rfl rfl rfl rfl fun hbusy => ⟨hbusy, rfl, rfl, rfl⟩
  · rw [heq]
    exact .of_client hclosed (forgetRegistered_dcs hclosed) nofun hclosed.prevactivewdsclient rfl
      fun hbusy => ⟨hbusy, rfl, rfl, rfl⟩

theorem dcsFrame_qm_ds_handle_dev_disconnected (hclosed : DcsClosed s) :
    DcsFrame s (qm_ds_handle_dev_disconnected s).1 := by
  have hforgotten : DcsFrame s
      { s with
        qmidevicestate := .disconnected
        qmiclients := forgetRegistered QmiClient.all s.qmiclients } :=
    .of_client hclosed (forgetRegistered_dcs hclosed) hclosed.activewdsclient
      hclosed.prevactivewdsclient rfl fun hbusy => ⟨hbusy, rfl, rfl, rfl⟩
  rw [qm_ds_handle_dev_disconnected_eq]
  split_ifs
  · exact .refl hclosed
  · exact hforgotten.trans (dcsFrame_qmclearrespinfo hforgotten.closed)
  · exact hforgotten

theorem dcsFrame_qm_ds_dev_event_handler (hclosed : DcsClosed s) (event : DsSioEvent) :
    DcsFrame s (qm_ds_dev_event_handler s event).1 := by
  by_cases hevent : event = .disconnected
  · rw [hevent]
    exact dcsFrame_qm_ds_handle_dev_disconnected hclosed
  · obtain ⟨fms, out, -, heq⟩ := qm_ds_dev_event_handler_up s hevent
    rw [heq]
    exact .of_eq hclosed rfl rfl rfl rfl fun hbusy => ⟨hbusy, rfl, rfl, rfl⟩

theorem dcsFrame_qmtick (hclosed : DcsClosed s) : DcsFrame s (qmtick s).1 := by
  simp only [qmtick]
  split_ifs
  · exact .refl hclosed
  · exact .of_eq hclosed rfl rfl rfl rfl fun hbusy => absurd hbusy Bool.false_ne_true
  · exact .of_eq hclosed rfl rfl rfl rfl fun hbusy => ⟨hbusy, rfl, rfl, rfl⟩

theorem dcsFrame_qmtmrtick (hclosed : DcsClosed s) (sixtySeconds : Bool) :
    DcsFrame s (qmtmrtick s sixtySeconds).1 := by
  obtain ⟨fms, out, -, heq⟩ := qmtmrtick_eq s sixtySeconds
  have htick := dcsFrame_qmtick hclosed
  rw [heq]
  exact htick.trans
    (.of_eq htick.closed rfl rfl rfl rfl fun hbusy => ⟨hbusy, rfl, rfl, rfl⟩)

theorem dcsFrame_qmrxpkt (hclosed : DcsClosed s) (instanceid : UInt8) (qmpacket : List UInt8)
    (client : QmiClient) (ht : (qmrxpkt s instanceid qmpacket client).1 = some t) :
    DcsFrame s t := by
  have hclear := dcsFrame_qmclearrespinfo hclosed
  simp only [qmrxpkt, qmqmirsp, qmvalidateresponse] at ht
  split_ifs at ht <;> obtain rfl := Option.some.inj ht
  all_goals first | exact .refl hclosed | exact hclear

end Frame

section Startup

/-- What starting or stopping services does to the control block: the record is the same, and
the transaction id of a client that is closed is forgotten. -/
structure StartupFrame (s t : QmTcb) : Prop where
  frame : DcsFrame s t
  record : SameRecord s t
  qmoperation : t.qmoperation = s.qmoperation
  qmappInfo : t.qmappInfo = s.qmappInfo
  xactionid : ∀ c, (t.qmiclients c).xactionid = (s.qmiclients c).xactionid ∨
    (t.qmiclients c).xactionid = 0

/-- No output is a message to an application. -/
def NoSend (out : List QmOut) : Prop := ∀ channel msg, QmOut.amsdkSend channel msg ∉ out

variable {s t u : QmTcb}

theorem NoSend.append {out out' : List QmOut} (h : NoSend out) (h' : NoSend out') :
    NoSend (out ++ out') := by
  intro channel msg hmem
  exact (List.mem_append.mp hmem).elim (h channel msg) (h' channel msg)

theorem noSend_closeRegistered (clients : List QmiClient) (points : QmiClient → QmiControlPoint) :
    NoSend (closeRegistered clients points) := by
  intro channel msg hmem
  obtain ⟨c, -, hc⟩ := List.mem_map.mp hmem
  cases hc

theorem SameRecord.trans' (h : SameRecord s t) (h' : SameRecord t u) : SameRecord s u where
  qmbusy := h'.qmbusy.trans h.qmbusy
  qmipcchannel := h'.qmipcchannel.trans h.qmipcchannel
  qmmdmwaittmr := h'.qmmdmwaittmr.trans h.qmmdmwaittmr
  activeclient := h'.activeclient.trans h.activeclient
  qmtxpool := h'.qmtxpool.trans h.qmtxpool
  qmtxsmlpool := h'.qmtxsmlpool.trans h.qmtxsmlpool

theorem StartupFrame.refl (hclosed : DcsClosed s) : StartupFrame s s :=
  ⟨.refl hclosed, ⟨rfl, rfl, rfl, rfl, rfl, rfl⟩, rfl, rfl, fun _ => .inl rfl⟩

theorem StartupFrame.trans (h : StartupFrame s t) (h' : StartupFrame t u) :
    StartupFrame s u where
  frame := h.frame.trans h'.frame
  record := h.record.trans' h'.record
  qmoperation := h'.qmoperation.trans h.qmoperation
  qmappInfo := h'.qmappInfo.trans h.qmappInfo
  xactionid c := by
    rcases h'.xactionid c with hc | hc
    · rcases h.xactionid c with hc' | hc'
      · exact .inl (hc.trans hc')
      · exact .inr (hc.trans hc')
    · exact .inr hc

/-- The clients that have notifications are no clients of the service. -/
theorem startup_client_ne_dcs {srv : QmiClient} (h : srv.unotificationsSupported = true) :
    qmisvc2qmiclnt_map 0 srv.svctype ≠ .dcs 0 := by
  cases srv with
  | wds | wdsV6 | nas | pds | voice => exact QmiClient.noConfusion
  | _ => cases h

/-- One round of the loop. -/
theorem startupApiClient_frame (hclosed : DcsClosed s) (action : UInt8) (srv : QmiClient)
    (regOk : QmiClient → Bool) :
    ∃ t out, startupApiClient s action srv regOk = (some t, out) ∧ StartupFrame s t ∧
      NoSend out := by
  have hnone : NoSend [] := fun _ _ => List.not_mem_nil
  unfold startupApiClient
  split_ifs with hreg hnew hdereg hopen
  · have hne := startup_client_ne_dcs hnew.1
    simp only [qmregister4qmisvc_eq]
    generalize qmisvc2qmiclnt_map 0 srv.svctype = client at hne
    cases regOk client with
    | true =>
        refine ⟨_, _, rfl, ?_, by simp [NoSend]⟩
        refine ⟨.of_client hclosed (Function.update_of_ne hne.symm _ _) hclosed.activewdsclient hne
          rfl fun hbusy => ⟨hbusy, rfl, rfl, rfl⟩, ⟨rfl, rfl, rfl, rfl, rfl, rfl⟩, rfl, rfl, ?_⟩
        intro c
        by_cases hc : c = client
        · simp [opened, hc]
        · simp [opened, hc]
    | false =>
        refine ⟨_, _, rfl, ?_, by simp [NoSend]⟩
        exact ⟨.of_client hclosed rfl hclosed.prevactivewdsclient hclosed.prevactivewdsclient rfl
          fun hbusy => ⟨hbusy, rfl, rfl, rfl⟩, ⟨rfl, rfl, rfl, rfl, rfl, rfl⟩, rfl, rfl,
          fun _ => .inl rfl⟩
  · exact ⟨s, [], rfl, .refl hclosed, hnone⟩
  · have hne : srv ≠ .dcs 0 := by
      rintro rfl
      rw [hclosed.registered] at hopen
      cases hopen
    refine ⟨_, _, rfl, ?_, ?_⟩
    · refine ⟨.of_client hclosed (Function.update_of_ne hne.symm _ _) hclosed.activewdsclient
        hclosed.prevactivewdsclient rfl fun hbusy => ⟨hbusy, rfl, rfl, rfl⟩,
        ⟨rfl, rfl, rfl, rfl, rfl, rfl⟩, rfl, rfl, ?_⟩
      intro c
      by_cases hc : c = srv
      · simp [qmiclientreset, hc]
      · simp [qmiclientreset, hc]
    · unfold qmiclientreset
      split_ifs
      simp [NoSend]
  · exact ⟨s, [], rfl, .refl hclosed, hnone⟩
  · exact ⟨s, [], rfl, .refl hclosed, hnone⟩

theorem startupApiLoop_frame (hclosed : DcsClosed s) (action : UInt8) {mask : UInt8}
    (regOk : QmiClient → Bool) {count : ℕ}
    (hmask : ∀ k < count, (maskToSrv (k + 1) mask).isSome = true) :
    ∃ t out, startupApiLoop action mask regOk count s = (some t, out) ∧ StartupFrame s t ∧
      NoSend out := by
  induction count generalizing s with
  | zero => exact ⟨s, [], rfl, .refl hclosed, fun _ _ => List.not_mem_nil⟩
  | succ count ih =>
      obtain ⟨srv, hsrv⟩ := Option.isSome_iff_exists.mp (hmask count (Nat.lt_succ_self count))
      obtain ⟨t, out, heq, hframe, hout⟩ := startupApiClient_frame hclosed action srv regOk
      obtain ⟨u, out', heq', hframe', hout'⟩ :=
        ih hframe.frame.closed fun k hk => hmask k (Nat.lt_succ_of_lt hk)
      refine ⟨u, out ++ out', ?_, hframe.trans hframe', hout.append hout'⟩
      simp only [startupApiLoop, hsrv, heq, andThen, heq']

theorem startup_frame (hclosed : DcsClosed s) {action mask : UInt8} (regOk : QmiClient → Bool)
    (hmask : action = regsrv ∨ action = deregsrv → MaskInTable mask) :
    ∃ t out, qm_register_startup_api_clients s action mask regOk = (some t, out) ∧
      StartupFrame s t ∧ NoSend out := by
  unfold qm_register_startup_api_clients
  split_ifs with haction
  · exact startupApiLoop_frame hclosed action regOk (hmask haction)
  · exact ⟨s, [], rfl, .refl hclosed, fun _ _ => List.not_mem_nil⟩

end Startup

section Turn

/-- A request in the queue is the outstanding one. -/
structure Awaited (s : QmTcb) (evt : QmDcsEvtBlock) : Prop where
  qmbusy : s.qmbusy = true
  qmoperation : s.qmoperation = eQMIRES
  qmipcchannel : s.qmipcchannel = evt.qmdcsevtipcchan
  activeclient : s.activeclient = .dcs 0
  xactionid : (s.qmiclients (.dcs 0)).xactionid = evt.xactionid

variable {s t u : QmTcb} {evt : QmDcsEvtBlock} {current : Prop} {w : DcsWorld}

theorem Awaited.validates (h : Awaited s evt) : qmdcsvalidateresponse s evt.xactionid = true := by
  simp only [qmdcsvalidateresponse, qmixactionidvalidate, h.qmbusy, h.qmoperation,
    h.activeclient, h.xactionid, decide_true, Bool.and_self]

theorem Awaited.of_frame (h : Awaited s evt) (hframe : DcsFrame s t) (hbusy : t.qmbusy = true) :
    Awaited t evt := by
  obtain ⟨-, hop, hchan, hclient⟩ := hframe.record hbusy
  exact ⟨hbusy, hop.trans h.qmoperation, hchan.trans h.qmipcchannel,
    hclient.trans h.activeclient, hframe.xactionid.trans h.xactionid⟩

/-- What a turn keeps with a request, outstanding (`current`) or not. -/
structure TurnKept (current : Prop) (s : QmTcb) (evt : QmDcsEvtBlock) (t : QmTcb)
    (out : List QmOut) : Prop where
  frame : DcsFrame s t
  own : ∀ channel msg, QmOut.amsdkSend channel msg ∈ out →
    current ∧ channel = evt.qmdcsevtipcchan
  stale : ¬ current → s.qmbusy = true → SameRecord s t ∧ t.qmoperation = s.qmoperation

/-- The turn ends and keeps that. -/
def Turns (current : Prop) (s : QmTcb) (evt : QmDcsEvtBlock) (r : Option QmTcb × List QmOut) :
    Prop :=
  ∃ t, r.1 = some t ∧ TurnKept current s evt t r.2

theorem dcsRespond_of_current (h : Awaited s evt) {env : DcsEnv} (hbuilt : env.built = true) :
    dcsRespond s evt env =
      (some (qmclearrespinfo s),
        [.amsdkSend evt.qmdcsevtipcchan (svcMsg .dcs env.qmimsg)]) := by
  simp only [dcsRespond, qm_qmisvc_send_response, h.validates, hbuilt, h.qmipcchannel,
    not_true_eq_false, and_false, if_false, if_true]

theorem dcsRespond_of_stale (h : qmdcsvalidateresponse s evt.xactionid = false) (env : DcsEnv) :
    dcsRespond s evt env = (some s, []) := by
  simp only [dcsRespond, qm_qmisvc_send_response, h, Bool.false_eq_true, not_false_eq_true,
    and_self, if_true]

/-- A response that is sent, or dropped. -/
theorem turns_dcsRespond (hclosed : DcsClosed s) (hcurrent : current → Awaited s evt)
    (hstale : ¬ current → qmdcsvalidateresponse s evt.xactionid = false) {env : DcsEnv}
    (hbuilt : env.built = true) : Turns current s evt (dcsRespond s evt env) := by
  by_cases hcur : current
  · rw [dcsRespond_of_current (hcurrent hcur) hbuilt]
    refine ⟨_, rfl, dcsFrame_qmclearrespinfo hclosed, ?_, fun hne => absurd hcur hne⟩
    intro channel msg hmem
    obtain ⟨rfl, -⟩ := QmOut.amsdkSend.inj (List.mem_singleton.mp hmem)
    exact ⟨hcur, rfl⟩
  · rw [dcsRespond_of_stale (hstale hcur)]
    exact ⟨s, rfl, .refl hclosed, fun _ _ hmem => absurd hmem List.not_mem_nil,
      fun _ _ => ⟨⟨rfl, rfl, rfl, rfl, rfl, rfl⟩, rfl⟩⟩

/-- A turn may go on with what keeps the record and sends nothing. -/
theorem TurnKept.append {out out' : List QmOut} (h : TurnKept current s evt t out)
    (hframe : DcsFrame t u) (hsame : SameRecord t u) (hop : u.qmoperation = t.qmoperation)
    (hout : NoSend out') : TurnKept current s evt u (out ++ out') where
  frame := h.frame.trans hframe
  own channel msg hmem := by
    rcases List.mem_append.mp hmem with hmem | hmem
    · exact h.own channel msg hmem
    · exact absurd hmem (hout channel msg)
  stale hne hbusy :=
    ⟨(h.stale hne hbusy).1.trans' hsame, hop.trans (h.stale hne hbusy).2⟩

theorem turns_qm_dcs_disconnect (hclosed : DcsClosed s) (hcurrent : current → Awaited s evt)
    (hstale : ¬ current → qmdcsvalidateresponse s evt.xactionid = false) {env : DcsEnv}
    (hbuilt : env.built = true) : Turns current s evt (qm_dcs_disconnect s evt env) := by
  obtain ⟨t, ht, hkept⟩ := turns_dcsRespond hclosed hcurrent hstale hbuilt
  have hframe := dcsFrame_qmdisconnect hkept.frame.closed evt.qmdcsevtipcchan
  have hrest : SameRecord t (qmdisconnect t evt.qmdcsevtipcchan).1 ∧
      (qmdisconnect t evt.qmdcsevtipcchan).1.qmoperation = t.qmoperation ∧
        NoSend (qmdisconnect t evt.qmdcsevtipcchan).2 := by
    obtain ⟨apps, heq | heq⟩ := qmdisconnect_eq t evt.qmdcsevtipcchan
    · rw [heq]
      exact ⟨⟨rfl, rfl, rfl, rfl, rfl, rfl⟩, rfl, fun _ _ => List.not_mem_nil⟩
    · rw [heq]
      exact ⟨⟨rfl, rfl, rfl, rfl, rfl, rfl⟩, rfl, noSend_closeRegistered _ _⟩
  obtain ⟨hsame, hop, hout⟩ := hrest
  unfold qm_dcs_disconnect
  rcases hr : dcsRespond s evt env with ⟨_ | t', out⟩
  · rw [hr] at ht
    cases ht
  · rw [hr] at ht hkept
    obtain rfl := Option.some.inj ht
    exact ⟨_, rfl, hkept.append hframe hsame hop hout⟩

/-- A request to start or stop services. -/
theorem turns_qm_dcs_start_srv (hclosed : DcsClosed s) (hcurrent : current → Awaited s evt)
    (hstale : ¬ current → qmdcsvalidateresponse s evt.xactionid = false)
    (hid : evt.xactionid ≠ 0) {env : DcsEnv} (hbuilt : env.built = true)
    (hmask : env.srvStatus = regsrv ∨ env.srvStatus = deregsrv → MaskInTable env.mask) :
    Turns current s evt
      (andThen (qm_register_startup_api_clients s env.srvStatus env.mask env.regOk) fun s =>
        dcsRespond s evt env) := by
  obtain ⟨t, out, heq, hframe, hout⟩ := startup_frame hclosed env.regOk hmask
  have hcurrent' : current → Awaited t evt := fun hcur =>
    (hcurrent hcur).of_frame hframe.frame
      (hframe.record.qmbusy.trans (hcurrent hcur).qmbusy)
  have hstale' : ¬ current → qmdcsvalidateresponse t evt.xactionid = false := by
    intro hcur
    have hs := hstale hcur
    simp only [qmdcsvalidateresponse, qmixactionidvalidate] at hs ⊢
    rw [hframe.record.qmbusy, hframe.qmoperation, hframe.record.activeclient]
    rcases hframe.xactionid s.activeclient with hx | hx
    · rw [hx]
      exact hs
    · simp [hx, hid]
  obtain ⟨u, hu, hkept⟩ := turns_dcsRespond hframe.frame.closed hcurrent' hstale' hbuilt
  rw [heq]
  refine ⟨u, hu, hframe.frame.trans hkept.frame, ?_, ?_⟩
  · intro channel msg hmem
    rcases List.mem_append.mp hmem with hmem | hmem
    · exact absurd hmem (hout channel msg)
    · exact hkept.own channel msg hmem
  · intro hcur hbusy
    obtain ⟨hsame, hop⟩ := hkept.stale hcur (hframe.record.qmbusy.trans hbusy)
    exact ⟨hframe.record.trans' hsame, hop.trans hframe.qmoperation⟩

/-- A request other than one to connect. -/
theorem turns_qm_dcs_handler (hne : evt.request ≠ 1) (hclosed : DcsClosed s)
    (hcurrent : current → Awaited s evt) (hid : evt.xactionid ≠ 0)
    (hsafe : DcsRequestSafe current s evt w) :
    Turns current s evt (qm_dcs_handler s evt (w.env evt)) := by
  have hstale : ¬ current → qmdcsvalidateresponse s evt.xactionid = false :=
    fun hcur => (hsafe.apart hcur).1
  have hbuilt : (w.env evt).built = true := rfl
  apply qm_dcs_handler_rule
  · intro hunpacked
    have hunpacks : (w.env evt).unpacked = true :=
      hsafe.unpacks fun hconnect => absurd hconnect hne
    rw [hunpacked] at hunpacks
    cases hunpacks
  · exact fun h14 hinst => absurd (hsafe.instance_lt h14) hinst
  · intro rc hrc
    have hcur : current := by
      by_contra hcur
      rw [(hsafe.apart hcur).2.1] at hrc
      cases hrc
    refine ⟨_, rfl, dcsFrame_qmclearrespinfo hclosed, ?_, fun hstale => absurd hcur hstale⟩
    intro channel msg hmem
    obtain ⟨rfl, -⟩ := QmOut.amsdkSend.inj (List.mem_singleton.mp hmem)
    exact ⟨hcur, rfl⟩
  · intro _ apps
    have hcurrent' : current → Awaited { s with qmappInfo := apps } evt := fun hcur =>
      ⟨(hcurrent hcur).qmbusy, (hcurrent hcur).qmoperation, (hcurrent hcur).qmipcchannel,
        (hcurrent hcur).activeclient, (hcurrent hcur).xactionid⟩
    have hclosed' : DcsClosed { s with qmappInfo := apps } :=
      ⟨hclosed.registered, hclosed.activewdsclient, hclosed.prevactivewdsclient⟩
    obtain ⟨t, ht, hkept⟩ := turns_dcsRespond hclosed' hcurrent' hstale hbuilt
    have hframe : DcsFrame s { s with qmappInfo := apps } :=
      .of_eq hclosed rfl rfl rfl rfl fun hbusy => ⟨hbusy, rfl, rfl, rfl⟩
    refine ⟨t, ht, hframe.trans hkept.frame, hkept.own, fun hcur hbusy => ?_⟩
    obtain ⟨hsame, hop⟩ := hkept.stale hcur hbusy
    exact ⟨⟨hsame.1, hsame.2, hsame.3, hsame.4, hsame.5, hsame.6⟩, hop⟩
  · intro h4
    rw [dcsRespond_of_stale (by rfl)]
    refine ⟨_, rfl, dcsFrame_qmclearrespinfo hclosed,
      fun _ _ hmem => absurd hmem List.not_mem_nil, fun hcur hbusy => ?_⟩
    rw [(hsafe.apart hcur).2.2 h4] at hbusy
    cases hbusy
  · exact turns_qm_dcs_disconnect hclosed hcurrent hstale hbuilt
  · exact fun h7 _ => turns_qm_dcs_start_srv hclosed hcurrent hstale hid hbuilt (hsafe.services h7)

end Turn

section Connect

variable {s : QmTcb} {evt : QmDcsEvtBlock} {current : Prop} {w : DcsWorld}

/-- Registering an application changes the table of applications only. -/
theorem exists_qmconnect_eq (s : QmTcb) (channel : UInt8) :
    ∃ apps, qmconnect s channel = { s with qmappInfo := apps } := by
  unfold qmconnect
  split_ifs
  · exact ⟨s.qmappInfo, rfl⟩
  · exact ⟨_, rfl⟩

theorem qmIsAppRegistered_eQMIREQ (s : QmTcb) (channel : UInt8) :
    qmIsAppRegistered s channel eQMIREQ = true ↔
      ∃ app ∈ s.qmappInfo, app.qmipcchannel = channel := by
  have hne : eQMIREQ ≠ eQMINOT := by decide
  simp [qmIsAppRegistered, hne]

/-- With an entry for it, an application is registered. -/
theorem qmconnect_registered {channel : UInt8}
    (h : qmIsAppRegistered s channel eQMIREQ = true ∨ HasFreeEntry s) :
    qmIsAppRegistered (qmconnect s channel) channel eQMIREQ = true := by
  unfold qmconnect
  split_ifs with hregistered
  · exact hregistered
  · obtain ⟨app, happ, hfree⟩ := h.resolve_left hregistered
    have hlt : (s.qmappInfo.findIdx fun app => app.qmipcchannel = qmAppChannelUnknown) <
        s.qmappInfo.length :=
      List.findIdx_lt_length_of_exists ⟨app, happ, by simpa using hfree⟩
    rw [qmIsAppRegistered_eQMIREQ]
    refine ⟨⟨channel, true⟩, ?_, rfl⟩
    rw [List.mem_iff_getElem]
    exact ⟨_, by rwa [List.length_modify], by rw [List.getElem_modify_eq]⟩

/-- Without an entry for it, or when it has one, nothing changes. -/
theorem qmconnect_of_full {channel : UInt8}
    (h : qmIsAppRegistered s channel eQMIREQ = true ∨ ¬ HasFreeEntry s) :
    qmconnect s channel = s := by
  unfold qmconnect
  split_ifs with hregistered
  · rfl
  · have hfull := h.resolve_left hregistered
    have hge : s.qmappInfo.length ≤
        s.qmappInfo.findIdx fun app => app.qmipcchannel = qmAppChannelUnknown := by
      refine (List.findIdx_eq_length_of_false fun app happ => ?_).ge
      by_contra hfree
      exact hfull ⟨app, happ, by simpa using hfree⟩
    simp only [List.modify_eq_self hge]

theorem saysSuccess_singleton (channel : UInt8) (msg : AmQmiMsg) :
    SaysSuccess [.amsdkSend channel msg] ↔ succeeded msg = true := by
  simp [SaysSuccess]

theorem not_saysSuccess_nil : ¬ SaysSuccess [] := by simp [SaysSuccess]

/-- The response of a request to connect says whether there is a device. -/
theorem succeeded_connect (h1 : evt.request = 1) :
    succeeded (svcMsg .dcs (w.env evt).qmimsg) = w.device.isSome := by
  simp only [DcsWorld.env, h1, if_true]
  cases w.device with
  | none => exact (by decide +kernel : succeeded (svcMsg .dcs
      (resultMsg 1 qmiRcFailure EQCWWANError.noDevice.toUInt16)) = false)
  | some dev => exact (by decide +kernel : succeeded (svcMsg .dcs
      (resultMsg 1 qmiRcSuccess 0)) = true)

/-- What a turn with a request to connect keeps. -/
structure ConnectKept (current : Prop) (s : QmTcb) (evt : QmDcsEvtBlock) (w : DcsWorld)
    (t : QmTcb) (out : List QmOut) : Prop where
  success : current → (SaysSuccess out ↔ w.Names evt.tlvs)
  registered : SaysSuccess out → qmIsAppRegistered t evt.qmdcsevtipcchan eQMIREQ = true
  unregistered : ¬ SaysSuccess out → t.qmappInfo = s.qmappInfo

/-- A request to connect. -/
theorem turns_qm_dcs_connect (h1 : evt.request = 1) (hclosed : DcsClosed s)
    (hcurrent : current → Awaited s evt) (hsafe : DcsRequestSafe current s evt w) :
    ∃ t, (qm_dcs_handler s evt (w.env evt)).1 = some t ∧
      TurnKept current s evt t (qm_dcs_handler s evt (w.env evt)).2 ∧
        ConnectKept current s evt w t (qm_dcs_handler s evt (w.env evt)).2 := by
  have hstale : ¬ current → qmdcsvalidateresponse s evt.xactionid = false :=
    fun hcur => (hsafe.apart hcur).1
  have hbuilt : (w.env evt).built = true := rfl
  have hhandler : qm_dcs_handler s evt (w.env evt) = qm_dcs_connect s evt (w.env evt) := by
    simp only [qm_dcs_handler, h1]
  have hfound : (w.env evt).deviceFound = w.device.isSome := rfl
  rw [hhandler, qm_dcs_connect, hfound]
  have hturn := turns_dcsRespond hclosed hcurrent hstale hbuilt
  cases hdevice : w.device with
  | none =>
      have hnames : ¬ w.Names evt.tlvs := by
        rintro ⟨dev, hdev, -⟩
        rw [hdevice] at hdev
        cases hdev
      have hsays : ¬ SaysSuccess (dcsRespond s evt (w.env evt)).2 := by
        by_cases hcur : current
        · rw [dcsRespond_of_current (hcurrent hcur) hbuilt, saysSuccess_singleton,
            succeeded_connect h1, hdevice]
          exact Bool.false_ne_true
        · rw [dcsRespond_of_stale (hstale hcur)]
          exact not_saysSuccess_nil
      rw [if_neg (by simp)]
      obtain ⟨t, ht, hkept⟩ := hturn
      refine ⟨t, ht, hkept, fun _ => iff_of_false hsays hnames, fun h => absurd h hsays, ?_⟩
      intro _
      by_cases hcur : current
      · rw [dcsRespond_of_current (hcurrent hcur) hbuilt] at ht
        rw [← Option.some.inj ht]
        rfl
      · rw [dcsRespond_of_stale (hstale hcur)] at ht
        rw [← Option.some.inj ht]
  | some dev =>
      have hsome : w.device.isSome = true := by rw [hdevice]; rfl
      have hunpacked : (w.env evt).unpacked = true := hsafe.unpacks fun _ => hsome
      rw [if_pos (by simp), if_pos hunpacked]
      by_cases hcur : current
      · obtain ⟨hnames, hroom⟩ := hsafe.names h1 hcur hsome
        obtain ⟨apps, happs⟩ := exists_qmconnect_eq s evt.qmdcsevtipcchan
        have hregistered := qmconnect_registered hroom
        have hawaited : Awaited (qmconnect s evt.qmdcsevtipcchan) evt := by
          have h := hcurrent hcur
          rw [happs]
          exact ⟨h.qmbusy, h.qmoperation, h.qmipcchannel, h.activeclient, h.xactionid⟩
        rw [if_pos (deviceMatches_of_names hnames), dcsRespond_of_current hawaited hbuilt]
        have hsays : SaysSuccess [.amsdkSend evt.qmdcsevtipcchan
            (svcMsg .dcs (w.env evt).qmimsg)] := by
          rw [saysSuccess_singleton, succeeded_connect h1, hsome]
        refine ⟨_, rfl, ⟨?_, ?_, fun hne => absurd hcur hne⟩, fun _ => iff_of_true hsays hnames,
          fun _ => hregistered, fun hne => absurd hsays hne⟩
        · rw [happs]
          exact .of_eq hclosed rfl rfl rfl rfl fun hbusy => absurd hbusy Bool.false_ne_true
        · intro channel msg hmem
          obtain ⟨rfl, -⟩ := QmOut.amsdkSend.inj (List.mem_singleton.mp hmem)
          exact ⟨hcur, rfl⟩
      · have hsame : (if (w.env evt).deviceMatches then
            dcsRespond (qmconnect s evt.qmdcsevtipcchan) evt (w.env evt)
            else dcsRespond s evt (w.env evt)) = dcsRespond s evt (w.env evt) := by
          split_ifs with hmatches
          · rw [qmconnect_of_full (hsafe.unmatched h1 hcur hmatches)]
          · rfl
        rw [hsame]
        obtain ⟨t, ht, hkept⟩ := hturn
        rw [dcsRespond_of_stale (hstale hcur)] at ht hkept ⊢
        refine ⟨t, ht, hkept, fun h => absurd h hcur, fun h => absurd h not_saysSuccess_nil, ?_⟩
        intro _
        rw [← Option.some.inj ht]

end Connect

section Requests

/-- The queue of the DCS task is the same, and its client closed. -/
structure DcsRest (s t : QmTcb) : Prop where
  closed : DcsClosed t
  queue : t.qmdcsicmsgque = s.qmdcsicmsgque

variable {s t : QmTcb} {r : Option QmTcb × List QmOut}

theorem DcsFrame.rest (h : DcsFrame s t) : DcsRest s t := ⟨h.closed, h.queue⟩

/-- What becomes of the task, if it goes on. -/
def Rests (s : QmTcb) (r : Option QmTcb × List QmOut) : Prop := ∀ t, r.1 = some t → DcsRest s t

theorem rests_none (out : List QmOut) : Rests s (none, out) :=
  fun t ht => absurd ht (Option.some_ne_none t).symm

theorem rests_some {out : List QmOut} (h : DcsRest s t) : Rests s (some t, out) := by
  intro t' ht'
  rwa [← Option.some.inj ht']

theorem dcsClosed_recorded (h : DcsClosed s) (parms : AmQmiRrParms) (ipcchan : UInt8) :
    DcsClosed (recorded s parms ipcchan) :=
  ⟨by rw [recorded_registered, h.registered], h.activewdsclient, h.prevactivewdsclient⟩

theorem rests_send_response {u : QmTcb} (h : DcsRest s u) (svc : EQmiService)
    (xactionid : UInt16) (env : SvcEnv) :
    Rests s (qm_qmisvc_send_response u svc xactionid env) := by
  unfold qm_qmisvc_send_response
  split_ifs
  · exact rests_some h
  · exact rests_some ⟨⟨h.closed.1, h.closed.2, h.closed.3⟩, h.queue⟩
  · exact rests_none _

theorem rests_qm_fms_handler (h : DcsClosed s) (preq : List UInt8) (env : FmsEnv) :
    Rests s (qm_fms_handler s preq env) := by
  have hresp : ∀ fms, Rests s (fmsRespond { s with fms_data := fms } env) := by
    intro fms
    apply rests_send_response
    exact ⟨⟨h.registered, h.activewdsclient, h.prevactivewdsclient⟩, rfl⟩
  apply qm_fms_handler_rule
  · exact fun _ => rests_none _
  · exact fun _ _ => rests_some ⟨h, rfl⟩
  · exact rests_some (dcsFrame_qmclearrespinfo h).rest
  · exact fun _ => hresp
  · intro _ fms kick _ t ht
    obtain ⟨u, hu, htu, -⟩ := andThen_some ht
    rw [← Option.some.inj htu]
    exact hresp fms u hu

/-- The parser does not choose the client of the service. -/
theorem dcsRest_qmparser (h : DcsClosed s) (instanceid : UInt8) (svc : EQmiService)
    (pmsg : List UInt8) : DcsRest s (qmparser s instanceid svc pmsg) := by
  have hactive : (qmparser s instanceid svc pmsg).activewdsclient ≠ .dcs 0 := by
    have hclosed := h.activewdsclient
    cases svc with
    | wds =>
        simp only [qmparser, qmparserwds, psrwds_setipfamily, wdsClientOf, wdsV6ClientOf]
        split_ifs
        all_goals first | exact hclosed | exact QmiClient.noConfusion
    | dms =>
        simp only [qmparser, qmparserdms]
        split_ifs
        · exact hclosed
        · exact hclosed
    | _ => exact hclosed
  rw [qmparser_frame]
  exact ⟨⟨h.registered, hactive, h.prevactivewdsclient⟩, rfl⟩

theorem rests_qmprepareopen {p : QmTcb} (h : DcsRest s p) (parms : AmQmiRrParms)
    (inbuf : List UInt8) (ipcchan : UInt8) (client : QmiClient) (sendOk : Bool) :
    Rests s (qmfinish (qmprepareopen p parms inbuf ipcchan client) sendOk) := by
  rcases @qmprepareopen_eq p parms inbuf ipcchan client with hstop | ⟨m, hbuild, hsend⟩
  · rw [hstop]
    exact rests_none _
  · obtain ⟨-, htcb, -⟩ := qmbuildmdmreq_eq_some hbuild
    have hclosed : DcsClosed m.tcb := by
      rw [htcb]
      exact dcsClosed_recorded h.closed parms ipcchan
    have hqueue : m.tcb.qmdcsicmsgque = s.qmdcsicmsgque := by
      rw [htcb]
      exact h.queue
    have hpool : ∀ {u : QmTcb} (pool : Mm.MmPool), DcsRest s u →
        DcsRest s (setSizedPool u m.msglen pool) := by
      intro u pool hu
      unfold setSizedPool
      split_ifs
      · exact ⟨⟨hu.closed.1, hu.closed.2, hu.closed.3⟩, hu.queue⟩
      · exact ⟨⟨hu.closed.1, hu.closed.2, hu.closed.3⟩, hu.queue⟩
    rw [hsend]
    simp only [qmfinish, qmsendmdmreq, List.nil_append]
    split
    · exact rests_none _
    · refine rests_some (hpool _ ?_)
      split_ifs
      · exact ⟨hclosed, hqueue⟩
      · exact ⟨⟨hclosed.1, hclosed.2, hclosed.3⟩, hqueue⟩

/-- A request for the modem. -/
theorem rests_qmpreparemdmreq (h : DcsClosed s) {parms : AmQmiRrParms}
    (hclient : qmisvc2qmiclnt_map parms.qmiinstanceid (.ofCode parms.amqmisvctype) ≠ .dcs 0)
    (inbuf : List UInt8) (ipcchan : UInt8) (env : ReqEnv) :
    Rests s (qmfinish (qmpreparemdmreq s parms inbuf ipcchan env.ioctlOk) env.sendOk) := by
  generalize hp : qmparser s parms.qmiinstanceid (.ofCode parms.amqmisvctype) inbuf = p
  have hparsed : DcsRest s p := hp ▸ dcsRest_qmparser h _ _ _
  have hne : requestClient p parms ≠ .dcs 0 := by
    unfold requestClient
    split
    · exact hparsed.closed.activewdsclient
    · exact hclient
  apply qmpreparemdmreq_rule hp rfl
  · exact fun _ => rests_qmprepareopen hparsed _ _ _ _ _
  · intro _ _ _ t ht
    obtain ⟨u, hu, htu, -⟩ := andThen_some ht
    obtain rfl := Option.some.inj hu
    have hopened : DcsRest s (opened p (requestClient p parms)) := by
      refine ⟨⟨?_, hparsed.closed.activewdsclient, hne⟩, hparsed.queue⟩
      simp only [opened, Function.update_of_ne hne.symm, hparsed.closed.registered]
    exact rests_qmprepareopen hopened _ _ _ _ _ t htu
  · exact fun _ _ _ => rests_none _
  · intro _ _
    exact rests_some ⟨⟨hparsed.closed.registered, hparsed.closed.prevactivewdsclient,
      hparsed.closed.prevactivewdsclient⟩, hparsed.queue⟩

/-- The queue of the DCS task is the same, or a request has joined it that is the outstanding one
then. -/
def Joins (s : QmTcb) (ipcchan : UInt8) (r : Option QmTcb × List QmOut) : Prop :=
  ∀ t, r.1 = some t → DcsClosed t ∧ (t.qmdcsicmsgque = s.qmdcsicmsgque ∨
    ∃ evt : QmDcsEvtBlock, t.qmdcsicmsgque = s.qmdcsicmsgque ++ [evt] ∧
      evt.qmdcsevtipcchan = ipcchan ∧ evt.xactionid ≠ 0 ∧ Awaited t evt)

theorem joins_qmqmireq (h : DcsClosed s) (packet : List UInt8) (ipcchan : UInt8) (env : ReqEnv) :
    Joins s ipcchan (qmqmireq s packet ipcchan env) := by
  generalize hs' : { s with qmipcchannel := ipcchan } = s'
  generalize hparms : amparseqmixactionheader packet = parms
  generalize hclient : qmisvc2qmiclnt_map parms.qmiinstanceid (.ofCode parms.amqmisvctype) = client
  have hclosed : DcsClosed s' := by
    rw [← hs']
    exact ⟨h.registered, h.activewdsclient, h.prevactivewdsclient⟩
  have hque : s'.qmdcsicmsgque = s.qmdcsicmsgque := by rw [← hs']
  have hrest : ∀ {r : Option QmTcb × List QmOut}, Rests s' r → Joins s ipcchan r :=
    fun hr t ht => ⟨(hr t ht).closed, .inl ((hr t ht).queue.trans hque)⟩
  apply qmqmireq_rule hs' hparms hclient
  · exact fun rc _ _ => hrest (rests_some (dcsFrame_qmclearrespinfo hclosed).rest)
  · exact fun _ => hrest (rests_none _)
  · intro _ _ hdcs t ht
    unfold qmsenddcsreq at ht
    split_ifs at ht
    obtain rfl := Option.some.inj ht
    have hsaved : qmsaverespinfoClient s' parms = .dcs 0 := by
      unfold qmsaverespinfoClient
      rw [hclient, hdcs]
    have hrecorded := dcsClosed_recorded hclosed parms ipcchan
    refine ⟨⟨hrecorded.1, hrecorded.2, hrecorded.3⟩, .inr ⟨_, by rw [← hque]; rfl, rfl, ?_, ?_⟩⟩
    · simp [recorded, hsaved, qmisvcxactionidassign_ne_zero]
    · exact ⟨rfl, rfl, rfl, hsaved, rfl⟩
  · intro _ _ _
    refine hrest fun t ht => ?_
    have hfms := rests_qm_fms_handler (dcsClosed_recorded hclosed parms ipcchan) _ env.fms t ht
    exact ⟨hfms.closed, hfms.queue⟩
  · intro _ hne _
    exact hrest (rests_qmpreparemdmreq hclosed (by rwa [hclient]) _ _ env)

end Requests

section Run

/-- A request in the queue and its stamp. -/
structure DcsQueued (s : QmTcb) (log : DcsLog) (evt : QmDcsEvtBlock) (stamp : DcsStamp) : Prop where
  id_lt : stamp.id < log.next
  ipcchan : evt.qmdcsevtipcchan = stamp.ipcchan
  xactionid : evt.xactionid ≠ 0
  awaited : log.current = some stamp → Awaited s evt

/-- The log is right about the queue of the DCS task. -/
structure DcsKnown (s : QmTcb) (log : DcsLog) : Prop where
  closed : DcsClosed s
  queued : List.Forall₂ (DcsQueued s log) s.qmdcsicmsgque log.queued

variable {s t : QmTcb} {log : DcsLog}

/-- What the log says of the outstanding request after a step that is not a request. -/
def DcsLog.kept (log : DcsLog) (t : QmTcb) : DcsLog :=
  { log with current := if t.qmbusy then log.current else none }

theorem DcsQueued.kept {evt : QmDcsEvtBlock} {stamp : DcsStamp} (h : DcsQueued s log evt stamp)
    (hframe : DcsFrame s t) : DcsQueued t (log.kept t) evt stamp where
  id_lt := h.id_lt
  ipcchan := h.ipcchan
  xactionid := h.xactionid
  awaited hcurrent := by
    unfold DcsLog.kept at hcurrent
    simp only at hcurrent
    split_ifs at hcurrent with hbusy
    exact (h.awaited hcurrent).of_frame hframe hbusy

theorem DcsKnown.kept (h : DcsKnown s log) (hframe : DcsFrame s t) : DcsKnown t (log.kept t) where
  closed := hframe.closed
  queued := by
    rw [hframe.queue]
    exact h.queued.imp fun evt stamp hevt => hevt.kept hframe

/-- The DCS task takes a request from the queue. -/
theorem DcsKnown.taken {evt : QmDcsEvtBlock} {rest : List QmDcsEvtBlock} (h : DcsKnown s log)
    (hque : s.qmdcsicmsgque = evt :: rest) :
    ∃ stamp, log.queued = stamp :: log.queued.tail ∧
      DcsQueued { s with qmdcsicmsgque := rest } log evt stamp ∧
        DcsKnown { s with qmdcsicmsgque := rest } { log with queued := log.queued.tail } := by
  have hqueued := h.queued
  rw [hque] at hqueued
  cases hlog : log.queued with
  | nil =>
      rw [hlog] at hqueued
      cases hqueued
  | cons stamp stamps =>
      rw [hlog] at hqueued
      obtain ⟨hevt, hrest⟩ := List.forall₂_cons.mp hqueued
      have hsame : ∀ {evt stamp}, DcsQueued s log evt stamp →
          DcsQueued { s with qmdcsicmsgque := rest } { log with queued := stamps } evt stamp :=
        fun hq => ⟨hq.id_lt, hq.ipcchan, hq.xactionid, fun hcurrent =>
          ⟨(hq.awaited hcurrent).1, (hq.awaited hcurrent).2, (hq.awaited hcurrent).3,
            (hq.awaited hcurrent).4, (hq.awaited hcurrent).5⟩⟩
      refine ⟨stamp, rfl, ⟨(hsame hevt).1, (hsame hevt).2, (hsame hevt).3, (hsame hevt).4⟩,
        ⟨h.closed.1, h.closed.2, h.closed.3⟩, ?_⟩
      exact hrest.imp fun evt stamp hq => hsame hq

/-- A request arrives. -/
theorem DcsKnown.arrived (h : DcsKnown s log) {packet : List UInt8} {ipcchan : UInt8} {env : ReqEnv}
    (ht : (qmqmireq s packet ipcchan env).1 = some t) :
    DcsKnown t (log.step s t (.qmiReq packet ipcchan env)) := by
  obtain ⟨hclosed, hqueue⟩ := joins_qmqmireq h.closed packet ipcchan env t ht
  have hold : ∀ {evt stamp}, DcsQueued s log evt stamp →
      DcsQueued t (log.step s t (.qmiReq packet ipcchan env)) evt stamp := by
    intro evt stamp hevt
    refine ⟨Nat.lt_succ_of_lt hevt.id_lt, hevt.ipcchan, hevt.xactionid, fun hcurrent => ?_⟩
    -- the number of the new request is not taken
    have hid := hevt.id_lt
    simp only [DcsLog.step] at hcurrent
    split_ifs at hcurrent
    obtain rfl := Option.some.inj hcurrent
    exact absurd hid (lt_irrefl _)
  refine ⟨hclosed, ?_⟩
  rcases hqueue with hsame | ⟨evt, hjoined, hchan, hid, hawaited⟩
  · have hstep : (log.step s t (.qmiReq packet ipcchan env)).queued = log.queued := by
      simp [DcsLog.step, hsame]
    rw [hsame, hstep]
    exact h.queued.imp fun evt stamp => hold
  · have hstep : (log.step s t (.qmiReq packet ipcchan env)).queued =
        log.queued ++ [⟨log.next, ipcchan⟩] := by
      simp [DcsLog.step, hjoined]
    rw [hjoined, hstep]
    refine List.rel_append (h.queued.imp fun evt stamp => hold) (.cons ?_ .nil)
    exact ⟨Nat.lt_succ_self _, hchan, hid, fun _ => hawaited⟩

/-- An event that is no request and no turn of the DCS task. -/
theorem dcsFrame_qmtask (h : DcsClosed s) {event : LocalEvent}
    (hreq : ∀ packet ipcchan env, event ≠ .qmiReq packet ipcchan env)
    (hdcs : ∀ w, event ≠ .dcs w) (ht : (qmtask s (event.event s)).1 = some t) : DcsFrame s t := by
  cases event with
  | qmiReq packet ipcchan env => exact absurd rfl (hreq packet ipcchan env)
  | dcs w => exact absurd rfl (hdcs w)
  | rx instanceid client qmpacket => exact dcsFrame_qmrxpkt h instanceid qmpacket client ht
  | tick sixtySeconds => exact Option.some.inj ht ▸ dcsFrame_qmtmrtick h sixtySeconds
  | device event => exact Option.some.inj ht ▸ dcsFrame_qm_ds_dev_event_handler h event
  | net q_depth isThrottle => exact Option.some.inj ht ▸ .refl h
  | fwStatus status =>
      obtain rfl := Option.some.inj ht
      exact .of_eq h rfl rfl rfl rfl fun hbusy => ⟨hbusy, rfl, rfl, rfl⟩

/-- A turn of the DCS task with a safe request. -/
theorem turn_of_safe {evt : QmDcsEvtBlock} {rest : List QmDcsEvtBlock} {w : DcsWorld}
    (h : DcsKnown s log) (hque : s.qmdcsicmsgque = evt :: rest)
    (hsafe : DcsRequestSafe (log.current = log.queued.head?) s evt w) :
    ∃ stamp t, log.queued.head? = some stamp ∧
      (qmdcstask s (w.env evt)).1 = some t ∧
        DcsFrame { s with qmdcsicmsgque := rest } t ∧
          DcsKept log s evt stamp w t (qmdcstask s (w.env evt)).2 := by
  obtain ⟨stamp, hlog, hevt, hknown⟩ := h.taken hque
  have hhead : log.queued.head? = some stamp := by rw [hlog]; rfl
  rw [hhead] at hsafe
  have htask : qmdcstask s (w.env evt) =
      qm_dcs_handler { s with qmdcsicmsgque := rest } evt (w.env evt) := by
    simp only [qmdcstask, hque]
  have hsafe' : DcsRequestSafe (log.current = some stamp) { s with qmdcsicmsgque := rest } evt w :=
    ⟨hsafe.unpacks, hsafe.instance_lt, hsafe.services, hsafe.apart, hsafe.names, hsafe.unmatched⟩
  rw [htask]
  have hown : ∀ {t : QmTcb} {out : List QmOut},
      TurnKept (log.current = some stamp) { s with qmdcsicmsgque := rest } evt t out →
        (∀ channel msg, QmOut.amsdkSend channel msg ∈ out →
          log.current = some stamp ∧ channel = stamp.ipcchan) ∧
        (log.current ≠ some stamp → s.qmbusy = true →
          SameRecord s t ∧ t.qmoperation = s.qmoperation) := by
    intro t out hkept
    refine ⟨fun channel msg hmem => ?_, fun hne hbusy => ?_⟩
    · obtain ⟨hcurrent, hchan⟩ := hkept.own channel msg hmem
      exact ⟨hcurrent, hchan.trans hevt.ipcchan⟩
    · obtain ⟨hsame, hop⟩ := hkept.stale hne hbusy
      exact ⟨⟨hsame.1, hsame.2, hsame.3, hsame.4, hsame.5, hsame.6⟩, hop⟩
  by_cases h1 : evt.request = 1
  · obtain ⟨t, ht, hkept, hconnect⟩ :=
      turns_qm_dcs_connect h1 hknown.closed hevt.awaited hsafe'
    obtain ⟨hsend, hstale⟩ := hown hkept
    refine ⟨stamp, t, hhead, ht, hkept.frame, hsend, hstale, fun _ => hconnect.success, ?_,
      fun _ => hconnect.unregistered⟩
    exact fun _ hsays => hevt.ipcchan ▸ hconnect.registered hsays
  · obtain ⟨t, ht, hkept⟩ :=
      turns_qm_dcs_handler h1 hknown.closed hevt.awaited hevt.xactionid hsafe'
    obtain ⟨hsend, hstale⟩ := hown hkept
    exact ⟨stamp, t, hhead, ht, hkept.frame, hsend, hstale, fun hc => absurd hc h1,
      fun hc => absurd hc h1, fun hc => absurd hc h1⟩

/-- The log is right as long as the task goes on. -/
def DcsLogged (state : Option QmTcb × DcsLog) : Prop :=
  ∀ s, state.1 = some s → DcsKnown s state.2

theorem DcsKnown.step {event : LocalEvent} (h : DcsKnown s log)
    (hsafe : DcsSafe (some s, log) event) (ht : (qmtask s (event.event s)).1 = some t) :
    DcsKnown t (log.step s t event) := by
  by_cases hreq : ∃ packet ipcchan env, event = .qmiReq packet ipcchan env
  · obtain ⟨packet, ipcchan, env, rfl⟩ := hreq
    exact h.arrived ht
  by_cases hdcs : ∃ w, event = .dcs w
  · obtain ⟨w, rfl⟩ := hdcs
    cases hque : s.qmdcsicmsgque with
    | nil =>
        have hqueued := h.queued
        rw [hque, List.forall₂_nil_left_iff] at hqueued
        have hstep : log.step s t (.dcs w) = log.kept t := by
          simp [DcsLog.step, DcsLog.kept, hqueued]
        have htask : qmtask s ((LocalEvent.dcs w).event s) = (some s, []) := by
          simp only [LocalEvent.event, qmtask, qmdcstask, hque]
        rw [htask] at ht
        rw [hstep, ← Option.some.inj ht]
        exact h.kept (.refl h.closed)
    | cons evt rest =>
        obtain ⟨stamp, t', -, ht', hframe, -⟩ :=
          turn_of_safe h hque (hsafe s w evt rest rfl rfl hque)
        have henv : (LocalEvent.dcs w).event s = .dcs (w.env evt) := by
          simp only [LocalEvent.event, hque, List.headD_cons]
        rw [henv] at ht
        obtain rfl := Option.some.inj (ht'.symm.trans ht)
        obtain ⟨-, -, -, htaken⟩ := h.taken hque
        exact htaken.kept hframe
  · have hframe := dcsFrame_qmtask h.closed
      (fun packet ipcchan env heq => hreq ⟨packet, ipcchan, env, heq⟩)
      (fun w heq => hdcs ⟨w, heq⟩) ht
    have hstep : log.step s t event = log.kept t := by
      cases event with
      | qmiReq packet ipcchan env => exact absurd ⟨packet, ipcchan, env, rfl⟩ hreq
      | dcs w => exact absurd ⟨w, rfl⟩ hdcs
      | _ => rfl
    rw [hstep]
    exact h.kept hframe

theorem dcsLogged_step (state : Option QmTcb × DcsLog) (event : LocalEvent)
    (h : DcsLogged state) (hsafe : DcsSafe state event) : DcsLogged (localStep state event).1 := by
  obtain ⟨_ | s, log⟩ := state
  · exact fun s hs => nomatch hs
  · unfold localStep
    simp only
    cases ht : (qmtask s (event.event s)).1 with
    | none => exact fun s hs => nomatch hs
    | some t =>
        rintro _ ⟨⟩
        exact (h s rfl).step hsafe ht

theorem dcsLogged_start : DcsLogged localStart := by
  rintro s ⟨⟩
  exact ⟨⟨rfl, nofun, nofun⟩, .nil⟩

theorem keepsDcs_of_safe (state : Option QmTcb × DcsLog) (event : LocalEvent)
    (h : DcsLogged state) (hsafe : DcsSafe state event) : KeepsDcs state event := by
  rintro s w evt rest hs rfl hque
  obtain ⟨stamp, t, hhead, ht, -, hkept⟩ :=
    turn_of_safe (h s hs) hque (hsafe s w evt rest hs rfl hque)
  have henv : (LocalEvent.dcs w).event s = .dcs (w.env evt) := by
    simp only [LocalEvent.event, hque, List.headD_cons]
  rw [henv]
  exact ⟨stamp, t, hhead, ht, hkept⟩

end Run

section Runs

/-- In every run in which the requests that the DCS task comes to do no harm, its turns do what
they should. -/
theorem keepsDcs_of_dcsSafe {events : List LocalEvent}
    (h : Meets localStep DcsSafe localStart events) :
    Meets localStep KeepsDcs localStart events :=
  meets_of_invariant dcsLogged_step keepsDcs_of_safe dcsLogged_start h

/-- A request to connect, with a device key of fourteen characters `A`. -/
def connectRequest (devnode : List UInt8) : List UInt8 :=
  piput16 1 ++ piput16 (devnode.length + 20).toUInt16 ++
    (0 :: piput16 devnode.length.toUInt16 ++ devnode) ++
      (1 :: piput16 14 ++ List.replicate 14 65)

/-- The device is the node `/d1`, and has that key. -/
def connectWorld : DcsWorld where
  device := some ⟨[0x2f, 0x64, 0x31], List.replicate 14 65⟩
  devnode := []
  devkey := []
  srvStatus := 0
  mask := 0
  regOk := fun _ => true
  qmimsg := []

/-- The device comes up and an application asks to connect. -/
def askedEvents (devnode : List UInt8) : List LocalEvent :=
  [.device .ready, .qmiReq (requestPacket .dcs 0 (connectRequest devnode)) 2 reqEnvOk]

/-- The DCS task serves that request. -/
def connectRun (devnode : List UInt8) : List LocalEvent :=
  askedEvents devnode ++ [.dcs connectWorld]

/-- An application connects to the device. -/
theorem keepsDcs_connectRun :
    Meets localStep KeepsDcs localStart (connectRun [0x2f, 0x64, 0x31]) := by
  apply keepsDcs_of_dcsSafe
  have hnodcs : ∀ {state : Option QmTcb × DcsLog} {event : LocalEvent},
      (∀ w, event ≠ .dcs w) → DcsSafe state event :=
    fun h s w evt rest _ hevent => absurd hevent (h w)
  refine ⟨hnodcs nofun, hnodcs nofun, ?_, trivial⟩
  rintro s w evt rest hs hw hque
  obtain rfl := Option.some.inj hs
  obtain rfl := LocalEvent.dcs.inj hw
  obtain ⟨rfl, rfl⟩ := List.cons.inj hque
  exact
    { unpacks := fun _ => by decide +kernel
      instance_lt := fun h14 => absurd h14 (by decide +kernel)
      services := fun h7 => absurd h7 (by decide +kernel)
      apart := fun hstale => absurd (by decide +kernel) hstale
      names := fun _ _ _ => ⟨⟨_, rfl, by decide +kernel, by decide +kernel⟩,
        .inr ⟨QmAppInfo.unused, by decide +kernel, rfl⟩⟩
      unmatched := fun _ hstale => absurd (by decide +kernel) hstale }

/-- An application that asks for another device is told that it is connected. -/
theorem not_keepsDcs_connectRun :
    ¬ Meets localStep KeepsDcs localStart (connectRun [0x2f, 0x64, 0x32]) := by
  rintro ⟨-, -, hkeeps, -⟩
  obtain ⟨stamp, t, hhead, -, hkept⟩ := hkeeps _ connectWorld _ _ rfl rfl rfl
  obtain rfl := Option.some.inj hhead
  obtain ⟨dev, hdevice, hnode, -⟩ := (hkept.success (by decide +kernel) (by decide +kernel)).mp
    ⟨2, svcMsg .dcs (resultMsg 1 qmiRcSuccess 0), by decide +kernel, by decide +kernel⟩
  obtain rfl := Option.some.inj hdevice
  exact absurd hnode (by decide +kernel)

end Runs

end Qm

end SierraSdk
