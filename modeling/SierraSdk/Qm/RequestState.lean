import Mathlib.Data.List.Induction
import SierraSdk.Qm.Task

/-!
# The fields of the outstanding request

The busy flag, the active client, the response timer and the response channel are written by
several functions, each of which sets or clears a part of them. `RequestState` says how they hang
together, and when a client has a transaction id other than zero.

The record of a block that has not seen a request yet is static memory with channel zero, and a
client that is closed loses its transaction id. Apart from that the fields hang together in every
state that the task reaches (`requestStates`): whatever an event does, it leaves them, forgets the
request or records a new one (`Continues`, `requestState_qmqmireq`).
-/

namespace SierraSdk

namespace Qm

open Am Ci Machine

section Statement

/-- What happens to a client: a request is recorded for it, or it is closed. -/
inductive ClientCall where
  | requested (client : QmiClient)
  | closed (client : QmiClient)
  deriving DecidableEq

/-- The client that an output closes. -/
def closing : QmOut → Option ClientCall
  | .dsclose _ client => some (.closed client)
  | _ => none

/-- The client that the request of an event is recorded for, if it gets that far. -/
def requestedClient (s : QmTcb) : QmEvent → Option QmiClient
  | .qmiReq packet ipcchan env =>
      let t := { s with qmipcchannel := ipcchan }
      let parms := amparseqmixactionheader packet
      let client := qmisvc2qmiclnt_map parms.qmiinstanceid (.ofCode parms.amqmisvctype)
      let p := qmparser t parms.qmiinstanceid (.ofCode parms.amqmisvctype)
        (packet.drop amQmiRrnSz)
      if requestError t parms client ≠ EQCWWANError.none then none
      else if client = .dcs 0 ∨ client = .fms then some client
      else if (p.qmiclients (requestClient p parms)).registered ∨ env.ioctlOk then
        some (qmsaverespinfoClient p parms)
      else none
  | _ => none

/-- A step of the task, with what happens to clients. -/
def clientStep : Option QmTcb → QmEvent → Option QmTcb × List ClientCall
  | none, _ => (none, [])
  | some s, event =>
      ((qmtask s event).1,
        (requestedClient s event).toList.map .requested ++ (qmtask s event).2.filterMap closing)

def callUse (client : QmiClient) (used : Bool) : ClientCall → Bool
  | .requested c => used || c = client
  | .closed c => used && c ≠ client

/-- A client is in use from a request for it until it is closed. -/
def inUse (calls : List ClientCall) (client : QmiClient) : Bool :=
  calls.foldl (callUse client) false

/-- The fields of the outstanding request hang together. An idle block has no response channel if
`settled`, and the clients that are `numbered` have a transaction id. -/
structure RequestState (s : QmTcb) (settled : Prop) (numbered : QmiClient → Prop) : Prop where
  busy_iff : s.qmbusy = true ↔ s.activeclient ≠ .unsupported
  timer : s.qmmdmwaittmr ≠ 0 → s.qmbusy = true
  channel : settled → s.qmbusy = false → s.qmipcchannel = qmAppChannelUnknown
  xactionid : ∀ client, numbered client → (s.qmiclients client).xactionid ≠ 0

/-- The state that a run ends in, if it has not ended the daemon, is such a one. -/
def RequestStates (settled : List QmEvent → Prop)
    (numbered : List ClientCall → QmiClient → Prop) (events : List QmEvent) : Prop :=
  match after clientStep (some qminit) events with
  | none => True
  | some s =>
      RequestState s (settled events) (numbered (outputs clientStep (some qminit) events))

def QmEvent.isRequest : QmEvent → Bool
  | .qmiReq .. => true
  | _ => false

end Statement

section Steps

/-- The record is left as it is, with no more time to wait, or forgotten. The transaction ids are
kept, but for those of the clients that are closed. -/
structure Continues (s t : QmTcb) (out : List QmOut) : Prop where
  record :
    (t.qmbusy = s.qmbusy ∧ t.activeclient = s.activeclient ∧ t.qmipcchannel = s.qmipcchannel ∧
        t.qmmdmwaittmr ≤ s.qmmdmwaittmr) ∨
      (t.qmbusy = false ∧ t.activeclient = .unsupported ∧
        t.qmipcchannel = qmAppChannelUnknown ∧ t.qmmdmwaittmr = 0)
  xactionid : ∀ client, (t.qmiclients client).xactionid = (s.qmiclients client).xactionid ∨
    .closed client ∈ out.filterMap closing

def requestFields (s : QmTcb) : Bool × QmiClient × UInt8 × ℕ × (QmiClient → QmiControlPoint) :=
  (s.qmbusy, s.activeclient, s.qmipcchannel, s.qmmdmwaittmr, s.qmiclients)

/-- An action that continues, unless it ends the daemon. -/
def ContinuesTo (s : QmTcb) (r : Option QmTcb × List QmOut) : Prop :=
  ∀ t, r.1 = some t → Continues s t r.2

variable {s t u : QmTcb} {out out' : List QmOut}

theorem Continues.trans (h : Continues s t out) (h' : Continues t u out') :
    Continues s u (out ++ out') := by
  refine ⟨?_, fun client => ?_⟩
  · obtain ⟨hbusy', hactive', hchan', htimer'⟩ | hforgotten := h'.record
    · obtain ⟨hbusy, hactive, hchan, htimer⟩ | ⟨hbusy, hactive, hchan, htimer⟩ := h.record
      · exact .inl ⟨hbusy'.trans hbusy, hactive'.trans hactive, hchan'.trans hchan,
          htimer'.trans htimer⟩
      · exact .inr ⟨hbusy'.trans hbusy, hactive'.trans hactive, hchan'.trans hchan,
          Nat.eq_zero_of_le_zero (htimer ▸ htimer')⟩
    · exact .inr hforgotten
  · rw [List.filterMap_append]
    obtain hid' | hclosed := h'.xactionid client
    · obtain hid | hclosed := h.xactionid client
      · exact .inl (hid'.trans hid)
      · exact .inr (List.mem_append_left _ hclosed)
    · exact .inr (List.mem_append_right _ hclosed)

/-- Forgetting the request. -/
theorem continues_qmclearrespinfo (s : QmTcb) (out : List QmOut) :
    Continues s (qmclearrespinfo s) out :=
  ⟨.inr ⟨rfl, rfl, rfl, rfl⟩, fun _ => .inl rfl⟩

theorem continuesTo_none (s : QmTcb) (out : List QmOut) : ContinuesTo s (none, out) := by
  intro t ht
  cases ht

theorem continuesTo_some (h : Continues s t out) : ContinuesTo s (some t, out) := by
  intro u hu
  cases hu
  exact h

theorem ContinuesTo.andThen {r : Option QmTcb × List QmOut}
    {f : QmTcb → Option QmTcb × List QmOut} (hr : ContinuesTo s r)
    (hf : ∀ t, ContinuesTo t (f t)) : ContinuesTo s (andThen r f) := by
  intro u hu
  obtain ⟨t, ht, hu, hout⟩ := andThen_some hu
  rw [hout]
  exact (hr t ht).trans (hf t u hu)

/-- Only the record and the clients matter. -/
theorem continues_same (h : requestFields t = requestFields s) (out : List QmOut) :
    Continues s t out := by
  simp only [requestFields, Prod.mk.injEq] at h
  obtain ⟨hbusy, hactive, hchan, htimer, hclients⟩ := h
  exact ⟨.inl ⟨hbusy, hactive, hchan, Nat.le_of_eq htimer⟩, fun _ => .inl (by rw [hclients])⟩

theorem continuesTo_same (h : requestFields t = requestFields s) :
    ContinuesTo s (some t, out) := continuesTo_some (continues_same h out)

theorem ContinuesTo.of_same {r : Option QmTcb × List QmOut} (hr : ContinuesTo t r)
    (h : requestFields t = requestFields s) : ContinuesTo s r := by
  intro u hu
  exact (continues_same h []).trans (hr u hu)

/-- Closing the registered clients. -/
theorem xactionid_forgetRegistered (points : QmiClient → QmiControlPoint) (client : QmiClient) :
    (forgetRegistered QmiClient.all points client).xactionid = (points client).xactionid ∨
      .closed client ∈ (closeRegistered QmiClient.all points).filterMap closing := by
  unfold forgetRegistered
  split_ifs with h
  · obtain ⟨hmem, hreg⟩ := h
    refine .inr (List.mem_filterMap.mpr ⟨.dsclose .uqmrr1 client, ?_, rfl⟩)
    exact List.mem_map_of_mem (List.mem_filter.mpr ⟨hmem, hreg⟩)
  · exact .inl rfl

theorem opened_xactionid (s : QmTcb) (client c : QmiClient) :
    ((opened s client).qmiclients c).xactionid = (s.qmiclients c).xactionid := by
  by_cases hc : c = client
  · subst hc
    simp [opened]
  · simp [opened, hc]

end Steps

section LocalServices

variable {s : QmTcb}

theorem continuesTo_qm_qmisvc_send_response (s : QmTcb) (svc : EQmiService) (xactionid : UInt16)
    (env : SvcEnv) : ContinuesTo s (qm_qmisvc_send_response s svc xactionid env) := by
  unfold qm_qmisvc_send_response
  split_ifs
  · exact continuesTo_same rfl
  · exact continuesTo_some (continues_qmclearrespinfo s _)
  · exact continuesTo_none s _

theorem continuesTo_qm_fms_handler (s : QmTcb) (preq : List UInt8) (env : FmsEnv) :
    ContinuesTo s (qm_fms_handler s preq env) := by
  have hresp : ∀ fms, ContinuesTo s (fmsRespond { s with fms_data := fms } env) := by
    intro fms
    exact (continuesTo_qm_qmisvc_send_response _ _ _ _).of_same rfl
  apply qm_fms_handler_rule
  · exact fun _ => continuesTo_none s _
  · exact fun _ _ => continuesTo_same rfl
  · exact continuesTo_some (continues_qmclearrespinfo s _)
  · exact fun _ => hresp
  · exact fun _ fms kick _ => (hresp fms).andThen fun t => continuesTo_same rfl

theorem continuesTo_qmdisconnect (s : QmTcb) (channel : UInt8) :
    ContinuesTo s (some (qmdisconnect s channel).1, (qmdisconnect s channel).2) := by
  obtain ⟨apps, heq | heq⟩ := qmdisconnect_eq s channel
  · rw [heq]
    exact continuesTo_same rfl
  · rw [heq]
    exact continuesTo_some ⟨.inl ⟨rfl, rfl, rfl, Nat.le_refl _⟩, xactionid_forgetRegistered _⟩

theorem continuesTo_startupApiClient (s : QmTcb) (action : UInt8) (srv : QmiClient)
    (regOk : QmiClient → Bool) : ContinuesTo s (startupApiClient s action srv regOk) := by
  have hsame : ContinuesTo s (some s, []) := continuesTo_same rfl
  unfold startupApiClient
  split_ifs with _ _ _ hreg
  · simp only [qmregister4qmisvc_eq]
    split_ifs
    · exact continuesTo_some
        ⟨.inl ⟨rfl, rfl, rfl, Nat.le_refl _⟩, fun c => .inl (opened_xactionid s _ c)⟩
    · exact continuesTo_none s _
    · exact continuesTo_same rfl
  · exact hsame
  · refine continuesTo_some ⟨.inl ⟨rfl, rfl, rfl, Nat.le_refl _⟩, fun c => ?_⟩
    by_cases hc : c = srv
    · refine .inr ?_
      rw [hc, qmiclientreset, if_pos hreg]
      exact List.mem_singleton_self _
    · exact .inl (congrArg QmiControlPoint.xactionid (Function.update_of_ne hc _ _))
  · exact hsame
  · exact hsame

theorem continuesTo_startupApiLoop (s : QmTcb) (action mask : UInt8) (regOk : QmiClient → Bool)
    (count : ℕ) : ContinuesTo s (startupApiLoop action mask regOk count s) := by
  induction count generalizing s with
  | zero => exact continuesTo_same rfl
  | succ count ih =>
      rw [startupApiLoop]
      cases maskToSrv (count + 1) mask with
      | none => exact continuesTo_none s _
      | some srv => exact (continuesTo_startupApiClient s action srv regOk).andThen ih

theorem continuesTo_qm_dcs_handler (s : QmTcb) (evt : QmDcsEvtBlock) (env : DcsEnv) :
    ContinuesTo s (qm_dcs_handler s evt env) := by
  have hresp : ∀ t, ContinuesTo t (dcsRespond t evt env) :=
    fun t => continuesTo_qm_qmisvc_send_response t _ _ _
  apply qm_dcs_handler_rule
  · exact fun _ => continuesTo_none s _
  · exact fun _ _ => continuesTo_none s _
  · exact fun rc _ => continuesTo_some (continues_qmclearrespinfo s _)
  · exact fun _ apps => (hresp _).of_same rfl
  · intro _ u hu
    exact (continues_qmclearrespinfo s []).trans (hresp _ u hu)
  · exact (hresp s).andThen fun t => continuesTo_qmdisconnect t _
  · intro _ _
    refine ContinuesTo.andThen ?_ hresp
    unfold qm_register_startup_api_clients
    split_ifs
    · exact continuesTo_startupApiLoop s _ _ _ _
    · exact continuesTo_same rfl

theorem continuesTo_qmdcstask (s : QmTcb) (env : DcsEnv) : ContinuesTo s (qmdcstask s env) := by
  unfold qmdcstask
  split
  · exact continuesTo_same rfl
  · exact (continuesTo_qm_dcs_handler _ _ env).of_same rfl

end LocalServices

section Events

/-- A packet from the modem is the response, or changes nothing. -/
theorem continuesTo_qmrxpkt (s : QmTcb) (instanceid : UInt8) (qmpacket : List UInt8)
    (client : QmiClient) : ContinuesTo s (qmrxpkt s instanceid qmpacket client) := by
  simp only [qmrxpkt, qmqmirsp, qmvalidateresponse]
  split_ifs
  all_goals first
    | exact continuesTo_none s _
    | exact continuesTo_some (continues_qmclearrespinfo s _)
    | exact continuesTo_same rfl

/-- The response timer counts down, and its expiry answers the request. -/
theorem continues_qmtick (s : QmTcb) (out : List QmOut) : Continues s (qmtick s).1 out := by
  simp only [qmtick]
  split_ifs
  · exact continues_same rfl _
  · exact ⟨.inr ⟨rfl, rfl, rfl, rfl⟩, fun _ => .inl rfl⟩
  · exact ⟨.inl ⟨rfl, rfl, rfl, Nat.sub_le _ _⟩, fun _ => .inl rfl⟩

theorem continuesTo_device (s : QmTcb) (event : DsSioEvent) :
    ContinuesTo s (qmtask s (.device event)) := by
  by_cases hdown : event = .disconnected
  · subst hdown
    simp only [qmtask, qm_ds_dev_event_handler, qm_ds_handle_dev_disconnected_eq]
    have hclosed : ∀ (rest : List QmOut) (client : QmiClient),
        (forgetRegistered QmiClient.all s.qmiclients client).xactionid =
            (s.qmiclients client).xactionid ∨
          .closed client ∈ (closeRegistered QmiClient.all s.qmiclients ++ rest).filterMap
            closing := by
      intro rest client
      rw [List.filterMap_append]
      exact (xactionid_forgetRegistered s.qmiclients client).imp_right (List.mem_append_left _)
    split_ifs
    · exact continuesTo_same rfl
    · rw [List.append_assoc]
      exact continuesTo_some ⟨.inr ⟨rfl, rfl, rfl, rfl⟩, hclosed _⟩
    · rw [List.append_assoc]
      exact continuesTo_some ⟨.inl ⟨rfl, rfl, rfl, Nat.le_refl _⟩, hclosed _⟩
  · obtain ⟨fms, out, -, heq⟩ := qm_ds_dev_event_handler_up s hdown
    simp only [qmtask, heq]
    exact continuesTo_same rfl

/-- Whatever event is not a request leaves the record or forgets it. -/
theorem continuesTo_qmtask (s : QmTcb) {event : QmEvent} (hevent : event.isRequest = false) :
    ContinuesTo s (qmtask s event) := by
  cases event with
  | qmiReq packet ipcchan env => cases hevent
  | rx instanceid client qmpacket => exact continuesTo_qmrxpkt s _ _ _
  | tick sixtySeconds =>
      obtain ⟨fms, out, -, heq⟩ := qmtmrtick_eq s sixtySeconds
      simp only [qmtask, heq]
      have htick := continues_qmtick s ((qmtick s).2 ++ out)
      exact continuesTo_some ⟨htick.record, htick.xactionid⟩
  | device event => exact continuesTo_device s event
  | net q_depth isThrottle =>
      exact continuesTo_same rfl
  | dcs env => exact continuesTo_qmdcstask s env
  | fwStatus status =>
      exact continuesTo_same rfl

/-- Sending a packet to the modem. If that fails, the request is answered. -/
theorem continuesTo_qmsendmdmreq (m : MdmSend) (sendOk : Bool) :
    ContinuesTo m.tcb (qmsendmdmreq m sendOk) := by
  have hpool : ∀ (t : QmTcb) (len : ℕ) (pool : Mm.MmPool) (out : List QmOut),
      Continues t (setSizedPool t len pool) out := by
    intro t len pool out
    unfold setSizedPool
    split_ifs
    · exact continues_same (by rfl) _
    · exact continues_same (by rfl) _
  unfold qmsendmdmreq
  cases (m.pool.overrun m.sendbuf m.packet).bind fun pool => pool.mmbufrel m.sendbuf with
  | none => exact continuesTo_none _ _
  | some pool =>
      cases sendOk with
      | true => exact continuesTo_some (hpool _ _ _ _)
      | false =>
          exact continuesTo_some
            ((continues_qmclearrespinfo m.tcb []).trans (hpool _ _ _ _))

end Events

section Requests

variable {s : QmTcb} {calls : List ClientCall}

/-- Closings take clients out of use. -/
theorem inUse_closings {out : List QmOut} {client : QmiClient}
    (h : inUse (calls ++ out.filterMap closing) client = true) :
    inUse calls client = true ∧ .closed client ∉ out.filterMap closing := by
  induction out generalizing calls with
  | nil => exact ⟨by simpa using h, List.not_mem_nil⟩
  | cons o out ih =>
      cases hclosing : closing o with
      | none =>
          rw [List.filterMap_cons_none hclosing] at h ⊢
          exact ih h
      | some call =>
          rw [List.filterMap_cons_some hclosing] at h ⊢
          rw [← List.singleton_append, ← List.append_assoc] at h
          obtain ⟨hused, hrest⟩ := ih h
          rw [inUse, List.foldl_append] at hused
          obtain ⟨c, rfl⟩ : ∃ c, call = .closed c := by
            cases o <;> cases hclosing
            exact ⟨_, rfl⟩
          simp only [List.foldl_cons, List.foldl_nil, callUse, Bool.and_eq_true,
            decide_eq_true_eq] at hused
          refine ⟨hused.1, ?_⟩
          rw [List.mem_cons, not_or]
          exact ⟨fun heq => hused.2 (ClientCall.closed.inj heq).symm, hrest⟩

theorem inUse_requested (calls : List ClientCall) (c client : QmiClient) :
    inUse (calls ++ [.requested c]) client = true ↔ inUse calls client = true ∨ c = client := by
  rw [inUse, List.foldl_append]
  simp only [List.foldl_cons, List.foldl_nil, callUse, Bool.or_eq_true, decide_eq_true_eq]
  rfl

/-- The clients in use have a transaction id. -/
def Numbered (s : QmTcb) (calls : List ClientCall) : Prop :=
  ∀ client, inUse calls client = true → (s.qmiclients client).xactionid ≠ 0

/-- A block that hangs together and continues, still does. -/
theorem RequestState.continues {settled : Prop} {t : QmTcb} {out : List QmOut}
    (h : RequestState s settled fun client => inUse calls client = true)
    (hcont : Continues s t out) :
    RequestState t settled fun client =>
      inUse (calls ++ out.filterMap closing) client = true where
  busy_iff := by
    obtain ⟨hbusy, hactive, -, -⟩ | ⟨hbusy, hactive, -, -⟩ := hcont.record
    · rw [hbusy, hactive, h.busy_iff]
    · simp [hbusy, hactive]
  timer := by
    intro htimer
    obtain ⟨hbusy, -, -, hle⟩ | ⟨-, -, -, hzero⟩ := hcont.record
    · exact hbusy.trans (h.timer (Nat.ne_of_gt (Nat.lt_of_lt_of_le (Nat.pos_of_ne_zero htimer) hle)))
    · exact absurd hzero htimer
  channel := by
    intro hsettled hidle
    obtain ⟨hbusy, -, hchan, -⟩ | ⟨-, -, hchan, -⟩ := hcont.record
    · exact hchan.trans (h.channel hsettled (hbusy.symm.trans hidle))
    · exact hchan
  xactionid := by
    intro client hused
    obtain ⟨hused, hopen⟩ := inUse_closings hused
    rw [(hcont.xactionid client).resolve_right hopen]
    exact h.xactionid client hused

/-- A block that has just forgotten a request hangs together. -/
theorem requestState_qmclearrespinfo (h : Numbered s calls) :
    RequestState (qmclearrespinfo s) True fun client => inUse calls client = true where
  busy_iff := ⟨fun h => Bool.noConfusion h, fun h => absurd rfl h⟩
  timer := fun h => absurd rfl h
  channel := fun _ _ => rfl
  xactionid := h

/-- A block that has just recorded a request hangs together. -/
theorem requestState_recorded (h : Numbered s calls) {parms : AmQmiRrParms}
    (hclient : qmsaverespinfoClient s parms ≠ .unsupported) (ipcchan : UInt8) :
    RequestState (recorded s parms ipcchan) True fun client =>
      inUse (calls ++ [.requested (qmsaverespinfoClient s parms)]) client = true where
  busy_iff := iff_of_true rfl hclient
  timer := fun _ => rfl
  channel := by
    intro _ hidle
    cases hidle
  xactionid := by
    intro client hused
    by_cases hc : client = qmsaverespinfoClient s parms
    · simp only [recorded, hc, Function.update_self]
      exact qmisvcxactionidassign_ne_zero _
    · have hold := (inUse_requested calls _ client).mp hused
      simp only [recorded, Function.update_of_ne hc]
      exact h client (hold.resolve_right (Ne.symm hc))

theorem qmsaverespinfoClient_ne_unsupported (s : QmTcb) {parms : AmQmiRrParms}
    (h : qmisvc2qmiclnt_map parms.qmiinstanceid (.ofCode parms.amqmisvctype) ≠ .unsupported) :
    qmsaverespinfoClient s parms ≠ .unsupported := by
  unfold qmsaverespinfoClient
  split
  · split_ifs <;> exact QmiClient.noConfusion
  · exact h

/-- A request for a local service is recorded for the client of that service. -/
theorem qmsaverespinfoClient_of_local (s : QmTcb) {parms : AmQmiRrParms} {client : QmiClient}
    (hclient : qmisvc2qmiclnt_map parms.qmiinstanceid (.ofCode parms.amqmisvctype) = client)
    (hlocal : client = .dcs 0 ∨ client = .fms) : qmsaverespinfoClient s parms = client := by
  rw [qmsaverespinfoClient, hclient]
  obtain rfl | rfl := hlocal
  · rfl
  · rfl

/-- The block hangs together after an action, unless that ends the daemon. -/
def HangsTogether (calls : List ClientCall) (requested : Option QmiClient)
    (r : Option QmTcb × List QmOut) : Prop :=
  ∀ t, r.1 = some t → RequestState t True fun client =>
    inUse (calls ++ (requested.toList.map .requested ++ r.2.filterMap closing)) client = true

theorem hangsTogether_none {requested : Option QmiClient} {out : List QmOut} :
    HangsTogether calls requested (none, out) := by
  intro t ht
  cases ht

/-- A request that is answered at once. -/
theorem hangsTogether_cleared (h : Numbered s calls) {out : List QmOut}
    (hout : out.filterMap closing = []) :
    HangsTogether calls none (some (qmclearrespinfo s), out) := by
  intro t ht
  cases ht
  rw [hout, Option.toList_none, List.map_nil, List.append_nil, List.append_nil]
  exact requestState_qmclearrespinfo h

/-- What is done once the request is recorded. -/
theorem hangsTogether_recorded (h : Numbered s calls) {parms : AmQmiRrParms}
    (hclient : qmsaverespinfoClient s parms ≠ .unsupported) (ipcchan : UInt8)
    {r : Option QmTcb × List QmOut} (hr : ContinuesTo (recorded s parms ipcchan) r) :
    HangsTogether calls (some (qmsaverespinfoClient s parms)) r := by
  intro t ht
  have hstate := (requestState_recorded h hclient ipcchan).continues (hr t ht)
  rw [List.append_assoc] at hstate
  exact hstate

/-- A request for an open client is recorded and sent. -/
theorem hangsTogether_qmprepareopen (h : Numbered s calls) {parms : AmQmiRrParms}
    (hclient : qmsaverespinfoClient s parms ≠ .unsupported) (inbuf : List UInt8) (ipcchan : UInt8)
    (client : QmiClient) (sendOk : Bool) :
    HangsTogether calls (some (qmsaverespinfoClient s parms))
      (qmfinish (qmprepareopen s parms inbuf ipcchan client) sendOk) := by
  obtain hstop | ⟨m, hbuild, hsend⟩ := @qmprepareopen_eq s parms inbuf ipcchan client
  · rw [hstop]
    exact hangsTogether_none
  · obtain ⟨-, htcb, -⟩ := qmbuildmdmreq_eq_some hbuild
    rw [hsend]
    have hcont := continuesTo_qmsendmdmreq m sendOk
    rw [htcb] at hcont
    exact hangsTogether_recorded h hclient _ hcont

theorem hangsTogether_qmqmireq (h : Numbered s calls) (packet : List UInt8) (ipcchan : UInt8)
    (env : ReqEnv) :
    HangsTogether calls (requestedClient s (.qmiReq packet ipcchan env))
      (qmqmireq s packet ipcchan env) := by
  simp only [requestedClient]
  have hnum : Numbered { s with qmipcchannel := ipcchan } calls := h
  generalize ht : { s with qmipcchannel := ipcchan } = t at *
  generalize hparms : amparseqmixactionheader packet = parms at *
  generalize hclient : qmisvc2qmiclnt_map parms.qmiinstanceid (.ofCode parms.amqmisvctype) =
    client at *
  generalize hp : qmparser t parms.qmiinstanceid (.ofCode parms.amqmisvctype)
    (packet.drop amQmiRrnSz) = p at *
  have hparsed : Numbered p calls := by
    intro c hused
    rw [← hp, qmparser_qmiclients]
    exact hnum c hused
  apply qmqmireq_rule ht hparms hclient
  · intro rc hrc herror
    rw [if_pos (herror.symm ▸ hrc)]
    exact hangsTogether_cleared hnum rfl
  · exact fun _ => hangsTogether_none
  · intro hrc _ hdcs
    have hsaved := qmsaverespinfoClient_of_local t hclient (.inl hdcs)
    rw [if_neg (not_not.mpr hrc), if_pos (.inl hdcs), ← hsaved]
    refine hangsTogether_recorded hnum ?_ ipcchan ?_
    · rw [hsaved, hdcs]
      exact QmiClient.noConfusion
    · unfold qmsenddcsreq
      split_ifs
      · exact continuesTo_same rfl
      · exact continuesTo_none _ _
  · intro hrc _ hfms
    have hsaved := qmsaverespinfoClient_of_local t hclient (.inr hfms)
    rw [if_neg (not_not.mpr hrc), if_pos (.inr hfms), ← hsaved]
    refine hangsTogether_recorded hnum ?_ _ (continuesTo_qm_fms_handler _ _ _)
    rw [hsaved, hfms]
    exact QmiClient.noConfusion
  · intro hrc hdcs hfms
    obtain ⟨hsupported, -, -⟩ := requestError_eq_none hrc hdcs hfms
    rw [if_neg (not_not.mpr hrc), if_neg (not_or.mpr ⟨hdcs, hfms⟩)]
    have hsaved := qmsaverespinfoClient_ne_unsupported p hsupported
    apply qmpreparemdmreq_rule hp rfl
    · intro hreg
      rw [if_pos (.inl hreg)]
      exact hangsTogether_qmprepareopen hparsed hsaved _ _ _ _
    · intro hreg hok hinst
      rw [if_pos (.inr hok)]
      have hopened : Numbered (opened p (requestClient p parms)) calls := by
        intro c hused
        rw [opened_xactionid]
        exact hparsed c hused
      intro u hu
      obtain ⟨v, hv, hu, hout⟩ := andThen_some hu
      rw [hout]
      cases hv
      exact hangsTogether_qmprepareopen hopened hsaved _ _ _ _ u hu
    · exact fun _ _ _ => hangsTogether_none
    · intro hreg hok
      rw [if_neg (by simp [hreg, hok])]
      have hrefused : Numbered { p with activewdsclient := p.prevactivewdsclient } calls := hparsed
      exact hangsTogether_cleared hrefused rfl

end Requests

section Runs

/-- The clients in use and their transaction ids. -/
theorem requestState_clientStep {s t : QmTcb} {settled : Prop} {calls : List ClientCall}
    (h : RequestState s settled fun client => inUse calls client = true) (event : QmEvent)
    (ht : (clientStep (some s) event).1 = some t) :
    RequestState t (settled ∨ event.isRequest = true) fun client =>
      inUse (calls ++ (clientStep (some s) event).2) client = true := by
  cases hevent : event.isRequest with
  | false =>
      have hnone : requestedClient s event = none := by
        cases event <;> first | rfl | cases hevent
      have hstate := h.continues (continuesTo_qmtask s hevent t ht)
      simp only [clientStep, hnone, Option.toList_none, List.map_nil, List.nil_append]
      refine { hstate with channel := fun hsettled => ?_ }
      exact hstate.channel (hsettled.resolve_right Bool.false_ne_true)
  | true =>
      cases event with
      | qmiReq packet ipcchan env =>
          have hstate := hangsTogether_qmqmireq h.xactionid packet ipcchan env t ht
          exact { hstate with channel := fun _ => hstate.channel trivial }
      | _ => cases hevent

/-- In every state that the task reaches, the block is busy if and only if a client is active,
the response timer runs for a busy block only, an idle block has no response channel from the first
request on, and a client in use has a transaction id. -/
theorem requestStates (events : List QmEvent) :
    RequestStates (fun events => events.any QmEvent.isRequest = true)
      (fun calls client => inUse calls client = true) events := by
  induction events using List.reverseRecOn with
  | nil =>
      refine ⟨⟨fun h => Bool.noConfusion h, fun h => absurd rfl h⟩, fun h => absurd rfl h, ?_, ?_⟩
      · exact fun h => Bool.noConfusion h
      · exact fun _ h => Bool.noConfusion h
  | append_singleton events event ih =>
      unfold RequestStates at ih ⊢
      rw [after_concat, outputs_concat]
      cases hs : after clientStep (some qminit) events with
      | none => trivial
      | some s =>
          rw [hs] at ih
          cases ht : (clientStep (some s) event).1 with
          | none => trivial
          | some t =>
              have hstate := requestState_clientStep ih event ht
              simp only [List.any_append, List.any_cons, List.any_nil, Bool.or_false, Bool.or_eq_true]
              exact hstate

/-- A client is used and the device goes away. -/
def resetRun : List QmEvent :=
  connectEvents 2 ++
    [.qmiReq (requestPacket .dms 0 [0x20, 0, 0, 0]) 2 reqEnvOk, .device .disconnected]

/-- At the start the idle block has a channel, and a client that was closed has a transaction id no
more. -/
theorem not_requestStates_unsettled :
    ¬ RequestStates (fun _ => True) (fun calls client => .requested client ∈ calls) [] ∧
      ¬ RequestStates (fun _ => True) (fun calls client => .requested client ∈ calls)
        resetRun := by
  constructor
  · intro h
    exact absurd (h.channel trivial rfl) (by decide)
  · intro h
    have hrequested : .requested .dms ∈ outputs clientStep (some qminit) resetRun := by
      decide +kernel
    have hzero : (after clientStep (some qminit) resetRun).map
        (fun s => (s.qmiclients .dms).xactionid) = some 0 := by
      decide +kernel
    obtain ⟨s, hs, hid⟩ := Option.map_eq_some_iff.mp hzero
    unfold RequestStates at h
    rw [hs] at h
    exact h.xactionid .dms hrequested hid

end Runs

end Qm

end SierraSdk
