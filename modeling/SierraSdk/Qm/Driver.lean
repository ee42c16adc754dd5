import SierraSdk.Qm.Task

/-!
# What the task does to the driver

Most of what the task does goes to the applications or to the firmware download. Package ds is
told only when a client is opened or closed and when a request is sent to the modem.

`DriverRules mon R` lists what a relation `R` between the task and the state of a monitor over
the driver calls has to satisfy so that everything but a request for the modem keeps it:
`tracks_qmtask` for every other event, and `tracks_qmqmireq` for a request, given the part
that reaches the modem.
-/

namespace SierraSdk

namespace Qm

open Am Ci Machine

/-- The calls of package ds that change something there: a failed registration does not. -/
def QmOut.changesDriver : QmOut → Bool
  | .dsioctl _ _ _ ok => ok
  | .dsclose .. | .dssend .. => true
  | _ => false

/-- The same clients and the same outstanding request. -/
structure SameClients (s t : QmTcb) : Prop where
  qmiclients : t.qmiclients = s.qmiclients
  qmbusy : t.qmbusy = s.qmbusy
  activeclient : t.activeclient = s.activeclient

theorem SameClients.rfl {s : QmTcb} : SameClients s s := ⟨Eq.refl _, Eq.refl _, Eq.refl _⟩

/-- A relation that the task keeps while it only opens clients on the first instance, closes
them, and forgets the outstanding request. -/
structure DriverRules {μ : Type*} (mon : μ → QmOut → Option μ)
    (R : Option QmTcb → μ → Prop) : Prop where
  stopped : ∀ {m}, R none m
  ignored : ∀ {m o}, o.changesDriver = false → mon m o = some m
  congr : ∀ {s t m}, R (some s) m → SameClients s t → R (some t) m
  clear : ∀ {s m}, R (some s) m → R (some (qmclearrespinfo s)) m
  opened : ∀ {s m}, R (some s) m → ∀ client,
    Tracks mon R m
      (some (opened s client), [.dsioctl (registerChannel 0) client client.svctype true])
  reset : ∀ {s m}, R (some s) m → ∀ client, (s.qmiclients client).registered = true →
    Tracks mon R m (some (qmiclientreset s client).1, [.dsclose .uqmrr1 client])

namespace DriverRules

variable {μ : Type*} {mon : μ → QmOut → Option μ} {R : Option QmTcb → μ → Prop}
  {s t : QmTcb} {m : μ} {out : List QmOut}

theorem tracks_same (hR : DriverRules mon R) (h : R (some s) m) (hsame : SameClients s t)
    (hout : ∀ o ∈ out, o.changesDriver = false) : Tracks mon R m (some t, out) :=
  tracks_ignored (hR.congr h hsame) fun o ho => hR.ignored (hout o ho)

theorem tracks_stopped (hR : DriverRules mon R) (hout : ∀ o ∈ out, o.changesDriver = false) :
    Tracks mon R m (none, out) :=
  tracks_ignored hR.stopped fun o ho => hR.ignored (hout o ho)

/-- Forgetting the outstanding request. -/
theorem tracks_clear (hR : DriverRules mon R) (h : R (some s) m)
    (hsame : SameClients (qmclearrespinfo s) t) (hout : ∀ o ∈ out, o.changesDriver = false) :
    Tracks mon R m (some t, out) :=
  hR.tracks_same (hR.clear h) hsame hout

theorem tracks_abort (hR : DriverRules mon R) : Tracks mon R m (none, [.erAbort]) :=
  hR.tracks_stopped (by simp [QmOut.changesDriver])

theorem changesDriver_of_background {o : QmOut} (h : o.isBackground = true) :
    o.changesDriver = false := by
  cases o <;> first | rfl | cases h

section Clients

/-- Resetting the registered ones among several clients. -/
theorem tracks_foldl_resetIfRegistered (hR : DriverRules mon R) (h : R (some s) m)
    (clients : List QmiClient) {m₀ : μ} (hout : watch mon m₀ out = some m) :
    Tracks mon R m₀
      (some (clients.foldl resetIfRegistered (s, out)).1,
        (clients.foldl resetIfRegistered (s, out)).2) := by
  induction clients generalizing s out m with
  | nil => exact ⟨m, hout, h⟩
  | cons client clients ih =>
      rw [List.foldl_cons, resetIfRegistered]
      split_ifs with hreg
      · obtain ⟨m', hm', h'⟩ := hR.reset h client hreg
        have hclose : (qmiclientreset s client).2 = [.dsclose .uqmrr1 client] := if_pos hreg
        refine ih h' ?_
        rw [hclose, watch_append, hout]
        exact hm'
      · exact ih h hout

/-- Closing all registered clients. -/
theorem tracks_closeRegistered (hR : DriverRules mon R) (h : R (some s) m) :
    Tracks mon R m
      (some { s with qmiclients := forgetRegistered QmiClient.all s.qmiclients },
        closeRegistered QmiClient.all s.qmiclients) := by
  have hall := hR.tracks_foldl_resetIfRegistered h QmiClient.all (watch_nil m)
  have heq := qmderegisterclients_eq s
  rw [qmderegisterclients] at heq
  rw [heq] at hall
  exact hall

theorem tracks_qmdisconnect (hR : DriverRules mon R) (h : R (some s) m) (channel : UInt8) :
    Tracks mon R m (some (qmdisconnect s channel).1, (qmdisconnect s channel).2) := by
  obtain ⟨apps, heq | heq⟩ := qmdisconnect_eq s channel
  · rw [heq]
    exact hR.tracks_same h ⟨rfl, rfl, rfl⟩ (by simp)
  · rw [heq]
    exact (hR.tracks_closeRegistered h).imp fun m hm => hR.congr hm ⟨rfl, rfl, rfl⟩

theorem tracks_startupApiClient (hR : DriverRules mon R) (h : R (some s) m) (action : UInt8)
    (srv : QmiClient) (regOk : QmiClient → Bool) :
    Tracks mon R m (startupApiClient s action srv regOk) := by
  unfold startupApiClient
  split_ifs with _ hreg _ hreg
  · simp only [qmregister4qmisvc_eq]
    cases regOk (qmisvc2qmiclnt_map 0 srv.svctype) with
    | true => exact hR.opened h _
    | false => exact hR.tracks_same h ⟨rfl, rfl, rfl⟩ (by simp [QmOut.changesDriver])
  · exact tracks_nil h
  · have hclose : (qmiclientreset s srv).2 = [.dsclose .uqmrr1 srv] := if_pos hreg
    simp only [hclose]
    exact hR.reset h srv hreg
  · exact tracks_nil h
  · exact tracks_nil h

theorem tracks_startupApiLoop (hR : DriverRules mon R) (h : R (some s) m) (action mask : UInt8)
    (regOk : QmiClient → Bool) (count : ℕ) :
    Tracks mon R m (startupApiLoop action mask regOk count s) := by
  induction count generalizing s m with
  | zero => exact tracks_nil h
  | succ count ih =>
      rw [startupApiLoop]
      cases maskToSrv (count + 1) mask with
      | none => exact hR.tracks_stopped (by simp)
      | some srv =>
          exact tracks_andThen (hR.tracks_startupApiClient h action srv regOk) fun t m ht => ih ht

end Clients

section LocalServices

theorem tracks_qm_qmisvc_send_response (hR : DriverRules mon R) (h : R (some s) m)
    (svc : EQmiService) (xactionid : UInt16) (env : SvcEnv) :
    Tracks mon R m (qm_qmisvc_send_response s svc xactionid env) := by
  unfold qm_qmisvc_send_response
  split_ifs
  · exact tracks_nil h
  · exact hR.tracks_clear h .rfl (by simp [QmOut.changesDriver])
  · exact hR.tracks_stopped (by simp [QmOut.changesDriver])

theorem tracks_qmshortresp (hR : DriverRules mon R) (h : R (some s) m)
    (resultcode : EQCWWANError) (ipcchannel : UInt8) :
    Tracks mon R m
      (some (qmshortresp s resultcode ipcchannel).1, (qmshortresp s resultcode ipcchannel).2) :=
  hR.tracks_clear h .rfl (by simp [qmshortresp, QmOut.changesDriver])

theorem tracks_qm_fms_handler (hR : DriverRules mon R) (h : R (some s) m) (preq : List UInt8)
    (env : FmsEnv) : Tracks mon R m (qm_fms_handler s preq env) := by
  have hresp : ∀ fms, Tracks mon R m (fmsRespond { s with fms_data := fms } env) :=
    fun fms => hR.tracks_qm_qmisvc_send_response (hR.congr h (by exact ⟨rfl, rfl, rfl⟩)) _ _ _
  apply qm_fms_handler_rule
  · exact fun _ => hR.tracks_abort
  · exact fun _ _ => tracks_nil h
  · exact hR.tracks_qmshortresp h _ _
  · exact fun _ => hresp
  · intro _ fms kick hkick
    exact tracks_andThen (hresp fms) fun t m ht =>
      hR.tracks_same ht ⟨rfl, rfl, rfl⟩ fun o ho => changesDriver_of_background (hkick o ho)

theorem tracks_qm_dcs_handler (hR : DriverRules mon R) (h : R (some s) m)
    (evt : QmDcsEvtBlock) (env : DcsEnv) : Tracks mon R m (qm_dcs_handler s evt env) := by
  have hresp : ∀ {t : QmTcb} {m : μ}, R (some t) m → Tracks mon R m (dcsRespond t evt env) :=
    fun ht => hR.tracks_qm_qmisvc_send_response ht _ _ _
  apply qm_dcs_handler_rule
  · exact fun _ => hR.tracks_abort
  · exact fun _ _ => hR.tracks_stopped (by simp)
  · exact fun rc _ => hR.tracks_qmshortresp h rc _
  · exact fun _ apps => hresp (hR.congr h ⟨rfl, rfl, rfl⟩)
  · exact fun _ => hresp (hR.clear h)
  · exact tracks_andThen (hresp h) fun t m ht => hR.tracks_qmdisconnect ht _
  · intro _ _
    refine tracks_andThen ?_ fun t m ht => hresp ht
    unfold qm_register_startup_api_clients
    split_ifs
    · exact hR.tracks_startupApiLoop h _ _ _ _
    · exact tracks_nil h

theorem tracks_qmdcstask (hR : DriverRules mon R) (h : R (some s) m) (env : DcsEnv) :
    Tracks mon R m (qmdcstask s env) := by
  unfold qmdcstask
  split
  · exact tracks_nil h
  · exact hR.tracks_qm_dcs_handler (hR.congr h (by exact ⟨rfl, rfl, rfl⟩)) _ env

end LocalServices

/-- A packet from the modem goes to the applications. -/
theorem tracks_qmrxpkt (hR : DriverRules mon R) (h : R (some s) m) (instanceid : UInt8)
    (qmpacket : List UInt8) (client : QmiClient) :
    Tracks mon R m (qmrxpkt s instanceid qmpacket client) := by
  simp only [qmrxpkt, qmqmirsp, qmvalidateresponse]
  split_ifs
  all_goals first
    | exact hR.tracks_abort
    | exact hR.tracks_same h .rfl (by simp [QmOut.changesDriver])
    | exact hR.tracks_clear h .rfl (by simp [QmOut.changesDriver])

/-- Events other than requests. -/
theorem tracks_qmtask (hR : DriverRules mon R) (h : R (some s) m) {event : QmEvent}
    (hevent : ∀ packet ipcchan env, event ≠ .qmiReq packet ipcchan env) :
    Tracks mon R m (qmtask s event) := by
  cases event with
  | qmiReq packet ipcchan env => exact absurd rfl (hevent packet ipcchan env)
  | rx instanceid client qmpacket => exact hR.tracks_qmrxpkt h _ _ _
  | tick sixtySeconds =>
      obtain ⟨fms, out, hout, heq⟩ := qmtmrtick_eq s sixtySeconds
      simp only [qmtask, heq, qmtick]
      refine Tracks.append_ignored ?_ fun m o ho =>
        hR.ignored (changesDriver_of_background (hout o ho))
      split_ifs
      · exact hR.tracks_same h ⟨rfl, rfl, rfl⟩ (by simp)
      · exact hR.tracks_clear h ⟨rfl, rfl, rfl⟩ (by simp [qmshortresp, QmOut.changesDriver])
      · exact hR.tracks_same h ⟨rfl, rfl, rfl⟩ (by simp)
  | device event =>
      by_cases hdown : event = .disconnected
      · subst hdown
        simp only [qmtask, qm_ds_dev_event_handler, qm_ds_handle_dev_disconnected_eq]
        have hrest : ∀ {rest : List QmOut}, (∀ o ∈ rest, o.changesDriver = false) →
            ∀ m, ∀ o ∈ rest, mon m o = some m :=
          fun hrest m o ho => hR.ignored (hrest o ho)
        split_ifs
        · exact tracks_nil h
        · rw [List.append_assoc]
          refine ((hR.tracks_closeRegistered h).imp fun m hm => ?_).append_ignored
            (hrest (by simp [QmOut.changesDriver]))
          exact hR.congr (hR.clear hm) ⟨rfl, rfl, rfl⟩
        · rw [List.append_assoc]
          refine ((hR.tracks_closeRegistered h).imp fun m hm => ?_).append_ignored
            (hrest (by simp [QmOut.changesDriver]))
          exact hR.congr hm ⟨rfl, rfl, rfl⟩
      · obtain ⟨fms, out, hout, heq⟩ := qm_ds_dev_event_handler_up s hdown
        simp only [qmtask, heq]
        exact hR.tracks_same h ⟨rfl, rfl, rfl⟩ fun o ho => changesDriver_of_background (hout o ho)
  | net q_depth isThrottle => exact hR.tracks_same h .rfl (by simp [QmOut.changesDriver])
  | dcs env => exact hR.tracks_qmdcstask h env
  | fwStatus status => exact hR.tracks_same h ⟨rfl, rfl, rfl⟩ (by simp)

/-- The send buffers are of no concern. -/
theorem congr_setSizedPool (hR : DriverRules mon R) (h : R (some s) m) (len : ℕ)
    (pool : Mm.MmPool) : R (some (setSizedPool s len pool)) m := by
  refine hR.congr h ?_
  unfold setSizedPool
  split_ifs
  · exact ⟨rfl, rfl, rfl⟩
  · exact ⟨rfl, rfl, rfl⟩

/-- Sending a request, given what the monitor makes of the packet. -/
theorem tracks_qmsendmdmreq (hR : DriverRules mon R) {msend : MdmSend} {m' : μ}
    (hmon : ∀ ok, mon m (.dssend msend.chanid msend.client msend.packet ok) = some m')
    (h : R (some msend.tcb) m') (sendOk : Bool) :
    Tracks mon R m (qmsendmdmreq msend sendOk) := by
  have hwatch : ∀ {rest : List QmOut}, (∀ o ∈ rest, o.changesDriver = false) →
      watch mon m (.dssend msend.chanid msend.client msend.packet sendOk :: rest) =
        some m' := by
    intro rest hrest
    rw [watch_cons, hmon, Option.bind_some]
    exact watch_ignored fun o ho => hR.ignored (hrest o ho)
  unfold qmsendmdmreq
  cases sendOk with
  | true =>
      simp only [if_true]
      split
      · exact ⟨m', hwatch (by simp [QmOut.changesDriver]), hR.stopped⟩
      · exact ⟨m', hwatch (by simp), hR.congr_setSizedPool h _ _⟩
  | false =>
      simp only [Bool.false_eq_true, if_false, qmshortresp]
      split
      · exact ⟨m', hwatch (by simp [QmOut.changesDriver]), hR.stopped⟩
      · exact ⟨m', hwatch (by simp [QmOut.changesDriver]), hR.congr_setSizedPool (hR.clear h) _ _⟩

/-- A request for an open client, given what the monitor makes of its packet. -/
theorem tracks_qmprepareopen (hR : DriverRules mon R) {parms : AmQmiRrParms}
    {inbuf : List UInt8} {ipcchan : UInt8} {client : QmiClient}
    (h : ∀ msend, qmbuildmdmreq s parms inbuf ipcchan client = some msend →
      ∃ m', (∀ ok, mon m (.dssend msend.chanid msend.client msend.packet ok) = some m') ∧
        R (some msend.tcb) m') (sendOk : Bool) :
    Tracks mon R m (qmfinish (qmprepareopen s parms inbuf ipcchan client) sendOk) := by
  rcases @qmprepareopen_eq s parms inbuf ipcchan client with hstop | ⟨msend, hbuild, hsend⟩
  · rw [hstop]
    exact hR.tracks_abort
  · obtain ⟨m', hmon, htcb⟩ := h msend hbuild
    rw [hsend]
    exact hR.tracks_qmsendmdmreq hmon htcb sendOk

/-- A request, given that recording it for a local service keeps the relation, and what is done
for the modem. -/
theorem tracks_qmqmireq (hR : DriverRules mon R) (h : R (some s) m) {packet : List UInt8}
    {ipcchan : UInt8} {env : ReqEnv} {parms : AmQmiRrParms} {client : QmiClient} {t : QmTcb}
    (ht : { s with qmipcchannel := ipcchan } = t)
    (hparms : amparseqmixactionheader packet = parms)
    (hclient : qmisvc2qmiclnt_map parms.qmiinstanceid (.ofCode parms.amqmisvctype) = client)
    (hlocal : client = .dcs 0 ∨ client = .fms → R (some (recorded t parms ipcchan)) m)
    (hmodem : requestError t parms client = EQCWWANError.none → client ≠ .dcs 0 →
      client ≠ .fms → Tracks mon R m (qmfinish
        (qmpreparemdmreq t parms (packet.drop amQmiRrnSz) ipcchan env.ioctlOk) env.sendOk)) :
    Tracks mon R m (qmqmireq s packet ipcchan env) := by
  have hchan : R (some t) m := hR.congr h (by rw [← ht]; exact ⟨rfl, rfl, rfl⟩)
  apply qmqmireq_rule ht hparms hclient
  · exact fun rc _ _ => hR.tracks_clear hchan .rfl (by simp [QmOut.changesDriver])
  · exact fun _ => hR.tracks_abort
  · intro _ _ hdcs
    unfold qmsenddcsreq
    split_ifs
    · exact hR.tracks_same (hlocal (.inl hdcs)) ⟨rfl, rfl, rfl⟩ (by simp [QmOut.changesDriver])
    · exact hR.tracks_abort
  · exact fun _ _ hfms => hR.tracks_qm_fms_handler (hlocal (.inr hfms)) _ _
  · exact hmodem

end DriverRules

end Qm

end SierraSdk
