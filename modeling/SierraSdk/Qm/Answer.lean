import SierraSdk.Qm.Driver
import SierraSdk.Qm.ClientAgreement

/-!
# A response answers the outstanding request

The task runs together with the modem here. The modem has seen a log of packets, each with its
client and transaction id, and of clients being closed; `response n` is its response to the
packet at position `n` of the log, which may come at any time, more than once, or never.

A response is passed on when it carries the transaction id that the active client used last.
Transaction ids are numbered for each client, from one again after the client is closed, and
start over after 65535 of them. `Recorded` relates the clients to the log: the id of an open
client is the one of any of its packets advanced by the number of packets after it, and the
outstanding request is the packet sent last. So a late response cannot be taken for another one
of its client within 65535 requests, but it can be taken for one of another client.
-/

namespace SierraSdk

namespace Qm

open Am Ci Machine

section TransactionIds

theorem qmisvcxactionidassign_toNat {xactionid : UInt16} (h : xactionid ≠ 0) :
    (qmisvcxactionidassign xactionid).toNat = xactionid.toNat % 65535 + 1 := by
  have hpos : xactionid.toNat ≠ 0 := fun hzero => h (UInt16.toNat_inj.mp hzero)
  have hlt := xactionid.toNat_lt
  unfold qmisvcxactionidassign
  split_ifs with hwrap
  · have hnat := congrArg UInt16.toNat hwrap
    simp only [UInt16.toNat_add, UInt16.toNat_one, UInt16.toNat_zero] at hnat
    have htwo : (2 : UInt16).toNat = 2 := rfl
    rw [UInt16.toNat_add, htwo]
    omega
  · have hnat : (xactionid + 1).toNat ≠ 0 := fun hzero => hwrap (UInt16.toNat_inj.mp hzero)
    rw [UInt16.toNat_add, UInt16.toNat_one] at hnat ⊢
    omega

theorem iterate_qmisvcxactionidassign_toNat {xactionid : UInt16} (h : xactionid ≠ 0) (k : ℕ) :
    (qmisvcxactionidassign^[k] xactionid).toNat = (xactionid.toNat - 1 + k) % 65535 + 1 := by
  have hpos : xactionid.toNat ≠ 0 := fun hzero => h (UInt16.toNat_inj.mp hzero)
  have hlt := xactionid.toNat_lt
  induction k with
  | zero =>
      rw [Function.iterate_zero_apply]
      omega
  | succ k ih =>
      have hne : qmisvcxactionidassign^[k] xactionid ≠ 0 := by
        intro hzero
        rw [hzero, UInt16.toNat_zero] at ih
        omega
      rw [Function.iterate_succ_apply', qmisvcxactionidassign_toNat hne, ih]
      omega

/-- The next 65534 transaction ids are different. -/
theorem eq_zero_of_iterate_eq {xactionid : UInt16} (h : xactionid ≠ 0) {k : ℕ}
    (hk : k < 65535) (heq : qmisvcxactionidassign^[k] xactionid = xactionid) : k = 0 := by
  have hnat := iterate_qmisvcxactionidassign_toNat h k
  have hpos : xactionid.toNat ≠ 0 := fun hzero => h (UInt16.toNat_inj.mp hzero)
  have hlt := xactionid.toNat_lt
  rw [heq] at hnat
  omega

end TransactionIds

section Modem

/-- What the modem sees of the task. -/
inductive ModemCall where
  | sent (client : QmiClient) (xactionid : UInt16)
  | closed (client : QmiClient)
  deriving DecidableEq

/-- Whether a packet was sent. -/
def ModemCall.isSent : ModemCall → Bool
  | .sent _ _ => true
  | .closed _ => false

/-- Whether a packet of a client was sent. -/
def ModemCall.isSentBy (client : QmiClient) : ModemCall → Bool
  | .sent c _ => c = client
  | .closed _ => false

/-- What the modem sees of an output. -/
def modemCall : QmOut → Option ModemCall
  | .dssend _ client packet _ => some (.sent client (piget16 packet 1))
  | .dsclose _ client => some (.closed client)
  | _ => none

/-- The task and what the modem has seen. -/
structure QmNet where
  tcb : Option QmTcb
  log : List ModemCall

/-- An event of the task, or a response of the modem to the packet at a position of the log,
read by the shell of an instance. -/
inductive NetEvent where
  | task (event : QmEvent)
  | response (n : ℕ) (instanceid : UInt8) (qmimsg : List UInt8)

/-- What the task sees of an event. A response comes for the client of its packet and with its
transaction id; there is none if no packet was sent. -/
def NetEvent.seen (log : List ModemCall) : NetEvent → Option QmEvent
  | .task event => some event
  | .response n instanceid qmimsg =>
      match log[n]? with
      | some (.sent client xactionid) =>
          some (.rx instanceid client ([eQMIRES] ++ piput16 xactionid ++ qmimsg))
      | _ => none

/-- A step of the task and the modem. -/
def netStep (net : QmNet) (e : NetEvent) : QmNet × List QmOut :=
  match e.seen net.log with
  | none => (net, [])
  | some event =>
      let r := qmStep net.tcb event
      (⟨r.1, net.log ++ r.2.filterMap modemCall⟩, r.2)

/-- The clients of the local services. -/
def QmiClient.isLocal (client : QmiClient) : Bool := client = .dcs 0 ∨ client = .fms

/-- The packet at a position of the log is the outstanding request: the task is busy with a
request for the modem, and this is the packet sent last. -/
def Outstanding (net : QmNet) (n : ℕ) : Prop :=
  match net.tcb, net.log[n]? with
  | some s, some (.sent _ _) =>
      s.qmbusy = true ∧ s.activeclient.isLocal = false ∧
        (net.log.drop (n + 1)).any ModemCall.isSent = false
  | _, _ => False

/-- A response that the task passes on was read from the active client, carries the transaction
id assigned to its request, and is the response to the outstanding request. -/
def ForwardsAnswer (net : QmNet) (e : NetEvent) : Prop :=
  ∀ s instanceid client qmpacket, net.tcb = some s →
    e.seen net.log = some (.rx instanceid client qmpacket) → qmpacket.getD 0 0 = eQMIRES →
      (qmqmirsp s instanceid qmpacket client).2 ≠ [] →
        client = s.activeclient ∧
          piget16 qmpacket 1 = (s.qmiclients s.activeclient).xactionid ∧
          ∃ n qmimsg, e = .response n instanceid qmimsg ∧ Outstanding net n

/-- A late response that cannot be taken for the answer to the outstanding request: it is one of
the active client, which was not closed since and has sent fewer than 65535 packets, or its
transaction id is another one. -/
def Discernible (s : QmTcb) (newer : List ModemCall) (client : QmiClient)
    (xactionid : UInt16) : Prop :=
  (client = s.activeclient ∧ .closed client ∉ newer ∧
      newer.countP (ModemCall.isSentBy client) < 65535) ∨
    xactionid ≠ (s.qmiclients s.activeclient).xactionid

/-- Requests for the modem are for known clients, and while a request is outstanding a response
is the one to it, or discernible. -/
def AnswerGuard (net : QmNet) : NetEvent → Prop
  | .task (.rx _ _ qmpacket) =>
      match net.tcb with
      | some s => qmpacket.getD 0 0 = eQMIRES → s.qmbusy = true →
          piget16 qmpacket 1 ≠ (s.qmiclients s.activeclient).xactionid
      | none => True
  | .task event => KnownClients net.tcb event
  | .response n _ _ =>
      match net.tcb, net.log[n]? with
      | some s, some (.sent client xactionid) =>
          s.qmbusy = true → Outstanding net n ∨
            Discernible s (net.log.drop (n + 1)) client xactionid
      | _, _ => True

instance (net : QmNet) (n : ℕ) : Decidable (Outstanding net n) :=
  match htcb : net.tcb, hcall : net.log[n]? with
  | some s, some (.sent _ _) =>
      decidable_of_iff (s.qmbusy = true ∧ s.activeclient.isLocal = false ∧
        (net.log.drop (n + 1)).any ModemCall.isSent = false)
        (by simp only [Outstanding, htcb, hcall])
  | some _, some (.closed _) | some _, none | none, _ =>
      .isFalse (by simp only [Outstanding, htcb, hcall, not_false_eq_true])

instance (s : QmTcb) (newer : List ModemCall) (client : QmiClient) (xactionid : UInt16) :
    Decidable (Discernible s newer client xactionid) :=
  inferInstanceAs (Decidable (_ ∧ _ ∧ _ ∨ _))

instance (net : QmNet) : ∀ e, Decidable (AnswerGuard net e)
  | .task (.rx _ _ qmpacket) =>
      match htcb : net.tcb with
      | some s =>
          decidable_of_iff (qmpacket.getD 0 0 = eQMIRES → s.qmbusy = true →
            piget16 qmpacket 1 ≠ (s.qmiclients s.activeclient).xactionid)
            (by simp only [AnswerGuard, htcb])
      | none => .isTrue (by simp only [AnswerGuard, htcb])
  | .task (.qmiReq _ _ _) | .task (.tick _) | .task (.device _) | .task (.net _ _)
  | .task (.dcs _) | .task (.fwStatus _) =>
      inferInstanceAs (Decidable (KnownClients net.tcb _))
  | .response n _ _ =>
      match htcb : net.tcb, hcall : net.log[n]? with
      | some s, some (.sent client xactionid) =>
          decidable_of_iff (s.qmbusy = true → Outstanding net n ∨
            Discernible s (net.log.drop (n + 1)) client xactionid)
            (by simp only [AnswerGuard, htcb, hcall])
      | some _, some (.closed _) | some _, none | none, _ =>
          .isTrue (by simp only [AnswerGuard, htcb, hcall])

end Modem

/-- The clients and the outstanding request of a control block, as far as the log tells. -/
structure RecordedBy (s : QmTcb) (log : List ModemCall) : Prop where
  modem : ∀ (n : ℕ) (c : QmiClient) (x : UInt16), log[n]? = some (.sent c x) →
    c.isLocal = false ∧ x ≠ 0
  numbered : ∀ (n : ℕ) (c : QmiClient) (x : UInt16), log[n]? = some (.sent c x) →
    .closed c ∉ log.drop (n + 1) →
    (s.qmiclients c).registered = true ∧
      (s.qmiclients c).xactionid =
        qmisvcxactionidassign^[(log.drop (n + 1)).countP (ModemCall.isSentBy c)] x
  last : s.qmbusy = true → s.activeclient.isLocal = false →
    ∃ n x, log[n]? = some (.sent s.activeclient x) ∧
      (log.drop (n + 1)).any ModemCall.isSent = false ∧
      ((s.qmiclients s.activeclient).xactionid = x ∨
        (s.qmiclients s.activeclient).xactionid = 0)

/-- `RecordedBy` while the task is alive. -/
def Recorded : Option QmTcb → List ModemCall → Prop
  | none, _ => True
  | some s, log => RecordedBy s log

section Log

variable {log : List ModemCall} {call : ModemCall}

/-- A call in a log that has grown by one is an old one, or the last. -/
theorem getElem?_concat_cases {n : ℕ} {c : ModemCall} (h : (log ++ [call])[n]? = some c) :
    (log[n]? = some c ∧ (log ++ [call]).drop (n + 1) = log.drop (n + 1) ++ [call]) ∨
      (n = log.length ∧ c = call ∧ (log ++ [call]).drop (n + 1) = []) := by
  have hn : n < (log ++ [call]).length := (List.getElem?_eq_some_iff.mp h).1
  rw [List.length_append, List.length_singleton] at hn
  rcases Nat.lt_succ_iff_lt_or_eq.mp hn with hlt | rfl
  · rw [List.getElem?_append_left hlt] at h
    exact .inl ⟨h, List.drop_append_of_le_length hlt⟩
  · rw [List.getElem?_append_right (Nat.le_refl _), Nat.sub_self] at h
    refine .inr ⟨rfl, (Option.some.inj h).symm, List.drop_of_length_le ?_⟩
    simp

theorem getElem?_concat_of_some {n : ℕ} {c : ModemCall} (h : log[n]? = some c) :
    (log ++ [call])[n]? = some c ∧
      (log ++ [call]).drop (n + 1) = log.drop (n + 1) ++ [call] := by
  have hn : n < log.length := (List.getElem?_eq_some_iff.mp h).1
  exact ⟨by rw [List.getElem?_append_left hn, h], List.drop_append_of_le_length hn⟩

/-- An earlier packet has every later one after it. -/
theorem mem_drop_of_lt {n n' : ℕ} (hlt : n < n') (h : log[n']? = some call) :
    call ∈ log.drop (n + 1) := by
  apply List.mem_of_getElem? (i := n' - (n + 1))
  rw [List.getElem?_drop, Nat.add_sub_cancel' hlt, h]

end Log

namespace RecordedBy

variable {s t : QmTcb} {log : List ModemCall}

theorem congr (h : RecordedBy s log) (hsame : SameClients s t) : RecordedBy t log where
  modem := h.modem
  numbered n c x hsent hopen := by
    rw [hsame.qmiclients]
    exact h.numbered n c x hsent hopen
  last hbusy hlocal := by
    rw [hsame.qmbusy] at hbusy
    rw [hsame.activeclient] at hlocal ⊢
    rw [hsame.qmiclients]
    exact h.last hbusy hlocal

theorem clear (h : RecordedBy s log) : RecordedBy (qmclearrespinfo s) log where
  modem := h.modem
  numbered := h.numbered
  last hbusy := by simp [qmclearrespinfo] at hbusy

/-- Opening a client keeps its transaction id. -/
theorem opened_client (h : RecordedBy s log) (client : QmiClient) :
    RecordedBy (opened s client) log := by
  have hxid : ∀ c, ((opened s client).qmiclients c).xactionid = (s.qmiclients c).xactionid := by
    intro c
    by_cases hc : c = client
    · simp [opened, hc]
    · simp [opened, hc]
  refine ⟨h.modem, fun n c x hsent hopen => ?_, fun hbusy hlocal => ?_⟩
  · obtain ⟨hreg, hnum⟩ := h.numbered n c x hsent hopen
    refine ⟨?_, (hxid c).trans hnum⟩
    by_cases hc : c = client
    · simp [opened, hc]
    · simp [opened, hc, hreg]
  · rw [hxid]
    exact h.last hbusy hlocal

/-- The transaction id of a closed client starts over. -/
theorem closed_client (h : RecordedBy s log) (client : QmiClient) :
    RecordedBy (qmiclientreset s client).1 (log ++ [.closed client]) := by
  refine ⟨fun n c x hsent => ?_, fun n c x hsent hopen => ?_, fun hbusy hlocal => ?_⟩
  · rcases getElem?_concat_cases hsent with ⟨hold, -⟩ | ⟨-, hnew, -⟩
    · exact h.modem n c x hold
    · cases hnew
  · rcases getElem?_concat_cases hsent with ⟨hold, hdrop⟩ | ⟨-, hnew, -⟩
    · rw [hdrop, List.mem_append, not_or, List.mem_singleton] at hopen
      have hc : c ≠ client := fun heq => hopen.2 (by rw [heq])
      rw [hdrop, List.countP_append]
      simpa [qmiclientreset, hc, ModemCall.isSentBy] using h.numbered n c x hold hopen.1
    · cases hnew
  · obtain ⟨n, x, hsent, hnewer, hxid⟩ := h.last hbusy hlocal
    obtain ⟨hsent', hdrop⟩ := @getElem?_concat_of_some log (.closed client) _ _ hsent
    refine ⟨n, x, hsent', ?_, ?_⟩
    · rw [hdrop, List.any_append, hnewer]
      rfl
    · by_cases hc : s.activeclient = client
      · exact .inr (by simp [qmiclientreset, hc])
      · simpa [qmiclientreset, hc] using hxid

/-- Recording a request for a local service does not touch the clients of the modem. -/
theorem recorded_local (h : RecordedBy s log) {parms : AmQmiRrParms} (ipcchan : UInt8)
    (hlocal : (qmsaverespinfoClient s parms).isLocal = true) :
    RecordedBy (recorded s parms ipcchan) log := by
  refine ⟨h.modem, fun n c x hsent hopen => ?_, fun _ hmodem => ?_⟩
  · have hc : c ≠ qmsaverespinfoClient s parms := by
      rintro rfl
      rw [(h.modem n _ x hsent).1] at hlocal
      cases hlocal
    simpa [recorded, hc] using h.numbered n c x hsent hopen
  · have hactive : (recorded s parms ipcchan).activeclient = qmsaverespinfoClient s parms := rfl
    rw [hactive, hlocal] at hmodem
    cases hmodem

/-- Recording and sending a request. -/
theorem recorded_sent (h : RecordedBy s log) {parms : AmQmiRrParms} (ipcchan : UInt8)
    {client : QmiClient} (hclient : qmsaverespinfoClient s parms = client)
    (hmodem : client.isLocal = false) (hreg : (s.qmiclients client).registered = true) :
    RecordedBy (recorded s parms ipcchan)
      (log ++ [.sent client (qmisvcxactionidassign (s.qmiclients client).xactionid)]) := by
  have hxid : ((recorded s parms ipcchan).qmiclients client).xactionid =
      qmisvcxactionidassign (s.qmiclients client).xactionid := by
    simp [recorded, hclient]
  refine ⟨fun n c x hsent => ?_, fun n c x hsent hopen => ?_, fun _ _ => ?_⟩
  · rcases getElem?_concat_cases hsent with ⟨hold, -⟩ | ⟨-, hnew, -⟩
    · exact h.modem n c x hold
    · obtain ⟨rfl, rfl⟩ := ModemCall.sent.inj hnew
      exact ⟨hmodem, qmisvcxactionidassign_ne_zero _⟩
  · rcases getElem?_concat_cases hsent with ⟨hold, hdrop⟩ | ⟨-, hnew, hdrop⟩
    · rw [hdrop, List.mem_append, not_or] at hopen
      obtain ⟨hregc, hnum⟩ := h.numbered n c x hold hopen.1
      rw [hdrop, List.countP_append, recorded_registered]
      refine ⟨hregc, ?_⟩
      by_cases hc : c = client
      · subst hc
        rw [hxid, hnum, ← Function.iterate_succ_apply' qmisvcxactionidassign]
        simp [ModemCall.isSentBy]
      · simpa [recorded, hclient, hc, ModemCall.isSentBy, Ne.symm hc] using hnum
    · obtain ⟨rfl, rfl⟩ := ModemCall.sent.inj hnew
      rw [hdrop, recorded_registered]
      exact ⟨hreg, hxid⟩
  · have hactive : (recorded s parms ipcchan).activeclient = client := hclient
    rw [hactive]
    exact ⟨log.length, _, by simp, by simp, .inl hxid⟩

end RecordedBy

namespace Recorded

variable {s : QmTcb} {log : List ModemCall}

theorem driverRules : DriverRules (collect modemCall) Recorded where
  stopped := trivial
  ignored := by
    rintro log (_ | _ | _ | _ | _ | _ | _ | _ | _ | _ | _ | _ | _) h
    all_goals simp_all [QmOut.changesDriver, collect, modemCall]
  congr h hsame := RecordedBy.congr h hsame
  clear h := RecordedBy.clear h
  opened h client :=
    tracks_ignored (RecordedBy.opened_client h client) (by simp [collect, modemCall])
  reset h client _ := ⟨_, rfl, RecordedBy.closed_client h client⟩

/-- A request that is recorded for a local service is for one. -/
theorem qmsaverespinfoClient_isLocal (s : QmTcb) (parms : AmQmiRrParms) :
    (qmsaverespinfoClient s parms).isLocal =
      (qmisvc2qmiclnt_map parms.qmiinstanceid (.ofCode parms.amqmisvctype)).isLocal := by
  unfold qmsaverespinfoClient
  split
  · next k heq =>
      rw [heq]
      split_ifs
      · rfl
      · rfl
  · rfl

/-- A request for an open client that the record agrees with. -/
theorem tracks_qmprepareopen (h : Recorded (some s) log) {parms : AmQmiRrParms}
    {inbuf : List UInt8} {ipcchan : UInt8} {client : QmiClient}
    (hreg : (s.qmiclients client).registered = true)
    (hmodem : (qmsaverespinfoClient s parms).isLocal = false)
    (hclient : ∀ msend, qmbuildmdmreq s parms inbuf ipcchan client = some msend →
      qmsaverespinfoClient s parms = client) (sendOk : Bool) :
    Tracks (collect modemCall) Recorded log
      (qmfinish (qmprepareopen s parms inbuf ipcchan client) sendOk) := by
  apply driverRules.tracks_qmprepareopen
  intro msend hbuild
  have hsaved := hclient msend hbuild
  obtain ⟨-, htcb, hfor, -, hpacket, -, -⟩ := qmbuildmdmreq_eq_some hbuild
  have hxid : piget16 msend.packet 1 =
      qmisvcxactionidassign (s.qmiclients client).xactionid := by
    rw [hpacket, mdmPacket_xactionid, htcb]
    simp [recorded, hsaved]
  refine ⟨log ++ [.sent msend.client (piget16 msend.packet 1)], fun ok => rfl, ?_⟩
  rw [hfor, hxid, htcb]
  rw [hsaved] at hmodem
  exact RecordedBy.recorded_sent h ipcchan hsaved hmodem hreg

/-- A request whose client is known, if it is for the modem. -/
theorem tracks_qmqmireq (h : Recorded (some s) log) {packet : List UInt8} {ipcchan : UInt8}
    {env : ReqEnv} (hknown : KnownClients (some s) (.qmiReq packet ipcchan env)) :
    Tracks (collect modemCall) Recorded log (qmqmireq s packet ipcchan env) := by
  have hagrees := (agrees_iff (some s) (.qmiReq packet ipcchan env)).mpr hknown
  simp only [Agrees] at hagrees
  have hchan : Recorded (some { s with qmipcchannel := ipcchan }) log :=
    RecordedBy.congr h ⟨rfl, rfl, rfl⟩
  generalize hparms : amparseqmixactionheader packet = parms at *
  generalize hclient : qmisvc2qmiclnt_map parms.qmiinstanceid (.ofCode parms.amqmisvctype) =
    client at *
  apply driverRules.tracks_qmqmireq h rfl hparms hclient
  · intro hlocal
    apply RecordedBy.recorded_local hchan
    rw [qmsaverespinfoClient_isLocal, hclient]
    rcases hlocal with rfl | rfl
    · rfl
    · rfl
  · intro hrc hdcs hfms
    have hmodem : ∀ t : QmTcb, (qmsaverespinfoClient t parms).isLocal = false := by
      intro t
      rw [qmsaverespinfoClient_isLocal, hclient]
      simp [QmiClient.isLocal, hdcs, hfms]
    have hprepare : qmprepare s packet ipcchan env =
        qmpreparemdmreq { s with qmipcchannel := ipcchan } parms (packet.drop amQmiRrnSz) ipcchan
          env.ioctlOk := qmprepare_of_modem hparms hclient hrc hdcs hfms
    generalize ht : { s with qmipcchannel := ipcchan } = t at *
    generalize hp : qmparser t parms.qmiinstanceid (.ofCode parms.amqmisvctype)
      (packet.drop amQmiRrnSz) = p at *
    have hparsed : Recorded (some p) log :=
      RecordedBy.congr hchan (by rw [← hp, qmparser_frame]; exact ⟨rfl, rfl, rfl⟩)
    -- what is built is sent, and then it agrees with the record
    have hsaved : ∀ {q : QmTcb} {msend : MdmSend},
        (qmprepare s packet ipcchan env).1 =
          (qmprepareopen q parms (packet.drop amQmiRrnSz) ipcchan (requestClient p parms)).1 →
        qmbuildmdmreq q parms (packet.drop amQmiRrnSz) ipcchan (requestClient p parms) =
          some msend → qmsaverespinfoClient q parms = requestClient p parms := by
      intro q msend hprepared hbuild
      obtain ⟨-, htcb, hfor, -, -, -, -⟩ := qmbuildmdmreq_eq_some hbuild
      have hsend : (qmprepare s packet ipcchan env).1 = .send msend := by
        rw [hprepared]
        simp only [qmprepareopen, hbuild]
      have hsent := (hagrees msend _ (Prod.ext hsend rfl)).client
      rw [← hfor, hsent, htcb]
      rfl
    apply qmpreparemdmreq_rule hp rfl
    · intro hreg
      refine tracks_qmprepareopen hparsed hreg (hmodem p) (fun msend hbuild => ?_) _
      refine hsaved ?_ hbuild
      rw [hprepare, qmpreparemdmreq_of_registered hp rfl hreg]
    · intro hreg hok hinst
      have hopened : Recorded (some (opened p (requestClient p parms))) log :=
        RecordedBy.opened_client hparsed _
      refine tracks_append (watch_ignored (by simp [collect, modemCall])) ?_
      refine tracks_qmprepareopen hopened (by simp [opened]) (hmodem _)
        (fun msend hbuild => ?_) _
      refine hsaved ?_ hbuild
      rw [hprepare, hok, qmpreparemdmreq_of_opened hp rfl hreg hinst]
    · intro _ _ _
      exact tracks_ignored trivial (by simp [collect, modemCall])
    · intro _ _
      refine tracks_ignored ?_ (by simp [collect, modemCall])
      exact RecordedBy.congr (RecordedBy.clear hparsed) ⟨rfl, rfl, rfl⟩

/-- Every event for which the clients are known keeps the record. -/
theorem tracks_qmtask (h : Recorded (some s) log) {event : QmEvent}
    (hknown : KnownClients (some s) event) :
    Tracks (collect modemCall) Recorded log (qmtask s event) := by
  cases event with
  | qmiReq packet ipcchan env => exact tracks_qmqmireq h hknown
  | _ => exact driverRules.tracks_qmtask h (by simp)

end Recorded

/-- A packet of type `eQMIRES` is passed on only if a request is outstanding, and it carries the
transaction id that the active client used last. -/
theorem of_qmqmirsp_ne_nil {s : QmTcb} {instanceid : UInt8} {qmpacket : List UInt8}
    {client : QmiClient} (hres : qmpacket.getD 0 0 = eQMIRES)
    (h : (qmqmirsp s instanceid qmpacket client).2 ≠ []) :
    s.qmbusy = true ∧ piget16 qmpacket 1 = (s.qmiclients s.activeclient).xactionid := by
  simp only [qmqmirsp, hres, if_true, qmvalidateresponse] at h
  split_ifs at h with hvalid hreg hreg
  · exact ⟨hvalid.1, by simpa [qmixactionidvalidate] using hvalid.2.2⟩
  · exact absurd rfl h
  · exact absurd hreg.2 (by simp)
  · exact absurd rfl h

/-- What the task sees of a response of the modem. -/
theorem seen_response {log : List ModemCall} {n : ℕ} {instanceid i : UInt8}
    {qmimsg qmpacket : List UInt8} {client : QmiClient}
    (h : NetEvent.seen log (.response n i qmimsg) = some (.rx instanceid client qmpacket)) :
    i = instanceid ∧ log[n]? = some (.sent client (piget16 qmpacket 1)) := by
  simp only [NetEvent.seen] at h
  split at h
  next c x hsent =>
    obtain ⟨rfl, rfl, rfl⟩ := QmEvent.rx.inj (Option.some.inj h)
    have hread := piget16_piput16 x [eQMIRES] qmimsg
    rw [List.length_singleton] at hread
    rw [hread]
    exact ⟨rfl, hsent⟩
  next => cases h

/-- A discernible response that carries the transaction id that the active client used last is
the one to the packet sent last. -/
theorem RecordedBy.answers {s : QmTcb} {log : List ModemCall} (h : RecordedBy s log)
    (hbusy : s.qmbusy = true) {n : ℕ} {client : QmiClient}
    (hsent : log[n]? = some (.sent client (s.qmiclients s.activeclient).xactionid))
    (hguard : Outstanding ⟨some s, log⟩ n ∨ Discernible s (log.drop (n + 1)) client
      (s.qmiclients s.activeclient).xactionid) :
    client = s.activeclient ∧ Outstanding ⟨some s, log⟩ n := by
  obtain ⟨hmodem, hne⟩ := h.modem n _ _ hsent
  have hlast : ∀ {j k : ℕ} {c : QmiClient} {x : UInt16}, log[k]? = some (.sent c x) →
      (log.drop (j + 1)).any ModemCall.isSent = false → k ≤ j := by
    intro j k c x hk hnewer
    by_contra hlt
    exact List.any_eq_false.mp hnewer _ (mem_drop_of_lt (Nat.lt_of_not_le hlt) hk) rfl
  rcases hguard with hout | ⟨hactive, hopen, hcount⟩ | hother
  · refine ⟨?_, hout⟩
    simp only [Outstanding, hsent] at hout
    obtain ⟨-, hlocal, hnewer⟩ := hout
    obtain ⟨k, x, hk, hkept, -⟩ := h.last hbusy hlocal
    rw [Nat.le_antisymm (hlast hsent hkept) (hlast hk hnewer), hk] at hsent
    exact (ModemCall.sent.inj (Option.some.inj hsent)).1.symm
  · refine ⟨hactive, ?_⟩
    subst hactive
    -- no packet of the active client came later, so none did
    have hnum := (h.numbered n _ _ hsent hopen).2
    have hzero := eq_zero_of_iterate_eq hne hcount hnum.symm
    obtain ⟨k, x, hk, hkept, -⟩ := h.last hbusy hmodem
    have hkn : k ≤ n := by
      by_contra hlt
      have hpos := List.countP_eq_zero.mp hzero _ (mem_drop_of_lt (Nat.lt_of_not_le hlt) hk)
      simp [ModemCall.isSentBy] at hpos
    rw [← Nat.le_antisymm (hlast hsent hkept) hkn] at hkept
    simp only [Outstanding, hsent]
    exact ⟨hbusy, hmodem, hkept⟩
  · exact absurd rfl hother

/-- The task and the modem at the start. -/
def netinit : QmNet := ⟨some qminit, []⟩

theorem recorded_netinit : Recorded netinit.tcb netinit.log := by
  refine ⟨fun n c x hsent => ?_, fun n c x hsent => ?_, fun hbusy => ?_⟩
  · simp [netinit] at hsent
  · simp [netinit] at hsent
  · simp [qminit] at hbusy

/-- A guarded step keeps the record. -/
theorem recorded_netStep {net : QmNet} {e : NetEvent} (h : Recorded net.tcb net.log)
    (hguard : AnswerGuard net e) :
    Recorded (netStep net e).1.tcb (netStep net e).1.log := by
  unfold netStep
  cases hseen : e.seen net.log with
  | none => exact h
  | some event =>
      have hstep : Tracks (collect modemCall) Recorded net.log (qmStep net.tcb event) := by
        cases htcb : net.tcb with
        | none => exact tracks_nil trivial
        | some s =>
            rw [htcb] at h
            have hknown : KnownClients (some s) event := by
              cases event with
              | qmiReq packet ipcchan env =>
                  cases e with
                  | task event =>
                      obtain rfl := Option.some.inj hseen
                      rw [← htcb]
                      exact hguard
                  | response n instanceid qmimsg =>
                      simp only [NetEvent.seen] at hseen
                      split at hseen <;> cases hseen
              | _ => trivial
            exact Recorded.tracks_qmtask h hknown
      exact tracks_collect_iff.mp hstep

/-- A guarded step passes on answers only. -/
theorem forwardsAnswer_of_guard {net : QmNet} {e : NetEvent} (h : Recorded net.tcb net.log)
    (hguard : AnswerGuard net e) : ForwardsAnswer net e := by
  intro s instanceid client qmpacket htcb hseen hres hforwards
  obtain ⟨hbusy, hxid⟩ := of_qmqmirsp_ne_nil hres hforwards
  rw [htcb] at h
  cases e with
  | task event =>
      obtain rfl := Option.some.inj hseen
      simp only [AnswerGuard, htcb] at hguard
      exact absurd hxid (hguard hres hbusy)
  | response n i qmimsg =>
      obtain ⟨rfl, hsent⟩ := seen_response hseen
      rw [hxid] at hsent
      simp only [AnswerGuard, htcb, hsent] at hguard
      have hnet : net = ⟨some s, net.log⟩ := by rw [← htcb]
      have hanswer : client = s.activeclient ∧ Outstanding net n := by
        rw [hnet] at hguard ⊢
        exact RecordedBy.answers h hbusy hsent (hguard hbusy)
      exact ⟨hanswer.1, hxid, n, qmimsg, rfl, hanswer.2⟩

/-- In a run in which every late response is discernible and clients are known, only answers to
the outstanding request are passed on. -/
theorem forwardsAnswer_run {events : List NetEvent}
    (h : Meets netStep AnswerGuard netinit events) :
    Meets netStep ForwardsAnswer netinit events :=
  meets_of_invariant (I := fun net => Recorded net.tcb net.log)
    (fun _ _ hnet hguard => recorded_netStep hnet hguard)
    (fun _ _ hnet hguard => forwardsAnswer_of_guard hnet hguard) recorded_netinit h

/-- The response to a first request comes after the one to a second request of its client. -/
theorem forwardsAnswer_lateDms :
    Meets netStep ForwardsAnswer netinit
      ((connectEvents 0).map .task ++
        [.task (.qmiReq (requestPacket .dms 0 [0x20, 0, 0, 0]) 0 reqEnvOk),
          .task (.tick false), .task (.tick false), .task (.tick false), .task (.tick false),
          .task (.qmiReq (requestPacket .dms 0 [0x21, 0, 0, 0]) 0 reqEnvOk),
          .response 0 0 [0x20, 0, 0, 0], .response 1 0 [0x21, 0, 0, 0]]) :=
  forwardsAnswer_run (by decide +kernel)

/-- A DMS request times out, and its response comes when a NAS request is outstanding. -/
def lateResponseRun : List NetEvent :=
  (connectEvents 0).map .task ++
    [.task (.qmiReq (requestPacket .dms 0 [0x20, 0, 0, 0]) 0 reqEnvOk),
      .task (.tick false), .task (.tick false), .task (.tick false), .task (.tick false),
      .task (.qmiReq (requestPacket .nas 0 [0x21, 0, 0, 0]) 0 reqEnvOk)]

/-- Both have transaction id 1, and the DMS response is passed on as the answer. -/
theorem lateResponseRun_forwards :
    ¬ Meets netStep ForwardsAnswer netinit
      (lateResponseRun ++ [.response 0 0 [0x20, 0, 0, 0]]) := by
  intro h
  obtain ⟨-, hlast, -⟩ := meets_append.mp h
  have hsent : (after netStep netinit lateResponseRun).log[0]? = some (.sent .dms 1) := by
    decide +kernel
  have hstate : ((after netStep netinit lateResponseRun).tcb.map fun s =>
      (s.activeclient, (qmqmirsp s 0 [eQMIRES, 1, 0, 0x20, 0, 0, 0] .dms).2.isEmpty)) =
        some (.nas, false) := by
    decide +kernel
  obtain ⟨s, hs, hpair⟩ := Option.map_eq_some_iff.mp hstate
  obtain ⟨hactive, hforwards⟩ := Prod.mk.inj hpair
  have hseen : NetEvent.seen (after netStep netinit lateResponseRun).log
      (.response 0 0 [0x20, 0, 0, 0]) = some (.rx 0 .dms [eQMIRES, 1, 0, 0x20, 0, 0, 0]) := by
    rw [NetEvent.seen, hsent]
    rfl
  have hanswer := hlast s 0 .dms _ hs hseen rfl (by simpa using hforwards)
  rw [hactive] at hanswer
  cases hanswer.1

end Qm

end SierraSdk
