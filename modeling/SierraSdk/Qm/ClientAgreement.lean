import SierraSdk.Qm.Task

/-!
# The client of a request

A request for the modem is sent for one QMI client and recorded for another one that is
computed by other means. They are the same client exactly when the parser knows the client
of the request (`ClientKnown`): the request is not for the WDS service, or it selects the
current WDS client, or the current WDS client happens to be one of its instance. The WDS
messages that select nothing are the requests to start or stop a data session and to get its
settings, and one to set an unknown IP family.
-/

namespace SierraSdk

namespace Qm

open Am Ci Machine

/-- A packet about to be sent for a request carries the transaction id that its client was
advanced to, that client is the recorded one, and a response to it would pass. -/
structure SendAgrees (s : QmTcb) (m : MdmSend) : Prop where
  client : m.client = m.tcb.activeclient
  advanced : (m.tcb.qmiclients m.client).xactionid =
    qmisvcxactionidassign (s.qmiclients m.client).xactionid
  packet : piget16 m.packet 1 = (m.tcb.qmiclients m.client).xactionid
  accepted : qmixactionidvalidate m.tcb (piget16 m.packet 1) = true

/-- The packet that a step sends, if it sends one, agrees with the record. -/
def Agrees : Option QmTcb → QmEvent → Prop
  | some s, .qmiReq packet ipcchan env =>
      ∀ m out, qmprepare s packet ipcchan env = (.send m, out) → SendAgrees s m
  | _, _ => True

/-- The client of a request is determined by the request, or the current WDS client is one
of its instance. -/
def ClientKnown (s : QmTcb) (parms : AmQmiRrParms) (inbuf : List UInt8) : Prop :=
  EQmiService.ofCode parms.amqmisvctype ≠ .wds ∨
    wdsChoice s.activeHandle parms.qmiinstanceid inbuf ≠ none ∨
    s.activewdsclient = wdsClientOf parms.qmiinstanceid ∨
    s.activewdsclient = wdsV6ClientOf parms.qmiinstanceid

instance (s : QmTcb) (parms : AmQmiRrParms) (inbuf : List UInt8) :
    Decidable (ClientKnown s parms inbuf) :=
  inferInstanceAs (Decidable (_ ∨ _ ∨ _ ∨ _))

/-- A request passes the checks, is not for a local service, is the only one, and finds its
client open or opens it, and a buffer. -/
def ReachesModem (s : QmTcb) (packet : List UInt8) (ipcchan : UInt8) (env : ReqEnv) : Prop :=
  let t := { s with qmipcchannel := ipcchan }
  let parms := amparseqmixactionheader packet
  let p := qmparser t parms.qmiinstanceid (.ofCode parms.amqmisvctype) (packet.drop amQmiRrnSz)
  let client := qmisvc2qmiclnt_map parms.qmiinstanceid (.ofCode parms.amqmisvctype)
  requestError t parms client = EQCWWANError.none ∧ client ≠ .dcs 0 ∧ client ≠ .fms ∧
    s.qmbusy = false ∧
    ((p.qmiclients (requestClient p parms)).registered = true ∨
      env.ioctlOk = true ∧ parms.qmiinstanceid.toNat < qmMaxQmiInstSupported) ∧
    (qmgetsizedbuf s parms.amqmixactionlen.toNat).mmfree ≠ []

instance (s : QmTcb) (packet : List UInt8) (ipcchan : UInt8) (env : ReqEnv) :
    Decidable (ReachesModem s packet ipcchan env) :=
  inferInstanceAs (Decidable (_ ∧ _ ∧ _ ∧ _ ∧ (_ ∨ _ ∧ _) ∧ _))

/-- The client of a request that reaches the modem is known. -/
def KnownClients : Option QmTcb → QmEvent → Prop
  | some s, .qmiReq packet ipcchan env =>
      ReachesModem s packet ipcchan env →
        ClientKnown s (amparseqmixactionheader packet) (packet.drop amQmiRrnSz)
  | _, _ => True

instance : ∀ s event, Decidable (KnownClients s event)
  | some _, .qmiReq _ _ _ => inferInstanceAs (Decidable (_ → _))
  | some _, .rx _ _ _ | some _, .tick _ | some _, .device _ | some _, .net _ _
  | some _, .dcs _ | some _, .fwStatus _ | none, _ => inferInstanceAs (Decidable True)

section Sending

theorem mdmPacket_xactionid (xactionid : UInt16) (parms : AmQmiRrParms) (inbuf : List UInt8) :
    piget16 (mdmPacket xactionid parms inbuf) 1 = xactionid :=
  piget16_piput16 xactionid [eQMIREQ] (inbuf.takeD parms.amqmixactionlen.toNat 0)

/-- A built packet agrees with the record when it is built for the recorded client. -/
theorem sendAgrees_iff_of_built {s t : QmTcb} {parms : AmQmiRrParms} {inbuf : List UInt8}
    {ipcchan : UInt8} {client : QmiClient} {m : MdmSend}
    (h : qmbuildmdmreq t parms inbuf ipcchan client = some m)
    (hxid : ∀ c, (t.qmiclients c).xactionid = (s.qmiclients c).xactionid) :
    SendAgrees s m ↔ client = qmsaverespinfoClient t parms := by
  obtain ⟨-, htcb, hclient, -, hpacket, -, -⟩ := qmbuildmdmreq_eq_some h
  have hactive : m.tcb.activeclient = qmsaverespinfoClient t parms := by
    rw [htcb]
    rfl
  constructor
  · intro hagrees
    rw [← hclient, hagrees.client, hactive]
  · intro heq
    have hxact : (m.tcb.qmiclients client).xactionid =
        qmisvcxactionidassign (s.qmiclients client).xactionid := by
      rw [htcb, ← hxid client]
      simp [recorded, heq]
    have hread : piget16 m.packet 1 = (m.tcb.qmiclients client).xactionid := by
      rw [hpacket, mdmPacket_xactionid]
    refine ⟨?_, ?_, ?_, ?_⟩
    · rw [hclient, heq, hactive]
    · rw [hclient, hxact]
    · rw [hclient, hread]
    · rw [qmixactionidvalidate, hactive, ← heq, hread]
      simp

/-- A service other than WDS has no WDS clients. -/
theorem qmisvc2qmiclnt_map_ne_wds {instanceid : UInt8} {svc : EQmiService} (hsvc : svc ≠ .wds)
    (k : Fin 8) : qmisvc2qmiclnt_map instanceid svc ≠ .wds k := by
  cases svc <;> simp_all [qmisvc2qmiclnt_map]
  split_ifs <;> simp

/-- A request is sent for the recorded client when that client is known. -/
theorem requestClient_eq_iff {s p : QmTcb} {parms : AmQmiRrParms} {inbuf : List UInt8}
    (hp : qmparser s parms.qmiinstanceid (.ofCode parms.amqmisvctype) inbuf = p)
    (hmap : qmisvc2qmiclnt_map parms.qmiinstanceid (.ofCode parms.amqmisvctype) ≠
      .unsupported) :
    requestClient p parms = qmsaverespinfoClient p parms ↔ ClientKnown s parms inbuf := by
  by_cases hsvc : EQmiService.ofCode parms.amqmisvctype = .wds
  · rw [hsvc] at hp hmap
    have hinst : parms.qmiinstanceid.toNat < 8 := by
      by_contra hinst
      exact hmap (by simp [qmisvc2qmiclnt_map, hinst])
    have hv4 := wdsClientOf_eq hinst
    have hv6 := wdsV6ClientOf_eq hinst
    have hactive : p.activewdsclient =
        (wdsChoice s.activeHandle parms.qmiinstanceid inbuf).getD s.activewdsclient := by
      rw [← hp, qmparser_wds_activewdsclient]
    have hsame : requestClient p parms = qmsaverespinfoClient p parms ↔
        p.activewdsclient = wdsClientOf parms.qmiinstanceid ∨
          p.activewdsclient = wdsV6ClientOf parms.qmiinstanceid := by
      rw [hv4, hv6, requestClient, qmsaverespinfoClient, hsvc]
      simp only [qmisvc2qmiclnt_map, hinst, dif_pos]
      by_cases h6 : p.activewdsclient = .wdsV6 ⟨parms.qmiinstanceid.toNat, hinst⟩
      · simp [h6]
      · simp [h6]
    rw [hsame, hactive]
    cases hchoice : wdsChoice s.activeHandle parms.qmiinstanceid inbuf with
    | none => simp [ClientKnown, hsvc, hchoice]
    | some client =>
        have hmem := wdsChoice_instance hinst hchoice
        rw [← hv4, ← hv6] at hmem
        simp [ClientKnown, hsvc, hchoice, hmem]
  · have hknown : ClientKnown s parms inbuf := .inl hsvc
    have hclient : requestClient p parms =
        qmisvc2qmiclnt_map parms.qmiinstanceid (.ofCode parms.amqmisvctype) := by
      unfold requestClient
      split
      · next heq => exact absurd heq hsvc
      · rfl
    have hsaved : qmsaverespinfoClient p parms =
        qmisvc2qmiclnt_map parms.qmiinstanceid (.ofCode parms.amqmisvctype) := by
      unfold qmsaverespinfoClient
      split
      · next k heq => exact absurd heq (qmisvc2qmiclnt_map_ne_wds hsvc k)
      · rfl
    simp [hknown, hclient, hsaved]

/-- A packet about to be sent agrees with the record when its client is known. -/
theorem sendAgrees_iff {s : QmTcb} {packet : List UInt8} {ipcchan : UInt8} {env : ReqEnv}
    {m : MdmSend} {out : List QmOut} (h : qmprepare s packet ipcchan env = (.send m, out)) :
    SendAgrees s m ↔
      ClientKnown s (amparseqmixactionheader packet) (packet.drop amQmiRrnSz) := by
  obtain ⟨⟨hrc, hdcs, hfms⟩, hsend⟩ := qmprepare_send h rfl rfl
  have hmap := (requestError_eq_none hrc hdcs hfms).1
  generalize hparms : amparseqmixactionheader packet = parms at *
  generalize ht : { s with qmipcchannel := ipcchan } = t at *
  generalize hp : qmparser t parms.qmiinstanceid (.ofCode parms.amqmisvctype)
    (packet.drop amQmiRrnSz) = p at *
  have hclients : p.qmiclients = s.qmiclients := by
    rw [← hp, qmparser_qmiclients, ← ht]
  have hknown : ClientKnown t parms (packet.drop amQmiRrnSz) ↔
      ClientKnown s parms (packet.drop amQmiRrnSz) := by
    rw [← ht]
    rfl
  rw [← hknown, ← requestClient_eq_iff hp hmap]
  rcases qmpreparemdmreq_send hp rfl hsend with ⟨-, hbuild⟩ | ⟨-, hbuild⟩
  · exact sendAgrees_iff_of_built hbuild fun c => by rw [hclients]
  · have hxid : ∀ c, ((opened p (requestClient p parms)).qmiclients c).xactionid =
        (s.qmiclients c).xactionid := by
      intro c
      rw [← hclients]
      by_cases hc : c = requestClient p parms
      · simp [opened, hc]
      · simp [opened, hc]
    have hagrees := sendAgrees_iff_of_built hbuild hxid
    exact hagrees

/-- Which requests are sent to the modem. -/
theorem reachesModem_iff {s : QmTcb} {packet : List UInt8} {ipcchan : UInt8} {env : ReqEnv} :
    ReachesModem s packet ipcchan env ↔
      ∃ m out, qmprepare s packet ipcchan env = (.send m, out) := by
  constructor
  · rintro ⟨hrc, hdcs, hfms, hbusy, hopen, hfree⟩
    rw [qmprepare_of_modem rfl rfl hrc hdcs hfms]
    generalize amparseqmixactionheader packet = parms at *
    generalize hp : qmparser _ parms.qmiinstanceid (.ofCode parms.amqmisvctype)
      (packet.drop amQmiRrnSz) = p at *
    have hpbusy : p.qmbusy = false := by
      rw [← hp, qmparser_qmbusy]
      exact hbusy
    have hpfree : (qmgetsizedbuf p parms.amqmixactionlen.toNat).mmfree ≠ [] := by
      simpa [qmgetsizedbuf, ← hp] using hfree
    cases hreg : (p.qmiclients (requestClient p parms)).registered with
    | true =>
        obtain ⟨m, -, hsend⟩ := qmprepareopen_of_free hpbusy hpfree
        exact ⟨m, [], by rw [qmpreparemdmreq_of_registered hp rfl hreg, hsend]⟩
    | false =>
        obtain ⟨hok, hinst⟩ := hopen.resolve_left (by simp [hreg])
        obtain ⟨m, -, hsend⟩ := @qmprepareopen_of_free (opened p (requestClient p parms)) parms
          (packet.drop amQmiRrnSz) ipcchan (requestClient p parms) hpbusy hpfree
        rw [hok, qmpreparemdmreq_of_opened hp rfl hreg hinst, hsend]
        exact ⟨m, _, rfl⟩
  · rintro ⟨m, out, h⟩
    obtain ⟨⟨hrc, hdcs, hfms⟩, hsend⟩ := qmprepare_send h rfl rfl
    have hbuilt : ∀ {t : QmTcb}, t.qmbusy = s.qmbusy → t.qmtxpool = s.qmtxpool →
        t.qmtxsmlpool = s.qmtxsmlpool →
        ∀ {client : QmiClient},
        qmbuildmdmreq t (amparseqmixactionheader packet) (packet.drop amQmiRrnSz) ipcchan client =
          some m →
        s.qmbusy = false ∧
          (qmgetsizedbuf s (amparseqmixactionheader packet).amqmixactionlen.toNat).mmfree ≠ [] := by
      intro t hbusy hlarge hsmall client hbuild
      obtain ⟨hidle, -, -, -, -, hlen, hget⟩ := qmbuildmdmreq_eq_some hbuild
      refine ⟨hbusy ▸ hidle, fun hnil => ?_⟩
      have hpool : qmgetsizedbuf t m.msglen = qmgetsizedbuf s m.msglen := by
        simp only [qmgetsizedbuf, hlarge, hsmall]
      rw [hpool, hlen, Mm.MmPool.mmbufget, hnil] at hget
      cases hget
    rcases qmpreparemdmreq_send rfl rfl hsend with ⟨hreg, hbuild⟩ | ⟨hopen, hbuild⟩
    · obtain ⟨hidle, hfree⟩ := hbuilt (by simp) (by simp) (by simp) hbuild
      exact ⟨hrc, hdcs, hfms, hidle, .inl hreg, hfree⟩
    · obtain ⟨hidle, hfree⟩ :=
        hbuilt (by simp [opened]) (by simp [opened]) (by simp [opened]) hbuild
      exact ⟨hrc, hdcs, hfms, hidle, .inr hopen, hfree⟩

end Sending

/-- The packets of a step agree with the record when their clients are known. -/
theorem agrees_iff (s : Option QmTcb) (event : QmEvent) :
    Agrees s event ↔ KnownClients s event := by
  cases s with
  | none => exact Iff.rfl
  | some s =>
      cases event with
      | qmiReq packet ipcchan env =>
          constructor
          · intro hagrees hreach
            obtain ⟨m, out, h⟩ := reachesModem_iff.mp hreach
            exact (sendAgrees_iff h).mp (hagrees m out h)
          · intro hknown m out h
            exact (sendAgrees_iff h).mpr (hknown (reachesModem_iff.mpr ⟨m, out, h⟩))
      | _ => exact Iff.rfl

/-- In a run, the client of every packet sent to the modem is the one recorded for its request,
with the transaction id just assigned to it, if and only if every request that reaches the
modem is for a known client. -/
theorem agrees_run_iff (events : List QmEvent) :
    Meets qmStep Agrees (some qminit) events ↔
      Meets qmStep KnownClients (some qminit) events :=
  ⟨Meets.mono fun s event => (agrees_iff s event).mp,
    Meets.mono fun s event => (agrees_iff s event).mpr⟩

/-- An application connects, sets the IP family of the first instance to IPv4 and, after the
response, starts a data session on the second instance. -/
def crossInstanceRun : List QmEvent :=
  connectEvents 0 ++
    [.qmiReq (requestPacket .wds 0 [77, 0, 4, 0, 1, 1, 0, 4]) 0 reqEnvOk,
      .rx 0 (.wds 0) [eQMIRES, 1, 0, 77, 0, 0, 0],
      .qmiReq (requestPacket .wds 1 [32, 0, 0, 0]) 0 reqEnvOk]

/-- The request is sent for the client of the first instance and recorded for the one of the
second. -/
theorem crossInstanceRun_disagrees : ¬ Meets qmStep Agrees (some qminit) crossInstanceRun := by
  intro h
  have hknown := h.mono fun s event => (agrees_iff s event).mp
  revert hknown
  decide +kernel

end Qm

end SierraSdk
