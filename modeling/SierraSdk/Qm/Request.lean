import SierraSdk.Qm.LocalServices
import SierraSdk.Qm.Parser

/-!
# Requests from the applications

`qmqmireq` checks a request, serves it locally or sends it to the modem. A request for the
modem goes through the parser, and its QMI client is opened if it is not; then it is recorded
as the outstanding request and copied, behind a control flag and a transaction id, to a send
buffer from one of two pools.

The client of the packet is the current WDS client for a WDS request and the client of the
service otherwise; the one that `qmsaverespinfo` records is computed anew.
-/

namespace SierraSdk

namespace Qm

open Am Ci Machine Mm

/-- What the driver and the local services contribute to a request. -/
structure ReqEnv where
  ioctlOk : Bool
  sendOk : Bool
  fms : FmsEnv

/-- The error of a request that cannot be served, `none` if it can. -/
def qmvalidaterequest (s : QmTcb) (parms : AmQmiRrParms) : EQCWWANError :=
  if qmisvc2qmiclnt_map parms.qmiinstanceid (.ofCode parms.amqmisvctype) = .unsupported then
    EQCWWANError.swicmQmiClntNotSupported
  else if s.qmidevicestate ≠ .ready then EQCWWANError.noDevice
  else if ¬ qmIsAppRegistered s s.qmipcchannel eQMIREQ then
    EQCWWANError.swidcsAppDisconnected
  else EQCWWANError.none

/-- DCS requests are not checked, and FMS requests only when the device is ready. -/
def requestError (s : QmTcb) (parms : AmQmiRrParms) (client : QmiClient) : EQCWWANError :=
  match s.qmidevicestate with
  | .disconnected | .bootReady | .serialOnly =>
      if client ≠ .fms ∧ client ≠ .dcs 0 then qmvalidaterequest s parms
      else EQCWWANError.none
  | .ready =>
      if client ≠ .dcs 0 then qmvalidaterequest s parms else EQCWWANError.none

/-- `DCSEVTPOOLSZ` -/
def dcsevtpoolsz : ℕ := 10

/-- Queue a request for the DCS task, with the transaction id just assigned to the DCS
client; running out of event blocks is an abort. -/
def qmsenddcsreq (s : QmTcb) (qmidcsmsg : List UInt8) (ipcchannel instanceid : UInt8) :
    Option QmTcb × List QmOut :=
  if s.qmdcsicmsgque.length < dcsevtpoolsz then
    let evt : QmDcsEvtBlock :=
      { qmdcsevtdata := qmidcsmsg
        qmdcsevtipcchan := ipcchannel
        xactionid := (s.qmiclients (.dcs 0)).xactionid
        instanceid := instanceid }
    (some { s with qmdcsicmsgque := s.qmdcsicmsgque ++ [evt] }, [.qmsenddcsreq evt])
  else (none, [.erAbort])

section Sending

/-- `QMTXSMLBUFSIZE` -/
def qmtxsmlbufsize : ℕ := 3 + 256

/-- The pool that the send buffer of a message comes from. -/
def qmgetsizedbuf (s : QmTcb) (msglen : ℕ) : MmPool :=
  if msglen ≠ 0 ∧ msglen < qmtxsmlbufsize then s.qmtxsmlpool else s.qmtxpool

/-- Keep the new state of that pool. -/
def setSizedPool (s : QmTcb) (msglen : ℕ) (pool : MmPool) : QmTcb :=
  if msglen ≠ 0 ∧ msglen < qmtxsmlbufsize then { s with qmtxsmlpool := pool }
  else { s with qmtxpool := pool }

/-- The packet for the modem: control flag, transaction id and QMI message, which is as long
as the preamble of the request says. -/
def mdmPacket (xactionid : UInt16) (parms : AmQmiRrParms) (inbuf : List UInt8) : List UInt8 :=
  eQMIREQ :: piput16 xactionid ++ inbuf.takeD parms.amqmixactionlen.toNat 0

/-- A packet about to be sent: the control block at that point, in which its request is
recorded, the client and channel it is sent for, and the buffer that holds it. -/
structure MdmSend where
  tcb : QmTcb
  client : QmiClient
  chanid : CiIpc
  packet : List UInt8
  msglen : ℕ
  sendbuf : ℕ
  pool : MmPool

/-- Record a request as the outstanding one and copy it to a send buffer for a client. -/
def qmbuildmdmreq (s : QmTcb) (parms : AmQmiRrParms) (inbuf : List UInt8) (ipcchan : UInt8)
    (client : QmiClient) : Option MdmSend :=
  match qmsaverespinfo s parms ipcchan with
  | none => none
  | some s =>
      match (qmgetsizedbuf s parms.amqmixactionlen.toNat).mmbufget with
      | none => none
      | some (sendbuf, pool) =>
          some
            { tcb := s
              client := client
              chanid := sendChannel parms.qmiinstanceid.toNat
              packet := mdmPacket (s.qmiclients client).xactionid parms inbuf
              msglen := parms.amqmixactionlen.toNat
              sendbuf := sendbuf
              pool := pool }

/-- Send a packet and free its buffer. If the packet cannot be sent, the application of the
first channel is told. A packet longer than its buffer has overwritten the header behind it,
and a buffer with a destroyed header cannot be freed. -/
def qmsendmdmreq (m : MdmSend) (sendOk : Bool) : Option QmTcb × List QmOut :=
  let send := QmOut.dssend m.chanid m.client m.packet sendOk
  let r :=
    if sendOk then (m.tcb, [send])
    else
      let t := qmshortresp m.tcb EQCWWANError.swidcsFileioErr (cigetchannelnum .qmrr1)
      (t.1, send :: t.2)
  match (m.pool.overrun m.sendbuf m.packet).bind fun pool => pool.mmbufrel m.sendbuf with
  | none => (none, r.2 ++ [.erAbort])
  | some pool => (some (setSizedPool r.1 m.msglen pool), r.2)

end Sending

/-- What a request comes to before anything is sent to the modem: it ends the daemon, it is
dealt with, or it is about to be sent. -/
inductive Prepared where
  | stopped
  | done (s : QmTcb)
  | send (m : MdmSend)

/-- The client used for a request to the modem, once the parser has seen it. -/
def requestClient (s : QmTcb) (parms : AmQmiRrParms) : QmiClient :=
  match EQmiService.ofCode parms.amqmisvctype with
  | .wds => s.activewdsclient
  | svc => qmisvc2qmiclnt_map parms.qmiinstanceid svc

/-- Prepare a request for the modem for an open client. -/
def qmprepareopen (s : QmTcb) (parms : AmQmiRrParms) (inbuf : List UInt8) (ipcchan : UInt8)
    (client : QmiClient) : Prepared × List QmOut :=
  match qmbuildmdmreq s parms inbuf ipcchan client with
  | none => (.stopped, [.erAbort])
  | some m => (.send m, [])

/-- Prepare a request for the modem. -/
def qmpreparemdmreq (s : QmTcb) (parms : AmQmiRrParms) (inbuf : List UInt8)
    (ipcchan : UInt8) (ioctlOk : Bool) : Prepared × List QmOut :=
  let s := qmparser s parms.qmiinstanceid (.ofCode parms.amqmisvctype) inbuf
  let client := requestClient s parms
  if (s.qmiclients client).registered then qmprepareopen s parms inbuf ipcchan client
  else
    match qmregister4qmisvc s parms.qmiinstanceid client ioctlOk with
    | (none, out) => (.stopped, out)
    | (some (s, true), out) =>
        let r := qmprepareopen s parms inbuf ipcchan client
        (r.1, out ++ r.2)
    | (some (s, false), out) =>
        let r := qmshortresp s EQCWWANError.swicmQmiSvcNotSupported s.qmipcchannel
        (.done r.1, out ++ r.2)

/-- A request that is dealt with without the modem. -/
def Prepared.ofLocal (r : Option QmTcb × List QmOut) : Prepared × List QmOut :=
  match r with
  | (none, out) => (.stopped, out)
  | (some s, out) => (.done s, out)

/-- Handle a request up to the point where it is sent to the modem, if it gets there. -/
def qmprepare (s : QmTcb) (packet : List UInt8) (ipcchan : UInt8) (env : ReqEnv) :
    Prepared × List QmOut :=
  let s := { s with qmipcchannel := ipcchan }
  let parms := amparseqmixactionheader packet
  let inbuf := packet.drop amQmiRrnSz
  let client := qmisvc2qmiclnt_map parms.qmiinstanceid (.ofCode parms.amqmisvctype)
  let rc := requestError s parms client
  if rc ≠ EQCWWANError.none then
    let r := qmshortresp s rc ipcchan
    (.done r.1, r.2)
  else if client = .dcs 0 then
    match qmsaverespinfo s parms ipcchan with
    | none => (.stopped, [.erAbort])
    | some s => Prepared.ofLocal (qmsenddcsreq s inbuf ipcchan parms.qmiinstanceid)
  else if client = .fms then
    match qmsaverespinfo s parms ipcchan with
    | none => (.stopped, [.erAbort])
    | some s => Prepared.ofLocal (qm_fms_handler s inbuf env.fms)
  else qmpreparemdmreq s parms inbuf ipcchan env.ioctlOk

/-- Send a prepared request to the modem, if it is for the modem. -/
def qmfinish (r : Prepared × List QmOut) (sendOk : Bool) : Option QmTcb × List QmOut :=
  match r with
  | (.stopped, out) => (none, out)
  | (.done s, out) => (some s, out)
  | (.send m, out) => ((qmsendmdmreq m sendOk).1, out ++ (qmsendmdmreq m sendOk).2)

/-- Handle a request that arrived on a channel. -/
def qmqmireq (s : QmTcb) (packet : List UInt8) (ipcchan : UInt8) (env : ReqEnv) :
    Option QmTcb × List QmOut :=
  qmfinish (qmprepare s packet ipcchan env) env.sendOk

section Cases

theorem qmvalidaterequest_eq_none {s : QmTcb} {parms : AmQmiRrParms}
    (h : qmvalidaterequest s parms = EQCWWANError.none) :
    qmisvc2qmiclnt_map parms.qmiinstanceid (.ofCode parms.amqmisvctype) ≠ .unsupported ∧
      s.qmidevicestate = .ready ∧ qmIsAppRegistered s s.qmipcchannel eQMIREQ = true := by
  unfold qmvalidaterequest at h
  split_ifs at h with hclient hready happ
  · exact absurd h (by decide)
  · exact absurd h (by decide)
  · exact ⟨hclient, not_not.mp hready, happ⟩
  · exact absurd h (by decide)

/-- A request that passes the checks and is not for a local service is for a client of the
modem, with the device ready and the application registered. -/
theorem requestError_eq_none {s : QmTcb} {parms : AmQmiRrParms} {client : QmiClient}
    (h : requestError s parms client = EQCWWANError.none) (hdcs : client ≠ .dcs 0)
    (hfms : client ≠ .fms) :
    qmisvc2qmiclnt_map parms.qmiinstanceid (.ofCode parms.amqmisvctype) ≠ .unsupported ∧
      s.qmidevicestate = .ready ∧ qmIsAppRegistered s s.qmipcchannel eQMIREQ = true := by
  unfold requestError at h
  split at h
  all_goals simp only [ne_eq, hdcs, hfms, not_false_eq_true, and_self, if_true] at h
  all_goals exact qmvalidaterequest_eq_none h

/-- What recording a request does to the control block. -/
def recorded (s : QmTcb) (parms : AmQmiRrParms) (ipcchan : UInt8) : QmTcb :=
  let client := qmsaverespinfoClient s parms
  { s with
    activeclient := client
    qmiclients := Function.update s.qmiclients client
      { s.qmiclients client with
        xactionid := qmisvcxactionidassign (s.qmiclients client).xactionid }
    qmbusy := true
    qmoperation := eQMIRES
    qmipcchannel := ipcchan
    qmmdmwaittmr := respTicks parms.amqmireqtimeout }

theorem qmsaverespinfo_eq (s : QmTcb) (parms : AmQmiRrParms) (ipcchan : UInt8) :
    qmsaverespinfo s parms ipcchan =
      if s.qmbusy then none else some (recorded s parms ipcchan) := rfl

/-- Recording a request registers nothing. -/
theorem recorded_registered (s : QmTcb) (parms : AmQmiRrParms) (ipcchan : UInt8)
    (c : QmiClient) :
    ((recorded s parms ipcchan).qmiclients c).registered = (s.qmiclients c).registered := by
  by_cases hc : c = qmsaverespinfoClient s parms
  · simp [recorded, hc]
  · simp [recorded, hc]

/-- A request is built only when none is outstanding; it is then the recorded one. -/
theorem qmbuildmdmreq_eq_some {s : QmTcb} {parms : AmQmiRrParms} {inbuf : List UInt8}
    {ipcchan : UInt8} {client : QmiClient} {m : MdmSend}
    (h : qmbuildmdmreq s parms inbuf ipcchan client = some m) :
    s.qmbusy = false ∧ m.tcb = recorded s parms ipcchan ∧ m.client = client ∧
      m.chanid = sendChannel parms.qmiinstanceid.toNat ∧
      m.packet = mdmPacket (m.tcb.qmiclients client).xactionid parms inbuf ∧
      m.msglen = parms.amqmixactionlen.toNat ∧
      (qmgetsizedbuf s m.msglen).mmbufget = some (m.sendbuf, m.pool) := by
  unfold qmbuildmdmreq at h
  rw [qmsaverespinfo_eq] at h
  cases hbusy : s.qmbusy with
  | true => simp [hbusy] at h
  | false =>
      simp only [hbusy, Bool.false_eq_true, if_false] at h
      cases hpool : (qmgetsizedbuf (recorded s parms ipcchan)
          parms.amqmixactionlen.toNat).mmbufget with
      | none => simp [hpool] at h
      | some blk =>
          simp only [hpool, Option.some.injEq] at h
          subst h
          exact ⟨rfl, rfl, rfl, rfl, rfl, rfl, hpool⟩

/-- Nothing is built only if a request is outstanding or there is no buffer. -/
theorem qmprepareopen_eq {s : QmTcb} {parms : AmQmiRrParms} {inbuf : List UInt8}
    {ipcchan : UInt8} {client : QmiClient} :
    qmprepareopen s parms inbuf ipcchan client = (.stopped, [.erAbort]) ∨
      ∃ m, qmbuildmdmreq s parms inbuf ipcchan client = some m ∧
        qmprepareopen s parms inbuf ipcchan client = (.send m, []) := by
  unfold qmprepareopen
  cases qmbuildmdmreq s parms inbuf ipcchan client with
  | none => exact .inl rfl
  | some m => exact .inr ⟨m, rfl, rfl⟩

section Modem

variable {s p : QmTcb} {parms : AmQmiRrParms} {inbuf : List UInt8} {ipcchan : UInt8}
  {ioctlOk : Bool} {client : QmiClient}
  (hp : qmparser s parms.qmiinstanceid (.ofCode parms.amqmisvctype) inbuf = p)
  (hclient : requestClient p parms = client)

include hp hclient

theorem qmpreparemdmreq_of_registered (hreg : (p.qmiclients client).registered = true) :
    qmpreparemdmreq s parms inbuf ipcchan ioctlOk =
      qmprepareopen p parms inbuf ipcchan client := by
  simp only [qmpreparemdmreq, hp, hclient, hreg, if_true]

theorem qmpreparemdmreq_of_opened (hreg : (p.qmiclients client).registered = false)
    (hinst : parms.qmiinstanceid.toNat < qmMaxQmiInstSupported) :
    qmpreparemdmreq s parms inbuf ipcchan true =
      ((qmprepareopen (opened p client) parms inbuf ipcchan client).1,
        .dsioctl (registerChannel parms.qmiinstanceid.toNat) client client.svctype true ::
          (qmprepareopen (opened p client) parms inbuf ipcchan client).2) := by
  simp only [qmpreparemdmreq, hp, hclient, hreg, Bool.false_eq_true, if_false,
    qmregister4qmisvc_eq, if_true, hinst, List.cons_append, List.nil_append]

theorem qmpreparemdmreq_of_no_shell (hreg : (p.qmiclients client).registered = false)
    (hinst : ¬ parms.qmiinstanceid.toNat < qmMaxQmiInstSupported) :
    qmpreparemdmreq s parms inbuf ipcchan true =
      (.stopped,
        [.dsioctl (registerChannel parms.qmiinstanceid.toNat) client client.svctype true]) := by
  simp only [qmpreparemdmreq, hp, hclient, hreg, Bool.false_eq_true, if_false,
    qmregister4qmisvc_eq, if_true, hinst]

theorem qmpreparemdmreq_of_refused (hreg : (p.qmiclients client).registered = false) :
    qmpreparemdmreq s parms inbuf ipcchan false =
      (.done (qmclearrespinfo { p with activewdsclient := p.prevactivewdsclient }),
        [.dsioctl (registerChannel parms.qmiinstanceid.toNat) client client.svctype false,
          .amsdkSend p.qmipcchannel (shortMsg EQCWWANError.swicmQmiSvcNotSupported)]) := by
  simp only [qmpreparemdmreq, hp, hclient, hreg, Bool.false_eq_true, if_false,
    qmregister4qmisvc_eq, qmshortresp, List.cons_append, List.nil_append]

/-- A request about to be sent was built for an open client, or for one just opened. -/
theorem qmpreparemdmreq_send {m : MdmSend} {out : List QmOut}
    (h : qmpreparemdmreq s parms inbuf ipcchan ioctlOk = (.send m, out)) :
    ((p.qmiclients client).registered = true ∧
        qmbuildmdmreq p parms inbuf ipcchan client = some m) ∨
      ((ioctlOk = true ∧ parms.qmiinstanceid.toNat < qmMaxQmiInstSupported) ∧
        qmbuildmdmreq (opened p client) parms inbuf ipcchan client = some m) := by
  have hopen : ∀ {t : QmTcb},
      (qmprepareopen t parms inbuf ipcchan client).1 = .send m →
        qmbuildmdmreq t parms inbuf ipcchan client = some m := by
    intro t ht
    rcases @qmprepareopen_eq t parms inbuf ipcchan client with hstop | ⟨m', hbuild, hsend⟩
    · rw [hstop] at ht
      cases ht
    · rw [hsend] at ht
      rw [hbuild, Prepared.send.inj ht]
  cases hreg : (p.qmiclients client).registered with
  | true =>
      rw [qmpreparemdmreq_of_registered hp hclient hreg] at h
      exact .inl ⟨rfl, hopen (congrArg Prod.fst h)⟩
  | false =>
      cases ioctlOk with
      | false =>
          rw [qmpreparemdmreq_of_refused hp hclient hreg] at h
          cases congrArg Prod.fst h
      | true =>
          by_cases hinst : parms.qmiinstanceid.toNat < qmMaxQmiInstSupported
          · rw [qmpreparemdmreq_of_opened hp hclient hreg hinst] at h
            exact .inr ⟨⟨rfl, hinst⟩, hopen (congrArg Prod.fst h)⟩
          · rw [qmpreparemdmreq_of_no_shell hp hclient hreg hinst] at h
            cases congrArg Prod.fst h

end Modem

/-- A request that reaches the modem passed the checks and is not for a local service. -/
theorem qmprepare_send {s : QmTcb} {packet : List UInt8} {ipcchan : UInt8} {env : ReqEnv}
    {m : MdmSend} {out : List QmOut} (h : qmprepare s packet ipcchan env = (.send m, out))
    {parms : AmQmiRrParms} (hparms : amparseqmixactionheader packet = parms)
    {client : QmiClient}
    (hclient : qmisvc2qmiclnt_map parms.qmiinstanceid (.ofCode parms.amqmisvctype) = client) :
    (requestError { s with qmipcchannel := ipcchan } parms client = EQCWWANError.none ∧
        client ≠ .dcs 0 ∧ client ≠ .fms) ∧
      qmpreparemdmreq { s with qmipcchannel := ipcchan } parms (packet.drop amQmiRrnSz) ipcchan
        env.ioctlOk = (.send m, out) := by
  have hlocal : ∀ r : Option QmTcb × List QmOut, (Prepared.ofLocal r).1 ≠ .send m := by
    rintro ⟨_ | _, _⟩ <;> simp [Prepared.ofLocal]
  have hrecord : ∀ (r : Option QmTcb) (f : QmTcb → Option QmTcb × List QmOut),
      (match r with
        | none => (Prepared.stopped, [QmOut.erAbort])
        | some s => Prepared.ofLocal (f s)) ≠ (.send m, out) := by
    rintro (_ | t) f heq
    · simp at heq
    · exact hlocal (f t) (congrArg Prod.fst heq)
  unfold qmprepare at h
  simp only [hparms, hclient] at h
  split_ifs at h with hrc hdcs hfms
  · cases congrArg Prod.fst h
  · exact absurd h (hrecord _ _)
  · exact absurd h (hrecord _ _)
  · exact ⟨⟨not_not.mp hrc, hdcs, hfms⟩, h⟩

/-- Apart from the record, a request for the modem needs a buffer. -/
theorem qmprepareopen_of_free {s : QmTcb} {parms : AmQmiRrParms} {inbuf : List UInt8}
    {ipcchan : UInt8} {client : QmiClient} (hbusy : s.qmbusy = false)
    (hfree : (qmgetsizedbuf s parms.amqmixactionlen.toNat).mmfree ≠ []) :
    ∃ m, qmbuildmdmreq s parms inbuf ipcchan client = some m ∧
      qmprepareopen s parms inbuf ipcchan client = (.send m, []) := by
  obtain ⟨blk, free, heq⟩ := List.exists_cons_of_ne_nil hfree
  have hget : (qmgetsizedbuf (recorded s parms ipcchan)
      parms.amqmixactionlen.toNat).mmbufget =
        some (blk, { qmgetsizedbuf s parms.amqmixactionlen.toNat with mmfree := free }) := by
    have hsame : qmgetsizedbuf (recorded s parms ipcchan) parms.amqmixactionlen.toNat =
        qmgetsizedbuf s parms.amqmixactionlen.toNat := rfl
    rw [hsame, MmPool.mmbufget, heq]
  unfold qmprepareopen qmbuildmdmreq
  simp only [qmsaverespinfo_eq, hbusy, Bool.false_eq_true, if_false, hget]
  exact ⟨_, rfl, rfl⟩

/-- A request that passed the checks and is not for a local service. -/
theorem qmprepare_of_modem {s : QmTcb} {packet : List UInt8} {ipcchan : UInt8} {env : ReqEnv}
    {parms : AmQmiRrParms} (hparms : amparseqmixactionheader packet = parms)
    {client : QmiClient}
    (hclient : qmisvc2qmiclnt_map parms.qmiinstanceid (.ofCode parms.amqmisvctype) = client)
    (hrc : requestError { s with qmipcchannel := ipcchan } parms client = EQCWWANError.none)
    (hdcs : client ≠ .dcs 0) (hfms : client ≠ .fms) :
    qmprepare s packet ipcchan env =
      qmpreparemdmreq { s with qmipcchannel := ipcchan } parms (packet.drop amQmiRrnSz) ipcchan
        env.ioctlOk := by
  simp only [qmprepare, hparms, hclient, hrc, hdcs, hfms, ne_eq, not_true_eq_false, if_false]

section Rules

variable {P : Option QmTcb × List QmOut → Prop} {s : QmTcb} {ipcchan : UInt8} {env : ReqEnv}

/-- What holds of the ways a request for the modem can go, holds of the request. -/
theorem qmpreparemdmreq_rule {parms : AmQmiRrParms} {inbuf : List UInt8} {p : QmTcb}
    {client : QmiClient} {sendOk : Bool}
    (hp : qmparser s parms.qmiinstanceid (.ofCode parms.amqmisvctype) inbuf = p)
    (hclient : requestClient p parms = client)
    (hopen : (p.qmiclients client).registered = true →
      P (qmfinish (qmprepareopen p parms inbuf ipcchan client) sendOk))
    (hopened : (p.qmiclients client).registered = false → env.ioctlOk = true →
      parms.qmiinstanceid.toNat < qmMaxQmiInstSupported →
        P (andThen
          (some (opened p client),
            [.dsioctl (registerChannel parms.qmiinstanceid.toNat) client client.svctype true])
          fun t => qmfinish (qmprepareopen t parms inbuf ipcchan client) sendOk))
    (hshell : (p.qmiclients client).registered = false → env.ioctlOk = true →
      ¬ parms.qmiinstanceid.toNat < qmMaxQmiInstSupported →
        P (none,
          [.dsioctl (registerChannel parms.qmiinstanceid.toNat) client client.svctype true]))
    (hrefused : (p.qmiclients client).registered = false → env.ioctlOk = false →
      P (some (qmclearrespinfo { p with activewdsclient := p.prevactivewdsclient }),
        [.dsioctl (registerChannel parms.qmiinstanceid.toNat) client client.svctype false,
          .amsdkSend s.qmipcchannel (shortMsg EQCWWANError.swicmQmiSvcNotSupported)])) :
    P (qmfinish (qmpreparemdmreq s parms inbuf ipcchan env.ioctlOk) sendOk) := by
  cases hreg : (p.qmiclients client).registered with
  | true =>
      rw [qmpreparemdmreq_of_registered hp hclient hreg]
      exact hopen hreg
  | false =>
      cases hok : env.ioctlOk with
      | false =>
          rw [qmpreparemdmreq_of_refused hp hclient hreg]
          have hchan : p.qmipcchannel = s.qmipcchannel := by rw [← hp, qmparser_qmipcchannel]
          rw [hchan]
          exact hrefused hreg hok
      | true =>
          by_cases hinst : parms.qmiinstanceid.toNat < qmMaxQmiInstSupported
          · rw [qmpreparemdmreq_of_opened hp hclient hreg hinst]
            have hthen := hopened hreg hok hinst
            simp only [andThen] at hthen
            rcases @qmprepareopen_eq (opened p client) parms inbuf ipcchan client with
              hstop | ⟨m, -, hsend⟩
            · rw [hstop] at hthen ⊢
              exact hthen
            · rw [hsend] at hthen ⊢
              exact hthen
          · rw [qmpreparemdmreq_of_no_shell hp hclient hreg hinst]
            exact hshell hreg hok hinst

/-- What holds of the ways a request can go, holds of the request. -/
theorem qmqmireq_rule {packet : List UInt8} {parms : AmQmiRrParms} {client : QmiClient}
    {t : QmTcb} (ht : { s with qmipcchannel := ipcchan } = t)
    (hparms : amparseqmixactionheader packet = parms)
    (hclient : qmisvc2qmiclnt_map parms.qmiinstanceid (.ofCode parms.amqmisvctype) = client)
    (hreject : ∀ rc, rc ≠ EQCWWANError.none → requestError t parms client = rc →
      P (some (qmclearrespinfo t), [.amsdkSend ipcchan (shortMsg rc)]))
    (hbusy : s.qmbusy = true → P (none, [.erAbort]))
    (hdcs : requestError t parms client = EQCWWANError.none → s.qmbusy = false →
      client = .dcs 0 →
      P (qmsenddcsreq (recorded t parms ipcchan) (packet.drop amQmiRrnSz) ipcchan
        parms.qmiinstanceid))
    (hfms : requestError t parms client = EQCWWANError.none → s.qmbusy = false →
      client = .fms →
      P (qm_fms_handler (recorded t parms ipcchan) (packet.drop amQmiRrnSz) env.fms))
    (hmodem : requestError t parms client = EQCWWANError.none → client ≠ .dcs 0 →
      client ≠ .fms → P (qmfinish
        (qmpreparemdmreq t parms (packet.drop amQmiRrnSz) ipcchan env.ioctlOk) env.sendOk)) :
    P (qmqmireq s packet ipcchan env) := by
  have hlocal : ∀ r : Option QmTcb × List QmOut,
      qmfinish (Prepared.ofLocal r) env.sendOk = r := by
    rintro ⟨_ | _, _⟩ <;> rfl
  have hidle : t.qmbusy = s.qmbusy := by rw [← ht]
  simp only [qmqmireq, qmprepare, ht, hparms, hclient, qmsaverespinfo_eq, hidle]
  split_ifs with hrc hd hb hf hb
  · exact hreject _ hrc rfl
  · exact hbusy hb
  · rw [hlocal]
    exact hdcs (not_not.mp hrc) (by simpa using hb) hd
  · exact hbusy hb
  · rw [hlocal]
    exact hfms (not_not.mp hrc) (by simpa using hb) hf
  · exact hmodem (not_not.mp hrc) hd hf

end Rules

end Cases

end Qm

end SierraSdk
