import SierraSdk.Sdk.Packet

/-!
# CnS requests and the responses of the modem

The CnS task sends the requests of the applications to the modem, one at a time. It keeps the
object and the operation that the response must have, and the channel that a timeout is reported
on; `cncnship` forwards a response that validates to the channel in its application parameter,
which the modem has copied from the request.

`CnNet` is the task together with what was sent to the modem, which may answer any of it at any
time. A response validates by its object and operation only, so the late one of a request that
timed out is taken for the response to a later request of the same kind: `Timely` says that this
does not happen, and `answersOutstanding_iff` that nothing else goes wrong.
-/

namespace SierraSdk

namespace Sdk

open Machine

section Task

/-- The outstanding request: what the response to it must have, and its channel. -/
structure CnsWData where
  cnsbusy : Bool
  cnsobjid : UInt16
  cnsoperation : UInt8
  cnsipcchannel : UInt8
  deriving DecidableEq

/-- The control block of the task, with the ticks that are left to wait. -/
structure CnRrTcb where
  cnswdata : CnsWData
  cnmdmwaittmr : ℕ
  deriving DecidableEq

/-- What the task does to the outside. -/
inductive CnOut where
  | hpTxPacket (packet : List UInt8)
  | amsdkSend (ipcchannel : UInt8) (packet : List UInt8)
  | amsdkSendcnsnot (cnsobjid : UInt16) (packet : List UInt8)
  | erAbort
  deriving DecidableEq

/-- The control block at the start. -/
def cninit : CnRrTcb := ⟨⟨false, 0, 0, 0⟩, 0⟩

/-- `ICTTTICK`, the milliseconds of a tick. -/
def icttTick : ℕ := 100

/-- The operations that requests have, with those of the responses to them. -/
def cnsExpectedOp (cnsoperation : UInt8) : Option UInt8 :=
  match cnsoperation.toNat with
  | 0x01 => some 0x02
  | 0x03 => some 0x04
  | 0x05 => some 0x06
  | 0x08 => some 0x09
  | 0x0a => some 0x0b
  | _ => none

/-- Forget the outstanding request. -/
def cnsClearRespInfo : CnRrTcb := ⟨⟨false, 0, 0, 0xff⟩, 0⟩

/-- Record a request as the outstanding one. A second one, or one with an operation that is none
of a request, is an abort. -/
def cnsSaveRespInfo (s : CnRrTcb) (cnsobjid : UInt16) (cnsoperation : UInt8) (timeout : ℕ)
    (cnsparameter : UInt32) : Option CnRrTcb :=
  if s.cnswdata.cnsbusy then none
  else
    (cnsExpectedOp cnsoperation).map fun expectedop =>
      ⟨⟨true, cnsobjid, expectedop, cnsparameter.toUInt8⟩, timeout / icttTick + 1⟩

/-- A response that consists of a result code. -/
def cnShortResp (resultcode : UInt8) (ipcchannel : UInt8) : List CnOut :=
  [.amsdkSend ipcchannel (ambuildcnsresponse resultcode ⟨0, 0, 0, 0, false⟩)]

/-- Whether a response is the awaited one; if so, the outstanding request is forgotten. -/
def cnsValidateResponse (s : CnRrTcb) (cnsobjid : UInt16) (cnsoperation : UInt8) :
    CnRrTcb × Bool :=
  if s.cnswdata.cnsbusy ∧ s.cnswdata.cnsobjid = cnsobjid ∧
      s.cnswdata.cnsoperation = cnsoperation then (cnsClearRespInfo, true)
  else (s, false)

/-- Send a request of an application to the modem. -/
def cncnsreq (s : CnRrTcb) (packet : List UInt8) : Option CnRrTcb × List CnOut :=
  let cnsparm := amparsecnsrequest packet
  match cnsSaveRespInfo s cnsparm.amcnsobjid cnsparm.amcnsoperation cnsparm.amcnstimeout.toNat
      cnsparm.amcnsparameter with
  | none => (none, [.erAbort])
  | some s =>
      (some s,
        [.hpTxPacket
          (cnsBuildHeader cnsparm.amcnsobjid cnsparm.amcnsoperation cnsparm.amcnsparameter
              cnsparm.amcnslength ++
            (packet.drop amCnsReqSz).takeD cnsparm.amcnslength.toNat 0)])

/-- The packet for the application: an error text gets a terminating zero. -/
def cnsResponsePacket (cnsargs : CnsHeader) (cnsresp : List UInt8) : List UInt8 :=
  let field := cnsresp.takeD cnsargs.cnslength.toNat 0
  let cnslength := if cnsargs.cnserrflag then cnsargs.cnslength + 1 else cnsargs.cnslength
  let amresultcode := if cnsargs.cnserrflag then AmResult.cnsError else AmResult.success
  let outipcsize := amCnsRespTotal + cnslength
  (ambuildcnsresponse amresultcode { cnsargs with cnslength := cnslength } ++
    (field ++ [0])).takeD outipcsize.toNat 0

/-- A response of the modem: it is forwarded if it validates, and dropped if not. -/
def cncnship (s : CnRrTcb) (cnspacket : List UInt8) : CnRrTcb × List CnOut :=
  let cnsargs := cnsParseHeader cnspacket
  let v := cnsValidateResponse s cnsargs.cnsobjid cnsargs.cnsoperation
  if v.2 then
    (v.1, [.amsdkSend cnsargs.cnsparameter.toUInt8
      (cnsResponsePacket cnsargs (cnspacket.drop cnsHeaderSz))])
  else (v.1, [])

/-- The modem has not answered in time. -/
def cnmdmtimeout (ipcchannel : UInt8) : CnRrTcb × List CnOut :=
  (cnsClearRespInfo, cnShortResp AmResult.timeout ipcchannel)

def cntick (s : CnRrTcb) : CnRrTcb × List CnOut :=
  if s.cnmdmwaittmr = 0 then (s, [])
  else if s.cnmdmwaittmr - 1 = 0 then cnmdmtimeout s.cnswdata.cnsipcchannel
  else ({ s with cnmdmwaittmr := s.cnmdmwaittmr - 1 }, [])

/-- The operation of a packet of the modem; `none` is an abort. -/
def cnsreadoptype (cnshdr : List UInt8) : Option UInt8 :=
  let optype := cnshdr.getD 2 0 &&& cnsOperationMask
  if 0x01 ≤ optype ∧ optype < 0x0c then some optype else none

/-- The packet of a notification for the applications. -/
def cnsNotifyPacket (cnsargs : CnsHeader) (cnsresp : List UInt8) : List UInt8 :=
  let outipcsize := amCnsNotfTotal + cnsargs.cnslength
  (ambuildcnsnotify cnsargs ++ cnsresp).takeD outipcsize.toNat 0

/-- A packet of the modem: notifications go another way than responses. -/
def cnRxPacket (s : CnRrTcb) (cnshdr : List UInt8) : Option CnRrTcb × List CnOut :=
  match cnsreadoptype cnshdr with
  | none => (none, [.erAbort])
  | some optype =>
      if optype = 0x07 then
        (some s, [.amsdkSendcnsnot (cnsParseHeader cnshdr).cnsobjid
          (cnsNotifyPacket (cnsParseHeader cnshdr) (cnshdr.drop cnsHeaderSz))])
      else
        let r := cncnship s cnshdr
        (some r.1, r.2)

/-- The messages of the task. -/
inductive CnInput where
  | ipcMsg (packet : List UInt8)
  | hpMsg (cnshdr : List UInt8)
  | tmrTick

/-- Handle a message. -/
def cnrrtask (s : CnRrTcb) : CnInput → Option CnRrTcb × List CnOut
  | .ipcMsg packet => cncnsreq s packet
  | .hpMsg cnshdr => cnRxPacket s cnshdr
  | .tmrTick =>
      let r := cntick s
      (some r.1, r.2)

end Task

section Net

/-- A request that was sent to the modem, with the channel that it arrived on. -/
structure CnsCall where
  ipcchan : UInt8
  packet : List UInt8
  deriving DecidableEq

/-- The task, if it was not aborted, and what was sent to the modem. -/
structure CnNet where
  tcb : Option CnRrTcb
  log : List CnsCall

/-- A request of an application on its channel, the response of the modem to the request at a
position of the log, another packet of the modem, and a tick. -/
inductive CnEvent where
  | request (parms : AmCnsRrParms) (field : List UInt8) (ipcchan : UInt8)
  | response (n : ℕ) (errflag : Bool) (field : List UInt8)
  | packet (cnshdr : List UInt8)
  | tick

/-- The request that an application sends: the channel is its parameter. -/
def requestPacket (parms : AmCnsRrParms) (field : List UInt8) (ipcchan : UInt8) : List UInt8 :=
  (ambuildcnsrequest { parms with amcnsparameter := ipcchan.toUInt32 }).drop amHeaderSz ++ field

/-- The response of the modem to a request: its object and parameter, and the operation of the
response. -/
def CnsCall.response (call : CnsCall) (errflag : Bool) (field : List UInt8) : List UInt8 :=
  let header := cnsParseHeader call.packet
  CnsHeader.bytes
    { cnsobjid := header.cnsobjid
      cnsoperation := (cnsExpectedOp header.cnsoperation).getD 0
      cnsparameter := header.cnsparameter
      cnslength := field.length.toUInt16
      cnserrflag := errflag } ++ field

/-- What the task sees of an event; there is no response if nothing was sent. -/
def CnEvent.seen (log : List CnsCall) : CnEvent → Option CnInput
  | .request parms field ipcchan => some (.ipcMsg (requestPacket parms field ipcchan))
  | .response n errflag field => log[n]?.map fun call => .hpMsg (call.response errflag field)
  | .packet cnshdr => some (.hpMsg cnshdr)
  | .tick => some .tmrTick

/-- The requests among the outputs. -/
def sentCalls (ipcchan : UInt8) (out : List CnOut) : List CnsCall :=
  out.filterMap fun
    | .hpTxPacket packet => some ⟨ipcchan, packet⟩
    | _ => none

/-- The channel of an event. -/
def CnEvent.ipcchan : CnEvent → UInt8
  | .request _ _ ipcchan => ipcchan
  | _ => 0

/-- A step of the task and the modem. -/
def cnNetStep (net : CnNet) (e : CnEvent) : CnNet × List CnOut :=
  match net.tcb, e.seen net.log with
  | some s, some input =>
      let r := cnrrtask s input
      (⟨r.1, net.log ++ sentCalls e.ipcchan r.2⟩, r.2)
  | _, _ => (net, [])

/-- The network at the start. -/
def cnNetInit : CnNet := ⟨some cninit, []⟩

/-- The request at a position of the log is the outstanding one. -/
def CnNet.Outstanding (net : CnNet) (n : ℕ) : Prop :=
  (∃ s, net.tcb = some s ∧ s.cnswdata.cnsbusy = true) ∧ n + 1 = net.log.length

/-- A packet of the modem that is forwarded is the response to the outstanding request and goes to
its channel; one that does not validate changes nothing. -/
structure AnswersOutstanding (net : CnNet) (e : CnEvent) : Prop where
  forwarded : ∀ s cnshdr channel msg, net.tcb = some s → e.seen net.log = some (.hpMsg cnshdr) →
    CnOut.amsdkSend channel msg ∈ (cnRxPacket s cnshdr).2 →
      ∃ n errflag field call, e = .response n errflag field ∧ net.log[n]? = some call ∧
        net.Outstanding n ∧ channel = call.ipcchan
  dropped : ∀ s cnshdr, net.tcb = some s → e.seen net.log = some (.hpMsg cnshdr) →
    (cnsValidateResponse s (cnsParseHeader cnshdr).cnsobjid
      (cnsParseHeader cnshdr).cnsoperation).2 = false → cncnship s cnshdr = (s, [])

/-- While a request is outstanding, a packet with the object and the operation of the response to
it is its response. -/
def Timely (net : CnNet) (e : CnEvent) : Prop :=
  ∀ s, net.tcb = some s → s.cnswdata.cnsbusy = true →
    match e with
    | .response n _ _ => ∀ call, net.log[n]? = some call →
        (cnsParseHeader call.packet).cnsobjid = s.cnswdata.cnsobjid →
          cnsExpectedOp (cnsParseHeader call.packet).cnsoperation =
            some s.cnswdata.cnsoperation → n + 1 = net.log.length
    | .packet cnshdr => ¬ ((cnsParseHeader cnshdr).cnsobjid = s.cnswdata.cnsobjid ∧
        (cnsParseHeader cnshdr).cnsoperation = s.cnswdata.cnsoperation)
    | _ => True

end Net

section Task

variable {s t : CnRrTcb} {cnshdr : List UInt8} {operation expectedop : UInt8}

/-- The operations of requests and responses leave the error flag, and those of responses are not
the one of a notification. -/
theorem cnsExpectedOp_spec (h : cnsExpectedOp operation = some expectedop) :
    (operation &&& cnsOperationMask = operation ∧ expectedop &&& cnsOperationMask = expectedop) ∧
      0x01 ≤ expectedop ∧ expectedop < 0x0c ∧ expectedop ≠ 0x07 := by
  have hoperation : UInt8.ofNat operation.toNat = operation := UInt8.ofNat_toNat
  unfold cnsExpectedOp at h
  split at h
  next h1 => rw [← hoperation, h1, ← Option.some.inj h]; decide
  next h3 => rw [← hoperation, h3, ← Option.some.inj h]; decide
  next h5 => rw [← hoperation, h5, ← Option.some.inj h]; decide
  next h8 => rw [← hoperation, h8, ← Option.some.inj h]; decide
  next ha => rw [← hoperation, ha, ← Option.some.inj h]; decide
  next => cases h

theorem cnsreadoptype_of_expected (h : cnsExpectedOp operation = some expectedop)
    (hop : (cnsParseHeader cnshdr).cnsoperation = expectedop) :
    cnsreadoptype cnshdr = some expectedop := by
  obtain ⟨-, hle, hlt, -⟩ := cnsExpectedOp_spec h
  have hbyte : cnshdr.getD 2 0 &&& cnsOperationMask = expectedop := hop
  simp only [cnsreadoptype, hbyte, hle, hlt, and_self, if_true]

theorem cncnship_eq (s : CnRrTcb) (cnshdr : List UInt8) :
    cncnship s cnshdr =
      if s.cnswdata.cnsbusy ∧ s.cnswdata.cnsobjid = (cnsParseHeader cnshdr).cnsobjid ∧
          s.cnswdata.cnsoperation = (cnsParseHeader cnshdr).cnsoperation then
        (cnsClearRespInfo, [.amsdkSend (cnsParseHeader cnshdr).cnsparameter.toUInt8
          (cnsResponsePacket (cnsParseHeader cnshdr) (cnshdr.drop cnsHeaderSz))])
      else (s, []) := by
  simp only [cncnship, cnsValidateResponse]
  by_cases hvalid : s.cnswdata.cnsbusy = true ∧
      s.cnswdata.cnsobjid = (cnsParseHeader cnshdr).cnsobjid ∧
        s.cnswdata.cnsoperation = (cnsParseHeader cnshdr).cnsoperation
  · simp only [if_pos hvalid, if_true]
  · simp only [if_neg hvalid, Bool.false_eq_true, if_false]

/-- A packet of the modem is forwarded if it is no notification and validates. -/
theorem mem_cnRxPacket_iff (s : CnRrTcb) (cnshdr : List UInt8) {channel : UInt8}
    {msg : List UInt8} :
    CnOut.amsdkSend channel msg ∈ (cnRxPacket s cnshdr).2 ↔
      (∃ optype, cnsreadoptype cnshdr = some optype ∧ optype ≠ 0x07) ∧
        (s.cnswdata.cnsbusy = true ∧
          s.cnswdata.cnsobjid = (cnsParseHeader cnshdr).cnsobjid ∧
            s.cnswdata.cnsoperation = (cnsParseHeader cnshdr).cnsoperation) ∧
          channel = (cnsParseHeader cnshdr).cnsparameter.toUInt8 ∧
            msg = cnsResponsePacket (cnsParseHeader cnshdr) (cnshdr.drop cnsHeaderSz) := by
  unfold cnRxPacket
  cases hoptype : cnsreadoptype cnshdr with
  | none => simp
  | some optype =>
      by_cases hnotify : optype = 0x07
      · simp [hnotify]
      · simp only [hnotify, if_false, cncnship_eq]
        split_ifs with hvalid
        · simp [hvalid, hnotify]
        · simp [hvalid]

/-- What is not a request leaves the outstanding one, or forgets it, and sends nothing to the
modem. -/
theorem cnrrtask_other {input : CnInput} (hinput : ∀ packet, input ≠ .ipcMsg packet) :
    (∀ t, (cnrrtask s input).1 = some t → t.cnswdata.cnsbusy = true →
      t.cnswdata = s.cnswdata) ∧ ∀ ipcchan, sentCalls ipcchan (cnrrtask s input).2 = [] := by
  have hclear : cnsClearRespInfo.cnswdata.cnsbusy ≠ true := Bool.false_ne_true
  cases input with
  | ipcMsg packet => exact absurd rfl (hinput packet)
  | hpMsg cnshdr =>
      simp only [cnrrtask, cnRxPacket, cncnship_eq]
      split
      · exact ⟨fun t ht => absurd ht (Option.some_ne_none t).symm, fun _ => rfl⟩
      · split_ifs
        all_goals
          refine ⟨fun t ht hbusy => ?_, fun _ => rfl⟩
          obtain rfl := Option.some.inj ht
        · rfl
        · exact absurd hbusy hclear
        · rfl
  | tmrTick =>
      simp only [cnrrtask, cntick, cnmdmtimeout]
      split_ifs
      all_goals
        refine ⟨fun t ht hbusy => ?_, fun _ => rfl⟩
        obtain rfl := Option.some.inj ht
      · rfl
      · exact absurd hbusy hclear
      · rfl

/-- What a request leaves behind. -/
theorem cncnsreq_some {parms : AmCnsRrParms} {field : List UInt8} {ipcchan : UInt8}
    (ht : (cncnsreq s (requestPacket parms field ipcchan)).1 = some t) :
    ∃ call : CnsCall, sentCalls ipcchan (cncnsreq s (requestPacket parms field ipcchan)).2 =
        [call] ∧ call.ipcchan = ipcchan ∧
      (cnsParseHeader call.packet).cnsparameter = ipcchan.toUInt32 ∧
        t.cnswdata.cnsobjid = (cnsParseHeader call.packet).cnsobjid ∧
          cnsExpectedOp (cnsParseHeader call.packet).cnsoperation =
            some t.cnswdata.cnsoperation := by
  have hparse : amparsecnsrequest (requestPacket parms field ipcchan) =
      { parms with amcnsparameter := ipcchan.toUInt32 } := amparsecnsrequest_build _ _
  unfold cncnsreq at ht ⊢
  simp only [hparse] at ht ⊢
  generalize hsave : cnsSaveRespInfo s parms.amcnsobjid parms.amcnsoperation
    parms.amcnstimeout.toNat ipcchan.toUInt32 = saved at ht ⊢
  cases saved with
  | none => exact absurd ht (Option.some_ne_none t).symm
  | some u =>
      obtain rfl := Option.some.inj ht
      unfold cnsSaveRespInfo at hsave
      split_ifs at hsave
      obtain ⟨expectedop, hexpected, rfl⟩ := Option.map_eq_some_iff.mp hsave
      refine ⟨_, rfl, rfl, ?_, ?_, ?_⟩
      · rw [cnsParseHeader_build]
      · rw [cnsParseHeader_build]
      · rw [cnsParseHeader_build, (cnsExpectedOp_spec hexpected).1.1, hexpected]

end Task

section Net

variable {net : CnNet} {e : CnEvent}

/-- The log tells which request is the outstanding one. -/
structure CnKnown (net : CnNet) : Prop where
  calls : ∀ call ∈ net.log,
    (cnsParseHeader call.packet).cnsparameter = call.ipcchan.toUInt32 ∧
      ∃ expectedop, cnsExpectedOp (cnsParseHeader call.packet).cnsoperation = some expectedop
  last : ∀ s, net.tcb = some s → s.cnswdata.cnsbusy = true →
    ∃ call, net.log.getLast? = some call ∧
      s.cnswdata.cnsobjid = (cnsParseHeader call.packet).cnsobjid ∧
        cnsExpectedOp (cnsParseHeader call.packet).cnsoperation = some s.cnswdata.cnsoperation

theorem cnKnown_init : CnKnown cnNetInit :=
  ⟨fun _ hcall => absurd hcall List.not_mem_nil, fun s hs hbusy => by
    obtain rfl := Option.some.inj hs
    exact absurd hbusy Bool.false_ne_true⟩

theorem CnKnown.step (h : CnKnown net) (e : CnEvent) : CnKnown (cnNetStep net e).1 := by
  unfold cnNetStep
  split
  next s input hs hseen =>
    simp only
    by_cases hinput : ∀ packet, input ≠ .ipcMsg packet
    · obtain ⟨hkept, hnone⟩ := cnrrtask_other (s := s) hinput
      rw [hnone, List.append_nil]
      refine ⟨h.calls, fun t ht hbusy => ?_⟩
      have hsame := hkept t ht hbusy
      rw [hsame] at hbusy ⊢
      exact h.last s hs hbusy
    · obtain ⟨packet, rfl⟩ : ∃ packet, input = .ipcMsg packet := by simpa using hinput
      obtain ⟨parms, field, ipcchan, rfl, rfl⟩ : ∃ parms field ipcchan,
          e = .request parms field ipcchan ∧ requestPacket parms field ipcchan = packet := by
        cases e with
        | request parms field ipcchan =>
            exact ⟨parms, field, ipcchan, rfl, CnInput.ipcMsg.inj (Option.some.inj hseen)⟩
        | response n errflag field =>
            obtain ⟨call, -, hcall⟩ := Option.map_eq_some_iff.mp hseen
            cases hcall
        | packet cnshdr => cases Option.some.inj hseen
        | tick => cases Option.some.inj hseen
      have htask : cnrrtask s (.ipcMsg (requestPacket parms field ipcchan)) =
          cncnsreq s (requestPacket parms field ipcchan) := rfl
      rw [htask]
      cases ht : (cncnsreq s (requestPacket parms field ipcchan)).1 with
      | none =>
          have hout :
              sentCalls ipcchan (cncnsreq s (requestPacket parms field ipcchan)).2 = [] := by
            unfold cncnsreq at ht ⊢
            simp only at ht ⊢
            split at ht
            · rfl
            · cases ht
          have hchan : (CnEvent.request parms field ipcchan).ipcchan = ipcchan := rfl
          rw [hchan, hout, List.append_nil]
          exact ⟨h.calls, fun t ht => absurd ht (Option.some_ne_none t).symm⟩
      | some t =>
          obtain ⟨call, hcalls, hchan, hparameter, hobjid, hexpected⟩ := cncnsreq_some ht
          have hchan' : (CnEvent.request parms field ipcchan).ipcchan = ipcchan := rfl
          rw [hchan', hcalls]
          constructor
          · intro c hc
            rcases List.mem_append.mp hc with hc | hc
            · exact h.calls c hc
            · rw [List.mem_singleton.mp hc, hchan]
              exact ⟨hparameter, _, hexpected⟩
          · intro u hu _
            obtain rfl := Option.some.inj hu
            exact ⟨call, List.getLast?_concat, hobjid, hexpected⟩
  next => exact h

/-- A packet of the modem whose header is parsed from the response to a call. -/
theorem cnsParseHeader_response {call : CnsCall} {expectedop : UInt8}
    (hexpected : cnsExpectedOp (cnsParseHeader call.packet).cnsoperation = some expectedop)
    (errflag : Bool) (field : List UInt8) :
    (cnsParseHeader (call.response errflag field)).cnsobjid =
        (cnsParseHeader call.packet).cnsobjid ∧
      (cnsParseHeader (call.response errflag field)).cnsoperation = expectedop ∧
        (cnsParseHeader (call.response errflag field)).cnsparameter =
          (cnsParseHeader call.packet).cnsparameter := by
  have hmask := (cnsExpectedOp_spec hexpected).1.2
  unfold CnsCall.response
  simp only [hexpected, Option.getD_some]
  rw [cnsParseHeader_bytes _ hmask]
  exact ⟨rfl, rfl, rfl⟩

/-- A response with the object and the operation that are waited for is forwarded. -/
theorem response_forwarded {s : CnRrTcb} {call : CnsCall} (errflag : Bool) (field : List UInt8)
    (hbusy : s.cnswdata.cnsbusy = true)
    (hobjid : (cnsParseHeader call.packet).cnsobjid = s.cnswdata.cnsobjid)
    (hexpected : cnsExpectedOp (cnsParseHeader call.packet).cnsoperation =
      some s.cnswdata.cnsoperation) :
    ∃ channel msg, CnOut.amsdkSend channel msg ∈
      (cnRxPacket s (call.response errflag field)).2 := by
  obtain ⟨hobj, hop, -⟩ := cnsParseHeader_response hexpected errflag field
  have hnotify := (cnsExpectedOp_spec hexpected).2.2.2
  refine ⟨_, _, (mem_cnRxPacket_iff s _).mpr ⟨⟨_, cnsreadoptype_of_expected hexpected hop, hnotify⟩,
    ⟨hbusy, ?_, ?_⟩, rfl, rfl⟩⟩
  · rw [hobj, hobjid]
  · rw [hop]

theorem timely_of_answersOutstanding (h : CnKnown net) (hanswers : AnswersOutstanding net e) :
    Timely net e := by
  intro s hs hbusy
  cases e with
  | request parms field ipcchan => trivial
  | tick => trivial
  | response n errflag field =>
      intro call hcall hobjid hexpected
      obtain ⟨channel, msg, hmem⟩ :=
        response_forwarded errflag field hbusy hobjid hexpected
      have hseen : (CnEvent.response n errflag field).seen net.log =
          some (.hpMsg (call.response errflag field)) := by
        simp only [CnEvent.seen, hcall, Option.map_some]
      obtain ⟨n', errflag', field', call', heq, -, ⟨-, hlength⟩, -⟩ :=
        hanswers.forwarded s _ channel msg hs hseen hmem
      obtain ⟨rfl, -, -⟩ := CnEvent.response.inj heq
      exact hlength
  | packet cnshdr =>
      rintro ⟨hobjid, hop⟩
      obtain ⟨call, -, -, hexpected⟩ := h.last s hs hbusy
      have hmem := (mem_cnRxPacket_iff s cnshdr).mpr
        ⟨⟨_, cnsreadoptype_of_expected hexpected hop, (cnsExpectedOp_spec hexpected).2.2.2⟩,
          ⟨hbusy, hobjid.symm, hop.symm⟩, rfl, rfl⟩
      obtain ⟨n, errflag, field, call', heq, -⟩ :=
        hanswers.forwarded s cnshdr _ _ hs rfl hmem
      cases heq

theorem answersOutstanding_of_timely (h : CnKnown net) (htimely : Timely net e) :
    AnswersOutstanding net e := by
  constructor
  · intro s cnshdr channel msg hs hseen hmem
    obtain ⟨-, ⟨hbusy, hobjid, hop⟩, hchan, -⟩ := (mem_cnRxPacket_iff s cnshdr).mp hmem
    have hnow := htimely s hs hbusy
    cases e with
    | request parms field ipcchan => cases Option.some.inj hseen
    | tick => cases Option.some.inj hseen
    | packet cnshdr' =>
        obtain rfl := CnInput.hpMsg.inj (Option.some.inj hseen)
        exact absurd ⟨hobjid.symm, hop.symm⟩ hnow
    | response n errflag field =>
        obtain ⟨call, hcall, hpacket⟩ := Option.map_eq_some_iff.mp hseen
        obtain rfl := CnInput.hpMsg.inj hpacket
        obtain ⟨hparameter, expectedop, hexpected⟩ := h.calls call (List.mem_of_getElem? hcall)
        obtain ⟨hobj', hop', hparameter'⟩ := cnsParseHeader_response hexpected errflag field
        rw [hobj'] at hobjid
        rw [hop'] at hop
        refine ⟨n, errflag, field, call, rfl, hcall, ⟨⟨s, hs, hbusy⟩, ?_⟩, ?_⟩
        · exact hnow call hcall hobjid.symm (by rw [hexpected, hop])
        · rw [hchan, hparameter', hparameter, UInt8.toUInt8_toUInt32]
  · intro s cnshdr _ _ hinvalid
    unfold cncnship
    simp only [hinvalid, Bool.false_eq_true, if_false]
    unfold cnsValidateResponse at hinvalid ⊢
    split_ifs at hinvalid ⊢
    rfl

/-- Over every run, the packets that are forwarded answer the outstanding request exactly if no
packet with its object and operation comes while it is outstanding but its response. -/
theorem answersOutstanding_iff (events : List CnEvent) :
    Meets cnNetStep AnswersOutstanding cnNetInit events ↔
      Meets cnNetStep Timely cnNetInit events := by
  have hstep : ∀ {G : CnNet → CnEvent → Prop} (net : CnNet) (e : CnEvent), CnKnown net → G net e →
      CnKnown (cnNetStep net e).1 := fun net e h _ => h.step e
  constructor
  · exact meets_of_invariant hstep (fun _ _ => timely_of_answersOutstanding) cnKnown_init
  · exact meets_of_invariant hstep (fun _ _ => answersOutstanding_of_timely) cnKnown_init

/-- A request to get an object, that waits for a tick. -/
def getRequest (ipcchan : UInt8) : CnEvent :=
  .request
    { amcnsparameter := 0
      amcnsobjid := 1
      amcnslength := 0
      amcnstimeout := 0
      amcnsoperation := 0x01
      amcnsairint := 0 } [] ipcchan

/-- The response to a request that timed out comes while the same request is outstanding anew. -/
def lateResponseEvents : List CnEvent :=
  [getRequest 1, .tick, getRequest 1, .response 0 false []]

/-- It is forwarded as the answer to the later one. -/
theorem not_answersOutstanding_late :
    ¬ Meets cnNetStep AnswersOutstanding cnNetInit lateResponseEvents := by
  rintro ⟨-, -, -, hlate, -⟩
  have hs : (after cnNetStep cnNetInit (lateResponseEvents.take 3)).tcb =
      some ⟨⟨true, 1, 2, 1⟩, 1⟩ := by decide +kernel
  obtain ⟨n, errflag, field, call, heq, -, ⟨-, hlength⟩, -⟩ :=
    hlate.forwarded _ _ 1 [0, 1, 0, 4, 0, 0, 16, 2, 0, 1, 0, 0, 0, 1, 0, 0] hs rfl
      (by decide +kernel)
  obtain ⟨rfl, -, -⟩ := CnEvent.response.inj heq
  exact absurd hlength (by decide +kernel)

end Net

end Sdk

end SierraSdk
