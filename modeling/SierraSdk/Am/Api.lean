import SierraSdk.Library.Machine
import SierraSdk.Am.Packet

/-!
# The API side

An application calls `amsendnwait`, which sends a request packet to the daemon and takes the
next packet of the response socket as its answer. A call that timed out leaves its response to
come, and nothing in a packet says which request it answers. `apiStep` numbers the requests and
keeps with each response the number of the request it was produced for, so that what a call
reads can be compared with what it asked for.

The calls of one process do not overlap: they hold the lock of the request buffer.
-/

namespace SierraSdk

namespace Am

open Machine

/-- `AMTIMEGUARD` -/
def amTimeGuard : UInt32 := 1000

/-- `AMMAXRESPBKLEN`, the size of the response buffer. -/
def amMaxRespBkLen : ℕ := 1024

/-- `AMSDKRRNSZ` -/
def amSdkRrnSz : ℕ := 7

/-- The SDK part of a request or response. -/
structure AmSdkRrParms where
  amsdkxactionlen : UInt32
  amsdkreqtimeout : UInt32
  amsdkrrtype : UInt8

/-- The QMI or the SDK part of a request or response. -/
inductive AmParm where
  | amqmi (parms : AmQmiRrParms)
  | amsdk (parms : AmSdkRrParms)

/-- The parameters that a caller passes to `amsendnwait` and gets back. -/
structure AmRrParms where
  amtimeout : UInt32
  amresultcode : EQCWWANError
  amparm : AmParm

section Requests

/-- The header and the preamble of a QMI packet. -/
def ambuildqmixactionheader (amqmirrparm : AmQmiRrParms) (amtype : UInt16) : List UInt8 :=
  ambuildamheader ⟨amtype, amHdrVersion, amqmirrparm.amresultcode,
      (UInt32.ofNat amQmiRrnSz + amqmirrparm.amqmixactionlen).toUInt16⟩ ++
    [amqmirrparm.amqmisvctype] ++ piput32 amqmirrparm.amqmireqtimeout ++
    piput16 amqmirrparm.amqmixactionlen.toUInt16 ++ [amqmirrparm.qmiinstanceid]

/-- An SDK request. A type that is not known is an abort. -/
def ambuildsdkrequest (amsdk : AmSdkRrParms) (amtype : UInt16) : Option (List UInt8) :=
  if amsdk.amsdkrrtype = amSdkReqVersion ∨ amsdk.amsdkrrtype = amSdkReqPid ∨
      amsdk.amsdkrrtype = amSdkReqKill then
    some (ambuildamheader
      ⟨amtype, amHdrVersion, EQCWWANError.none, UInt16.ofNat (amHeaderSz + 1)⟩ ++
        [amsdk.amsdkrrtype])
  else none

/-- A request packet. The QMI message `qmimsg` was written to the buffer by the caller, after
the place of the header and the preamble. -/
def ambuildrequest (amrrparm : AmRrParms) (qmimsg : List UInt8) : Option (List UInt8) :=
  match amrrparm.amparm with
  | .amqmi parms =>
      let amsize := UInt16.ofNat amQmiTotal + parms.amqmixactionlen.toUInt16
      some ((ambuildqmixactionheader parms AmMsgType.qmiRequest ++ qmimsg).take amsize.toNat)
  | .amsdk parms => ambuildsdkrequest parms AmMsgType.sdkRequest

/-- How long to wait for a response, in milliseconds; `0` is for ever. -/
def amapitimeout (amtimeout : UInt32) : UInt32 :=
  if amtimeout ≠ 0 then
    let amtimeout := amTimeGuard + amtimeout
    if amtimeout ≤ 10000 then amtimeout <<< 1 else amtimeout + (amtimeout >>> 2)
  else amtimeout

end Requests

section Responses

/-- The fields at the start of the SDK part of a packet. -/
def amparsesdkheader (buf : List UInt8) : AmSdkRrParms where
  amsdkrrtype := buf.getD 0 0
  amsdkreqtimeout := piget32 buf 1
  amsdkxactionlen := (piget16 buf 5).toUInt32

/-- Parse what follows the header of a response, if it is of the type of the request. -/
def amparseresponse (ampacket : List UInt8) (amtype : UInt16) (amrrparm : AmRrParms) :
    Option (List UInt8 × AmRrParms) :=
  match amrrparm.amparm with
  | .amqmi parms =>
      if amtype = AmMsgType.qmiResponse then
        let parms := { amparseqmixactionheader ampacket with amresultcode := parms.amresultcode }
        some (ampacket.drop amQmiRrnSz, { amrrparm with amparm := .amqmi parms })
      else none
  | .amsdk _ =>
      if amtype = AmMsgType.sdkResponse then
        let parms := amparsesdkheader ampacket
        some (ampacket.drop amSdkRrnSz, { amrrparm with amparm := .amsdk parms })
      else none

/-- What is left after the parsed fields is the end of what there was. -/
theorem amparseresponse_suffix {ampacket : List UInt8} {amtype : UInt16} {amrrparm : AmRrParms}
    {parsed : List UInt8 × AmRrParms} (h : amparseresponse ampacket amtype amrrparm = some parsed) :
    parsed.1 <:+ ampacket := by
  unfold amparseresponse at h
  cases hparm : amrrparm.amparm with
  | amqmi parms =>
      rw [hparm] at h
      obtain ⟨-, ⟨⟩⟩ := Option.ite_none_right_eq_some.mp h
      exact List.drop_suffix _ _
  | amsdk parms =>
      rw [hparm] at h
      obtain ⟨-, ⟨⟩⟩ := Option.ite_none_right_eq_some.mp h
      exact List.drop_suffix _ _

/-- What `amsendnwait` returns: its value, the parameters, and what it lets the caller's pointer
point to, if it sets it. -/
structure AmReturn where
  resultcode : EQCWWANError
  amparams : AmRrParms
  response : Option (List UInt8)

/-- The response buffer, cleared and then filled by a packet; the rest of a longer packet is
lost. -/
def amresponseblock (packet : List UInt8) : List UInt8 :=
  packet.take amMaxRespBkLen ++ List.replicate (amMaxRespBkLen - packet.length) 0

/-- The end of `amsendnwait`, from what `icapi_rcv` returned: `none` when it failed, the empty
packet when it timed out. -/
def amsendnwaitReturn (amparams : AmRrParms) (rcvd : Option (List UInt8)) : AmReturn :=
  match rcvd with
  | none | some [] => ⟨EQCWWANError.swicmTimeout, amparams, none⟩
  | some packet =>
      let inbuf := amresponseblock packet
      let header := amparseamheader inbuf
      let inbuf := inbuf.drop amHeaderSz
      if header.ampacketlength ≠ 0 then
        match amparseresponse inbuf header.amtype amparams with
        | none => ⟨EQCWWANError.invalidQmiRsp, amparams, none⟩
        | some (inbuf, amparams) => ⟨header.amresultcode, amparams, some inbuf⟩
      else ⟨header.amresultcode, amparams, some inbuf⟩

end Responses

section System

/-- A packet on the response socket, with the number of the request it was produced for. -/
structure RrPacket where
  request : ℕ
  packet : List UInt8

/-- A call that waits: the number of its request, and its parameters. -/
structure ApiCall where
  request : ℕ
  amparams : AmRrParms

/-- The application and its response socket, with the number of requests sent and those to
which the daemon has not responded. -/
structure ApiSystem where
  call : Option ApiCall
  rrsocket : List RrPacket
  sent : ℕ
  unanswered : List ℕ

/-- The application calls `amsendnwait`; the daemon responds to a request; `icapi_rcv` reads a
packet, times out, or fails. -/
inductive ApiEvent where
  | amsendnwait (amparams : AmRrParms) (qmimsg : List UInt8)
  | respond (request : ℕ) (packet : List UInt8)
  | receive
  | timeout
  | fail

/-- A request is sent; a call returns, with the packet it read; the application is aborted. -/
inductive ApiOut where
  | icapi_send (request : ℕ) (packet : List UInt8)
  | returned (request : ℕ) (read : Option RrPacket) (ret : AmReturn)
  | erAbort

/-- The application at the start. -/
def apisysinit : Option ApiSystem := some ⟨none, [], 0, []⟩

/-- `amsendnwait` up to where it waits. The timeout is replaced in the parameters. -/
def amsendnwait (s : ApiSystem) (amparams : AmRrParms) (qmimsg : List UInt8) :
    Option ApiSystem × List ApiOut :=
  let amparams := { amparams with amresultcode := EQCWWANError.none }
  match ambuildrequest amparams qmimsg with
  | none => (none, [.erAbort])
  | some packet =>
      let amparams := { amparams with amtimeout := amapitimeout amparams.amtimeout }
      (some { s with
          call := some ⟨s.sent, amparams⟩
          sent := s.sent + 1
          unanswered := s.unanswered ++ [s.sent] },
        [.icapi_send s.sent packet])

/-- The end of a call, with the packet that was read, if one was. -/
def amreturn (s : ApiSystem) (call : ApiCall) (read : Option RrPacket)
    (rcvd : Option (List UInt8)) : Option ApiSystem × List ApiOut :=
  (some { s with call := none },
    [.returned call.request read (amsendnwaitReturn call.amparams rcvd)])

/-- A step of the application or the daemon. A call waits for ever with the timeout `0`, and
times out only when there is nothing to read. -/
def apiStep (sys : Option ApiSystem) (event : ApiEvent) : Option ApiSystem × List ApiOut :=
  match sys with
  | none => (none, [])
  | some s =>
      match event with
      | .amsendnwait amparams qmimsg =>
          match s.call with
          | none => amsendnwait s amparams qmimsg
          | some _ => (some s, [])
      | .respond request packet =>
          if request ∈ s.unanswered then
            (some { s with
                rrsocket := s.rrsocket ++ [⟨request, packet⟩]
                unanswered := s.unanswered.erase request }, [])
          else (some s, [])
      | .receive =>
          match s.call, s.rrsocket with
          | some call, rr :: rest =>
              amreturn { s with rrsocket := rest } call (some rr) (some rr.packet)
          | _, _ => (some s, [])
      | .timeout =>
          match s.call with
          | none => (some s, [])
          | some call =>
              if s.rrsocket = [] ∧ call.amparams.amtimeout ≠ 0 then amreturn s call none (some [])
              else (some s, [])
      | .fail =>
          match s.call with
          | none => (some s, [])
          | some call => amreturn s call none none

end System

section OwnResponse

/-- A call that returns in the step has read no packet but the response to its own request, and
when it succeeds it returns what follows in that packet. -/
def OwnResponse (sys : Option ApiSystem) (event : ApiEvent) : Prop :=
  ∀ request read ret, .returned request read ret ∈ (apiStep sys event).2 →
    (∀ rr ∈ read, rr.request = request) ∧
      (ret.resultcode = EQCWWANError.none → ∃ rr rest, read = some rr ∧
        ret.response = some rest ∧ rest <:+ amresponseblock rr.packet)

/-- A call starts with an empty response socket, and while it waits for the first packet, that
packet is the response to its request. -/
def InTime (sys : Option ApiSystem) (event : ApiEvent) : Prop :=
  ∀ s ∈ sys, match event with
    | .amsendnwait _ _ => s.call = none → s.rrsocket = []
    | .respond request _ =>
        request ∈ s.unanswered → s.rrsocket = [] → ∀ call ∈ s.call, request = call.request
    | _ => True

instance (sys : Option ApiSystem) (event : ApiEvent) : Decidable (InTime sys event) :=
  match sys, event with
  | none, _ => .isTrue nofun
  | some s, .amsendnwait _ _ =>
      decidable_of_iff (s.call.isNone = true → s.rrsocket.isEmpty = true)
        (by simp [InTime])
  | some s, .respond request _ =>
      decidable_of_iff (request ∈ s.unanswered → s.rrsocket.isEmpty = true →
        ∀ call ∈ s.call, request = call.request) (by simp [InTime])
  | some _, .receive | some _, .timeout | some _, .fail => .isTrue fun _ _ => trivial

/-- The next packet that a waiting call will read is the response to its request. -/
def NextIsOwn (sys : Option ApiSystem) : Prop :=
  ∀ s ∈ sys, ∀ call ∈ s.call, ∀ rr ∈ s.rrsocket.head?, rr.request = call.request

/-- A successful call returns what follows in the packet it received. -/
theorem amsendnwaitReturn_success {amparams : AmRrParms} {rcvd : Option (List UInt8)}
    (h : (amsendnwaitReturn amparams rcvd).resultcode = EQCWWANError.none) :
    ∃ packet rest, rcvd = some packet ∧ packet ≠ [] ∧
      (amsendnwaitReturn amparams rcvd).response = some rest ∧
        rest <:+ amresponseblock packet := by
  have htimeout : EQCWWANError.swicmTimeout ≠ EQCWWANError.none := by decide
  have hinvalid : EQCWWANError.invalidQmiRsp ≠ EQCWWANError.none := by decide
  rcases rcvd with _ | _ | ⟨byte, packet⟩
  · exact absurd h htimeout
  · exact absurd h htimeout
  · have hheader : (amresponseblock (byte :: packet)).drop amHeaderSz <:+
        amresponseblock (byte :: packet) := List.drop_suffix _ _
    suffices hrest : ∃ rest, (amsendnwaitReturn amparams (some (byte :: packet))).response =
        some rest ∧ rest <:+ amresponseblock (byte :: packet) by
      obtain ⟨rest, hrest⟩ := hrest
      exact ⟨byte :: packet, rest, rfl, List.cons_ne_nil _ _, hrest⟩
    simp only [amsendnwaitReturn] at h ⊢
    by_cases hlength : (amparseamheader (amresponseblock (byte :: packet))).ampacketlength ≠ 0
    · rw [if_pos hlength] at h ⊢
      cases hparse : amparseresponse ((amresponseblock (byte :: packet)).drop amHeaderSz)
          (amparseamheader (amresponseblock (byte :: packet))).amtype amparams with
      | none =>
          rw [hparse] at h
          exact absurd h hinvalid
      | some parsed => exact ⟨parsed.1, rfl, (amparseresponse_suffix hparse).trans hheader⟩
    · rw [if_neg hlength]
      exact ⟨_, rfl, hheader⟩

/-- What a step does: nothing, start a call, put a response on the socket, or end a call, with
the first packet of the socket or without one. -/
inductive ApiRule (s : ApiSystem) : ApiEvent → Option ApiSystem × List ApiOut → Prop where
  | idle (event : ApiEvent) : ApiRule s event (some s, [])
  | call {amparams : AmRrParms} {qmimsg : List UInt8} (hcall : s.call = none) :
      ApiRule s (.amsendnwait amparams qmimsg) (amsendnwait s amparams qmimsg)
  | respond {request : ℕ} {packet : List UInt8} (hrequest : request ∈ s.unanswered) :
      ApiRule s (.respond request packet)
        (some { s with
          rrsocket := s.rrsocket ++ [⟨request, packet⟩]
          unanswered := s.unanswered.erase request }, [])
  | read {event : ApiEvent} {call : ApiCall} {rr : RrPacket} {rest : List RrPacket}
      (hcall : s.call = some call) (hsocket : s.rrsocket = rr :: rest) :
      ApiRule s event (amreturn { s with rrsocket := rest } call (some rr) (some rr.packet))
  | unread {event : ApiEvent} {call : ApiCall} {rcvd : Option (List UInt8)}
      (hcall : s.call = some call) (hrcvd : rcvd = none ∨ rcvd = some []) :
      ApiRule s event (amreturn s call none rcvd)

theorem apiStep_rule (s : ApiSystem) (event : ApiEvent) :
    ApiRule s event (apiStep (some s) event) := by
  cases event with
  | amsendnwait amparams qmimsg =>
      simp only [apiStep]
      cases hcall : s.call with
      | none => exact .call hcall
      | some call => exact .idle _
  | respond request packet =>
      simp only [apiStep]
      split_ifs with hrequest
      · exact .respond hrequest
      · exact .idle _
  | receive =>
      simp only [apiStep]
      cases hcall : s.call with
      | none => exact .idle _
      | some call =>
          cases hsocket : s.rrsocket with
          | nil => exact .idle _
          | cons rr rest => simpa only [hcall] using .read hcall hsocket
  | timeout =>
      simp only [apiStep]
      cases hcall : s.call with
      | none => exact .idle _
      | some call =>
          simp only
          split_ifs
          · exact .unread hcall (.inr rfl)
          · exact .idle _
  | fail =>
      simp only [apiStep]
      cases hcall : s.call with
      | none => exact .idle _
      | some call => exact .unread hcall (.inl rfl)

/-- Starting a call ends the application, or leaves it waiting with the socket as it was. -/
theorem amsendnwait_cases (s : ApiSystem) (amparams : AmRrParms) (qmimsg : List UInt8) :
    amsendnwait s amparams qmimsg = (none, [.erAbort]) ∨
      ∃ t packet, amsendnwait s amparams qmimsg = (some t, [.icapi_send s.sent packet]) ∧
        t.rrsocket = s.rrsocket := by
  simp only [amsendnwait]
  cases ambuildrequest { amparams with amresultcode := EQCWWANError.none } qmimsg with
  | none => exact .inl rfl
  | some packet => exact .inr ⟨_, packet, rfl, rfl⟩

/-- A step in time keeps the next packet that of the waiting call. -/
theorem nextIsOwn_apiStep {sys : Option ApiSystem} (h : NextIsOwn sys) {event : ApiEvent}
    (htime : InTime sys event) : NextIsOwn (apiStep sys event).1 := by
  cases sys with
  | none => exact h
  | some s =>
      have htime := htime s rfl
      have hrule := apiStep_rule s event
      generalize apiStep (some s) event = result at hrule ⊢
      cases hrule with
      | idle => exact h
      | @call amparams qmimsg hcall =>
          rcases amsendnwait_cases s amparams qmimsg with heq | ⟨t, packet, heq, hsocket⟩
          · rw [heq]
            rintro _ ⟨⟩
          · rw [heq]
            rintro _ ⟨⟩ call - rr hrr
            rw [hsocket, htime hcall] at hrr
            cases hrr
      | @respond request packet hrequest =>
          rintro _ ⟨⟩ call hcall rr hrr
          cases hsocket : s.rrsocket with
          | nil =>
              rw [hsocket] at hrr
              obtain ⟨⟩ := hrr
              exact htime hrequest hsocket call hcall
          | cons rr' rest =>
              apply h s rfl call hcall rr
              rw [hsocket] at hrr ⊢
              exact hrr
      | read hcall hsocket => rintro _ ⟨⟩ _ ⟨⟩
      | unread hcall hrcvd => rintro _ ⟨⟩ _ ⟨⟩

/-- A call whose response is next reads no other one. -/
theorem ownResponse_of_nextIsOwn {sys : Option ApiSystem} (h : NextIsOwn sys) (event : ApiEvent) :
    OwnResponse sys event := by
  intro request read ret hret
  cases sys with
  | none => exact absurd hret List.not_mem_nil
  | some s =>
      have hrule := apiStep_rule s event
      generalize apiStep (some s) event = result at hrule hret
      cases hrule with
      | idle | respond => exact absurd hret List.not_mem_nil
      | @call amparams qmimsg hcall =>
          rcases amsendnwait_cases s amparams qmimsg with heq | ⟨t, packet, heq, -⟩
          · rw [heq, List.mem_singleton] at hret
            cases hret
          · rw [heq, List.mem_singleton] at hret
            cases hret
      | @read _ call rr rest hcall hsocket =>
          obtain ⟨⟩ := List.mem_singleton.mp hret
          have hown := h s rfl call hcall rr (by rw [hsocket]; rfl)
          refine ⟨by rintro _ ⟨⟩; exact hown, fun hcode => ?_⟩
          obtain ⟨_, rest, ⟨⟩, -, hrest⟩ := amsendnwaitReturn_success hcode
          exact ⟨rr, rest, rfl, hrest⟩
      | unread hcall hrcvd =>
          obtain ⟨⟩ := List.mem_singleton.mp hret
          refine ⟨nofun, fun hcode => ?_⟩
          obtain ⟨packet, rest, rfl, hne, -⟩ := amsendnwaitReturn_success hcode
          rcases hrcvd with hrcvd | hrcvd
          · cases hrcvd
          · exact absurd (Option.some.inj hrcvd) hne

/-- When every call starts with an empty socket and its response is the first to come while it
waits, a call reads no response but its own. -/
theorem ownResponse_of_inTime {events : List ApiEvent}
    (h : Meets apiStep InTime apisysinit events) :
    Meets apiStep OwnResponse apisysinit events := by
  have hinit : NextIsOwn apisysinit := by
    rintro _ ⟨⟩ _ ⟨⟩
  exact meets_of_invariant (I := NextIsOwn) (fun _ _ hs htime => nextIsOwn_apiStep hs htime)
    (fun _ event hs _ => ownResponse_of_nextIsOwn hs event) hinit h

/-- The parameters of a DMS request without TLVs and with a timeout of a second. -/
def dmsParms : AmRrParms :=
  ⟨1000, EQCWWANError.none, .amqmi ⟨EQCWWANError.none, 4, 1000, 2, 0⟩⟩

/-- A QMI message without TLVs. -/
def qmiMessage (messageId : UInt16) : List UInt8 := piput16 messageId ++ piput16 0

/-- A response to a DMS request. -/
def dmsResponse (messageId : UInt16) : List UInt8 :=
  ambuildqmixactionheader ⟨EQCWWANError.none, 4, 0, 2, 0⟩ AmMsgType.qmiResponse ++
    qmiMessage messageId

/-- The response to a call that timed out comes after the one to the next call. -/
theorem ownResponse_overtaken :
    Meets apiStep OwnResponse apisysinit
      [.amsendnwait dmsParms (qmiMessage 0x20), .timeout, .amsendnwait dmsParms (qmiMessage 0x25),
        .respond 1 (dmsResponse 0x25), .receive, .respond 0 (dmsResponse 0x20)] :=
  ownResponse_of_inTime (by decide +kernel)

/-- A call times out, the response to it comes, and another call is made. -/
def lateRun : List ApiEvent :=
  [.amsendnwait dmsParms (qmiMessage 0x20), .timeout, .respond 0 (dmsResponse 0x20),
    .amsendnwait dmsParms (qmiMessage 0x25), .receive]

/-- The second call succeeds with the response to the first one. -/
theorem lateRun_not_ownResponse :
    (∃ ret, .returned 1 (some ⟨0, dmsResponse 0x20⟩) ret ∈ outputs apiStep apisysinit lateRun ∧
        ret.resultcode = EQCWWANError.none) ∧
      ¬ Meets apiStep OwnResponse apisysinit lateRun := by
  constructor
  · refine ⟨_, .tail _ (.tail _ (.tail _ (.head _))), ?_⟩
    decide +kernel
  · rintro ⟨-, -, -, -, h, -⟩
    have hown := (h _ _ _ (List.mem_singleton.mpr rfl)).1 _ rfl
    exact absurd hown (by decide)

end OwnResponse

end Am

end SierraSdk
