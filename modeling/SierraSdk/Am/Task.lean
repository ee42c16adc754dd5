import SierraSdk.Library.Monitor
import SierraSdk.Ci.Channels
import SierraSdk.Am.Packet

/-!
# The AM task

The AM task takes requests from the applications and passes them to QM, or to its own handler,
one at a time. Messages reach it through a queue: the requests that the shells receive, and an
event for every response that was sent. Requests wait in a second queue, with a timer each that
`amtick` counts down.

All response-sent events are one block of memory, whose result code is that of the last
response. A response with the result code `SWICM_TIMEOUT` is taken for one to a request that
waited too long; any other one ends the request being processed.

`amStep` also keeps the channels of the requests that QM was given and has not answered.
-/

namespace SierraSdk

namespace Am

open Ci Machine

/-- `AMTICKMS` -/
def amTickMs : UInt32 := 100

/-- `AMEVTPOOLSZ` -/
def amEvtPoolSz : ℕ := 20

/-- `AMMSGDEPTH` -/
def amMsgDepth : ℕ := 20

/-- A request: the buffer it was received in, its channel and its timer. -/
structure AmEvtBlock where
  amdata : List UInt8
  amipcchannel : CiRrChannel
  ammdmwaittmr : UInt32

/-- A message to the task. The task finds the result code of a response-sent event in the
shared block; `cause`, the result code of the response that queued the event, is kept to be
compared with it. -/
inductive AmMsg where
  | appRequest (evt : AmEvtBlock)
  | appRespSent (cause : EQCWWANError)

/-- The control block, with the message queue and the result code in the shared block of the
response-sent events. -/
structure AmIpcCb where
  amreqbusy : Bool
  amicmsgque : List AmMsg
  ameventheadq : List AmEvtBlock
  amresultcode : EQCWWANError

/-- What the task does to the outside: pass a request to QM, send a packet, end the daemon. -/
inductive AmOut where
  | qmsendrr (amqmimsg : List UInt8) (ipcchannel : CiRrChannel)
  | dssend (packet : List UInt8) (channel : UInt8)
  | exit
  | erAbort

/-- The control block at the start. -/
def aminit : AmIpcCb where
  amreqbusy := false
  amicmsgque := []
  ameventheadq := []
  amresultcode := EQCWWANError.none

/-- Queue a message; a full queue is an abort. -/
def icsmt_send (s : AmIpcCb) (msg : AmMsg) : Option AmIpcCb × List AmOut :=
  if s.amicmsgque.length < amMsgDepth then
    (some { s with amicmsgque := s.amicmsgque ++ [msg] }, [])
  else (none, [.erAbort])

section Responses

/-- Tell the task that a response was sent. -/
def amqueipcrspevt (s : AmIpcCb) (packet : List UInt8) : Option AmIpcCb × List AmOut :=
  let amresultcode := (amparseamheader packet).amresultcode
  icsmt_send { s with amresultcode := amresultcode } (.appRespSent amresultcode)

/-- Send a response or a notification. -/
def amsdk_send (s : AmIpcCb) (packet : List UInt8) (ipcchannel : UInt8) :
    Option AmIpcCb × List AmOut :=
  match cigetifusetype ipcchannel with
  | some .cirr => andThen (some s, [.dssend packet ipcchannel]) fun s => amqueipcrspevt s packet
  | some .cinotif => (some s, [.dssend packet ipcchannel])
  | _ => (none, [.erAbort])

/-- A response that consists of a header. -/
def amShortResp (s : AmIpcCb) (amtypercv : UInt16) (resultcode : EQCWWANError)
    (ipcchannel : CiRrChannel) : Option AmIpcCb × List AmOut :=
  let amtype :=
    if amtypercv = AmMsgType.qmiRequest then AmMsgType.qmiResponse else AmMsgType.invalid
  amsdk_send s (ambuildamheader ⟨amtype, amHdrVersion, resultcode, 0⟩) ipcchannel.channel

end Responses

section Requests

/-- The event blocks in use. -/
def amevtInUse (s : AmIpcCb) : ℕ :=
  s.ameventheadq.length +
    s.amicmsgque.countP fun msg => match msg with
      | .appRequest _ => true
      | .appRespSent _ => false

/-- A shell passes a packet on to the task; running out of event blocks is an abort. -/
def amipcrcvhandler (s : AmIpcCb) (msg : List UInt8) (ipcchannel : CiRrChannel) :
    Option AmIpcCb × List AmOut :=
  if amevtInUse s < amEvtPoolSz then icsmt_send s (.appRequest ⟨msg, ipcchannel, 0⟩)
  else (none, [.erAbort])

/-- Start the timer of a request, in ticks of `AMTICKMS`; the timeout is read from where a QMI
request has it. A zero timeout is an abort. -/
def amreqinittmr (evt : AmEvtBlock) : Option AmEvtBlock :=
  let qmparm := amparseqmixactionheader (evt.amdata.drop amHeaderSz)
  if qmparm.amqmireqtimeout = 0 then none
  else some { evt with ammdmwaittmr := qmparm.amqmireqtimeout / amTickMs + 1 }

/-- Write the time that is left over the timeout of a request. -/
def amupdatetimeout (amqmipacket : List UInt8) (remaining_ticks : UInt32) : List UInt8 :=
  [amqmipacket.getD 0 0] ++ piput32 (remaining_ticks * amTickMs) ++ amqmipacket.drop 5

/-- Handle an SDK request. The requests for the version and the process id are not served yet. -/
def amsdkhandler (s : AmIpcCb) (inipcmsg : List UInt8) : Option AmIpcCb × List AmOut :=
  let amsdkrrtype := inipcmsg.getD 0 0
  if amsdkrrtype = amSdkReqVersion ∨ amsdkrrtype = amSdkReqPid then (some s, [])
  else if amsdkrrtype = amSdkReqKill then (none, [.exit])
  else (none, [.erAbort])

/-- Dispatch a request by the type of its packet; a type that is not known is logged. -/
def amdispatchrequest (s : AmIpcCb) (amtype : UInt16) (inipcmsg : List UInt8)
    (ipcchannel : CiRrChannel) : Option AmIpcCb × List AmOut :=
  if amtype = AmMsgType.qmiRequest then (some s, [.qmsendrr inipcmsg ipcchannel])
  else if amtype = AmMsgType.sdkRequest then amsdkhandler s inipcmsg
  else (some s, [])

end Requests

section Task

/-- Handle a message. A request to end the daemon is obeyed at once; any other request is
queued. -/
def amappevent (s : AmIpcCb) (msg : AmMsg) : Option AmIpcCb × List AmOut :=
  match msg with
  | .appRespSent _ =>
      if s.amresultcode ≠ EQCWWANError.swicmTimeout then (some { s with amreqbusy := false }, [])
      else (some s, [])
  | .appRequest evt =>
      let inipcmsg := evt.amdata.drop amHeaderSz
      if (amparseamheader evt.amdata).amtype = AmMsgType.sdkRequest ∧
          inipcmsg.getD 0 0 = amSdkReqKill then
        (none, [.exit])
      else
        match amreqinittmr evt with
        | none => (none, [.erAbort])
        | some evt => (some { s with ameventheadq := s.ameventheadq ++ [evt] }, [])

/-- Process a request taken from the queue. -/
def amserverequest (s : AmIpcCb) (evt : AmEvtBlock) : Option AmIpcCb × List AmOut :=
  let header := amparseamheader evt.amdata
  if header.amheaderversion ≠ amHdrVersion then
    amShortResp s header.amtype EQCWWANError.swicmAmVersError evt.amipcchannel
  else
    amdispatchrequest s header.amtype
      (amupdatetimeout (evt.amdata.drop amHeaderSz) evt.ammdmwaittmr) evt.amipcchannel

/-- When no response is outstanding, process the first request in the queue. -/
def amservequeue (s : AmIpcCb) : Option AmIpcCb × List AmOut :=
  if s.amreqbusy then (some s, [])
  else
    match s.ameventheadq with
    | [] => (some s, [])
    | evt :: rest => amserverequest { s with amreqbusy := true, ameventheadq := rest } evt

/-- One round of the task's loop: take a message, if there is one, and handle it. -/
def amipctask (s : AmIpcCb) : Option AmIpcCb × List AmOut :=
  match s.amicmsgque with
  | [] => (some s, [])
  | msg :: rest => andThen (amappevent { s with amicmsgque := rest } msg) amservequeue

end Task

section Tick

/-- Whether the timer of a request runs out with the next tick. -/
def AmEvtBlock.expiring (evt : AmEvtBlock) : Bool :=
  evt.ammdmwaittmr ≠ 0 ∧ evt.ammdmwaittmr - 1 = 0

/-- A request after a tick that it survives. -/
def AmEvtBlock.ticked (evt : AmEvtBlock) : AmEvtBlock :=
  { evt with
    ammdmwaittmr := if evt.ammdmwaittmr ≠ 0 then evt.ammdmwaittmr - 1 else evt.ammdmwaittmr }

/-- Answer a request that waited too long. -/
def amreqtimeout (s : AmIpcCb) (evt : AmEvtBlock) : Option AmIpcCb × List AmOut :=
  amShortResp s (amparseamheader evt.amdata).amtype EQCWWANError.swicmTimeout evt.amipcchannel

/-- Count down the timers of the requests in a part of the queue, and remove the requests whose
timer runs out. -/
def amtickLoop : List AmEvtBlock → AmIpcCb → Option AmIpcCb × List AmOut
  | [], s => (some s, [])
  | evt :: rest, s =>
      if evt.expiring then andThen (amreqtimeout s evt) (amtickLoop rest)
      else amtickLoop rest { s with ameventheadq := s.ameventheadq ++ [evt.ticked] }

/-- A timer tick. -/
def amtick (s : AmIpcCb) : Option AmIpcCb × List AmOut :=
  amtickLoop s.ameventheadq { s with ameventheadq := [] }

end Tick

section System

/-- A response built by QM, which uses other result codes than the AM task's own timeout. -/
structure QmResponse where
  packet : List UInt8
  resultcode_ne : (amparseamheader packet).amresultcode ≠ EQCWWANError.swicmTimeout

/-- The AM task, and the channels of the requests that QM has not answered, first the one it
was given first. -/
structure AmSystem where
  am : Option AmIpcCb
  unanswered : List CiRrChannel

/-- A packet arrives, the task takes a message, a timer tick, and QM answers the request it was
given first, if there is one. -/
inductive AmEvent where
  | receive (msg : List UInt8) (ipcchannel : CiRrChannel)
  | task
  | tick
  | answer (response : QmResponse)

/-- The channel of a request that was passed to QM. -/
def AmOut.dispatched : AmOut → Option CiRrChannel
  | .qmsendrr _ ipcchannel => some ipcchannel
  | _ => none

/-- The system at the start. -/
def amsysinit : AmSystem := ⟨some aminit, []⟩

/-- The system after something that the AM package did. -/
def AmSystem.after (r : Option AmIpcCb × List AmOut) (unanswered : List CiRrChannel) :
    AmSystem × List AmOut :=
  (⟨r.1, unanswered ++ r.2.filterMap AmOut.dispatched⟩, r.2)

/-- A step of the system; after the end of the daemon there are no more. -/
def amStep (sys : AmSystem) (event : AmEvent) : AmSystem × List AmOut :=
  match sys.am with
  | none => (sys, [])
  | some s =>
      match event with
      | .receive msg ipcchannel => AmSystem.after (amipcrcvhandler s msg ipcchannel) sys.unanswered
      | .task => AmSystem.after (amipctask s) sys.unanswered
      | .tick => AmSystem.after (amtick s) sys.unanswered
      | .answer response =>
          match sys.unanswered with
          | [] => (sys, [])
          | ipcchannel :: rest =>
              AmSystem.after (amsdk_send s response.packet ipcchannel.channel) rest

end System

section Rules

variable {R : Option AmIpcCb → List CiRrChannel → Prop} {s : AmIpcCb}
  {unanswered : List CiRrChannel}

/-- The control block after a response with a result code was sent. -/
def responded (s : AmIpcCb) (code : EQCWWANError) : AmIpcCb :=
  { s with
    amresultcode := code
    amicmsgque := s.amicmsgque ++ [.appRespSent code] }

/-- Sending a response on a request channel tells the task, or ends the daemon. -/
theorem tracks_amsdk_send (hstop : R none unanswered) {packet : List UInt8}
    {code : EQCWWANError} (hcode : (amparseamheader packet).amresultcode = code)
    (h : R (some (responded s code)) unanswered) (ipcchannel : CiRrChannel) :
    Tracks (collect AmOut.dispatched) R unanswered (amsdk_send s packet ipcchannel.channel) := by
  simp only [amsdk_send, ipcchannel.cirr, andThen, amqueipcrspevt, icsmt_send, hcode]
  split_ifs
  · exact tracks_uncollected h (by simp [AmOut.dispatched])
  · exact tracks_uncollected hstop (by simp [AmOut.dispatched])

theorem tracks_amShortResp (hstop : R none unanswered) {code : EQCWWANError}
    (h : R (some (responded s code)) unanswered) (amtypercv : UInt16)
    (ipcchannel : CiRrChannel) :
    Tracks (collect AmOut.dispatched) R unanswered
      (amShortResp s amtypercv code ipcchannel) := by
  apply tracks_amsdk_send hstop _ h
  rw [← List.append_nil (ambuildamheader _), amparseamheader_ambuildamheader]

/-- A packet that is dispatched and that nothing answers: of an unknown type, or an SDK request
that is not served yet. -/
def AmEvtBlock.unserved (evt : AmEvtBlock) : Bool :=
  let amtype := (amparseamheader evt.amdata).amtype
  let amsdkrrtype := (evt.amdata.drop amHeaderSz).getD 0 0
  amtype ≠ AmMsgType.qmiRequest ∧
    (amtype ≠ AmMsgType.sdkRequest ∨
      amsdkrrtype = amSdkReqVersion ∨ amsdkrrtype = amSdkReqPid)

/-- A request with a header of another version. -/
def AmEvtBlock.otherVersion (evt : AmEvtBlock) : Bool :=
  (amparseamheader evt.amdata).amheaderversion ≠ amHdrVersion

/-- The ways a request can go: it is answered for its version, passed to QM, or not served. -/
theorem tracks_amserverequest (hstop : R none unanswered) {evt : AmEvtBlock}
    (hversion : evt.otherVersion = true →
      R (some (responded s EQCWWANError.swicmAmVersError)) unanswered)
    (hqmi : evt.otherVersion = false → R (some s) (unanswered ++ [evt.amipcchannel]))
    (hunserved : evt.otherVersion = false → evt.unserved = true → R (some s) unanswered) :
    Tracks (collect AmOut.dispatched) R unanswered (amserverequest s evt) := by
  simp only [amserverequest]
  split_ifs with hver
  · exact tracks_amShortResp hstop (hversion (by simpa [AmEvtBlock.otherVersion] using hver)) _ _
  · have hsame : evt.otherVersion = false := by simpa [AmEvtBlock.otherVersion] using hver
    have hfirst : ∀ ticks, (amupdatetimeout (evt.amdata.drop amHeaderSz) ticks).getD 0 0 =
        (evt.amdata.drop amHeaderSz).getD 0 0 := fun _ => rfl
    simp only [amdispatchrequest, amsdkhandler, hfirst]
    split_ifs with htype hsdk hreq hkill
    · exact ⟨unanswered ++ [evt.amipcchannel], rfl, hqmi hsame⟩
    · refine tracks_nil (hunserved hsame ?_)
      simp only [AmEvtBlock.unserved, ne_eq, decide_eq_true_eq]
      exact ⟨htype, .inr hreq⟩
    · exact tracks_uncollected hstop (by simp [AmOut.dispatched])
    · exact tracks_uncollected hstop (by simp [AmOut.dispatched])
    · refine tracks_nil (hunserved hsame ?_)
      simp only [AmEvtBlock.unserved, ne_eq, decide_eq_true_eq]
      exact ⟨htype, .inl hsdk⟩

/-- Handling a message ends what was being processed, queues a request, or ends the daemon. -/
theorem tracks_amappevent (hstop : R none unanswered) {msg : AmMsg}
    (hdone : ∀ cause, msg = .appRespSent cause → s.amresultcode ≠ EQCWWANError.swicmTimeout →
      R (some { s with amreqbusy := false }) unanswered)
    (htimeout : ∀ cause, msg = .appRespSent cause →
      s.amresultcode = EQCWWANError.swicmTimeout → R (some s) unanswered)
    (hrequest : ∀ evt evt', msg = .appRequest evt →
      R (some { s with ameventheadq := s.ameventheadq ++ [evt'] }) unanswered) :
    Tracks (collect AmOut.dispatched) R unanswered (amappevent s msg) := by
  cases msg with
  | appRespSent cause =>
      simp only [amappevent]
      split_ifs with hcode
      · exact tracks_nil (hdone cause rfl hcode)
      · exact tracks_nil (htimeout cause rfl (not_not.mp hcode))
  | appRequest evt =>
      simp only [amappevent]
      split_ifs
      · exact tracks_uncollected hstop (by simp [AmOut.dispatched])
      · cases amreqinittmr evt with
        | none => exact tracks_uncollected hstop (by simp [AmOut.dispatched])
        | some evt' => exact tracks_nil (hrequest evt evt' rfl)

/-- Handling a message leaves the other ones in the queue. -/
theorem amappevent_amicmsgque {t : AmIpcCb} {msg : AmMsg} (h : (amappevent s msg).1 = some t) :
    t.amicmsgque = s.amicmsgque := by
  have hkeeps : Tracks (collect AmOut.dispatched)
      (fun t (_ : List CiRrChannel) => ∀ u, t = some u → u.amicmsgque = s.amicmsgque) []
      (amappevent s msg) := by
    apply tracks_amappevent
    · rintro _ ⟨⟩
    · rintro _ _ _ _ ⟨⟩
      rfl
    · rintro _ _ _ _ ⟨⟩
      rfl
    · rintro _ _ _ _ ⟨⟩
      rfl
  obtain ⟨-, -, hsame⟩ := hkeeps
  exact hsame t h

/-- When no request runs out of time, a tick counts down and does nothing else. -/
theorem amtickLoop_eq {evts : List AmEvtBlock} (h : evts.any AmEvtBlock.expiring = false)
    (s : AmIpcCb) :
    amtickLoop evts s =
      (some { s with ameventheadq := s.ameventheadq ++ evts.map AmEvtBlock.ticked }, []) := by
  induction evts generalizing s with
  | nil => simp [amtickLoop]
  | cons evt evts ih =>
      rw [List.any_cons, Bool.or_eq_false_iff] at h
      rw [amtickLoop, h.1, if_neg (by simp), ih h.2, List.map_cons]
      simp

/-- A tick keeps what the queue does not matter for and a timeout response keeps. -/
theorem tracks_amtickLoop (hstop : ∀ {s : AmIpcCb} {m}, R (some s) m → R none m)
    (hqueue : ∀ {s : AmIpcCb} {m} (queue), R (some s) m →
      R (some { s with ameventheadq := queue }) m)
    (hresp : ∀ {s : AmIpcCb} {m}, R (some s) m →
      R (some (responded s EQCWWANError.swicmTimeout)) m)
    (evts : List AmEvtBlock) (h : R (some s) unanswered) :
    Tracks (collect AmOut.dispatched) R unanswered (amtickLoop evts s) := by
  induction evts generalizing s unanswered with
  | nil => exact tracks_nil h
  | cons evt evts ih =>
      rw [amtickLoop]
      split_ifs
      · exact tracks_andThen (tracks_amShortResp (hstop h) (hresp h) _ _) fun t m ht => ih ht
      · exact ih (hqueue _ h)

end Rules

section Packets

/-- An AM packet of a type with a DMS message and a timeout in milliseconds. -/
def dmsPacket (amtype : UInt16) (timeout : UInt32) : List UInt8 :=
  ambuildamheader ⟨amtype, amHdrVersion, EQCWWANError.none, 25⟩ ++
    [2] ++ piput32 timeout ++ piput16 7 ++ [0, 0, 0, 0x20, 0, 0, 0, 0]

/-- The first request and response channel. -/
def firstRr : CiRrChannel := ⟨0, rfl⟩

/-- A response without error. -/
def goodResponse : QmResponse where
  packet := ambuildamheader ⟨AmMsgType.qmiResponse, amHdrVersion, EQCWWANError.none, 10⟩
  resultcode_ne := by decide

/-- A DMS request on the first channel arrives, and the task takes the message. -/
def requestEvents (timeout : UInt32) : List AmEvent :=
  [.receive (dmsPacket AmMsgType.qmiRequest timeout) firstRr, .task]

end Packets

end Am

end SierraSdk
