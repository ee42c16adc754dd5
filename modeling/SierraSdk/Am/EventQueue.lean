import SierraSdk.Am.Task
import SierraSdk.Ql.Link

/-!
# The event queue of the AM task

The requests that wait for the AM task are event blocks, linked with `ql` links to the queue
`ameventheadq`. The blocks come from a pool, and the message of a request is in a buffer that the
shell allocated; both are released when the request leaves the queue. The pool is a queue of the
blocks that are free.

The task takes a message from `amicmsgque`, and then serves the queue. A tick walks the queue,
and it goes on from a block that it took out and released. Each of these is one step, as they
hold the lock of the queue.

What is done is recorded with the number of the request that it is done for, by arrival. The
numbers are not in the code.
-/

namespace SierraSdk

namespace Am

open Ci Machine Ql

/-- The links: the head of the queue, and those in the event blocks. -/
inductive AmLinkp where
  | ameventheadq
  | ameqlnk (eventbkp : ℕ)
  deriving DecidableEq

/-- A message to the task: the response-sent event, or an event block. -/
inductive AmEventp where
  | amresponseevt
  | appRequest (eventbkp : ℕ)

/-- What an event block holds, and the number of its request. -/
structure AmEvtFields where
  ammemfreep : Option ℕ
  evt : AmEvtBlock
  request : ℕ

/-- What is released: the buffer of a message, or an event block. -/
inductive AmMemp where
  | ammemfreep (p : ℕ)
  | amevtblock (p : ℕ)
  deriving DecidableEq

/-- What the task does. -/
inductive AmEffect where
  | dssend (packet : List UInt8) (channel : UInt8)
  | qmsendrr (amqmimsg : List UInt8) (ipcchannel : CiRrChannel)
  | amsdkhandler (inipcmsg : List UInt8) (ipcchannel : CiRrChannel)
  | undefinedType (amtype : UInt16)
  | mmbufrel (p : AmMemp)
  | exit
  | erAbort
  deriving DecidableEq

/-- Something that is done for a request, or for none. -/
structure AmAction where
  request : Option ℕ
  effect : AmEffect

/-- The control block, with the links, the event blocks and the ones that are free, and the
number of requests that arrived. -/
structure AmQueueCb where
  amreqbusy : Bool
  amresultcode : EQCWWANError
  amicmsgque : List AmEventp
  links : QlMemory AmLinkp (Option ℕ)
  blocks : ℕ → AmEvtFields
  amevtpool : List ℕ
  arrived : ℕ

namespace AmQueueCb

/-- The fields of an event block are written. -/
def setBlock (s : AmQueueCb) (eventbkp : ℕ) (fields : AmEvtFields) : AmQueueCb :=
  { s with blocks := Function.update s.blocks eventbkp fields }

/-- `icsmt_send` to the task. -/
def icsmt_send (s : AmQueueCb) (msg : AmEventp) : Option AmQueueCb × List AmEffect :=
  if s.amicmsgque.length < amMsgDepth then
    (some { s with amicmsgque := s.amicmsgque ++ [msg] }, [])
  else (none, [.erAbort])

/-- `amqueipcrspevt` -/
def amqueipcrspevt (s : AmQueueCb) (packet : List UInt8) : Option AmQueueCb × List AmEffect :=
  icsmt_send { s with amresultcode := (amparseamheader packet).amresultcode } .amresponseevt

/-- `amsdk_send`, of a response. -/
def amsdk_send (s : AmQueueCb) (packet : List UInt8) (ipcchannel : CiRrChannel) :
    Option AmQueueCb × List AmEffect :=
  andThen (some s, [.dssend packet ipcchannel.channel]) fun s => amqueipcrspevt s packet

/-- The packet that `amShortResp` sends. -/
def shortPacket (amtypercv : UInt16) (resultcode : EQCWWANError) : List UInt8 :=
  let amtype :=
    if amtypercv = AmMsgType.qmiRequest then AmMsgType.qmiResponse else AmMsgType.invalid
  ambuildamheader ⟨amtype, amHdrVersion, resultcode, 0⟩

/-- `amShortResp` -/
def amShortResp (s : AmQueueCb) (amtypercv : UInt16) (resultcode : EQCWWANError)
    (ipcchannel : CiRrChannel) : Option AmQueueCb × List AmEffect :=
  amsdk_send s (shortPacket amtypercv resultcode) ipcchannel

/-- `amreleventbk` -/
def amreleventbk (s : AmQueueCb) (eventbkp : ℕ) : Option AmQueueCb × List AmEffect :=
  (some { s with amevtpool := s.amevtpool ++ [eventbkp] },
    (s.blocks eventbkp).ammemfreep.toList.map (fun p => .mmbufrel (.ammemfreep p)) ++
      [.mmbufrel (.amevtblock eventbkp)])

/-- `amipcrcvhandler`; the timer of the block is left as it is. -/
def amipcrcvhandler (s : AmQueueCb) (msg : List UInt8) (memfreep : Option ℕ)
    (ipcchannel : CiRrChannel) : Option AmQueueCb × List AmEffect :=
  match s.amevtpool with
  | [] => (none, [.erAbort])
  | eventbkp :: free =>
      let evt := ⟨msg, ipcchannel, (s.blocks eventbkp).evt.ammdmwaittmr⟩
      let s := s.setBlock eventbkp ⟨memfreep, evt, s.arrived⟩
      icsmt_send
        { s with
          amevtpool := free
          links := s.links.qlinitlnk (.ameqlnk eventbkp) none
          arrived := s.arrived + 1 } (.appRequest eventbkp)

/-- `amsdkhandler`: a request to end the daemon is obeyed, and one of another kind than the known
ones is an abort. -/
def amsdkhandler (s : AmQueueCb) (inipcmsg : List UInt8) (ipcchannel : CiRrChannel) :
    Option AmQueueCb × List AmEffect :=
  let amsdkrrtype := inipcmsg.getD 0 0
  andThen (some s, [.amsdkhandler inipcmsg ipcchannel]) fun s =>
    if amsdkrrtype = amSdkReqVersion ∨ amsdkrrtype = amSdkReqPid then (some s, [])
    else if amsdkrrtype = amSdkReqKill then (none, [.exit])
    else (none, [.erAbort])

/-- `amdispatchrequest` -/
def amdispatchrequest (s : AmQueueCb) (amtype : UInt16) (inipcmsg : List UInt8)
    (ipcchannel : CiRrChannel) : Option AmQueueCb × List AmEffect :=
  if amtype = AmMsgType.qmiRequest then (some s, [.qmsendrr inipcmsg ipcchannel])
  else if amtype = AmMsgType.sdkRequest then amsdkhandler s inipcmsg ipcchannel
  else (some s, [.undefinedType amtype])

/-- The task handles a message: a request is put in the queue. -/
def amappevent (s : AmQueueCb) (msg : AmEventp) : Option AmQueueCb × List AmEffect :=
  match msg with
  | .amresponseevt =>
      if s.amresultcode ≠ EQCWWANError.swicmTimeout then (some { s with amreqbusy := false }, [])
      else (some s, [])
  | .appRequest eventbkp =>
      let fields := s.blocks eventbkp
      if (amparseamheader fields.evt.amdata).amtype = AmMsgType.sdkRequest ∧
          (fields.evt.amdata.drop amHeaderSz).getD 0 0 = amSdkReqKill then
        (none, [.exit])
      else
        let links := s.links.qlinitlnk (.ameqlnk eventbkp) (some eventbkp)
        match amreqinittmr fields.evt with
        | none => (none, [.erAbort])
        | some evt =>
            let s := s.setBlock eventbkp { fields with evt := evt }
            (some { s with links := links.qladdprev .ameventheadq (.ameqlnk eventbkp) }, [])

/-- Process a request taken from the queue. -/
def amserverequest (s : AmQueueCb) (eventbkp : ℕ) : Option AmQueueCb × List AmEffect :=
  let evt := (s.blocks eventbkp).evt
  let header := amparseamheader evt.amdata
  if header.amheaderversion ≠ amHdrVersion then
    amShortResp s header.amtype EQCWWANError.swicmAmVersError evt.amipcchannel
  else
    amdispatchrequest s header.amtype
      (amupdatetimeout (evt.amdata.drop amHeaderSz) evt.ammdmwaittmr) evt.amipcchannel

/-- The effects for a request. -/
def actions (request : Option ℕ) (r : Option AmQueueCb × List AmEffect) :
    Option AmQueueCb × List AmAction :=
  (r.1, r.2.map (⟨request, ·⟩))

/-- When no response is outstanding, take the first request out of the queue, process it and
release its block. -/
def amservequeue (s : AmQueueCb) : Option AmQueueCb × List AmAction :=
  if s.amreqbusy then (some s, [])
  else
    let r := s.links.qlremnext .ameventheadq
    match r.1 with
    | none => (some { s with links := r.2 }, [])
    | some eventbkp =>
        actions (some (s.blocks eventbkp).request)
          (andThen (amserverequest { s with amreqbusy := true, links := r.2 } eventbkp)
            fun s => amreleventbk s eventbkp)

/-- The task takes a message, if there is one. -/
def amreceive (s : AmQueueCb) : Option AmQueueCb × List AmAction :=
  match s.amicmsgque with
  | [] => (some s, [])
  | msg :: rest => actions none (amappevent { s with amicmsgque := rest } msg)

/-- `amreqtimeout` -/
def amreqtimeout (s : AmQueueCb) (eventbkp : ℕ) : Option AmQueueCb × List AmEffect :=
  let evt := (s.blocks eventbkp).evt
  amShortResp s (amparseamheader evt.amdata).amtype EQCWWANError.swicmTimeout evt.amipcchannel

/-- The body of the loop of `amtick`. -/
def amtickBlock (s : AmQueueCb) (eventbkp : ℕ) : Option AmQueueCb × List AmEffect :=
  let fields := s.blocks eventbkp
  if fields.evt.ammdmwaittmr ≠ 0 then
    let ammdmwaittmr := fields.evt.ammdmwaittmr - 1
    let s := s.setBlock eventbkp { fields with evt := { fields.evt with ammdmwaittmr } }
    if ammdmwaittmr = 0 then
      andThen (amreqtimeout s eventbkp) fun s =>
        amreleventbk { s with links := (s.links.qlremcur (.ameqlnk eventbkp)).2 } eventbkp
    else (some s, [])
  else (some s, [])

/-- The loop of `amtick`, from a block on, with at most so many rounds; the next block is found
through the one that was handled, also when that was released. -/
def amtickLoop : ℕ → Option ℕ → AmQueueCb → Option (Option AmQueueCb × List AmAction)
  | _, none, s => some (some s, [])
  | 0, some _, _ => none
  | rounds + 1, some eventbkp, s =>
      match actions (some (s.blocks eventbkp).request) (amtickBlock s eventbkp) with
      | (none, acts) => some (none, acts)
      | (some s, acts) =>
          (amtickLoop rounds (s.links.qlgetnext (.ameqlnk eventbkp)) s).map fun r =>
            (r.1, acts ++ r.2)

/-- `amtick`; `none` if the loop does not end in so many rounds. -/
def amtick (rounds : ℕ) (s : AmQueueCb) : Option (Option AmQueueCb × List AmAction) :=
  amtickLoop rounds (s.links.qlgetnext .ameventheadq) s

end AmQueueCb

/-- A shell passes on a packet in a buffer, the task takes a message, it serves the queue, a
timer tick, and a response is sent to an application. -/
inductive AmQueueEvent where
  | receive (msg : List UInt8) (memfreep : Option ℕ) (ipcchannel : CiRrChannel)
  | message
  | serve
  | tick
  | respond (packet : List UInt8) (ipcchannel : CiRrChannel)

/-- A step; after the end of the daemon there are no more. The loop of a tick has a round for
each event block there is. -/
def queueStep (s : Option AmQueueCb) (event : AmQueueEvent) : Option AmQueueCb × List AmAction :=
  match s with
  | none => (none, [])
  | some s =>
      match event with
      | .receive msg memfreep ipcchannel =>
          AmQueueCb.actions none (s.amipcrcvhandler msg memfreep ipcchannel)
      | .message => s.amreceive
      | .serve => s.amservequeue
      | .tick => (s.amtick amEvtPoolSz).getD (none, [])
      | .respond packet ipcchannel => AmQueueCb.actions none (s.amsdk_send packet ipcchannel)

/-- The control block at the start, with any contents of the memory. -/
def aminitQueue (links : QlMemory AmLinkp (Option ℕ)) (blocks : ℕ → AmEvtFields) : AmQueueCb where
  amreqbusy := false
  amresultcode := EQCWWANError.none
  amicmsgque := []
  links := links.qlinitlnk .ameventheadq none
  blocks := blocks
  amevtpool := List.range amEvtPoolSz
  arrived := 0

section Requests

/-- A request that waits: its event block, and what is in it. -/
structure Request where
  eventbkp : ℕ
  fields : AmEvtFields

namespace Request

/-- Its link in the queue. -/
def link (r : Request) : AmLinkp := .ameqlnk r.eventbkp

/-- The number of the request, by arrival. -/
def number (r : Request) : ℕ := r.fields.request

/-- Whether its timer runs out with the next tick. -/
def expiring (r : Request) : Bool := r.fields.evt.expiring

/-- The request after a tick that it survives. -/
def ticked (r : Request) : Request :=
  { r with fields := { r.fields with evt := r.fields.evt.ticked } }

/-- Its buffer and its block are released. -/
def releases (r : Request) : List AmEffect :=
  r.fields.ammemfreep.toList.map (fun p => .mmbufrel (.ammemfreep p)) ++
    [.mmbufrel (.amevtblock r.eventbkp)]

/-- The answer to a request that waited too long. -/
def timeoutResponse (r : Request) : AmEffect :=
  .dssend
    (AmQueueCb.shortPacket (amparseamheader r.fields.evt.amdata).amtype EQCWWANError.swicmTimeout)
    r.fields.evt.amipcchannel.channel

/-- What becomes of a request that is taken from the queue: a response for another version of
the header, its handler, or a note of a type that is not known. -/
def dispatch (r : Request) : AmEffect :=
  let evt := r.fields.evt
  let header := amparseamheader evt.amdata
  let inipcmsg := amupdatetimeout (evt.amdata.drop amHeaderSz) evt.ammdmwaittmr
  if header.amheaderversion ≠ amHdrVersion then
    .dssend (AmQueueCb.shortPacket header.amtype EQCWWANError.swicmAmVersError)
      evt.amipcchannel.channel
  else if header.amtype = AmMsgType.qmiRequest then .qmsendrr inipcmsg evt.amipcchannel
  else if header.amtype = AmMsgType.sdkRequest then .amsdkhandler inipcmsg evt.amipcchannel
  else .undefinedType header.amtype

/-- All that is done for a request that waited too long. -/
def timedOut (r : Request) : List AmEffect := r.timeoutResponse :: r.releases

/-- All that is done for a request that is taken from the queue. -/
def served (r : Request) : List AmEffect := r.dispatch :: r.releases

/-- The effects for a request. -/
def act (r : Request) (effects : List AmEffect) : List AmAction :=
  effects.map (⟨some r.number, ·⟩)

end Request

/-- The block of a message. -/
def AmEventp.block : AmEventp → Option ℕ
  | .amresponseevt => none
  | .appRequest eventbkp => some eventbkp

/-- The requests `msgs` wait to be put in the queue, and the requests `q` are in the queue: each
is in its block, each block of the pool is that of one of them or free, and the requests are in
order of arrival. -/
structure Holds (s : AmQueueCb) (msgs q : List Request) : Prop where
  linked : Linked s.links .ameventheadq (q.map Request.link)
  head : (s.links .ameventheadq).qluserp = none
  user : ∀ r ∈ q, (s.links r.link).qluserp = some r.eventbkp
  block : ∀ r ∈ q ++ msgs, s.blocks r.eventbkp = r.fields
  queued : s.amicmsgque.filterMap AmEventp.block = msgs.map Request.eventbkp
  apart : ((q ++ msgs).map Request.eventbkp ++ s.amevtpool).Perm (List.range amEvtPoolSz)
  order : ((q ++ msgs).map Request.number).Pairwise (· < ·)
  arrived : ∀ r ∈ q ++ msgs, r.number < s.arrived

/-- Nothing of the requests was changed. -/
structure SameRequests (s t : AmQueueCb) : Prop where
  links : t.links = s.links
  blocks : t.blocks = s.blocks
  queued : t.amicmsgque.filterMap AmEventp.block = s.amicmsgque.filterMap AmEventp.block
  amevtpool : t.amevtpool = s.amevtpool
  arrived : t.arrived = s.arrived

end Requests

end Am

end SierraSdk
