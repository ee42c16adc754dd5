import SierraSdk.Am.EventQueue
import SierraSdk.Qm.Task

/-!
# The buffers of the requests

A shell receives a request in a buffer of its pool and passes it to the AM task, with the buffer
as what is to be released. The AM task passes a QMI request on to the QM task by a pointer into
that buffer, and the QM task passes a request for the DCS task on in the same way; both are given
no memory to release. The pool of a shell is a queue of the buffers that are free.

The buffers of all shells are numbered, those of one shell in a row. What an event points to is
recorded with the bytes that the application sent; these are not in the code.
-/

namespace SierraSdk

namespace Am

open Ci Machine Ql Qm

/-- `DSIPCPOOLSZ`, the number of buffers of a shell. -/
def dsIpcPoolSz : ℕ := 45

/-- `DSIPCBUFSZ`, the size of a buffer. -/
def dsIpcBufSz : ℕ := 2000

/-- `QMEVTPOOLSZ`, the number of event blocks of the QM task. -/
def qmEvtPoolSz : ℕ := 30

/-- The data of an event: the buffer that it points into, and the bytes that were sent. -/
structure EvtData where
  bufp : ℕ
  sent : List UInt8

/-- An event block of the QM task: a request, or something about the device or the network. -/
inductive QmEvtBlock where
  | qmiReq (data : EvtData) (ipcchan : UInt8)
  | device (event : DsSioEvent)
  | net (q_depth : UInt32) (isThrottle : Bool)

/-- The data of a request. -/
def QmEvtBlock.data : QmEvtBlock → Option EvtData
  | .qmiReq data _ => some data
  | .device _ | .net .. => none

/-- The tasks with what they share. The DCS task has its events in the control block of QM, and
what they point to in `qmdcsevtdata`; a shell that waits for a packet has a buffer for it. -/
structure SdkTasks where
  am : AmQueueCb
  qm : QmTcb
  buffer : ℕ → List UInt8
  dsbufpool : ℕ → List ℕ
  inipcmsgp : ℕ → Option ℕ
  qmicmsgque : List QmEvtBlock
  qmdcsevtdata : List EvtData

namespace SdkTasks

/-- What the events of the QM and DCS tasks point to. -/
def held (s : SdkTasks) : List EvtData :=
  s.qmicmsgque.filterMap QmEvtBlock.data ++ s.qmdcsevtdata

/-- Bytes are written into a buffer, and the others are left as they are. -/
def write (s : SdkTasks) (bufp offset : ℕ) (bytes : List UInt8) : SdkTasks :=
  let old := s.buffer bufp
  let new := old.take offset ++ bytes ++ old.drop (offset + bytes.length)
  { s with buffer := Function.update s.buffer bufp new }

/-- `mmbufrel`, of the buffer of a request. -/
def mmbufrel (s : SdkTasks) (bufp : ℕ) : SdkTasks :=
  let chan := bufp / dsIpcPoolSz
  { s with dsbufpool := Function.update s.dsbufpool chan (s.dsbufpool chan ++ [bufp]) }

/-- A shell takes the buffer for the next packet from its pool. -/
def shellAllocate (s : SdkTasks) (ipcchannel : CiRrChannel) : Option SdkTasks :=
  let chan := ipcchannel.channel.toNat
  match s.inipcmsgp chan, s.dsbufpool chan with
  | some _, _ => some s
  | none, [] => none
  | none, bufp :: free =>
      some
        { s with
          dsbufpool := Function.update s.dsbufpool chan free
          inipcmsgp := Function.update s.inipcmsgp chan (some bufp) }

/-- A shell that waits has received a packet, and calls the handler. -/
def shellReceive (s : SdkTasks) (ipcchannel : CiRrChannel) (packet : List UInt8) :
    Option SdkTasks :=
  let chan := ipcchannel.channel.toNat
  match s.inipcmsgp chan with
  | none => some s
  | some bufp =>
      let msg := packet.take dsIpcBufSz
      (queueStep (some s.am) (.receive msg (some bufp) ipcchannel)).1.map fun am =>
        { s.write bufp 0 msg with am := am, inipcmsgp := Function.update s.inipcmsgp chan none }

/-- An event is queued to the QM task; no event block is an abort. -/
def qmsend (s : SdkTasks) (evt : QmEvtBlock) : Option SdkTasks :=
  if s.qmicmsgque.length < qmEvtPoolSz then
    some { s with qmicmsgque := s.qmicmsgque ++ [evt] }
  else none

/-- `qmsendrr`, for the request in a buffer. -/
def qmsendrr (s : SdkTasks) (bufp : ℕ) (amqmimsg : List UInt8) (ipcchannel : UInt8) :
    Option SdkTasks :=
  s.qmsend (.qmiReq ⟨bufp, amqmimsg⟩ ipcchannel)

/-- What the AM task did for a request is seen by the other tasks: a QMI request is passed on,
and buffers are released. -/
def perform (s : SdkTasks) (bufp : ℕ) : AmEffect → Option SdkTasks
  | .qmsendrr amqmimsg ipcchannel => s.qmsendrr bufp amqmimsg ipcchannel.channel
  | .mmbufrel (.ammemfreep p) => some (s.mmbufrel p)
  | _ => some s

/-- All that was done in a step. -/
def performAll (s : SdkTasks) (bufp : ℕ) (r : Option AmQueueCb × List AmAction) :
    Option SdkTasks :=
  r.1.bind fun am => r.2.foldlM (fun s act => s.perform bufp act.effect) { s with am := am }

/-- The first request of the queue, if the task is to serve it. -/
def toServe (s : SdkTasks) : Option AmEvtFields :=
  if s.am.amreqbusy then none
  else (s.am.links.qlremnext .ameventheadq).1.map s.am.blocks

/-- The buffer of a request; the shell passes it as what is to be released. -/
def bufferOf (fields : AmEvtFields) : ℕ := fields.ammemfreep.getD 0

/-- The time that is left is written over the timeout of the request that is dispatched. -/
def writeTimeout (s : SdkTasks) (fields : AmEvtFields) : SdkTasks :=
  if (amparseamheader fields.evt.amdata).amheaderversion ≠ amHdrVersion then s
  else
    s.write (bufferOf fields) amHeaderSz
      (amupdatetimeout (fields.evt.amdata.drop amHeaderSz) fields.evt.ammdmwaittmr)

/-- The AM task serves its queue. -/
def serve (s : SdkTasks) : Option SdkTasks :=
  match s.toServe with
  | none => s.performAll 0 s.am.amservequeue
  | some fields => (s.writeTimeout fields).performAll (bufferOf fields) s.am.amservequeue

/-- The other steps of the AM task. -/
def amEvent (s : SdkTasks) (event : AmQueueEvent) : Option SdkTasks :=
  s.performAll 0 (queueStep (some s.am) event)

/-- An event that QM queues to itself, or a request that it passes on to the DCS task, with a
pointer to what is behind the preamble of that request. -/
def qmSent (data : Option EvtData) (s : SdkTasks) (out : QmOut) : Option SdkTasks :=
  match out, data with
  | .deviceEvt event, _ => s.qmsend (.device event)
  | .qmsenddcsreq _, some data =>
      some { s with qmdcsevtdata := s.qmdcsevtdata ++ [⟨data.bufp, data.sent.drop amQmiRrnSz⟩] }
  | _, _ => some s

/-- QM handled an event, which may be a request. -/
def qmDone (s : SdkTasks) (data : Option EvtData) (r : Option QmTcb × List QmOut) :
    Option SdkTasks :=
  r.1.bind fun qm => r.2.foldlM (qmSent data) { s with qm := qm }

end SdkTasks

/-- The bytes that a task finds where its event points to, and the ones that were sent. -/
structure EvtRead where
  read : List UInt8
  sent : List UInt8

/-- As many bytes as were sent are compared; behind them are others. -/
def EvtRead.exact (r : EvtRead) : Prop := r.read.take r.sent.length = r.sent

namespace SdkTasks

/-- The QM task takes an event from its queue. -/
def qmtask (s : SdkTasks) (env : ReqEnv) : Option SdkTasks × List EvtRead :=
  match s.qmicmsgque with
  | [] => (some s, [])
  | evt :: rest =>
      let s := { s with qmicmsgque := rest }
      match evt with
      | .qmiReq data ipcchan =>
          let packet := (s.buffer data.bufp).drop amHeaderSz
          (s.qmDone (some data) (Qm.qmtask s.qm (.qmiReq packet ipcchan env)),
            [⟨packet, data.sent⟩])
      | .device event => (s.qmDone none (Qm.qmtask s.qm (.device event)), [])
      | .net q_depth isThrottle =>
          (s.qmDone none (Qm.qmtask s.qm (.net q_depth isThrottle)), [])

/-- The DCS task takes an event from its queue, and reads the request where it points to. -/
def dcstask (s : SdkTasks) (env : DcsEnv) : Option SdkTasks × List EvtRead :=
  match s.qm.qmdcsicmsgque, s.qmdcsevtdata with
  | evt :: evts, data :: rest =>
      let packet := (s.buffer data.bufp).drop (amHeaderSz + amQmiRrnSz)
      let qm := { s.qm with qmdcsicmsgque := { evt with qmdcsevtdata := packet } :: evts }
      ({ s with qmdcsevtdata := rest }.qmDone none (Qm.qmtask qm (.dcs env)),
        [⟨packet, data.sent⟩])
  | _, _ => (some s, [])

end SdkTasks

/-- The steps: those of the shells, of the AM task, something that is queued to the QM task, the
QM task, the rest of what the QM package does, and the DCS task. -/
inductive SdkEvent where
  | allocate (ipcchannel : CiRrChannel)
  | receive (ipcchannel : CiRrChannel) (packet : List UInt8)
  | message
  | serve
  | tick
  | respond (packet : List UInt8) (ipcchannel : CiRrChannel)
  | device (event : DsSioEvent)
  | net (q_depth : UInt32) (isThrottle : Bool)
  | qmtask (env : ReqEnv)
  | rx (instanceid : UInt8) (client : QmiClient) (qmpacket : List UInt8)
  | qmtick (sixtySeconds : Bool)
  | fwStatus (status : EQCWWANError)
  | dcstask (env : DcsEnv)

/-- A step, with what the QM and DCS tasks read. -/
def sdkStep (s : Option SdkTasks) (event : SdkEvent) : Option SdkTasks × List EvtRead :=
  match s with
  | none => (none, [])
  | some s =>
      match event with
      | .allocate ipcchannel => (s.shellAllocate ipcchannel, [])
      | .receive ipcchannel packet => (s.shellReceive ipcchannel packet, [])
      | .message => (s.amEvent .message, [])
      | .serve => (s.serve, [])
      | .tick => (s.amEvent .tick, [])
      | .respond packet ipcchannel => (s.amEvent (.respond packet ipcchannel), [])
      | .device event => (s.qmsend (.device event), [])
      | .net q_depth isThrottle => (s.qmsend (.net q_depth isThrottle), [])
      | .qmtask env => s.qmtask env
      | .rx instanceid client qmpacket =>
          (s.qmDone none (Qm.qmtask s.qm (.rx instanceid client qmpacket)), [])
      | .qmtick sixtySeconds => (s.qmDone none (Qm.qmtask s.qm (.tick sixtySeconds)), [])
      | .fwStatus status => (s.qmDone none (Qm.qmtask s.qm (.fwStatus status)), [])
      | .dcstask env => s.dcstask env

/-- The buffers of a shell. -/
def shellBuffers (chan : ℕ) : List ℕ := (List.range dsIpcPoolSz).map (dsIpcPoolSz * chan + ·)

/-- The tasks at the start, with any contents of the memory. -/
def sdkStart (links : QlMemory AmLinkp (Option ℕ)) (blocks : ℕ → AmEvtFields)
    (buffer : ℕ → List UInt8) : SdkTasks where
  am := aminitQueue links blocks
  qm := qminit
  buffer := buffer
  dsbufpool := shellBuffers
  inipcmsgp := fun _ => none
  qmicmsgque := []
  qmdcsevtdata := []

/-- No event points to a buffer that is free, or that a shell waits to receive a packet in. -/
def SdkTasks.Owned (s : SdkTasks) : Prop :=
  ∀ data ∈ s.held, ∀ chan, data.bufp ∉ s.dsbufpool chan ∧ s.inipcmsgp chan ≠ some data.bufp

/-- A step leads to a state in which the buffers are owned, and what a task reads in it is what
was sent. -/
def BuffersOwned (s : Option SdkTasks) (event : SdkEvent) : Prop :=
  (∀ t, (sdkStep s event).1 = some t → t.Owned) ∧ ∀ r ∈ (sdkStep s event).2, r.exact

/-- The AM task serves a QMI request with a header of this version, for which the QM task has an
event block. -/
def PassesOn (s : Option SdkTasks) (event : SdkEvent) : Prop :=
  match s, event with
  | some s, .serve =>
      ∃ fields, s.toServe = some fields ∧
        (amparseamheader fields.evt.amdata).amheaderversion = amHdrVersion ∧
        (amparseamheader fields.evt.amdata).amtype = AmMsgType.qmiRequest ∧
        s.qmicmsgque.length < qmEvtPoolSz
  | _, _ => False

end Am

end SierraSdk
