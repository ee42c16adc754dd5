import SierraSdk.Library.Machine
import SierraSdk.Sms.RilCdma

/-!
# The held messages

New messages are held in a queue until the upper layer acknowledges them. The head of the queue
is dispatched when no acknowledgement is outstanding, and it is what an acknowledgement deletes.
Messages of class 0 are put in front, but behind a head that waits for its acknowledgement.

Each region under `s_held_message_mutex` is one step. A step reads a message from the device at
most twice: one read when a message is put in the queue, and one when the head is dispatched.
The event of a step carries what the device answers; `none` is a failure. `id`, `nextId` and
`lastDispatched` are not in the source: a message is given a number when it comes, and
`lastDispatched` is the number of the message that was handed to the upper layer last.
-/

namespace SierraSdk

namespace Ril

open Machine Sms

/-- The format of messages, `SMS_FORMAT_...` -/
def smsFormatCdma : ℕ := 0
def smsFormatGsmWcdma : ℕ := 6
def smsFormatCb : ℕ := 7
def smsFormatMwi : ℕ := 8

/-- `SMS_MESSAGE_MODE_GSM_WCDMA` -/
def smsMessageModeGsmWcdma : UInt8 := 1

inductive MessageClassInfo where
  | zero
  | one
  | two
  | three
  | unknown
  deriving DecidableEq

inductive MessageTypeInfo where
  | smsDeliver
  | statusReport
  | submitReport

/-- Where the device has stored a message. -/
structure SMSMTMessageInfo where
  storageType : ℕ
  messageIndex : ℕ
  deriving DecidableEq

/-- A message that the device has not stored. -/
structure SMSTransferRouteMTMessageInfo where
  format : ℕ
  data : List UInt8
  deriving DecidableEq

/-- What is notified. Each bit of `smsEventType` says that the information is there. -/
structure SMSEventInfo where
  pMTMessageInfo : Option SMSMTMessageInfo
  pMessageModeInfo : Option UInt8
  pTransferRouteMTMessageInfo : Option SMSTransferRouteMTMessageInfo
  pSMSCAddressInfo : Option (List UInt8)
  deriving DecidableEq

/-- What `SLQSGetSMS` answers. -/
structure SmsRead where
  format : ℕ
  message : List UInt8

structure HeldMessage where
  id : ℕ
  pMsg : SMSEventInfo
  messageMode : UInt8
  messageClass : MessageClassInfo
  deriving DecidableEq

/-- The class in the coding scheme of a message, behind the service centre and the sender. -/
def retrieveMessageClass (message : List UInt8) : MessageClassInfo :=
  let smsc := (message.getD 0 0).toNat
  let length := ((message.getD (2 + smsc) 0).toNat + 1) / 2
  let tpDCS := message.getD (5 + smsc + length) 0
  if tpDCS &&& 0x10 = 0 then .unknown
  else if tpDCS &&& 0x03 = 0 then .zero
  else if tpDCS &&& 0x03 = 1 then .one
  else if tpDCS &&& 0x03 = 2 then .two
  else .three

/-- The type of a message without a service centre. The mask for a message that is delivered
is zero. -/
def retrieveMessageType (message : List UInt8) : MessageTypeInfo :=
  let smsTPDU := message.getD 0 0
  if smsTPDU &&& 0x00 ≠ 0 then .smsDeliver
  else if smsTPDU &&& 0x01 ≠ 0 then .submitReport
  else if smsTPDU &&& 0x02 ≠ 0 then .statusReport
  else .smsDeliver

/-- A digit of `bin2hex`. -/
def hexDigit (n : UInt8) : UInt8 := (if 9 < n then n + 0x27 + 0x30 else n + 0x30) ||| 0x20

/-- `bin2hex` for each of the bytes. -/
def bin2hex (bytes : List UInt8) : List UInt8 :=
  bytes.flatMap fun (ch : UInt8) => [hexDigit (ch >>> 4), hexDigit (ch &&& 0x0f)]

structure SmsState where
  held_message_info : List HeldMessage
  outstanding_acknowledge : Bool
  currentMTmsgIndex : UInt16
  ackstatus_enqueue_event : Bool
  ackStatusIndex : UInt16
  prevVMCount : ℤ
  failureEvents : ℕ
  nextId : ℕ
  lastDispatched : Option ℕ

/-- The state before the first message. `failureEvents` counts the calls of `onSMSFailure` in
the queue of events. -/
def smsStart : SmsState where
  held_message_info := []
  outstanding_acknowledge := false
  currentMTmsgIndex := 0
  ackstatus_enqueue_event := false
  ackStatusIndex := 0
  prevVMCount := -1
  failureEvents := 0
  nextId := 0
  lastDispatched := none

inductive SmsOutput where
  | newSms (messageOut : List UInt8)
  | statusReport (messageOut : List UInt8)
  | cdmaNewSms (args : RilCdmaSmsMessage)
  | broadcastSms (data : List UInt8)
  | voicemail (count : UInt8)
  | deleteSms (info : SMSMTMessageInfo) (messageMode : UInt8)
  | complete (success : Bool)

namespace SmsState

/-- The state in which the next number is taken. -/
def numbered (s : SmsState) : SmsState := { s with nextId := s.nextId + 1 }

/-- Put an event for `onSMSFailure` in the queue of events. -/
def enqueueFailure (s : SmsState) : SmsState := { s with failureEvents := s.failureEvents + 1 }

/-- A message has been handed to the upper layer. -/
def dispatched (s : SmsState) (id : ℕ) : SmsState :=
  { s with
      outstanding_acknowledge := true
      currentMTmsgIndex := s.currentMTmsgIndex + 1
      ackstatus_enqueue_event := true
      ackStatusIndex :=
        if s.ackstatus_enqueue_event then s.ackStatusIndex else s.currentMTmsgIndex + 1
      lastDispatched := some id }

/-- Put a message of class 0 in the queue. With an acknowledgement outstanding and nothing in
the queue, it goes nowhere. -/
def insertClassZero (s : SmsState) (message : HeldMessage) : SmsState :=
  if s.outstanding_acknowledge then
    match s.held_message_info with
    | [] => s
    | p :: next => { s with held_message_info := p :: message :: next }
  else { s with held_message_info := message :: s.held_message_info }

def append (s : SmsState) (message : HeldMessage) : SmsState :=
  { s with held_message_info := s.held_message_info ++ [message] }

end SmsState

/-- The part of `enqueue_held_message` behind the information on a stored message. -/
def enqueueRoute (s : SmsState) (message : HeldMessage) : SmsState :=
  match message.pMsg.pTransferRouteMTMessageInfo with
  | none => s.append message
  | some info =>
      let messageClass := retrieveMessageClass (0x00 :: info.data)
      if messageClass = .zero then
        s.insertClassZero { message with messageClass := messageClass }
      else s.append { message with messageClass := messageClass }

/-- The message that a notification makes, with no class yet. -/
def newMessage (s : SmsState) (msg : SMSEventInfo) (messageMode : UInt8) : HeldMessage where
  id := s.nextId
  pMsg := msg
  messageMode := msg.pMessageModeInfo.getD messageMode
  messageClass := .unknown

/-- The class of a message for GSM that is stored is read from the device. -/
def HeldMessage.readsClass (message : HeldMessage) : Bool :=
  message.pMsg.pMTMessageInfo.isSome && message.messageMode == smsMessageModeGsmWcdma

/-- A message whose class cannot be read is not held. -/
def enqueue_held_message (s : SmsState) (msg : SMSEventInfo) (messageMode : UInt8)
    (read : Option SmsRead) : SmsState :=
  let message := newMessage s msg messageMode
  let s := s.numbered
  if message.readsClass then
    match read with
    | none => s
    | some r =>
        let messageClass := retrieveMessageClass r.message
        if messageClass = .zero then
          -- the rest of the information is not copied
          s.insertClassZero
            { message with
                pMsg :=
                  { msg with pTransferRouteMTMessageInfo := none, pSMSCAddressInfo := none }
                messageClass := messageClass }
        else enqueueRoute s { message with messageClass := messageClass }
  else enqueueRoute s message

/-- Take the head from the queue and, if it is stored there, from the device. -/
def delete_held_message (s : SmsState) : SmsState × List SmsOutput :=
  match s.held_message_info with
  | [] => (s, [])
  | message :: next =>
      ({ s with held_message_info := next },
        match message.pMsg.pMTMessageInfo with
        | none => []
        | some info => [.deleteSms info message.messageMode])

/-- Two messages have the same mode, storage and index. -/
def HeldMessage.sameStored (p : HeldMessage) (messageMode : UInt8) (info : SMSMTMessageInfo) :
    Bool :=
  p.messageMode == messageMode && p.pMsg.pMTMessageInfo == some info

def message_present_in_queue (s : SmsState) (messageMode : UInt8) (info : SMSMTMessageInfo) :
    Bool :=
  s.held_message_info.any fun p => p.sameStored messageMode info

/-- Put a message behind the messages of class 0 at the front of a queue. -/
def insertBehindClassZero (q : HeldMessage) : List HeldMessage → List HeldMessage
  | [] => [q]
  | p :: next =>
      if p.messageClass = .zero then p :: insertBehindClassZero q next else q :: p :: next

def parse_and_prioritize_queue (s : SmsState) : SmsState × Bool :=
  match s.held_message_info with
  | q :: p :: next =>
      if q.messageClass = .zero then (s, false)
      else if p.messageClass = .zero then
        ({ s with held_message_info := insertBehindClassZero q (p :: next) }, true)
      else (s, false)
  | _ => (s, false)

/-- A message that the upper layer cannot be given is deleted from the queue: the head, which
is what `NewSMSDispatch` is called with. -/
def discard (s : SmsState) (out : List SmsOutput) : SmsState × List SmsOutput :=
  ((delete_held_message s).1.enqueueFailure, out ++ (delete_held_message s).2)

/-- The number of voice messages is indicated when it changes. -/
def indicateVoicemail (s : SmsState) (count : UInt8) : SmsState × List SmsOutput :=
  if s.prevVMCount ≠ count.toNat then ({ s with prevVMCount := count.toNat }, [.voicemail count])
  else (s, [])

/-- A decoded message before anything is decoded. -/
def noCdmaMessage : RilCdmaSmsMessage where
  uTeleserviceID := 0
  uServicecategory := 0
  sAddress := { digitMode := 0, numberOfDigits := 0, digits := fun _ => 0 }
  uBearerDataLen := 0
  aBearerData := fun _ => 0

def dispatchStored (s : SmsState) (id : ℕ) (r : SmsRead) : SmsState × List SmsOutput :=
  if r.format = smsFormatGsmWcdma then (s.dispatched id, [.newSms (bin2hex r.message)])
  else if r.format = smsFormatCdma then
    match CDMADecodeMTTextMsg r.message noCdmaMessage with
    | (.none, args) => (s.dispatched id, [.cdmaNewSms args])
    | (_, _) => (s, [])
  else if r.format = smsFormatMwi then
    discard (indicateVoicemail s (r.message.getD 0 0)).1
      (indicateVoicemail s (r.message.getD 0 0)).2
  else discard s []

/-- The service centre and the data of a message that is not stored. -/
def routedPdu (msg : SMSEventInfo) (info : SMSTransferRouteMTMessageInfo) : List UInt8 :=
  match msg.pSMSCAddressInfo with
  | none => bin2hex (0x00 :: info.data)
  | some data => bin2hex (UInt8.ofNat data.length :: data ++ info.data)

def dispatchRouted (s : SmsState) (id : ℕ) (msg : SMSEventInfo)
    (info : SMSTransferRouteMTMessageInfo) : SmsState × List SmsOutput :=
  if info.format = smsFormatCb then (s, [.broadcastSms info.data])
  else if info.format = smsFormatGsmWcdma then
    match retrieveMessageType info.data with
    | .smsDeliver => (s.dispatched id, [.newSms (routedPdu msg info)])
    | .statusReport => (s.dispatched id, [.statusReport (routedPdu msg info)])
    | .submitReport => discard { s with outstanding_acknowledge := false } []
  else discard s []

/-- Hand a message to the upper layer. -/
def NewSMSDispatch (s : SmsState) (id : ℕ) (msg : SMSEventInfo) (read : Option SmsRead) :
    SmsState × List SmsOutput :=
  match msg.pMTMessageInfo, msg.pTransferRouteMTMessageInfo with
  | some _, _ =>
      match read with
      | none => (s, [])
      | some r => dispatchStored s id r
  | none, some info => dispatchRouted s id msg info
  | none, none => discard s []

/-- Dispatch the head of the queue, if there is one. -/
def dispatchHead (s : SmsState) (read : Option SmsRead) : SmsState × List SmsOutput :=
  match s.held_message_info with
  | [] => (s, [])
  | message :: _ => NewSMSDispatch s message.id message.pMsg read

/-- A broadcast to a cell is dispatched and not held. -/
def SMSEventInfo.isCellBroadcast (msg : SMSEventInfo) : Bool :=
  msg.pTransferRouteMTMessageInfo.any fun info => info.format == smsFormatCb

/-- A new message is notified. Without the technology of the device there is no mode for it. -/
def NewSmsCallback (s : SmsState) (msg : SMSEventInfo) (messageMode : Option UInt8)
    (enqueueRead dispatchRead : Option SmsRead) : SmsState × List SmsOutput :=
  match messageMode with
  | none => (s, [])
  | some messageMode =>
      if msg.isCellBroadcast then
        let r := NewSMSDispatch s.numbered s.nextId msg dispatchRead
        (r.1.enqueueFailure, r.2)
      else
        let s := enqueue_held_message s msg messageMode enqueueRead
        if s.outstanding_acknowledge then (s, []) else dispatchHead s dispatchRead

/-- A stored message that a scan found. -/
def enqueueScanned (s : SmsState) (messageMode : UInt8) (info : SMSMTMessageInfo)
    (read : Option SmsRead) : SmsState :=
  if message_present_in_queue s messageMode info then s
  else
    enqueue_held_message s
      { pMTMessageInfo := some info
        pMessageModeInfo := some messageMode
        pTransferRouteMTMessageInfo := none
        pSMSCAddressInfo := none } messageMode read

/-- The end of `getSMSList`. -/
def dispatchScanned (s : SmsState) (isMsgEnqueued : Bool) (read : Option SmsRead) :
    SmsState × List SmsOutput :=
  if isMsgEnqueued && !s.outstanding_acknowledge then dispatchHead s read else (s, [])

/-- The two requests for an acknowledgement; after a negative one only the one for GSM looks
for messages of class 0. -/
def requestSMSAcknowledge (s : SmsState) (cdma ackSuccess : Bool) (read : Option SmsRead) :
    SmsState × List SmsOutput :=
  if !s.outstanding_acknowledge then (s, [.complete false])
  else
    let s : SmsState := { s with outstanding_acknowledge := false }
    if ackSuccess then
      let r := delete_held_message s
      let d := dispatchHead r.1 read
      (d.1, r.2 ++ d.2 ++ [.complete true])
    else if cdma then (s, [.complete true])
    else
      let r := parse_and_prioritize_queue s
      if r.2 then
        let d := dispatchHead r.1 read
        (d.1, d.2 ++ [.complete true])
      else (r.1, [.complete true])

/-- An event for `onSMSFailure`, if there is one in the queue of events. -/
def onSMSFailure (s : SmsState) (read : Option SmsRead) : SmsState × List SmsOutput :=
  if s.failureEvents = 0 then (s, [])
  else dispatchHead { s with failureEvents := s.failureEvents - 1 } read

/-- An event for `checkAckStatus`, if there is one in the queue of events. -/
def checkAckStatus (s : SmsState) (read : Option SmsRead) : SmsState × List SmsOutput :=
  if !s.ackstatus_enqueue_event then (s, [])
  else
    let s : SmsState := { s with ackstatus_enqueue_event := false }
    if s.outstanding_acknowledge && s.currentMTmsgIndex == s.ackStatusIndex then
      dispatchHead { s with outstanding_acknowledge := false } read
    else (s, [])

inductive SmsEvent where
  | notify (msg : SMSEventInfo) (messageMode : Option UInt8) (enqueueRead : Option SmsRead)
      (read : Option SmsRead)
  | scanned (messageMode : UInt8) (info : SMSMTMessageInfo) (enqueueRead : Option SmsRead)
  | scanEnd (isMsgEnqueued : Bool) (read : Option SmsRead)
  | acknowledge (cdma ackSuccess : Bool) (read : Option SmsRead)
  | failure (read : Option SmsRead)
  | ackStatus (read : Option SmsRead)

def smsStep (s : SmsState) : SmsEvent → SmsState × List SmsOutput
  | .notify msg messageMode enqueueRead read => NewSmsCallback s msg messageMode enqueueRead read
  | .scanned messageMode info enqueueRead => (enqueueScanned s messageMode info enqueueRead, [])
  | .scanEnd isMsgEnqueued read => dispatchScanned s isMsgEnqueued read
  | .acknowledge cdma ackSuccess read => requestSMSAcknowledge s cdma ackSuccess read
  | .failure read => onSMSFailure s read
  | .ackStatus read => checkAckStatus s read

end Ril

end SierraSdk
