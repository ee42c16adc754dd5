import SierraSdk.Qm.ControlBlock

/-!
# Packets from the modem and the response timer

`qmqmirsp` passes a packet that was read for a client on to the applications: a response on
the channel of the outstanding request, if the packet validates as its answer, and a
notification on every notification channel. `qmtick` answers the outstanding request when
its timer has run out.
-/

namespace SierraSdk

namespace Qm

open Am Ci

/-- Whether a packet is the awaited one; if so, the outstanding request is forgotten. -/
def qmvalidateresponse (s : QmTcb) (ctlflgs : UInt8) (xactionid : UInt16) : QmTcb × Bool :=
  if s.qmbusy ∧ s.qmoperation = ctlflgs ∧ qmixactionidvalidate s xactionid then
    (qmclearrespinfo s, true)
  else (s, false)

/-- The length of the payload of a response: the length of the QMI message with its header,
cut to what fits in a response buffer. -/
def respPayloadLen (qmpacket : List UInt8) : ℕ :=
  let xlen := (piget16 qmpacket 5 + 4).toNat
  if amMaxReqBkLen < xlen + amQmiTotal then amMaxReqBkLen - amQmiTotal else xlen

/-- The AM packet for a packet from the modem. -/
def rspMsg (instanceid : UInt8) (client : QmiClient) (qmpacket : List UInt8) : AmQmiMsg where
  amtype :=
    if qmpacket.getD 0 0 = eQMIRES then AmMsgType.qmiResponse else AmMsgType.qmiNotification
  parms :=
    { amresultcode := EQCWWANError.none
      amqmixactionlen := (respPayloadLen qmpacket).toUInt32
      amqmireqtimeout := 0
      amqmisvctype := client.svctype.code
      qmiinstanceid := instanceid }
  payload := (qmpacket.drop 3).takeD (respPayloadLen qmpacket) 0

/-- Pass a packet from the modem on. -/
def qmqmirsp (s : QmTcb) (instanceid : UInt8) (qmpacket : List UInt8) (client : QmiClient) :
    QmTcb × List QmOut :=
  let ctlflgs := qmpacket.getD 0 0
  let ipcchnum := s.qmipcchannel
  let v :=
    if ctlflgs = eQMIRES then qmvalidateresponse s ctlflgs (piget16 qmpacket 1) else (s, true)
  let msg := rspMsg instanceid client qmpacket
  if qmIsAppRegistered v.1 ipcchnum ctlflgs ∧ v.2 then
    if ctlflgs = eQMIRES then (qmclearrespinfo v.1, [.amsdkSend ipcchnum msg])
    else (v.1, cigetnotifchannums.map fun channel => .amsdkSend channel msg)
  else (v.1, [])

/-- A packet from the modem arrives; requests are none of its business. -/
def qmrxpkt (s : QmTcb) (instanceid : UInt8) (qmpacket : List UInt8) (client : QmiClient) :
    Option QmTcb × List QmOut :=
  if qmpacket.getD 0 0 = eQMIRES ∨ qmpacket.getD 0 0 = eQMINOT then
    let r := qmqmirsp s instanceid qmpacket client
    (some r.1, r.2)
  else (none, [.erAbort])

/-- The response timer: its expiry answers the outstanding request. -/
def qmtick (s : QmTcb) : QmTcb × List QmOut :=
  if s.qmmdmwaittmr = 0 then (s, [])
  else
    let t := { s with qmmdmwaittmr := s.qmmdmwaittmr - 1 }
    if t.qmmdmwaittmr = 0 then qmshortresp t EQCWWANError.qmiRspTo t.qmipcchannel else (t, [])

end Qm

end SierraSdk
