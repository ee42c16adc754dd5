import Mathlib.Data.Int.Notation
import Mathlib.Data.List.Basic
import SierraSdk.Library.Monitor

/-!
# The data call of the RIL

A request sets a data call up: a session of the modem is started, and what the modem says of it is
kept in a response, which data call lists are made of. For IPv6 the request is completed at once.
Otherwise a task is queued that asks whether DHCP has an address, up to ten times, and completes
the request.

The response, the number of the session and the last failure cause are updated in different places.
What the modem, the DHCP client and the other parts of the RIL say is the input.
-/

namespace SierraSdk

namespace Ril

namespace DataCall

section Causes

/-- The failure causes of voice calls that are given for a data call. -/
inductive CallFailCause
  | cdmaLockedUntilPowerCycle
  | cdmaIntercept
  | cdmaReorder
  | cdmaSoReject
  | busy
  | cdmaAccessFailure
  | cdmaDrop
  | errorUnspecified
  | normal
  deriving DecidableEq

/-- `PDP_FAIL_NONE` and the failure causes of data calls. -/
inductive PdpFailCause
  | none
  | radioPowerOff
  | onlyIpv4Allowed
  | unknownPdpAddressType
  | errorUnspecified
  | insufficientResources
  | userAuthentication
  | protocolErrors
  | activationRejectUnspecified
  | activationRejectGgsn
  | serviceOptionOutOfOrder
  | serviceOptionNotSupported
  | serviceOptionNotSubscribed
  | nsapiInUse
  | operatorBarred
  | missingUknownApn
  | registrationFail
  | callFail (cause : CallFailCause)
  deriving DecidableEq

def qmi_general_cause_codes : List PdpFailCause :=
  [.errorUnspecified, .insufficientResources, .insufficientResources, .errorUnspecified,
    .errorUnspecified, .errorUnspecified, .errorUnspecified, .errorUnspecified, .errorUnspecified,
    .userAuthentication, .errorUnspecified]

def qmi_cdma_cause_codes : List PdpFailCause :=
  [.callFail .cdmaLockedUntilPowerCycle, .callFail .cdmaIntercept, .callFail .cdmaReorder,
    .callFail .cdmaSoReject, .callFail .busy, .callFail .cdmaAccessFailure, .callFail .cdmaDrop,
    .callFail .errorUnspecified, .callFail .errorUnspecified, .callFail .errorUnspecified,
    .callFail .cdmaAccessFailure, .callFail .cdmaAccessFailure, .callFail .cdmaAccessFailure,
    .callFail .cdmaAccessFailure, .callFail .cdmaAccessFailure, .callFail .cdmaAccessFailure]

def qmi_umts_cause_codes : List PdpFailCause :=
  [.protocolErrors, .activationRejectUnspecified, .errorUnspecified, .errorUnspecified,
    .protocolErrors, .insufficientResources, .serviceOptionOutOfOrder, .nsapiInUse,
    .errorUnspecified, .errorUnspecified, .activationRejectUnspecified, .errorUnspecified,
    .operatorBarred, .missingUknownApn, .unknownPdpAddressType, .activationRejectGgsn,
    .activationRejectUnspecified, .serviceOptionNotSupported, .serviceOptionNotSubscribed,
    .insufficientResources, .protocolErrors, .protocolErrors, .unknownPdpAddressType,
    .protocolErrors, .protocolErrors, .protocolErrors, .protocolErrors, .protocolErrors,
    .protocolErrors, .protocolErrors, .protocolErrors, .protocolErrors, .protocolErrors,
    .protocolErrors, .protocolErrors, .insufficientResources, .insufficientResources]

def qmi_evdo_cause_codes : List PdpFailCause :=
  [.callFail .busy, .registrationFail, .callFail .normal, .callFail .normal, .registrationFail,
    .callFail .normal, .callFail .busy, .callFail .normal]

/-- The cause of a code in a table that starts with another code. -/
def causeIn (start : ℕ) (tablep : List PdpFailCause) (qmicode : UInt32) : Option PdpFailCause :=
  if start ≤ qmicode.toNat then tablep[qmicode.toNat - start]? else none

/-- The cause that is recorded for a code. -/
def retrievePDPRejectCauseQMI (qmicode : UInt32) : PdpFailCause :=
  (causeIn 1 qmi_general_cause_codes qmicode <|> causeIn 500 qmi_cdma_cause_codes qmicode <|>
    causeIn 1000 qmi_umts_cause_codes qmicode <|>
      causeIn 1500 qmi_evdo_cause_codes qmicode).getD .errorUnspecified

end Causes

section Addresses

/-- `QMI_IPFamilyPreference` -/
inductive IPFamilyPreference
  | ipv4
  | ipv6
  | ipv4v6
  | unspec
  deriving DecidableEq

def getIPFamilyPreference : Option String → IPFamilyPreference
  | none => .unspec
  | some ipPref =>
      if ipPref = "IP" ∨ ipPref = "IPV4" then .ipv4
      else if ipPref = "IPV6" then .ipv6
      else if ipPref = "IPV4V6" then .ipv4v6
      else .unspec

/-- What the modem says of a session. -/
structure RunTimeSettings where
  ipAddressV4 : UInt32
  primaryDNSV4 : UInt32
  secondaryDNSV4 : UInt32
  gwAddressV4 : UInt32
  ipAddressV6 : Fin 8 → UInt16
  primDNSV6 : Fin 8 → UInt16
  secondDNSV6 : Fin 8 → UInt16
  gwAddressV6 : Fin 8 → UInt16

/-- The octets in decimal, the most significant one first. -/
def getIPAddressStr (ipAddress : UInt32) : String :=
  ".".intercalate
    (([24, 16, 8, 0] : List UInt32).map fun shift =>
      toString ((ipAddress >>> shift) &&& 0xFF).toNat)

/-- The parts in hexadecimal, zeros if all of them are `0xffff`. -/
def getIPV6AddressStr (ipV6Address : Fin 8 → UInt16) : String :=
  let parts := List.ofFn ipV6Address
  let parts := if parts.all (· = 0xffff) then parts.map fun _ => 0 else parts
  ":".intercalate (parts.map fun part => String.ofList (Nat.toDigits 16 part.toNat))

/-- The addresses of a session, as the response has them. -/
def addressStr (rts : RunTimeSettings) : IPFamilyPreference → String
  | .ipv4 => getIPAddressStr rts.ipAddressV4
  | .ipv6 => getIPV6AddressStr rts.ipAddressV6
  | _ => getIPAddressStr rts.ipAddressV4 ++ " " ++ getIPV6AddressStr rts.ipAddressV6

def dnsStr (rts : RunTimeSettings) : IPFamilyPreference → String
  | .ipv4 => getIPAddressStr rts.primaryDNSV4 ++ " " ++ getIPAddressStr rts.secondaryDNSV4
  | .ipv6 => getIPV6AddressStr rts.primDNSV6 ++ " " ++ getIPV6AddressStr rts.secondDNSV6
  | _ =>
      getIPAddressStr rts.primaryDNSV4 ++ " " ++ getIPAddressStr rts.secondaryDNSV4 ++ " " ++
        getIPV6AddressStr rts.primDNSV6 ++ " " ++ getIPV6AddressStr rts.secondDNSV6

def gatewayStr (rts : RunTimeSettings) : IPFamilyPreference → String
  | .ipv4 => getIPAddressStr rts.gwAddressV4
  | .ipv6 => getIPV6AddressStr rts.gwAddressV6
  | _ => getIPAddressStr rts.gwAddressV4 ++ " " ++ getIPV6AddressStr rts.gwAddressV6

end Addresses

section Calls

/-- The results of starting and stopping a session that are told apart. -/
inductive SessionResult
  | none
  | callFailed
  | noEffect
  | v4upV6up
  | v4upV6dwn
  | v4dwnV6up
  | other (code : UInt32)
  deriving DecidableEq

/-- The answer of `SLQSStartStopDataSession` to a start. -/
structure StartAnswer where
  result : SessionResult
  v4sessionId : UInt32
  v6sessionId : UInt32

/-- The result and the ids of the sessions, which are zero if none was started. The reason of a
failure is left in the request to the modem. -/
def startDataSession2 (ipFamilyPreference : IPFamilyPreference) (answer : StartAnswer) :
    SessionResult × UInt32 × UInt32 :=
  let rc := answer.result
  if rc ≠ .none ∧ rc ≠ .v4upV6up ∧ rc ≠ .v4upV6dwn ∧ rc ≠ .v4dwnV6up then (rc, 0, 0)
  else
    match ipFamilyPreference with
    | .ipv4 => (rc, answer.v4sessionId, 0)
    | .ipv6 => (rc, 0, answer.v6sessionId)
    | .ipv4v6 => (.none, answer.v4sessionId, answer.v6sessionId)
    | .unspec => (rc, 0, 0)

/-- `PACKET_STATE_CONNECTED` -/
def packetStateConnected : UInt32 := 2

/-- The two answers of `GetSessionState`, which is asked again after an error. -/
structure SessionState where
  first : Option UInt32
  second : Option UInt32

def isDataSessionActive (state : SessionState) : Bool :=
  (state.first <|> state.second) = some packetStateConnected

end Calls

section State

/-- `RIL_SessionState` -/
inductive RilSessionState
  | inactive
  | activeLinkdown
  | activeLinkup
  deriving DecidableEq

/-- `RIL_Data_Call_Response_v6` -/
structure DataCallResponse where
  status : PdpFailCause
  suggestedRetryTime : ℤ
  cid : ℕ
  active : RilSessionState
  type : Option String
  addresses : Option String
  dnses : Option String
  gateways : Option String

/-- `RIL_ACTIVATE_DATA_CALL_RETRY_NO_SUGGESTION` -/
def retryNoSuggestion : ℤ := -1

def swiDefaultCid : ℕ := 1

/-- A task that polls DHCP. Whether a deactivation has succeeded since it was queued is not in the
source. -/
structure DhcpPollParams where
  t : ℕ
  loopcount : ℕ
  pdp_active : Bool
  deactivated : Bool

/-- The variables of the data call, and the tasks in the event queue. -/
structure PdpTcb where
  sessionIDQMI : UInt32
  rilPDPContextListRes : DataCallResponse
  lastPdpFailCauseQMI : PdpFailCause
  polls : List DhcpPollParams

def pdpInit : PdpTcb where
  sessionIDQMI := 0
  rilPDPContextListRes := ⟨.none, retryNoSuggestion, 0, .inactive, none, none, none, none⟩
  lastPdpFailCauseQMI := .errorUnspecified
  polls := []

/-- What is done: calls of the modem and what it says, causes that are recorded, and responses. -/
inductive PdpOut
  /-- A request to set a data call up is worked on. -/
  | attempts (t : ℕ)
  | cause (cause : PdpFailCause)
  /-- The modem is asked to start a session. -/
  | starts
  | started (type : String)
  | settings (rts : RunTimeSettings)
  /-- The DHCP client is started. -/
  | dhcp
  | stopped
  /-- The response is initialised. -/
  | cleared
  /-- A request to set a data call up is completed, by a task that is overtaken by a deactivation or
  not. -/
  | complete (t : ℕ) (response : DataCallResponse) (failed deactivated : Bool)
  | deactivated (t : ℕ) (success : Bool)
  /-- A list, for a request or unsolicited. -/
  | list (t : Option ℕ) (response : DataCallResponse)

/-- What is done before the rest. -/
def emit (out : List PdpOut) (r : PdpTcb × List PdpOut) : PdpTcb × List PdpOut :=
  (r.1, out ++ r.2)

end State

section Setup

/-- `RIL_REQUEST_SETUP_DATA_CALL`, with the numbers that its strings denote. -/
structure SetupRequest where
  t : ℕ
  tech_ril : ℤ
  authtype : Option ℤ
  pdptype : Option String

/-- The type of a request. -/
def SetupRequest.type (q : SetupRequest) : String := q.pdptype.getD "IP"

/-- The technologies of UMTS, from `RIL_TECH_UMTS` and the types of `RIL_RAT`. -/
def SetupRequest.isUmts (q : SetupRequest) : Bool :=
  q.tech_ril = 1 || q.tech_ril - 2 ∈ ([1, 2, 3, 9, 10, 11, 13, 15] : List ℤ)

/-- What a request meets: whether the radio is on, whether the device is one that has IPv4 only, the
answers of the modem, whether the DHCP client could be started, and the carrier. -/
structure SetupWorld where
  radioOn : Bool
  isGobiOnly : Bool
  start : StartAnswer
  state : SessionState
  settings : Option RunTimeSettings
  dhcpStarts : Bool
  isSprint : Bool
  goDormant : Bool
  stop : SessionResult

def PdpTcb.withStatus (s : PdpTcb) (status : PdpFailCause) : PdpTcb :=
  { s with rilPDPContextListRes := { s.rilPDPContextListRes with status := status } }

/-- What is done behind `error`, for a request and for a task. -/
def errorHandling (s : PdpTcb) (pdp_active : Bool) (stop : SessionResult) :
    PdpTcb × List PdpOut :=
  if pdp_active = true ∧ s.sessionIDQMI ≠ 0 then
    let s := { s with lastPdpFailCauseQMI := .errorUnspecified }
    if stop = .none ∨ stop = .noEffect then
      let s := { s with sessionIDQMI := 0 }
      (s.withStatus s.lastPdpFailCauseQMI, [.cause .errorUnspecified, .stopped])
    else (s.withStatus s.lastPdpFailCauseQMI, [.cause .errorUnspecified])
  else (s.withStatus s.lastPdpFailCauseQMI, [])

def setupError (s : PdpTcb) (pdp_active : Bool) (q : SetupRequest) (w : SetupWorld) :
    PdpTcb × List PdpOut :=
  let r := errorHandling s pdp_active w.stop
  (r.1, r.2 ++ [.complete q.t r.1.rilPDPContextListRes true false])

/-- What is done behind `response`. -/
def setupResponse (s : PdpTcb) (ipAddrStr : String) (q : SetupRequest) (w : SetupWorld) :
    PdpTcb × List PdpOut :=
  let response := { s.rilPDPContextListRes with
    status := .none
    cid := swiDefaultCid
    active := .activeLinkup
    type := some q.type
    addresses := some ipAddrStr }
  let s := { s with rilPDPContextListRes := response }
  if w.isSprint && !w.goDormant then setupError s true q w
  else (s, [.complete q.t response false false])

/-- The DHCP client is started, and polled by a task except for IPv6. -/
def setupDhcp (s : PdpTcb) (ipAddrStr : String) (q : SetupRequest) (w : SetupWorld) :
    PdpTcb × List PdpOut :=
  if w.dhcpStarts = false then setupError s true q w
  else
    emit [.dhcp]
      (if getIPFamilyPreference (some q.type) = .ipv6 then setupResponse s ipAddrStr q w
      else
        let response := { s.rilPDPContextListRes with
          type := some q.type
          addresses := some ipAddrStr }
        ({ s with
          rilPDPContextListRes := response
          polls := s.polls ++ [⟨q.t, 0, true, false⟩] }, []))

/-- A session was started. -/
def setupStarted (s : PdpTcb) (ids : UInt32 × UInt32) (q : SetupRequest) (w : SetupWorld) :
    PdpTcb × List PdpOut :=
  let preference := getIPFamilyPreference (some q.type)
  let s := { s with sessionIDQMI := if preference = .ipv6 then ids.2 else ids.1 }
  emit [.started q.type]
    (match w.settings with
    | none => setupError s true q w
    | some rts =>
        let response := { s.rilPDPContextListRes with
          dnses := some (dnsStr rts preference)
          gateways := some (gatewayStr rts preference) }
        emit [.settings rts]
          (setupDhcp { s with rilPDPContextListRes := response } (addressStr rts preference) q w))

/-- The modem had a session, which persists if it has the type and the address of the response. -/
def setupNoEffect (s : PdpTcb) (q : SetupRequest) (w : SetupWorld) : PdpTcb × List PdpOut :=
  let preference := getIPFamilyPreference (some q.type)
  if isDataSessionActive w.state = false then setupError s false q w
  else if preference ≠ getIPFamilyPreference s.rilPDPContextListRes.type then
    setupError s true q w
  else
    match w.settings with
    | none => setupError s true q w
    | some rts =>
        emit [.settings rts]
          (if s.rilPDPContextListRes.addresses = some (addressStr rts preference) then
            setupResponse s (addressStr rts preference) q w
          else setupError s true q w)

/-- The session is started once a part of the response has been cleaned up. -/
def setupStart (s : PdpTcb) (q : SetupRequest) (w : SetupWorld) : PdpTcb × List PdpOut :=
  let answer := startDataSession2 (getIPFamilyPreference (some q.type)) w.start
  emit [.starts]
    (match answer.1 with
    | .none => setupStarted s answer.2 q w
    | .callFailed =>
        let cause := retrievePDPRejectCauseQMI 0
        emit [.cause cause] (setupError { s with lastPdpFailCauseQMI := cause } false q w)
    | .noEffect => setupNoEffect s q w
    | _ => setupError s false q w)

/-- The part of the response that is cleaned up before a session is started. -/
def PdpTcb.cleanedUp (s : PdpTcb) : PdpTcb :=
  { s with
    rilPDPContextListRes := { s.rilPDPContextListRes with
      active := .inactive
      dnses := none
      gateways := none } }

def requestSetupDefaultPDPQMI (s : PdpTcb) (q : SetupRequest) (w : SetupWorld) :
    PdpTcb × List PdpOut :=
  let preference := getIPFamilyPreference (some q.type)
  emit [.attempts q.t]
    (if w.radioOn = false then
      emit [.cause .radioPowerOff]
        (setupError { s with lastPdpFailCauseQMI := .radioPowerOff } false q w)
    else if preference = .unspec then
      setupError (s.withStatus .unknownPdpAddressType) false q w
    else
      let response := { s.rilPDPContextListRes with suggestedRetryTime := retryNoSuggestion }
      let s := { s with rilPDPContextListRes := response }
      if w.isGobiOnly = true ∧ preference ≠ .ipv4 then
        setupError (s.withStatus .onlyIpv4Allowed) false q w
      else if q.isUmts && q.authtype.any fun authentype => authentype < 0 || 3 < authentype then
        setupError s.cleanedUp false q w
      else setupStart s.cleanedUp q w)

end Setup

section Tasks

/-- What a task that polls DHCP meets. -/
structure PollWorld where
  state : SessionState
  dhcpOk : Bool
  stop : SessionResult

def repollDhcp : ℕ := 10

/-- DHCP has a result, which is looked at only while a session is active. -/
def pollDHCPnsetDNS (w : PollWorld) : Bool := isDataSessionActive w.state && w.dhcpOk

/-- A task, which is no longer in the queue. -/
def polldhcptask (s : PdpTcb) (p : DhcpPollParams) (w : PollWorld) : PdpTcb × List PdpOut :=
  emit [.attempts p.t]
    (if repollDhcp ≤ p.loopcount then
      let r := errorHandling s p.pdp_active w.stop
      (r.1, r.2 ++ [.complete p.t r.1.rilPDPContextListRes true p.deactivated])
    else if pollDHCPnsetDNS w = false then
      ({ s with polls := s.polls ++ [{ p with loopcount := p.loopcount + 1 }] }, [])
    else
      let response := { s.rilPDPContextListRes with
        status := .none
        cid := swiDefaultCid
        active := .activeLinkup }
      ({ s with rilPDPContextListRes := response },
        [.complete p.t response false p.deactivated]))

end Tasks

section Reports

def initDataCallResponseList : DataCallResponse :=
  ⟨.radioPowerOff, retryNoSuggestion, 0, .inactive, none, none, none, none⟩

/-- The session is stopped for a deactivation. Tasks stay in the queue. -/
def deactivated (s : PdpTcb) : PdpTcb where
  sessionIDQMI := 0
  rilPDPContextListRes := { initDataCallResponseList with status := .none }
  lastPdpFailCauseQMI := s.lastPdpFailCauseQMI
  polls := s.polls.map fun p => { p with deactivated := true }

/-- `RIL_REQUEST_DEACTIVATE_DATA_CALL`, and a deactivation by the RIL itself, which has no token. -/
def requestDeactivateDefaultPDPQMI (s : PdpTcb) (t : Option ℕ) (pdpCid : Option ℤ)
    (stop : SessionResult) : PdpTcb × List PdpOut :=
  if s.sessionIDQMI ≠ 0 ∧ (t = none ∨ pdpCid = some swiDefaultCid) ∧
      (stop = .none ∨ stop = .noEffect) then
    (deactivated s,
      [.stopped, .cleared,
        match t with
        | some t => .deactivated t true
        | none => .list none (deactivated s).rilPDPContextListRes])
  else (s, t.toList.map (.deactivated · false))

/-- A list, which is not sent unsolicited when the radio is off. -/
def sendList (s : PdpTcb) (t : Option ℕ) : List PdpOut :=
  if t = none ∧ s.rilPDPContextListRes.status = .radioPowerOff then []
  else [.list t s.rilPDPContextListRes]

def requestOrSendPDPContextListQMI (s : PdpTcb) (t : Option ℕ) (state : SessionState) :
    PdpTcb × List PdpOut :=
  if isDataSessionActive state then
    let response := { s.rilPDPContextListRes with active := .activeLinkup }
    let s := { s with rilPDPContextListRes := response }
    (s, sendList s t)
  else
    let response := { initDataCallResponseList with status := .none }
    let s := { s with rilPDPContextListRes := response }
    (s, .cleared :: sendList s t)

def qmiTrafficChannelDormant : UInt32 := 1
def qmiTrafficChannelActive : UInt32 := 2

def dormancyStatusCallback (s : PdpTcb) (dormancyStatus : UInt32) : PdpTcb × List PdpOut :=
  let active :=
    if dormancyStatus = qmiTrafficChannelActive then .activeLinkup
    else if dormancyStatus = qmiTrafficChannelDormant then .activeLinkdown
    else s.rilPDPContextListRes.active
  let response := { s.rilPDPContextListRes with active := active }
  ({ s with rilPDPContextListRes := response }, [.list none response])

/-- What the RIL is asked and told. A task is given by its place in the queue. -/
inductive PdpEvent
  | setup (q : SetupRequest) (w : SetupWorld)
  | poll (i : ℕ) (w : PollWorld)
  | deactivate (t : Option ℕ) (pdpCid : Option ℤ) (stop : SessionResult)
  | dormancy (dormancyStatus : UInt32)
  | contextList (t : Option ℕ) (state : SessionState)

def pdpStep (s : PdpTcb) : PdpEvent → PdpTcb × List PdpOut
  | .setup q w => requestSetupDefaultPDPQMI s q w
  | .poll i w =>
      match s.polls[i]? with
      | none => (s, [])
      | some p => polldhcptask { s with polls := s.polls.eraseIdx i } p w
  | .deactivate t pdpCid stop => requestDeactivateDefaultPDPQMI s t pdpCid stop
  | .dormancy dormancyStatus => dormancyStatusCallback s dormancyStatus
  | .contextList t state => requestOrSendPDPContextListQMI s t state

end Reports

end DataCall

end Ril

end SierraSdk
