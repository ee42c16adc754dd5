import Mathlib.Logic.Function.Basic
import SierraSdk.Gps.Message
import SierraSdk.Library.Machine

/-!
# The RIL side of the GPS channel

`handle_swigps` takes a packet of the GPS library. The NMEA port is reported at once; every other
request is copied into a block, behind the socket that it came on, and put in the event queue of
the RIL, whose thread runs one function for it. A function unpacks its block, asks the modem, and
sends the response; on modules with the location service it may leave the response to the
callback of an indication, with the socket in `gLOC_RegInfo`.

A step that would access a block or a buffer where it is not ends the machine. What the modem and
the SDK answer is part of the event; calls that only switch the tracking on or off are left out.
-/

namespace SierraSdk

namespace Gps

open Unpacking

/-- The kinds of modules that the functions tell apart. -/
structure Device where
  is9x30 : Bool
  is9x07 : Bool
  is9x15 : Bool
  deriving DecidableEq

/-- The location service is used for the defaults and the AGPS settings. -/
def Device.usesLoc (device : Device) : Bool := device.is9x30 || device.is9x07

/-- `LOC_EVENT` -/
inductive LocEvent
  | injectUtc
  | getServer
  | setServer
  | getOpmode
  | getFixCrt
  deriving DecidableEq

/-- The functions that are put in the event queue. -/
inductive RilFunc
  | getDef
  | setDef
  | getAgps
  | setAgps
  | injTime
  | stopSession
  | startSession
  deriving DecidableEq

/-- An entry of the event queue: the function, and the block that is its argument. -/
structure Job where
  func : RilFunc
  addr : UInt32
  block : List UInt8

/-- The state of the RIL side: the event queue, `gLOC_RegInfo`, and which callbacks are
registered. -/
structure RilGps where
  jobs : List Job
  locRegInfo : LocEvent → UInt32
  registered : LocEvent → Bool

/-- Nothing was requested. -/
def RilGps.init : RilGps := ⟨[], fun _ => 0, fun _ => false⟩

/-- Calls of the SDK that carry values of a request or fetch those of a response. -/
inductive SdkCall
  | getPdsDefaults
  | setPdsDefaults (operation : UInt32) (timeout : UInt8) (interval accuracy : UInt32)
  | getAgpsConfig
  | setAgpsAddress (ipaddr port : UInt32)
  | setAgpsUrl (url : List UInt8)
  | injectAbsoluteTime (time : UInt64) (uncertainty : UInt32)
  | locStart (accuracyLvl interval : UInt32)
  | locInjectUtcTime (time : UInt64) (uncertainty : UInt32)
  | locGetServer
  | locSetServer (address : Option (UInt32 × UInt32)) (url : Option (List UInt8))
  | locGetOpMode
  | locGetFixCriteria
  | setCallback (id : LocEvent) (on : Bool)
  deriving DecidableEq

/-- What the SDK answers: the result of each call, and the values that are fetched. -/
structure Sdk where
  result : SdkCall → UInt32
  operation : UInt32
  timeout : UInt8
  interval : UInt32
  accuracy : UInt32
  ipaddr : UInt32
  port : UInt32

/-- `eQCWWAN_ERR_NONE` -/
def errNone : UInt32 := 0

/-- What a step does to the outside. -/
inductive Output
  | sent (fd : UInt32) (bytes : List UInt8)
  | call (c : SdkCall)
  | ended (fd : UInt32)
  deriving DecidableEq

/-- Send a response, if its header could be made. -/
def respond (fd : UInt32) (respbuf : Except String (List UInt8)) : List Output :=
  match respbuf with
  | .ok bytes => [.sent fd bytes]
  | .error _ => []

section LocationService

variable (sdk : Sdk) (s : RilGps)

def setLocReqInfo (id : LocEvent) (value : UInt32) : RilGps :=
  { s with locRegInfo := Function.update s.locRegInfo id value }

/-- Register a callback, or unregister it: the SDK does so if it reports no error. -/
def switchLocCallback (id : LocEvent) (on : Bool) : RilGps :=
  if sdk.result (.setCallback id on) = errNone then
    { s with registered := Function.update s.registered id on }
  else s

/-- The callback of an event is registered, the socket is noted, and the SDK is asked. -/
def rilLocRequest (id : LocEvent) (filedesc : UInt32) (c : SdkCall) : RilGps × List Output :=
  if sdk.result (.setCallback id true) ≠ errNone then (s, [])
  else (setLocReqInfo (switchLocCallback sdk s id true) id filedesc, [.call c])

def rilLocInjTime (filedesc : UInt32) (time : UInt64) (uncertainty : UInt32) :
    RilGps × List Output :=
  rilLocRequest sdk s .injectUtc filedesc (.locInjectUtcTime time uncertainty)

def rilLocGetServer (filedesc : UInt32) : RilGps × List Output :=
  rilLocRequest sdk s .getServer filedesc .locGetServer

def rilLocSetServer (filedesc ipaddr port : UInt32) (urlbuf : List UInt8) :
    RilGps × List Output :=
  rilLocRequest sdk s .setServer filedesc
    (.locSetServer (if ipaddr ≠ 0 ∧ port ≠ 0 then some (ipaddr, port) else none)
      (if 0 < urlbuf.length then some urlbuf else none))

/-- The callback of an event is registered and the SDK is asked; no socket is noted. -/
def rilLocGetOpMode : RilGps × List Output :=
  if sdk.result (.setCallback .getOpmode true) ≠ errNone then (s, [])
  else (switchLocCallback sdk s .getOpmode true, [.call .locGetOpMode])

def rilLocGetFixCriteria : RilGps × List Output :=
  if sdk.result (.setCallback .getFixCrt true) ≠ errNone then (s, [])
  else (switchLocCallback sdk s .getFixCrt true, [.call .locGetFixCriteria])

def rilLocGetDef (filedesc : UInt32) : RilGps × List Output :=
  rilLocGetOpMode sdk (setLocReqInfo s .getFixCrt filedesc)

end LocationService

section Requests

variable (device : Device) (sdk : Sdk) (s : RilGps)

/-- The socket is taken to be the address of the block. -/
def rilgpsGetDef (paramp : UInt32) : RilGps × List Output :=
  let fd := paramp
  if device.usesLoc then rilLocGetDef sdk s fd
  else
    (s, .call .getPdsDefaults ::
      respond fd (getdefRespbuf (sdk.result .getPdsDefaults) sdk.operation sdk.timeout sdk.interval
        sdk.accuracy))

/-- The arguments of `rilgpsSetDef`. The tracking status behind them is not read. -/
structure SetdefArgs where
  fd : UInt32
  operation : UInt32
  timeout : UInt8
  interval : UInt32
  accuracy : UInt32
  deriving DecidableEq

def unpackSetdef : Unpack UInt8 SetdefArgs := do
  let fd ← rilPiget32
  let operation ← next
  let timeout ← next
  let interval ← rilPiget32
  let accuracy ← rilPiget32
  return ⟨fd, operation.toUInt32, timeout, interval, accuracy⟩

/-- How the defaults are set. The interval is always one, and a 9x15 module works standalone. -/
def setdefCall (args : SetdefArgs) : SdkCall :=
  let interval := 1
  if device.usesLoc then
    .locStart (if args.accuracy < 25 then 3 else if args.accuracy < 100 then 2 else 1) interval
  else if device.is9x15 then .setPdsDefaults 0 args.timeout interval args.accuracy
  else .setPdsDefaults args.operation args.timeout interval args.accuracy

def rilgpsSetDef (block : List UInt8) : Option (RilGps × List Output) :=
  (unpackSetdef.run block).map fun r =>
    let c := setdefCall device r.1
    (s, .call c :: respond r.1.fd (setdefRespbuf (sdk.result c)))

/-- The socket is taken to be the address of the block. -/
def rilgpsGetAgps (paramp : UInt32) : RilGps × List Output :=
  let fd := paramp
  if device.usesLoc then rilLocGetServer sdk s fd
  else
    (s, .call .getAgpsConfig ::
      respond fd (getagpsRespbuf (sdk.result .getAgpsConfig) sdk.ipaddr sdk.port))

/-- The arguments of `rilgpsSetAgps`. -/
structure SetagpsArgs where
  fd : UInt32
  ipaddr : UInt32
  port : UInt32
  url : List UInt8
  deriving DecidableEq

/-- The URL is copied into `urlbuf` and terminated there, behind its last character. -/
def unpackSetagps : Unpack UInt8 SetagpsArgs := do
  let fd ← rilPiget32
  let ipaddr ← rilPiget32
  let port ← rilPiget32
  let urllength ← next
  let url ← nextMany urllength.toNat
  if url.length < maxUrl then return ⟨fd, ipaddr, port, url⟩ else failure

/-- How the AGPS settings are set with the PDS service. -/
def setagpsCalls (args : SetagpsArgs) : List SdkCall :=
  if device.is9x15 then []
  else
    (if args.ipaddr ≠ 0 ∧ args.port ≠ 0 then [.setAgpsAddress args.ipaddr args.port] else []) ++
      if minUrl < args.url.length then [.setAgpsUrl args.url] else []

/-- The last of the results that are not `errNone`. -/
def lastError (calls : List SdkCall) : UInt32 :=
  calls.foldl (fun qret c => if sdk.result c ≠ errNone then sdk.result c else qret) errNone

def rilgpsSetAgps (block : List UInt8) : Option (RilGps × List Output) :=
  (unpackSetagps.run block).map fun r =>
    if device.usesLoc then rilLocSetServer sdk s r.1.fd r.1.ipaddr r.1.port r.1.url
    else
      let calls := setagpsCalls device r.1
      (s, calls.map .call ++ respond r.1.fd (setagpsRespbuf (lastError sdk calls)))

/-- The arguments of `rilgpsInjTime`. -/
structure InjtimeArgs where
  fd : UInt32
  time : UInt64
  uncertainty : UInt32
  deriving DecidableEq

def unpackInjtime : Unpack UInt8 InjtimeArgs := do
  let fd ← rilPiget32
  let time ← rilPiget64
  let uncertainty ← rilPiget32
  return ⟨fd, time, uncertainty⟩

def rilgpsInjTime (block : List UInt8) : Option (RilGps × List Output) :=
  (unpackInjtime.run block).map fun r =>
    if device.is9x30 then rilLocInjTime sdk s r.1.fd r.1.time r.1.uncertainty
    else
      let c := .injectAbsoluteTime r.1.time r.1.uncertainty
      (s, .call c :: respond r.1.fd (injtimeRespbuf (sdk.result c)))

/-- The function of an entry of the event queue. The two for sessions do nothing: only modems with
an AT interface need them. -/
def runJob (job : Job) : Option (RilGps × List Output) :=
  match job.func with
  | .getDef => some (rilgpsGetDef device sdk s job.addr)
  | .setDef => rilgpsSetDef device sdk s job.block
  | .getAgps => some (rilgpsGetAgps device sdk s job.addr)
  | .setAgps => rilgpsSetAgps device sdk s job.block
  | .injTime => rilgpsInjTime device sdk s job.block
  | .stopSession => some (s, [])
  | .startSession => some (s, [])

end Requests

section Indications

/-- The indications of the location service. -/
inductive Indication
  | injectUtcTime (status : UInt32)
  | setServer (status : UInt32)
  | getServer (status : UInt32) (address : Option (UInt32 × UInt16)) (url : List UInt8)
  | getOpMode (status : UInt32) (mode : Option UInt32)
  | getFixCriteria (status : UInt32) (accuracy interval : Option UInt32)

/-- The event whose callback an indication is for. -/
def Indication.event : Indication → LocEvent
  | .injectUtcTime _ => .injectUtc
  | .setServer _ => .setServer
  | .getServer .. => .getServer
  | .getOpMode .. => .getOpmode
  | .getFixCriteria .. => .getFixCrt

variable (sdk : Sdk) (s : RilGps)

def cbkInjectUTCTime (status : UInt32) : RilGps × List Output :=
  let t := switchLocCallback sdk s .injectUtc false
  (t, respond (t.locRegInfo .injectUtc) (injtimeRespbuf status))

def cbkSetServer (status : UInt32) : RilGps × List Output :=
  let t := switchLocCallback sdk s .setServer false
  (t, respond (t.locRegInfo .setServer) (setagpsRespbuf status))

/-- The URL is copied to a string of 256 bytes, and from there behind the address. -/
def cbkGetServer (status : UInt32) (address : Option (UInt32 × UInt16)) (url : List UInt8) :
    Option (RilGps × List Output) :=
  let t := switchLocCallback sdk s .getServer false
  if url.length ≤ maxUrl then
    some (t, respond (t.locRegInfo .getServer)
      (getServerRespbuf status (address.elim 0 Prod.fst) (address.elim 0 Prod.snd) url))
  else none

/-- The response after an error has default values. -/
def cbkGetOpMode (status : UInt32) (mode : Option UInt32) : RilGps × List Output :=
  let t := switchLocCallback sdk s .getOpmode false
  if status = errNone then
    rilLocGetFixCriteria sdk (setLocReqInfo t .getOpmode
      (if mode = some 2 then 1 else if mode = some 3 then 2 else 0))
  else (t, respond (t.locRegInfo .getFixCrt) (getdefRespbuf status 0 255 1000 50))

/-- `acc_meter` -/
def accMeter : List UInt32 := [50, 500, 100, 25]

def cbkGetFixCriteria (status : UInt32) (accuracy interval : Option UInt32) :
    Option (RilGps × List Output) :=
  let t := switchLocCallback sdk s .getFixCrt false
  (accMeter[(accuracy.getD 0).toNat]?).map fun meter =>
    (t, respond (t.locRegInfo .getFixCrt)
      (getdefRespbuf status (t.locRegInfo .getOpmode) 255 (interval.getD 1000) meter))

/-- An indication of the location service, if its callback is registered. -/
def indicate (ind : Indication) : Option (RilGps × List Output) :=
  if s.registered ind.event then
    match ind with
    | .injectUtcTime status => some (cbkInjectUTCTime sdk s status)
    | .setServer status => some (cbkSetServer sdk s status)
    | .getServer status address url => cbkGetServer sdk s status address url
    | .getOpMode status mode => some (cbkGetOpMode sdk s status mode)
    | .getFixCriteria status accuracy interval => cbkGetFixCriteria sdk s status accuracy interval
  else some (s, [])

end Indications

section Packets

variable (s : RilGps)

/-- Copy a request into a block at `addr`, behind the socket, and put it in the event queue. -/
def packnSend (rilfunc : RilFunc) (addr : UInt32) (bufp : List UInt8) (type : MsgType)
    (length : ℕ) (fd : UInt32) : RilGps :=
  if ValidLength type length then
    { s with jobs := s.jobs ++ [⟨rilfunc, addr, rilPiput32 fd ++ bufp.take length⟩] }
  else s

/-- Report the name of the NMEA port. Without a name, or with an empty one, no header can be made.
With a name of another length that the header refuses, the name is put at a place that was never
set. -/
def reqGetNmeaPort (ifname : Option (List UInt8)) (type : MsgType) (length : ℕ) (fd : UInt32) :
    Option (RilGps × List Output) :=
  if ValidLength type length then
    ifname.elim (some (s, [])) fun name =>
      if name = [] ∨ ValidLength .respGetnmeaport name.length then
        some (s, respond fd (getnmeaportRespbuf name))
      else none
  else some (s, [])

/-- `gpsTypeHandler`: the function that the handler of a type puts in the event queue. -/
def rilFunc : MsgType → Option RilFunc
  | .reqGetdef => some .getDef
  | .reqSetdef => some .setDef
  | .reqGetagps => some .getAgps
  | .reqSetagps => some .setAgps
  | .reqInjtime => some .injTime
  | .reqStop => some .stopSession
  | .reqStart => some .startSession
  | _ => none

/-- One round of `handle_swigps`, with a packet that was received; `addr` is where the block is
allocated, if one is, and `ifname` is what `swims_ossdkgetgpsifname` returns. -/
def handleSwigps (ifname : Option (List UInt8)) (fd addr : UInt32) (packet : List UInt8) :
    Option (RilGps × List Output) :=
  (header.run packet).elim (some (s, [])) fun r =>
    (MsgType.ofCode r.1.type).elim (some (s, [.ended fd])) fun type =>
      if type = .reqGetnmeaport then reqGetNmeaPort s ifname type r.1.length.toNat fd
      else
        (rilFunc type).elim (some (s, [])) fun func =>
          some (packnSend s func addr r.2 type r.1.length.toNat fd, [])

end Packets

/-- What happens on the RIL side: a packet of the library is received, the RIL thread runs the
function of its first entry, or the location service has an indication. -/
inductive Event
  | packet (ifname : Option (List UInt8)) (fd addr : UInt32) (bytes : List UInt8)
  | job (sdk : Sdk)
  | indication (sdk : Sdk) (ind : Indication)

/-- One event, in a state that no access has ended. -/
def rilStep (device : Device) (s : RilGps) : Event → Option (RilGps × List Output)
  | .packet ifname fd addr bytes => handleSwigps s ifname fd addr bytes
  | .job sdk =>
      s.jobs.head?.elim (some (s, [])) fun job =>
        runJob device sdk { s with jobs := s.jobs.tail } job
  | .indication sdk ind => indicate sdk s ind

/-- The machine of the RIL side. -/
def step (device : Device) (s : Option RilGps) (e : Event) : Option RilGps × List Output :=
  let r := s.bind fun s => rilStep device s e
  (r.map Prod.fst, r.elim [] Prod.snd)

end Gps

end SierraSdk
