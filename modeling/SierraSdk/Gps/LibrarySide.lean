import SierraSdk.Gps.Message

/-!
# The library side of the GPS channel

`handle_rilgps` takes a response of the RIL side. One that carries an error is dropped; the
others are unpacked by the handler of their type into the state of the GPS thread, and reported to
the code for the modem technology.

A handler fails where it would access the packet or the state where it is not. On what the RIL
side sends it does not, and the state has the values that were packed (`handleRilgps_respbuf`).
-/

namespace SierraSdk

namespace Gps

open Unpacking

/-- `MAXPORT` -/
def maxPort : ℕ := msgsizeRespMaxGetnmeaport

/-- `sgiNmeaPort`; a string is given by the characters in front of its terminator. -/
structure NmeaPort where
  initialized : Bool
  name : List UInt8
  deriving DecidableEq

/-- `sgiAGPS` -/
structure Agps where
  type : UInt32
  ipaddr : UInt32
  port : UInt32
  url : List UInt8
  reqtype : UInt32
  reqipaddr : UInt32
  reqport : UInt32
  requrl : List UInt8
  deriving DecidableEq

/-- `sgiPdsDefs` -/
structure PdsDefs where
  interval : UInt32
  timeout : UInt32
  accuracy : UInt32
  reqmode : UInt32
  deriving DecidableEq

/-- The part of the state of the GPS thread that responses change. -/
structure GpsState where
  gpsnmeaport : NmeaPort
  agpsInfo : Agps
  pdsDefs : PdsDefs
  deriving DecidableEq

/-- What a handler reports when it is done. -/
inductive Followup
  | engineOn
  | defaultsReceived
  | defaultsSet
  | agpsReceived
  | agpsSet
  | timeInjected
  | sessionStopped
  | sessionStarted
  deriving DecidableEq

/-- The handlers take the length of the packet, and what they unpack from it. -/
abbrev Handler := ℕ → GpsState → Unpack UInt8 (GpsState × List Followup)

/-- Characters that are to be kept in an array, with a terminator behind them. -/
def terminated (size : ℕ) (chars : List UInt8) : Unpack UInt8 (List UInt8) :=
  if chars.length < size then return chars else failure

def respGetNmeaPort : Handler := fun length s => do
  let name ← nextMany length
  let name ← terminated (maxPort + 1) name
  return ({ s with gpsnmeaport := ⟨true, name⟩ }, [.engineOn])

def respGetDef : Handler := fun _ s => do
  let mode ← next
  let timeout ← next
  let interval ← rilPiget32
  let accuracy ← rilPiget32
  return ({ s with pdsDefs := ⟨interval, timeout.toUInt32, accuracy, mode.toUInt32⟩ },
    [.defaultsReceived])

def respSetDef : Handler := fun _ s => return (s, [.defaultsSet])

/-- What is behind the address is the URL. -/
def respGetAgps : Handler := fun length s => do
  let ipaddr ← rilPiget32
  let port ← rilPiget32
  let urlsize := min (length - 8) maxUrl
  let url ← nextMany urlsize
  let url ← terminated (maxUrl + 1) url
  return ({ s with agpsInfo := { s.agpsInfo with ipaddr := ipaddr, port := port, url := url } },
    [.agpsReceived])

/-- The settings that were requested are the current ones. -/
def respSetAgps : Handler := fun _ s =>
  let agps := s.agpsInfo
  return ({ s with agpsInfo :=
              { agps with
                type := agps.reqtype
                ipaddr := agps.reqipaddr
                port := agps.reqport
                url := agps.requrl.take maxUrl } },
    [.agpsSet])

def respInjTime : Handler := fun _ s => return (s, [.timeInjected])

def respStopSession : Handler := fun _ s => return (s, [.sessionStopped])

def respStartSession : Handler := fun _ s => return (s, [.sessionStarted])

/-- `gpsTypeHandler` -/
def respHandler : MsgType → Option Handler
  | .respGetnmeaport => some respGetNmeaPort
  | .respGetdef => some respGetDef
  | .respSetdef => some respSetDef
  | .respGetagps => some respGetAgps
  | .respSetagps => some respSetAgps
  | .respInjtime => some respInjTime
  | .respStop => some respStopSession
  | .respStart => some respStartSession
  | _ => none

/-- The dispatch of `handle_rilgps`, with a packet that was received. Each handler begins with the
check of the length. -/
def handleRilgps (s : GpsState) (packet : List UInt8) : Option (GpsState × List Followup) :=
  (header.run packet).elim (some (s, [])) fun r =>
    (MsgType.ofCode r.1.type).elim (some (s, [])) fun type =>
      if r.1.result ≠ 0 then some (s, [])
      else
        (respHandler type).elim (some (s, [])) fun handler =>
          let length := r.1.length.toNat
          if ValidLength type length then ((handler length s).run r.2).map Prod.fst
          else some (s, [])

/-- The state with the values of a response. -/
def Response.stored (s : GpsState) : Response → GpsState
  | .getnmeaport name => { s with gpsnmeaport := ⟨true, name⟩ }
  | .getdef _ operation timeout interval accuracy =>
      { s with pdsDefs := ⟨interval, timeout.toUInt32, accuracy, operation.toUInt8.toUInt32⟩ }
  | .getagps _ ipaddr port =>
      { s with agpsInfo := { s.agpsInfo with ipaddr := ipaddr, port := port, url := [] } }
  | .getServer _ ipaddr port url =>
      { s with agpsInfo :=
          { s.agpsInfo with ipaddr := ipaddr, port := port.toUInt32, url := url } }
  | .setagps _ =>
      { s with agpsInfo :=
          { s.agpsInfo with
            type := s.agpsInfo.reqtype
            ipaddr := s.agpsInfo.reqipaddr
            port := s.agpsInfo.reqport
            url := s.agpsInfo.requrl.take maxUrl } }
  | .setdef _ | .injtime _ => s

/-- What is reported for a response. -/
def Response.followup : Response → Followup
  | .getnmeaport _ => .engineOn
  | .getdef .. => .defaultsReceived
  | .setdef _ => .defaultsSet
  | .getagps .. | .getServer .. => .agpsReceived
  | .setagps _ => .agpsSet
  | .injtime _ => .timeInjected

variable {s : GpsState} {bytes body : List UInt8} {type : MsgType}

/-- A message without an error is given to the handler of its type. -/
theorem handleRilgps_message (h : Message type 0 body bytes) {handler : Handler}
    (hhandler : respHandler type = some handler) :
    handleRilgps s bytes = ((handler body.length s).run body).map Prod.fst := by
  rw [handleRilgps, h.run_header]
  simp only [Option.elim_some, ofCode_code, hhandler, toNat_ofNat_of_valid h.valid, h.valid,
    if_true, ne_eq, not_true_eq_false, if_false]

/-- The values of a response without an error are recovered. -/
theorem handleRilgps_respbuf {p : Response} (hp : ¬ p.ReportsAgps) (hresult : p.result = 0)
    (h : p.respbuf = .ok bytes) : handleRilgps s bytes = some (p.stored s, [p.followup]) := by
  have hmessage := message_of_respbuf hp h
  rw [hresult] at hmessage
  cases p with
  | getnmeaport name =>
      have hname : name.length < maxPort + 1 := Nat.lt_succ_of_le hmessage.valid.2
      have hall := run_nextMany_append (n := name.length) rfl ([] : List UInt8)
      rw [List.append_nil] at hall
      rw [handleRilgps_message hmessage rfl]
      simp only [Response.body, respGetNmeaPort, StateT.run_bind, hall, Option.bind_eq_bind,
        Option.bind_some, terminated, hname, if_true]
      rfl
  | getdef nret operation timeout interval accuracy =>
      have haccuracy := run_rilPiget32 accuracy []
      rw [List.append_nil] at haccuracy
      rw [handleRilgps_message hmessage rfl]
      simp only [Response.body, respGetDef, StateT.run_bind, List.cons_append, List.nil_append,
        run_next_cons, run_rilPiget32, haccuracy, Option.bind_eq_bind, Option.bind_some]
      rfl
  | setdef nret => exact handleRilgps_message hmessage rfl
  | getagps => exact absurd trivial hp
  | getServer => exact absurd trivial hp
  | setagps qret => exact handleRilgps_message hmessage rfl
  | injtime qret => exact handleRilgps_message hmessage rfl

end Gps

end SierraSdk
