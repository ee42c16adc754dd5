import SierraSdk.Library.Unpack

/-!
# Messages between the GPS library and the RIL

The GPS library and the GPS side of the RIL exchange messages over a stream socket. A message is
a header of three fields, type, result and length, and a body of as many bytes as the length
says. All fields have the highest byte first.

The builders are those of the requests in the GPS library and those of the responses on the RIL
side. Each makes its header with `swigpsMakhdr`, from a length of its own, and puts its fields
behind it; `Announces` is what the length is to say. All but the two that report the AGPS
settings announce what they send.
-/

namespace SierraSdk

namespace Gps

open Unpacking

/-- `MAXGPS`, the size of a receive buffer. -/
def maxGps : ℕ := 512

/-- `MAXURL` -/
def maxUrl : ℕ := 128

/-- `MINURL` -/
def minUrl : ℕ := 5

/-- `SWIGPS_MSGSIZE_HEADER` -/
def msgsizeHeader : ℕ := 6

def msgsizeReqGetnmeaport : ℕ := 2
def msgsizeRespMinGetnmeaport : ℕ := 9
def msgsizeRespMaxGetnmeaport : ℕ := 22
def msgsizeReqGetdef : ℕ := 0
def msgsizeRespGetdef : ℕ := 10
def msgsizeReqSetdef : ℕ := 11
def msgsizeRespSetdef : ℕ := 0
def msgsizeReqGetagps : ℕ := 0
def msgsizeRespSetagps : ℕ := 0
def msgsizeReqInjtime : ℕ := 12
def msgsizeRespInjtime : ℕ := 0
def msgsizeReqStop : ℕ := 0
def msgsizeRespStop : ℕ := 0
def msgsizeReqStart : ℕ := 10
def msgsizeRespStart : ℕ := 0
def msgsizeMinAgps : ℕ := 9
def msgsizeMaxAgps : ℕ := msgsizeMinAgps + maxUrl

/-- `swigpsMsgType` -/
inductive MsgType
  | reqGetnmeaport
  | respGetnmeaport
  | reqGetdef
  | respGetdef
  | reqSetdef
  | respSetdef
  | reqGetagps
  | respGetagps
  | reqSetagps
  | respSetagps
  | reqInjtime
  | respInjtime
  | reqStop
  | respStop
  | reqStart
  | respStart
  deriving DecidableEq

/-- The values of the enumeration, in its order. -/
def msgTypes : List MsgType :=
  [.reqGetnmeaport, .respGetnmeaport, .reqGetdef, .respGetdef, .reqSetdef, .respSetdef,
    .reqGetagps, .respGetagps, .reqSetagps, .respSetagps, .reqInjtime, .respInjtime, .reqStop,
    .respStop, .reqStart, .respStart]

/-- The number of a type in a header. -/
def MsgType.code (type : MsgType) : UInt16 := UInt16.ofNat (msgTypes.idxOf type)

/-- The type of a number, if it is below `SWIGPS_MSGTYPE_MAXVAL`. -/
def MsgType.ofCode (code : UInt16) : Option MsgType := msgTypes[code.toNat]?

/-- `gpsMsgProps` -/
structure MsgProps where
  minlength : ℕ
  maxlength : ℕ

/-- The lengths that the body of a message may have. -/
def msgProperties : MsgType → MsgProps
  | .reqGetnmeaport => ⟨msgsizeReqGetnmeaport, msgsizeReqGetnmeaport⟩
  | .respGetnmeaport => ⟨msgsizeRespMinGetnmeaport, msgsizeRespMaxGetnmeaport⟩
  | .reqGetdef => ⟨msgsizeReqGetdef, msgsizeReqGetdef⟩
  | .respGetdef => ⟨msgsizeRespGetdef, msgsizeRespGetdef⟩
  | .reqSetdef => ⟨msgsizeReqSetdef, msgsizeReqSetdef⟩
  | .respSetdef => ⟨msgsizeRespSetdef, msgsizeRespSetdef⟩
  | .reqGetagps => ⟨msgsizeReqGetagps, msgsizeReqGetagps⟩
  | .respGetagps => ⟨msgsizeMinAgps, msgsizeMaxAgps⟩
  | .reqSetagps => ⟨msgsizeMinAgps, msgsizeMaxAgps⟩
  | .respSetagps => ⟨msgsizeRespSetagps, msgsizeRespSetagps⟩
  | .reqInjtime => ⟨msgsizeReqInjtime, msgsizeReqInjtime⟩
  | .respInjtime => ⟨msgsizeRespInjtime, msgsizeRespInjtime⟩
  | .reqStop => ⟨msgsizeReqStop, msgsizeReqStop⟩
  | .respStop => ⟨msgsizeRespStop, msgsizeRespStop⟩
  | .reqStart => ⟨msgsizeReqStart, msgsizeReqStart⟩
  | .respStart => ⟨msgsizeRespStart, msgsizeRespStart⟩

/-- The length is one that a message of the type may have. -/
def ValidLength (type : MsgType) (length : ℕ) : Prop :=
  (msgProperties type).minlength ≤ length ∧ length ≤ (msgProperties type).maxlength

instance (type : MsgType) (length : ℕ) : Decidable (ValidLength type length) :=
  inferInstanceAs (Decidable (_ ∧ _))

section Fields

def rilPiput16 (field : UInt16) : List UInt8 := [(field >>> 8).toUInt8, field.toUInt8]

def rilPiput32 (field : UInt32) : List UInt8 :=
  [(field >>> 24).toUInt8, (field >>> 16).toUInt8, (field >>> 8).toUInt8, field.toUInt8]

def rilPiput64 (field : UInt64) : List UInt8 :=
  [(field >>> 56).toUInt8, (field >>> 48).toUInt8, (field >>> 40).toUInt8,
    (field >>> 32).toUInt8, (field >>> 24).toUInt8, (field >>> 16).toUInt8,
    (field >>> 8).toUInt8, field.toUInt8]

def rilPiget16 : Unpack UInt8 UInt16 := do
  let hi ← next
  let lo ← next
  return (hi.toUInt16 <<< 8) + lo.toUInt16

def rilPiget32 : Unpack UInt8 UInt32 := do
  let a ← next
  let b ← next
  let c ← next
  let d ← next
  return (((a.toUInt32 <<< 8) + b.toUInt32) <<< 8 + c.toUInt32) <<< 8 + d.toUInt32

/-- One more byte of a 64-bit field. -/
def nextByte64 (field : UInt64) : Unpack UInt8 UInt64 := do
  let b ← next
  return (field <<< 8) + b.toUInt64

def rilPiget64 : Unpack UInt8 UInt64 := do
  let field := (← next).toUInt64
  let field ← nextByte64 field
  let field ← nextByte64 field
  let field ← nextByte64 field
  let field ← nextByte64 field
  let field ← nextByte64 field
  let field ← nextByte64 field
  nextByte64 field

@[simp] theorem length_rilPiput16 (field : UInt16) : (rilPiput16 field).length = 2 := rfl

@[simp] theorem length_rilPiput32 (field : UInt32) : (rilPiput32 field).length = 4 := rfl

@[simp] theorem length_rilPiput64 (field : UInt64) : (rilPiput64 field).length = 8 := rfl

@[simp] theorem run_rilPiget16 (field : UInt16) (bytes : List UInt8) :
    rilPiget16.run (rilPiput16 field ++ bytes) = some (field, bytes) := by
  have hvalue : ((field >>> 8).toUInt8.toUInt16 <<< 8) + field.toUInt8.toUInt16 = field := by
    have hlt := field.toNat_lt
    apply UInt16.toNat_inj.mp
    simp [Nat.shiftLeft_eq, Nat.shiftRight_eq_div_pow]
    omega
  exact congrArg (fun value => some (value, bytes)) hvalue

@[simp] theorem run_rilPiget32 (field : UInt32) (bytes : List UInt8) :
    rilPiget32.run (rilPiput32 field ++ bytes) = some (field, bytes) := by
  have hvalue : ((((field >>> 24).toUInt8.toUInt32 <<< 8) + (field >>> 16).toUInt8.toUInt32) <<< 8 +
      (field >>> 8).toUInt8.toUInt32) <<< 8 + field.toUInt8.toUInt32 = field := by
    have hlt := field.toNat_lt
    apply UInt32.toNat_inj.mp
    simp [Nat.shiftLeft_eq, Nat.shiftRight_eq_div_pow]
    omega
  exact congrArg (fun value => some (value, bytes)) hvalue

/-- With the next byte, a field has eight more of its bits. -/
theorem run_nextByte64 (field : UInt64) (bytes : List UInt8) :
    (nextByte64 (field >>> 8)).run (field.toUInt8 :: bytes) = some (field, bytes) := by
  have hvalue : ((field >>> 8) <<< 8) + field.toUInt8.toUInt64 = field := by
    have hlt := field.toNat_lt
    apply UInt64.toNat_inj.mp
    simp [Nat.shiftLeft_eq, Nat.shiftRight_eq_div_pow]
    omega
  exact congrArg (fun value => some (value, bytes)) hvalue

theorem shiftRight_byte (field : UInt64) {n : ℕ} (hn : n < 56) :
    field >>> UInt64.ofNat (n + 8) = field >>> UInt64.ofNat n >>> 8 := by
  have hsum : (n + 8) % 18446744073709551616 % 64 = n + 8 := by omega
  have hn' : n % 18446744073709551616 % 64 = n := by omega
  apply UInt64.toNat_inj.mp
  simp [hsum, hn', Nat.shiftRight_add]

@[simp] theorem run_rilPiget64 (field : UInt64) (bytes : List UInt8) :
    rilPiget64.run (rilPiput64 field ++ bytes) = some (field, bytes) := by
  have hfirst : (field >>> 56).toUInt8.toUInt64 = field >>> 56 := by
    have hlt := field.toNat_lt
    apply UInt64.toNat_inj.mp
    simp [Nat.shiftRight_eq_div_pow]
    omega
  have h48 : field >>> 56 = field >>> 48 >>> 8 := shiftRight_byte field (n := 48) (by decide)
  have h40 : field >>> 48 = field >>> 40 >>> 8 := shiftRight_byte field (n := 40) (by decide)
  have h32 : field >>> 40 = field >>> 32 >>> 8 := shiftRight_byte field (n := 32) (by decide)
  have h24 : field >>> 32 = field >>> 24 >>> 8 := shiftRight_byte field (n := 24) (by decide)
  have h16 : field >>> 24 = field >>> 16 >>> 8 := shiftRight_byte field (n := 16) (by decide)
  have h8 : field >>> 16 = field >>> 8 >>> 8 := shiftRight_byte field (n := 8) (by decide)
  simp only [rilPiget64, rilPiput64, List.cons_append, List.nil_append, StateT.run_bind,
    run_next_cons, Option.bind_eq_bind, Option.bind_some]
  rw [hfirst, h48, run_nextByte64, Option.bind_some, h40, run_nextByte64, Option.bind_some, h32,
    run_nextByte64, Option.bind_some, h24, run_nextByte64, Option.bind_some, h16,
    run_nextByte64, Option.bind_some, h8, run_nextByte64, Option.bind_some, run_nextByte64]

end Fields

/-- The fields of a header. -/
structure Header where
  type : UInt16
  result : UInt16
  length : UInt16
  deriving DecidableEq

/-- Read the header of a message. -/
def header : Unpack UInt8 Header := do
  let type ← rilPiget16
  let result ← rilPiget16
  let length ← rilPiget16
  return ⟨type, result, length⟩

/-- Build a header. The types are those of the enumeration, so that the check for a type beyond
them has nothing to find. -/
def swigpsMakhdr (type : MsgType) (length : ℕ) (result : UInt16) (buflength : ℕ) :
    Except String (List UInt8) :=
  if buflength < msgsizeHeader then .error "Buflength too small for header"
  else if ValidLength type length then
    .ok (rilPiput16 type.code ++ rilPiput16 result ++ rilPiput16 (UInt16.ofNat length))
  else .error "Invalid length for msg type"

/-- The header announces as many bytes as there are behind it. -/
def Announces (bytes : List UInt8) : Prop :=
  ∃ h body, header.run bytes = some (h, body) ∧ h.length.toNat = body.length

/-- A message of a type with a result and a body. -/
structure Message (type : MsgType) (result : UInt16) (body bytes : List UInt8) : Prop where
  bytes_eq : bytes = rilPiput16 type.code ++ rilPiput16 result ++
    rilPiput16 (UInt16.ofNat body.length) ++ body
  valid : ValidLength type body.length

section Requests

/-- Ask for the NMEA port, for a type of RIL. -/
def swigpsGetnmeaport (riltype : UInt16) : Except String (List UInt8) :=
  (swigpsMakhdr .reqGetnmeaport msgsizeReqGetnmeaport 0
    (msgsizeHeader + msgsizeReqGetnmeaport)).map (· ++ rilPiput16 riltype)

def swigpsGetdef : Except String (List UInt8) :=
  swigpsMakhdr .reqGetdef msgsizeReqGetdef 0 (msgsizeHeader + msgsizeReqGetdef)

def swigpsSetdef (operation timeout interval accuracy : UInt32) (tracking : Bool) :
    Except String (List UInt8) :=
  (swigpsMakhdr .reqSetdef msgsizeReqSetdef 0 (msgsizeHeader + msgsizeReqSetdef)).map
    (· ++ ([operation.toUInt8, timeout.toUInt8] ++ rilPiput32 interval ++ rilPiput32 accuracy ++
      [UInt8.ofNat tracking.toNat]))

def swigpsGetagps : Except String (List UInt8) :=
  swigpsMakhdr .reqGetagps msgsizeReqGetagps 0 (msgsizeHeader + msgsizeReqGetagps)

/-- Set the address or the name of the AGPS server; `hostname` are the characters of the
string. -/
def swigpsSetagps (ipaddr port : UInt32) (hostname : List UInt8) : Except String (List UInt8) :=
  (swigpsMakhdr .reqSetagps (hostname.length + msgsizeMinAgps) 0
    (msgsizeHeader + msgsizeMaxAgps)).map
    (· ++ (rilPiput32 ipaddr ++ rilPiput32 port ++ [UInt8.ofNat hostname.length] ++ hostname))

def swigpsInjtime (time : UInt64) (uncertainty : UInt32) : Except String (List UInt8) :=
  (swigpsMakhdr .reqInjtime msgsizeReqInjtime 0 (msgsizeHeader + msgsizeReqInjtime)).map
    (· ++ (rilPiput64 time ++ rilPiput32 uncertainty))

def swigpsStopSession : Except String (List UInt8) :=
  swigpsMakhdr .reqStop msgsizeReqStop 0 (msgsizeHeader + msgsizeReqStop)

def swigpsStartSession (operation timeout interval accuracy : UInt32) :
    Except String (List UInt8) :=
  (swigpsMakhdr .reqStart msgsizeReqStart 0 (msgsizeHeader + msgsizeReqStart)).map
    (· ++ ([operation.toUInt8, timeout.toUInt8] ++ rilPiput32 interval ++ rilPiput32 accuracy))

/-- The requests of the GPS library. -/
inductive Request
  | getnmeaport (riltype : UInt16)
  | getdef
  | setdef (operation timeout interval accuracy : UInt32) (tracking : Bool)
  | getagps
  | setagps (ipaddr port : UInt32) (hostname : List UInt8)
  | injtime (time : UInt64) (uncertainty : UInt32)
  | stopSession
  | startSession (operation timeout interval accuracy : UInt32)

def Request.type : Request → MsgType
  | .getnmeaport _ => .reqGetnmeaport
  | .getdef => .reqGetdef
  | .setdef .. => .reqSetdef
  | .getagps => .reqGetagps
  | .setagps .. => .reqSetagps
  | .injtime .. => .reqInjtime
  | .stopSession => .reqStop
  | .startSession .. => .reqStart

/-- The fields of a request, in the order in which they are put behind the header. -/
def Request.body : Request → List UInt8
  | .getnmeaport riltype => rilPiput16 riltype
  | .setdef operation timeout interval accuracy tracking =>
      [operation.toUInt8, timeout.toUInt8] ++ rilPiput32 interval ++ rilPiput32 accuracy ++
        [UInt8.ofNat tracking.toNat]
  | .setagps ipaddr port hostname =>
      rilPiput32 ipaddr ++ rilPiput32 port ++ [UInt8.ofNat hostname.length] ++ hostname
  | .injtime time uncertainty => rilPiput64 time ++ rilPiput32 uncertainty
  | .startSession operation timeout interval accuracy =>
      [operation.toUInt8, timeout.toUInt8] ++ rilPiput32 interval ++ rilPiput32 accuracy
  | .getdef | .getagps | .stopSession => []

/-- What is sent for a request, if its header can be made. -/
def Request.send : Request → Except String (List UInt8)
  | .getnmeaport riltype => swigpsGetnmeaport riltype
  | .getdef => swigpsGetdef
  | .setdef operation timeout interval accuracy tracking =>
      swigpsSetdef operation timeout interval accuracy tracking
  | .getagps => swigpsGetagps
  | .setagps ipaddr port hostname => swigpsSetagps ipaddr port hostname
  | .injtime time uncertainty => swigpsInjtime time uncertainty
  | .stopSession => swigpsStopSession
  | .startSession operation timeout interval accuracy =>
      swigpsStartSession operation timeout interval accuracy

end Requests

section Responses

/-- The response of `reqGetNmeaPort` with the name of the port. -/
def getnmeaportRespbuf (name : List UInt8) : Except String (List UInt8) :=
  (swigpsMakhdr .respGetnmeaport name.length 0 (msgsizeHeader + msgsizeRespMaxGetnmeaport)).map
    (· ++ name)

/-- The response of `rilgpsGetDef`, `cbkGetOpMode` and `cbkGetFixCriteria`. -/
def getdefRespbuf (nret operation : UInt32) (timeout : UInt8) (interval accuracy : UInt32) :
    Except String (List UInt8) :=
  (swigpsMakhdr .respGetdef msgsizeRespGetdef nret.toUInt16
    (msgsizeHeader + msgsizeRespGetdef)).map
    (· ++ ([operation.toUInt8, timeout] ++ rilPiput32 interval ++ rilPiput32 accuracy))

/-- The response of `rilgpsSetDef`. -/
def setdefRespbuf (nret : UInt32) : Except String (List UInt8) :=
  swigpsMakhdr .respSetdef msgsizeRespSetdef nret.toUInt16 msgsizeHeader

/-- The response of `rilgpsGetAgps`. It announces `msgsizeMinAgps` bytes and puts eight. -/
def getagpsRespbuf (nret ipaddr port : UInt32) : Except String (List UInt8) :=
  (swigpsMakhdr .respGetagps msgsizeMinAgps nret.toUInt16
    (msgsizeHeader + msgsizeMaxAgps)).map (· ++ (rilPiput32 ipaddr ++ rilPiput32 port))

/-- The response of `cbkGetServer`. It announces `msgsizeMinAgps` bytes whatever it puts. -/
def getServerRespbuf (status ipaddr : UInt32) (port : UInt16) (url : List UInt8) :
    Except String (List UInt8) :=
  (swigpsMakhdr .respGetagps msgsizeMinAgps status.toUInt16
    (msgsizeHeader + msgsizeMaxAgps)).map
    (· ++ (rilPiput32 ipaddr ++ rilPiput32 port.toUInt32 ++
      if url = [] then [] else UInt8.ofNat url.length :: url))

/-- The response of `rilgpsSetAgps` and `cbkSetServer`. -/
def setagpsRespbuf (qret : UInt32) : Except String (List UInt8) :=
  swigpsMakhdr .respSetagps msgsizeRespSetagps qret.toUInt16 msgsizeHeader

/-- The response of `rilgpsInjTime` and `cbkInjectUTCTime`. -/
def injtimeRespbuf (qret : UInt32) : Except String (List UInt8) :=
  swigpsMakhdr .respInjtime msgsizeRespInjtime qret.toUInt16 msgsizeHeader

/-- The responses of the RIL side. -/
inductive Response
  | getnmeaport (name : List UInt8)
  | getdef (nret operation : UInt32) (timeout : UInt8) (interval accuracy : UInt32)
  | setdef (nret : UInt32)
  | getagps (nret ipaddr port : UInt32)
  | getServer (status ipaddr : UInt32) (port : UInt16) (url : List UInt8)
  | setagps (qret : UInt32)
  | injtime (qret : UInt32)

def Response.type : Response → MsgType
  | .getnmeaport _ => .respGetnmeaport
  | .getdef .. => .respGetdef
  | .setdef _ => .respSetdef
  | .getagps .. | .getServer .. => .respGetagps
  | .setagps _ => .respSetagps
  | .injtime _ => .respInjtime

/-- The result that a response carries. -/
def Response.result : Response → UInt16
  | .getnmeaport _ => 0
  | .getdef nret _ _ _ _ | .setdef nret | .getagps nret _ _ => nret.toUInt16
  | .getServer status _ _ _ => status.toUInt16
  | .setagps qret | .injtime qret => qret.toUInt16

/-- The fields of a response, in the order in which they are put behind the header. -/
def Response.body : Response → List UInt8
  | .getnmeaport name => name
  | .getdef _ operation timeout interval accuracy =>
      [operation.toUInt8, timeout] ++ rilPiput32 interval ++ rilPiput32 accuracy
  | .getagps _ ipaddr port => rilPiput32 ipaddr ++ rilPiput32 port
  | .getServer _ ipaddr port url =>
      rilPiput32 ipaddr ++ rilPiput32 port.toUInt32 ++
        if url = [] then [] else UInt8.ofNat url.length :: url
  | .setdef _ | .setagps _ | .injtime _ => []

/-- What is sent for a response, if its header can be made. -/
def Response.respbuf : Response → Except String (List UInt8)
  | .getnmeaport name => getnmeaportRespbuf name
  | .getdef nret operation timeout interval accuracy =>
      getdefRespbuf nret operation timeout interval accuracy
  | .setdef nret => setdefRespbuf nret
  | .getagps nret ipaddr port => getagpsRespbuf nret ipaddr port
  | .getServer status ipaddr port url => getServerRespbuf status ipaddr port url
  | .setagps qret => setagpsRespbuf qret
  | .injtime qret => injtimeRespbuf qret

/-- The response reports the AGPS settings. -/
def Response.ReportsAgps : Response → Prop
  | .getagps .. | .getServer .. => True
  | _ => False

end Responses

section Built

variable {type : MsgType} {result : UInt16} {length buflength : ℕ} {bytes body : List UInt8}

@[simp] theorem ofCode_code (type : MsgType) : MsgType.ofCode type.code = some type := by
  cases type <;> rfl

theorem ValidLength.le (h : ValidLength type length) : length ≤ msgsizeMaxAgps := by
  refine Nat.le_trans h.2 ?_
  cases type <;> decide

theorem toNat_ofNat_of_valid (h : ValidLength type length) :
    (UInt16.ofNat length).toNat = length :=
  UInt16.toNat_ofNat_of_lt' (Nat.lt_of_le_of_lt h.le (by decide))

theorem swigpsMakhdr_of_valid (h : ValidLength type length) (hbuf : msgsizeHeader ≤ buflength) :
    swigpsMakhdr type length result buflength =
      .ok (rilPiput16 type.code ++ rilPiput16 result ++ rilPiput16 (UInt16.ofNat length)) := by
  rw [swigpsMakhdr, if_neg (Nat.not_lt.mpr hbuf), if_pos h]

/-- The header of a response can be made, if the name of the port has a valid length. -/
theorem exists_respbuf (p : Response)
    (h : ∀ name, p = .getnmeaport name → ValidLength .respGetnmeaport name.length) :
    ∃ bytes, p.respbuf = .ok bytes := by
  cases p with
  | getnmeaport name =>
      rw [Response.respbuf, getnmeaportRespbuf, swigpsMakhdr_of_valid (h name rfl) (by decide)]
      exact ⟨_, rfl⟩
  | getdef nret operation timeout interval accuracy =>
      rw [Response.respbuf, getdefRespbuf, swigpsMakhdr_of_valid (by decide) (by decide)]
      exact ⟨_, rfl⟩
  | setdef nret =>
      rw [Response.respbuf, setdefRespbuf, swigpsMakhdr_of_valid (by decide) (by decide)]
      exact ⟨_, rfl⟩
  | getagps nret ipaddr port =>
      rw [Response.respbuf, getagpsRespbuf, swigpsMakhdr_of_valid (by decide) (by decide)]
      exact ⟨_, rfl⟩
  | getServer status ipaddr port url =>
      rw [Response.respbuf, getServerRespbuf, swigpsMakhdr_of_valid (by decide) (by decide)]
      exact ⟨_, rfl⟩
  | setagps qret =>
      rw [Response.respbuf, setagpsRespbuf, swigpsMakhdr_of_valid (by decide) (by decide)]
      exact ⟨_, rfl⟩
  | injtime qret =>
      rw [Response.respbuf, injtimeRespbuf, swigpsMakhdr_of_valid (by decide) (by decide)]
      exact ⟨_, rfl⟩

/-- A header that was made, with a body of the length that was asked for behind it. -/
theorem message_of_makhdr (h : swigpsMakhdr type length result buflength = .ok bytes)
    (hbody : body.length = length) : Message type result body (bytes ++ body) := by
  subst hbody
  rw [swigpsMakhdr] at h
  split_ifs at h with _ hvalid
  obtain rfl := Except.ok.inj h
  exact ⟨rfl, hvalid⟩

theorem message_of_map_makhdr
    (h : (swigpsMakhdr type length result buflength).map (· ++ body) = .ok bytes)
    (hbody : body.length = length) : Message type result body bytes := by
  obtain ⟨hdr, hhdr, rfl⟩ : ∃ hdr, swigpsMakhdr type length result buflength = .ok hdr ∧
      hdr ++ body = bytes := by
    cases hmak : swigpsMakhdr type length result buflength with
    | error e => rw [hmak] at h; cases h
    | ok hdr => rw [hmak] at h; exact ⟨hdr, rfl, Except.ok.inj h⟩
  exact message_of_makhdr hhdr hbody

theorem message_of_makhdr_zero (h : swigpsMakhdr type 0 result buflength = .ok bytes) :
    Message type result [] bytes := by
  have hmessage : Message type result [] (bytes ++ []) := message_of_makhdr h rfl
  rwa [List.append_nil] at hmessage

/-- What is sent for a request is a message with its fields. -/
theorem message_of_send {r : Request} (h : r.send = .ok bytes) :
    Message r.type 0 r.body bytes := by
  cases r with
  | getnmeaport riltype =>
      rw [Request.send, swigpsGetnmeaport] at h
      exact message_of_map_makhdr h rfl
  | getdef =>
      rw [Request.send, swigpsGetdef] at h
      exact message_of_makhdr_zero h
  | setdef operation timeout interval accuracy tracking =>
      rw [Request.send, swigpsSetdef] at h
      exact message_of_map_makhdr h rfl
  | getagps =>
      rw [Request.send, swigpsGetagps] at h
      exact message_of_makhdr_zero h
  | setagps ipaddr port hostname =>
      rw [Request.send, swigpsSetagps] at h
      refine message_of_map_makhdr h ?_
      simp only [Request.body, List.length_append, length_rilPiput32, List.length_singleton,
        msgsizeMinAgps]
      omega
  | injtime time uncertainty =>
      rw [Request.send, swigpsInjtime] at h
      exact message_of_map_makhdr h rfl
  | stopSession =>
      rw [Request.send, swigpsStopSession] at h
      exact message_of_makhdr_zero h
  | startSession operation timeout interval accuracy =>
      rw [Request.send, swigpsStartSession] at h
      exact message_of_map_makhdr h rfl

/-- What is sent for a response is a message with its fields, unless it reports the AGPS
settings. -/
theorem message_of_respbuf {p : Response} (hp : ¬ p.ReportsAgps) (h : p.respbuf = .ok bytes) :
    Message p.type p.result p.body bytes := by
  cases p with
  | getnmeaport name =>
      rw [Response.respbuf, getnmeaportRespbuf] at h
      exact message_of_map_makhdr h rfl
  | getdef nret operation timeout interval accuracy =>
      rw [Response.respbuf, getdefRespbuf] at h
      exact message_of_map_makhdr h rfl
  | setdef nret =>
      rw [Response.respbuf, setdefRespbuf] at h
      exact message_of_makhdr_zero h
  | getagps => exact absurd trivial hp
  | getServer => exact absurd trivial hp
  | setagps qret =>
      rw [Response.respbuf, setagpsRespbuf] at h
      exact message_of_makhdr_zero h
  | injtime qret =>
      rw [Response.respbuf, injtimeRespbuf] at h
      exact message_of_makhdr_zero h

theorem run_header (code result length : UInt16) (bytes : List UInt8) :
    header.run (rilPiput16 code ++ rilPiput16 result ++ rilPiput16 length ++ bytes) =
      some (⟨code, result, length⟩, bytes) := by
  rw [header, List.append_assoc, List.append_assoc]
  simp only [StateT.run_bind, run_rilPiget16, Option.bind_eq_bind, Option.bind_some]
  rfl

theorem Message.run_header (h : Message type result body bytes) :
    header.run bytes = some (⟨type.code, result, UInt16.ofNat body.length⟩, body) := by
  rw [h.bytes_eq, Gps.run_header]

/-- A message announces what is behind its header. -/
theorem Message.announces (h : Message type result body bytes) : Announces bytes :=
  ⟨_, _, h.run_header, toNat_ofNat_of_valid h.valid⟩

end Built

end Gps

end SierraSdk
