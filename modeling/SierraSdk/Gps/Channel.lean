import SierraSdk.Gps.LibrarySide
import SierraSdk.Gps.Receive
import SierraSdk.Gps.RilSide

/-!
# Requests and their responses

A request for the NMEA port, to set the defaults, to set the AGPS server or to inject the time is
followed from the socket through the event queue, and through the location service on the modules
that have it, to its response. At any time the sockets that requests of a kind came on are, in
their order, those that were answered, the one whose indication is waited for, and those of the
requests that are still in the queue (`answered_run`).

The events are `Regular`: the library has sent what is received, the callbacks of the location
service can be switched, and a request that needs an indication is not taken from the queue while
another one of its kind waits for it.
-/

namespace SierraSdk

namespace Gps

open Unpacking Machine

section Arguments

/-- The host name of a request, if it has one. -/
def Request.hostname : Request → List UInt8
  | .setagps _ _ hostname => hostname
  | _ => []

variable (fd : UInt32) (bytes : List UInt8)

theorem run_unpackSetdef (operation timeout interval accuracy : UInt32) (tracking : Bool) :
    unpackSetdef.run (rilPiput32 fd ++
        (Request.setdef operation timeout interval accuracy tracking).body) =
      some (⟨fd, operation.toUInt8.toUInt32, timeout.toUInt8, interval, accuracy⟩,
        [UInt8.ofNat tracking.toNat]) := by
  simp only [unpackSetdef, Request.body, StateT.run_bind, run_rilPiget32, List.append_assoc,
    List.cons_append, List.nil_append, run_next_cons, Option.bind_eq_bind, Option.bind_some]
  rfl

theorem run_unpackSetagps (ipaddr port : UInt32) {hostname : List UInt8}
    (h : hostname.length < maxUrl) :
    unpackSetagps.run (rilPiput32 fd ++ (Request.setagps ipaddr port hostname).body) =
      some (⟨fd, ipaddr, port, hostname⟩, []) := by
  have hlength : hostname.length = (UInt8.ofNat hostname.length).toNat :=
    (UInt8.toNat_ofNat_of_lt' (Nat.lt_trans h (by decide))).symm
  have hall := run_nextMany_append hlength ([] : List UInt8)
  rw [List.append_nil] at hall
  simp only [unpackSetagps, Request.body, StateT.run_bind, run_rilPiget32, List.append_assoc,
    List.cons_append, List.nil_append, run_next_cons, hall, Option.bind_eq_bind,
    Option.bind_some, h, if_true]
  rfl

theorem run_unpackInjtime (time : UInt64) (uncertainty : UInt32) :
    unpackInjtime.run (rilPiput32 fd ++ (Request.injtime time uncertainty).body) =
      some (⟨fd, time, uncertainty⟩, []) := by
  have huncertainty := run_rilPiget32 uncertainty []
  rw [List.append_nil] at huncertainty
  simp only [unpackInjtime, Request.body, StateT.run_bind, run_rilPiget32, run_rilPiget64,
    huncertainty, Option.bind_eq_bind, Option.bind_some]
  rfl

end Arguments

section Kinds

/-- The kinds of requests that are followed. -/
inductive Kind
  | nmeaport
  | setdef
  | setagps
  | injtime
  deriving DecidableEq

namespace Kind

def request : Kind → MsgType
  | nmeaport => .reqGetnmeaport
  | setdef => .reqSetdef
  | setagps => .reqSetagps
  | injtime => .reqInjtime

def response : Kind → MsgType
  | nmeaport => .respGetnmeaport
  | setdef => .respSetdef
  | setagps => .respSetagps
  | injtime => .respInjtime

/-- The event of the indication that the response waits for, on some modules. -/
def awaited : Kind → Option LocEvent
  | nmeaport => none
  | setdef => none
  | setagps => some .setServer
  | injtime => some .injectUtc

end Kind

/-- The type that a message carries. -/
def typeOf (bytes : List UInt8) : Option UInt16 := (header.run bytes).map fun r => r.1.type

/-- The socket, if a request of the kind is received. -/
def Event.received (k : Kind) : Event → List UInt32
  | .packet _ fd _ bytes => if typeOf bytes = some k.request.code then [fd] else []
  | _ => []

/-- The socket, if a response of the kind is sent. -/
def Output.answered (k : Kind) : Output → List UInt32
  | .sent fd bytes => if typeOf bytes = some k.response.code then [fd] else []
  | _ => []

/-- The socket in the block of an entry. -/
def Job.fd (job : Job) : UInt32 := (rilPiget32.run job.block).elim 0 Prod.fst

/-- The sockets of the requests of a kind that are in the event queue. -/
def pending (k : Kind) (jobs : List Job) : List UInt32 :=
  (jobs.filter fun job => rilFunc k.request = some job.func).map Job.fd

/-- The socket of the request of a kind whose indication is waited for. -/
def waiting (k : Kind) (s : RilGps) : List UInt32 :=
  k.awaited.elim [] fun id => if s.registered id then [s.locRegInfo id] else []

/-- The sockets that requests of a kind came on. -/
def received (k : Kind) (events : List Event) : List UInt32 := events.flatMap (Event.received k)

/-- The sockets that responses of a kind were sent to. -/
def answered (k : Kind) (outputs : List Output) : List UInt32 :=
  outputs.flatMap (Output.answered k)

/-- The values of an indication have their place in the response. -/
def Indication.Fits : Indication → Prop
  | .getServer _ _ url => url.length ≤ maxUrl
  | .getFixCriteria _ accuracy _ => (accuracy.getD 0).toNat < accMeter.length
  | _ => True

/-- The events of a run. -/
def Regular (device : Device) (s : Option RilGps) : Event → Prop
  | .packet ifname _ _ bytes =>
      ∃ r : Request, r.send = .ok bytes ∧ r.hostname.length < maxUrl ∧
        (r.type = .reqGetnmeaport → ∃ name ∈ ifname, ValidLength .respGetnmeaport name.length)
  | .job sdk =>
      (device.usesLoc = true → ∀ id, sdk.result (.setCallback id true) = errNone) ∧
        ∀ t ∈ s, ∀ job ∈ t.jobs.head?, ∀ k : Kind,
          rilFunc k.request = some job.func → waiting k t = []
  | .indication sdk ind => (∀ id, sdk.result (.setCallback id false) = errNone) ∧ ind.Fits

end Kinds

section Messages

variable {k : Kind} {fd : UInt32} {bytes body : List UInt8} {type : MsgType} {result : UInt16}

theorem code_injective {a b : MsgType} (h : a.code = b.code) : a = b :=
  Option.some.inj ((ofCode_code a).symm.trans ((congrArg MsgType.ofCode h).trans (ofCode_code b)))

theorem code_eq_iff {a b : MsgType} : some a.code = some b.code ↔ a = b :=
  ⟨fun h => code_injective (Option.some.inj h), fun h => h ▸ rfl⟩

theorem typeOf_message (h : Message type result body bytes) : typeOf bytes = some type.code := by
  rw [typeOf, h.run_header]
  rfl

/-- Whatever is behind its header, a message has the type that the header was made for. -/
theorem typeOf_makhdr {length buflength : ℕ} {hdr : List UInt8}
    (h : swigpsMakhdr type length result buflength = .ok hdr) :
    typeOf (hdr ++ body) = some type.code := by
  rw [swigpsMakhdr] at h
  split_ifs at h
  obtain rfl := Except.ok.inj h
  rw [typeOf, run_header]
  rfl

theorem typeOf_map_makhdr {length buflength : ℕ}
    (h : (swigpsMakhdr type length result buflength).map (· ++ body) = .ok bytes) :
    typeOf bytes = some type.code := by
  cases hmak : swigpsMakhdr type length result buflength with
  | error e => rw [hmak] at h; cases h
  | ok hdr =>
      rw [hmak] at h
      obtain rfl := Except.ok.inj h
      exact typeOf_makhdr hmak

theorem typeOf_respbuf {p : Response} (h : p.respbuf = .ok bytes) :
    typeOf bytes = some p.type.code := by
  by_cases hp : p.ReportsAgps
  · cases p with
    | getagps nret ipaddr port =>
        rw [Response.respbuf, getagpsRespbuf] at h
        exact typeOf_map_makhdr h
    | getServer status ipaddr port url =>
        rw [Response.respbuf, getServerRespbuf] at h
        exact typeOf_map_makhdr h
    | _ => exact hp.elim
  · exact typeOf_message (message_of_respbuf hp h)

/-- A request is one of the kind, or not. -/
theorem received_packet {r : Request} (h : r.send = .ok bytes) (ifname : Option (List UInt8))
    (addr : UInt32) :
    Event.received k (.packet ifname fd addr bytes) = if r.type = k.request then [fd] else [] := by
  rw [Event.received, typeOf_message (message_of_send h)]
  simp only [code_eq_iff]

/-- A response is one of the kind, or not. -/
theorem answered_respond {p : Response} (h : p.respbuf = .ok bytes) :
    answered k (respond fd p.respbuf) = if p.type = k.response then [fd] else [] := by
  rw [h, respond, answered, List.flatMap_singleton, Output.answered, typeOf_respbuf h]
  simp only [code_eq_iff]

theorem answered_calls (calls : List SdkCall) (outs : List Output) :
    answered k (calls.map .call ++ outs) = answered k outs := by
  induction calls with
  | nil => rfl
  | cons c calls ih => exact ih

end Messages

section Steps

variable {device : Device} {sdk : Sdk} {s t : RilGps} {k : Kind} {fd : UInt32}

/-- What an entry of the event queue was made from. -/
structure JobOf (r : Request) (fd : UInt32) (job : Job) : Prop where
  func : rilFunc r.type = some job.func
  block : job.block = rilPiput32 fd ++ r.body
  hostname : r.hostname.length < maxUrl

theorem JobOf.fd_eq {r : Request} {fd : UInt32} {job : Job} (h : JobOf r fd job) :
    job.fd = fd := by
  rw [Job.fd, h.block, run_rilPiget32]
  rfl

/-- All entries of the event queue are requests of the library. -/
def JobsOk (jobs : List Job) : Prop := ∀ job ∈ jobs, ∃ r fd, JobOf r fd job

/-- A request that came on a socket is done: it was answered on the socket, or waits for its
indication. What waited before still waits. -/
def Settled (r : Request) (fd : UInt32) (s t : RilGps) (outs : List Output) : Prop :=
  t.jobs = s.jobs ∧
    ∀ k : Kind, waiting k s ++ (if r.type = k.request then [fd] else []) =
      answered k outs ++ waiting k t

/-- The type of the requests that a function is for. -/
def RilFunc.request : RilFunc → MsgType
  | .getDef => .reqGetdef
  | .setDef => .reqSetdef
  | .getAgps => .reqGetagps
  | .setAgps => .reqSetagps
  | .injTime => .reqInjtime
  | .stopSession => .reqStop
  | .startSession => .reqStart

theorem eq_request_of_rilFunc {type : MsgType} {func : RilFunc} (h : rilFunc type = some func) :
    type = func.request := by
  cases type <;> simp only [rilFunc, reduceCtorEq, Option.some.injEq] at h <;> subst h <;> rfl

theorem rilFunc_request (func : RilFunc) : rilFunc func.request = some func := by
  cases func <;> rfl

/-- A function is for the requests of one type. -/
theorem rilFunc_eq_some_iff {type : MsgType} {func : RilFunc} :
    rilFunc type = some func ↔ type = func.request :=
  ⟨eq_request_of_rilFunc, fun h => h ▸ rilFunc_request func⟩

/-- What waits depends on the callbacks that are registered for it, and their sockets. -/
theorem waiting_congr (h : ∀ id ∈ k.awaited,
    t.registered id = s.registered id ∧ t.locRegInfo id = s.locRegInfo id) :
    waiting k t = waiting k s := by
  rw [waiting, waiting]
  cases hid : k.awaited with
  | none => rfl
  | some id =>
      obtain ⟨hregistered, hinfo⟩ := h id hid
      rw [Option.elim_some, Option.elim_some, hregistered, hinfo]

/-- The request is answered at once. -/
theorem settled_respond {r : Request} {p : Response} {bytes : List UInt8}
    (h : p.respbuf = .ok bytes) (htype : ∀ k : Kind, p.type = k.response ↔ r.type = k.request)
    (hwaiting : ∀ k : Kind, r.type = k.request → waiting k s = []) (calls : List SdkCall) :
    Settled r fd s s (calls.map .call ++ respond fd p.respbuf) := by
  refine ⟨rfl, fun k => ?_⟩
  rw [answered_calls, answered_respond h]
  simp only [htype k]
  by_cases hk : r.type = k.request
  · rw [if_pos hk, hwaiting k hk]
    rfl
  · rw [if_neg hk, List.append_nil, List.nil_append]

/-- The callback of the indication that is awaited is registered, with the socket. -/
theorem settled_rilLocRequest {r : Request} {id : LocEvent}
    (hid : ∀ k : Kind, k.awaited = some id ↔ r.type = k.request)
    (hwaiting : ∀ k : Kind, r.type = k.request → waiting k s = [])
    (hsdk : sdk.result (.setCallback id true) = errNone) (c : SdkCall) :
    Settled r fd s (rilLocRequest sdk s id fd c).1 (rilLocRequest sdk s id fd c).2 := by
  rw [rilLocRequest, if_neg (not_not_intro hsdk), switchLocCallback, if_pos hsdk]
  refine ⟨rfl, fun k => ?_⟩
  by_cases hk : r.type = k.request
  · rw [if_pos hk, hwaiting k hk, waiting, (hid k).mpr hk]
    simp [setLocReqInfo, answered, Output.answered]
  · have hne : ∀ a ∈ k.awaited, a ≠ id := fun a ha heq => hk ((hid k).mp (heq ▸ ha))
    have hsame : waiting k (setLocReqInfo
        { s with registered := Function.update s.registered id true } id fd) = waiting k s :=
      waiting_congr fun a ha =>
        ⟨Function.update_of_ne (hne a ha) _ _, Function.update_of_ne (hne a ha) _ _⟩
    rw [if_neg hk, List.append_nil, hsame]
    rfl

/-- The request is answered at once, with a response whose header is made. -/
theorem settled_direct {r : Request} (p : Response) (calls : List SdkCall)
    (hp : ∀ name, p ≠ .getnmeaport name)
    (htype : ∀ k : Kind, p.type = k.response ↔ r.type = k.request)
    (hwaiting : ∀ k : Kind, r.type = k.request → waiting k s = []) :
    Settled r fd s s (calls.map .call ++ respond fd p.respbuf) := by
  obtain ⟨bytes, hbytes⟩ := exists_respbuf p fun name heq => absurd heq (hp name)
  exact settled_respond hbytes htype hwaiting calls

/-- For a request that is not followed, the socket makes no difference. -/
theorem Settled.of_none {r : Request} {fd' : UInt32} {outs : List Output}
    (h : Settled r fd s t outs) (hnone : ∀ k : Kind, r.type ≠ k.request) :
    Settled r fd' s t outs := by
  refine ⟨h.1, fun k => ?_⟩
  have hk := h.2 k
  rw [if_neg (hnone k)] at hk ⊢
  exact hk

section Functions

/-- The defaults are asked for; what another kind waits for is not touched. -/
theorem settled_rilLocGetDef (hsdk : sdk.result (.setCallback .getOpmode true) = errNone)
    (addr : UInt32) :
    Settled .getdef fd s (rilLocGetDef sdk s addr).1 (rilLocGetDef sdk s addr).2 := by
  simp only [rilLocGetDef, rilLocGetOpMode, hsdk, ne_eq, not_true_eq_false, if_false,
    switchLocCallback, if_true]
  refine ⟨rfl, fun k => ?_⟩
  have hnone : Request.getdef.type ≠ k.request := by cases k <;> exact MsgType.noConfusion
  have hsame : waiting k { setLocReqInfo s .getFixCrt addr with
      registered := Function.update s.registered .getOpmode true } = waiting k s := by
    refine waiting_congr fun id hid => ?_
    have hne : id ≠ .getOpmode ∧ id ≠ .getFixCrt := by
      cases k <;> cases hid <;> exact ⟨LocEvent.noConfusion, LocEvent.noConfusion⟩
    exact ⟨Function.update_of_ne hne.1 _ _, Function.update_of_ne hne.2 _ _⟩
  rw [if_neg hnone, List.append_nil]
  exact hsame.symm

theorem settled_rilgpsGetDef
    (hsdk : device.usesLoc = true → ∀ id, sdk.result (.setCallback id true) = errNone)
    (addr : UInt32) :
    Settled .getdef fd s (rilgpsGetDef device sdk s addr).1
      (rilgpsGetDef device sdk s addr).2 := by
  have hnone : ∀ k : Kind, Request.getdef.type ≠ k.request := fun k => by
    cases k <;> exact MsgType.noConfusion
  unfold rilgpsGetDef
  by_cases hloc : device.usesLoc = true
  · simp only [hloc, if_true]
    exact settled_rilLocGetDef (hsdk hloc _) addr
  · simp only [hloc]
    exact (settled_direct (.getdef _ _ _ _ _) [.getPdsDefaults] (fun _ => Response.noConfusion)
      (fun k => by cases k <;> simp [Response.type, Request.type, Kind.response, Kind.request])
      fun k hk => absurd hk (hnone k)).of_none hnone

theorem settled_rilgpsGetAgps
    (hsdk : device.usesLoc = true → ∀ id, sdk.result (.setCallback id true) = errNone)
    (addr : UInt32) :
    Settled .getagps fd s (rilgpsGetAgps device sdk s addr).1
      (rilgpsGetAgps device sdk s addr).2 := by
  have hnone : ∀ k : Kind, Request.getagps.type ≠ k.request := fun k => by
    cases k <;> exact MsgType.noConfusion
  unfold rilgpsGetAgps
  by_cases hloc : device.usesLoc = true
  · simp only [hloc, if_true]
    exact (settled_rilLocRequest
      (fun k => by cases k <;> simp [Kind.awaited, Request.type, Kind.request])
      (fun k hk => absurd hk (hnone k)) (hsdk hloc .getServer) .locGetServer).of_none hnone
  · simp only [hloc]
    exact (settled_direct (.getagps _ _ _) [.getAgpsConfig] (fun _ => Response.noConfusion)
      (fun k => by cases k <;> simp [Response.type, Request.type, Kind.response, Kind.request])
      fun k hk => absurd hk (hnone k)).of_none hnone

theorem settled_rilgpsSetDef {operation timeout interval accuracy : UInt32} {tracking : Bool}
    {r : Request} (hr : r = .setdef operation timeout interval accuracy tracking)
    (hwaiting : ∀ k : Kind, r.type = k.request → waiting k s = []) :
    ∃ t outs, rilgpsSetDef device sdk s (rilPiput32 fd ++ r.body) = some (t, outs) ∧
      Settled r fd s t outs := by
  subst hr
  rw [rilgpsSetDef, run_unpackSetdef]
  refine ⟨_, _, rfl, ?_⟩
  exact settled_direct (.setdef _) [_] (fun _ => Response.noConfusion)
    (fun k => by cases k <;> simp [Response.type, Request.type, Kind.response, Kind.request])
    hwaiting

theorem settled_rilgpsSetAgps {ipaddr port : UInt32} {hostname : List UInt8} {r : Request}
    (hr : r = .setagps ipaddr port hostname) (hhost : hostname.length < maxUrl)
    (hsdk : device.usesLoc = true → ∀ id, sdk.result (.setCallback id true) = errNone)
    (hwaiting : ∀ k : Kind, r.type = k.request → waiting k s = []) :
    ∃ t outs, rilgpsSetAgps device sdk s (rilPiput32 fd ++ r.body) = some (t, outs) ∧
      Settled r fd s t outs := by
  subst hr
  rw [rilgpsSetAgps, run_unpackSetagps fd ipaddr port hhost, Option.map_some]
  by_cases hloc : device.usesLoc = true
  · rw [if_pos hloc]
    exact ⟨_, _, rfl, settled_rilLocRequest
      (fun k => by cases k <;> simp [Kind.awaited, Request.type, Kind.request]) hwaiting
      (hsdk hloc .setServer) _⟩
  · rw [if_neg hloc]
    exact ⟨_, _, rfl, settled_direct (.setagps _) _ (fun _ => Response.noConfusion)
      (fun k => by cases k <;> simp [Response.type, Request.type, Kind.response, Kind.request])
      hwaiting⟩

theorem settled_rilgpsInjTime {time : UInt64} {uncertainty : UInt32} {r : Request}
    (hr : r = .injtime time uncertainty)
    (hsdk : device.usesLoc = true → ∀ id, sdk.result (.setCallback id true) = errNone)
    (hwaiting : ∀ k : Kind, r.type = k.request → waiting k s = []) :
    ∃ t outs, rilgpsInjTime device sdk s (rilPiput32 fd ++ r.body) = some (t, outs) ∧
      Settled r fd s t outs := by
  subst hr
  rw [rilgpsInjTime, run_unpackInjtime, Option.map_some]
  by_cases hloc : device.is9x30 = true
  · have huses : device.usesLoc = true := by rw [Device.usesLoc, hloc, Bool.true_or]
    rw [if_pos hloc]
    exact ⟨_, _, rfl, settled_rilLocRequest
      (fun k => by cases k <;> simp [Kind.awaited, Request.type, Kind.request]) hwaiting
      (hsdk huses .injectUtc) _⟩
  · rw [if_neg hloc]
    exact ⟨_, _, rfl, settled_direct (.injtime _) [_] (fun _ => Response.noConfusion)
      (fun k => by cases k <;> simp [Response.type, Request.type, Kind.response, Kind.request])
      hwaiting⟩

/-- The function of an entry settles its request. -/
theorem runJob_settled {r : Request} {job : Job} (hjob : JobOf r fd job)
    (hsdk : device.usesLoc = true → ∀ id, sdk.result (.setCallback id true) = errNone)
    (hwaiting : ∀ k : Kind, r.type = k.request → waiting k s = []) :
    ∃ t outs, runJob device sdk s job = some (t, outs) ∧ Settled r fd s t outs := by
  obtain ⟨func, addr, block⟩ := job
  obtain ⟨hfunc, rfl, hhost⟩ := hjob
  have hidle : (∀ k : Kind, r.type ≠ k.request) → Settled r fd s s [] := by
    refine fun hnone => ⟨rfl, fun k => ?_⟩
    rw [if_neg (hnone k), List.append_nil]
    rfl
  cases r with
  | getnmeaport riltype => exact absurd hfunc.symm (Option.some_ne_none _)
  | getdef =>
      obtain rfl : func = .getDef := (Option.some.inj hfunc).symm
      exact ⟨_, _, rfl, settled_rilgpsGetDef hsdk addr⟩
  | setdef operation timeout interval accuracy tracking =>
      obtain rfl : func = .setDef := (Option.some.inj hfunc).symm
      exact settled_rilgpsSetDef rfl hwaiting
  | getagps =>
      obtain rfl : func = .getAgps := (Option.some.inj hfunc).symm
      exact ⟨_, _, rfl, settled_rilgpsGetAgps hsdk addr⟩
  | setagps ipaddr port hostname =>
      obtain rfl : func = .setAgps := (Option.some.inj hfunc).symm
      exact settled_rilgpsSetAgps rfl hhost hsdk hwaiting
  | injtime time uncertainty =>
      obtain rfl : func = .injTime := (Option.some.inj hfunc).symm
      exact settled_rilgpsInjTime rfl hsdk hwaiting
  | stopSession =>
      obtain rfl : func = .stopSession := (Option.some.inj hfunc).symm
      exact ⟨s, [], rfl, hidle fun k => by cases k <;> exact MsgType.noConfusion⟩
  | startSession operation timeout interval accuracy =>
      obtain rfl : func = .startSession := (Option.some.inj hfunc).symm
      exact ⟨s, [], rfl, hidle fun k => by cases k <;> exact MsgType.noConfusion⟩

end Functions

section Indications

/-- The response to an indication goes to the socket that waits for it. -/
theorem settled_cbk {id : LocEvent} {p : Response} (hp : ∀ name, p ≠ .getnmeaport name)
    (htype : ∀ k : Kind, p.type = k.response ↔ k.awaited = some id)
    (hsdk : sdk.result (.setCallback id false) = errNone) (hregistered : s.registered id = true)
    (k : Kind) :
    (switchLocCallback sdk s id false).jobs = s.jobs ∧
      waiting k s =
        answered k (respond ((switchLocCallback sdk s id false).locRegInfo id) p.respbuf) ++
          waiting k (switchLocCallback sdk s id false) := by
  obtain ⟨bytes, hbytes⟩ := exists_respbuf p fun name heq => absurd heq (hp name)
  rw [switchLocCallback, if_pos hsdk, answered_respond hbytes]
  refine ⟨rfl, ?_⟩
  by_cases hk : k.awaited = some id
  · rw [if_pos ((htype k).mpr hk), waiting, waiting, hk]
    simp [hregistered]
  · rw [if_neg (fun h => hk ((htype k).mp h)), List.nil_append]
    have hne : ∀ a ∈ k.awaited, a ≠ id := fun a ha heq => hk (heq ▸ ha)
    have hsame : waiting k { s with registered := Function.update s.registered id false } =
        waiting k s := waiting_congr fun a ha => ⟨Function.update_of_ne (hne a ha) _ _, rfl⟩
    exact hsame.symm

/-- What waits is not touched by the callbacks for the defaults and the AGPS settings. -/
theorem waiting_switchLocCallback {id : LocEvent} {on : Bool}
    (hid : ∀ k : Kind, k.awaited ≠ some id) :
    waiting k (switchLocCallback sdk s id on) = waiting k s := by
  refine waiting_congr fun a ha => ?_
  have hne : a ≠ id := fun heq => hid k (heq ▸ ha)
  unfold switchLocCallback
  split_ifs
  · exact ⟨Function.update_of_ne hne _ _, rfl⟩
  · exact ⟨rfl, rfl⟩

theorem waiting_setLocReqInfo {id : LocEvent} {value : UInt32}
    (hid : ∀ k : Kind, k.awaited ≠ some id) :
    waiting k (setLocReqInfo s id value) = waiting k s := by
  refine waiting_congr fun a ha => ⟨rfl, ?_⟩
  have hne : a ≠ id := fun heq => hid k (heq ▸ ha)
  exact Function.update_of_ne hne _ _

@[simp] theorem jobs_switchLocCallback (id : LocEvent) (on : Bool) :
    (switchLocCallback sdk s id on).jobs = s.jobs := by
  unfold switchLocCallback
  split_ifs <;> rfl

/-- A response of a kind that is not followed. -/
theorem answered_respond_other {p : Response} (hp : ∀ name, p ≠ .getnmeaport name)
    (htype : ∀ k : Kind, p.type ≠ k.response) : answered k (respond fd p.respbuf) = [] := by
  obtain ⟨bytes, hbytes⟩ := exists_respbuf p fun name heq => absurd heq (hp name)
  rw [answered_respond hbytes, if_neg (htype k)]

theorem settled_rilLocGetFixCriteria :
    (rilLocGetFixCriteria sdk s).1.jobs = s.jobs ∧
      answered k (rilLocGetFixCriteria sdk s).2 = [] ∧
        waiting k (rilLocGetFixCriteria sdk s).1 = waiting k s := by
  have hcrt : ∀ k : Kind, k.awaited ≠ some .getFixCrt := fun k => by cases k <;> decide
  unfold rilLocGetFixCriteria
  split_ifs
  · exact ⟨rfl, rfl, rfl⟩
  · exact ⟨jobs_switchLocCallback _ _, rfl, waiting_switchLocCallback hcrt⟩

/-- The operation mode leads to the fix criteria, or to a response of a kind that is not
followed. -/
theorem settled_cbkGetOpMode (status : UInt32) (mode : Option UInt32) :
    (cbkGetOpMode sdk s status mode).1.jobs = s.jobs ∧
      answered k (cbkGetOpMode sdk s status mode).2 = [] ∧
        waiting k (cbkGetOpMode sdk s status mode).1 = waiting k s := by
  have hmode : ∀ k : Kind, k.awaited ≠ some .getOpmode := fun k => by cases k <;> decide
  have hswitch : waiting k (switchLocCallback sdk s .getOpmode false) = waiting k s :=
    waiting_switchLocCallback hmode
  by_cases hstatus : status = errNone
  · obtain ⟨value, hvalue⟩ : ∃ value, cbkGetOpMode sdk s status mode =
        rilLocGetFixCriteria sdk
          (setLocReqInfo (switchLocCallback sdk s .getOpmode false) .getOpmode value) :=
      ⟨_, if_pos hstatus⟩
    obtain ⟨hjobs, hanswered, hwaiting⟩ := @settled_rilLocGetFixCriteria sdk
      (setLocReqInfo (switchLocCallback sdk s .getOpmode false) .getOpmode value) k
    rw [hvalue]
    refine ⟨hjobs.trans (jobs_switchLocCallback _ _), hanswered, hwaiting.trans ?_⟩
    exact (waiting_setLocReqInfo hmode).trans hswitch
  · have hvalue : cbkGetOpMode sdk s status mode = (switchLocCallback sdk s .getOpmode false,
        respond ((switchLocCallback sdk s .getOpmode false).locRegInfo .getFixCrt)
          (Response.getdef status 0 255 1000 50).respbuf) := if_neg hstatus
    have hother : ∀ k : Kind, (Response.getdef status 0 255 1000 50).type ≠ k.response :=
      fun k => by cases k <;> exact MsgType.noConfusion
    rw [hvalue]
    exact ⟨jobs_switchLocCallback _ _,
      answered_respond_other (fun _ => Response.noConfusion) hother, hswitch⟩

/-- An indication leaves the queue as it is; if it was waited for, it is answered. -/
theorem indicate_settled {ind : Indication} (hfits : ind.Fits)
    (hsdk : ∀ id, sdk.result (.setCallback id false) = errNone) :
    ∃ t outs, indicate sdk s ind = some (t, outs) ∧ t.jobs = s.jobs ∧
      ∀ k : Kind, waiting k s = answered k outs ++ waiting k t := by
  by_cases hregistered : s.registered ind.event = true
  · cases ind with
    | injectUtcTime status =>
        have hcbk := settled_cbk (p := .injtime status) (fun _ => Response.noConfusion)
          (fun k => by cases k <;> simp [Response.type, Kind.response, Kind.awaited])
          (hsdk .injectUtc) hregistered
        exact ⟨_, _, if_pos hregistered, (hcbk .injtime).1, fun k => (hcbk k).2⟩
    | setServer status =>
        have hcbk := settled_cbk (p := .setagps status) (fun _ => Response.noConfusion)
          (fun k => by cases k <;> simp [Response.type, Kind.response, Kind.awaited])
          (hsdk .setServer) hregistered
        exact ⟨_, _, if_pos hregistered, (hcbk .setagps).1, fun k => (hcbk k).2⟩
    | getServer status address url =>
        have hcbk := settled_cbk (p := .getServer status (address.elim 0 Prod.fst)
            (address.elim 0 Prod.snd) url) (fun _ => Response.noConfusion)
          (fun k => by cases k <;> simp [Response.type, Kind.response, Kind.awaited])
          (hsdk .getServer) hregistered
        exact ⟨_, _, (if_pos hregistered).trans (if_pos hfits), (hcbk .setagps).1,
          fun k => (hcbk k).2⟩
    | getOpMode status mode =>
        have hrun : indicate sdk s (.getOpMode status mode) =
            some (cbkGetOpMode sdk s status mode) := if_pos hregistered
        refine ⟨(cbkGetOpMode sdk s status mode).1, (cbkGetOpMode sdk s status mode).2, hrun,
          (@settled_cbkGetOpMode sdk s .setagps status mode).1, fun k => ?_⟩
        obtain ⟨-, hanswered, hwaiting⟩ := @settled_cbkGetOpMode sdk s k status mode
        rw [hanswered, hwaiting, List.nil_append]
    | getFixCriteria status accuracy interval =>
        have hcbk := settled_cbk (p := .getdef status
            ((switchLocCallback sdk s .getFixCrt false).locRegInfo .getOpmode) 255
            (interval.getD 1000) accMeter[(accuracy.getD 0).toNat]) (fun _ => Response.noConfusion)
          (fun k => by cases k <;> simp [Response.type, Kind.response, Kind.awaited])
          (hsdk .getFixCrt) hregistered
        refine ⟨_, _, (if_pos hregistered).trans ?_, (hcbk .setagps).1, fun k => (hcbk k).2⟩
        exact congrArg (Option.map _) (List.getElem?_eq_getElem hfits)
  · exact ⟨s, [], if_neg hregistered, rfl, fun _ => rfl⟩

end Indications

section Runs

variable {r : Request} {bytes : List UInt8} {job : Job}

theorem pending_cons (hjob : JobOf r fd job) (jobs : List Job) :
    pending k (job :: jobs) = (if r.type = k.request then [fd] else []) ++ pending k jobs := by
  have hfd : job.fd = fd := hjob.fd_eq
  have htype : r.type = job.func.request := rilFunc_eq_some_iff.mp hjob.func
  by_cases hk : r.type = k.request
  · have hfunc : rilFunc k.request = some job.func := hk ▸ hjob.func
    rw [if_pos hk, pending, List.filter_cons_of_pos (by simpa using hfunc), List.map_cons, hfd]
    rfl
  · have hfunc : ¬ rilFunc k.request = some job.func := fun h =>
      hk (htype.trans (rilFunc_eq_some_iff.mp h).symm)
    rw [if_neg hk, pending, List.filter_cons_of_neg (by simpa using hfunc)]
    rfl

theorem pending_append (jobs jobs' : List Job) :
    pending k (jobs ++ jobs') = pending k jobs ++ pending k jobs' := by
  rw [pending, List.filter_append, List.map_append]
  rfl

/-- A request is put in the event queue, with its socket and its fields. -/
theorem handleSwigps_request (h : r.send = .ok bytes) (hne : r.type ≠ .reqGetnmeaport)
    (hhost : r.hostname.length < maxUrl) (ifname : Option (List UInt8)) (addr : UInt32) :
    ∃ job, JobOf r fd job ∧ handleSwigps s ifname fd addr bytes =
      some ({ s with jobs := s.jobs ++ [job] }, []) := by
  have hmessage := message_of_send h
  obtain ⟨func, hfunc⟩ : ∃ func, rilFunc r.type = some func := by
    cases r <;> first | exact absurd rfl hne | exact ⟨_, rfl⟩
  refine ⟨⟨func, addr, rilPiput32 fd ++ r.body⟩, ⟨hfunc, rfl, hhost⟩, ?_⟩
  rw [handleSwigps, hmessage.run_header, Option.elim_some, ofCode_code, Option.elim_some,
    if_neg hne, hfunc, Option.elim_some, packnSend, toNat_ofNat_of_valid hmessage.valid,
    if_pos hmessage.valid, List.take_length]

/-- The name of the NMEA port is reported at once. -/
theorem handleSwigps_nmeaport (h : r.send = .ok bytes) (htype : r.type = .reqGetnmeaport)
    {name : List UInt8} (hname : ValidLength .respGetnmeaport name.length) (addr : UInt32) :
    handleSwigps s (some name) fd addr bytes =
      some (s, respond fd (Response.getnmeaport name).respbuf) := by
  have hmessage := message_of_send h
  have hvalid := hmessage.valid
  rw [htype] at hvalid
  rw [handleSwigps, hmessage.run_header, Option.elim_some, ofCode_code, Option.elim_some,
    if_pos htype, reqGetNmeaPort, toNat_ofNat_of_valid hmessage.valid, if_pos hmessage.valid,
    Option.elim_some, if_pos (.inr hname)]
  rfl

/-- A regular event keeps the requests in their order: those that waited and were in the queue, and
the one that came, are those that are answered, wait and are in the queue. -/
theorem rilStep_regular {e : Event} (hjobs : JobsOk s.jobs) (he : Regular device (some s) e) :
    ∃ t outs, rilStep device s e = some (t, outs) ∧ JobsOk t.jobs ∧
      ∀ k, waiting k s ++ pending k s.jobs ++ e.received k =
        answered k outs ++ waiting k t ++ pending k t.jobs := by
  cases e with
  | packet ifname fd addr bytes =>
      obtain ⟨r, hsend, hhost, hifname⟩ := he
      by_cases htype : r.type = .reqGetnmeaport
      · obtain ⟨name, hname, hvalid⟩ := hifname htype
        obtain rfl : ifname = some name := hname
        obtain ⟨buf, hbuf⟩ := exists_respbuf (.getnmeaport name) fun _ heq =>
          Response.getnmeaport.inj heq ▸ hvalid
        refine ⟨_, _, handleSwigps_nmeaport hsend htype hvalid addr, hjobs, fun k => ?_⟩
        rw [received_packet hsend, answered_respond hbuf, htype]
        cases k <;> simp [Response.type, Kind.request, Kind.response, waiting, pending,
          Kind.awaited, rilFunc]
      · obtain ⟨job, hjob, hrun⟩ := handleSwigps_request hsend htype hhost ifname addr
        refine ⟨_, _, hrun, ?_, fun k => ?_⟩
        · intro j hj
          rcases List.mem_append.mp hj with hj | hj
          · exact hjobs j hj
          · exact List.mem_singleton.mp hj ▸ ⟨r, fd, hjob⟩
        · rw [received_packet hsend, pending_append, pending_cons hjob, List.append_assoc]
          exact congrArg (waiting k s ++ ·) (congrArg (pending k s.jobs ++ ·)
            (List.append_nil _).symm)
  | job sdk =>
      obtain ⟨hsdk, hwaiting⟩ := he
      cases hhead : s.jobs with
      | nil =>
          refine ⟨s, [], ?_, hjobs, fun k => ?_⟩
          · rw [rilStep, hhead]
            rfl
          · rw [hhead]
            exact List.append_nil _
      | cons job jobs =>
          rw [hhead] at hjobs
          obtain ⟨r, fd, hjob⟩ := hjobs job List.mem_cons_self
          obtain ⟨t, outs, hrun, htjobs, hsettled⟩ :=
            @runJob_settled device sdk { s with jobs := jobs } fd r job hjob hsdk fun k hk =>
              hwaiting s rfl job (by rw [hhead]; rfl) k (hk ▸ hjob.func)
          refine ⟨t, outs, ?_, ?_, fun k => ?_⟩
          · rw [rilStep, hhead]
            exact hrun
          · rw [htjobs]
            exact fun j hj => hjobs j (List.mem_cons_of_mem _ hj)
          · rw [pending_cons hjob, htjobs, ← hsettled k, List.append_assoc, List.append_assoc,
              List.append_assoc]
            exact congrArg _ (congrArg _ (List.append_nil _))
  | indication sdk ind =>
      obtain ⟨hsdk, hfits⟩ := he
      obtain ⟨t, outs, hrun, htjobs, hsettled⟩ := @indicate_settled sdk s ind hfits hsdk
      refine ⟨t, outs, hrun, htjobs ▸ hjobs, fun k => ?_⟩
      rw [hsettled k, htjobs]
      exact List.append_nil _

/-- The requests of a run in their order are those that were answered, wait and are in the
queue. -/
theorem answered_run {events : List Event} {s : RilGps} (hjobs : JobsOk s.jobs)
    (h : Meets (step device) (Regular device) (some s) events) :
    ∃ t, after (step device) (some s) events = some t ∧ ∀ k,
      waiting k s ++ pending k s.jobs ++ received k events =
        answered k (outputs (step device) (some s) events) ++ waiting k t ++ pending k t.jobs := by
  induction events generalizing s with
  | nil =>
      refine ⟨s, rfl, fun k => ?_⟩
      exact List.append_nil _
  | cons e events ih =>
      obtain ⟨he, hevents⟩ := h
      obtain ⟨t, outs, hrun, htjobs, hstep⟩ := rilStep_regular hjobs he
      have hnext : step device (some s) e = (some t, outs) := by
        rw [step, Option.bind_some, hrun]
        rfl
      rw [hnext] at hevents
      obtain ⟨u, hafter, hrest⟩ := ih htjobs hevents
      rw [after_cons, hnext]
      refine ⟨u, hafter, fun k => ?_⟩
      rw [outputs_cons, hnext, answered, List.flatMap_append, received, List.flatMap_cons,
        ← List.append_assoc, hstep k]
      calc answered k outs ++ waiting k t ++ pending k t.jobs ++ received k events
          = answered k outs ++ (waiting k t ++ pending k t.jobs ++ received k events) := by
            simp only [List.append_assoc]
        _ = answered k outs ++ (answered k (outputs (step device) (some t) events) ++
              waiting k u ++ pending k u.jobs) := by rw [hrest k]
        _ = _ := by simp only [answered, List.append_assoc]

end Runs

end Steps

section Claims

/-- An entry of the event queue has the socket of a request, and its function finds the fields of
the request in the block: all those of `Request.setagps` and `Request.injtime`, and those of
`Request.setdef` but the tracking status. -/
def Carries (fd : UInt32) (job : Job) : Request → Prop
  | .setdef operation timeout interval accuracy tracking =>
      job.func = .setDef ∧ unpackSetdef.run job.block =
        some (⟨fd, operation.toUInt8.toUInt32, timeout.toUInt8, interval, accuracy⟩,
          [UInt8.ofNat tracking.toNat])
  | .setagps ipaddr port hostname =>
      job.func = .setAgps ∧ unpackSetagps.run job.block = some (⟨fd, ipaddr, port, hostname⟩, [])
  | .injtime time uncertainty =>
      job.func = .injTime ∧ unpackInjtime.run job.block = some (⟨fd, time, uncertainty⟩, [])
  | .getdef => job.func = .getDef ∧ job.fd = fd
  | .getagps => job.func = .getAgps ∧ job.fd = fd
  | .stopSession => job.func = .stopSession ∧ job.fd = fd
  | .startSession .. => job.func = .startSession ∧ job.fd = fd
  | .getnmeaport _ => False

theorem JobOf.carries {r : Request} {fd : UInt32} {job : Job} (h : JobOf r fd job) :
    Carries fd job r := by
  have hfd := h.fd_eq
  obtain ⟨hfunc, hblock, hhost⟩ := h
  cases r with
  | getnmeaport riltype => exact absurd hfunc.symm (Option.some_ne_none _)
  | setdef operation timeout interval accuracy tracking =>
      exact ⟨(Option.some.inj hfunc).symm, hblock ▸ run_unpackSetdef ..⟩
  | setagps ipaddr port hostname =>
      exact ⟨(Option.some.inj hfunc).symm, hblock ▸ run_unpackSetagps fd ipaddr port hhost⟩
  | injtime time uncertainty =>
      exact ⟨(Option.some.inj hfunc).symm, hblock ▸ run_unpackInjtime ..⟩
  | getdef => exact ⟨(Option.some.inj hfunc).symm, hfd⟩
  | getagps => exact ⟨(Option.some.inj hfunc).symm, hfd⟩
  | stopSession => exact ⟨(Option.some.inj hfunc).symm, hfd⟩
  | startSession operation timeout interval accuracy =>
      exact ⟨(Option.some.inj hfunc).symm, hfd⟩

/-- What one side sends: a request, or a response that does not report the AGPS settings. -/
def Sent (bytes : List UInt8) : Prop :=
  (∃ r : Request, r.send = .ok bytes) ∨ ∃ p : Response, ¬ p.ReportsAgps ∧ p.respbuf = .ok bytes

theorem Sent.isMessage {bytes : List UInt8} (h : Sent bytes) : IsMessage bytes := by
  rcases h with ⟨r, hr⟩ | ⟨p, hp, hrespbuf⟩
  · exact ⟨_, _, _, message_of_send hr⟩
  · exact ⟨_, _, _, message_of_respbuf hp hrespbuf⟩

/-- What the channel is for. -/
structure ChannelWorks (device : Device) : Prop where
  /-- A header announces what is sent behind it. -/
  announces : ∀ bytes, Sent bytes → Announces bytes
  /-- Messages that arrive promptly are received as they were sent. -/
  receives : ∀ (messages : List (List UInt8)) (more : List UInt8) (ready : List ℕ),
    (∀ bytes ∈ messages, Sent bytes) →
      Chunked.Prompt msgsizeHeader (maxReadIterations + 1) (bodyLengths messages) ready →
        (receivePackets messages.length ⟨messages.flatten ++ more, ready⟩).1 =
          messages.map .packet
  /-- The RIL side recovers the fields of a request, in its buffers. -/
  unpacks : ∀ (s : RilGps) (ifname : Option (List UInt8)) (fd addr : UInt32) (r : Request)
    (bytes : List UInt8), r.send = .ok bytes → r.type ≠ .reqGetnmeaport →
      r.hostname.length < maxUrl → ∃ job, Carries fd job r ∧
        handleSwigps s ifname fd addr bytes = some ({ s with jobs := s.jobs ++ [job] }, [])
  /-- The library recovers the fields of a response without an error, in its buffers. -/
  stores : ∀ (s : GpsState) (p : Response) (bytes : List UInt8), ¬ p.ReportsAgps → p.result = 0 →
    p.respbuf = .ok bytes → handleRilgps s bytes = some (p.stored s, [p.followup])
  /-- Requests are answered on the sockets they came on, in their order. -/
  answers : ∀ events : List Event, Meets (step device) (Regular device) (some .init) events →
    ∃ t, after (step device) (some .init) events = some t ∧ ∀ k : Kind,
      received k events = answered k (outputs (step device) (some .init) events) ++
        waiting k t ++ pending k t.jobs

theorem channelWorks (device : Device) : ChannelWorks device where
  announces := by
    intro bytes hsent
    obtain ⟨type, result, body, hmessage⟩ := hsent.isMessage
    exact hmessage.announces
  receives := by
    intro messages more ready hsent hprompt
    exact receivePackets_messages (fun bytes hmem => (hsent bytes hmem).isMessage) hprompt
  unpacks := by
    intro s ifname fd addr r bytes hsend htype hhost
    obtain ⟨job, hjob, hrun⟩ := handleSwigps_request (s := s) hsend htype hhost ifname addr
    exact ⟨job, hjob.carries, hrun⟩
  stores := by
    intro s p bytes hp hresult hrespbuf
    exact handleRilgps_respbuf hp hresult hrespbuf
  answers := by
    intro events hregular
    have hinit : JobsOk RilGps.init.jobs := fun job hjob => absurd hjob List.not_mem_nil
    obtain ⟨t, hafter, hanswered⟩ := answered_run hinit hregular
    refine ⟨t, hafter, fun k => ?_⟩
    rw [← hanswered k]
    cases k <;> rfl

/-- A request to stop a session is taken from the socket and from the queue, and nothing is sent.
And if its header comes in two pieces, it is not even received. -/
theorem not_answered_stopSession :
    ∃ bytes, Request.stopSession.send = .ok bytes ∧
      (∀ (device : Device) (sdk : Sdk),
        outputs (step device) (some .init) [.packet none 5 0 bytes, .job sdk] = [] ∧
          (after (step device) (some .init) [.packet none 5 0 bytes, .job sdk]).map
            RilGps.jobs = some []) ∧
      (receivepacket ⟨bytes, [3, 3]⟩).1 = .error "read length field error 3" :=
  ⟨[0, 12, 0, 0, 0, 0], rfl, fun _ _ => ⟨rfl, rfl⟩, by decide⟩

end Claims

end Gps

end SierraSdk
