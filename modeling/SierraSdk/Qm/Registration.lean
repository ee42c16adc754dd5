import Mathlib.Data.List.Nodup
import SierraSdk.Library.Machine
import SierraSdk.Qm.ControlBlock

/-!
# Opening and closing QMI clients

A QMI client is opened on a modem channel with `dsioctl` and closed with `dsclose`. Both
update the client manager and nothing else of the control block, except that a failed
registration falls back to the client that was registered last as the current WDS client.

Whether `dsioctl` succeeds is decided outside; it is an argument of the functions here.
-/

namespace SierraSdk

namespace Qm

open Ci Machine

/-- Forget a client, and close it if it is registered; it is closed on the modem channel of
the first instance. -/
def qmiclientreset (s : QmTcb) (client : QmiClient) : QmTcb × List QmOut :=
  ({ s with qmiclients := Function.update s.qmiclients client ⟨false, 0⟩ },
    if (s.qmiclients client).registered then [.dsclose .uqmrr1 client] else [])

/-- Open a client for an instance: whether that succeeded. There are shells for
`qmMaxQmiInstSupported` instances only, and none to launch for any other. -/
def qmregister4qmisvc (s : QmTcb) (qmiinstance : UInt8) (client : QmiClient) (ok : Bool) :
    Option (QmTcb × Bool) × List QmOut :=
  let out := QmOut.dsioctl (registerChannel qmiinstance.toNat) client client.svctype ok
  if ok then
    if qmiinstance.toNat < qmMaxQmiInstSupported then
      (some ({ s with
        qmiclients := Function.update s.qmiclients client
          { s.qmiclients client with registered := true }
        prevactivewdsclient := client }, true), [out])
    else (none, [out])
  else (some ({ s with activewdsclient := s.prevactivewdsclient }, false), [out])

/-- The control block after a client was opened. -/
def opened (s : QmTcb) (client : QmiClient) : QmTcb :=
  { s with
    qmiclients := Function.update s.qmiclients client
      { s.qmiclients client with registered := true }
    prevactivewdsclient := client }

theorem qmregister4qmisvc_eq (s : QmTcb) (qmiinstance : UInt8) (client : QmiClient)
    (ok : Bool) :
    qmregister4qmisvc s qmiinstance client ok =
      (if ok then
          if qmiinstance.toNat < qmMaxQmiInstSupported then some (opened s client, true)
          else none
        else some ({ s with activewdsclient := s.prevactivewdsclient }, false),
        [.dsioctl (registerChannel qmiinstance.toNat) client client.svctype ok]) := by
  unfold qmregister4qmisvc
  split_ifs <;> rfl

/-- Reset a client if it is registered. -/
def resetIfRegistered (r : QmTcb × List QmOut) (client : QmiClient) : QmTcb × List QmOut :=
  if (r.1.qmiclients client).registered then
    let t := qmiclientreset r.1 client
    (t.1, r.2 ++ t.2)
  else r

/-- Reset all registered clients. -/
def qmderegisterclients (s : QmTcb) : QmTcb × List QmOut :=
  QmiClient.all.foldl resetIfRegistered (s, [])

/-- Remove an application from its entry, if it has one; with the last application gone all
clients are closed. -/
def qmdisconnect (s : QmTcb) (channel : UInt8) : QmTcb × List QmOut :=
  let i := s.qmappInfo.findIdx fun app => app.qmipcchannel = channel
  let s := { s with qmappInfo := s.qmappInfo.modify i fun _ => QmAppInfo.unused }
  if qmNoOfAppsRunning s = 0 then
    let r := qmderegisterclients s
    ({ r.1 with activewdsclient := .wds 0 }, r.2)
  else (s, [])

/-- `REGSRV` and `DEREGSRV` -/
def regsrv : UInt8 := 1
def deregsrv : UInt8 := 0

/-- The number of bits set in a mask. -/
def qmcountSetBits (mask : UInt8) : ℕ := (List.range 8).countP mask.toNat.testBit

open QmiClient in
/-- The services selected by a mask, one row for each number of bits: the row `count - 1`
and the column `mask - 1` give the service of the bit that is `count`-th lowest in the mask.
`none` is the entry `-1`; the last column has no initialiser and is zero. -/
def maskToSrvmap : List (List (Option QmiClient)) :=
  [[wds 0, nas, wds 0, pds, wds 0, nas, wds 0, voice, wds 0, nas, wds 0, pds, wds 0, nas,
      wds 0, wds 0].map some,
    [none, none, nas, none, pds, pds, nas, none, voice, voice, nas, voice, pds, pds, nas,
      wds 0],
    [none, none, none, none, none, none, pds, none, none, none, voice, none, voice, voice,
      pds, wds 0],
    [none, none, none, none, none, none, none, none, none, none, none, none, none, none,
      voice, wds 0]]

/-- The entry of the table for a bit count and a mask, if it is one of a client. -/
def maskToSrv (count : ℕ) (mask : UInt8) : Option QmiClient :=
  (maskToSrvmap[count - 1]?.bind fun row => row[mask.toNat - 1]?).join

/-- One round of the loop of `qm_register_startup_api_clients`, for one service. -/
def startupApiClient (s : QmTcb) (action : UInt8) (srv : QmiClient) (regOk : QmiClient → Bool) :
    Option QmTcb × List QmOut :=
  if action = regsrv then
    if srv.unotificationsSupported ∧ ¬ (s.qmiclients srv).registered then
      let client := qmisvc2qmiclnt_map 0 srv.svctype
      let r := qmregister4qmisvc s 0 client (regOk client)
      (r.1.map Prod.fst, r.2)
    else (some s, [])
  else if action = deregsrv then
    if (s.qmiclients srv).registered then
      let r := qmiclientreset s srv
      (some r.1, r.2)
    else (some s, [])
  else (some s, [])

/-- The loop of `qm_register_startup_api_clients` from a given bit count down; an entry that
is not one of a client leaves the table of clients. -/
def startupApiLoop (action mask : UInt8) (regOk : QmiClient → Bool) :
    ℕ → QmTcb → Option QmTcb × List QmOut
  | 0, s => (some s, [])
  | count + 1, s =>
      match maskToSrv (count + 1) mask with
      | none => (none, [])
      | some srv =>
          andThen (startupApiClient s action srv regOk)
            (startupApiLoop action mask regOk count)

/-- Open or close the clients of the services in a mask, on the first instance. -/
def qm_register_startup_api_clients (s : QmTcb) (action mask : UInt8)
    (regOk : QmiClient → Bool) : Option QmTcb × List QmOut :=
  if action = regsrv ∨ action = deregsrv then
    startupApiLoop action mask regOk (qmcountSetBits mask) s
  else (some s, [])

/-- The clients with the registered ones among some of them forgotten. -/
def forgetRegistered (clients : List QmiClient) (points : QmiClient → QmiControlPoint) :
    QmiClient → QmiControlPoint :=
  fun c => if c ∈ clients ∧ (points c).registered then ⟨false, 0⟩ else points c

/-- The closing of the registered clients among some of them. -/
def closeRegistered (clients : List QmiClient) (points : QmiClient → QmiControlPoint) :
    List QmOut :=
  (clients.filter fun c => (points c).registered).map (.dsclose .uqmrr1)

theorem resetIfRegistered_eq (s : QmTcb) (out : List QmOut) (client : QmiClient) :
    resetIfRegistered (s, out) client =
      ({ s with qmiclients := forgetRegistered [client] s.qmiclients },
        out ++ closeRegistered [client] s.qmiclients) := by
  by_cases hreg : (s.qmiclients client).registered
  · have hpoints : Function.update s.qmiclients client ⟨false, 0⟩ =
        forgetRegistered [client] s.qmiclients := by
      funext c
      by_cases hc : c = client
      · subst hc
        simp [forgetRegistered, hreg]
      · simp [forgetRegistered, hc]
    simp [resetIfRegistered, hreg, qmiclientreset, hpoints, closeRegistered]
  · have hpoints : forgetRegistered [client] s.qmiclients = s.qmiclients := by
      funext c
      by_cases hc : c = client
      · subst hc
        simp [forgetRegistered, hreg]
      · simp [forgetRegistered, hc]
    simp [resetIfRegistered, hreg, hpoints, closeRegistered]

/-- Resetting the registered ones among several clients. -/
theorem foldl_resetIfRegistered {clients : List QmiClient} (hnodup : clients.Nodup) (s : QmTcb)
    (out : List QmOut) :
    clients.foldl resetIfRegistered (s, out) =
      ({ s with qmiclients := forgetRegistered clients s.qmiclients },
        out ++ closeRegistered clients s.qmiclients) := by
  induction clients generalizing s out with
  | nil =>
      have hpoints : forgetRegistered [] s.qmiclients = s.qmiclients := by
        funext c
        simp [forgetRegistered]
      simp [hpoints, closeRegistered]
  | cons client clients ih =>
      obtain ⟨hnew, hrest⟩ := List.nodup_cons.mp hnodup
      have hother : ∀ c ∈ clients,
          forgetRegistered [client] s.qmiclients c = s.qmiclients c := by
        intro c hc
        have hne : c ≠ client := by
          rintro rfl
          exact hnew hc
        simp [forgetRegistered, hne]
      have hclose : closeRegistered clients (forgetRegistered [client] s.qmiclients) =
          closeRegistered clients s.qmiclients := by
        unfold closeRegistered
        rw [List.filter_congr fun c hc => by rw [hother c hc]]
      have hforget : forgetRegistered clients (forgetRegistered [client] s.qmiclients) =
          forgetRegistered (client :: clients) s.qmiclients := by
        funext c
        by_cases hc : c = client
        · subst hc
          simp [forgetRegistered, hnew]
        · simp [forgetRegistered, hc]
      have hcons : closeRegistered [client] s.qmiclients ++ closeRegistered clients s.qmiclients =
          closeRegistered (client :: clients) s.qmiclients := by
        rw [closeRegistered, closeRegistered, ← List.map_append, ← List.filter_append]
        rfl
      rw [List.foldl_cons, resetIfRegistered_eq, ih hrest, hclose, hforget, List.append_assoc,
        hcons]

/-- All registered clients are reset and closed. -/
theorem qmderegisterclients_eq (s : QmTcb) :
    qmderegisterclients s =
      ({ s with qmiclients := forgetRegistered QmiClient.all s.qmiclients },
        closeRegistered QmiClient.all s.qmiclients) :=
  foldl_resetIfRegistered (by decide) s []

/-- Disconnecting an application changes the table of applications, and with the last one gone
all clients are closed as well. -/
theorem qmdisconnect_eq (s : QmTcb) (channel : UInt8) :
    ∃ apps, qmdisconnect s channel = ({ s with qmappInfo := apps }, []) ∨
      qmdisconnect s channel =
        ({ s with
            qmappInfo := apps
            qmiclients := forgetRegistered QmiClient.all s.qmiclients
            activewdsclient := .wds 0 },
          closeRegistered QmiClient.all s.qmiclients) := by
  simp only [qmdisconnect, qmderegisterclients_eq]
  split_ifs
  · exact ⟨_, .inr rfl⟩
  · exact ⟨_, .inl rfl⟩

end Qm

end SierraSdk
