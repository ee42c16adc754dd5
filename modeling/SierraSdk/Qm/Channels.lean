import SierraSdk.Qm.Driver

/-!
# The modem channels of the clients

`dsMonitor` is what package ds sees: it keeps the pairs of a channel and a client that are
open, and a packet for a pair that is not open is a violation. Opening a client and sending a
request each compute the channel from the QMI instance, by two different maps, and a reset
closes the client on the channel of the first instance. As long as clients are opened and used
on the first instance only, the open pairs are the registered clients on its channel
(`OpenOnFirst`), and this is kept by every step.
-/

namespace SierraSdk

namespace Qm

open Am Ci Machine

/-- The open pairs after an output; sending for a pair that is not open is a violation. -/
def dsMonitor (pairs : List (CiIpc × QmiClient)) : QmOut → Option (List (CiIpc × QmiClient))
  | .dsioctl channel client _ true => some ((channel, client) :: pairs)
  | .dsclose channel client => some (pairs.filter fun pair => pair ≠ (channel, client))
  | .dssend channel client _ _ => if (channel, client) ∈ pairs then some pairs else none
  | _ => some pairs

/-- The channel of a packet about to be sent is the one that both maps give for its instance
and for no other instance. -/
def SameChannel : Option QmTcb → QmEvent → Prop
  | some s, .qmiReq packet ipcchan env =>
      ∀ m out, qmprepare s packet ipcchan env = (.send m, out) →
        let i := (amparseqmixactionheader packet).qmiinstanceid.toNat
        registerChannel i = m.chanid ∧ sendChannel i = m.chanid ∧
          ∀ j, registerChannel j = m.chanid ∨ sendChannel j = m.chanid → j = i
  | _, _ => True

/-- In a run packets are sent for open pairs only, every open pair is the one that a reset of
its client closes, and opening and sending use the same channel of each instance. -/
structure ChannelsKept (events : List QmEvent) : Prop where
  sends : ∃ pairs, watch dsMonitor [] (outputs qmStep (some qminit) events) = some pairs ∧
    ∀ s, after qmStep (some qminit) events = some s → ∀ channel client,
      (channel, client) ∈ pairs → (qmiclientreset s client).2 = [.dsclose channel client]
  maps : Meets qmStep SameChannel (some qminit) events

/-- A request that passes the checks and is not for a local service is for the first instance,
unless its client cannot be opened or a request is outstanding. -/
def FirstInstance : Option QmTcb → QmEvent → Prop
  | some s, .qmiReq packet ipcchan env =>
      let t := { s with qmipcchannel := ipcchan }
      let parms := amparseqmixactionheader packet
      let p := qmparser t parms.qmiinstanceid (.ofCode parms.amqmisvctype)
        (packet.drop amQmiRrnSz)
      let client := qmisvc2qmiclnt_map parms.qmiinstanceid (.ofCode parms.amqmisvctype)
      requestError t parms client = EQCWWANError.none → client ≠ .dcs 0 → client ≠ .fms →
        parms.qmiinstanceid = 0 ∨
          if (p.qmiclients (requestClient p parms)).registered then s.qmbusy = true
          else env.ioctlOk = false
  | _, _ => True

instance : ∀ s event, Decidable (FirstInstance s event)
  | some _, .qmiReq _ _ _ => inferInstanceAs (Decidable (_ → _ → _ → _ ∨ ite _ _ _))
  | some _, .rx _ _ _ | some _, .tick _ | some _, .device _ | some _, .net _ _
  | some _, .dcs _ | some _, .fwStatus _ | none, _ => inferInstanceAs (Decidable True)

/-- The open pairs are the registered clients, on the channel of the first instance. -/
def OpenOnFirst : Option QmTcb → List (CiIpc × QmiClient) → Prop
  | none, _ => True
  | some s, pairs =>
      ∀ pair, pair ∈ pairs ↔ pair.1 = .uqmrr1 ∧ (s.qmiclients pair.2).registered = true

namespace OpenOnFirst

variable {s t : QmTcb} {pairs : List (CiIpc × QmiClient)}

/-- Only the registrations matter. -/
theorem congr (h : OpenOnFirst (some s) pairs)
    (hreg : ∀ c, (t.qmiclients c).registered = (s.qmiclients c).registered) :
    OpenOnFirst (some t) pairs := by
  intro pair
  rw [h pair, hreg]

/-- Opening a client on the first instance. -/
theorem tracks_opened (h : OpenOnFirst (some s) pairs) (client : QmiClient) :
    Tracks dsMonitor OpenOnFirst pairs
      (some (opened s client), [.dsioctl (registerChannel 0) client client.svctype true]) := by
  refine ⟨(.uqmrr1, client) :: pairs, rfl, fun pair => ?_⟩
  rw [List.mem_cons, h pair]
  obtain ⟨channel, c⟩ := pair
  by_cases hc : c = client
  · subst hc
    simp only [opened, Function.update_self, Prod.mk.injEq, and_true]
    exact ⟨fun hp => hp.elim id And.left, .inl⟩
  · simp [opened, hc]

/-- Resetting a registered client. -/
theorem tracks_qmiclientreset (h : OpenOnFirst (some s) pairs) (client : QmiClient) :
    Tracks dsMonitor OpenOnFirst pairs
      (some (qmiclientreset s client).1, [.dsclose .uqmrr1 client]) := by
  refine ⟨pairs.filter fun pair => pair ≠ (.uqmrr1, client), rfl, fun pair => ?_⟩
  rw [List.mem_filter, h pair]
  obtain ⟨channel, c⟩ := pair
  by_cases hc : c = client
  · subst hc
    simp only [qmiclientreset, ne_eq, Prod.mk.injEq, and_true, Function.update_self, decide_not,
      Bool.not_eq_true', decide_eq_false_iff_not, Bool.false_eq_true, and_false, iff_false]
    exact fun hp => hp.2 hp.1.1
  · simp [qmiclientreset, hc]

theorem driverRules : DriverRules dsMonitor OpenOnFirst where
  stopped := trivial
  ignored := by
    rintro pairs (_ | _ | _ | _ | _ | _ | _ | _ | _ | _ | _ | _ | _) h
    all_goals simp_all [QmOut.changesDriver, dsMonitor]
  congr h hsame := h.congr fun c => by rw [hsame.qmiclients]
  clear h := h
  opened h client := h.tracks_opened client
  reset h client _ := h.tracks_qmiclientreset client

section Requests

/-- A request about to be sent from an open client. -/
theorem tracks_qmprepareopen (h : OpenOnFirst (some s) pairs) {parms : AmQmiRrParms}
    (inbuf : List UInt8) (ipcchan : UInt8) {client : QmiClient}
    (hreg : (s.qmiclients client).registered = true)
    (hinst : s.qmbusy = true ∨ parms.qmiinstanceid = 0) (sendOk : Bool) :
    Tracks dsMonitor OpenOnFirst pairs
      (qmfinish (qmprepareopen s parms inbuf ipcchan client) sendOk) := by
  apply driverRules.tracks_qmprepareopen
  intro m hbuild
  obtain ⟨hidle, htcb, hclient, hchan, -, -, -⟩ := qmbuildmdmreq_eq_some hbuild
  have hzero : parms.qmiinstanceid = 0 := hinst.resolve_left (by simp [hidle])
  have hfirst : m.chanid = .uqmrr1 := by
    rw [hchan, hzero]
    rfl
  have hmem : (m.chanid, m.client) ∈ pairs := (h _).mpr ⟨hfirst, by rw [hclient, hreg]⟩
  refine ⟨pairs, fun ok => if_pos hmem, h.congr fun c => ?_⟩
  rw [htcb, recorded_registered]

/-- A request for the modem, on the first instance if it is not turned away. -/
theorem tracks_qmqmireq (h : OpenOnFirst (some s) pairs) {packet : List UInt8}
    {ipcchan : UInt8} {env : ReqEnv}
    (hfirst : FirstInstance (some s) (.qmiReq packet ipcchan env)) :
    Tracks dsMonitor OpenOnFirst pairs (qmqmireq s packet ipcchan env) := by
  have hchan : OpenOnFirst (some { s with qmipcchannel := ipcchan }) pairs := h
  simp only [FirstInstance] at hfirst
  generalize ht : { s with qmipcchannel := ipcchan } = t at hfirst hchan
  generalize hparms : amparseqmixactionheader packet = parms at hfirst
  generalize hclient : qmisvc2qmiclnt_map parms.qmiinstanceid (.ofCode parms.amqmisvctype) =
    client at hfirst
  generalize hp : qmparser t parms.qmiinstanceid (.ofCode parms.amqmisvctype)
    (packet.drop amQmiRrnSz) = p at hfirst
  have hparsed : OpenOnFirst (some p) pairs :=
    hchan.congr fun c => by rw [← hp, qmparser_qmiclients]
  have hpbusy : p.qmbusy = s.qmbusy := by rw [← hp, qmparser_qmbusy, ← ht]
  apply driverRules.tracks_qmqmireq h ht hparms hclient
  · exact fun _ => hchan.congr (recorded_registered t parms ipcchan)
  · intro hrc hdcs hfms
    have hinst := hfirst hrc hdcs hfms
    apply qmpreparemdmreq_rule hp rfl
    · intro hreg
      apply tracks_qmprepareopen hparsed _ _ hreg
      simpa [hreg, or_comm, hpbusy] using hinst
    · intro hreg hok _
      have hzero : parms.qmiinstanceid = 0 := hinst.resolve_right (by simp [hreg, hok])
      obtain ⟨m, hm, hopened⟩ := tracks_opened hparsed (requestClient p parms)
      rw [hzero]
      exact tracks_append hm
        (tracks_qmprepareopen hopened _ _ (by simp [opened]) (.inr hzero) _)
    · intro hreg hok hshell
      have hzero : parms.qmiinstanceid = 0 := hinst.resolve_right (by simp [hreg, hok])
      rw [hzero] at hshell
      exact absurd (by decide) hshell
    · intro _ _
      exact driverRules.tracks_same (driverRules.clear hparsed) ⟨rfl, rfl, rfl⟩
        (by simp [QmOut.changesDriver])

end Requests

/-- Every step keeps the open pairs to the registered clients. -/
theorem tracks_qmtask (h : OpenOnFirst (some s) pairs) {event : QmEvent}
    (hfirst : FirstInstance (some s) event) :
    Tracks dsMonitor OpenOnFirst pairs (qmtask s event) := by
  cases event with
  | qmiReq packet ipcchan env => exact h.tracks_qmqmireq hfirst
  | _ => exact driverRules.tracks_qmtask h (by simp)

end OpenOnFirst

/-- The first channel belongs to the first instance by both maps, and to no other. -/
theorem channel_eq_uqmrr1_iff (n : ℕ) :
    (registerChannel n = .uqmrr1 ↔ n = 0) ∧ (sendChannel n = .uqmrr1 ↔ n = 0) := by
  by_cases hn : n < 8
  · interval_cases n <;> simp [registerChannel, sendChannel]
  · obtain ⟨m, rfl⟩ : ∃ m, n = m + 8 := ⟨n - 8, by omega⟩
    simp [registerChannel, sendChannel]

/-- A request that is sent is for the first instance. -/
theorem sameChannel_of_firstInstance (s : Option QmTcb) (event : QmEvent)
    (h : FirstInstance s event) : SameChannel s event := by
  cases s with
  | none => trivial
  | some s =>
      cases event with
      | qmiReq packet ipcchan env =>
          intro m out hsend
          obtain ⟨⟨hrc, hdcs, hfms⟩, hprep⟩ := qmprepare_send hsend rfl rfl
          have hinst := h hrc hdcs hfms
          have hbuilt : (amparseqmixactionheader packet).qmiinstanceid = 0 ∧
              m.chanid = sendChannel (amparseqmixactionheader packet).qmiinstanceid.toNat := by
            rcases qmpreparemdmreq_send rfl rfl hprep with ⟨hreg, hbuild⟩ | ⟨⟨hok, -⟩, hbuild⟩
            · obtain ⟨hidle, -, -, hchan, -, -, -⟩ := qmbuildmdmreq_eq_some hbuild
              rw [qmparser_qmbusy] at hidle
              refine ⟨hinst.resolve_right ?_, hchan⟩
              rw [if_pos hreg]
              exact Bool.eq_false_iff.mp hidle
            · obtain ⟨hidle, -, -, hchan, -, -, -⟩ := qmbuildmdmreq_eq_some hbuild
              have hidle' : s.qmbusy = false := by simpa [opened] using hidle
              refine ⟨hinst.resolve_right ?_, hchan⟩
              simp [hok, hidle']
          obtain ⟨hzero, hchan⟩ := hbuilt
          have hfirst : m.chanid = .uqmrr1 := by
            rw [hchan, hzero]
            rfl
          have hi : (amparseqmixactionheader packet).qmiinstanceid.toNat = 0 := by
            rw [hzero]
            rfl
          simp only [hfirst, hi]
          refine ⟨rfl, rfl, fun j hj => ?_⟩
          exact hj.elim (channel_eq_uqmrr1_iff j).1.mp (channel_eq_uqmrr1_iff j).2.mp
      | _ => trivial

/-- When every request that is not turned away is for the first instance, packets go to open
pairs, and a reset closes them. -/
theorem channelsKept_of_firstInstance {events : List QmEvent}
    (h : Meets qmStep FirstInstance (some qminit) events) : ChannelsKept events := by
  have hinit : OpenOnFirst (some qminit) [] := by
    intro pair
    simp [qminit]
  have hstep : ∀ s event m, OpenOnFirst s m → FirstInstance s event →
      Tracks dsMonitor OpenOnFirst m (qmStep s event) := by
    intro s event m hs hfirst
    cases s with
    | none => exact tracks_nil trivial
    | some s => exact OpenOnFirst.tracks_qmtask hs hfirst
  obtain ⟨pairs, hpairs, hopen⟩ := tracks_run hstep hinit h
  refine ⟨⟨pairs, hpairs, fun s hs channel client hmem => ?_⟩, h.mono sameChannel_of_firstInstance⟩
  rw [hs] at hopen
  obtain ⟨rfl, hreg⟩ := (hopen (channel, client)).mp hmem
  rw [qmiclientreset, if_pos hreg]

/-- A run with one request on the first instance. -/
theorem channelsKept_dms :
    ChannelsKept (connectEvents 0 ++
      [.qmiReq (requestPacket .dms 0 [0x20, 0, 0, 0]) 0 reqEnvOk, .device .disconnected]) :=
  channelsKept_of_firstInstance (by decide +kernel)

/-- An application connects and sets the IP family of the third instance. -/
def thirdInstanceRun : List QmEvent :=
  connectEvents 0 ++
    [.qmiReq (requestPacket .wds 2 [77, 0, 4, 0, 1, 1, 0, 4]) 0 reqEnvOk]

/-- The client is opened on the last channel and the request sent on the third. -/
theorem not_channelsKept_thirdInstance : ¬ ChannelsKept thirdInstanceRun := by
  rintro ⟨⟨pairs, hpairs, -⟩, -⟩
  have hviolation : watch dsMonitor [] (outputs qmStep (some qminit) thirdInstanceRun) = none := by
    decide +kernel
  rw [hviolation] at hpairs
  cases hpairs

end Qm

end SierraSdk
