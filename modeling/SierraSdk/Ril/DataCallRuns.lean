import Mathlib.Data.List.Perm.Basic
import SierraSdk.Ril.DataCall

/-!
# Runs of the data call

Every request to set a data call up is completed once, and a task does not poll for ever
(`completes_run`).

What is done tells which session is started, whether the response has been filled for it since, and
which cause was recorded for the request that is worked on. `Sound` says what a response should be,
given these. Responses are sound as long as each step is `Regular` (`dataCall_of_regular`).
-/

namespace SierraSdk

namespace Ril

namespace DataCall

open Machine

section Definitions

/-- A session that was started, and what the modem says of it. -/
structure DataSession where
  type : String
  settings : Option RunTimeSettings

/-- What is known from what was done: the session that is started, whether the response has been
filled for it, and the cause that was recorded for the request that is worked on. -/
structure CallHistory where
  session : Option DataSession
  shown : Bool
  cause : Option PdpFailCause

def historyInit : CallHistory := ⟨none, false, none⟩

def CallHistory.record (h : CallHistory) : PdpOut → CallHistory
  | .attempts _ => { h with cause := none }
  | .cause cause => { h with cause := some cause }
  | .starts => { h with shown := false }
  | .started type => { h with session := some ⟨type, none⟩ }
  | .settings rts => { h with session := h.session.map fun d => { d with settings := some rts } }
  | .dhcp => { h with shown := true }
  | .stopped => { h with session := none, shown := false }
  | .cleared => { h with shown := false }
  | _ => h

/-- A response has the type, the addresses, the DNS servers and the gateways of a session. -/
structure DataSession.ShownBy (d : DataSession) (response : DataCallResponse)
    (rts : RunTimeSettings) : Prop where
  settings : d.settings = some rts
  type : response.type = some d.type
  addresses : response.addresses = some (addressStr rts (getIPFamilyPreference (some d.type)))
  dnses : response.dnses = some (dnsStr rts (getIPFamilyPreference (some d.type)))
  gateways : response.gateways = some (gatewayStr rts (getIPFamilyPreference (some d.type)))

/-- The session that is started is the one of a response. -/
def CallHistory.Shows (h : CallHistory) (response : DataCallResponse) : Prop :=
  ∃ d rts, h.session = some d ∧ d.ShownBy response rts

/-- A response says that there is no failure and that the call is active. -/
def DataCallResponse.Reports (response : DataCallResponse) : Prop :=
  response.status = .none ∧ response.active ≠ .inactive

/-- An active call that is reported is the session that is started. A request that failed gives the
cause recorded for it and leaves the call inactive, and so does a task that was overtaken by a
deactivation. -/
def Sound (h : CallHistory) : PdpOut → Prop
  | .complete _ response failed deactivated =>
      (response.Reports → h.Shows response) ∧
        (failed = true → h.cause = some response.status ∧ response.active = .inactive) ∧
          (deactivated = true → response.active = .inactive)
  | .list _ response => response.Reports → h.Shows response
  | _ => True

/-- The data call with what is known from what was done. -/
def runStep (s : PdpTcb × CallHistory) (event : PdpEvent) : (PdpTcb × CallHistory) × List PdpOut :=
  let r := pdpStep s.1 event
  ((r.1, r.2.foldl CallHistory.record s.2), r.2)

/-- The session of the modem is taken for the one of the response. -/
def Persists (s : PdpTcb) (preference : IPFamilyPreference) (w : SetupWorld) : Prop :=
  preference = getIPFamilyPreference s.rilPDPContextListRes.type ∧
    ∃ rts, w.settings = some rts ∧
      s.rilPDPContextListRes.addresses = some (addressStr rts preference)

/-- Which requests go right once the modem has answered to the start of the session. -/
def StartRegular (s : PdpTcb) (preference : IPFamilyPreference) (w : SetupWorld) :
    SessionResult × UInt32 × UInt32 → Prop
  | (.none, v4sessionId, v6sessionId) =>
      if w.settings.isSome = true ∧ w.dhcpStarts = true then
        preference = .ipv6 → w.isSprint = true → w.goDormant = true
      else if preference = .ipv6 then v6sessionId ≠ 0
      else v4sessionId ≠ 0
  | (.callFailed, _) => True
  | (.noEffect, _) =>
      isDataSessionActive w.state = true ∧ s.sessionIDQMI ≠ 0 ∧ ¬Persists s preference w
  | _ => False

/-- With the radio off the call should be inactive already; else the request should be one that is
not turned down before a session is started. -/
def SetupRegular (s : PdpTcb) (q : SetupRequest) (w : SetupWorld) : Prop :=
  let preference := getIPFamilyPreference (some q.type)
  if w.radioOn = false then s.rilPDPContextListRes.active = .inactive
  else
    preference ≠ .unspec ∧ ¬(w.isGobiOnly = true ∧ preference ≠ .ipv4) ∧
      (q.isUmts && q.authtype.any fun authentype => authentype < 0 || 3 < authentype) = false ∧
        StartRegular s preference w (startDataSession2 preference w.start)

/-- A task that gives up should find a session and an inactive call; one that completes its request
should find the response filled for the session, and no deactivation should have overtaken it. -/
def PollRegular (s : PdpTcb × CallHistory) (p : DhcpPollParams) (w : PollWorld) : Prop :=
  if repollDhcp ≤ p.loopcount then
    s.1.sessionIDQMI ≠ 0 ∧ s.1.rilPDPContextListRes.active = .inactive
  else pollDHCPnsetDNS w = true → s.2.shown = true ∧ p.deactivated = false

/-- The response has a failure, or it has been filled for the session. -/
def Settled (s : PdpTcb × CallHistory) : Prop :=
  s.1.rilPDPContextListRes.status = .none → s.2.shown = true

/-- The steps that go right. -/
def Regular (s : PdpTcb × CallHistory) : PdpEvent → Prop
  | .setup q w => SetupRegular s.1 q w
  | .poll i w => ∀ p, s.1.polls[i]? = some p → PollRegular s p w
  | .deactivate _ _ _ => True
  | .dormancy dormancyStatus =>
      dormancyStatus = qmiTrafficChannelActive ∨ dormancyStatus = qmiTrafficChannelDormant →
        Settled s
  | .contextList _ state => isDataSessionActive state = true → Settled s

end Definitions

section Responses

variable {s : PdpTcb} {h : CallHistory}

/-- The response is as what was done says, and the tasks are those of sessions. -/
structure CallInv (s : PdpTcb) (h : CallHistory) : Prop where
  shows : h.shown = true → h.Shows s.rilPDPContextListRes
  reports : s.rilPDPContextListRes.Reports → h.shown = true
  polls : ∀ p ∈ s.polls, p.pdp_active = true

/-- What is done is sound, and the invariant holds behind it. -/
structure Serves (h : CallHistory) (r : PdpTcb × List PdpOut) : Prop where
  sound : Along CallHistory.record Sound h r.2
  inv : CallInv r.1 (r.2.foldl CallHistory.record h)

theorem serves_emit {r : PdpTcb × List PdpOut} {o : PdpOut} (ho : Sound h o)
    (hr : Serves (h.record o) r) : Serves h (emit [o] r) :=
  ⟨⟨ho, hr.sound⟩, hr.inv⟩

theorem not_reports_of_inactive {response : DataCallResponse}
    (h : response.active = .inactive) : ¬response.Reports := fun hreports => hreports.2 h

/-- Only the type and the addresses of a response are compared. -/
theorem CallHistory.Shows.congr {response response' : DataCallResponse} (hr : h.Shows response)
    (htype : response'.type = response.type) (haddresses : response'.addresses = response.addresses)
    (hdnses : response'.dnses = response.dnses)
    (hgateways : response'.gateways = response.gateways) : h.Shows response' := by
  obtain ⟨d, rts, hsession, hshown⟩ := hr
  exact ⟨d, rts, hsession, hshown.settings, htype.trans hshown.type,
    haddresses.trans hshown.addresses, hdnses.trans hshown.dnses,
    hgateways.trans hshown.gateways⟩

/-- The invariant while the call is inactive. -/
theorem callInv_of_inactive (hinactive : s.rilPDPContextListRes.active = .inactive)
    (hshows : h.shown = true → h.Shows s.rilPDPContextListRes)
    (hpolls : ∀ p ∈ s.polls, p.pdp_active = true) : CallInv s h :=
  ⟨hshows, fun hreports => absurd hreports (not_reports_of_inactive hinactive), hpolls⟩

/-- A failure is reported with a cause that was recorded for its request. -/
theorem serves_errorHandling {pdp_active : Bool} {stop : SessionResult} (t : ℕ)
    (deactivated : Bool) (hinactive : s.rilPDPContextListRes.active = .inactive)
    (hcause : pdp_active = true ∧ s.sessionIDQMI ≠ 0 ∨ h.cause = some s.lastPdpFailCauseQMI)
    (hshows : h.shown = true → h.Shows s.rilPDPContextListRes)
    (hpolls : ∀ p ∈ s.polls, p.pdp_active = true) :
    let r := errorHandling s pdp_active stop
    Serves h (r.1, r.2 ++ [.complete t r.1.rilPDPContextListRes true deactivated]) := by
  have hnot {status : PdpFailCause} :
      ¬(s.withStatus status).rilPDPContextListRes.Reports := not_reports_of_inactive hinactive
  have hstill {status : PdpFailCause} (hshown : h.shown = true) :
      h.Shows (s.withStatus status).rilPDPContextListRes :=
    (hshows hshown).congr rfl rfl rfl rfl
  simp only [errorHandling]
  by_cases hstops : pdp_active = true ∧ s.sessionIDQMI ≠ 0
  · rw [if_pos hstops]
    by_cases hstop : stop = .none ∨ stop = .noEffect
    · rw [if_pos hstop]
      refine ⟨⟨trivial, trivial, ⟨fun hreports => absurd hreports hnot, fun _ => ⟨rfl, hinactive⟩,
        fun _ => hinactive⟩, trivial⟩, callInv_of_inactive hinactive ?_ hpolls⟩
      exact fun hshown => Bool.noConfusion hshown
    · rw [if_neg hstop]
      exact ⟨⟨trivial, ⟨fun hreports => absurd hreports hnot, fun _ => ⟨rfl, hinactive⟩,
        fun _ => hinactive⟩, trivial⟩, callInv_of_inactive hinactive hstill hpolls⟩
  · rw [if_neg hstops]
    have hrecorded := hcause.resolve_left hstops
    exact ⟨⟨⟨fun hreports => absurd hreports hnot, fun _ => ⟨hrecorded, hinactive⟩,
      fun _ => hinactive⟩, trivial⟩, callInv_of_inactive hinactive hstill hpolls⟩

end Responses

section Setups

variable {s : PdpTcb} {h : CallHistory} {q : SetupRequest} {w : SetupWorld}

theorem serves_setupError {pdp_active : Bool} (q : SetupRequest) (w : SetupWorld)
    (hinactive : s.rilPDPContextListRes.active = .inactive)
    (hcause : pdp_active = true ∧ s.sessionIDQMI ≠ 0 ∨ h.cause = some s.lastPdpFailCauseQMI)
    (hshows : h.shown = true → h.Shows s.rilPDPContextListRes)
    (hpolls : ∀ p ∈ s.polls, p.pdp_active = true) : Serves h (setupError s pdp_active q w) :=
  serves_errorHandling q.t false hinactive hcause hshows hpolls

theorem absurd_shown (hshown : h.shown = false) {P : Prop} (h' : h.shown = true) : P := by
  rw [hshown] at h'
  exact Bool.noConfusion h'

/-- The rest of a request of which the modem has said everything. -/
theorem serves_setupDhcp {rts : RunTimeSettings} (hsession : h.session = some ⟨q.type, some rts⟩)
    (hdnses : s.rilPDPContextListRes.dnses =
      some (dnsStr rts (getIPFamilyPreference (some q.type))))
    (hgateways : s.rilPDPContextListRes.gateways =
      some (gatewayStr rts (getIPFamilyPreference (some q.type))))
    (hinactive : s.rilPDPContextListRes.active = .inactive) (hshown : h.shown = false)
    (hpolls : ∀ p ∈ s.polls, p.pdp_active = true)
    (hfails : w.dhcpStarts = false → s.sessionIDQMI ≠ 0)
    (hends : w.dhcpStarts = true → getIPFamilyPreference (some q.type) = .ipv6 →
      w.isSprint = true → w.goDormant = true) :
    Serves h (setupDhcp s (addressStr rts (getIPFamilyPreference (some q.type))) q w) := by
  rw [setupDhcp]
  cases hdhcp : w.dhcpStarts with
  | false =>
      rw [if_pos rfl]
      exact serves_setupError q w hinactive (.inl ⟨rfl, hfails hdhcp⟩) (absurd_shown hshown) hpolls
  | true =>
      rw [if_neg (Bool.false_ne_true ·.symm)]
      refine serves_emit (by trivial) ?_
      by_cases hipv6 : getIPFamilyPreference (some q.type) = .ipv6
      · have hdormant : ¬(w.isSprint && !w.goDormant) = true := by
          rw [Bool.and_eq_true, Bool.not_eq_true']
          rintro ⟨hsprint, hfailed⟩
          rw [hends hdhcp hipv6 hsprint] at hfailed
          exact Bool.noConfusion hfailed
        rw [if_pos hipv6, setupResponse]
        simp only [if_neg hdormant]
        have hshows : (h.record .dhcp).Shows
            { s.rilPDPContextListRes with
              status := .none
              cid := swiDefaultCid
              active := .activeLinkup
              type := some q.type
              addresses := some (addressStr rts (getIPFamilyPreference (some q.type))) } :=
          ⟨_, rts, hsession, rfl, rfl, rfl, hdnses, hgateways⟩
        exact ⟨⟨⟨fun _ => hshows, fun hfailed => Bool.noConfusion hfailed,
          fun hlate => Bool.noConfusion hlate⟩, trivial⟩, fun _ => hshows, fun _ => rfl, hpolls⟩
      · rw [if_neg hipv6]
        refine ⟨trivial, callInv_of_inactive hinactive (fun _ => ?_) fun p hp => ?_⟩
        · exact ⟨_, rts, hsession, rfl, rfl, rfl, hdnses, hgateways⟩
        · rcases List.mem_append.mp hp with hp | hp
          · exact hpolls p hp
          · rw [List.mem_singleton.mp hp]

theorem serves_setupStarted {ids : UInt32 × UInt32}
    (hinactive : s.rilPDPContextListRes.active = .inactive) (hshown : h.shown = false)
    (hpolls : ∀ p ∈ s.polls, p.pdp_active = true)
    (hregular : StartRegular s (getIPFamilyPreference (some q.type)) w (.none, ids)) :
    Serves h (setupStarted s ids q w) := by
  have hid (hfails : ¬(w.settings.isSome = true ∧ w.dhcpStarts = true)) :
      (if getIPFamilyPreference (some q.type) = .ipv6 then ids.2 else ids.1) ≠ 0 := by
    rw [StartRegular, if_neg hfails] at hregular
    split_ifs at hregular ⊢ with hipv6
    · exact hregular
    · exact hregular
  refine serves_emit (by trivial) ?_
  cases hsettings : w.settings with
  | none =>
      have hfails : ¬(w.settings.isSome = true ∧ w.dhcpStarts = true) := by
        rw [hsettings]
        exact fun h => Bool.noConfusion h.1
      exact serves_setupError q w hinactive (.inl ⟨rfl, hid hfails⟩) (absurd_shown hshown) hpolls
  | some rts =>
      refine serves_emit (by trivial) ?_
      refine serves_setupDhcp rfl rfl rfl hinactive hshown hpolls (fun hdhcp => hid ?_)
        fun hdhcp => ?_
      · rw [hdhcp]
        exact fun h => Bool.noConfusion h.2
      · rw [StartRegular, if_pos ⟨by rw [hsettings]; rfl, hdhcp⟩] at hregular
        exact hregular

/-- A session that the modem had is stopped. -/
theorem serves_setupNoEffect (hinactive : s.rilPDPContextListRes.active = .inactive)
    (hshown : h.shown = false) (hpolls : ∀ p ∈ s.polls, p.pdp_active = true)
    (hactive : isDataSessionActive w.state = true) (hid : s.sessionIDQMI ≠ 0)
    (hother : ¬Persists s (getIPFamilyPreference (some q.type)) w) :
    Serves h (setupNoEffect s q w) := by
  have herror {h : CallHistory} (hshown : h.shown = false) : Serves h (setupError s true q w) :=
    serves_setupError q w hinactive (.inl ⟨rfl, hid⟩) (absurd_shown hshown) hpolls
  have hstate : ¬isDataSessionActive w.state = false := by
    rw [hactive]
    exact (Bool.noConfusion ·)
  rw [setupNoEffect, if_neg hstate]
  by_cases hpreference : getIPFamilyPreference (some q.type) =
      getIPFamilyPreference s.rilPDPContextListRes.type
  · rw [if_neg (not_not_intro hpreference)]
    cases hsettings : w.settings with
    | none => exact herror hshown
    | some rts =>
        refine serves_emit (by trivial) ?_
        rw [if_neg fun haddresses => hother ⟨hpreference, rts, hsettings, haddresses⟩]
        exact herror hshown
  · rw [if_pos hpreference]
    exact herror hshown

theorem serves_setupStart (hinactive : s.rilPDPContextListRes.active = .inactive)
    (hpolls : ∀ p ∈ s.polls, p.pdp_active = true)
    (hregular : StartRegular s (getIPFamilyPreference (some q.type)) w
      (startDataSession2 (getIPFamilyPreference (some q.type)) w.start)) :
    Serves h (setupStart s q w) := by
  rw [setupStart]
  refine serves_emit (by trivial) ?_
  generalize startDataSession2 (getIPFamilyPreference (some q.type)) w.start = answer at hregular ⊢
  obtain ⟨result, ids⟩ := answer
  cases result with
  | none => exact serves_setupStarted hinactive rfl hpolls hregular
  | callFailed =>
      refine serves_emit (by trivial) ?_
      exact serves_setupError q w hinactive (.inr rfl) (absurd_shown rfl) hpolls
  | noEffect =>
      exact serves_setupNoEffect hinactive rfl hpolls hregular.1 hregular.2.1 hregular.2.2
  | v4upV6up => exact hregular.elim
  | v4upV6dwn => exact hregular.elim
  | v4dwnV6up => exact hregular.elim
  | other code => exact hregular.elim

theorem serves_requestSetup (hinv : CallInv s h) (hregular : SetupRegular s q w) :
    Serves h (requestSetupDefaultPDPQMI s q w) := by
  rw [requestSetupDefaultPDPQMI]
  refine serves_emit (by trivial) ?_
  rw [SetupRegular] at hregular
  by_cases hradio : w.radioOn = false
  · rw [if_pos hradio] at hregular ⊢
    refine serves_emit (by trivial) ?_
    exact serves_setupError q w hregular (.inr rfl) hinv.shows hinv.polls
  · rw [if_neg hradio] at hregular ⊢
    obtain ⟨htype, hgobi, hauth, hstart⟩ := hregular
    rw [if_neg htype]
    simp only [if_neg hgobi, hauth, Bool.false_eq_true, if_false]
    exact serves_setupStart rfl hinv.polls hstart

end Setups

section Steps

variable {s : PdpTcb} {h : CallHistory}

theorem serves_polldhcptask {p : DhcpPollParams} {w : PollWorld} (hinv : CallInv s h)
    (hp : p.pdp_active = true) (hregular : PollRegular (s, h) p w) :
    Serves h (polldhcptask s p w) := by
  refine serves_emit (by trivial) ?_
  rw [PollRegular] at hregular
  by_cases hcount : repollDhcp ≤ p.loopcount
  · rw [if_pos hcount] at hregular ⊢
    exact serves_errorHandling p.t p.deactivated hregular.2 (.inl ⟨hp, hregular.1⟩) hinv.shows
      hinv.polls
  · rw [if_neg hcount] at hregular ⊢
    cases hpoll : pollDHCPnsetDNS w with
    | false =>
        rw [if_pos rfl]
        refine ⟨trivial, hinv.shows, hinv.reports, fun p' hp' => ?_⟩
        rcases List.mem_append.mp hp' with hp' | hp'
        · exact hinv.polls p' hp'
        · rw [List.mem_singleton.mp hp']
          exact hp
    | true =>
        obtain ⟨hshown, hlate⟩ := hregular hpoll
        have hshows := hinv.shows hshown
        rw [if_neg (Bool.false_ne_true ·.symm)]
        refine ⟨⟨⟨fun _ => hshows.congr rfl rfl rfl rfl, fun hfailed => Bool.noConfusion hfailed,
          fun hdeactivated => ?_⟩, trivial⟩, fun _ => hshows.congr rfl rfl rfl rfl,
            fun _ => hshown, hinv.polls⟩
        rw [hlate] at hdeactivated
        exact Bool.noConfusion hdeactivated

theorem serves_deactivate (hinv : CallInv s h) (t : Option ℕ) (pdpCid : Option ℤ)
    (stop : SessionResult) : Serves h (requestDeactivateDefaultPDPQMI s t pdpCid stop) := by
  have hpolls : ∀ p ∈ (deactivated s).polls, p.pdp_active = true := by
    intro p hp
    obtain ⟨p', hp', rfl⟩ := List.mem_map.mp hp
    exact hinv.polls p' hp'
  unfold requestDeactivateDefaultPDPQMI
  split_ifs with hstops
  · cases t with
    | none =>
        exact ⟨⟨trivial, trivial, fun hreports => absurd rfl hreports.2, trivial⟩,
          callInv_of_inactive rfl (absurd_shown rfl) hpolls⟩
    | some t =>
        exact ⟨⟨trivial, trivial, trivial, trivial⟩,
          callInv_of_inactive rfl (absurd_shown rfl) hpolls⟩
  · cases t with
    | none => exact ⟨trivial, hinv⟩
    | some t => exact ⟨⟨trivial, trivial⟩, hinv⟩

/-- The response with another state of the call. -/
def PdpTcb.withActive (s : PdpTcb) (active : RilSessionState) : PdpTcb :=
  { s with rilPDPContextListRes := { s.rilPDPContextListRes with active := active } }

/-- A list that says that the call is active where the response is settled, and otherwise says
what the response said before. -/
theorem serves_lists {active : RilSessionState} {out : List PdpOut} {t : Option ℕ}
    (hinv : CallInv s h)
    (hsettled : active = s.rilPDPContextListRes.active ∨ Settled (s, h))
    (hout : out = [] ∨ out = [.list t (s.withActive active).rilPDPContextListRes]) :
    Serves h (s.withActive active, out) := by
  have hreports (hr : (s.withActive active).rilPDPContextListRes.Reports) : h.shown = true := by
    rcases hsettled with rfl | hsettled
    · exact hinv.reports hr
    · exact hsettled hr.1
  have hnext : CallInv (s.withActive active) h :=
    ⟨fun hshown => (hinv.shows hshown).congr rfl rfl rfl rfl, hreports, hinv.polls⟩
  rcases hout with rfl | rfl
  · exact ⟨trivial, hnext⟩
  · exact ⟨⟨fun hr => (hinv.shows (hreports hr)).congr rfl rfl rfl rfl, trivial⟩, hnext⟩

theorem sendList_cases (s : PdpTcb) (t : Option ℕ) :
    sendList s t = [] ∨ sendList s t = [.list t s.rilPDPContextListRes] := by
  rw [sendList]
  exact ite_eq_or_eq _ _ _

/-- A list that says that there is no call. -/
theorem serves_cleared {out : List PdpOut} {t : Option ℕ} {response : DataCallResponse}
    (hinv : CallInv s h) (hinactive : response.active = .inactive)
    (hout : out = [] ∨ out = [.list t response]) :
    Serves h ({ s with rilPDPContextListRes := response }, .cleared :: out) := by
  have hnot := not_reports_of_inactive hinactive
  rcases hout with rfl | rfl
  · exact ⟨⟨trivial, trivial⟩, callInv_of_inactive hinactive (absurd_shown rfl) hinv.polls⟩
  · exact ⟨⟨trivial, fun hreports => absurd hreports hnot, trivial⟩,
      callInv_of_inactive hinactive (absurd_shown rfl) hinv.polls⟩

theorem serves_contextList {state : SessionState} (hinv : CallInv s h) (t : Option ℕ)
    (hsettled : isDataSessionActive state = true → Settled (s, h)) :
    Serves h (requestOrSendPDPContextListQMI s t state) := by
  rw [requestOrSendPDPContextListQMI]
  split_ifs with hactive
  · exact serves_lists hinv (.inr (hsettled hactive)) (sendList_cases _ t)
  · exact serves_cleared hinv rfl (sendList_cases _ t)

theorem serves_dormancy {dormancyStatus : UInt32} (hinv : CallInv s h)
    (hsettled : dormancyStatus = qmiTrafficChannelActive ∨
      dormancyStatus = qmiTrafficChannelDormant → Settled (s, h)) :
    Serves h (dormancyStatusCallback s dormancyStatus) := by
  refine serves_lists hinv ?_ (.inr rfl)
  split_ifs with hactive hdormant
  · exact .inr (hsettled (.inl hactive))
  · exact .inr (hsettled (.inr hdormant))
  · exact .inl rfl

theorem serves_pdpStep {event : PdpEvent} (hinv : CallInv s h) (hregular : Regular (s, h) event) :
    Serves h (pdpStep s event) := by
  cases event with
  | setup q w => exact serves_requestSetup hinv hregular
  | poll i w =>
      rw [pdpStep]
      cases hp : s.polls[i]? with
      | none => exact ⟨trivial, hinv⟩
      | some p =>
          have hmem := List.mem_of_getElem? hp
          have hrest : CallInv { s with polls := s.polls.eraseIdx i } h :=
            ⟨hinv.shows, hinv.reports, fun p' hp' => hinv.polls p' (List.mem_of_mem_eraseIdx hp')⟩
          exact serves_polldhcptask hrest (hinv.polls p hmem) (hregular p hp)
  | deactivate t pdpCid stop => exact serves_deactivate hinv t pdpCid stop
  | dormancy dormancyStatus => exact serves_dormancy hinv hregular
  | contextList t state => exact serves_contextList hinv t hregular

theorem callInv_init : CallInv pdpInit historyInit :=
  callInv_of_inactive rfl (absurd_shown rfl) fun _ hp => absurd hp List.not_mem_nil

/-- The responses of a regular run are sound. -/
theorem sound_of_regular {events : List PdpEvent}
    (h : Meets runStep Regular (pdpInit, historyInit) events) :
    Along CallHistory.record Sound historyInit (outputs runStep (pdpInit, historyInit) events) := by
  have hstep (s : PdpTcb × CallHistory) (event : PdpEvent) (m : CallHistory)
      (hs : s.2 = m ∧ CallInv s.1 s.2) (hregular : Regular s event)
      (_ : Along CallHistory.record (fun _ _ => True) m (runStep s event).2) :
      Along CallHistory.record Sound m (runStep s event).2 ∧
        (runStep s event).1.2 = (runStep s event).2.foldl CallHistory.record m ∧
          CallInv (runStep s event).1.1 (runStep s event).1.2 := by
    obtain ⟨rfl, hinv⟩ := hs
    obtain ⟨hsound, hnext⟩ := serves_pdpStep hinv hregular
    exact ⟨hsound, rfl, hnext⟩
  have hall (m : CallHistory) (out : List PdpOut) :
      Along CallHistory.record (fun _ _ => True) m out := by
    induction out generalizing m with
    | nil => trivial
    | cons o out ih => exact ⟨trivial, ih _⟩
  exact (along_run (R := fun s m => s.2 = m ∧ CallInv s.1 s.2) hstep ⟨rfl, callInv_init⟩ h
    (hall _ _)).1

end Steps

section Completions

/-- The requests that were completed. -/
def completed (out : List PdpOut) : List ℕ :=
  out.filterMap fun
    | .complete t _ _ _ => some t
    | _ => none

/-- The requests that were worked on, each time. -/
def attempted (out : List PdpOut) : List ℕ :=
  out.filterMap fun
    | .attempts t => some t
    | _ => none

/-- The requests that were made. -/
def requested (events : List PdpEvent) : List ℕ :=
  events.filterMap fun
    | .setup q _ => some q.t
    | _ => none

/-- The requests that a task is queued for. -/
def PdpTcb.waiting (s : PdpTcb) : List ℕ := s.polls.map DhcpPollParams.t

/-- The rounds that a task has left. -/
def DhcpPollParams.rounds (p : DhcpPollParams) : List ℕ :=
  List.replicate (repollDhcp - p.loopcount + 1) p.t

def PdpTcb.rounds (s : PdpTcb) : List ℕ := s.polls.flatMap DhcpPollParams.rounds

/-- A request is completed. -/
structure Finished (t : ℕ) (polls : List DhcpPollParams) (r : PdpTcb × List PdpOut) : Prop where
  attempted : attempted r.2 = []
  polls : r.1.polls = polls
  completed : completed r.2 = [t]

/-- A request is completed, or a task is queued for it. -/
structure Answered (t : ℕ) (polls : List DhcpPollParams) (r : PdpTcb × List PdpOut) : Prop where
  attempted : attempted r.2 = []
  ends : r.1.polls = polls ∧ completed r.2 = [t] ∨
    r.1.polls = polls ++ [⟨t, 0, true, false⟩] ∧ completed r.2 = []

/-- An output that neither works on a request nor completes one. -/
def PdpOut.isQuiet : PdpOut → Bool
  | .attempts _ => false
  | .complete _ _ _ _ => false
  | _ => true

variable {s : PdpTcb} {q : SetupRequest} {w : SetupWorld} {polls : List DhcpPollParams}

theorem completed_cons_of_quiet {o : PdpOut} (ho : o.isQuiet = true) (out : List PdpOut) :
    completed (o :: out) = completed out ∧ attempted (o :: out) = attempted out := by
  cases o <;> first | exact ⟨rfl, rfl⟩ | exact Bool.noConfusion ho

theorem answered_emit {t : ℕ} {r : PdpTcb × List PdpOut} {o : PdpOut} (ho : o.isQuiet = true)
    (hr : Answered t polls r) : Answered t polls (emit [o] r) := by
  obtain ⟨hcompleted, hattempted⟩ := completed_cons_of_quiet ho r.2
  refine ⟨hattempted.trans hr.attempted, ?_⟩
  change r.1.polls = polls ∧ completed (o :: r.2) = [t] ∨
    r.1.polls = polls ++ [⟨t, 0, true, false⟩] ∧ completed (o :: r.2) = []
  rw [hcompleted]
  exact hr.ends

theorem Finished.answered {t : ℕ} {r : PdpTcb × List PdpOut} (hr : Finished t polls r) :
    Answered t polls r := ⟨hr.attempted, .inl ⟨hr.polls, hr.completed⟩⟩

theorem finished_errorHandling (pdp_active : Bool) (stop : SessionResult) (t : ℕ)
    (deactivated : Bool) (hpolls : s.polls = polls) :
    let r := errorHandling s pdp_active stop
    Finished t polls (r.1, r.2 ++ [.complete t r.1.rilPDPContextListRes true deactivated]) := by
  simp only [errorHandling]
  split_ifs
  · exact ⟨rfl, hpolls, rfl⟩
  · exact ⟨rfl, hpolls, rfl⟩
  · exact ⟨rfl, hpolls, rfl⟩

theorem answered_setupError (pdp_active : Bool) (hpolls : s.polls = polls) :
    Answered q.t polls (setupError s pdp_active q w) :=
  (finished_errorHandling pdp_active w.stop q.t false hpolls).answered

theorem answered_setupResponse (ipAddrStr : String) (hpolls : s.polls = polls) :
    Answered q.t polls (setupResponse s ipAddrStr q w) := by
  simp only [setupResponse]
  split_ifs
  · exact answered_setupError true hpolls
  · exact ⟨rfl, .inl ⟨hpolls, rfl⟩⟩

theorem answered_setupDhcp (ipAddrStr : String) (hpolls : s.polls = polls) :
    Answered q.t polls (setupDhcp s ipAddrStr q w) := by
  rw [setupDhcp]
  split_ifs
  · exact answered_setupError true hpolls
  · exact answered_emit rfl (answered_setupResponse ipAddrStr hpolls)
  · exact answered_emit rfl ⟨rfl, .inr ⟨congrArg (· ++ _) hpolls, rfl⟩⟩

theorem answered_setupStarted (ids : UInt32 × UInt32) (hpolls : s.polls = polls) :
    Answered q.t polls (setupStarted s ids q w) := by
  refine answered_emit rfl ?_
  cases w.settings with
  | none => exact answered_setupError true hpolls
  | some rts => exact answered_emit rfl (answered_setupDhcp _ hpolls)

theorem answered_setupNoEffect (hpolls : s.polls = polls) :
    Answered q.t polls (setupNoEffect s q w) := by
  rw [setupNoEffect]
  split_ifs
  · exact answered_setupError false hpolls
  · exact answered_setupError true hpolls
  · cases w.settings with
    | none => exact answered_setupError true hpolls
    | some rts =>
        refine answered_emit rfl ?_
        split_ifs
        · exact answered_setupResponse _ hpolls
        · exact answered_setupError true hpolls

theorem answered_setupStart (hpolls : s.polls = polls) :
    Answered q.t polls (setupStart s q w) := by
  rw [setupStart]
  refine answered_emit rfl ?_
  generalize startDataSession2 (getIPFamilyPreference (some q.type)) w.start = answer
  obtain ⟨result, ids⟩ := answer
  cases result with
  | none => exact answered_setupStarted ids hpolls
  | callFailed => exact answered_emit rfl (answered_setupError false hpolls)
  | noEffect => exact answered_setupNoEffect hpolls
  | v4upV6up => exact answered_setupError false hpolls
  | v4upV6dwn => exact answered_setupError false hpolls
  | v4dwnV6up => exact answered_setupError false hpolls
  | other code => exact answered_setupError false hpolls

/-- A request is worked on once, and is completed or has a task. -/
theorem answered_requestSetup (s : PdpTcb) (q : SetupRequest) (w : SetupWorld) :
    ∃ r, requestSetupDefaultPDPQMI s q w = emit [.attempts q.t] r ∧ Answered q.t s.polls r := by
  refine ⟨_, rfl, ?_⟩
  split_ifs
  · exact answered_emit rfl (answered_setupError false rfl)
  · exact answered_setupError false rfl
  · exact answered_setupError false rfl
  · exact answered_setupError false rfl
  · exact answered_setupStart rfl

/-- The requests that were outstanding and those that are new are completed or have a task, and
each of them is worked on no more than twelve times. -/
structure Completes (s : PdpTcb) (ts : List ℕ) (r : PdpTcb × List PdpOut) : Prop where
  once : (completed r.2 ++ r.1.waiting).Perm (s.waiting ++ ts)
  ends : ∀ t, (attempted r.2).count t + r.1.rounds.count t ≤ s.rounds.count t + 12 * ts.count t

theorem completes_requestSetup (s : PdpTcb) (q : SetupRequest) (w : SetupWorld) :
    Completes s [q.t] (requestSetupDefaultPDPQMI s q w) := by
  obtain ⟨r, heq, hattempted, hends⟩ := answered_requestSetup s q w
  have hcompleted : completed (emit [.attempts q.t] r).2 = completed r.2 := rfl
  have hworked : attempted (emit [.attempts q.t] r).2 = [q.t] := congrArg (q.t :: ·) hattempted
  have hstate : (emit [.attempts q.t] r).1 = r.1 := rfl
  rw [heq]
  rcases hends with ⟨hpolls, hdone⟩ | ⟨hpolls, hdone⟩
  · refine ⟨?_, fun t => ?_⟩
    · rw [hcompleted, hdone, hstate, PdpTcb.waiting, hpolls]
      exact List.perm_append_comm
    · rw [hworked, hstate, PdpTcb.rounds, hpolls]
      change _ ≤ (s.polls.flatMap DhcpPollParams.rounds).count t + _
      omega
  · refine ⟨?_, fun t => ?_⟩
    · rw [hcompleted, hdone, hstate, PdpTcb.waiting, hpolls, List.map_append]
      exact List.Perm.refl _
    · have hround : (DhcpPollParams.rounds ⟨q.t, 0, true, false⟩).count t =
          11 * [q.t].count t := by
        rw [DhcpPollParams.rounds, List.count_replicate, List.count_singleton]
        split_ifs
        · rfl
        · rfl
      rw [hworked, hstate, PdpTcb.rounds, hpolls, List.flatMap_append, List.count_append,
        List.flatMap_singleton, hround, PdpTcb.rounds]
      omega

theorem count_rounds (p : DhcpPollParams) (t : ℕ) :
    p.rounds.count t = (repollDhcp - p.loopcount + 1) * [p.t].count t := by
  rw [DhcpPollParams.rounds, List.count_replicate, List.count_singleton]
  split_ifs
  · exact (Nat.mul_one _).symm
  · rfl

/-- A round of a task, which is taken out of the queue. -/
theorem completes_polldhcptask {p : DhcpPollParams} {s' : PdpTcb} (w : PollWorld)
    (hpolls : s.polls.Perm (p :: s'.polls)) : Completes s [] (polldhcptask s' p w) := by
  have hwaiting : s.waiting.Perm (p.t :: s'.waiting) := hpolls.map _
  have hrounds (t : ℕ) : s.rounds.count t =
      (repollDhcp - p.loopcount + 1) * [p.t].count t + s'.rounds.count t := by
    rw [PdpTcb.rounds, (hpolls.flatMap_right _).count_eq, List.flatMap_cons, List.count_append,
      count_rounds]
    rfl
  have hdone {r : PdpTcb × List PdpOut} (hr : Finished p.t s'.polls r) :
      Completes s [] (emit [.attempts p.t] r) := by
    have hworked : attempted (emit [.attempts p.t] r).2 = [p.t] :=
      congrArg (p.t :: ·) hr.attempted
    have hleft : (emit [.attempts p.t] r).1.rounds = s'.rounds :=
      congrArg (List.flatMap DhcpPollParams.rounds) hr.polls
    refine ⟨?_, fun t => ?_⟩
    · change (completed r.2 ++ r.1.polls.map DhcpPollParams.t).Perm _
      rw [hr.completed, hr.polls, List.append_nil]
      exact hwaiting.symm
    · rw [hworked, hleft, hrounds, Nat.add_mul, Nat.one_mul]
      omega
  rw [polldhcptask]
  split_ifs with hcount hpoll
  · exact hdone (finished_errorHandling p.pdp_active w.stop p.t p.deactivated rfl)
  · refine ⟨?_, fun t => ?_⟩
    · change ((s'.polls ++ [{ p with loopcount := p.loopcount + 1 }]).map DhcpPollParams.t).Perm _
      rw [List.map_append, List.append_nil]
      exact (List.perm_append_singleton p.t s'.waiting).trans hwaiting.symm
    · change [p.t].count t + ((s'.polls ++ [{ p with loopcount := p.loopcount + 1 }]).flatMap
        DhcpPollParams.rounds).count t ≤ _
      have hround : (DhcpPollParams.rounds { p with loopcount := p.loopcount + 1 }).count t =
          (repollDhcp - (p.loopcount + 1) + 1) * [p.t].count t := count_rounds _ t
      have hless : repollDhcp - p.loopcount = repollDhcp - (p.loopcount + 1) + 1 := by omega
      rw [List.flatMap_append, List.count_append, List.flatMap_singleton, hround, hrounds, hless,
        Nat.add_mul (_ + 1) 1, Nat.one_mul, PdpTcb.rounds]
      omega
  · exact hdone ⟨rfl, rfl, rfl⟩

/-- A step that neither works on a request nor completes one. -/
theorem completes_of_quiet {r : PdpTcb × List PdpOut} (hcompleted : completed r.2 = [])
    (hattempted : attempted r.2 = []) (hwaiting : r.1.waiting = s.waiting)
    (hrounds : r.1.rounds = s.rounds) : Completes s [] r := by
  refine ⟨?_, fun t => ?_⟩
  · rw [hcompleted, hwaiting, List.append_nil]
    exact List.Perm.refl _
  · rw [hattempted, hrounds, List.count_nil, Nat.zero_add]
    exact Nat.le_add_right _ _

theorem completes_deactivate (s : PdpTcb) (t : Option ℕ) (pdpCid : Option ℤ)
    (stop : SessionResult) : Completes s [] (requestDeactivateDefaultPDPQMI s t pdpCid stop) := by
  have hwaiting : (deactivated s).waiting = s.waiting := List.map_map
  have hrounds : (deactivated s).rounds = s.rounds := List.flatMap_map _ _ _
  unfold requestDeactivateDefaultPDPQMI
  split_ifs
  · cases t with
    | none => exact completes_of_quiet rfl rfl hwaiting hrounds
    | some t => exact completes_of_quiet rfl rfl hwaiting hrounds
  · cases t with
    | none => exact completes_of_quiet rfl rfl rfl rfl
    | some t => exact completes_of_quiet rfl rfl rfl rfl

theorem completes_contextList (s : PdpTcb) (t : Option ℕ) (state : SessionState) :
    Completes s [] (requestOrSendPDPContextListQMI s t state) := by
  have hlist (s : PdpTcb) : completed (sendList s t) = [] ∧ attempted (sendList s t) = [] := by
    rcases sendList_cases s t with hout | hout
    · rw [hout]
      exact ⟨rfl, rfl⟩
    · rw [hout]
      exact ⟨rfl, rfl⟩
  rw [requestOrSendPDPContextListQMI]
  split_ifs
  · exact completes_of_quiet (hlist _).1 (hlist _).2 rfl rfl
  · exact completes_of_quiet (hlist _).1 (hlist _).2 rfl rfl

theorem completes_pdpStep (s : PdpTcb) (event : PdpEvent) :
    Completes s (requested [event]) (pdpStep s event) := by
  cases event with
  | setup q w => exact completes_requestSetup s q w
  | poll i w =>
      rw [pdpStep]
      cases hp : s.polls[i]? with
      | none => exact completes_of_quiet rfl rfl rfl rfl
      | some p =>
          obtain ⟨hi, rfl⟩ := List.getElem?_eq_some_iff.mp hp
          exact completes_polldhcptask w (List.getElem_cons_eraseIdx_perm hi).symm
  | deactivate t pdpCid stop => exact completes_deactivate s t pdpCid stop
  | dormancy dormancyStatus => exact completes_of_quiet rfl rfl rfl rfl
  | contextList t state => exact completes_contextList s t state

theorem completed_append (out out' : List PdpOut) :
    completed (out ++ out') = completed out ++ completed out' := List.filterMap_append

theorem attempted_append (out out' : List PdpOut) :
    attempted (out ++ out') = attempted out ++ attempted out' := List.filterMap_append

theorem Completes.trans {ts ts' : List ℕ} {r r' : PdpTcb × List PdpOut}
    (h : Completes s ts r) (h' : Completes r.1 ts' r') :
    Completes s (ts ++ ts') (r'.1, r.2 ++ r'.2) := by
  refine ⟨?_, fun t => ?_⟩
  · have honce := (h'.once.append_left (completed r.2)).trans
      (List.append_assoc (completed r.2) r.1.waiting ts' ▸ h.once.append_right ts')
    rwa [← List.append_assoc, ← completed_append, List.append_assoc s.waiting] at honce
  · have hhere := h.ends t
    have hrest := h'.ends t
    change (attempted (r.2 ++ r'.2)).count t + r'.1.rounds.count t ≤ _
    rw [attempted_append, List.count_append, List.count_append]
    omega

/-- In every run a request is completed once, or a task is queued for it. -/
theorem completes_run (s : PdpTcb) (events : List PdpEvent) :
    Completes s (requested events) (after pdpStep s events, outputs pdpStep s events) := by
  induction events generalizing s with
  | nil => exact completes_of_quiet rfl rfl rfl rfl
  | cons event events ih =>
      have hrequested : requested (event :: events) = requested [event] ++ requested events :=
        List.filterMap_append (l := [event])
      rw [hrequested]
      exact (completes_pdpStep s event).trans (ih (pdpStep s event).1)

end Completions

section Runs

theorem outputs_runStep (events : List PdpEvent) :
    outputs runStep (pdpInit, historyInit) events = outputs pdpStep pdpInit events := by
  have hstep (s : PdpTcb × CallHistory) (s' : PdpTcb) (event : PdpEvent) (h : s.1 = s')
      (_ : True) : (runStep s event).1.1 = (pdpStep s' event).1 ∧
        (runStep s event).2 = (pdpStep s' event).2 := by
    subst h
    exact ⟨rfl, rfl⟩
  have hrun : Meets runStep (fun _ _ => True) (pdpInit, historyInit) events :=
    meets_iff.mpr fun _ _ _ _ => trivial
  exact (simulation (R := fun s s' => s.1 = s') hstep rfl hrun).2

/-- Every request is completed once, if no task is left for it, and none is worked on for ever. As
long as each step is regular, responses are those of the session that is started, a failure has a
cause of its own and leaves the call inactive, and a task that a deactivation has overtaken does not
report a call. -/
theorem dataCall_of_regular (events : List PdpEvent) :
    Completes pdpInit (requested events)
        (after pdpStep pdpInit events, outputs pdpStep pdpInit events) ∧
      (Meets runStep Regular (pdpInit, historyInit) events →
        Along CallHistory.record Sound historyInit (outputs pdpStep pdpInit events)) := by
  refine ⟨completes_run pdpInit events, fun h => ?_⟩
  rw [← outputs_runStep]
  exact sound_of_regular h

/-- A request for IPv4 with UMTS. -/
def ipRequest (t : ℕ) : SetupRequest := ⟨t, 1, none, some "IP"⟩

/-- The modem starts a session, and is connected. -/
def connects : SetupWorld where
  radioOn := true
  isGobiOnly := false
  start := ⟨.none, 5, 0⟩
  state := ⟨some packetStateConnected, none⟩
  settings := some ⟨1, 2, 3, 4, fun _ => 0, fun _ => 0, fun _ => 0, fun _ => 0⟩
  dhcpStarts := true
  isSprint := false
  goDormant := true
  stop := .none

def dhcpAnswers : PollWorld := ⟨⟨some packetStateConnected, none⟩, true, .none⟩

/-- A call that is set up, listed and deactivated. -/
def shortCall : List PdpEvent :=
  [.setup (ipRequest 1) connects, .poll 0 dhcpAnswers, .contextList none dhcpAnswers.state,
    .deactivate (some 2) (some 1) .none]

theorem dataCall_of_regular_shortCall :
    Along CallHistory.record Sound historyInit (outputs pdpStep pdpInit shortCall) := by
  refine (dataCall_of_regular shortCall).2 ⟨?_, ?_, ?_, trivial, trivial⟩
  · exact ⟨by decide, by decide, by decide, fun h => absurd h (by decide)⟩
  · intro p hp
    obtain rfl := Option.some.inj hp
    exact fun _ => ⟨rfl, rfl⟩
  · exact fun _ _ => rfl

/-- The task of a call that was deactivated reports the next call. -/
def overtakenCall : List PdpEvent :=
  [.setup (ipRequest 1) connects, .deactivate (some 2) (some 1) .none,
    .setup (ipRequest 3) connects, .poll 0 dhcpAnswers]

theorem inactive_of_overtaken {h : CallHistory} {out : List PdpOut} {t : ℕ}
    {response : DataCallResponse} {failed : Bool} (hsound : Along CallHistory.record Sound h out)
    (hmem : .complete t response failed true ∈ out) : response.active = .inactive := by
  induction out generalizing h with
  | nil => exact absurd hmem List.not_mem_nil
  | cons o out ih =>
      rcases List.mem_cons.mp hmem with rfl | hmem
      · exact hsound.1.2.2 rfl
      · exact ih hsound.2 hmem

theorem not_dataCall :
    ¬∀ events, Along CallHistory.record Sound historyInit (outputs pdpStep pdpInit events) := by
  intro h
  have hreport : (outputs pdpStep pdpInit overtakenCall)[14]? = some
      (.complete 1 (after pdpStep pdpInit overtakenCall).rilPDPContextListRes false true) := rfl
  have hinactive := inactive_of_overtaken (h overtakenCall) (List.mem_of_getElem? hreport)
  have hactive : (after pdpStep pdpInit overtakenCall).rilPDPContextListRes.active =
      .activeLinkup := rfl
  rw [hinactive] at hactive
  exact RilSessionState.noConfusion hactive

end Runs

end DataCall

end Ril

end SierraSdk
