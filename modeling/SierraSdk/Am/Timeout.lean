import Mathlib.Data.Real.Basic
import SierraSdk.Library.TickTimer
import SierraSdk.Am.Task
import SierraSdk.Am.Api
import SierraSdk.Qm.Response

/-!
# The wait of an application and the timers of the daemon

An application gives a timeout in milliseconds with a request. It waits for a response for
`amapitimeout` milliseconds. In the daemon the request waits in the queue of the AM task, with a
timer of ticks of `AMTICKMS`, and with the ticks that are left QM waits for the modem, with a
timer of ticks of `QMTICKMS`. `SdkTime` says how long it can be until one of the two timers
answers the request.

The messages between the application and the tasks are taken to need no time.
-/

namespace SierraSdk

namespace Am

open Ci Qm TickTimer

/-- `QMTICKMS` -/
def qmTickMs : ℕ := 1000

section Definitions

/-- The request that the AM task receives when `amsendnwait` is called with QMI parameters. -/
def qmiRequest (parms : AmQmiRrParms) (qmimsg : List UInt8) (ipcchannel : CiRrChannel) :
    AmEvtBlock :=
  ⟨ambuildqmixactionheader parms AmMsgType.qmiRequest ++ qmimsg, ipcchannel, 0⟩

/-- What QM is passed when a request with `remaining` ticks on its timer is dispatched. -/
def AmEvtBlock.dispatchedParms (evt : AmEvtBlock) (remaining : UInt32) : AmQmiRrParms :=
  amparseqmixactionheader (amupdatetimeout (evt.amdata.drop amHeaderSz) remaining)

/-- The times, in milliseconds, after which the daemon answers a request that the modem does
not answer: the request waits in the queue until its timer fires, or `m` ticks pass, it is
dispatched before the next one, and the timer of QM fires. -/
inductive SdkTime (request : AmEvtBlock) : ℝ → Prop where
  | queued {evt : AmEvtBlock} (hevt : amreqinittmr request = some evt)
      {am : Clock (amTickMs.toNat : ℝ)} {k : ℤ} {start : ℝ} (hstart : am.Between k start)
      {n : ℕ} (hfires : FiresAfter AmEvtBlock.ticked (·.expiring = true) evt n) :
      SdkTime request (am.tick (k + (n + 1 : ℕ)) - start)
  | dispatched {evt : AmEvtBlock} (hevt : amreqinittmr request = some evt)
      {am : Clock (amTickMs.toNat : ℝ)} {k : ℤ} {start : ℝ} (hstart : am.Between k start)
      {m : ℕ} (hwaits : ∀ j < m, (AmEvtBlock.ticked^[j] evt).expiring = false)
      {instant : ℝ} (hle : start ≤ instant) (hdispatch : am.Between (k + m) instant)
      {s t : QmTcb} {ipcchan : UInt8}
      (hsaved : qmsaverespinfo s
        (evt.dispatchedParms (AmEvtBlock.ticked^[m] evt).ammdmwaittmr) ipcchan = some t)
      {qm : Clock (qmTickMs : ℝ)} {l : ℤ} (hqm : qm.Between l instant)
      {n : ℕ} (hfires : FiresAfter (fun s => (qmtick s).1) (fun s => (qmtick s).2 ≠ []) t n) :
      SdkTime request (qm.tick (l + (n + 1 : ℕ)) - start)

/-- None of the computations of the two waits wraps. -/
structure NoWrap (timeout : UInt32) : Prop where
  guard : amTimeGuard.toNat + timeout.toNat < 2 ^ 32
  cushion : amTimeGuard + timeout ≤ 10000 → (amTimeGuard + timeout).toNat * 2 < 2 ^ 32
  margin : ¬ amTimeGuard + timeout ≤ 10000 →
    (amTimeGuard + timeout).toNat + ((amTimeGuard + timeout) >>> 2).toNat < 2 ^ 32
  ticks : (timeout / amTickMs).toNat + 1 < 2 ^ 32
  remaining : ∀ ticks ≤ timeout / amTickMs + 1, ticks.toNat * amTickMs.toNat < 2 ^ 32
  resp : ∀ ticks ≤ timeout / amTickMs + 1, respTicks (ticks * amTickMs) < 2 ^ 32

end Definitions

section Timers

variable {parms : AmQmiRrParms} {qmimsg : List UInt8} {ipcchannel : CiRrChannel}

/-- The timeout that the AM task and QM find in a request is the one it was built with. -/
theorem amparseqmixactionheader_qmiRequest :
    (amparseqmixactionheader ((qmiRequest parms qmimsg ipcchannel).amdata.drop
      amHeaderSz)).amqmireqtimeout = parms.amqmireqtimeout := by
  have hfield := piget32_piput32 parms.amqmireqtimeout [parms.amqmisvctype]
    (piput16 parms.amqmixactionlen.toUInt16 ++ [parms.qmiinstanceid] ++ qmimsg)
  simpa [qmiRequest, ambuildqmixactionheader, ambuildamheader, amparseqmixactionheader, piput16,
    piput32, amHeaderSz] using hfield

theorem dispatchedParms_amqmireqtimeout (evt : AmEvtBlock) (remaining : UInt32) :
    (evt.dispatchedParms remaining).amqmireqtimeout = remaining * amTickMs := by
  apply piget32_piput32 (remaining * amTickMs) [(evt.amdata.drop amHeaderSz).getD 0 0]

theorem amreqinittmr_qmiRequest (h : parms.amqmireqtimeout ≠ 0) :
    amreqinittmr (qmiRequest parms qmimsg ipcchannel) =
      some { qmiRequest parms qmimsg ipcchannel with
        ammdmwaittmr := parms.amqmireqtimeout / amTickMs + 1 } := by
  simp only [amreqinittmr, amparseqmixactionheader_qmiRequest, if_neg h]

/-- The timer of a queued request counts down. -/
theorem ticked_ammdmwaittmr (evt : AmEvtBlock) :
    evt.ticked.ammdmwaittmr.toNat = evt.ammdmwaittmr.toNat - 1 := by
  simp only [AmEvtBlock.ticked]
  by_cases hzero : evt.ammdmwaittmr = 0
  · rw [if_neg (not_not.mpr hzero), hzero, UInt32.toNat_zero]
  · have hpos : evt.ammdmwaittmr.toNat ≠ 0 := fun h => hzero (UInt32.toNat_inj.mp h)
    rw [if_pos hzero]
    apply UInt32.toNat_sub_of_le
    rw [UInt32.le_iff_toNat_le, UInt32.toNat_one]
    exact Nat.one_le_iff_ne_zero.mpr hpos

theorem expiring_iff (evt : AmEvtBlock) :
    evt.expiring = true ↔ evt.ammdmwaittmr.toNat = 1 := by
  have hone : evt.ammdmwaittmr - 1 = 0 ↔ evt.ammdmwaittmr = 1 := by
    constructor
    · intro h
      rw [← UInt32.sub_add_cancel evt.ammdmwaittmr 1, h, UInt32.zero_add]
    · intro h
      rw [h, UInt32.sub_self]
  rw [AmEvtBlock.expiring, decide_eq_true_eq, hone]
  constructor
  · rintro ⟨-, h⟩
    rw [h, UInt32.toNat_one]
  · intro h
    have heq : evt.ammdmwaittmr = 1 := UInt32.toNat_inj.mp h
    rw [heq]
    decide

/-- A queued request runs out of time with the last of its ticks. -/
theorem expiring_iterate_iff (evt : AmEvtBlock) (n : ℕ) :
    (AmEvtBlock.ticked^[n] evt).expiring = true ↔ evt.ammdmwaittmr.toNat = n + 1 :=
  fires_iterate_iff (fun evt : AmEvtBlock => evt.ammdmwaittmr.toNat) ticked_ammdmwaittmr
    expiring_iff evt n

/-- The timer of QM counts down. -/
theorem qmtick_qmmdmwaittmr (s : QmTcb) :
    (qmtick s).1.qmmdmwaittmr = s.qmmdmwaittmr - 1 := by
  simp only [qmtick]
  split_ifs with hzero hone
  · rw [hzero]
  · exact hone.symm
  · rfl

theorem qmtick_ne_nil_iff (s : QmTcb) : (qmtick s).2 ≠ [] ↔ s.qmmdmwaittmr = 1 := by
  simp only [qmtick]
  split_ifs with hzero hone
  · simp [hzero]
  · simp only [qmshortresp, ne_eq, List.cons_ne_nil, not_false_eq_true, true_iff]
    omega
  · simp only [ne_eq, not_true_eq_false, false_iff]
    omega

end Timers

section Words

variable {timeout : UInt32}

theorem toNat_ticks (timeout : UInt32) :
    (timeout / amTickMs + 1).toNat = timeout.toNat / 100 + 1 := by
  have hlt : timeout.toNat < 2 ^ 32 := timeout.toNat_lt
  have hticks : amTickMs.toNat = 100 := rfl
  rw [UInt32.toNat_add, UInt32.toNat_div, UInt32.toNat_one, hticks]
  omega

theorem toNat_guard (hle : timeout.toNat ≤ 3435972836) :
    (amTimeGuard + timeout).toNat = 1000 + timeout.toNat := by
  have hguard : amTimeGuard.toNat = 1000 := rfl
  rw [UInt32.toNat_add, hguard]
  omega

theorem guard_le_iff (hle : timeout.toNat ≤ 3435972836) :
    amTimeGuard + timeout ≤ 10000 ↔ timeout.toNat ≤ 9000 := by
  have hlimit : (10000 : UInt32).toNat = 10000 := rfl
  rw [UInt32.le_iff_toNat_le, toNat_guard hle, hlimit]
  omega

theorem toNat_margin (value : UInt32) : (value >>> 2).toNat = value.toNat / 4 := by
  rw [UInt32.toNat_shiftRight, Nat.shiftRight_eq_div_pow]
  rfl

/-- A short timeout is doubled and a long one grows by a quarter, each after the guard. -/
theorem toNat_amapitimeout (hne : timeout ≠ 0) (hle : timeout.toNat ≤ 3435972836) :
    (amapitimeout timeout).toNat =
      if timeout.toNat ≤ 9000 then (1000 + timeout.toNat) * 2
      else (1000 + timeout.toNat) + (1000 + timeout.toNat) / 4 := by
  simp only [amapitimeout, if_pos hne, guard_le_iff hle]
  split_ifs with h
  · have htwo : (1 : UInt32).toNat % 32 = 1 := rfl
    rw [UInt32.toNat_shiftLeft, toNat_guard hle, htwo, Nat.shiftLeft_eq]
    omega
  · rw [UInt32.toNat_add, toNat_margin, toNat_guard hle]
    omega

/-- The computations of the two waits do not wrap up to this timeout. -/
theorem noWrap_iff : NoWrap timeout ↔ timeout.toNat ≤ 3435972836 := by
  have hguard : amTimeGuard.toNat = 1000 := rfl
  have htick : amTickMs.toNat = 100 := rfl
  constructor
  · intro h
    have hsum : (amTimeGuard + timeout).toNat = 1000 + timeout.toNat := by
      have := h.guard
      rw [UInt32.toNat_add, hguard]
      omega
    by_cases hshort : amTimeGuard + timeout ≤ 10000
    · rw [UInt32.le_iff_toNat_le, hsum] at hshort
      have hlimit : (10000 : UInt32).toNat = 10000 := rfl
      omega
    · have hmargin := h.margin hshort
      rw [toNat_margin, hsum] at hmargin
      omega
  · intro hle
    have hticks : ∀ ticks ≤ timeout / amTickMs + 1, ticks.toNat ≤ timeout.toNat / 100 + 1 := by
      intro ticks hticks
      rw [← toNat_ticks]
      exact UInt32.le_iff_toNat_le.mp hticks
    refine ⟨by omega, fun hshort => ?_, fun _ => ?_, ?_, fun ticks h => ?_, fun ticks h => ?_⟩
    · rw [guard_le_iff hle] at hshort
      rw [toNat_guard hle]
      omega
    · rw [toNat_margin, toNat_guard hle]
      omega
    · rw [UInt32.toNat_div, htick]
      omega
    · have hle := hticks ticks h
      rw [htick]
      omega
    · have hlt := (ticks * amTickMs).toNat_lt
      unfold respTicks
      split_ifs <;> omega

end Words

section Bounds

variable {parms : AmQmiRrParms} {qmimsg : List UInt8} {ipcchannel : CiRrChannel}

/-- The ticks that QM waits for the answer to a request, from the ticks left on its timer. -/
theorem respTicks_remaining {remaining : UInt32} (hpos : remaining.toNat ≠ 0)
    (hwrap : remaining.toNat * amTickMs.toNat < 2 ^ 32) :
    respTicks (remaining * amTickMs) = max 1 (remaining.toNat / 10) + 2 := by
  have htick : amTickMs.toNat = 100 := rfl
  rw [htick] at hwrap
  have hms : (remaining * amTickMs).toNat = remaining.toNat * 100 := by
    rw [UInt32.toNat_mul, htick]
    exact Nat.mod_eq_of_lt hwrap
  have hne : remaining * amTickMs ≠ 0 := by
    intro h
    rw [h, UInt32.toNat_zero] at hms
    omega
  rw [respTicks, if_neg hne, hms]
  omega

/-- The timer with which a request is recorded fires after its ticks. -/
theorem qmsaverespinfo_firesAfter {s t : QmTcb} {parms : AmQmiRrParms} {ipcchan : UInt8}
    (h : qmsaverespinfo s parms ipcchan = some t) (n : ℕ) :
    FiresAfter (fun s => (qmtick s).1) (fun s => (qmtick s).2 ≠ []) t n ↔
      respTicks parms.amqmireqtimeout = n + 1 := by
  obtain ⟨-, ⟨⟩⟩ := Option.ite_none_left_eq_some.mp h
  exact firesAfter_iff QmTcb.qmmdmwaittmr qmtick_qmmdmwaittmr qmtick_ne_nil_iff _ n

/-- A request that has waited for some ticks without running out of time has the others left. -/
theorem toNat_remaining {evt : AmEvtBlock} {m : ℕ}
    (hpos : evt.ammdmwaittmr.toNat ≠ 0)
    (hwaits : ∀ j < m, (AmEvtBlock.ticked^[j] evt).expiring = false) :
    m < evt.ammdmwaittmr.toNat ∧
      (AmEvtBlock.ticked^[m] evt).ammdmwaittmr.toNat = evt.ammdmwaittmr.toNat - m := by
  refine ⟨?_, count_iterate (fun evt : AmEvtBlock => evt.ammdmwaittmr.toNat)
    ticked_ammdmwaittmr evt m⟩
  by_contra hlt
  have hlast := hwaits (evt.ammdmwaittmr.toNat - 1) (by omega)
  have hfires := (expiring_iterate_iff evt (evt.ammdmwaittmr.toNat - 1)).mpr (by omega)
  rw [hlast] at hfires
  cases hfires

/-- The ticks of QM and those spent in the queue, when `m` of `ticks` have passed there. -/
theorem ticks_le {ticks m : ℕ} (hm : m < ticks) :
    (max 1 ((ticks - m) / 10) + 2) * 1000 + (m + 1) * 100 ≤ ticks * 100 + 3000 := by
  omega

theorem ammdmwaittmr_of_amreqinittmr (hne : parms.amqmireqtimeout ≠ 0) {evt : AmEvtBlock}
    (hevt : amreqinittmr (qmiRequest parms qmimsg ipcchannel) = some evt) :
    evt.ammdmwaittmr = parms.amqmireqtimeout / amTickMs + 1 := by
  rw [amreqinittmr_qmiRequest hne] at hevt
  exact congrArg AmEvtBlock.ammdmwaittmr (Option.some.inj hevt).symm

/-- The daemon answers a request within the ticks of the AM timer and three ticks of QM. -/
theorem SdkTime.le (hne : parms.amqmireqtimeout ≠ 0) (hwrap : NoWrap parms.amqmireqtimeout)
    {d : ℝ} (h : SdkTime (qmiRequest parms qmimsg ipcchannel) d) :
    d ≤ (parms.amqmireqtimeout.toNat / 100 * 100 + 3100 : ℕ) := by
  have htick : amTickMs.toNat = 100 := rfl
  cases h with
  | @queued evt hevt am k start hstart n hfires =>
      have hcount := (expiring_iterate_iff evt n).mp hfires.1
      rw [ammdmwaittmr_of_amreqinittmr hne hevt, toNat_ticks] at hcount
      calc am.tick (k + (n + 1 : ℕ)) - start ≤ (n + 1) • (amTickMs.toNat : ℝ) :=
            hstart.tick_sub_le (n + 1)
        _ = ((n + 1) * 100 : ℕ) := by rw [htick, nsmul_eq_mul, Nat.cast_mul]
        _ ≤ _ := Nat.cast_le.mpr (by omega)
  | @dispatched evt hevt am k start hstart m hwaits instant hle hdispatch s t ipcchan hsaved qm l
      hqm n hfires =>
      have htimer := ammdmwaittmr_of_amreqinittmr hne hevt
      have hticks : evt.ammdmwaittmr.toNat = parms.amqmireqtimeout.toNat / 100 + 1 := by
        rw [htimer, toNat_ticks]
      obtain ⟨hm, hremaining⟩ := toNat_remaining (by omega) hwaits
      have hless : (AmEvtBlock.ticked^[m] evt).ammdmwaittmr ≤
          parms.amqmireqtimeout / amTickMs + 1 := by
        rw [← htimer, UInt32.le_iff_toNat_le, hremaining]
        exact Nat.sub_le _ _
      rw [qmsaverespinfo_firesAfter hsaved, dispatchedParms_amqmireqtimeout,
        respTicks_remaining (by omega) (hwrap.remaining _ hless), hremaining] at hfires
      have hqueue := hstart.sub_le hdispatch
      have hresp := hqm.tick_sub_le (n + 1)
      calc qm.tick (l + (n + 1 : ℕ)) - start
          = (qm.tick (l + (n + 1 : ℕ)) - instant) + (instant - start) :=
            (sub_add_sub_cancel _ _ _).symm
        _ ≤ (n + 1) • (qmTickMs : ℝ) + (m + 1) • (amTickMs.toNat : ℝ) := add_le_add hresp hqueue
        _ = ((n + 1) * 1000 + (m + 1) * 100 : ℕ) := by
            rw [htick, nsmul_eq_mul, nsmul_eq_mul, ← Nat.cast_mul, ← Nat.cast_mul, ← Nat.cast_add,
              qmTickMs]
        _ ≤ _ := Nat.cast_le.mpr (by
            have hticks_le := ticks_le hm
            rw [hfires] at hticks_le
            omega)

/-- It can take as long as that: the request is received at a tick, it is dispatched just before
its last one, and QM starts its timer at a tick. -/
theorem sdkTime_longest (hne : parms.amqmireqtimeout ≠ 0) :
    SdkTime (qmiRequest parms qmimsg ipcchannel)
      (parms.amqmireqtimeout.toNat / 100 * 100 + 3100 : ℕ) := by
  have htick : amTickMs.toNat = 100 := rfl
  set m := parms.amqmireqtimeout.toNat / 100
  set evt := { qmiRequest parms qmimsg ipcchannel with
    ammdmwaittmr := parms.amqmireqtimeout / amTickMs + 1 }
  have hevt : amreqinittmr (qmiRequest parms qmimsg ipcchannel) = some evt :=
    amreqinittmr_qmiRequest hne
  have hticks : evt.ammdmwaittmr.toNat = m + 1 := toNat_ticks parms.amqmireqtimeout
  have hwaits : ∀ j < m, (AmEvtBlock.ticked^[j] evt).expiring = false := by
    intro j hj
    rw [Bool.eq_false_iff, ne_eq, expiring_iterate_iff, hticks]
    omega
  have hremaining : (AmEvtBlock.ticked^[m] evt).ammdmwaittmr = 1 := by
    apply UInt32.toNat_inj.mp
    rw [(toNat_remaining (by omega) hwaits).2, hticks, UInt32.toNat_one]
    omega
  let am : Clock (amTickMs.toNat : ℝ) := ⟨0⟩
  let qm : Clock (qmTickMs : ℝ) := ⟨am.tick (m + 1)⟩
  have hdispatch : am.Between (0 + m) (am.tick (m + 1)) := by
    rw [zero_add]
    exact am.between_tick_succ (Nat.cast_nonneg _) m
  have hqm : qm.Between 0 (am.tick (m + 1)) := by
    have hstarted := qm.between_tick (Nat.cast_nonneg _) 0
    rwa [Clock.tick_zero] at hstarted
  have hlast : am.tick (m + 1) = ((m + 1) * 100 : ℕ) := by
    have hcount := am.tick_add_natCast 0 (m + 1)
    rw [zero_add, Clock.tick_zero, zero_add, nsmul_eq_mul, ← Nat.cast_mul] at hcount
    rw [← Nat.cast_one, ← Nat.cast_add, ← htick, ← hcount]
  have hle : am.tick 0 ≤ am.tick (m + 1) := by
    rw [hlast, Clock.tick_zero]
    exact Nat.cast_nonneg _
  obtain ⟨t, hsaved⟩ : ∃ t, qmsaverespinfo qminit
      (evt.dispatchedParms (AmEvtBlock.ticked^[m] evt).ammdmwaittmr) 0 = some t := ⟨_, rfl⟩
  have hfires : FiresAfter (fun s => (qmtick s).1) (fun s => (qmtick s).2 ≠ []) t 2 := by
    rw [qmsaverespinfo_firesAfter hsaved, dispatchedParms_amqmireqtimeout, hremaining]
    rfl
  have htime : ((m * 100 + 3100 : ℕ) : ℝ) = qm.tick (0 + (2 + 1 : ℕ)) - am.tick 0 := by
    have hstart : am.phase = 0 := rfl
    have hstarted : qm.phase = am.tick (m + 1) := rfl
    rw [Clock.tick_add_natCast, Clock.tick_zero, Clock.tick_zero, hstart, hstarted, hlast, sub_zero,
      nsmul_eq_mul, qmTickMs, ← Nat.cast_mul, ← Nat.cast_add]
    congr 1
    omega
  rw [htime]
  exact .dispatched hevt (am.between_tick (Nat.cast_nonneg _) 0) hwaits hle hdispatch hsaved hqm
    hfires

end Bounds

/-- The application waits longer than the daemon can take for the timeouts in two ranges. -/
theorem outlasts_iff (parms : AmQmiRrParms) (hne : parms.amqmireqtimeout ≠ 0)
    (qmimsg : List UInt8) (ipcchannel : CiRrChannel) :
    (NoWrap parms.amqmireqtimeout ∧ ∀ d, SdkTime (qmiRequest parms qmimsg ipcchannel) d →
        d < (amapitimeout parms.amqmireqtimeout).toNat) ↔
      (1051 ≤ parms.amqmireqtimeout.toNat ∧ parms.amqmireqtimeout.toNat ≤ 1099) ∨
        (1101 ≤ parms.amqmireqtimeout.toNat ∧ parms.amqmireqtimeout.toNat ≤ 3435972836) := by
  have hlongest : NoWrap parms.amqmireqtimeout →
      ((∀ d, SdkTime (qmiRequest parms qmimsg ipcchannel) d →
          d < (amapitimeout parms.amqmireqtimeout).toNat) ↔
        parms.amqmireqtimeout.toNat / 100 * 100 + 3100 <
          (amapitimeout parms.amqmireqtimeout).toNat) := by
    intro hwrap
    constructor
    · intro h
      exact_mod_cast h _ (sdkTime_longest hne)
    · intro h d hd
      exact (hd.le hne hwrap).trans_lt (by exact_mod_cast h)
  rw [and_congr_right_iff.mpr hlongest, noWrap_iff]
  constructor
  · rintro ⟨hle, hlt⟩
    rw [toNat_amapitimeout hne hle] at hlt
    split_ifs at hlt <;> omega
  · intro h
    have hle : parms.amqmireqtimeout.toNat ≤ 3435972836 := by omega
    rw [toNat_amapitimeout hne hle]
    refine ⟨hle, ?_⟩
    split_ifs <;> omega

/-- With a timeout of two seconds the application waits long enough. -/
theorem outlasts_twoSeconds :
    NoWrap 2000 ∧ ∀ d, SdkTime (qmiRequest ⟨EQCWWANError.none, 4, 2000, 2, 0⟩ (qmiMessage 0x20)
      firstRr) d → d < (amapitimeout 2000).toNat :=
  (outlasts_iff ⟨EQCWWANError.none, 4, 2000, 2, 0⟩ (by decide) (qmiMessage 0x20) firstRr).mpr
    (.inr ⟨by decide, by decide⟩)

/-- With a timeout of a second the application waits for four seconds, and the daemon can take
a tenth of a second longer. -/
theorem not_outlasts_second :
    ¬ ∀ d, SdkTime (qmiRequest ⟨EQCWWANError.none, 4, 1000, 2, 0⟩ (qmiMessage 0x20) firstRr) d →
      d < (amapitimeout 1000).toNat := by
  intro h
  have hlt := h _ (sdkTime_longest (by decide))
  revert hlt
  rw [Nat.cast_lt]
  decide

end Am

end SierraSdk
