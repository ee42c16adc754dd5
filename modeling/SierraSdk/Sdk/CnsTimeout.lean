import Mathlib.Data.Real.Basic
import SierraSdk.Library.TickTimer
import SierraSdk.Sdk.CnsTask

/-!
# The wait of an application and the timer of the CnS task

An application gives a timeout in milliseconds with a request. It waits for a response for
`amapiwait` milliseconds, which are stored in sixteen bits; the CnS task waits for the modem with a
timer of ticks of `ICTTTICK`. `CnSdkTime` says how long it can be until the timer answers the
request.

The messages between the application and the task are taken to need no time.
-/

namespace SierraSdk

namespace Sdk

open TickTimer

section Definitions

/-- `AMTIMEGUARD` -/
def amTimeGuard : ℕ := 1000

/-- The time that `amsendnwait` waits, in milliseconds: the sum is shifted as an `int` and stored in
the timeout that it was computed from. A wait of zero has no end. -/
def amapiwait (amtimeout : UInt16) : UInt16 :=
  if amtimeout ≠ 0 then UInt16.ofNat ((amTimeGuard + amtimeout.toNat) <<< 2) else amtimeout

/-- The application still waits when its request was sent `d` milliseconds ago. -/
def ApiWaits (amtimeout : UInt16) (d : ℝ) : Prop :=
  amapiwait amtimeout = 0 ∨ d < (amapiwait amtimeout).toNat

/-- The times, in milliseconds, after which the task answers a request that the modem does not
answer: it records the request between two ticks, and its timer runs out with a later one. -/
inductive CnSdkTime (amtimeout : UInt16) : ℝ → Prop where
  | timeout {s t : CnRrTcb} {cnsobjid : UInt16} {cnsoperation : UInt8} {cnsparameter : UInt32}
      (hsaved : cnsSaveRespInfo s cnsobjid cnsoperation amtimeout.toNat cnsparameter = some t)
      {clock : Clock (icttTick : ℝ)} {k : ℤ} {start : ℝ} (hstart : clock.Between k start) {n : ℕ}
      (hfires : FiresAfter (fun s => (cntick s).1)
        (fun s => (cntick s).2 = cnShortResp AmResult.timeout s.cnswdata.cnsipcchannel) t n) :
      CnSdkTime amtimeout (clock.tick (k + (n + 1 : ℕ)) - start)

/-- Neither of the two computations wraps in the width that its result is stored in. -/
structure WaitsFit (amtimeout : UInt16) : Prop where
  wait : (amTimeGuard + amtimeout.toNat) <<< 2 < 2 ^ 16
  ticks : amtimeout.toNat / icttTick + 1 < 2 ^ 32

end Definitions

section Timer

variable {amtimeout : UInt16}

/-- The timer of the task counts down. -/
theorem cntick_cnmdmwaittmr (s : CnRrTcb) :
    (cntick s).1.cnmdmwaittmr = s.cnmdmwaittmr - 1 := by
  simp only [cntick]
  split_ifs with hzero hone
  · rw [hzero]
  · exact hone.symm
  · rfl

theorem cntick_timeout_iff (s : CnRrTcb) :
    (cntick s).2 = cnShortResp AmResult.timeout s.cnswdata.cnsipcchannel ↔
      s.cnmdmwaittmr = 1 := by
  simp only [cntick]
  split_ifs with hzero hone
  · simp [cnShortResp, hzero]
  · simp only [cnmdmtimeout, true_iff]
    omega
  · simp only [cnShortResp, List.nil_eq, List.cons_ne_nil, false_iff]
    omega

/-- The timer with which a request is recorded fires after its ticks. -/
theorem cnsSaveRespInfo_firesAfter {s t : CnRrTcb} {cnsobjid : UInt16} {cnsoperation : UInt8}
    {timeout : ℕ} {cnsparameter : UInt32}
    (h : cnsSaveRespInfo s cnsobjid cnsoperation timeout cnsparameter = some t) (n : ℕ) :
    FiresAfter (fun s => (cntick s).1)
        (fun s => (cntick s).2 = cnShortResp AmResult.timeout s.cnswdata.cnsipcchannel) t n ↔
      timeout / icttTick = n := by
  obtain ⟨-, hsaved⟩ := Option.ite_none_left_eq_some.mp h
  obtain ⟨expectedop, -, rfl⟩ := Option.map_eq_some_iff.mp hsaved
  rw [firesAfter_iff CnRrTcb.cnmdmwaittmr cntick_cnmdmwaittmr cntick_timeout_iff]
  exact Nat.add_right_cancel_iff

/-- The task answers within the ticks of its timer. -/
theorem CnSdkTime.le {d : ℝ} (h : CnSdkTime amtimeout d) :
    d ≤ ((amtimeout.toNat / 100 + 1) * 100 : ℕ) := by
  obtain ⟨hsaved, hstart, hfires⟩ := h
  rename_i clock k start n
  have hcount : amtimeout.toNat / 100 = n := (cnsSaveRespInfo_firesAfter hsaved n).mp hfires
  calc clock.tick (k + (n + 1 : ℕ)) - start ≤ (n + 1) • (icttTick : ℝ) :=
        hstart.tick_sub_le (n + 1)
    _ = ((n + 1) * 100 : ℕ) := by rw [nsmul_eq_mul, Nat.cast_mul, icttTick]
    _ = _ := by rw [hcount]

/-- It takes as long as that if the request is recorded at a tick. -/
theorem cnSdkTime_longest (amtimeout : UInt16) :
    CnSdkTime amtimeout ((amtimeout.toNat / 100 + 1) * 100 : ℕ) := by
  obtain ⟨t, hsaved⟩ : ∃ t, cnsSaveRespInfo cninit 0x1000 0x01 amtimeout.toNat 0 = some t :=
    ⟨_, rfl⟩
  have hfires := (cnsSaveRespInfo_firesAfter hsaved (amtimeout.toNat / 100)).mpr rfl
  let clock : Clock (icttTick : ℝ) := ⟨0⟩
  have htime : (((amtimeout.toNat / 100 + 1) * 100 : ℕ) : ℝ) =
      clock.tick (0 + (amtimeout.toNat / 100 + 1 : ℕ)) - clock.tick 0 := by
    rw [Clock.tick_add_natCast, add_sub_cancel_left, nsmul_eq_mul, icttTick, Nat.cast_mul]
  rw [htime]
  exact .timeout hsaved (clock.between_tick (Nat.cast_nonneg _) 0) hfires

end Timer

/-- The computations fit up to this timeout. -/
theorem waitsFit_iff (amtimeout : UInt16) : WaitsFit amtimeout ↔ amtimeout.toNat ≤ 15383 := by
  have hshift : (amTimeGuard + amtimeout.toNat) <<< 2 = (1000 + amtimeout.toNat) * 4 :=
    Nat.shiftLeft_eq _ 2
  have hlt := amtimeout.toNat_lt
  constructor
  · intro h
    have hwait := h.wait
    omega
  · intro hle
    refine ⟨by omega, ?_⟩
    rw [icttTick]
    omega

/-- The wait of a timeout for which it fits. -/
theorem toNat_amapiwait {amtimeout : UInt16} (hne : amtimeout ≠ 0) (h : WaitsFit amtimeout) :
    (amapiwait amtimeout).toNat = (1000 + amtimeout.toNat) * 4 := by
  rw [amapiwait, if_pos hne, UInt16.toNat_ofNat_of_lt' h.wait]
  exact Nat.shiftLeft_eq _ 2

/-- The application waits longer than the task, and no computation wraps, up to a timeout of
fifteen seconds and some. -/
theorem apiOutlasts_iff (amtimeout : UInt16) (hne : amtimeout ≠ 0) :
    (WaitsFit amtimeout ∧ ∀ d, CnSdkTime amtimeout d → ApiWaits amtimeout d) ↔
      amtimeout.toNat ≤ 15383 := by
  rw [← waitsFit_iff]
  constructor
  · exact fun h => h.1
  · intro hfit
    refine ⟨hfit, fun d hd => .inr ?_⟩
    rw [toNat_amapiwait hne hfit]
    exact hd.le.trans_lt (Nat.cast_lt.mpr (by omega))

/-- With a timeout of two seconds the application waits long enough. -/
theorem apiOutlasts_twoSeconds :
    WaitsFit 2000 ∧ ∀ d, CnSdkTime 2000 d → ApiWaits 2000 d :=
  (apiOutlasts_iff 2000 (by decide)).mpr (by decide)

/-- With a timeout of sixteen seconds the application waits for less than two and a half, and the
task for more than sixteen. -/
theorem not_apiOutlasts_sixteenSeconds :
    ¬ (WaitsFit 16000 ∧ ∀ d, CnSdkTime 16000 d → ApiWaits 16000 d) ∧
      ¬ ∀ d, CnSdkTime 16000 d → ApiWaits 16000 d := by
  have hearly : ¬ ∀ d, CnSdkTime 16000 d → ApiWaits 16000 d := by
    intro h
    rcases h _ (cnSdkTime_longest 16000) with hzero | hlt
    · exact absurd hzero (by decide)
    · rw [Nat.cast_lt] at hlt
      exact absurd hlt (by decide)
  exact ⟨fun h => hearly h.2, hearly⟩

end Sdk

end SierraSdk
