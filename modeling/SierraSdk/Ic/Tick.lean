import Mathlib.Logic.Function.Iterate
import SierraSdk.Library.Machine

/-!
# The tick service

A task registers its message queue with `ictttickreg` for a message every so many milliseconds. The
tick task wakes up every hundred milliseconds, counts down the registered queues and sends the
message where the count is zero. The counts are in the control blocks of the queues.

Whether the message is sent depends on the queue: where it is the last one still, it is left there.
A tick is given what the queues hold last. Registrations and ticks do not overlap here.
-/

namespace SierraSdk

namespace Ic

open Machine

/-- `ICTTTICK`, in milliseconds. -/
def ictttick : UInt32 := 100

/-- The counts in the control block of a queue. -/
structure TickCount where
  mstimeout : UInt32
  msrunttime : UInt32
  deriving DecidableEq

/-- A registration block. The queue is given by a number for its address. -/
structure Registration where
  icsmtp : ℕ
  tickmsg : UInt32
  deriving DecidableEq

/-- The registered blocks, and the counts of the queues. -/
structure TickService where
  regqueue : List Registration
  counts : ℕ → TickCount

/-- A queue has its message: it was sent, or it is the last one still. -/
structure Notified where
  icsmtp : ℕ
  tickmsg : UInt32
  sent : Bool
  deriving DecidableEq

/-- `ictttickreg` -/
def ictttickreg (s : TickService) (icsmtp : ℕ) (tickmsg mstimeout : UInt32) : TickService :=
  let mstimeout := if mstimeout < ictttick then ictttick else mstimeout
  { regqueue := s.regqueue ++ [⟨icsmtp, tickmsg⟩]
    counts := Function.update s.counts icsmtp ⟨mstimeout, mstimeout⟩ }

/-- A queue is counted down, and starts again at zero. -/
def countDown (pt : TickCount) : TickCount × Bool :=
  let msrunttime := if pt.mstimeout ≠ 0 then pt.msrunttime - ictttick else pt.msrunttime
  if msrunttime = 0 then ({ pt with msrunttime := pt.mstimeout }, true)
  else ({ pt with msrunttime := msrunttime }, false)

/-- The loop through the registered blocks; `last` are the messages that the queues hold last. -/
def tickLoop : List Registration → (ℕ → TickCount) → (ℕ → Option UInt32) →
    (ℕ → TickCount) × List Notified
  | [], counts, _ => (counts, [])
  | regblk :: rest, counts, last =>
      let pt := countDown (counts regblk.icsmtp)
      let counts := Function.update counts regblk.icsmtp pt.1
      if pt.2 then
        let next := tickLoop rest counts
          (Function.update last regblk.icsmtp (some regblk.tickmsg))
        (next.1, ⟨regblk.icsmtp, regblk.tickmsg, last regblk.icsmtp ≠ some regblk.tickmsg⟩ :: next.2)
      else tickLoop rest counts last

/-- What happens to the service. -/
inductive TickInput
  | register (icsmtp : ℕ) (tickmsg mstimeout : UInt32)
  | tick (last : ℕ → Option UInt32)

/-- `ictttask` and the calls of `ictttickreg`. -/
def tickStep (s : TickService) : TickInput → TickService × List Notified
  | .register icsmtp tickmsg mstimeout => (ictttickreg s icsmtp tickmsg mstimeout, [])
  | .tick last =>
      let r := tickLoop s.regqueue s.counts last
      ({ s with counts := r.1 }, r.2)

section Statements

/-- The interval in milliseconds, which is a tick at least. -/
def interval (mstimeout : UInt32) : ℕ := max mstimeout.toNat ictttick.toNat

/-- An interval rounded to ticks, up or down. -/
def Rounds (mstimeout : UInt32) (ticks : ℕ) : Prop :=
  ticks = interval mstimeout / ictttick.toNat ∨
    ticks = (interval mstimeout + (ictttick.toNat - 1)) / ictttick.toNat

/-- The number of ticks among inputs. -/
def tickCount (is : List TickInput) : ℕ :=
  is.countP fun
    | .tick _ => true
    | .register _ _ _ => false

/-- An input does not register the queue. -/
def TickInput.NotOf (icsmtp : ℕ) : TickInput → Prop
  | .register icsmtp' _ _ => icsmtp' ≠ icsmtp
  | .tick _ => True

/-- The queue has its message after every so many ticks, once, and not at the other ticks. -/
def Regular (s : TickService) (icsmtp : ℕ) (tickmsg : UInt32) (ticks : ℕ) : Prop :=
  ∀ (is : List TickInput) (last : ℕ → Option UInt32), (∀ i ∈ is, i.NotOf icsmtp) →
    (tickStep (after tickStep s is) (.tick last)).2.filter (fun n => n.icsmtp = icsmtp) =
      if ticks ∣ tickCount is + 1 then [⟨icsmtp, tickmsg, last icsmtp ≠ some tickmsg⟩] else []

end Statements

section Loop

variable {icsmtp : ℕ} {tickmsg : UInt32}

/-- Other registrations leave the queue alone. -/
theorem tickLoop_of_not_mem {regqueue : List Registration}
    (h : ∀ r ∈ regqueue, r.icsmtp ≠ icsmtp) (counts : ℕ → TickCount) (last : ℕ → Option UInt32) :
    (tickLoop regqueue counts last).1 icsmtp = counts icsmtp ∧
      (tickLoop regqueue counts last).2.filter (fun n => n.icsmtp = icsmtp) = [] := by
  induction regqueue generalizing counts last with
  | nil => exact ⟨rfl, rfl⟩
  | cons r rest ih =>
      obtain ⟨hr, hrest⟩ := List.forall_mem_cons.mp h
      rw [tickLoop]
      dsimp only
      split_ifs with hfired
      · obtain ⟨hcounts, hevents⟩ := ih hrest _ _
        refine ⟨hcounts.trans (Function.update_of_ne hr.symm _ _), ?_⟩
        rw [List.filter_cons_of_neg (by simpa using hr), hevents]
      · obtain ⟨hcounts, hevents⟩ := ih hrest _ _
        exact ⟨hcounts.trans (Function.update_of_ne hr.symm _ _), hevents⟩

/-- A queue that is registered once is counted down once, and notified if its count is zero. -/
theorem tickLoop_once {before behind : List Registration} (hbefore : ∀ r ∈ before, r.icsmtp ≠ icsmtp)
    (hbehind : ∀ r ∈ behind, r.icsmtp ≠ icsmtp) (counts : ℕ → TickCount)
    (last : ℕ → Option UInt32) :
    (tickLoop (before ++ ⟨icsmtp, tickmsg⟩ :: behind) counts last).1 icsmtp =
        (countDown (counts icsmtp)).1 ∧
      (tickLoop (before ++ ⟨icsmtp, tickmsg⟩ :: behind) counts last).2.filter
          (fun n => n.icsmtp = icsmtp) =
        if (countDown (counts icsmtp)).2 then [⟨icsmtp, tickmsg, last icsmtp ≠ some tickmsg⟩]
        else [] := by
  induction before generalizing counts last with
  | nil =>
      rw [List.nil_append, tickLoop]
      dsimp only
      split_ifs with hfired
      · obtain ⟨hcounts, hevents⟩ := tickLoop_of_not_mem hbehind
          (Function.update counts icsmtp (countDown (counts icsmtp)).1)
          (Function.update last icsmtp (some tickmsg))
        refine ⟨hcounts.trans (Function.update_self _ _ _), ?_⟩
        rw [List.filter_cons_of_pos (by simp), hevents]
      · obtain ⟨hcounts, hevents⟩ := tickLoop_of_not_mem hbehind
          (Function.update counts icsmtp (countDown (counts icsmtp)).1) last
        exact ⟨hcounts.trans (Function.update_self _ _ _), hevents⟩
  | cons r before ih =>
      obtain ⟨hr, hrest⟩ := List.forall_mem_cons.mp hbefore
      rw [List.cons_append, tickLoop]
      dsimp only
      by_cases hfired : (countDown (counts r.icsmtp)).2 = true
      · obtain ⟨hcounts, hevents⟩ := ih hrest (Function.update counts r.icsmtp
          (countDown (counts r.icsmtp)).1) (Function.update last r.icsmtp (some r.tickmsg))
        rw [Function.update_of_ne hr.symm] at hcounts hevents
        rw [Function.update_of_ne hr.symm] at hevents
        simp only [if_pos hfired]
        exact ⟨hcounts, by rw [List.filter_cons_of_neg (by simpa using hr), hevents]⟩
      · obtain ⟨hcounts, hevents⟩ := ih hrest (Function.update counts r.icsmtp
          (countDown (counts r.icsmtp)).1) last
        rw [Function.update_of_ne hr.symm] at hcounts hevents
        simp only [if_neg hfired]
        exact ⟨hcounts, hevents⟩

end Loop

section Counting

/-- The counts after a number of ticks. -/
def ticked (pt : TickCount) (ticks : ℕ) : TickCount := (fun pt => (countDown pt).1)^[ticks] pt

theorem ticked_succ (pt : TickCount) (ticks : ℕ) :
    ticked pt (ticks + 1) = (countDown (ticked pt ticks)).1 := Function.iterate_succ_apply' ..

/-- The interval that is registered. -/
theorem toNat_registered (mstimeout : UInt32) :
    (if mstimeout < ictttick then ictttick else mstimeout).toNat = interval mstimeout := by
  rw [interval]
  split_ifs with h
  · exact (Nat.max_eq_right (Nat.le_of_lt (UInt32.lt_iff_toNat_lt.mp h))).symm
  · exact (Nat.max_eq_left (Nat.le_of_not_lt (mt UInt32.lt_iff_toNat_lt.mpr h))).symm

/-- The last tick of an interval. -/
theorem countDown_of_eq {pt : TickCount} (hne : pt.mstimeout ≠ 0)
    (h : pt.msrunttime.toNat = 100) : countDown pt = (⟨pt.mstimeout, pt.mstimeout⟩, true) := by
  have hrun : pt.msrunttime = ictttick := UInt32.toNat_inj.mp h
  rw [countDown, if_pos hne, hrun, UInt32.sub_self]
  exact if_pos rfl

/-- Another tick. -/
theorem countDown_of_ne {pt : TickCount} (hne : pt.mstimeout ≠ 0)
    (h : pt.msrunttime ≠ ictttick) :
    countDown pt = (⟨pt.mstimeout, pt.msrunttime - ictttick⟩, false) := by
  have hrun : pt.msrunttime - ictttick ≠ 0 := by
    intro hzero
    rw [UInt32.sub_eq_iff_eq_add, UInt32.zero_add] at hzero
    exact h hzero
  rw [countDown, if_pos hne, if_neg hrun]

/-- A queue with some ticks to go has its message with the last one. -/
theorem countDown_multiple {pt : TickCount} {n : ℕ} (hne : pt.mstimeout ≠ 0)
    (h : pt.msrunttime.toNat = 100 * n) :
    countDown pt = if n = 1 then (⟨pt.mstimeout, pt.mstimeout⟩, true)
      else (⟨pt.mstimeout, pt.msrunttime - ictttick⟩, false) := by
  split_ifs with hone
  · exact countDown_of_eq hne (by rw [h, hone])
  · refine countDown_of_ne hne fun heq => hone ?_
    have htick : ictttick.toNat = 100 := rfl
    rw [heq, htick] at h
    omega

/-- An interval of whole ticks is counted down over and over. -/
theorem ticked_multiple {pt : TickCount} {n : ℕ} (hpos : 0 < n)
    (hinterval : pt.mstimeout.toNat = 100 * n) (hstart : pt.msrunttime = pt.mstimeout) (ticks : ℕ) :
    (ticked pt ticks).mstimeout = pt.mstimeout ∧
      (ticked pt ticks).msrunttime.toNat = 100 * (n - ticks % n) := by
  have hne : pt.mstimeout ≠ 0 := by
    intro hzero
    rw [hzero] at hinterval
    have hzero' : (0 : UInt32).toNat = 0 := rfl
    omega
  induction ticks with
  | zero => exact ⟨rfl, by rw [Nat.zero_mod, Nat.sub_zero, ← hinterval, ← hstart]; rfl⟩
  | succ k ih =>
      obtain ⟨htimeout, hrun⟩ := ih
      have hlt := Nat.mod_lt k hpos
      rw [ticked_succ, countDown_multiple (htimeout ▸ hne) hrun,
        ← Nat.mod_add_mod]
      split_ifs with hone
      · have hend : k % n + 1 = n := by omega
        refine ⟨htimeout, ?_⟩
        dsimp only
        rw [htimeout, hinterval, hend, Nat.mod_self, Nat.sub_zero]
      · refine ⟨htimeout, ?_⟩
        have hle : ictttick ≤ (ticked pt k).msrunttime := by
          rw [UInt32.le_iff_toNat_le, hrun]
          have htick : ictttick.toNat = 100 := rfl
          omega
        have hmod : (k % n + 1) % n = k % n + 1 := Nat.mod_eq_of_lt (by omega)
        have htick : ictttick.toNat = 100 := rfl
        dsimp only
        rw [UInt32.toNat_sub_of_le _ _ hle, hrun, hmod, htick]
        omega

/-- The message comes with the last tick of each interval. -/
theorem fires_multiple {pt : TickCount} {n : ℕ} (hpos : 0 < n)
    (hinterval : pt.mstimeout.toNat = 100 * n) (hstart : pt.msrunttime = pt.mstimeout) (ticks : ℕ) :
    (countDown (ticked pt ticks)).2 = true ↔ n ∣ ticks + 1 := by
  have hne : pt.mstimeout ≠ 0 := by
    intro hzero
    rw [hzero] at hinterval
    have hzero' : (0 : UInt32).toNat = 0 := rfl
    omega
  obtain ⟨htimeout, hrun⟩ := ticked_multiple hpos hinterval hstart ticks
  have hlt := Nat.mod_lt ticks hpos
  rw [countDown_multiple (htimeout ▸ hne) hrun, Nat.dvd_iff_mod_eq_zero,
    ← Nat.mod_add_mod]
  split_ifs with hone
  · have hend : ticks % n + 1 = n := by omega
    rw [hend, Nat.mod_self]
    exact iff_of_true rfl rfl
  · have hmod : (ticks % n + 1) % n = ticks % n + 1 := Nat.mod_eq_of_lt (by omega)
    rw [hmod]
    exact iff_of_false id (Nat.succ_ne_zero _)

/-- Another interval is passed by: the count is not zero with the last tick that begins in it. -/
theorem ticked_other {timeout : UInt32} (hinterval : ¬100 ∣ timeout.toNat) {ticks : ℕ}
    (h : 100 * (ticks + 1) < timeout.toNat + 100) :
    ticked ⟨timeout, timeout⟩ ticks = ⟨timeout, timeout - UInt32.ofNat (100 * ticks)⟩ ∧
      (countDown (ticked ⟨timeout, timeout⟩ ticks)).2 = false := by
  have hne : timeout ≠ 0 := by
    intro hzero
    rw [hzero] at hinterval
    exact hinterval (Nat.dvd_zero 100)
  have hstep : ∀ k, 100 * (k + 1) < timeout.toNat + 100 →
      countDown ⟨timeout, timeout - UInt32.ofNat (100 * k)⟩ =
        (⟨timeout, timeout - UInt32.ofNat (100 * k) - ictttick⟩, false) := by
    intro k hk
    refine countDown_of_ne hne fun heq => ?_
    have hsum := congrArg UInt32.toNat (UInt32.sub_eq_iff_eq_add.mp heq)
    have htick : ictttick.toNat = 100 := rfl
    have hlt := timeout.toNat_lt
    rw [UInt32.toNat_add, UInt32.toNat_ofNat', htick] at hsum
    have heq' : timeout.toNat = 100 * (k + 1) := by omega
    exact hinterval ⟨k + 1, heq'⟩
  have hcount : ticked ⟨timeout, timeout⟩ ticks =
      ⟨timeout, timeout - UInt32.ofNat (100 * ticks)⟩ := by
    induction ticks with
    | zero =>
        have hzero : UInt32.ofNat (100 * 0) = 0 := rfl
        rw [hzero, UInt32.sub_zero]
        rfl
    | succ k ih =>
        have hk : 100 * (k + 1) < timeout.toNat + 100 := by omega
        have hsum : UInt32.ofNat (100 * (k + 1)) = ictttick + UInt32.ofNat (100 * k) := by
          rw [Nat.mul_succ, UInt32.ofNat_add, UInt32.add_comm]
          rfl
        have hsub : timeout - UInt32.ofNat (100 * k) - ictttick =
            timeout - UInt32.ofNat (100 * (k + 1)) := by
          rw [UInt32.sub_eq_iff_eq_add, UInt32.sub_eq_iff_eq_add, UInt32.add_assoc, ← hsum,
            UInt32.sub_add_cancel]
        rw [ticked_succ, ih hk, hstep k hk, hsub]
  rw [hcount, hstep ticks h]
  exact ⟨rfl, rfl⟩

end Counting

section Runs

variable {icsmtp : ℕ} {tickmsg : UInt32}

/-- A queue is registered once. -/
def RegisteredOnce (s : TickService) (icsmtp : ℕ) (tickmsg : UInt32) : Prop :=
  ∃ before behind, s.regqueue = before ++ ⟨icsmtp, tickmsg⟩ :: behind ∧
    (∀ r ∈ before, r.icsmtp ≠ icsmtp) ∧ ∀ r ∈ behind, r.icsmtp ≠ icsmtp

/-- Inputs that do not register the queue again count it down with their ticks. -/
theorem counts_after {s : TickService} (h : RegisteredOnce s icsmtp tickmsg) {is : List TickInput}
    (his : ∀ i ∈ is, i.NotOf icsmtp) :
    RegisteredOnce (after tickStep s is) icsmtp tickmsg ∧
      (after tickStep s is).counts icsmtp = ticked (s.counts icsmtp) (tickCount is) := by
  induction is generalizing s with
  | nil => exact ⟨h, rfl⟩
  | cons i is ih =>
      obtain ⟨hi, hrest⟩ := List.forall_mem_cons.mp his
      obtain ⟨before, behind, hqueue, hbefore, hbehind⟩ := h
      rw [after_cons]
      cases i with
      | register icsmtp' tickmsg' mstimeout =>
          have hnext : RegisteredOnce (ictttickreg s icsmtp' tickmsg' mstimeout) icsmtp tickmsg := by
            refine ⟨before, behind ++ [⟨icsmtp', tickmsg'⟩], ?_, hbefore, fun r hr => ?_⟩
            · rw [ictttickreg, hqueue, List.append_assoc, List.cons_append]
            · rcases List.mem_append.mp hr with hr | hr
              · exact hbehind r hr
              · obtain rfl := List.mem_singleton.mp hr
                exact hi
          obtain ⟨honce, hcounts⟩ := ih hnext hrest
          refine ⟨honce, hcounts.trans ?_⟩
          have hsame : (ictttickreg s icsmtp' tickmsg' mstimeout).counts icsmtp =
              s.counts icsmtp := Function.update_of_ne (Ne.symm hi) _ _
          rw [hsame, tickCount, tickCount, List.countP_cons_of_neg Bool.false_ne_true]
      | tick last =>
          have hnext : RegisteredOnce (tickStep s (.tick last)).1 icsmtp tickmsg :=
            ⟨before, behind, hqueue, hbefore, hbehind⟩
          obtain ⟨honce, hcounts⟩ := ih hnext hrest
          refine ⟨honce, hcounts.trans ?_⟩
          have hdown : (tickStep s (.tick last)).1.counts icsmtp =
              (countDown (s.counts icsmtp)).1 := by
            rw [tickStep]
            dsimp only
            rw [hqueue]
            exact (tickLoop_once hbefore hbehind s.counts last).1
          rw [hdown, tickCount, tickCount, List.countP_cons_of_pos rfl, ticked, ticked,
            Function.iterate_succ_apply]

/-- What a tick brings a queue that was registered once. -/
theorem notified_eq {s : TickService} (h : RegisteredOnce s icsmtp tickmsg) {is : List TickInput}
    (his : ∀ i ∈ is, i.NotOf icsmtp) (last : ℕ → Option UInt32) :
    (tickStep (after tickStep s is) (.tick last)).2.filter (fun n => n.icsmtp = icsmtp) =
      if (countDown (ticked (s.counts icsmtp) (tickCount is))).2 then
        [⟨icsmtp, tickmsg, last icsmtp ≠ some tickmsg⟩]
      else [] := by
  obtain ⟨⟨before, behind, hqueue, hbefore, hbehind⟩, hcounts⟩ := counts_after h his
  rw [tickStep]
  dsimp only
  rw [hqueue, ← hcounts]
  exact (tickLoop_once hbefore hbehind _ last).2

end Runs

/-- A queue that is registered has its message once in each rounded interval, for ever, if and only if
the interval is a whole number of ticks. -/
theorem regular_iff (s : TickService) (icsmtp : ℕ) (tickmsg mstimeout : UInt32)
    (hnew : ∀ r ∈ s.regqueue, r.icsmtp ≠ icsmtp) :
    (∃ ticks, Rounds mstimeout ticks ∧
        Regular (ictttickreg s icsmtp tickmsg mstimeout) icsmtp tickmsg ticks) ↔
      ictttick.toNat ∣ interval mstimeout := by
  have honce : RegisteredOnce (ictttickreg s icsmtp tickmsg mstimeout) icsmtp tickmsg :=
    ⟨s.regqueue, [], rfl, hnew, List.forall_mem_nil _⟩
  have htick : ictttick.toNat = 100 := rfl
  have hmin : 100 ≤ interval mstimeout := Nat.le_max_right _ _
  have hcounts : (ictttickreg s icsmtp tickmsg mstimeout).counts icsmtp =
      ⟨if mstimeout < ictttick then ictttick else mstimeout,
        if mstimeout < ictttick then ictttick else mstimeout⟩ := Function.update_self _ _ _
  constructor
  · rintro ⟨ticks, hrounds, hregular⟩
    by_contra hother
    rw [htick] at hother
    rw [Rounds, htick] at hrounds
    have hpos : 0 < ticks := by omega
    have hinputs : ∀ i ∈ List.replicate (ticks - 1) (TickInput.tick fun _ => none),
        i.NotOf icsmtp := by
      intro i hi
      rw [List.eq_of_mem_replicate hi]
      trivial
    have hcount : tickCount (List.replicate (ticks - 1) (.tick fun _ => none)) = ticks - 1 := by
      rw [tickCount, List.countP_replicate, if_pos rfl]
    have hbad := hregular _ (fun _ => none) hinputs
    rw [notified_eq honce hinputs, hcount, hcounts, Nat.sub_add_cancel hpos,
      if_pos (Nat.dvd_refl ticks)] at hbad
    have hbefore : 100 * (ticks - 1 + 1) < interval mstimeout + 100 := by omega
    rw [← toNat_registered] at hother hbefore
    rw [(ticked_other hother hbefore).2] at hbad
    cases hbad
  · intro h
    obtain ⟨n, hn⟩ := h
    rw [htick] at hn
    refine ⟨n, .inl (by rw [htick]; omega), fun is last his => ?_⟩
    rw [notified_eq honce his, hcounts]
    refine if_congr ?_ rfl rfl
    exact @fires_multiple ⟨_, _⟩ n (by omega) ((toNat_registered mstimeout).trans hn) rfl _

/-- A queue that is registered for three ticks. -/
theorem regular_threeTicks :
    ∃ ticks, Rounds 300 ticks ∧ Regular (ictttickreg ⟨[], fun _ => ⟨0, 0⟩⟩ 1 7 300) 1 7 ticks :=
  (regular_iff ⟨[], fun _ => ⟨0, 0⟩⟩ 1 7 300 (List.forall_mem_nil _)).mpr (by decide)

/-- A queue that is registered for one and a half ticks has no message with the first tick and none
with the second one. -/
theorem not_regular_oneAndAHalf :
    ¬∃ ticks, Rounds 150 ticks ∧ Regular (ictttickreg ⟨[], fun _ => ⟨0, 0⟩⟩ 1 7 150) 1 7 ticks := by
  rintro ⟨ticks, rfl | rfl, hregular⟩
  · have hbad := hregular [] (fun _ => none) (List.forall_mem_nil _)
    exact absurd hbad (by decide)
  · have hbad := hregular [.tick fun _ => none] (fun _ => none)
      (List.forall_mem_singleton.mpr trivial)
    exact absurd hbad (by decide)

end Ic

end SierraSdk
