import Mathlib.Algebra.Order.Group.Defs
import Mathlib.Algebra.Module.Basic
import Mathlib.Logic.Function.Iterate
import Mathlib.Tactic.Abel

/-!
# Timers that count ticks

A clock of period `period` ticks at the instants `tick k`, for all integers `k`. A timer that is
started between two ticks counts the ticks that follow. Since the first of them may come at
once, a timer that fires with its `n`-th tick runs for at most `n` periods, and `n - 1` at least.

`FiresAfter tick fires s n` says of a machine which is started in the state `s` and does `tick`
at every tick that it fires for the first time after `n` ticks that it does not fire at. A
machine that counts down does so when its count is `n + 1`.
-/

namespace TickTimer

section Clocks

variable {α : Type*} [AddCommGroup α]

/-- A clock of a period, by the instant of one of its ticks. -/
structure Clock (period : α) where
  phase : α

namespace Clock

variable {period : α}

/-- The instant of a tick. -/
def tick (clock : Clock period) (k : ℤ) : α := clock.phase + k • period

theorem tick_add_natCast (clock : Clock period) (k : ℤ) (n : ℕ) :
    clock.tick (k + n) = clock.tick k + n • period := by
  rw [tick, tick, add_smul, natCast_zsmul, add_assoc]

@[simp] theorem tick_zero (clock : Clock period) : clock.tick 0 = clock.phase := by
  rw [tick, zero_smul, add_zero]

variable [LinearOrder α]

/-- An instant from one tick to the next one. -/
def Between (clock : Clock period) (k : ℤ) (instant : α) : Prop :=
  clock.tick k ≤ instant ∧ instant ≤ clock.tick (k + 1)

variable [IsOrderedAddMonoid α] {clock : Clock period} {k : ℤ} {start : α}

theorem between_tick (hperiod : 0 ≤ period) (clock : Clock period) (k : ℤ) :
    clock.Between k (clock.tick k) := by
  refine ⟨le_rfl, ?_⟩
  have hnext := clock.tick_add_natCast k 1
  rw [Nat.cast_one, one_smul] at hnext
  rw [hnext]
  exact le_add_of_nonneg_right hperiod

theorem between_tick_succ (hperiod : 0 ≤ period) (clock : Clock period) (k : ℤ) :
    clock.Between k (clock.tick (k + 1)) :=
  ⟨(clock.between_tick hperiod k).2, le_rfl⟩

/-- The `n`-th tick after the start comes within `n` periods. -/
theorem Between.tick_sub_le (h : clock.Between k start) (n : ℕ) :
    clock.tick (k + n) - start ≤ n • period := by
  rw [tick_add_natCast, sub_le_iff_le_add, add_comm]
  exact add_le_add_right h.1 _

/-- What happens before the tick after `n` ticks happens within `n + 1` periods. -/
theorem Between.sub_le (h : clock.Between k start) {n : ℕ} {instant : α}
    (hinstant : clock.Between (k + n) instant) : instant - start ≤ (n + 1) • period := by
  have hnext : clock.tick (k + n + 1) = clock.tick (k + (n + 1 : ℕ)) := by
    rw [Nat.cast_add, Nat.cast_one, add_assoc]
  calc instant - start ≤ clock.tick (k + (n + 1 : ℕ)) - start :=
        sub_le_sub_right (hinstant.2.trans_eq hnext) start
    _ ≤ (n + 1) • period := h.tick_sub_le (n + 1)

end Clock

end Clocks

section Counters

variable {σ : Type*} (tick : σ → σ) (fires : σ → Prop)

/-- From `s` on, `n` ticks pass at which the machine does not fire, and it fires with the next
one. -/
def FiresAfter (s : σ) (n : ℕ) : Prop :=
  fires (tick^[n] s) ∧ ∀ j < n, ¬ fires (tick^[j] s)

variable {tick fires} (count : σ → ℕ)

/-- A count that goes down by one with each tick. -/
theorem count_iterate (htick : ∀ s, count (tick s) = count s - 1) (s : σ) (n : ℕ) :
    count (tick^[n] s) = count s - n := by
  induction n generalizing s with
  | zero => rfl
  | succ n ih => rw [Function.iterate_succ_apply, ih, htick, Nat.sub_sub, Nat.add_comm]

theorem fires_iterate_iff (htick : ∀ s, count (tick s) = count s - 1)
    (hfires : ∀ s, fires s ↔ count s = 1) (s : σ) (n : ℕ) :
    fires (tick^[n] s) ↔ count s = n + 1 := by
  rw [hfires, count_iterate count htick]
  omega

/-- A machine that counts down and fires with the last count fires when it is run out. -/
theorem firesAfter_iff (htick : ∀ s, count (tick s) = count s - 1)
    (hfires : ∀ s, fires s ↔ count s = 1) (s : σ) (n : ℕ) :
    FiresAfter tick fires s n ↔ count s = n + 1 := by
  simp only [FiresAfter, fires_iterate_iff count htick hfires]
  constructor
  · exact fun h => h.1
  · intro h
    refine ⟨h, fun j hj hcount => ?_⟩
    omega

end Counters

end TickTimer
