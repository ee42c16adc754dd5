import Mathlib.Algebra.BigOperators.Group.List.Basic
import Mathlib.Algebra.Group.Nat.Defs
import Mathlib.Tactic.IntervalCases

/-!
# The proleptic Gregorian calendar

A year has 366 days if it is a multiple of four, but of hundred only if it is one of four hundred. A
`Date` is a day of a month of a year, and a `DateTime` a second of such a day. Days are counted from
the first day of a year on (`Date.dayNumber`), and seconds from its first second on.

The next day has the next number (`Date.Next.dayNumber_eq`), and a later date a larger one
(`Date.Earlier.dayNumber_lt`). The days in front of a year are counted by its leap years
(`daysBefore_add`).
-/

namespace Calendar

/-- The year has a leap day. -/
def IsLeap (year : ℕ) : Prop := year % 4 = 0 ∧ (year % 100 ≠ 0 ∨ year % 400 = 0)

instance (year : ℕ) : Decidable (IsLeap year) := inferInstanceAs (Decidable (_ ∧ _))

def daysInYear (year : ℕ) : ℕ := if IsLeap year then 366 else 365

/-- The lengths of the months, which are numbered from one on. -/
def daysInMonth (year month : ℕ) : ℕ :=
  if month = 2 then if IsLeap year then 29 else 28
  else if month = 4 ∨ month = 6 ∨ month = 9 ∨ month = 11 then 30
  else 31

/-- The days in front of a month of a year. -/
def daysBeforeMonth (year month : ℕ) : ℕ :=
  ((List.range (month - 1)).map fun i => daysInMonth year (i + 1)).sum

/-- The days of as many years. -/
def daysBefore (first : ℕ) : ℕ → ℕ
  | 0 => 0
  | years + 1 => daysBefore first years + daysInYear (first + years)

/-- A day. -/
structure Date where
  year : ℕ
  month : ℕ
  day : ℕ
  month_pos : 1 ≤ month
  month_le : month ≤ 12
  day_pos : 1 ≤ day
  day_le : day ≤ daysInMonth year month

/-- A second of a day. -/
structure Time where
  hour : ℕ
  minute : ℕ
  second : ℕ
  hour_lt : hour < 24
  minute_lt : minute < 60
  second_lt : second < 60

/-- A second. -/
structure DateTime where
  date : Date
  time : Time

/-- The number of a day, from the first day of a year on. -/
def Date.dayNumber (first : ℕ) (d : Date) : ℕ :=
  daysBefore first (d.year - first) + daysBeforeMonth d.year d.month + (d.day - 1)

def Time.seconds (t : Time) : ℕ := (t.hour * 60 + t.minute) * 60 + t.second

/-- The number of a second, from the first second of a year on. -/
def DateTime.seconds (first : ℕ) (t : DateTime) : ℕ :=
  86400 * t.date.dayNumber first + t.time.seconds

/-- One day follows another one: in a month, into the next month, or into the next year. -/
def Date.Next (d e : Date) : Prop :=
  d.year = e.year ∧ d.month = e.month ∧ d.day + 1 = e.day ∨
    d.year = e.year ∧ d.month + 1 = e.month ∧ d.day = daysInMonth d.year d.month ∧ e.day = 1 ∨
    d.year + 1 = e.year ∧ d.month = 12 ∧ d.day = 31 ∧ e.month = 1 ∧ e.day = 1

/-- One day is in front of another one, by year, month and day. -/
def Date.Earlier (d e : Date) : Prop :=
  d.year < e.year ∨ d.year = e.year ∧ (d.month < e.month ∨ d.month = e.month ∧ d.day < e.day)

def Time.Earlier (t u : Time) : Prop :=
  t.hour < u.hour ∨
    t.hour = u.hour ∧ (t.minute < u.minute ∨ t.minute = u.minute ∧ t.second < u.second)

/-- One second is in front of another one. -/
def DateTime.Earlier (t u : DateTime) : Prop :=
  t.date.Earlier u.date ∨ t.date = u.date ∧ t.time.Earlier u.time

section Months

variable {year month : ℕ}

/-- The days in front of the next month. -/
theorem daysBeforeMonth_succ (h : 1 ≤ month) :
    daysBeforeMonth year (month + 1) = daysBeforeMonth year month + daysInMonth year month := by
  obtain ⟨m, rfl⟩ := Nat.exists_eq_add_of_le' h
  rw [daysBeforeMonth, daysBeforeMonth, Nat.add_sub_cancel, Nat.add_sub_cancel, List.range_succ,
    List.map_append, List.sum_append, List.map_singleton, List.sum_singleton]

/-- The days in front of a month behind February. -/
theorem daysBeforeMonth_three : daysBeforeMonth year 3 = 59 + if IsLeap year then 1 else 0 := by
  have hfebruary : daysBeforeMonth year 3 = 31 + if IsLeap year then 29 else 28 := rfl
  rw [hfebruary]
  split_ifs <;> rfl

/-- The months of a year are the year. -/
theorem daysBeforeMonth_end : daysBeforeMonth year 13 = daysInYear year := by
  have hmonths : daysBeforeMonth year 13 =
      daysBeforeMonth year 3 + 31 + 30 + 31 + 30 + 31 + 31 + 30 + 31 + 30 + 31 := by
    iterate 10 rw [daysBeforeMonth_succ (by decide)]
    rfl
  rw [hmonths, daysBeforeMonth_three, daysInYear]
  split_ifs <;> rfl

theorem daysBeforeMonth_mono {month' : ℕ} (h : 1 ≤ month) (hle : month ≤ month') :
    daysBeforeMonth year month ≤ daysBeforeMonth year month' := by
  induction month', hle using Nat.le_induction with
  | base => exact Nat.le_refl _
  | succ m hm ih =>
      rw [daysBeforeMonth_succ (h.trans hm)]
      exact ih.trans (Nat.le_add_right _ _)

end Months

section Years

variable {first year years : ℕ}

theorem daysBefore_le {years' : ℕ} (h : years ≤ years') :
    daysBefore first years ≤ daysBefore first years' := by
  induction years', h using Nat.le_induction with
  | base => exact Nat.le_refl _
  | succ n _ ih => exact ih.trans (Nat.le_add_right _ _)

/-- The days of a year in front of the next one. -/
theorem daysBefore_next (h : first ≤ year) :
    daysBefore first (year + 1 - first) = daysBefore first (year - first) + daysInYear year := by
  have hsub : year + 1 - first = year - first + 1 := Nat.sub_add_comm h
  rw [hsub, daysBefore, Nat.add_sub_cancel' h]

/-- The leap years in front of a year. -/
def leapsBefore (year : ℕ) : ℕ := (year + 3) / 4 + (year + 399) / 400 - (year + 99) / 100

theorem leapsBefore_succ :
    leapsBefore (year + 1) = leapsBefore year + if IsLeap year then 1 else 0 := by
  rw [leapsBefore, leapsBefore]
  by_cases h : IsLeap year
  · rw [if_pos h]
    obtain ⟨h4, h100⟩ := h
    omega
  · rw [if_neg h]
    have hnot : year % 4 ≠ 0 ∨ year % 100 = 0 ∧ year % 400 ≠ 0 := by
      by_contra hleap
      exact h (by rw [IsLeap]; omega)
    omega

/-- A year has 365 days, and one more if it is a leap year. -/
theorem daysBefore_add :
    daysBefore first years + leapsBefore first = 365 * years + leapsBefore (first + years) := by
  induction years with
  | zero => rfl
  | succ n ih =>
      rw [daysBefore, ← Nat.add_assoc first n 1, leapsBefore_succ, daysInYear]
      split_ifs <;> omega

end Years

section Dates

variable {first : ℕ} {d e : Date}

/-- A day of a month is in front of the next month. -/
theorem Date.day_lt (d : Date) :
    daysBeforeMonth d.year d.month + (d.day - 1) < daysBeforeMonth d.year (d.month + 1) := by
  rw [daysBeforeMonth_succ d.month_pos]
  have hpos := d.day_pos
  have hle := d.day_le
  omega

/-- A day of a year is in front of the next year. -/
theorem Date.dayNumber_lt (h : first ≤ d.year) :
    d.dayNumber first < daysBefore first (d.year + 1 - first) := by
  have hend : daysBeforeMonth d.year (d.month + 1) ≤ daysBeforeMonth d.year 13 :=
    daysBeforeMonth_mono (Nat.le_add_left 1 _) (Nat.succ_le_succ d.month_le)
  rw [Date.dayNumber, daysBefore_next h, ← daysBeforeMonth_end, Nat.add_assoc]
  exact Nat.add_lt_add_left (d.day_lt.trans_le hend) _

theorem Date.Next.dayNumber_eq (h : first ≤ d.year) (hnext : d.Next e) :
    e.dayNumber first = d.dayNumber first + 1 := by
  have hday := d.day_pos
  rw [Date.dayNumber, Date.dayNumber]
  rcases hnext with ⟨hy, hm, hd⟩ | ⟨hy, hm, hd, he⟩ | ⟨hy, hm, hd, hm', he⟩
  · rw [← hy, ← hm, ← hd]
    omega
  · rw [← hy, ← hm, he, daysBeforeMonth_succ d.month_pos, ← hd]
    omega
  · have hyear : daysBeforeMonth d.year d.month + (d.day - 1) + 1 = daysInYear d.year := by
      have hlast : daysBeforeMonth d.year (d.month + 1) =
          daysBeforeMonth d.year d.month + daysInMonth d.year d.month :=
        daysBeforeMonth_succ d.month_pos
      have hlen : daysInMonth d.year d.month = 31 := by rw [hm]; rfl
      rw [hlen, hm, daysBeforeMonth_end] at hlast
      rw [hlast, hm, hd]
    have hfirst : daysBeforeMonth (d.year + 1) 1 = 0 := rfl
    rw [← hy, hm', he, hfirst, daysBefore_next h, ← hyear]
    omega

theorem Date.Earlier.dayNumber_lt (h : first ≤ d.year) (hearlier : d.Earlier e) :
    d.dayNumber first < e.dayNumber first := by
  rcases hearlier with hy | ⟨hy, hm | ⟨hm, hd⟩⟩
  · have hyears : daysBefore first (d.year + 1 - first) ≤ daysBefore first (e.year - first) :=
      daysBefore_le (Nat.sub_le_sub_right hy first)
    have he : daysBefore first (e.year - first) ≤ e.dayNumber first := by
      rw [Date.dayNumber, Nat.add_assoc]
      exact Nat.le_add_right _ _
    exact (Date.dayNumber_lt h).trans_le (hyears.trans he)
  · have hmonths : daysBeforeMonth d.year (d.month + 1) ≤ daysBeforeMonth d.year e.month :=
      daysBeforeMonth_mono (Nat.le_add_left 1 _) hm
    have hlt := d.day_lt
    rw [Date.dayNumber, Date.dayNumber, ← hy]
    omega
  · have hday := d.day_pos
    rw [Date.dayNumber, Date.dayNumber, ← hy, ← hm]
    omega

theorem Time.seconds_lt (t : Time) : t.seconds < 86400 := by
  have hhour := t.hour_lt
  have hminute := t.minute_lt
  have hsecond := t.second_lt
  rw [Time.seconds]
  omega

theorem Time.Earlier.seconds_lt {t u : Time} (h : t.Earlier u) : t.seconds < u.seconds := by
  have hminute := t.minute_lt
  have hsecond := t.second_lt
  rw [Time.seconds, Time.seconds]
  rcases h with hh | ⟨hh, hm | ⟨hm, hs⟩⟩ <;> omega

/-- Seconds are counted in the order of dates and times. -/
theorem DateTime.Earlier.seconds_lt {t u : DateTime} (h : first ≤ t.date.year)
    (hearlier : t.Earlier u) : t.seconds first < u.seconds first := by
  rw [DateTime.seconds, DateTime.seconds]
  rcases hearlier with hdate | ⟨hdate, htime⟩
  · have hday := hdate.dayNumber_lt h
    have hlt := t.time.seconds_lt
    omega
  · have hlt := htime.seconds_lt
    rw [hdate]
    omega

end Dates

end Calendar
