import SierraSdk.Gps.Decimal
import SierraSdk.Gps.Time

/-!
# The time of a fix is given by the sentence

What the digits of an RMC or ZDA sentence give is a date and a time, if they are in range. The
reader takes over what a sentence gives, if `time_t` can hold it (`parseTime_given`). It takes over
more: the fields are checked by their lengths, and a bad number is passed on as `-1`.
-/

namespace SierraSdk

namespace Gps

open Calendar

section Given

/-- The milliseconds of a fraction, behind a point. -/
def GivesFraction (cs : List UInt8) (ms : ℕ) : Prop :=
  cs = [] ∧ ms = 0 ∨
    ∃ digits, cs = 46 :: digits ∧ digits.all isDigit ∧
      decimal ((digits ++ ascii "000").take 3) = some ms

/-- The characters are a time. -/
structure GivesTime (cs : List UInt8) (t : Time) (ms : ℕ) : Prop where
  length_le : 6 ≤ cs.length
  hour : decimal (cs.take 2) = some t.hour
  minute : decimal ((cs.drop 2).take 2) = some t.minute
  second : decimal ((cs.drop 4).take 2) = some t.second
  fraction : GivesFraction (cs.drop 6) ms

/-- The characters are a date with two digits for its year. -/
structure GivesShortDate (cs : List UInt8) (d : Date) : Prop where
  length_eq : cs.length = 6
  day : decimal (cs.take 2) = some d.day
  month : decimal ((cs.drop 2).take 2) = some d.month
  year : (decimal ((cs.drop 4).take 2)).map (2000 + ·) = some d.year

/-- The characters are a day, a month and a year, not in front of 1970. -/
structure GivesLongDate (day month year : List UInt8) (d : Date) : Prop where
  length_eq : day.length = 2 ∧ month.length = 2 ∧ year.length = 4
  day : decimal day = some d.day
  month : decimal month = some d.month
  year : decimal year = some d.year
  le_year : 1970 ≤ d.year

/-- A field of a sentence. -/
def field (buf : List UInt8) (index : ℕ) : List UInt8 :=
  (nmeaTokenizerGet (nmeaTokenizerInit buf) index).chars

/-- A sentence that the fix takes its time from gives a date and a time. -/
def Gives (buf : List UInt8) (t : DateTime) (ms : ℕ) : Prop :=
  GivesTime (field buf 1) t.time ms ∧
    (fixSentence buf = some .rmc ∧ GivesShortDate (field buf 9) t.date ∨
      fixSentence buf = some .zda ∧ GivesLongDate (field buf 2) (field buf 3) (field buf 4) t.date)

/-- The timestamp only changes to a time that the sentence gives, and a sentence that gives none
changes nothing. -/
structure Faithful (w : TimeT) (r : FixTime) (buf : List UInt8) : Prop where
  changed : (parseTime w r buf).timestamp ≠ r.timestamp →
    ∃ t ms, Gives buf t ms ∧ (parseTime w r buf).timestamp = t.seconds 1970 * 1000 + ms
  unchanged : (∀ t ms, ¬Gives buf t ms) → parseTime w r buf = r

/-- `time_t` can hold a time. -/
def Fits (w : TimeT) (t : DateTime) : Prop := t.seconds 1970 < 2 ^ (w.bits - 1)

/-- The checks of the reader keep a sentence off: an RMC sentence with a date of another length, or
without digits for its day or its month; a ZDA sentence with a date and a time that are too
short. -/
def KeptOff (buf : List UInt8) : Prop :=
  match fixSentence buf with
  | some .rmc =>
      (field buf 9).length ≠ 6 ∨ decimal ((field buf 9).take 2) = none ∨
        decimal (((field buf 9).drop 2).take 2) = none
  | some .zda =>
      ((field buf 2).length < 2 ∨ (field buf 3).length < 2 ∨ (field buf 4).length < 4) ∧
        (field buf 1).length < 6
  | none => True

/-- The reader takes a sentence in the right way: it is kept off, or it gives a time that `time_t`
can hold. -/
def TakenRight (w : TimeT) (buf : List UInt8) : Prop :=
  KeptOff buf ∨ ∃ t ms, Gives buf t ms ∧ Fits w t

/-- The years whose dates are converted. -/
def InRange (t : DateTime) : Prop := 1970 ≤ t.date.year ∧ t.date.year ≤ 9999

/-- The members that a date and a time go into. -/
def tmOf (t : DateTime) : Tm where
  tmYear := t.date.year - 1900
  tmMon := t.date.month - 1
  tmMday := t.date.day
  tmHour := t.time.hour
  tmMin := t.time.minute
  tmSec := t.time.second

end Given

section Conversion

theorem short_eq {n : ℤ} (hlow : 0 ≤ n) (hhigh : n < 2 ^ 15) : short n = n := by
  rw [short]
  exact Int.bmod_eq_of_le (by omega) (by omega)

/-- The table holds the days in front of a month, and the leap day is behind February. -/
theorem daysBeforeMonth_eq (year : ℕ) {month : ℕ} (hpos : 1 ≤ month) (hle : month ≤ 12) :
    (daysBeforeMonth year month : ℤ) =
      mToD.getD (month - 1) 0 + if 3 ≤ month ∧ IsLeap year then 1 else 0 := by
  by_cases hleap : IsLeap year <;> interval_cases month <;>
    simp [daysBeforeMonth, List.range_succ, daysInMonth, mToD, hleap]

/-- The three quotients count the leap years. -/
theorem quotients_eq {year : ℤ} {y : ℕ} (hy : year = y) (h : 1969 ≤ y) :
    (year - 1968).tdiv 4 - (year - 1900).tdiv 100 + (year - 1600).tdiv 400 =
      (leapsBefore (y + 1) : ℤ) - leapsBefore 1970 := by
  have hfirst : leapsBefore 1970 = 478 := rfl
  rw [Int.tdiv_eq_ediv_of_nonneg (by omega), Int.tdiv_eq_ediv_of_nonneg (by omega),
    Int.tdiv_eq_ediv_of_nonneg (by omega), hfirst, leapsBefore]
  omega

/-- The number of days that `mkgmtime` finds is the one of the calendar. -/
theorem days_eq {d : Date} (hlow : 1970 ≤ d.year) :
    ((d.year : ℤ) - 1970) * 365 + mToD.getD (d.month - 1) 0 +
        (((if d.month ≤ 2 then (d.year : ℤ) - 1 else d.year) - 1968).tdiv 4 -
          ((if d.month ≤ 2 then (d.year : ℤ) - 1 else d.year) - 1900).tdiv 100 +
          ((if d.month ≤ 2 then (d.year : ℤ) - 1 else d.year) - 1600).tdiv 400) +
        d.day - 1 = d.dayNumber 1970 := by
  have hmonth := daysBeforeMonth_eq d.year d.month_pos d.month_le
  have hyears : daysBefore 1970 (d.year - 1970) + leapsBefore 1970 =
      365 * (d.year - 1970) + leapsBefore d.year := by
    rw [daysBefore_add, Nat.add_sub_cancel' hlow]
  have hday := d.day_pos
  rw [Date.dayNumber]
  by_cases hfebruary : d.month ≤ 2
  · rw [if_pos hfebruary, quotients_eq (y := d.year - 1) (by omega) (by omega)]
    rw [if_neg (fun h => absurd h.1 (by omega))] at hmonth
    rw [Nat.sub_add_cancel (by omega : 1 ≤ d.year)]
    omega
  · rw [if_neg hfebruary, quotients_eq rfl (by omega), leapsBefore_succ]
    by_cases hleap : IsLeap d.year
    · rw [if_pos ⟨by omega, hleap⟩] at hmonth
      rw [if_pos hleap]
      omega
    · rw [if_neg (fun h => hleap h.2)] at hmonth
      rw [if_neg hleap]
      omega

/-- `mkgmtime` returns the second of the calendar, cut to the width of `time_t`. -/
theorem mkgmtime_eq (w : TimeT) {t : DateTime} (hlow : 1970 ≤ t.date.year)
    (hhigh : t.date.year ≤ 9999) :
    mkgmtime w (tmOf t) = (t.seconds 1970 : ℤ).bmod (2 ^ w.bits) := by
  have hpos := t.date.month_pos
  have hle := t.date.month_le
  have hmonth : short (tmOf t).tmMon = t.date.month - 1 := short_eq (by simp [tmOf]; omega)
    (by simp [tmOf]; omega)
  have hdiv : ((t.date.month : ℤ) - 1).tdiv 12 = 0 := Int.tdiv_eq_zero_of_lt (by omega) (by omega)
  have hmod : ((t.date.month : ℤ) - 1).tmod 12 = t.date.month - 1 :=
    Int.tmod_eq_of_lt (by omega) (by omega)
  have hyear : short ((tmOf t).tmYear + 0 + 1900) = t.date.year := by
    rw [tmOf, Int.add_zero, Int.sub_add_cancel, short_eq (by omega) (by omega)]
  have hbefore : short ((t.date.year : ℤ) - 1) = t.date.year - 1 := short_eq (by omega) (by omega)
  have hindex : ((t.date.month : ℤ) - 1).toNat = t.date.month - 1 := by omega
  have hdays := days_eq hlow
  rw [mkgmtime]
  simp only [hmonth, hdiv, hmod, hyear, hindex, hbefore, if_neg (by omega : ¬(t.date.month : ℤ) - 1 < 0)]
  congr 1
  rw [DateTime.seconds, Time.seconds]
  simp only [tmOf]
  push_cast
  rw [← hdays]
  have hcond : (t.date.month : ℤ) - 1 ≤ 1 ↔ t.date.month ≤ 2 := by omega
  simp only [hcond]
  omega

/-- `mkgmtime` returns the second of the calendar if and only if `time_t` can hold it. -/
theorem mkgmtime_eq_iff (w : TimeT) {t : DateTime} (hlow : 1970 ≤ t.date.year)
    (hhigh : t.date.year ≤ 9999) : mkgmtime w (tmOf t) = t.seconds 1970 ↔ Fits w t := by
  rw [mkgmtime_eq w hlow hhigh, Fits]
  cases w <;> simp only [TimeT.bits] <;> constructor <;> intro h
  · have hlt := @Int.bmod_lt (t.seconds 1970) (2 ^ 32) (by decide)
    omega
  · exact Int.bmod_eq_of_le (by omega) (by omega)
  · have hlt := @Int.bmod_lt (t.seconds 1970) (2 ^ 64) (by decide)
    omega
  · exact Int.bmod_eq_of_le (by omega) (by omega)

/-- In 64 bits there is room for every second up to the year 9999. -/
theorem fits_long64 {t : DateTime} (hlow : 1970 ≤ t.date.year) (hhigh : t.date.year ≤ 9999) :
    Fits .long64 t := by
  have hday := Date.dayNumber_lt hlow
  have hyears : daysBefore 1970 (t.date.year + 1 - 1970) ≤ daysBefore 1970 8030 :=
    daysBefore_le (by omega)
  have hall : daysBefore 1970 8030 + leapsBefore 1970 = 365 * 8030 + leapsBefore 10000 :=
    daysBefore_add
  have hleaps : leapsBefore 10000 = 2425 := rfl
  have hseconds := t.time.seconds_lt
  rw [Fits, DateTime.seconds, TimeT.bits]
  omega

end Conversion

section Fields

theorem len_splitTokens (rounds : ℕ) (p : List UInt8) :
    ∀ tok ∈ splitTokens rounds p, tok.len ≤ tok.p.length := by
  induction rounds generalizing p with
  | zero => intro tok h; cases h
  | succ n ih =>
      intro tok h
      rw [splitTokens] at h
      split_ifs at h with hp
      · cases h
      · rcases List.mem_cons.mp h with rfl | h
        · exact (List.takeWhile_sublist _).length_le
        · exact ih _ tok h

/-- A token has the length that it says. -/
theorem length_field (buf : List UInt8) (index : ℕ) :
    (field buf index).length = (nmeaTokenizerGet (nmeaTokenizerInit buf) index).len := by
  have hlen : (nmeaTokenizerGet (nmeaTokenizerInit buf) index).len ≤
      (nmeaTokenizerGet (nmeaTokenizerInit buf) index).p.length := by
    rw [nmeaTokenizerGet, List.getD_eq_getElem?_getD]
    cases h : (nmeaTokenizerInit buf)[index]? with
    | none => exact Nat.le_refl _
    | some tok =>
        exact len_splitTokens _ _ tok (List.mem_of_mem_take (List.mem_of_getElem? h))
  rw [field, Token.chars, List.length_take, Nat.min_eq_left hlen]

theorem chars_part (tok : Token) {start len : ℕ} (h : start + len ≤ tok.len) :
    (tok.part start len).chars = (tok.chars.drop start).take len := by
  rw [Token.part, Token.chars, Token.chars, List.drop_take, List.take_take,
    Nat.min_eq_left (by omega)]

/-- A part of a token stands for the number of its digits. -/
theorem str2int_part (tok : Token) {start len : ℕ} (h : start + len ≤ tok.len) (hlen : len ≤ 9) :
    str2int (tok.part start len) =
      ((decimal ((tok.chars.drop start).take len)).map Nat.cast).getD (-1) := by
  rw [← chars_part tok h]
  exact str2int_eq _ ((List.length_take_le _ _).trans hlen)

theorem str2int_part_of_decimal {tok : Token} {start len n : ℕ} (h : start + len ≤ tok.len)
    (hlen : len ≤ 9) (hn : decimal ((tok.chars.drop start).take len) = some n) :
    str2int (tok.part start len) = n := by
  rw [str2int_part tok h hlen, hn]
  rfl

theorem str2int_part_ge (tok : Token) {start len : ℕ} (h : start + len ≤ tok.len) (hlen : len ≤ 9) :
    -1 ≤ str2int (tok.part start len) := by
  rw [str2int_part tok h hlen]
  cases decimal ((tok.chars.drop start).take len) with
  | none => exact Int.le_refl _
  | some n => exact (Int.neg_nonpos_of_nonneg (by decide)).trans (Int.natCast_nonneg n)

/-- A part of a token without digits is a negative number. -/
theorem str2int_part_neg_iff (tok : Token) {start len : ℕ} (h : start + len ≤ tok.len)
    (hlen : len ≤ 9) :
    str2int (tok.part start len) < 0 ↔ decimal ((tok.chars.drop start).take len) = none := by
  rw [str2int_part tok h hlen]
  cases decimal ((tok.chars.drop start).take len) with
  | none => exact iff_of_true (by decide) rfl
  | some n => exact iff_of_false (by simp) (Option.some_ne_none _)

/-- The fraction of a second is taken in milliseconds. -/
theorem milliseconds_of_gives {tok : Token} {ms : ℕ} (hlen : tok.chars.length = tok.len)
    (h : GivesFraction (tok.chars.drop 6) ms) (hle : 6 ≤ tok.len) : milliseconds tok = ms := by
  rcases h with ⟨hnil, rfl⟩ | ⟨digits, hcons, hdigits, hms⟩
  · have hsix : tok.len = 6 := by
      have hdrop := congrArg List.length hnil
      rw [List.length_drop, hlen, List.length_nil] at hdrop
      omega
    rw [milliseconds, hsix]
    rfl
  · have hrest : tok.chars.drop 7 = digits := by
      have htail := congrArg List.tail hcons
      rwa [List.tail_drop] at htail
    have hcount : tok.len = digits.length + 7 := by
      have hdrop := congrArg List.length hcons
      rw [List.length_drop, hlen, List.length_cons] at hdrop
      omega
    rw [milliseconds, hcount]
    match digits, hrest, hdigits, hms with
    | [], _, _, hms =>
        obtain rfl := Option.some.inj ((show decimal [48, 48, 48] = some 0 by decide).symm.trans hms)
        rfl
    | [a], hrest, hdigits, hms =>
        have hone := decimal_of_digits (List.cons_ne_nil a []) hdigits
        obtain rfl := Option.some.inj ((decimal_append_zero (decimal_append_zero hone)).symm.trans hms)
        rw [List.length_singleton, if_neg (by decide), if_pos rfl,
          str2int_part_of_decimal (by rw [hcount]; exact Nat.le_refl _) (by decide)
            (by rw [hrest]; exact hone)]
        push_cast
        omega
    | [a, b], hrest, hdigits, hms =>
        have htwo := decimal_of_digits (List.cons_ne_nil a [b]) hdigits
        obtain rfl := Option.some.inj ((decimal_append_zero htwo).symm.trans hms)
        rw [List.length_cons, List.length_singleton, if_pos rfl,
          str2int_part_of_decimal (by rw [hcount]; exact Nat.le_refl _) (by decide)
            (by rw [hrest]; exact htwo)]
        push_cast
        omega
    | a :: b :: c :: cs, hrest, hdigits, hms =>
        rw [List.length_cons, List.length_cons, List.length_cons, if_neg (by omega),
          if_neg (by omega), if_pos (by omega)]
        exact str2int_part_of_decimal (by rw [hcount]; simp only [List.length_cons]; omega)
          (by decide) (by rw [hrest]; exact hms)

end Fields

section Sentences

variable {w : TimeT} {buf : List UInt8} {t : DateTime} {ms : ℕ}

/-- A sentence gives years of the calendar that is converted. -/
theorem Gives.year_mem (h : Gives buf t ms) : 1970 ≤ t.date.year ∧ t.date.year ≤ 9999 := by
  rcases h.2 with ⟨_, hdate⟩ | ⟨_, hdate⟩
  · obtain ⟨y, hy, hyear⟩ := Option.map_eq_some_iff.mp hdate.year
    have hlen : (((field buf 9).drop 4).take 2).length ≤ 2 := List.length_take_le _ _
    have hlt := decimal_lt (hlen.trans (by decide)) hy
    have hpow : 10 ^ (((field buf 9).drop 4).take 2).length ≤ 10 ^ 2 :=
      Nat.pow_le_pow_right (by decide) hlen
    omega
  · have hlt := decimal_lt (by rw [hdate.length_eq.2.2]; decide) hdate.year
    rw [hdate.length_eq.2.2] at hlt
    exact ⟨hdate.le_year, by omega⟩

/-- The time of a token goes into the timestamp, on the date that the reader holds. -/
theorem updateTime_of_gives {r : FixTime} {tok : Token} (hlen : tok.chars.length = tok.len)
    (h : GivesTime tok.chars t.time ms) (hyear : r.utcYear = t.date.year)
    (hmon : r.utcMon = t.date.month) (hday : r.utcDay = t.date.day) :
    updateTime w r tok = { r with timestamp := mkgmtime w (tmOf t) * 1000 + ms } := by
  have hsix : 6 ≤ tok.len := hlen ▸ h.length_le
  have htm : timeOf r tok = tmOf t := by
    rw [timeOf, tmOf, hyear, hmon, hday,
      str2int_part_of_decimal (by omega) (by decide) h.hour,
      str2int_part_of_decimal (by omega) (by decide) h.minute,
      str2int_part_of_decimal (by omega) (by decide) h.second]
  rw [updateTime, if_neg (Nat.not_lt.mpr hsix), if_neg (by omega), htm,
    milliseconds_of_gives hlen h.fraction hsix]

/-- The reader takes over the date and the time that a sentence gives. -/
theorem parseTime_of_gives (r : FixTime) (h : Gives buf t ms) :
    parseTime w r buf =
      ⟨t.date.year, t.date.month, t.date.day, mkgmtime w (tmOf t) * 1000 + ms⟩ := by
  obtain ⟨htime, ⟨hs, hdate⟩ | ⟨hs, hdate⟩⟩ := h
  · have hlen := length_field buf 9
    have hsix := hdate.length_eq
    obtain ⟨y, hy, hsum⟩ := Option.map_eq_some_iff.mp hdate.year
    have hday : str2int ((nmeaTokenizerGet (nmeaTokenizerInit buf) 9).part 0 2) = t.date.day :=
      str2int_part_of_decimal (by omega) (by decide) hdate.day
    have hmon : str2int ((nmeaTokenizerGet (nmeaTokenizerInit buf) 9).part 2 2) = t.date.month :=
      str2int_part_of_decimal (by omega) (by decide) hdate.month
    have hyear : str2int ((nmeaTokenizerGet (nmeaTokenizerInit buf) 9).part 4 2) + 2000 =
        t.date.year := by
      rw [str2int_part_of_decimal (by omega) (by decide) hy]
      omega
    rw [parseTime, hs]
    dsimp only
    rw [updateDate, hday, hmon, hyear, if_neg (by omega), if_neg (by omega),
      updateTime_of_gives (length_field buf 1) htime rfl rfl rfl]
  · have hlenDay := length_field buf 2
    have hlenMon := length_field buf 3
    have hlenYear := length_field buf 4
    obtain ⟨htwo, htwo', hfour⟩ := hdate.length_eq
    have hday : str2int ((nmeaTokenizerGet (nmeaTokenizerInit buf) 2).part 0 2) = t.date.day :=
      str2int_part_of_decimal (by omega) (by decide)
        ((List.take_of_length_le htwo.le).symm ▸ hdate.day)
    have hmon : str2int ((nmeaTokenizerGet (nmeaTokenizerInit buf) 3).part 0 2) = t.date.month :=
      str2int_part_of_decimal (by omega) (by decide)
        ((List.take_of_length_le htwo'.le).symm ▸ hdate.month)
    have hyear : str2int ((nmeaTokenizerGet (nmeaTokenizerInit buf) 4).part 0 4) = t.date.year :=
      str2int_part_of_decimal (by omega) (by decide)
        ((List.take_of_length_le hfour.le).symm ▸ hdate.year)
    rw [parseTime, hs]
    dsimp only
    rw [updateCdate, if_neg (by omega), hday, hmon, hyear,
      updateTime_of_gives (length_field buf 1) htime rfl rfl rfl]

/-- A sentence that is kept off changes nothing. -/
theorem parseTime_of_keptOff (r : FixTime) (h : KeptOff buf) : parseTime w r buf = r := by
  rw [KeptOff] at h
  rw [parseTime]
  cases hs : fixSentence buf with
  | none => rfl
  | some kind =>
      rw [hs] at h
      cases kind with
      | rmc =>
          have hlen := length_field buf 9
          dsimp only at h ⊢
          rw [updateDate]
          by_cases hsix : (nmeaTokenizerGet (nmeaTokenizerInit buf) 9).len = 6
          · rw [if_neg (not_not.mpr hsix), if_pos]
            rcases h with hne | hday | hmon
            · exact absurd (hlen.trans hsix) hne
            · exact .inl ((str2int_part_neg_iff _ (by omega) (by decide)).mpr hday)
            · exact .inr (.inl ((str2int_part_neg_iff _ (by omega) (by decide)).mpr hmon))
          · exact if_pos hsix
      | zda =>
          dsimp only at h ⊢
          rw [length_field, length_field, length_field, length_field] at h
          rw [updateCdate, if_pos h.1, updateTime, if_pos h.2]

/-- The time leaves the date as it is. -/
theorem utcYear_updateTime (r : FixTime) (tok : Token) :
    (updateTime w r tok).utcYear = r.utcYear := by
  rw [updateTime]
  split_ifs <;> rfl

/-- A sentence that is not kept off changes a reader: the date, or the time on the date of another
sentence. -/
theorem exists_ne_of_not_keptOff (w : TimeT) (h : ¬KeptOff buf) :
    ∃ r, parseTime w r buf ≠ r := by
  rw [KeptOff] at h
  cases hs : fixSentence buf with
  | none => rw [hs] at h; exact absurd trivial h
  | some kind =>
      rw [hs] at h
      cases kind with
      | rmc =>
          dsimp only at h
          rw [not_or, not_or, not_not] at h
          obtain ⟨hsix, hday, hmon⟩ := h
          have hlen := length_field buf 9
          have hday' := mt (str2int_part_neg_iff (nmeaTokenizerGet (nmeaTokenizerInit buf) 9)
            (by omega : 0 + 2 ≤ _) (by decide)).mp hday
          have hmon' := mt (str2int_part_neg_iff (nmeaTokenizerGet (nmeaTokenizerInit buf) 9)
            (by omega : 2 + 2 ≤ _) (by decide)).mp hmon
          have hyear : -1 ≤ str2int ((nmeaTokenizerGet (nmeaTokenizerInit buf) 9).part 4 2) :=
            str2int_part_ge _ (by omega) (by decide)
          refine ⟨⟨-1, 0, 0, 0⟩, fun heq => ?_⟩
          have hutc := congrArg FixTime.utcYear heq
          rw [parseTime, hs] at hutc
          dsimp only at hutc
          rw [updateDate, if_neg (by omega), if_neg (by omega), utcYear_updateTime] at hutc
          dsimp only at hutc
          omega
      | zda =>
          dsimp only at h
          rw [length_field, length_field, length_field, length_field] at h
          by_cases hdate : (nmeaTokenizerGet (nmeaTokenizerInit buf) 2).len < 2 ∨
              (nmeaTokenizerGet (nmeaTokenizerInit buf) 3).len < 2 ∨
              (nmeaTokenizerGet (nmeaTokenizerInit buf) 4).len < 4
          · have htime : ¬(nmeaTokenizerGet (nmeaTokenizerInit buf) 1).len < 6 :=
              fun hlt => h ⟨hdate, hlt⟩
            refine ⟨⟨0, 0, 0, mkgmtime w (timeOf ⟨0, 0, 0, 0⟩
              (nmeaTokenizerGet (nmeaTokenizerInit buf) 1)) * 1000 +
              milliseconds (nmeaTokenizerGet (nmeaTokenizerInit buf) 1) + 1⟩, fun heq => ?_⟩
            have hstamp := congrArg FixTime.timestamp heq
            rw [parseTime, hs] at hstamp
            dsimp only at hstamp
            rw [updateCdate, if_pos hdate, updateTime, if_neg htime, if_neg (Int.lt_irrefl 0)] at hstamp
            exact absurd hstamp (by dsimp only [timeOf]; omega)
          · refine ⟨⟨str2int ((nmeaTokenizerGet (nmeaTokenizerInit buf) 4).part 0 4) + 1, 0, 0, 0⟩,
              fun heq => ?_⟩
            have hutc := congrArg FixTime.utcYear heq
            rw [parseTime, hs] at hutc
            dsimp only at hutc
            rw [utcYear_updateTime, updateCdate, if_neg hdate] at hutc
            dsimp only at hutc
            omega

/-- The reader is faithful to a sentence, whatever it holds, if and only if it takes it right. -/
theorem faithful_iff (w : TimeT) (buf : List UInt8) :
    (∀ r, Faithful w r buf) ↔ TakenRight w buf := by
  constructor
  · intro h
    by_cases hoff : KeptOff buf
    · exact .inl hoff
    · obtain ⟨r, hr⟩ := exists_ne_of_not_keptOff w hoff
      have hgives : ∃ t ms, Gives buf t ms := by
        by_contra hnone
        exact hr ((h r).unchanged fun t ms ht => hnone ⟨t, ms, ht⟩)
      obtain ⟨t, ms, ht⟩ := hgives
      -- a reader with another timestamp than the one that it is given
      have hstamp := congrArg FixTime.timestamp (parseTime_of_gives (w := w)
        ⟨0, 0, 0, mkgmtime w (tmOf t) * 1000 + ms + 1⟩ ht)
      obtain ⟨t', ms', ht', heq⟩ := (h ⟨0, 0, 0, mkgmtime w (tmOf t) * 1000 + ms + 1⟩).changed
        (by rw [hstamp]; dsimp only; omega)
      have hstamp' := congrArg FixTime.timestamp (parseTime_of_gives (w := w)
        ⟨0, 0, 0, mkgmtime w (tmOf t) * 1000 + ms + 1⟩ ht')
      have hyear := ht'.year_mem
      refine .inr ⟨t', ms', ht', (mkgmtime_eq_iff w hyear.1 hyear.2).mp ?_⟩
      dsimp only at hstamp'
      omega
  · rintro (hoff | ⟨t, ms, ht, hfits⟩) r
    · exact ⟨fun hne => absurd (congrArg FixTime.timestamp (parseTime_of_keptOff r hoff)) hne,
        fun _ => parseTime_of_keptOff r hoff⟩
    · have hyear := ht.year_mem
      refine ⟨fun _ => ⟨t, ms, ht, ?_⟩, fun hnone => absurd ht (hnone t ms)⟩
      rw [parseTime_of_gives r ht, (mkgmtime_eq_iff w hyear.1 hyear.2).mpr hfits]

end Sentences

/-- `mkgmtime` finds the second of the calendar, in order and with 86400 seconds for a day, exactly
for the times that `time_t` can hold, which are all of them in 64 bits. The reader only keeps
timestamps that sentences give, and nothing of other sentences, exactly if it takes a sentence
right. -/
theorem timestamps_iff (w : TimeT) :
    (∀ t, InRange t → (mkgmtime w (tmOf t) = t.seconds 1970 ↔ Fits w t)) ∧
      (∀ t, InRange t → Fits .long64 t) ∧
      (∀ t u, InRange t → InRange u → Fits w u → t.Earlier u →
        mkgmtime w (tmOf t) < mkgmtime w (tmOf u)) ∧
      (∀ t u, InRange t → InRange u → Fits w u → t.date.Next u.date → t.time = u.time →
        mkgmtime w (tmOf u) = mkgmtime w (tmOf t) + 86400) ∧
      ∀ buf, (∀ r, Faithful w r buf) ↔ TakenRight w buf := by
  refine ⟨fun t ht => mkgmtime_eq_iff w ht.1 ht.2, fun t ht => fits_long64 ht.1 ht.2, ?_, ?_,
    faithful_iff w⟩
  · intro t u ht hu hfits hearlier
    have hlt := hearlier.seconds_lt ht.1
    rw [(mkgmtime_eq_iff w ht.1 ht.2).mpr (hlt.trans hfits),
      (mkgmtime_eq_iff w hu.1 hu.2).mpr hfits]
    exact Int.ofNat_lt.mpr hlt
  · intro t u ht hu hfits hnext htime
    have hsum : u.seconds 1970 = t.seconds 1970 + 86400 := by
      rw [DateTime.seconds, DateTime.seconds, hnext.dayNumber_eq ht.1, htime]
      omega
    have hle : t.seconds 1970 ≤ u.seconds 1970 := by omega
    have hfits' : Fits w t := hle.trans_lt hfits
    rw [(mkgmtime_eq_iff w ht.1 ht.2).mpr hfits', (mkgmtime_eq_iff w hu.1 hu.2).mpr hfits, hsum]
    rfl

/-- The time `99:60:60` becomes a timestamp. -/
theorem not_faithful_hour :
    ¬Faithful .long64 ⟨-1, -1, -1, 0⟩
      (ascii "$GPRMC,996060,A,4807.038,N,01131.000,E,022.4,084.4,230312,003.1,W") := by
  intro h
  obtain ⟨t, ms, ⟨htime, _⟩, _⟩ := h.changed (by decide +kernel)
  have hhour : decimal ((field
      (ascii "$GPRMC,996060,A,4807.038,N,01131.000,E,022.4,084.4,230312,003.1,W") 1).take 2) =
      some 99 := by decide +kernel
  have heq := Option.some.inj (hhour.symm.trans htime.hour)
  have hlt := t.time.hour_lt
  omega

end Gps

end SierraSdk
