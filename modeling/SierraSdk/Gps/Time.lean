import SierraSdk.Gps.Nmea
import SierraSdk.Library.Calendar

/-!
# The time of a fix

RMC and ZDA sentences give the date and the time of a fix. The reader keeps the date, and makes a
timestamp in milliseconds of it and of the time, through `mkgmtime`. The width of `time_t` is left
open.
-/

namespace SierraSdk

namespace Gps

open Calendar

section Mkgmtime

/-- The widths of `time_t`. -/
inductive TimeT
  | long32
  | long64
  deriving DecidableEq

def TimeT.bits : TimeT → ℕ
  | .long32 => 32
  | .long64 => 64

/-- The members of `struct tm` that matter. -/
structure Tm where
  tmYear : ℤ
  tmMon : ℤ
  tmMday : ℤ
  tmHour : ℤ
  tmMin : ℤ
  tmSec : ℤ

/-- A `short`. -/
def short (n : ℤ) : ℤ := n.bmod (2 ^ 16)

/-- `m_to_d`, the days in front of a month of a year without a leap day. -/
def mToD : List ℤ := [0, 31, 59, 90, 120, 151, 181, 212, 243, 273, 304, 334]

/-- `mkgmtime`. What is written to `result` is cut to the width of `time_t`. -/
def mkgmtime (w : TimeT) (t : Tm) : ℤ :=
  let month := short t.tmMon
  let year := short (t.tmYear + month.tdiv 12 + 1900)
  let month := month.tmod 12
  let year := if month < 0 then short (year - 1) else year
  let month := if month < 0 then month + 12 else month
  let result := (year - 1970) * 365 + mToD.getD month.toNat 0
  let year := if month ≤ 1 then short (year - 1) else year
  let result := result + (year - 1968).tdiv 4
  let result := result - (year - 1900).tdiv 100
  let result := result + (year - 1600).tdiv 400
  let result := result + t.tmMday
  let result := result - 1
  let result := result * 24
  let result := result + t.tmHour
  let result := result * 60
  let result := result + t.tmMin
  let result := result * 60
  let result := result + t.tmSec
  result.bmod (2 ^ w.bits)

end Mkgmtime

section Update

/-- The part of the reader that holds the date and the time of the fix. -/
structure FixTime where
  utcYear : ℤ
  utcMon : ℤ
  utcDay : ℤ
  timestamp : ℤ
  deriving DecidableEq

/-- A part of a token. -/
def Token.part (tok : Token) (start len : ℕ) : Token := ⟨tok.p.drop start, len⟩

/-- The milliseconds of a time, by the characters behind the seventh one. -/
def milliseconds (tok : Token) : ℤ :=
  if tok.len = 9 then str2int (tok.part 7 2) * 10
  else if tok.len = 8 then str2int (tok.part 7 1) * 100
  else if 10 ≤ tok.len then str2int (tok.part 7 3)
  else 0

/-- The time of a token on the date that the reader holds. -/
def timeOf (r : FixTime) (tok : Token) : Tm where
  tmYear := r.utcYear - 1900
  tmMon := r.utcMon - 1
  tmMday := r.utcDay
  tmHour := str2int (tok.part 0 2)
  tmMin := str2int (tok.part 2 2)
  tmSec := str2int (tok.part 4 2)

/-- `nmea_reader_update_time` -/
def updateTime (w : TimeT) (r : FixTime) (tok : Token) : FixTime :=
  if tok.len < 6 then r
  else if r.utcYear < 0 then r
  else { r with timestamp := mkgmtime w (timeOf r tok) * 1000 + milliseconds tok }

/-- `nmea_reader_update_cdate` -/
def updateCdate (r : FixTime) (tokD tokM tokY : Token) : FixTime :=
  if tokD.len < 2 ∨ tokM.len < 2 ∨ tokY.len < 4 then r
  else
    { r with
      utcDay := str2int (tokD.part 0 2)
      utcMon := str2int (tokM.part 0 2)
      utcYear := str2int (tokY.part 0 4) }

/-- `nmea_reader_update_date`. A sign bit of one of the three is one of their union. -/
def updateDate (w : TimeT) (r : FixTime) (date time : Token) : FixTime :=
  let day := str2int (date.part 0 2)
  let mon := str2int (date.part 2 2)
  let year := str2int (date.part 4 2) + 2000
  if date.len ≠ 6 then r
  else if day < 0 ∨ mon < 0 ∨ year < 0 then r
  else updateTime w { r with utcYear := year, utcMon := mon, utcDay := day } time

/-- The sentences that the fix takes its time from. -/
inductive FixSentence
  | rmc
  | zda
  deriving DecidableEq

/-- A sentence that the fix takes its time from, by its first token: RMC with the status `A`, or
ZDA with a year and a time. -/
def fixSentence (buf : List UInt8) : Option FixSentence :=
  let tokens := nmeaTokenizerInit buf
  let tok := nmeaTokenizerGet tokens 0
  if buf.length < 9 ∨ tok.len < 5 then none
  else if (tok.p.drop 2).take 3 = ascii "RMC" then
    if (nmeaTokenizerGet tokens 2).first = 65 then some .rmc else none
  else if (tok.p.drop 2).take 3 = ascii "ZDA" then
    if (nmeaTokenizerGet tokens 4).first ≠ 0 ∧ (nmeaTokenizerGet tokens 1).first ≠ 0 then some .zda
    else none
  else none

/-- What `nmea_reader_parse` does to the time of the fix. The result of `nmea_reader_update_cdate`
is not looked at. -/
def parseTime (w : TimeT) (r : FixTime) (buf : List UInt8) : FixTime :=
  let tok := nmeaTokenizerGet (nmeaTokenizerInit buf)
  match fixSentence buf with
  | some .rmc => updateDate w r (tok 9) (tok 1)
  | some .zda => updateTime w (updateCdate r (tok 2) (tok 3) (tok 4)) (tok 1)
  | none => r

end Update

end Gps

end SierraSdk
