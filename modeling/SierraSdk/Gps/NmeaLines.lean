import SierraSdk.Gps.Nmea
import SierraSdk.Library.LineBuffer

/-!
# The lines that the NMEA reader hands on

`nmea_reader_addc` hands a complete line to the callback of the framework, if there is one, and to
`nmea_reader_parse`. What the parser does leaves the characters that are being collected alone, so
the reader is a line buffer (`collecting_nmeaReaderAddc`), and a line that exceeds its capacity by
one takes the next line with it (`nmeaSentences_iff`).
-/

namespace SierraSdk

namespace Gps

open Machine LineBuffer

/-- What is called with a sentence. -/
inductive SentenceUse
  | nmeaCb (sentence : List UInt8)
  | nmeaReaderParse (sentence : List UInt8)
  deriving DecidableEq

def SentenceUse.nmeaCb? : SentenceUse → Option (List UInt8)
  | .nmeaCb sentence => some sentence
  | .nmeaReaderParse _ => none

def SentenceUse.parsed? : SentenceUse → Option (List UInt8)
  | .nmeaCb _ => none
  | .nmeaReaderParse sentence => some sentence

/-- The calls that hand on a sentence. -/
def handOn (nmeaCb : Bool) (sentence : List UInt8) : List SentenceUse :=
  (if nmeaCb then [.nmeaCb sentence] else []) ++ [.nmeaReaderParse sentence]

/-- `nmea_reader_addc` with the calls that hand on a sentence. -/
def nmeaSentenceStep (build : Build) (nmeaCb : Bool) (r : NmeaReader) (c : UInt8) :
    NmeaReader × List SentenceUse :=
  ((nmeaReaderAddc build r c).1,
    if r.overflow = false ∧ r.inBuf.length < nmeaMaxSize ∧ c = 10 then
      handOn nmeaCb (r.inBuf ++ [c])
    else [])

/-- The characters that a reader collects. -/
def NmeaReader.collecting (r : NmeaReader) : Buffer UInt8 := ⟨r.inBuf, r.overflow⟩

section Parse

variable (build : Build)

theorem overflow_gsvLoop (tokens : List Token) (rounds i : ℕ) (r : NmeaReader) :
    (gsvLoop tokens rounds i r).1.overflow = r.overflow := by
  induction rounds generalizing i r with
  | zero => rfl
  | succ rounds ih =>
      rw [gsvLoop]
      split_ifs
      · exact ih (i + 1) _
      · rfl

theorem overflow_parseGsv (r : NmeaReader) (tokens : List Token) :
    (parseGsv r tokens).1.overflow = r.overflow := by
  have hloop := overflow_gsvLoop tokens 4 0 (beginGsv r tokens)
  simp only [parseGsv]
  split_ifs
  · exact hloop
  · exact hloop
  · rfl

theorem overflow_markEntry (prn : ℤ) (r : NmeaReader) (j : ℕ) :
    (markEntry build prn r j).1.overflow = r.overflow := by
  cases build with
  | _ =>
      unfold markEntry
      split_ifs
      · rfl
      · rfl

theorem overflow_markEntries (prn : ℤ) (r : NmeaReader) (js : List ℕ) :
    (markEntries build prn r js).1.overflow = r.overflow := by
  induction js generalizing r with
  | nil => rfl
  | cons j js ih => exact (ih _).trans (overflow_markEntry build prn r j)

theorem overflow_markUsed (r : NmeaReader) (prn : ℤ) :
    (markUsed build r prn).1.overflow = r.overflow := by
  rw [markUsed]
  split_ifs
  · rfl
  · exact overflow_markEntries build prn r _

theorem overflow_markAllUsed (r : NmeaReader) (prns : List ℤ) :
    (markAllUsed build r prns).1.overflow = r.overflow := by
  induction prns generalizing r with
  | nil => rfl
  | cons prn prns ih => exact (ih _).trans (overflow_markUsed build r prn)

theorem overflow_parseGsa (r : NmeaReader) (tokens : List Token) :
    (parseGsa build r tokens).1.overflow = r.overflow := by
  simp only [parseGsa]
  split_ifs
  · exact overflow_markAllUsed build r _
  · exact overflow_markAllUsed build { r with usedInFixMask := 0 } _
  · rfl
  · rfl

/-- What the parser does leaves the mark of a line that is too long alone. -/
theorem overflow_nmeaReaderParse (r : NmeaReader) :
    (nmeaReaderParse build r).1.overflow = r.overflow := by
  rw [nmeaReaderParse]
  cases sentenceKind build r.inBuf with
  | gsv => exact overflow_parseGsv r _
  | gsa => exact overflow_parseGsa build r _
  | rmc => rfl
  | other => rfl

end Parse

section Lines

variable (build : Build) (nmeaCb : Bool)

/-- The reader is a line buffer. -/
theorem collecting_nmeaReaderAddc (r : NmeaReader) (c : UInt8) :
    (nmeaReaderAddc build r c).1.collecting = (addLine 10 nmeaMaxSize r.collecting c).1 := by
  cases hoverflow : r.overflow with
  | true => simp [nmeaReaderAddc, addLine, NmeaReader.collecting, hoverflow]
  | false =>
      by_cases hfull : nmeaMaxSize ≤ r.inBuf.length
      · simp [nmeaReaderAddc, addLine, NmeaReader.collecting, hoverflow, hfull]
      · by_cases hc : c = 10
        · simp [nmeaReaderAddc, addLine, NmeaReader.collecting, hoverflow, hfull, hc,
            overflow_nmeaReaderParse]
        · simp [nmeaReaderAddc, addLine, NmeaReader.collecting, hoverflow, hfull, hc]

theorem handedOn_step (r : NmeaReader) (c : UInt8) :
    (nmeaSentenceStep build nmeaCb r c).2 =
      (addLine 10 nmeaMaxSize r.collecting c).2.flatMap (handOn nmeaCb) := by
  cases hoverflow : r.overflow with
  | true => simp [nmeaSentenceStep, addLine, NmeaReader.collecting, hoverflow]
  | false =>
      by_cases hfull : nmeaMaxSize ≤ r.inBuf.length
      · simp [nmeaSentenceStep, addLine, NmeaReader.collecting, hoverflow, hfull,
          Nat.not_lt.mpr hfull]
      · by_cases hc : c = 10
        · simp [nmeaSentenceStep, addLine, NmeaReader.collecting, hoverflow, hfull, hc,
            Nat.not_le.mp hfull]
        · simp [nmeaSentenceStep, addLine, NmeaReader.collecting, hoverflow, hfull, hc]

/-- What is handed on in a run. -/
theorem handedOn_run (r : NmeaReader) (cs : List UInt8) :
    outputs (nmeaSentenceStep build nmeaCb) r cs =
      (outputs (addLine 10 nmeaMaxSize) r.collecting cs).flatMap (handOn nmeaCb) := by
  induction cs generalizing r with
  | nil => rfl
  | cons c cs ih =>
      rw [outputs_cons, outputs_cons, List.flatMap_append, handedOn_step, ih]
      exact congrArg (fun b => _ ++ (outputs (addLine 10 nmeaMaxSize) b cs).flatMap _)
        (collecting_nmeaReaderAddc build r c)

theorem filterMap_handOn (sentences : List (List UInt8)) :
    (sentences.flatMap (handOn nmeaCb)).filterMap SentenceUse.parsed? = sentences ∧
      (sentences.flatMap (handOn nmeaCb)).filterMap SentenceUse.nmeaCb? =
        if nmeaCb then sentences else [] := by
  induction sentences with
  | nil => exact ⟨rfl, by simp⟩
  | cons sentence rest ih =>
      obtain ⟨hparsed, hcb⟩ := ih
      rw [List.flatMap_cons, List.filterMap_append, List.filterMap_append, hparsed, hcb]
      cases nmeaCb with
      | false => exact ⟨rfl, rfl⟩
      | true => exact ⟨rfl, rfl⟩

/-- The complete lines of a text that fit in the buffer of the reader. -/
def fittingLines (cs : List UInt8) : List (List UInt8) :=
  (completeLines 10 [] cs).filter (·.length ≤ nmeaMaxSize)

/-- The lines that fit are handed on, complete and in order, if and only if none of them is behind a
line that exceeds the capacity by its newline. -/
theorem nmeaSentences_iff (r : NmeaReader) (cs : List UInt8) :
    ((outputs (nmeaSentenceStep build nmeaCb) (nmeaReaderInit r) cs).filterMap
          SentenceUse.parsed? = fittingLines cs ∧
        (outputs (nmeaSentenceStep build nmeaCb) (nmeaReaderInit r) cs).filterMap
          SentenceUse.nmeaCb? = if nmeaCb then fittingLines cs else []) ↔
      Unswallowed nmeaMaxSize (completeLines 10 [] cs) := by
  obtain ⟨hparsed, hcb⟩ := filterMap_handOn nmeaCb
    (delivered nmeaMaxSize (completeLines 10 [] cs))
  have hrun : outputs (nmeaSentenceStep build nmeaCb) (nmeaReaderInit r) cs =
      (delivered nmeaMaxSize (completeLines 10 [] cs)).flatMap (handOn nmeaCb) := by
    rw [handedOn_run, ← outputs_addLine]
    rfl
  rw [hrun, hparsed, hcb, ← delivered_eq_filter_iff]
  constructor
  · exact And.left
  · intro h
    refine ⟨h, ?_⟩
    rw [h]
    rfl

/-- A line of 128 characters takes the line behind it with it. -/
theorem not_nmeaSentences_full :
    ¬ ∀ (build : Build) (nmeaCb : Bool) (r : NmeaReader) (cs : List UInt8),
      (outputs (nmeaSentenceStep build nmeaCb) (nmeaReaderInit r) cs).filterMap
          SentenceUse.parsed? = fittingLines cs ∧
        (outputs (nmeaSentenceStep build nmeaCb) (nmeaReaderInit r) cs).filterMap
          SentenceUse.nmeaCb? = if nmeaCb then fittingLines cs else [] := by
  intro h
  have hlines := (h .gnssSupport false NmeaReader.init
    (List.replicate 128 65 ++ [10] ++ [66, 10])).1
  exact absurd hlines (by decide +kernel)

end Lines

end Gps

end SierraSdk
