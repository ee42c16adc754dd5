import Mathlib.Algebra.Group.Nat.Defs
import Mathlib.Data.Int.Notation
import Mathlib.Logic.Function.Basic
import SierraSdk.Library.Machine

/-!
# The satellites that NMEA sentences report

`nmea_reader_addc` collects the characters from the NMEA port, and `nmea_reader_parse` takes a
sentence apart. GSV sentences put satellites in a list, up to a total that the first sentence of a
group announces; GSA sentences mark those that are used in the fix. Whether a group begins a new
list is kept in a flag that RMC sentences clear.

A step reports the elements of the list that it accesses and the amounts by which it shifts. The
list is longer here than in the source, so that a step beyond its end has a meaning. There are
three builds: with the list of all constellations, and with the list of GPS where the mask of the
satellites in use is indexed by their numbers or by their places. The fix itself, and the
elevation, azimuth and signal of a satellite, are not modelled.
-/

namespace SierraSdk

namespace Gps

open Machine

/-- `GNSS_SUPPORT`, `NEW_USED_IN_FIX_MASK`, or neither. -/
inductive Build
  | gnssSupport
  | newUsedInFixMask
  | usedInFixMask
  deriving DecidableEq

/-- `GNSS_MAX_SVS` and `GPS_MAX_SVS`, the capacity of the list. -/
def maxSvs : Build → ℕ
  | .gnssSupport => 64
  | .newUsedInFixMask => 32
  | .usedInFixMask => 32

/-- The width of `used_in_fix_mask`. -/
def maskWidth : ℕ := 32

/-- `NMEA_MAX_SIZE`; the buffer has one more byte. -/
def nmeaMaxSize : ℕ := 128

/-- `MAX_NMEA_TOKENS` -/
def maxNmeaTokens : ℕ := 24

/-- A 32-bit integer. -/
def wrap (n : ℤ) : ℤ := n.bmod (2 ^ 32)

/-- The ASCII codes of a text. -/
def ascii (text : String) : List UInt8 := text.toList.map fun c => UInt8.ofNat c.toNat

section Tokenizer

/-- A token: the text from its first character on, and its length. -/
structure Token where
  p : List UInt8
  len : ℕ
  deriving DecidableEq

/-- The characters of a token. -/
def Token.chars (tok : Token) : List UInt8 := tok.p.take tok.len

/-- The character that a token points to: in front of the end of the text, an empty token points
to the comma behind it. -/
def Token.first (tok : Token) : UInt8 := tok.p.headD 0

/-- Leave out what is in front of and behind the tokens: the dollar sign, the end of the line, and
the checksum. -/
def trimSentence (buf : List UInt8) : List UInt8 :=
  let p := if buf.head? = some 36 then buf.tail else buf
  let p :=
    if p.getLast? = some 10 then
      if p.dropLast.getLast? = some 13 then p.dropLast.dropLast else p.dropLast
    else p
  if 3 ≤ p.length ∧ p[p.length - 3]? = some 42 then p.take (p.length - 3) else p

/-- The loop that splits the text at its commas, for as many rounds. -/
def splitTokens : ℕ → List UInt8 → List Token
  | 0, _ => []
  | rounds + 1, p =>
      if p = [] then []
      else
        let q := (p.takeWhile (· ≠ 44)).length
        ⟨p, q⟩ :: splitTokens rounds (p.drop (q + 1))

/-- `nmea_tokenizer_init`. Each round takes a character at least. -/
def nmeaTokenizerInit (buf : List UInt8) : List Token :=
  let p := trimSentence buf
  (splitTokens p.length p).take maxNmeaTokens

def nmeaTokenizerGet (tokens : List Token) (index : ℕ) : Token := tokens.getD index ⟨[], 0⟩

def isDigit (c : UInt8) : Bool := 48 ≤ c && c ≤ 57

/-- The number that a token stands for, or `-1`. -/
def str2int (tok : Token) : ℤ :=
  if tok.chars = [] then -1
  else if tok.chars.all isDigit then
    tok.chars.foldl (fun result c => wrap (result * 10 + (c.toNat - 48))) 0
  else -1

end Tokenizer

/-- A satellite of the list. -/
structure SvInfo where
  svid : ℤ
  usedInFix : Bool
  deriving DecidableEq

/-- The reader, with the two variables beside it. The number of satellites only counts up from
zero, one for each that is put in the list. -/
structure NmeaReader where
  inBuf : List UInt8
  overflow : Bool
  numSvs : ℕ
  svList : ℕ → SvInfo
  usedInFixMask : UInt32
  svStatusChanged : Bool
  gsvinfoKeep : Bool
  totalSatellites : ℤ

/-- What a step does that can go wrong. -/
inductive Use
  | list (index : ℕ)
  | shift (amount : ℕ)
  deriving DecidableEq

/-- `nmea_reader_init`. The two variables beside the reader stay as they are. -/
def nmeaReaderInit (r : NmeaReader) : NmeaReader where
  inBuf := []
  overflow := false
  numSvs := 0
  svList := fun _ => ⟨0, false⟩
  usedInFixMask := 0
  svStatusChanged := false
  gsvinfoKeep := r.gsvinfoKeep
  totalSatellites := r.totalSatellites

/-- The reader when the program starts. -/
def NmeaReader.init : NmeaReader where
  inBuf := []
  overflow := false
  numSvs := 0
  svList := fun _ => ⟨0, false⟩
  usedInFixMask := 0
  svStatusChanged := false
  gsvinfoKeep := false
  totalSatellites := 0

section Gsv

/-- The sentences that report satellites in view. -/
def gsvTypes : Build → List (List UInt8)
  | .gnssSupport => [ascii "GPGSV", ascii "GLGSV", ascii "GAGSV", ascii "BDGSV"]
  | .newUsedInFixMask => [ascii "GPGSV", ascii "GLGSV"]
  | .usedInFixMask => [ascii "GPGSV", ascii "GLGSV"]

def noSatellites (tokens : List Token) : ℤ := str2int (nmeaTokenizerGet tokens 3)

def sentenceNumber (tokens : List Token) : ℤ := str2int (nmeaTokenizerGet tokens 2)

def totalSentences (tokens : List Token) : ℤ := str2int (nmeaTokenizerGet tokens 1)

/-- The number of satellites that a GSV sentence finds: the first one begins a new list, if the
list is not to be kept. -/
def foundSvs (r : NmeaReader) (tokens : List Token) : ℕ :=
  if sentenceNumber tokens = 1 ∧ r.gsvinfoKeep = false then 0 else r.numSvs

/-- The total up to which a GSV sentence puts satellites in the list: the first one announces it. -/
def announcedSvs (r : NmeaReader) (tokens : List Token) : ℤ :=
  if sentenceNumber tokens = 1 then wrap (foundSvs r tokens + noSatellites tokens)
  else r.totalSatellites

/-- The loop over the satellites of a sentence, from the `i`-th one on, for as many rounds. -/
def gsvLoop (tokens : List Token) : ℕ → ℕ → NmeaReader → NmeaReader × List Use
  | 0, _, r => (r, [])
  | rounds + 1, i, r =>
      if (r.numSvs : ℤ) < r.totalSatellites then
        let prn := str2int (nmeaTokenizerGet tokens (i * 4 + 4))
        let entry := { r.svList r.numSvs with svid := prn }
        let result := gsvLoop tokens rounds (i + 1)
          { r with
            svList := Function.update r.svList r.numSvs entry
            numSvs := r.numSvs + 1 }
        (result.1, .list r.numSvs :: result.2)
      else (r, [])

/-- What a GSV sentence does in front of the loop. -/
def beginGsv (r : NmeaReader) (tokens : List Token) : NmeaReader :=
  let first := sentenceNumber tokens = 1
  { r with
    numSvs := foundSvs r tokens
    totalSatellites := announcedSvs r tokens
    gsvinfoKeep := if first then true else r.gsvinfoKeep
    svStatusChanged := if first then false else r.svStatusChanged }

/-- A GSV sentence. -/
def parseGsv (r : NmeaReader) (tokens : List Token) : NmeaReader × List Use :=
  if 0 < noSatellites tokens then
    let result := gsvLoop tokens 4 0 (beginGsv r tokens)
    if sentenceNumber tokens = totalSentences tokens then
      ({ result.1 with svStatusChanged := true }, result.2)
    else result
  else (r, [])

end Gsv

section Gsa

/-- The sentence reports a fix. -/
def hasFix (tokens : List Token) : Bool :=
  let status := (nmeaTokenizerGet tokens 2).first
  status ≠ 0 && status ≠ 49

/-- The positive numbers of the satellites in use. -/
def usedPrns (tokens : List Token) : List ℤ :=
  ((List.range 12).map fun i => str2int (nmeaTokenizerGet tokens (i + 3))).filter fun prn => 0 < prn

/-- Set a bit of the mask. -/
def setMaskBit (mask : UInt32) (n : ℕ) : UInt32 := mask ||| UInt32.ofNat (2 ^ n)

/-- One satellite of the list is compared with the number, and marked if it is the one. -/
def markEntry (build : Build) (prn : ℤ) (r : NmeaReader) (j : ℕ) : NmeaReader × List Use :=
  if (r.svList j).svid = prn then
    match build with
    | .gnssSupport =>
        ({ r with svList := Function.update r.svList j { r.svList j with usedInFix := true } },
          [.list j])
    | _ => ({ r with usedInFixMask := setMaskBit r.usedInFixMask j }, [.list j, .shift j])
  else (r, [.list j])

/-- Satellites of the list one after the other. -/
def markEntries (build : Build) (prn : ℤ) :
    NmeaReader → List ℕ → NmeaReader × List Use
  | r, [] => (r, [])
  | r, j :: js =>
      let marked := markEntry build prn r j
      let rest := markEntries build prn marked.1 js
      (rest.1, marked.2 ++ rest.2)

/-- A satellite is in use: it is looked up in the list, up to the announced total, or its number
is the bit of the mask. -/
def markUsed (build : Build) (r : NmeaReader) (prn : ℤ) : NmeaReader × List Use :=
  if build = .newUsedInFixMask then
    let n := (prn - 1).toNat
    ({ r with usedInFixMask := setMaskBit r.usedInFixMask n }, [.shift n])
  else markEntries build prn r (List.range r.totalSatellites.toNat)

/-- Satellites in use one after the other. -/
def markAllUsed (build : Build) : NmeaReader → List ℤ → NmeaReader × List Use
  | r, [] => (r, [])
  | r, prn :: prns =>
      let marked := markUsed build r prn
      let rest := markAllUsed build marked.1 prns
      (rest.1, marked.2 ++ rest.2)

/-- A GSA sentence. -/
def parseGsa (build : Build) (r : NmeaReader) (tokens : List Token) : NmeaReader × List Use :=
  let s := if build = .gnssSupport then r else { r with usedInFixMask := 0 }
  let result := if hasFix tokens then markAllUsed build s (usedPrns tokens) else (s, [])
  ({ result.1 with svStatusChanged := true }, result.2)

end Gsa

/-- The kinds of sentences that matter for the list. -/
inductive SentenceKind
  | gsv
  | gsa
  | rmc
  | other
  deriving DecidableEq

/-- The kind of a sentence of at least nine characters, by its first token. -/
def sentenceKind (build : Build) (buf : List UInt8) : SentenceKind :=
  let tok := nmeaTokenizerGet (nmeaTokenizerInit buf) 0
  if buf.length < 9 ∨ tok.len < 5 then .other
  else if tok.p.take 5 ∈ gsvTypes build then .gsv
  else if (tok.p.drop 2).take 3 = ascii "GSA" then .gsa
  else if (tok.p.drop 2).take 3 = ascii "RMC" then .rmc
  else .other

/-- A whole sentence is parsed. -/
def nmeaReaderParse (build : Build) (r : NmeaReader) : NmeaReader × List Use :=
  let tokens := nmeaTokenizerInit r.inBuf
  match sentenceKind build r.inBuf with
  | .gsv => parseGsv r tokens
  | .gsa => parseGsa build r tokens
  | .rmc => ({ r with gsvinfoKeep := false }, [])
  | .other => (r, [])

/-- A character is added. One that does not fit makes the reader skip the rest of the line. -/
def nmeaReaderAddc (build : Build) (r : NmeaReader) (c : UInt8) : NmeaReader × List Use :=
  if r.overflow then ({ r with overflow := c ≠ 10 }, [])
  else if nmeaMaxSize ≤ r.inBuf.length then ({ r with overflow := true, inBuf := [] }, [])
  else
    let s := { r with inBuf := r.inBuf ++ [c] }
    if c = 10 then
      let result := nmeaReaderParse build s
      ({ result.1 with inBuf := [] }, result.2)
    else (s, [])

/-- What the reader is given: a new beginning, or a character. -/
inductive NmeaInput
  | init
  | addc (c : UInt8)

/-- The machine of the reader. -/
def nmeaStep (build : Build) (r : NmeaReader) : NmeaInput → NmeaReader × List Use
  | .init => (nmeaReaderInit r, [])
  | .addc c => nmeaReaderAddc build r c

end Gps

end SierraSdk
