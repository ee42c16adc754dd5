import SierraSdk.Library.Pieces

/-!
# The emergency numbers of the SIM

The SIM holds emergency numbers in three bytes each, with their nibbles swapped and padded with
`F`. `readSIMECCBinaryQMI` and `readSIMECCRecordsQMI` read the hexadecimal text of the file and put
the digits in one list, `ecclistReadSimCardSet` adds the numbers of a property, and
`ecclistAttenuate` leaves out the numbers that the list has twice.

What the functions write is modelled as the characters in a row; the list has room for a hundred.
A record is read on beyond its end if no pair of padding is met, which stops the model.
-/

namespace SierraSdk

namespace Ril

namespace Ecc

open Pieces

/-- `ECC_LIST_BUFFER_SIZE` -/
def eccListBufferSize : ℕ := 100

/-- `ECC_LIST_ADD_COMMA` -/
def eccListAddComma : UInt8 := 0x2C

/-- The padding, `'F'`. -/
def padding : UInt8 := 0x46

section Decoding

/-- The digits of a pair: the low nibble is in front, and the high one can be padding. -/
def pairDigits (high low : UInt8) : List UInt8 := if high ≠ padding then [low, high] else [low]

/-- What is written at a pair of padding: a comma, if the entry had a digit. -/
def endOfEntry (countinterchange : Bool) : List UInt8 :=
  if countinterchange then [eccListAddComma] else []

/-- The inner loop of `readSIMECCBinaryQMI`, for as many pairs. -/
def decodeEntry : ℕ → List UInt8 → Bool → List UInt8
  | rounds + 1, high :: low :: listdecodeptr, countinterchange =>
      if high = padding ∧ low = padding then endOfEntry countinterchange
      else pairDigits high low ++ decodeEntry rounds listdecodeptr true
  | _, _, _ => []

/-- The loop of `readSIMECCBinaryQMI` over the entries. -/
def decodeEntries : ℕ → List UInt8 → List UInt8
  | 0, _ => []
  | numEcc + 1, listdecodeptr =>
      decodeEntry 3 listdecodeptr false ++ decodeEntries numEcc (listdecodeptr.drop 6)

/-- `readSIMECCBinaryQMI`, with what it writes. The length of the text is kept in 16 bits. -/
def readSIMECCBinaryQMI (simResponse : List UInt8) : List UInt8 :=
  let fileDataLen := simResponse.length % 2 ^ 16
  decodeEntries (fileDataLen / 6) simResponse

/-- The inner loop of `readSIMECCRecordsQMI`. It does not look for the end of the text. -/
def decodeRecord : List UInt8 → Bool → Option (List UInt8)
  | high :: low :: listdecodeptr, countinterchange =>
      if high = padding ∧ low = padding then some (endOfEntry countinterchange)
      else (decodeRecord listdecodeptr true).map (pairDigits high low ++ ·)
  | _, _ => none

/-- `readSIMECCRecordsQMI`, with what it writes for the texts of the records. -/
def readSIMECCRecordsQMI : List (List UInt8) → Option (List UInt8)
  | [] => some []
  | simResponse :: rest =>
      (decodeRecord simResponse false).bind fun written =>
        (readSIMECCRecordsQMI rest).map (written ++ ·)

end Decoding

section Attenuation

/-- The delimiters that `strtok` is called with. -/
def isDelimiter (c : UInt8) : Bool := c = 0x20 || c = 0x2C

/-- The property is put behind what has been read, with a comma in between. -/
def merge (extractedNums propValue : List UInt8) : List UInt8 :=
  if propValue = [] then extractedNums
  else if extractedNums = [] then propValue
  else extractedNums ++ eccListAddComma :: propValue

/-- The inner loop of `ecclistAttenuate`, which frees the numbers that are equal to one in front of
them. -/
def freeEqual (elm : Option (List UInt8)) (rest : List (Option (List UInt8))) :
    List (Option (List UInt8)) :=
  rest.map fun other => if elm.isSome && other.isSome && elm = other then none else other

/-- The outer loop. -/
def freeDuplicates : List (Option (List UInt8)) → List (Option (List UInt8))
  | [] => []
  | elm :: rest => elm :: freeDuplicates (freeEqual elm rest)
termination_by listEGNumbers => listEGNumbers.length
decreasing_by rw [freeEqual, List.length_map]; exact Nat.lt_succ_self _

/-- What is written back for a number that has not been freed. -/
def copyBack : Option (List UInt8) → List UInt8
  | some number => number ++ [eccListAddComma]
  | none => []

/-- `ecclistAttenuate`. A full list has no end for `strlen`. The last comma is overwritten. -/
def ecclistAttenuate (extractedNums : List UInt8) : Option (List UInt8) :=
  if eccListBufferSize ≤ extractedNums.length then none
  else
    let listEGNumbers := ((pieces isDelimiter extractedNums).take 32).map some
    let written := (freeDuplicates listEGNumbers).flatMap copyBack
    if eccListBufferSize < written.length then none else some written.dropLast

end Attenuation

section Files

/-- A hexadecimal digit other than the padding. -/
def IsDigit (c : UInt8) : Prop := 0x30 ≤ c ∧ c ≤ 0x39 ∨ 0x41 ≤ c ∧ c ≤ 0x45

/-- An entry of three bytes. -/
structure Entry where
  digits : List UInt8
  length_le : digits.length ≤ 6
  isDigit : ∀ c ∈ digits, IsDigit c

/-- The nibbles of each byte are swapped. -/
def swapPairs : List UInt8 → List UInt8
  | low :: high :: rest => high :: low :: swapPairs rest
  | rest => rest

/-- The text of an entry. -/
def Entry.encode (e : Entry) : List UInt8 :=
  swapPairs (e.digits ++ List.replicate (6 - e.digits.length) padding)

/-- A record: an entry, and the text of the bytes behind it. -/
structure Record where
  entry : Entry
  rest : List UInt8
  isHex : ∀ c ∈ rest, IsDigit c ∨ c = padding

/-- The file, as a whole or in records. -/
inductive EccFile
  | transparent (entries : List Entry)
  | records (list : List Record)

def EccFile.entries : EccFile → List Entry
  | .transparent entries => entries
  | .records list => list.map Record.entry

/-- The numbers of a file. -/
def EccFile.numbers (file : EccFile) : List (List UInt8) :=
  (file.entries.map Entry.digits).filter fun number => !number.isEmpty

/-- What the reader of a file writes. -/
def EccFile.read : EccFile → Option (List UInt8)
  | .transparent entries => some (readSIMECCBinaryQMI (entries.flatMap Entry.encode))
  | .records list =>
      readSIMECCRecordsQMI (list.map fun record => record.entry.encode ++ record.rest)

end Files

end Ecc

end Ril

end SierraSdk
