import SierraSdk.Library.Access
import SierraSdk.Sms.GsmText

/-!
# GSM messages as strings of digits

`SwiMakePdu` makes a message to be sent, and `SwiExtractpdu` reads one that is stored on the
device, with the address of the service center in front. Both are strings of hexadecimal digits.

`SwiExtractpdu` is given with its accesses to the string and to the text. A digit behind the
string is read as `0`, but such an access is not in bounds. `pSendr` is the memory from the
buffer of the sender's number on, up to a NUL behind it. `rounds` bounds the loops with a
counter of one byte, which might not end.
-/

namespace SierraSdk

namespace Sms

open Memory Accesses

/-- The codes that are returned. -/
inductive PduRc where
  | none
  | bufferSize
  | invalidArg
  | msgLenTooLong
  | smscNumCorrupted
  deriving DecidableEq

/-- `DEFAULTENCODING`, `EIGHTBITENCODING` and `UCSENCODING` -/
inductive SmsEncoding where
  | default
  | eightBit
  | ucs
  deriving DecidableEq

def SmsEncoding.code : SmsEncoding → UInt16
  | .default => 0
  | .eightBit => 4
  | .ucs => 8

section Strings

/-- The string at the beginning of a memory. -/
def cString (mem : List UInt8) : List UInt8 := mem.takeWhile (· ≠ 0)

/-- The first pairs of characters, swapped. -/
def swapPairs : ℕ → List UInt8 → List UInt8
  | n + 1, a :: b :: rest => b :: a :: swapPairs n rest
  | _, rest => rest

/-- `Swapchars`, which has the length in an `INT8`. -/
def Swapchars (pStr : List UInt8) : PduRc × List UInt8 :=
  let Length := (UInt8.ofNat (cString pStr).length).toInt8
  if Length ≤ 1 then (.smscNumCorrupted, pStr)
  else (.none, swapPairs (Length.toInt.toNat / 2) pStr)

/-- `%02X` of a `USHORT`: two digits, or as many as it has. -/
def hexShort (n : UInt16) : List UInt8 :=
  if n < 0x100 then hexOctet n.toUInt8
  else if n < 0x1000 then hexChar (n >>> 8).toUInt8 :: hexOctet n.toUInt8
  else hexOctet (n >>> 8).toUInt8 ++ hexOctet n.toUInt8

end Strings

section Make

/-- `MAXSMS_BINARY` -/
def maxsmsBinary : ℕ := 140

def Ucs2pdu (binary : List UInt8) : List UInt8 :=
  (binary.take maxsmsBinary).flatMap fun b => 48 :: 48 :: hexOctet b

def Eightbitpdu (binary : List UInt8) : List UInt8 :=
  (binary.take maxsmsBinary).flatMap hexOctet

/-- `ENTER_KEY` -/
def enterKey : UInt8 := 0x0A

/-- The number in pairs, as `tmp` has it, and `numberlength`. A newline is taken to be the last
character. -/
def tmpNumber (number : List UInt8) : List UInt8 × ℕ :=
  let r :=
    if enterKey ∈ number then (number.take (number.length - 1), number.length - 1)
    else (number, number.length)
  (if r.2 % 2 ≠ 0 then r.1 ++ [70] else r.1, r.2)

/-- `coding`, of the character that selects the alphabet. -/
def codingOf (alphabet : UInt8) : SmsEncoding :=
  if alphabet = 50 then .ucs else if alphabet = 49 then .eightBit else .default

/-- The digits of the text, as `tmp2` has them, and `messagelen`. -/
def tmpText (pMessage : List UInt8) : SmsEncoding → List UInt8 × ℕ
  | .ucs => (Ucs2pdu pMessage, pMessage.length * 2)
  | .eightBit => (Eightbitpdu pMessage, pMessage.length)
  | .default => ((Text2Pdu pMessage).pPdu, (Text2Pdu pMessage).countedCharacters)

/-- `SwiMakePdu`: the code that is returned, and the digits; `none` if `tmp` or `tmp2` overflows. -/
def SwiMakePdu (number pMessage : List UInt8) (validity : UInt16) (alphabet : UInt8) :
    Option (PduRc × List UInt8) :=
  let tmp := tmpNumber number
  let tmp2 := tmpText pMessage (codingOf alphabet)
  let numberformat : UInt16 := if number.length ≤ 20 then 129 else 145
  if 50 ≤ number.length ∨ 50 ≤ tmp.1.length ∨ 500 ≤ tmp2.1.length then none
  else
    let flags : UInt16 := 1 + 16
    some ((Swapchars tmp.1).1,
      [48, 48] ++ hexShort flags ++ [48, 48] ++ hexShort (UInt16.ofNat tmp.2) ++
        hexShort numberformat ++ (Swapchars tmp.1).2 ++ [48, 48] ++
        hexShort (codingOf alphabet).code ++ hexShort validity ++
        hexShort (UInt16.ofNat tmp2.2) ++ tmp2.1)

end Make

/-- What `SwiExtractpdu` accesses: a digit of the string, a character of it that is copied, and
a character of the text. -/
inductive PduObject where
  | digit
  | character
  | text

/-- The buffers of the caller, and their lengths. -/
structure PduBuffers where
  pSenderAddrLength : UInt8
  pSendr : List UInt8
  pTextMsgLength : UInt8
  pScAddrLength : UInt8
  pDate : List UInt8
  pTime : List UInt8
  pMessage : ℕ → UInt8
  pSmsc : List UInt8

/-- Cleared buffers with room for any number and any text. -/
def largeBuffers : PduBuffers where
  pSenderAddrLength := 255
  pSendr := List.replicate 255 0
  pTextMsgLength := 255
  pScAddrLength := 255
  pDate := []
  pTime := []
  pMessage := fun _ => 0
  pSmsc := []

section Reading

/-- `Octet2bin` at a position of the string. -/
def octetAt (pPdu : List UInt8) (pos : ℕ) : UInt64 :=
  Octet2bin (pPdu.getD pos 0) (pPdu.getD (pos + 1) 0)

def readOctet (pPdu : List UInt8) (pos : ℕ) : Traced PduObject UInt64 :=
  ⟨span .digit pPdu.length pos 2, some (octetAt pPdu pos)⟩

def readDigits (pPdu : List UInt8) (pos n : ℕ) : Traced PduObject (List UInt8) :=
  ⟨span .digit pPdu.length pos n, some ((pPdu.drop pos).takeD n 0)⟩

/-- `strncpy`, which reads up to a NUL. -/
def readString (pPdu : List UInt8) (pos n : ℕ) : Traced PduObject (List UInt8) :=
  ⟨span .character (pPdu.length + 1) pos (min n (max 1 (pPdu.length + 1 - pos))),
    some ((pPdu.drop pos).takeD n 0)⟩

/-- The text, written at some indexes in turn. -/
def textAt (pTextMsgLength : UInt8) (indexes : List ℕ) : List (Access PduObject) :=
  indexes.map fun index => ⟨.text, pTextMsgLength.toNat, index⟩

/-- The character `F` at the end of a number of `n` characters. -/
def clearFiller (mem : List UInt8) (n : ℕ) : List UInt8 :=
  if n ≠ 0 ∧ mem.getD (n - 1) 0 = 70 then mem.set (n - 1) 0 else mem

end Reading

section Decoders

/-- The indexes at which the loop of `PduDefaultEncoding2text` writes the text. -/
def textIndexes (binary : ℕ → UInt8) (skip UDLength : ℕ) (text : ℕ → UInt8) : List ℕ :=
  (List.range UDLength).flatMap fun charcounter =>
    if skip ≤ charcounter ∧ readSeptet binary (7 * charcounter) ≠ gsmEscChar then
      [(charcounter - skip - (decodeLoop binary skip charcounter ⟨text, false, 0⟩).numEscChars) %
        2 ^ 8]
    else []

/-- `PduDefaultEncoding2text`, of the user data at a position of the string. -/
def readDefaultEncoding (pPdu : List UInt8) (pos : ℕ) (b : PduBuffers) (with_udh : Bool)
    (UDLength : ℕ) : Traced PduObject PduBuffers :=
  match PduDefaultEncoding2text (pPdu.drop pos) b.pTextMsgLength b.pMessage with_udh UDLength with
  | .error len => ⟨[], some { b with pTextMsgLength := len }⟩
  | .ok (len, text) =>
      let octets := (UDLength * 7 + 7) / 8
      let skip := (skipCharacters (pPdu.drop pos) with_udh).toNat
      ⟨(if with_udh then span .digit pPdu.length (pos + 2) 2 else []) ++
          span .digit pPdu.length (pos + 2) (2 * octets) ++
          textAt b.pTextMsgLength
            (textIndexes (userData (pPdu.drop pos) octets) skip UDLength b.pMessage) ++
          textAt b.pTextMsgLength [len],
        some { b with pMessage := text }⟩

/-- The rounds of `for (ctr = 0; ctr < bound; ctr++)` with a counter of one byte, as many as are
given, and whether the loop ended. -/
def byteRounds (bound : UInt64) : ℕ → UInt8 → List UInt8 × Bool
  | 0, _ => ([], false)
  | rounds + 1, ctr =>
      if ctr.toUInt64 < bound then
        (ctr :: (byteRounds bound rounds (ctr + 1)).1, (byteRounds bound rounds (ctr + 1)).2)
      else ([], true)

/-- The octets that a header takes, as a `ULONG`. -/
def skipOctets (pPdu : List UInt8) (pos : ℕ) (with_udh : Bool) : UInt64 :=
  if with_udh then octetAt pPdu (pos + 2) + 1 else 0

/-- `binary` of `PduEncoded2text`: the octets behind the header. -/
def binaryOctet (pPdu : List UInt8) (pos : ℕ) (skip : UInt64) (UDLength k : ℕ) : UInt8 :=
  if k + skip.toNat < UDLength then (octetAt pPdu (pos + 2 * (k + skip.toNat) + 2)).toUInt8
  else 0

/-- The counters of odd rounds take a character each: the characters with their octets. -/
def ucsWrites : List UInt8 → UInt8 → List (UInt8 × UInt8)
  | [], _ => []
  | ctr :: ctrs, UCSCtr =>
      if ctr % 2 ≠ 0 then (UCSCtr, ctr) :: ucsWrites ctrs (UCSCtr + 1) else ucsWrites ctrs UCSCtr

/-- The copied characters `index` from octets `ctr`. -/
def writeText (binary : ℕ → UInt8) (writes : List (UInt8 × UInt8)) (text : ℕ → UInt8) : ℕ → UInt8 :=
  writes.foldl (fun text w => Function.update text w.1.toNat (binary w.2.toNat)) text

/-- The writes of a loop and, if it ends, of the NUL behind the text. -/
def endText (b : PduBuffers) (binary : ℕ → UInt8) (writes : List (UInt8 × UInt8)) (ended : Bool)
    (len : ℕ) : Traced PduObject PduBuffers :=
  ⟨textAt b.pTextMsgLength (writes.map fun w => w.1.toNat) ++
      (if ended then textAt b.pTextMsgLength [len] else []),
    if ended then
      some { b with pMessage := Function.update (writeText binary writes b.pMessage) len 0 }
    else none⟩

/-- `PduEncoded2text`, of the user data at a position of the string. -/
def PduEncoded2text (rounds : ℕ) (pPdu : List UInt8) (pos : ℕ) (b : PduBuffers) (with_udh : Bool)
    (UDLength : UInt64) (encoding : SmsEncoding) : Traced PduObject PduBuffers := do
  let skip := skipOctets pPdu pos with_udh
  let binary := binaryOctet pPdu pos skip UDLength.toNat
  let loop := byteRounds (UDLength - skip) rounds 0
  Traced.log (if with_udh then span .digit pPdu.length (pos + 2) 2 else [])
  Traced.log ((List.range UDLength.toNat).flatMap fun octetcounter =>
    if skip ≤ UInt64.ofNat octetcounter then
      span .digit pPdu.length (pos + 2 * octetcounter + 2) 2 else [])
  if encoding = .eightBit then
    if b.pTextMsgLength.toUInt64 < UDLength then
      pure { b with pTextMsgLength := UDLength.toUInt8 }
    else
      endText b binary (loop.1.map fun ctr => (ctr, ctr)) loop.2 (UDLength - skip).toNat
  else
    if b.pTextMsgLength.toUInt64 < UDLength / 2 then
      pure { b with pTextMsgLength := (UDLength / 2).toUInt8 }
    else
      -- the length of the text is the last value of `UCSCtr`, a byte
      endText b binary (ucsWrites loop.1 0) loop.2 ((ucsWrites loop.1 0).length % 2 ^ 8)

/-- `Pdu2text`; the callers ignore the code that it returns. -/
def Pdu2text (rounds : ℕ) (pPdu : List UInt8) (pos : ℕ) (b : PduBuffers) (with_udh : Bool)
    (encoding : SmsEncoding) : Traced PduObject PduBuffers := do
  let UDLength ← readOctet pPdu pos
  if 184 < UDLength then pure b
  else
    match encoding with
    | .default => readDefaultEncoding pPdu pos b with_udh UDLength.toNat
    | _ => PduEncoded2text rounds pPdu pos b with_udh UDLength encoding

/-- The number of a sender, behind its length and its format: the code that `Swapchars` returns,
and the memory. -/
def readSender (pPdu : List UInt8) (pos : ℕ) (Length : ℕ) (pSendr : List UInt8) :
    Traced PduObject (PduRc × List UInt8) := do
  let copied ← readString pPdu (pos + 4) (Length + Length % 2)
  let swapped := Swapchars (copied ++ pSendr.drop copied.length)
  pure (swapped.1, clearFiller (swapped.2.set Length 0) Length)

/-- The encoding that the low digit of the coding scheme stands for. -/
def encodingOf (c : UInt8) : SmsEncoding :=
  if c = 56 then .ucs else if c = 52 then .eightBit else .default

def ExtractSMSDeliver (rounds : ℕ) (pPdu : List UInt8) (pos : ℕ) (b : PduBuffers)
    (with_udh : Bool) : Traced PduObject (PduRc × PduBuffers) := do
  let Length ← readOctet pPdu pos
  if b.pSenderAddrLength.toUInt64 < Length then
    pure (.bufferSize, { b with pSenderAddrLength := Length.toUInt8 })
  else if 160 ≤ Length then pure (.msgLenTooLong, b)
  else do
    let sender ← readSender pPdu pos Length.toNat b.pSendr
    let pos := pos + 4 + Length.toNat + Length.toNat % 2 + 3
    let scheme ← readDigits pPdu pos 1
    let date ← readDigits pPdu (pos + 1) 6
    let time ← readDigits pPdu (pos + 7) 6
    let b := { b with
      pSendr := sender.2
      pDate := [date.getD 5 0, date.getD 4 0, 45, date.getD 3 0, date.getD 2 0, 45,
        date.getD 1 0, date.getD 0 0]
      pTime := [time.getD 1 0, time.getD 0 0, 58, time.getD 3 0, time.getD 2 0, 58,
        time.getD 5 0, time.getD 4 0] }
    Pdu2text rounds pPdu (pos + 15) b with_udh (encodingOf (scheme.headD 0)) >>= fun b =>
      pure (sender.1, b)

/-- `ExtractSMSSent`, which takes the encoding to be the default. -/
def ExtractSMSSent (rounds : ℕ) (pPdu : List UInt8) (pos : ℕ) (b : PduBuffers)
    (with_udh : Bool) : Traced PduObject (PduRc × PduBuffers) := do
  let length ← readOctet pPdu pos
  if b.pSenderAddrLength.toUInt64 < length then
    pure (.bufferSize, { b with pSenderAddrLength := length.toUInt8 })
  else do
    let sender ← readSender pPdu pos length.toNat b.pSendr
    let pos := pos + 4 + length.toNat + length.toNat % 2 + 6
    Pdu2text rounds pPdu pos { b with pSendr := sender.2 } with_udh .default >>= fun b =>
      pure (sender.1, b)

/-- The text about a type of message that is not decoded. -/
def unsupportedText (type : UInt64) : List UInt8 :=
  ("Message format (".toList ++ (if type = 2 then ['2'] else ['3']) ++
    ") is not supported. Cannot decode.\n".toList).map fun c => UInt8.ofNat c.toNat

/-- The buffers once their strings are empty. -/
def PduBuffers.cleared (b : PduBuffers) : PduBuffers :=
  { b with
      pSendr := b.pSendr.set 0 0
      pDate := []
      pTime := []
      pMessage := Function.update b.pMessage 0 0
      pSmsc := [] }

def SwiExtractpdu (rounds : ℕ) (pPdu : List UInt8) (b : PduBuffers) :
    Traced PduObject (PduRc × PduBuffers) := do
  let b := b.cleared
  Traced.log (textAt b.pTextMsgLength [0])
  let octets ← readOctet pPdu 0
  let Length := octets * 2 - 2
  if b.pScAddrLength.toUInt64 < Length then
    pure (.bufferSize, { b with pScAddrLength := Length.toUInt8 })
  else if 0 < Length ∧ Length ≤ 16 then do
    let copied ← readString pPdu 4 Length.toNat
    let b := { b with
      pSmsc := cString (clearFiller (Swapchars (copied ++ [0])).2 Length.toNat) }
    let pos := 4 + Length.toNat
    let flags ← readOctet pPdu pos
    if flags &&& 3 = 0 then
      ExtractSMSDeliver rounds pPdu (pos + 2) b (flags &&& 64 ≠ 0)
    else if flags &&& 3 = 1 then
      ExtractSMSSent rounds pPdu (pos + 4) b (flags &&& 64 ≠ 0)
    else do
      let text := unsupportedText (flags &&& 3)
      Traced.log (textAt b.pTextMsgLength (List.range (text.length + 1)))
      pure (.none, { b with pMessage := store b.pMessage 0 (text ++ [0]) })
  else pure (.invalidArg, { b with pScAddrLength := Length.toUInt8 })

end Decoders

end Sms

end SierraSdk
