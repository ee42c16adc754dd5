import Mathlib.Logic.Function.Basic
import SierraSdk.Library.Bits
import SierraSdk.Sms.GsmTables

/-!
# Text in the GSM default alphabet

`Text2Pdu` packs a text into septets, the lowest bit first, and prints the octets in hexadecimal
digits; `PduDefaultEncoding2text` reads the octets and looks the septets up. A `CHAR` is signed:
when `Text2Pdu` looks a character up it is extended by its sign, so one above 127 is never found
and its low seven bits are sent.

A text is sent as the septets `sentSeptets` of its characters (`Sent.putAll`), and what is decoded
from septets is `decodeSeptets` (`decodeLoop_decoded`). So a text comes back if all its characters
are below 128, and of the others only the currency sign does (`textRoundTrips_iff`).
-/

namespace SierraSdk

namespace Sms

open Memory Bits

/-- `(ULONG)` of a `CHAR`. -/
def charToULong (c : UInt8) : ℕ := if c < 128 then c.toNat else 2 ^ 64 - 256 + c.toNat

/-- The entry of the table that `Text2Pdu` finds for a character. -/
def lookup (c : UInt8) : Option UcsGsmCode :=
  ucsGsmCode.find? fun e => charToULong c = e.unicode

/-- A character as it stands in the text when its bits are sent. -/
def sentChar (c : UInt8) : UInt8 :=
  match lookup c with
  | some e => UInt8.ofNat (e.gsmcode &&& 0x7F)
  | none => c

/-- The characters of which septets are sent for a character of the text. -/
def sentSeptets (c : UInt8) : List UInt8 :=
  match lookup c with
  | some e => if 0xFF < e.gsmcode then [gsmEscChar, sentChar c] else [sentChar c]
  | none => [sentChar c]

/-- `tmp`, `counted_characters` and `pdubyteposition` of `Text2Pdu`. -/
structure SeptetBuffer where
  tmp : ℕ → UInt8
  countedCharacters : ℕ
  pdubyteposition : ℕ

namespace SeptetBuffer

def cleared : SeptetBuffer := ⟨fun _ => 0, 0, 0⟩

/-- One bit of a character is set or cleared. -/
def putBit (ch : UInt8) (s : SeptetBuffer) (bit : ℕ) : SeptetBuffer :=
  let pdubitnr := 7 * s.countedCharacters + bit
  let pdubyteposition := pdubitnr / 8
  let pdubitposition := pdubitnr % 8
  let byte := s.tmp pdubyteposition
  { s with
      tmp := Function.update s.tmp pdubyteposition
        (if ch.toBitVec.getLsbD bit then ⟨byte.toBitVec ||| 1#8 <<< pdubitposition⟩
        else ⟨byte.toBitVec &&& ~~~(1#8 <<< pdubitposition)⟩)
      pdubyteposition := pdubyteposition }

/-- The seven low bits of a character. -/
def put (s : SeptetBuffer) (ch : UInt8) : SeptetBuffer :=
  let s := (List.range 7).foldl (putBit ch) s
  { s with countedCharacters := s.countedCharacters + 1 }

end SeptetBuffer

/-- A hexadecimal digit of `%02X`. -/
def hexChar (d : UInt8) : UInt8 := if d < 10 then d + 48 else d + 55

/-- `%02X` -/
def hexOctet (b : UInt8) : List UInt8 := [hexChar (b >>> 4), hexChar (b &&& 15)]

/-- What `Text2Pdu` leaves: the text, the digits, and the number of septets. -/
structure SentText where
  pText : List UInt8
  pPdu : List UInt8
  countedCharacters : ℕ

/-- `Text2Pdu`; the byte behind the last one, which is cleared too, is not read. -/
def Text2Pdu (pText : List UInt8) : SentText :=
  let s := pText.foldl (fun s c => (sentSeptets c).foldl SeptetBuffer.put s) .cleared
  { pText := pText.map sentChar
    pPdu := (load s.tmp 0 (s.pdubyteposition + 1)).flatMap hexOctet
    countedCharacters := s.countedCharacters }

/-- The value of a digit, a `CHAR`. -/
def octetDigit (c : UInt8) : ℤ :=
  if 57 < c.toInt8.toInt then c.toInt8.toInt - 55 else c.toInt8.toInt - 48

/-- `Octet2bin` -/
def Octet2bin (octet0 octet1 : UInt8) : UInt64 :=
  (UInt64.ofInt (octetDigit octet0) <<< 4) + UInt64.ofInt (octetDigit octet1)

/-- One round of the loop that reads a septet. -/
def shiftIn (c : UInt8) (b : Bool) : UInt8 :=
  let c := if b then c ||| 128 else c
  (c >>> 1) &&& 127

/-- The septet from a bit position on. -/
def readSeptet (binary : ℕ → UInt8) (bitposition : ℕ) : UInt8 :=
  (List.range 7).foldl (fun c bitcounter =>
    let nr := bitposition + bitcounter
    shiftIn c ((binary (nr / 8)).toBitVec.getLsbD (nr % 8))) 0

/-- The character of a code. -/
def gsmChar (c : UInt8) : UInt8 := UInt8.ofNat (gsmToUcs2.getD c.toNat 0)

/-- The character of a code that follows an escape: the last one that matches, or the code. -/
def escapedChar (c : UInt8) : UInt8 :=
  escapedGsm.foldl (fun t e => if c = UInt8.ofNat e.gsmcode then UInt8.ofNat e.unicode else t) c

/-- `text`, `EscFlag` and `NumEscChars` of `PduDefaultEncoding2text`. -/
structure TextBuffer where
  text : ℕ → UInt8
  escFlag : Bool
  numEscChars : ℕ

/-- A septet that is not skipped. -/
def TextBuffer.put (charcounter : ℕ) (c : UInt8) (s : TextBuffer) : TextBuffer :=
  if gsmEscChar ≠ c then
    let index := (charcounter - s.numEscChars) % 2 ^ 8
    if s.escFlag = false then { s with text := Function.update s.text index (gsmChar c) }
    else
      { s with
          text := Function.update s.text index (escapedChar c)
          escFlag := false }
  else
    { s with
        escFlag := true
        numEscChars := s.numEscChars + 1 }

/-- The loop of `PduDefaultEncoding2text`. -/
def decodeLoop (binary : ℕ → UInt8) (skipCharacters UDLength : ℕ) (s : TextBuffer) : TextBuffer :=
  (List.range UDLength).foldl (fun s charcounter =>
    if skipCharacters ≤ charcounter then
      s.put (charcounter - skipCharacters) (readSeptet binary (7 * charcounter))
    else s) s

/-- The octets behind the first one, copied to a cleared buffer. -/
def userData (pPdu : List UInt8) (octets octetcounter : ℕ) : UInt8 :=
  if octetcounter < octets then
    (Octet2bin (pPdu.getD (2 * octetcounter + 2) 0) (pPdu.getD (2 * octetcounter + 3) 0)).toUInt8
  else 0

/-- The septets that a header takes, as a `ULONG`. -/
def skipCharacters (pPdu : List UInt8) (with_udh : Bool) : UInt64 :=
  if with_udh then ((Octet2bin (pPdu.getD 2 0) (pPdu.getD 3 0) + 1) * 8 + 6) / 7 else 0

/-- `PduDefaultEncoding2text`: the length of the text, and the text; or, if the buffer is too
small, the length that is stored at `pTextMsgLength`. The first two digits are the length. -/
def PduDefaultEncoding2text (pPdu : List UInt8) (pTextMsgLength : UInt8) (text : ℕ → UInt8)
    (with_udh : Bool) (UDLength : ℕ) : Except UInt8 (ℕ × (ℕ → UInt8)) :=
  if pTextMsgLength.toNat < UDLength then .error (UInt8.ofNat UDLength)
  else
    let skip := skipCharacters pPdu with_udh
    let octets := (UDLength * 7 + 7) / 8
    let s := decodeLoop (userData pPdu octets) skip.toNat UDLength ⟨text, false, 0⟩
    -- below zero if the header is longer than the user data
    let len := (UInt64.ofNat UDLength - skip - UInt64.ofNat s.numEscChars).toNat
    .ok (len, Function.update s.text len 0)

/-- The bits of a buffer, the lowest of a byte first. -/
def lowBitsOf (d : ℕ → UInt8) : ℕ → Bool := lsb fun k => (d k).toBitVec

/-- The bits of a septet. -/
def septetField (ch : UInt8) : List Bool := lsbField 7 ch.toBitVec

section Encode

/-- The bits of characters were sent, one after the other, into a cleared buffer. -/
structure Sent (s : SeptetBuffer) (chars : List UInt8) : Prop where
  bits : lowBitsOf s.tmp = store (fun _ => false) 0 (chars.flatMap septetField)
  countedCharacters : s.countedCharacters = chars.length
  pdubyteposition : s.pdubyteposition = (7 * chars.length - 1) / 8

theorem length_flatMap_septetField (chars : List UInt8) :
    (chars.flatMap septetField).length = 7 * chars.length := by
  simp [septetField, List.length_flatMap, Nat.mul_comm]

theorem sent_cleared : Sent .cleared [] where
  bits := by
    funext p
    simp [lowBitsOf, lsb, SeptetBuffer.cleared]
  countedCharacters := rfl
  pdubyteposition := rfl

theorem lowBitsOf_putBit (ch : UInt8) (s : SeptetBuffer) (bit : ℕ) :
    lowBitsOf (s.putBit ch bit).tmp =
      store (lowBitsOf s.tmp) (7 * s.countedCharacters + bit) [ch.toBitVec.getLsbD bit] := by
  rw [lowBitsOf, lowBitsOf, ← lsb_set _ (show 0 < 8 by decide)]
  congr 1
  funext k
  simp only [SeptetBuffer.putBit, BitVec.twoPow]
  by_cases hk : k = (7 * s.countedCharacters + bit) / 8
  · rw [hk, Function.update_self, Function.update_self]
    split_ifs <;> rfl
  · rw [Function.update_of_ne hk, Function.update_of_ne hk]

/-- The bits of a character that were sent so far. -/
theorem foldl_putBit (ch : UInt8) (s : SeptetBuffer) (n : ℕ) :
    lowBitsOf ((List.range n).foldl (SeptetBuffer.putBit ch) s).tmp =
        store (lowBitsOf s.tmp) (7 * s.countedCharacters) (lsbField n ch.toBitVec) ∧
      ((List.range n).foldl (SeptetBuffer.putBit ch) s).countedCharacters =
        s.countedCharacters := by
  induction n with
  | zero => exact ⟨(store_nil _ _).symm, rfl⟩
  | succ n ih =>
      obtain ⟨hbits, hcount⟩ := ih
      rw [List.range_succ, List.foldl_append, List.foldl_cons, List.foldl_nil]
      refine ⟨?_, hcount⟩
      have hnext := store_append (lowBitsOf s.tmp) (7 * s.countedCharacters)
        (lsbField n ch.toBitVec) [ch.toBitVec.getLsbD n]
      rw [length_lsbField] at hnext
      rw [lowBitsOf_putBit, hbits, hcount, lsbField_succ, hnext]

theorem Sent.put {s : SeptetBuffer} {chars : List UInt8} (h : Sent s chars) (ch : UInt8) :
    Sent (s.put ch) (chars ++ [ch]) := by
  obtain ⟨hbits, hcount⟩ := foldl_putBit ch s 7
  have hlen := length_flatMap_septetField chars
  constructor
  · change lowBitsOf ((List.range 7).foldl (SeptetBuffer.putBit ch) s).tmp = _
    have hnext := store_append (fun _ => false) 0 (chars.flatMap septetField) (septetField ch)
    rw [Nat.zero_add, hlen] at hnext
    rw [hbits, h.bits, h.countedCharacters, List.flatMap_append, List.flatMap_singleton, ← hnext]
    rfl
  · change _ + 1 = _
    rw [hcount, h.countedCharacters, List.length_append, List.length_singleton]
  · change (7 * ((List.range 6).foldl (SeptetBuffer.putBit ch) s).countedCharacters + 6) / 8 = _
    rw [(foldl_putBit ch s 6).2, h.countedCharacters, List.length_append, List.length_singleton]
    omega

theorem Sent.putChars {s : SeptetBuffer} {chars : List UInt8} (h : Sent s chars)
    (more : List UInt8) : Sent (more.foldl SeptetBuffer.put s) (chars ++ more) := by
  induction more generalizing s chars with
  | nil =>
      rw [List.append_nil]
      exact h
  | cons ch more ih =>
      have hnext := ih (h.put ch)
      rw [List.append_assoc] at hnext
      exact hnext

/-- A text is sent as the septets of its characters. -/
theorem Sent.putAll {s : SeptetBuffer} {chars : List UInt8} (h : Sent s chars)
    (text : List UInt8) :
    Sent (text.foldl (fun s c => (sentSeptets c).foldl SeptetBuffer.put s) s)
      (chars ++ text.flatMap sentSeptets) := by
  induction text generalizing s chars with
  | nil =>
      rw [List.flatMap_nil, List.append_nil]
      exact h
  | cons c text ih =>
      have hnext := ih (h.putChars (sentSeptets c))
      rw [List.append_assoc] at hnext
      exact hnext

end Encode

section Hex

theorem octet2bin_hexOctet (b : UInt8) :
    (Octet2bin (hexChar (b >>> 4)) (hexChar (b &&& 15))).toUInt8 = b := by
  have hall : ∀ n < 256, (Octet2bin (hexChar (UInt8.ofNat n >>> 4))
      (hexChar (UInt8.ofNat n &&& 15))).toUInt8 = UInt8.ofNat n := by decide +kernel
  have hb := hall b.toNat b.toNat_lt
  rw [UInt8.ofNat_toNat] at hb
  exact hb

/-- The octets are read from their digits. -/
theorem octet2bin_flatMap {bytes : List UInt8} {k : ℕ} (hk : k < bytes.length) :
    (Octet2bin ((bytes.flatMap hexOctet).getD (2 * k) 0)
      ((bytes.flatMap hexOctet).getD (2 * k + 1) 0)).toUInt8 = bytes[k] := by
  induction bytes generalizing k with
  | nil => exact absurd hk (Nat.not_lt_zero k)
  | cons b bytes ih =>
      cases k with
      | zero => exact octet2bin_hexOctet b
      | succ k => exact ih (Nat.lt_of_succ_lt_succ hk)

end Hex

section Septets

theorem readSeptet_eq (binary : ℕ → UInt8) (bitposition : ℕ) :
    readSeptet binary bitposition =
      (load (lowBitsOf binary) bitposition 7).foldl shiftIn 0 := by
  rw [load, List.foldl_map]
  rfl

theorem and_127_lt (c : UInt8) : c &&& 127 < 128 := by
  have hle := @Nat.and_le_right c.toNat 127
  rw [UInt8.lt_iff_toNat_lt, UInt8.toNat_and]
  exact Nat.lt_of_le_of_lt hle (by decide)

theorem toNat_and_127 (c : UInt8) : (c &&& 127).toNat = c.toNat % 2 ^ 7 := by
  rw [UInt8.toNat_and]
  exact Nat.and_two_pow_sub_one_eq_mod c.toNat 7

/-- A bit is shifted in at the upper end of a septet. -/
theorem toNat_shiftIn {c : UInt8} (hc : c < 128) (b : Bool) :
    (shiftIn c b).toNat = c.toNat / 2 + 64 * b.toNat := by
  have hlt : c.toNat < 2 ^ 7 := hc
  have hhalf : ∀ c : UInt8, (c >>> 1).toNat = c.toNat / 2 := fun c =>
    (UInt8.toNat_shiftRight c 1).trans (Nat.shiftRight_eq_div_pow c.toNat 1)
  rw [shiftIn, toNat_and_127, hhalf]
  cases b with
  | false =>
      simp only [Bool.false_eq_true, if_false, Bool.toNat_false]
      omega
  | true =>
      have hset : (c ||| 128).toNat = 1 <<< 7 + c.toNat := by
        rw [UInt8.toNat_or, Nat.shiftLeft_add_eq_or_of_lt hlt, Nat.or_comm]
        rfl
      simp only [if_true, hset, Bool.toNat_true]
      omega

/-- The seven low bits of a character are shifted in. -/
theorem foldl_shiftIn (ch : UInt8) : (septetField ch).foldl shiftIn 0 = ch &&& 127 := by
  have hlt : ∀ c b, shiftIn c b < 128 := fun _ _ => and_127_lt _
  have hbit : ∀ i, (ch.toBitVec.getLsbD i).toNat = ch.toNat / 2 ^ i % 2 := fun i =>
    Nat.toNat_testBit ch.toNat i
  have hbits : septetField ch =
      [ch.toBitVec.getLsbD 0, ch.toBitVec.getLsbD 1, ch.toBitVec.getLsbD 2, ch.toBitVec.getLsbD 3,
        ch.toBitVec.getLsbD 4, ch.toBitVec.getLsbD 5, ch.toBitVec.getLsbD 6] := rfl
  have hzero : (0 : UInt8) < 128 := by decide
  -- each bit is moved down by those that follow
  have hmoved : ∀ a b c d e f g : ℕ,
      ((((((64 * a / 2 + 64 * b) / 2 + 64 * c) / 2 + 64 * d) / 2 + 64 * e) / 2 + 64 * f) / 2 +
        64 * g) = a + 2 * b + 4 * c + 8 * d + 16 * e + 32 * f + 64 * g := by
    intro a b c d e f g
    omega
  apply UInt8.toNat_inj.mp
  simp only [hbits, List.foldl_cons, List.foldl_nil, toNat_shiftIn (hlt _ _), toNat_shiftIn hzero,
    UInt8.toNat_zero, Nat.zero_div, Nat.zero_add]
  rw [hmoved, toNat_and_127]
  simp only [hbit]
  omega

/-- The bits of one of the characters that were sent. -/
theorem load_septet {chars : List UInt8} {k : ℕ} (hk : k < chars.length) :
    load (store (fun _ => false) 0 (chars.flatMap septetField)) (7 * k) 7 =
      septetField chars[k] := by
  have hsplit : chars = chars.take k ++ (chars[k] :: chars.drop (k + 1)) := by
    rw [List.getElem_cons_drop, List.take_append_drop]
  have hbits : chars.flatMap septetField = (chars.take k).flatMap septetField ++
      (septetField chars[k] ++ (chars.drop (k + 1)).flatMap septetField) := by
    conv_lhs => rw [hsplit]
    rw [List.flatMap_append, List.flatMap_cons]
  have hload := load_store (fun _ => false) 0 (chars.flatMap septetField)
  have hpart := load_part (hload.trans hbits)
  rw [Nat.zero_add, length_flatMap_septetField, List.length_take_of_le (Nat.le_of_lt hk)] at hpart
  exact hpart

end Septets

/-- What a septet adds to a text, after an escape or not. -/
def decodeStep (r : List UInt8 × Bool) (c : UInt8) : List UInt8 × Bool :=
  if c = gsmEscChar then (r.1, true)
  else (r.1 ++ [if r.2 then escapedChar c else gsmChar c], false)

/-- The text that septets stand for. -/
def decodeSeptets (septets : List UInt8) : List UInt8 × Bool :=
  septets.foldl decodeStep ([], false)

section Decode

/-- The text that was decoded from `n` septets is in the buffer. -/
structure Decoded (before : ℕ → UInt8) (n : ℕ) (r : List UInt8 × Bool) (s : TextBuffer) :
    Prop where
  text : s.text = store before 0 r.1
  escFlag : s.escFlag = r.2
  counters : s.numEscChars + r.1.length = n

theorem Decoded.put {before : ℕ → UInt8} {n : ℕ} {r : List UInt8 × Bool} {s : TextBuffer}
    (h : Decoded before n r s) (hn : n < 256) (c : UInt8) :
    Decoded before (n + 1) (decodeStep r c) (s.put n c) := by
  have hcounters := h.counters
  rw [TextBuffer.put, decodeStep]
  by_cases hesc : c = gsmEscChar
  · rw [if_pos hesc, if_neg (not_not.mpr hesc.symm)]
    refine ⟨h.text, rfl, ?_⟩
    change s.numEscChars + 1 + r.1.length = n + 1
    omega
  · have hindex : (n - s.numEscChars) % 2 ^ 8 = 0 + r.1.length := by omega
    have hstore : ∀ b, Function.update s.text (0 + r.1.length) b = store before 0 (r.1 ++ [b]) := by
      intro b
      rw [← store_append, h.text, store_singleton]
    have hlen : ∀ b : UInt8, s.numEscChars + (r.1 ++ [b]).length = n + 1 := by
      intro b
      rw [List.length_append, List.length_singleton]
      omega
    rw [if_neg hesc, if_pos (Ne.symm hesc), hindex]
    cases hflag : r.2 with
    | false =>
        have hclear : s.escFlag = false := h.escFlag.trans hflag
        rw [if_pos hclear]
        exact ⟨hstore _, hclear, hlen _⟩
    | true =>
        have hset : ¬ s.escFlag = false := by
          rw [h.escFlag, hflag]
          decide
        rw [if_neg hset]
        exact ⟨hstore _, rfl, hlen _⟩

/-- The loop decodes the septets that it reads. -/
theorem decodeLoop_decoded {binary : ℕ → UInt8} {septets : List UInt8} (before : ℕ → UInt8)
    (hread : ∀ k (hk : k < septets.length), readSeptet binary (7 * k) = septets[k]) {n : ℕ}
    (hn : n ≤ septets.length) (hlen : septets.length ≤ 256) :
    Decoded before n (decodeSeptets (septets.take n))
      (decodeLoop binary 0 n ⟨before, false, 0⟩) := by
  induction n with
  | zero => exact ⟨(store_nil _ _).symm, rfl, rfl⟩
  | succ n ih =>
      have hnext := (ih (Nat.le_of_succ_le hn)).put (Nat.lt_of_lt_of_le hn hlen) septets[n]
      have hloop : decodeLoop binary 0 (n + 1) ⟨before, false, 0⟩ =
          (decodeLoop binary 0 n ⟨before, false, 0⟩).put n septets[n] := by
        rw [decodeLoop, List.range_succ, List.foldl_append, List.foldl_cons, List.foldl_nil,
          if_pos (Nat.zero_le n), hread n hn]
        rfl
      rw [hloop, List.take_add_one, List.getElem?_eq_getElem hn, Option.toList_some,
        decodeSeptets, List.foldl_append, List.foldl_cons, List.foldl_nil]
      exact hnext

end Decode

/-- The septets of a text. -/
def septetsOf (text : List UInt8) : List UInt8 := (text.flatMap sentSeptets).map (· &&& 127)

/-- What a character is decoded to. -/
def receivedChar (c : UInt8) : List UInt8 := (decodeSeptets (septetsOf [c])).1

/-- A character that the table for encoding has. -/
def Mapped (c : UInt8) : Prop := ∃ e ∈ ucsGsmCode, e.unicode = c.toNat

instance (c : UInt8) : Decidable (Mapped c) := inferInstanceAs (Decidable (∃ e ∈ ucsGsmCode, _))

section Receive

/-- What was decoded before does not matter. -/
theorem foldl_decodeStep (out : List UInt8) (r : List UInt8 × Bool) (septets : List UInt8) :
    septets.foldl decodeStep (out ++ r.1, r.2) =
      (out ++ (septets.foldl decodeStep r).1, (septets.foldl decodeStep r).2) := by
  induction septets generalizing r with
  | nil => rfl
  | cons c septets ih =>
      have hstep : decodeStep (out ++ r.1, r.2) c =
          (out ++ (decodeStep r c).1, (decodeStep r c).2) := by
        simp only [decodeStep]
        split_ifs
        · rfl
        · rw [List.append_assoc]
        · rw [List.append_assoc]
      rw [List.foldl_cons, List.foldl_cons, hstep, ih]

/-- A character of the table is decoded to one character, which is the same one exactly if it is
below 128, or the currency sign. -/
theorem receivedChar_of_mapped {c : UInt8} (h : Mapped c) :
    (decodeSeptets (septetsOf [c])).2 = false ∧ (receivedChar c).length = 1 ∧
      (receivedChar c = [c] ↔ c < 128 ∨ c = 0xA4) := by
  have hall : ∀ e ∈ ucsGsmCode, e.unicode < 256 →
      (decodeSeptets (septetsOf [UInt8.ofNat e.unicode])).2 = false ∧
        (receivedChar (UInt8.ofNat e.unicode)).length = 1 ∧
        (receivedChar (UInt8.ofNat e.unicode) = [UInt8.ofNat e.unicode] ↔
          UInt8.ofNat e.unicode < 128 ∨ UInt8.ofNat e.unicode = 0xA4) := by decide +kernel
  obtain ⟨e, he, hcode⟩ := h
  have hc := hall e he (hcode ▸ c.toNat_lt)
  rw [hcode, UInt8.ofNat_toNat] at hc
  exact hc

/-- A text is decoded character by character, if no character leaves an escape behind. -/
theorem decodeSeptets_septetsOf {text : List UInt8}
    (h : ∀ c ∈ text, (decodeSeptets (septetsOf [c])).2 = false) :
    decodeSeptets (septetsOf text) = (text.flatMap receivedChar, false) := by
  induction text with
  | nil => rfl
  | cons c text ih =>
      obtain ⟨hc, htext⟩ := List.forall_mem_cons.mp h
      have hsplit : septetsOf (c :: text) = septetsOf [c] ++ septetsOf text := by
        simp [septetsOf]
      have hfirst : (septetsOf [c]).foldl decodeStep ([], false) =
          (receivedChar c ++ [], false) := by
        rw [List.append_nil]
        exact Prod.ext rfl hc
      have hrest := foldl_decodeStep (receivedChar c) ([], false) (septetsOf text)
      have htail : (septetsOf text).foldl decodeStep ([], false) =
          (text.flatMap receivedChar, false) := ih htext
      rw [decodeSeptets, hsplit, List.foldl_append, hfirst, hrest, htail, List.flatMap_cons]

/-- A text is decoded to itself exactly if each of its characters is, when each is decoded to one
character. -/
theorem flatMap_receivedChar_eq_iff {text : List UInt8}
    (h : ∀ c ∈ text, (receivedChar c).length = 1) :
    text.flatMap receivedChar = text ↔ ∀ c ∈ text, receivedChar c = [c] := by
  induction text with
  | nil => simp
  | cons c text ih =>
      obtain ⟨hlen, htext⟩ := List.forall_mem_cons.mp h
      obtain ⟨b, hb⟩ := List.length_eq_one_iff.mp hlen
      rw [List.flatMap_cons, List.forall_mem_cons, ← ih htext, hb]
      simp

end Receive

section RoundTrip

theorem sent_text2Pdu (text : List UInt8) :
    Sent (text.foldl (fun s c => (sentSeptets c).foldl SeptetBuffer.put s) .cleared)
      (text.flatMap sentSeptets) :=
  sent_cleared.putAll text

/-- The septets that were sent are read from the octets. -/
theorem readSeptet_of_sent {s : SeptetBuffer} {chars : List UInt8} (h : Sent s chars)
    {binary : ℕ → UInt8} (hbinary : ∀ k < (chars.length * 7 + 7) / 8, binary k = s.tmp k)
    {k : ℕ} (hk : k < chars.length) : readSeptet binary (7 * k) = chars[k] &&& 127 := by
  have hsame : load (lowBitsOf binary) (7 * k) 7 = load (lowBitsOf s.tmp) (7 * k) 7 := by
    apply load_congr
    intro j hj hj'
    apply lsb_congr
    rw [hbinary (j / 8) (by omega)]
  rw [readSeptet_eq, hsame, h.bits, load_septet hk, foldl_shiftIn]

/-- The octets that were printed are read again. -/
theorem userData_of_sent {s : SeptetBuffer} {chars : List UInt8} (h : Sent s chars)
    (octet0 octet1 : UInt8) {k : ℕ} (hk : k < (chars.length * 7 + 7) / 8) :
    userData (octet0 :: octet1 :: (load s.tmp 0 (s.pdubyteposition + 1)).flatMap hexOctet)
      ((chars.length * 7 + 7) / 8) k = s.tmp k := by
  have hpos : k < (load s.tmp 0 (s.pdubyteposition + 1)).length := by
    rw [length_load, h.pdubyteposition]
    omega
  have hbyte : (load s.tmp 0 (s.pdubyteposition + 1))[k] = s.tmp k := by simp [load]
  rw [userData, if_pos hk, ← hbyte]
  exact octet2bin_flatMap hpos

/-- Lengths of a message are small for a `ULONG`. -/
theorem sub_zero_ofNat {m n : ℕ} (hm : m ≤ 256) (hn : n ≤ m) :
    (UInt64.ofNat m - 0 - UInt64.ofNat n).toNat = m - n := by
  have hof : ∀ k ≤ 256, (UInt64.ofNat k).toNat = k := fun k hk =>
    UInt64.toNat_ofNat_of_lt' (Nat.lt_of_le_of_lt hk (by decide))
  have hle : UInt64.ofNat n ≤ UInt64.ofNat m := by
    rw [UInt64.le_iff_toNat_le, hof m hm, hof n (Nat.le_trans hn hm)]
    exact hn
  rw [UInt64.sub_zero, UInt64.toNat_sub_of_le _ _ hle, hof m hm, hof n (Nat.le_trans hn hm)]

/-- What is decoded from septets without a header. -/
theorem pduDefaultEncoding2text_septets {pPdu septets : List UInt8}
    (hread : ∀ k (hk : k < septets.length),
      readSeptet (userData pPdu ((septets.length * 7 + 7) / 8)) (7 * k) = septets[k])
    (hlen : septets.length ≤ 256) {pTextMsgLength : UInt8}
    (hroom : septets.length ≤ pTextMsgLength.toNat) (before : ℕ → UInt8) :
    PduDefaultEncoding2text pPdu pTextMsgLength before false septets.length =
      .ok ((decodeSeptets septets).1.length,
        store before 0 ((decodeSeptets septets).1 ++ [0])) := by
  have hdecoded := decodeLoop_decoded before hread (Nat.le_refl _) hlen
  rw [List.take_length] at hdecoded
  rw [PduDefaultEncoding2text, if_neg (Nat.not_lt.mpr hroom)]
  have hskip : skipCharacters pPdu false = 0 := rfl
  have hend : (UInt64.ofNat septets.length - 0 - UInt64.ofNat (decodeLoop (userData pPdu
      ((septets.length * 7 + 7) / 8)) 0 septets.length ⟨before, false, 0⟩).numEscChars).toNat =
        (decodeSeptets septets).1.length := by
    have hcounters := hdecoded.counters
    rw [sub_zero_ofNat hlen (by omega)]
    omega
  have hnul := store_append before 0 (decodeSeptets septets).1 [0]
  rw [Nat.zero_add, ← hdecoded.text] at hnul
  simp only [hskip, UInt64.toNat_zero, hend]
  rw [← hnul, store_singleton]

theorem countedCharacters_text2Pdu (text : List UInt8) :
    (Text2Pdu text).countedCharacters = (septetsOf text).length := by
  rw [septetsOf, List.length_map]
  exact (sent_text2Pdu text).countedCharacters

/-- The septets of a text are read from its octets. -/
theorem readSeptet_text2Pdu (text : List UInt8) (octet0 octet1 : UInt8) {k : ℕ}
    (hk : k < (septetsOf text).length) :
    readSeptet (userData (octet0 :: octet1 :: (Text2Pdu text).pPdu)
      (((septetsOf text).length * 7 + 7) / 8)) (7 * k) = (septetsOf text)[k] := by
  have hsent := sent_text2Pdu text
  have hchars : (septetsOf text).length = (text.flatMap sentSeptets).length := List.length_map _
  have hk' : k < (text.flatMap sentSeptets).length := hchars ▸ hk
  have hseptet : (septetsOf text)[k] = (text.flatMap sentSeptets)[k] &&& 127 := by
    simp only [septetsOf, List.getElem_map]
  rw [hchars, hseptet]
  exact readSeptet_of_sent hsent (fun j hj => userData_of_sent hsent octet0 octet1 hj) hk'

/-- What is decoded from a text that was encoded. -/
theorem pduDefaultEncoding2text_text2Pdu {text : List UInt8}
    (hlen : (Text2Pdu text).countedCharacters ≤ 256) {pTextMsgLength : UInt8}
    (hroom : (Text2Pdu text).countedCharacters ≤ pTextMsgLength.toNat) (before : ℕ → UInt8)
    (octet0 octet1 : UInt8) :
    PduDefaultEncoding2text (octet0 :: octet1 :: (Text2Pdu text).pPdu) pTextMsgLength before false
        (Text2Pdu text).countedCharacters =
      .ok ((decodeSeptets (septetsOf text)).1.length,
        store before 0 ((decodeSeptets (septetsOf text)).1 ++ [0])) := by
  rw [countedCharacters_text2Pdu] at hlen hroom ⊢
  exact pduDefaultEncoding2text_septets (fun k hk => readSeptet_text2Pdu text octet0 octet1 hk)
    hlen hroom before

end RoundTrip

/-- A text with a NUL behind it. -/
theorem load_terminated (before : ℕ → UInt8) (text : List UInt8) :
    load (store before 0 (text ++ [0])) 0 text.length = text ∧
      store before 0 (text ++ [0]) text.length = 0 := by
  have hsplit := store_append before 0 text [0]
  rw [Nat.zero_add] at hsplit
  rw [← hsplit]
  constructor
  · rw [load_store_of_disjoint (Or.inl (Nat.le_of_eq (Nat.zero_add _))), load_store]
  · exact store_at _ _ _

/-- A text comes back from the digits and the number of septets that it was encoded to, behind
the digits of that number, in every buffer that has room for it. -/
def TextRoundTrips (text : List UInt8) : Prop :=
  ∀ (pTextMsgLength : UInt8) (before : ℕ → UInt8),
    (Text2Pdu text).countedCharacters ≤ pTextMsgLength.toNat →
    ∃ out,
      PduDefaultEncoding2text
          (hexOctet (UInt8.ofNat (Text2Pdu text).countedCharacters) ++ (Text2Pdu text).pPdu)
          pTextMsgLength before false (Text2Pdu text).countedCharacters =
        .ok (text.length, out) ∧ load out 0 text.length = text ∧ out text.length = 0

/-- A text of characters of the table comes back exactly if its characters are below 128, or the
currency sign. -/
theorem textRoundTrips_iff {text : List UInt8} (hmapped : ∀ c ∈ text, Mapped c)
    (hlen : (Text2Pdu text).countedCharacters ≤ 160) :
    TextRoundTrips text ↔ ∀ c ∈ text, c < 128 ∨ c = 0xA4 := by
  have hdecode := fun (pTextMsgLength : UInt8)
      (hroom : (Text2Pdu text).countedCharacters ≤ pTextMsgLength.toNat) before =>
    pduDefaultEncoding2text_text2Pdu (Nat.le_trans hlen (by decide)) hroom before
      (hexChar (UInt8.ofNat (Text2Pdu text).countedCharacters >>> 4))
      (hexChar (UInt8.ofNat (Text2Pdu text).countedCharacters &&& 15))
  have hsame : (∀ c ∈ text, receivedChar c = [c]) ↔ ∀ c ∈ text, c < 128 ∨ c = 0xA4 :=
    forall₂_congr fun c hc => (receivedChar_of_mapped (hmapped c hc)).2.2
  have hwhole := fun c hc => (receivedChar_of_mapped (hmapped c hc)).1
  simp only [decodeSeptets_septetsOf hwhole] at hdecode
  rw [← hsame,
    ← flatMap_receivedChar_eq_iff fun c hc => (receivedChar_of_mapped (hmapped c hc)).2.1]
  constructor
  · intro h
    obtain ⟨out, hout, htext, -⟩ := h 160 (fun _ => 0) hlen
    obtain ⟨hcount, rfl⟩ := Prod.mk.inj (Except.ok.inj ((hdecode 160 hlen _).symm.trans hout))
    rw [← hcount, (load_terminated _ _).1] at htext
    exact htext
  · intro h pTextMsgLength before hroom
    have hresult := hdecode pTextMsgLength hroom before
    rw [h] at hresult
    exact ⟨_, hresult, load_terminated before text⟩

/-- Each kind of character that comes back: of the alphabet, of the extension, and the currency
sign. -/
theorem textRoundTrips_bracketed : TextRoundTrips [0x5B, 0x41, 0xA4] := by
  have hmapped : ∀ c ∈ [0x5B, 0x41, 0xA4], Mapped c := by
    rw [List.forall_mem_cons, List.forall_mem_cons, List.forall_mem_singleton]
    decide +kernel
  have hlen : (Text2Pdu [0x5B, 0x41, 0xA4]).countedCharacters ≤ 160 := by decide +kernel
  refine (textRoundTrips_iff hmapped hlen).mpr ?_
  rw [List.forall_mem_cons, List.forall_mem_cons, List.forall_mem_singleton]
  decide

/-- An inverted exclamation mark comes back as an exclamation mark. -/
theorem not_textRoundTrips_exclamation :
    Mapped 0xA1 ∧ (Text2Pdu [0xA1]).countedCharacters = 1 ∧
      (Text2Pdu [0xA1]).pPdu = [50, 49] ∧ ¬ TextRoundTrips [0xA1] := by
  have hcount : (Text2Pdu [0xA1]).countedCharacters = 1 := by decide +kernel
  have hpdu : (Text2Pdu [0xA1]).pPdu = [50, 49] := by decide +kernel
  refine ⟨by decide +kernel, hcount, hpdu, fun h => ?_⟩
  obtain ⟨out, hout, htext, -⟩ := h 1 (fun _ => 0) (Nat.le_of_eq hcount)
  rw [hcount, hpdu] at hout
  have hfirst : (PduDefaultEncoding2text (hexOctet (UInt8.ofNat 1) ++ [50, 49]) 1 (fun _ => 0) false
      1).toOption.map (fun r => r.2 0) = some 0x21 := by decide +kernel
  rw [hout] at hfirst
  have hsame : out 0 = 0x21 := Option.some.inj hfirst
  have horiginal : out 0 = 0xA1 := (List.cons.inj htext).1
  exact absurd (hsame.symm.trans horiginal) (by decide)

end Sms

end SierraSdk
