import SierraSdk.Sms.GsmSender

/-!
# Messages that are sent and read back

A message that `SwiMakePdu` made is stored with the address of the service center in front of it,
in the place of the first octet, and read with `SwiExtractpdu`. `ExtractSMSSent` passes over the
coding scheme that `SwiMakePdu` wrote, and decodes the text in the default alphabet.

The number and the text come back exactly if the number has at most 48 characters, the service
center at most 16, the number is found behind what the memory of the caller held before
(`SenderFound`), and the text is one that is decoded to itself (`submitRoundTrips_iff`).
-/

namespace SierraSdk

namespace Sms

open Memory Accesses

section Texts

/-- The septets that are decoded from the user data of a message. -/
def messageSeptets (text : List UInt8) : SmsEncoding → List UInt8
  | .default => septetsOf text
  | .eightBit => septetsAt text text.length
  | .ucs => septetsAt (ucsOctets text) (2 * text.length)

/-- A text of one message: 160 septets or 140 octets. -/
def FitsMessage (text : List UInt8) : SmsEncoding → Prop
  | .default => (Text2Pdu text).countedCharacters ≤ 160
  | .eightBit => text.length ≤ 140
  | .ucs => text.length ≤ 70

/-- The texts that come back. -/
def TextComesBack (text : List UInt8) : SmsEncoding → Prop
  | .default => ∀ c ∈ text, CharComesBack c
  | .eightBit => EightBitComesBack text
  | .ucs => text = []

theorem eq_cString_iff {text : List UInt8} {encoding : SmsEncoding}
    (h : FitsMessage text encoding) :
    text = cString (decodeSeptets (messageSeptets text encoding)).1 ↔
      TextComesBack text encoding := by
  cases encoding with
  | default => exact eq_cString_default_iff text
  | eightBit => exact eq_cString_eightBit_iff text
  | ucs => exact eq_cString_ucs_iff (Nat.lt_succ_of_le h)

theorem length_septetsAt (octets : List UInt8) (n : ℕ) : (septetsAt octets n).length = n := by
  rw [septetsAt, List.length_map, List.length_range]

theorem length_flatMap_hexOctet (octets : List UInt8) :
    (octets.flatMap hexOctet).length = 2 * octets.length := by
  simp [hexOctet, List.length_flatMap, Nat.mul_comm]

theorem ucs2pdu_eq {text : List UInt8} (h : text.length ≤ maxsmsBinary) :
    Ucs2pdu text = (ucsOctets text).flatMap hexOctet := by
  rw [Ucs2pdu, List.take_of_length_le h, ucsOctets, List.flatMap_assoc]
  rfl

/-- The digits of the user data, and how many septets are read from them. -/
structure UserData (digits septets : List UInt8) : Prop where
  room : digits.length < 500
  fits : septets.length ≤ 160
  read : ∀ octet0 octet1 k (hk : k < septets.length),
    readSeptet (userData (octet0 :: octet1 :: digits) ((septets.length * 7 + 7) / 8)) (7 * k) =
      septets[k]

theorem userData_septetsAt {octets : List UInt8} {n : ℕ} (hn : n ≤ 160)
    (hoctets : (n * 7 + 7) / 8 ≤ octets.length) (hlen : octets.length < 250) :
    UserData (octets.flatMap hexOctet) (septetsAt octets n) where
  room := by
    rw [length_flatMap_hexOctet]
    omega
  fits := by rwa [length_septetsAt]
  read octet0 octet1 k hk := by
    have hlen := length_septetsAt octets n
    have hget : (septetsAt octets n)[k] = readSeptet (ofList 0 octets) (7 * k) := by
      simp only [septetsAt, List.getElem_map, List.getElem_range]
    rw [hget, hlen]
    exact readSeptet_flatMap_hexOctet hoctets octet0 octet1 (hlen ▸ hk)

/-- The user data of a text that fits. -/
theorem userData_tmpText {text : List UInt8} {encoding : SmsEncoding}
    (h : FitsMessage text encoding) :
    (tmpText text encoding).2 = (messageSeptets text encoding).length ∧
      UserData (tmpText text encoding).1 (messageSeptets text encoding) := by
  cases encoding with
  | default =>
      have hcount := countedCharacters_text2Pdu text
      refine ⟨hcount, ?_, hcount ▸ h, fun octet0 octet1 k hk =>
        readSeptet_text2Pdu text octet0 octet1 hk⟩
      have hsent := sent_text2Pdu text
      have hlen : (Text2Pdu text).countedCharacters = (text.flatMap sentSeptets).length :=
        hsent.countedCharacters
      have hfits : (Text2Pdu text).countedCharacters ≤ 160 := h
      change (List.flatMap hexOctet (load _ 0 (_ + 1))).length < 500
      rw [length_flatMap_hexOctet, length_load, hsent.pdubyteposition]
      omega
  | eightBit =>
      have hfits : text.length ≤ 140 := h
      have hdigits : (tmpText text .eightBit).1 = text.flatMap hexOctet := by
        rw [tmpText, Eightbitpdu,
          List.take_of_length_le (show text.length ≤ maxsmsBinary from hfits)]
      rw [hdigits]
      exact ⟨(length_septetsAt _ _).symm, userData_septetsAt (by omega) (by omega) (by omega)⟩
  | ucs =>
      have hfits : text.length ≤ 70 := h
      have hdigits : (tmpText text .ucs).1 = (ucsOctets text).flatMap hexOctet :=
        ucs2pdu_eq (Nat.le_trans hfits (by decide))
      have hlen := length_ucsOctets text
      rw [hdigits]
      refine ⟨?_, userData_septetsAt (by omega) (by omega) (by omega)⟩
      rw [messageSeptets, length_septetsAt]
      exact Nat.mul_comm _ _

end Texts

section Make

/-- A number below 256 takes two digits. -/
theorem hexShort_of_lt {n : UInt16} (h : n < 0x100) : hexShort n = hexOctet n.toUInt8 :=
  if_pos h

theorem hexShort_ofNat {n : ℕ} (h : n < 256) :
    hexShort (UInt16.ofNat n) = hexOctet (UInt8.ofNat n) := by
  have hall : ∀ n < 256, hexShort (UInt16.ofNat n) = hexOctet (UInt8.ofNat n) := by decide +kernel
  exact hall n h

theorem hexShort_code (encoding : SmsEncoding) :
    hexShort encoding.code = hexOctet encoding.code.toUInt8 := by
  cases encoding <;> rfl

/-- `strlen` of a short string as an `INT8`. -/
theorem toInt8_ofNat {n : ℕ} (htwo : 2 ≤ n) (h : n < 128) :
    ¬ (UInt8.ofNat n).toInt8 ≤ 1 ∧ (UInt8.ofNat n).toInt8.toInt.toNat = n := by
  have hall : ∀ n < 128, 2 ≤ n →
      ¬ (UInt8.ofNat n).toInt8 ≤ 1 ∧ (UInt8.ofNat n).toInt8.toInt.toNat = n := by decide +kernel
  exact hall n h htwo

/-- A short string is swapped as a whole. -/
theorem swapchars_of_length {tmp : List UInt8} {m : ℕ} (hnul : 0 ∉ tmp) (hlen : tmp.length = 2 * m)
    (hpos : 0 < m) (hm : m < 64) : Swapchars tmp = (.none, swapPairs m tmp) := by
  obtain ⟨hlong, hvalue⟩ := @toInt8_ofNat (2 * m) (by omega) (by omega)
  have hhalf : 2 * m / 2 = m := by omega
  rw [Swapchars, cString_of_not_mem hnul, hlen]
  change (if (UInt8.ofNat (2 * m)).toInt8 ≤ 1 then _ else _) = _
  rw [if_neg hlong, hvalue, hhalf]

/-- `numberformat` -/
def numberFormat (number : List UInt8) : UInt8 := if number.length ≤ 20 then 129 else 145

/-- The octets of a message from its number on. -/
def numberAndText (number text : List UInt8) (validity : UInt16) (encoding : SmsEncoding) :
    List UInt8 :=
  hexOctet (UInt8.ofNat number.length) ++ (hexOctet (numberFormat number) ++
    (swapPairs ((number.length + 1) / 2) (tmpNumber number).1 ++
    ((hexOctet 0 ++ (hexOctet encoding.code.toUInt8 ++ hexOctet validity.toUInt8)) ++
    (hexOctet (UInt8.ofNat (tmpText text encoding).2) ++ (tmpText text encoding).1))))

/-- A message is made if the number fits the array that it is copied to. -/
theorem swiMakePdu_eq {number text : List UInt8} {validity : UInt16} {alphabet : UInt8}
    (hnumber : IsNumber number) (hfits : FitsMessage text (codingOf alphabet))
    (hvalidity : validity < 0x100) :
    SwiMakePdu number text validity alphabet =
      if number.length ≤ 48 then
        some (.none, hexOctet 0 ++ (hexOctet 17 ++ (hexOctet 0 ++
          numberAndText number text validity (codingOf alphabet))))
      else none := by
  obtain ⟨hpairs, hsame⟩ := inPairs_tmpNumber hnumber
  obtain ⟨hcount, huser⟩ := userData_tmpText hfits
  have hroom := huser.room
  have hlen := hpairs.length
  simp only [SwiMakePdu]
  by_cases hshort : number.length ≤ 48
  · have hsmall : ¬ (50 ≤ number.length ∨ 50 ≤ (tmpNumber number).1.length ∨
        500 ≤ (tmpText text (codingOf alphabet)).1.length) := by omega
    have hswap := swapchars_of_length hpairs.nul hlen hpairs.pos (by omega)
    have hzero : ([48, 48] : List UInt8) = hexOctet 0 := rfl
    have hflags : hexShort (1 + 16) = hexOctet 17 := rfl
    have hformat : hexShort (if number.length ≤ 20 then 129 else 145) =
        hexOctet (numberFormat number) := by
      rw [numberFormat]
      split_ifs <;> rfl
    have hfits' := huser.fits
    rw [if_neg hsmall, if_pos hshort, hswap, hsame, hzero, hflags, hformat,
      hexShort_ofNat (by omega), hexShort_code, hexShort_of_lt hvalidity,
      hexShort_ofNat (by omega), numberAndText]
    simp only [List.append_assoc]
  · have hlarge : 50 ≤ number.length ∨ 50 ≤ (tmpNumber number).1.length ∨
        500 ≤ (tmpText text (codingOf alphabet)).1.length := by omega
    rw [if_pos hlarge, if_neg hshort]

end Make

section Read

variable {pPdu rest : List UInt8} {pos : ℕ}

theorem getD_drop (l : List UInt8) (n i : ℕ) : (l.drop n).getD i 0 = l.getD (n + i) 0 := by
  rw [List.getD_eq_getElem?_getD, List.getElem?_drop, ← List.getD_eq_getElem?_getD]

/-- An octet that was printed is read. -/
theorem octetAt_of_drop {v : UInt8} (h : pPdu.drop pos = hexOctet v ++ rest) :
    octetAt pPdu pos = v.toUInt64 := by
  have hall : ∀ n < 256, Octet2bin (hexChar (UInt8.ofNat n >>> 4))
      (hexChar (UInt8.ofNat n &&& 15)) = (UInt8.ofNat n).toUInt64 := by decide +kernel
  have hv := hall v.toNat v.toNat_lt
  have hfirst := getD_drop pPdu pos 0
  have hsecond := getD_drop pPdu pos 1
  rw [h] at hfirst hsecond
  rw [UInt8.ofNat_toNat] at hv
  rw [octetAt, ← hsecond, ← hv]
  exact congrArg (Octet2bin · _) hfirst.symm

/-- What stands behind a part of the string. -/
theorem drop_of_drop {xs : List UInt8} (h : pPdu.drop pos = xs ++ rest) {n : ℕ}
    (hn : xs.length = n) : pPdu.drop (pos + n) = rest := by
  rw [← List.drop_drop, h, List.drop_left' hn]

/-- The text of some user data without a header. -/
theorem value_pdu2text {digits septets : List UInt8} (huser : UserData digits septets)
    (h : pPdu.drop pos = hexOctet (UInt8.ofNat septets.length) ++ digits) (b : PduBuffers)
    (hroom : septets.length ≤ b.pTextMsgLength.toNat) (rounds : ℕ) :
    (Pdu2text rounds pPdu pos b false .default).value =
      some { b with pMessage := store b.pMessage 0 ((decodeSeptets septets).1 ++ [0]) } := by
  have hfits := huser.fits
  have hlen : (octetAt pPdu pos).toNat = septets.length := by
    rw [octetAt_of_drop h, UInt8.toNat_toUInt64]
    exact UInt8.toNat_ofNat_of_lt' (Nat.lt_of_le_of_lt hfits (by decide))
  have hshort : ¬ 184 < octetAt pPdu pos := by
    rw [UInt64.lt_iff_toNat_lt, hlen]
    exact Nat.not_lt.mpr (Nat.le_trans hfits (by decide))
  have hdecode := pduDefaultEncoding2text_septets
    (huser.read (hexChar (UInt8.ofNat septets.length >>> 4))
      (hexChar (UInt8.ofNat septets.length &&& 15))) (by omega) hroom b.pMessage
  simp only [Pdu2text]
  rw [Traced.value_bind]
  change (if 184 < octetAt pPdu pos then _ else _ : Traced PduObject PduBuffers).value = _
  have hoctet : ∀ v, hexOctet v ++ digits = hexChar (v >>> 4) :: hexChar (v &&& 15) :: digits :=
    fun v => rfl
  rw [if_neg hshort, hlen, readDefaultEncoding, h, hoctet, hdecode]

/-- The memory of a number that is read. -/
theorem value_readSender {digits : List UInt8} {n : ℕ}
    (h : pPdu.drop (pos + 4) = digits ++ rest) (hlen : digits.length = n + n % 2)
    (pSendr : List UInt8) :
    (readSender pPdu pos n pSendr).value =
      some ((Swapchars (digits ++ pSendr.drop (n + n % 2))).1,
        clearFiller ((Swapchars (digits ++ pSendr.drop (n + n % 2))).2.set n 0) n) := by
  have hcopied : (pPdu.drop (pos + 4)).takeD (n + n % 2) 0 = digits := by
    rw [h, List.takeD_eq_take _ (by rw [List.length_append]; omega), List.take_left' hlen]
  rw [readSender, Traced.value_bind]
  change some ((Swapchars ((pPdu.drop (pos + 4)).takeD (n + n % 2) 0 ++ _)).1, _) = _
  rw [hcopied, hlen]

/-- A number and a text that are read from a sent message. -/
theorem value_extractSMSSent {number digits userDigits septets : List UInt8} {format : UInt8}
    {scheme : List UInt8} {count : ℕ} (huser : UserData userDigits septets)
    (hcount : count = septets.length) (hscheme : scheme.length = 6)
    (hdigits : digits.length = number.length + number.length % 2)
    (h : pPdu.drop pos = hexOctet (UInt8.ofNat number.length) ++ (hexOctet format ++
      (digits ++ (scheme ++ (hexOctet (UInt8.ofNat count) ++ userDigits)))))
    (b : PduBuffers) (hsender : number.length ≤ b.pSenderAddrLength.toNat)
    (hroom : count ≤ b.pTextMsgLength.toNat) (rounds : ℕ) :
    (ExtractSMSSent rounds pPdu pos b false).value =
      some ((Swapchars (digits ++ b.pSendr.drop (number.length + number.length % 2))).1,
        { b with
            pSendr := clearFiller ((Swapchars (digits ++
              b.pSendr.drop (number.length + number.length % 2))).2.set number.length 0)
              number.length
            pMessage := store b.pMessage 0 ((decodeSeptets septets).1 ++ [0]) }) := by
  subst hcount
  have hlen : (octetAt pPdu pos).toNat = number.length := by
    rw [octetAt_of_drop h, UInt8.toNat_toUInt64]
    exact UInt8.toNat_ofNat_of_lt' (Nat.lt_of_le_of_lt hsender b.pSenderAddrLength.toNat_lt)
  have haccepted : ¬ b.pSenderAddrLength.toUInt64 < octetAt pPdu pos := by
    rw [UInt64.lt_iff_toNat_lt, hlen, UInt8.toNat_toUInt64]
    exact Nat.not_lt.mpr hsender
  have hnumber : pPdu.drop (pos + 4) = digits ++ (scheme ++
      (hexOctet (UInt8.ofNat septets.length) ++ userDigits)) :=
    drop_of_drop (drop_of_drop h rfl) rfl
  have htext : pPdu.drop (pos + 4 + number.length + number.length % 2 + 6) =
      hexOctet (UInt8.ofNat septets.length) ++ userDigits := by
    rw [Nat.add_assoc (pos + 4)]
    exact drop_of_drop (drop_of_drop hnumber hdigits) hscheme
  simp only [ExtractSMSSent]
  rw [Traced.value_bind]
  change (if b.pSenderAddrLength.toUInt64 < octetAt pPdu pos then _ else _ :
    Traced PduObject (PduRc × PduBuffers)).value = _
  rw [if_neg haccepted, hlen, Traced.value_bind, value_readSender hnumber hdigits, Option.bind_some,
    Traced.value_bind, value_pdu2text huser htext]
  · rfl
  · exact hroom

end Read

section RoundTrip

/-- The address of a service center: its octets, its type and its digits. -/
def smscPrefix (type : UInt8) (smsc : List UInt8) : List UInt8 :=
  hexOctet (UInt8.ofNat (1 + (smsc.length + 1) / 2)) ++ (hexOctet type ++
    swapPairs ((smsc.length + 1) / 2) (if smsc.length % 2 ≠ 0 then smsc ++ [70] else smsc))

/-- A message that is made, stored with an address in the place of the first octet, and read: the
number and the text are in the buffers. -/
def SubmitRoundTrips (type : UInt8) (smsc number text : List UInt8) (validity : UInt16)
    (alphabet : UInt8) (b : PduBuffers) : Prop :=
  ∃ pdu, SwiMakePdu number text validity alphabet = some (.none, pdu) ∧
    ∃ rounds b', (SwiExtractpdu rounds (smscPrefix type smsc ++ pdu.drop 2) b).value =
        some (.none, b') ∧
      cString b'.pSendr = number ∧ HasString b'.pMessage text

/-- A number, an address, a text of one message and a validity of one octet, and buffers that have
room for them. -/
structure Submits (smsc number text : List UInt8) (validity : UInt16) (alphabet : UInt8)
    (b : PduBuffers) : Prop where
  isNumber : IsNumber number
  smsc_pos : 0 < smsc.length
  smsc_le : smsc.length ≤ 20
  fits : FitsMessage text (codingOf alphabet)
  octet : validity < 0x100
  numberRoom : number.length < b.pSenderAddrLength.toNat
  memory : b.pSenderAddrLength.toNat ≤ b.pSendr.length
  smscRoom : smsc.length + smsc.length % 2 < b.pScAddrLength.toNat
  textRoom : (tmpText text (codingOf alphabet)).2 < b.pTextMsgLength.toNat

variable {type alphabet : UInt8} {smsc number text : List UInt8} {validity : UInt16}
  {b : PduBuffers}

theorem length_smscDigits (smsc : List UInt8) :
    (swapPairs ((smsc.length + 1) / 2)
      (if smsc.length % 2 ≠ 0 then smsc ++ [70] else smsc)).length =
        smsc.length + smsc.length % 2 := by
  rw [length_swapPairs]
  split_ifs with h
  · rw [List.length_append, List.length_singleton]
    omega
  · omega

/-- `Length` of `SwiExtractpdu`. -/
theorem toNat_length_smscPrefix (hpos : 0 < smsc.length) (hle : smsc.length ≤ 20)
    (rest : List UInt8) :
    (octetAt (smscPrefix type smsc ++ rest) 0 * 2 - 2).toNat = smsc.length + smsc.length % 2 := by
  have hall : ∀ n < 21, 0 < n →
      ((UInt8.ofNat (1 + (n + 1) / 2)).toUInt64 * 2 - 2).toNat = n + n % 2 := by decide +kernel
  have hdrop : (smscPrefix type smsc ++ rest).drop 0 =
      hexOctet (UInt8.ofNat (1 + (smsc.length + 1) / 2)) ++ _ := List.append_assoc _ _ _
  rw [octetAt_of_drop hdrop]
  exact hall _ (Nat.lt_succ_of_le hle) hpos

/-- The message behind an address. -/
theorem drop_smscPrefix (type : UInt8) (smsc rest : List UInt8) :
    (smscPrefix type smsc ++ rest).drop (4 + (smsc.length + smsc.length % 2)) = rest := by
  apply List.drop_left'
  rw [smscPrefix, List.length_append, List.length_append, length_smscDigits, ← Nat.add_assoc]
  rfl

/-- The buffer has room for the address. -/
theorem Submits.not_lt_length (h : Submits smsc number text validity alphabet b)
    (rest : List UInt8) :
    ¬ b.pScAddrLength.toUInt64 < octetAt (smscPrefix type smsc ++ rest) 0 * 2 - 2 := by
  have hroom := h.smscRoom
  rw [UInt64.lt_iff_toNat_lt, toNat_length_smscPrefix h.smsc_pos h.smsc_le, UInt8.toNat_toUInt64]
  omega

/-- An address of more than 16 digits is refused. -/
theorem value_swiExtractpdu_of_long (h : Submits smsc number text validity alphabet b)
    (hlong : ¬ smsc.length ≤ 16) (rounds : ℕ) (rest : List UInt8) :
    (SwiExtractpdu rounds (smscPrefix type smsc ++ rest) b).value =
      some (.invalidArg, { b.cleared with
        pScAddrLength := (octetAt (smscPrefix type smsc ++ rest) 0 * 2 - 2).toUInt8 }) := by
  have hrefused : ¬ (0 < octetAt (smscPrefix type smsc ++ rest) 0 * 2 - 2 ∧
      octetAt (smscPrefix type smsc ++ rest) 0 * 2 - 2 ≤ 16) := by
    rw [UInt64.le_iff_toNat_le, toNat_length_smscPrefix h.smsc_pos h.smsc_le]
    change ¬ (_ ∧ _ ≤ 16)
    omega
  simp only [SwiExtractpdu]
  rw [Traced.value_bind, Traced.value_bind]
  change (if b.pScAddrLength.toUInt64 < octetAt (smscPrefix type smsc ++ rest) 0 * 2 - 2 then _
    else if 0 < octetAt (smscPrefix type smsc ++ rest) 0 * 2 - 2 ∧
      octetAt (smscPrefix type smsc ++ rest) 0 * 2 - 2 ≤ 16 then _ else _ :
        Traced PduObject (PduRc × PduBuffers)).value = _
  rw [if_neg (h.not_lt_length rest), if_neg hrefused]
  rfl

/-- Behind an address that is not refused, a sent message is read. -/
theorem value_swiExtractpdu_of_submit (h : Submits smsc number text validity alphabet b)
    (hshort : smsc.length ≤ 16) (rounds : ℕ) (rest : List UInt8) :
    ∃ pSmsc, (SwiExtractpdu rounds (smscPrefix type smsc ++ (hexOctet 17 ++ rest)) b).value =
      (ExtractSMSSent rounds (smscPrefix type smsc ++ (hexOctet 17 ++ rest))
        (4 + (smsc.length + smsc.length % 2) + 4)
        { b.cleared with pSmsc := pSmsc } false).value := by
  have hlen := @toNat_length_smscPrefix type smsc h.smsc_pos h.smsc_le (hexOctet 17 ++ rest)
  have haccepted : 0 < octetAt (smscPrefix type smsc ++ (hexOctet 17 ++ rest)) 0 * 2 - 2 ∧
      octetAt (smscPrefix type smsc ++ (hexOctet 17 ++ rest)) 0 * 2 - 2 ≤ 16 := by
    have hpos := h.smsc_pos
    rw [UInt64.lt_iff_toNat_lt, UInt64.le_iff_toNat_le, hlen]
    change 0 < _ ∧ _ ≤ 16
    omega
  have hflags : octetAt (smscPrefix type smsc ++ (hexOctet 17 ++ rest))
      (4 + (smsc.length + smsc.length % 2)) = 17 := octetAt_of_drop (drop_smscPrefix type smsc _)
  refine ⟨cString (clearFiller (Swapchars
    (((smscPrefix type smsc ++ (hexOctet 17 ++ rest)).drop 4).takeD
      (smsc.length + smsc.length % 2) 0 ++ [0])).2 (smsc.length + smsc.length % 2)), ?_⟩
  simp only [SwiExtractpdu]
  rw [Traced.value_bind, Traced.value_bind]
  change (if b.pScAddrLength.toUInt64 <
      octetAt (smscPrefix type smsc ++ (hexOctet 17 ++ rest)) 0 * 2 - 2 then _
    else if 0 < octetAt (smscPrefix type smsc ++ (hexOctet 17 ++ rest)) 0 * 2 - 2 ∧
      octetAt (smscPrefix type smsc ++ (hexOctet 17 ++ rest)) 0 * 2 - 2 ≤ 16 then _ else _ :
        Traced PduObject (PduRc × PduBuffers)).value = _
  rw [if_neg (h.not_lt_length _), if_pos haccepted, hlen, Traced.value_bind]
  change (if octetAt (smscPrefix type smsc ++ (hexOctet 17 ++ rest))
      (4 + (smsc.length + smsc.length % 2)) &&& 3 = 0 then _ else if _ then _ else _ :
        Traced PduObject (PduRc × PduBuffers)).value = _
  rw [hflags, if_neg (by decide), if_pos (by decide)]
  rfl

/-- What is read of a message that was made. -/
theorem value_swiExtractpdu_made (h : Submits smsc number text validity alphabet b)
    (hshort : smsc.length ≤ 16) (rounds : ℕ) :
    ∃ b', (SwiExtractpdu rounds (smscPrefix type smsc ++ (hexOctet 17 ++ (hexOctet 0 ++
        numberAndText number text validity (codingOf alphabet)))) b).value =
      some ((Swapchars (swapPairs ((number.length + 1) / 2) (tmpNumber number).1 ++
        b.pSendr.drop (number.length + number.length % 2))).1, b') ∧
      b'.pSendr = clearFiller ((Swapchars (swapPairs ((number.length + 1) / 2)
        (tmpNumber number).1 ++ b.pSendr.drop (number.length + number.length % 2))).2.set
          number.length 0) number.length ∧
      ∃ before, b'.pMessage = store before 0
        ((decodeSeptets (messageSeptets text (codingOf alphabet))).1 ++ [0]) := by
  obtain ⟨hcount, huser⟩ := userData_tmpText h.fits
  obtain ⟨hpairs, -⟩ := inPairs_tmpNumber h.isNumber
  obtain ⟨pSmsc, hvalue⟩ := @value_swiExtractpdu_of_submit type alphabet smsc number text validity b
    h hshort rounds (hexOctet 0 ++ numberAndText number text validity (codingOf alphabet))
  have hpos := List.length_pos_iff.mpr h.isNumber.ne_nil
  have hdigits : (swapPairs ((number.length + 1) / 2) (tmpNumber number).1).length =
      number.length + number.length % 2 := by
    rw [length_swapPairs, hpairs.length]
    omega
  have hdrop : (smscPrefix type smsc ++ (hexOctet 17 ++ (hexOctet 0 ++
      numberAndText number text validity (codingOf alphabet)))).drop
        (4 + (smsc.length + smsc.length % 2) + 4) =
      numberAndText number text validity (codingOf alphabet) := by
    have hflags := drop_of_drop (drop_smscPrefix type smsc (hexOctet 17 ++ (hexOctet 0 ++
      numberAndText number text validity (codingOf alphabet)))) (rfl : _ = 2)
    exact drop_of_drop hflags (rfl : _ = 2)
  have hstale : b.cleared.pSendr.drop (number.length + number.length % 2) =
      b.pSendr.drop (number.length + number.length % 2) := by
    have hfirst : 0 < number.length + number.length % 2 := by omega
    exact List.drop_set_of_lt hfirst
  have hsent := value_extractSMSSent huser hcount rfl hdigits hdrop
    { b.cleared with pSmsc := pSmsc } (Nat.le_of_lt h.numberRoom) (Nat.le_of_lt h.textRoom) rounds
  rw [← hstale]
  exact ⟨_, hvalue.trans hsent, rfl, _, rfl⟩

/-- A message comes back exactly if its number and its address are short enough, the number is
found in the memory of the caller, and the text is one that is decoded to itself. -/
theorem submitRoundTrips_iff (h : Submits smsc number text validity alphabet b) :
    SubmitRoundTrips type smsc number text validity alphabet b ↔
      number.length ≤ 48 ∧ smsc.length ≤ 16 ∧
        SenderFound number (b.pSendr.drop (number.length + number.length % 2)) ∧
        TextComesBack text (codingOf alphabet) := by
  have hmade := swiMakePdu_eq h.isNumber h.fits h.octet
  have hroom : number.length < (tmpNumber number).1.length +
      (b.pSendr.drop (number.length + number.length % 2)).length := by
    have hlen := (inPairs_tmpNumber h.isNumber).1.length
    have hnumber := h.numberRoom
    have hmemory := h.memory
    rw [List.length_drop]
    omega
  rw [← senderFound_iff h.isNumber _ hroom, ← eq_cString_iff h.fits]
  by_cases hnumber : number.length ≤ 48
  · rw [if_pos hnumber] at hmade
    by_cases hsmsc : smsc.length ≤ 16
    · have hread := @value_swiExtractpdu_made type alphabet smsc number text validity b h hsmsc
      constructor
      · rintro ⟨pdu, hpdu, rounds, b', hvalue, hsender, htext⟩
        obtain ⟨b'', hvalue', hmem, before, hmessage⟩ := hread rounds
        obtain rfl : hexOctet 0 ++ _ = pdu :=
          congrArg Prod.snd (Option.some.inj (hmade.symm.trans hpdu))
        have hsame := Option.some.inj (hvalue'.symm.trans hvalue)
        have hcode := congrArg Prod.fst hsame
        obtain rfl : b'' = b' := congrArg Prod.snd hsame
        rw [hmem] at hsender
        rw [hmessage, hasString_store_iff] at htext
        exact ⟨hnumber, hsmsc, ⟨hcode, hsender⟩, htext⟩
      · rintro ⟨-, -, ⟨hcode, hsender⟩, htext⟩
        obtain ⟨b', hvalue, hmem, before, hmessage⟩ := hread 0
        refine ⟨_, hmade, 0, b', ?_, ?_, ?_⟩
        · rw [hcode] at hvalue
          exact hvalue
        · rw [hmem]
          exact hsender
        · rw [hmessage, hasString_store_iff]
          exact htext
    · refine iff_of_false ?_ fun hback => hsmsc hback.2.1
      rintro ⟨pdu, -, rounds, b', hvalue, -⟩
      rw [value_swiExtractpdu_of_long h hsmsc] at hvalue
      exact PduRc.noConfusion (congrArg Prod.fst (Option.some.inj hvalue))
  · refine iff_of_false ?_ fun hback => hnumber hback.1
    rintro ⟨pdu, hpdu, -⟩
    rw [hmade, if_neg hnumber] at hpdu
    exact absurd hpdu.symm (Option.some_ne_none _)

/-- The number `4917012`, the service center `491710760000` and a text of two letters. -/
theorem submits_letters (alphabet : UInt8)
    (hfits : FitsMessage [0x48, 0x69] (codingOf alphabet))
    (hroom : (tmpText [0x48, 0x69] (codingOf alphabet)).2 < 255) :
    Submits [52, 57, 49, 55, 49, 48, 55, 54, 48, 48, 48, 48] [52, 57, 49, 55, 48, 49, 50]
      [0x48, 0x69] 0 alphabet largeBuffers where
  isNumber := ⟨by decide, by decide, by decide, by decide⟩
  smsc_pos := by decide
  smsc_le := by decide
  fits := hfits
  octet := by decide
  numberRoom := by decide
  memory := Nat.le_of_eq List.length_replicate.symm
  smscRoom := by decide
  textRoom := hroom

/-- A text in the default alphabet comes back. -/
theorem submitRoundTrips_letters :
    SubmitRoundTrips 0x91 [52, 57, 49, 55, 49, 48, 55, 54, 48, 48, 48, 48]
      [52, 57, 49, 55, 48, 49, 50] [0x48, 0x69] 0 48 largeBuffers := by
  have hfits : FitsMessage [0x48, 0x69] (codingOf 48) := by
    change (Text2Pdu [0x48, 0x69]).countedCharacters ≤ 160
    decide +kernel
  have hhalf : (swapLength [52, 57, 49, 55, 48, 49, 50]
      (largeBuffers.pSendr.drop 8)).toInt.toNat / 2 = 4 := by decide +kernel
  refine (submitRoundTrips_iff (submits_letters 48 hfits (by decide +kernel))).mpr
    ⟨by decide, by decide, ⟨by decide +kernel, fun i hi hlt => ?_⟩, ?_⟩
  · have hfour := hhalf ▸ hi
    have hshort : 2 * i + 1 < 8 := hlt
    omega
  · change ∀ c ∈ _, CharComesBack c
    rw [List.forall_mem_cons, List.forall_mem_singleton]
    decide +kernel

/-- The same text in UCS-2 does not. -/
theorem not_submitRoundTrips_ucs :
    Submits [52, 57, 49, 55, 49, 48, 55, 54, 48, 48, 48, 48] [52, 57, 49, 55, 48, 49, 50]
        [0x48, 0x69] 0 50 largeBuffers ∧
      ¬ SubmitRoundTrips 0x91 [52, 57, 49, 55, 49, 48, 55, 54, 48, 48, 48, 48]
        [52, 57, 49, 55, 48, 49, 50] [0x48, 0x69] 0 50 largeBuffers := by
  have hsubmits := submits_letters 50 (show 2 ≤ 70 by decide) (by decide +kernel)
  refine ⟨hsubmits, ?_⟩
  rintro ⟨pdu, hpdu, rounds, b', hvalue, -, htext⟩
  obtain rfl : hexOctet 0 ++ _ = pdu := congrArg Prod.snd (Option.some.inj
    ((swiMakePdu_eq hsubmits.isNumber hsubmits.fits hsubmits.octet).symm.trans hpdu))
  obtain ⟨b'', hvalue', -, before, hmessage⟩ :=
    @value_swiExtractpdu_made 0x91 50 _ _ _ _ _ hsubmits (by decide) rounds
  obtain rfl : b'' = b' := congrArg Prod.snd (Option.some.inj (hvalue'.symm.trans hvalue))
  rw [hmessage, hasString_store_iff] at htext
  exact absurd htext (by decide +kernel)

end RoundTrip

end Sms

end SierraSdk
