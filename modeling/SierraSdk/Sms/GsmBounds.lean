import SierraSdk.Sms.GsmPdu

/-!
# The accesses of the decoder of GSM messages

`SwiExtractpdu` takes the lengths that it finds in a message as they are. It checks the length of
the text against the buffer, but neither any length against the string, nor the length of the
header against the user data: the difference of the two is the bound of a loop, and the index at
which the text is terminated. It is `Safe` exactly for the messages that fit (`PduFits`,
`safe_swiExtractpdu_iff`).
-/

namespace SierraSdk

namespace Sms

open Memory Accesses

section Fits

variable (pPdu : List UInt8) (pos : ℕ) (pTextMsgLength : UInt8) (with_udh : Bool)

/-- An escape is among the septets behind the header. -/
def KeepsEscape (skip UDLength : ℕ) : Prop :=
  ∃ k < UDLength, skip ≤ k ∧
    readSeptet (userData (pPdu.drop pos) ((UDLength * 7 + 7) / 8)) (7 * k) = gsmEscChar

/-- User data in the default alphabet: its digits are there, it is not shorter than its header,
and it leaves room for the NUL behind the text. -/
structure DefaultFits (UDLength : ℕ) : Prop where
  header : with_udh = true → pos + 4 ≤ pPdu.length
  digits : pos + 2 + 2 * ((UDLength * 7 + 7) / 8) ≤ pPdu.length
  skipped : (skipCharacters (pPdu.drop pos) with_udh).toNat ≤ UDLength
  room : UDLength < pTextMsgLength.toNat ∨ 0 < (skipCharacters (pPdu.drop pos) with_udh).toNat ∨
    KeepsEscape pPdu pos (skipCharacters (pPdu.drop pos) with_udh).toNat UDLength

/-- User data in octets; the octets behind the header are counted as a `ULONG`. -/
structure EncodedFits (UDLength : UInt64) (encoding : SmsEncoding) : Prop where
  header : with_udh = true → pos + 4 ≤ pPdu.length
  digits : skipOctets pPdu pos with_udh < UDLength → pos + 2 + 2 * UDLength.toNat ≤ pPdu.length
  eightBit : encoding = .eightBit → UDLength ≤ pTextMsgLength.toUInt64 →
    (UDLength - skipOctets pPdu pos with_udh).toNat < pTextMsgLength.toNat
  ucs : encoding ≠ .eightBit → UDLength / 2 ≤ pTextMsgLength.toUInt64 →
    (UDLength - skipOctets pPdu pos with_udh).toNat < 256 ∧
      (UDLength - skipOctets pPdu pos with_udh).toNat / 2 < pTextMsgLength.toNat

/-- The user data at a position, behind its length. -/
structure TextFits (encoding : SmsEncoding) : Prop where
  length : pos + 2 ≤ pPdu.length
  defaults : encoding = .default → octetAt pPdu pos ≤ 184 →
    octetAt pPdu pos ≤ pTextMsgLength.toUInt64 →
      DefaultFits pPdu pos pTextMsgLength with_udh (octetAt pPdu pos).toNat
  encoded : encoding ≠ .default → octetAt pPdu pos ≤ 184 →
    EncodedFits pPdu pos pTextMsgLength with_udh (octetAt pPdu pos) encoding

/-- The message of a sender, behind the sender's number if the buffer has room for that. -/
structure DeliverFits (pSenderAddrLength : UInt8) : Prop where
  length : pos + 2 ≤ pPdu.length
  text : octetAt pPdu pos ≤ pSenderAddrLength.toUInt64 → octetAt pPdu pos < 160 →
    TextFits pPdu (pos + 4 + (octetAt pPdu pos).toNat + (octetAt pPdu pos).toNat % 2 + 3 + 15)
      pTextMsgLength with_udh
      (encodingOf (pPdu.getD
        (pos + 4 + (octetAt pPdu pos).toNat + (octetAt pPdu pos).toNat % 2 + 3) 0))

/-- A sent message, behind the number that it was sent to. -/
structure SentFits (pSenderAddrLength : UInt8) : Prop where
  length : pos + 2 ≤ pPdu.length
  text : octetAt pPdu pos ≤ pSenderAddrLength.toUInt64 →
    TextFits pPdu (pos + 4 + (octetAt pPdu pos).toNat + (octetAt pPdu pos).toNat % 2 + 6)
      pTextMsgLength with_udh .default

/-- `Length` of `SwiExtractpdu`: the digits of the service center. -/
def smscLength : UInt64 := octetAt pPdu 0 * 2 - 2

/-- The flags of a message, behind the service center. -/
def flagsOf : UInt64 := octetAt pPdu (4 + (smscLength pPdu).toNat)

/-- The header bit. -/
def hasUdh : Bool := flagsOf pPdu &&& 64 ≠ 0

/-- The length of the service center is accepted. -/
def SmscAccepted (pScAddrLength : UInt8) : Prop :=
  smscLength pPdu ≤ pScAddrLength.toUInt64 ∧ 0 < smscLength pPdu ∧ smscLength pPdu ≤ 16

/-- A message whose lengths stay within the string and the buffers. -/
structure PduFits (b : PduBuffers) : Prop where
  buffer : 0 < b.pTextMsgLength.toNat
  length : 2 ≤ pPdu.length
  flags : SmscAccepted pPdu b.pScAddrLength → 4 + (smscLength pPdu).toNat + 2 ≤ pPdu.length
  deliver : SmscAccepted pPdu b.pScAddrLength → flagsOf pPdu &&& 3 = 0 →
    DeliverFits pPdu (4 + (smscLength pPdu).toNat + 2) b.pTextMsgLength (hasUdh pPdu)
      b.pSenderAddrLength
  sent : SmscAccepted pPdu b.pScAddrLength → flagsOf pPdu &&& 3 = 1 →
    SentFits pPdu (4 + (smscLength pPdu).toNat + 4) b.pTextMsgLength (hasUdh pPdu)
      b.pSenderAddrLength
  unsupported : SmscAccepted pPdu b.pScAddrLength → flagsOf pPdu &&& 3 ≠ 0 →
    flagsOf pPdu &&& 3 ≠ 1 → 53 ≤ b.pTextMsgLength.toNat

end Fits

section Lists

theorem allInBounds_textAt (pTextMsgLength : UInt8) (indexes : List ℕ) :
    AllInBounds (textAt pTextMsgLength indexes) ↔ ∀ i ∈ indexes, i < pTextMsgLength.toNat :=
  List.forall_mem_map

/-- The length of a header. -/
theorem allInBounds_header_iff (n pos : ℕ) (with_udh : Bool) :
    AllInBounds (if with_udh = true then span PduObject.digit n (pos + 2) 2 else []) ↔
      (with_udh = true → pos + 4 ≤ n) := by
  cases with_udh with
  | false => exact ⟨fun _ h => absurd h Bool.false_ne_true, fun _ => allInBounds_nil⟩
  | true =>
      rw [if_pos rfl, allInBounds_span]
      exact ⟨fun h _ => h.resolve_left (by decide), fun h => .inr (h rfl)⟩

end Lists

section Default

variable (binary : ℕ → UInt8) (skip : ℕ)

theorem decodeLoop_succ (n : ℕ) (s : TextBuffer) :
    decodeLoop binary skip (n + 1) s =
      if skip ≤ n then
        (decodeLoop binary skip n s).put (n - skip) (readSeptet binary (7 * n))
      else decodeLoop binary skip n s := by
  rw [decodeLoop, List.range_succ, List.foldl_append]
  rfl

theorem numEscChars_put (n : ℕ) (c : UInt8) (s : TextBuffer) :
    (s.put n c).numEscChars = s.numEscChars + if c = gsmEscChar then 1 else 0 := by
  rw [TextBuffer.put]
  by_cases hesc : c = gsmEscChar
  · rw [if_neg (not_not.mpr hesc.symm), if_pos hesc]
  · rw [if_pos (Ne.symm hesc), if_neg hesc]
    split_ifs <;> rfl

/-- No more escapes than characters behind the header are counted. -/
theorem numEscChars_decodeLoop_le (n : ℕ) (text : ℕ → UInt8) :
    (decodeLoop binary skip n ⟨text, false, 0⟩).numEscChars ≤ n - skip := by
  induction n with
  | zero => exact Nat.zero_le _
  | succ n ih =>
      rw [decodeLoop_succ]
      by_cases hskip : skip ≤ n
      · rw [if_pos hskip, numEscChars_put]
        split_ifs <;> omega
      · rw [if_neg hskip]
        omega

/-- An escape behind the header is counted. -/
theorem numEscChars_decodeLoop_pos_iff (n : ℕ) (text : ℕ → UInt8) :
    0 < (decodeLoop binary skip n ⟨text, false, 0⟩).numEscChars ↔
      ∃ k < n, skip ≤ k ∧ readSeptet binary (7 * k) = gsmEscChar := by
  induction n with
  | zero => exact ⟨fun h => absurd h (lt_irrefl 0), fun ⟨k, hk, _⟩ => absurd hk (Nat.not_lt_zero k)⟩
  | succ n ih =>
      have hsplit : (∃ k < n + 1, skip ≤ k ∧ readSeptet binary (7 * k) = gsmEscChar) ↔
          (∃ k < n, skip ≤ k ∧ readSeptet binary (7 * k) = gsmEscChar) ∨
            (skip ≤ n ∧ readSeptet binary (7 * n) = gsmEscChar) := by
        constructor
        · rintro ⟨k, hk, hskip, hesc⟩
          rcases Nat.lt_succ_iff_lt_or_eq.mp hk with hlt | rfl
          · exact .inl ⟨k, hlt, hskip, hesc⟩
          · exact .inr ⟨hskip, hesc⟩
        · rintro (⟨k, hk, h⟩ | h)
          · exact ⟨k, Nat.lt_succ_of_lt hk, h⟩
          · exact ⟨n, Nat.lt_succ_self n, h⟩
      rw [decodeLoop_succ, hsplit, ← ih]
      by_cases hskip : skip ≤ n
      · rw [if_pos hskip, numEscChars_put]
        by_cases hesc : readSeptet binary (7 * n) = gsmEscChar
        · rw [if_pos hesc]
          exact ⟨fun _ => .inr ⟨hskip, hesc⟩, fun _ => Nat.succ_pos _⟩
        · rw [if_neg hesc]
          exact ⟨.inl, fun h => h.resolve_right fun h => hesc h.2⟩
      · rw [if_neg hskip]
        exact ⟨.inl, fun h => h.resolve_right fun h => hskip h.1⟩

/-- The loop writes the text below the number of characters. -/
theorem lt_of_mem_textIndexes {UDLength : ℕ} {text : ℕ → UInt8} {index : ℕ}
    (h : index ∈ textIndexes binary skip UDLength text) : index < UDLength := by
  obtain ⟨k, hk, hindex⟩ := List.mem_flatMap.mp h
  have hlt := List.mem_range.mp hk
  split_ifs at hindex with hkept
  · rw [List.mem_singleton.mp hindex]
    refine Nat.lt_of_le_of_lt (Nat.mod_le _ _) ?_
    omega
  · exact absurd hindex List.not_mem_nil

/-- The NUL is in the buffer. -/
theorem textEnd_lt_iff {skip : UInt64} (hskip : skip.toNat < 2 ^ 62) {UDLength T : ℕ} (hT : T < 256)
    (hlen : UDLength ≤ T) (text : ℕ → UInt8) :
    (UInt64.ofNat UDLength - skip - UInt64.ofNat
        (decodeLoop binary skip.toNat UDLength ⟨text, false, 0⟩).numEscChars).toNat < T ↔
      skip.toNat ≤ UDLength ∧ (UDLength < T ∨ 0 < skip.toNat ∨
        ∃ k < UDLength, skip.toNat ≤ k ∧ readSeptet binary (7 * k) = gsmEscChar) := by
  rw [← numEscChars_decodeLoop_pos_iff binary skip.toNat UDLength text]
  have hle := numEscChars_decodeLoop_le binary skip.toNat UDLength text
  generalize (decodeLoop binary skip.toNat UDLength ⟨text, false, 0⟩).numEscChars = escapes at *
  have hof : ∀ k < 256, (UInt64.ofNat k).toNat = k := fun k hk =>
    UInt64.toNat_ofNat_of_lt' (Nat.lt_of_lt_of_le hk (by decide))
  rw [UInt64.toNat_sub, UInt64.toNat_sub, hof UDLength (by omega), hof escapes (by omega)]
  omega

theorem toNat_skipCharacters_lt (pPdu : List UInt8) (with_udh : Bool) :
    (skipCharacters pPdu with_udh).toNat < 2 ^ 62 := by
  rw [skipCharacters]
  split_ifs
  · rw [UInt64.toNat_div]
    have hlt := UInt64.toNat_lt ((Octet2bin (pPdu.getD 2 0) (pPdu.getD 3 0) + 1) * 8 + 6)
    change _ / 7 < _
    omega
  · decide

/-- The accesses of a decoder that has room for its user data. -/
theorem allInBounds_readDefaultEncoding_iff (pPdu : List UInt8) {pos : ℕ} (b : PduBuffers)
    (with_udh : Bool) {UDLength : ℕ} (hpos : pos + 2 ≤ pPdu.length)
    (hroom : UDLength ≤ b.pTextMsgLength.toNat) :
    AllInBounds (readDefaultEncoding pPdu pos b with_udh UDLength).accesses ↔
      DefaultFits pPdu pos b.pTextMsgLength with_udh UDLength := by
  have hskip := toNat_skipCharacters_lt (pPdu.drop pos) with_udh
  have hend := textEnd_lt_iff (userData (pPdu.drop pos) ((UDLength * 7 + 7) / 8)) hskip
    b.pTextMsgLength.toNat_lt hroom b.pMessage
  have hdigits : AllInBounds (span PduObject.digit pPdu.length (pos + 2)
      (2 * ((UDLength * 7 + 7) / 8))) ↔
        pos + 2 + 2 * ((UDLength * 7 + 7) / 8) ≤ pPdu.length := by
    rw [allInBounds_span]
    omega
  have htext : AllInBounds (textAt b.pTextMsgLength (textIndexes
      (userData (pPdu.drop pos) ((UDLength * 7 + 7) / 8))
      (skipCharacters (pPdu.drop pos) with_udh).toNat UDLength b.pMessage)) := by
    rw [allInBounds_textAt]
    intro index hindex
    exact Nat.lt_of_lt_of_le (lt_of_mem_textIndexes _ _ hindex) hroom
  rw [readDefaultEncoding, PduDefaultEncoding2text, if_neg (Nat.not_lt.mpr hroom)]
  simp only [allInBounds_append, allInBounds_textAt, List.forall_mem_singleton]
  rw [allInBounds_header_iff, hdigits, hend]
  constructor
  · rintro ⟨⟨⟨h₁, h₂⟩, -⟩, h₃, h₄⟩
    exact ⟨h₁, h₂, h₃, h₄⟩
  · rintro ⟨h₁, h₂, h₃, h₄⟩
    exact ⟨⟨⟨h₁, h₂⟩, (allInBounds_textAt _ _).mp htext⟩, h₃, h₄⟩

end Default

section Encoded

/-- A counter of one byte that reaches the bound. -/
theorem byteRounds_of_lt {bound : UInt64} (hbound : bound.toNat < 256) (rounds : ℕ) {ctr : ℕ}
    (hctr : ctr ≤ bound.toNat) :
    byteRounds bound rounds (UInt8.ofNat ctr) =
      ((List.range' ctr (min rounds (bound.toNat - ctr))).map UInt8.ofNat,
        decide (bound.toNat - ctr < rounds)) := by
  induction rounds generalizing ctr with
  | zero => simp [byteRounds]
  | succ rounds ih =>
      have hvalue : (UInt8.ofNat ctr).toUInt64.toNat = ctr := by
        rw [UInt8.toNat_toUInt64]
        exact UInt8.toNat_ofNat_of_lt' (Nat.lt_of_le_of_lt hctr hbound)
      have hcond : (UInt8.ofNat ctr).toUInt64 < bound ↔ ctr < bound.toNat := by
        rw [UInt64.lt_iff_toNat_lt, hvalue]
      rw [byteRounds]
      rcases Nat.lt_or_eq_of_le hctr with hlt | heq
      · have hnext : UInt8.ofNat ctr + 1 = UInt8.ofNat (ctr + 1) := (UInt8.ofNat_add ctr 1).symm
        have hmin : min (rounds + 1) (bound.toNat - ctr) =
            min rounds (bound.toNat - (ctr + 1)) + 1 := by omega
        have hended : bound.toNat - (ctr + 1) < rounds ↔ bound.toNat - ctr < rounds + 1 := by omega
        rw [if_pos (hcond.mpr hlt), hnext, ih hlt, hmin, List.range'_succ, List.map_cons]
        simp only [hended]
      · have hnot : ¬ (UInt8.ofNat ctr).toUInt64 < bound :=
          fun h => absurd (hcond.mp h) (by omega)
        have hzero : bound.toNat - ctr = 0 := by omega
        rw [if_neg hnot, hzero, Nat.min_zero]
        simp

/-- A counter of one byte that does not. -/
theorem byteRounds_of_ge {bound : UInt64} (hbound : 256 ≤ bound.toNat) (rounds : ℕ) (ctr : UInt8) :
    (byteRounds bound rounds ctr).2 = false := by
  induction rounds generalizing ctr with
  | zero => rfl
  | succ rounds ih =>
      have hlt : ctr.toUInt64 < bound := by
        rw [UInt64.lt_iff_toNat_lt, UInt8.toNat_toUInt64]
        exact Nat.lt_of_lt_of_le ctr.toNat_lt hbound
      rw [byteRounds, if_pos hlt]
      exact ih _

/-- The rounds from zero on. -/
theorem byteRounds_zero {bound : UInt64} (hbound : bound.toNat < 256) (rounds : ℕ) :
    byteRounds bound rounds 0 =
      ((List.range (min rounds bound.toNat)).map UInt8.ofNat, decide (bound.toNat < rounds)) := by
  rw [List.range_eq_range']
  exact byteRounds_of_lt hbound rounds (Nat.zero_le _)

/-- The characters of the rounds from `first` on. -/
theorem ucsWrites_range' {first n c : ℕ} (hfirst : first + n ≤ 256) (hc : c + n ≤ 256) :
    (ucsWrites ((List.range' first n).map UInt8.ofNat) (UInt8.ofNat c)).map (fun w => w.1.toNat) =
      List.range' c ((first + n) / 2 - first / 2) := by
  induction n generalizing first c with
  | zero => simp [ucsWrites]
  | succ n ih =>
      have hsize : ∀ k < 256, (UInt8.ofNat k).toNat = k := fun k hk => UInt8.toNat_ofNat_of_lt' hk
      have hodd : UInt8.ofNat first % 2 ≠ 0 ↔ first % 2 = 1 := by
        rw [Ne, ← UInt8.toNat_inj, UInt8.toNat_mod, hsize first (by omega)]
        change ¬ first % 2 = 0 ↔ _
        omega
      rw [List.range'_succ, List.map_cons, ucsWrites]
      by_cases hfirst' : first % 2 = 1
      · have hnext : UInt8.ofNat c + 1 = UInt8.ofNat (c + 1) := (UInt8.ofNat_add c 1).symm
        have hcount : (first + (n + 1)) / 2 - first / 2 =
            (first + 1 + n) / 2 - (first + 1) / 2 + 1 := by omega
        rw [if_pos (hodd.mpr hfirst'), hnext, List.map_cons, ih (by omega) (by omega), hcount,
          List.range'_succ, hsize c (by omega)]
      · have hcount : (first + (n + 1)) / 2 - first / 2 =
            (first + 1 + n) / 2 - (first + 1) / 2 := by omega
        rw [if_neg (fun h => hfirst' (hodd.mp h)), ih (by omega) (by omega), hcount]

/-- Every other octet is a character of the text. -/
theorem ucsWrites_range {n : ℕ} (hn : n ≤ 256) :
    (ucsWrites ((List.range n).map UInt8.ofNat) 0).map (fun w => w.1.toNat) =
      List.range (n / 2) := by
  have h := @ucsWrites_range' 0 n 0 (by omega) (by omega)
  rw [Nat.zero_add, Nat.zero_div, Nat.sub_zero] at h
  rw [List.range_eq_range', List.range_eq_range']
  exact h

/-- A loop that ends, and writes before the NUL. -/
theorem safe_endText_iff (b : PduBuffers) (binary : ℕ → UInt8)
    (writes : ℕ → List (UInt8 × UInt8)) (len : ℕ → ℕ) {bound n : ℕ}
    (hlen : ∀ rounds, bound < rounds → len rounds = n)
    (hwrites : ∀ rounds, ∀ w ∈ writes rounds, w.1.toNat < n) :
    Safe (fun rounds => endText b binary (writes rounds) (decide (bound < rounds)) (len rounds)) ↔
      n < b.pTextMsgLength.toNat := by
  constructor
  · rintro ⟨-, hall⟩
    have hend := hall (bound + 1)
    simp only [endText, allInBounds_append, Nat.lt_succ_self, decide_true, if_true] at hend
    rw [hlen (bound + 1) (Nat.lt_succ_self bound)] at hend
    exact (allInBounds_textAt _ _).mp hend.2 n (List.mem_singleton_self n)
  · intro hn
    refine ⟨⟨bound + 1, by simp [endText]⟩, fun rounds => ?_⟩
    simp only [endText, allInBounds_append, allInBounds_textAt, List.forall_mem_map]
    refine ⟨fun w hw => Nat.lt_trans (hwrites rounds w hw) hn, ?_⟩
    split_ifs with hended
    · rw [allInBounds_textAt, List.forall_mem_singleton, hlen rounds (of_decide_eq_true hended)]
      exact hn
    · exact allInBounds_nil

/-- A loop that does not end. -/
theorem not_safe_endText (b : PduBuffers) (binary : ℕ → UInt8)
    (writes : ℕ → List (UInt8 × UInt8)) (len : ℕ → ℕ) :
    ¬ Safe fun rounds => endText b binary (writes rounds) false (len rounds) := by
  rintro ⟨⟨rounds, hvalue⟩, -⟩
  exact absurd hvalue Bool.false_ne_true

/-- The octets behind the header are read. -/
theorem allInBounds_octets_iff (n pos : ℕ) (skip UDLength : UInt64) :
    AllInBounds ((List.range UDLength.toNat).flatMap fun octetcounter =>
        if skip ≤ UInt64.ofNat octetcounter then
          span PduObject.digit n (pos + 2 * octetcounter + 2) 2 else []) ↔
      (skip < UDLength → pos + 2 + 2 * UDLength.toNat ≤ n) := by
  have hof : ∀ k < UDLength.toNat, (UInt64.ofNat k).toNat = k := fun k hk =>
    UInt64.toNat_ofNat_of_lt' (Nat.lt_trans hk UDLength.toNat_lt)
  rw [allInBounds_flatMap_range]
  constructor
  · intro h hskip
    have hpos : skip.toNat < UDLength.toNat := hskip
    have hk : UDLength.toNat - 1 < UDLength.toNat := by omega
    have hkept : skip ≤ UInt64.ofNat (UDLength.toNat - 1) := by
      rw [UInt64.le_iff_toNat_le, hof _ hk]
      omega
    have hlast := h _ hk
    rw [if_pos hkept, allInBounds_span] at hlast
    omega
  · intro h k hk
    split_ifs with hkept
    · have hskip : skip < UDLength := by
        rw [UInt64.le_iff_toNat_le, hof k hk] at hkept
        exact Nat.lt_of_le_of_lt hkept hk
      rw [allInBounds_span]
      have hall := h hskip
      omega
    · exact allInBounds_nil

/-- The loop of an 8-bit text. -/
theorem safe_eightBitLoop_iff (b : PduBuffers) (binary : ℕ → UInt8) (bound : UInt64) :
    (Safe fun rounds => endText b binary ((byteRounds bound rounds 0).1.map fun ctr => (ctr, ctr))
        (byteRounds bound rounds 0).2 bound.toNat) ↔
      bound.toNat < b.pTextMsgLength.toNat := by
  rcases Nat.lt_or_ge bound.toNat 256 with hlt | hge
  · simp only [byteRounds_zero hlt]
    refine safe_endText_iff b binary _ _ (fun _ _ => rfl) fun rounds w hw => ?_
    obtain ⟨ctr, hctr, rfl⟩ := List.mem_map.mp hw
    obtain ⟨k, hk, rfl⟩ := List.mem_map.mp hctr
    have hk' : k < bound.toNat := Nat.lt_of_lt_of_le (List.mem_range.mp hk) (Nat.min_le_right _ _)
    change (UInt8.ofNat k).toNat < _
    rwa [UInt8.toNat_ofNat_of_lt' (Nat.lt_trans hk' hlt)]
  · simp only [byteRounds_of_ge hge]
    exact iff_of_false (not_safe_endText b binary _ _)
      (Nat.not_lt.mpr (Nat.le_trans (Nat.le_of_lt b.pTextMsgLength.toNat_lt) hge))

/-- The loop of a UCS-2 text. -/
theorem safe_ucsLoop_iff (b : PduBuffers) (binary : ℕ → UInt8) (bound : UInt64) :
    (Safe fun rounds => endText b binary (ucsWrites (byteRounds bound rounds 0).1 0)
        (byteRounds bound rounds 0).2
        ((ucsWrites (byteRounds bound rounds 0).1 0).length % 2 ^ 8)) ↔
      bound.toNat < 256 ∧ bound.toNat / 2 < b.pTextMsgLength.toNat := by
  rcases Nat.lt_or_ge bound.toNat 256 with hlt | hge
  · simp only [byteRounds_zero hlt]
    rw [and_iff_right hlt]
    have hindexes := fun rounds => @ucsWrites_range (min rounds bound.toNat) (by omega)
    refine safe_endText_iff b binary _ _ (fun rounds hrounds => ?_) fun rounds w hw => ?_
    · have hlen := congrArg List.length (hindexes rounds)
      rw [List.length_map, List.length_range] at hlen
      rw [hlen]
      omega
    · have hmem := List.mem_map_of_mem (f := fun w : UInt8 × UInt8 => w.1.toNat) hw
      rw [hindexes rounds, List.mem_range] at hmem
      omega
  · simp only [byteRounds_of_ge hge]
    exact iff_of_false (not_safe_endText b binary _ _) fun h => absurd h.1 (Nat.not_lt.mpr hge)

theorem safe_pduEncoded2text_iff (pPdu : List UInt8) (pos : ℕ) (b : PduBuffers) (with_udh : Bool)
    (UDLength : UInt64) (encoding : SmsEncoding) :
    (Safe fun rounds => PduEncoded2text rounds pPdu pos b with_udh UDLength encoding) ↔
      EncodedFits pPdu pos b.pTextMsgLength with_udh UDLength encoding := by
  have hreturn : ∀ b' : PduBuffers, Safe fun _ => (pure b' : Traced PduObject PduBuffers) :=
    fun _ => (safe_const rfl).mpr allInBounds_nil
  simp only [PduEncoded2text]
  rw [safe_bind rfl, safe_bind rfl]
  change AllInBounds (if _ then _ else _) ∧ AllInBounds (List.flatMap _ _) ∧ _ ↔ _
  rw [allInBounds_header_iff, allInBounds_octets_iff]
  by_cases hencoding : encoding = .eightBit
  · simp only [if_pos hencoding]
    by_cases hroom : b.pTextMsgLength.toUInt64 < UDLength
    · simp only [if_pos hroom]
      have hnot : ¬ UDLength ≤ b.pTextMsgLength.toUInt64 := UInt64.not_le.mpr hroom
      exact ⟨fun ⟨h₁, h₂, _⟩ => ⟨h₁, h₂, fun _ h => absurd h hnot, fun h => absurd hencoding h⟩,
        fun h => ⟨h.header, h.digits, hreturn _⟩⟩
    · simp only [if_neg hroom]
      rw [safe_eightBitLoop_iff]
      exact ⟨fun ⟨h₁, h₂, h₃⟩ => ⟨h₁, h₂, fun _ _ => h₃, fun h => absurd hencoding h⟩,
        fun h => ⟨h.header, h.digits, h.eightBit hencoding (UInt64.not_lt.mp hroom)⟩⟩
  · simp only [if_neg hencoding]
    by_cases hroom : b.pTextMsgLength.toUInt64 < UDLength / 2
    · simp only [if_pos hroom]
      have hnot : ¬ UDLength / 2 ≤ b.pTextMsgLength.toUInt64 := UInt64.not_le.mpr hroom
      exact ⟨fun ⟨h₁, h₂, _⟩ => ⟨h₁, h₂, fun h => absurd h hencoding, fun _ h => absurd h hnot⟩,
        fun h => ⟨h.header, h.digits, hreturn _⟩⟩
    · simp only [if_neg hroom]
      rw [safe_ucsLoop_iff]
      exact ⟨fun ⟨h₁, h₂, h₃⟩ => ⟨h₁, h₂, fun h => absurd h hencoding, fun _ _ => h₃⟩,
        fun h => ⟨h.header, h.digits, h.ucs hencoding (UInt64.not_lt.mp hroom)⟩⟩

end Encoded

section Message

theorem allInBounds_readOctet_iff (pPdu : List UInt8) (pos : ℕ) :
    AllInBounds (readOctet pPdu pos).accesses ↔ pos + 2 ≤ pPdu.length := by
  rw [readOctet, allInBounds_span]
  omega

/-- A part of a decoder that returns without an access. -/
theorem safe_pure {α : Type} (a : α) : Safe fun _ => (pure a : Traced PduObject α) :=
  (safe_const rfl).mpr allInBounds_nil

theorem safe_pdu2text_iff (pPdu : List UInt8) (pos : ℕ) (b : PduBuffers) (with_udh : Bool)
    (encoding : SmsEncoding) :
    (Safe fun rounds => Pdu2text rounds pPdu pos b with_udh encoding) ↔
      TextFits pPdu pos b.pTextMsgLength with_udh encoding := by
  simp only [Pdu2text]
  rw [safe_bind rfl, allInBounds_readOctet_iff]
  by_cases hlong : 184 < octetAt pPdu pos
  · have hnot : ¬ octetAt pPdu pos ≤ 184 := UInt64.not_le.mpr hlong
    simp only [if_pos hlong]
    exact ⟨fun h => ⟨h.1, fun _ h => absurd h hnot, fun _ h => absurd h hnot⟩,
      fun h => ⟨h.length, safe_pure _⟩⟩
  · have hle : octetAt pPdu pos ≤ 184 := UInt64.not_lt.mp hlong
    simp only [if_neg hlong]
    cases encoding with
    | default =>
        have hreturns : (readDefaultEncoding pPdu pos b with_udh
            (octetAt pPdu pos).toNat).value.isSome := by
          rw [readDefaultEncoding]
          split <;> rfl
        rw [safe_const hreturns]
        have hlt : octetAt pPdu pos ≤ b.pTextMsgLength.toUInt64 ↔
            (octetAt pPdu pos).toNat ≤ b.pTextMsgLength.toNat := by
          rw [UInt64.le_iff_toNat_le, UInt8.toNat_toUInt64]
        by_cases hroom : (octetAt pPdu pos).toNat ≤ b.pTextMsgLength.toNat
        · constructor
          · rintro ⟨hpos, hall⟩
            exact ⟨hpos, fun _ _ _ =>
              (allInBounds_readDefaultEncoding_iff pPdu b with_udh hpos hroom).mp hall,
              fun h => absurd rfl h⟩
          · intro h
            exact ⟨h.length,
              (allInBounds_readDefaultEncoding_iff pPdu b with_udh h.length hroom).mpr
                (h.defaults rfl hle (hlt.mpr hroom))⟩
        · have hnone : AllInBounds (readDefaultEncoding pPdu pos b with_udh
              (octetAt pPdu pos).toNat).accesses := by
            rw [readDefaultEncoding, PduDefaultEncoding2text, if_pos (Nat.lt_of_not_le hroom)]
            exact allInBounds_nil
          exact ⟨fun h => ⟨h.1, fun _ _ h => absurd (hlt.mp h) hroom, fun h => absurd rfl h⟩,
            fun h => ⟨h.length, hnone⟩⟩
    | eightBit =>
        rw [safe_pduEncoded2text_iff]
        exact ⟨fun h => ⟨h.1, fun h => absurd h (by decide), fun _ _ => h.2⟩,
          fun h => ⟨h.length, h.encoded (by decide) hle⟩⟩
    | ucs =>
        rw [safe_pduEncoded2text_iff]
        exact ⟨fun h => ⟨h.1, fun h => absurd h (by decide), fun _ _ => h.2⟩,
          fun h => ⟨h.length, h.encoded (by decide) hle⟩⟩

/-- A string is copied from within it, or from its NUL. -/
theorem allInBounds_readString {pPdu : List UInt8} {pos : ℕ} (hpos : pos ≤ pPdu.length) (n : ℕ) :
    AllInBounds (readString pPdu pos n).accesses := by
  rw [readString, allInBounds_span]
  omega

theorem allInBounds_readSender {pPdu : List UInt8} {pos : ℕ} (hpos : pos + 4 ≤ pPdu.length)
    (n : ℕ) (pSendr : List UInt8) : AllInBounds (readSender pPdu pos n pSendr).accesses := by
  rw [readSender, Traced.bind_of_value rfl, allInBounds_append]
  exact ⟨allInBounds_readString hpos _, allInBounds_nil⟩

/-- Digits in front of something that is read are there. -/
theorem allInBounds_readDigits {pPdu : List UInt8} {pos n : ℕ} (hpos : pos + n ≤ pPdu.length) :
    AllInBounds (readDigits pPdu pos n).accesses :=
  (allInBounds_span _ _ _ _).mpr (.inr hpos)

theorem safe_extractSMSSent_iff (pPdu : List UInt8) (pos : ℕ) (b : PduBuffers) (with_udh : Bool) :
    (Safe fun rounds => ExtractSMSSent rounds pPdu pos b with_udh) ↔
      SentFits pPdu pos b.pTextMsgLength with_udh b.pSenderAddrLength := by
  simp only [ExtractSMSSent]
  rw [safe_bind rfl, allInBounds_readOctet_iff]
  by_cases hroom : b.pSenderAddrLength.toUInt64 < octetAt pPdu pos
  · have hnot : ¬ octetAt pPdu pos ≤ b.pSenderAddrLength.toUInt64 := UInt64.not_le.mpr hroom
    simp only [if_pos hroom]
    exact ⟨fun h => ⟨h.1, fun h => absurd h hnot⟩, fun h => ⟨h.length, safe_pure _⟩⟩
  · simp only [if_neg hroom]
    rw [safe_bind rfl, safe_map, safe_pdu2text_iff]
    constructor
    · rintro ⟨hpos, -, htext⟩
      exact ⟨hpos, fun _ => htext⟩
    · intro h
      have htext := h.text (UInt64.not_lt.mp hroom)
      have hpos := htext.length
      exact ⟨h.length, allInBounds_readSender (by omega) _ _, htext⟩

theorem headD_takeD_drop (pPdu : List UInt8) (pos : ℕ) :
    ((pPdu.drop pos).takeD 1 0).headD 0 = pPdu.getD pos 0 := by
  rw [List.takeD_succ, List.headD_cons, List.head?_drop, List.getD_eq_getElem?_getD]

theorem safe_extractSMSDeliver_iff (pPdu : List UInt8) (pos : ℕ) (b : PduBuffers)
    (with_udh : Bool) :
    (Safe fun rounds => ExtractSMSDeliver rounds pPdu pos b with_udh) ↔
      DeliverFits pPdu pos b.pTextMsgLength with_udh b.pSenderAddrLength := by
  simp only [ExtractSMSDeliver]
  rw [safe_bind rfl, allInBounds_readOctet_iff]
  by_cases hroom : b.pSenderAddrLength.toUInt64 < octetAt pPdu pos
  · have hnot : ¬ octetAt pPdu pos ≤ b.pSenderAddrLength.toUInt64 := UInt64.not_le.mpr hroom
    simp only [if_pos hroom]
    exact ⟨fun h => ⟨h.1, fun h => absurd h hnot⟩, fun h => ⟨h.length, safe_pure _⟩⟩
  · have hle := UInt64.not_lt.mp hroom
    simp only [if_neg hroom]
    by_cases hlong : 160 ≤ octetAt pPdu pos
    · have hnot : ¬ octetAt pPdu pos < 160 := UInt64.not_lt.mpr hlong
      simp only [if_pos hlong]
      exact ⟨fun h => ⟨h.1, fun _ h => absurd h hnot⟩, fun h => ⟨h.length, safe_pure _⟩⟩
    · have hlt := UInt64.not_le.mp hlong
      simp only [if_neg hlong]
      rw [safe_bind rfl, safe_bind rfl, safe_bind rfl, safe_bind rfl, safe_map, safe_pdu2text_iff,
        headD_takeD_drop]
      constructor
      · rintro ⟨hpos, -, -, -, -, htext⟩
        exact ⟨hpos, fun _ _ => htext⟩
      · intro h
        have htext := h.text hle hlt
        have hpos := htext.length
        exact ⟨h.length, allInBounds_readSender (by omega) _ _, allInBounds_readDigits (by omega),
          allInBounds_readDigits (by omega), allInBounds_readDigits (by omega), htext⟩

theorem length_unsupportedText (type : UInt64) : (unsupportedText type).length = 52 := by
  have hfirst : ("Message format (".toList).length = 16 := by simp
  have hlast : (") is not supported. Cannot decode.\n".toList).length = 35 := by simp
  unfold unsupportedText
  rw [List.length_map, List.length_append, List.length_append, hfirst, hlast]
  split_ifs <;> rfl

theorem allInBounds_unsupportedText_iff (pTextMsgLength : UInt8) (type : UInt64) :
    AllInBounds (textAt pTextMsgLength (List.range ((unsupportedText type).length + 1))) ↔
      53 ≤ pTextMsgLength.toNat := by
  rw [allInBounds_textAt, length_unsupportedText]
  constructor
  · intro h
    exact h 52 (List.mem_range.mpr (by decide))
  · intro h i hi
    exact Nat.lt_of_lt_of_le (List.mem_range.mp hi) h

/-- Nothing is read behind a length that is not accepted. -/
theorem pduFits_iff_of_not_accepted {pPdu : List UInt8} {b : PduBuffers}
    (h : ¬ SmscAccepted pPdu b.pScAddrLength) :
    PduFits pPdu b ↔ 0 < b.pTextMsgLength.toNat ∧ 2 ≤ pPdu.length :=
  ⟨fun hfits => ⟨hfits.buffer, hfits.length⟩, fun ⟨hbuffer, hlength⟩ =>
    ⟨hbuffer, hlength, fun h' => absurd h' h, fun h' => absurd h' h, fun h' => absurd h' h,
      fun h' => absurd h' h⟩⟩

/-- The decoder returns, reads no digit behind the string and writes no character behind the
buffer of the text exactly if the message fits. -/
theorem safe_swiExtractpdu_iff (pPdu : List UInt8) (b : PduBuffers) :
    (Safe fun rounds => SwiExtractpdu rounds pPdu b) ↔ PduFits pPdu b := by
  have hbuffer : AllInBounds (textAt b.pTextMsgLength [0]) ↔ 0 < b.pTextMsgLength.toNat := by
    rw [allInBounds_textAt, List.forall_mem_singleton]
  simp only [SwiExtractpdu]
  rw [safe_bind rfl, safe_bind rfl, allInBounds_readOctet_iff]
  change AllInBounds (textAt b.pTextMsgLength [0]) ∧ 2 ≤ pPdu.length ∧
    (Safe fun rounds => if b.pScAddrLength.toUInt64 < smscLength pPdu then _ else
      if 0 < smscLength pPdu ∧ smscLength pPdu ≤ 16 then _ else _) ↔ _
  rw [hbuffer]
  by_cases hroom : b.pScAddrLength.toUInt64 < smscLength pPdu
  · simp only [if_pos hroom]
    rw [pduFits_iff_of_not_accepted fun h => absurd h.1 (UInt64.not_le.mpr hroom)]
    exact ⟨fun h => ⟨h.1, h.2.1⟩, fun h => ⟨h.1, h.2, safe_pure _⟩⟩
  · simp only [if_neg hroom]
    by_cases hlength : 0 < smscLength pPdu ∧ smscLength pPdu ≤ 16
    · have haccepted : SmscAccepted pPdu b.pScAddrLength := ⟨UInt64.not_lt.mp hroom, hlength⟩
      simp only [if_pos hlength]
      rw [safe_bind rfl, safe_bind rfl]
      change _ ∧ _ ∧ _ ∧ AllInBounds (readOctet pPdu (4 + (smscLength pPdu).toNat)).accesses ∧
        (Safe fun rounds => if flagsOf pPdu &&& 3 = 0 then _ else
          if flagsOf pPdu &&& 3 = 1 then _ else _) ↔ _
      rw [allInBounds_readOctet_iff]
      have hcopied : PduFits pPdu b →
          AllInBounds (readString pPdu 4 (smscLength pPdu).toNat).accesses := by
        intro h
        have hflags := h.flags haccepted
        exact allInBounds_readString (by omega) _
      by_cases hdeliver : flagsOf pPdu &&& 3 = 0
      · simp only [if_pos hdeliver]
        rw [safe_extractSMSDeliver_iff]
        constructor
        · rintro ⟨hT, hn, -, hflags, htext⟩
          exact ⟨hT, hn, fun _ => hflags, fun _ _ => htext,
            fun _ h => absurd (hdeliver.symm.trans h) (by decide), fun _ h => absurd hdeliver h⟩
        · intro h
          exact ⟨h.buffer, h.length, hcopied h, h.flags haccepted, h.deliver haccepted hdeliver⟩
      · simp only [if_neg hdeliver]
        by_cases hsent : flagsOf pPdu &&& 3 = 1
        · simp only [if_pos hsent]
          rw [safe_extractSMSSent_iff]
          constructor
          · rintro ⟨hT, hn, -, hflags, htext⟩
            exact ⟨hT, hn, fun _ => hflags, fun _ h => absurd h hdeliver, fun _ _ => htext,
              fun _ _ h => absurd hsent h⟩
          · intro h
            exact ⟨h.buffer, h.length, hcopied h, h.flags haccepted, h.sent haccepted hsent⟩
        · simp only [if_neg hsent]
          rw [safe_bind rfl]
          change _ ∧ _ ∧ _ ∧ _ ∧ AllInBounds (textAt b.pTextMsgLength (List.range
            ((unsupportedText (flagsOf pPdu &&& 3)).length + 1))) ∧ _ ↔ _
          rw [allInBounds_unsupportedText_iff]
          constructor
          · rintro ⟨hT, hn, -, hflags, htext, -⟩
            exact ⟨hT, hn, fun _ => hflags, fun _ h => absurd h hdeliver,
              fun _ h => absurd h hsent, fun _ _ _ => htext⟩
          · intro h
            exact ⟨h.buffer, h.length, hcopied h, h.flags haccepted,
              h.unsupported haccepted hdeliver hsent, safe_pure _⟩
    · simp only [if_neg hlength]
      rw [pduFits_iff_of_not_accepted fun h => hlength h.2]
      exact ⟨fun h => ⟨h.1, h.2.1⟩, fun h => ⟨h.1, h.2, safe_pure _⟩⟩

/-- A message of a sender with a header of six octets in four septets of user data. -/
def messageWithLongHeader : List UInt8 :=
  [0x07, 0x91, 0x94, 0x71, 0x17, 0x32, 0x54, 0xF6, 0x44, 0x0B, 0x91, 0x94, 0x71, 0x17, 0x32, 0x54,
    0xF6, 0x00, 0x00, 0x42, 0x10, 0x12, 0x21, 0x43, 0x65, 0x00, 0x04, 0x05, 0x00, 0x03,
    0x41].flatMap hexOctet

/-- The NUL is written three bytes in front of the text, at an index that wrapped around. -/
theorem not_safe_messageWithLongHeader :
    ¬ Safe fun rounds => SwiExtractpdu rounds messageWithLongHeader largeBuffers := by
  rintro ⟨-, hall⟩
  exact absurd (hall 0) (by decide +kernel)

end Message

end Sms

end SierraSdk
