import SierraSdk.Library.CFormat
import SierraSdk.Sl.SprintfArgs

/-!
# How formats are read

A format of the standard is read back as its directives (`formatItems_format`) if its widths and
precisions fit 16 bits and no precision starts with a zero. As many characters are skipped as the
number that was read has digits, and so the digits behind such a zero are taken for a specifier.
-/

namespace SierraSdk

namespace Sl

section Directives

def flagsOf : Option CFormat.Flag → TypeMask
  | none => {}
  | some .left => { left := true }
  | some .plus => { plus := true }
  | some .space => { space := true }
  | some .alternate => { special := true }
  | some .zeros => { zeropad := true }

def countOf (digits : List (Fin 10)) : Count := .number (UInt16.ofNat (CFormat.number digits))

def conversionOf (conv : CFormat.Conversion) : Conversion where
  flags := flagsOf conv.flag
  field_width := conv.width.elim .absent fun width => countOf width.digits
  precision := conv.precision.elim .absent countOf
  qualifier := conv.length.map CFormat.Length.spelled
  specifier := some conv.specifier.spelled

/-- What a directive is to be read as. -/
def itemOf : CFormat.Directive → Item
  | .literal c => .character c.val
  | .percent => .conversion ⟨{}, .absent, .absent, none, some 0x25⟩
  | .conversion conv => .conversion (conversionOf conv)

/-- A number is read when it fits 16 bits and no zero is in front of it. -/
def NumberRead (digits : List (Fin 10)) : Prop :=
  digits.head? ≠ some 0 ∧ CFormat.number digits < 65536

/-- The numbers of a conversion are read. -/
structure NumbersRead (conv : CFormat.Conversion) : Prop where
  width : conv.minWidth < 65536
  precision : ∀ digits, conv.precision = some digits → NumberRead digits

/-- A directive whose numbers are read. -/
def WellRead : CFormat.Directive → Prop
  | .conversion conv => NumbersRead conv
  | _ => True

end Directives

section Counts

theorem spelledDigit_spec (digit : Fin 10) :
    slisdigit (0x30 + UInt8.ofNat digit.val) = true ∧
      (0x30 + UInt8.ofNat digit.val - 0x30).toNat = digit.val := by
  revert digit
  decide

theorem slisdigit_of_mem {digits : List (Fin 10)} {c : UInt8}
    (h : c ∈ CFormat.spelledDigits digits) : slisdigit c = true := by
  obtain ⟨digit, -, rfl⟩ := List.mem_map.mp h
  exact (spelledDigit_spec digit).1

/-- What stands behind a number does not go on with it. -/
def NoDigit (fmtp : List UInt8) : Prop := ∀ c ∈ fmtp.head?, slisdigit c = false

theorem takeWhile_of_noDigit {fmtp : List UInt8} (h : NoDigit fmtp) :
    fmtp.takeWhile slisdigit = [] := by
  cases fmtp with
  | nil => rfl
  | cons c fmtp =>
      rw [List.takeWhile_cons_of_neg]
      rw [h c rfl]
      exact Bool.false_ne_true

theorem takeWhile_spelledDigits (digits : List (Fin 10)) {fmtp : List UInt8} (h : NoDigit fmtp) :
    (CFormat.spelledDigits digits ++ fmtp).takeWhile slisdigit = CFormat.spelledDigits digits := by
  rw [List.takeWhile_append_of_pos fun c hc => slisdigit_of_mem hc, takeWhile_of_noDigit h,
    List.append_nil]

theorem denotes_spelledDigits (digits : List (Fin 10)) :
    denotes 10 (fun c => (c - 0x30).toNat) (CFormat.spelledDigits digits) =
      CFormat.number digits := by
  rw [denotes, CFormat.spelledDigits, ← List.map_reverse, List.map_map, CFormat.number]
  congr 1
  apply List.map_congr_left
  intro digit _
  exact (spelledDigit_spec digit).2

theorem slatoi_spelledDigits (digit : Fin 10) (digits : List (Fin 10)) {fmtp : List UInt8}
    (h : NoDigit fmtp) :
    slatoi (CFormat.spelledDigits (digit :: digits) ++ fmtp) =
      UInt16.ofNat (CFormat.number (digit :: digits)) := by
  apply UInt16.toNat_inj.mp
  have hdigits : digitsOf slisdigit (CFormat.spelledDigits (digit :: digits) ++ fmtp) =
      CFormat.spelledDigits (digit :: digits) :=
    (digitsOf_of_digit (spelledDigit_spec digit).1 _).trans
      (takeWhile_spelledDigits (digit :: digits) h)
  rw [toNat_slatoi, decNumber, hdigits, denotes_spelledDigits, UInt16.toNat_ofNat']

/-- A number without a zero in front has the digits that it is spelled with. -/
theorem length_digits_number {digits : List (Fin 10)} (h : digits.head? ≠ some 0) :
    (Nat.digits 10 (CFormat.number digits)).length = digits.length := by
  rw [CFormat.number, Nat.digits_ofDigits 10 (by decide)]
  · rw [List.length_map, List.length_reverse]
  · intro digit hdigit
    obtain ⟨d, -, rfl⟩ := List.mem_map.mp hdigit
    exact d.isLt
  · intro hne hlast
    cases digits with
    | nil => exact hne rfl
    | cons digit digits =>
        rw [List.getLast_map, List.getLast_reverse] at hlast
        exact h (congrArg some (Fin.val_eq_zero_iff.mp hlast))

/-- The digits of a number that are skipped: as many as the number has in 16 bits. -/
def skippedDigits (digits : List (Fin 10)) : ℕ :=
  (Nat.digits 10 (CFormat.number digits % 65536)).length

theorem skippedDigits_of_read {digits : List (Fin 10)} (h : NumberRead digits) :
    skippedDigits digits = digits.length := by
  rw [skippedDigits, Nat.mod_eq_of_lt h.2, length_digits_number h.1]

/-- A number is read in 16 bits, and what is skipped of it may be too little. -/
theorem parseCount_digits {digits : List (Fin 10)} {fmtp : List UInt8} (hnil : digits ≠ [])
    (h : NoDigit fmtp) :
    parseCount (CFormat.spelledDigits digits ++ fmtp) =
      (countOf digits,
        CFormat.spelledDigits (digits.drop (skippedDigits digits)) ++ fmtp) := by
  cases digits with
  | nil => exact absurd rfl hnil
  | cons digit digits =>
      have hslatoi := slatoi_spelledDigits digit digits h
      have hskip : (Nat.digits 10 (UInt16.ofNat (CFormat.number (digit :: digits))).toNat).length =
          skippedDigits (digit :: digits) := by
        rw [UInt16.toNat_ofNat', skippedDigits]
      have hlength := length_digits_slatoi (CFormat.spelledDigits (digit :: digits) ++ fmtp)
      have hdigits : digitsOf slisdigit (CFormat.spelledDigits (digit :: digits) ++ fmtp) =
          CFormat.spelledDigits (digit :: digits) :=
        (digitsOf_of_digit (spelledDigit_spec digit).1 _).trans
          (takeWhile_spelledDigits (digit :: digits) h)
      rw [hslatoi, hskip, hdigits] at hlength
      change (if slisdigit (0x30 + UInt8.ofNat digit.val) = true then
        (Count.number (slatoi (CFormat.spelledDigits (digit :: digits) ++ fmtp)),
          skipNumber (slatoi (CFormat.spelledDigits (digit :: digits) ++ fmtp))
            (CFormat.spelledDigits (digit :: digits) ++ fmtp)) else _) = _
      rw [if_pos (spelledDigit_spec digit).1, hslatoi, skipNumber, hskip,
        List.drop_append_of_le_length hlength, CFormat.spelledDigits, ← List.map_drop, countOf,
        CFormat.spelledDigits]

/-- A number that fits 16 bits is read, and skipped. -/
theorem parseCount_spelledDigits {digits : List (Fin 10)} {fmtp : List UInt8}
    (hnil : digits ≠ []) (hread : NumberRead digits) (h : NoDigit fmtp) :
    parseCount (CFormat.spelledDigits digits ++ fmtp) = (countOf digits, fmtp) := by
  rw [parseCount_digits hnil h, skippedDigits_of_read hread, List.drop_length]
  rfl

end Counts

section Conversions

variable {conv : CFormat.Conversion} {rest : List UInt8}

/-- A conversion from its specifier on, from its length modifier on, and so on. -/
def fromSpecifier (conv : CFormat.Conversion) (rest : List UInt8) : List UInt8 :=
  conv.specifier.spelled :: rest

def fromLength (conv : CFormat.Conversion) (rest : List UInt8) : List UInt8 :=
  (conv.length.map CFormat.Length.spelled).toList ++ fromSpecifier conv rest

def fromPrecision (conv : CFormat.Conversion) (rest : List UInt8) : List UInt8 :=
  conv.precision.elim [] (fun digits => 0x2e :: CFormat.spelledDigits digits) ++
    fromLength conv rest

def fromWidth (conv : CFormat.Conversion) (rest : List UInt8) : List UInt8 :=
  conv.width.elim [] (fun width => CFormat.spelledDigits width.digits) ++ fromPrecision conv rest

theorem spelled_append (conv : CFormat.Conversion) (rest : List UInt8) :
    conv.spelled ++ rest = (conv.flag.map CFormat.Flag.spelled).toList ++ fromWidth conv rest := by
  simp only [CFormat.Conversion.spelled, fromWidth, fromPrecision, fromLength, fromSpecifier,
    List.append_assoc, List.singleton_append]

/-- A list starts with a character of some kind. -/
def Starts (p : UInt8 → Prop) (fmtp : List UInt8) : Prop := ∃ c cs, fmtp = c :: cs ∧ p c

/-- The characters of specifiers and length modifiers. -/
def IsLetter (c : UInt8) : Prop := 0x58 ≤ c

instance (c : UInt8) : Decidable (IsLetter c) := inferInstanceAs (Decidable (0x58 ≤ c))

/-- The characters that may follow a width. -/
def EndsWidth (c : UInt8) : Prop := c = 0x2e ∨ IsLetter c

theorem isLetter_specifier (specifier : CFormat.Specifier) : IsLetter specifier.spelled := by
  cases specifier <;> decide

theorem isLetter_length (length : CFormat.Length) : IsLetter length.spelled := by
  cases length <;> decide

theorem IsLetter.ne {c d : UInt8} (h : IsLetter c) (hd : d < 0x58) : c ≠ d := by
  rintro rfl
  exact absurd h (UInt8.not_le.mpr hd)

theorem IsLetter.slisdigit_eq {c : UInt8} (h : IsLetter c) : slisdigit c = false := by
  rw [slisdigit, Bool.and_eq_false_iff]
  refine .inr (decide_eq_false ?_)
  rw [UInt8.not_le]
  exact UInt8.lt_of_lt_of_le (of_decide_eq_true rfl) h

theorem EndsWidth.slisdigit_eq {c : UInt8} (h : EndsWidth c) : slisdigit c = false := by
  rcases h with rfl | hletter
  · rfl
  · exact hletter.slisdigit_eq

theorem EndsWidth.ne_star {c : UInt8} (h : EndsWidth c) : c ≠ 0x2a := by
  rcases h with rfl | hletter
  · decide
  · exact hletter.ne (of_decide_eq_true rfl)

theorem EndsWidth.ne_flag {c : UInt8} (h : EndsWidth c) (flag : CFormat.Flag) :
    c ≠ flag.spelled := by
  rcases h with rfl | hletter
  · cases flag <;> decide
  · refine hletter.ne ?_
    cases flag <;> decide

theorem spelledDigit_ne_flag {digit : Fin 10} (h : digit ≠ 0) (flag : CFormat.Flag) :
    0x30 + UInt8.ofNat digit.val ≠ flag.spelled := by
  revert digit
  cases flag <;> decide

theorem starts_fromLength (conv : CFormat.Conversion) (rest : List UInt8) :
    Starts IsLetter (fromLength conv rest) := by
  rw [fromLength]
  cases conv.length with
  | none => exact ⟨_, _, rfl, isLetter_specifier conv.specifier⟩
  | some length => exact ⟨_, _, rfl, isLetter_length length⟩

theorem starts_fromPrecision (conv : CFormat.Conversion) (rest : List UInt8) :
    Starts EndsWidth (fromPrecision conv rest) := by
  rw [fromPrecision]
  cases conv.precision with
  | none =>
      obtain ⟨c, cs, heq, hletter⟩ := starts_fromLength conv rest
      exact ⟨c, cs, heq, .inr hletter⟩
  | some digits => exact ⟨_, _, rfl, .inl rfl⟩

/-- Neither a width nor what stands behind it starts like a flag. -/
theorem starts_fromWidth (conv : CFormat.Conversion) (rest : List UInt8) :
    Starts (fun c => ∀ flag : CFormat.Flag, c ≠ flag.spelled) (fromWidth conv rest) := by
  rw [fromWidth]
  cases conv.width with
  | none =>
      obtain ⟨c, cs, heq, hends⟩ := starts_fromPrecision conv rest
      exact ⟨c, cs, heq, hends.ne_flag⟩
  | some width =>
      obtain ⟨digits, hfirst⟩ := width
      cases digits with
      | nil => exact absurd rfl hfirst
      | cons digit digits => exact ⟨_, _, rfl, spelledDigit_ne_flag hfirst⟩

theorem noDigit_of_starts {p : UInt8 → Prop} {fmtp : List UInt8} (h : Starts p fmtp)
    (hp : ∀ c, p c → slisdigit c = false) : NoDigit fmtp := by
  obtain ⟨c, cs, rfl, hc⟩ := h
  intro d hd
  rw [← Option.some.inj hd]
  exact hp c hc

theorem parseFlags_spelled (flag : CFormat.Flag) (fmtp : List UInt8) :
    parseFlags (flag.spelled :: fmtp) = (flagsOf (some flag), fmtp) := by
  cases flag <;> rfl

theorem parseFlags_fromWidth (conv : CFormat.Conversion) (rest : List UInt8) :
    parseFlags (fromWidth conv rest) = (flagsOf none, fromWidth conv rest) := by
  obtain ⟨c, cs, heq, hne⟩ := starts_fromWidth conv rest
  rw [heq]
  exact (if_neg (hne .left)).trans ((if_neg (hne .plus)).trans ((if_neg (hne .space)).trans
    ((if_neg (hne .alternate)).trans (if_neg (hne .zeros)))))

theorem parseFlags_flag (conv : CFormat.Conversion) (rest : List UInt8) :
    parseFlags ((conv.flag.map CFormat.Flag.spelled).toList ++ fromWidth conv rest) =
      (flagsOf conv.flag, fromWidth conv rest) := by
  cases conv.flag with
  | none => exact parseFlags_fromWidth conv rest
  | some flag => exact parseFlags_spelled flag _

/-- No number is read where none starts. -/
theorem parseCount_of_starts {fmtp : List UInt8} (h : Starts EndsWidth fmtp) :
    parseCount fmtp = (.absent, fmtp) := by
  obtain ⟨c, cs, rfl, hends⟩ := h
  have hdigit : ¬slisdigit c = true := by
    rw [hends.slisdigit_eq]
    exact Bool.false_ne_true
  rw [parseCount, if_neg hdigit, if_neg hends.ne_star]

theorem parseCount_fromWidth (hwidth : conv.minWidth < 65536) (rest : List UInt8) :
    parseCount (fromWidth conv rest) =
      (conv.width.elim .absent fun width => countOf width.digits, fromPrecision conv rest) := by
  have hstarts := starts_fromPrecision conv rest
  rw [CFormat.Conversion.minWidth] at hwidth
  rw [fromWidth]
  cases hcases : conv.width with
  | none => exact parseCount_of_starts hstarts
  | some width =>
      rw [hcases] at hwidth
      obtain ⟨digits, hfirst⟩ := width
      have hnil : digits ≠ [] := by
        rintro rfl
        exact hfirst rfl
      have hhead : digits.head? ≠ some 0 := by
        intro hzero
        rw [List.headD_eq_head?_getD, hzero] at hfirst
        exact hfirst rfl
      exact parseCount_spelledDigits hnil ⟨hhead, hwidth⟩
        (noDigit_of_starts hstarts fun _ => EndsWidth.slisdigit_eq)

theorem parsePrecision_fromPrecision
    (hprecision : ∀ digits, conv.precision = some digits → NumberRead digits)
    (rest : List UInt8) :
    parsePrecision (fromPrecision conv rest) =
      (conv.precision.elim .absent countOf, fromLength conv rest) := by
  obtain ⟨c, cs, heq, hletter⟩ := starts_fromLength conv rest
  rw [fromPrecision]
  cases hcases : conv.precision with
  | none =>
      rw [Option.elim_none, List.nil_append, heq, parsePrecision,
        if_neg (hletter.ne (of_decide_eq_true rfl))]
      rfl
  | some digits =>
      rw [Option.elim_some, List.cons_append, parsePrecision, if_pos rfl]
      by_cases hnil : digits = []
      · subst hnil
        have habsent : parseCount (CFormat.spelledDigits [] ++ fromLength conv rest) =
            (.absent, fromLength conv rest) :=
          parseCount_of_starts ⟨c, cs, heq, .inr hletter⟩
        rw [habsent]
        rfl
      · have hdigits := parseCount_spelledDigits hnil (hprecision digits hcases)
          (noDigit_of_starts (starts_fromLength conv rest) fun _ => IsLetter.slisdigit_eq)
        rw [hdigits]
        rfl

theorem parseQualifier_fromLength (conv : CFormat.Conversion) (rest : List UInt8) :
    parseQualifier (fromLength conv rest) =
      (conv.length.map CFormat.Length.spelled, fromSpecifier conv rest) := by
  rw [fromLength, fromSpecifier]
  cases conv.length with
  | none => cases conv.specifier <;> rfl
  | some length => cases length <;> rfl

/-- A conversion is read as it is spelled. -/
theorem parseConversion_spelled (h : NumbersRead conv) (rest : List UInt8) :
    parseConversion (conv.spelled ++ rest) = (conversionOf conv, rest) := by
  rw [spelled_append, parseConversion]
  simp only [parseFlags_flag, parseCount_fromWidth h.width,
    parsePrecision_fromPrecision h.precision, parseQualifier_fromLength]
  rfl

/-- A format is read as the directives that it is spelled from. -/
theorem formatItems_format {ds : List CFormat.Directive} (h : ∀ d ∈ ds, WellRead d) :
    formatItems (CFormat.format ds) = ds.map itemOf := by
  induction ds with
  | nil => rfl
  | cons d ds ih =>
      obtain ⟨hd, hds⟩ := List.forall_mem_cons.mp h
      have hformat : CFormat.format (d :: ds) = d.spelled ++ CFormat.format ds := rfl
      rw [hformat, List.map_cons, ← ih hds]
      cases d with
      | literal c =>
          have hnext : nextItem c.val (CFormat.format ds) =
              (.character c.val, CFormat.format ds) := if_neg c.property.1
          change formatItems (c.val :: CFormat.format ds) = _
          rw [formatItems_cons, hnext]
          rfl
      | percent =>
          change formatItems (0x25 :: 0x25 :: CFormat.format ds) = _
          rw [formatItems_cons]
          rfl
      | conversion conv =>
          have hnext : nextItem 0x25 (conv.spelled ++ CFormat.format ds) =
              (.conversion (conversionOf conv), CFormat.format ds) := by
            rw [nextItem, if_pos rfl, parseConversion_spelled hd]
          change formatItems (0x25 :: (conv.spelled ++ CFormat.format ds)) = _
          rw [formatItems_cons, hnext]
          rfl

end Conversions

end Sl

end SierraSdk
