import SierraSdk.Sl.SprintfStandard

/-!
# Formats that are not read as they are spelled

Of a number with a zero in front, or of a large one, digits may be left over, and the first of them
is taken for a specifier (`parseConversion_leftOver`). A specifier that is none is written behind a
`%`, which the standard does not have there (`not_formats_of_leftOver`).
-/

namespace SierraSdk

namespace Sl

open BoundedText

section Reading

variable {conv : CFormat.Conversion} {rest : List UInt8}

/-- Digits of a number are not skipped. -/
def DigitsLeft (digits : List (Fin 10)) : Prop := skippedDigits digits < digits.length

/-- Digits of a conversion are left over. -/
def LeftOver (conv : CFormat.Conversion) : Prop :=
  (∃ width, conv.width = some width ∧ DigitsLeft width.digits) ∨
    ∃ digits, conv.precision = some digits ∧ DigitsLeft digits

/-- What is read of a conversion: what is behind it up to a place has no `%`, and a digit that is
left over is the specifier. -/
structure ReadsTo (conv : CFormat.Conversion) (rest : List UInt8)
    (read : Conversion × List UInt8) : Prop where
  skips : Skips read.2 rest
  digit : LeftOver conv → ∃ c, read.1.specifier = some c ∧ slisdigit c = true

theorem not_digitsLeft_iff {digits : List (Fin 10)} :
    ¬DigitsLeft digits ↔ digits.drop (skippedDigits digits) = [] := by
  rw [DigitsLeft, Nat.not_lt, List.drop_eq_nil_iff]

/-- A digit is neither a point nor a length modifier. -/
theorem parse_of_digit {c : UInt8} (h : slisdigit c = true) (cs : List UInt8) :
    parsePrecision (c :: cs) = (.absent, c :: cs) ∧ parseQualifier (c :: cs) = (none, c :: cs) := by
  have hne {d : UInt8} (hd : slisdigit d = false) : c ≠ d := by
    rintro rfl
    rw [hd] at h
    exact Bool.noConfusion h
  refine ⟨if_neg (hne rfl), if_neg ?_⟩
  rintro (hshort | hlong)
  · exact hne rfl hshort
  · exact hne rfl hlong

theorem skips_digits (digits : List (Fin 10)) (fmtp : List UInt8) :
    Skips (CFormat.spelledDigits digits ++ fmtp) fmtp := by
  refine ⟨_, rfl, fun c hc => ?_⟩
  have hdigit := slisdigit_of_mem hc
  rintro rfl
  exact Bool.noConfusion hdigit

theorem skips_letter {c : UInt8} (h : IsLetter c) (fmtp : List UInt8) : Skips (c :: fmtp) fmtp :=
  skips_cons (h.ne (of_decide_eq_true rfl)) fmtp

theorem skips_fromLength (conv : CFormat.Conversion) (rest : List UInt8) :
    Skips (fromLength conv rest) rest := by
  have hspecifier := skips_letter (isLetter_specifier conv.specifier) rest
  rw [fromLength]
  cases conv.length with
  | none => exact hspecifier
  | some length => exact (skips_letter (isLetter_length length) _).trans hspecifier

theorem skips_fromPrecision (conv : CFormat.Conversion) (rest : List UInt8) :
    Skips (fromPrecision conv rest) rest := by
  have hlength := skips_fromLength conv rest
  rw [fromPrecision]
  cases conv.precision with
  | none => exact hlength
  | some digits =>
      exact (skips_cons (by decide) _).trans ((skips_digits digits _).trans hlength)

/-- What follows a width and a precision is the specifier, or a digit that is left over. -/
theorem readsTo_of_digit (flags : TypeMask) (width precision : Count) (digit : Fin 10)
    (digits : List (Fin 10)) {fmtp : List UInt8} (h : Skips fmtp rest) :
    let qualifier := parseQualifier (CFormat.spelledDigits (digit :: digits) ++ fmtp)
    ReadsTo conv rest
      (⟨flags, width, precision, qualifier.1, qualifier.2.head?⟩, qualifier.2.tail) := by
  have hdigit := (spelledDigit_spec digit).1
  have hqualifier : parseQualifier (CFormat.spelledDigits (digit :: digits) ++ fmtp) =
      (none, CFormat.spelledDigits (digit :: digits) ++ fmtp) := (parse_of_digit hdigit _).2
  simp only [hqualifier]
  exact ⟨(skips_digits digits fmtp).trans h, fun _ => ⟨_, rfl, hdigit⟩⟩

theorem readsTo_fromLength (flags : TypeMask) (width precision : Count) (h : ¬LeftOver conv) :
    let qualifier := parseQualifier (fromLength conv rest)
    ReadsTo conv rest
      (⟨flags, width, precision, qualifier.1, qualifier.2.head?⟩, qualifier.2.tail) := by
  simp only [parseQualifier_fromLength]
  exact ⟨skips_refl rest, fun hleft => absurd hleft h⟩

/-- A precision is read in 16 bits, too. -/
theorem parsePrecision_digits (conv : CFormat.Conversion) (digits : List (Fin 10))
    (rest : List UInt8) :
    ∃ count, parsePrecision (0x2e :: (CFormat.spelledDigits digits ++ fromLength conv rest)) =
      (count,
        CFormat.spelledDigits (digits.drop (skippedDigits digits)) ++ fromLength conv rest) := by
  have hstarts := starts_fromLength conv rest
  rw [parsePrecision, if_pos rfl]
  by_cases hnil : digits = []
  · subst hnil
    obtain ⟨c, cs, heq, hletter⟩ := hstarts
    have habsent : parseCount (CFormat.spelledDigits [] ++ fromLength conv rest) =
        (.absent, fromLength conv rest) := parseCount_of_starts ⟨c, cs, heq, .inr hletter⟩
    rw [habsent, List.drop_nil]
    exact ⟨_, rfl⟩
  · rw [parseCount_digits hnil (noDigit_of_starts hstarts fun _ => IsLetter.slisdigit_eq)]
    exact ⟨_, rfl⟩

/-- Behind a width whose digits are skipped. -/
theorem readsTo_fromPrecision (flags : TypeMask) (width : Count)
    (hwidth : ∀ w, conv.width = some w → ¬DigitsLeft w.digits) :
    let precision := parsePrecision (fromPrecision conv rest)
    let qualifier := parseQualifier precision.2
    ReadsTo conv rest
      (⟨flags, width, precision.1, qualifier.1, qualifier.2.head?⟩, qualifier.2.tail) := by
  have hleftOver (h : ∀ digits, conv.precision = some digits → ¬DigitsLeft digits) :
      ¬LeftOver conv := by
    rintro (⟨w, hw, hleft⟩ | ⟨digits, hdigits, hleft⟩)
    · exact hwidth w hw hleft
    · exact h digits hdigits hleft
  rw [fromPrecision]
  cases hcases : conv.precision with
  | none =>
      rw [hcases] at hleftOver
      have hparse : parsePrecision (fromLength conv rest) = (.absent, fromLength conv rest) := by
        obtain ⟨c, cs, heq, hletter⟩ := starts_fromLength conv rest
        rw [heq]
        exact if_neg (hletter.ne (of_decide_eq_true rfl))
      simp only [Option.elim_none, List.nil_append, hparse]
      exact readsTo_fromLength _ _ _ (hleftOver fun _ h => absurd h.symm (Option.some_ne_none _))
  | some digits =>
      rw [hcases] at hleftOver
      obtain ⟨count, hparse⟩ := parsePrecision_digits conv digits rest
      simp only [Option.elim_some, List.cons_append, hparse]
      cases hdrop : digits.drop (skippedDigits digits) with
      | nil =>
          refine readsTo_fromLength _ _ _ (hleftOver fun digits' h => ?_)
          rw [← Option.some.inj h]
          exact not_digitsLeft_iff.mpr hdrop
      | cons digit digits => exact readsTo_of_digit _ _ _ digit digits (skips_fromLength conv rest)

theorem parseConversion_readsTo (conv : CFormat.Conversion) (rest : List UInt8) :
    ReadsTo conv rest (parseConversion (conv.spelled ++ rest)) := by
  have hstarts := starts_fromPrecision conv rest
  rw [spelled_append, parseConversion]
  simp only [parseFlags_flag]
  rw [fromWidth]
  cases hcases : conv.width with
  | none =>
      rw [Option.elim_none, List.nil_append, parseCount_of_starts hstarts]
      refine readsTo_fromPrecision _ _ fun w hw => ?_
      exact absurd (hw.symm.trans hcases) (Option.some_ne_none w)
  | some w =>
      have hnil : w.digits ≠ [] := by
        intro hnil
        have hfirst := w.first_ne_zero
        rw [hnil] at hfirst
        exact hfirst rfl
      have hparse := parseCount_digits hnil
        (noDigit_of_starts hstarts fun _ => EndsWidth.slisdigit_eq)
      rw [Option.elim_some, hparse]
      cases hdrop : w.digits.drop (skippedDigits w.digits) with
      | nil =>
          refine readsTo_fromPrecision _ _ fun w' hw' => ?_
          obtain rfl := Option.some.inj (hcases.symm.trans hw')
          exact not_digitsLeft_iff.mpr hdrop
      | cons digit digits =>
          have hprecision : parsePrecision
              (CFormat.spelledDigits (digit :: digits) ++ fromPrecision conv rest) =
                (.absent, CFormat.spelledDigits (digit :: digits) ++ fromPrecision conv rest) :=
            (parse_of_digit (spelledDigit_spec digit).1 _).1
          simp only [hprecision]
          exact readsTo_of_digit _ _ _ digit digits (skips_fromPrecision conv rest)

end Reading

section Percents

variable {args : Arguments} {argp : ℕ} {strp text : List UInt8}

/-- A `%` is written for a specifier that is none, and for one that is missing. -/
def Item.writesPercent : Item → Bool
  | .character _ => false
  | .conversion conv => !conv.specifier.any readsArg

theorem count_printItem {item : Item}
    (h : (printItem 0 args item argp strp).2 = .ok text) (hwrites : item.writesPercent = true) :
    strp.count 0x25 + 1 ≤ text.count 0x25 := by
  cases item with
  | character c => exact Bool.noConfusion hwrites
  | conversion conv =>
      rw [printItem, printConversion] at h
      rw [Item.writesPercent] at hwrites
      cases hspecifier : conv.specifier with
      | none =>
          rw [hspecifier] at h
          obtain rfl := Except.ok.inj ((checked_zero _).symm.trans h)
          rw [List.count_append, List.count_singleton_self]
      | some c =>
          rw [hspecifier, Option.any_some, Bool.not_eq_true'] at hwrites
          have hreads : ¬readsArg c = true := by
            rw [hwrites]
            exact Bool.false_ne_true
          obtain ⟨hc, hs, hp, hn, hnumber⟩ := not_readsArg_iff.mp hreads
          rw [hspecifier] at h
          simp only [if_neg hc, if_neg hs, if_neg hp, if_neg hn, if_neg hnumber, puts_zero] at h
          obtain rfl := Except.ok.inj h
          rw [List.count_append]
          refine Nat.add_le_add_left (List.one_le_count_iff.mpr ?_) _
          split_ifs with hpercent
          · exact List.mem_singleton.mpr hpercent.symm
          · exact List.mem_cons_self

/-- A text has the percent signs that its items write. -/
theorem count_printItems {items : List Item}
    (h : (printItems 0 args items argp strp).2 = .ok text) :
    strp.count 0x25 + items.countP Item.writesPercent ≤ text.count 0x25 := by
  induction items generalizing argp strp with
  | nil =>
      obtain rfl := Except.ok.inj h
      exact Nat.le_refl _
  | cons item items ih =>
      rw [printItems_cons] at h
      obtain ⟨text', hitem, hrest⟩ := andThen_eq_ok h
      have hle := ih hrest
      by_cases hwrites : item.writesPercent = true
      · have hmore := count_printItem hitem hwrites
        rw [List.countP_cons_of_pos hwrites]
        omega
      · have hadds : strp <+: text' := (bounded_printItem args item argp).adds hitem
        have hmore := hadds.sublist.count_le 0x25
        rw [List.countP_cons_of_neg hwrites]
        omega

theorem countP_formatItems_of_skips {fmtp rest : List UInt8} (h : Skips fmtp rest) :
    (formatItems fmtp).countP Item.writesPercent =
      (formatItems rest).countP Item.writesPercent := by
  obtain ⟨skipped, rfl, hskipped⟩ := h
  induction skipped with
  | nil => rfl
  | cons c skipped ih =>
      obtain ⟨hc, hskipped⟩ := List.forall_mem_cons.mp hskipped
      have hnext : nextItem c (skipped ++ rest) = (.character c, skipped ++ rest) := if_neg hc
      rw [List.cons_append, formatItems_cons, hnext]
      exact ih hskipped

/-- A directive whose digits are left over. -/
def IsLeftOver : CFormat.Directive → Prop
  | .conversion conv => LeftOver conv
  | _ => False

theorem readsArg_of_digit {c : UInt8} (h : slisdigit c = true) : readsArg c = false := by
  have hne {d : UInt8} (hd : slisdigit d = false) : c ≠ d := by
    rintro rfl
    rw [hd] at h
    exact Bool.noConfusion h
  simp only [readsArg, isNumber, hne (d := 0x63) rfl, hne (d := 0x73) rfl, hne (d := 0x70) rfl,
    hne (d := 0x6e) rfl, hne (d := 0x6f) rfl, hne (d := 0x58) rfl, hne (d := 0x78) rfl,
    hne (d := 0x64) rfl, hne (d := 0x69) rfl, hne (d := 0x75) rfl, decide_false, Bool.or_false]

/-- A directive adds its percent sign, and one more if digits are left over. -/
theorem countP_formatItems_append (d : CFormat.Directive) (rest : List UInt8) :
    (if d.isPercent then 1 else 0) + (formatItems rest).countP Item.writesPercent ≤
        (formatItems (d.spelled ++ rest)).countP Item.writesPercent ∧
      (IsLeftOver d → d.isPercent = false ∧
        (formatItems rest).countP Item.writesPercent <
          (formatItems (d.spelled ++ rest)).countP Item.writesPercent) := by
  cases d with
  | literal c =>
      have hskips : Skips (c.val :: rest) rest := skips_cons c.property.1 rest
      refine ⟨?_, False.elim⟩
      rw [CFormat.Directive.spelled, List.singleton_append, countP_formatItems_of_skips hskips]
      exact Nat.le_of_eq (Nat.zero_add _)
  | percent =>
      refine ⟨?_, False.elim⟩
      change 1 + _ ≤ (formatItems (0x25 :: 0x25 :: rest)).countP Item.writesPercent
      rw [formatItems_cons, List.countP_cons_of_pos rfl, Nat.add_comm]
      exact Nat.le_refl _
  | conversion conv =>
      obtain ⟨hskips, hdigit⟩ := parseConversion_readsTo conv rest
      have hrest := countP_formatItems_of_skips hskips
      have hnext : nextItem 0x25 (conv.spelled ++ rest) =
          (.conversion (parseConversion (conv.spelled ++ rest)).1,
            (parseConversion (conv.spelled ++ rest)).2) := if_pos rfl
      change _ ≤ (formatItems (0x25 :: (conv.spelled ++ rest))).countP Item.writesPercent ∧
        (LeftOver conv → false = false ∧
          _ < (formatItems (0x25 :: (conv.spelled ++ rest))).countP Item.writesPercent)
      rw [formatItems_cons, hnext]
      refine ⟨?_, fun hleft => ⟨rfl, ?_⟩⟩
      · rw [← hrest]
        refine Nat.le_trans (Nat.le_of_eq (Nat.zero_add _)) ?_
        exact List.Sublist.countP_le (List.sublist_cons_self _ _)
      · obtain ⟨c, hspecifier, hc⟩ := hdigit hleft
        have hwrites : (Item.conversion
            (parseConversion (conv.spelled ++ rest)).1).writesPercent = true := by
          rw [Item.writesPercent, hspecifier, Option.any_some, readsArg_of_digit hc]
          rfl
        rw [List.countP_cons_of_pos hwrites, ← hrest]
        exact Nat.lt_succ_self _

/-- More percent signs are written than a format has if digits are left over. -/
theorem countP_formatItems (ds : List CFormat.Directive) :
    ds.countP CFormat.Directive.isPercent ≤
        (formatItems (CFormat.format ds)).countP Item.writesPercent ∧
      ((∃ d ∈ ds, IsLeftOver d) → ds.countP CFormat.Directive.isPercent <
        (formatItems (CFormat.format ds)).countP Item.writesPercent) := by
  induction ds with
  | nil =>
      refine ⟨Nat.le_refl _, ?_⟩
      rintro ⟨d, hd, -⟩
      exact absurd hd List.not_mem_nil
  | cons d ds ih =>
      obtain ⟨hle, hlt⟩ := countP_formatItems_append d (CFormat.format ds)
      have hformat : CFormat.format (d :: ds) = d.spelled ++ CFormat.format ds := rfl
      rw [hformat, List.countP_cons]
      refine ⟨by omega, ?_⟩
      rintro ⟨d', hd', hleft⟩
      rcases List.mem_cons.mp hd' with rfl | hmem
      · obtain ⟨hnone, hmore⟩ := hlt hleft
        rw [hnone, if_neg Bool.false_ne_true]
        omega
      · have hmore := ih.2 ⟨d', hmem, hleft⟩
        omega

/-- A format of which digits are left over is not written right, unless an argument has a percent
sign. -/
theorem not_formats_of_leftOver {ds : List CFormat.Directive}
    (hleft : ∃ d ∈ ds, IsLeftOver d)
    (hfree : CFormat.Each (argumentOf args) CFormat.PercentFree ds 0) :
    ¬∀ maxlen, 2 ≤ maxlen → Formats ds args maxlen := by
  intro h
  obtain ⟨text, htext⟩ := printItems_of_fit (fits_of_formats h) []
  have hle := count_printItems htext
  have hlt := (countP_formatItems ds).2 hleft
  rw [text_of_formats htext h, standardText, CFormat.text, CFormat.count_percent_texts hfree,
    List.count_nil] at hle
  omega

end Percents

section Standard

/-- Of a number with a zero in front a digit is left over. -/
theorem digitsLeft_of_zero {digits : List (Fin 10)} (hnumber : CFormat.number digits < 65536)
    (hzero : digits.head? = some 0) : DigitsLeft digits := by
  obtain ⟨rest, rfl⟩ := List.head?_eq_some_iff.mp hzero
  have heq : CFormat.number (0 :: rest) = CFormat.number rest := by
    rw [CFormat.number, List.reverse_cons, List.map_append]
    exact Nat.ofDigits_append_zero _
  have hlt : CFormat.number rest < 10 ^ rest.length := by
    have hpow := Nat.ofDigits_lt_base_pow_length (by decide : 1 < 10)
      (l := rest.reverse.map Fin.val) fun digit hdigit => by
        obtain ⟨d, -, rfl⟩ := List.mem_map.mp hdigit
        exact d.isLt
    rwa [List.length_map, List.length_reverse] at hpow
  rw [DigitsLeft, skippedDigits, Nat.mod_eq_of_lt hnumber, heq, List.length_cons]
  exact Nat.lt_succ_of_le ((Nat.digits_length_le_iff (by decide) _).mpr hlt)

/-- A text is the one that the standard prescribes, as far as it goes. When the numbers of its
format are read, it is so with a maximum of one if there is no text or a bare number comes first,
and with all other ones if each directive agrees. When digits of a number are left over, it is not,
unless an argument has a percent sign. -/
theorem slvsprintflen_formats (ds : List CFormat.Directive) (args : Arguments)
    (hdefined : CFormat.Each (argumentOf args) CFormat.Directive.Defined ds 0) :
    ((∀ d ∈ ds, WellRead d) →
      (Formats ds args 1 ↔ OneSuffices (argumentOf args) ds 0) ∧
        ((∀ maxlen, 2 ≤ maxlen → Formats ds args maxlen) ↔
          CFormat.Each (argumentOf args) Agrees ds 0)) ∧
      ((∃ d ∈ ds, IsLeftOver d) → CFormat.Each (argumentOf args) CFormat.PercentFree ds 0 →
        ¬∀ maxlen, 2 ≤ maxlen → Formats ds args maxlen) :=
  ⟨fun hread => ⟨formats_one_iff hread hdefined, formats_of_two_le_iff hread hdefined⟩,
    not_formats_of_leftOver⟩

/-- A number to be formatted with no width and no length modifier. -/
def numberFormat (flag : Option CFormat.Flag) (precision : Option (List (Fin 10)))
    (specifier : CFormat.Specifier) : List CFormat.Directive :=
  [.conversion ⟨flag, none, precision, none, specifier⟩]

/-- `%+d` is written right from a maximum of two on, and `%.05d` is not. -/
theorem slvsprintflen_formats_sign :
    ((Formats (numberFormat (some .plus) none .d) (allArgs 7) 1 ↔
        OneSuffices (argumentOf (allArgs 7)) (numberFormat (some .plus) none .d) 0) ∧
      ((∀ maxlen, 2 ≤ maxlen → Formats (numberFormat (some .plus) none .d) (allArgs 7) maxlen) ↔
        CFormat.Each (argumentOf (allArgs 7)) Agrees (numberFormat (some .plus) none .d) 0)) ∧
      ¬∀ maxlen, 2 ≤ maxlen → Formats (numberFormat none (some [0, 5]) .d) (allArgs 7) maxlen := by
  have hsign := slvsprintflen_formats (numberFormat (some .plus) none .d) (allArgs 7)
    ⟨⟨by decide, by decide, by decide, by decide, by decide⟩, trivial⟩
  have hzero := slvsprintflen_formats (numberFormat none (some [0, 5]) .d) (allArgs 7)
    ⟨⟨by decide, by decide, by decide, by decide, by decide⟩, trivial⟩
  refine ⟨hsign.1 ?_, hzero.2 ?_ ?_⟩
  · refine List.forall_mem_singleton.mpr ⟨by decide, fun digits h => ?_⟩
    exact absurd h.symm (Option.some_ne_none digits)
  · exact ⟨_, List.mem_singleton_self _, .inr ⟨_, rfl, digitsLeft_of_zero (by decide) rfl⟩⟩
  · exact ⟨⟨by decide, by decide⟩, trivial⟩

/-- `%#x` for zero is written with a mark. -/
theorem not_slvsprintflen_formats :
    ¬∀ (ds : List CFormat.Directive) (args : Arguments) (maxlen : ℕ),
      CFormat.Each (argumentOf args) CFormat.Directive.Defined ds 0 → 1 ≤ maxlen →
        Formats ds args maxlen := by
  intro h
  obtain ⟨r, hr, hbytes, -⟩ := h (numberFormat (some .alternate) none .x) (allArgs 0) 4
    ⟨⟨by decide, by decide, by decide, by decide, by decide⟩, trivial⟩ (by decide)
  have hwritten : slvsprintflen (CFormat.format (numberFormat (some .alternate) none .x))
      (allArgs 0) 4 = some ⟨[0x30, 0x78, 0x30, 0], 3, 1⟩ := rfl
  have htext : standardText (numberFormat (some .alternate) none .x) (allArgs 0) = [0x30] := rfl
  obtain rfl := Option.some.inj (hwritten.symm.trans hr)
  rw [htext] at hbytes
  exact absurd hbytes (by decide)

end Standard

end Sl

end SierraSdk
