import SierraSdk.Sl.SprintfText
import SierraSdk.Sl.SprintfWithin

/-!
# Formatted texts and the standard

When a text is the one that the standard prescribes, for formats whose numbers are read: with all
maximums from two on (`formats_of_two_le_iff`) and with a maximum of one (`formats_one_iff`). A
conversion that does not write the text of the standard (`Agrees`) writes more zeros, and so the
whole text is another one, too; a number in octal whose digits do not fit ends the process. With a
maximum of one the text is too long unless a number is the first thing in it, since only
`slnumberlen` compares the length before it has written.
-/

namespace SierraSdk

namespace Sl

open BoundedText

section Agreement

/-- The digits of a number, as many as it has. -/
def digitCount (conv : CFormat.Conversion) (word : UInt32) : ℕ :=
  (Nat.digits conv.specifier.base (conv.value word).natAbs).length

/-- A number is written as the standard has it. -/
structure SameText (conv : CFormat.Conversion) (word : UInt32) : Prop where
  digit : conv.minDigits = 0 → conv.value word ≠ 0
  hexadecimal : conv.flag = some .alternate → conv.specifier.base = 16 → conv.value word ≠ 0
  octal : conv.flag = some .alternate → conv.specifier.base = 8 →
    conv.value word ≠ 0 ∧ conv.minDigits ≤ digitCount conv word
  zeros : conv.flag = some .zeros → conv.precision.isSome →
    conv.minWidth ≤ (conv.sign word).length + max conv.minDigits (digitCount conv word)

/-- A number is written, and as the standard has it. -/
structure NumberAgrees (conv : CFormat.Conversion) (word : UInt32) : Prop where
  fits : conv.specifier = .o → conv.value word < 2 ^ 30
  same : SameText conv word

/-- A directive writes what the standard prescribes. -/
def Agrees : CFormat.Directive → CFormat.Argument → Prop
  | .conversion conv, arg => conv.specifier.isNumber → NumberAgrees conv arg.word
  | _, _ => True

variable {conv : CFormat.Conversion} {word : UInt32}

theorem writtenDigits_of_ne {base n : ℕ} (upper : Bool) (h : n ≠ 0) :
    writtenDigits base upper n = CFormat.digitsOf base upper n := if_neg h

theorem length_digitsOf_value (conv : CFormat.Conversion) (word : UInt32) (upper : Bool) :
    (CFormat.digitsOf conv.specifier.base upper (conv.value word).natAbs).length =
      digitCount conv word := CFormat.length_digitsOf _ _ _

theorem digitCount_pos (h : conv.value word ≠ 0) : 0 < digitCount conv word := by
  rw [digitCount]
  exact List.length_pos_of_ne_nil
    (Nat.digits_ne_nil_iff_ne_zero.mpr (Int.natAbs_ne_zero.mpr h))

theorem length_digits (conv : CFormat.Conversion) (word : UInt32) :
    (conv.digits word).length = max conv.minDigits (digitCount conv word) := by
  rw [CFormat.Conversion.digits, CFormat.length_numeral, length_digitsOf_value]

/-- The digits are those of the standard if there are any. -/
theorem writtenBody_of_ne (h : conv.minDigits = 0 → conv.value word ≠ 0) :
    writtenBody conv word = conv.digits word := by
  rw [CFormat.Conversion.minDigits] at h
  rw [writtenBody, CFormat.Conversion.digits, CFormat.Conversion.minDigits]
  by_cases hvalue : conv.value word = 0
  · rw [hvalue, Int.natAbs_zero, CFormat.digitsOf_zero]
    cases hprecision : conv.precision with
    | none => rfl
    | some digits =>
        rw [hprecision] at h
        obtain ⟨n, hn⟩ := Nat.exists_eq_succ_of_ne_zero fun hzero => h hzero hvalue
        rw [Option.elim_some, Option.elim_some] at *
        rw [hn]
        change List.replicate n 0x30 ++ [0x30] = List.replicate (n + 1) 0x30 ++ []
        rw [List.append_nil, List.replicate_succ']
  · have hpos := digitCount_pos hvalue
    rw [writtenDigits_of_ne _ (Int.natAbs_ne_zero.mpr hvalue)]
    cases conv.precision with
    | none =>
        rw [Option.elim_none, Option.elim_none, CFormat.numeral_of_le (Nat.zero_le _),
          CFormat.numeral_of_le (by rw [length_digitsOf_value]; exact hpos)]
    | some digits => rfl

theorem writtenBody_of_zero (hdigits : conv.minDigits = 0) (hvalue : conv.value word = 0) :
    writtenBody conv word = [0x30] ∧ conv.digits word = [] := by
  rw [writtenBody, CFormat.Conversion.digits, hdigits, hvalue, Int.natAbs_zero,
    CFormat.digitsOf_zero]
  obtain ⟨digits, hprecision⟩ :=
    Option.isSome_iff_exists.mp (CFormat.Conversion.isSome_of_minDigits hdigits)
  rw [CFormat.Conversion.minDigits, hprecision, Option.elim_some] at hdigits
  rw [hprecision, Option.elim_some, hdigits]
  exact ⟨rfl, rfl⟩

theorem body_of_octal {arg : CFormat.Argument} (halternate : conv.flag = some .alternate)
    (hbase : conv.specifier.base = 8) :
    conv.body arg = CFormat.octalMarked (conv.digits arg.word) := by
  rw [CFormat.Conversion.body]
  cases hcases : conv.specifier <;> rw [hcases] at hbase <;>
    first | exact if_pos halternate | exact absurd hbase (by decide)

theorem body_of_not_octal {arg : CFormat.Argument} (hnumber : conv.specifier.isNumber = true)
    (h : ¬(conv.flag = some .alternate ∧ conv.specifier.base = 8)) :
    conv.body arg = conv.digits arg.word := by
  rw [CFormat.Conversion.body]
  cases hcases : conv.specifier with
  | s =>
      rw [hcases] at hnumber
      exact Bool.noConfusion hnumber
  | c =>
      rw [hcases] at hnumber
      exact Bool.noConfusion hnumber
  | o =>
      rw [hcases] at h
      exact if_neg fun halternate => h ⟨halternate, rfl⟩
  | _ => rfl

theorem front_of_number {arg : CFormat.Argument} (hnumber : conv.specifier.isNumber = true) :
    conv.front arg = conv.sign arg.word ++ conv.mark arg.word := if_pos hnumber

/-- Only zeros in front of a precision are padded with in another way. -/
theorem writtenPadding_eq (h : conv.flag = some .zeros → conv.precision.isNone = true) :
    writtenPadding conv = conv.padding := by
  have hboth : (conv.flag = some .zeros ∧ conv.precision.isNone = true) ↔
      conv.flag = some .zeros := ⟨And.left, fun hzeros => ⟨hzeros, h hzeros⟩⟩
  simp only [writtenPadding, CFormat.Conversion.padding, hboth]

theorem marks_of_not_alternate (h : conv.flag ≠ some .alternate) (word : UInt32) :
    writtenMark conv = [] ∧ conv.mark word = [] :=
  ⟨if_neg h, if_neg fun hmark => h hmark.1⟩

theorem base_of_alternate {arg : CFormat.Argument} (hdefined : conv.Defined arg)
    (halternate : conv.flag = some .alternate) :
    conv.specifier.base = 16 ∨ conv.specifier.base = 8 := by
  have hbase := hdefined.1 halternate
  cases hcases : conv.specifier <;> rw [hcases] at hbase <;>
    first | exact .inl rfl | exact .inr rfl | exact absurd rfl hbase

/-- With a `#` a number has no sign, and is padded to the left. -/
theorem texts_of_alternate {arg : CFormat.Argument} (hnumber : conv.specifier.isNumber = true)
    (hdefined : conv.Defined arg) (halternate : conv.flag = some .alternate) :
    numberText conv arg.word =
        CFormat.padded .left conv.minWidth [] (writtenMark conv ++ writtenBody conv arg.word) ∧
      conv.text arg =
        CFormat.padded .left conv.minWidth [] (conv.mark arg.word ++ conv.body arg) := by
  have hwritten : writtenPadding conv = .left := by
    rw [writtenPadding, halternate]
    rfl
  have hleft : conv.padding = .left := by
    rw [CFormat.Conversion.padding, halternate]
    rfl
  rw [numberText, CFormat.Conversion.text, front_of_number hnumber, hwritten, hleft,
    CFormat.Conversion.sign_of_base (hdefined.1 halternate), List.nil_append, List.nil_append,
    CFormat.padded_left _ (writtenMark conv), CFormat.padded_left _ (conv.mark arg.word)]
  exact ⟨rfl, rfl⟩

/-- A number is written as the standard has it. -/
theorem numberText_of_same (hnumber : conv.specifier.isNumber = true) {arg : CFormat.Argument}
    (hdefined : conv.Defined arg) (h : SameText conv arg.word) :
    numberText conv arg.word = conv.text arg := by
  by_cases halternate : conv.flag = some .alternate
  · obtain ⟨hwritten, htext⟩ := texts_of_alternate hnumber hdefined halternate
    rw [hwritten, htext, writtenBody_of_ne h.digit, writtenMark, if_pos halternate,
      CFormat.Conversion.mark]
    rcases base_of_alternate hdefined halternate with hsixteen | height
    · rw [if_pos hsixteen, if_pos ⟨halternate, hsixteen, h.hexadecimal halternate hsixteen⟩,
        body_of_not_octal hnumber fun hoctal => by omega]
    · obtain ⟨hvalue, hle⟩ := h.octal halternate height
      have hhead : (conv.digits arg.word).head? ≠ some 0x30 := by
        rw [CFormat.Conversion.digits, CFormat.numeral_of_le (by
          rw [length_digitsOf_value]
          exact hle), height]
        exact CFormat.head?_digitsOf_eight (Int.natAbs_ne_zero.mpr hvalue) _
      rw [if_neg (by omega), if_pos height, if_neg (by omega), body_of_octal halternate height,
        CFormat.octalMarked_of_head? hhead]
      rfl
  · obtain ⟨hwritten, hmark⟩ := marks_of_not_alternate halternate arg.word
    rw [numberText, CFormat.Conversion.text, front_of_number hnumber, writtenBody_of_ne h.digit,
      hwritten, hmark, body_of_not_octal hnumber fun hoctal => halternate hoctal.1]
    by_cases hzeros : conv.flag = some .zeros ∧ conv.precision.isSome = true
    · have hle : conv.minWidth ≤ (conv.sign arg.word ++ [] ++ conv.digits arg.word).length := by
        rw [List.append_nil, List.length_append, length_digits]
        exact h.zeros hzeros.1 hzeros.2
      rw [CFormat.padded_of_le _ hle, CFormat.padded_of_le _ hle]
    · have hnone : conv.flag = some .zeros → conv.precision.isNone = true := by
        intro hflag
        rw [Option.isNone_iff_eq_none, ← Option.not_isSome_iff_eq_none]
        exact fun hsome => hzeros ⟨hflag, hsome⟩
      rw [writtenPadding_eq hnone]

theorem count_padded_left (width : ℕ) (body : List UInt8) :
    (CFormat.padded .left width [] body).count 0x30 = body.count 0x30 := by
  rw [CFormat.count_padded, if_neg (by decide), List.count_nil, Nat.zero_add, Nat.add_zero]

/-- A number has the zeros of the standard, and one more if the standard has no digit. -/
theorem count_digits_le (conv : CFormat.Conversion) (word : UInt32) :
    (conv.digits word).count 0x30 ≤ (writtenBody conv word).count 0x30 := by
  by_cases hzero : conv.minDigits = 0 ∧ conv.value word = 0
  · rw [(writtenBody_of_zero hzero.1 hzero.2).2]
    exact Nat.zero_le _
  · rw [writtenBody_of_ne fun hdigits hvalue => hzero ⟨hdigits, hvalue⟩]

/-- The mark of an octal number is one zero too many if there is one already. -/
theorem count_octalMarked_lt
    (h : ¬(conv.value word ≠ 0 ∧ conv.minDigits ≤ digitCount conv word)) :
    (CFormat.octalMarked (conv.digits word)).count 0x30 <
      1 + (writtenBody conv word).count 0x30 := by
  by_cases hzero : conv.minDigits = 0 ∧ conv.value word = 0
  · obtain ⟨hwritten, hdigits⟩ := writtenBody_of_zero hzero.1 hzero.2
    rw [hwritten, hdigits]
    decide
  · have hlt : digitCount conv word < conv.minDigits := by
      by_cases hvalue : conv.value word = 0
      · have hcount : digitCount conv word = 0 := by
          rw [digitCount, hvalue, Int.natAbs_zero, Nat.digits_zero, List.length_nil]
        rw [hcount]
        exact Nat.pos_of_ne_zero fun hdigits => hzero ⟨hdigits, hvalue⟩
      · exact Nat.lt_of_not_le fun hle => h ⟨hvalue, hle⟩
    rw [writtenBody_of_ne fun hdigits hvalue => hzero ⟨hdigits, hvalue⟩,
      CFormat.Conversion.digits, CFormat.octalMarked_of_lt (by rwa [length_digitsOf_value])]
    omega

/-- With a `#` another text has a zero more. -/
theorem count_text_of_alternate (hnumber : conv.specifier.isNumber = true)
    {arg : CFormat.Argument} (hdefined : conv.Defined arg)
    (halternate : conv.flag = some .alternate) (h : ¬SameText conv arg.word) :
    (conv.text arg).count 0x30 < (numberText conv arg.word).count 0x30 := by
  obtain ⟨hwritten, htext⟩ := texts_of_alternate hnumber hdefined halternate
  rw [hwritten, htext, count_padded_left, count_padded_left, List.count_append,
    List.count_append, writtenMark, if_pos halternate, CFormat.Conversion.mark]
  have hzeros : ¬conv.flag = some .zeros := by
    rw [halternate]
    decide
  rcases base_of_alternate hdefined halternate with hsixteen | height
  · have hvalue : conv.value arg.word = 0 := by
      by_contra hne
      exact h ⟨fun _ => hne, fun _ _ => hne, fun _ height => by omega,
        fun hflag => absurd hflag hzeros⟩
    have hle := count_digits_le conv arg.word
    rw [if_pos hsixteen, if_neg fun hmark => hmark.2.2 hvalue,
      body_of_not_octal hnumber fun hoctal => by omega, List.count_nil, List.count_cons_self]
    omega
  · have hoctal : ¬(conv.value arg.word ≠ 0 ∧ conv.minDigits ≤ digitCount conv arg.word) := by
      intro hboth
      exact h ⟨fun _ => hboth.1, fun _ hsixteen => by omega, fun _ _ => hboth,
        fun hflag => absurd hflag hzeros⟩
    have hlt := count_octalMarked_lt hoctal
    rw [if_neg (by omega), if_pos height, if_neg (by omega), body_of_octal halternate height,
      List.count_nil, List.count_singleton_self, Nat.zero_add]
    exact hlt

/-- Another text has more zeros. -/
theorem count_text_lt (hnumber : conv.specifier.isNumber = true) {arg : CFormat.Argument}
    (hdefined : conv.Defined arg) (h : ¬SameText conv arg.word) :
    (conv.text arg).count 0x30 < (numberText conv arg.word).count 0x30 := by
  by_cases halternate : conv.flag = some .alternate
  · exact count_text_of_alternate hnumber hdefined halternate h
  obtain ⟨hwritten, hmark⟩ := marks_of_not_alternate halternate arg.word
  rw [numberText, CFormat.Conversion.text, CFormat.count_padded, CFormat.count_padded,
    front_of_number hnumber, hwritten, hmark,
    body_of_not_octal hnumber fun hoctal => halternate hoctal.1, List.append_nil,
    CFormat.Conversion.count_sign]
  by_cases hzero : conv.minDigits = 0 ∧ conv.value arg.word = 0
  · obtain ⟨hbody, hdigits⟩ := writtenBody_of_zero hzero.1 hzero.2
    have hpadding :=
      CFormat.Conversion.padding_ne_inside (CFormat.Conversion.isSome_of_minDigits hzero.1)
    rw [hbody, hdigits, if_neg hpadding, List.count_nil, List.count_singleton_self]
    omega
  · have hdigit : conv.minDigits = 0 → conv.value arg.word ≠ 0 :=
      fun hdigits hvalue => hzero ⟨hdigits, hvalue⟩
    have hzeros : conv.flag = some .zeros ∧ conv.precision.isSome = true ∧
        (conv.sign arg.word ++ conv.digits arg.word).length < conv.minWidth := by
      rw [List.length_append, length_digits]
      by_contra hnot
      refine h ⟨hdigit, fun hflag => absurd hflag halternate,
        fun hflag => absurd hflag halternate, fun hflag hsome => ?_⟩
      exact Nat.le_of_not_lt fun hlt => hnot ⟨hflag, hsome, hlt⟩
    obtain ⟨hflag, hsome, hlt⟩ := hzeros
    have hinside : writtenPadding conv = .inside := by
      rw [writtenPadding, hflag]
      rfl
    rw [writtenBody_of_ne hdigit, if_neg (CFormat.Conversion.padding_ne_inside hsome),
      if_pos hinside]
    omega

end Agreement

section Formats

variable {args : Arguments} {argp : ℕ} {ds : List CFormat.Directive}

/-- The digits of a number in octal fit. -/
def Fits : CFormat.Directive → CFormat.Argument → Prop
  | .conversion conv, arg => conv.specifier = .o → conv.value arg.word < 2 ^ 30
  | _, _ => True

theorem octalFits_itemOf (d : CFormat.Directive) :
    (itemOf d).OctalFits args argp ↔ Fits d (argumentOf args argp) := by
  cases d with
  | literal c => exact Iff.rfl
  | percent => exact iff_of_true (fun h => absurd (Option.some.inj h) (by decide)) trivial
  | conversion conv =>
      rw [itemOf, Item.OctalFits, stars_conversionOf, Nat.add_zero, Fits]
      by_cases hoctal : conv.specifier = .o
      · have hvalue := valueRead conv (args.arg argp)
        have hsigned : conv.specifier.signed = false := by rw [hoctal]; rfl
        have hspecifier : (conversionOf conv).specifier = some 0x6f := by
          rw [conversionOf, hoctal]
          rfl
        have hnonneg := hvalue.nonneg (by rw [hsigned]; exact Bool.false_ne_true)
        have hnum := hvalue.num
        rw [hsigned, if_neg (Int.not_lt.mpr hnonneg)] at hnum
        have hword : (argumentOf args argp).word = args.arg argp := rfl
        have hqualifier : (conversionOf conv).qualifier =
            conv.length.map CFormat.Length.spelled := rfl
        rw [hword, hqualifier]
        constructor
        · intro h _
          have hlt := h hspecifier
          omega
        · intro h _
          have hlt := h hoctal
          omega
      · refine iff_of_true (fun h => absurd (Option.some.inj h) ?_) fun h => absurd h hoctal
        cases hcases : conv.specifier <;> first | decide | exact absurd hcases hoctal

theorem octalsFit_iff :
    OctalsFit args (ds.map itemOf) argp ↔ CFormat.Each (argumentOf args) Fits ds argp := by
  induction ds generalizing argp with
  | nil => exact Iff.rfl
  | cons d ds ih =>
      rw [List.map_cons, OctalsFit, octalFits_itemOf, args_itemOf, ih]
      exact Iff.rfl

/-- What the directives write without a maximum. -/
theorem printItems_itemOf (hread : ∀ d ∈ ds, WellRead d)
    (hdefined : CFormat.Each (argumentOf args) CFormat.Directive.Defined ds argp)
    (hfits : CFormat.Each (argumentOf args) Fits ds argp) (strp : List UInt8) :
    (printItems 0 args (ds.map itemOf) argp strp).2 =
      .ok (strp ++ CFormat.texts (argumentOf args) writtenText ds argp) := by
  induction ds generalizing argp strp with
  | nil => rw [CFormat.texts, List.append_nil]; rfl
  | cons d ds ih =>
      obtain ⟨hd, hds⟩ := List.forall_mem_cons.mp hread
      have hitem := printItem_itemOf hd hdefined.1 ((octalFits_itemOf d).mpr hfits.1) strp
      rw [List.map_cons, printItems_cons, hitem, andThen_ok, args_itemOf,
        ih hds hdefined.2 hfits.2, CFormat.texts, List.append_assoc]

/-- A directive is written as the standard has it. -/
def Same : CFormat.Directive → CFormat.Argument → Prop
  | .conversion conv, arg => conv.specifier.isNumber → SameText conv arg.word
  | _, _ => True

/-- A directive writes its text, or another one with more zeros. -/
theorem writtenText_cases {d : CFormat.Directive} {arg : CFormat.Argument}
    (hdefined : d.Defined arg) :
    (Same d arg ∧ writtenText d arg = d.text arg) ∨
      (¬Same d arg ∧ (d.text arg).count 0x30 < (writtenText d arg).count 0x30) := by
  cases d with
  | literal c => exact .inl ⟨trivial, rfl⟩
  | percent => exact .inl ⟨trivial, rfl⟩
  | conversion conv =>
      rw [writtenText]
      by_cases hnumber : conv.specifier.isNumber = true
      · rw [if_pos hnumber]
        by_cases hsame : SameText conv arg.word
        · exact .inl ⟨fun _ => hsame, numberText_of_same hnumber hdefined hsame⟩
        · exact .inr ⟨fun h => hsame (h hnumber), count_text_lt hnumber hdefined hsame⟩
      · rw [if_neg hnumber]
        exact .inl ⟨fun h => absurd h hnumber, rfl⟩

theorem writtenText_eq_iff {d : CFormat.Directive} {arg : CFormat.Argument}
    (hdefined : d.Defined arg) : writtenText d arg = d.text arg ↔ Same d arg := by
  rcases writtenText_cases hdefined with ⟨hsame, htext⟩ | ⟨hsame, hcount⟩
  · exact iff_of_true htext hsame
  · refine iff_of_false (fun htext => ?_) hsame
    rw [htext] at hcount
    exact Nat.lt_irrefl _ hcount

theorem agrees_iff (d : CFormat.Directive) (arg : CFormat.Argument) :
    Agrees d arg ↔ Fits d arg ∧ Same d arg := by
  cases d with
  | literal c => exact iff_of_true trivial ⟨trivial, trivial⟩
  | percent => exact iff_of_true trivial ⟨trivial, trivial⟩
  | conversion conv =>
      constructor
      · intro h
        refine ⟨fun hoctal => (h ?_).fits hoctal, fun hnumber => (h hnumber).same⟩
        rw [hoctal]
        rfl
      · intro h hnumber
        exact ⟨h.1, h.2 hnumber⟩

/-- The standard's text of a format. -/
def standardText (ds : List CFormat.Directive) (args : Arguments) : List UInt8 :=
  CFormat.text (argumentOf args) ds

/-- The text of the standard is written, up to the maximum length. -/
def Formats (ds : List CFormat.Directive) (args : Arguments) (maxlen : ℕ) : Prop :=
  ∃ r, slvsprintflen (CFormat.format ds) args maxlen = some r ∧
    r.bufp = (standardText ds args).take (maxlen - 1) ++ [0] ∧
      r.length = ((standardText ds args).take (maxlen - 1)).length

theorem formats_iff {maxlen : ℕ} :
    Formats ds args maxlen ↔
      (printItems maxlen args (formatItems (CFormat.format ds)) 0 []).2 =
          .ok ((standardText ds args).take (maxlen - 1)) ∨
        (printItems maxlen args (formatItems (CFormat.format ds)) 0 []).2 =
          .error (.full ((standardText ds args).take (maxlen - 1))) := by
  rw [Formats, slvsprintflen]
  constructor
  · rintro ⟨r, hr, hbytes, -⟩
    obtain ⟨text, htext, rfl⟩ := finish_eq_some_iff.mp hr
    rwa [List.append_cancel_right hbytes] at htext
  · intro htext
    exact ⟨_, finish_eq_some_iff.mpr ⟨_, htext, rfl⟩, rfl, rfl⟩

/-- A whole text is the one of the standard if each directive is written as the standard has it. -/
theorem texts_eq_standardText_iff
    (hdefined : CFormat.Each (argumentOf args) CFormat.Directive.Defined ds 0) :
    CFormat.texts (argumentOf args) writtenText ds 0 = standardText ds args ↔
      CFormat.Each (argumentOf args) Same ds 0 := by
  have hcases : CFormat.Each (argumentOf args) (fun d arg => writtenText d arg = d.text arg ∨
      (d.text arg).count 0x30 < (writtenText d arg).count 0x30) ds 0 :=
    hdefined.imp fun d _ arg h => (writtenText_cases h).imp And.right And.right
  have heq := CFormat.texts_eq_iff 0x30 hcases
  constructor
  · intro h
    exact ((heq.mp h).and hdefined).imp fun d _ arg h => (writtenText_eq_iff h.2).mp h.1
  · intro h
    exact heq.mpr ((h.and hdefined).imp fun d _ arg h => (writtenText_eq_iff h.2).mpr h.1)

/-- A text up to the maximum is its prefix. -/
theorem formats_of_upTo {maxlen : ℕ}
    (h : (printItems maxlen args (formatItems (CFormat.format ds)) 0 []).2 =
      upTo maxlen (standardText ds args)) : Formats ds args maxlen := by
  rw [formats_iff, h, upTo]
  by_cases hroom : Room maxlen (standardText ds args)
  · rw [if_pos hroom, List.take_of_length_le (by rw [Room] at hroom; omega)]
    exact .inl rfl
  · rw [if_neg hroom]
    exact .inr rfl

theorem fits_of_formats (h : ∀ maxlen, 2 ≤ maxlen → Formats ds args maxlen) :
    OctalsFit args (formatItems (CFormat.format ds)) 0 := by
  by_contra hfit
  obtain ⟨n, hn⟩ := printItems_of_not_fit hfit []
  have hformats := formats_iff.mp (h (max n 2) (Nat.le_max_right n 2))
  rw [hn _ (Nat.le_max_left n 2)] at hformats
  rcases hformats with htext | htext <;> cases htext

/-- If every maximum is served the whole text is the one of the standard. -/
theorem text_of_formats {text : List UInt8}
    (hwritten : (printItems 0 args (formatItems (CFormat.format ds)) 0 []).2 = .ok text)
    (h : ∀ maxlen, 2 ≤ maxlen → Formats ds args maxlen) : text = standardText ds args := by
  generalize hmaxlen : text.length + (standardText ds args).length + 2 = maxlen
  have hroom : Room maxlen text := by
    rw [Room]
    omega
  have hempty : Room maxlen ([] : List UInt8) := by
    rw [Room, List.length_nil]
    omega
  have hcut := (bounded_printItems args (formatItems (CFormat.format ds)) 0).cut hempty hwritten
  have htake : (standardText ds args).take (maxlen - 1) = standardText ds args :=
    List.take_of_length_le (by omega)
  have hformats := formats_iff.mp (h maxlen (by omega))
  rw [hcut, upTo, if_pos hroom, htake] at hformats
  rcases hformats with htext | htext
  · exact Except.ok.inj htext
  · cases htext

/-- From a maximum of two on a text is the one of the standard if its directives are. -/
theorem formats_of_two_le_iff (hread : ∀ d ∈ ds, WellRead d)
    (hdefined : CFormat.Each (argumentOf args) CFormat.Directive.Defined ds 0) :
    (∀ maxlen, 2 ≤ maxlen → Formats ds args maxlen) ↔
      CFormat.Each (argumentOf args) Agrees ds 0 := by
  have hitems := formatItems_format hread
  have hwritten (hfits : CFormat.Each (argumentOf args) Fits ds 0) :
      (printItems 0 args (formatItems (CFormat.format ds)) 0 []).2 =
        .ok (CFormat.texts (argumentOf args) writtenText ds 0) := by
    rw [hitems, printItems_itemOf hread hdefined hfits []]
    rfl
  constructor
  · intro h
    have hfit := fits_of_formats h
    rw [hitems] at hfit
    have hfits := octalsFit_iff.mp hfit
    have hsame := (texts_eq_standardText_iff hdefined).mp (text_of_formats (hwritten hfits) h)
    exact (hfits.and hsame).imp fun d _ arg hboth => (agrees_iff d arg).mpr hboth
  · intro h maxlen hmaxlen
    have hfits := h.imp fun d _ arg hd => ((agrees_iff d arg).mp hd).1
    have hsame := h.imp fun d _ arg hd => ((agrees_iff d arg).mp hd).2
    have hempty : Room maxlen ([] : List UInt8) := hmaxlen
    have hcut := (bounded_printItems args (formatItems (CFormat.format ds)) 0).cut hempty
      (hwritten hfits)
    rw [(texts_eq_standardText_iff hdefined).mpr hsame] at hcut
    exact formats_of_upTo hcut

end Formats

section One

variable {conv : CFormat.Conversion} {args : Arguments} {argp : ℕ} {ds : List CFormat.Directive}

/-- A string is written as nothing. -/
structure SilentString (conv : CFormat.Conversion) (arg : CFormat.Argument) : Prop where
  string : conv.specifier = .s
  width : conv.minWidth = 0
  empty : arg.string = [] ∨ conv.minDigits = 0

/-- A number is written with neither blanks nor a sign in front. -/
structure BareNumber (conv : CFormat.Conversion) (word : UInt32) : Prop where
  number : conv.specifier.isNumber
  fits : conv.specifier = .o → conv.value word < 2 ^ 30
  sign : conv.sign word = []
  blanks : conv.flag = some .left ∨ conv.flag = some .zeros ∨
    conv.minWidth ≤ (writtenMark conv).length + max conv.minDigits (max 1 (digitCount conv word))

/-- Nothing is written, or a bare number comes first. -/
def OneSuffices (args : ℕ → CFormat.Argument) : List CFormat.Directive → ℕ → Prop
  | [], _ => True
  | .conversion conv :: ds, argp =>
      SilentString conv (args argp) ∧ OneSuffices args ds (argp + 1) ∨
        BareNumber conv (args argp).word
  | _ :: _, _ => False

theorem spelled_ne_n (specifier : CFormat.Specifier) : some specifier.spelled ≠ some 0x6e := by
  cases specifier <;> decide

theorem spelled_eq_s_iff (specifier : CFormat.Specifier) :
    some specifier.spelled = some 0x73 ↔ specifier = .s := by
  cases specifier <;> decide

theorem slstrnlen_eq_zero_iff (conv : CFormat.Conversion) (word : UInt32) (sp : List UInt8) :
    slstrnlen sp (numberCall conv word).precision = 0 ↔ sp = [] ∨ conv.minDigits = 0 := by
  have hprecision : (numberCall conv word).precision =
      conv.precision.elim (-1) fun digits => (CFormat.number digits : ℤ) := rfl
  rw [hprecision, CFormat.Conversion.minDigits, ← List.length_eq_zero_iff]
  cases conv.precision with
  | none => exact (or_iff_left Nat.one_ne_zero).symm
  | some digits =>
      have hcount : ¬(CFormat.number digits : ℤ) < 0 := Int.not_lt.mpr (Int.natCast_nonneg _)
      rw [Option.elim_some, Option.elim_some, slstrnlen, if_neg hcount, Int.toNat_natCast]
      omega

theorem silent_itemOf (hread : NumbersRead conv) (hdefined : conv.Defined (argumentOf args argp)) :
    (Item.conversion (conversionOf conv)).Silent args argp ↔
      SilentString conv (argumentOf args argp) := by
  obtain ⟨hlow, -, hwidth⟩ := size_bounds hread (args.arg argp)
  have hspecifier : (conversionOf conv).specifier = some conv.specifier.spelled := rfl
  have hsize : (numberCall conv (args.arg argp)).size ≤ 0 ↔ conv.minWidth = 0 := by omega
  rw [Item.Silent, stars_conversionOf, Nat.add_zero, hspecifier,
    or_iff_right (spelled_ne_n conv.specifier), spelled_eq_s_iff]
  simp only [fieldWidth_conversionOf hread (args.arg argp)]
  simp only [precisionOf_conversionOf hread (args.arg argp), hsize, slstrnlen_eq_zero_iff]
  constructor
  · rintro ⟨hstring, hzero, hempty⟩
    have hsp : args.sp argp = args.string (args.arg argp) := if_neg (hdefined.2.2.2.2 hstring)
    rw [hsp] at hempty
    exact ⟨hstring, hzero, hempty⟩
  · intro h
    have hsp : args.sp argp = args.string (args.arg argp) := if_neg (hdefined.2.2.2.2 h.string)
    rw [hsp]
    exact ⟨h.string, h.width, h.empty⟩

theorem length_writtenDigits (conv : CFormat.Conversion) (word : UInt32) (upper : Bool) :
    (writtenDigits conv.specifier.base upper (conv.value word).natAbs).length =
      max 1 (digitCount conv word) := by
  by_cases hvalue : conv.value word = 0
  · rw [digitCount, hvalue, Int.natAbs_zero, Nat.digits_zero]
    rfl
  · have hpos := digitCount_pos hvalue
    rw [writtenDigits_of_ne _ (Int.natAbs_ne_zero.mpr hvalue), length_digitsOf_value]
    omega

theorem number?_eq_none_of_not_isNumber (h : ¬conv.specifier.isNumber = true) :
    (conversionOf conv).number? args argp = none := by
  have hspecifier : (conversionOf conv).specifier = some conv.specifier.spelled := rfl
  refine number?_of_not_isNumber hspecifier ?_ ?_
  · cases conv.specifier <;> decide
  · cases hcases : conv.specifier <;> rw [hcases] at h <;>
      first | exact absurd rfl h | decide

theorem blanks_numberCall (hread : NumbersRead conv) (word : UInt32) :
    (numberCall conv word).parts.blanks = [] ↔ conv.flag = some .left ∨
      conv.flag = some .zeros ∨ conv.minWidth ≤ (conv.sign word).length +
        (writtenMark conv).length + max conv.minDigits (max 1 (digitCount conv word)) := by
  obtain ⟨hlow, hhigh, hwidth⟩ := size_bounds hread word
  obtain ⟨hprecision, hzeros⟩ := precision_bounds hread word
  have hdigits : max (conv.precision.elim 0 CFormat.number) (max 1 (digitCount conv word)) =
      max conv.minDigits (max 1 (digitCount conv word)) := by
    rw [CFormat.Conversion.minDigits]
    cases conv.precision with
    | none =>
        rw [Option.elim_none, Option.elim_none]
        omega
    | some digits => rfl
  have hleft : (typeOf conv).left = decide (conv.flag = some .left) := left_flagsOf conv.flag
  have hzeropad : (typeOf conv).zeropad = decide (conv.flag = some .zeros) :=
    zeropad_flagsOf conv.flag
  have hlength := congrArg List.length (tmp_numberCall conv word)
  rw [List.length_reverse, length_writtenDigits] at hlength
  rw [NumberCall.parts, layout_blanks ⟨hlow, hhigh⟩ hprecision (length_tmp_numberCall conv word),
    hlength, hwidth, hzeros, hdigits]
  simp only [numberCall, hleft, hzeropad, decide_eq_true_eq, special_typeOf,
    signOf_typeOf (valueRead conv word)]

theorem bare_itemOf (hread : NumbersRead conv) :
    (Item.conversion (conversionOf conv)).Bare args argp ↔ BareNumber conv (args.arg argp) := by
  by_cases hnumber : conv.specifier.isNumber = true
  · have hcall := number?_conversionOf hnumber hread args argp
    have hfits := (octalFits_iff hcall).symm.trans (octalFits_itemOf (.conversion conv))
    have hsign : (numberCall conv (args.arg argp)).parts.sign = conv.sign (args.arg argp) :=
      signOf_typeOf (valueRead conv (args.arg argp))
    have hblanks := blanks_numberCall hread (args.arg argp)
    constructor
    · rintro ⟨n, hn, hdigits, hnone, hbare⟩
      obtain rfl := Option.some.inj (hcall.symm.trans hn)
      rw [hsign] at hbare
      rw [hblanks, hbare, List.length_nil, Nat.zero_add] at hnone
      exact ⟨hnumber, hfits.mp hdigits, hbare, hnone⟩
    · intro h
      have hnone := h.blanks
      refine ⟨_, hcall, hfits.mpr h.fits, ?_, hsign.trans h.sign⟩
      rw [hblanks, h.sign, List.length_nil, Nat.zero_add]
      exact hnone
  · refine iff_of_false ?_ fun h => hnumber h.number
    rintro ⟨n, hn, -⟩
    exact Option.some_ne_none n (hn.symm.trans (number?_eq_none_of_not_isNumber hnumber))

theorem oneIsEnough_itemOf {count : ℕ} (hread : ∀ d ∈ ds, WellRead d)
    (hdefined : CFormat.Each (argumentOf args) CFormat.Directive.Defined ds argp)
    (hcount : argp + ((ds.map itemOf).map Item.args).sum ≤ count) :
    OneIsEnough args count (ds.map itemOf) argp ↔ OneSuffices (argumentOf args) ds argp := by
  induction ds generalizing argp with
  | nil => exact iff_of_true hcount trivial
  | cons d ds ih =>
      obtain ⟨hd, hds⟩ := List.forall_mem_cons.mp hread
      rw [List.map_cons, List.map_cons, List.sum_cons, args_itemOf, ← Nat.add_assoc] at hcount
      have hargs : argp + d.args ≤ count := Nat.le_trans (Nat.le_add_right _ _) hcount
      have hrest := ih hds hdefined.2 hcount
      rw [List.map_cons, OneIsEnough, args_itemOf, hrest, and_iff_left hargs]
      cases d with
      | literal c => exact iff_of_false (fun h => h.elim And.left id) id
      | percent =>
          refine iff_of_false ?_ id
          rintro (⟨hsilent, -⟩ | ⟨n, hn, -⟩)
          · rcases hsilent with hcount | ⟨hstring, -⟩
            · exact absurd (Option.some.inj hcount) (by decide)
            · exact absurd (Option.some.inj hstring) (by decide)
          · exact Option.some_ne_none n (hn.symm.trans
              (number?_of_not_isNumber rfl (by decide) (by decide)))
      | conversion conv =>
          rw [itemOf, silent_itemOf hd hdefined.1, bare_itemOf hd]
          exact Iff.rfl

theorem formats_one_iff (hread : ∀ d ∈ ds, WellRead d)
    (hdefined : CFormat.Each (argumentOf args) CFormat.Directive.Defined ds 0) :
    Formats ds args 1 ↔ OneSuffices (argumentOf args) ds 0 := by
  have hargs := (printItems_fst 1 args (ds.map itemOf) 0 []).1
  rw [formats_iff, formatItems_format hread, Nat.sub_self, List.take_zero,
    ← oneIsEnough_itemOf hread hdefined (Nat.le_refl _), ← oneIsEnough_iff]
  exact ⟨fun h => ⟨h, hargs⟩, And.left⟩

end One

end Sl

end SierraSdk
