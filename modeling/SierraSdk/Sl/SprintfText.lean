import Mathlib.Tactic.Ring
import SierraSdk.Sl.SprintfBounds
import SierraSdk.Sl.SprintfParse

/-!
# What conversions write

Without a maximum a conversion writes a front and a body, padded to its width (`printItem_itemOf`).
For strings and characters they are the ones of the standard. A number has `0x` or `0` in front of
it whenever there is a `#`, it always has a digit, and zeros are padded with whenever there is a
`0`.
-/

namespace SierraSdk

namespace Sl

open BoundedText

section Layout

theorem int32_of_bounds {x : ℤ} (hlow : -2 ^ 31 ≤ x) (hhigh : x < 2 ^ 31) : int32 x = x := by
  rw [int32]
  omega

theorem leftOver_of_bounds {len n : ℤ} (hlow : -2 ^ 30 ≤ n) (hhigh : n < 2 ^ 30) :
    leftOver len n ≤ len - 1 ∧ min len n - 1 ≤ leftOver len n := by
  rw [leftOver]
  split_ifs with h
  · omega
  · rw [int32_of_bounds (by omega) (by omega)]
    omega

/-- How a number is padded. -/
def paddingOf (type : TypeMask) : CFormat.Padding :=
  if type.left then .right else if type.zeropad then .inside else .left

theorem length_special_le (type : TypeMask) (base : ℕ) : (special type base).length ≤ 2 := by
  rw [special]
  split_ifs <;> simp

theorem written_zero (n : ℤ) (c : UInt8) : written 0 n c = List.replicate n.toNat c := by
  rw [written, Int.sub_zero]

/-- The digits that are written with zeros in front are a numeral. -/
theorem zeros_append_digits (precision : ℤ) (digits : List UInt8) :
    written digits.length (max precision digits.length) zero ++ digits.reverse =
      CFormat.numeral precision.toNat digits.reverse := by
  have hcount : (max precision digits.length - (digits.length : ℤ)).toNat =
      precision.toNat - digits.length := by omega
  rw [written, hcount, CFormat.numeral, List.length_reverse]
  rfl

/-- The parts of a number are a sign, a mark and digits with the zeros of a precision, padded. -/
theorem layout_text {num : UInt32} {base : ℕ} {size precision : ℤ} {type : TypeMask}
    (hsize : -1 ≤ size ∧ size < 65536) (hprecision : precision < 65536)
    (hlength : (tmp (unsigned type num) base type.large).length ≤ 32) :
    (layout num base size precision type).text =
      CFormat.padded (paddingOf type) size.toNat (signOf type num ++ special type base)
        (CFormat.numeral precision.toNat
          (tmp (unsigned type num) base type.large).reverse) := by
  rw [Layout.text, layout]
  simp only []
  generalize tmp (unsigned type num) base type.large = digits at hlength ⊢
  have hsign := length_signOf_le type num
  have hspecial := length_special_le type base
  generalize signOf type num = sign at hsign ⊢
  generalize special type base = mark at hspecial ⊢
  have hcount : (max precision (digits.length : ℤ)) =
      (CFormat.numeral precision.toNat digits.reverse).length := by
    rw [CFormat.numeral, List.length_append, List.length_replicate, List.length_reverse]
    omega
  have hbody := zeros_append_digits precision digits
  generalize CFormat.numeral precision.toNat digits.reverse = body at hbody hcount ⊢
  have hbound : max precision (digits.length : ℤ) < 65536 := by omega
  generalize max precision (digits.length : ℤ) = count at hbody hcount hbound ⊢
  have hleft : int32 (size - sign.length - mark.length - count) =
      size - sign.length - mark.length - count := int32_of_bounds (by omega) (by omega)
  have hn : (size - sign.length - mark.length - count).toNat =
      size.toNat - (sign ++ mark ++ body).length := by
    rw [List.length_append, List.length_append]
    omega
  rw [hleft]
  have hlow : -2 ^ 20 ≤ size - sign.length - mark.length - count := by omega
  have hhigh : size - sign.length - mark.length - count < 2 ^ 20 := by omega
  generalize size - sign.length - mark.length - count = n at hn hlow hhigh ⊢
  obtain ⟨hover, hover'⟩ := @leftOver_of_bounds 0 n (by omega) (by omega)
  have hover'' := (@leftOver_of_bounds 0 (leftOver 0 n) (by omega) (by omega)).1
  have hnone : (leftOver 0 n).toNat = 0 := by omega
  have hnone' : (leftOver 0 (leftOver 0 n)).toNat = 0 := by omega
  cases hpadding : type.left with
  | true =>
      simp only [CFormat.padded, paddingOf, hpadding, Bool.or_true, if_true, List.nil_append,
        List.append_nil, List.append_assoc, hbody, written_zero, hn]
      rfl
  | false =>
      cases hzeropad : type.zeropad with
      | true =>
          simp only [CFormat.padded, paddingOf, hpadding, hzeropad, Bool.not_false, Bool.and_true,
            Bool.or_false, Bool.false_eq_true, if_true, if_false, List.nil_append,
            List.append_assoc, hnone, hbody, written_zero, hn, List.replicate_zero,
            List.append_nil]
          rfl
      | false =>
          simp only [CFormat.padded, paddingOf, hpadding, hzeropad, Bool.not_false, Bool.and_true,
            Bool.or_false, Bool.false_eq_true, if_false, List.append_assoc, hnone, hnone', hbody,
            written_zero, hn, List.replicate_zero, List.append_nil]
          rfl

/-- Blanks are in front of a number that is shorter than its width. -/
theorem layout_blanks {num : UInt32} {base : ℕ} {size precision : ℤ} {type : TypeMask}
    (hsize : -1 ≤ size ∧ size < 65536) (hprecision : precision < 65536)
    (hlength : (tmp (unsigned type num) base type.large).length ≤ 32) :
    (layout num base size precision type).blanks = [] ↔
      type.left = true ∨ type.zeropad = true ∨
        size.toNat ≤ (signOf type num).length + (special type base).length +
          max precision.toNat (tmp (unsigned type num) base type.large).length := by
  rw [layout]
  simp only []
  generalize tmp (unsigned type num) base type.large = digits at hlength ⊢
  have hsign := length_signOf_le type num
  have hspecial := length_special_le type base
  generalize signOf type num = sign at hsign ⊢
  generalize special type base = mark at hspecial ⊢
  have hleft : int32 (size - sign.length - mark.length - max precision (digits.length : ℤ)) =
      size - sign.length - mark.length - max precision (digits.length : ℤ) :=
    int32_of_bounds (by omega) (by omega)
  rw [hleft, written_zero]
  cases type.left <;> cases type.zeropad <;> simp
  omega

end Layout

section Values

variable (conv : CFormat.Conversion) (word : UInt32)

/-- A `short` that is extended to a `long`. -/
theorem toNat_signExtended (a : UInt16) :
    (a.toUInt32 ||| 0xffff0000).toNat = a.toNat + 0xffff0000 := by
  have hor := Nat.two_pow_add_eq_or_of_lt a.toNat_lt 0xffff
  rw [UInt32.toNat_or, UInt16.toNat_toUInt32, Nat.or_comm]
  exact hor.symm.trans (Nat.add_comm _ _)

/-- What a number is converted from is its value, as a `long`. -/
structure ValueRead (signed : Bool) (value : ℤ) (num : UInt32) : Prop where
  bounds : -2 ^ 31 ≤ value ∧ value < if signed then 2 ^ 31 else 2 ^ 32
  nonneg : ¬signed → 0 ≤ value
  num : (num.toNat : ℤ) = if value < 0 then value + 2 ^ 32 else value

theorem valueRead_of_long (signed : Bool) :
    ValueRead signed
      (if signed = true ∧ 2 ^ (32 - 1) ≤ word.toNat % 2 ^ 32 then
        ((word.toNat % 2 ^ 32 : ℕ) : ℤ) - 2 ^ 32 else (word.toNat % 2 ^ 32 : ℕ)) word := by
  have hlt := word.toNat_lt
  rw [Nat.mod_eq_of_lt hlt]
  cases signed with
  | false =>
      rw [if_neg fun h => Bool.noConfusion h.1]
      exact ⟨by simp only [Bool.false_eq_true, if_false]; omega, fun _ => by omega, by omega⟩
  | true =>
      by_cases hle : 2 ^ (32 - 1) ≤ word.toNat
      · rw [if_pos ⟨rfl, hle⟩]
        exact ⟨by simp only [if_true]; omega, fun h => absurd rfl h, by omega⟩
      · rw [if_neg fun h => hle h.2]
        exact ⟨by simp only [if_true]; omega, fun h => absurd rfl h, by omega⟩

theorem valueRead_of_short (signed : Bool) :
    ValueRead signed
      (if signed = true ∧ 2 ^ (16 - 1) ≤ word.toNat % 2 ^ 16 then
        ((word.toNat % 2 ^ 16 : ℕ) : ℤ) - 2 ^ 16 else (word.toNat % 2 ^ 16 : ℕ))
      (if signed = true ∧ 0x8000 ≤ word.toUInt16 then word.toUInt16.toUInt32 ||| 0xffff0000
        else word.toUInt16.toUInt32) := by
  have hraw : word.toUInt16.toNat = word.toNat % 2 ^ 16 := UInt32.toNat_toUInt16 word
  have hnum := UInt16.toNat_toUInt32 word.toUInt16
  have hor := toNat_signExtended word.toUInt16
  have hlt := word.toUInt16.toNat_lt
  have hle : 0x8000 ≤ word.toUInt16 ↔ 2 ^ (16 - 1) ≤ word.toUInt16.toNat :=
    UInt16.le_iff_toNat_le
  rw [← hraw]
  cases signed with
  | false =>
      rw [if_neg fun h => Bool.noConfusion h.1, if_neg fun h => Bool.noConfusion h.1]
      exact ⟨by simp only [Bool.false_eq_true, if_false]; omega, fun _ => by omega, by omega⟩
  | true =>
      by_cases hneg : 2 ^ (16 - 1) ≤ word.toUInt16.toNat
      · rw [if_pos ⟨rfl, hneg⟩, if_pos ⟨rfl, hle.mpr hneg⟩]
        exact ⟨by simp only [if_true]; omega, fun h => absurd rfl h, by omega⟩
      · rw [if_neg fun h => hneg h.2, if_neg fun h => hneg (hle.mp h.2)]
        exact ⟨by simp only [if_true]; omega, fun h => absurd rfl h, by omega⟩

theorem valueRead : ValueRead conv.specifier.signed (conv.value word)
    (numberOf (conv.length.map CFormat.Length.spelled) conv.specifier.signed word) := by
  rw [CFormat.Conversion.value]
  cases conv.length with
  | none => exact valueRead_of_long word conv.specifier.signed
  | some length =>
      cases length with
      | long => exact valueRead_of_long word conv.specifier.signed
      | short => exact valueRead_of_short word conv.specifier.signed

end Values

section Numbers

variable {conv : CFormat.Conversion} {word : UInt32}

/-- The flags of a number. -/
def typeOf (conv : CFormat.Conversion) : TypeMask :=
  numberFlags conv.specifier.spelled (flagsOf conv.flag)

/-- What is in front of a number for a `#`, whatever its value is. -/
def writtenMark (conv : CFormat.Conversion) : List UInt8 :=
  if conv.flag = some .alternate then
    if conv.specifier.base = 16 then [0x30, conv.specifier.spelled]
    else if conv.specifier.base = 8 then [0x30]
    else []
  else []

/-- The digits of a number; zero has one, too. -/
def writtenDigits (base : ℕ) (upper : Bool) (n : ℕ) : List UInt8 :=
  if n = 0 then [0x30] else CFormat.digitsOf base upper n

/-- Zeros are padded with also if there is a precision. -/
def writtenPadding (conv : CFormat.Conversion) : CFormat.Padding :=
  if conv.flag = some .left then .right
  else if conv.flag = some .zeros then .inside
  else .left

/-- The digits with the zeros that the precision asks for. -/
def writtenBody (conv : CFormat.Conversion) (word : UInt32) : List UInt8 :=
  CFormat.numeral (conv.precision.elim 0 CFormat.number)
    (writtenDigits conv.specifier.base (conv.specifier = .upperX) (conv.value word).natAbs)

/-- The text that is written for a number. -/
def numberText (conv : CFormat.Conversion) (word : UInt32) : List UInt8 :=
  CFormat.padded (writtenPadding conv) conv.minWidth (conv.sign word ++ writtenMark conv)
    (writtenBody conv word)

theorem typeOf_sign (conv : CFormat.Conversion) :
    (typeOf conv).sign = conv.specifier.signed := by
  cases hcases : conv.specifier <;> rw [typeOf, hcases] <;> rfl

theorem typeOf_large (conv : CFormat.Conversion) :
    (typeOf conv).large = decide (conv.specifier = .upperX) := by
  cases hcases : conv.specifier <;> rw [typeOf, hcases] <;> rfl

theorem paddingOf_typeOf (conv : CFormat.Conversion) :
    paddingOf (typeOf conv) = writtenPadding conv := by
  rw [typeOf, writtenPadding]
  cases conv.flag with
  | none => rfl
  | some flag => cases flag <;> rfl

theorem special_typeOf (conv : CFormat.Conversion) :
    special (typeOf conv) conv.specifier.base = writtenMark conv := by
  rw [typeOf, writtenMark]
  cases conv.flag with
  | none => rfl
  | some flag => cases flag <;> cases conv.specifier <;> rfl

/-- A word that is read as negative has its highest bit. -/
theorem ValueRead.le_iff {signed : Bool} {value : ℤ} {num : UInt32}
    (h : ValueRead signed value num) (hsigned : signed = true) :
    0x80000000 ≤ num ↔ value < 0 := by
  have hle : 0x80000000 ≤ num ↔ 2 ^ 31 ≤ num.toNat := UInt32.le_iff_toNat_le
  obtain ⟨⟨hlow, hhigh⟩, -, hnum⟩ := h
  rw [hsigned, if_pos rfl] at hhigh
  rw [hle]
  split_ifs at hnum with hneg
  · omega
  · omega

theorem signOf_typeOf {num : UInt32}
    (h : ValueRead conv.specifier.signed (conv.value word) num) :
    signOf (typeOf conv) num = conv.sign word := by
  rw [signOf, typeOf_sign, CFormat.Conversion.sign]
  by_cases hsigned : conv.specifier.signed = true
  · rw [if_pos hsigned, if_pos hsigned]
    by_cases hneg : conv.value word < 0
    · rw [if_pos hneg, if_pos ((h.le_iff hsigned).mpr hneg)]
    · rw [if_neg hneg, if_neg fun hle => hneg ((h.le_iff hsigned).mp hle), typeOf]
      cases conv.flag with
      | none => rfl
      | some flag => cases flag <;> rfl
  · rw [if_neg hsigned, if_neg hsigned]

theorem toNat_unsigned {num : UInt32}
    (h : ValueRead conv.specifier.signed (conv.value word) num) :
    (unsigned (typeOf conv) num).toNat = (conv.value word).natAbs := by
  have hlt := num.toNat_lt
  rw [unsigned, typeOf_sign]
  by_cases hsigned : conv.specifier.signed = true
  · by_cases hneg : conv.value word < 0
    · have hnum := h.num
      have hlow := h.bounds.1
      rw [if_pos hneg] at hnum
      rw [if_pos ⟨hsigned, (h.le_iff hsigned).mpr hneg⟩, UInt32.toNat_neg]
      have hsize : UInt32.size = 2 ^ 32 := rfl
      rw [hsize]
      omega
    · have hnum := h.num
      rw [if_neg hneg] at hnum
      rw [if_neg fun hle => hneg ((h.le_iff hsigned).mp hle.2)]
      omega
  · have hnonneg := h.nonneg hsigned
    have hnum := h.num
    rw [if_neg (Int.not_lt.mpr hnonneg)] at hnum
    rw [if_neg fun h => hsigned h.1]
    omega

theorem tmp_reverse (num : UInt32) (base : ℕ) (large : Bool) :
    (tmp num base large).reverse = writtenDigits base large num.toNat := by
  rw [tmp, writtenDigits]
  by_cases hzero : num = 0
  · rw [if_pos hzero, hzero]
    rfl
  · have hne : num.toNat ≠ 0 := by
      intro h
      exact hzero (UInt32.toNat_inj.mp h)
    rw [if_neg hzero, if_neg hne]
    rfl

theorem length_tmp_le (num : UInt32) {base : ℕ} (hbase : 1 < base) (large : Bool) :
    (tmp num base large).length ≤ 32 := by
  rw [tmp]
  by_cases hzero : num = 0
  · rw [if_pos hzero]
    exact Nat.le_of_ble_eq_true rfl
  · rw [if_neg hzero, List.length_map, Nat.digits_length_le_iff hbase]
    exact Nat.lt_of_lt_of_le num.toNat_lt (Nat.pow_le_pow_left hbase 32)

/-- What `slnumberlen` is given for a conversion. -/
def numberCall (conv : CFormat.Conversion) (word : UInt32) : NumberCall where
  num := numberOf (conv.length.map CFormat.Length.spelled) conv.specifier.signed word
  base := conv.specifier.base
  size := conv.width.elim (-1) fun width => (CFormat.number width.digits : ℤ)
  precision := conv.precision.elim (-1) fun digits => (CFormat.number digits : ℤ)
  type := typeOf conv

theorem one_lt_base (specifier : CFormat.Specifier) : 1 < specifier.base := by
  cases specifier <;> decide

theorem fieldWidth_conversionOf (h : NumbersRead conv) (word : UInt32) (args : Arguments)
    (argp : ℕ) :
    fieldWidth args (conversionOf conv).flags argp (conversionOf conv).field_width =
      (flagsOf conv.flag, (numberCall conv word).size, argp) := by
  have hwidth := h.width
  rw [CFormat.Conversion.minWidth] at hwidth
  rw [conversionOf, numberCall]
  cases hcases : conv.width with
  | none => rfl
  | some width =>
      rw [hcases] at hwidth
      have hread : (UInt16.ofNat (CFormat.number width.digits)).toNat =
          CFormat.number width.digits := by
        rw [UInt16.toNat_ofNat']
        exact Nat.mod_eq_of_lt hwidth
      simp only [Option.elim_some, countOf, fieldWidth, hread]

theorem precisionOf_conversionOf (h : NumbersRead conv) (word : UInt32) (args : Arguments)
    (argp : ℕ) :
    precisionOf args argp (conversionOf conv).precision =
      ((numberCall conv word).precision, argp) := by
  have hprecision := h.precision
  rw [conversionOf, numberCall]
  cases hcases : conv.precision with
  | none => rfl
  | some digits =>
      have hread : (UInt16.ofNat (CFormat.number digits)).toNat = CFormat.number digits := by
        rw [UInt16.toNat_ofNat', Nat.mod_eq_of_lt (hprecision digits hcases).2]
      simp only [Option.elim_some, countOf, precisionOf, hread]

theorem size_bounds (h : NumbersRead conv) (word : UInt32) :
    -1 ≤ (numberCall conv word).size ∧ (numberCall conv word).size < 65536 ∧
      (numberCall conv word).size.toNat = conv.minWidth := by
  have hwidth := h.width
  rw [CFormat.Conversion.minWidth] at hwidth ⊢
  rw [numberCall]
  cases hcases : conv.width with
  | none => exact ⟨Int.le_refl _, of_decide_eq_true rfl, rfl⟩
  | some width =>
      rw [hcases] at hwidth
      simp only [Option.elim_some] at hwidth ⊢
      omega

theorem precision_bounds (h : NumbersRead conv) (word : UInt32) :
    (numberCall conv word).precision < 65536 ∧
      (numberCall conv word).precision.toNat = conv.precision.elim 0 CFormat.number := by
  rw [numberCall]
  cases hcases : conv.precision with
  | none => exact ⟨of_decide_eq_true rfl, rfl⟩
  | some digits =>
      have hnumber := (h.precision digits hcases).2
      simp only [Option.elim_some]
      omega

theorem length_tmp_numberCall (conv : CFormat.Conversion) (word : UInt32) :
    (tmp (unsigned (numberCall conv word).type (numberCall conv word).num)
      (numberCall conv word).base (numberCall conv word).type.large).length ≤ 32 :=
  length_tmp_le _ (one_lt_base conv.specifier) _

theorem tmp_numberCall (conv : CFormat.Conversion) (word : UInt32) :
    (tmp (unsigned (numberCall conv word).type (numberCall conv word).num)
      (numberCall conv word).base (numberCall conv word).type.large).reverse =
      writtenDigits conv.specifier.base (conv.specifier = .upperX)
        (conv.value word).natAbs := by
  rw [tmp_reverse]
  simp only [numberCall, toNat_unsigned (valueRead conv word), typeOf_large]

theorem numberCall_text (h : NumbersRead conv) (word : UInt32) :
    (numberCall conv word).parts.text = numberText conv word := by
  obtain ⟨hlow, hhigh, hwidth⟩ := size_bounds h word
  obtain ⟨hprecision, hzeros⟩ := precision_bounds h word
  rw [NumberCall.parts, layout_text ⟨hlow, hhigh⟩ hprecision (length_tmp_numberCall conv word),
    tmp_numberCall, hwidth, hzeros]
  simp only [numberCall, paddingOf_typeOf, special_typeOf, signOf_typeOf (valueRead conv word)]
  rfl

/-- The specifiers of numbers are those of the standard. -/
theorem isNumber_spelled {specifier : CFormat.Specifier} (h : specifier.isNumber = true) :
    specifier.spelled ≠ 0x70 ∧ isNumber specifier.spelled = true ∧
      baseOf specifier.spelled = specifier.base := by
  cases specifier with
  | s => exact Bool.noConfusion h
  | c => exact Bool.noConfusion h
  | _ => decide

theorem number?_conversionOf (hnumber : conv.specifier.isNumber = true) (h : NumbersRead conv)
    (args : Arguments) (argp : ℕ) :
    (conversionOf conv).number? args argp = some (numberCall conv (args.arg argp)) := by
  obtain ⟨hpointer, hspelled, hbase⟩ := isNumber_spelled hnumber
  have hsign := typeOf_sign conv
  rw [typeOf] at hsign
  rw [Conversion.number?, fieldWidth_conversionOf h (args.arg argp)]
  simp only [precisionOf_conversionOf h (args.arg argp)]
  simp only [conversionOf, Option.bind_some, if_neg hpointer, if_pos hspelled, hbase, hsign]
  rfl

end Numbers

section Strings

variable {conv : CFormat.Conversion} {args : Arguments} {argp : ℕ}

/-- An argument of the standard. -/
def argumentOf (args : Arguments) (argp : ℕ) : CFormat.Argument where
  word := args.arg argp
  string := args.string (args.arg argp)

theorem left_flagsOf (flag : Option CFormat.Flag) :
    (flagsOf flag).left = decide (flag = some .left) := by
  cases flag with
  | none => rfl
  | some flag => cases flag <;> rfl

theorem zeropad_flagsOf (flag : Option CFormat.Flag) :
    (flagsOf flag).zeropad = decide (flag = some .zeros) := by
  cases flag with
  | none => rfl
  | some flag => cases flag <;> rfl

/-- Strings and characters are padded with blanks. -/
theorem padding_of_not_isNumber {arg : CFormat.Argument} (hdefined : conv.Defined arg)
    (hnumber : ¬conv.specifier.isNumber = true) :
    conv.padding = if conv.flag = some .left then .right else .left := by
  have hzeros : ¬(conv.flag = some .zeros ∧ conv.precision.isNone = true) := by
    intro h
    exact hnumber (hdefined.2.1 h.1)
  rw [CFormat.Conversion.padding, if_neg hzeros]

/-- A text with blanks on one of its sides is padded. -/
theorem blanks_append {left : Bool} {width : ℕ} {body front rest : List UInt8}
    (hfront : front = if left then [] else List.replicate (width - body.length) blank)
    (hrest : rest = if left then List.replicate (width - body.length) blank else []) :
    front ++ (body ++ rest) = CFormat.padded (if left then .right else .left) width [] body := by
  subst hfront
  subst hrest
  cases left with
  | true => rfl
  | false =>
      simp only [Bool.false_eq_true, if_false, CFormat.padded, List.nil_append, List.append_nil]
      rfl

theorem printChar_zero (args : Arguments) (argp : ℕ) (flags : TypeMask) {size : ℤ}
    (hsize : -1 ≤ size ∧ size < 65536) (strp : List UInt8) :
    (printChar 0 args flags size argp strp).2 =
      .ok (strp ++ CFormat.padded (if flags.left then .right else .left) size.toNat []
        [(args.arg argp).toUInt8]) := by
  have hwidth : int32 (size - 1) = size - 1 := int32_of_bounds (by omega) (by omega)
  have hcount : (size - 1).toNat = size.toNat - 1 := by omega
  have hblanks : (int32 ((if 0 < size - 1 then 0 else size - 1) - 1)).toNat = 0 := by
    rw [int32_of_bounds (by split_ifs <;> omega) (by split_ifs <;> omega)]
    split_ifs <;> omega
  simp only [printChar, thenRead_snd, puts_zero, andThen_ok, hwidth, written_zero,
    List.append_assoc]
  generalize int32 ((if 0 < size - 1 then 0 else size - 1) - 1) = left at hblanks ⊢
  congr 2
  refine @blanks_append flags.left _ [_] _ _ ?_ ?_
  · rw [hcount]
    rfl
  · cases flags.left with
    | true => exact congrArg (List.replicate · blank) hcount
    | false => exact congrArg (List.replicate · blank) hblanks

theorem printString_zero (flags : TypeMask) {size : ℤ} (precision : ℤ)
    (hsize : -1 ≤ size ∧ size < 65536) (sp strp : List UInt8) :
    printString 0 sp flags size precision strp =
      .ok (strp ++ CFormat.padded (if flags.left then .right else .left) size.toNat []
        (sp.take (slstrnlen sp precision))) := by
  have hlength : (sp.take (slstrnlen sp precision)).length = slstrnlen sp precision :=
    List.length_take_of_le (slstrnlen_le sp precision)
  simp only [printString, puts_zero, andThen_ok, List.append_assoc]
  generalize slstrnlen sp precision = len at hlength ⊢
  have hcount : (size - len).toNat = size.toNat - (sp.take len).length := by
    rw [hlength]
    omega
  have hblanks : (leftOver len size - len).toNat = 0 := by
    have hle := (@leftOver_of_bounds len size (by omega) (by omega)).1
    omega
  congr 2
  refine blanks_append ?_ ?_
  · rw [written, hcount]
  · cases flags.left with
    | true => exact congrArg (List.replicate · blank) hcount
    | false => exact congrArg (List.replicate · blank) hblanks

end Strings

section Items

variable {conv : CFormat.Conversion} {args : Arguments} {argp : ℕ}

/-- The text that is written for a directive. -/
def writtenText : CFormat.Directive → CFormat.Argument → List UInt8
  | .conversion conv, arg =>
      if conv.specifier.isNumber then numberText conv arg.word else conv.text arg
  | d, arg => d.text arg

theorem stars_conversionOf (conv : CFormat.Conversion) :
    (Item.conversion (conversionOf conv)).stars = 0 := by
  rw [Item.stars, conversionOf]
  cases conv.width <;> cases conv.precision <;> rfl

/-- A directive takes the arguments that its item reads. -/
theorem args_itemOf (d : CFormat.Directive) : (itemOf d).args = d.args := by
  cases d with
  | literal c => rfl
  | percent => rfl
  | conversion conv =>
      rw [Item.args, itemOf, stars_conversionOf, Item.takes, conversionOf]
      cases conv.specifier <;> rfl

theorem take_slstrnlen (conv : CFormat.Conversion) (word : UInt32) (sp : List UInt8) :
    sp.take (slstrnlen sp (numberCall conv word).precision) =
      conv.precision.elim sp fun digits => sp.take (CFormat.number digits) := by
  rw [numberCall]
  cases conv.precision with
  | none => exact List.take_length
  | some digits =>
      have hcount : ¬((CFormat.number digits : ℕ) : ℤ) < 0 := Int.not_lt.mpr (Int.natCast_nonneg _)
      simp only [Option.elim_some]
      rw [slstrnlen, if_neg hcount, Int.toNat_natCast]
      exact List.take_eq_take_min.symm

theorem printItem_number (hnumber : conv.specifier.isNumber = true) (hread : NumbersRead conv)
    (hfits : (Item.conversion (conversionOf conv)).OctalFits args argp) (strp : List UInt8) :
    (printItem 0 args (.conversion (conversionOf conv)) argp strp).2 =
      .ok (strp ++ numberText conv (args.arg argp)) := by
  have hcall := number?_conversionOf hnumber hread args argp
  obtain ⟨hbase, hprint⟩ := number?_spec hcall
  have hdigits := (octalFits_iff hcall).mp hfits
  rw [printItem, hprint, slnumberlen_zero hbase, if_neg (Nat.not_lt.mpr hdigits),
    numberCall_text hread]

theorem printItem_char (hchar : conv.specifier = .c) (hread : NumbersRead conv)
    (hdefined : conv.Defined (argumentOf args argp)) (strp : List UInt8) :
    (printItem 0 args (.conversion (conversionOf conv)) argp strp).2 =
      .ok (strp ++ conv.text (argumentOf args argp)) := by
  obtain ⟨hlow, hhigh, hwidth⟩ := size_bounds hread (args.arg argp)
  have hnumber : ¬conv.specifier.isNumber = true := by
    rw [hchar]
    exact Bool.false_ne_true
  have hspecifier : (conversionOf conv).specifier = some 0x63 := by
    rw [conversionOf, hchar]
    rfl
  have hprint : (printItem 0 args (.conversion (conversionOf conv)) argp strp).2 =
      (printChar 0 args (flagsOf conv.flag)
        (numberCall conv (args.arg argp)).size argp strp).2 := by
    rw [printItem, printConversion, fieldWidth_conversionOf hread (args.arg argp)]
    simp only [precisionOf_conversionOf hread (args.arg argp), hspecifier]
    rfl
  rw [hprint, printChar_zero args argp _ ⟨hlow, hhigh⟩, hwidth, left_flagsOf,
    CFormat.Conversion.text, padding_of_not_isNumber hdefined hnumber,
    CFormat.Conversion.front, if_neg hnumber, CFormat.Conversion.body, hchar]
  simp only [decide_eq_true_eq]
  rfl

theorem printItem_string (hstring : conv.specifier = .s) (hread : NumbersRead conv)
    (hdefined : conv.Defined (argumentOf args argp)) (strp : List UInt8) :
    (printItem 0 args (.conversion (conversionOf conv)) argp strp).2 =
      .ok (strp ++ conv.text (argumentOf args argp)) := by
  obtain ⟨hlow, hhigh, hwidth⟩ := size_bounds hread (args.arg argp)
  have hnumber : ¬conv.specifier.isNumber = true := by
    rw [hstring]
    exact Bool.false_ne_true
  have hspecifier : (conversionOf conv).specifier = some 0x73 := by
    rw [conversionOf, hstring]
    rfl
  have hsp : args.sp argp = args.string (args.arg argp) :=
    if_neg (hdefined.2.2.2.2 hstring)
  have hprint : (printItem 0 args (.conversion (conversionOf conv)) argp strp).2 =
      printString 0 (args.sp argp) (flagsOf conv.flag) (numberCall conv (args.arg argp)).size
        (numberCall conv (args.arg argp)).precision strp := by
    rw [printItem, printConversion, fieldWidth_conversionOf hread (args.arg argp)]
    simp only [precisionOf_conversionOf hread (args.arg argp), hspecifier]
    rfl
  rw [hprint, printString_zero _ _ ⟨hlow, hhigh⟩, hwidth, left_flagsOf, hsp, take_slstrnlen,
    CFormat.Conversion.text, padding_of_not_isNumber hdefined hnumber,
    CFormat.Conversion.front, if_neg hnumber, CFormat.Conversion.body, hstring]
  simp only [decide_eq_true_eq]
  rfl

/-- What an item writes without a maximum. -/
theorem printItem_itemOf {d : CFormat.Directive} (hread : WellRead d)
    (hdefined : d.Defined (argumentOf args argp)) (hfits : (itemOf d).OctalFits args argp)
    (strp : List UInt8) :
    (printItem 0 args (itemOf d) argp strp).2 =
      .ok (strp ++ writtenText d (argumentOf args argp)) := by
  cases d with
  | literal c => exact checked_zero _
  | percent => exact puts_zero strp [0x25]
  | conversion conv =>
      rw [writtenText]
      by_cases hnumber : conv.specifier.isNumber = true
      · rw [if_pos hnumber]
        exact printItem_number hnumber hread hfits strp
      · rw [if_neg hnumber]
        cases hspecifier : conv.specifier with
        | s => exact printItem_string hspecifier hread hdefined strp
        | c => exact printItem_char hspecifier hread hdefined strp
        | _ => 
          rw [hspecifier] at hnumber
          exact absurd rfl hnumber

end Items

end Sl

end SierraSdk
