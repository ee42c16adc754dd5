import Mathlib.Data.Int.Notation
import Mathlib.Data.List.Basic
import Mathlib.Data.Nat.Digits.Lemmas

/-!
# The formatted texts of C

A format is a list of directives: characters, `%%`, and conversions with at most one flag, a width,
a precision and a length modifier. `format` is how it is spelled, and `text` the text that the C
standard prescribes for it: each conversion takes the next argument, a word of 32 bits or a string.

A conversion of a number is a front, which is a sign and `0x`, and a body, which is the digits with
the zeros that the precision asks for; both are padded to the width. `Defined` says which
conversions the standard gives a meaning to.
-/

namespace CFormat

section Formats

/-- The flags: `-`, `+`, a space, `#` and `0`. -/
inductive Flag where
  | left
  | plus
  | space
  | alternate
  | zeros
  deriving DecidableEq

/-- The length modifiers: `h` and `l`. -/
inductive Length where
  | short
  | long
  deriving DecidableEq

/-- The specifiers; `upperX` is `X`. -/
inductive Specifier where
  | d
  | i
  | o
  | u
  | x
  | upperX
  | s
  | c
  deriving DecidableEq

/-- The number that decimal digits denote. -/
def number (digits : List (Fin 10)) : ℕ := Nat.ofDigits 10 (digits.reverse.map Fin.val)

/-- A width: a zero in front would be a flag. -/
structure Width where
  digits : List (Fin 10)
  first_ne_zero : digits.headD 0 ≠ 0

/-- A conversion. The digits of a precision may be missing behind its point. -/
structure Conversion where
  flag : Option Flag
  width : Option Width
  precision : Option (List (Fin 10))
  length : Option Length
  specifier : Specifier

/-- A character of a format that stands for itself. -/
abbrev Literal := { c : UInt8 // c ≠ 0x25 ∧ c ≠ 0 }

inductive Directive where
  | literal (c : Literal)
  | percent
  | conversion (conv : Conversion)

def Flag.spelled : Flag → UInt8
  | .left => 0x2d
  | .plus => 0x2b
  | .space => 0x20
  | .alternate => 0x23
  | .zeros => 0x30

def Length.spelled : Length → UInt8
  | .short => 0x68
  | .long => 0x6c

def Specifier.spelled : Specifier → UInt8
  | .d => 0x64
  | .i => 0x69
  | .o => 0x6f
  | .u => 0x75
  | .x => 0x78
  | .upperX => 0x58
  | .s => 0x73
  | .c => 0x63

def spelledDigits (digits : List (Fin 10)) : List UInt8 :=
  digits.map fun digit => 0x30 + UInt8.ofNat digit.val

/-- A conversion as it is spelled behind its `%`. -/
def Conversion.spelled (conv : Conversion) : List UInt8 :=
  (conv.flag.map Flag.spelled).toList ++
    (conv.width.elim [] (fun width => spelledDigits width.digits) ++
      (conv.precision.elim [] (fun digits => 0x2e :: spelledDigits digits) ++
        ((conv.length.map Length.spelled).toList ++ [conv.specifier.spelled])))

def Directive.spelled : Directive → List UInt8
  | .literal c => [c.val]
  | .percent => [0x25, 0x25]
  | .conversion conv => 0x25 :: conv.spelled

/-- A format, without the null character at its end. -/
def format (ds : List Directive) : List UInt8 := ds.flatMap Directive.spelled

end Formats

section Texts

/-- An argument: a word, and the string that it points to if it is a pointer to one. -/
structure Argument where
  word : UInt32
  string : List UInt8

def Specifier.signed : Specifier → Bool
  | .d | .i => true
  | _ => false

def Specifier.isNumber : Specifier → Bool
  | .s | .c => false
  | _ => true

def Specifier.base : Specifier → ℕ
  | .o => 8
  | .x | .upperX => 16
  | _ => 10

def Length.bits : Option Length → ℕ
  | some .short => 16
  | _ => 32

namespace Conversion

/-- The width, which is zero if there is none. -/
def minWidth (conv : Conversion) : ℕ := conv.width.elim 0 fun width => number width.digits

/-- The least number of digits. -/
def minDigits (conv : Conversion) : ℕ := conv.precision.elim 1 number

/-- The value of an argument that is converted as a number. -/
def value (conv : Conversion) (word : UInt32) : ℤ :=
  let bits := Length.bits conv.length
  let raw := word.toNat % 2 ^ bits
  if conv.specifier.signed ∧ 2 ^ (bits - 1) ≤ raw then (raw : ℤ) - 2 ^ bits else raw

end Conversion

/-- The character for a digit. -/
def digitChar (upper : Bool) (digit : ℕ) : UInt8 :=
  if digit < 10 then 0x30 + UInt8.ofNat digit
  else (if upper then 0x41 else 0x61) + UInt8.ofNat (digit - 10)

/-- The digits of a number, without a digit for zero. -/
def digitsOf (base : ℕ) (upper : Bool) (n : ℕ) : List UInt8 :=
  ((Nat.digits base n).map (digitChar upper)).reverse

/-- Digits with zeros in front. -/
def numeral (min : ℕ) (digits : List UInt8) : List UInt8 :=
  List.replicate (min - digits.length) 0x30 ++ digits

/-- A zero in front if there is none. -/
def octalMarked (numeral : List UInt8) : List UInt8 :=
  if numeral.head? = some 0x30 then numeral else 0x30 :: numeral

/-- How a text is padded: blanks to the right of it, zeros inside, or blanks to the left. -/
inductive Padding where
  | right
  | inside
  | left
  deriving DecidableEq

/-- A front and a body, padded to a width. -/
def padded (padding : Padding) (width : ℕ) (front body : List UInt8) : List UInt8 :=
  let n := width - (front ++ body).length
  match padding with
  | .right => front ++ body ++ List.replicate n 0x20
  | .inside => front ++ List.replicate n 0x30 ++ body
  | .left => List.replicate n 0x20 ++ front ++ body

namespace Conversion

/-- Zeros are not padded with if there is a precision. -/
def padding (conv : Conversion) : Padding :=
  if conv.flag = some .left then .right
  else if conv.flag = some .zeros ∧ conv.precision.isNone then .inside
  else .left

def sign (conv : Conversion) (word : UInt32) : List UInt8 :=
  if conv.specifier.signed then
    if conv.value word < 0 then [0x2d]
    else if conv.flag = some .plus then [0x2b]
    else if conv.flag = some .space then [0x20]
    else []
  else []

/-- The digits with the zeros that the precision asks for. -/
def digits (conv : Conversion) (word : UInt32) : List UInt8 :=
  numeral conv.minDigits
    (digitsOf conv.specifier.base (conv.specifier = .upperX) (conv.value word).natAbs)

/-- A value that is not zero is marked as hexadecimal. -/
def mark (conv : Conversion) (word : UInt32) : List UInt8 :=
  if conv.flag = some .alternate ∧ conv.specifier.base = 16 ∧ conv.value word ≠ 0 then
    [0x30, conv.specifier.spelled]
  else []

/-- What is padded. -/
def body (conv : Conversion) (arg : Argument) : List UInt8 :=
  match conv.specifier with
  | .c => [arg.word.toUInt8]
  | .s => conv.precision.elim arg.string fun digits => arg.string.take (number digits)
  | .o =>
      if conv.flag = some .alternate then octalMarked (conv.digits arg.word)
      else conv.digits arg.word
  | _ => conv.digits arg.word

def front (conv : Conversion) (arg : Argument) : List UInt8 :=
  if conv.specifier.isNumber then conv.sign arg.word ++ conv.mark arg.word else []

/-- The text of a conversion. -/
def text (conv : Conversion) (arg : Argument) : List UInt8 :=
  padded conv.padding conv.minWidth (conv.front arg) (conv.body arg)

/-- The standard gives the conversion a meaning, and a string is there. -/
def Defined (conv : Conversion) (arg : Argument) : Prop :=
  (conv.flag = some .alternate → conv.specifier.base ≠ 10) ∧
    (conv.flag = some .zeros → conv.specifier.isNumber) ∧
    (conv.precision.isSome → conv.specifier ≠ .c) ∧
    (conv.length.isSome → conv.specifier.isNumber) ∧
    (conv.specifier = .s → arg.word ≠ 0)

end Conversion

namespace Directive

/-- The number of arguments that a directive takes. -/
def args : Directive → ℕ
  | .conversion _ => 1
  | _ => 0

def text : Directive → Argument → List UInt8
  | .literal c, _ => [c.val]
  | .percent, _ => [0x25]
  | .conversion conv, arg => conv.text arg

def Defined : Directive → Argument → Prop
  | .conversion conv, arg => conv.Defined arg
  | _, _ => True

end Directive

/-- Texts for directives one behind the other, which take the arguments from a place on. -/
def texts (args : ℕ → Argument) (f : Directive → Argument → List UInt8) :
    List Directive → ℕ → List UInt8
  | [], _ => []
  | d :: ds, argp => f d (args argp) ++ texts args f ds (argp + d.args)

/-- The text of a format. -/
def text (args : ℕ → Argument) (ds : List Directive) : List UInt8 := texts args Directive.text ds 0

/-- Something holds of each directive and of the argument at its place. -/
def Each (args : ℕ → Argument) (p : Directive → Argument → Prop) : List Directive → ℕ → Prop
  | [], _ => True
  | d :: ds, argp => p d (args argp) ∧ Each args p ds (argp + d.args)

variable {args : ℕ → Argument} {p q : Directive → Argument → Prop}
  {f g : Directive → Argument → List UInt8} {ds : List Directive} {argp : ℕ}

theorem Each.imp (h : Each args p ds argp) (himp : ∀ d ∈ ds, ∀ arg, p d arg → q d arg) :
    Each args q ds argp := by
  induction ds generalizing argp with
  | nil => trivial
  | cons d ds ih =>
      obtain ⟨hd, hds⟩ := List.forall_mem_cons.mp himp
      exact ⟨hd _ h.1, ih h.2 hds⟩

theorem Each.and (hp : Each args p ds argp) (hq : Each args q ds argp) :
    Each args (fun d arg => p d arg ∧ q d arg) ds argp := by
  induction ds generalizing argp with
  | nil => trivial
  | cons d ds ih => exact ⟨⟨hp.1, hq.1⟩, ih hp.2 hq.2⟩

theorem texts_congr (h : Each args (fun d arg => f d arg = g d arg) ds argp) :
    texts args f ds argp = texts args g ds argp := by
  induction ds generalizing argp with
  | nil => rfl
  | cons d ds ih => rw [texts, texts, h.1, ih h.2]

/-- Texts that are the same except that some of the first ones have more characters of a kind are
equal only if none has more. -/
theorem texts_eq_iff (c : UInt8)
    (h : Each args (fun d arg => f d arg = g d arg ∨ (g d arg).count c < (f d arg).count c)
      ds argp) :
    texts args f ds argp = texts args g ds argp ↔
      Each args (fun d arg => f d arg = g d arg) ds argp := by
  have hle : ∀ {ds argp},
      Each args (fun d arg => f d arg = g d arg ∨ (g d arg).count c < (f d arg).count c)
        ds argp → (texts args g ds argp).count c ≤ (texts args f ds argp).count c := by
    intro ds
    induction ds with
    | nil => exact fun _ => Nat.le_refl _
    | cons d ds ih =>
        intro argp h
        rw [texts, texts, List.count_append, List.count_append]
        have hrest := ih h.2
        rcases h.1 with hsame | hmore
        · rw [hsame]
          exact Nat.add_le_add_left hrest _
        · exact Nat.add_le_add (Nat.le_of_lt hmore) hrest
  refine ⟨fun heq => ?_, texts_congr⟩
  induction ds generalizing argp with
  | nil => trivial
  | cons d ds ih =>
      have hrest := hle h.2
      rw [texts, texts] at heq
      rcases h.1 with hsame | hmore
      · rw [hsame] at heq
        exact ⟨hsame, ih h.2 (List.append_cancel_left heq)⟩
      · have hcount := congrArg (List.count c) heq
        rw [List.count_append, List.count_append] at hcount
        omega

/-- How often zero is in a padded text. -/
theorem count_padded (padding : Padding) (width : ℕ) (front body : List UInt8) :
    (padded padding width front body).count 0x30 =
      front.count 0x30 + body.count 0x30 +
        if padding = .inside then width - (front ++ body).length else 0 := by
  have hblank (n : ℕ) : (List.replicate n (0x20 : UInt8)).count 0x30 = 0 :=
    List.count_eq_zero.mpr fun h => absurd (List.eq_of_mem_replicate h) (by decide)
  cases padding with
  | right => simp only [padded, List.count_append, hblank, reduceCtorEq, if_false]
  | left =>
      simp only [padded, List.count_append, hblank, reduceCtorEq, if_false, Nat.zero_add,
        Nat.add_zero]
  | inside =>
      simp only [padded, List.count_append, List.count_replicate_self, if_true]
      omega

/-- A text that is as long as its width is not padded. -/
theorem padded_of_le {width : ℕ} {front body : List UInt8} (padding : Padding)
    (h : width ≤ (front ++ body).length) : padded padding width front body = front ++ body := by
  have hnone : width - (front ++ body).length = 0 := Nat.sub_eq_zero_of_le h
  cases padding <;>
    simp only [padded, hnone, List.replicate_zero, List.append_nil, List.nil_append]

/-- Where blanks are to the left it makes no difference what is the front. -/
theorem padded_left (width : ℕ) (front body : List UInt8) :
    padded .left width front body = padded .left width [] (front ++ body) := by
  simp [padded]

end Texts

section Numbers

variable {conv : Conversion} {word : UInt32}

theorem length_numeral (min : ℕ) (digits : List UInt8) :
    (numeral min digits).length = max min digits.length := by
  rw [numeral, List.length_append, List.length_replicate]
  omega

theorem length_digitsOf (base : ℕ) (upper : Bool) (n : ℕ) :
    (digitsOf base upper n).length = (Nat.digits base n).length := by
  rw [digitsOf, List.length_reverse, List.length_map]

@[simp] theorem digitsOf_zero (base : ℕ) (upper : Bool) : digitsOf base upper 0 = [] := by
  rw [digitsOf, Nat.digits_zero]
  rfl

theorem digitChar_ne_zero {digit : ℕ} (h : digit ≠ 0) (hlt : digit < 10) (upper : Bool) :
    digitChar upper digit ≠ 0x30 := by
  rw [digitChar, if_pos hlt]
  interval_cases digit <;> first | exact absurd rfl h | decide

/-- The first digit of a number in octal is not zero. -/
theorem head?_digitsOf_eight {n : ℕ} (hn : n ≠ 0) (upper : Bool) :
    (digitsOf 8 upper n).head? ≠ some 0x30 := by
  have hne : Nat.digits 8 n ≠ [] := Nat.digits_ne_nil_iff_ne_zero.mpr hn
  have hlast := Nat.getLast_digit_ne_zero 8 hn
  have hlt := Nat.digits_lt_base (by decide : 1 < 8) (List.getLast_mem hne)
  rw [digitsOf, List.head?_reverse, List.getLast?_map, List.getLast?_eq_getLast_of_ne_nil hne]
  intro h
  exact digitChar_ne_zero hlast (by omega) upper (Option.some.inj h)

/-- Digits with a zero in front are marked already. -/
theorem octalMarked_of_lt {min : ℕ} {digits : List UInt8} (h : digits.length < min) :
    octalMarked (numeral min digits) = numeral min digits := by
  obtain ⟨k, hk⟩ := Nat.exists_eq_add_of_lt h
  refine if_pos ?_
  rw [numeral, show min - digits.length = k + 1 by omega, List.replicate_succ]
  rfl

theorem octalMarked_of_head? {numeral : List UInt8} (h : numeral.head? ≠ some 0x30) :
    octalMarked numeral = 0x30 :: numeral := if_neg h

/-- Without more digits than there are no zero is in front. -/
theorem numeral_of_le {min : ℕ} {digits : List UInt8} (h : min ≤ digits.length) :
    numeral min digits = digits := by
  rw [numeral, Nat.sub_eq_zero_of_le h]
  rfl

/-- Zeros are not padded with if there is a precision. -/
theorem Conversion.padding_ne_inside (h : conv.precision.isSome = true) :
    conv.padding ≠ .inside := by
  rw [Conversion.padding]
  split_ifs with hleft hzeros
  · decide
  · rw [Option.isNone_iff_eq_none.mp hzeros.2] at h
    exact Bool.noConfusion h
  · decide

theorem Conversion.isSome_of_minDigits (h : conv.minDigits = 0) :
    conv.precision.isSome = true := by
  rw [Conversion.minDigits] at h
  cases hprecision : conv.precision with
  | none =>
      rw [hprecision] at h
      exact absurd h Nat.one_ne_zero
  | some digits => rfl

theorem Conversion.count_sign (conv : Conversion) (word : UInt32) :
    (conv.sign word).count 0x30 = 0 := by
  rw [Conversion.sign]
  split_ifs <;> rfl

theorem Conversion.sign_of_base (h : conv.specifier.base ≠ 10) : conv.sign word = [] := by
  rw [Conversion.sign]
  refine if_neg fun hsigned => h ?_
  cases hcases : conv.specifier <;> rw [hcases] at hsigned <;>
    first | rfl | exact Bool.noConfusion hsigned

end Numbers

section Percents

variable {conv : Conversion} {arg : Argument}

/-- An argument has no percent sign that a conversion would write. -/
def PercentFree : Directive → Argument → Prop
  | .conversion conv, arg =>
      (conv.specifier = .c → arg.word.toUInt8 ≠ 0x25) ∧
        (conv.specifier = .s → 0x25 ∉ arg.string)
  | _, _ => True

def Directive.isPercent : Directive → Bool
  | .percent => true
  | _ => false

theorem mem_padded {padding : Padding} {width : ℕ} {front body : List UInt8} {c : UInt8}
    (h : c ∈ padded padding width front body) :
    c = 0x20 ∨ c = 0x30 ∨ c ∈ front ∨ c ∈ body := by
  cases padding with
  | right =>
      rcases List.mem_append.mp h with h | h
      · exact .inr (.inr (List.mem_append.mp h))
      · exact .inl (List.eq_of_mem_replicate h)
  | inside =>
      rcases List.mem_append.mp h with h | h
      · rcases List.mem_append.mp h with h | h
        · exact .inr (.inr (.inl h))
        · exact .inr (.inl (List.eq_of_mem_replicate h))
      · exact .inr (.inr (.inr h))
  | left =>
      rcases List.mem_append.mp h with h | h
      · rcases List.mem_append.mp h with h | h
        · exact .inl (List.eq_of_mem_replicate h)
        · exact .inr (.inr (.inl h))
      · exact .inr (.inr (.inr h))

theorem digitChar_ne_percent {digit : ℕ} (h : digit < 16) (upper : Bool) :
    digitChar upper digit ≠ 0x25 := by
  interval_cases digit <;> cases upper <;> decide

theorem Specifier.base_le (specifier : Specifier) : 1 < specifier.base ∧ specifier.base ≤ 16 := by
  cases specifier <;> decide

theorem percent_notMem_digits (conv : Conversion) (word : UInt32) :
    0x25 ∉ conv.digits word := by
  intro h
  rcases List.mem_append.mp h with hzero | hdigit
  · exact absurd (List.eq_of_mem_replicate hzero) (by decide)
  · obtain ⟨digit, hmem, heq⟩ := List.mem_map.mp (List.mem_reverse.mp hdigit)
    have hlt := Nat.digits_lt_base conv.specifier.base_le.1 hmem
    exact digitChar_ne_percent (Nat.lt_of_lt_of_le hlt conv.specifier.base_le.2) _ heq

theorem percent_notMem_octalMarked {numeral : List UInt8} (h : 0x25 ∉ numeral) :
    0x25 ∉ octalMarked numeral := by
  rw [octalMarked]
  split_ifs
  · exact h
  · exact List.not_mem_cons_of_ne_of_not_mem (by decide) h

theorem percent_notMem_front (conv : Conversion) (arg : Argument) : 0x25 ∉ conv.front arg := by
  rw [Conversion.front]
  split_ifs
  · rw [List.mem_append, not_or, Conversion.sign, Conversion.mark]
    refine ⟨by split_ifs <;> decide, ?_⟩
    cases conv.specifier <;> split_ifs <;> decide
  · exact List.not_mem_nil

/-- No percent sign is in a conversion that writes none of its argument. -/
theorem percent_notMem_text (h : PercentFree (.conversion conv) arg) :
    0x25 ∉ conv.text arg := by
  have hbody : 0x25 ∉ conv.body arg := by
    have hdigits := percent_notMem_digits conv arg.word
    rw [Conversion.body]
    cases hspecifier : conv.specifier with
    | c => exact fun hmem => h.1 hspecifier (List.mem_singleton.mp hmem).symm
    | s =>
        cases conv.precision with
        | none => exact h.2 hspecifier
        | some digits => exact fun hmem => h.2 hspecifier (List.mem_of_mem_take hmem)
    | o =>
        split_ifs
        · exact percent_notMem_octalMarked hdigits
        · exact hdigits
    | _ => exact hdigits
  intro hmem
  rcases mem_padded hmem with hblank | hzero | hfront | hbody'
  · exact absurd hblank (by decide)
  · exact absurd hzero (by decide)
  · exact percent_notMem_front conv arg hfront
  · exact hbody hbody'

/-- The percent signs of a text are those of its format. -/
theorem count_percent_texts {args : ℕ → Argument} {ds : List Directive} {argp : ℕ}
    (h : Each args PercentFree ds argp) :
    (texts args Directive.text ds argp).count 0x25 = ds.countP Directive.isPercent := by
  induction ds generalizing argp with
  | nil => rfl
  | cons d ds ih =>
      rw [texts, List.count_append, ih h.2]
      cases d with
      | literal c =>
          have hnone : [c.val].count 0x25 = 0 :=
            List.count_eq_zero.mpr fun hmem => c.property.1 (List.mem_singleton.mp hmem).symm
          rw [Directive.text, hnone, Nat.zero_add]
          rfl
      | percent =>
          rw [List.countP_cons_of_pos rfl]
          exact Nat.add_comm _ _
      | conversion conv =>
          rw [Directive.text, List.count_eq_zero.mpr (percent_notMem_text h.1), Nat.zero_add]
          rfl

end Percents

end CFormat
