import SierraSdk.Library.BoundedText
import SierraSdk.Sl.Numbers

/-!
# Formatted texts

`slvsprintflen` writes a text by a format and a list of arguments, up to a maximum length. Where a
conversion ends does not depend on the arguments, and so a format is a list of items
(`formatItems`), which are written one after the other.

Numbers are written by `slnumberlen`, whose buffer has place for ten digits; it finds out that it
had more when they are written, and ends the process. `int`, `long` and pointers have 32 bits, and
`int` wraps.
-/

namespace SierraSdk

namespace Sl

open BoundedText

section Format

/-- `slatol` is `slatol64` in 32 bits. -/
def slatolLoop (placeholder result : UInt32) : List UInt8 → UInt32
  | [] => result
  | c :: cs => slatolLoop (placeholder * 10) (result + (c - 0x30).toUInt32 * placeholder) cs

def slatol (sp : List UInt8) : UInt32 :=
  let digits := digitsOf slisdigit sp
  if digits = [] then 0 else slatolLoop 1 0 digits.reverse

def slatoi (sp : List UInt8) : UInt16 := (slatol sp).toUInt16

/-- Every `%` counts, but for two of them. -/
def slcountfmtargs : List UInt8 → ℕ
  | [] => 0
  | [c] => if c = 0x25 then 1 else 0
  | c :: d :: scp =>
      if c = 0x25 then
        if d = 0x25 then slcountfmtargs scp else slcountfmtargs (d :: scp) + 1
      else slcountfmtargs (d :: scp)

/-- The conversion type mask. -/
structure TypeMask where
  zeropad : Bool := false
  sign : Bool := false
  plus : Bool := false
  space : Bool := false
  left : Bool := false
  special : Bool := false
  large : Bool := false

/-- A width or a precision: there is none, it is in the format, or it is an argument. -/
inductive Count where
  | absent
  | number (n : UInt16)
  | argument

/-- A conversion. The format may end before its specifier. -/
structure Conversion where
  flags : TypeMask
  field_width : Count
  precision : Count
  qualifier : Option UInt8
  specifier : Option UInt8

/-- At most one flag is looked for. -/
def parseFlags : List UInt8 → TypeMask × List UInt8
  | [] => ({}, [])
  | c :: fmtp =>
      if c = 0x2d then ({ left := true }, fmtp)
      else if c = 0x2b then ({ plus := true }, fmtp)
      else if c = 0x20 then ({ space := true }, fmtp)
      else if c = 0x23 then ({ special := true }, fmtp)
      else if c = 0x30 then ({ zeropad := true }, fmtp)
      else ({}, c :: fmtp)

/-- Skip as many characters as a number has digits. -/
def skipNumber (skipnum : UInt16) (fmtp : List UInt8) : List UInt8 :=
  fmtp.drop (Nat.digits 10 skipnum.toNat).length

def parseCount : List UInt8 → Count × List UInt8
  | [] => (.absent, [])
  | c :: fmtp =>
      if slisdigit c then
        (.number (slatoi (c :: fmtp)), skipNumber (slatoi (c :: fmtp)) (c :: fmtp))
      else if c = 0x2a then (.argument, fmtp)
      else (.absent, c :: fmtp)

/-- A point with nothing behind it is a precision of zero. -/
def parsePrecision : List UInt8 → Count × List UInt8
  | [] => (.absent, [])
  | c :: fmtp =>
      if c = 0x2e then
        match parseCount fmtp with
        | (.absent, fmtp) => (.number 0, fmtp)
        | (count, fmtp) => (count, fmtp)
      else (.absent, c :: fmtp)

def parseQualifier : List UInt8 → Option UInt8 × List UInt8
  | [] => (none, [])
  | c :: fmtp => if c = 0x68 ∨ c = 0x6c then (some c, fmtp) else (none, c :: fmtp)

/-- The conversion behind a `%`, and the format behind it. -/
def parseConversion (fmtp : List UInt8) : Conversion × List UInt8 :=
  let flags := parseFlags fmtp
  let field_width := parseCount flags.2
  let precision := parsePrecision field_width.2
  let qualifier := parseQualifier precision.2
  (⟨flags.1, field_width.1, precision.1, qualifier.1, qualifier.2.head?⟩, qualifier.2.tail)

/-- What is written at once: a character of the format, or a conversion. -/
inductive Item where
  | character (c : UInt8)
  | conversion (conv : Conversion)

def nextItem (c : UInt8) (fmtp : List UInt8) : Item × List UInt8 :=
  if c = 0x25 then (.conversion (parseConversion fmtp).1, (parseConversion fmtp).2)
  else (.character c, fmtp)

/-- The items of a format, at most some of them. -/
def takeItems : ℕ → List UInt8 → List Item
  | _, [] => []
  | 0, _ => []
  | n + 1, c :: fmtp => (nextItem c fmtp).1 :: takeItems n (nextItem c fmtp).2

/-- The items of a format. -/
def formatItems (fmtp : List UInt8) : List Item := takeItems fmtp.length fmtp

end Format

section Number

/-- An `int`. -/
def int32 (x : ℤ) : ℤ := (x + 2 ^ 31) % 2 ^ 32 - 2 ^ 31

/-- Why there is no text: the process has ended, or the base is none. -/
inductive Abort where
  | aborted
  | noBase

/-- How often `c` is written by `while (len < n--)`, and what `n` is then. -/
def written (len n : ℤ) (c : UInt8) : List UInt8 := List.replicate (n - len).toNat c

def leftOver (len n : ℤ) : ℤ := if len < n then len - 1 else int32 (n - 1)

/-- The characters for the digits. -/
def digitsp (large : Bool) (digit : ℕ) : UInt8 :=
  if digit < 10 then 0x30 + UInt8.ofNat digit
  else (if large then 0x41 else 0x61) + UInt8.ofNat (digit - 10)

/-- The digits of a number from the last one on. -/
def tmp (num : UInt32) (base : ℕ) (large : Bool) : List UInt8 :=
  if num = 0 then [zero] else (Nat.digits base num.toNat).map (digitsp large)

/-- The sign of a number, and the number without it. -/
def signOf (type : TypeMask) (num : UInt32) : List UInt8 :=
  if type.sign then
    if 0x80000000 ≤ num then [0x2d]
    else if type.plus then [0x2b]
    else if type.space then [blank]
    else []
  else []

def unsigned (type : TypeMask) (num : UInt32) : UInt32 :=
  if type.sign ∧ 0x80000000 ≤ num then -num else num

/-- `0`, or `0x`. -/
def special (type : TypeMask) (base : ℕ) : List UInt8 :=
  if type.special then
    if base = 16 then [zero, if type.large then 0x58 else 0x78]
    else if base = 8 then [zero]
    else []
  else []

/-- The parts of a number in the order in which they are written. -/
structure Layout where
  blanks : List UInt8
  sign : List UInt8
  special : List UInt8
  pads : List UInt8
  zeros : List UInt8
  digits : List UInt8
  rest : List UInt8

/-- The parts, as the size that is left to be padded goes down. -/
def layout (num : UInt32) (base : ℕ) (size precision : ℤ) (type : TypeMask) : Layout :=
  let zeropad := type.zeropad && !type.left
  let pad := if zeropad then zero else blank
  let sign := signOf type num
  let tmp := tmp (unsigned type num) base type.large
  let precision := max precision tmp.length
  let size := int32 (size - sign.length - (special type base).length - precision)
  let size' := if zeropad || type.left then size else leftOver 0 size
  let size'' := if type.left then size' else leftOver 0 size'
  { blanks := if zeropad || type.left then [] else written 0 size blank
    sign := sign
    special := special type base
    pads := if type.left then [] else written 0 size' pad
    zeros := written tmp.length precision zero
    digits := tmp.reverse
    rest := written 0 size'' blank }

/-- The length is also compared if there is no sign. -/
def slnumberlen (maxlen : ℕ) (strp : List UInt8) (num : UInt32) (base : ℕ) (size precision : ℤ)
    (type : TypeMask) : Written UInt8 Abort :=
  let parts := layout num base size precision type
  if base < 2 ∨ 36 < base then .error (.failed .noBase)
  else if 10 < parts.digits.length then .error (.failed .aborted)
  else
    andThen (puts maxlen strp parts.blanks) fun strp =>
    andThen (checked maxlen (strp ++ parts.sign)) fun strp =>
    andThen (puts maxlen strp parts.special) fun strp =>
    andThen (puts maxlen strp parts.pads) fun strp =>
    andThen (puts maxlen strp parts.zeros) fun strp =>
    andThen (puts maxlen strp parts.digits) fun strp =>
    puts maxlen strp parts.rest

end Number

section Conversions

/-- What a conversion is written from: the arguments, and the strings that they may point to. -/
structure Arguments where
  arg : ℕ → UInt32
  string : UInt32 → List UInt8

/-- An argument as an `int`. -/
def Arguments.int (args : Arguments) (argp : ℕ) : ℤ := int32 (args.arg argp).toNat

/-- `<NULL>` is written for a string that is missing. -/
def Arguments.sp (args : Arguments) (argp : ℕ) : List UInt8 :=
  if args.arg argp = 0 then [0x3c, 0x4e, 0x55, 0x4c, 0x4c, 0x3e]
  else args.string (args.arg argp)

/-- The flags and the width, and the next argument; a negative width is one to the left. -/
def fieldWidth (args : Arguments) (flags : TypeMask) (argp : ℕ) : Count → TypeMask × ℤ × ℕ
  | .absent => (flags, -1, argp)
  | .number n => (flags, n.toNat, argp)
  | .argument =>
      if args.int argp < 0 then ({ flags with left := true }, int32 (-args.int argp), argp + 1)
      else (flags, args.int argp, argp + 1)

/-- The precision, and the next argument. -/
def precisionOf (args : Arguments) (argp : ℕ) : Count → ℤ × ℕ
  | .absent => (-1, argp)
  | .number n => (n.toNat, argp)
  | .argument => (max (args.int argp) 0, argp + 1)

/-- A negative count is none. -/
def slstrnlen (sp : List UInt8) (count : ℤ) : ℕ :=
  if count < 0 then sp.length else min count.toNat sp.length

/-- Read an argument when something in front of it is written. -/
def thenRead (argp : ℕ) (w : Written UInt8 Abort) (f : List UInt8 → Written UInt8 Abort) :
    ℕ × Written UInt8 Abort :=
  match w with
  | .ok strp => (argp + 1, f strp)
  | .error e => (argp, .error e)

def printChar (maxlen : ℕ) (args : Arguments) (flags : TypeMask) (field_width : ℤ) (argp : ℕ)
    (strp : List UInt8) : ℕ × Written UInt8 Abort :=
  let field_width' := int32 (field_width - 1)
  let field_width'' :=
    if flags.left then field_width' else int32 ((if 0 < field_width' then 0 else field_width') - 1)
  thenRead argp (puts maxlen strp (if flags.left then [] else written 0 field_width' blank))
    fun strp => puts maxlen strp ((args.arg argp).toUInt8 :: written 0 field_width'' blank)

def printString (maxlen : ℕ) (sp : List UInt8) (flags : TypeMask) (field_width precision : ℤ)
    (strp : List UInt8) : Written UInt8 Abort :=
  let len := slstrnlen sp precision
  let field_width' := if flags.left then field_width else leftOver len field_width
  andThen (puts maxlen strp (if flags.left then [] else written len field_width blank)) fun strp =>
  andThen (puts maxlen strp (sp.take len)) fun strp =>
  puts maxlen strp (written len field_width' blank)

/-- A pointer without a width is written with eight digits. -/
def printPointer (maxlen : ℕ) (num : UInt32) (flags : TypeMask) (field_width precision : ℤ)
    (strp : List UInt8) : Written UInt8 Abort :=
  if field_width = -1 then
    slnumberlen maxlen strp num 16 8 precision { flags with zeropad := true }
  else slnumberlen maxlen strp num 16 field_width precision flags

/-- The base of the numbers, and what their specifiers add to the flags. -/
def baseOf (c : UInt8) : ℕ := if c = 0x6f then 8 else if c = 0x58 ∨ c = 0x78 then 16 else 10

def numberFlags (c : UInt8) (flags : TypeMask) : TypeMask :=
  { flags with large := c = 0x58, sign := c = 0x64 || c = 0x69 }

/-- The specifiers of numbers: `o`, `X`, `x`, `d`, `i` and `u`. -/
def isNumber (c : UInt8) : Bool :=
  c = 0x6f || c = 0x58 || c = 0x78 || c = 0x64 || c = 0x69 || c = 0x75

/-- The number of an argument: a `short` if the qualifier is `h`. -/
def numberOf (qualifier : Option UInt8) (sign : Bool) (a : UInt32) : UInt32 :=
  if qualifier = some 0x68 then
    if sign ∧ 0x8000 ≤ a.toUInt16 then a.toUInt16.toUInt32 ||| 0xffff0000
    else a.toUInt16.toUInt32
  else a

/-- Write a conversion: the next argument, and what is written. -/
def printConversion (maxlen : ℕ) (args : Arguments) (conv : Conversion) (argp : ℕ)
    (strp : List UInt8) : ℕ × Written UInt8 Abort :=
  let width := fieldWidth args conv.flags argp conv.field_width
  let precision := precisionOf args width.2.2 conv.precision
  let argp := precision.2
  match conv.specifier with
  | none => (argp, put maxlen strp 0x25)
  | some c =>
      if c = 0x63 then printChar maxlen args width.1 width.2.1 argp strp
      else if c = 0x73 then
        (argp + 1, printString maxlen (args.sp argp) width.1 width.2.1 precision.1 strp)
      else if c = 0x70 then
        (argp + 1, printPointer maxlen (args.arg argp) width.1 width.2.1 precision.1 strp)
      else if c = 0x6e then (argp + 1, .ok strp)
      else if isNumber c then
        (argp + 1,
          slnumberlen maxlen strp
            (numberOf conv.qualifier (numberFlags c width.1).sign (args.arg argp)) (baseOf c)
            width.2.1 precision.1 (numberFlags c width.1))
      else (argp, puts maxlen strp (if c = 0x25 then [c] else [0x25, c]))

def printItem (maxlen : ℕ) (args : Arguments) (item : Item) (argp : ℕ) (strp : List UInt8) :
    ℕ × Written UInt8 Abort :=
  match item with
  | .character c => (argp, put maxlen strp c)
  | .conversion conv => printConversion maxlen args conv argp strp

/-- The loop of `slvsprintflen`. -/
def printItems (maxlen : ℕ) (args : Arguments) :
    List Item → ℕ → List UInt8 → ℕ × Written UInt8 Abort
  | [], argp, strp => (argp, .ok strp)
  | item :: items, argp, strp =>
      match printItem maxlen args item argp strp with
      | (argp, .ok strp) => printItems maxlen args items argp strp
      | (argp, .error e) => (argp, .error e)

/-- What is in the buffer, with the null character; what is returned, and how many arguments were
read. -/
structure Formatted where
  bufp : List UInt8
  length : ℕ
  args : ℕ

/-- Append the null character. `none` if the process has ended. -/
def finish (written : ℕ × Written UInt8 Abort) : Option Formatted :=
  match written with
  | (argp, .ok strp) => some ⟨strp ++ [0], strp.length, argp⟩
  | (argp, .error (.full strp)) => some ⟨strp ++ [0], strp.length, argp⟩
  | (_, .error (.failed _)) => none

def slvsprintflen (fmtp : List UInt8) (args : Arguments) (maxlen : ℕ) : Option Formatted :=
  finish (printItems maxlen args (formatItems fmtp) 0 [])

/-- It does not return for a format with more specifiers than arguments. -/
def slvsprintflenc (fmtp : List UInt8) (args : Arguments) (maxlen maxargs : ℕ) :
    Option Formatted :=
  if maxargs < slcountfmtargs fmtp then none else slvsprintflen fmtp args maxlen

end Conversions

end Sl

end SierraSdk
