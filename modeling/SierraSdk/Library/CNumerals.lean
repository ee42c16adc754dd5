import Mathlib.Algebra.Group.Nat.Defs
import Mathlib.Data.Int.Notation
import Mathlib.Data.List.Basic

/-!
# Numerals in C texts

`strtol` and `strtoul` skip white space, take a sign, and read the digits that follow in a base,
with an optional `0x` in front of hexadecimal ones. `scan` says what they find: nothing when there
is no digit. The value of a numeral that does not fit a word of `w` bits is replaced by the nearest
one that does; a negative numeral is an unsigned word by wrapping around.
-/

namespace CNumerals

/-- `isspace` -/
def isSpace (c : Char) : Bool := c == ' ' || (9 ≤ c.toNat && c.toNat ≤ 13)

/-- The value of a character as a digit of any base. -/
def digit? (c : Char) : Option ℕ :=
  if 48 ≤ c.toNat ∧ c.toNat ≤ 57 then some (c.toNat - 48)
  else if 97 ≤ c.toNat ∧ c.toNat ≤ 122 then some (c.toNat - 87)
  else if 65 ≤ c.toNat ∧ c.toNat ≤ 90 then some (c.toNat - 55)
  else none

def isDigit (base : ℕ) (c : Char) : Bool := (digit? c).any (· < base)

/-- The digits at the start of a text. -/
def digits (base : ℕ) (text : List Char) : List Char := text.takeWhile (isDigit base)

def value (base : ℕ) (digits : List Char) : ℕ :=
  digits.foldl (fun v c => v * base + (digit? c).getD 0) 0

/-- A sign and what it stands in front of. -/
def signed : List Char → Bool × List Char
  | '-' :: text => (true, text)
  | '+' :: text => (false, text)
  | text => (false, text)

/-- A hexadecimal numeral may have `0x` in front of its digits. -/
def unmarked (base : ℕ) : List Char → List Char
  | '0' :: x :: d :: text =>
      if base = 16 ∧ (x = 'x' ∨ x = 'X') ∧ isDigit 16 d then d :: text else '0' :: x :: d :: text
  | text => text

/-- The sign and the value of the numeral at the start of a text. -/
def scan (base : ℕ) (text : List Char) : Option (Bool × ℕ) :=
  let (negative, text) := signed (text.dropWhile isSpace)
  let found := digits base (unmarked base text)
  if found = [] then none else some (negative, value base found)

/-- The value of `strtol` with a `long` of `w` bits. -/
def strtol (w base : ℕ) (text : List Char) : ℤ :=
  match scan base text with
  | none => 0
  | some (true, n) => -(min n (2 ^ (w - 1)) : ℕ)
  | some (false, n) => (min n (2 ^ (w - 1) - 1) : ℕ)

/-- The value of `strtoul` with an `unsigned long` of `w` bits. -/
def strtoul (w base : ℕ) (text : List Char) : ℕ :=
  match scan base text with
  | none => 0
  | some (negative, n) =>
      if 2 ^ w ≤ n then 2 ^ w - 1 else if negative then (2 ^ w - n) % 2 ^ w else n

end CNumerals
