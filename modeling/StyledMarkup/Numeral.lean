/-!
# Numerals

Digits of a base up to sixteen, and decimal numerals with a fraction and an
exponent as they occur in documents and settings. The formats differ in what
they admit around the digits; what the digits mean is the same in all of them.
-/
namespace StyledMarkup

namespace Numeral

/-- The value of a digit, letters counting from ten in either case. -/
def digit? (base : Nat) (c : Char) : Option Nat :=
  let value :=
    if c.isDigit then some (c.toNat - '0'.toNat)
    else if 'a' ≤ c ∧ c ≤ 'f' then some (c.toNat - 'a'.toNat + 10)
    else if 'A' ≤ c ∧ c ≤ 'F' then some (c.toNat - 'A'.toNat + 10)
    else none
  value.filter (· < base)

def isDigit (base : Nat) (c : Char) : Bool := (digit? base c).isSome

/-- The number that a digit string stands for; other characters count as zero. -/
def value (base : Nat) (digits : List Char) : Nat :=
  digits.foldl (fun sum c => sum * base + (digit? base c).getD 0) 0

/-- The number that a digit string stands for, if it is one and not empty. -/
def read? (base : Nat) (digits : List Char) : Option Nat :=
  if digits.isEmpty || !digits.all (isDigit base) then none else some (value base digits)

/-- How many values a word of so many bits has. -/
def wordValues (bits : Nat) : Nat := Nat.pow 2 bits

/-- The digits at the beginning of a text, and what follows them. -/
def span (text : List Char) : List Char × List Char :=
  (text.takeWhile Char.isDigit, text.dropWhile Char.isDigit)

/-- A sign at the beginning of a text: whether it is a minus, and what follows. -/
def signed : List Char → Bool × List Char
  | '-' :: rest => (true, rest)
  | '+' :: rest => (false, rest)
  | rest => (false, rest)

end Numeral

/-- The number `± coefficient · 10 ^ exponent`, as it was written. -/
structure Decimal where
  negative : Bool
  coefficient : Nat
  exponent : Int
  deriving DecidableEq, Repr

namespace Decimal

/-- The numeral of the given digits before and after the point. -/
def ofDigits (negative : Bool) (whole fraction : List Char) (exponent : Int) : Decimal :=
  ⟨negative, Numeral.value 10 (whole ++ fraction), exponent - fraction.length⟩

def digitCount (decimal : Decimal) : Nat := (Nat.toDigits 10 decimal.coefficient).length

end Decimal

end StyledMarkup
