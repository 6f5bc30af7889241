import StyledMarkup.Numeral

/-!
# Binary numbers of 64 bits

Numbers with a fraction are held as the nearest binary number of 64 bits, ties
to the even neighbour, and are written with the fewest decimal digits that read
back as the same number; of several such numerals the nearest is taken. All of
it is computed exactly on natural numbers.
-/
namespace StyledMarkup

inductive Binary64 where
  | nan
  | infinite (negative : Bool)
  /-- `± significand · 2 ^ exponent` -/
  | finite (negative : Bool) (significand : Nat) (exponent : Int)
  deriving DecidableEq, Repr

/-- A quotient of natural numbers. -/
structure Ratio where
  num : Nat
  den : Nat

namespace Ratio

/-- `n · base ^ exponent` -/
def scaled (n base : Nat) (exponent : Int) : Ratio :=
  ⟨n * Nat.pow base exponent.toNat, Nat.pow base (-exponent).toNat⟩

def less (a b : Ratio) : Bool := a.num * b.den < b.num * a.den

def equals (a b : Ratio) : Bool := a.num * b.den == b.num * a.den

def times (a b : Ratio) : Ratio := ⟨a.num * b.num, a.den * b.den⟩

def dividedBy (a b : Ratio) : Ratio := ⟨a.num * b.den, a.den * b.num⟩

def floor (a : Ratio) : Nat := a.num / a.den

/-- The nearest natural number, the even one of two. -/
def nearest (a : Ratio) : Nat :=
  let twice := 2 * (a.num % a.den)
  if twice > a.den then a.floor + 1
  else if twice = a.den then a.floor + a.floor % 2
  else a.floor

end Ratio

namespace Binary64

/-- The exponent of the least positive number. -/
def leastExponent : Int := -1074

/-- The exponent of the greatest number. -/
def greatestExponent : Int := 971

/-- The least significand of 53 bits. -/
def fullSignificand : Nat := Nat.pow 2 52

/-- The exponent at which a positive number has a significand of 53 bits, or the
least exponent if that is greater. -/
def exponentOf (a : Ratio) : Int :=
  let guess : Int := (a.num.log2 : Int) - a.den.log2 - 52
  let full := !(a.dividedBy (.scaled 1 2 guess)).less ⟨fullSignificand, 1⟩
  max (if full then guess else guess - 1) leastExponent

/-- The number nearest to a positive quotient. -/
def ofRatio (negative : Bool) (a : Ratio) : Binary64 :=
  let exponent := exponentOf a
  let significand := (a.dividedBy (.scaled 1 2 exponent)).nearest
  let carried : Nat × Int :=
    if significand = 2 * fullSignificand then (fullSignificand, exponent + 1)
    else (significand, exponent)
  if carried.2 > greatestExponent then infinite negative
  else finite negative carried.1 carried.2

/-- The number nearest to a numeral. Numerals far outside the range are decided by
their length, before a power of ten is computed. -/
def ofDecimal (decimal : Decimal) : Binary64 :=
  if decimal.coefficient = 0 then finite decimal.negative 0 leastExponent
  else if decimal.exponent > 400 then infinite decimal.negative
  else if decimal.exponent + decimal.digitCount < -400 then
    finite decimal.negative 0 leastExponent
  else ofRatio decimal.negative (.scaled decimal.coefficient 10 decimal.exponent)

def isFinite : Binary64 → Bool
  | finite .. => true
  | _ => false

def isZero : Binary64 → Bool
  | finite _ significand _ => significand == 0
  | _ => false

def opposite : Binary64 → Binary64
  | nan => nan
  | infinite negative => infinite !negative
  | finite negative significand exponent => finite (!negative) significand exponent

/-! Arithmetic on finite numbers without sign, each result rounded once. -/

/-- The number as a quotient. -/
def magnitude : Binary64 → Ratio
  | finite _ significand exponent => .scaled significand 2 exponent
  | _ => ⟨0, 1⟩

/-- The number nearest to a quotient that may be zero. -/
def ofMagnitude (a : Ratio) : Binary64 :=
  if a.num = 0 then finite false 0 leastExponent else ofRatio false a

def ofNat (n : Nat) : Binary64 := ofMagnitude ⟨n, 1⟩

def powerOfTen (n : Nat) : Binary64 := ofNat (Nat.pow 10 n)

def times (a b : Binary64) : Binary64 := ofMagnitude (a.magnitude.times b.magnitude)

def dividedBy (a b : Binary64) : Binary64 := ofMagnitude (a.magnitude.dividedBy b.magnitude)

/-- Whether a numeral is read as the number `significand · 2 ^ exponent`. -/
def readsBack (significand : Nat) (exponent : Int) (numeral : Ratio) : Bool :=
  let narrow := significand == fullSignificand && exponent != leastExponent
  let low := Ratio.scaled (4 * significand - if narrow then 1 else 2) 2 (exponent - 2)
  let high := Ratio.scaled (4 * significand + 2) 2 (exponent - 2)
  let even := significand % 2 == 0
  (low.less numeral || even && low.equals numeral) &&
    (numeral.less high || even && numeral.equals high)

/-- Which of two numerals equally far from the number is written. -/
inductive Tie where
  | even | greater
  deriving DecidableEq, Repr

/-- The numeral of the number on the grid of the given power of ten, if one of its
two neighbours there reads back. -/
def onGrid? (tie : Tie) (significand : Nat) (exponent : Int) (grid : Int) : Option Nat :=
  let a := Ratio.scaled significand 2 exponent
  let below := (a.dividedBy (.scaled 1 10 grid)).floor
  let fits (n : Nat) : Bool := readsBack significand exponent (.scaled n 10 grid)
  let upper :=
    let middle := Ratio.scaled (10 * below + 5) 10 (grid - 1)
    middle.less a || middle.equals a && (tie == .greater || below % 2 == 1)
  match fits below, fits (below + 1) with
  | true, true => some (if upper then below + 1 else below)
  | true, false => some below
  | false, true => some (below + 1)
  | false, false => none

/-- The least power of ten above a positive number, as an exponent. -/
def scale (significand : Nat) (exponent : Int) : Int :=
  let a := Ratio.scaled significand 2 exponent
  (((List.range 640).map fun (k : Nat) => (k : Int) - 330).find?
    fun k => a.less (.scaled 1 10 k)).getD 310

def stripZeros (fuel coefficient : Nat) (exponent : Int) : Nat × Int :=
  match fuel with
  | 0 => (coefficient, exponent)
  | fuel + 1 =>
      if coefficient % 10 = 0 then stripZeros fuel (coefficient / 10) (exponent + 1)
      else (coefficient, exponent)

/-- The shortest numeral of a positive number: a coefficient that does not end in
zero, and a power of ten. Seventeen digits always suffice. -/
def shortest (tie : Tie) (significand : Nat) (exponent : Int) : Nat × Int :=
  let top := scale significand exponent
  let grids := (List.range 17).map fun (n : Nat) => top - (n + 1)
  match grids.findSome? fun grid => (onGrid? tie significand exponent grid).map (·, grid) with
  | some (coefficient, grid) => stripZeros 20 coefficient grid
  | none =>
      (significand * Nat.pow 5 (-exponent).toNat * Nat.pow 2 exponent.toNat, min exponent 0)

/-- How numbers are written in one kind of text. -/
structure Format where
  tie : Tie
  /-- Whether a whole number is written with the fraction `.0`. -/
  wholeFraction : Bool
  /-- The decimal exponents that are written without exponent; all if none is given. -/
  positional : Option (Int × Int)

def zeros (n : Nat) : String := String.ofList (List.replicate n '0')

/-- The numeral without exponent. -/
def positionalText (format : Format) (coefficient : Nat) (exponent : Int) : String :=
  let digits := toString coefficient
  let whole := if format.wholeFraction then ".0" else ""
  let point : Int := digits.length + exponent
  if exponent ≥ 0 then
    digits ++ zeros (if coefficient = 0 then 0 else exponent.toNat) ++ whole
  else if point > 0 then
    String.ofList (digits.toList.take point.toNat) ++ "." ++
      String.ofList (digits.toList.drop point.toNat)
  else "0." ++ zeros (-point).toNat ++ digits

/-- The numeral with one digit before the point. -/
def scientificText (coefficient : Nat) (exponent : Int) : String :=
  let digits := (toString coefficient).toList
  let fraction := digits.drop 1
  String.ofList (digits.take 1) ++ (if fraction.isEmpty then "" else "." ++ String.ofList fraction) ++
    "e" ++ toString (exponent + fraction.length)

def text (format : Format) : Binary64 → String
  | nan => "NaN"
  | infinite negative => if negative then "-inf" else "inf"
  | finite negative significand exponent =>
      let numeral : Nat × Int :=
        if significand = 0 then (0, 0) else shortest format.tie significand exponent
      let magnitude : Int := (toString numeral.1).length + numeral.2 - 1
      let positional :=
        match format.positional with
        | none => true
        | some (low, high) => low ≤ magnitude && magnitude ≤ high
      (if negative then "-" else "") ++
        if positional then positionalText format numeral.1 numeral.2
        else scientificText numeral.1 numeral.2

end Binary64

end StyledMarkup
