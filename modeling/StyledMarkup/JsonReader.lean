import StyledMarkup.JsonValue

/-!
# Reading JSON

A text is read as one value with nothing but blanks around it. Of members with
one key the last one counts. A number without fraction and exponent is an
integer if it fits in 64 bits with or without a sign. Every other number is
computed from its leading digits, as many as fit in 64 bits, and a power of ten:
the digits are rounded to a binary number, and so is their product or quotient
with the power. One beyond the greatest binary number is not read.

Every step of the reader takes at least one character, so the length of the text
bounds the number of steps.
-/
namespace StyledMarkup.JsonReader

def isBlank (c : Char) : Bool := c == ' ' || c == '\n' || c == '\t' || c == '\r'

def skipBlanks (input : List Char) : List Char := input.dropWhile isBlank

/-- The character of two halves of a surrogate pair. -/
def pair? (high low : Nat) : Option Char :=
  if 0xD800 ≤ high ∧ high < 0xDC00 ∧ 0xDC00 ≤ low ∧ low < 0xE000 then
    some (Char.ofNat (0x10000 + (high - 0xD800) * 0x400 + (low - 0xDC00)))
  else none

def single? (code : Nat) : Option Char :=
  if 0xD800 ≤ code ∧ code < 0xE000 then none else some (Char.ofNat code)

def shortEscape? : Char → Option Char
  | '"' => some '"'
  | '\\' => some '\\'
  | '/' => some '/'
  | 'b' => some '\x08'
  | 'f' => some '\x0c'
  | 'n' => some '\n'
  | 'r' => some '\r'
  | 't' => some '\t'
  | _ => none

/-- The characters of a string whose opening quote is already read, and what follows
the closing one. -/
def readString (input : List Char) : Option (List Char × List Char) :=
  match input with
  | '"' :: rest => some ([], rest)
  | '\\' :: 'u' :: a :: b :: c :: d :: rest =>
      match Numeral.read? 16 [a, b, c, d] with
      | none => none
      | some code =>
          match single? code with
          | some char => (readString rest).map fun (text, tail) => (char :: text, tail)
          | none =>
              match rest with
              | '\\' :: 'u' :: e :: f :: g :: h :: rest =>
                  match (Numeral.read? 16 [e, f, g, h]).bind (pair? code) with
                  | none => none
                  | some char =>
                      (readString rest).map fun (text, tail) => (char :: text, tail)
              | _ => none
  | '\\' :: c :: rest =>
      match shortEscape? c with
      | none => none
      | some char => (readString rest).map fun (text, tail) => (char :: text, tail)
  | c :: rest =>
      if c.toNat < 0x20 then none
      else (readString rest).map fun (text, tail) => (c :: text, tail)
  | [] => none

/-- An exponent at the beginning of a text; zero if there is none. -/
def readExponent : List Char → Option (Option Int × List Char)
  | c :: rest =>
      if c = 'e' ∨ c = 'E' then
        let (negative, rest) := Numeral.signed rest
        let (digits, rest) := Numeral.span rest
        (Numeral.read? 10 digits).map fun (value : Nat) =>
          (some (if negative then -(value : Int) else value), rest)
      else some (none, c :: rest)
  | [] => some (none, [])

def readFraction : List Char → Option (Option (List Char) × List Char)
  | '.' :: rest =>
      let (digits, rest) := Numeral.span rest
      if digits.isEmpty then none else some (some digits, rest)
  | rest => some (none, rest)

/-- Takes digits as long as what they stand for fits in 64 bits, and counts the rest. -/
def leading (significand : Nat) : List Char → Nat × Nat
  | [] => (significand, 0)
  | c :: rest =>
      let next := significand * 10 + Numeral.value 10 [c]
      if next < Numeral.wordValues 64 then leading next rest else (significand, rest.length + 1)

/-- A number times a power of ten, unless it is too great. Powers that are too small
for a binary number are taken in steps. -/
def scaled? (number : Binary64) (exponent : Int) : Option Binary64 :=
  if number.isZero then some number
  else if h : exponent < -308 then
    scaled? (number.dividedBy (.powerOfTen 308)) (exponent + 308)
  else if exponent < 0 then some (number.dividedBy (.powerOfTen (-exponent).toNat))
  else if exponent > 308 then none
  else some (number.times (.powerOfTen exponent.toNat)) |>.filter Binary64.isFinite
  termination_by (-exponent).toNat
  decreasing_by omega

/-- The value of a number. The sign of zero is kept, which only binary numbers have. -/
def number? (negative : Bool) (whole : List Char) (fraction : Option (List Char))
    (exponent : Option Int) : Option JsonValue :=
  let digits := fraction.getD []
  let (start, beyond) := leading 0 whole
  let (significand, unread) := leading start digits
  let power : Int := exponent.getD 0 + beyond - (digits.length - unread : Nat)
  let asFloat := (scaled? (.ofNat significand) power).map fun magnitude =>
    JsonValue.float (if negative then magnitude.opposite else magnitude)
  match fraction, exponent with
  | none, none =>
      let magnitude := Numeral.value 10 whole
      if negative then
        if magnitude = 0 ∨ magnitude > Numeral.wordValues 63 then asFloat
        else some (.integer (-magnitude))
      else if magnitude < Numeral.wordValues 64 then some (.integer magnitude) else asFloat
  | _, _ => asFloat

def readNumber (negative : Bool) (input : List Char) : Option (JsonValue × List Char) := do
  let (whole, rest) := Numeral.span input
  if whole.isEmpty || whole.length > 1 && whole.head? == some '0' then none
  else
    let (fraction, rest) ← readFraction rest
    let (exponent, rest) ← readExponent rest
    let value ← number? negative whole fraction exponent
    some (value, rest)

/-- Sets a member: the last value of a key stands at the place of the first. -/
def insert (key : String) (value : JsonValue) :
    List (String × JsonValue) → List (String × JsonValue)
  | [] => [(key, value)]
  | entry :: rest =>
      if entry.1 = key then (key, value) :: rest else entry :: insert key value rest

mutual

def readValue : Nat → List Char → Option (JsonValue × List Char)
  | 0, _ => none
  | steps + 1, input =>
      match skipBlanks input with
      | 'n' :: 'u' :: 'l' :: 'l' :: rest => some (.null, rest)
      | 't' :: 'r' :: 'u' :: 'e' :: rest => some (.bool true, rest)
      | 'f' :: 'a' :: 'l' :: 's' :: 'e' :: rest => some (.bool false, rest)
      | '"' :: rest => (readString rest).map fun (text, tail) => (.string (String.ofList text), tail)
      | '-' :: rest => readNumber true rest
      | '[' :: rest =>
          match skipBlanks rest with
          | ']' :: rest => some (.array [], rest)
          | rest => (readItems steps rest).map fun (items, tail) => (.array items, tail)
      | '{' :: rest =>
          match skipBlanks rest with
          | '}' :: rest => some (.object [], rest)
          | rest => (readMembers steps [] rest).map fun (members, tail) => (.object members, tail)
      | rest => readNumber false rest

/-- The items of an array up to its closing bracket, at least one. -/
def readItems : Nat → List Char → Option (List JsonValue × List Char)
  | 0, _ => none
  | steps + 1, input =>
      match readValue steps input with
      | none => none
      | some (item, rest) =>
          match skipBlanks rest with
          | ']' :: rest => some ([item], rest)
          | ',' :: rest => (readItems steps rest).map fun (items, tail) => (item :: items, tail)
          | _ => none

/-- The members of an object up to its closing brace, at least one. -/
def readMembers : Nat → List (String × JsonValue) → List Char →
    Option (List (String × JsonValue) × List Char)
  | 0, _, _ => none
  | steps + 1, members, input =>
      match skipBlanks input with
      | '"' :: rest =>
          match readString rest with
          | none => none
          | some (key, rest) =>
              match skipBlanks rest with
              | ':' :: rest =>
                  match readValue steps rest with
                  | none => none
                  | some (value, rest) =>
                      let members := insert (String.ofList key) value members
                      match skipBlanks rest with
                      | '}' :: rest => some (members, rest)
                      | ',' :: rest => readMembers steps members rest
                      | _ => none
              | _ => none
      | _ => none

end

/-- The value that a text holds. -/
def read? (text : String) : Option JsonValue :=
  let input := text.toList
  match readValue (2 * input.length + 2) input with
  | some (value, rest) => if (skipBlanks rest).isEmpty then some value else none
  | none => none

end StyledMarkup.JsonReader
