import StyledMarkup.Binary64

/-!
# Values of TOML documents

Besides numbers, texts and truth values there are dates and times. They have one
normal spelling each, and nothing here calculates with them, so they are kept as
texts in that spelling.

A word is a value without quotes: a truth value, a number, a date or a time. It is
read as a whole, after it has been cut out of the document. Texts have four forms:
with escapes or without, on one line or on several.
-/
namespace StyledMarkup

inductive TomlValue where
  | bool (value : Bool)
  | integer (value : Int)
  | float (value : Binary64)
  | string (value : String)
  /-- A date, a time or both, in the normal spelling. -/
  | dateTime (spelling : String)
  | array (items : List TomlValue)
  | table (entries : List (String × TomlValue))
  deriving Repr, Inhabited

namespace TomlWord

/-- The digits of a text in which single underscores may stand between digits. -/
def digits? (base : Nat) (text : List Char) : Option (List Char) :=
  let parts := text.splitOnP (· == '_')
  if parts.all fun part => !part.isEmpty && part.all (Numeral.isDigit base) then
    some parts.flatten
  else none

/-- Decimal digits without padding. -/
def wholeDigits? (text : List Char) : Option (List Char) :=
  (digits? 10 text).filter fun digits => digits.length == 1 || digits.head? != some '0'

def integerBound : Int := Numeral.wordValues 63

/-- A number with a base, which has no sign. -/
def based? : List Char → Option Int
  | '0' :: 'x' :: text => (digits? 16 text).map fun digits => Numeral.value 16 digits
  | '0' :: 'o' :: text => (digits? 8 text).map fun digits => Numeral.value 8 digits
  | '0' :: 'b' :: text => (digits? 2 text).map fun digits => Numeral.value 2 digits
  | _ => none

def integer? (text : List Char) : Option Int :=
  let (negative, magnitude) := Numeral.signed text
  let decimal := (wholeDigits? magnitude).map fun digits =>
    if negative then -(Numeral.value 10 digits : Int) else Numeral.value 10 digits
  ((based? text).or decimal).filter fun value => -integerBound ≤ value && value < integerBound

def isExponentMark (c : Char) : Bool := c == 'e' || c == 'E'

/-- A number with a fraction, an exponent or both. -/
def decimal? (text : List Char) : Option Decimal := do
  let (negative, magnitude) := Numeral.signed text
  let mantissa := magnitude.takeWhile fun c => !isExponentMark c
  let exponent ←
    match magnitude.dropWhile fun c => !isExponentMark c with
    | [] => some none
    | _ :: exponent =>
        let (negative, digits) := Numeral.signed exponent
        (digits? 10 digits).map fun digits =>
          some (if negative then -(Numeral.value 10 digits : Int) else Numeral.value 10 digits)
  let whole ← wholeDigits? (mantissa.takeWhile (· != '.'))
  let fraction ←
    match mantissa.dropWhile (· != '.') with
    | [] => some none
    | _ :: fraction => (digits? 10 fraction).map some
  if fraction.isNone && exponent.isNone then none
  else some (.ofDigits negative whole (fraction.getD []) (exponent.getD 0))

/-- A number in floating point. One that is too great is refused unless it is
negative. -/
def float? (text : List Char) : Option Binary64 :=
  let (negative, magnitude) := Numeral.signed text
  if magnitude = ['i', 'n', 'f'] then some (.infinite negative)
  else if magnitude = ['n', 'a', 'n'] then some .nan
  else ((decimal? text).map Binary64.ofDecimal).filter (· != .infinite false)

/-! ## Dates and times -/

/-- A number of exactly two digits within bounds, and what follows it. -/
def twoDigits? (low high : Nat) : List Char → Option (Nat × List Char)
  | a :: b :: rest =>
      ((Numeral.read? 10 [a, b]).filter fun n => low ≤ n && n ≤ high).map (·, rest)
  | _ => none

def char? (expected : Char) : List Char → Option (List Char)
  | c :: rest => if c = expected then some rest else none
  | [] => none

def isLeapYear (year : Nat) : Bool := year % 4 == 0 && (year % 100 != 0 || year % 400 == 0)

def daysIn (year month : Nat) : Nat :=
  if month = 2 then if isLeapYear year then 29 else 28
  else if [4, 6, 9, 11].contains month then 30
  else 31

def padded (width n : Nat) : String :=
  let digits := toString n
  String.ofList (List.replicate (width - digits.length) '0') ++ digits

/-- A calendar day in its normal spelling. -/
def date? : List Char → Option (String × List Char)
  | a :: b :: c :: d :: rest => do
      let year ← Numeral.read? 10 [a, b, c, d]
      let rest ← char? '-' rest
      let (month, rest) ← twoDigits? 1 12 rest
      let rest ← char? '-' rest
      let (day, rest) ← twoDigits? 1 31 rest
      if daysIn year month < day then none
      else some (padded 4 year ++ "-" ++ padded 2 month ++ "-" ++ padded 2 day, rest)
  | _ => none

/-- The part of a second, to nine digits and without zeros at the end. -/
def secondFraction (digits : List Char) : String :=
  let kept := ((digits.take 9).reverse.dropWhile (· == '0')).reverse
  if kept.isEmpty then "" else "." ++ String.ofList kept

/-- A time of day in its normal spelling. -/
def time? (text : List Char) : Option (String × List Char) := do
  let (hour, rest) ← twoDigits? 0 23 text
  let rest ← char? ':' rest
  let (minute, rest) ← twoDigits? 0 59 rest
  let rest ← char? ':' rest
  let (second, rest) ← twoDigits? 0 60 rest
  let spelling := padded 2 hour ++ ":" ++ padded 2 minute ++ ":" ++ padded 2 second
  match rest with
  | '.' :: rest =>
      let (digits, rest) := Numeral.span rest
      if digits.isEmpty then none else some (spelling ++ secondFraction digits, rest)
  | rest => some (spelling, rest)

/-- The distance from universal time at the end of a text. -/
def offset? : List Char → Option String
  | [] => some ""
  | ['Z'] => some "Z"
  | ['z'] => some "Z"
  | sign :: rest => do
      let (hour, rest) ← twoDigits? 0 23 rest
      let rest ← char? ':' rest
      let (minute, rest) ← twoDigits? 0 59 rest
      if !rest.isEmpty then none
      else
        let spelling := padded 2 hour ++ ":" ++ padded 2 minute
        if sign = '+' || sign = '-' && hour + minute = 0 then some ("+" ++ spelling)
        else if sign = '-' then some ("-" ++ spelling)
        else none

def isTimeMark (c : Char) : Bool := c == 'T' || c == 't' || c == ' '

def dateTime? (text : List Char) : Option String :=
  match date? text with
  | some (date, []) => some date
  | some (date, mark :: rest) => do
      if !isTimeMark mark then none
      let (time, rest) ← time? rest
      let offset ← offset? rest
      return date ++ "T" ++ time ++ offset
  | none =>
      match time? text with
      | some (time, []) => some time
      | _ => none

def read? (word : List Char) : Option TomlValue :=
  if word = ['t', 'r', 'u', 'e'] then some (.bool true)
  else if word = ['f', 'a', 'l', 's', 'e'] then some (.bool false)
  else
    ((dateTime? word).map .dateTime).or
      (((integer? word).map .integer).or ((float? word).map .float))

/-- The characters of words. -/
def isWordChar (c : Char) : Bool :=
  c.isAlphanum || c == '+' || c == '-' || c == '_' || c == '.' || c == ':'

/-- The word at the beginning of a text, and what follows it. One space may stand
between a date and a time. -/
def span (text : List Char) : List Char × List Char :=
  let word := text.takeWhile isWordChar
  match text.dropWhile isWordChar with
  | ' ' :: c :: rest =>
      if (date? word).any (·.2.isEmpty) && c.isDigit then
        (word ++ ' ' :: (c :: rest).takeWhile isWordChar, (c :: rest).dropWhile isWordChar)
      else (word, ' ' :: c :: rest)
  | rest => (word, rest)

end TomlWord

namespace TomlText

def isBlank (c : Char) : Bool := c == ' ' || c == '\t'

/-- Whether a character may stand in a text or in a comment as it is. -/
def isPlain (c : Char) : Bool := c == '\t' || (0x20 ≤ c.toNat && c.toNat != 0x7f)

def shortEscape? : Char → Option Char
  | 'b' => some '\x08'
  | 't' => some '\t'
  | 'n' => some '\n'
  | 'f' => some '\x0c'
  | 'r' => some '\r'
  | '"' => some '"'
  | '\\' => some '\\'
  | _ => none

/-- The character with a code in hexadecimal digits, if there is one. -/
def coded? (digits : List Char) : Option Char :=
  (Numeral.read? 16 digits).bind fun code =>
    if code < 0xd800 ∨ 0xdfff < code ∧ code < 0x110000 then some (Char.ofNat code) else none

/-- The texts that are read, with what follows them. -/
abbrev Reading := Option (List Char × List Char)

def Reading.cons (c : Char) (reading : Reading) : Reading :=
  reading.map fun (text, rest) => (c :: text, rest)

/-- A text with escapes, up to the closing quote. -/
def readBasic : List Char → Reading
  | '"' :: rest => some ([], rest)
  | '\\' :: 'u' :: a :: b :: c :: d :: rest =>
      match coded? [a, b, c, d] with
      | some char => .cons char (readBasic rest)
      | none => none
  | '\\' :: 'U' :: a :: b :: c :: d :: e :: f :: g :: h :: rest =>
      match coded? [a, b, c, d, e, f, g, h] with
      | some char => .cons char (readBasic rest)
      | none => none
  | '\\' :: c :: rest =>
      match shortEscape? c with
      | some char => .cons char (readBasic rest)
      | none => none
  | c :: rest => if isPlain c then .cons c (readBasic rest) else none
  | [] => none

/-- A text without escapes, up to the closing quote. -/
def readLiteral : List Char → Reading
  | '\'' :: rest => some ([], rest)
  | c :: rest => if isPlain c then .cons c (readLiteral rest) else none
  | [] => none

/-- Up to two quotes before the three closing ones belong to the text. -/
def closeLong (quote : Char) : List Char → List Char × List Char
  | a :: b :: rest =>
      if a = quote then
        if b = quote then ([quote, quote], rest) else ([quote], b :: rest)
      else ([], a :: b :: rest)
  | [a] => if a = quote then ([quote], []) else ([], [a])
  | [] => ([], [])

/-- Whether only blanks stand before the end of the line. -/
def endsLine (text : List Char) : Bool :=
  match text.dropWhile isBlank with
  | '\n' :: _ => true
  | '\r' :: '\n' :: _ => true
  | _ => false

/-- A text of several lines with escapes. Behind a backslash at the end of a line,
`skipping` passes over all blanks and breaks. -/
def readLongBasic (skipping : Bool) : List Char → Reading
  | '\n' :: rest =>
      if skipping then readLongBasic true rest else .cons '\n' (readLongBasic false rest)
  | '\r' :: '\n' :: rest =>
      if skipping then readLongBasic true rest else .cons '\n' (readLongBasic false rest)
  | '"' :: '"' :: '"' :: rest => some (closeLong '"' rest)
  | '\\' :: 'u' :: a :: b :: c :: d :: rest =>
      match coded? [a, b, c, d] with
      | some char => .cons char (readLongBasic false rest)
      | none => none
  | '\\' :: 'U' :: a :: b :: c :: d :: e :: f :: g :: h :: rest =>
      match coded? [a, b, c, d, e, f, g, h] with
      | some char => .cons char (readLongBasic false rest)
      | none => none
  | '\\' :: c :: rest =>
      if endsLine (c :: rest) then
        if isBlank c then readLongBasic true rest
        else readLongBasic true (c :: rest)
      else
        match shortEscape? c with
        | some char => .cons char (readLongBasic false rest)
        | none => none
  | c :: rest =>
      if skipping && isBlank c then readLongBasic true rest
      else if isPlain c then .cons c (readLongBasic false rest)
      else none
  | [] => none

/-- A text of several lines without escapes. -/
def readLongLiteral : List Char → Reading
  | '\'' :: '\'' :: '\'' :: rest => some (closeLong '\'' rest)
  | '\r' :: '\n' :: rest => .cons '\n' (readLongLiteral rest)
  | '\n' :: rest => .cons '\n' (readLongLiteral rest)
  | c :: rest => if isPlain c then .cons c (readLongLiteral rest) else none
  | [] => none

/-- A break right behind the opening quotes does not count. -/
def skipFirstBreak : List Char → List Char
  | '\n' :: rest => rest
  | '\r' :: '\n' :: rest => rest
  | rest => rest

/-- A text in one of its four forms. -/
def read? : List Char → Reading
  | '"' :: '"' :: '"' :: rest => readLongBasic false (skipFirstBreak rest)
  | '\'' :: '\'' :: '\'' :: rest => readLongLiteral (skipFirstBreak rest)
  | '"' :: rest => readBasic rest
  | '\'' :: rest => readLiteral rest
  | _ => none

end TomlText

end StyledMarkup
