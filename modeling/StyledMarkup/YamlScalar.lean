import StyledMarkup.Binary64

/-!
# Texts as YAML scalars

A text is written plain if it is still that text when it is read back, and in
the lightest of the other styles if not. A text of several lines asks for the
literal style; one that would be read as a null, a truth value or a number asks
for single quotes. Where the style asked for cannot hold the text, the next one
is taken, double quotes in the end, which hold anything. Lines are never folded.
-/
namespace StyledMarkup

namespace YamlScalar

def isBreak (c : Char) : Bool :=
  c == '\n' || c == '\r' || c == '\u0085' || c == '\u2028' || c == '\u2029'

/-- White space as far as indicators are concerned. -/
def isBlank (c : Char) : Bool := c == ' ' || c == '\t' || isBreak c

/-- Whether a character may stand in a scalar without an escape. -/
def isPrintable (c : Char) : Bool :=
  c == '\n' || (0x20 ≤ c.toNat && c.toNat ≤ 0x7e) ||
    (0xa0 ≤ c.toNat && c != '\ufeff' && c != '\ufffe' && c != '\uffff')

/-! ## Texts that read as something else -/

def isNullOrBool (text : String) : Bool :=
  ["", "~", "null", "Null", "NULL", "true", "True", "TRUE", "false", "False", "FALSE"].contains text

/-- The base that a number's first characters name, and the digits after them. -/
def basedDigits? : List Char → Option (Nat × List Char)
  | '0' :: 'x' :: digits => some (16, digits)
  | '0' :: 'o' :: digits => some (8, digits)
  | '0' :: 'b' :: digits => some (2, digits)
  | _ => none

/-- Whether the text is a number with a base, in the range of 128 bits. A number
without minus has no sign bit. -/
def isBasedInteger (text : List Char) : Bool :=
  let (negative, magnitude) := Numeral.signed text
  match basedDigits? magnitude with
  | none => false
  | some (base, digits) =>
      match Numeral.read? base digits with
      | none => false
      | some value =>
          if negative then value ≤ Numeral.wordValues 127 else value < Numeral.wordValues 128

/-- Whether the text is a row of digits, with a sign or without. -/
def isDigits (text : List Char) : Bool :=
  (Numeral.read? 10 (Numeral.signed text).2).isSome

/-- Whether the text is a row of digits that begins with a zero to no purpose. -/
def isZeroPadded (text : List Char) : Bool :=
  let digits := (Numeral.signed text).2
  isDigits text && digits.length > 1 && digits.head? == some '0'

def isExponent : List Char → Bool
  | [] => true
  | c :: rest => (c == 'e' || c == 'E') && isDigits rest

/-- The exponent that `isExponent` has found. -/
def exponentOf : List Char → Int
  | [] => 0
  | _ :: rest =>
      let (negative, digits) := Numeral.signed rest
      let value : Int := Numeral.value 10 digits
      if negative then -value else value

/-- Digits with at most one point among them and perhaps an exponent. -/
def float? (text : List Char) : Option Binary64 :=
  let (negative, magnitude) := Numeral.signed text
  let (whole, rest) := Numeral.span magnitude
  let (fraction, rest) :=
    match rest with
    | '.' :: rest => Numeral.span rest
    | rest => ([], rest)
  if (whole ++ fraction).isEmpty || !isExponent rest then none
  else some (.ofDecimal (.ofDigits negative whole fraction (exponentOf rest)))

/-- Whether the text is a number in floating point that is not out of range, or the
name of infinity or of what is not a number. -/
def isFloat (text : String) : Bool :=
  [".inf", ".Inf", ".INF", "+.inf", "+.Inf", "+.INF", "-.inf", "-.Inf", "-.INF",
      ".nan", ".NaN", ".NAN"].contains text ||
    ((float? text.toList).map Binary64.isFinite).getD false

/-- Whether the text, written plain, would be read as something that is no text.
Integers without a base count as numbers in floating point, padded ones as numbers
of a kind of their own. -/
def readsAsOther (text : String) : Bool :=
  isNullOrBool text || isBasedInteger text.toList || isZeroPadded text.toList || isFloat text

/-! ## Styles -/

inductive Layout where
  | plain | singleQuoted | doubleQuoted | literal
  deriving DecidableEq, Repr

/-- Whether the text has neighbours of these two kinds. -/
def hasNeighbours (first second : Char → Bool) : List Char → Bool
  | a :: b :: rest => first a && second b || hasNeighbours first second (b :: rest)
  | _ => false

def isSpace (c : Char) : Bool := c == ' '

/-- Whether the text begins with something that has a meaning there. -/
def startsWithIndicator : List Char → Bool
  | '-' :: '-' :: '-' :: _ => true
  | '.' :: '.' :: '.' :: _ => true
  | c :: rest =>
      "#,[]\x7b\x7d&*!|>'\"%@`".toList.contains c ||
        ((c == '?' || c == ':' || c == '-') && (rest.head?.map isBlank).getD true)
  | [] => false

/-- Whether the text holds the end of a key or the beginning of a comment. -/
def holdsIndicator (text : List Char) : Bool :=
  hasNeighbours (· == ':') isBlank text || text.getLast? == some ':' ||
    hasNeighbours isBlank (· == '#') text

/-- Whether a character has to be escaped, or a space be made visible that stands
before the end of a line. -/
def needsEscapes (text : List Char) : Bool :=
  !text.all isPrintable || hasNeighbours isSpace isBreak text

def allowsPlain (text : List Char) : Bool :=
  !needsEscapes text && !text.any isBreak && text.head? != some ' ' &&
    text.getLast? != some ' ' && !startsWithIndicator text && !holdsIndicator text

def allowsSingleQuotes (text : List Char) : Bool :=
  !needsEscapes text && !hasNeighbours isBreak isSpace text

def allowsLiteral (text : List Char) : Bool :=
  !needsEscapes text && text.getLast? != some ' '

def quoted (text : List Char) : Layout :=
  if allowsSingleQuotes text then .singleQuoted else .doubleQuoted

/-- How a text is written. -/
def layout (text : String) : Layout :=
  let chars := text.toList
  if chars.contains '\n' then if allowsLiteral chars then .literal else .doubleQuoted
  else if readsAsOther text then quoted chars
  else if allowsPlain chars then .plain
  else quoted chars

/-! ## Text -/

/-- The code of a character in capital hexadecimal digits, padded to a width. -/
def hexCode (width : Nat) (c : Char) : List Char :=
  let digits := (Nat.toDigits 16 c.toNat).map Char.toUpper
  List.replicate (width - digits.length) '0' ++ digits

/-- How a character stands between double quotes. -/
def escape (c : Char) : List Char :=
  if c == '"' then ['\\', '"']
  else if c == '\\' then ['\\', '\\']
  else if isPrintable c && !isBreak c then [c]
  else
    match c.toNat with
    | 0x00 => ['\\', '0']
    | 0x07 => ['\\', 'a']
    | 0x08 => ['\\', 'b']
    | 0x09 => ['\\', 't']
    | 0x0a => ['\\', 'n']
    | 0x0b => ['\\', 'v']
    | 0x0c => ['\\', 'f']
    | 0x0d => ['\\', 'r']
    | 0x1b => ['\\', 'e']
    | 0x85 => ['\\', 'N']
    | 0x2028 => ['\\', 'L']
    | 0x2029 => ['\\', 'P']
    | code =>
        if code ≤ 0xff then ['\\', 'x'] ++ hexCode 2 c
        else if code ≤ 0xffff then ['\\', 'u'] ++ hexCode 4 c
        else ['\\', 'U'] ++ hexCode 8 c

/-- The lines of a text, each with the break at its end. -/
def breakLines : List Char → List (List Char)
  | [] => []
  | c :: rest =>
      if isBreak c then [c] :: breakLines rest
      else
        match breakLines rest with
        | [] => [[c]]
        | line :: lines => (c :: line) :: lines

/-- What stands behind the bar of a literal scalar: the indentation if the first line
cannot show it, and what becomes of the breaks at the end. -/
def literalHeader (text : List Char) : String :=
  let indentation :=
    match text.head? with
    | some c => if c == ' ' || isBreak c then "2" else ""
    | none => ""
  let ending :=
    match text.reverse with
    | [] => "-"
    | [c] => if isBreak c then "+" else "-"
    | last :: previous :: _ =>
        if !isBreak last then "-" else if isBreak previous then "+" else ""
  "|" ++ indentation ++ ending

def singleQuotedText (text : List Char) : List Char :=
  ['\''] ++ text.flatMap (fun c => if c == '\'' then ['\'', '\''] else [c]) ++ ['\'']

/-- The first line of the scalar, and the lines that follow it. -/
def lines (text : String) : List Char × List (List Char) :=
  let chars := text.toList
  match layout text with
  | .plain => (chars, [])
  | .doubleQuoted => (['"'] ++ chars.flatMap escape ++ ['"'], [])
  | .singleQuoted =>
      match breakLines (singleQuotedText chars) with
      | [] => ([], [])
      | first :: rest => (first, rest)
  | .literal => ((literalHeader chars).toList, breakLines chars)

end YamlScalar

end StyledMarkup
