import StyledMarkup.Numeral

/-!
# Keys of settings

A key names a setting by the path to it: a name, then names behind points and
positions in brackets, such as `convert.strict` or `convert[1]`. A name consists of
ASCII letters, digits, spaces, underscores and hyphens. A negative position counts
from the end.
-/
namespace StyledMarkup

inductive SettingStep where
  | child (name : String)
  | index (position : Int)
  deriving DecidableEq, Repr

structure SettingKey where
  name : String
  steps : List SettingStep
  deriving DecidableEq, Repr

/-- What is wrong with the text of a key. -/
inductive KeyFault where
  /-- No name at the beginning. -/
  | noName
  /-- Something that continues no key. -/
  | noStep
  /-- No number in brackets. -/
  | noPosition
  /-- A position out of the range of 64 bits. -/
  | positionTooFar
  deriving DecidableEq, Repr

def KeyFault.message : KeyFault → String
  | noName => "IsA"
  | noStep => "Char"
  | noPosition => "Digit"
  | positionTooFar => "Map on Result"

namespace SettingKey

def isNameChar (c : Char) : Bool := c.isAlphanum || c == ' ' || c == '_' || c == '-'

def isBlank (c : Char) : Bool := c == ' ' || c == '\t'

/-- A position with blanks around it, and what follows. -/
def readPosition (text : List Char) : Except KeyFault (Int × List Char) :=
  let (negative, digits) :=
    match text.dropWhile isBlank with
    | '-' :: rest => (true, rest)
    | rest => (false, rest)
  match Numeral.span digits with
  | ([], _) => .error .noPosition
  | (digits, rest) =>
      let magnitude : Int := Numeral.value 10 digits
      let position := if negative then -magnitude else magnitude
      let bound : Int := Numeral.wordValues 63
      if -bound ≤ position ∧ position < bound then .ok (position, rest.dropWhile isBlank)
      else .error .positionTooFar

/-- The steps of a key. Each takes a character, so the length bounds their number. -/
def readSteps : Nat → List Char → Except KeyFault (List SettingStep)
  | _, [] => .ok []
  | 0, _ => .error .noStep
  | bound + 1, '.' :: rest =>
      match rest.takeWhile isNameChar with
      | [] => .error .noStep
      | name =>
          (readSteps bound (rest.dropWhile isNameChar)).map (.child (String.ofList name) :: ·)
  | bound + 1, '[' :: rest =>
      match readPosition rest with
      | .error fault => .error fault
      | .ok (position, ']' :: rest) => (readSteps bound rest).map (.index position :: ·)
      | .ok _ => .error .noStep
  | _, _ => .error .noStep

def ofText (text : String) : Except KeyFault SettingKey :=
  let chars := text.toList
  match chars.takeWhile isNameChar with
  | [] => .error .noName
  | name =>
      (readSteps chars.length (chars.dropWhile isNameChar)).map fun steps =>
        ⟨String.ofList name, steps⟩

end SettingKey

end StyledMarkup
