import StyledMarkup.JsonValue
import StyledMarkup.QuotedText

/-!
# What can be wrong with a value

A value that is read as a style, a run, a document or a token may have another
shape than is asked for. A fault names what was found and what was expected in
its place.
-/
namespace StyledMarkup

/-- What stands where something else was expected. -/
inductive Found where
  | null
  | bool (value : Bool)
  | integer (value : Int)
  | float (value : Binary64)
  | string (value : String)
  | sequence
  | map
  /-- The name of a variant without what belongs to it. -/
  | unitVariant
  deriving DecidableEq, Repr

namespace Found

def ofValue : JsonValue → Found
  | .null => null
  | .bool value => bool value
  | .integer value => integer value
  | .float value => float value
  | .string value => string value
  | .array _ => sequence
  | .object _ => map

def description : Found → String
  | null => "null"
  | bool value => "boolean `" ++ (if value then "true" else "false") ++ "`"
  | integer value => "integer `" ++ toString value ++ "`"
  | float value => "floating point `" ++ value.text JsonValue.numberFormat ++ "`"
  | string value => "string " ++ QuotedText.quote value
  | sequence => "sequence"
  | map => "map"
  | unitVariant => "unit variant"

end Found

inductive DecodeFault where
  /-- A value of another kind. -/
  | invalidType (found : Found) (expected : String)
  /-- A value of the right kind and out of range. -/
  | invalidValue (found : Found) (expected : String)
  | invalidLength (length : Nat) (expected : String)
  | missingField (name : String)
  | unknownVariant (name : String) (known : List String)
  deriving DecidableEq, Repr

namespace DecodeFault

def inBackquotes (name : String) : String := "`" ++ name ++ "`"

/-- The names that are allowed, as a phrase. -/
def choice : List String → String
  | [] => "there are no variants"
  | [a] => inBackquotes a
  | [a, b] => inBackquotes a ++ " or " ++ inBackquotes b
  | names => "one of " ++ ", ".intercalate (names.map inBackquotes)

/-- A record given as a list of its fields. -/
def recordOf (kind : String) (size : Nat) : String :=
  kind ++ " with " ++ toString size ++ (if size = 1 then " element" else " elements")

def message : DecodeFault → String
  | invalidType found expected =>
      "invalid type: " ++ found.description ++ ", expected " ++ expected
  | invalidValue found expected =>
      "invalid value: " ++ found.description ++ ", expected " ++ expected
  | invalidLength length expected =>
      "invalid length " ++ toString length ++ ", expected " ++ expected
  | missingField name => "missing field " ++ inBackquotes name
  | unknownVariant name known =>
      "unknown variant " ++ inBackquotes name ++ ", expected " ++ choice known

end DecodeFault

end StyledMarkup
