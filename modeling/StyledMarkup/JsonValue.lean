import StyledMarkup.Binary64

/-!
# JSON values and their text

Values keep their members in order. There are two ways of writing a value: on
one line without blanks, and laid out with one item or member on each line and
two columns of indentation for each level. In strings only the quote, the
backslash and the control characters below the space are escaped.
-/
namespace StyledMarkup

inductive JsonValue where
  | null
  | bool (value : Bool)
  | integer (value : Int)
  | float (value : Binary64)
  | string (value : String)
  | array (items : List JsonValue)
  | object (members : List (String × JsonValue))
  deriving Repr, Inhabited

namespace JsonValue

/-- Whole numbers have a fraction, and large and small ones an exponent. -/
def numberFormat : Binary64.Format := ⟨.even, true, some (-5, 15)⟩

def escape (c : Char) : List Char :=
  if c = '"' then ['\\', '"']
  else if c = '\\' then ['\\', '\\']
  else if c = '\x08' then ['\\', 'b']
  else if c = '\x0c' then ['\\', 'f']
  else if c = '\n' then ['\\', 'n']
  else if c = '\r' then ['\\', 'r']
  else if c = '\t' then ['\\', 't']
  else if c.toNat < 0x20 then
    ['\\', 'u', '0', '0', Nat.digitChar (c.toNat / 16), Nat.digitChar (c.toNat % 16)]
  else [c]

def stringText (text : String) : String :=
  "\"" ++ String.ofList (text.toList.flatMap escape) ++ "\""

/-- The text of a value that holds no others. -/
def scalarText : JsonValue → String
  | bool value => if value then "true" else "false"
  | integer value => toString value
  | float value => value.text numberFormat
  | string value => stringText value
  | _ => "null"

mutual

/-- The value on one line. -/
def compact : JsonValue → String
  | array items => "[" ++ ",".intercalate (compactItems items) ++ "]"
  | object members => "\x7b" ++ ",".intercalate (compactMembers members) ++ "\x7d"
  | scalar => scalar.scalarText

def compactItems : List JsonValue → List String
  | [] => []
  | item :: rest => item.compact :: compactItems rest

def compactMembers : List (String × JsonValue) → List String
  | [] => []
  | (key, value) :: rest => (stringText key ++ ":" ++ value.compact) :: compactMembers rest

end

/-- A line break and the blanks of a level. -/
def lineBreak (level : Nat) : String := "\n" ++ String.ofList (List.replicate (2 * level) ' ')

/-- The given parts on lines of their own between two brackets. -/
def block (level : Nat) (opening closing : String) (parts : List String) : String :=
  if parts.isEmpty then opening ++ closing
  else
    opening ++ lineBreak (level + 1) ++
      ("," ++ lineBreak (level + 1)).intercalate parts ++ lineBreak level ++ closing

mutual

/-- The value laid out over several lines, the first of which is at the given level. -/
def layout (level : Nat) : JsonValue → String
  | array items => block level "[" "]" (layoutItems (level + 1) items)
  | object members => block level "\x7b" "\x7d" (layoutMembers (level + 1) members)
  | scalar => scalar.scalarText

def layoutItems (level : Nat) : List JsonValue → List String
  | [] => []
  | item :: rest => item.layout level :: layoutItems level rest

def layoutMembers (level : Nat) : List (String × JsonValue) → List String
  | [] => []
  | (key, value) :: rest =>
      (stringText key ++ ": " ++ value.layout level) :: layoutMembers level rest

end

/-- The text of a file that holds the value. -/
def fileText (value : JsonValue) : String := value.layout 0 ++ "\n"

/-- The member of that name. -/
def member? (key : String) : JsonValue → Option JsonValue
  | object members => (members.find? fun entry => entry.1 == key).map (·.2)
  | _ => none

end JsonValue

end StyledMarkup
